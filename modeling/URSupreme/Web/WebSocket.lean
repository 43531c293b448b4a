import URSupreme.Lib.Run
import URSupreme.Lib.Table

/-!
# WebSocket authentication

`Web/WebSocket.h`: `on_handshake` checks the token of an upgrade request and leaves the identity for
the connect event, which finds it by the address of the TCP client; `on_event` keeps the state of
each client; `broadcast` sends an event to the clients of an identity.

Of the server library there are the TCP clients that are alive, each with its address, and the
sockets that are open, each with its id; an address and an id may be used again. TCP clients,
accepted handshakes and sockets are numbered; what was bound to which socket and what was sent to
which is kept.
-/

namespace URSupreme.WebSocket
open Lib

/-- `PendingAuth`, with the number of its handshake. -/
structure PendingAuth where
  client : Option Nat
  identityId : String
  createdMs : Nat
  handshake : Nat
  deriving DecidableEq, Repr

structure ClientState where
  clientId : Nat
  identityId : String := ""
  authed : Bool := false
  deriving DecidableEq, Repr

/-- A handshake that was accepted: on which TCP client, when, and with which token for which
identity. -/
structure Handshake where
  tcp : Nat
  time : Nat
  token : String
  identityId : String
  deriving DecidableEq, Repr

/-- An open socket: its number, its id, and its TCP client. -/
structure Socket where
  number : Nat
  id : Nat
  tcp : Nat
  deriving DecidableEq, Repr

/-- `pending_auths` and `clients`, the library, and what is kept. -/
structure Server where
  now : Nat := 0
  pendingAuths : List PendingAuth := []
  clients : List ClientState := []
  tcps : List (Nat × Nat) := []
  created : Nat := 0
  sockets : List Socket := []
  opened : List Nat := []
  handshakes : List Handshake := []
  bound : List (Nat × Nat) := []
  delivered : List (Nat × String) := []
  deriving DecidableEq, Repr

/-- `on_handshake`; `validator` is what the tokens stand for at a time. -/
def Server.onHandshake (validator : Nat → String → String) (s : Server) (tcp : Nat)
    (token id : String) : Server × Bool :=
  if token.length = 0 then (s, false) else
  let tokIden := validator s.now token
  if tokIden = "" then (s, false) else
  if 0 < id.length ∧ tokIden ≠ id then (s, false) else
  let client := lookup tcp s.tcps
  let stale := fun p : PendingAuth =>
    p.client = client || 30000 < (s.now % 2 ^ 32 + 2 ^ 32 - p.createdMs) % 2 ^ 32
  ({ s with
    pendingAuths := s.pendingAuths.filter (fun p => !stale p) ++
      [⟨client, tokIden, s.now % 2 ^ 32, s.handshakes.length⟩]
    handshakes := s.handshakes ++ [⟨tcp, s.now, token, tokIden⟩] }, true)

/-- The first pending entry of an address, and the others. -/
def takeAuth (client : Nat) : List PendingAuth → Option PendingAuth × List PendingAuth
  | [] => (none, [])
  | p :: ps =>
    if p.client = some client then (some p, ps)
    else ((takeAuth client ps).1, p :: (takeAuth client ps).2)

/-- `on_event` of `WS_EVT_CONNECT`; a socket is opened. -/
def Server.onConnect (s : Server) (tcp id : Nat) : Server :=
  let number := s.opened.length
  let s : Server := { s with
    sockets := s.sockets ++ [⟨number, id, tcp⟩]
    opened := s.opened ++ [tcp] }
  match (lookup tcp s.tcps).map fun client => takeAuth client s.pendingAuths with
  | some (some p, rest) =>
    { s with
      pendingAuths := rest
      clients := s.clients ++ [{ clientId := id, identityId := p.identityId, authed := true }]
      bound := s.bound ++ [(p.handshake, number)] }
  | _ => { s with clients := s.clients ++ [{ clientId := id }] }

/-- `on_event` of `WS_EVT_DISCONNECT`; the socket is closed. -/
def Server.onDisconnect (s : Server) (id : Nat) : Server :=
  { s with
    clients := s.clients.filter (·.clientId ≠ id)
    sockets := s.sockets.filter (·.id ≠ id) }

/-- The clients an event goes to. -/
def ClientState.listens (scope : String) (c : ClientState) : Bool :=
  c.authed && (scope = "" || c.identityId = scope)

/-- `AsyncWebSocket::text`: the open socket with the id. -/
def Server.text (s : Server) (id : Nat) : List Nat := (s.sockets.filter (·.id = id)).map (·.number)

/-- `broadcast`; `buf` is whether there is memory for the frame. -/
def Server.broadcast (s : Server) (scope : String) (buf : Bool) : Server :=
  if !s.clients.any (·.listens scope) then s else
  if !buf then s else
  { s with delivered := s.delivered ++
      ((s.clients.filter (·.listens scope)).flatMap fun c => s.text c.clientId).map (·, scope) }

inductive Event where
  | wait (ms : Nat)
  | accept (address : Nat)
  | free (tcp : Nat)
  | handshake (tcp : Nat) (token id : String)
  | connect (tcp id : Nat)
  | disconnect (id : Nat)
  | broadcast (scope : String) (buf : Bool)
  deriving DecidableEq, Repr

def Server.step (validator : Nat → String → String) (s : Server) : Event → Server
  | .wait ms => { s with now := s.now + ms }
  | .accept address => { s with tcps := s.tcps ++ [(s.created, address)], created := s.created + 1 }
  | .free tcp => { s with tcps := erase tcp s.tcps }
  | .handshake tcp token id => (s.onHandshake validator tcp token id).1
  | .connect tcp id => s.onConnect tcp id
  | .disconnect id => s.onDisconnect id
  | .broadcast scope buf => s.broadcast scope buf

/-- What the library does: TCP clients that are alive have different addresses, and sockets that are
open different ids; a request comes on a TCP client that is alive, and a socket is opened on one on
which a handshake was accepted. -/
def Server.Ok (s : Server) : Event → Prop
  | .accept address => ∀ x ∈ s.tcps, x.2 ≠ address
  | .handshake tcp _ _ => ∃ x ∈ s.tcps, x.1 = tcp
  | .connect tcp id => (∃ x ∈ s.tcps, x.1 = tcp) ∧ (∃ h ∈ s.handshakes, h.tcp = tcp) ∧
      ∀ so ∈ s.sockets, so.id ≠ id
  | _ => True

/-- Each accepted handshake is bound to at most one socket, of its own TCP client, and an event of
an identity goes to sockets only whose handshake had a token for it. -/
structure Bound (validator : Nat → String → String) (s : Server) : Prop where
  valid : ∀ h ∈ s.handshakes, h.identityId ≠ "" ∧ validator h.time h.token = h.identityId
  once : (s.bound.map (·.1)).Nodup
  own : ∀ n m, (n, m) ∈ s.bound → ∃ h, s.handshakes[n]? = some h ∧ s.opened[m]? = some h.tcp
  audience : ∀ m scope, (m, scope) ∈ s.delivered → scope ≠ "" →
    ∃ n h, (n, m) ∈ s.bound ∧ s.handshakes[n]? = some h ∧ h.identityId = scope

/-- What a state of the server stands for. -/
structure Inv (validator : Nat → String → String) (s : Server) :
    Prop extends Bound validator s where
  ids : (s.sockets.map (·.id)).Nodup
  numbers : ∀ so ∈ s.sockets, s.opened[so.number]? = some so.tcp
  clients : ∀ c ∈ s.clients, ∃ so ∈ s.sockets, so.id = c.clientId ∧ (c.authed = true →
    ∃ n h, (n, so.number) ∈ s.bound ∧ s.handshakes[n]? = some h ∧ h.identityId = c.identityId)
  pending : ∀ p ∈ s.pendingAuths, ∃ h, s.handshakes[p.handshake]? = some h ∧
    h.identityId = p.identityId ∧
    ∀ k a, p.client = some a → (k, a) ∈ s.tcps → (∃ h' ∈ s.handshakes, h'.tcp = k) → h.tcp = k
  fresh : (s.pendingAuths.map (·.handshake)).Nodup
  unbound : ∀ p ∈ s.pendingAuths, p.handshake ∉ s.bound.map (·.1)
  alive : ∀ x ∈ s.tcps, x.1 < s.created
  asked : ∀ h ∈ s.handshakes, h.tcp < s.created
  address : ∀ x ∈ s.tcps, ∀ y ∈ s.tcps, x.2 = y.2 → x.1 = y.1
  known : ∀ x ∈ s.tcps, lookup x.1 s.tcps = some x.2

section steps

variable {validator : Nat → String → String} {s : Server}

lemma takeAuth_some {client : Nat} {ps : List PendingAuth} {p : PendingAuth}
    (h : (takeAuth client ps).1 = some p) :
    p.client = some client ∧ ∃ l r, ps = l ++ p :: r ∧ (takeAuth client ps).2 = l ++ r := by
  induction ps with
  | nil => cases h
  | cons q ps ih =>
    rw [takeAuth] at h ⊢
    split at h
    next hq =>
      cases Option.some.inj h
      rw [if_pos hq]
      exact ⟨hq, [], ps, rfl, rfl⟩
    next hq =>
      obtain ⟨hp, l, r, hps, hrest⟩ := ih h
      rw [if_neg hq]
      exact ⟨hp, q :: l, r, congrArg (q :: ·) hps, congrArg (q :: ·) hrest⟩

/-- Numbers that are given out stay as they are. -/
lemma getElem?_snoc {α : Type} {l : List α} {n : Nat} {a b : α} (h : l[n]? = some a) :
    (l ++ [b])[n]? = some a :=
  (List.getElem?_append_left (List.getElem?_eq_some_iff.mp h).1).trans h

lemma Inv.handshake {tcp : Nat} {token id : String} (h : Inv validator s)
    (hok : s.Ok (.handshake tcp token id)) :
    Inv validator (s.onHandshake validator tcp token id).1 := by
  unfold Server.onHandshake
  split
  next => exact h
  next =>
    simp only
    split
    next => exact h
    next hid =>
      split
      next => exact h
      next =>
        obtain ⟨⟨tcp, client⟩, hmem, rfl⟩ := hok
        have hc : lookup tcp s.tcps = some client := h.known _ hmem
        have hlt : ∀ {n : Nat} {h' : Handshake}, s.handshakes[n]? = some h' →
            n < s.handshakes.length := fun hn => (List.getElem?_eq_some_iff.mp hn).1
        exact {
          valid := fun h' hm => by
            obtain hm | hm := List.mem_append.mp hm
            · exact h.valid h' hm
            · rw [List.mem_singleton.mp hm]
              exact ⟨‹_›, rfl⟩
          once := h.once
          own := fun n m hb => by
            obtain ⟨h', hn, ho⟩ := h.own n m hb
            exact ⟨h', getElem?_snoc hn, ho⟩
          audience := fun m scope hm hne => by
            obtain ⟨n, h', hb, hn, hi⟩ := h.audience m scope hm hne
            exact ⟨n, h', hb, getElem?_snoc hn, hi⟩
          ids := h.ids
          numbers := h.numbers
          clients := fun c hc => by
            obtain ⟨so, hso, hid, hauth⟩ := h.clients c hc
            refine ⟨so, hso, hid, fun ha => ?_⟩
            obtain ⟨n, h', hb, hn, hi⟩ := hauth ha
            exact ⟨n, h', hb, getElem?_snoc hn, hi⟩
          pending := fun p hp => by
            obtain hp | hp := List.mem_append.mp hp
            · obtain ⟨hp, hstale⟩ := List.mem_filter.mp hp
              obtain ⟨h', hn, hi, hown⟩ := h.pending p hp
              refine ⟨h', getElem?_snoc hn, hi, fun k a ha hk hask => hown k a ha hk ?_⟩
              obtain ⟨h'', hm, rfl⟩ := hask
              obtain hm | hm := List.mem_append.mp hm
              · exact ⟨h'', hm, rfl⟩
              · -- the entries of the address have been dropped
                rw [List.mem_singleton.mp hm] at hk
                have he : p.client = lookup tcp s.tcps := ha.trans (h.known _ hk).symm
                simp [he] at hstale
            · rw [List.mem_singleton.mp hp]
              refine ⟨_, List.getElem?_concat_length, rfl, fun k a ha hk _ => ?_⟩
              have ha : a = client := Option.some.inj (ha.symm.trans hc)
              exact (h.address _ hk _ hmem ha).symm
          fresh := by
            rw [List.map_append]
            refine List.nodup_append.mpr ⟨h.fresh.sublist (List.filter_sublist.map _),
              List.nodup_singleton _, fun x hx y hy => ?_⟩
            obtain ⟨p, hp, rfl⟩ := List.mem_map.mp hx
            obtain ⟨h', hn, -⟩ := h.pending p (List.mem_of_mem_filter hp)
            rw [List.mem_singleton.mp hy]
            exact (hlt hn).ne
          unbound := fun p hp => by
            obtain hp | hp := List.mem_append.mp hp
            · exact h.unbound p (List.mem_of_mem_filter hp)
            · rw [List.mem_singleton.mp hp]
              intro hm
              obtain ⟨⟨n, m⟩, hb, he⟩ := List.mem_map.mp hm
              obtain ⟨h', hn, -⟩ := h.own n m hb
              exact (hlt hn).ne he
          alive := h.alive
          asked := fun h' hm => by
            obtain hm | hm := List.mem_append.mp hm
            · exact h.asked h' hm
            · rw [List.mem_singleton.mp hm]
              exact h.alive _ hmem
          address := h.address
          known := h.known }

/-- A socket is opened, bound to a handshake or not. -/
lemma Inv.opened {tcp id : Nat} {c : ClientState} {rest : List PendingAuth} {bs : List (Nat × Nat)}
    (h : Inv validator s) (hid : ∀ so ∈ s.sockets, so.id ≠ id) (hc : c.clientId = id)
    (hrest : rest.Sublist s.pendingAuths) (hbs : (s.bound ++ bs).map (·.1) |>.Nodup)
    (hfree : ∀ p ∈ rest, p.handshake ∉ bs.map (·.1))
    (hown : ∀ n m, (n, m) ∈ bs → m = s.opened.length ∧ ∃ h', s.handshakes[n]? = some h' ∧
    h'.tcp = tcp)
    (hauth : c.authed = true → ∃ n h', (n, s.opened.length) ∈ bs ∧ s.handshakes[n]? = some h' ∧
      h'.identityId = c.identityId) :
    Inv validator { s with
      sockets := s.sockets ++ [⟨s.opened.length, id, tcp⟩]
      opened := s.opened ++ [tcp]
      pendingAuths := rest
      clients := s.clients ++ [c]
      bound := s.bound ++ bs } where
  valid := h.valid
  once := hbs
  own n m hb := by
    obtain hb | hb := List.mem_append.mp hb
    · obtain ⟨h', hn, ho⟩ := h.own n m hb
      exact ⟨h', hn, getElem?_snoc ho⟩
    · obtain ⟨rfl, h', hn, rfl⟩ := hown n m hb
      exact ⟨h', hn, List.getElem?_concat_length⟩
  audience m scope hm hne := by
    obtain ⟨n, h', hb, hn, hi⟩ := h.audience m scope hm hne
    exact ⟨n, h', List.mem_append_left _ hb, hn, hi⟩
  ids := by
    rw [List.map_append]
    refine List.nodup_append.mpr ⟨h.ids, List.nodup_singleton _, fun x hx y hy => ?_⟩
    obtain ⟨so, hso, rfl⟩ := List.mem_map.mp hx
    rw [List.mem_singleton.mp hy]
    exact hid so hso
  numbers so hso := by
    obtain hso | hso := List.mem_append.mp hso
    · exact getElem?_snoc (h.numbers so hso)
    · rw [List.mem_singleton.mp hso]
      exact List.getElem?_concat_length
  clients c' hc' := by
    obtain hc' | hc' := List.mem_append.mp hc'
    · obtain ⟨so, hso, hsid, ha⟩ := h.clients c' hc'
      refine ⟨so, List.mem_append_left _ hso, hsid, fun hauth' => ?_⟩
      obtain ⟨n, h', hb, hn, hi⟩ := ha hauth'
      exact ⟨n, h', List.mem_append_left _ hb, hn, hi⟩
    · rw [List.mem_singleton.mp hc']
      refine ⟨_, List.mem_append_right _ (List.mem_singleton_self _), hc.symm, fun ha => ?_⟩
      obtain ⟨n, h', hb, hn, hi⟩ := hauth ha
      exact ⟨n, h', List.mem_append_right _ hb, hn, hi⟩
  pending p hp := h.pending p (hrest.subset hp)
  fresh := h.fresh.sublist (hrest.map _)
  unbound p hp := by
    rw [List.map_append, List.mem_append, not_or]
    exact ⟨h.unbound p (hrest.subset hp), hfree p hp⟩
  alive := h.alive
  asked := h.asked
  address := h.address
  known := h.known

lemma Inv.connect {tcp id : Nat} (h : Inv validator s) (hok : s.Ok (.connect tcp id)) :
    Inv validator (s.onConnect tcp id) := by
  obtain ⟨⟨⟨tcp, client⟩, hmem, rfl⟩, hasked, hid⟩ := hok
  have hc : lookup tcp s.tcps = some client := h.known _ hmem
  have hno : Inv validator { s with
      sockets := s.sockets ++ [⟨s.opened.length, id, tcp⟩]
      opened := s.opened ++ [tcp]
      clients := s.clients ++ [{ clientId := id }] } := by
    have := @Inv.opened validator s tcp id { clientId := id } s.pendingAuths [] h hid rfl (.refl _)
      (by rw [List.append_nil]; exact h.once) (fun _ _ => List.not_mem_nil) nofun nofun
    rwa [List.append_nil] at this
  unfold Server.onConnect
  simp only [hc, Option.map_some]
  cases hp : (takeAuth client s.pendingAuths).1 with
  | none =>
    rw [show takeAuth client s.pendingAuths = (none, (takeAuth client s.pendingAuths).2) from
      Prod.ext hp rfl]
    exact hno
  | some p =>
    obtain ⟨hcl, l, r, hps, hrest⟩ := takeAuth_some hp
    rw [show takeAuth client s.pendingAuths = (some p, l ++ r) from Prod.ext hp hrest]
    have hpm : p ∈ s.pendingAuths := by
      rw [hps]
      exact List.mem_append_right _ List.mem_cons_self
    obtain ⟨h', hn, hi, hown⟩ := h.pending p hpm
    have htcp : h'.tcp = tcp := hown tcp client hcl hmem hasked
    have hfresh := h.fresh
    rw [hps, List.map_append, List.map_cons] at hfresh
    refine h.opened hid rfl ?_ ?_ ?_ ?_ ?_
    · rw [hps]
      exact (List.sublist_cons_self p r).append_left l
    · rw [List.map_append]
      refine List.nodup_append.mpr ⟨h.once, List.nodup_singleton _, fun x hx y hy e => ?_⟩
      have hy : y = p.handshake := List.mem_singleton.mp hy
      exact h.unbound p hpm (hy ▸ e ▸ hx)
    · intro q hq hm
      have hq' : q.handshake ∈ l.map (·.handshake) ++ r.map (·.handshake) := by
        rw [← List.map_append]
        exact List.mem_map_of_mem hq
      have hnot := (List.nodup_middle.mp hfresh).notMem
      rw [List.mem_singleton.mp hm] at hq'
      exact hnot hq'
    · rintro n m hb
      obtain ⟨rfl, rfl⟩ := Prod.mk.inj (List.mem_singleton.mp hb)
      exact ⟨rfl, h', hn, htcp⟩
    · exact fun _ => ⟨p.handshake, h', List.mem_singleton_self _, hn, hi⟩

lemma Inv.disconnect {id : Nat} (h : Inv validator s) : Inv validator (s.onDisconnect id) where
  toBound := ⟨h.valid, h.once, h.own, h.audience⟩
  ids := h.ids.sublist (List.filter_sublist.map _)
  numbers so hso := h.numbers so (List.mem_of_mem_filter hso)
  clients c hc := by
    obtain ⟨hc, hid⟩ := List.mem_filter.mp hc
    obtain ⟨so, hso, hsid, hauth⟩ := h.clients c hc
    exact ⟨so, List.mem_filter.mpr ⟨hso, by rw [hsid]; exact hid⟩, hsid, hauth⟩
  pending := h.pending
  fresh := h.fresh
  unbound := h.unbound
  alive := h.alive
  asked := h.asked
  address := h.address
  known := h.known

lemma Inv.broadcast {scope : String} {buf : Bool} (h : Inv validator s) :
    Inv validator (s.broadcast scope buf) := by
  unfold Server.broadcast
  split
  next => exact h
  next =>
    split
    next => exact h
    next =>
      refine { h with audience := fun m scope' hm hne => ?_ }
      obtain hm | hm := List.mem_append.mp hm
      · exact h.audience m scope' hm hne
      · obtain ⟨m', hm', he⟩ := List.mem_map.mp hm
        obtain ⟨rfl, rfl⟩ := Prod.mk.inj he
        obtain ⟨c, hc, hm'⟩ := List.mem_flatMap.mp hm'
        obtain ⟨hc, hl⟩ := List.mem_filter.mp hc
        obtain ⟨hauth, hscope⟩ := Bool.and_eq_true_iff.mp hl
        obtain ⟨so', hso', rfl⟩ := List.mem_map.mp hm'
        obtain ⟨hso', hid'⟩ := List.mem_filter.mp hso'
        obtain ⟨so, hso, hid, hbound⟩ := h.clients c hc
        -- no two open sockets have the same id
        have hsame : so' = so := List.inj_on_of_nodup_map h.ids hso' hso
          ((of_decide_eq_true hid').trans hid.symm)
        obtain ⟨n, hs, hb, hh, hi⟩ := hbound hauth
        refine ⟨n, hs, hsame ▸ hb, hh, hi.trans ?_⟩
        exact of_decide_eq_true ((Bool.or_eq_true _ _ ▸ hscope).resolve_left fun e =>
          hne (of_decide_eq_true e))

/-- A new TCP client has an address of its own, and no handshake yet. -/
lemma Inv.accept {address : Nat} (h : Inv validator s) (hok : s.Ok (.accept address)) :
    Inv validator (s.step validator (.accept address)) where
  toBound := ⟨h.valid, h.once, h.own, h.audience⟩
  ids := h.ids
  numbers := h.numbers
  clients := h.clients
  pending p hp := by
    obtain ⟨h', hn, hi, hown⟩ := h.pending p hp
    refine ⟨h', hn, hi, fun k a ha hk hasked => ?_⟩
    obtain hk | hk := List.mem_append.mp hk
    · exact hown k a ha hk hasked
    · obtain ⟨rfl, -⟩ := Prod.mk.inj (List.mem_singleton.mp hk)
      obtain ⟨h'', hm, he⟩ := hasked
      exact absurd he (h.asked h'' hm).ne
  fresh := h.fresh
  unbound := h.unbound
  alive x hx := by
    obtain hx | hx := List.mem_append.mp hx
    · exact Nat.lt_succ_of_lt (h.alive x hx)
    · rw [List.mem_singleton.mp hx]
      exact Nat.lt_succ_self _
  asked h' hm := Nat.lt_succ_of_lt (h.asked h' hm)
  address x hx y hy e := by
    obtain hx | hx := List.mem_append.mp hx <;> obtain hy | hy := List.mem_append.mp hy
    · exact h.address x hx y hy e
    · rw [List.mem_singleton.mp hy] at e
      exact absurd e (hok x hx)
    · rw [List.mem_singleton.mp hx] at e
      exact absurd e.symm (hok y hy)
    · rw [List.mem_singleton.mp hx, List.mem_singleton.mp hy]
  known x hx := by
    have happ : lookup x.1 (s.tcps ++ [(s.created, address)]) =
        (lookup x.1 s.tcps).or (lookup x.1 [(s.created, address)]) := by
      rw [lookup, List.find?_append, Option.map_or]
      rfl
    refine happ.trans ?_
    obtain hx | hx := List.mem_append.mp hx
    · rw [h.known x hx]
      rfl
    · have hnone : lookup s.created s.tcps = none := by
        cases hl : lookup s.created s.tcps with
        | none => rfl
        | some a => exact absurd (h.alive _ (mem_of_lookup hl)) (lt_irrefl _)
      rw [List.mem_singleton.mp hx, hnone, lookup_cons, if_pos rfl]
      rfl

lemma Inv.step {e : Event} (hok : s.Ok e) (h : Inv validator s) :
    Inv validator (s.step validator e) := by
  cases e with
  | wait ms => exact { h with }
  | accept address => exact h.accept hok
  | free tcp =>
    have hmem : ∀ x, x ∈ erase tcp s.tcps → x ∈ s.tcps := fun x hx => (mem_erase.mp hx).1
    exact { h with
      pending := fun p hp => by
        obtain ⟨h', hn, hi, hown⟩ := h.pending p hp
        exact ⟨h', hn, hi, fun k a ha hk => hown k a ha (hmem _ hk)⟩
      alive := fun x hx => h.alive x (hmem x hx)
      address := fun x hx y hy => h.address x (hmem x hx) y (hmem y hy)
      known := fun x hx => by
        exact (lookup_erase_of_ne (mem_erase.mp hx).2).trans (h.known x (hmem x hx)) }
  | handshake tcp token id => exact h.handshake hok
  | connect tcp id => exact h.connect hok
  | disconnect id => exact h.disconnect
  | broadcast scope buf => exact h.broadcast

/-- **Each socket gets the events of its own identity**: what an accepted handshake left is bound to
one socket at most, of the TCP client of that handshake, and an event of an identity goes to such
sockets only. -/
theorem bound_of_reach (h : Reach (Server.step validator) Server.Ok {} s) : Bound validator s :=
  have h0 : Inv validator {} :=
    ⟨⟨nofun, List.nodup_nil, nofun, nofun⟩, List.nodup_nil, nofun, nofun, nofun, List.nodup_nil,
    nofun, nofun, nofun, nofun, nofun⟩
  (h.invariant h0 fun hok h => h.step hok).toBound

end steps

instance {s : Server} : ∀ {e}, Decidable (s.Ok e)
  | .accept address => inferInstanceAs (Decidable (∀ x ∈ s.tcps, x.2 ≠ address))
  | .handshake tcp _ _ => inferInstanceAs (Decidable (∃ x ∈ s.tcps, x.1 = tcp))
  | .connect tcp id => inferInstanceAs (Decidable ((∃ x ∈ s.tcps, x.1 = tcp) ∧
      (∃ h ∈ s.handshakes, h.tcp = tcp) ∧ ∀ so ∈ s.sockets, so.id ≠ id))
  | .wait _ | .free _ | .disconnect _ | .broadcast .. => .isTrue trivial

/-- Tokens that stand for the identity of their name. -/
def named (_ : Nat) (token : String) : String := token

/-- A handshake that comes to nothing, and another client at the same address. -/
def reallocated : List Event :=
  [.accept 4096, .handshake 0 "a" "", .free 0, .accept 4096, .handshake 1 "b" "b", .connect 1 1,
    .broadcast "a" true, .broadcast "b" true]

theorem bound_reallocated : Bound named (reallocated.foldl (Server.step named) {}) :=
  bound_of_reach (Reach.init.run (by decide))

end URSupreme.WebSocket
