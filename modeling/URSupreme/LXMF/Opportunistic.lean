import URSupreme.Lib.Trace
import URSupreme.LXMF.Delivery

/-!
# Single packets

The sends of `pending_opp_sends()` with the receipts that the transport concludes. A packet is sent
again until a proof comes or its attempts are spent, and the entry holds the receipt of the packet
that was sent last. `log` keeps what was sent for each entry and what was reported of it.
-/

namespace URSupreme.Outbound
open Lib LXMF

/-- `PacketReceipt` status. -/
inductive ReceiptStatus where
  | sent
  | delivered
  | failed
  deriving DecidableEq, Repr

/-- `PendingOppSend` with its receipt, by number. -/
structure Held extends PendingOppSend where
  receipt : Nat
  deriving DecidableEq, Repr

/-- What is told of one entry: a packet with its number, a status, or that it was armed again. -/
inductive Mark where
  | sent (n : Nat) (wire : Bytes)
  | delivered
  | failed
  | rearmed
  deriving DecidableEq, Repr

/-- `pending_opp_sends()`, the receipts and the log. -/
structure Packets where
  held : List (Bytes × Held) := []
  receipts : List ReceiptStatus := []
  log : List (Bytes × Mark) := []
  deriving DecidableEq, Repr

/-- What a tick finds: a path, the identity of the peer, and an interface that takes the packet. -/
structure TickEnv where
  pathKnown : Bool
  remoteKnown : Bool
  receipt : Bool
  deriving DecidableEq, Repr

/-- The packet of `send_prepared` that an interface takes. -/
def Packets.send (key destHash wire : Bytes) (owner now : Nat) (tag : Tag) (s : Packets) :
    Packets :=
  { held := insert key
      { recordHash := key, destHash, wire, owner, startedMs := now, deliveryAttempts := 1
        nextAttemptAtMs := now + DELIVERY_RETRY_WAIT_MS, status := .sent, tag
        receipt := s.receipts.length } s.held
    receipts := s.receipts ++ [.sent]
    log := s.log ++ [(key, .sent s.receipts.length wire)] }

/-- The transport concludes a receipt, once: a proof comes, or its time is over. -/
def Packets.conclude (n : Nat) (st : ReceiptStatus) (s : Packets) : Packets :=
  { s with receipts := s.receipts.modify n fun r => if r = .sent then st else r }

/-- The body of the loop of `tick_opportunistic_receipts` on one key. -/
def Packets.tick (key : Bytes) (now : Nat) (env : TickEnv) (s : Packets) : Packets :=
  match lookup key s.held with
  | none => s
  | some op =>
    let put (op : Held) : Packets := { s with held := insert key op s.held }
    if s.receipts[op.receipt]? = some .delivered then
      { s with held := erase key s.held, log := s.log ++ [(key, .delivered)] }
    else if op.status = .failed ∨ now < op.nextAttemptAtMs then s
    else if op.deliveryAttempts > MAX_DELIVERY_ATTEMPTS then
      { put { op with status := .failed } with log := s.log ++ [(key, .failed)] }
    else
      let op := { op with deliveryAttempts := op.deliveryAttempts + 1 }
      if op.deliveryAttempts - 1 ≥ MAX_PATHLESS_TRIES ∧ !env.pathKnown ∨
          op.deliveryAttempts - 1 = MAX_PATHLESS_TRIES + 1 ∧ env.pathKnown then
        put { op with nextAttemptAtMs := now + PATH_REQUEST_WAIT_MS }
      else
        let op := { op with nextAttemptAtMs := now + DELIVERY_RETRY_WAIT_MS }
        if env.remoteKnown ∧ env.receipt then
          { put { op with startedMs := now, receipt := s.receipts.length } with
            receipts := s.receipts ++ [.sent]
            log := s.log ++ [(key, .sent s.receipts.length op.wire)] }
        else put op

/-- An entry in the loop of `accelerate_opp_for`. -/
def Held.accelerate (destHash : Bytes) (now : Nat) (op : Held) : Held :=
  if op.destHash = destHash ∧ op.status ≠ .failed ∧ op.nextAttemptAtMs > now then
    { op with nextAttemptAtMs := now }
  else op

/-- `accelerate_opp_for`. -/
def Packets.accelerate (destHash : Bytes) (now : Nat) (s : Packets) : Packets :=
  { s with held := s.held.map fun x => (x.1, x.2.accelerate destHash now) }

/-- `manual_retry`, of a single packet. -/
def Packets.manualRetry (recordHash : Bytes) (now : Nat) (s : Packets) : Packets :=
  match lookup recordHash s.held with
  | none => s
  | some op =>
    if op.status ≠ .failed then s
    else
      { s with
        held := insert recordHash { op with
          deliveryAttempts := 1, status := .sent, nextAttemptAtMs := now } s.held
        log := s.log ++ [(recordHash, .rearmed)] }

/-- What happens to the single packets. -/
inductive PacketEvent where
  | send (key destHash wire : Bytes) (owner now : Nat) (tag : Tag)
  | conclude (n : Nat) (st : ReceiptStatus)
  | tick (key : Bytes) (now : Nat) (env : TickEnv)
  | accelerate (destHash : Bytes) (now : Nat)
  | manualRetry (recordHash : Bytes) (now : Nat)

/-- One event. A tick is a run of the events for the entries it goes through. -/
def Packets.step (s : Packets) : PacketEvent → Packets
  | .send key destHash wire owner now tag => s.send key destHash wire owner now tag
  | .conclude n st => s.conclude n st
  | .tick key now env => s.tick key now env
  | .accelerate destHash now => s.accelerate destHash now
  | .manualRetry recordHash now => s.manualRetry recordHash now

/-- The hash of a new packet is new. -/
def PacketEvent.Fresh (s : Packets) : PacketEvent → Prop
  | .send key .. => marks key s.log = []
  | _ => True

/-- The packets sent since the entry was armed last. -/
def sinceArmed (l : List Mark) : Nat :=
  l.foldl (fun n m => match m with | .sent .. => n + 1 | .rearmed => 0 | _ => n) 0

/-- The entry was reported failed, and was not armed again. -/
def downAfter (l : List Mark) : Bool :=
  l.foldl (fun b m => match m with | .failed => true | .rearmed => false | _ => b) false

/-- The wire first sent. -/
def firstWire (l : List Mark) : Option Bytes :=
  l.findSome? fun m => match m with | .sent _ wire => some wire | _ => none

/-- The number of the packet sent last. -/
def lastSent (l : List Mark) : Option Nat :=
  l.foldl (fun r m => match m with | .sent n _ => some n | _ => r) none

/-- What may be sent after a trace: one of the configured number of packets, not for an entry that
was reported failed, and with the wire first sent. -/
def Mark.Allowed (l : List Mark) : Mark → Prop
  | .sent _ wire => sinceArmed l < MAX_DELIVERY_ATTEMPTS ∧ downAfter l = false ∧
    ∀ wire' ∈ firstWire l, wire = wire'
  | _ => True

/-- The sends keep to what may be sent; an entry holds the wire first sent, and the receipt of the
packet sent last; and a proof for that packet makes it delivered and removes it at its next tick. -/
structure Orderly (s : Packets) : Prop where
  allowed : ∀ key, Always Mark.Allowed (marks key s.log)
  wire : ∀ {key op}, lookup key s.held = some op → firstWire (marks key s.log) = some op.wire
  latest : ∀ {key op}, lookup key s.held = some op → lastSent (marks key s.log) = some op.receipt
  proven : ∀ {key op n}, lookup key s.held = some op → lastSent (marks key s.log) = some n →
    s.receipts[n]? = some .delivered → ∀ now env, lookup key (s.tick key now env).held = none ∧
      (s.tick key now env).log = s.log ++ [(key, .delivered)]

variable {s : Packets} {key destHash wire recordHash : Bytes} {now n k : Nat} {op op' : Held}
  {l : List Mark} {st : ReceiptStatus}

/-! ### The packets and the pending sends -/

/-- The entries without their receipts. -/
def Packets.opps (s : Packets) : List (Bytes × PendingOppSend) :=
  s.held.map fun x => (x.1, x.2.toPendingOppSend)

/-- What the transport says of an entry. -/
def Packets.oppState (s : Packets) (key : Bytes) (env : TickEnv) : OppState where
  delivered := (lookup key s.held).any fun op => s.receipts[op.receipt]? = some .delivered
  pathKnown := env.pathKnown
  remoteKnown := env.remoteKnown
  receipt := env.receipt

/-- A tick is the tick of the pending sends. -/
theorem tick_opps {p : Pending} {env : TickEnv} (hp : p.opps = s.opps) :
    (oppOne key now (s.oppState key env) p).opps = (s.tick key now env).opps := by
  unfold oppOne Packets.tick Packets.oppState
  rw [hp, Packets.opps, lookup_map]
  cases hk : lookup key s.held with
  | none => exact hp
  | some op =>
    dsimp only [Option.map]
    by_cases hd : s.receipts[op.receipt]? = some .delivered
    · rw [if_pos (by simpa using hd), if_pos hd]
      dsimp only [Packets.opps]
      rw [Pending.notify_opps, hp, Packets.opps, erase_map]
    · rw [if_neg (by simpa using hd), if_neg hd]
      split
      next => exact hp
      next =>
        split
        next =>
          rw [Pending.notify_opps]
          dsimp only [Packets.opps]
          rw [← insert_map]
        next =>
          dsimp only [Packets.opps]
          split
          next => rw [← insert_map]
          next =>
            split
            next => rw [← insert_map]
            next => rw [← insert_map]

/-- The other events are those of the pending sends. -/
theorem accelerate_opps {p : Pending} (hp : p.opps = s.opps) :
    (accelerateOppFor destHash now p).opps = (s.accelerate destHash now).opps := by
  unfold accelerateOppFor Packets.accelerate
  dsimp only [Packets.opps]
  rw [hp, Packets.opps, List.map_map, List.map_map]
  refine List.map_congr_left fun x _ => ?_
  dsimp only [Function.comp_apply, Held.accelerate]
  split <;> rfl

/-- A retry by hand, when no send over a link has the hash. -/
theorem manualRetry_opps {p : Pending} (hp : p.opps = s.opps)
    (hl : p.links.find? (·.2.recordHash = recordHash) = none) :
    (Outbound.manualRetry recordHash now p).opps = (s.manualRetry recordHash now).opps := by
  unfold Outbound.manualRetry Packets.manualRetry
  rw [hl, hp, Packets.opps, lookup_map]
  cases lookup recordHash s.held with
  | none => exact hp
  | some op =>
    dsimp only [Option.map, Packets.opps]
    split
    next => exact hp
    next =>
      rw [Pending.notify_opps]
      dsimp only
      rw [← insert_map]

/-- A packet that is sent first. -/
theorem send_opps {p : Pending} {env : SendEnv} {tag : Tag} (hp : p.opps = s.opps)
    (hr : env.receipt = true) :
    (sendOpportunistic k destHash wire env tag p).1.opps =
      (s.send env.packetHash destHash wire k env.now tag).opps := by
  unfold sendOpportunistic Packets.send
  rw [if_pos hr]
  dsimp only [Packets.opps]
  rw [hp, Packets.opps, ← insert_map]

/-! ### Entries and their traces -/

/-- The packets that were sent by the time an entry counts so many attempts: an attempt without one
is the path that is asked for, at the second at the latest. -/
def sentBy (attempts : Nat) : Nat := if attempts ≤ 2 then attempts else attempts - 1

/-- An entry and its trace. -/
structure Follows (l : List Mark) (op : Held) : Prop where
  count : sinceArmed l ≤ sentBy op.deliveryAttempts
  started : 1 ≤ op.deliveryAttempts
  bounded : op.deliveryAttempts ≤ MAX_DELIVERY_ATTEMPTS + 1
  down : downAfter l = true ↔ op.status = .failed
  wire : firstWire l = some op.wire
  latest : lastSent l = some op.receipt

/-- Every entry follows its trace, and every trace keeps to what may be sent. -/
structure Marked (s : Packets) : Prop where
  entries : ∀ {key op}, lookup key s.held = some op → Follows (marks key s.log) op
  allowed : ∀ key, Always Mark.Allowed (marks key s.log)

@[simp] lemma sinceArmed_snoc {m : Mark} : sinceArmed (l ++ [m]) =
    match m with | .sent .. => sinceArmed l + 1 | .rearmed => 0 | _ => sinceArmed l := by
  rw [sinceArmed, List.foldl_append]
  cases m <;> rfl

@[simp] lemma downAfter_snoc {m : Mark} : downAfter (l ++ [m]) =
    match m with | .failed => true | .rearmed => false | _ => downAfter l := by
  rw [downAfter, List.foldl_append]
  cases m <;> rfl

@[simp] lemma lastSent_snoc {m : Mark} : lastSent (l ++ [m]) =
    match m with | .sent n _ => some n | _ => lastSent l := by
  rw [lastSent, List.foldl_append]
  cases m <;> rfl

lemma firstWire_snoc {m : Mark} (h : firstWire l = some wire) :
    firstWire (l ++ [m]) = some wire := by
  unfold firstWire at h ⊢
  rw [List.findSome?_append, h]
  rfl

/-- One entry changes, with a mark. -/
lemma Marked.put {m : Mark} {receipts} (h : Marked s) (hm : m.Allowed (marks key s.log))
    (hf : Follows (marks key s.log ++ [m]) op) :
    Marked { held := insert key op s.held, receipts, log := s.log ++ [(key, m)] } := by
  constructor
  · intro k op' hk
    dsimp only at hk ⊢
    rw [marks_snoc]
    by_cases hkey : k = key
    · subst hkey
      rw [lookup_insert, Option.some.injEq] at hk
      subst hk
      rw [if_pos rfl]
      exact hf
    · rw [lookup_insert_of_ne hkey] at hk
      rw [if_neg fun e => hkey e.symm]
      exact h.entries hk
  · intro k
    rw [marks_snoc]
    split
    next e =>
      subst e
      exact (h.allowed key).snoc hm
    next => exact h.allowed k

/-- Without a mark. -/
lemma Marked.update (h : Marked s) (hf : Follows (marks key s.log) op) :
    Marked { s with held := insert key op s.held } := by
  refine ⟨fun {k op'} hk => ?_, h.allowed⟩
  by_cases hkey : k = key
  · subst hkey
    rw [lookup_insert, Option.some.injEq] at hk
    subst hk
    exact hf
  · rw [lookup_insert_of_ne hkey] at hk
    exact h.entries hk

/-- An entry leaves. -/
lemma Marked.erase {m : Mark} (h : Marked s) (hm : m.Allowed (marks key s.log)) :
    Marked { s with held := erase key s.held, log := s.log ++ [(key, m)] } := by
  constructor
  · intro k op' hk
    dsimp only at hk ⊢
    rw [marks_snoc]
    by_cases hkey : k = key
    · subst hkey
      rw [lookup_erase] at hk
      cases hk
    · rw [lookup_erase_of_ne hkey] at hk
      rw [if_neg fun e => hkey e.symm]
      exact h.entries hk
  · intro k
    rw [marks_snoc]
    split
    next e =>
      subst e
      exact (h.allowed key).snoc hm
    next => exact h.allowed k

/-- A tick. -/
lemma Marked.tick {env : TickEnv} (h : Marked s) : Marked (s.tick key now env) := by
  unfold Packets.tick
  cases hk : lookup key s.held with
  | none => exact h
  | some op =>
    have hf := h.entries hk
    dsimp only
    split
    next => exact h.erase trivial
    next =>
      split
      next => exact h
      next hdue =>
        have hup : downAfter (marks key s.log) = false := by
          rw [← Bool.not_eq_true, hf.down]
          exact fun e => hdue (.inl e)
        split
        next =>
          refine h.put trivial ⟨?_, hf.started, hf.bounded, ?_, firstWire_snoc hf.wire, ?_⟩
          · rw [sinceArmed_snoc]
            exact hf.count
          · rw [downAfter_snoc]
            exact iff_of_true rfl rfl
          · rw [lastSent_snoc]
            exact hf.latest
        next hmax =>
          have hnext : sentBy op.deliveryAttempts ≤ sentBy (op.deliveryAttempts + 1) := by
            unfold sentBy
            split <;> split <;> omega
          have hwait {op' : Held} (ha : op'.deliveryAttempts = op.deliveryAttempts + 1)
              (hs : op'.status = op.status) (hw : op'.wire = op.wire)
              (hr : op'.receipt = op.receipt) : Follows (marks key s.log) op' := by
            refine ⟨?_, ?_, ?_, by rw [hs]; exact hf.down, by rw [hw]; exact hf.wire, by
              rw [hr]; exact hf.latest⟩
            · rw [ha]
              exact hf.count.trans hnext
            · rw [ha]
              exact Nat.succ_pos _
            · rw [ha]
              exact Nat.succ_le_succ (not_lt.mp hmax)
          split
          next => exact h.update (hwait rfl rfl rfl rfl)
          next hpath =>
            split
            next =>
              -- the second attempt asks for a path
              have h2 : op.deliveryAttempts ≠ 2 := by
                intro e
                cases hp : env.pathKnown with
                | true => exact hpath (.inr ⟨by rw [e]; rfl, hp⟩)
                | false => exact hpath (.inl ⟨by rw [e]; decide, by rw [hp]; rfl⟩)
              have hc := hf.count
              have hst := hf.started
              unfold sentBy at hc
              unfold MAX_DELIVERY_ATTEMPTS at hmax
              refine h.put ⟨?_, hup, ?_⟩ ⟨?_, Nat.succ_pos _, ?_, ?_, firstWire_snoc hf.wire, ?_⟩
              · unfold MAX_DELIVERY_ATTEMPTS
                split at hc <;> omega
              · rw [hf.wire]
                exact fun _ e => Option.some.inj e
              · rw [sinceArmed_snoc]
                dsimp only
                unfold sentBy
                split at hc <;> split <;> omega
              · exact Nat.succ_le_succ (not_lt.mp hmax)
              · rw [downAfter_snoc]
                exact hf.down
              · rw [lastSent_snoc]
            next => exact h.update (hwait rfl rfl rfl rfl)

/-- A new packet. -/
lemma Marked.send {owner tag} (h : Marked s) (hn : marks key s.log = []) :
    Marked (s.send key destHash wire owner now tag) := by
  refine h.put ?_ ?_
  · rw [hn]
    exact ⟨by decide, rfl, nofun⟩
  · rw [hn]
    exact ⟨le_rfl, le_rfl, Nat.le_add_left _ _, iff_of_false Bool.false_ne_true nofun, rfl, rfl⟩

lemma Marked.accelerate (h : Marked s) : Marked (s.accelerate destHash now) := by
  refine ⟨fun {k op'} hk => ?_, h.allowed⟩
  unfold Packets.accelerate at hk
  dsimp only at hk
  rw [lookup_map] at hk
  obtain ⟨op, hop, rfl⟩ := Option.map_eq_some_iff.mp hk
  have hf := h.entries hop
  unfold Held.accelerate
  split
  next => exact ⟨hf.count, hf.started, hf.bounded, hf.down, hf.wire, hf.latest⟩
  next => exact hf

lemma Marked.manualRetry (h : Marked s) : Marked (s.manualRetry recordHash now) := by
  unfold Packets.manualRetry
  cases hk : lookup recordHash s.held with
  | none => exact h
  | some op =>
    have hf := h.entries hk
    dsimp only
    split
    next => exact h
    next =>
      refine h.put trivial ⟨?_, le_rfl, Nat.le_add_left _ _, ?_, firstWire_snoc hf.wire, ?_⟩
      · rw [sinceArmed_snoc]
        exact Nat.zero_le _
      · rw [downAfter_snoc]
        exact iff_of_false Bool.false_ne_true nofun
      · rw [lastSent_snoc]
        exact hf.latest

/-- No event that sends new packets under new hashes breaks a trace. -/
lemma Marked.step {e : PacketEvent} (h : Marked s) (he : e.Fresh s) : Marked (s.step e) := by
  cases e with
  | send => exact h.send he
  | conclude => exact ⟨h.entries, h.allowed⟩
  | tick => exact h.tick
  | accelerate => exact h.accelerate
  | manualRetry => exact h.manualRetry

/-- A proof for the packet sent last takes its entry away. -/
lemma tick_delivered {env : TickEnv} (hk : lookup key s.held = some op)
    (hr : s.receipts[op.receipt]? = some .delivered) :
    s.tick key now env =
      { s with held := erase key s.held, log := s.log ++ [(key, .delivered)] } := by
  unfold Packets.tick
  rw [hk]
  exact if_pos hr

/-- In every run each entry is sent at most the configured number of times until it is armed again,
not at all while it is reported failed, and always with the wire first sent; and a proof for the
packet sent last makes it delivered and removes it. -/
theorem orderly_of_fresh (h : Reach Packets.step (fun s e => e.Fresh s) {} s) : Orderly s := by
  have ht := h.invariant (P := Marked) ⟨nofun, fun _ => always_nil⟩ fun hok hs => hs.step hok
  refine ⟨ht.allowed, fun hk => (ht.entries hk).wire, fun hk => (ht.entries hk).latest, ?_⟩
  intro key op n hk hn hr now env
  obtain rfl := Option.some.inj (hn.symm.trans (ht.entries hk).latest)
  rw [tick_delivered hk hr]
  exact ⟨lookup_erase, rfl⟩

instance {s : Packets} : ∀ e : PacketEvent, Decidable (e.Fresh s)
  | .send .. => inferInstanceAs (Decidable (marks _ s.log = []))
  | .conclude .. | .tick .. | .accelerate .. | .manualRetry .. => .isTrue trivial

/-- A packet is sent again after 10 s, and then the proof for the first one comes. -/
def sampleProven : Packets :=
  [PacketEvent.send [1] [9] [5] 0 0 ⟨[7], 0⟩, .tick [1] 10000 ⟨true, true, true⟩,
    .conclude 0 .delivered].foldl Packets.step {}

/-- The entry is not removed by it. -/
theorem not_proven_by_earlier : ¬ ∀ s key op n wire now env,
    Reach Packets.step (fun s e => e.Fresh s) {} s → lookup key s.held = some op →
    .sent n wire ∈ marks key s.log → s.receipts[n]? = some .delivered →
    lookup key (s.tick key now env).held = none := by
  intro h
  have hr : Reach Packets.step (fun s e => e.Fresh s) {} sampleProven :=
    Reach.init.run (by decide)
  have hk : (lookup [1] sampleProven.held).isSome = true := by decide
  obtain ⟨op, hop⟩ := Option.isSome_iff_exists.mp hk
  have hn := h sampleProven [1] op 0 [5] 10001 ⟨true, true, true⟩ hr hop (by decide) (by decide)
  exact absurd hn (by decide)

/-- With the proof for the second packet it is. -/
theorem orderly_of_fresh_proven :
    let s := [PacketEvent.send [1] [9] [5] 0 0 ⟨[7], 0⟩, .tick [1] 10000 ⟨true, true, true⟩,
      .conclude 1 .delivered].foldl Packets.step {}
    lookup [1] (s.tick [1] 10001 ⟨true, true, true⟩).held = none := by
  intro s
  have ho : Orderly s := orderly_of_fresh (Reach.init.run (by decide))
  have hk : (lookup [1] s.held).isSome = true := by decide
  obtain ⟨op, hop⟩ := Option.isSome_iff_exists.mp hk
  exact (ho.proven hop (show lastSent (marks [1] s.log) = some 1 by decide) (by decide) _ _).1

end URSupreme.Outbound
