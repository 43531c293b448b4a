import URSupreme.Lib.Run
import URSupreme.Wifi.Steps

/-!
# What a provisioning request is told

Requests that are parked are numbered. Beside the device their networks are kept, what each was told
and with which network the station was associated then, when the last one was made, and whether one
was left waiting for longer than the time that is allowed.
-/

namespace URSupreme.Wifi
open Lib

/-- A device and the requests it has parked. -/
structure Desk where
  remote : Remote := {}
  requests : List Creds := []
  answers : List (Nat × Answer × Option Creds) := []
  requestedAt : Nat := 0
  overdue : Bool := false
  deriving DecidableEq, Repr

/-- The request is put down. -/
def Desk.request (d : Desk) (c : Creds) : Reply → Desk
  | .parked => { d with requests := d.requests ++ [c], requestedAt := d.remote.now }
  | _ => d

/-- The answer is put down. -/
def Desk.answer (d : Desk) : Option (Nat × Answer) → Desk
  | some (req, a) => { d with answers := d.answers ++ [(req, a, d.remote.radio.assoc)] }
  | none => d

/-- An event, with what is kept. -/
def Desk.step (d : Desk) (e : Event) : Desk :=
  let kept := match e with
    | .configure auth ssid psk =>
      d.request (ssid, psk) (d.remote.configure auth ssid psk d.requests.length).2
    | .drain =>
      { d.answer d.remote.drain.2 with
        overdue := d.overdue || (d.remote.drain.1.pending.parked &&
          d.requestedAt + WR_PROVISION_TIMEOUT_MS ≤ d.remote.now) }
    | _ => d
  { kept with remote := d.remote.step d.requests.length e }

/-- The steps at which a request is told the truth: when one is answered in the grace period, its
network has been applied and the station is up; when one has waited for the time that is allowed,
there is an attempt; and no pending network of a request is given up for one of the serial line. -/
def Desk.Ok (d : Desk) : Event → Prop
  | .drain => d.remote.pending.parked = true →
      (d.remote.phase = .apStaGrace → d.remote.lock.isSome = true →
        d.remote.pending.pending = false ∧ d.remote.radio.connected = true) ∧
      (d.requestedAt + WR_PROVISION_TIMEOUT_MS ≤ d.remote.now → d.remote.phase ≠ .idle ∧
        (d.remote.phase = .apStaConnecting → d.remote.now < d.requestedAt + 2 ^ 32))
  | .improvLoop => d.remote.provInProgress = true → d.remote.radio.connected = false →
      PROVISION_TIMEOUT_MS ≤ d.remote.elapsed d.remote.provStartedMs →
      d.remote.pending.parked = false ∨ d.remote.pending.pending = false
  | _ => True

/-- The number of a request that has its answer. -/
def Desk.answered (d : Desk) : List Nat := d.answers.map (·.1)

/-- Each request that was parked is answered once, unless its client has gone, or is the one that
waits, and waits no longer than it may; and one that is told that the station is connected is told
so of its own network. -/
structure Truthful (d : Desk) : Prop where
  once : d.answered.Nodup
  settled : ∀ req < d.requests.length, req ∈ d.answered ∨ req ∉ d.remote.clients ∨
    d.remote.pending.parked = true ∧ d.remote.pending.req = some req
  prompt : d.overdue = false
  honest : ∀ req assoc, (req, .connected, assoc) ∈ d.answers →
    ∃ c, d.requests[req]? = some c ∧ assoc = some c

section tuned

variable {s : Remote} {c : Creds}

/-- The station tries one network and no other, unless the access point was forced on. -/
structure Tuned (c : Creds) (s : Remote) : Prop where
  ap : s.mode = .ap → s.radio = { ap := true }
  creds : s.mode ≠ .ap → (s.ssid, s.psk) = c
  target : s.mode ≠ .ap → ∀ t, s.radio.target = some t → t = c
  assoc : s.mode ≠ .ap → ∀ t, s.radio.assoc = some t → t = c

/-- A station that is associated is associated with that network. -/
lemma Tuned.connected (h : Tuned c s) (hc : s.radio.connected = true) : s.radio.assoc = some c := by
  have hm : s.mode ≠ .ap := by
    intro hm
    rw [h.ap hm] at hc
    cases hc
  obtain ⟨t, ht⟩ := Option.isSome_iff_exists.mp hc
  rw [ht, h.assoc hm t ht]

lemma Tuned.same {r : Remote} (h : Tuned c s) (hm : r.mode = s.mode) (hr : r.radio = s.radio)
    (hs : r.ssid = s.ssid) (hp : r.psk = s.psk) : Tuned c r := by
  refine ⟨fun e => hr.trans (h.ap (hm ▸ e)), fun e => ?_, fun e => ?_, fun e => ?_⟩
  · rw [hs, hp]
    exact h.creds (hm ▸ e)
  · rw [hr]
    exact h.target (hm ▸ e)
  · rw [hr]
    exact h.assoc (hm ▸ e)

/-- A station that comes up comes up in the network it tries. -/
lemma Tuned.up (h : Tuned c s) : Tuned c { s with radio := s.radio.up } := by
  refine ⟨fun e => ?_, h.creds, fun e t ht => ?_, fun e t ht => ?_⟩
  · show s.radio.up = _
    rw [h.ap e]
    rfl
  · refine h.target e t ?_
    have ht : s.radio.up.target = some t := ht
    unfold Radio.up at ht
    split at ht
    next => exact ht
    next => exact ht
  · have ht : s.radio.up.assoc = some t := ht
    unfold Radio.up at ht
    split at ht
    next => exact h.target e t ht
    next => exact h.assoc e t ht

lemma Tuned.down (h : Tuned c s) : Tuned c { s with radio := s.radio.down } := by
  refine ⟨fun e => ?_, h.creds, h.target, fun _ t ht => by cases ht⟩
  show s.radio.down = _
  rw [h.ap e]
  rfl

lemma Tuned.begin (h : s.mode ≠ .ap) (hc : (s.ssid, s.psk) = c) (ht : s.radio.target = none)
    (ha : s.radio.assoc = none) : Tuned c s.begin := by
  have hcreds : (s.begin.ssid, s.begin.psk) = c := by
    rw [begin_eq]
    exact hc
  have hm : s.begin.mode = s.mode := by rw [begin_eq]
  refine ⟨fun e => absurd (hm.symm.trans e) h, fun _ => hcreds, fun _ t e => ?_, fun _ t e => ?_⟩
  · unfold Remote.begin at e
    split at e
    next => exact (Option.some.inj e).symm.trans hc
    next => exact absurd (ht.symm.trans e) nofun
  · rw [begin_assoc ha] at e
    cases e

/-- New attempts are made with the same network. -/
lemma Tuned.retry (h : Tuned c s) (hm : s.mode ≠ .sta) : Tuned c s.readStatus.retry := by
  have hr : Tuned c s.readStatus := ⟨h.ap, h.creds, h.target, h.assoc⟩
  unfold Remote.retry
  split
  next h' => exact absurd h'.2.1 hm
  next =>
    split
    next h' =>
      have hm' : s.mode ≠ .ap :=
        fun e => absurd ((show s.mode = .apsta from h'.2.1).symm.trans e) nofun
      have hb := Tuned.begin (s := { s.readStatus with radio := s.readStatus.radio.disconnect })
        hm' (h.creds hm') rfl rfl
      exact ⟨hb.ap, hb.creds, hb.target, hb.assoc⟩
    next => exact hr

/-- The network that is applied is the one the station tries. -/
lemma tuned_applyPending (h : s.pending.pending = true) (hc : s.pending.ssid.take 32 ≠ []) :
    Tuned (s.pending.ssid.take 32, s.pending.psk.take 32) s.applyPending := by
  have hb : s.openAp.swapCreds.begin.radio =
      s.openAp.swapCreds.radio.begin (s.pending.ssid.take 32, s.pending.psk.take 32) := by
    rw [openAp_eq]
    unfold Remote.begin
    exact congrArg Remote.radio (if_pos hc)
  have hm := (applyPending_spec h).2.2.2
  have hr : s.applyPending.radio = s.openAp.swapCreds.begin.radio := by
    rw [Remote.applyPending, h]
    rfl
  have hcreds : (s.applyPending.ssid, s.applyPending.psk) =
      (s.pending.ssid.take 32, s.pending.psk.take 32) := by
    rw [Remote.applyPending, h, begin_eq, openAp_eq]
    rfl
  refine ⟨(fun e => by cases hm.symm.trans e), fun _ => hcreds, fun _ t e => ?_,
    fun _ t e => ?_⟩
  · rw [hr, hb] at e
    exact (Option.some.inj e).symm
  · rw [hr, hb] at e
    cases e

end tuned

section desk

variable {d : Desk} {r : Remote}

/-- The request that waits, with its network. -/
structure Waits (d : Desk) (n : Nat) (c : Creds) : Prop where
  req : d.remote.pending.req = some n
  request : d.requests[n]? = some c
  fresh : n ∉ d.answered
  creds : (d.remote.pending.ssid, d.remote.pending.psk) = c
  ssid : c.1 ≠ []
  short : c.1.length ≤ 32 ∧ c.2.length ≤ 32

structure DeskInv (d : Desk) : Prop extends Truthful d where
  known : ∀ req ∈ d.answered, req < d.requests.length
  waits : d.remote.pending.parked = true → ∃ req c, Waits d req c
  since : d.remote.pending.parked = true →
    d.remote.pending.requestedMs = d.requestedAt % 2 ^ 32 ∧ d.requestedAt ≤ d.remote.now
  tuned : d.remote.pending.parked = true → d.remote.pending.pending = false →
    d.remote.phase ≠ .idle → Tuned (d.remote.pending.ssid, d.remote.pending.psk) d.remote
  mode : d.remote.phase ≠ .idle → d.remote.mode ≠ .sta
  ready : d.remote.initialized = true ∨ d.remote.mode = .off ∧ d.remote.pending.parked = false

/-- The requests are left as they are. -/
lemma DeskInv.carry (h : DeskInv d) {p : Bool}
    (hp : r.pending = { d.remote.pending with pending := p })
    (hclients : ∀ req ∈ r.clients, req ∈ d.remote.clients) (hnow : d.remote.now ≤ r.now)
    (hready : d.remote.initialized = true → r.initialized = true)
    (hoff : d.remote.mode = .off → d.remote.initialized = false → r.mode = .off)
    (hmode : r.phase ≠ .idle → r.mode ≠ .sta)
    (htuned : d.remote.pending.parked = true → p = false → r.phase ≠ .idle →
      Tuned (d.remote.pending.ssid, d.remote.pending.psk) r) :
    DeskInv { d with remote := r } where
  once := h.once
  settled req hreq := by
    obtain h' | h' | h' := h.settled req hreq
    · exact .inl h'
    · exact .inr (.inl fun hc => h' (hclients req hc))
    · exact .inr (.inr (by rw [show Desk.remote _ = r from rfl, hp]; exact h'))
  prompt := h.prompt
  honest := h.honest
  known := h.known
  waits hpk := by
    rw [show Desk.remote _ = r from rfl, hp] at hpk
    obtain ⟨req, c, hw⟩ := h.waits hpk
    exact ⟨req, c, by rw [show Desk.remote _ = r from rfl, hp]; exact hw.req, hw.request, hw.fresh,
      by rw [show Desk.remote _ = r from rfl, hp]; exact hw.creds, hw.ssid, hw.short⟩
  since hpk := by
    rw [show Desk.remote _ = r from rfl, hp] at hpk ⊢
    exact ⟨(h.since hpk).1, (h.since hpk).2.trans hnow⟩
  tuned hpk hpd hph := by
    rw [show Desk.remote _ = r from rfl, hp] at hpk hpd ⊢
    exact htuned hpk hpd hph
  mode := hmode
  ready := by
    cases hi : d.remote.initialized with
    | true => exact .inl (hready hi)
    | false =>
      obtain ⟨hm, hpk⟩ := h.ready.resolve_left (by rw [hi]; exact nofun)
      exact .inr ⟨hoff hm hi, by rw [show Desk.remote _ = r from rfl, hp]; exact hpk⟩

/-- What a turn leaves of the requests; and it keeps to the network of the one that waits. -/
structure Keeps (s r : Remote) : Prop where
  pending : ∃ p, r.pending = { s.pending with pending := p } ∧
    ∀ c, (s.pending.pending = true →
        (s.pending.ssid.take 32, s.pending.psk.take 32) = c ∧ s.pending.ssid.take 32 ≠ []) →
      (s.pending.pending = false → s.phase ≠ .idle → Tuned c s) →
      p = false → r.phase ≠ .idle → Tuned c r
  clients : r.clients = s.clients
  now : r.now = s.now
  ready : s.initialized = true → r.initialized = true
  mode : r.phase ≠ .idle → r.mode ≠ .sta

lemma Keeps.refl {s : Remote} (hm : s.phase ≠ .idle → s.mode ≠ .sta) : Keeps s s :=
  ⟨⟨s.pending.pending, rfl, fun _ _ ht hp hph => ht hp hph⟩, rfl, rfl, id, hm⟩

/-- The phase machine keeps to the network of the request that waits. -/
lemma pump_keeps {s : Remote} (hm : s.phase ≠ .idle → s.mode ≠ .sta) : Keeps s s.pumpPhase := by
  cases hpend : s.pending.pending with
  | true =>
    obtain ⟨hn, -, -, hap⟩ := applyPending_spec hpend
    have heq : s.applyPending.pending = { s.pending with pending := false } ∧
        s.applyPending.clients = s.clients ∧ s.applyPending.initialized = s.initialized := by
      rw [Remote.applyPending, hpend, begin_eq, openAp_eq]
      exact ⟨rfl, rfl, rfl⟩
    rw [pump_applied hpend]
    refine ⟨⟨false, heq.1, fun c hc _ _ _ => ?_⟩, heq.2.1, hn, fun h => heq.2.2.trans h,
      fun _ e => by cases hap.symm.trans e⟩
    obtain ⟨rfl, hne⟩ := hc hpend
    exact tuned_applyPending hpend hne
  | false =>
    have hp : s.pending = { s.pending with pending := false } := by rw [← hpend]
    cases hph : s.phase with
    | idle =>
      rw [pump_rest hpend (by rw [hph]; decide) fun e => by rw [hph] at e; cases e]
      exact .refl hm
    | apStaConnecting =>
      cases hc : s.radio.connected with
      | false =>
        rw [pump_rest hpend (by rw [hph]; decide) fun _ => hc]
        exact .refl hm
      | true =>
        have hph : s.phase ≠ .idle := by rw [hph]; decide
        rw [pump_grace hpend ‹_› hc]
        refine ⟨⟨false, hp, fun c _ ht _ _ => ?_⟩, rfl, rfl, id, fun _ => hm hph⟩
        have ht := ht hpend hph
        exact ⟨ht.ap, ht.creds, ht.target, ht.assoc⟩
    | apStaGrace =>
      have hph' : s.phase ≠ .idle := by rw [hph]; decide
      rw [pump_teardown hpend hph]
      split
      next =>
        exact ⟨⟨false, hp, fun _ _ _ _ h => absurd rfl h⟩, rfl, rfl, id, fun h => absurd rfl h⟩
      next =>
        refine ⟨⟨false, hp, fun c _ ht _ _ => ?_⟩, rfl, rfl, id, fun _ => hm hph'⟩
        have ht := ht hpend hph'
        exact ⟨ht.ap, ht.creds, ht.target, ht.assoc⟩

/-- A new attempt leaves the mode, unless there was no access point. -/
lemma retry_mode {s : Remote} (hm : s.mode ≠ .sta) : s.readStatus.retry.mode = s.mode := by
  unfold Remote.retry
  split
  next h => exact absurd h.2.1 hm
  next =>
    split
    next => exact (rebegin_spec (s := s.readStatus)).2.2
    next => rfl

/-- A turn of the main loop keeps to the network of the request that waits. -/
lemma updateStatus_keeps {s : Remote} (hm : s.phase ≠ .idle → s.mode ≠ .sta) :
    Keeps s s.updateStatus := by
  cases hi : s.initialized with
  | false =>
    rw [updateStatus_off hi]
    exact .refl hm
  | true =>
    cases hf : s.forceSoftapPending with
    | true =>
      obtain ⟨hs, hm', hr⟩ := forceSoftap_spec (s := { s with forceSoftapPending := false })
      rw [← updateStatus_force hi hf] at hs hm' hr
      refine ⟨⟨s.pending.pending, hs.pending, fun c _ _ _ _ => ?_⟩, hs.clients, hs.now, hs.ready,
        fun _ e => absurd (hm'.symm.trans e) nofun⟩
      exact ⟨fun _ => hr, fun h => absurd hm' h, fun h => absurd hm' h, fun h => absurd hm' h⟩
    | false =>
      have hk := pump_keeps hm
      obtain ⟨p, hp, ht⟩ := hk.pending
      obtain ⟨hs, -⟩ := retry_spec (s := s.pumpPhase)
      rw [updateStatus_pump hi hf]
      refine ⟨⟨p, hs.pending.trans hp, fun c hc ht' hp hph => ?_⟩, hs.clients.trans hk.clients,
        hs.now.trans hk.now, fun h => hs.ready (hk.ready h), fun hph => ?_⟩
      · have hph : s.pumpPhase.phase ≠ .idle := hs.phase ▸ hph
        exact (ht c hc ht' hp hph).retry (hk.mode hph)
      · have hph : s.pumpPhase.phase ≠ .idle := hs.phase ▸ hph
        rw [retry_mode (hk.mode hph)]
        exact hk.mode hph

lemma DeskInv.tick (h : DeskInv d) : DeskInv (d.step .tick) := by
  have hk := updateStatus_keeps h.mode
  obtain ⟨p, hp, ht⟩ := hk.pending
  refine h.carry hp (fun req hr => hk.clients ▸ hr) hk.now.symm.le hk.ready
    (fun hm hi => ?_) hk.mode
    fun hpk hpf hph => ?_
  · show d.remote.updateStatus.mode = .off
    rw [updateStatus_off hi]
    exact hm
  · obtain ⟨req, c, hw⟩ := h.waits hpk
    have hc := hw.creds
    refine ht _ (fun hpend => ?_) (h.tuned hpk) hpf hph
    have hs : d.remote.pending.ssid = c.1 := congrArg Prod.fst hc
    have hpsk : d.remote.pending.psk = c.2 := congrArg Prod.snd hc
    rw [hs, hpsk, List.take_of_length_le hw.short.1, List.take_of_length_le hw.short.2]
    exact ⟨rfl, hw.ssid⟩

/-- No request waits any more. -/
lemma DeskInv.unparked (h : DeskInv d) (hpk : r.pending.parked = false)
    (hset : ∀ req < d.requests.length, req ∈ d.answered ∨ req ∉ r.clients)
    (hmode : r.phase ≠ .idle → r.mode ≠ .sta)
    (hready : r.initialized = true ∨ r.mode = .off) : DeskInv { d with remote := r } where
  once := h.once
  settled req hreq := (hset req hreq).imp_right .inl
  prompt := h.prompt
  honest := h.honest
  known := h.known
  waits hpk' := absurd (hpk.symm.trans hpk') nofun
  since hpk' := absurd (hpk.symm.trans hpk') nofun
  tuned hpk' := absurd (hpk.symm.trans hpk') nofun
  mode := hmode
  ready := hready.imp_right fun hm => ⟨hm, hpk⟩

lemma DeskInv.boot {now : Nat} {eeprom : Eeprom} (h : DeskInv d) :
    DeskInv (d.step (.boot now eeprom)) := by
  have hb : ∀ s : Remote, s.phase = .idle → s.pending.parked = false → s.clients = [] →
      Same s s.init → s.init.initialized = true → DeskInv { d with remote := s.init } :=
    fun s hph hpk hc hs hi => h.unparked (hs.pending ▸ hpk)
      (fun req _ => .inr (by rw [hs.clients, hc]; exact List.not_mem_nil))
      (fun hph' => absurd (hs.phase.trans hph) hph') (.inl hi)
  by_cases hm : eeprom.mode = 1
  · have hstep : d.step (.boot now eeprom) =
        { d with remote := Remote.init { now := now, eeprom := eeprom, mode := .sta } } :=
      congrArg (fun r => { d with remote := r }) (if_pos hm)
    rw [hstep]
    exact hb _ rfl rfl rfl (init_sta rfl).1 rfl
  · have hstep : d.step (.boot now eeprom) =
        { d with remote := Remote.init { now := now, eeprom := eeprom, mode := .ap } } :=
      congrArg (fun r => { d with remote := r }) (if_neg hm)
    rw [hstep]
    exact hb _ rfl rfl rfl (init_ap rfl).1 rfl

lemma DeskInv.wifiSettings {ssid psk : Bytes} (h : DeskInv d) :
    DeskInv (d.step (.wifiSettings ssid psk)) := by
  obtain ⟨eeprom, -, he⟩ | ⟨hpk, -, he⟩ := @wifiSettings_cases d.remote ssid psk
  · have hstep : d.step (.wifiSettings ssid psk) = { d with
      remote := { d.remote with eeprom := eeprom } } :=
      congrArg (fun r => { d with remote := r }) he
    rw [hstep]
    exact h.carry rfl (fun _ => id) le_rfl id (fun h _ => h) h.mode fun hpk hpd hph =>
      (h.tuned hpk hpd hph).same rfl rfl rfl rfl
  · have hstep : d.step (.wifiSettings ssid psk) = { d with
        remote := (d.remote.writeStaCreds _ _).provision (cstr (ssid.take 32))
          (cstr (psk.take 32)) } :=
      congrArg (fun r => { d with remote := r }) he
    rw [hstep]
    refine h.unparked rfl (fun req hreq => ?_) h.mode (h.ready.imp_right And.left)
    obtain h' | h' | h' := h.settled req hreq
    · exact .inl h'
    · exact .inr h'
    · exact absurd (hpk.symm.trans h'.1) nofun

lemma DeskInv.configure {auth : Bool} {ssid psk : Bytes} (h : DeskInv d) :
    DeskInv (d.step (.configure auth ssid psk)) := by
  obtain ⟨eeprom, a, ha, he⟩ | ⟨hpk, -, hne, hs, hp, hoff, he⟩ := @configure_cases d.remote
    auth ssid psk d.requests.length
  · have hstep : d.step (.configure auth ssid psk) =
        { d with remote := { d.remote with eeprom := eeprom } } := by
      show ({ d.request (ssid, psk) (d.remote.configure auth ssid psk d.requests.length).2 with
        remote := (d.remote.configure auth ssid psk d.requests.length).1 } : Desk) = _
      rw [he]
      cases a with
      | parked => exact absurd rfl ha
      | _ => rfl
    rw [hstep]
    exact h.carry rfl (fun _ => id) le_rfl id (fun h _ => h) h.mode fun hpk hpd hph =>
      (h.tuned hpk hpd hph).same rfl rfl rfl rfl
  · have hstep : d.step (.configure auth ssid psk) =
        { d with
          remote := (d.remote.writeStaCreds ssid psk).park ssid psk d.requests.length
          requests := d.requests ++ [(ssid, psk)]
          requestedAt := d.remote.now } := by
      show ({ d.request (ssid, psk) (d.remote.configure auth ssid psk d.requests.length).2 with
        remote := (d.remote.configure auth ssid psk d.requests.length).1 } : Desk) = _
      rw [he]
      rfl
    have hold : ∀ req < d.requests.length, req ∈ d.answered ∨ req ∉ d.remote.clients := by
      intro req hreq
      obtain h' | h' | h' := h.settled req hreq
      · exact .inl h'
      · exact .inr h'
      · exact absurd (hpk.symm.trans h'.1) nofun
    have hlen : (d.requests ++ [(ssid, psk)]).length = d.requests.length + 1 := List.length_append
    rw [hstep]
    exact {
      once := h.once
      settled := fun req hreq => by
        rw [show Desk.requests _ = d.requests ++ [(ssid, psk)] from rfl, hlen] at hreq
        obtain hreq | rfl := Nat.lt_succ_iff_lt_or_eq.mp hreq
        · refine (hold req hreq).imp_right fun hc => .inl fun hm => ?_
          obtain hm | hm := List.mem_cons.mp hm
          · exact absurd hm hreq.ne
          · exact hc hm
        · exact .inr (.inr ⟨rfl, rfl⟩)
      prompt := h.prompt
      honest := fun req assoc hm => by
        obtain ⟨c, hc, ha⟩ := h.honest req assoc hm
        have hlt := (List.getElem?_eq_some_iff.mp hc).1
        exact ⟨c, (List.getElem?_append_left hlt).trans hc, ha⟩
      known := fun req hm => hlen ▸ Nat.lt_succ_of_lt (h.known req hm)
      waits := fun _ => by
        refine ⟨d.requests.length, (ssid, psk), rfl, ?_, fun hm => ?_, ?_, hne, hs, hp⟩
        · exact List.getElem?_concat_length
        · exact absurd (h.known _ hm) (lt_irrefl _)
        · exact Prod.ext (List.take_of_length_le hs) (List.take_of_length_le hp)
      since := fun _ => ⟨rfl, le_rfl⟩
      tuned := fun _ => nofun
      mode := h.mode
      ready := .inl (h.ready.resolve_right fun hm => hoff hm.1) }

/-- The serial line gives up its own attempt, and no other. -/
lemma DeskInv.improvLoop (h : DeskInv d) (hok : d.Ok .improvLoop) :
    DeskInv (d.step .improvLoop) := by
  have hkeep : ∀ r : Remote, (∃ b p, (p = false → d.remote.pending.parked = true →
      d.remote.pending.pending = false) ∧
      r = { d.remote with
        provInProgress := b, pending := { d.remote.pending with pending := p } }) →
      DeskInv { d with remote := r } := by
    rintro r ⟨b, p, hp, rfl⟩
    exact h.carry rfl (fun _ => id) le_rfl id (fun h _ => h) h.mode fun hpk hpf hph =>
      (h.tuned hpk (hp hpf hpk) hph).same rfl rfl rfl rfl
  refine hkeep _ ?_
  show ∃ b p, _ ∧ d.remote.improvLoop = _
  unfold Remote.improvLoop
  split
  next => exact ⟨d.remote.provInProgress, d.remote.pending.pending, fun h _ => h, rfl⟩
  next hprov =>
    split
    next => exact ⟨false, d.remote.pending.pending, fun h _ => h, rfl⟩
    next hc =>
      split
      next he =>
        have hprov : d.remote.provInProgress = true := by simpa using hprov
        refine ⟨false, false, fun _ hpk => ?_, rfl⟩
        exact (hok hprov (Bool.eq_false_iff.mpr hc) he).resolve_left fun h => by
          rw [hpk] at h
          cases h
      next => exact ⟨d.remote.provInProgress, d.remote.pending.pending, fun h _ => h, rfl⟩

/-- The request that waits is answered, or its client has gone. -/
lemma DeskInv.answer (h : DeskInv d) (hpk : d.remote.pending.parked = true) {a : Answer}
    {deauthAtMs : Nat} (ha : a = .connected → d.remote.lock.isSome = true →
      d.remote.radio.assoc = some (d.remote.pending.ssid, d.remote.pending.psk)) :
    DeskInv { d.answer (d.remote.lock.map fun req => (req, a)) with
      remote := { d.remote.free with deauthAtMs := deauthAtMs } } := by
  obtain ⟨n, c, hw⟩ := h.waits hpk
  have hready : d.remote.initialized = true :=
    h.ready.resolve_right fun hm => absurd (hpk.symm.trans hm.2) nofun
  by_cases hc : n ∈ d.remote.clients
  · have hlock : d.remote.lock = some n := by
      rw [Remote.lock, hw.req, Option.filter_some, decide_eq_true hc, if_pos rfl]
    have hanswered : (d.answers ++ [(n, a, d.remote.radio.assoc)]).map (·.1) = d.answered ++ [n] :=
      List.map_append
    rw [hlock]
    exact {
      once := by
        show ((d.answers ++ [(n, a, d.remote.radio.assoc)]).map (·.1)).Nodup
        rw [hanswered]
        exact List.nodup_append.mpr ⟨h.once, List.nodup_singleton n, fun x hx y hy e =>
          hw.fresh (List.mem_singleton.mp hy ▸ e ▸ hx)⟩
      settled := fun req hreq => by
        show req ∈ (d.answers ++ [(n, a, d.remote.radio.assoc)]).map (·.1) ∨ _
        rw [hanswered]
        obtain h' | h' | h' := h.settled req hreq
        · exact .inl (List.mem_append_left _ h')
        · exact .inr (.inl h')
        · have hn : n = req := Option.some.inj (hw.req.symm.trans h'.2)
          exact .inl (List.mem_append_right _ (hn ▸ List.mem_singleton_self n))
      prompt := h.prompt
      honest := fun req assoc hm => by
        obtain hm | hm := List.mem_append.mp hm
        · exact h.honest req assoc hm
        · obtain ⟨rfl, ha', rfl⟩ : req = n ∧ Answer.connected = a ∧
            assoc = d.remote.radio.assoc := by
            simpa using hm
          refine ⟨c, hw.request, ?_⟩
          rw [ha ha'.symm (by rw [hlock]; rfl), hw.creds]
      known := fun req hm => by
        have hm : req ∈ (d.answers ++ [(n, a, d.remote.radio.assoc)]).map (·.1) := hm
        rw [hanswered] at hm
        obtain hm | hm := List.mem_append.mp hm
        · exact h.known req hm
        · rw [List.mem_singleton.mp hm]
          exact (List.getElem?_eq_some_iff.mp hw.request).1
      waits := nofun
      since := nofun
      tuned := nofun
      mode := h.mode
      ready := .inl hready }
  · have hlock : d.remote.lock = none := by
      rw [Remote.lock, hw.req, Option.filter_some, decide_eq_false hc]
      rfl
    rw [hlock]
    refine h.unparked rfl (fun req hreq => ?_) h.mode (.inl hready)
    obtain h' | h' | h' := h.settled req hreq
    · exact .inl h'
    · exact .inr h'
    · have hn : n = req := Option.some.inj (hw.req.symm.trans h'.2)
      exact .inr (hn ▸ hc)

lemma DeskInv.drain (h : DeskInv d) (hok : d.Ok .drain) : DeskInv (d.step .drain) := by
  have hdrain : ∀ x : Remote × Option (Nat × Answer), d.remote.drain = x →
      (x.1.pending.parked = true → ¬ d.requestedAt + WR_PROVISION_TIMEOUT_MS ≤ d.remote.now) →
      d.step .drain = { d.answer x.2 with remote := x.1 } := by
    intro x hx hlate
    have hover : (d.overdue || (x.1.pending.parked &&
        decide (d.requestedAt + WR_PROVISION_TIMEOUT_MS ≤ d.remote.now))) = d.overdue := by
      cases hpk : x.1.pending.parked with
      | false => exact Bool.or_false _
      | true => rw [decide_eq_false (hlate hpk)]; exact Bool.or_false _
    show ({ d.answer d.remote.drain.2 with
      overdue := d.overdue || (d.remote.drain.1.pending.parked &&
        decide (d.requestedAt + WR_PROVISION_TIMEOUT_MS ≤ d.remote.now))
      remote := d.remote.drain.1 } : Desk) = _
    rw [hx, hover]
    cases x.2 <;> rfl
  cases hpk : d.remote.pending.parked with
  | false =>
    have hx : d.remote.drain = (d.remote, none) := if_pos (.inr (by rw [hpk]; rfl))
    rw [hdrain _ hx fun h => absurd (hpk.symm.trans h) nofun]
    exact h
  | true =>
    have hi : d.remote.initialized = true :=
      h.ready.resolve_right fun hm => absurd (hpk.symm.trans hm.2) nofun
    obtain ⟨hgrace, hlate⟩ := hok hpk
    have hbusy : ¬ ((!d.remote.initialized) = true ∨ (!d.remote.pending.parked) = true) := by
      rw [hi, hpk]
      decide
    cases hph : d.remote.phase with
    | apStaGrace =>
      have hx : d.remote.drain = ({ d.remote.free with
          deauthAtMs := (d.remote.millis + WR_APSTA_DEAUTH_DELAY) % 2 ^ 32 },
          d.remote.lock.map fun req => (req, .connected)) := by
        rw [Remote.drain, if_neg hbusy, hph]
      rw [hdrain _ hx nofun]
      refine h.answer hpk fun _ hl => ?_
      obtain ⟨hpd, hc⟩ := hgrace hph hl
      exact (h.tuned hpk hpd (by rw [hph]; decide)).connected hc
    | apStaConnecting =>
      have hsince := h.since hpk
      by_cases ht : WR_PROVISION_TIMEOUT_MS ≤ d.remote.elapsed d.remote.pending.requestedMs
      · have hx : d.remote.drain = ({ d.remote.free with deauthAtMs := d.remote.deauthAtMs },
            d.remote.lock.map fun req => (req, .staTimeout)) := by
          rw [Remote.drain, if_neg hbusy, hph]
          exact if_pos ht
        rw [hdrain _ hx nofun]
        exact h.answer hpk nofun
      · have hx : d.remote.drain = (d.remote, none) := by
          rw [Remote.drain, if_neg hbusy, hph]
          exact if_neg ht
        rw [hdrain _ hx fun _ hl => ht ?_]
        · exact h
        · rw [hsince.1, elapsed_eq hsince.2 ((hlate hl).2 hph)]
          omega
    | idle =>
      have hx : d.remote.drain = (d.remote, none) := by
        rw [Remote.drain, if_neg hbusy, hph]
      rw [hdrain _ hx fun _ hl => (hlate hl).1 hph]
      exact h

lemma DeskInv.step {e : Event} (hok : d.Ok e) (h : DeskInv d) : DeskInv (d.step e) := by
  cases e with
  | wait ms =>
    exact h.carry rfl (fun _ => id) (Nat.le_add_right _ ms) id (fun h _ => h) h.mode
      fun hpk hpd hph => (h.tuned hpk hpd hph).same rfl rfl rfl rfl
  | boot now eeprom => exact h.boot
  | configure auth ssid psk => exact h.configure
  | wifiSettings ssid psk => exact h.wifiSettings
  | requestSoftap auth =>
    obtain ⟨b, hb⟩ := @requestSoftap_eq d.remote auth
    have hstep : d.step (.requestSoftap auth) =
        { d with remote := { d.remote with forceSoftapPending := b } } :=
      congrArg (fun r => { d with remote := r }) hb
    rw [hstep]
    exact h.carry rfl (fun _ => id) le_rfl id (fun h _ => h) h.mode fun hpk hpd hph =>
      (h.tuned hpk hpd hph).same rfl rfl rfl rfl
  | tick => exact h.tick
  | improvLoop => exact h.improvLoop hok
  | drain => exact h.drain hok
  | staUp =>
    exact h.carry rfl (fun _ => id) le_rfl id (fun h _ => h) h.mode fun hpk hpd hph =>
      (h.tuned hpk hpd hph).up
  | staDown =>
    exact h.carry rfl (fun _ => id) le_rfl id (fun h _ => h) h.mode fun hpk hpd hph =>
      (h.tuned hpk hpd hph).down
  | close req =>
    exact h.carry rfl (fun _ hr => (List.mem_filter.mp hr).1) le_rfl id (fun h _ => h) h.mode
      fun hpk hpd hph => (h.tuned hpk hpd hph).same rfl rfl rfl rfl

/-- **Provisioning is truthful**, as long as the steps are: each parked request is answered once and
in time, and is told that the station is connected only when it is, with the network of that
request. -/
theorem truthful_of_ok (h : Reach Desk.step Desk.Ok {} d) : Truthful d :=
  have h0 : DeskInv {} := ⟨⟨List.nodup_nil, nofun, rfl, nofun⟩, nofun, nofun, nofun, nofun, nofun,
    .inr ⟨rfl, rfl⟩⟩
  (h.invariant h0 fun hok h => h.step hok).toTruthful

end desk

instance instDecidableDeskOk {d : Desk} : ∀ {e}, Decidable (d.Ok e)
  | .drain => inferInstanceAs (Decidable (_ → _))
  | .improvLoop => inferInstanceAs (Decidable (_ → _ → _ → _))
  | .tick | .wait _ | .boot .. | .configure .. | .wifiSettings .. | .requestSoftap _ | .staUp |
    .staDown | .close _ => .isTrue trivial

/-- A request that is answered when its network is up. -/
def answeredRun : List Event :=
  [.boot 500 {}, .configure true [0x61] [0x62], .drain, .tick, .staUp, .tick, .drain]

theorem truthful_answered : Truthful (answeredRun.foldl Desk.step {}) :=
  truthful_of_ok (Reach.init.run (by decide))

/-- A request while the station is up with the network of the one before, and the answer comes
before the phase machine has applied it. -/
def earlyRun : List Event := answeredRun ++ [.configure true [0x63] [0x64], .drain]

/-- The second request is told that the station is connected, which it is with the first network. -/
theorem early_not_truthful : ¬ ∀ d, Reach Desk.step (fun _ _ => True) {} d → Truthful d := by
  intro h
  have hr : Reach Desk.step (fun _ _ => True) {} (earlyRun.foldl Desk.step {}) :=
    Reach.init.run (by decide)
  obtain ⟨c, hc, ha⟩ := (h _ hr).honest 1 (some ([0x61], [0x62])) (by decide)
  have hc' : (earlyRun.foldl Desk.step {}).requests[1]? = some ([0x63], [0x64]) := by decide
  rw [hc'] at hc
  rw [← Option.some.inj hc] at ha
  exact absurd ha (by decide)

end URSupreme.Wifi
