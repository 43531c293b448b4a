import URSupreme.Lib.Run
import URSupreme.Sensors.Gnss

/-!
# The delivery of the M10 power mode

The VALSETs that the facade writes and the receiver's answers to them, which come at any time or
never. An answer does not say which VALSET it is for: the facade counts.
-/

namespace URSupreme.M10Config
open Lib Clock MaxM10 Gnss

/-- A VALSET: the act that wrote it, and its place in the batch. -/
structure Valset where
  act : Nat
  index : Nat
  deriving DecidableEq

/-- The facade, and which VALSETs the receiver has acknowledged and rejected. -/
structure Link where
  facade : Facade := {}
  now : Nat := 0
  acked : List Valset := []
  rejected : List Valset := []

/-- `millis()`. -/
def Link.millis (s : Link) : Nat := reading (2 ^ 32) s.now

/-- A VALSET was written. -/
def Written (acts : List Act) (v : Valset) : Prop :=
  ∃ a ∈ acts[v.act]?, v.index < a.valsets.length

instance {acts v} : Decidable (Written acts v) := inferInstanceAs (Decidable (∃ a ∈ _, _))

/-- The receiver still owes an answer to a VALSET. -/
def Link.Owed (s : Link) (v : Valset) : Prop :=
  Written s.facade.acts v ∧ v ∉ s.acked ∧ v ∉ s.rejected

instance {s : Link} {v} : Decidable (s.Owed v) := inferInstanceAs (Decidable (_ ∧ _ ∧ _))

/-- A message that does not answer a VALSET. -/
abbrev Other := { m : Message // ∀ u, m = .ubx u → u.cls ≠ CLS_ACK }

/-- The frame that answers a VALSET. -/
def answer (id : UInt8) : Ubx :=
  let u : Ubx := ⟨CLS_ACK, id, ⟨[CLS_CFG, ID_CFG_VALSET], by decide⟩, 0, 0⟩
  { u with ckA := (fletcher u.body).1, ckB := (fletcher u.body).2 }

/-- The calls of a pass of `pump` in turn, and what may come between them. -/
inductive Event where
  | wait (ms : Nat)
  | configure (c : PowerConfig)
  | request (want : M10Power) (intervalS : Nat)
  | resetBackoff
  | drive (lag : Nat)
  | hear (m : Other)
  | ack (v : Valset)
  | reject (v : Valset)
  | sight

def Link.step (s : Link) : Event → Link
  | .wait ms => { s with now := s.now + ms }
  | .configure c => { s with facade := { s.facade with config := c } }
  | .request want intervalS =>
    { s with facade := s.facade.m10RequestPower want intervalS s.millis }
  | .resetBackoff => { s with facade := s.facade.resetBackoff }
  | .drive lag => { s with facade := s.facade.drive s.millis (reading (2 ^ 32) (s.now + lag)) }
  | .hear m => if s.facade.hwPowered then { s with facade := s.facade.hear m.1 s.millis } else s
  | .ack v =>
    if s.facade.hwPowered ∧ s.Owed v then
      { s with facade := s.facade.hear (.ubx (answer ID_ACK_ACK)) s.millis, acked := v :: s.acked }
    else s
  | .reject v =>
    if s.facade.hwPowered ∧ s.Owed v then
      { s with
        facade := s.facade.hear (.ubx (answer ID_ACK_NAK)) s.millis, rejected := v :: s.rejected }
    else s
  | .sight => if s.facade.hwPowered then { s with facade := s.facade.sight s.millis } else s

/-- The last batch of a power mode among the first `n` acts. -/
structure LastBatch (acts : List Act) (n k : Nat) (want : M10Power) (intervalS : Nat) : Prop where
  lt : k < n
  eq : acts[k]? = some (.setPower want intervalS)
  last : ∀ j, k < j → j < n → ∀ w i, acts[j]? ≠ some (.setPower w i)

/-- What an event keeps: a power mode is taken as set only when the receiver has acknowledged every
VALSET of the last batch, which was for this mode and interval. -/
structure Keeps (s : Link) (e : Event) : Prop where
  set : ((s.step e).facade.m10Power = s.facade.m10Power ∧
      (s.step e).facade.m10IntervalS = s.facade.m10IntervalS) ∨
    (s.step e).facade.m10Power = .notApplied ∨
    ∃ n ≥ s.facade.acts.length, (s.step e).facade.acts[n]? =
      some (.acknowledged (s.step e).facade.m10Power (s.step e).facade.m10IntervalS)
  acked : ∀ n ≥ s.facade.acts.length, ∀ want intervalS,
    (s.step e).facade.acts[n]? = some (.acknowledged want intervalS) →
      ∃ k, LastBatch (s.step e).facade.acts n k want intervalS ∧
        ∀ i < (Act.setPower want intervalS).valsets.length, ⟨k, i⟩ ∈ s.acked

/-- The condition on an acknowledgement that comes while a batch is awaited: it is for that
batch. -/
def Sound (s : Link) (e : Event) : Prop :=
  ∀ v, e = .ack v → s.facade.m10Cfg = .awaitAck →
    LastBatch s.facade.acts s.facade.acts.length v.act s.facade.m10CfgWant s.facade.m10CfgIv

/-- An act is neither a batch of a power mode nor the notice of one. -/
def Minor : Act → Prop
  | .setPower _ _ => False
  | .acknowledged _ _ => False
  | _ => True

/-- A call that neither sends a batch nor takes one as acknowledged. -/
structure Quiet (g g' : Facade) : Prop where
  acts : ∃ as, g'.acts = g.acts ++ as ∧ ∀ a ∈ as, Minor a
  power : (g'.m10Power = g.m10Power ∧ g'.m10IntervalS = g.m10IntervalS) ∨ g'.m10Power = .notApplied
  acks : g'.report.valsetAcks = g.report.valsetAcks
  cfg : g'.m10Cfg = .awaitAck → g.m10Cfg = .awaitAck ∧ g'.m10CfgAcks = g.m10CfgAcks ∧
    g'.m10CfgNeed = g.m10CfgNeed ∧ g'.m10CfgWant = g.m10CfgWant ∧ g'.m10CfgIv = g.m10CfgIv

section
variable {g g' g'' : Facade} {now millis intervalS n k : Nat} {want : M10Power} {m : Module}
  {a : Act} {acts as : List Act} {s : Link} {e : Event} {v : Valset}

lemma Quiet.refl : Quiet g g :=
  ⟨⟨[], (List.append_nil _).symm, nofun⟩, .inl ⟨rfl, rfl⟩, rfl, fun h => ⟨h, rfl, rfl, rfl, rfl⟩⟩

lemma Quiet.trans (h : Quiet g g') (h' : Quiet g' g'') : Quiet g g'' := by
  obtain ⟨as, has, hminor⟩ := h.acts
  obtain ⟨as', has', hminor'⟩ := h'.acts
  refine ⟨⟨as ++ as', ?_, fun a ha => ?_⟩, ?_, h'.acks.trans h.acks, fun hc => ?_⟩
  · rw [has', has, List.append_assoc]
  · exact (List.mem_append.mp ha).elim (hminor a) (hminor' a)
  · obtain ⟨hp, hi⟩ | hn := h'.power
    · rw [hp, hi]
      exact h.power
    · exact .inr hn
  · obtain ⟨hc', h1, h2, h3, h4⟩ := h'.cfg hc
    obtain ⟨hc, h5, h6, h7, h8⟩ := h.cfg hc'
    exact ⟨hc, h1.trans h5, h2.trans h6, h3.trans h7, h4.trans h8⟩

lemma Quiet.ite {p : Prop} [Decidable p] (h : p → Quiet g g') (h' : ¬ p → Quiet g g'') :
    Quiet g (if p then g' else g'') := by
  split
  next hp => exact h hp
  next hp => exact h' hp

/-- A change of what the delivery does not look at. -/
lemma Quiet.of_eq (h1 : g'.acts = g.acts) (h2 : g'.m10Power = g.m10Power)
    (h3 : g'.m10IntervalS = g.m10IntervalS) (h4 : g'.report.valsetAcks = g.report.valsetAcks)
    (h5 : g'.m10Cfg = g.m10Cfg) (h6 : g'.m10CfgAcks = g.m10CfgAcks)
    (h7 : g'.m10CfgNeed = g.m10CfgNeed) (h8 : g'.m10CfgWant = g.m10CfgWant)
    (h9 : g'.m10CfgIv = g.m10CfgIv) : Quiet g g' :=
  ⟨⟨[], h1.trans (List.append_nil _).symm, nofun⟩, .inl ⟨h2, h3⟩, h4,
    fun h => ⟨h5.symm.trans h, h6, h7, h8, h9⟩⟩

lemma Quiet.act (ha : Minor a) : Quiet g (g.act a) :=
  ⟨⟨[a], rfl, fun _ h => List.mem_singleton.mp h ▸ ha⟩, .inl ⟨rfl, rfl⟩, rfl,
    fun h => ⟨h, rfl, rfl, rfl, rfl⟩⟩

lemma quiet_probeModule : Quiet g g.probeModule := by
  unfold Facade.probeModule
  split
  next => exact .refl
  next => exact .act trivial

lemma quiet_bindModule : Quiet g (g.bindModule m) := by
  unfold Facade.bindModule
  split
  next => exact .refl
  next =>
    split
    next =>
      exact ⟨⟨[.onIdentified], rfl, fun _ h => List.mem_singleton.mp h ▸ trivial⟩, .inr rfl, rfl,
        fun h => ⟨h, rfl, rfl, rfl, rfl⟩⟩
    next => exact .of_eq rfl rfl rfl rfl rfl rfl rfl rfl rfl

lemma quiet_powerOn : Quiet g g.powerOn := by
  have h : Quiet g { g with hwPowered := true, m10Power := .notApplied } :=
    ⟨⟨[], (List.append_nil _).symm, nofun⟩, .inr rfl, rfl, fun h => ⟨h, rfl, rfl, rfl, rfl⟩⟩
  exact h.trans quiet_probeModule

lemma quiet_powerOff : Quiet g g.powerOff := .of_eq rfl rfl rfl rfl rfl rfl rfl rfl rfl

lemma quiet_resetBackoff : Quiet g g.resetBackoff := by
  unfold Facade.resetBackoff
  split
  next => exact .of_eq rfl rfl rfl rfl rfl rfl rfl rfl rfl
  next => exact .refl

lemma quiet_m10RequestPower : Quiet g (g.m10RequestPower want intervalS millis) := by
  unfold Facade.m10RequestPower
  split
  next => exact .refl
  next =>
    split
    next => exact .refl
    next =>
      exact ⟨⟨[.wake], rfl, fun _ h => List.mem_singleton.mp h ▸ trivial⟩, .inl ⟨rfl, rfl⟩, rfl,
        nofun⟩

lemma quiet_startAcquiring : Quiet g (g.startAcquiring now millis) := by
  unfold Facade.startAcquiring
  dsimp only
  have h1 : Quiet g (if g.hwPowered then g else g.powerOn) :=
    .ite (fun _ => .refl) fun _ => quiet_powerOn
  generalize (if g.hwPowered then g else g.powerOn) = g1 at h1 ⊢
  refine h1.trans ?_
  have h2 : Quiet g1 (if g1.module = .maxm10 then g1.m10RequestPower .full 0 millis else g1) :=
    .ite (fun _ => quiet_m10RequestPower) fun _ => .refl
  exact h2.trans (.of_eq rfl rfl rfl rfl rfl rfl rfl rfl rfl)

lemma quiet_endAcquired : Quiet g (g.endAcquired intervalS millis) := by
  unfold Facade.endAcquired
  dsimp only
  have h : Quiet g { g with backoffCount := 0, nextAttemptMs := 0, pulseState := .idle } :=
    .of_eq rfl rfl rfl rfl rfl rfl rfl rfl rfl
  exact h.trans (.ite (fun _ => quiet_m10RequestPower) fun _ => quiet_powerOff)

lemma quiet_backOff : Quiet g (g.backOff now) := by
  unfold Facade.backOff
  dsimp only
  split
  next =>
    exact ⟨⟨_, rfl, fun _ h => List.mem_singleton.mp h ▸ trivial⟩, .inl ⟨rfl, rfl⟩, rfl,
      fun h => ⟨h, rfl, rfl, rfl, rfl⟩⟩
  next => exact .of_eq rfl rfl rfl rfl rfl rfl rfl rfl rfl

lemma quiet_schedulerPump : Quiet g (g.schedulerPump now intervalS millis) := by
  unfold Facade.schedulerPump
  split
  next =>
    exact .ite (fun _ => quiet_startAcquiring) fun _ => .ite
      (fun _ => quiet_powerOff) fun _ => .refl
  next =>
    exact .ite (fun _ => quiet_endAcquired) fun _ => .ite (fun _ => quiet_backOff) fun _ => .refl

lemma quiet_powerMode : Quiet g (g.powerMode now millis) := by
  have hidle : ∀ g1 : Facade, Quiet g1 { g1 with pulseState := .idle } :=
    fun _ => .of_eq rfl rfl rfl rfl rfl rfl rfl rfl rfl
  unfold Facade.powerMode
  split
  next =>
    have h1 : Quiet g (if g.hwPowered then g.powerOff else g) :=
      .ite (fun _ => quiet_powerOff) fun _ => .refl
    exact h1.trans (hidle _)
  next =>
    dsimp only
    have h1 : Quiet g (if g.hwPowered then g else g.powerOn) :=
      .ite (fun _ => .refl) fun _ => quiet_powerOn
    exact (h1.trans (hidle _)).trans (.ite (fun _ => quiet_m10RequestPower) fun _ => .refl)
  next => exact quiet_schedulerPump

lemma quiet_reprobe : Quiet g (g.reprobe now) := by
  unfold Facade.reprobe
  split
  next =>
    have h : Quiet g { g.act .wake with lastProbeMs := now } :=
      (Quiet.act (a := .wake) trivial).trans (.of_eq rfl rfl rfl rfl rfl rfl rfl rfl rfl)
    exact h.trans quiet_probeModule
  next => exact .refl

lemma quiet_sight : Quiet g (g.sight millis) := by
  unfold Facade.sight
  split
  next => exact .of_eq rfl rfl rfl rfl rfl rfl rfl rfl rfl
  next => exact .refl

lemma quiet_m10CfgRetry : Quiet g (g.m10CfgRetry now) := by
  unfold Facade.m10CfgRetry
  split
  next =>
    exact ⟨⟨[.wake], rfl, fun _ h => List.mem_singleton.mp h ▸ trivial⟩, .inl ⟨rfl, rfl⟩, rfl,
      nofun⟩
  next => exact ⟨⟨[], (List.append_nil _).symm, nofun⟩, .inl ⟨rfl, rfl⟩, rfl, nofun⟩

variable (g now) in
/-- What `m10_cfg_pump` does: it sends a batch, it takes a batch as acknowledged, or neither. -/
lemma m10CfgPump_cases :
    Quiet g (g.m10CfgPump now) ∨ g.m10CfgPump now = g.m10CfgSend now ∨
      (g.m10Cfg = .awaitAck ∧ elapsed g.report.valsetAcks g.m10CfgAcks ≥ g.m10CfgNeed ∧
        g.m10CfgPump now = { g.act (.acknowledged g.m10CfgWant g.m10CfgIv) with
          m10Power := g.m10CfgWant
          m10IntervalS := g.m10CfgIv
          m10Cfg := .idle }) := by
  unfold Facade.m10CfgPump
  cases hc : g.m10Cfg with
  | idle => exact .inl .refl
  | settling =>
    dsimp only
    split
    next => exact .inl .refl
    next => exact .inr (.inl rfl)
  | awaitAck =>
    dsimp only
    split
    next h => exact .inr (.inr ⟨rfl, h.2, rfl⟩)
    next =>
      split
      next => exact .inl quiet_m10CfgRetry
      next => exact .inl .refl

/-- The acknowledged VALSETs of a batch. -/
def Link.ackedOf (s : Link) (k : Nat) : List Valset := s.acked.filter (·.act = k)

/-- The batch that is awaited is the last one, and no more acknowledgements are counted than came
for it. -/
structure Awaits (s : Link) (k : Nat) : Prop where
  batch : LastBatch s.facade.acts s.facade.acts.length k s.facade.m10CfgWant s.facade.m10CfgIv
  need : s.facade.m10CfgNeed =
    (Act.setPower s.facade.m10CfgWant s.facade.m10CfgIv).valsets.length
  acks : elapsed s.facade.report.valsetAcks s.facade.m10CfgAcks ≤ (s.ackedOf k).length

/-- The acknowledgements of a run: each is for a VALSET that was written, and comes once. -/
structure Tracks (s : Link) : Prop where
  nodup : s.acked.Nodup
  written : ∀ v ∈ s.acked, Written s.facade.acts v
  awaits : s.facade.m10Cfg = .awaitAck → ∃ k, Awaits s k

lemma Tracks.init : Tracks {} := ⟨.nil, nofun, nofun⟩

lemma getElem?_prefix (h : acts[n]? = some a) : (acts ++ as)[n]? = some a :=
  (List.getElem?_append_left (List.getElem?_eq_some_iff.mp h).1).trans h

lemma Written.append (h : Written acts v) : Written (acts ++ as) v := by
  obtain ⟨a, ha, hi⟩ := h
  exact ⟨a, getElem?_prefix ha, hi⟩

/-- What is behind the acts that were there before. -/
lemma mem_of_getElem?_append (hn : acts.length ≤ n) (h : (acts ++ as)[n]? = some a) :
    as[n - acts.length]? = some a ∧ a ∈ as := by
  rw [List.getElem?_append_right hn] at h
  exact ⟨h, List.mem_of_getElem? h⟩

lemma LastBatch.prefix (h : LastBatch acts acts.length k want intervalS) :
    LastBatch (acts ++ as) acts.length k want intervalS := by
  refine ⟨h.lt, getElem?_prefix h.eq, fun j hk hj => ?_⟩
  rw [List.getElem?_append_left hj]
  exact h.last j hk hj

/-- Minor acts leave the last batch as it is. -/
lemma LastBatch.append (h : LastBatch acts acts.length k want intervalS) (hm : ∀ a ∈ as, Minor a) :
    LastBatch (acts ++ as) (acts ++ as).length k want intervalS := by
  refine ⟨?_, getElem?_prefix h.eq, fun j hk hj w i he => ?_⟩
  · rw [List.length_append]
    exact h.lt.trans_le (Nat.le_add_right _ _)
  · obtain hlt | hge := lt_or_ge j acts.length
    · rw [List.getElem?_append_left hlt] at he
      exact h.last j hk hlt w i he
    · exact hm _ (mem_of_getElem?_append hge he).2

/-- A quiet call keeps track. -/
lemma Tracks.quiet {s' : Link} (hs : Tracks s) (hq : Quiet s.facade s'.facade)
    (ha : s'.acked = s.acked) : Tracks s' := by
  obtain ⟨as, has, hminor⟩ := hq.acts
  refine ⟨ha ▸ hs.nodup, fun v hv => ?_, fun hc => ?_⟩
  · rw [has]
    rw [ha] at hv
    exact (hs.written v hv).append
  · obtain ⟨hc, hsnap, hneed, hwant, hiv⟩ := hq.cfg hc
    obtain ⟨k, hk⟩ := hs.awaits hc
    refine ⟨k, ?_, ?_, ?_⟩
    · rw [has, hwant, hiv]
      exact hk.batch.append hminor
    · rw [hneed, hwant, hiv]
      exact hk.need
    · rw [hq.acks, hsnap, Link.ackedOf, ha]
      exact hk.acks

lemma acts_m10CfgSend :
    (g.m10CfgSend now).acts = g.acts ++ [.setPower g.m10CfgWant g.m10CfgIv] := rfl

lemma length_valsets :
    (Act.setPower want intervalS).valsets.length = if want = .full then 1 else 3 := by
  unfold Act.valsets
  dsimp only
  split
  next => rfl
  next => rfl

/-- A batch that is sent has no acknowledgement yet. -/
lemma Tracks.send {s' : Link} (hs : Tracks s) (hf : s'.facade = s.facade.m10CfgSend now)
    (ha : s'.acked = s.acked) : Tracks s' := by
  refine ⟨ha ▸ hs.nodup, fun v hv => ?_, fun _ => ⟨s.facade.acts.length, ⟨?_, ?_, ?_⟩, ?_, ?_⟩⟩
  · rw [ha] at hv
    rw [hf]
    exact (hs.written v hv).append
  · rw [hf, acts_m10CfgSend, List.length_append]
    exact Nat.lt_succ_self _
  · rw [hf]
    exact List.getElem?_concat_length
  · intro j hk hj
    rw [hf, acts_m10CfgSend, List.length_append, List.length_singleton] at hj
    omega
  · rw [hf, length_valsets]
    rfl
  · rw [hf]
    have h0 : elapsed s.facade.report.valsetAcks s.facade.report.valsetAcks = 0 := by
      unfold elapsed
      rw [Nat.add_sub_cancel_left, Nat.mod_self]
    exact h0.le.trans (Nat.zero_le _)

/-- As many acknowledgements as the batch has VALSETs are all of them. -/
lemma Tracks.all (hs : Tracks s) {a : Act} (hk : s.facade.acts[k]? = some a)
    (hn : a.valsets.length ≤ (s.ackedOf k).length) : ∀ i < a.valsets.length, ⟨k, i⟩ ∈ s.acked := by
  have hact : ∀ v ∈ s.ackedOf k, v ∈ s.acked ∧ v.act = k := fun v hv =>
    (List.mem_filter.mp hv).imp_right of_decide_eq_true
  have hnodup : ((s.ackedOf k).map Valset.index).Nodup :=
    (hs.nodup.filter _).map_on fun v hv w hw he => by
      obtain ⟨va, vi⟩ := v
      obtain ⟨wa, wi⟩ := w
      obtain rfl : va = k := (hact _ hv).2
      obtain rfl : wa = va := (hact _ hw).2
      exact congrArg _ he
  have hsub : ((s.ackedOf k).map Valset.index).toFinset ⊆ Finset.range a.valsets.length := by
    intro i hi
    obtain ⟨v, hv, rfl⟩ := List.mem_map.mp (List.mem_toFinset.mp hi)
    obtain ⟨hmem, rfl⟩ := hact v hv
    obtain ⟨b, hb, hlt⟩ := hs.written v hmem
    obtain rfl := Option.some.inj (hk.symm.trans hb)
    exact Finset.mem_range.mpr hlt
  have heq := Finset.eq_of_subset_of_card_le hsub (by
    rw [Finset.card_range, List.toFinset_card_of_nodup hnodup, List.length_map]
    exact hn)
  intro i hi
  rw [← Finset.mem_range, ← heq, List.mem_toFinset] at hi
  obtain ⟨v, hv, rfl⟩ := List.mem_map.mp hi
  obtain ⟨hmem, rfl⟩ := hact v hv
  exact hmem

variable (g now millis) in
/-- What a pass does: it sends a batch, it takes a batch as acknowledged, or neither, and what else
it does is quiet. -/
lemma drive_cases :
    Quiet g (g.drive now millis) ∨ ∃ g1, Quiet g g1 ∧
      (Quiet (g1.m10CfgSend now) (g.drive now millis) ∨
        (g1.m10Cfg = .awaitAck ∧ elapsed g1.report.valsetAcks g1.m10CfgAcks ≥ g1.m10CfgNeed ∧
          Quiet { g1.act (.acknowledged g1.m10CfgWant g1.m10CfgIv) with
            m10Power := g1.m10CfgWant
            m10IntervalS := g1.m10CfgIv
            m10Cfg := .idle } (g.drive now millis))) := by
  have h1 : Quiet g (g.powerMode now millis) := quiet_powerMode
  unfold Facade.drive
  dsimp only
  generalize g.powerMode now millis = g1 at h1 ⊢
  by_cases hoff : g.config.targetMode = .off
  · rw [if_pos hoff]
    exact .inl h1
  · rw [if_neg hoff]
    by_cases hm : g1.module = .maxm10
    · rw [if_pos hm]
      obtain hq | he | ⟨hc, hn, he⟩ := m10CfgPump_cases g1 now
      · exact .inl ((h1.trans hq).trans quiet_reprobe)
      · rw [he]
        exact .inr ⟨g1, h1, .inl quiet_reprobe⟩
      · rw [he]
        exact .inr ⟨g1, h1, .inr ⟨hc, hn, quiet_reprobe⟩⟩
    · rw [if_neg hm]
      exact .inl (h1.trans quiet_reprobe)

/-- Messages that answer no VALSET are not counted. -/
lemma deliver_other {u : Ubx} {r : Report} (hu : u.cls ≠ CLS_ACK) :
    ((Segment.frame u).deliver (fun _ => millis) 0 r).valsetAcks = r.valsetAcks := by
  unfold Segment.deliver
  dsimp only
  split
  next =>
    unfold dispatch
    split
    next => rfl
    next =>
      split
      next => rfl
      next =>
        split
        next => rfl
        next => rw [if_neg fun h => hu h.1]
  next => rfl

/-- An answer is counted once, if at all. -/
lemma deliver_answer {r : Report} {id : UInt8} :
    ((Segment.frame (answer id)).deliver (fun _ => millis) 0 r).valsetAcks =
      if id = ID_ACK_ACK then (r.valsetAcks + 1) % 2 ^ 32 else r.valsetAcks := by
  have hsound : (answer id).Sound := rfl
  unfold Segment.deliver
  dsimp only
  rw [if_pos hsound]
  have hcls : (answer id).cls = CLS_ACK := rfl
  have hid : (answer id).id = id := rfl
  have hlen : (answer id).payload.1.length = 2 := rfl
  have hmon : CLS_ACK ≠ CLS_MON := by decide
  have hnav : CLS_ACK ≠ CLS_NAV := by decide
  unfold dispatch
  rw [hcls, hid, hlen, if_neg fun h => hmon h.1, if_neg fun h => hnav h.1, if_neg fun h => hmon h.1,
    if_pos ⟨rfl, rfl, rfl, rfl⟩]
  split
  next => rfl
  next =>
    split
    next => rfl
    next => rfl

variable (g millis) in
/-- A frame is read at most; what else it does is quiet. -/
lemma hear_ubx (u : Ubx) :
    ∃ r, Quiet { g with report := r } (g.hear (.ubx u) millis) ∧
      (r = g.report ∨ r = (Segment.frame u).deliver (fun _ => millis) 0 g.report) := by
  unfold Facade.hear
  dsimp only
  by_cases hm : g.module = .l76k
  · rw [if_pos hm]
    exact ⟨g.report, .refl, .inl rfl⟩
  · rw [if_neg hm]
    exact ⟨_, .ite (fun _ => quiet_bindModule) fun _ => .refl, .inr rfl⟩

lemma quiet_hear (m : Other) : Quiet g (g.hear m.1 millis) := by
  obtain ⟨m, hm⟩ := m
  cases m with
  | ubx u =>
    obtain ⟨r, hq, hr⟩ := hear_ubx g millis u
    have hacks : r.valsetAcks = g.report.valsetAcks := by
      obtain rfl | rfl := hr
      · rfl
      · exact deliver_other (hm u rfl)
    have h : Quiet g { g with report := r } := .of_eq rfl rfl rfl hacks rfl rfl rfl rfl rfl
    exact h.trans hq
  | rmc => exact .of_eq rfl rfl rfl rfl rfl rfl rfl rfl rfl
  | visible sats => exact .of_eq rfl rfl rfl rfl rfl rfl rfl rfl rfl
  | txt casic ublox =>
    exact .ite (fun _ => .refl) fun _ => .ite (fun _ => quiet_bindModule) fun _ =>
      .ite (fun _ => quiet_bindModule) fun _ => .refl

lemma quiet_hear_reject : Quiet g (g.hear (.ubx (answer ID_ACK_NAK)) millis) := by
  obtain ⟨r, hq, hr⟩ := hear_ubx g millis (answer ID_ACK_NAK)
  have hacks : r.valsetAcks = g.report.valsetAcks := by
    obtain rfl | rfl := hr
    · rfl
    · exact deliver_answer
  have h : Quiet g { g with report := r } := .of_eq rfl rfl rfl hacks rfl rfl rfl rfl rfl
  exact h.trans hq

/-- There is one last batch. -/
lemma LastBatch.unique {k' : Nat} {w : M10Power} {i : Nat} (h : LastBatch acts n k want intervalS)
    (h' : LastBatch acts n k' w i) : k = k' := by
  obtain hlt | rfl | hlt := Nat.lt_trichotomy k k'
  · exact absurd h'.eq (h.last k' hlt h'.lt w i)
  · rfl
  · exact absurd h.eq (h'.last k hlt h.lt want intervalS)

/-- An acknowledgement that is counted for the awaited batch is one of its own. -/
lemma Tracks.ack (hs : Tracks s) (ho : Sound s (.ack v)) (hv : s.Owed v) :
    Tracks { s with
      facade := s.facade.hear (.ubx (answer ID_ACK_ACK)) millis
      acked := v :: s.acked } := by
  obtain ⟨r, hq, hr⟩ := hear_ubx s.facade millis (answer ID_ACK_ACK)
  have hs1 : Tracks { s with facade := { s.facade with report := r }, acked := v :: s.acked } := by
    refine ⟨List.nodup_cons.mpr ⟨hv.2.1, hs.nodup⟩, fun w hw => ?_, fun hc => ?_⟩
    · obtain rfl | hw := List.mem_cons.mp hw
      · exact hv.1
      · exact hs.written w hw
    · obtain ⟨k, hk⟩ := hs.awaits hc
      refine ⟨k, hk.batch, hk.need, ?_⟩
      obtain rfl : v.act = k := (ho v rfl hc).unique hk.batch
      have hof : Link.ackedOf { s with
          facade := { s.facade with report := r }
          acked := v :: s.acked } v.act = v :: s.ackedOf v.act :=
        List.filter_cons_of_pos (decide_eq_true rfl)
      rw [hof, List.length_cons]
      have hacks := hk.acks
      have hr' : r.valsetAcks = s.facade.report.valsetAcks ∨
          r.valsetAcks = (s.facade.report.valsetAcks + 1) % 2 ^ 32 := by
        obtain rfl | rfl := hr
        · exact .inl rfl
        · exact .inr (deliver_answer.trans (if_pos rfl))
      dsimp only
      unfold elapsed at hacks ⊢
      omega
  exact hs1.quiet hq rfl

/-- An event of a sound run keeps track. -/
lemma Tracks.step (hs : Tracks s) (ho : Sound s e) : Tracks (s.step e) := by
  cases e with
  | wait ms => exact hs.quiet .refl rfl
  | configure c => exact hs.quiet (.of_eq rfl rfl rfl rfl rfl rfl rfl rfl rfl) rfl
  | request want intervalS => exact hs.quiet quiet_m10RequestPower rfl
  | resetBackoff => exact hs.quiet quiet_resetBackoff rfl
  | drive lag =>
    obtain hq | ⟨g1, h1, hq | ⟨hc, hn, hq⟩⟩ :=
      drive_cases s.facade s.millis (reading (2 ^ 32) (s.now + lag))
    · exact hs.quiet hq rfl
    · have hs1 : Tracks { s with facade := g1 } := hs.quiet h1 rfl
      have hs2 : Tracks { s with facade := g1.m10CfgSend s.millis } := hs1.send rfl rfl
      exact hs2.quiet hq rfl
    · have hs1 : Tracks { s with facade := g1 } := hs.quiet h1 rfl
      have hs2 : Tracks { s with facade := { g1.act (.acknowledged g1.m10CfgWant g1.m10CfgIv) with
          m10Power := g1.m10CfgWant
          m10IntervalS := g1.m10CfgIv
          m10Cfg := .idle } } :=
        ⟨hs1.nodup, fun v hv => (hs1.written v hv).append, nofun⟩
      exact hs2.quiet hq rfl
  | hear m =>
    unfold Link.step
    dsimp only
    split
    next => exact hs.quiet (quiet_hear m) rfl
    next => exact hs
  | ack v =>
    unfold Link.step
    dsimp only
    split
    next h => exact hs.ack ho h.2
    next => exact hs
  | reject v =>
    unfold Link.step
    dsimp only
    split
    next => exact hs.quiet quiet_hear_reject rfl
    next => exact hs
  | sight =>
    unfold Link.step
    dsimp only
    split
    next => exact hs.quiet quiet_sight rfl
    next => exact hs

/-- A quiet call does not set a power mode. -/
lemma Quiet.keeps (hq : Quiet s.facade (s.step e).facade) : Keeps s e := by
  obtain ⟨as, has, hminor⟩ := hq.acts
  refine ⟨hq.power.imp_right .inl, fun n hn want intervalS he => ?_⟩
  rw [has] at he
  exact absurd (hminor _ (mem_of_getElem?_append hn he).2) id

/-- A batch that is sent sets no power mode. -/
lemma keeps_send {g1 : Facade} (h1 : Quiet s.facade g1)
    (hq : Quiet (g1.m10CfgSend now) (s.step e).facade) : Keeps s e := by
  obtain ⟨as, has, hminor⟩ := h1.acts
  obtain ⟨as', has', hminor'⟩ := hq.acts
  refine ⟨?_, fun n hn want intervalS he => ?_⟩
  · have hsend : (g1.m10CfgSend now).m10Power = g1.m10Power ∧
        (g1.m10CfgSend now).m10IntervalS = g1.m10IntervalS := ⟨rfl, rfl⟩
    obtain ⟨hp, hi⟩ | hz := hq.power
    · rw [hp, hi, hsend.1, hsend.2]
      exact h1.power.imp_right .inl
    · exact .inr (.inl hz)
  · rw [has', acts_m10CfgSend, has, List.append_assoc, List.append_assoc] at he
    obtain hmem | hmem := List.mem_append.mp (mem_of_getElem?_append hn he).2
    · exact absurd (hminor _ hmem) id
    · obtain heq | hmem := List.mem_cons.mp hmem
      · cases heq
      · exact absurd (hminor' _ hmem) id

/-- A power mode is set when its batch has been acknowledged. -/
lemma Tracks.keeps_acknowledged {g1 : Facade} (hs : Tracks s) (h1 : Quiet s.facade g1)
    (hc : g1.m10Cfg = .awaitAck)
    (hn : elapsed g1.report.valsetAcks g1.m10CfgAcks ≥ g1.m10CfgNeed)
    (hq : Quiet { g1.act (.acknowledged g1.m10CfgWant g1.m10CfgIv) with
      m10Power := g1.m10CfgWant
      m10IntervalS := g1.m10CfgIv
      m10Cfg := .idle } (s.step e).facade) : Keeps s e := by
  obtain ⟨as, has, hminor⟩ := h1.acts
  obtain ⟨as', has', hminor'⟩ := hq.acts
  have hs1 : Tracks { s with facade := g1 } := hs.quiet h1 rfl
  obtain ⟨k, hk⟩ := hs1.awaits hc
  have hacts : (s.step e).facade.acts =
      g1.acts ++ (.acknowledged g1.m10CfgWant g1.m10CfgIv :: as') :=
    has'.trans (List.append_assoc ..)
  have hle : s.facade.acts.length ≤ g1.acts.length := by
    rw [has, List.length_append]
    exact Nat.le_add_right _ _
  refine ⟨?_, fun n hnle want intervalS he => ?_⟩
  · obtain ⟨hp, hi⟩ | hz := hq.power
    · refine .inr (.inr ⟨g1.acts.length, hle, ?_⟩)
      rw [hp, hi, hacts, List.getElem?_append_right le_rfl, Nat.sub_self]
      rfl
    · exact .inr (.inl hz)
  · have hn' : n = g1.acts.length ∧ want = g1.m10CfgWant ∧ intervalS = g1.m10CfgIv := by
      rw [hacts] at he
      obtain hlt | heq | hgt := Nat.lt_trichotomy n g1.acts.length
      · rw [List.getElem?_append_left hlt, has] at he
        exact absurd (hminor _ (mem_of_getElem?_append hnle he).2) id
      · rw [heq, List.getElem?_append_right le_rfl, Nat.sub_self] at he
        obtain ⟨rfl, rfl⟩ := Act.acknowledged.inj (Option.some.inj he)
        exact ⟨heq, rfl, rfl⟩
      · obtain ⟨m, hm⟩ : ∃ m, n - g1.acts.length = m + 1 := ⟨n - g1.acts.length - 1, by omega⟩
        rw [List.getElem?_append_right hgt.le, hm, List.getElem?_cons_succ] at he
        exact absurd (hminor' _ (List.mem_of_getElem? he)) id
    obtain ⟨rfl, rfl, rfl⟩ := hn'
    refine ⟨k, ?_, ?_⟩
    · rw [hacts]
      exact hk.batch.prefix
    · refine hs1.all hk.batch.eq ?_
      exact (hk.need.symm.le.trans hn).trans hk.acks

/-- An event of a sound run sets no power mode before its batch is acknowledged. -/
lemma Tracks.keeps (hs : Tracks s) : Keeps s e := by
  cases e with
  | wait ms => exact Quiet.refl.keeps
  | configure c =>
    have hq : Quiet s.facade (s.step (.configure c)).facade :=
      .of_eq rfl rfl rfl rfl rfl rfl rfl rfl rfl
    exact hq.keeps
  | request want intervalS => exact quiet_m10RequestPower.keeps
  | resetBackoff => exact quiet_resetBackoff.keeps
  | drive lag =>
    obtain hq | ⟨g1, h1, hq | ⟨hc, hn, hq⟩⟩ :=
      drive_cases s.facade s.millis (reading (2 ^ 32) (s.now + lag))
    · exact hq.keeps
    · exact keeps_send h1 hq
    · exact hs.keeps_acknowledged h1 hc hn hq
  | hear m =>
    refine Quiet.keeps ?_
    unfold Link.step
    dsimp only
    split
    next => exact quiet_hear m
    next => exact .refl
  | ack v =>
    have hq : ∀ g' : Facade, ∀ r, Quiet { s.facade with report := r } g' →
        (s.step (.ack v)).facade = g' → Keeps s (.ack v) := fun g' r hq he => by
      obtain ⟨as, has, hminor⟩ := hq.acts
      refine ⟨?_, fun n hn want intervalS hn' => ?_⟩
      · rw [he]
        exact hq.power.imp_right .inl
      · rw [he, has] at hn'
        exact absurd (hminor _ (mem_of_getElem?_append hn hn').2) id
    by_cases h : s.facade.hwPowered ∧ s.Owed v
    · obtain ⟨r, hr, -⟩ := hear_ubx s.facade s.millis (answer ID_ACK_ACK)
      refine hq _ r hr ?_
      unfold Link.step
      dsimp only
      rw [if_pos h]
    · refine hq _ s.facade.report .refl ?_
      unfold Link.step
      dsimp only
      rw [if_neg h]
  | reject v =>
    refine Quiet.keeps ?_
    unfold Link.step
    dsimp only
    split
    next => exact quiet_hear_reject
    next => exact .refl
  | sight =>
    refine Quiet.keeps ?_
    unfold Link.step
    dsimp only
    split
    next => exact quiet_sight
    next => exact .refl

end

/-- In a run whose acknowledgements are sound, `m10_power_ref` is set to a mode only when the
receiver has acknowledged every VALSET of the last batch, sent for that mode and interval. -/
theorem configures_of_sound {events : List Event} (h : Allowed Link.step Sound {} events) :
    Allowed Link.step Keeps {} events :=
  h.imp (fun hs ho => hs.step ho) (fun hs _ => hs.keeps) Tracks.init

/-- The receiver is identified, and settles for its batch. -/
def settled : List Event := [.hear ⟨.txt false true, nofun⟩, .drive 0, .wait 150]

/-- The receiver acknowledges the identification first, and then its batch. -/
def inTime : List Event :=
  settled ++ [.ack ⟨1, 0⟩, .ack ⟨1, 1⟩, .ack ⟨1, 2⟩, .drive 0, .ack ⟨3, 0⟩, .drive 0]

/-- The first acknowledgement of the identification comes after the batch was sent. -/
def late : List Event := settled ++ [.drive 0, .ack ⟨1, 0⟩, .drive 0]

/-- A batch that is acknowledged sets its mode. -/
theorem configures_of_sound_inTime : Allowed Link.step Keeps {} inTime ∧
    (inTime.foldl Link.step {}).facade.m10Power = .full := by
  have hlast : LastBatch [.probe, .onIdentified, .wake, .setPower .full 0] 4 3 .full 0 :=
    ⟨by decide, rfl, fun j hk hj => absurd hj (by omega)⟩
  refine ⟨configures_of_sound ⟨nofun, nofun, nofun, ?_, ?_, ?_, nofun, ?_, nofun, trivial⟩,
    by decide⟩
  · exact fun _ _ hc => absurd hc (by decide)
  · exact fun _ _ hc => absurd hc (by decide)
  · exact fun _ _ hc => absurd hc (by decide)
  · intro v hv _
    cases hv
    exact hlast

/-- An acknowledgement of the identification completes the batch for full power. -/
theorem not_keeps_late : ¬ ∀ events : List Event, Allowed Link.step Keeps {} events := by
  intro h
  obtain ⟨-, -, -, -, -, hk, -⟩ := h late
  obtain ⟨k, hlast, hall⟩ := hk.acked 4 (by decide) .full 0 (by decide)
  have h3 : k = 3 := by
    have hlt := hlast.lt
    have heq := hlast.eq
    have hacts : ∀ j < 4, ((late.foldl Link.step {}).facade.acts)[j]? = some (.setPower .full 0) →
      j = 3 := by
      decide
    exact hacts k hlt heq
  have hmem := hall 0 (by decide)
  rw [h3] at hmem
  exact absurd hmem (by decide)

end URSupreme.M10Config
