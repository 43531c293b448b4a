import URSupreme.Clock.Manager
import URSupreme.Lib.Binary64
import URSupreme.Lib.Clock
import URSupreme.Lib.Run

/-!
# The wall clock over a run

Reports, seeds and changes of the configuration in any order while time goes on: the value of
`millis()` starts over every 2 ^ 32 ms, the time itself does not. The clock is right as long as
`millis()` has not started over since the last time was adopted.

Beside the clock `adopted` keeps what was adopted last: the source, its time and when.
-/

namespace URSupreme.Clock
open Lib

/-- A time in seconds that a source reports. No caller reports a NaN: the timestamp of a message is
positive, the browser's time is a number of JSON, and the others are computed from integers. -/
structure Reported where
  bits : UInt64
  number : bits.toNat % 2 ^ 63 ≤ 2047 * 2 ^ 52

/-- The value of a time that is finite. -/
def Reported.value (e : Reported) : ℚ := (Binary64.value 11 52 e.bits.toNat).getD 0

/-- From 2020-01-01 to 2100-01-01. -/
def Reported.InRange (e : Reported) : Prop := 1577836800 ≤ e.value ∧ e.value ≤ 4102444800

/-- `set_config`. -/
def Manager.setConfig (m : Manager) (source : Source) (config : SourceConfig) : Manager :=
  if source = .none then m else { m with config := Function.update m.config source config }

/-- A time that was adopted, in seconds, and when, in milliseconds since the start. -/
structure Adoption where
  source : Source
  epoch : ℚ
  time : Nat

/-- The clock, and the milliseconds since the start. -/
structure Device where
  manager : Manager := {}
  now : Nat := 0
  adopted : Option Adoption := none

/-- `millis()`. -/
def Device.millis (s : Device) : Nat := reading (2 ^ 32) s.now

/-- `now_epoch`, in milliseconds. -/
def Device.epoch (s : Device) : Int := s.manager.nowEpoch s.millis

inductive Call where
  | wait (ms : Nat)
  | report (source : Source) (epoch : Reported)
  | seed (epoch : Reported)
  | setConfig (source : Source) (enabled : Bool) (priority : UInt8)

def Device.step (s : Device) : Call → Device
  | .wait ms => { s with now := s.now + ms }
  | .report source epoch =>
    match s.manager.reportTime source epoch.bits s.millis with
    | none => s
    | some manager => { s with manager, adopted := some ⟨source, epoch.value, s.now⟩ }
  | .seed epoch =>
    let manager := s.manager.seedFromRtc epoch.bits s.millis
    if (saneSeconds epoch.bits).isSome then
      { s with manager, adopted := some ⟨.rtc, epoch.value, s.now⟩ }
    else { s with manager }
  | .setConfig source enabled priority =>
    { s with manager := s.manager.setConfig source { enabled, priority := priority.toNat } }

/-- The source is at least as strong as the one whose time was adopted last. -/
def Device.Beats (s : Device) (source : Source) : Prop :=
  ∀ a ∈ s.adopted, (s.manager.config source).priority ≤ (s.manager.config a.source).priority

/-- The clock shows the time adopted last and what went by since. -/
def Device.Exact (s : Device) : Prop :=
  ∀ a ∈ s.adopted, (s.epoch : ℚ) = 1000 * a.epoch + (s.now - a.time)

/-- What a step keeps. -/
structure Keeps (s : Device) (call : Call) : Prop where
  exact : (s.step call).Exact
  /-- Between adoptions it does not go back. -/
  forward : (s.step call).adopted = s.adopted → s.epoch ≤ (s.step call).epoch
  /-- When a report is adopted. -/
  report : ∀ source epoch, call = .report source epoch →
    ((s.manager.reportTime source epoch.bits s.millis).isSome = true ↔
      source ≠ .none ∧ (s.manager.config source).enabled = true ∧ epoch.InRange ∧
        s.Beats source)
  /-- A weaker source replaces no time of a stronger one. -/
  stronger : ∀ a ∈ (s.step call).adopted, (s.step call).adopted = s.adopted ∨ s.Beats a.source

/-- The milliseconds of the second that is reported are those of `millis()`: the clock keeps whole
seconds. -/
def Device.InStep (s : Device) (epoch : Reported) : Prop :=
  1000 * Int.fract epoch.value = (s.millis % 1000 : Nat)

/-- The condition: `millis()` does not start over while a time is kept, a time that is adopted is in
step with it, and no seed comes after the time of a stronger source. The priority of the last source
that the clock remembers compares with that of a source that reports as the one configured now
does. -/
def Sound (s : Device) : Call → Prop
  | .wait ms => ∀ a ∈ s.adopted, wraps (2 ^ 32) a.time (s.now + ms) = 0
  | .report source epoch =>
    source ≠ .none → (s.manager.config source).enabled = true → epoch.InRange →
      (∀ a ∈ s.adopted, (s.manager.config source).priority ≤ s.manager.currentPriority ↔
        (s.manager.config source).priority ≤ (s.manager.config a.source).priority) ∧
      (s.Beats source → s.InStep epoch)
  | .seed epoch => epoch.InRange → s.Beats .rtc ∧ s.InStep epoch
  | .setConfig .. => True

section
variable {s : Device} {c : Call} {source : Source} {e : Reported} {m : Manager} {n : Nat}

/-- The value of a pattern with one of the two exponents that `saneSeconds` knows. -/
lemma value_of_exponent (h : e.bits.toNat / 2 ^ 52 = 1053 ∨ e.bits.toNat / 2 ^ 52 = 1054) :
    e.value = (2 ^ 52 + e.bits.toNat % 2 ^ 52 : ℕ) /
      (2 ^ (1075 - e.bits.toNat / 2 ^ 52) : ℕ) := by
  have hsign : e.bits.toNat / 2 ^ (52 + 11) % 2 = 0 := by omega
  rcases h with h | h
  · rw [Reported.value, Binary64.value]
    simp only [h, hsign]
    norm_num
    ring
  · rw [Reported.value, Binary64.value]
    simp only [h, hsign]
    norm_num
    ring

/-- A time in the range has one of these exponents. -/
lemma exponent_of_inRange (h : e.InRange) :
    e.bits.toNat / 2 ^ 52 = 1053 ∨ e.bits.toNat / 2 ^ 52 = 1054 := by
  obtain ⟨hlo, hhi⟩ := h
  have hbits := e.bits.toNat_lt
  generalize hx : e.bits.toNat / 2 ^ 52 % 2 ^ 11 = x
  generalize hm : e.bits.toNat % 2 ^ 52 = m
  have hmlt : (m : ℚ) < 2 ^ 52 := by
    rw [← hm]
    exact_mod_cast Nat.mod_lt _ (by norm_num)
  have hm0 : (0 : ℚ) ≤ m := Nat.cast_nonneg m
  have hvalue : e.value = (Binary64.value 11 52 e.bits.toNat).getD 0 := rfl
  rw [Binary64.value] at hvalue
  simp only [hx, hm] at hvalue
  -- a sign, a pattern that is not finite and one below the normal numbers leave the range
  have hsign : e.bits.toNat / 2 ^ (52 + 11) % 2 = 0 := by
    by_contra hne
    rw [if_neg hne] at hvalue
    have hneg : e.value ≤ 0 := by
      rw [hvalue]
      split_ifs
      · exact le_rfl
      · have : (0 : ℚ) ≤ m * 2 ^ (1 - (2 ^ (11 - 1) - 1) - 52 : ℤ) := by positivity
        rw [Option.getD_some, neg_one_mul]
        exact neg_nonpos.mpr this
      · have : (0 : ℚ) ≤ (2 ^ 52 + m : ℕ) * 2 ^ (x - (2 ^ (11 - 1) - 1) - 52 : ℤ) := by
          positivity
        rw [Option.getD_some, neg_one_mul]
        exact neg_nonpos.mpr this
    linarith
  rw [if_pos hsign] at hvalue
  have hfinite : x ≠ 2 ^ 11 - 1 := by
    intro he
    rw [if_pos he] at hvalue
    rw [hvalue] at hlo
    norm_num at hlo
  have hnormal : x ≠ 0 := by
    intro he
    rw [if_neg hfinite, if_pos he, Option.getD_some, one_mul] at hvalue
    have hle : e.value ≤ m * 2 ^ (-52 : ℤ) := by
      rw [hvalue]
      exact mul_le_mul_of_nonneg_left (zpow_le_zpow_right₀ (by norm_num) (by norm_num)) hm0
    have hone : (m : ℚ) * 2 ^ (-52 : ℤ) ≤ 2 ^ 52 * 2 ^ (-52 : ℤ) :=
      mul_le_mul_of_nonneg_right hmlt.le (by positivity)
    norm_num at hone hle
    linarith
  rw [if_neg hfinite, if_neg hnormal, Option.getD_some, one_mul] at hvalue
  push_cast at hvalue
  -- the exponents below and above are out of the range at either end
  have hlow : ¬ x ≤ 1052 := by
    intro hx
    have hle : e.value ≤ (2 ^ 52 + m) * 2 ^ (-23 : ℤ) := by
      rw [hvalue]
      refine mul_le_mul_of_nonneg_left (zpow_le_zpow_right₀ (by norm_num) ?_) (by positivity)
      norm_num
      omega
    norm_num at hle
    linarith
  have hhigh : ¬ 1055 ≤ x := by
    intro hx
    have hle : (2 ^ 52 + m) * 2 ^ (-20 : ℤ) ≤ e.value := by
      rw [hvalue]
      refine mul_le_mul_of_nonneg_left (zpow_le_zpow_right₀ (by norm_num) ?_) (by positivity)
      norm_num
      omega
    norm_num at hle
    linarith
  omega

/-- A time is not refused when it is in the range. -/
lemma saneSeconds_isSome : (saneSeconds e.bits).isSome = true ↔ e.InRange := by
  have hpos : 0 < 2 ^ (1075 - e.bits.toNat / 2 ^ 52) := Nat.two_pow_pos _
  generalize hk : 2 ^ (1075 - e.bits.toNat / 2 ^ 52) = k at hpos
  have hposq : (0 : ℚ) < k := Nat.cast_pos.mpr hpos
  have hmantissa (h : e.bits.toNat / 2 ^ 52 = 1053 ∨ e.bits.toNat / 2 ^ 52 = 1054) :
      e.InRange ↔ ¬ (2 ^ 52 + e.bits.toNat % 2 ^ 52 < 1577836800 * k ∨
        2 ^ 52 + e.bits.toNat % 2 ^ 52 > 4102444800 * k) := by
    rw [Reported.InRange, value_of_exponent h, hk, le_div_iff₀ hposq, div_le_iff₀ hposq, not_or,
      not_lt, not_lt]
    norm_cast
  unfold saneSeconds
  dsimp only
  rw [hk]
  split
  next h =>
    rw [hmantissa h]
    split
    next hr => exact ⟨nofun, fun hn => absurd hr hn⟩
    next hr => exact ⟨fun _ => hr, fun _ => rfl⟩
  next h => exact ⟨nofun, fun hr => absurd (exponent_of_inRange hr) h⟩

/-- The whole seconds of a time. -/
lemma saneSeconds_floor (h : saneSeconds e.bits = some n) : (n : ℤ) = ⌊e.value⌋ := by
  unfold saneSeconds at h
  dsimp only at h
  split at h
  next hx =>
    split at h
    next => cases h
    next =>
      obtain rfl := Option.some.inj h
      rw [value_of_exponent hx]
      exact (Rat.floor_natCast_div_natCast _ _).symm
  next => cases h

/-- When a report is adopted. -/
lemma reportTime_isSome : (m.reportTime source e.bits n).isSome = true ↔
    source ≠ .none ∧ (m.config source).enabled = true ∧ e.InRange ∧
      (m.currentSource = .none ∨ (m.config source).priority ≤ m.currentPriority) := by
  rw [← saneSeconds_isSome]
  unfold Manager.reportTime
  dsimp only
  split
  next h =>
    refine ⟨nofun, fun ⟨hs, he, _⟩ => ?_⟩
    rcases h with h | h
    · exact absurd h hs
    · exact absurd (h.symm.trans he) Bool.false_ne_true
  next h =>
    obtain ⟨hs, he⟩ := not_or.mp h
    cases saneSeconds e.bits with
    | none => exact ⟨nofun, fun h => nomatch h.2.2.1⟩
    | some seconds =>
      dsimp only
      split
      next hw =>
        refine ⟨nofun, fun ⟨_, _, _, hb⟩ => ?_⟩
        exact absurd (hb.resolve_left hw.1) (not_le.mpr hw.2)
      next hw =>
        refine ⟨fun _ => ⟨hs, Bool.not_eq_false _ ▸ he, rfl, ?_⟩, fun _ => rfl⟩
        by_contra hb
        exact hw ⟨(not_or.mp hb).1, not_le.mp (not_or.mp hb).2⟩

/-- What a report that is adopted sets. -/
lemma reportTime_some {m' : Manager} (h : m.reportTime source e.bits n = some m') :
    m'.currentSource = source ∧ m'.offsetSeconds = ⌊e.value⌋ - (n / 1000 : ℕ) ∧
      m'.config = m.config := by
  unfold Manager.reportTime at h
  dsimp only at h
  split at h
  next => cases h
  next =>
    cases hs : saneSeconds e.bits with
    | none =>
      rw [hs] at h
      cases h
    | some seconds =>
      rw [hs] at h
      dsimp only at h
      split at h
      next => cases h
      next =>
        obtain rfl := Option.some.inj h
        exact ⟨rfl, by rw [← saneSeconds_floor hs], rfl⟩

/-- How the clock comes from the time that was adopted last. -/
structure Wired (s : Device) : Prop where
  unset : s.adopted = none → s.manager.currentSource = .none ∧ s.manager.rtcSeedApplied = false
  source : ∀ a ∈ s.adopted, s.manager.currentSource = a.source ∧ a.source ≠ .none
  offset : ∀ a ∈ s.adopted,
    s.manager.offsetSeconds = ⌊a.epoch⌋ - (reading (2 ^ 32) a.time / 1000 : ℕ)
  time : ∀ a ∈ s.adopted, a.time ≤ s.now

/-- A step keeps the time and its source, or it adopts a time that is reported. -/
lemma step_cases :
    ((s.step c).adopted = s.adopted ∧ s.now ≤ (s.step c).now ∧
      (s.step c).manager.currentSource = s.manager.currentSource ∧
      (s.step c).manager.rtcSeedApplied = s.manager.rtcSeedApplied ∧
      (s.step c).manager.offsetSeconds = s.manager.offsetSeconds) ∨
    ∃ source, ∃ e : Reported, source ≠ .none ∧
      (s.step c).adopted = some ⟨source, e.value, s.now⟩ ∧ (s.step c).now = s.now ∧
      (s.step c).manager.currentSource = source ∧
      (s.step c).manager.offsetSeconds = ⌊e.value⌋ - (s.millis / 1000 : ℕ) := by
  cases c with
  | wait ms => exact .inl ⟨rfl, Nat.le_add_right _ _, rfl, rfl, rfl⟩
  | report source e =>
    unfold Device.step
    dsimp only
    cases hr : s.manager.reportTime source e.bits s.millis with
    | none => exact .inl ⟨rfl, le_rfl, rfl, rfl, rfl⟩
    | some m =>
      obtain ⟨hs, ho, -⟩ := reportTime_some hr
      have hsome := reportTime_isSome.mp (Option.isSome_iff_exists.mpr ⟨m, hr⟩)
      exact .inr ⟨source, e, hsome.1, rfl, rfl, hs, ho⟩
  | seed e =>
    unfold Device.step Manager.seedFromRtc
    dsimp only
    cases hs : saneSeconds e.bits with
    | none => exact .inl ⟨rfl, le_rfl, rfl, rfl, rfl⟩
    | some seconds =>
      refine .inr ⟨.rtc, e, nofun, rfl, rfl, rfl, ?_⟩
      rw [← saneSeconds_floor hs]
      rfl
  | setConfig source enabled priority =>
    unfold Device.step Manager.setConfig
    dsimp only
    split
    next => exact .inl ⟨rfl, le_rfl, rfl, rfl, rfl⟩
    next => exact .inl ⟨rfl, le_rfl, rfl, rfl, rfl⟩

lemma Wired.step (h : Wired s) : Wired (s.step c) := by
  obtain ⟨ha, hn, hs, hr, ho⟩ | ⟨source, e, hne, ha, hn, hs, ho⟩ := step_cases (s := s) (c := c)
  · refine ⟨?_, ?_, ?_, ?_⟩ <;> rw [ha]
    · rw [hs, hr]
      exact h.unset
    · rw [hs]
      exact h.source
    · rw [ho]
      exact h.offset
    · exact fun a ha => (h.time a ha).trans hn
  · refine ⟨?_, ?_, ?_, ?_⟩ <;> rw [ha]
    · nofun
    · intro a ha
      obtain rfl := Option.some.inj ha
      exact ⟨hs, hne⟩
    · intro a ha
      obtain rfl := Option.some.inj ha
      exact ho
    · intro a ha
      obtain rfl := Option.some.inj ha
      exact hn.ge

/-- The clock of a device with a time, within the count of `millis()`. -/
lemma Wired.epoch_eq (h : Wired s) {a : Adoption} (ha : a ∈ s.adopted) :
    (s.epoch : ℚ) = 1000 * a.epoch + (s.now - a.time) ↔
      1000 * Int.fract a.epoch = (reading (2 ^ 32) a.time % 1000 : ℕ) ∧
        wraps (2 ^ 32) a.time s.now = 0 := by
  obtain ⟨hsource, hne⟩ := h.source a ha
  have hwraps := reading_add_wraps (n := 2 ^ 32) (h.time a ha)
  have hepoch : s.epoch = s.manager.offsetSeconds * 1000 + s.millis :=
    if_neg fun hn => hne (hsource.symm.trans hn.1)
  have hfract := Int.self_sub_floor a.epoch
  have hdiv := Nat.div_add_mod (reading (2 ^ 32) a.time) 1000
  rw [hepoch, h.offset a ha, ← hfract]
  unfold Device.millis
  generalize wraps (2 ^ 32) a.time s.now = w at hwraps
  generalize reading (2 ^ 32) a.time = r at hwraps hdiv
  generalize reading (2 ^ 32) s.now = rn at hwraps
  have hlt : r % 1000 < 1000 := Nat.mod_lt r (by norm_num)
  generalize r / 1000 = q at hdiv
  generalize r % 1000 = k at hdiv hlt
  have hr : (rn : ℚ) + 2 ^ 32 * w + a.time = r + s.now := by exact_mod_cast hwraps
  have hd : (1000 : ℚ) * q + k = r := by exact_mod_cast hdiv
  push_cast
  constructor
  · intro he
    have hdiff : 1000 * (a.epoch - ⌊a.epoch⌋) + 2 ^ 32 * w = k := by linarith
    have hw : w = 0 := by
      by_contra hw
      have h1 : (1 : ℚ) ≤ w := by exact_mod_cast Nat.one_le_iff_ne_zero.mpr hw
      have h2 : (k : ℚ) < 1000 := by exact_mod_cast hlt
      have h3 : 0 ≤ a.epoch - ⌊a.epoch⌋ := sub_nonneg.mpr (Int.floor_le _)
      linarith
    subst hw
    rw [Nat.cast_zero, mul_zero, add_zero] at hdiff
    exact ⟨hdiff, rfl⟩
  · rintro ⟨hf, rfl⟩
    rw [Nat.cast_zero, mul_zero, add_zero] at hr
    linarith

lemma Wired.exact_iff (h : Wired s) : s.Exact ↔ ∀ a ∈ s.adopted,
    1000 * Int.fract a.epoch = (reading (2 ^ 32) a.time % 1000 : ℕ) ∧
      wraps (2 ^ 32) a.time s.now = 0 :=
  forall₂_congr fun _ ha => h.epoch_eq ha

/-- A clock that is right before and after a step does not go back. -/
lemma Wired.forward (h : Wired s) (he : s.Exact) (he' : (s.step c).Exact)
    (ha : (s.step c).adopted = s.adopted) : s.epoch ≤ (s.step c).epoch := by
  cases hs : s.adopted with
  | none =>
    have h' := h.step (c := c)
    have h0 : s.epoch = 0 := if_pos (h.unset hs)
    have h0' : (s.step c).epoch = 0 := if_pos (h'.unset (ha.trans hs))
    rw [h0, h0']
  | some a =>
    have hn : s.now ≤ (s.step c).now := by
      rcases step_cases (s := s) (c := c) with ⟨-, hn, -⟩ | ⟨-, -, -, -, hn, -⟩
      · exact hn
      · exact hn.ge
    have hq : (s.now : ℚ) ≤ (s.step c).now := by exact_mod_cast hn
    have h1 := he a hs
    have h2 := he' a (ha.trans hs)
    have : (s.epoch : ℚ) ≤ (s.step c).epoch := by
      rw [h1, h2]
      linarith
    exact_mod_cast this

/-- A time that is adopted is right at once when it is in step with `millis()`. -/
lemma exact_of_adopted (h : Wired s)
    (ha : (s.step c).adopted = some ⟨source, e.value, s.now⟩)
    (hn : (s.step c).now = s.now) : (s.step c).Exact ↔ s.InStep e := by
  have h0 : wraps (2 ^ 32) s.now s.now = 0 := Nat.sub_self _
  rw [h.step.exact_iff, ha, hn]
  refine ⟨fun hx => (hx _ rfl).1, fun hx a ha => ?_⟩
  obtain rfl := Option.some.inj ha
  exact ⟨hx, h0⟩

/-- When the priority that the clock remembers decides as the configured one. -/
lemma Wired.beats_iff (h : Wired s) :
    ((s.manager.currentSource = .none ∨
        (s.manager.config source).priority ≤ s.manager.currentPriority) ↔ s.Beats source) ↔
      ∀ a ∈ s.adopted, (s.manager.config source).priority ≤ s.manager.currentPriority ↔
        (s.manager.config source).priority ≤ (s.manager.config a.source).priority := by
  unfold Device.Beats
  cases hs : s.adopted with
  | none => exact ⟨fun _ => nofun, fun _ => ⟨fun _ => nofun, fun _ => .inl (h.unset hs).1⟩⟩
  | some a =>
    obtain ⟨hsource, hne⟩ := h.source a hs
    have hcur : s.manager.currentSource ≠ .none := fun hn => hne (hsource.symm.trans hn)
    rw [or_iff_right hcur]
    simp only [Option.mem_some_iff, forall_eq']

/-- A report. -/
lemma keeps_report_iff (h : Wired s) (he : s.Exact) :
    Keeps s (.report source e) ↔ Sound s (.report source e) := by
  have hadopted {m} (hr : s.manager.reportTime source e.bits s.millis = some m) :
      s.step (.report source e) =
        { s with manager := m, adopted := some ⟨source, e.value, s.now⟩ } := by
    rw [Device.step, hr]
  constructor
  · intro hk hs hen hrange
    have hreport := hk.report source e rfl
    rw [reportTime_isSome] at hreport
    have hagree := h.beats_iff.mp
      ⟨fun hb => (hreport.mp ⟨hs, hen, hrange, hb⟩).2.2.2,
        fun hb => (hreport.mpr ⟨hs, hen, hrange, hb⟩).2.2.2⟩
    refine ⟨hagree, fun hb => ?_⟩
    obtain ⟨m, hr⟩ := Option.isSome_iff_exists.mp
      (reportTime_isSome.mpr ⟨hs, hen, hrange, (h.beats_iff.mpr hagree).mpr hb⟩)
    have hx := hk.exact
    exact (exact_of_adopted h (by rw [hadopted hr]) (by rw [hadopted hr])).mp hx
  · intro hsound
    have hreport : (s.manager.reportTime source e.bits s.millis).isSome = true ↔
        source ≠ .none ∧ (s.manager.config source).enabled = true ∧ e.InRange ∧
          s.Beats source := by
      rw [reportTime_isSome]
      refine and_congr_right fun hs => and_congr_right fun hen => and_congr_right fun hrange => ?_
      exact h.beats_iff.mpr (hsound hs hen hrange).1
    have hx : (s.step (.report source e)).Exact := by
      cases hr : s.manager.reportTime source e.bits s.millis with
      | none =>
        rw [Device.step, hr]
        exact he
      | some m =>
        obtain ⟨hs, hen, hrange, hb⟩ := hreport.mp (Option.isSome_iff_exists.mpr ⟨m, hr⟩)
        refine (exact_of_adopted h (by rw [hadopted hr]) (by rw [hadopted hr])).mpr ?_
        exact (hsound hs hen hrange).2 hb
    refine ⟨hx, h.forward he hx, ?_, fun a ha => ?_⟩
    · intro source' e' hcall
      obtain ⟨rfl, rfl⟩ := Call.report.inj hcall
      exact hreport
    · cases hr : s.manager.reportTime source e.bits s.millis with
      | none =>
        rw [Device.step, hr]
        exact .inl rfl
      | some m =>
        rw [hadopted hr] at ha
        obtain rfl := Option.some.inj ha
        exact .inr (hreport.mp (Option.isSome_iff_exists.mpr ⟨m, hr⟩)).2.2.2

/-- A seed. -/
lemma keeps_seed_iff (h : Wired s) (he : s.Exact) : Keeps s (.seed e) ↔ Sound s (.seed e) := by
  cases hs : saneSeconds e.bits with
  | none =>
    have hstep : s.step (.seed e) = s := by
      unfold Device.step Manager.seedFromRtc
      dsimp only
      rw [hs]
      rfl
    have hrange : ¬ e.InRange := by
      rw [← saneSeconds_isSome, hs]
      exact Bool.false_ne_true
    refine ⟨fun _ hr => absurd hr hrange, fun _ => ⟨?_, ?_, nofun, ?_⟩⟩ <;> rw [hstep]
    · exact he
    · exact fun _ => le_rfl
    · exact fun a ha => .inl rfl
  | some seconds =>
    have hrange : e.InRange :=
      saneSeconds_isSome.mp (Option.isSome_iff_exists.mpr ⟨seconds, hs⟩)
    have ha : (s.step (.seed e)).adopted = some ⟨.rtc, e.value, s.now⟩ := by
      unfold Device.step
      dsimp only
      rw [hs]
      rfl
    have hn : (s.step (.seed e)).now = s.now := by
      unfold Device.step
      dsimp only
      rw [hs]
      rfl
    constructor
    · intro hk _
      refine ⟨?_, (exact_of_adopted h ha hn).mp hk.exact⟩
      rcases hk.stronger _ ha with heq | hb
      · intro a ha'
        rw [← heq, ha] at ha'
        obtain rfl := Option.some.inj ha'
        exact le_rfl
      · exact hb
    · intro hsound
      have hx := (exact_of_adopted h ha hn).mpr (hsound hrange).2
      refine ⟨hx, h.forward he hx, nofun, fun a ha' => .inr ?_⟩
      rw [ha] at ha'
      obtain rfl := Option.some.inj ha'
      exact (hsound hrange).1

/-- One step. -/
lemma keeps_iff (h : Wired s) (he : s.Exact) : Keeps s c ↔ Sound s c := by
  cases c with
  | wait ms =>
    have hexact : (s.step (.wait ms)).Exact ↔ Sound s (.wait ms) := by
      rw [h.step.exact_iff]
      exact forall₂_congr fun a ha =>
        ⟨And.right, fun hw => ⟨((h.exact_iff.mp he) a ha).1, hw⟩⟩
    rw [← hexact]
    exact ⟨Keeps.exact, fun hx => ⟨hx, h.forward he hx, nofun, fun a ha => .inl rfl⟩⟩
  | setConfig source enabled priority =>
    have hx : (s.step (.setConfig source enabled priority)).Exact :=
      h.step.exact_iff.mpr (h.exact_iff.mp he)
    exact ⟨fun _ => trivial, fun _ => ⟨hx, h.forward he hx, nofun, fun a ha => .inl rfl⟩⟩
  | report source e => exact keeps_report_iff h he
  | seed e => exact keeps_seed_iff h he

/-- **The clock is right** in a run exactly when each step is sound. -/
theorem keeps_run_iff (calls : List Call) :
    Allowed Device.step Keeps {} calls ↔ Allowed Device.step Sound {} calls :=
  allowed_congr (I := fun s => Wired s ∧ s.Exact) (g := fun _ _ => True)
    (fun h _ hok => ⟨h.1.step, ((keeps_iff h.1 h.2).mpr hok).exact⟩) (fun h _ => keeps_iff h.1 h.2)
    ⟨⟨fun _ => ⟨rfl, rfl⟩, nofun, nofun, nofun⟩, nofun⟩ (allowed_of_forall fun _ _ => trivial)

/-- NTP reports a time in the first minute, and `millis()` starts over. -/
def turnedOver : List Call :=
  [.wait 60000, .report .ntp { bits := 0x41D954FC40000000, number := by decide },
    .wait (2 ^ 32 - 60000)]

/-- The clock goes back by a minute. -/
theorem not_keeps_turnedOver : ¬ ∀ calls : List Call, Allowed Device.step Keeps {} calls := by
  intro h
  have hlast := (h turnedOver).2.2.1.forward rfl
  exact absurd hlast (by decide)

end

end URSupreme.Clock
