import URSupreme.Lib.Run
import URSupreme.Sensors.Gnss

/-!
# Acquisitions and their backoff

The scheduler of the GNSS receiver over its runs. Beside the facade stand the real time, when the
acquisition that runs was started, the last fix, the last window that ended without one, how many of
these there were in a row, and since when the backoff is reset.
-/

namespace URSupreme.Acquisition
open Lib Clock Gnss

/-- A window that ended without a fix, and the delay announced for it. -/
structure Failure where
  time : Nat
  delay : Nat

/-- The receiver with its history. -/
structure Receiver where
  facade : Facade := {}
  now : Nat := 0
  started : Option Nat := none
  fixedAt : Option Nat := none
  failure : Option Failure := none
  failures : Nat := 0
  resetAt : Option Nat := none

/-- `millis()`. -/
def Receiver.millis (s : Receiver) : Nat := reading (2 ^ 32) s.now

/-- There was a fix since a time. -/
def Receiver.FixedSince (s : Receiver) (t : Nat) : Prop := ∃ x ∈ s.fixedAt, t ≤ x

instance {s : Receiver} {t} : Decidable (s.FixedSince t) := inferInstanceAs (Decidable (∃ x ∈ _, _))

/-- The location is pulsed. -/
def Receiver.Pulsed (s : Receiver) : Prop := s.facade.config.targetMode = .pulsed

instance {s : Receiver} : Decidable s.Pulsed := inferInstanceAs (Decidable (_ = _))

/-- The calls of a pass of `pump` in turn, and what may come between them. -/
inductive Event where
  | wait (ms : Nat)
  | configure (c : PowerConfig)
  | resetBackoff
  | drive (lag : Nat)
  | hear (m : Message)
  | sight

/-- A pass of the scheduler. -/
def Receiver.drive (s : Receiver) (lag : Nat) : Receiver :=
  let facade := s.facade.drive s.millis (reading (2 ^ 32) (s.now + lag))
  match s.started, facade.pulseState with
  | none, .idle => { s with facade }
  | none, .acquiring => { s with facade, started := some s.now, resetAt := none }
  | some _, .acquiring => { s with facade }
  | some t, .idle =>
    if ¬ s.Pulsed then { s with facade, started := none }
    else if s.FixedSince t then { s with facade, started := none, failures := 0 }
    else
      { s with
        facade
        started := none
        failure := some ⟨s.now, s.facade.delayMs⟩
        failures := s.failures + 1
        resetAt := s.resetAt.map fun _ => s.now }

def Receiver.step (s : Receiver) : Event → Receiver
  | .wait ms => { s with now := s.now + ms }
  | .configure c => { s with facade := { s.facade with config := c } }
  | .resetBackoff =>
    { s with
      facade := s.facade.resetBackoff, failures := 0, resetAt := some (s.resetAt.getD s.now) }
  | .drive lag => s.drive lag
  | .hear m =>
    if s.facade.hwPowered then
      { s with
        facade := s.facade.hear m s.millis
        fixedAt := match m with
          | .rmc => some s.now
          | _ => s.fixedAt }
    else s
  | .sight => if s.facade.hwPowered then { s with facade := s.facade.sight s.millis } else s

/-- The event starts an acquisition. -/
def Receiver.Starts (s : Receiver) (e : Event) : Prop :=
  s.started = none ∧ (s.step e).started = some s.now

/-- The event ends a window without a fix. -/
def Receiver.Fails (s : Receiver) (e : Event) : Prop := (s.step e).failures = s.failures + 1

/-- The last window ended without a fix, and there was none since. -/
def Receiver.BackedOff (s : Receiver) : Prop := ∃ f ∈ s.failure, ¬ s.FixedSince f.time

/-- The delay after a number of failures in a row: 60 s, doubling up to 30 min. -/
def backoff (failures : Nat) : Nat :=
  min (PULSE_RETRY_BACKOFF_MS * 2 ^ failures) PULSE_RETRY_BACKOFF_MAX_MS

/-- What an event keeps: no acquisition starts before the delay announced for the last failure has
passed, the delay doubles, an acquisition ends with the first call behind its cap, and 60 s after a
reset the receiver starts again. -/
structure Keeps (s : Receiver) (e : Event) : Prop where
  spaced : s.Starts e → ∀ f ∈ s.failure, f.time + f.delay ≤ s.now
  doubles : s.Fails e → ∃ f ∈ (s.step e).failure, f.time = s.now ∧ f.delay = backoff s.failures
  capped : (∃ lag, e = .drive lag) → ∀ t ∈ s.started, t + PULSE_ACQUIRE_MAX_MS < s.now →
    (s.step e).started = none
  prompt : (∃ lag, e = .drive lag) → s.Pulsed → s.started = none → s.BackedOff →
    ∀ r ∈ s.resetAt, r + PULSE_RETRY_BACKOFF_MS ≤ s.now → s.Starts e

/-- The last fix is so old that the scheduler wants another: a location interval, or what it leaves
a receiver that cycles by itself. -/
def Receiver.Stale (s : Receiver) (x : Nat) : Prop :=
  if s.facade.module = .maxm10 ∧ s.facade.m10Power = .psmoo then
    (PSMOO_STALE_FACTOR * intervalMs s.facade.config.intervalS + PSMOO_STALE_GRACE_MS) % 2 ^ 32 <
      (s.now - x) % 2 ^ 32
  else intervalMs s.facade.config.intervalS ≤ (s.now - x) % 2 ^ 32

/-- The condition on a pass while the location is pulsed. While an announced delay runs, a receiver
that never had a fix does not wait for a `millis()` of 0, and the fix of another one is not stale.
An acquisition is told from one before it by the last fix, and its age is read in full. 60 s after a
reset the announced delay is over, or the fix is stale. -/
structure Sound (s : Receiver) (e : Event) : Prop where
  running : (∃ lag, e = .drive lag) → s.Pulsed → s.started = none →
    ∀ f ∈ s.failure, s.now < f.time + f.delay →
      (s.fixedAt = none → reading (2 ^ 32) (f.time + f.delay) ≠ 0) ∧ ∀ x ∈ s.fixedAt, ¬ s.Stale x
  told : (∃ lag, e = .drive lag) → s.Pulsed → ∀ t ∈ s.started, ∀ x ∈ s.fixedAt,
    if t ≤ x then reading (2 ^ 32) x ≠ 0 ∧ (x - t) % 2 ^ 32 < 2 ^ 31
    else reading (2 ^ 32) x = 0 ∨ 0 < (t - x) % 2 ^ 32 ∧ (t - x) % 2 ^ 32 ≤ 2 ^ 31
  read : (∃ lag, e = .drive lag) → s.Pulsed → ∀ t ∈ s.started, t + PULSE_ACQUIRE_MAX_MS < s.now →
    ¬ s.FixedSince t → PULSE_ACQUIRE_MAX_MS < (s.now - t) % 2 ^ 32
  freed : (∃ lag, e = .drive lag) → s.Pulsed → s.started = none → s.BackedOff →
    ∀ r ∈ s.resetAt, r + PULSE_RETRY_BACKOFF_MS ≤ s.now →
      (s.fixedAt = none → ∀ f ∈ s.failure,
        f.time + f.delay ≤ s.now ∧ (s.now - (f.time + f.delay)) % 2 ^ 32 < 2 ^ 31) ∧
      ∀ x ∈ s.fixedAt, s.Stale x

/-- What a pass does to the acquisitions. -/
inductive Pass (s : Receiver) : Receiver → Prop where
  | rest {g : Facade} (hp : g.plan = s.facade.plan) (ht : s.started = none)
      (hd : s.Pulsed → s.facade.due s.millis s.facade.config.intervalS = false) :
      Pass s { s with facade := g }
  | start {g : Facade} (hp : g.plan = { s.facade.plan with
      pulseState := .acquiring,
      pulseStartedMs := s.millis }) (ht : s.started = none) (hm : s.Pulsed)
      (hd : s.facade.due s.millis s.facade.config.intervalS = true) :
      Pass s { s with facade := g, started := some s.now, resetAt := none }
  | cancel {g : Facade} {t : Nat} (hp : g.plan = { s.facade.plan with pulseState := .idle })
      (ht : s.started = some t) :
      Pass s { s with facade := g, started := none }
  | fixed {g : Facade} {t : Nat} (hp : g.plan =
        { s.facade.plan with backoffCount := 0, nextAttemptMs := 0, pulseState := .idle })
      (ht : s.started = some t) (hm : s.Pulsed) (hf : s.FixedSince t) :
      Pass s { s with facade := g, started := none, failures := 0 }
  | failed {g : Facade} {t : Nat} (hp : g.plan = { s.facade.plan with
        backoffCount :=
          if s.facade.backoffCount < 255 then s.facade.backoffCount + 1 else s.facade.backoffCount
        nextAttemptMs := (s.millis + s.facade.delayMs) % 2 ^ 32
        pulseState := .idle })
      (ht : s.started = some t) (hm : s.Pulsed) (hf : ¬ s.FixedSince t) :
      Pass s { s with
        facade := g
        started := none
        failure := some ⟨s.now, s.facade.delayMs⟩
        failures := s.failures + 1
        resetAt := s.resetAt.map fun _ => s.now }
  | run {g : Facade} {t : Nat} (hp : g.plan = s.facade.plan) (ht : s.started = some t)
      (hm : s.Pulsed) (hf : ¬ s.FixedSince t)
      (hw : elapsed s.millis s.facade.pulseStartedMs ≤ s.facade.windowMs s.millis) :
      Pass s { s with facade := g }

section
variable {s : Receiver} {e : Event} {f : Failure} {g : Facade} {lag t x : Nat}

/-- The facade tells the history. -/
structure Tells (s : Receiver) : Prop where
  idle : s.started = none → s.facade.pulseState = .idle
  started : ∀ t ∈ s.started, s.facade.pulseState = .acquiring ∧ t ≤ s.now ∧
    s.facade.pulseStartedMs = reading (2 ^ 32) t
  cold : s.fixedAt = none → s.facade.everFixed = false
  warm : ∀ x ∈ s.fixedAt, s.facade.everFixed = true ∧ x ≤ s.now ∧
    s.facade.lastFixMs = reading (2 ^ 32) x
  count : s.facade.backoffCount = min s.failures 255
  failed : ∀ f ∈ s.failure, f.time ≤ s.now ∧ f.delay ≤ PULSE_RETRY_BACKOFF_MAX_MS
  next : s.fixedAt = none → ∀ f ∈ s.failure,
    s.facade.nextAttemptMs = reading (2 ^ 32) (f.time + f.delay)

lemma Tells.init : Tells {} :=
  ⟨fun _ => rfl, nofun, fun _ => rfl, nofun, rfl, nofun, fun _ => nofun⟩

/-- What the facade remembers is all that it tells. -/
lemma Tells.congr {s' : Receiver} (hs : Tells s) (hp : s'.facade.plan = s.facade.plan)
    (hn : s.now ≤ s'.now) (h1 : s'.started = s.started) (h2 : s'.fixedAt = s.fixedAt)
    (h3 : s'.failure = s.failure) (h4 : s'.failures = s.failures) : Tells s' := by
  have hpulse : s'.facade.pulseState = s.facade.pulseState := congrArg Plan.pulseState hp
  have hstarted : s'.facade.pulseStartedMs = s.facade.pulseStartedMs :=
    congrArg Plan.pulseStartedMs hp
  have hcount : s'.facade.backoffCount = s.facade.backoffCount := congrArg Plan.backoffCount hp
  have hnext : s'.facade.nextAttemptMs = s.facade.nextAttemptMs := congrArg Plan.nextAttemptMs hp
  have hever : s'.facade.everFixed = s.facade.everFixed := congrArg Plan.everFixed hp
  have hlast : s'.facade.lastFixMs = s.facade.lastFixMs := congrArg Plan.lastFixMs hp
  refine ⟨?_, ?_, ?_, ?_, ?_, ?_, ?_⟩
  · rw [h1, hpulse]
    exact hs.idle
  · rw [h1, hpulse, hstarted]
    exact fun t ht => ⟨(hs.started t ht).1, (hs.started t ht).2.1.trans hn, (hs.started t ht).2.2⟩
  · rw [h2, hever]
    exact hs.cold
  · rw [h2, hever, hlast]
    exact fun x hx => ⟨(hs.warm x hx).1, (hs.warm x hx).2.1.trans hn, (hs.warm x hx).2.2⟩
  · rw [hcount, h4]
    exact hs.count
  · rw [h3]
    exact fun f hf => ⟨(hs.failed f hf).1.trans hn, (hs.failed f hf).2⟩
  · rw [h2, h3, hnext]
    exact hs.next

/-- The delay that is announced. -/
lemma Tells.delayMs (hs : Tells s) : s.facade.delayMs = backoff s.failures := by
  have hcap : PULSE_RETRY_BACKOFF_MAX_MS ≤ PULSE_RETRY_BACKOFF_MS * 2 ^ 9 := by decide
  have hshift : min s.facade.backoffCount PULSE_RETRY_BACKOFF_SHIFT_MAX = min s.failures 9 := by
    have hmax : PULSE_RETRY_BACKOFF_SHIFT_MAX = 9 := rfl
    rw [hs.count, hmax]
    omega
  have hmod : PULSE_RETRY_BACKOFF_MS * 2 ^ min s.failures 9 % 2 ^ 32 =
      PULSE_RETRY_BACKOFF_MS * 2 ^ min s.failures 9 := by
    refine Nat.mod_eq_of_lt (lt_of_le_of_lt ?_
      (by decide : PULSE_RETRY_BACKOFF_MS * 2 ^ 9 < 2 ^ 32))
    exact Nat.mul_le_mul_left _ (Nat.pow_le_pow_right (by decide) (min_le_right _ _))
  unfold Facade.delayMs backoff
  rw [hshift, Nat.shiftLeft_eq, hmod]
  obtain hle | hlt := le_or_gt s.failures 9
  · rw [min_eq_left hle]
  · have hbig : PULSE_RETRY_BACKOFF_MS * 2 ^ 9 ≤ PULSE_RETRY_BACKOFF_MS * 2 ^ s.failures :=
      Nat.mul_le_mul_left _ (Nat.pow_le_pow_right (by decide) hlt.le)
    rw [min_eq_right hlt.le, min_eq_right hcap, min_eq_right (hcap.trans hbig)]

/-- When a receiver that never had a fix is due. -/
lemma Tells.due_cold (hs : Tells s) (hx : s.fixedAt = none) (hf : f ∈ s.failure) :
    s.facade.due s.millis s.facade.config.intervalS = true ↔
      reading (2 ^ 32) (f.time + f.delay) = 0 ∨
        f.time + f.delay ≤ s.now ∧ (s.now - (f.time + f.delay)) % 2 ^ 32 < 2 ^ 31 := by
  obtain ⟨hle, hd⟩ := hs.failed f hf
  have hcap : PULSE_RETRY_BACKOFF_MAX_MS = 1800000 := rfl
  unfold Facade.due
  rw [if_pos (hs.cold hx), hs.next hx f hf, Bool.or_eq_true, beq_iff_eq]
  refine or_congr Iff.rfl ?_
  unfold reached Receiver.millis
  rw [decide_eq_true_eq]
  obtain hlt | hge := lt_or_ge s.now (f.time + f.delay)
  · have helapsed : ¬ elapsed (reading (2 ^ 32) s.now)
      (reading (2 ^ 32) (f.time + f.delay)) < 2 ^ 31 := by
      unfold elapsed reading
      omega
    exact iff_of_false helapsed fun h => absurd h.1 (by omega)
  · rw [elapsed_reading hge]
    exact (and_iff_right hge).symm

/-- When a receiver that had a fix is due. -/
lemma Tells.due_warm (hs : Tells s) (hx : x ∈ s.fixedAt) :
    s.facade.due s.millis s.facade.config.intervalS = true ↔ s.Stale x := by
  obtain ⟨hever, hle, hlast⟩ := hs.warm x hx
  unfold Facade.due Receiver.Stale Receiver.millis
  rw [hever, if_neg Bool.noConfusion, hlast, elapsed_reading hle]
  split
  next => exact decide_eq_true_iff
  next => exact decide_eq_true_iff

/-- An acquisition that is told from the last fix knows whether it had one. -/
lemma Tells.acquired_iff (hs : Tells s) (ht : t ∈ s.started)
    (htold : ∀ x ∈ s.fixedAt,
      if t ≤ x then reading (2 ^ 32) x ≠ 0 ∧ (x - t) % 2 ^ 32 < 2 ^ 31
      else reading (2 ^ 32) x = 0 ∨ 0 < (t - x) % 2 ^ 32 ∧ (t - x) % 2 ^ 32 ≤ 2 ^ 31) :
    s.facade.acquired = true ↔ s.FixedSince t := by
  unfold Facade.acquired Receiver.FixedSince
  rw [Bool.and_eq_true, Bool.and_eq_true, bne_iff_ne]
  cases hx : s.fixedAt with
  | none => exact iff_of_false (fun h => absurd (hs.cold hx) (by rw [h.1.1]; decide)) nofun
  | some x =>
    obtain ⟨hever, -, hlast⟩ := hs.warm x hx
    have htold := htold x hx
    obtain ⟨-, -, hstart⟩ := hs.started t ht
    rw [hever, hlast, hstart]
    unfold reached
    rw [decide_eq_true_eq]
    by_cases hle : t ≤ x
    · rw [if_pos hle] at htold
      rw [elapsed_reading hle]
      exact iff_of_true ⟨⟨rfl, htold.1⟩, htold.2⟩ ⟨x, rfl, hle⟩
    · rw [if_neg hle] at htold
      refine iff_of_false (fun h => ?_) ?_
      · obtain ⟨hpos, hub⟩ := htold.resolve_left h.1.2
        have hel := h.2
        unfold elapsed reading at hel
        omega
      · rintro ⟨y, hy, hty⟩
        obtain rfl := Option.some.inj hy
        exact hle hty

lemma Tells.pass (hs : Tells s) (ho : Sound s (.drive lag)) : Pass s (s.drive lag) := by
  unfold Receiver.drive
  dsimp only
  generalize hmillis : reading (2 ^ 32) (s.now + lag) = millis
  generalize hg : s.facade.drive s.millis millis = g
  by_cases hm : s.Pulsed
  · cases ht : s.started with
    | none =>
      have hplan := plan_drive_idle s.millis millis hm (hs.idle ht)
      rw [hg] at hplan
      cases hd : s.facade.due s.millis s.facade.config.intervalS with
      | true =>
        rw [hd, if_pos rfl] at hplan
        have hpulse : g.pulseState = .acquiring := congrArg Plan.pulseState hplan
        rw [hpulse]
        exact .start hplan ht hm hd
      | false =>
        rw [hd, if_neg Bool.false_ne_true] at hplan
        have hpulse : g.pulseState = .idle := (congrArg Plan.pulseState hplan).trans (hs.idle ht)
        rw [hpulse]
        have hpass := Pass.rest hplan ht fun _ => hd
        rw [ht] at hpass
        exact hpass
    | some t =>
      obtain ⟨hacq, -, -⟩ := hs.started t ht
      have hplan := plan_drive_acquiring s.millis millis hm hacq
      rw [hg] at hplan
      have hiff := hs.acquired_iff ht (ho.told ⟨lag, rfl⟩ hm t ht)
      by_cases hf : s.FixedSince t
      · rw [if_pos (hiff.mpr hf)] at hplan
        have hpulse : g.pulseState = .idle := congrArg Plan.pulseState hplan
        rw [hpulse]
        dsimp only
        rw [if_neg (not_not_intro hm), if_pos hf]
        exact .fixed hplan ht hm hf
      · rw [if_neg fun h => hf (hiff.mp h)] at hplan
        by_cases hw : elapsed s.millis s.facade.pulseStartedMs > s.facade.windowMs s.millis
        · rw [if_pos hw] at hplan
          have hpulse : g.pulseState = .idle := congrArg Plan.pulseState hplan
          rw [hpulse]
          dsimp only
          rw [if_neg (not_not_intro hm), if_neg hf]
          exact .failed hplan ht hm hf
        · rw [if_neg hw] at hplan
          have hpulse : g.pulseState = .acquiring := (congrArg Plan.pulseState hplan).trans hacq
          rw [hpulse]
          have hpass := Pass.run hplan ht hm hf (not_lt.mp hw)
          rw [ht] at hpass
          exact hpass
  · have hplan := plan_drive_other s.millis millis hm
    rw [hg] at hplan
    have hpulse : g.pulseState = .idle := congrArg Plan.pulseState hplan
    rw [hpulse]
    cases ht : s.started with
    | none =>
      have hidle : s.facade.plan.pulseState = .idle := hs.idle ht
      have hpass := Pass.rest (hplan.trans (by rw [← hidle])) ht fun h => absurd h hm
      rw [ht] at hpass
      exact hpass
    | some t =>
      dsimp only
      rw [if_pos hm]
      exact .cancel hplan ht

/-- A pass of a sound run leaves the facade telling the history. -/
lemma Pass.tells {s' : Receiver} (hs : Tells s) (h : Pass s s') : Tells s' := by
  cases h with
  | rest hp => exact hs.congr hp le_rfl rfl rfl rfl rfl
  | run hp => exact hs.congr hp le_rfl rfl rfl rfl rfl
  | start hp =>
    refine ⟨nofun, fun t ht => ?_, fun h => ?_, fun x hx => ?_, ?_, hs.failed, fun h f hf => ?_⟩
    · obtain rfl := Option.some.inj ht
      exact ⟨congrArg Plan.pulseState hp, le_rfl, congrArg Plan.pulseStartedMs hp⟩
    · exact (congrArg Plan.everFixed hp).trans (hs.cold h)
    · obtain ⟨hever, hle, hlast⟩ := hs.warm x hx
      exact ⟨(congrArg Plan.everFixed hp).trans hever, hle,
        (congrArg Plan.lastFixMs hp).trans hlast⟩
    · exact (congrArg Plan.backoffCount hp).trans hs.count
    · exact (congrArg Plan.nextAttemptMs hp).trans (hs.next h f hf)
  | cancel hp =>
    refine ⟨fun _ => ?_, nofun, fun h => ?_, fun x hx => ?_, ?_, hs.failed, fun h f hf => ?_⟩
    · exact congrArg Plan.pulseState hp
    · exact (congrArg Plan.everFixed hp).trans (hs.cold h)
    · obtain ⟨hever, hle, hlast⟩ := hs.warm x hx
      exact ⟨(congrArg Plan.everFixed hp).trans hever, hle,
        (congrArg Plan.lastFixMs hp).trans hlast⟩
    · exact (congrArg Plan.backoffCount hp).trans hs.count
    · exact (congrArg Plan.nextAttemptMs hp).trans (hs.next h f hf)
  | fixed hp _ _ hf =>
    obtain ⟨y, hy, -⟩ := hf
    refine ⟨fun _ => ?_, nofun, fun h => ?_, fun x hx => ?_, ?_, hs.failed, fun h => ?_⟩
    · exact congrArg Plan.pulseState hp
    · exact (congrArg Plan.everFixed hp).trans (hs.cold h)
    · obtain ⟨hever, hle, hlast⟩ := hs.warm x hx
      exact ⟨(congrArg Plan.everFixed hp).trans hever, hle,
        (congrArg Plan.lastFixMs hp).trans hlast⟩
    · exact congrArg Plan.backoffCount hp
    · cases hy.symm.trans h
  | failed hp =>
    refine ⟨fun _ => ?_, nofun, fun h => ?_, fun x hx => ?_, ?_, fun f hf => ?_, fun h f hf => ?_⟩
    · exact congrArg Plan.pulseState hp
    · exact (congrArg Plan.everFixed hp).trans (hs.cold h)
    · obtain ⟨hever, hle, hlast⟩ := hs.warm x hx
      exact ⟨(congrArg Plan.everFixed hp).trans hever, hle,
        (congrArg Plan.lastFixMs hp).trans hlast⟩
    · refine (congrArg Plan.backoffCount hp).trans ?_
      rw [hs.count]
      dsimp only
      split
      next => omega
      next => omega
    · obtain rfl := Option.some.inj hf
      exact ⟨le_rfl, min_le_right _ _⟩
    · obtain rfl := Option.some.inj hf
      exact (congrArg Plan.nextAttemptMs hp).trans (Nat.mod_add_mod _ _ _)

lemma plan_hear {m : Message} {t : Nat} (hm : m ≠ .rmc) : (g.hear m t).plan = g.plan := by
  cases m with
  | ubx u => exact plan_ite rfl (plan_ite plan_bindModule rfl)
  | rmc => exact absurd rfl hm
  | visible sats => rfl
  | txt casic ublox => exact plan_ite rfl (plan_ite plan_bindModule (plan_ite plan_bindModule rfl))

/-- An event of a sound run leaves the facade telling the history. -/
lemma Tells.step (hs : Tells s) (ho : Sound s e) : Tells (s.step e) := by
  cases e with
  | wait ms => exact hs.congr rfl (Nat.le_add_right _ _) rfl rfl rfl rfl
  | configure c => exact hs.congr rfl le_rfl rfl rfl rfl rfl
  | resetBackoff =>
    have hcount : s.facade.resetBackoff.backoffCount = 0 := by
      unfold Facade.resetBackoff
      split
      next => rfl
      next h => exact not_not.mp h
    have hrest : s.facade.resetBackoff = { s.facade with backoffCount := 0 } := by
      unfold Facade.resetBackoff at hcount ⊢
      split
      next => rfl
      next h =>
        have h0 : s.facade.backoffCount = 0 := not_not.mp h
        rw [← h0]
    unfold Receiver.step
    dsimp only
    rw [hrest]
    exact ⟨hs.idle, hs.started, hs.cold, hs.warm, rfl, hs.failed, hs.next⟩
  | drive lag => exact (hs.pass ho).tells hs
  | hear m =>
    unfold Receiver.step
    dsimp only
    split
    next =>
      by_cases hm : m = .rmc
      · subst hm
        refine ⟨hs.idle, hs.started, nofun, fun x hx => ?_, hs.count, hs.failed, nofun⟩
        obtain rfl := Option.some.inj hx
        exact ⟨rfl, le_rfl, rfl⟩
      · refine hs.congr (plan_hear hm) le_rfl rfl ?_ rfl rfl
        cases m with
        | rmc => exact absurd rfl hm
        | ubx u => rfl
        | visible sats => rfl
        | txt casic ublox => rfl
    next => exact hs
  | sight =>
    unfold Receiver.step
    dsimp only
    split
    next => exact hs.congr plan_sight le_rfl rfl rfl rfl rfl
    next => exact hs

lemma windowMs_le {now : Nat} : g.windowMs now ≤ PULSE_ACQUIRE_MAX_MS := by
  unfold Facade.windowMs
  split
  next => exact le_rfl
  next => decide

/-- Only a pass changes which acquisition runs. -/
lemma started_step (h : ∀ lag, e ≠ .drive lag) : (s.step e).started = s.started := by
  cases e with
  | wait ms => rfl
  | configure c => rfl
  | resetBackoff => rfl
  | drive lag => exact absurd rfl (h lag)
  | hear m =>
    unfold Receiver.step
    dsimp only
    split
    next => rfl
    next => rfl
  | sight =>
    unfold Receiver.step
    dsimp only
    split
    next => rfl
    next => rfl

/-- Only a pass counts a failure. -/
lemma failures_step (h : ∀ lag, e ≠ .drive lag) : (s.step e).failures ≤ s.failures := by
  cases e with
  | wait ms => exact le_rfl
  | configure c => exact le_rfl
  | resetBackoff => exact Nat.zero_le _
  | drive lag => exact absurd rfl (h lag)
  | hear m =>
    unfold Receiver.step
    dsimp only
    split
    next => exact le_rfl
    next => exact le_rfl
  | sight =>
    unfold Receiver.step
    dsimp only
    split
    next => exact le_rfl
    next => exact le_rfl

/-- A pass that is due has waited for the announced delay. -/
lemma Tells.spaced (hs : Tells s) (ho : Sound s (.drive lag)) (ht : s.started = none)
    (hm : s.Pulsed) (hd : s.facade.due s.millis s.facade.config.intervalS = true) :
    ∀ f ∈ s.failure, f.time + f.delay ≤ s.now := by
  intro f hf
  by_contra hlt
  obtain ⟨hcold, hwarm⟩ := ho.running ⟨lag, rfl⟩ hm ht f hf (not_le.mp hlt)
  cases hx : s.fixedAt with
  | none =>
    obtain hz | ⟨hle, -⟩ := (hs.due_cold hx hf).mp hd
    · exact hcold hx hz
    · exact hlt hle
  | some x => exact hwarm x hx ((hs.due_warm hx).mp hd)

/-- A pass is due 60 s after a reset. -/
lemma Tells.due_of_reset (hs : Tells s) (ho : Sound s (.drive lag)) (ht : s.started = none)
    (hm : s.Pulsed) (hb : s.BackedOff) {r : Nat} (hr : r ∈ s.resetAt)
    (hle : r + PULSE_RETRY_BACKOFF_MS ≤ s.now) :
    s.facade.due s.millis s.facade.config.intervalS = true := by
  obtain ⟨hcold, hwarm⟩ := ho.freed ⟨lag, rfl⟩ hm ht hb r hr hle
  obtain ⟨f, hf, -⟩ := hb
  cases hx : s.fixedAt with
  | none => exact (hs.due_cold hx hf).mpr (.inr (hcold hx f hf))
  | some x => exact (hs.due_warm hx).mpr (hwarm x hx)

/-- An event of a sound run keeps what it should. -/
lemma Tells.keeps (hs : Tells s) (ho : Sound s e) : Keeps s e := by
  by_cases he : ∃ lag, e = .drive lag
  · obtain ⟨lag, rfl⟩ := he
    have hpass : Pass s (s.step (.drive lag)) := hs.pass ho
    refine ⟨fun ⟨hn, hst⟩ => ?_, fun hf => ?_, fun _ t ht hcap => ?_, fun _ hm hn hb r hr hle => ?_⟩
    · generalize s.step (.drive lag) = s' at hpass hst
      cases hpass with
      | rest => cases hn.symm.trans hst
      | start hp _ hm hd => exact hs.spaced ho hn hm hd
      | cancel => cases hst
      | fixed => cases hst
      | failed => cases hst
      | run => cases hn.symm.trans hst
    · unfold Receiver.Fails at hf
      generalize s.step (.drive lag) = s' at hpass hf ⊢
      cases hpass with
      | rest => exact absurd hf (Nat.lt_succ_self _).ne
      | start => exact absurd hf (Nat.lt_succ_self _).ne
      | cancel => exact absurd hf (Nat.lt_succ_self _).ne
      | fixed => cases hf
      | failed => exact ⟨_, rfl, rfl, hs.delayMs⟩
      | run => exact absurd hf (Nat.lt_succ_self _).ne
    · have hread := ho.read ⟨lag, rfl⟩
      generalize s.step (.drive lag) = s' at hpass
      cases hpass with
      | rest _ hn => cases hn.symm.trans ht
      | start _ hn => cases hn.symm.trans ht
      | cancel => rfl
      | fixed => rfl
      | failed => rfl
      | run _ hst hm hf hw =>
        obtain rfl := Option.some.inj (hst.symm.trans ht)
        obtain ⟨-, hle, hms⟩ := hs.started _ ht
        have hage := hread hm _ ht hcap hf
        rw [hms, Receiver.millis, elapsed_reading hle] at hw
        exact absurd (hw.trans windowMs_le) (not_le.mpr hage)
    · have hd := hs.due_of_reset ho hn hm hb hr hle
      refine ⟨hn, ?_⟩
      generalize s.step (.drive lag) = s' at hpass ⊢
      cases hpass with
      | rest _ _ hno => cases (hno hm).symm.trans hd
      | start => rfl
      | cancel _ hst => cases hn.symm.trans hst
      | fixed _ hst => cases hn.symm.trans hst
      | failed _ hst => cases hn.symm.trans hst
      | run _ hst => cases hn.symm.trans hst
  · have hne : ∀ lag, e ≠ .drive lag := fun lag h => he ⟨lag, h⟩
    refine ⟨fun ⟨hn, hst⟩ => ?_, fun hf => ?_, fun h => absurd h he, fun h => absurd h he⟩
    · rw [started_step hne, hn] at hst
      cases hst
    · have hle := failures_step (s := s) hne
      rw [hf] at hle
      exact absurd hle (Nat.not_succ_le_self _)

end

/-- The messages of a call of `pump`, each with the time that passes before it. -/
abbrev Heard := List (Message × Nat)

/-- The messages with the values of `millis()`, from a time on. -/
def Heard.stamped (now : Nat) : Heard → Heard
  | [] => []
  | (m, ms) :: heard => (m, reading (2 ^ 32) (now + ms)) :: Heard.stamped (now + ms) heard

def Heard.events (heard : Heard) : List Event := heard.flatMap fun m => [.wait m.2, .hear m.1]

def Heard.duration (heard : Heard) : Nat := (heard.map Prod.snd).sum

section
variable {s : Receiver} {g : Facade} {heard : Heard}

lemma hwPowered_hear {m : Message} {t : Nat} : (g.hear m t).hwPowered = g.hwPowered := by
  have hite : ∀ {p : Prop} [Decidable p] {g' g'' : Facade}, g'.hwPowered = g.hwPowered →
      g''.hwPowered = g.hwPowered → (if p then g' else g'').hwPowered = g.hwPowered :=
    fun h h' => by
      split
      next => exact h
      next => exact h'
  have hbind : ∀ (g' : Facade) m, g'.hwPowered = g.hwPowered →
    (g'.bindModule m).hwPowered = g.hwPowered :=
    fun g' m h => hite h (hite h h)
  cases m with
  | ubx u => exact hite rfl (hite (hbind _ _ rfl) rfl)
  | rmc => rfl
  | visible sats => rfl
  | txt casic ublox => exact hite rfl (hite (hbind _ _ rfl) (hite (hbind _ _ rfl) rfl))

lemma hwPowered_foldl {l : List (Message × Nat)} :
    (l.foldl (fun g m => g.hear m.1 m.2) g).hwPowered = g.hwPowered := by
  induction l generalizing g with
  | nil => rfl
  | cons m l ih => exact ih.trans hwPowered_hear

variable (s heard) in
/-- The UART is drained while the rail is up. -/
lemma foldl_events :
    (heard.events.foldl Receiver.step s).now = s.now + heard.duration ∧
      (heard.events.foldl Receiver.step s).facade =
        if s.facade.hwPowered then
          (heard.stamped s.now).foldl (fun g m => g.hear m.1 m.2) s.facade
        else s.facade := by
  induction heard generalizing s with
  | nil => exact ⟨rfl, (ite_self _).symm⟩
  | cons m heard ih =>
    obtain ⟨m, ms⟩ := m
    have hduration : Heard.duration ((m, ms) :: heard) = ms + Heard.duration heard := rfl
    have hevents : Heard.events ((m, ms) :: heard) =
        .wait ms :: .hear m :: Heard.events heard := rfl
    obtain ⟨hnow, hfacade⟩ : ((s.step (.wait ms)).step (.hear m)).now = s.now + ms ∧
        ((s.step (.wait ms)).step (.hear m)).facade =
          if s.facade.hwPowered then s.facade.hear m (reading (2 ^ 32) (s.now + ms))
            else s.facade := by
      unfold Receiver.step
      dsimp only
      cases s.facade.hwPowered with
      | true => exact ⟨rfl, rfl⟩
      | false => exact ⟨rfl, rfl⟩
    rw [hevents, List.foldl_cons, List.foldl_cons]
    generalize (s.step (.wait ms)).step (.hear m) = s' at hnow hfacade
    obtain ⟨htime, hheard⟩ := ih (s := s')
    rw [htime, hheard, hnow, hduration, Nat.add_assoc]
    refine ⟨rfl, ?_⟩
    by_cases hw : s.facade.hwPowered
    · rw [if_pos hw] at hfacade
      rw [if_pos hw, hfacade, if_pos (hwPowered_hear.trans hw)]
      rfl
    · rw [if_neg hw] at hfacade
      rw [hfacade, if_neg hw, if_neg hw]

/-- A call of `pump` is a pass, the messages in turn, and the end of the drain. -/
theorem pump_run {lag done : Nat} :
    ((.drive lag :: (heard.events ++ [.wait done, .sight])).foldl Receiver.step s).facade =
      s.facade.pump s.millis (reading (2 ^ 32) (s.now + lag)) (heard.stamped s.now)
        (reading (2 ^ 32) (s.now + heard.duration + done)) := by
  obtain ⟨hfacade, hnow⟩ : (s.drive lag).facade =
      s.facade.drive s.millis (reading (2 ^ 32) (s.now + lag)) ∧ (s.drive lag).now = s.now := by
    unfold Receiver.drive
    dsimp only
    split
    next => exact ⟨rfl, rfl⟩
    next => exact ⟨rfl, rfl⟩
    next => exact ⟨rfl, rfl⟩
    next =>
      split
      next => exact ⟨rfl, rfl⟩
      next =>
        split
        next => exact ⟨rfl, rfl⟩
        next => exact ⟨rfl, rfl⟩
  have hstep : s.step (.drive lag) = s.drive lag := rfl
  obtain ⟨htime, hheard⟩ := foldl_events (s.drive lag) heard
  rw [hnow] at htime hheard
  rw [List.foldl_cons, hstep, List.foldl_append]
  generalize heard.events.foldl Receiver.step (s.drive lag) = s' at htime hheard ⊢
  rw [hfacade] at hheard
  unfold Facade.pump
  dsimp only
  generalize s.facade.drive s.millis (reading (2 ^ 32) (s.now + lag)) = g at hheard ⊢
  have hpowered : s'.facade.hwPowered = g.hwPowered := by
    rw [hheard]
    split
    next => exact hwPowered_foldl
    next => rfl
  rw [List.foldl_cons, List.foldl_cons, List.foldl_nil]
  unfold Receiver.step
  dsimp only
  by_cases hw : g.hwPowered
  · rw [if_pos (hpowered.trans hw), if_pos hw]
    rw [if_pos hw] at hheard
    dsimp only
    rw [hheard, ← htime]
    rfl
  · rw [if_neg fun h => hw (hpowered.symm.trans h), if_neg hw]
    rw [if_neg hw] at hheard
    exact hheard

end

/-- In a run whose passes are sound, the acquisitions keep to the backoff. -/
theorem acquires_of_sound {events : List Event} (h : Allowed Receiver.step Sound {} events) :
    Allowed Receiver.step Keeps {} events :=
  h.imp (fun hs ho => hs.step ho) (fun hs ho => hs.keeps ho) Tells.init

/-- A location interval of 5 min. -/
def every5Min : PowerConfig := { intervalS := 300 }

/-- A receiver without a view of the sky tries, fails, and tries again after 60 s. -/
def noSky : List Event :=
  [.configure every5Min, .drive 0, .wait 120001, .drive 0, .wait 60000, .drive 0]

/-- A receiver that had a fix loses the sky: it fails, and tries again with the next call. -/
def skyLost : List Event :=
  [.configure every5Min, .wait 1, .hear .rmc, .wait 300000, .drive 0, .wait 120001, .drive 0,
  .wait 1, .drive 0]

/-- Without a view of the sky the second attempt starts 60 s after the first has failed. -/
theorem acquires_of_sound_noSky : Allowed Receiver.step Keeps {} noSky ∧
    (noSky.foldl Receiver.step {}).started = some 180001 := by
  refine ⟨acquires_of_sound ⟨?_, ?_, ?_, ?_, ?_, ?_, trivial⟩, by decide⟩
  · exact ⟨nofun, nofun, nofun, nofun⟩
  · exact ⟨fun _ _ _ => nofun, fun _ _ => nofun, fun _ _ => nofun, fun _ _ _ _ => nofun⟩
  · exact ⟨nofun, nofun, nofun, nofun⟩
  · refine ⟨fun _ _ => nofun, fun _ _ _ _ => nofun, fun _ _ t ht hlt => ?_, fun _ _ => nofun⟩
    obtain rfl := Option.some.inj ht
    exact absurd hlt (by decide)
  · exact ⟨nofun, nofun, nofun, nofun⟩
  · refine ⟨fun _ _ _ f hf hlt => ?_, fun _ _ => nofun, fun _ _ => nofun, fun _ _ _ _ => nofun⟩
    obtain rfl := Option.some.inj hf
    exact absurd hlt (by decide)

/-- A receiver that had a fix does not wait for the delay that it has announced. -/
theorem not_keeps_skyLost : ¬ ∀ events : List Event, Allowed Receiver.step Keeps {} events := by
  intro h
  obtain ⟨-, -, -, -, -, -, -, -, hk, -⟩ := h skyLost
  have hle := hk.spaced ⟨by decide, by decide⟩ ⟨420002, 60000⟩ rfl
  exact absurd hle (by decide)

end URSupreme.Acquisition
