import URSupreme.Lib.Deadline

/-!
# Live polls

The cadence of `BME280.h`, `QMC6310.h` and `QMI8658.h`: a demand opens a window in which `pump`
reads the chip fast, and outside of it only the climate chip is read, for its trend. What is read is
left out, and of the motion chip what its interrupt does.
-/

namespace URSupreme.Sensors.LivePoll
open Lib

/-- The chips that have a window. -/
inductive Chip where
  | bme280
  | qmc6310
  | qmi8658
  deriving DecidableEq, Repr

instance : Fintype Chip where
  elems := {.bme280, .qmc6310, .qmi8658}
  complete := fun c => by
    cases c with
    | bme280 => decide
    | qmc6310 => decide
    | qmi8658 => decide

/-- `LIVE_POLL_MS`. -/
def LIVE_POLL_MS : Chip → ℕ
  | .bme280 => 500
  | .qmc6310 => 100
  | .qmi8658 => 100

/-- `PRESS_HIST_MS`. -/
def PRESS_HIST_MS : ℕ := 5 * 60 * 1000

/-- The statics of a driver; only the climate chip has the trend. -/
structure Sensor where
  present : Bool := false
  enabled : Bool := true
  takenMs : ℕ := 0
  liveUntil : ℕ := 0
  trendEnabled : Bool := true
  trendIntervalMs : ℕ := PRESS_HIST_MS
  deriving DecidableEq, Repr

/-- `request_live`. -/
def Sensor.requestLive (s : Sensor) (millis : ℕ) (ttlMs : UInt32) : Sensor :=
  { s with liveUntil := (millis + ttlMs.toNat) % 2 ^ 32 }

/-- `live`. -/
def Sensor.live (s : Sensor) (millis : ℕ) : Bool := millis < s.liveUntil

/-- How often the chip is read while nothing demands it. -/
def Sensor.background (s : Sensor) : Chip → Option ℕ
  | .bme280 => if s.trendEnabled then some s.trendIntervalMs else none
  | .qmc6310 => none
  | .qmi8658 => none

/-- `eff_interval`, or that `pump` returns before. -/
def Sensor.effInterval (s : Sensor) (c : Chip) (millis : ℕ) : Option ℕ :=
  if millis < s.liveUntil then some (LIVE_POLL_MS c) else s.background c

/-- `do_read`; `ok` is whether the chip has a reading to give. -/
def Sensor.doRead (s : Sensor) (millis : ℕ) (ok : Bool) : Sensor :=
  if ok then { s with takenMs := millis } else s

/-- `pump`. -/
def Sensor.pump (s : Sensor) (c : Chip) (millis : ℕ) (ok : Bool) : Sensor :=
  if !s.present then s
  else if !s.enabled then s
  else match s.effInterval c millis with
    | none => s
    | some interval =>
      if s.takenMs ≠ 0 ∧ (millis + 2 ^ 32 - s.takenMs) % 2 ^ 32 < interval then s
      else s.doRead millis ok

/-- `read_now`. -/
def Sensor.readNow (s : Sensor) (millis : ℕ) (ok : Bool) : Sensor :=
  if !s.present || !s.enabled then s else s.doRead millis ok

/-- `set_trend`. -/
def Sensor.setTrend (s : Sensor) (on : Bool) (intervalMs : ℕ) : Sensor :=
  { s with
    trendEnabled := on
    trendIntervalMs := if 0 < intervalMs then intervalMs else s.trendIntervalMs }

variable {s : Sensor} {c : Chip} {millis : ℕ} {ok : Bool}

@[simp] lemma doRead_liveUntil : (s.doRead millis ok).liveUntil = s.liveUntil := by
  unfold Sensor.doRead
  split
  next => rfl
  next => rfl

/-- Reading leaves the window as it is. -/
@[simp] lemma pump_liveUntil : (s.pump c millis ok).liveUntil = s.liveUntil := by
  unfold Sensor.pump
  split
  next => rfl
  next =>
    split
    next => rfl
    next =>
      cases s.effInterval c millis with
      | none => rfl
      | some interval =>
        dsimp only
        split
        next => rfl
        next => simp

@[simp] lemma readNow_liveUntil : (s.readNow millis ok).liveUntil = s.liveUntil := by
  unfold Sensor.readNow
  split
  next => rfl
  next => simp

/-- `due`, of a demand that was made, is what the window is kept for: a window that nothing has
demanded is over. -/
def Sensor.Kept (s : Sensor) (due : Option ℕ) (t : ℕ) : Prop :=
  match due with
  | none => s.liveUntil = 0
  | some due => Marks (2 ^ 32) s.liveUntil due t

/-- The end of the window that is asked for is ahead. -/
def inWindow (due : Option ℕ) (t : ℕ) : Bool := due.any (t < ·)

lemma Sensor.Kept.requestLive {t : ℕ} {ttlMs : UInt32} (h : Fits (2 ^ 32) t ttlMs.toNat) :
    (s.requestLive (reading (2 ^ 32) t) ttlMs).Kept (some (t + ttlMs.toNat)) t := marks_sum h

lemma Sensor.Kept.later {due : Option ℕ} {t u : ℕ} (h : s.Kept due t) (htu : t ≤ u) :
    s.Kept due u := by
  cases due with
  | none => exact h
  | some due => exact Marks.later h htu

/-- The window is open exactly until its end. -/
lemma Sensor.Kept.live_eq {due : Option ℕ} {t : ℕ} (h : s.Kept due t)
    (hp : ∀ d ∈ due, Past (2 ^ 32) d t) : s.live (reading (2 ^ 32) t) = inWindow due t := by
  apply Bool.eq_iff_iff.mpr
  cases due with
  | none =>
    have h0 : s.liveUntil = 0 := h
    simp [Sensor.live, inWindow, h0]
  | some due =>
    have hw := Marks.open_iff h (hp due rfl)
    simpa [Sensor.live, inWindow] using hw

/-- The chip is read fast exactly while the window is open. -/
lemma effInterval_eq :
    s.effInterval c millis = if s.live millis then some (LIVE_POLL_MS c) else s.background c := by
  simp [Sensor.effInterval, Sensor.live]

end URSupreme.Sensors.LivePoll
