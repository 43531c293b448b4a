import URSupreme.Lib.Clock

/-!
# The wall clock

`Clock::Manager` of `Clock/Manager.h`: the sources of time with their priorities, `report_time` and
`seed_from_rtc`, and `get_timestamp` of `LXMF/LXMFMinimal.h`. Reported times are the bits of
doubles; an epoch that is computed is in milliseconds.
-/

namespace URSupreme.Clock
open Lib

/-- `Source`. -/
inductive Source where
  | none
  | gps
  | ntp
  | browser
  | rns
  | rtc
  deriving DecidableEq, Repr

/-- `SourceConfig`; 0 is the highest priority. -/
structure SourceConfig where
  enabled : Bool
  priority : Nat
  deriving DecidableEq, Repr

/-- `default_config`. -/
def defaultConfig : Source → SourceConfig
  | .ntp => { enabled := true, priority := 0 }
  | .gps => { enabled := true, priority := 1 }
  | .browser => { enabled := true, priority := 2 }
  | .rns => { enabled := true, priority := 3 }
  | .none | .rtc => { enabled := false, priority := 255 }

/-- The state of `Clock::Manager`. -/
structure Manager where
  config : Source → SourceConfig := defaultConfig
  offsetSeconds : Int := 0
  currentSource : Source := .none
  currentPriority : Nat := 255
  rtcSeedApplied : Bool := false
  lastCalibratedMs : Nat := 0

/-- The whole seconds of a double from 2020-01-01 to 2100-01-01, the ones that are not refused. -/
def saneSeconds (bits : UInt64) : Option Nat :=
  let exponent := bits.toNat / 2 ^ 52
  -- the doubles from 2 ^ 30 up to 2 ^ 32
  if exponent = 1053 ∨ exponent = 1054 then
    let shift := 1075 - exponent
    let mantissa := 2 ^ 52 + bits.toNat % 2 ^ 52
    if mantissa < 1577836800 * 2 ^ shift ∨ mantissa > 4102444800 * 2 ^ shift then none
    else some (mantissa / 2 ^ shift)
  else none

/-- `now_epoch`, in milliseconds. -/
def Manager.nowEpoch (m : Manager) (millis : Nat) : Int :=
  if m.currentSource = .none ∧ m.rtcSeedApplied = false then 0
  else m.offsetSeconds * 1000 + millis

/-- `is_calibrated`. -/
def Manager.isCalibrated (m : Manager) : Bool := m.currentSource ≠ .none || m.rtcSeedApplied

/-- `seed_from_rtc`. -/
def Manager.seedFromRtc (m : Manager) (epoch : UInt64) (millis : Nat) : Manager :=
  match saneSeconds epoch with
  | none => m
  | some seconds =>
    { m with
      offsetSeconds := seconds - (millis / 1000 : Nat)
      rtcSeedApplied := true
      lastCalibratedMs := millis
      currentSource := .rtc
      currentPriority := 255 }

/-- `report_time`: the clock after a report that is adopted. -/
def Manager.reportTime (m : Manager) (source : Source) (epoch : UInt64) (millis : Nat) :
    Option Manager :=
  let config := m.config source
  if source = .none ∨ config.enabled = false then none
  else
    match saneSeconds epoch with
    | none => none
    | some seconds =>
      if m.currentSource ≠ .none ∧ config.priority > m.currentPriority then none
      else
        some { m with
          offsetSeconds := seconds - (millis / 1000 : Nat)
          currentSource := source
          currentPriority := config.priority
          lastCalibratedMs := millis }

/-- `get_timestamp`, in milliseconds. -/
def Manager.getTimestamp (m : Manager) (compileTimeEpoch : Int) (millis : Nat) : Int :=
  if m.isCalibrated then m.nowEpoch millis else compileTimeEpoch * 1000 + millis

/-- `calibrate_time`. -/
def Manager.calibrateTime (m : Manager) (remoteTs : UInt64) (millis : Nat) : Manager :=
  (m.reportTime .rns remoteTs millis).getD m

/-- A difference of two values of `millis()`. -/
def elapsed (now since : Nat) : Nat := (now + 2 ^ 32 - since) % 2 ^ 32

lemma elapsed_reading {n t : Nat} (ht : t ≤ n) :
    elapsed (reading (2 ^ 32) n) (reading (2 ^ 32) t) = (n - t) % 2 ^ 32 := by
  unfold elapsed reading
  omega

end URSupreme.Clock
