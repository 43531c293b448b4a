import URSupreme.Clock.Manager
import URSupreme.Sensors.MaxM10

/-!
# The GNSS receiver

The facade `Sensors/Position/Gnss.h` behind `begin`: the identification of the module, the delivery
of its power mode to a MAX-M10, the acquisition scheduler, and `pump`, which runs them and drains
the UART. Of the sentences that come in, only what the scheduler and the identification read is
kept.
-/

namespace URSupreme.Gnss
open Lib Clock MaxM10

def PULSE_THRESHOLD_S : Nat := 5 * 60
def PULSE_ACQUIRE_TIMEOUT_MS : Nat := 120000
def PULSE_ACQUIRE_MAX_MS : Nat := 300000
def PROGRESS_HOLD_MS : Nat := 30000
def PROBE_RETRY_MS : Nat := 10000
def M10_CFG_WAKE_SETTLE_MS : Nat := 150
def M10_CFG_ACK_WAIT_MS : Nat := 700
def M10_CFG_RETRIES : Nat := 3
def PSMOO_STALE_FACTOR : Nat := 2
def PSMOO_STALE_GRACE_MS : Nat := 60000
def PULSE_RETRY_BACKOFF_MS : Nat := 60000
def PULSE_RETRY_BACKOFF_MAX_MS : Nat := 30 * 60 * 1000
def PULSE_RETRY_BACKOFF_SHIFT_MAX : Nat := 9

/-- `PowerConfig`. -/
structure PowerConfig where
  enabled : Bool := true
  intervalS : Nat := 0

inductive PowerMode where
  | off
  | alwaysOn
  | pulsed
  deriving DecidableEq

/-- `target_mode`. -/
def PowerConfig.targetMode (c : PowerConfig) : PowerMode :=
  if c.enabled = false then .off
  else if c.intervalS < PULSE_THRESHOLD_S then .alwaysOn
  else .pulsed

inductive PulseState where
  | idle
  | acquiring
  deriving DecidableEq

inductive Module where
  | unknown
  | l76k
  | maxm10
  deriving DecidableEq

inductive M10Power where
  | notApplied
  | full
  | psmoo
  deriving DecidableEq

inductive M10Cfg where
  | idle
  | settling
  | awaitAck
  deriving DecidableEq

/-- What the facade does, in its order: what it writes to the receiver, VALSETs by the batch, and
the notice that a power mode is in force. -/
inductive Act where
  | probe
  | wake
  | sleepFor (durationMs : Nat)
  | onIdentified
  | setPower (want : M10Power) (intervalS : Nat)
  | acknowledged (want : M10Power) (intervalS : Nat)
  deriving DecidableEq

/-- The VALSETs of an act. -/
def Act.valsets : Act → List Bytes
  | .onIdentified => MaxM10.onIdentified
  | .setPower want intervalS =>
    if want = .full then MaxM10.setPower true 0 else MaxM10.setPower false intervalS
  | _ => []

/-- The variables of the facade, and what it has done. -/
structure Facade where
  module : Module := .unknown
  config : PowerConfig := {}
  hwPowered : Bool := true
  pulseState : PulseState := .idle
  pulseStartedMs : Nat := 0
  backoffCount : Nat := 0
  nextAttemptMs : Nat := 0
  satsVisible : Nat := 0
  satsSeenMs : Nat := 0
  everFixed : Bool := false
  lastFixMs : Nat := 0
  lastProbeMs : Nat := 0
  m10Power : M10Power := .notApplied
  m10IntervalS : Nat := 0
  m10Cfg : M10Cfg := .idle
  m10CfgT : Nat := 0
  m10CfgAcks : Nat := 0
  m10CfgNaks : Nat := 0
  m10CfgNeed : Nat := 0
  m10CfgTries : Nat := 0
  m10CfgWant : M10Power := .notApplied
  m10CfgIv : Nat := 0
  report : Report := {}
  acts : List Act := [.probe]

def Facade.act (g : Facade) (a : Act) : Facade := { g with acts := g.acts ++ [a] }

/-- `probe_module`. -/
def Facade.probeModule (g : Facade) : Facade := if g.module ≠ .unknown then g else g.act .probe

/-- `bind_module`. -/
def Facade.bindModule (g : Facade) (m : Module) : Facade :=
  if g.module ≠ .unknown then g
  else if m = .maxm10 then { g.act .onIdentified with module := m, m10Power := .notApplied }
  else { g with module := m }

/-- `power_on`. -/
def Facade.powerOn (g : Facade) : Facade :=
  Facade.probeModule { g with hwPowered := true, m10Power := .notApplied }

/-- `power_off`. -/
def Facade.powerOff (g : Facade) : Facade := { g with hwPowered := false }

/-- `reset_backoff`. -/
def Facade.resetBackoff (g : Facade) : Facade :=
  if g.backoffCount ≠ 0 then { g with backoffCount := 0 } else g

/-- `m10_request_power`. -/
def Facade.m10RequestPower (g : Facade) (want : M10Power) (intervalS : Nat) (millis : Nat) :
    Facade :=
  if g.m10Power = want ∧ (want ≠ .psmoo ∨ g.m10IntervalS = intervalS) then g
  else if g.m10Cfg ≠ .idle ∧ g.m10CfgWant = want ∧ g.m10CfgIv = intervalS then g
  else
    { g.act .wake with
      m10CfgWant := want
      m10CfgIv := intervalS
      m10CfgTries := 0
      m10Cfg := .settling
      m10CfgT := millis }

/-- `m10_cfg_pump` once the receiver has settled. -/
def Facade.m10CfgSend (g : Facade) (now : Nat) : Facade :=
  { g.act (.setPower g.m10CfgWant g.m10CfgIv) with
    m10CfgAcks := g.report.valsetAcks
    m10CfgNaks := g.report.valsetNaks
    m10CfgNeed := if g.m10CfgWant = .full then 1 else 3
    m10CfgT := now
    m10Cfg := .awaitAck }

/-- `m10_cfg_pump` with a batch that failed. -/
def Facade.m10CfgRetry (g : Facade) (now : Nat) : Facade :=
  if g.m10CfgTries + 1 < M10_CFG_RETRIES then
    { g.act .wake with m10CfgTries := g.m10CfgTries + 1, m10Cfg := .settling, m10CfgT := now }
  else { g with m10CfgTries := g.m10CfgTries + 1, m10Cfg := .idle }

/-- `m10_cfg_pump`. -/
def Facade.m10CfgPump (g : Facade) (now : Nat) : Facade :=
  match g.m10Cfg with
  | .idle => g
  | .settling => if elapsed now g.m10CfgT < M10_CFG_WAKE_SETTLE_MS then g else g.m10CfgSend now
  | .awaitAck =>
    let acks := elapsed g.report.valsetAcks g.m10CfgAcks
    let naks := elapsed g.report.valsetNaks g.m10CfgNaks
    if naks = 0 ∧ acks ≥ g.m10CfgNeed then
      { g.act (.acknowledged g.m10CfgWant g.m10CfgIv) with
        m10Power := g.m10CfgWant
        m10IntervalS := g.m10CfgIv
        m10Cfg := .idle }
    else if naks ≠ 0 ∨ elapsed now g.m10CfgT > M10_CFG_ACK_WAIT_MS then g.m10CfgRetry now
    else g

/-- The location interval as the scheduler counts it. -/
def intervalMs (intervalS : Nat) : Nat := intervalS * 1000 % 2 ^ 32

/-- The sign of a difference, as `int32_t`, is not negative. -/
def reached (now since : Nat) : Bool := elapsed now since < 2 ^ 31

/-- `due` in `scheduler_pump`. -/
def Facade.due (g : Facade) (now intervalS : Nat) : Bool :=
  if g.everFixed = false then g.nextAttemptMs == 0 || reached now g.nextAttemptMs
  else if g.module = .maxm10 ∧ g.m10Power = .psmoo then
    elapsed now g.lastFixMs >
      (PSMOO_STALE_FACTOR * intervalMs intervalS + PSMOO_STALE_GRACE_MS) % 2 ^ 32
  else elapsed now g.lastFixMs ≥ intervalMs intervalS

/-- `acquired` in `scheduler_pump`. -/
def Facade.acquired (g : Facade) : Bool :=
  g.everFixed && g.lastFixMs != 0 && reached g.lastFixMs g.pulseStartedMs

/-- `window_ms` in `scheduler_pump`. -/
def Facade.windowMs (g : Facade) (now : Nat) : Nat :=
  if g.satsSeenMs ≠ 0 ∧ elapsed now g.satsSeenMs < PROGRESS_HOLD_MS then PULSE_ACQUIRE_MAX_MS
  else PULSE_ACQUIRE_TIMEOUT_MS

/-- `delay_ms` in `scheduler_pump`. -/
def Facade.delayMs (g : Facade) : Nat :=
  min (PULSE_RETRY_BACKOFF_MS <<< min g.backoffCount PULSE_RETRY_BACKOFF_SHIFT_MAX % 2 ^ 32)
    PULSE_RETRY_BACKOFF_MAX_MS

/-- `scheduler_pump` where an acquisition starts. -/
def Facade.startAcquiring (g : Facade) (now millis : Nat) : Facade :=
  let g := if g.hwPowered then g else g.powerOn
  let g := if g.module = .maxm10 then g.m10RequestPower .full 0 millis else g
  { g with pulseState := .acquiring, pulseStartedMs := now, satsSeenMs := 0 }

/-- `scheduler_pump` after a fix. -/
def Facade.endAcquired (g : Facade) (intervalS millis : Nat) : Facade :=
  let g := { g with backoffCount := 0, nextAttemptMs := 0, pulseState := .idle }
  if g.module = .maxm10 then g.m10RequestPower .psmoo intervalS millis else g.powerOff

/-- `scheduler_pump` after a window without a fix. -/
def Facade.backOff (g : Facade) (now : Nat) : Facade :=
  let delayMs := g.delayMs
  let g := { g with
    backoffCount := if g.backoffCount < 255 then g.backoffCount + 1 else g.backoffCount
    nextAttemptMs := (now + delayMs) % 2 ^ 32
    pulseState := .idle }
  if g.module = .maxm10 then g.act (.sleepFor delayMs) else g.powerOff

/-- `scheduler_pump`; `millis` is read where a power mode is requested. -/
def Facade.schedulerPump (g : Facade) (now intervalS millis : Nat) : Facade :=
  match g.pulseState with
  | .idle =>
    if g.due now intervalS then g.startAcquiring now millis
    else if g.module ≠ .maxm10 ∧ g.hwPowered then g.powerOff
    else g
  | .acquiring =>
    if g.acquired then g.endAcquired intervalS millis
    else if elapsed now g.pulseStartedMs > g.windowMs now then g.backOff now
    else g

/-- The transitions between the power modes in `pump`. -/
def Facade.powerMode (g : Facade) (now millis : Nat) : Facade :=
  match g.config.targetMode with
  | .off => { (if g.hwPowered then g.powerOff else g) with pulseState := .idle }
  | .alwaysOn =>
    let g := { (if g.hwPowered then g else g.powerOn) with pulseState := .idle }
    if g.module = .maxm10 then g.m10RequestPower .full 0 millis else g
  | .pulsed => g.schedulerPump now g.config.intervalS millis

/-- The identification of an unknown module in `pump`. -/
def Facade.reprobe (g : Facade) (now : Nat) : Facade :=
  if g.module = .unknown ∧ g.hwPowered ∧ elapsed now g.lastProbeMs ≥ PROBE_RETRY_MS then
    Facade.probeModule { g.act .wake with lastProbeMs := now }
  else g

/-- `pump` before it drains the UART. -/
def Facade.drive (g : Facade) (now millis : Nat) : Facade :=
  let mode := g.config.targetMode
  let g := g.powerMode now millis
  if mode = .off then g
  else (if g.module = .maxm10 then g.m10CfgPump now else g).reprobe now

/-- What the receiver sends: a UBX frame, a valid RMC sentence, a sentence with the number of
satellites in view, or a TXT sentence with the names in it. -/
inductive Message where
  | ubx (u : Ubx)
  | rmc
  | visible (sats : Nat)
  | txt (casic ublox : Bool)

/-- `pump` with a message out of the UART. -/
def Facade.hear (g : Facade) (m : Message) (millis : Nat) : Facade :=
  match m with
  | .ubx u =>
    if g.module = .l76k then g
    else
      let g := { g with report := (Segment.frame u).deliver (fun _ => millis) 0 g.report }
      if g.module = .unknown ∧ g.report.seenMonVer then g.bindModule .maxm10 else g
  | .rmc => { g with lastFixMs := millis, everFixed := true }
  | .visible sats => { g with satsVisible := sats }
  | .txt casic ublox =>
    if g.module ≠ .unknown then g
    else if casic then g.bindModule .l76k
    else if ublox then g.bindModule .maxm10
    else g

/-- `pump` when the UART is drained. -/
def Facade.sight (g : Facade) (millis : Nat) : Facade :=
  if 0 < g.satsVisible then { g with satsSeenMs := millis } else g

/-- `pump`: the messages come out of the UART at their times, and at `done` it is empty. -/
def Facade.pump (g : Facade) (now millis : Nat) (heard : List (Message × Nat)) (done : Nat) :
    Facade :=
  let g := g.drive now millis
  if g.hwPowered then (heard.foldl (fun g m => g.hear m.1 m.2) g).sight done else g

/-- What the scheduler remembers between its passes. -/
structure Plan where
  pulseState : PulseState
  pulseStartedMs : Nat
  backoffCount : Nat
  nextAttemptMs : Nat
  everFixed : Bool
  lastFixMs : Nat

/-- What the scheduler remembers. -/
def Facade.plan (g : Facade) : Plan where
  pulseState := g.pulseState
  pulseStartedMs := g.pulseStartedMs
  backoffCount := g.backoffCount
  nextAttemptMs := g.nextAttemptMs
  everFixed := g.everFixed
  lastFixMs := g.lastFixMs

section
variable {g : Facade} {now millis intervalS : Nat} {want : M10Power} {m : Module}

lemma plan_ite {p : Prop} [Decidable p] {g' g'' : Facade} {q : Plan} (h : g'.plan = q)
    (h' : g''.plan = q) : (if p then g' else g'').plan = q := by
  split
  next => exact h
  next => exact h'

lemma plan_probeModule : g.probeModule.plan = g.plan := plan_ite rfl rfl

lemma plan_powerOn : g.powerOn.plan = g.plan := plan_probeModule

lemma plan_bindModule : (g.bindModule m).plan = g.plan := plan_ite rfl (plan_ite rfl rfl)

lemma plan_m10RequestPower : (g.m10RequestPower want intervalS millis).plan = g.plan :=
  plan_ite rfl (plan_ite rfl rfl)

lemma plan_m10CfgRetry : (g.m10CfgRetry now).plan = g.plan := plan_ite rfl rfl

lemma plan_m10CfgPump : (g.m10CfgPump now).plan = g.plan := by
  unfold Facade.m10CfgPump
  split
  next => rfl
  next => exact plan_ite rfl rfl
  next => exact plan_ite rfl (plan_ite plan_m10CfgRetry rfl)

lemma plan_reprobe : (g.reprobe now).plan = g.plan := plan_ite plan_probeModule rfl

lemma plan_sight : (g.sight millis).plan = g.plan := plan_ite rfl rfl

lemma plan_startAcquiring :
    (g.startAcquiring now millis).plan =
      { g.plan with pulseState := .acquiring, pulseStartedMs := now } := by
  have h : (if (if g.hwPowered then g else g.powerOn).module = .maxm10 then
      (if g.hwPowered then g else g.powerOn).m10RequestPower .full 0 millis
    else (if g.hwPowered then g else g.powerOn)).plan = g.plan := by
    have h1 : (if g.hwPowered then g else g.powerOn).plan = g.plan := plan_ite rfl plan_powerOn
    exact plan_ite (plan_m10RequestPower.trans h1) h1
  exact congrArg (fun p : Plan => { p with pulseState := .acquiring, pulseStartedMs := now }) h

lemma plan_endAcquired :
    (g.endAcquired intervalS millis).plan =
      { g.plan with backoffCount := 0, nextAttemptMs := 0, pulseState := .idle } :=
  plan_ite plan_m10RequestPower rfl

lemma plan_backOff :
    (g.backOff now).plan = { g.plan with
      backoffCount := if g.backoffCount < 255 then g.backoffCount + 1 else g.backoffCount
      nextAttemptMs := (now + g.delayMs) % 2 ^ 32
      pulseState := .idle } :=
  plan_ite rfl rfl

/-- The plan after a pass is the one that the transitions between the power modes leave. -/
lemma plan_drive : (g.drive now millis).plan = (g.powerMode now millis).plan := by
  unfold Facade.drive
  exact plan_ite rfl (plan_reprobe.trans (plan_ite plan_m10CfgPump rfl))

variable (now millis) in
/-- A pass while the location is not pulsed. -/
lemma plan_drive_other (h : g.config.targetMode ≠ .pulsed) :
    (g.drive now millis).plan = { g.plan with pulseState := .idle } := by
  rw [plan_drive]
  unfold Facade.powerMode
  cases hm : g.config.targetMode with
  | off =>
    have h1 : (if g.hwPowered then g.powerOff else g).plan = g.plan := plan_ite rfl rfl
    exact congrArg (fun p : Plan => { p with pulseState := .idle }) h1
  | alwaysOn =>
    have h1 : (if g.hwPowered then g else g.powerOn).plan = g.plan := plan_ite rfl plan_powerOn
    have h2 := congrArg (fun p : Plan => { p with pulseState := .idle }) h1
    exact plan_ite (plan_m10RequestPower.trans h2) h2
  | pulsed => exact absurd hm h

lemma powerMode_pulsed (h : g.config.targetMode = .pulsed) :
    g.powerMode now millis = g.schedulerPump now g.config.intervalS millis := by
  unfold Facade.powerMode
  rw [h]

variable (now millis) in
/-- A pass while no acquisition runs. -/
lemma plan_drive_idle (h : g.config.targetMode = .pulsed) (hi : g.pulseState = .idle) :
    (g.drive now millis).plan =
      if g.due now g.config.intervalS then
        { g.plan with pulseState := .acquiring, pulseStartedMs := now }
      else g.plan := by
  rw [plan_drive, powerMode_pulsed h]
  unfold Facade.schedulerPump
  rw [hi]
  dsimp only
  split
  next => exact plan_startAcquiring
  next => exact plan_ite rfl rfl

variable (now millis) in
/-- A pass while an acquisition runs. -/
lemma plan_drive_acquiring (h : g.config.targetMode = .pulsed) (ha : g.pulseState = .acquiring) :
    (g.drive now millis).plan =
      if g.acquired then { g.plan with backoffCount := 0, nextAttemptMs := 0, pulseState := .idle }
      else if elapsed now g.pulseStartedMs > g.windowMs now then
        { g.plan with
          backoffCount := if g.backoffCount < 255 then g.backoffCount + 1 else g.backoffCount
          nextAttemptMs := (now + g.delayMs) % 2 ^ 32
          pulseState := .idle }
      else g.plan := by
  rw [plan_drive, powerMode_pulsed h]
  unfold Facade.schedulerPump
  rw [ha]
  dsimp only
  split
  next => exact plan_endAcquired
  next =>
    split
    next => exact plan_backOff
    next => rfl

end

end URSupreme.Gnss
