import Mathlib.Data.List.DropRight
import URSupreme.LXMF.MessengerRuns
import URSupreme.Lib.Parts
import URSupreme.Web.IdentityCode

/-!
# Identity settings

`handle_identity_settings` of `Web/WebUI/identity.h` over the identity slots, the messenger and the
identity code. Each group of the request is applied and saved before the next one is looked at, so a
refusal leaves what came before it, and the code that was accepted on the way is used up.

A request is what the JSON library reads of its members, those that are there; `require_auth` has
found the caller, or refused. All of it happens at one value of `millis()`.
-/

namespace URSupreme.IdentitySettings
open Lib Gateway
open IdentityCode (Code)

/-- The groups of a request, in the order in which they are applied. -/
inductive Group where
  | announceInterval
  | persistOutboundAttachments
  | stampCost
  | enforceStamps
  | screen
  | telemetry
  | displayName
  deriving DecidableEq, Repr

def groups : List Group :=
  [.announceInterval, .persistOutboundAttachments, .stampCost, .enforceStamps, .screen, .telemetry,
    .displayName]

/-- The `telemetry` object of a request. -/
structure TelemetryBody where
  location : Option Bool := none
  environment : Option Bool := none
  battery : Option Bool := none
  compass : Option Bool := none
  shareS : Option ℕ := none
  rateS : Option ℕ := none
  deriving DecidableEq, Repr

/-- The body of a request. -/
structure Body where
  announceIntervalMs : Option ℕ := none
  persistOutboundAttachments : Option Bool := none
  stampCost : Option ℤ := none
  enforceStamps : Option Bool := none
  screen : Option Bool := none
  identityCode : Bytes := []
  telemetry : Option TelemetryBody := none
  displayName : Option Bytes := none
  deriving DecidableEq, Repr

/-- What an error answers. -/
structure Refusal where
  status : ℕ
  error : String
  message : Option String := none
  deriving DecidableEq, Repr

/-- The document of an answer. -/
structure Settings where
  id : IdentityId
  displayName : Bytes
  announceIntervalMs : ℕ
  persistOutboundAttachments : Bool
  stampCost : ℕ
  enforceStamps : Bool
  screen : Bool
  telLocation : Bool
  telEnvironment : Bool
  telBattery : Bool
  telCompass : Bool
  telShareS : ℕ
  telRateS : ℕ
  deriving DecidableEq, Repr

/-- The messenger with the gateway, and the identity code. -/
structure Device where
  messenger : Messenger.Device
  code : Code

abbrev Device.gateway (d : Device) : LXMFGateway := d.messenger.gateway

def UNKNOWN_IDENTITY : Refusal := ⟨404, "unknown_identity", none⟩

def INVALID_STAMP_COST : Refusal :=
  ⟨400, "invalid_stamp_cost", some "Stamp cost must be 0 (off) or between 1 and 254."⟩

def NOT_LOGGED_IN : Refusal :=
  ⟨409, "screen_identity", some "No such identity is logged in on this device."⟩

def OTHER_HOLDER : Refusal :=
  ⟨409, "screen_identity",
    some "Another identity already shows on the screen. Turn it off there first."⟩

def EMPTY_NAME : Refusal := ⟨400, "invalid", some "display_name must not be empty"⟩

/-- `identity_by_id`. -/
def Device.identityById (d : Device) (id : IdentityId) : Option LXMFIdentity :=
  d.gateway.slots.find? (isCalled id)

/-- The setters of the gateway; false is answered as an unknown identity. -/
def Device.set (d : Device) (id : IdentityId) (s : Setter) (now : ℕ) : Device × Option Refusal :=
  if (d.identityById id).isSome then
    ({ d with messenger := { d.messenger with
        gateway := callOn (isCalled id) (.set s now) d.gateway } }, none)
  else (d, some UNKNOWN_IDENTITY)

/-- `set_screen_identity`, with its error. -/
def Device.setScreenIdentity (d : Device) (id : IdentityId) (enable : Bool) (now : ℕ) :
    Device × Option Refusal :=
  if (d.identityById id).isNone then (d, some NOT_LOGGED_IN)
  else if Messenger.accepts id enable d.gateway then
    ({ d with messenger := d.messenger.setScreen id enable now }, none)
  else (d, some OTHER_HOLDER)

/-- An announce interval that the radio can bear. -/
def clampInterval (ms : ℕ) : ℕ := if ms ≠ 0 ∧ ms < 10000 then 10000 else ms

def clampShare (shareS : ℕ) : ℕ := if 24 * 3600 < shareS then 24 * 3600 else shareS

def clampRate (rateS : ℕ) : ℕ :=
  let rateS := if rateS < 15 then 15 else rateS
  if 3600 < rateS then 3600 else rateS

def isBlank (c : UInt8) : Bool := c = 0x20 ∨ c = 0x09 ∨ c = 0x0D ∨ c = 0x0A

/-- A name without the blanks around it. -/
def trim (n : Bytes) : Bytes := (n.dropWhile isBlank).rdropWhile isBlank

variable (caller : IdentityId) (body : Body) (now : ℕ)

def applyAnnounceInterval (d : Device) : Device × Option Refusal :=
  match body.announceIntervalMs with
  | none => (d, none)
  | some ms => d.set caller (.announceInterval (clampInterval ms)) now

def applyPersistOutboundAttachments (d : Device) : Device × Option Refusal :=
  match body.persistOutboundAttachments with
  | none => (d, none)
  | some on => d.set caller (.persistOutboundAttachments on) now

def applyStampCost (d : Device) : Device × Option Refusal :=
  match body.stampCost with
  | none => (d, none)
  | some cost =>
    if cost < 0 ∨ 254 < cost then (d, some INVALID_STAMP_COST)
    else d.set caller (.stampCost cost.toNat) now

def applyEnforceStamps (d : Device) : Device × Option Refusal :=
  match body.enforceStamps with
  | none => (d, none)
  | some on => d.set caller (.enforceStamps on) now

def applyScreen (d : Device) : Device × Option Refusal :=
  match body.screen with
  | none => (d, none)
  | some false => d.setScreenIdentity caller false now
  | some true =>
    let (code, why) := d.code.explain body.identityCode now
    let d := { d with code := code }
    match why with
    | some why => (d, some ⟨403, "identity_code_required", some why⟩)
    | none => d.setScreenIdentity caller true now

def applyTelemetry (d : Device) : Device × Option Refusal :=
  match body.telemetry with
  | none => (d, none)
  | some t =>
    match d.identityById caller with
    | none => (d, some UNKNOWN_IDENTITY)
    | some cur =>
      d.set caller (.telemetryDefaults
        (t.location.getD cur.settings.telemetryLocation)
        (t.environment.getD cur.settings.telemetryEnvironment)
        (t.battery.getD cur.settings.telemetryBattery)
        (t.compass.getD cur.settings.telemetryCompass)
        (clampShare (t.shareS.getD cur.settings.telemetryShareS))
        (clampRate (t.rateS.getD cur.settings.telemetryRateS))) now

def applyDisplayName (d : Device) : Device × Option Refusal :=
  match body.displayName with
  | none => (d, none)
  | some n =>
    if trim n = [] then (d, some EMPTY_NAME)
    else d.set caller (.displayName ((trim n).take 96)) now

/-- One group of a request. -/
def apply : Group → Device → Device × Option Refusal
  | .announceInterval => applyAnnounceInterval caller body now
  | .persistOutboundAttachments => applyPersistOutboundAttachments caller body now
  | .stampCost => applyStampCost caller body now
  | .enforceStamps => applyEnforceStamps caller body now
  | .screen => applyScreen caller body now
  | .telemetry => applyTelemetry caller body now
  | .displayName => applyDisplayName caller body now

/-- The answer to a request that was applied. -/
def settings (d : Device) : Settings :=
  match d.identityById caller with
  | none => ⟨caller, [], 0, true, 0, false, false, true, false, false, false, 0, 60⟩
  | some a =>
    { id := caller
      displayName := a.displayName
      announceIntervalMs := a.settings.announceIntervalMs
      persistOutboundAttachments := a.settings.persistOutboundAttachments
      stampCost := a.settings.stampCost
      enforceStamps := a.settings.enforceStamps
      screen := a.settings.screen
      telLocation := a.settings.telemetryLocation
      telEnvironment := a.settings.telemetryEnvironment
      telBattery := a.settings.telemetryBattery
      telCompass := a.settings.telemetryCompass
      telShareS := a.settings.telemetryShareS
      telRateS := a.settings.telemetryRateS }

/-- `handle_identity_settings`. -/
def handleIdentitySettings (auth : Except Refusal IdentityId) (body : Body) (now : ℕ)
    (d : Device) : Device × Except Refusal Settings :=
  match auth with
  | .error e => (d, .error e)
  | .ok caller =>
    match runStages (groups.map (apply caller body now)) d with
    | (d, some e) => (d, .error e)
    | (d, none) => (d, .ok (settings caller d))

/-! ### What a request changes -/

/-- The settings that a group stands for, with those that `LXMFMinimal` keeps. -/
abbrev Part : Group → Type
  | .announceInterval => ℕ
  | .persistOutboundAttachments => Bool
  | .stampCost => ℕ × ℕ
  | .enforceStamps => Bool × Bool
  | .screen => Bool
  | .telemetry => Bool × Bool × Bool × Bool × ℕ × ℕ
  | .displayName => Bytes

/-- The settings of an identity in RAM. -/
def part (a : LXMFIdentity) : (g : Group) → Part g
  | .announceInterval => a.settings.announceIntervalMs
  | .persistOutboundAttachments => a.settings.persistOutboundAttachments
  | .stampCost => (a.settings.stampCost, a.lxmfStampCost)
  | .enforceStamps => (a.settings.enforceStamps, a.lxmfEnforceStamps)
  | .screen => a.settings.screen
  | .telemetry =>
    (a.settings.telemetryLocation, a.settings.telemetryEnvironment, a.settings.telemetryBattery,
      a.settings.telemetryCompass, a.settings.telemetryShareS, a.settings.telemetryRateS)
  | .displayName => a.displayName

/-- The settings in the meta file of an identity. -/
def fileOf (files : Saved) : Option (Bytes × Gateway.Settings) :=
  files.metaJson.map fun m => (m.displayName, m.settings)

/-- No setting of any identity differs. -/
structure Unchanged (g g' : LXMFGateway) : Prop where
  ram : g'.slots.map (fun a => (a.id, part a)) = g.slots.map fun a => (a.id, part a)
  file : ∀ id, fileOf (g'.disk id) = fileOf (g.disk id)

/-- An error leaves every setting, and the identity code. -/
def AllOrNothing (auth : Except Refusal IdentityId) (body : Body) (now : ℕ) (d : Device) : Prop :=
  (∃ e, (handleIdentitySettings auth body now d).2 = .error e) →
    Unchanged d.gateway (handleIdentitySettings auth body now d).1.gateway ∧
    (handleIdentitySettings auth body now d).1.code = d.code

/-- What a request gives for a group, in place of what is set. -/
def Body.write (body : Body) : (g : Group) → Part g → Part g
  | .announceInterval, v => body.announceIntervalMs.elim v clampInterval
  | .persistOutboundAttachments, v => body.persistOutboundAttachments.getD v
  | .stampCost, v => body.stampCost.elim v fun cost => (cost.toNat, cost.toNat)
  | .enforceStamps, v => body.enforceStamps.elim v fun on => (on, on)
  | .screen, v => body.screen.getD v
  | .telemetry, v => body.telemetry.elim v fun t =>
    (t.location.getD v.1, t.environment.getD v.2.1, t.battery.getD v.2.2.1,
      t.compass.getD v.2.2.2.1, clampShare (t.shareS.getD v.2.2.2.2.1),
      clampRate (t.rateS.getD v.2.2.2.2.2))
  | .displayName, v => body.displayName.elim v fun n => (trim n).take 96

/-- A request has a group. -/
def Body.gives (body : Body) : Group → Bool
  | .announceInterval => body.announceIntervalMs.isSome
  | .persistOutboundAttachments => body.persistOutboundAttachments.isSome
  | .stampCost => body.stampCost.isSome
  | .enforceStamps => body.enforceStamps.isSome
  | .screen => body.screen.isSome
  | .telemetry => body.telemetry.isSome
  | .displayName => body.displayName.isSome

/-- The code that comes with a request is accepted. -/
def proves (d : Device) : Bool := (d.code.explain body.identityCode now).2.isNone

/-- A group is there and out of order: a cost out of range, an empty name, a screen without the
code, or that another identity holds, or any group of a caller that is not there. -/
def refuses (d : Device) (g : Group) : Bool :=
  body.gives g && ((d.identityById caller).isNone ||
    match g with
    | .stampCost => body.stampCost.any fun cost => cost < 0 ∨ 254 < cost
    | .screen => body.screen.any fun on =>
      (on && !proves body now d) || !Messenger.accepts caller on d.gateway
    | .displayName => body.displayName.any fun n => trim n = []
    | _ => false)

/-- The groups before the first that is out of order. -/
def before (d : Device) : List Group := groups.takeWhile fun g => !refuses caller body now d g

/-- A group gives what is set already, in RAM and in the meta file. -/
def Idle (d : Device) (g : Group) : Prop :=
  ∀ a ∈ d.identityById caller, body.write g (part a g) = part a g ∧
    fileOf (d.gateway.disk caller) = some (a.displayName, a.settings)

/-- A request that is out of order has only groups that change nothing before the one that is, and
no code is accepted on the way there. -/
def Sound (d : Device) : Prop :=
  (∃ g ∈ groups, refuses caller body now d g = true) →
    (∀ g ∈ before caller body now d, body.gives g = true → Idle caller body d g) ∧
    ¬ (body.screen = some true ∧ proves body now d = true ∧
      ∀ g ∈ groups.takeWhile (· ≠ .screen), refuses caller body now d g = false)

end URSupreme.IdentitySettings
