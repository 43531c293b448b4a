import URSupreme.LXMF.GatewayBoot

/-!
# Messenger presets

The presets of `LXMF/Messenger.h` over the identity slots: `on_screen_identity_changed`,
`replace_presets`, `persist`, `send_selected`, and the requests of `Web/WebUI/messenger.h`. A
written file reads back as what was written. The pages of the screen are left out: a send may come
at any time.

Beside the firmware's own state a preset keeps the identity that stored it, and `shown` who was
given which preset, or sent it.
-/

namespace URSupreme.Messenger
open Lib Gateway

abbrev Path := Bytes

def MAX_PRESETS : Nat := 8
def MAX_LABEL_LEN : Nat := 24
def MAX_CONTENT_LEN : Nat := 200

structure Preset where
  /-- the identity that stored it -/
  owner : IdentityId
  label : Bytes
  destHex : Bytes := []
  content : Bytes
  telLocation : Bool := false
  telEnvironment : Bool := false
  telBattery : Bool := false
  telCompass : Bool := false
  telShareS : Nat := 0
  telRateS : Nat := 60
  deriving DecidableEq, Repr

def Preset.complete (p : Preset) : Bool := p.destHex.length = 32

/-- `dir()` of an identity, with `PRESETS_FILENAME`. -/
def presetsPath (id : IdentityId) : Path :=
  [0x2F, 0x6C, 0x78, 0x6D, 0x66, 0x2F, 0x69, 0x64, 0x65, 0x6E, 0x74, 0x69, 0x74, 0x69, 0x65, 0x73,
  0x2F] ++ id ++ [0x2F, 0x6D, 0x65, 0x73, 0x73, 0x65, 0x6E, 0x67, 0x65, 0x72, 0x2E, 0x6A, 0x73,
  0x6F, 0x6E]

/-- The gateway, the preset files, and the messenger. -/
structure Device where
  gateway : LXMFGateway
  files : Path → Option (List Preset) := fun _ => none
  storePath : Path := []
  presets : List Preset := []
  cursor : Nat := 0
  /-- who was given which preset, or sent it -/
  shown : List (IdentityId × Preset) := []

/-- `complete_indices_locked`, as the presets themselves. -/
def Device.usable (s : Device) : List Preset := s.presets.filter (·.complete)

/-- `replace_presets`. -/
def replacePresets (next : List Preset) (s : Device) : Device :=
  let s := { s with presets := next }
  { s with cursor := if s.cursor ≥ s.usable.length then 0 else s.cursor }

def persist (s : Device) : Device :=
  if s.storePath = [] then s
  else { s with files := Function.update s.files s.storePath (some s.presets) }

/-- Label and text of the starter messages. -/
def templates : List (Bytes × Bytes) :=
  [([0x4F, 0x4B], [0x41, 0x6C, 0x6C, 0x20, 0x67, 0x6F, 0x6F, 0x64, 0x20, 0x68, 0x65, 0x72, 0x65,
  0x2E]), ([0x4F, 0x6E, 0x20, 0x6D, 0x79, 0x20, 0x77, 0x61, 0x79],
      [0x4F, 0x6E, 0x20, 0x6D, 0x79, 0x20, 0x77, 0x61, 0x79, 0x2E]),
    ([0x4E, 0x65, 0x65, 0x64, 0x20, 0x70, 0x69, 0x63, 0x6B, 0x75, 0x70],
      [0x50, 0x6C, 0x65, 0x61, 0x73, 0x65, 0x20, 0x63, 0x6F, 0x6D, 0x65, 0x20, 0x67, 0x65, 0x74,
      0x20, 0x6D, 0x65, 0x2E])]

/-- `default_templates`; the last one sends the position along. -/
def defaultTemplates (owner : IdentityId) : List Preset :=
  templates.mapIdx fun i t => { owner, label := t.1, content := t.2, telLocation := i = 2 }

/-- One entry of the file. -/
def readPreset (p : Preset) : Option Preset :=
  let label := p.label.take MAX_LABEL_LEN
  let content := p.content.take MAX_CONTENT_LEN
  if label = [] ∨ content = [] then none
  else
    some { p with
      label, content
      destHex := if p.destHex ≠ [] ∧ p.destHex.length ≠ 32 then [] else p.destHex }

/-- The presets of a file. -/
def readPresets (file : List Preset) : List Preset := (file.filterMap readPreset).take MAX_PRESETS

/-- `on_screen_identity_changed`, with the identity whose directory it is given. -/
def onScreenIdentityChanged (enabled : Bool) (id : IdentityId) (s : Device) : Device :=
  if enabled then
    let path := presetsPath id
    match s.files path with
    | some file => { s with storePath := path, presets := readPresets file, cursor := 0 }
    | none => persist { s with storePath := path, presets := defaultTemplates id, cursor := 0 }
  else
    { s with
      files := if s.storePath = [] then s.files else Function.update s.files s.storePath none
      storePath := [], presets := [], cursor := 0 }

/-- `set_screen_identity` returns true. -/
def accepts (id : IdentityId) (enable : Bool) (g : LXMFGateway) : Bool :=
  (g.slots.find? (isCalled id)).isSome && (!enable || (screenIdentity g).all (·.id = id))

/-- `set_screen_identity`. -/
def Device.setScreen (id : IdentityId) (enable : Bool) (now : Nat) (s : Device) : Device :=
  let changed := { s with gateway := setScreenIdentity id enable now s.gateway }
  if accepts id enable s.gateway then onScreenIdentityChanged enable id changed else changed

/-- A reboot, the end of `load_existing_identities` included. -/
def Device.boot (entries : List IdentityId) (loads : IdentityId → Bool) (now : Nat) (s : Device) :
    Device :=
  let s := { s with
    gateway := Gateway.boot entries loads now s.gateway
    storePath := [], presets := [], cursor := 0 }
  match screenIdentity s.gateway with
  | some holder => onScreenIdentityChanged true holder.id s
  | none => s

/-- An answer of the presets handlers. -/
inductive Reply where
  | unauthorized
  | refused (status : Nat) (code : String)
  | presets (ps : List Preset)
  deriving DecidableEq, Repr

/-- The refusal of `messenger_presets_allowed`; `caller` is empty where `require_auth` fails. -/
def refusal (caller : IdentityId) (g : LXMFGateway) : Option Reply :=
  if caller = [] then some .unauthorized
  else
    match screenIdentity g with
    | none => some (.refused 409 "no_screen_identity")
    | some scr => if scr.id ≠ caller then some (.refused 403 "screen_identity_only") else none

/-- `fill_messenger_presets`. -/
def Device.fill (caller : IdentityId) (s : Device) : Device × Reply :=
  ({ s with shown := s.shown ++ s.presets.map (caller, ·) }, .presets s.presets)

/-- `handle_messenger_presets_get`. -/
def Device.getPresets (caller : IdentityId) (s : Device) : Device × Reply :=
  match refusal caller s.gateway with
  | some r => (s, r)
  | none => s.fill caller

/-- One element of the `presets` array of a request. -/
structure PresetBody where
  label : Bytes := []
  dest : Bytes := []
  content : Bytes := []
  /-- location, environment, battery, compass, `share_s` and `rate_s` -/
  telemetry : Option (Bool × Bool × Bool × Bool × Nat × Nat) := none
  deriving DecidableEq, Repr

def isHex (c : UInt8) : Bool :=
  (0x30 ≤ c ∧ c ≤ 0x39) ∨ (0x61 ≤ c ∧ c ≤ 0x66) ∨ (0x41 ≤ c ∧ c ≤ 0x46)

/-- The preset of one element. -/
def PresetBody.preset (caller : IdentityId) (b : PresetBody) : Preset :=
  let p : Preset := { owner := caller, label := b.label, destHex := b.dest, content := b.content }
  match b.telemetry with
  | none => p
  | some (location, environment, battery, compass, shareS, rateS) =>
    { p with
      telLocation := location, telEnvironment := environment
      telBattery := battery, telCompass := compass
      telShareS := min shareS (24 * 3600), telRateS := min (max rateS 15) 3600 }

/-- One round of the loop of `handle_messenger_presets_post`. -/
def PresetBody.parse (caller : IdentityId) (b : PresetBody) : Except String Preset :=
  let p := b.preset caller
  if p.label = [] ∨ p.label.length > MAX_LABEL_LEN then .error "bad_label"
  else if p.destHex ≠ [] ∧ (p.destHex.length ≠ 32 ∨ p.destHex.all isHex = false) then
    .error "bad_dest"
  else if p.content = [] ∨ p.content.length > MAX_CONTENT_LEN then .error "bad_content"
  else .ok p

/-- The loop. -/
def parseAll (caller : IdentityId) : List PresetBody → Except String (List Preset)
  | [] => .ok []
  | b :: rest =>
    match b.parse caller with
    | .error code => .error code
    | .ok p => (parseAll caller rest).map (p :: ·)

/-- `handle_messenger_presets_post`. -/
def Device.postPresets (caller : IdentityId) (body : Option (List PresetBody)) (s : Device) :
    Device × Reply :=
  match refusal caller s.gateway with
  | some r => (s, r)
  | none =>
    match body with
    | none => (s, .refused 400 "missing_presets")
    | some arr =>
      if arr.length > MAX_PRESETS then (s, .refused 400 "too_many_presets")
      else
        match parseAll caller arr with
        | .error code => (s, .refused 400 code)
        | .ok next => (persist (replacePresets next s)).fill caller

/-- `plugin_next` on the list. -/
def Device.next (s : Device) : Device :=
  if s.usable = [] then s else { s with cursor := (s.cursor + 1) % s.usable.length }

/-- `send_selected`, as far as the message it makes: its sender, and the preset with recipient, text
and telemetry. -/
def Device.sendSelected (s : Device) : Device :=
  match s.usable[s.cursor]?, screenIdentity s.gateway with
  | some p, some a => { s with shown := s.shown ++ [(a.id, p)] }
  | _, _ => s

/-- What happens to the device. -/
inductive Event where
  | gateway (e : Gateway.Event)
  | getPresets (caller : IdentityId)
  | postPresets (caller : IdentityId) (body : Option (List PresetBody))
  | next
  | sendSelected

/-- One event. -/
def Device.step (s : Device) : Event → Device
  | .gateway (.setScreen id enable now) => s.setScreen id enable now
  | .gateway (.boot entries loads now) => s.boot entries loads now
  | .gateway e => { s with gateway := s.gateway.step e }
  | .getPresets caller => (s.getPresets caller).1
  | .postPresets caller body => (s.postPresets caller body).1
  | .next => s.next
  | .sendSelected => s.sendSelected

/-- The identity a call is issued for. -/
def Event.issuer : Event → Option IdentityId
  | .gateway (.create identity ..) => some identity.id
  | .gateway (.delete id) | .gateway (.set id ..) | .gateway (.setScreen id ..)
  | .gateway (.peerRetention id ..) => some id
  | .getPresets caller | .postPresets caller _ => some caller
  | _ => none

/-- A factory-new device. -/
def powerOn (inboxDefault : Retention) : Device :=
  { gateway := Gateway.powerOn inboxDefault fun _ => {} }

end URSupreme.Messenger
