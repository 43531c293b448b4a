import URSupreme.Lib.Bytes
import URSupreme.Lib.Slots

/-!
# Identity slots

The identity table of `LXMF/LXMFGateway.h`: `create_identity`, `delete_identity`, the per-identity
setters with `write_meta`, the ratchet ring of `LXMF/RatchetStore.h`, and
`load_existing_identities`. The slots are reused; what an identity persists is kept under its id.

Key pairs, salts and hashes are values the events bring along, and a written file reads back as
what was written. Beside the firmware's own state a slot's `log` keeps the calls that made the
identity in it what it is, and `selected` the ids that `set_screen_identity` chose.
-/

namespace URSupreme.Gateway
open Lib

def LXMF_GATEWAY_MAX_IDENTITIES : Nat := 4
def LXMF_DEFAULT_ANNOUNCE_INTERVAL_MS : Nat := 300000
def LXMF_RATCHET_RING_MAX : Nat := 16

/-- The first 16 hex digits of an identity hash. -/
abbrev IdentityId := Bytes

/-- What the gateway uses of an `RNS::Identity`: its hash, in hex, and its LXMF address. -/
structure RNSIdentity where
  hexhash : Bytes
  address : Bytes
  deriving DecidableEq, Repr

/-- `id_hex.substr(0, 16)`. -/
def RNSIdentity.id (i : RNSIdentity) : IdentityId := i.hexhash.take 16

inductive RetentionKind where
  | none
  | time
  | count
  deriving DecidableEq, Repr

structure Retention where
  kind : RetentionKind := .none
  value : Nat := 0
  deriving DecidableEq, Repr

/-- `RatchetStore::Entry`. -/
structure RatchetEntry where
  createdMs : Nat
  privkey : Bytes
  pubkey : Bytes
  deriving DecidableEq, Repr

/-- The members of `LXMFIdentity` that `write_meta` persists besides name and password. -/
structure Settings where
  announceIntervalMs : Nat := LXMF_DEFAULT_ANNOUNCE_INTERVAL_MS
  persistOutboundAttachments : Bool := true
  stampCost : Nat := 0
  enforceStamps : Bool := false
  telemetryLocation : Bool := true
  telemetryEnvironment : Bool := false
  telemetryBattery : Bool := false
  telemetryCompass : Bool := false
  telemetryShareS : Nat := 0
  telemetryRateS : Nat := 60
  screen : Bool := false
  deriving DecidableEq, Repr

/-- `meta.json`. -/
structure MetaFile where
  displayName : Bytes
  createdMs : Nat
  settings : Settings
  passwordHash : Bytes
  passwordSalt : Bytes
  deriving DecidableEq, Repr

/-- The files of one identity. -/
structure Saved where
  identityDat : Option RNSIdentity := none
  metaJson : Option MetaFile := none
  ratchetDat : Option (List RatchetEntry) := none
  conversationConfig : Option (List (Bytes × Retention)) := none
  deriving DecidableEq, Repr

/-- The setters of one member, or of the telemetry defaults. -/
inductive Setter where
  | announceInterval (intervalMs : Nat)
  | persistOutboundAttachments (on : Bool)
  | stampCost (cost : Nat)
  | enforceStamps (on : Bool)
  | telemetryDefaults (location environment battery compass : Bool) (shareS rateS : Nat)
  | displayName (name : Bytes)
  deriving DecidableEq, Repr

/-- The calls that make an identity what it is. -/
inductive Call where
  | create (identity : RNSIdentity) (displayName salt hash : Bytes) (inboxDefault : Retention)
    (now : Nat)
  | set (s : Setter) (now : Nat)
  | screen (enable : Bool) (now : Nat)
  | peerRetention (peer : Bytes) (r : Option Retention)
  | defaultRetention (r : Retention)
  | rotate (e : RatchetEntry)
  deriving DecidableEq, Repr

/-- `LXMFIdentity`. Its inbox and outbox hold the same retention settings. -/
structure LXMFIdentity where
  id : IdentityId := []
  displayName : Bytes := []
  identity : Option RNSIdentity := none
  /-- the members `init`, `set_stamp_cost` and `set_enforce_stamps` set in `LXMFMinimal` -/
  address : Bytes := []
  lxmfStampCost : Nat := 0
  lxmfEnforceStamps : Bool := false
  defaultRetention : Retention := {}
  peerRetention : List (Bytes × Retention) := []
  lastAnnounceMs : Nat := 0
  settings : Settings := {}
  active : Bool := false
  passwordHash : Bytes := []
  passwordSalt : Bytes := []
  ratchets : List RatchetEntry := []
  /-- the calls since the identity was created, unless it was loaded from its files -/
  log : Option (List Call) := none
  deriving DecidableEq, Repr

/-- `write_meta`. -/
def writeMeta (a : LXMFIdentity) (now : Nat) (files : Saved) : Saved :=
  let saved : MetaFile :=
    { displayName := a.displayName, createdMs := now % 2 ^ 32, settings := a.settings
      passwordHash := a.passwordHash, passwordSalt := a.passwordSalt }
  { files with metaJson := some saved }

/-- `read_meta`. -/
def readMeta (a : LXMFIdentity) (files : Saved) : LXMFIdentity :=
  match files.metaJson with
  | none => a
  | some m =>
    { a with
      displayName := m.displayName
      settings := { m.settings with
        stampCost :=
          if 1 ≤ m.settings.stampCost ∧ m.settings.stampCost ≤ 254 then m.settings.stampCost
          else 0 }
      passwordHash := if m.passwordHash = [] then a.passwordHash else m.passwordHash
      passwordSalt := if m.passwordSalt = [] then a.passwordSalt else m.passwordSalt }

/-- `activate`: fresh mailboxes with the saved overrides, and `LXMFMinimal` set up. -/
def activate (inboxDefault : Retention) (files : Saved) (a : LXMFIdentity) : LXMFIdentity :=
  { a with
    active := true
    defaultRetention := inboxDefault
    peerRetention := files.conversationConfig.getD []
    address := (a.identity.map (·.address)).getD []
    lxmfStampCost := a.settings.stampCost
    lxmfEnforceStamps := a.settings.enforceStamps
    lastAnnounceMs := 0 }

/-- What a setter does to the slot. -/
def LXMFIdentity.set (now : Nat) (a : LXMFIdentity) : Setter → LXMFIdentity
  | .announceInterval ms =>
    { a with settings := { a.settings with announceIntervalMs := ms }, lastAnnounceMs := now }
  | .persistOutboundAttachments on =>
    { a with settings := { a.settings with persistOutboundAttachments := on } }
  | .stampCost cost =>
    let cost := if 1 ≤ cost ∧ cost ≤ 254 then cost else 0
    { a with settings := { a.settings with stampCost := cost }, lxmfStampCost := cost }
  | .enforceStamps on =>
    { a with settings := { a.settings with enforceStamps := on }, lxmfEnforceStamps := on }
  | .telemetryDefaults location environment battery compass shareS rateS =>
    { a with settings := { a.settings with
        telemetryLocation := location, telemetryEnvironment := environment
        telemetryBattery := battery, telemetryCompass := compass
        telemetryShareS := shareS, telemetryRateS := rateS } }
  | .displayName name => { a with displayName := name }

/-- `set_peer_retention` or `clear_peer_retention`. -/
def setPeerRetention (overrides : List (Bytes × Retention)) (peer : Bytes) :
    Option Retention → List (Bytes × Retention)
  | none => overrides.filter (·.1 ≠ peer)
  | some r => overrides.filter (·.1 ≠ peer) ++ [(peer, r)]

/-- `rotate`, with the key pair it generated. -/
def RatchetStore.rotate (ring : List RatchetEntry) (e : RatchetEntry) : List RatchetEntry :=
  (ring ++ [e]).drop ((ring ++ [e]).length - LXMF_RATCHET_RING_MAX)

/-- A call on the identity in a slot, with its files. -/
def Call.run : Call → LXMFIdentity × Saved → LXMFIdentity × Saved
  | .create identity displayName salt hash inboxDefault now, (a, files) =>
    let a := { a with id := identity.id, displayName, identity := some identity
                      passwordSalt := salt, passwordHash := hash }
    let files := writeMeta a now { files with identityDat := some identity }
    (activate inboxDefault files a, files)
  | .set s now, (a, files) =>
    let a := a.set now s
    (a, writeMeta a now files)
  | .screen enable now, (a, files) =>
    let a := { a with settings := { a.settings with screen := enable } }
    (a, writeMeta a now files)
  | .peerRetention peer r, (a, files) =>
    let a := { a with peerRetention := setPeerRetention a.peerRetention peer r }
    (a, { files with conversationConfig := some a.peerRetention })
  | .defaultRetention r, (a, files) => ({ a with defaultRetention := r }, files)
  | .rotate e, (a, files) =>
    let a := { a with ratchets := RatchetStore.rotate a.ratchets e }
    (a, { files with ratchetDat := some a.ratchets })

/-- The gateway: its slots and the files under `/lxmf/identities`. -/
structure LXMFGateway where
  setupDone : Bool := false
  slots : List LXMFIdentity := List.replicate LXMF_GATEWAY_MAX_IDENTITIES {}
  inboxDefault : Retention := {}
  disk : IdentityId → Saved := fun _ => {}
  /-- the ids `set_screen_identity` chose and nothing has cleared since -/
  selected : IdentityId → Bool := fun _ => false

/-- `first_free_slot`. -/
def isFree (a : LXMFIdentity) : Bool := !a.active

/-- `identity_by_id_mut`. -/
def isCalled (id : IdentityId) (a : LXMFIdentity) : Bool := id ≠ [] && (a.active && a.id = id)

lemma isCalled_iff {id : IdentityId} {a : LXMFIdentity} :
    isCalled id a = true ↔ id ≠ [] ∧ a.active = true ∧ a.id = id := by
  simp only [isCalled, Bool.and_eq_true, decide_eq_true_eq]

/-- A call on the first slot `p` holds of, noted in its log. -/
def callOn (p : LXMFIdentity → Bool) (c : Call) (g : LXMFGateway) : LXMFGateway :=
  match g.slots.find? p with
  | none => g
  | some a =>
    let r := c.run (a, g.disk a.id)
    { g with
      slots := modifyFirst p (fun _ => { r.1 with log := a.log.map (· ++ [c]) }) g.slots
      disk := Function.update g.disk a.id r.2 }

/-- `create_identity`; `stored` is the result of `to_file`. -/
def createIdentity (identity : RNSIdentity) (displayName salt hash : Bytes) (stored : Bool)
    (now : Nat) (g : LXMFGateway) : LXMFGateway :=
  if g.setupDone = false ∨ identity.hexhash = [] then g
  else
    match g.slots.find? isFree with
    | none => g
    | some a =>
      if stored then
        let c := Call.create identity displayName salt hash g.inboxDefault now
        let r := c.run (a, g.disk identity.id)
        { g with
          slots := modifyFirst isFree (fun _ => { r.1 with log := some [c] }) g.slots
          disk := Function.update g.disk identity.id r.2 }
      else
        { g with slots := modifyFirst isFree (fun a =>
            { a with id := identity.id, displayName, identity := some identity
                     passwordSalt := salt, passwordHash := hash, active := false }) g.slots }

/-- `delete_identity`. -/
def deleteIdentity (id : IdentityId) (g : LXMFGateway) : LXMFGateway :=
  match g.slots.find? (isCalled id) with
  | none => g
  | some _ =>
    { g with
      slots := modifyFirst (isCalled id) (fun a =>
        { a with identity := none, id := [], displayName := [], active := false }) g.slots
      disk := Function.update g.disk id
        { g.disk id with identityDat := none, metaJson := none }
      selected := Function.update g.selected id false }

/-- `screen_identity`. -/
def screenIdentity (g : LXMFGateway) : Option LXMFIdentity :=
  g.slots.find? fun a => a.active && a.settings.screen

/-- `set_screen_identity`. -/
def setScreenIdentity (id : IdentityId) (enable : Bool) (now : Nat) (g : LXMFGateway) :
    LXMFGateway :=
  let chosen := { callOn (isCalled id) (.screen enable now) g with
    selected := Function.update g.selected id enable }
  match g.slots.find? (isCalled id) with
  | none => g
  | some _ =>
    if enable then
      match screenIdentity g with
      | some holder => if holder.id ≠ id then g else chosen
      | none => chosen
    else chosen

/-- `LXMF Identity`. -/
def defaultDisplayName : Bytes :=
  [0x4C, 0x58, 0x4D, 0x46, 0x20, 0x49, 0x64, 0x65, 0x6E, 0x74, 0x69, 0x74, 0x79]

/-- One entry of the loop of `load_existing_identities`: the slots and the number loaded so far.
`loads` tells whether the entry is a directory whose `identity.dat` can be read. -/
def loadEntry (g : LXMFGateway) (loads : IdentityId → Bool) (s : List LXMFIdentity × Nat)
    (entry : IdentityId) : List LXMFIdentity × Nat :=
  if s.2 ≥ LXMF_GATEWAY_MAX_IDENTITIES then s
  else
    match s.1.find? isFree, (g.disk entry).identityDat with
    | some _, some identity =>
      if loads entry then
        (modifyFirst isFree (fun a =>
          let a := { a with id := entry, identity := some identity
                            displayName := defaultDisplayName }
          activate g.inboxDefault (g.disk entry)
            { readMeta a (g.disk entry) with
              ratchets := (g.disk entry).ratchetDat.getD [] }) s.1, s.2 + 1)
      else s
    | _, _ => s

/-- The slots after the loop of `load_existing_identities`. -/
def loadEntries (g : LXMFGateway) (loads : IdentityId → Bool) (entries : List IdentityId) :
    List LXMFIdentity :=
  (entries.foldl (loadEntry g loads) (List.replicate LXMF_GATEWAY_MAX_IDENTITIES {}, 0)).1

/-- A duplicate screen flag is cleared. -/
def LXMFIdentity.hide (a : LXMFIdentity) : LXMFIdentity :=
  { a with settings := { a.settings with screen := false } }

/-- Its `meta.json` is written again. -/
def saveHidden (a : LXMFIdentity) (now : Nat) (g : LXMFGateway) : LXMFGateway :=
  { g with
    disk := Function.update g.disk a.id (writeMeta a.hide now (g.disk a.id))
    selected := Function.update g.selected a.id false }

/-- The pass over the slots that keeps the first screen flag and clears the others. -/
def dedupe (now : Nat) : Bool → List LXMFIdentity → LXMFGateway → List LXMFIdentity × LXMFGateway
  | _, [], g => ([], g)
  | held, a :: rest, g =>
    if a.active && a.settings.screen then
      if held then
        let r := dedupe now held rest (saveHidden a now g)
        (a.hide :: r.1, r.2)
      else
        let r := dedupe now true rest g
        (a :: r.1, r.2)
    else
      let r := dedupe now held rest g
      (a :: r.1, r.2)

/-- A reboot: fresh memory, then `setup`. -/
def boot (entries : List IdentityId) (loads : IdentityId → Bool) (now : Nat) (g : LXMFGateway) :
    LXMFGateway :=
  let r := dedupe now false (loadEntries g loads entries) g
  { r.2 with slots := r.1, setupDone := true }

/-- The gateway before `setup`, over whatever is on the disk. -/
def powerOn (inboxDefault : Retention) (disk : IdentityId → Saved) : LXMFGateway :=
  { inboxDefault, disk }

/-- What happens to the gateway. -/
inductive Event where
  | create (identity : RNSIdentity) (displayName salt hash : Bytes) (stored : Bool) (now : Nat)
  | delete (id : IdentityId)
  | set (id : IdentityId) (s : Setter) (now : Nat)
  | setScreen (id : IdentityId) (enable : Bool) (now : Nat)
  | peerRetention (id : IdentityId) (peer : Bytes) (r : Option Retention)
  | defaultRetention (r : Retention)
  | rotate (address : Bytes) (e : RatchetEntry)
  | boot (entries : List IdentityId) (loads : IdentityId → Bool) (now : Nat)

/-- `apply_inbox_config_to_all` on one slot. -/
def LXMFIdentity.applyInboxConfig (r : Retention) (a : LXMFIdentity) : LXMFIdentity :=
  if a.active then { a with defaultRetention := r, log := a.log.map (· ++ [.defaultRetention r]) }
  else a

/-- `apply_inbox_config_to_all`. -/
def applyInboxConfigToAll (r : Retention) (g : LXMFGateway) : LXMFGateway :=
  { g with inboxDefault := r, slots := g.slots.map (·.applyInboxConfig r) }

/-- One event. -/
def LXMFGateway.step (g : LXMFGateway) : Event → LXMFGateway
  | .create identity displayName salt hash stored now =>
    createIdentity identity displayName salt hash stored now g
  | .delete id => deleteIdentity id g
  | .set id s now => callOn (isCalled id) (.set s now) g
  | .setScreen id enable now => setScreenIdentity id enable now g
  | .peerRetention id peer r => callOn (isCalled id) (.peerRetention peer r) g
  | .defaultRetention r => applyInboxConfigToAll r g
  | .rotate address e => callOn (fun a => a.active && a.address = address) (.rotate e) g
  | .boot entries loads now => boot entries loads now g

/-- The generated identity is new: no slot holds it and it has no files. -/
def Fresh (g : LXMFGateway) (id : IdentityId) : Prop :=
  (∀ a ∈ g.slots, a.active = true → a.id ≠ id) ∧ g.disk id = {}

/-- What the gateway is promised: generated identities are new, a directory lists no entry twice. -/
def Event.Sound (g : LXMFGateway) : Event → Prop
  | .create identity _ _ _ _ _ => Fresh g identity.id
  | .boot entries _ _ => entries.Nodup
  | _ => True

instance {g : LXMFGateway} : ∀ e : Event, Decidable (e.Sound g)
  | .create .. => inferInstanceAs (Decidable (_ ∧ _))
  | .boot .. => inferInstanceAs (Decidable (List.Nodup _))
  | .delete .. | .set .. | .setScreen .. | .peerRetention .. | .defaultRetention .. | .rotate .. =>
    .isTrue trivial

end URSupreme.Gateway
