import URSupreme.Lib.Recent
import URSupreme.LXMF.Gateway
import URSupreme.LXMF.Prepare

/-!
# Inbound delivery

The inbound half of `LXMF/LXMFMinimal.h`: `_deliver_lxmf_payload`, the seen ring of
`_seen_delivery`, the queue of parked stamp validations with `tick_stamp_validations`, and the
delivery callback that `activate` of `LXMF/LXMFGateway.h` installs. A messenger is one `LXMFMinimal`
with the members of its identity slot that the callback uses; parked jobs point to it by slot.

Hashes, recalled identities and the stamp worker are outside: a message hash is `fullHash` of the
hashed bytes, and events bring along the signature check and the worker's answers. Beside the
state of the firmware a messenger keeps `recorded`, all hashes that ever entered its seen ring, and
`ran`, which of them its delivery callback ran for.
-/

namespace URSupreme.Inbound
open Lib MsgPack LXMF

def HEADER_LEN : Nat := HASH_LEN + SIG_LEN
def DELIVERED_DEDUP_MAX : Nat := 128
def PENDING_VALIDATION_MAX : Nat := 8
def DEFAULT_RAM_CAPACITY : Nat := 200

/-- What the inbound path asks of its surroundings. -/
structure Platform where
  fullHash : Bytes → Bytes
  /-- the recursion depth the stack has room for -/
  fuel : Nat
  /-- whether the attachment is written to the card or the flash -/
  persisted : FieldBlob → Bool

/-- The members of a `MessageRecord` that the inbound path fills in. -/
structure MessageRecord where
  ts : Option UInt64
  peerHash : Bytes
  title : Bytes
  content : Bytes
  signatureOk : Bool
  packetHash : Bytes
  stampChecked : Bool
  stampValid : Bool
  stampValue : Int
  attachments : List FieldBlob
  hasTelemetry : Bool
  telemetry : Bytes
  commands : Bytes
  customMeta : Bytes
  deriving DecidableEq, Repr

/-- A record in an inbox, with the address the message was received for. -/
structure Filed where
  address : Bytes
  record : MessageRecord
  deriving DecidableEq, Repr

/-- One run of the delivery callback: for which entry of `recorded`, and how many there were. -/
structure Ran where
  reception : Nat
  since : Nat
  deriving DecidableEq, Repr

/-- A messenger and its slot. -/
structure Messenger where
  active : Bool := false
  initialized : Bool := false
  destination : Bytes := []
  deliveredHashes : List Bytes := []
  stampCost : Nat := 0
  enforceStamps : Bool := false
  inbox : List Filed := []
  recorded : List Bytes := []
  ran : List Ran := []
  deriving DecidableEq, Repr

/-- `PendingStampValidation`, with the address and the entry of `recorded` it is about. -/
structure PendingStampValidation where
  owner : Nat
  wire : Bytes
  packetHash : Bytes
  hasDestPrefix : Bool
  sigOk : Bool
  messageHash : Bytes
  stamp : Bytes
  cost : Nat
  submitted : Bool := false
  address : Bytes
  reception : Nat
  deriving DecidableEq, Repr

/-- The messengers and the queue they share. -/
structure Messengers where
  slot : Nat → Messenger := fun _ => {}
  parked : List PendingStampValidation := []

/-- `JobResult` of a validation. -/
structure JobResult where
  ok : Bool
  valid : Bool
  value : Nat
  deriving DecidableEq, Repr

variable (P : Platform)

/-- The source hash and the payload behind the header. -/
def openWire (wire : Bytes) (hasDestPrefix : Bool) : Option (Bytes × Bytes) :=
  if hasDestPrefix ∧ wire.length < HASH_LEN then none
  else
    let raw := if hasDestPrefix then wire.drop HASH_LEN else wire
    if raw.length < HEADER_LEN + 5 then none else some (raw.take HASH_LEN, raw.drop HEADER_LEN)

/-- `_parse_lxmf_payload`, with a fault as the result false. -/
def parsePayload (payload : Bytes) : Option Parsed :=
  match parseLxmfPayload P.fuel payload with
  | .ok p => p
  | .error _ => none

/-- `_split_payload_stamp`, with a fault as the result false. -/
def splitStamp (payload : Bytes) : Option Split :=
  match splitPayloadStamp P.fuel payload with
  | .ok s => s
  | .error _ => none

/-- The message hash and the stamp of a payload that is well formed. -/
def readMessage (destination wire : Bytes) (hasDestPrefix : Bool) : Option (Bytes × Bytes) := do
  let (sourceHash, payload) ← openWire wire hasDestPrefix
  let _ ← parsePayload P payload
  let split ← splitStamp P payload
  some (P.fullHash (destination ++ sourceHash ++ hashedPayload payload split), split.stamp)

/-- `_seen_delivery`: `none` for a duplicate, else the messenger with the hash recorded. -/
def Messenger.seenDelivery (m : Messenger) (messageHash : Bytes) : Option Messenger :=
  if messageHash ∈ m.deliveredHashes then none
  else
    let ring := m.deliveredHashes ++ [messageHash]
    some { m with
      deliveredHashes := if ring.length > DELIVERED_DEDUP_MAX then ring.tail else ring
      recorded := m.recorded ++ [messageHash] }

/-- The loop of `meta_marks_message`. -/
def metaEntries (raw : Bytes) : Nat → Nat → Except Fault Bool
  | 0, _ => .ok false
  | n + 1, off => do
    if off < raw.length then
      let (key, off) ← readBinOrStr raw off
      if key = [] then .ok false
      -- urtn_msg
      else if key = [0x75, 0x72, 0x74, 0x6E, 0x5F, 0x6D, 0x73, 0x67] then .ok true
      else
        let (ok, off) ← skipElement P.fuel raw off
        if ok then metaEntries raw n off else .ok false
    else .ok false

/-- `meta_marks_message`. -/
def metaMarksMessage (raw : Bytes) : Except Fault Bool := do
  if raw.length = 0 then .ok false
  else
    let mt ← byteAt raw 0
    if mt &&& 0xF0 = 0x80 then metaEntries P raw (mt &&& 0x0F).toNat 1
    else if mt = 0xDE ∧ 2 < raw.length then metaEntries P raw (← u16 raw 1) 3
    else .ok false

/-- `machinery_only` of the delivery callback. -/
def machineryOnly (r : MessageRecord) : Bool :=
  r.content = [] && r.attachments = [] && (r.commands ≠ [] || r.hasTelemetry) &&
    metaMarksMessage P r.customMeta ≠ .ok true

/-- The delivery callback, on a message received for `address`. -/
def Messenger.onDelivery (m : Messenger) (address : Bytes) (r : MessageRecord) : Messenger :=
  if !m.active then m
  else if machineryOnly P r then m
  else
    let stored := { r with commands := [], customMeta := [] }
    { m with inbox := recent DEFAULT_RAM_CAPACITY (m.inbox ++ [⟨address, stored⟩]) }

/-- The record of `_complete_delivery`. -/
def deliveryRecord (wire packetHash : Bytes) (hasDestPrefix sigOk stampChecked stampValid : Bool)
    (stampValue : Int) : Option MessageRecord := do
  let (sourceHash, payload) ← openWire wire hasDestPrefix
  let p ← parsePayload P payload
  let telemetry := p.fields.telemetry
  some
    { ts := p.ts, peerHash := sourceHash, title := p.title, content := p.content
      signatureOk := sigOk, packetHash, stampChecked, stampValid, stampValue
      attachments := p.fields.fields.filter P.persisted
      hasTelemetry := telemetry ≠ []
      telemetry := if telemetry.length ≤ MAX_TELEMETRY_BLOB then telemetry else []
      commands := p.fields.commands
      customMeta := p.fields.customMeta }

/-- `_complete_delivery` of the message in a job. -/
def Messenger.completeDelivery (m : Messenger) (job : PendingStampValidation)
    (stampChecked stampValid : Bool) (stampValue : Int) : Messenger :=
  match deliveryRecord P job.wire job.packetHash job.hasDestPrefix job.sigOk stampChecked stampValid
    stampValue with
  | none => m
  | some r =>
    let m := m.onDelivery P job.address r
    { m with ran := m.ran ++ [⟨job.reception, m.recorded.length⟩] }

/-- A new state of one messenger. -/
def Messengers.put (s : Messengers) (k : Nat) (m : Messenger) : Messengers :=
  { s with slot := Function.update s.slot k m }

/-- What becomes of a message whose hash was just recorded. -/
inductive Verdict where
  | refuse
  | park
  | deliver (stampChecked : Bool)
  deriving DecidableEq, Repr

/-- The inbound stamp policy. -/
def Messenger.verdict (m : Messenger) (stamp : Bytes) (parked : Nat) : Verdict :=
  if m.stampCost ≥ 1 then
    if stamp = [] then (if m.enforceStamps then .refuse else .deliver true)
    else if parked ≥ PENDING_VALIDATION_MAX then
      (if m.enforceStamps then .refuse else .deliver false)
    else .park
  else .deliver false

/-- `_deliver_lxmf_payload`. -/
def deliverLxmfPayload (k : Nat) (wire packetHash : Bytes) (hasDestPrefix sigOk : Bool)
    (s : Messengers) : Messengers :=
  let m := s.slot k
  match readMessage P m.destination wire hasDestPrefix with
  | none => s
  | some (messageHash, stamp) =>
    match m.seenDelivery messageHash with
    | none => s
    | some m' =>
      let job : PendingStampValidation :=
        { owner := k, wire, packetHash, hasDestPrefix, sigOk, messageHash, stamp
          cost := m.stampCost, address := m.destination, reception := m.recorded.length }
      match m.verdict stamp s.parked.length with
      | .refuse => s.put k m'
      | .park => { s.put k m' with parked := s.parked ++ [job] }
      | .deliver checked => s.put k (m'.completeDelivery P job checked false (-1))

/-- The messenger `registry` has for a destination. -/
def Messengers.dispatch (s : Messengers) (destination : Bytes) : Option Nat :=
  (List.range Gateway.LXMF_GATEWAY_MAX_IDENTITIES).find? fun k =>
    (s.slot k).initialized && (s.slot k).destination = destination

/-- What `tick_stamp_validations` does with the answer of the worker: `none` for a drop. -/
def Messenger.scored (m : Messenger) (r : JobResult) : Option (Bool × Bool × Int) :=
  if !r.ok then (if m.enforceStamps then none else some (false, false, -1))
  else if !r.valid && m.enforceStamps then none
  else some (true, r.valid, if r.valid then (r.value : Int) else -1)

/-- `tick_stamp_validations`; `accepted` answers `submit_lxmf_value`, `result` answers
`take_result_if`. -/
def tickStampValidations (accepted : Bool) (result : Option JobResult) (s : Messengers) :
    Messengers :=
  match s.parked with
  | [] => s
  | f :: q =>
    let m := s.slot f.owner
    if !m.initialized then { s with parked := q }
    else if !f.submitted then { s with parked := { f with submitted := accepted } :: q }
    else
      match result with
      | none => s
      | some r =>
        match m.scored r with
        | none => { s with parked := q }
        | some (checked, valid, value) =>
          { s.put f.owner (m.completeDelivery P f checked valid value) with parked := q }

/-- `activate` of an identity with the given address in slot `k`. -/
def activate (k : Nat) (destination : Bytes) (stampCost : Nat) (enforceStamps : Bool)
    (s : Messengers) : Messengers :=
  s.put k { s.slot k with
    active := true, initialized := true, destination, stampCost, enforceStamps, inbox := [] }

/-- `delete_identity` of the identity in slot `k`. -/
def deleteIdentity (k : Nat) (s : Messengers) : Messengers :=
  s.put k { s.slot k with active := false, initialized := false, inbox := [] }

/-- What happens to the messengers. -/
inductive Event where
  | deliver (destination wire packetHash : Bytes) (hasDestPrefix sigOk : Bool)
  | tick (accepted : Bool) (result : Option JobResult)
  | setPolicy (k stampCost : Nat) (enforceStamps : Bool)
  | activate (k : Nat) (destination : Bytes) (stampCost : Nat) (enforceStamps : Bool)
  | delete (k : Nat)
  deriving DecidableEq, Repr

/-- One event. -/
def Messengers.step (s : Messengers) : Event → Messengers
  | .deliver destination wire packetHash hasDestPrefix sigOk =>
    match s.dispatch destination with
    | none => s
    | some k => deliverLxmfPayload P k wire packetHash hasDestPrefix sigOk s
  | .tick accepted result => tickStampValidations P accepted result s
  | .setPolicy k stampCost enforceStamps =>
    s.put k { s.slot k with stampCost, enforceStamps }
  | .activate k destination stampCost enforceStamps =>
    activate k destination stampCost enforceStamps s
  | .delete k => deleteIdentity k s

end URSupreme.Inbound
