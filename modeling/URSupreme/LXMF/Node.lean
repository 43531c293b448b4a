import Mathlib
import URSupreme.LXMF.TelemetryShare

/-!
# What messages do to a node

The messengers of `LXMF/LXMFMinimal.h` together with what the messages they receive act on: the
clock, through `calibrate_time`, and the tables of `LXMF/TelemetryShare.h`, through the delivery
callback that `activate` of `LXMF/LXMFGateway.h` installs. `owner` is the identity of each slot, and
`sent` collects what the tick of the telemetry shares sends.

Beside the state of the firmware a node keeps `verified`, the rings of hashes that the seen rings of
the messengers would be if messages with a bad signature had not been received.
-/

namespace URSupreme.Trust
open Lib LXMF Inbound
open Gateway (IdentityId)

/-- What a node asks of its surroundings. -/
structure Platform extends Inbound.Platform where
  compileTimeEpoch : Int
  /-- the bits of the double that is an epoch -/
  double : Int → UInt64

/-- The time of a reception, and whether the file of a GPX track was appended to or created. -/
structure Reception where
  millis : Nat
  appends : Bool
  created : Bool
  deriving DecidableEq, Repr

/-- The messengers of a node and what their messages act on. -/
structure Node where
  messengers : Messengers := {}
  owner : Nat → IdentityId := fun _ => []
  clock : Clock.Manager := {}
  shares : Share.Tables := {}
  sent : List Share.Outgoing := []
  verified : Nat → List Bytes := fun _ => []

/-- What happens to a node. -/
inductive Event where
  | deliver (destination wire packetHash : Bytes) (hasDestPrefix sigOk : Bool) (env : Reception)
  | stampTick (accepted : Bool) (result : Option JobResult) (env : Reception)
  | setPolicy (k stampCost : Nat) (enforceStamps : Bool)
  | activate (k : Nat) (iden : IdentityId) (destination : Bytes) (stampCost : Nat)
    (enforceStamps : Bool)
  | delete (k : Nat)
  | setSource (source : Clock.Source) (config : Clock.SourceConfig)
  | seedFromRtc (epoch : UInt64) (millis : Nat)
  | reportTime (source : Clock.Source) (epoch : UInt64) (millis : Nat)
  | recordGrant (iden : IdentityId) (peer : Bytes) (items : UInt8) (shareS millis : Nat)
  | removeGrant (iden : IdentityId) (peer : Bytes)
  | removeFeed (iden : IdentityId) (peer : Bytes)
  | tick (millis : Nat) (pack : Int → IdentityId → UInt8 → Bytes)

variable (P : Platform)

/-- `now_epoch` of `LXMF/TelemetryShare.h`. -/
def Node.epoch (s : Node) (millis : Nat) (iden : IdentityId) : Int :=
  if (List.range Gateway.LXMF_GATEWAY_MAX_IDENTITIES).any
      fun k => (s.messengers.slot k).active && s.owner k = iden then
    s.clock.getTimestamp P.compileTimeEpoch millis
  else 0

/-- The timestamp that `_deliver_lxmf_payload` calibrates the clock with. -/
def timestamp (wire : Bytes) (hasDestPrefix : Bool) : Option UInt64 := do
  let (_, payload) ← openWire wire hasDestPrefix
  let p ← parsePayload P.toPlatform payload
  p.ts

/-- The messenger and the record that an event of the messengers runs the delivery callback with. -/
def delivered (s : Messengers) : Inbound.Event → Option (Nat × MessageRecord)
  | .deliver destination wire packetHash hasDestPrefix sigOk => do
    let k ← s.dispatch destination
    let m := s.slot k
    let (messageHash, stamp) ← readMessage P.toPlatform m.destination wire hasDestPrefix
    let _ ← m.seenDelivery messageHash
    match m.verdict stamp s.parked.length with
    | .refuse | .park => none
    | .deliver checked =>
      let r ← deliveryRecord P.toPlatform wire packetHash hasDestPrefix sigOk checked false (-1)
      some (k, r)
  | .tick _ result => do
    let f ← s.parked.head?
    let m := s.slot f.owner
    if !m.initialized || !f.submitted then none
    else
      let (checked, valid, value) ← m.scored (← result)
      let r ← deliveryRecord P.toPlatform f.wire f.packetHash f.hasDestPrefix f.sigOk checked valid
        value
      some (f.owner, r)
  | .setPolicy .. | .activate .. | .delete .. => none

/-- The part of the delivery callback that acts on the tables of shares. -/
def Node.act (s : Node) (k : Nat) (r : MessageRecord) (env : Reception) : Share.Tables :=
  if !(s.messengers.slot k).active then s.shares
  else
    let iden := s.owner k
    let epoch := s.epoch P env.millis iden
    let location := Share.locationFromBlob P.fuel r.telemetry
    let t := s.shares.onCommands iden r.peerHash (Share.requestsTelemetry P.fuel r.commands) epoch
    let t := t.onLiveOffer iden r.peerHash (Share.liveOffer P.fuel r.customMeta) epoch env.millis
    let t := if r.telemetry = [] then t
      else t.onTelemetry iden r.peerHash r.telemetry location env.appends env.millis
    if !machineryOnly P.toPlatform r && r.hasTelemetry && (t.findFeed iden r.peerHash).isSome then
      match location with
      | some (lat, lon) => if env.created then t.setFeedGpx iden r.peerHash lat lon else t
      | none => t
    else t

/-- An event of the messengers, with the callback it runs. -/
def Node.receive (s : Node) (e : Inbound.Event) (env : Reception) : Node :=
  { s with
    messengers := s.messengers.step P.toPlatform e
    shares := match delivered P s.messengers e with
      | some (k, r) => s.act P k r env
      | none => s.shares }

/-- The ring of a messenger after a hash is recorded. -/
def pushSeen (ring : List Bytes) (messageHash : Bytes) : List Bytes :=
  let ring := ring ++ [messageHash]
  if ring.length > DELIVERED_DEDUP_MAX then ring.tail else ring

/-- The rings after a message with a good signature. -/
def Node.hear (s : Node) (destination wire : Bytes) (hasDestPrefix : Bool) : Nat → List Bytes :=
  match s.messengers.dispatch destination with
  | none => s.verified
  | some k =>
    match readMessage P.toPlatform (s.messengers.slot k).destination wire hasDestPrefix with
    | none => s.verified
    | some (messageHash, _) =>
      if messageHash ∈ (s.messengers.slot k).deliveredHashes then s.verified
      else Function.update s.verified k (pushSeen (s.verified k) messageHash)

/-- The clock after `calibrate_time` with the timestamp of a message. -/
def Node.calibrate (s : Node) (destination wire : Bytes) (hasDestPrefix : Bool) (millis : Nat) :
    Clock.Manager :=
  if (s.messengers.dispatch destination).isSome then
    match timestamp P wire hasDestPrefix with
    | some ts => s.clock.calibrateTime ts millis
    | none => s.clock
  else s.clock

/-- One event. The clock is calibrated before the signature is looked at. -/
def Node.step (s : Node) : Event → Node
  | .deliver destination wire packetHash hasDestPrefix sigOk env =>
    let verified := if sigOk then s.hear P destination wire hasDestPrefix else s.verified
    { s with
      verified, clock := s.calibrate P destination wire hasDestPrefix env.millis }.receive P
        (.deliver destination wire packetHash hasDestPrefix sigOk) env
  | .stampTick accepted result env => s.receive P (.tick accepted result) env
  | .setPolicy k stampCost enforceStamps =>
    { s with messengers := s.messengers.step P.toPlatform (.setPolicy k stampCost enforceStamps) }
  | .activate k iden destination stampCost enforceStamps =>
    { s with
      messengers := s.messengers.step P.toPlatform
        (.activate k destination stampCost enforceStamps)
      owner := Function.update s.owner k iden }
  | .delete k => { s with messengers := s.messengers.step P.toPlatform (.delete k) }
  | .setSource source config =>
    { s with clock := { s.clock with config := Function.update s.clock.config source config } }
  | .seedFromRtc epoch millis => { s with clock := s.clock.seedFromRtc epoch millis }
  | .reportTime source epoch millis =>
    { s with clock := (s.clock.reportTime source epoch millis).getD s.clock }
  | .recordGrant iden peer items shareS millis =>
    { s with shares := s.shares.recordGrant iden peer items shareS (s.epoch P millis iden) }
  | .removeGrant iden peer => { s with shares := s.shares.removeGrant iden peer }
  | .removeFeed iden peer => { s with shares := s.shares.removeFeed iden peer }
  | .tick millis pack =>
    let (shares, sends) := s.shares.tick (s.epoch P millis) millis
      (fun iden => pack (s.epoch P millis iden) iden) P.double
    { s with shares, sent := s.sent ++ sends }

end URSupreme.Trust
