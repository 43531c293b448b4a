import URSupreme.Lib.Table
import URSupreme.LXMF.Gateway
import URSupreme.LXMF.Prepare

/-!
# Outbound delivery

The outbound half of `LXMF/LXMFMinimal.h`: `send_prepared`, the pending sends over links and as
single packets, their callbacks, retries and sweeps, and the outboxes that the status callback of
`activate` in `LXMF/LXMFGateway.h` updates. Pending sends point to their messenger by slot, and the
slots are reused.

The transport is outside: events bring along hashes of new links and packets, receipts, the state of
a cached link and what the file system answers. A link stands for its hash. Beside the state of the
firmware a pending send keeps the wire `send_prepared` built for it, sends are numbered, and
`transmitted` and `applied` keep what went out over links and which records a status change touched.
-/

namespace URSupreme.Outbound
open Lib LXMF

def LXMF_OPPORTUNISTIC_MAX : Nat := 295
def LXMF_LINK_PACKET_MAX : Nat := 319
def DEFAULT_OUTBOX_RETRIES : Nat := 5
def DELIVERY_RETRY_WAIT_MS : Nat := 10 * 1000
def MAX_DELIVERY_ATTEMPTS : Nat := 5
def MAX_PATHLESS_TRIES : Nat := 1
def PATH_REQUEST_WAIT_MS : Nat := 7 * 1000
def MAX_INFLIGHT_SENDS : Nat := 64
def PENDING_SEND_ORPHAN_MS : Nat := 30 * 60 * 1000
def DEFAULT_RAM_CAPACITY : Nat := 200

/-- `OutboxStatus`. -/
inductive OutboxStatus where
  | queued
  | sent
  | delivered
  | failed
  | findingRoute
  | generatingStamp
  deriving DecidableEq, Repr

/-- Which send of which identity. -/
structure Tag where
  identity : Gateway.IdentityId
  number : Nat
  deriving DecidableEq, Repr

/-- The members of an outbox record that delivery uses, with the send whose hash it stores. -/
structure OutboxRecord where
  seq : Nat
  packetHash : Bytes
  status : OutboxStatus
  tag : Tag
  deriving DecidableEq, Repr

/-- The path of a spilled wire: the first eight hex digits of the link hash, and the time. -/
structure WirePath where
  linkHash : Bytes
  millis : Nat
  deriving DecidableEq, Repr

/-- `PendingLinkSend`. -/
structure PendingLinkSend where
  wire : Bytes := []
  wirePath : Option WirePath := none
  link : Bytes
  startedMs : Nat
  destHash : Bytes
  resourceHash : Bytes := []
  totalBytes : Nat := 0
  owner : Nat
  recordHash : Bytes
  retriesLeft : Nat := DEFAULT_OUTBOX_RETRIES
  retryPending : Bool := false
  nextRetryAtMs : Nat := 0
  status : OutboxStatus := .queued
  directWire : Bytes
  tag : Tag
  deriving DecidableEq, Repr

/-- `PendingOppSend`. -/
structure PendingOppSend where
  recordHash : Bytes
  destHash : Bytes
  wire : Bytes
  owner : Nat
  startedMs : Nat
  deliveryAttempts : Nat
  nextAttemptAtMs : Nat
  status : OutboxStatus
  tag : Tag
  deriving DecidableEq, Repr

/-- A messenger and its slot. -/
structure Slot where
  active : Bool := false
  initialized : Bool := false
  id : Gateway.IdentityId := []
  destination : Bytes := []
  outbox : List OutboxRecord := []
  nextSeq : Nat := 0
  deriving DecidableEq, Repr

/-- A payload handed to a link, for a send whose wire is `directWire`. -/
structure Transmission where
  directWire : Bytes
  bytes : Bytes
  deriving DecidableEq, Repr

/-- A status change raised for one send, on a record of another or the same. -/
structure Applied where
  send : Tag
  record : Tag
  deriving DecidableEq, Repr

/-- The messengers and what they share. -/
structure Pending where
  slot : Nat → Slot := fun _ => {}
  links : List (Bytes × PendingLinkSend) := []
  opps : List (Bytes × PendingOppSend) := []
  directLinks : List (Bytes × Bytes) := []
  files : WirePath → Option Bytes := fun _ => none
  sends : Nat := 0
  issued : List Bytes := []
  transmitted : List Transmission := []
  applied : List Applied := []

/-- The status callback: `update_status` of the outbox in slot `k`. -/
def Pending.notify (k : Nat) (recordHash : Bytes) (status : OutboxStatus) (tag : Tag)
    (s : Pending) : Pending :=
  let a := s.slot k
  if a.active then
    { s with
      slot := Function.update s.slot k
        { a with outbox := a.outbox.map fun r =>
            if r.packetHash = recordHash then { r with status } else r }
      applied := s.applied ++
        (a.outbox.filter (·.packetHash = recordHash)).map fun r => ⟨tag, r.tag⟩ }
  else s

/-- What becomes of a spill. -/
inductive Spill where
  | written
  | notOpened
  | short
  deriving DecidableEq, Repr

/-- `_spill_wire_to_disk`. -/
def Pending.spillWireToDisk (wire linkHash : Bytes) (now : Nat) (spill : Spill) (s : Pending) :
    Option WirePath × Pending :=
  let path : WirePath := ⟨linkHash.take 4, now⟩
  match spill with
  | .written => (some path, { s with files := Function.update s.files path (some wire) })
  | .notOpened => (none, s)
  | .short => (none, { s with files := Function.update s.files path none })

/-- `_load_wire_from_disk`: empty on failure. -/
def Pending.loadWireFromDisk (path : WirePath) (expectedSize : Nat) (loads : Bool)
    (s : Pending) : Bytes :=
  match s.files path with
  | none => []
  | some file =>
    if loads then (if file.length < expectedSize then [] else file.take expectedSize) else []

/-- `_release_wire_file`, for an entry about to be erased. -/
def Pending.releaseWireFile (ps : PendingLinkSend) (s : Pending) : Pending :=
  match ps.wirePath with
  | none => s
  | some path => { s with files := Function.update s.files path none }

/-- A new state of one pending send. -/
def Pending.putLink (key : Bytes) (ps : PendingLinkSend) (s : Pending) : Pending :=
  { s with links := insert key ps s.links }

def Pending.eraseLink (key : Bytes) (s : Pending) : Pending :=
  { s with links := erase key s.links }

def Pending.transmit (ps : PendingLinkSend) (bytes : Bytes) (s : Pending) : Pending :=
  { s with transmitted := s.transmitted ++ [⟨ps.directWire, bytes⟩] }

/-- `_schedule_retry_or_fail`. -/
def scheduleRetryOrFail (key : Bytes) (ps : PendingLinkSend) (now : Nat) (s : Pending) :
    Pending :=
  if ps.retriesLeft = 0 then
    (s.putLink key { ps with status := .failed, retryPending := false, resourceHash := [] }).notify
      ps.owner ps.recordHash .failed ps.tag
  else
    s.putLink key { ps with
      retriesLeft := ps.retriesLeft - 1, retryPending := true
      nextRetryAtMs := now + DELIVERY_RETRY_WAIT_MS, status := .queued, resourceHash := [] }

/-- What the link and the file system answer when a link is established. -/
structure Established where
  loads : Bool
  threw : Bool
  ready : Bool
  resourceHash : Bytes
  deriving DecidableEq, Repr

/-- The second half of `_static_outbound_link_established`: an in-link packet, or a resource. -/
def sendOnLink (key : Bytes) (ps : PendingLinkSend) (wire : Bytes) (now : Nat) (env : Established)
    (s : Pending) : Pending :=
  if wire.length ≤ LXMF_LINK_PACKET_MAX then
    if env.threw then scheduleRetryOrFail key ps now s
    else
      ((((s.transmit ps wire).putLink key { ps with status := .sent }).notify ps.owner
        ps.recordHash .sent ps.tag).releaseWireFile ps).eraseLink key
  else if !env.ready then scheduleRetryOrFail key ps now s
  else
    (s.transmit ps wire).putLink key { ps with
      resourceHash := env.resourceHash
      totalBytes := if ps.totalBytes = 0 then wire.length else ps.totalBytes
      wire := [] }

/-- `_static_outbound_link_established`. -/
def linkEstablished (link : Bytes) (now : Nat) (env : Established) (s : Pending) : Pending :=
  match lookup link s.links with
  | none => s
  | some ps =>
    match ps.wirePath with
    | some path =>
      let wire := s.loadWireFromDisk path ps.totalBytes env.loads
      if wire = [] then scheduleRetryOrFail link ps now s else sendOnLink link ps wire now env s
    | none => sendOnLink link ps ps.wire now env s

/-- `_static_outbound_link_closed`. -/
def linkClosed (link : Bytes) (now : Nat) (s : Pending) : Pending :=
  let s := { s with directLinks := s.directLinks.eraseP (·.2 = link) }
  match lookup link s.links with
  | none => s
  | some ps =>
    if ps.status ≠ .sent ∧ ps.status ≠ .delivered then scheduleRetryOrFail link ps now s
    else (s.releaseWireFile ps).eraseLink link

/-- The loop of `_static_outbound_resource_concluded` over the keys of the pending sends. -/
def resourceConcluded (resourceHash : Bytes) (complete : Bool) (now : Nat) :
    List Bytes → Pending → Pending
  | [], s => s
  | key :: keys, s =>
    match lookup key s.links with
    | none => resourceConcluded resourceHash complete now keys s
    | some ps =>
      if ps.resourceHash = resourceHash then
        if complete then
          resourceConcluded resourceHash complete now keys
            ((((s.putLink key { ps with status := .delivered }).notify ps.owner ps.recordHash
              .delivered ps.tag).releaseWireFile ps).eraseLink key)
        else scheduleRetryOrFail key ps now s
      else resourceConcluded resourceHash complete now keys s

/-- `accelerate_pending_for`. -/
def acceleratePendingFor (destHash : Bytes) (now : Nat) (s : Pending) : Pending :=
  { s with links := s.links.map fun (key, ps) =>
      if ps.retryPending ∧ ps.destHash = destHash ∧ ps.nextRetryAtMs > now then
        (key, { ps with nextRetryAtMs := now })
      else (key, ps) }

/-- `accelerate_opp_for`. -/
def accelerateOppFor (destHash : Bytes) (now : Nat) (s : Pending) : Pending :=
  { s with opps := s.opps.map fun (key, op) =>
      if op.destHash = destHash ∧ op.status ≠ .failed ∧ op.nextAttemptAtMs > now then
        (key, { op with nextAttemptAtMs := now })
      else (key, op) }

/-- `manual_retry`. -/
def manualRetry (recordHash : Bytes) (now : Nat) (s : Pending) : Pending :=
  match s.links.find? (·.2.recordHash = recordHash) with
  | some (key, ps) =>
    if ps.status ≠ .failed then s
    else s.putLink key { ps with
      retriesLeft := DEFAULT_OUTBOX_RETRIES, retryPending := true, nextRetryAtMs := now
      status := .queued }
  | none =>
    match lookup recordHash s.opps with
    | none => s
    | some op =>
      if op.status ≠ .failed then s
      else
        { s with opps := insert recordHash { op with
            deliveryAttempts := 1, status := .sent, nextAttemptAtMs := now } s.opps }.notify
          op.owner op.recordHash .sent op.tag

/-- What opening a link for a retry comes to. -/
inductive Reopened where
  | unknownIdentity
  | threw
  | opened (link : Bytes)
  deriving DecidableEq, Repr

/-- The body of the loop of `tick_retries` on one key. -/
def retryOne (key : Bytes) (now : Nat) (r : Reopened) (s : Pending) : Pending :=
  match lookup key s.links with
  | none => s
  | some ps =>
    if ps.retryPending ∧ now ≥ ps.nextRetryAtMs then
      let s := s.eraseLink key
      let ps := { ps with retryPending := false }
      match r with
      | .unknownIdentity => scheduleRetryOrFail key ps now (s.putLink key ps)
      | .opened link =>
        { s with
          issued := s.issued ++ [link]
          directLinks := insert ps.destHash link s.directLinks }.putLink link
            { ps with link, startedMs := now }
      | .threw => (s.notify ps.owner ps.recordHash .failed ps.tag).releaseWireFile ps
    else s

/-- The body of the loop of `sweep_orphaned_pending` on one key. The age is a 64-bit difference. -/
def sweepOne (key : Bytes) (now : Nat) (s : Pending) : Pending :=
  match lookup key s.links with
  | none => s
  | some ps =>
    if ps.startedMs > 0 ∧ (now + 2 ^ 64 - ps.startedMs) % 2 ^ 64 > PENDING_SEND_ORPHAN_MS ∧
        !ps.retryPending ∧ ps.status ≠ .delivered ∧ ps.status ≠ .failed then
      ((s.notify ps.owner ps.recordHash .failed ps.tag).releaseWireFile ps).eraseLink key
    else s

/-- The body of the loop of `tick_clean_links` on one destination; `closed` is the state of the
link. -/
def cleanOne (destHash : Bytes) (closed : Bool) (now : Nat) (s : Pending) : Pending :=
  match lookup destHash s.directLinks with
  | none => s
  | some link =>
    let s := if closed then s else linkClosed link now s
    { s with directLinks := erase destHash s.directLinks }

/-- What the transport says about a single packet that is waiting for its proof. -/
structure OppState where
  delivered : Bool
  pathKnown : Bool
  remoteKnown : Bool
  receipt : Bool
  deriving DecidableEq, Repr

/-- The body of the loop of `tick_opportunistic_receipts` on one key. -/
def oppOne (key : Bytes) (now : Nat) (env : OppState) (s : Pending) : Pending :=
  match lookup key s.opps with
  | none => s
  | some op =>
    let put (op : PendingOppSend) : Pending := { s with opps := insert key op s.opps }
    if env.delivered then
      let s := s.notify op.owner op.recordHash .delivered op.tag
      { s with opps := erase key s.opps }
    else if op.status = .failed ∨ now < op.nextAttemptAtMs then s
    else if op.deliveryAttempts > MAX_DELIVERY_ATTEMPTS then
      (put { op with status := .failed }).notify op.owner op.recordHash .failed op.tag
    else
      let op := { op with deliveryAttempts := op.deliveryAttempts + 1 }
      if op.deliveryAttempts - 1 ≥ MAX_PATHLESS_TRIES ∧ !env.pathKnown ∨
          op.deliveryAttempts - 1 = MAX_PATHLESS_TRIES + 1 ∧ env.pathKnown then
        put { op with nextAttemptAtMs := now + PATH_REQUEST_WAIT_MS }
      else
        let op := { op with nextAttemptAtMs := now + DELIVERY_RETRY_WAIT_MS }
        if env.remoteKnown ∧ env.receipt then put { op with startedMs := now } else put op

/-- The state of a cached link. -/
inductive LinkStatus where
  | active
  | closed
  | other
  deriving DecidableEq, Repr

/-- What the transport and the file system answer to `send_prepared`. -/
structure SendEnv where
  now : Nat
  routeKnown : Bool
  receipt : Bool
  packetHash : Bytes
  linkStatus : LinkStatus
  newLink : Bytes
  spill : Spill
  established : Established
  deriving DecidableEq, Repr

/-- The link a DIRECT send uses, and whether it is an active one. -/
def chooseLink (destHash : Bytes) (env : SendEnv) (s : Pending) : Bytes × Bool × Pending :=
  let fresh (s : Pending) : Bytes × Bool × Pending :=
    (env.newLink, false, { s with
      issued := s.issued ++ [env.newLink]
      directLinks := insert destHash env.newLink s.directLinks })
  match lookup destHash s.directLinks with
  | none => fresh s
  | some link =>
    if env.linkStatus = .active ∧ lookup link s.links = none then (link, true, s)
    else if env.linkStatus = .closed then
      fresh { s with directLinks := erase destHash s.directLinks }
    else fresh s

/-- The hashing and signing that `send_prepared` uses. -/
structure Crypto where
  fullHash : Bytes → Bytes
  sign : Gateway.IdentityId → Bytes → Option Bytes

/-- The blob `src_hash || sig || payload` and its content size, or the error text. -/
def packWire (C : Crypto) (a : Slot) (destHash : Bytes) (pm : PreparedMessage) (stamp : Bytes) :
    Except String (Bytes × Nat) := do
  let hashedPart := destHash ++ a.destination ++ pm.payload
  let messageHash := C.fullHash hashedPart
  if stamp ≠ [] ∧ messageHash ≠ pm.messageId then
    .error "Internal error: the message changed after its stamp was generated."
  else
    match C.sign a.id (hashedPart ++ messageHash) with
    | none => .error "Signing failed. Identity may be misconfigured."
    | some signature =>
      if signature.length ≠ SIG_LEN then
        .error "Internal error: signature was not the expected length."
      else
        let payloadWire ← payloadWire pm.payload stamp
        .ok (a.destination ++ signature ++ payloadWire,
          if payloadWire.length > 16 then payloadWire.length - 16 else 0)

/-- The OPPORTUNISTIC half of `send_prepared`: the state, and the hash and status for the record. -/
def sendOpportunistic (k : Nat) (destHash wire : Bytes) (env : SendEnv) (tag : Tag)
    (s : Pending) : Pending × Bytes × OutboxStatus :=
  let s := { s with issued := s.issued ++ [env.packetHash] }
  if env.receipt then
    let op : PendingOppSend :=
      { recordHash := env.packetHash, destHash, wire, owner := k, startedMs := env.now
        deliveryAttempts := 1, nextAttemptAtMs := env.now + DELIVERY_RETRY_WAIT_MS
        status := .sent, tag }
    ({ s with opps := insert env.packetHash op s.opps }, env.packetHash, .sent)
  else (s, env.packetHash, .failed)

/-- The entry of a DIRECT send over `link`, with its wire spilled or kept in RAM. -/
def directEntry (k : Nat) (destHash wire : Bytes) (contentSize : Nat) (env : SendEnv) (tag : Tag)
    (link : Bytes) (s : Pending) : PendingLinkSend × Pending :=
  let directWire := destHash ++ wire
  let ps : PendingLinkSend :=
    { link, startedMs := env.now, destHash, owner := k, recordHash := link, directWire, tag }
  if contentSize > LXMF_LINK_PACKET_MAX then
    match s.spillWireToDisk directWire link env.now env.spill with
    | (some path, s) => ({ ps with wirePath := some path, totalBytes := directWire.length }, s)
    | (none, s) => ({ ps with wire := directWire }, s)
  else ({ ps with wire := directWire }, s)

/-- The DIRECT half of `send_prepared`. -/
def sendDirect (k : Nat) (destHash wire : Bytes) (contentSize : Nat) (env : SendEnv) (tag : Tag)
    (s : Pending) : Pending × Bytes × OutboxStatus :=
  let (link, reuse, s) := chooseLink destHash env s
  let (ps, s) := directEntry k destHash wire contentSize env tag link s
  let s := s.putLink link ps
  (if reuse then linkEstablished link env.now env.established s else s, link, .queued)

/-- `send_prepared`: the state, and the hash and status for the record, or the error text. -/
def sendPrepared (C : Crypto) (k : Nat) (destHash : Bytes) (pm : PreparedMessage) (stamp : Bytes)
    (env : SendEnv) (s : Pending) : Except String (Pending × Bytes × OutboxStatus) := do
  let a := s.slot k
  if !a.initialized then .error "LXMF gateway not initialised"
  else if pm.payload = [] then .error "Internal error: empty prepared payload."
  else if s.links.length + s.opps.length ≥ MAX_INFLIGHT_SENDS then
    .error "Too many messages are still being delivered. Wait a moment, then resend."
  else if !env.routeKnown then
    .error "The route to the recipient was lost. Issued a fresh path request."
  else
    let (wire, contentSize) ← packWire C a destHash pm stamp
    let tag : Tag := ⟨a.id, s.sends⟩
    let s := { s with sends := s.sends + 1 }
    if contentSize ≤ LXMF_OPPORTUNISTIC_MAX then .ok (sendOpportunistic k destHash wire env tag s)
    else .ok (sendDirect k destHash wire contentSize env tag s)

/-- What the gateway does with the record of a send. -/
inductive Store where
  /-- `append`, under a reserved seq or a new one, when the spool can be written -/
  | append (useSeq : Nat) (written : Bool)
  /-- `mutate_by_seq`, for the record of a stamped send -/
  | mutate (seq : Nat)
  /-- a machinery send leaves no record -/
  | machinery
  deriving DecidableEq, Repr

/-- The outbox with the record of a send. -/
def Slot.store (a : Slot) (packetHash : Bytes) (status : OutboxStatus) (tag : Tag) :
    Store → Slot
  | .append useSeq written =>
    let seq := if useSeq = 0 then a.nextSeq + 1 else useSeq
    let nextSeq := max a.nextSeq seq
    if written then
      let outbox := a.outbox ++ [{ seq, packetHash, status, tag }]
      { a with nextSeq, outbox := outbox.drop (outbox.length - DEFAULT_RAM_CAPACITY) }
    else { a with nextSeq }
  | .mutate seq =>
    { a with
      outbox := modifyFirst (·.seq = seq) (fun r => { r with packetHash, status, tag }) a.outbox }
  | .machinery => a

/-- `identity_by_id_mut`. -/
def Pending.byId (id : Gateway.IdentityId) (s : Pending) : Option Nat :=
  if id = [] then none
  else (List.range Gateway.LXMF_GATEWAY_MAX_IDENTITIES).find? fun k =>
    (s.slot k).active && (s.slot k).id = id

/-- `send` of the gateway, from `send_prepared` on, for a message to send now, from a queue, or
with its stamp. -/
def send (C : Crypto) (id : Gateway.IdentityId) (destHash : Bytes) (pm : PreparedMessage)
    (stamp : Bytes) (store : Store) (env : SendEnv) (s : Pending) : Pending :=
  match s.byId id with
  | none => s
  | some k =>
    match sendPrepared C k destHash pm stamp env s with
    | .error _ => s
    | .ok (s', packetHash, status) =>
      let a := (s'.slot k).store packetHash status ⟨(s.slot k).id, s.sends⟩ store
      { s' with slot := Function.update s'.slot k a }

/-- A record is appended in state `generating_stamp`, or turned to `failed` by its seq. -/
def stampRecord (id : Gateway.IdentityId) (seq : Option Nat) (s : Pending) : Pending :=
  match s.byId id with
  | none => s
  | some k =>
    let a := s.slot k
    let a := match seq with
      | none => a.store [] .generatingStamp ⟨a.id, s.sends⟩ (.append 0 true)
      | some seq =>
        { a with
          outbox := modifyFirst (·.seq = seq) (fun r => { r with status := .failed }) a.outbox }
    { s with slot := Function.update s.slot k a, sends := s.sends + 1 }

/-- Records leave an outbox: pruned, purged or evicted. -/
def prune (k : Nat) (keep : OutboxRecord → Bool) (s : Pending) : Pending :=
  let a := { s.slot k with outbox := (s.slot k).outbox.filter keep }
  { s with slot := Function.update s.slot k a }

/-- `activate` of an identity in slot `k`. -/
def activate (k : Nat) (id : Gateway.IdentityId) (destination : Bytes) (s : Pending) : Pending :=
  let a : Slot := { active := true, initialized := true, id, destination }
  { s with slot := Function.update s.slot k a }

/-- `delete_identity` of the identity in slot `k`. -/
def deleteIdentity (k : Nat) (s : Pending) : Pending :=
  let a := { s.slot k with active := false, initialized := false, id := [], outbox := [] }
  { s with slot := Function.update s.slot k a }

/-- What happens to the messengers. -/
inductive Event where
  | send (id : Gateway.IdentityId) (destHash : Bytes) (pm : PreparedMessage) (stamp : Bytes)
    (store : Store) (env : SendEnv)
  | stampRecord (id : Gateway.IdentityId) (seq : Option Nat)
  | established (link : Bytes) (now : Nat) (env : Established)
  | closed (link : Bytes) (now : Nat)
  | concluded (resourceHash : Bytes) (complete : Bool) (now : Nat)
  | retry (key : Bytes) (now : Nat) (r : Reopened)
  | sweep (key : Bytes) (now : Nat)
  | clean (destHash : Bytes) (closed : Bool) (now : Nat)
  | opportunistic (key : Bytes) (now : Nat) (env : OppState)
  | manualRetry (recordHash : Bytes) (now : Nat)
  | announced (destHash : Bytes) (now : Nat)
  | prune (k : Nat) (keep : OutboxRecord → Bool)
  | activate (k : Nat) (id : Gateway.IdentityId) (destination : Bytes)
  | delete (k : Nat)

/-- One event. A tick is a run of the events for the entries it goes through. -/
def Pending.step (C : Crypto) (s : Pending) : Event → Pending
  | .send id destHash pm stamp store env => send C id destHash pm stamp store env s
  | .stampRecord id seq => stampRecord id seq s
  | .established link now env => linkEstablished link now env s
  | .closed link now => linkClosed link now s
  | .concluded resourceHash complete now =>
    resourceConcluded resourceHash complete now (s.links.map (·.1)) s
  | .retry key now r => retryOne key now r s
  | .sweep key now => sweepOne key now s
  | .clean destHash closed now => cleanOne destHash closed now s
  | .opportunistic key now env => oppOne key now env s
  | .manualRetry recordHash now => Outbound.manualRetry recordHash now s
  | .announced destHash now => accelerateOppFor destHash now (acceleratePendingFor destHash now s)
  | .prune k keep => Outbound.prune k keep s
  | .activate k id destination => Outbound.activate k id destination s
  | .delete k => deleteIdentity k s

end URSupreme.Outbound
