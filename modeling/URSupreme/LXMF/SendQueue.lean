import URSupreme.Lib.Sweep
import URSupreme.LXMF.Gateway
import URSupreme.LXMF.Prepare
import URSupreme.Storage.OutboundStaging

/-!
# The send queue

`send` of `LXMF/LXMFGateway.h` with the queue of sends that wait for a route: `send_with_stamp`,
`queue_pending_identity_send`, `tick_pending_identity_sends` and `drain_peer_announcements`. An
active identity has an outbox. Routes, stamp costs and what `send_prepared` answers come with the
calls, and the routes stay as they are during one; so do the sidecar files and the worker of the
stamped sends.

`log` lists what became of each message, and an `ExtraFields` keeps the items of telemetry that its
blob was packed from.
-/

namespace URSupreme.SendQueue
open Lib LXMF
open Gateway (IdentityId)
open Staging (Buffers)

def PENDING_ID_MAX : Nat := 8
def PENDING_ID_MAX_ATTEMPTS : Nat := 6
def PENDING_ID_BACKOFF_MS : Nat := 4000
def PENDING_ATTACH_MAX_ATTEMPTS : Nat := 8
def PENDING_ATTACH_REQUEST_MS : Nat := 7000
def PENDING_ATTACH_RECHECK_MS : Nat := 2000
def PENDING_STAMP_MAX : Nat := 8

/-- `ExtraFields` with `visible`. -/
structure Extra extends ExtraFields where
  visible : Bool := false
  items : UInt8 := 0
  deriving DecidableEq, Repr

/-- `empty`. -/
def Extra.empty (e : Extra) : Bool := e.telemetry = [] && e.commands = [] && e.customMeta = []

/-- The arguments of `send`; no attachments are an empty list. -/
structure Message where
  idenId : IdentityId
  dest : Bytes
  title : Bytes
  content : Bytes
  attachments : List OutgoingAttachment := []
  extra : Option Extra := none
  deriving DecidableEq, Repr

/-- `machinery_send`. -/
def Message.machinery (m : Message) : Bool :=
  (match m.extra with
    | some e => !e.empty && !e.visible
    | none => false) && m.title = [] && m.content = [] && m.attachments = []

/-- `PendingIdentitySend`. -/
structure PendingIdentitySend where
  idenId : IdentityId
  dest : Bytes
  title : Bytes
  content : Bytes
  attachments : List OutgoingAttachment := []
  extra : Extra := {}
  outboxSeq : Nat
  attempts : Nat := 0
  nextAtMs : Nat
  nextRequestMs : Nat := 0
  deriving DecidableEq, Repr

/-- The arguments that the tick passes to `send`. -/
def PendingIdentitySend.message (e : PendingIdentitySend) : Message where
  idenId := e.idenId
  dest := e.dest
  title := e.title
  content := e.content
  attachments := e.attachments
  extra := if e.extra.empty then none else some e.extra

/-- `PendingStampSend`, with the arguments of `send`. -/
structure PendingStampSend where
  idenId : IdentityId
  dest : Bytes
  messageId : Bytes
  outboxSeq : Nat
  cost : Nat
  message : Message
  deriving DecidableEq, Repr

/-- What becomes of a message: `send_message` takes it, or the queue of stamped sends, or the status
`failed` is published for it; and what becomes of it in the queue of stamped sends. -/
inductive Outcome where
  | dispatched (m : Message) (seq : Nat)
  | deferred (m : Message) (seq : Nat)
  | stamped (m : Message) (seq : Nat)
  | failed (idenId : IdentityId) (seq : Nat)
  | stampFailed (idenId : IdentityId) (seq : Nat)
  deriving DecidableEq, Repr

/-- The identities, the outboxes' `_next_seq`, the queues and the staging buffers. -/
structure Sender where
  active : IdentityId → Bool := fun _ => false
  nextSeq : IdentityId → Nat := fun _ => 0
  queue : List PendingIdentitySend := []
  stamps : List PendingStampSend := []
  staging : Buffers := {}
  log : List Outcome := []

/-- What a call finds around it. -/
structure World where
  millis : Nat
  hasPath : Bytes → Bool
  recalls : Bytes → Bool
  peerStampCost : Bytes → Nat
  env : IdentityId → SendEnv
  /-- the error of `send_prepared`, if any, after what is in the log -/
  sendPrepared : List Outcome → IdentityId → Bytes → PreparedMessage → Option String

/-- `has_path` and `recall`. -/
def World.route (w : World) (dest : Bytes) : Bool := w.hasPath dest && w.recalls dest

/-- What `send` returns: the error, or the sequence number of a send that is queued. -/
inductive SendResult where
  | sent
  | queued (seq : Nat)
  | failed (err : String)
  deriving DecidableEq, Repr

/-- The staging ids of attachments. -/
def stagingIds (atts : List OutgoingAttachment) : List Nat :=
  (atts.map (·.stagingId)).filter (· ≠ 0)

/-- The loop that releases the staging buffers of attachments. -/
def Sender.releaseStaging (s : Sender) (atts : List OutgoingAttachment) : Sender :=
  { s with staging := (stagingIds atts).foldl Buffers.release s.staging }

/-- Reads of the staging buffers of attachments. -/
def Sender.readStaging (s : Sender) (atts : List OutgoingAttachment) : Sender :=
  { s with staging := (stagingIds atts).foldl (·.use .read ·) s.staging }

/-- `reserve_seq`. -/
def Sender.reserveSeq (s : Sender) (iden : IdentityId) : Sender × Nat :=
  let seq := (s.nextSeq iden + 1) % 2 ^ 32
  ({ s with nextSeq := Function.update s.nextSeq iden seq }, seq)

/-- The sequence number of `append`, which a record has already when it is not 0. -/
def Sender.appendOutbox (s : Sender) (iden : IdentityId) (seq : Nat) : Sender × Nat :=
  if seq = 0 then s.reserveSeq iden
  else ({ s with nextSeq := Function.update s.nextSeq iden (max (s.nextSeq iden) seq) }, seq)

/-- `prepare_message`, which reads the staging buffers and releases them in the end. -/
def Sender.prepareMessage (s : Sender) (w : World) (m : Message) :
    Sender × Except String PreparedMessage :=
  let env := { w.env m.idenId with
    remoteIdentity := w.recalls m.dest
    hasPath := w.hasPath m.dest
    staging := s.staging.bytes }
  let pm := LXMF.prepareMessage env m.dest m.title m.content m.attachments
    (m.extra.map (·.toExtraFields))
  ((s.readStaging m.attachments).releaseStaging m.attachments, pm.map (·.1))

/-- An entry is the one that a send without attachments is coalesced into. -/
def PendingIdentitySend.coalesces (m : Message) (p : PendingIdentitySend) : Bool :=
  p.attachments = [] ∧ p.idenId = m.idenId ∧ p.dest = m.dest ∧ p.title = m.title ∧
    p.content = m.content

/-- The entry then. -/
def PendingIdentitySend.coalesced (now : Nat) (m : Message) (p : PendingIdentitySend) :
    PendingIdentitySend :=
  { p with
    attempts := 0
    nextAtMs := now + PENDING_ID_BACKOFF_MS
    extra := m.extra.getD p.extra }

/-- The new entry of a send. -/
def Message.pending (now seq : Nat) (m : Message) : PendingIdentitySend :=
  let p : PendingIdentitySend :=
    { idenId := m.idenId, dest := m.dest, title := m.title, content := m.content
      extra := m.extra.getD {}, outboxSeq := seq, nextAtMs := now + PENDING_ID_BACKOFF_MS }
  if m.attachments = [] then p
  else { p with
    attachments := m.attachments
    nextAtMs := now + PENDING_ATTACH_RECHECK_MS
    nextRequestMs := now + PENDING_ATTACH_REQUEST_MS }

/-- The loop of `queue_pending_identity_send` over the queue. -/
def Sender.findCoalesced (s : Sender) (m : Message) : Option PendingIdentitySend :=
  if m.attachments = [] then s.queue.find? (·.coalesces m) else none

/-- `queue_pending_identity_send`: the sequence number, or 0. -/
def Sender.queuePendingIdentitySend (s : Sender) (w : World) (m : Message) : Sender × Nat :=
  match s.findCoalesced m with
  | some p =>
    ({ s with queue := modifyFirst (·.coalesces m) (·.coalesced w.millis m) s.queue }, p.outboxSeq)
  | none =>
    if s.queue.length ≥ PENDING_ID_MAX then (s, 0)
    else
      let (s, seq) := s.reserveSeq m.idenId
      ({ s with queue := s.queue ++ [m.pending w.millis seq] }, seq)

/-- `send_with_stamp`. -/
def Sender.sendWithStamp (s : Sender) (w : World) (m : Message) (cost useSeq : Nat) :
    Sender × SendResult :=
  if s.stamps.length ≥ PENDING_STAMP_MAX then
    (s.releaseStaging m.attachments,
      .failed "Too many messages are already waiting on stamp generation. Please resend in a moment.")
  else
    match s.prepareMessage w m with
    | (s, .error err) => (s, .failed err)
    | (s, .ok pm) =>
      let (s, seq) := s.appendOutbox m.idenId useSeq
      let p : PendingStampSend :=
        { idenId := m.idenId, dest := m.dest, messageId := pm.messageId, outboxSeq := seq, cost
          message := m }
      ({ s with stamps := s.stamps ++ [p], log := s.log ++ [.deferred m seq] }, .sent)

/-- The part of `send` behind the gate: the stamped send, or `send_message` and the record. -/
def Sender.sendNow (s : Sender) (w : World) (m : Message) (useSeq : Nat) : Sender × SendResult :=
  let cost := w.peerStampCost m.dest
  if cost ≥ 1 then s.sendWithStamp w m cost useSeq
  else
    match s.prepareMessage w m with
    | (s, .error err) => (s, .failed err)
    | (s, .ok pm) =>
      match w.sendPrepared s.log m.idenId m.dest pm with
      | some err => (s, .failed err)
      | none =>
        -- machinery stays out of the outbox
        let (s, seq) := if m.machinery then (s, useSeq) else s.appendOutbox m.idenId useSeq
        ({ s with log := s.log ++ [.dispatched m seq] }, .sent)

/-- `send`. -/
def Sender.send (s : Sender) (w : World) (m : Message) (useSeq : Nat) : Sender × SendResult :=
  if s.active m.idenId = false then
    (s, .failed "No such identity is logged in on this device.")
  else if w.route m.dest then s.sendNow w m useSeq
  else
    match s.queuePendingIdentitySend w m with
    | (s, 0) =>
      if m.attachments = [] then
        (s, .failed <| "No route to the recipient yet and the auto-send queue is full. " ++
          "Please resend in a moment.")
      else s.sendNow w m useSeq
    | (s, seq + 1) => (s, .queued (seq + 1))

/-- The dispatch of an entry whose route is up. -/
def Sender.autoSend (s : Sender) (w : World) (e : PendingIdentitySend) : Sender :=
  match s.send w e.message e.outboxSeq with
  | (s, .sent) => s
  | (s, _) => { s with log := s.log ++ [.failed e.idenId e.outboxSeq] }

/-- The entry of a send with attachments, in the loop of `tick_pending_identity_sends`. -/
def Sender.tickAttachments (s : Sender) (w : World) (e : PendingIdentitySend) :
    Sender × Option PendingIdentitySend :=
  if w.millis < e.nextAtMs then (s, some e)
  else if w.route e.dest then (s.autoSend w e, none)
  else if w.millis ≥ e.nextRequestMs then
    if e.attempts + 1 ≥ PENDING_ATTACH_MAX_ATTEMPTS then
      let s := s.releaseStaging e.attachments
      ({ s with log := s.log ++ [.failed e.idenId e.outboxSeq] }, none)
    else
      (s, some { e with
        attempts := e.attempts + 1
        nextRequestMs := w.millis + PENDING_ATTACH_REQUEST_MS
        nextAtMs := w.millis + PENDING_ATTACH_RECHECK_MS })
  else (s, some { e with nextAtMs := w.millis + PENDING_ATTACH_RECHECK_MS })

/-- The entry of a send without attachments. -/
def Sender.tickText (s : Sender) (w : World) (e : PendingIdentitySend) :
    Sender × Option PendingIdentitySend :=
  if w.millis < e.nextAtMs then (s, some e)
  else if w.route e.dest then (s.autoSend w e, none)
  else if e.attempts + 1 ≥ PENDING_ID_MAX_ATTEMPTS then
    ({ s with log := s.log ++ [.failed e.idenId e.outboxSeq] }, none)
  else
    (s, some { e with
      attempts := e.attempts + 1
      nextAtMs := w.millis + PENDING_ID_BACKOFF_MS * (e.attempts + 1) })

/-- One entry. -/
def Sender.tickEntry (w : World) (s : Sender) (e : PendingIdentitySend) :
    Sender × Option PendingIdentitySend :=
  if e.attachments = [] then s.tickText w e else s.tickAttachments w e

/-- `tick_pending_identity_sends`. -/
def Sender.tickPendingIdentitySends (s : Sender) (w : World) : Sender :=
  let (s, queue) := sweep (Sender.tickEntry w) s s.queue
  { s with queue }

/-- The loop of `drain_peer_announcements` over the queue, for one peer. -/
def Sender.drainPeerAnnouncement (s : Sender) (dest : Bytes) (now : Nat) : Sender :=
  { s with
    queue := s.queue.map fun e =>
      if e.dest = dest ∧ e.nextAtMs > now then { e with nextAtMs := now } else e }

/-- How far `tick_pending_stamp_sends` comes with the front entry. -/
inductive StampProgress where
  | wait
  | fail
  | dispatch
  deriving DecidableEq, Repr

/-- `tick_pending_stamp_sends`, on the entries. -/
def Sender.tickPendingStampSends (s : Sender) (progress : StampProgress) : Sender :=
  match s.stamps with
  | [] => s
  | f :: q =>
    if s.active f.idenId = false then { s with stamps := q }
    else
      match progress with
      | .wait => s
      | .fail => { s with stamps := q, log := s.log ++ [.stampFailed f.idenId f.outboxSeq] }
      | .dispatch => { s with stamps := q, log := s.log ++ [.stamped f.message f.outboxSeq] }

/-- `cancel_pending_stamp`. -/
def Sender.cancelPendingStamp (s : Sender) (iden : IdentityId) (seq : Nat) : Sender :=
  { s with stamps := s.stamps.eraseP fun f => f.idenId = iden ∧ f.outboxSeq = seq }

end URSupreme.SendQueue
