import URSupreme.Lib.Recent
import URSupreme.LXMF.Record

/-!
# Inbox and outbox

`LXMFInbox` of `LXMF/LXMFInbox.h`: a ring of records with sequence numbers, and its spool file. An
append writes a line to the spool and may be cut short; everything else that changes the ring writes
the spool anew, and succeeds. `load` reads the spool after a reboot.
-/

namespace URSupreme.Inbox
open Lib LXMF
open Outbound (OutboxStatus)
open Gateway (Retention RetentionKind)

def DEFAULT_RAM_CAPACITY : Nat := 200

/-- What a mailbox asks of its surroundings. -/
structure Platform extends Codec where
  serialize : Doc → Bytes
  /-- a document from the front of a stream, or none, and what is left of the stream -/
  deserialize : Bytes → Option Doc × Bytes
  /-- whether a time stamp is positive and more than some seconds before now -/
  older : UInt64 → UInt64 → Nat → Bool

/-- `LXMFInbox`. -/
structure LXMFInbox where
  ramCapacity : Nat := DEFAULT_RAM_CAPACITY
  defaultRetention : Retention := {}
  peerRetention : List (Bytes × Retention) := []
  nextSeq : Nat := 0
  ring : List MessageRecord := []
  spool : Bytes := []

variable (P : Platform)

/-- The line of a record. -/
def line (r : MessageRecord) : Bytes := P.serialize (recordToDoc P.toCodec r) ++ [10]

/-- `rewrite_spool`. -/
def LXMFInbox.rewriteSpool (s : LXMFInbox) : LXMFInbox :=
  { s with spool := s.ring.flatMap (line P) }

/-- `effective_retention_for`, for a peer in hexadecimal. -/
def LXMFInbox.effectiveRetentionFor (s : LXMFInbox) (peerHex : Bytes) : Retention :=
  (lookup peerHex s.peerRetention).getD s.defaultRetention

/-- The first pass of `prune_expired` keeps a record. -/
def LXMFInbox.inTime (s : LXMFInbox) (now : UInt64) (r : MessageRecord) : Bool :=
  let p := s.effectiveRetentionFor (P.toHex r.peerHash)
  !(p.kind = .time && p.value ≠ 0 && P.older r.ts now p.value)

/-- The second pass of `prune_expired`, which keeps the newest records of a peer. -/
def LXMFInbox.keepNewest (s : LXMFInbox) : List MessageRecord → List MessageRecord
  | [] => []
  | r :: l =>
    let p := s.effectiveRetentionFor (P.toHex r.peerHash)
    if p.kind = .count ∧ p.value ≠ 0 ∧ p.value ≤ (l.filter (·.peerHash = r.peerHash)).length then
      s.keepNewest l
    else r :: s.keepNewest l

/-- The records that the passes of `prune_expired` leave; `now` is `none` while the clock is not
calibrated. -/
def LXMFInbox.surviving (now : Option UInt64) (s : LXMFInbox) : List MessageRecord :=
  let timed := match now with
    | some now => s.ring.filter (s.inTime P now)
    | none => s.ring
  recent s.ramCapacity (s.keepNewest P timed)

/-- `prune_expired`. -/
def LXMFInbox.pruneExpired (now : Option UInt64) (s : LXMFInbox) : LXMFInbox :=
  if s.peerRetention = [] ∧ s.defaultRetention.kind = .none then
    { s with ring := recent s.ramCapacity s.ring }
  else
    let s' := { s with ring := s.surviving P now }
    if s'.ring.length ≠ s.ring.length then s'.rewriteSpool P else s'

/-- `set_capacity`. -/
def LXMFInbox.setCapacity (cap : Nat) (s : LXMFInbox) : LXMFInbox :=
  let s' := { s with ramCapacity := cap, ring := recent cap s.ring }
  if s.ring.length > cap then s'.rewriteSpool P else s'

/-- `set_default_retention`. -/
def LXMFInbox.setDefaultRetention (r : Retention) (now : Option UInt64) (s : LXMFInbox) :
    LXMFInbox :=
  { s with defaultRetention := r }.pruneExpired P now

/-- `set_peer_retention`. -/
def LXMFInbox.setPeerRetention (peerHex : Bytes) (r : Retention) (now : Option UInt64)
    (s : LXMFInbox) : LXMFInbox :=
  if lookup peerHex s.peerRetention = some r then s
  else { s with peerRetention := (peerHex, r) :: erase peerHex s.peerRetention }.pruneExpired P now

/-- `clear_peer_retention`. -/
def LXMFInbox.clearPeerRetention (peerHex : Bytes) (now : Option UInt64) (s : LXMFInbox) :
    LXMFInbox :=
  if lookup peerHex s.peerRetention = none then s
  else { s with peerRetention := erase peerHex s.peerRetention }.pruneExpired P now

/-- White space between the records of a spool. -/
def isSpace (b : UInt8) : Bool := b = 10 || b = 13 || b = 32 || b = 9

/-- The loop of `load`: the documents of a spool. A broken one is skipped to the end of its line. -/
def loadLoop : Nat → Bytes → List Doc
  | 0, _ => []
  | n + 1, f =>
    let f := f.dropWhile isSpace
    if f = [] then []
    else
      match P.deserialize f with
      | (some doc, rest) => doc :: loadLoop n rest
      | (none, rest) => loadLoop n (rest.dropWhile (· ≠ 10)).tail

/-- The documents of a spool. -/
def loadSpool (f : Bytes) : List Doc := loadLoop P (f.length + 1) f

/-- `apply_doc_to_ring`. -/
def LXMFInbox.applyDocToRing (s : LXMFInbox) (doc : Doc) : LXMFInbox :=
  let r := docToRecord P.toCodec doc
  { s with nextSeq := max s.nextSeq r.seq, ring := recent s.ramCapacity (s.ring ++ [r]) }

/-- `load`, when the spool can be opened or not. -/
def LXMFInbox.load (opened : Bool) (s : LXMFInbox) : LXMFInbox :=
  let s := { s with ring := [], nextSeq := 0 }
  if opened then
    let docs := loadSpool P s.spool
    let s := docs.foldl (LXMFInbox.applyDocToRing P) s
    if docs.length > s.ring.length then s.rewriteSpool P else s
  else s

/-- What becomes of the line of an append: all of it is written, or the document is cut short and
has no newline. -/
inductive Written where
  | whole
  | short (n : Nat)
  deriving DecidableEq, Repr

/-- The record that `append` writes. -/
def LXMFInbox.numbered (s : LXMFInbox) (r : MessageRecord) : MessageRecord :=
  { r with
    seq := if r.seq = 0 then (s.nextSeq + 1) % 2 ^ 32 else r.seq
    bodySize := r.content.length % 2 ^ 32 }

/-- The mailbox after `append` numbered a record. -/
def LXMFInbox.counted (r : MessageRecord) (s : LXMFInbox) : LXMFInbox :=
  let seq := (s.numbered r).seq
  { s with nextSeq := if r.seq = 0 then seq else max s.nextSeq seq }

/-- The mailbox after a whole line was written. -/
def LXMFInbox.pushed (r : MessageRecord) (s : LXMFInbox) : LXMFInbox :=
  { s with
    spool := s.spool ++ line P r
    ring := recent s.ramCapacity (s.ring ++ [r]) }

/-- `append`. -/
def LXMFInbox.append (r : MessageRecord) (w : Written) (now : Option UInt64) (s : LXMFInbox) :
    LXMFInbox :=
  let r' := s.numbered r
  let s := s.counted r
  match w with
  | .short n => { s with spool := s.spool ++ (P.serialize (recordToDoc P.toCodec r')).take n }
  | .whole => (s.pushed P r').pruneExpired P now

/-- `update_status`. -/
def LXMFInbox.updateStatus (packetHash : Bytes) (status : OutboxStatus) (s : LXMFInbox) :
    LXMFInbox :=
  if s.ring.any (·.packetHash = packetHash) then
    let ring := s.ring.map fun r => if r.packetHash = packetHash then { r with status } else r
    LXMFInbox.rewriteSpool P { s with ring }
  else s

/-- `mutate_by_seq`. -/
def LXMFInbox.mutateBySeq (seq : Nat) (f : MessageRecord → MessageRecord) (s : LXMFInbox) :
    LXMFInbox :=
  if s.ring.any (·.seq = seq) then
    LXMFInbox.rewriteSpool P { s with ring := modifyFirst (·.seq = seq) f s.ring }
  else s

/-- An attachment after its backend changed. -/
def migrate (source target : Bytes) (a : AttachmentMeta) : AttachmentMeta :=
  if a.backend = source then { a with backend := target } else a

/-- `update_attachment_backends`. -/
def LXMFInbox.updateAttachmentBackends (source target : Bytes) (s : LXMFInbox) : LXMFInbox :=
  if s.ring.any (·.attachments.any (·.backend = source)) then
    let ring := s.ring.map fun r =>
      { r with attachments := r.attachments.map (migrate source target) }
    LXMFInbox.rewriteSpool P { s with ring }
  else s

/-- `purge_peer`. -/
def LXMFInbox.purgePeer (peerHash : Bytes) (s : LXMFInbox) : LXMFInbox :=
  let s' := { s with ring := s.ring.filter (·.peerHash ≠ peerHash) }
  if s'.ring.length < s.ring.length then s'.rewriteSpool P else s'

/-- `reserve_seq`. -/
def LXMFInbox.reserveSeq (s : LXMFInbox) : LXMFInbox :=
  { s with nextSeq := (s.nextSeq + 1) % 2 ^ 32 }

/-- What happens to a mailbox. -/
inductive Event where
  | append (r : MessageRecord) (w : Written) (now : Option UInt64)
  | updateStatus (packetHash : Bytes) (status : OutboxStatus)
  | mutateBySeq (seq : Nat) (f : MessageRecord → MessageRecord)
  | updateAttachmentBackends (source target : Bytes)
  | purgePeer (peerHash : Bytes)
  | pruneExpired (now : Option UInt64)
  | setCapacity (cap : Nat)
  | setDefaultRetention (r : Retention) (now : Option UInt64)
  | setPeerRetention (peerHex : Bytes) (r : Retention) (now : Option UInt64)
  | clearPeerRetention (peerHex : Bytes) (now : Option UInt64)
  | clearAllPeerRetention
  | reserveSeq
  | load (opened : Bool)

/-- One event. -/
def LXMFInbox.step (s : LXMFInbox) : Event → LXMFInbox
  | .append r w now => s.append P r w now
  | .updateStatus packetHash status => s.updateStatus P packetHash status
  | .mutateBySeq seq f => s.mutateBySeq P seq f
  | .updateAttachmentBackends source target => s.updateAttachmentBackends P source target
  | .purgePeer peerHash => s.purgePeer P peerHash
  | .pruneExpired now => s.pruneExpired P now
  | .setCapacity cap => s.setCapacity P cap
  | .setDefaultRetention r now => s.setDefaultRetention P r now
  | .setPeerRetention peerHex r now => s.setPeerRetention P peerHex r now
  | .clearPeerRetention peerHex now => s.clearPeerRetention P peerHex now
  | .clearAllPeerRetention => { s with peerRetention := [] }
  | .reserveSeq => s.reserveSeq
  | .load opened => s.load P opened

end URSupreme.Inbox
