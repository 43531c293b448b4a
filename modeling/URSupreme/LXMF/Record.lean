import Mathlib.Data.List.TakeWhile
import URSupreme.Lib.Bytes
import URSupreme.Lib.Table
import URSupreme.LXMF.Outbound

/-!
# Records on disk

`MessageRecord` of `LXMF/LXMFTypes.h` and its conversion to and from a JSON document,
`record_to_doc` and `doc_to_record` of `LXMF/LXMFInbox.h`. The JSON library, the hexadecimal text of
`RNS::Bytes` and the conversion of numbers to doubles are outside. A record comes back as it was iff
it is `Plain`.
-/

namespace URSupreme.Inbox
open Lib LXMF
open Outbound (OutboxStatus)

/-- `MessageRecord`; `ts` is the bits of a double. -/
structure MessageRecord where
  seq : Nat := 0
  ts : UInt64 := 0
  bootEpoch : Nat := 0
  receivedMs : Nat := 0
  peerHash : Bytes := []
  title : Bytes := []
  content : Bytes := []
  bodySize : Nat := 0
  incoming : Bool := false
  signatureOk : Bool := false
  status : OutboxStatus := .delivered
  packetHash : Bytes := []
  hasTelemetry : Bool := false
  telemetry : Bytes := []
  commands : Bytes := []
  customMeta : Bytes := []
  stampChecked : Bool := false
  stampValid : Bool := false
  stampValue : Int := -1
  attachments : List AttachmentMeta := []
  deriving DecidableEq, Repr

/-- The keys of the documents: `seq`, `ts`, `boot`, `recv_ms`, `peer`, `title`, `body`, `body_size`,
`in`, `sig`, `status`, `pkt`, `tel`, `telb`, `stamp_ok`, `stampv`, and `t`, `s`, `f`, `d`, `m`, `b`
of an attachment. -/
inductive Key where
  | seq | ts | boot | recvMs | peer | title | body | bodySize | incoming | sig | status
  | pkt | tel | telb | stampOk | stampv
  | t | s | f | d | m | b
  deriving DecidableEq, Repr

/-- A JSON value that is not a container; a number is an integer or a double. -/
inductive Scalar where
  | bool (b : Bool)
  | int (n : Int)
  | float (bits : UInt64)
  | str (s : Bytes)
  deriving DecidableEq, Repr

abbrev Members := List (Key × Scalar)

/-- A document: its members, and the array under `att`. -/
structure Doc where
  members : Members
  att : Option (List Members)
  deriving DecidableEq, Repr

/-- What the records use of `RNS::Bytes` and of doubles. -/
structure Codec where
  toHex : Bytes → Bytes
  assignHex : Bytes → Bytes
  double : Int → UInt64
  /-- the double that is read for one that was written -/
  number : UInt64 → UInt64

/-- The bytes of an ASCII text. -/
def ascii (s : String) : Bytes := s.toList.map fun c => UInt8.ofNat c.toNat

/-- A string as `const char*`, which ends at its first zero. -/
def cString (s : Bytes) : Bytes := s.takeWhile (· ≠ 0)

/-- A cast to `uint32_t`. -/
def u32 (n : Int) : Nat := (n % 2 ^ 32).toNat

/-- A cast to `int16_t`. -/
def i16 (n : Int) : Int := (n + 2 ^ 15) % 2 ^ 16 - 2 ^ 15

/-- `doc[key] | n`, for an `int`: the number if it is an integer that fits. -/
def orInt (m : Members) (key : Key) (n : Int) : Int :=
  match lookup key m with
  | some (.int i) => if -2 ^ 31 ≤ i ∧ i < 2 ^ 31 then i else n
  | _ => n

/-- `doc[key] | n`, for a `uint32_t`. -/
def orUInt (m : Members) (key : Key) (n : Nat) : Nat :=
  match lookup key m with
  | some (.int i) => if 0 ≤ i ∧ i < 2 ^ 32 then i.toNat else n
  | _ => n

/-- `doc[key] | 0.0`. -/
def orDouble (C : Codec) (m : Members) (key : Key) : UInt64 :=
  match lookup key m with
  | some (.float bits) => bits
  | some (.int i) => C.double i
  | _ => 0

/-- `doc[key] | false`. -/
def orFalse (m : Members) (key : Key) : Bool :=
  match lookup key m with
  | some (.bool b) => b
  | _ => false

/-- `doc[key] | text`, as a C string. -/
def orText (m : Members) (key : Key) (text : Bytes) : Bytes :=
  match lookup key m with
  | some (.str s) => cString s
  | _ => text

/-- `outbox_status_name`. -/
def outboxStatusName : OutboxStatus → Bytes
  | .queued => ascii "queued"
  | .sent => ascii "sent"
  | .delivered => ascii "delivered"
  | .failed => ascii "failed"
  | .findingRoute => ascii "finding_route"
  | .generatingStamp => ascii "generating_stamp"

/-- The status that a text stands for. -/
def statusOfText (s : Bytes) : OutboxStatus :=
  if s = ascii "queued" then .queued
  else if s = ascii "sent" then .sent
  else if s = ascii "failed" then .failed
  else if s = ascii "generating_stamp" then .generatingStamp
  else .delivered

/-- One attachment of a document. -/
def attachmentOf (o : Members) : AttachmentMeta :=
  { tag := UInt8.ofNat (u32 (orInt o .t 0) % 256), size := u32 (orInt o .s 0)
    filename := orText o .f [], displayName := orText o .d [], mime := orText o .m []
    backend := orText o .b (ascii "flash") }

/-- `doc_to_record`. -/
def docToRecord (C : Codec) (doc : Doc) : MessageRecord :=
  let m := doc.members
  let content := orText m .body []
  let stamp := match lookup .stampOk m with
    | some (.bool valid) => (true, valid, i16 (orInt m .stampv (-1)))
    | _ => (false, false, -1)
  { seq := u32 (orInt m .seq 0)
    ts := orDouble C m .ts
    bootEpoch := u32 (orInt m .boot 0)
    receivedMs := u32 (orInt m .recvMs 0)
    peerHash := C.assignHex (orText m .peer [])
    title := orText m .title []
    content
    bodySize := orUInt m .bodySize content.length
    incoming := orFalse m .incoming
    signatureOk := orFalse m .sig
    status := statusOfText (orText m .status (ascii "delivered"))
    stampChecked := stamp.1
    stampValid := stamp.2.1
    stampValue := stamp.2.2
    packetHash := match lookup .pkt m with
      | some (.str s) => C.assignHex (cString s)
      | _ => []
    hasTelemetry := orFalse m .tel
    telemetry := match lookup .telb m with
      | some (.str s) => C.assignHex (cString s)
      | _ => []
    attachments := match doc.att with
      | some l => l.map attachmentOf
      | none => [] }

/-- A member that only some documents have. -/
def putIf (c : Prop) [Decidable c] (key : Key) (s : Scalar) (m : Members) : Members :=
  if c then (key, s) :: m else m

/-- One attachment in a document. -/
def attachmentMembers (a : AttachmentMeta) : Members :=
  (.t, .int a.tag.toNat) :: (.s, .int a.size) :: (.f, .str a.filename) ::
    putIf (a.displayName ≠ []) .d (.str a.displayName)
      (putIf (a.mime ≠ []) .m (.str a.mime) (putIf (a.backend ≠ []) .b (.str a.backend) []))

/-- `record_to_doc`. -/
def recordToDoc (C : Codec) (r : MessageRecord) : Doc :=
  { members :=
      (.seq, .int r.seq) :: (.ts, .float r.ts) :: (.boot, .int r.bootEpoch) ::
      (.recvMs, .int r.receivedMs) :: (.peer, .str (C.toHex r.peerHash)) ::
      (.title, .str r.title) :: (.body, .str r.content) ::
      (.bodySize, .int (if r.bodySize > 0 then r.bodySize else r.content.length)) ::
      (.incoming, .bool r.incoming) :: (.sig, .bool r.signatureOk) ::
      (.status, .str (outboxStatusName r.status)) ::
      putIf (r.packetHash ≠ []) .pkt (.str (C.toHex r.packetHash))
        (putIf (r.hasTelemetry = true) .tel (.bool true)
          (putIf (r.telemetry ≠ []) .telb (.str (C.toHex r.telemetry))
            (putIf (r.stampChecked = true) .stampOk (.bool r.stampValid)
              (putIf (r.stampChecked = true ∧ 0 ≤ r.stampValue) .stampv (.int r.stampValue) []))))
    att := if r.attachments = [] then none else some (r.attachments.map attachmentMembers) }

/-- A value as it is read after it was written. -/
def Scalar.readBack (C : Codec) : Scalar → Scalar
  | .float bits => .float (C.number bits)
  | s => s

/-- A document as it is read after it was written. -/
def Doc.readBack (C : Codec) (doc : Doc) : Doc :=
  { members := doc.members.map fun (key, s) => (key, s.readBack C)
    att := doc.att.map (·.map (·.map fun (key, s) => (key, s.readBack C))) }

/-- What the records rely on: hexadecimal text without zeros that is read back. -/
structure Codec.Hex (C : Codec) : Prop where
  read : ∀ b, C.assignHex (C.toHex b) = b
  noZero : ∀ b, 0 ∉ C.toHex b

/-- An attachment as it comes back. -/
def readBackMeta (a : AttachmentMeta) : AttachmentMeta :=
  { tag := a.tag, size := if a.size < 2 ^ 31 then a.size else 0, filename := cString a.filename
    displayName := cString a.displayName, mime := cString a.mime
    backend := if a.backend = [] then ascii "flash" else cString a.backend }

/-- A record as it comes back. -/
def MessageRecord.readBack (C : Codec) (r : MessageRecord) : MessageRecord :=
  { seq := if r.seq < 2 ^ 31 then r.seq else 0
    ts := C.number r.ts
    bootEpoch := if r.bootEpoch < 2 ^ 31 then r.bootEpoch else 0
    receivedMs := if r.receivedMs < 2 ^ 31 then r.receivedMs else 0
    peerHash := r.peerHash
    title := cString r.title
    content := cString r.content
    bodySize :=
      let n := if r.bodySize > 0 then r.bodySize else r.content.length
      if n < 2 ^ 32 then n else (cString r.content).length
    incoming := r.incoming
    signatureOk := r.signatureOk
    status := if r.status = .findingRoute then .delivered else r.status
    packetHash := r.packetHash
    hasTelemetry := r.hasTelemetry
    telemetry := r.telemetry
    stampChecked := r.stampChecked
    stampValid := r.stampChecked && r.stampValid
    stampValue :=
      if r.stampChecked ∧ 0 ≤ r.stampValue ∧ r.stampValue < 2 ^ 31 then i16 r.stampValue else -1
    attachments := r.attachments.map readBackMeta }

variable {C : Codec} {r : MessageRecord} {a : AttachmentMeta} {key : Key} {m : Members}

lemma lookup_putIf {c : Prop} [Decidable c] {key' : Key} {s : Scalar} :
    lookup key (putIf c key' s m) = if c ∧ key' = key then some s else lookup key m := by
  unfold putIf
  split
  next h =>
    rw [lookup_cons]
    simp only [h, true_and]
  next h => simp only [h, false_and, if_false]

lemma lookup_readBack (doc : Doc) :
    lookup key (doc.readBack C).members = (lookup key doc.members).map (Scalar.readBack C) :=
  lookup_map _

lemma cString_of_not_mem {s : Bytes} (h : 0 ∉ s) : cString s = s :=
  List.takeWhile_eq_self_iff.mpr fun _ hb =>
    decide_eq_true fun e => h (e ▸ hb)

/-- A text ends at its first zero. -/
lemma cString_eq_iff {s : Bytes} : cString s = s ↔ 0 ∉ s := by
  refine ⟨fun h hm => ?_, cString_of_not_mem⟩
  have := List.takeWhile_eq_self_iff.mp h 0 hm
  exact absurd this (by decide)

lemma u32_of_lt {n : Nat} (h : n < 2 ^ 31) : u32 (n : Int) = n := by
  unfold u32
  omega

/-- A status comes back from its text, unless it is `finding_route`. -/
lemma statusOfText_name (s : OutboxStatus) : statusOfText (cString (outboxStatusName s)) =
    if s = .findingRoute then .delivered else s := by
  cases s <;> decide

/-- An integer that is not negative, read as an `int`. -/
lemma orInt_nat {n : Nat} (h : lookup key m = some (.int n)) :
    u32 (orInt m key 0) = if n < 2 ^ 31 then n else 0 := by
  unfold orInt
  rw [h]
  dsimp only
  split
  next hn => rw [if_pos (by omega), u32_of_lt (by omega)]
  next hn => rw [if_neg (by omega)]; rfl

lemma orText_str {s text : Bytes} (h : lookup key m = some (.str s)) :
    orText m key text = cString s := by
  unfold orText
  rw [h]

lemma orText_if {s text : Bytes} (h : lookup key m = if s ≠ [] then some (.str s) else none) :
    orText m key text = if s = [] then text else cString s := by
  by_cases hs : s = []
  · rw [if_neg (not_not.mpr hs)] at h
    unfold orText
    rw [h, if_pos hs]
  · rw [if_pos hs] at h
    rw [orText_str h, if_neg hs]

lemma orUInt_nat {n k : Nat} (h : lookup key m = some (.int n)) :
    orUInt m key k = if n < 2 ^ 32 then n else k := by
  unfold orUInt
  rw [h]
  dsimp only
  split
  next hn => rw [if_pos (by omega), Int.toNat_natCast]
  next hn => rw [if_neg (by omega)]

lemma orFalse_bool {b : Bool} (h : lookup key m = some (.bool b)) : orFalse m key = b := by
  unfold orFalse
  rw [h]

/-- The members of an attachment, as they are read. -/
lemma lookup_attachment : lookup key ((attachmentMembers a).map fun x => (x.1, x.2.readBack C)) =
    match key with
    | .t => some (.int a.tag.toNat)
    | .s => some (.int a.size)
    | .f => some (.str a.filename)
    | .d => if a.displayName ≠ [] then some (.str a.displayName) else none
    | .m => if a.mime ≠ [] then some (.str a.mime) else none
    | .b => if a.backend ≠ [] then some (.str a.backend) else none
    | _ => none := by
  rw [lookup_map]
  unfold attachmentMembers
  simp only [lookup_cons, lookup_putIf, lookup_nil]
  cases key <;> simp [Scalar.readBack, apply_ite (Option.map (Scalar.readBack C))]

/-- An attachment comes back, with a backend at least. -/
lemma attachmentOf_readBack :
    attachmentOf ((attachmentMembers a).map fun x => (x.1, x.2.readBack C)) = readBackMeta a := by
  unfold attachmentOf readBackMeta
  rw [orInt_nat lookup_attachment, orInt_nat lookup_attachment, orText_str lookup_attachment,
    orText_if lookup_attachment, orText_if lookup_attachment, orText_if lookup_attachment]
  have htag := a.tag.toNat_lt
  have hnil : cString [] = [] := rfl
  congr 1
  · rw [if_pos (by omega), Nat.mod_eq_of_lt htag, UInt8.ofNat_toNat]
  · split
    next h => rw [h, hnil]
    next => rfl
  · split
    next h => rw [h, hnil]
    next => rfl

/-- The members of a record, as they are read. -/
lemma lookup_record {k : Key} : lookup k ((recordToDoc C r).readBack C).members =
    match k with
    | .seq => some (.int r.seq)
    | .ts => some (.float (C.number r.ts))
    | .boot => some (.int r.bootEpoch)
    | .recvMs => some (.int r.receivedMs)
    | .peer => some (.str (C.toHex r.peerHash))
    | .title => some (.str r.title)
    | .body => some (.str r.content)
    | .bodySize => some (.int ↑(if r.bodySize > 0 then r.bodySize else r.content.length))
    | .incoming => some (.bool r.incoming)
    | .sig => some (.bool r.signatureOk)
    | .status => some (.str (outboxStatusName r.status))
    | .pkt => if r.packetHash ≠ [] then some (.str (C.toHex r.packetHash)) else none
    | .tel => if r.hasTelemetry then some (.bool true) else none
    | .telb => if r.telemetry ≠ [] then some (.str (C.toHex r.telemetry)) else none
    | .stampOk => if r.stampChecked then some (.bool r.stampValid) else none
    | .stampv => if r.stampChecked ∧ 0 ≤ r.stampValue then some (.int r.stampValue) else none
    | _ => none := by
  rw [lookup_readBack]
  unfold recordToDoc
  simp only [lookup_cons, lookup_putIf, lookup_nil]
  cases k <;> simp [Scalar.readBack, apply_ite (Option.map (Scalar.readBack C))]

/-- What `doc_to_record` makes of a document that was written for a record. -/
lemma docToRecord_readBack (hC : C.Hex) :
    docToRecord C ((recordToDoc C r).readBack C) = r.readBack C := by
  have hx : ∀ b, C.assignHex (cString (C.toHex b)) = b := fun b => by
    rw [cString_of_not_mem (hC.noZero b), hC.read]
  have hbytes : ∀ b : Bytes, (match if b ≠ [] then some (Scalar.str (C.toHex b)) else none with
      | some (.str s) => C.assignHex (cString s)
      | _ => []) = b := fun b => by
    by_cases hb : b = []
    · rw [if_neg (not_not.mpr hb), hb]
    · rw [if_pos hb]
      exact hx b
  unfold docToRecord MessageRecord.readBack
  simp only [MessageRecord.mk.injEq]
  have hstamp := lookup_record (C := C) (r := r) (k := .stampOk)
  dsimp only at hstamp
  refine ⟨orInt_nat lookup_record, ?ts, orInt_nat lookup_record, orInt_nat lookup_record, ?peer,
    orText_str lookup_record, orText_str lookup_record, ?size, orFalse_bool lookup_record,
    orFalse_bool lookup_record, ?status, ?pkt, ?tel, ?telb, trivial, trivial, ?checked,
    ?valid, ?value, ?att⟩
  case ts =>
    unfold orDouble
    rw [lookup_record]
  case peer => rw [orText_str lookup_record, hx]
  case size => rw [orUInt_nat lookup_record, orText_str lookup_record]
  case status => rw [orText_str lookup_record, statusOfText_name]
  case pkt =>
    rw [lookup_record]
    exact hbytes r.packetHash
  case tel =>
    unfold orFalse
    rw [lookup_record]
    cases r.hasTelemetry <;> rfl
  case telb =>
    rw [lookup_record]
    exact hbytes r.telemetry
  case checked =>
    rw [hstamp]
    cases r.stampChecked <;> rfl
  case valid =>
    rw [hstamp]
    cases r.stampChecked <;> rfl
  case value =>
    rw [hstamp]
    cases hc : r.stampChecked with
    | false => rfl
    | true =>
      have hv := lookup_record (C := C) (r := r) (k := .stampv)
      rw [hc] at hv
      dsimp only at hv
      simp only [orInt, hv, true_and]
      by_cases h0 : 0 ≤ r.stampValue
      · have hmin : -2 ^ 31 ≤ r.stampValue := by omega
        simp only [h0, hmin, if_true, true_and]
        exact apply_ite i16 _ _ _
      · simp only [h0, if_false, false_and]
        rfl
  case att =>
    unfold recordToDoc Doc.readBack
    dsimp only
    cases hatt : r.attachments with
    | nil => rfl
    | cons a l =>
      rw [if_neg (List.cons_ne_nil a l), Option.map_some]
      dsimp only
      rw [List.map_map, List.map_map]
      exact List.map_congr_left fun a _ => attachmentOf_readBack

/-- An attachment that survives: no text of it has a zero, and its backend is named. -/
structure PlainMeta (a : AttachmentMeta) : Prop where
  size : a.size < 2 ^ 31
  filename : 0 ∉ a.filename
  displayName : 0 ∉ a.displayName
  mime : 0 ∉ a.mime
  backend : a.backend ≠ [] ∧ 0 ∉ a.backend

/-- A record that survives: its numbers fit into an `int`, its texts have no zeros, and it holds
nothing that the documents leave out. -/
structure Plain (C : Codec) (r : MessageRecord) : Prop where
  seq : r.seq < 2 ^ 31
  ts : C.number r.ts = r.ts
  bootEpoch : r.bootEpoch < 2 ^ 31
  receivedMs : r.receivedMs < 2 ^ 31
  title : 0 ∉ r.title
  content : 0 ∉ r.content
  bodySize : (r.bodySize ≠ 0 ∨ r.content = []) ∧ r.bodySize < 2 ^ 32
  status : r.status ≠ .findingRoute
  commands : r.commands = []
  customMeta : r.customMeta = []
  stamp : if r.stampChecked then -1 ≤ r.stampValue ∧ r.stampValue < 2 ^ 15
    else r.stampValid = false ∧ r.stampValue = -1
  attachments : ∀ a ∈ r.attachments, PlainMeta a

lemma readBackMeta_eq (h : PlainMeta a) : readBackMeta a = a := by
  unfold readBackMeta
  rw [if_pos h.size, cString_of_not_mem h.filename, cString_of_not_mem h.displayName,
    cString_of_not_mem h.mime, if_neg h.backend.1, cString_of_not_mem h.backend.2]

/-- A plain record comes back as it was. -/
lemma readBack_eq (h : Plain C r) : r.readBack C = r := by
  have hstamp : (r.stampChecked && r.stampValid) = r.stampValid ∧
      (if r.stampChecked ∧ 0 ≤ r.stampValue ∧ r.stampValue < 2 ^ 31 then i16 r.stampValue else -1) =
        r.stampValue := by
    have hs := h.stamp
    unfold i16
    cases hc : r.stampChecked with
    | false =>
      rw [hc] at hs
      exact ⟨hs.1.symm, (if_neg fun h => Bool.false_ne_true h.1).trans hs.2.symm⟩
    | true =>
      rw [hc] at hs
      obtain ⟨h1, h2⟩ := hs
      refine ⟨rfl, ?_⟩
      simp only [true_and]
      split <;> omega
  have hsize : (if r.bodySize > 0 then r.bodySize else r.content.length) = r.bodySize := by
    split
    next => rfl
    next h0 =>
      rw [h.bodySize.1.resolve_left fun h1 => h0 (Nat.pos_of_ne_zero h1)]
      exact (Nat.eq_zero_of_not_pos h0).symm
  unfold MessageRecord.readBack
  dsimp only
  rw [if_pos h.seq, h.ts, if_pos h.bootEpoch, if_pos h.receivedMs, cString_of_not_mem h.title,
    cString_of_not_mem h.content, hsize, if_pos h.bodySize.2, if_neg h.status, hstamp.1, hstamp.2,
    (List.map_congr_left fun a ha => readBackMeta_eq (h.attachments a ha)).trans (List.map_id _)]
  have hc := h.commands
  have hm := h.customMeta
  cases r
  dsimp only at hc hm
  rw [hc, hm]

end URSupreme.Inbox
