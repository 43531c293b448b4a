import URSupreme.Common.MsgPackWrite
import URSupreme.LXMF.Payload

/-!
# Preparing an LXMF message

`prepare_message` of `LXMF/LXMFMinimal.h` and the payload part of `send_prepared`: the packing of
title, content, fields and attachments, the message id, the outbox record, and the stamp spliced in
as a fifth element. Staged attachment bytes are read as `OutboundStaging::read` delivers them.
-/

namespace URSupreme.LXMF
open Lib MsgPack

def HASH_LEN : Nat := 16
def SIG_LEN : Nat := 64
def MAX_TELEMETRY_BLOB : Nat := 512
def DRAM_BUF_THRESHOLD : Nat := 64 * 1024

/-- An attachment handed to `prepare_message`. -/
structure OutgoingAttachment where
  tag : UInt8
  stagingId : Nat := 0
  stagingTotalBytes : Nat := 0
  data : Bytes := []
  filename : Bytes := []
  ext : Bytes := []
  audioMode : UInt8 := 0xFF
  mime : Bytes := []
  deriving DecidableEq, Repr

/-- `byte_count`. -/
def OutgoingAttachment.byteCount (a : OutgoingAttachment) : Nat :=
  if a.stagingId ≠ 0 then a.stagingTotalBytes else a.data.length

/-- What the outbox record keeps of an attachment. -/
structure AttachmentMeta where
  tag : UInt8 := 0
  size : Nat := 0
  filename : Bytes := []
  displayName : Bytes := []
  mime : Bytes := []
  backend : Bytes := []
  deriving DecidableEq, Repr

/-- The optional fields of an outgoing message. -/
structure ExtraFields where
  telemetry : Bytes := []
  commands : Bytes := []
  customMeta : Bytes := []
  deriving DecidableEq, Repr

/-- The members of the outbox record that `prepare_message` fills in. -/
structure OutRecord where
  ts : UInt64
  bootEpoch : Nat
  receivedMs : Nat
  peerHash : Bytes
  title : Bytes
  content : Bytes
  incoming : Bool
  signatureOk : Bool
  hasTelemetry : Bool
  telemetry : Bytes
  attachments : List AttachmentMeta
  deriving DecidableEq, Repr

/-- `PreparedMessage`. -/
structure PreparedMessage where
  payload : Bytes
  messageId : Bytes
  ts : UInt64
  deriving DecidableEq, Repr

/-- What `prepare_message` asks of its surroundings. -/
structure SendEnv where
  initialized : Bool
  /-- the recipient's identity is cached -/
  remoteIdentity : Bool
  hasPath : Bool
  srcHash : Bytes
  fullHash : Bytes → Bytes
  timestamp : UInt64
  /-- whether PSRAM has room for a working buffer of this size -/
  malloc : Nat → Bool
  /-- the bytes behind a staging id -/
  staging : Nat → Bytes
  persistOutbound : Option (Bytes → List OutgoingAttachment → List AttachmentMeta)
  bootEpoch : Nat
  millis : Nat

/-- `OutboundStaging::read`. -/
def SendEnv.stagingRead (env : SendEnv) (id offset len : Nat) : Bytes :=
  window (env.staging id) offset len

/-- The loop that streams a staged attachment in 4 KiB chunks. -/
def stagingLoop (env : SendEnv) (id dlen : Nat) : Nat → Nat → Option Bytes
  | 0, off => if off < dlen then none else some []
  | fuel + 1, off =>
    if off < dlen then
      let got := env.stagingRead id off (min 4096 (dlen - off))
      if got = [] then none
      else (stagingLoop env id dlen fuel (off + got.length)).map (got ++ ·)
    else some []

/-- The first element of a pair: the audio mode, or the name or extension. -/
def packName (buflen : Nat) (nameOrExt : Bytes) (useAudioMode : Bool) (a : OutgoingAttachment) :
    Option Bytes :=
  if useAudioMode then packUint8 buflen a.audioMode else packStr buflen nameOrExt

/-- `pack_pair`: the buffer with one `[name or mode, bytes]` pair appended. -/
def packPair (env : SendEnv) (cap : Nat) (mp : Bytes) (nameOrExt : Bytes) (useAudioMode : Bool)
    (a : OutgoingAttachment) : Option Bytes := do
  let mp := mp ++ (← packArrayHeader (cap - mp.length) 2)
  let mp := mp ++ (← packName (cap - mp.length) nameOrExt useAudioMode a)
  let dlen := a.byteCount
  let mp := mp ++ (← packBinHeader (cap - mp.length) dlen)
  if mp.length + dlen > cap then none
  else if a.stagingId ≠ 0 then some (mp ++ (← stagingLoop env a.stagingId dlen dlen 0))
  else some (mp ++ a.data)

/-- `return fail(msg)` where a packing step wrote nothing. -/
def orFail {α : Type} (x : Option α) (msg : String) : Except String α :=
  match x with
  | some a => .ok a
  | none => .error msg

/-- The telemetry entry. -/
def packTelemetry (cap : Nat) (mp telemetry : Bytes) : Except String Bytes := do
  if telemetry = [] then .ok mp
  else
    let mp := mp ++ (← orFail (packUint8 (cap - mp.length) FIELD_TELEMETRY)
      "Internal error packing telemetry.")
    let mp := mp ++ (← orFail (packBin (cap - mp.length) telemetry)
      "Internal error packing telemetry.")
    .ok mp

/-- `pack_raw_field`: an entry whose value is copied verbatim. -/
def packRawField (cap : Nat) (mp : Bytes) (key : UInt8) (raw : Bytes) : Option Bytes := do
  let mp := mp ++ (← packUint8 (cap - mp.length) key)
  if mp.length + raw.length > cap then none else some (mp ++ raw)

/-- An entry copied verbatim, when there is one. -/
def packExtra (cap : Nat) (mp : Bytes) (key : UInt8) (raw : Bytes) (msg : String) :
    Except String Bytes :=
  if raw = [] then .ok mp else orFail (packRawField cap mp key raw) msg

/-- The image entry: the first image of the list. -/
def packImage (env : SendEnv) (cap : Nat) (mp : Bytes) (atts : List OutgoingAttachment) :
    Except String Bytes := do
  match atts.find? (·.tag = FIELD_IMAGE) with
  | none => .ok mp
  | some a =>
    let mp := mp ++ (← orFail (packUint8 (cap - mp.length) FIELD_IMAGE)
      "Internal error packing image key.")
    orFail (packPair env cap mp a.ext false a) "Internal error packing image attachment."

/-- The audio entry: the first audio clip of the list. -/
def packAudio (env : SendEnv) (cap : Nat) (mp : Bytes) (atts : List OutgoingAttachment) :
    Except String Bytes := do
  match atts.find? (·.tag = FIELD_AUDIO) with
  | none => .ok mp
  | some a =>
    let mp := mp ++ (← orFail (packUint8 (cap - mp.length) FIELD_AUDIO)
      "Internal error packing audio key.")
    orFail (packPair env cap mp [] true a) "Internal error packing audio attachment."

/-- The loop over the file attachments. -/
def packFilePairs (env : SendEnv) (cap : Nat) : Bytes → List OutgoingAttachment →
    Except String Bytes
  | mp, [] => .ok mp
  | mp, a :: rest => do
    let mp ← orFail (packPair env cap mp a.filename false a)
      "Internal error packing file attachment."
    packFilePairs env cap mp rest

/-- The file entry: all files of the list. -/
def packFiles (env : SendEnv) (cap : Nat) (mp : Bytes) (atts : List OutgoingAttachment) :
    Except String Bytes := do
  let files := atts.filter (·.tag = FIELD_FILE_ATTACHMENTS)
  if files = [] then .ok mp
  else
    let mp := mp ++ (← orFail (packUint8 (cap - mp.length) FIELD_FILE_ATTACHMENTS)
      "Internal error packing file-attachments key.")
    let mp := mp ++ (← orFail (packArrayHeader (cap - mp.length) files.length)
      "Too many file attachments to encode.")
    packFilePairs env cap mp files

/-- `field_count`. -/
def fieldCount (extra : ExtraFields) (atts : List OutgoingAttachment) : Nat :=
  (if atts.filter (·.tag = FIELD_FILE_ATTACHMENTS) = [] then 0 else 1) +
  (if atts.find? (·.tag = FIELD_IMAGE) = none then 0 else 1) +
  (if atts.find? (·.tag = FIELD_AUDIO) = none then 0 else 1) +
  (if extra.telemetry = [] then 0 else 1) +
  (if extra.commands = [] then 0 else 1) +
  (if extra.customMeta = [] then 0 else 1)

/-- Element 3: nil, or the map of all fields. -/
def packFields (env : SendEnv) (cap : Nat) (mp : Bytes) (extra : ExtraFields)
    (atts : List OutgoingAttachment) : Except String Bytes := do
  if atts = [] ∧ extra.telemetry = [] ∧ extra.commands = [] ∧ extra.customMeta = [] then
    .ok (mp ++ [0xC0])
  else
    let mp := mp ++ (← orFail (packMapHeader (cap - mp.length) (fieldCount extra atts))
      "Too many attachments.")
    let mp ← packTelemetry cap mp extra.telemetry
    let mp ← packExtra cap mp FIELD_COMMANDS extra.commands "Internal error packing commands."
    let mp ← packExtra cap mp FIELD_CUSTOM_META extra.customMeta
      "Internal error packing custom meta."
    let mp ← packImage env cap mp atts
    let mp ← packAudio env cap mp atts
    packFiles env cap mp atts

/-- `mp_cap`: the size of the working buffer. -/
def mpCap (title content : Bytes) (extra : Option ExtraFields) (atts : List OutgoingAttachment) :
    Nat :=
  96 + title.length + content.length + (atts.map (·.byteCount)).sum +
    (atts.map fun a => a.filename.length + a.ext.length).sum + 16 * atts.length +
    (match extra with
    | some e => (if e.telemetry = [] then 0 else e.telemetry.length + 8) +
        (e.commands.length + e.customMeta.length + 8)
    | none => 0)

/-- `"image."`. -/
def imagePrefix : Bytes := [0x69, 0x6D, 0x61, 0x67, 0x65, 0x2E]

/-- The record's entry for an attachment, over what the persist callback returned for it. -/
def attachmentMeta (m : AttachmentMeta) (a : OutgoingAttachment) : AttachmentMeta :=
  { m with
    tag := a.tag
    size := a.byteCount % 2 ^ 32
    displayName :=
      if a.tag = FIELD_IMAGE then (if a.ext = [] then a.filename else imagePrefix ++ a.ext)
      else a.filename
    mime := a.mime }

/-- The attachments of the outbox record. -/
def recordAttachments (env : SendEnv) (messageId : Bytes) (atts : List OutgoingAttachment) :
    List AttachmentMeta :=
  let persisted := match env.persistOutbound with
    | some f => f messageId atts
    | none => []
  if persisted.length = atts.length then List.zipWith attachmentMeta persisted atts
  else atts.map (attachmentMeta {})

/-- `prepare_message`: the frozen payload and the outbox record, or the error text. -/
def prepareMessage (env : SendEnv) (destHash title content : Bytes)
    (atts : List OutgoingAttachment) (extra : Option ExtraFields) :
    Except String (PreparedMessage × OutRecord) := do
  if env.initialized = false then .error "LXMF gateway not initialised"
  else if destHash.length ≠ HASH_LEN then
    .error "Destination address is the wrong length (expected 16 bytes)."
  else if env.remoteIdentity = false ∨ env.hasPath = false then
    .error "Finding a route to the recipient (sent a path request). Resend in a few seconds."
  else
    let cap := mpCap title content extra atts
    if cap > DRAM_BUF_THRESHOLD ∧ env.malloc cap = false then
      .error "Not enough memory to encode this message."
    else
      let extra := extra.getD {}
      let mp : Bytes := [0x94]
      let mp := mp ++ (← orFail (packFloat64 (cap - mp.length) env.timestamp)
        "Internal error packing timestamp.")
      let mp := mp ++ (← orFail (packBin (cap - mp.length) title) "Title is too long to encode.")
      let mp := mp ++ (← orFail (packBin (cap - mp.length) content)
        "Internal error: content pack returned 0 unexpectedly.")
      let mp ← packFields env cap mp extra atts
      let messageId := env.fullHash (destHash ++ env.srcHash ++ mp)
      if HASH_LEN + SIG_LEN + mp.length > 1 * 1024 * 1024 then
        .error "Message body is too large (> 1 MiB)."
      else
        .ok ({ payload := mp, messageId, ts := env.timestamp },
          { ts := env.timestamp
            bootEpoch := env.bootEpoch
            receivedMs := env.millis
            peerHash := destHash
            title
            content
            incoming := false
            signatureOk := true
            hasTelemetry := extra.telemetry ≠ []
            telemetry :=
              if extra.telemetry.length ≤ MAX_TELEMETRY_BLOB then extra.telemetry else []
            attachments := recordAttachments env messageId atts })

/-- The wire payload of `send_prepared`: the stamp rides as fifth element. -/
def payloadWire (payload stamp : Bytes) : Except String Bytes :=
  if stamp = [] then .ok payload
  else if payload.head? ≠ some 0x94 then
    .error "Internal error: unexpected payload framing for stamped send."
  else .ok (0x95 :: payload.tail ++ [0xC4, UInt8.ofNat stamp.length] ++ stamp)

end URSupreme.LXMF
