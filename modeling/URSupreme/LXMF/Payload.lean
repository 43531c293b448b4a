import URSupreme.Common.MsgPack

/-!
# Reading an LXMF payload

`_parse_lxmf_payload` and `_split_payload_stamp` of `LXMF/LXMFMinimal.h`. A payload is the msgpack
array `[timestamp, title, content, fields, stamp?]`; the first function reads what the user is
shown, the second finds the bytes covered by the hash and the signature.
-/

namespace URSupreme.LXMF
open Lib MsgPack

def FIELD_TELEMETRY : UInt8 := 0x02
def FIELD_FILE_ATTACHMENTS : UInt8 := 0x05
def FIELD_IMAGE : UInt8 := 0x06
def FIELD_AUDIO : UInt8 := 0x07
def FIELD_COMMANDS : UInt8 := 0x09
def FIELD_CUSTOM_META : UInt8 := 0xFD

def LXMF_MAX_TITLE_BYTES : Nat := 256
def LXMF_MAX_BODY_BYTES : Nat := 4096

/-- An attachment found in a payload; `raw` and `rawLen` point into the payload. -/
structure FieldBlob where
  tag : UInt8
  raw : Nat
  rawLen : Nat
  filename : Bytes := []
  audioMode : UInt8 := 0xFF
  deriving DecidableEq, Repr

/-- The out parameters the fields map fills in. -/
structure Fields where
  fields : List FieldBlob := []
  telemetry : Bytes := []
  commands : Bytes := []
  customMeta : Bytes := []
  deriving DecidableEq, Repr

/-- The out parameters of `_parse_lxmf_payload`; the timestamp is the bit pattern of a double. -/
structure Parsed where
  ts : Option UInt64
  title : Bytes
  content : Bytes
  fields : Fields
  deriving DecidableEq, Repr

/-- The bytes of a blob. -/
def FieldBlob.bytes (data : Bytes) (b : FieldBlob) : Bytes := window data b.raw b.rawLen

/-- The array header both functions start with: the announced length and the offset behind it. -/
def arrayHeader (data : Bytes) : Except Fault (Option (Nat × Nat)) := do
  let len := data.length
  let tag ← byteAt data 0
  if tag &&& 0xF0 = 0x90 then .ok (some ((tag &&& 0x0F).toNat, 1))
  else if tag = 0xDC ∧ sz (1 + 1) < len then .ok (some (← u16 data 1, 3))
  else .ok none

/-- The header length and length field of a `bin` value at `p`, with `none` for any other value. -/
def binHeader (data : Bytes) (valueEnd p : Nat) : Except Fault (Option (Nat × Nat)) := do
  let bt ← byteAt data p
  if bt = 0xC4 ∧ sz (p + 1) < valueEnd then .ok (some (2, (← byteAt data (sz (p + 1))).toNat))
  else if bt = 0xC5 ∧ sz (p + 2) < valueEnd then .ok (some (3, ← u16 data (p + 1)))
  else if bt = 0xC6 ∧ sz (p + 4) < valueEnd then .ok (some (5, ← u32 data (p + 1)))
  else .ok none

/-- The first element of a pair read by `emit_pair`: the blob so far and the offset behind it. -/
def pairName (data : Bytes) (valueEnd : Nat) (tag : UInt8) (p : Nat) :
    Except Fault (Option (Bytes × UInt8 × Nat)) := do
  let et ← byteAt data p
  if tag = FIELD_AUDIO then
    if et ≤ 0x7F then .ok (some ([], et, sz (p + 1)))
    else if et = 0xCC ∧ sz (p + 1) < valueEnd then
      .ok (some ([], ← byteAt data (sz (p + 1)), sz (p + 2)))
    else .ok none
  else
    let (filename, nameOff) ← readBinOrStr (data.take valueEnd) p
    if nameOff = p then .ok none else .ok (some (filename, 0xFF, nameOff))

/-- `emit_pair`: the blob of a `[name or mode, bin]` pair whose header ends at `p`, and the offset
behind it (0 on failure). -/
def emitPair (data : Bytes) (valueEnd : Nat) (tag : UInt8) (p : Nat) :
    Except Fault (List FieldBlob × Nat) := do
  if p ≥ valueEnd then .ok ([], 0)
  else
    match ← pairName data valueEnd tag p with
    | none => .ok ([], 0)
    | some (filename, audioMode, p) =>
      if p ≥ valueEnd then .ok ([], 0)
      else
        match ← binHeader data valueEnd p with
        | none => .ok ([], 0)
        | some (hdr, dlen) =>
          if sz (p + hdr + dlen) > valueEnd then .ok ([], 0)
          else .ok ([{ tag, raw := sz (p + hdr), rawLen := dlen, filename, audioMode }],
            sz (p + hdr + dlen))

/-- The offset behind the array header of a file pair. -/
def pairHeader (data : Bytes) (valueEnd p : Nat) : Except Fault (Option Nat) := do
  let et ← byteAt data p
  if et &&& 0xF0 = 0x90 then .ok (some (sz (p + 1)))
  else if et = 0xDC ∧ sz (p + 2) < valueEnd then .ok (some (sz (p + 3)))
  else if et = 0xDD ∧ sz (p + 4) < valueEnd then .ok (some (sz (p + 5)))
  else .ok none

/-- The loop over the pairs of `FIELD_FILE_ATTACHMENTS`. -/
def filePairs (data : Bytes) (valueEnd : Nat) : Nat → Nat → Except Fault (List FieldBlob)
  | 0, _ => .ok []
  | n + 1, p => do
    if p < valueEnd then
      match ← pairHeader data valueEnd p with
      | none => .ok []
      | some pairP =>
        let (blob, after) ← emitPair data valueEnd FIELD_FILE_ATTACHMENTS pairP
        if after = 0 then .ok blob
        else .ok (blob ++ (← filePairs data valueEnd n after))
    else .ok []

/-- The array header of an attachment value: the announced length and the offset behind it. -/
def valueHeader (data : Bytes) (valueStart valueEnd : Nat) :
    Except Fault (Option (Nat × Nat)) := do
  let vt ← byteAt data valueStart
  if vt &&& 0xF0 = 0x90 then .ok (some ((vt &&& 0x0F).toNat, sz (valueStart + 1)))
  else if vt = 0xDC ∧ sz (valueStart + 2) < valueEnd then
    .ok (some (← u16 data (valueStart + 1), sz (valueStart + 3)))
  else if vt = 0xDD ∧ sz (valueStart + 4) < valueEnd then
    .ok (some (← u32 data (valueStart + 1), sz (valueStart + 5)))
  else .ok none

/-- The header length and length field of a bare attachment value. -/
def bareHeader (data : Bytes) (valueStart valueEnd : Nat) :
    Except Fault (Option (Nat × Nat)) := do
  let vt ← byteAt data valueStart
  if vt &&& 0xE0 = 0xA0 then .ok (some (1, (vt &&& 0x1F).toNat))
  else if vt = 0xD9 ∧ sz (valueStart + 1) < valueEnd then
    .ok (some (2, (← byteAt data (sz (valueStart + 1))).toNat))
  else if vt = 0xDA ∧ sz (valueStart + 2) < valueEnd then
    .ok (some (3, ← u16 data (valueStart + 1)))
  else if vt = 0xDB ∧ sz (valueStart + 4) < valueEnd then
    .ok (some (5, ← u32 data (valueStart + 1)))
  else binHeader data valueEnd valueStart

/-- The value of an attachment field: the pairs of the Sideband shape, or the bare bytes. -/
def attachmentValue (data : Bytes) (key : UInt8) (valueStart valueEnd : Nat) :
    Except Fault (List FieldBlob) := do
  let vt ← byteAt data valueStart
  if vt &&& 0xF0 = 0x90 ∨ vt = 0xDC ∨ vt = 0xDD then
    match ← valueHeader data valueStart valueEnd with
    | none => .ok []
    | some (arrN, p) =>
      if key = FIELD_IMAGE ∨ key = FIELD_AUDIO then
        let (blob, _) ← emitPair data valueEnd key p
        .ok blob
      else filePairs data valueEnd arrN p
  else
    match ← bareHeader data valueStart valueEnd with
    | some (hdr, dlen) =>
      if sz (valueStart + hdr + dlen) ≤ valueEnd then
        .ok [{ tag := key, raw := sz (valueStart + hdr), rawLen := dlen }]
      else .ok [{ tag := key, raw := valueStart, rawLen := sz (valueEnd + 2 ^ 32 - valueStart) }]
    | none => .ok [{ tag := key, raw := valueStart, rawLen := sz (valueEnd + 2 ^ 32 - valueStart) }]

/-- `RNS::Bytes(&data[start], stop - start)`. -/
def copyBytes (data : Bytes) (start stop : Nat) : Except Fault Bytes :=
  let n := sz (stop + 2 ^ 32 - start)
  if start + n > data.length then .error .overread else .ok (window data start n)

/-- What one entry of the fields map adds to the out parameters. -/
def fieldValue (data : Bytes) (key : UInt8) (valueStart valueEnd : Nat) (acc : Fields) :
    Except Fault Fields := do
  if key = FIELD_TELEMETRY then
    let (inner, _) ← readBinOrStr (data.take valueEnd) valueStart
    .ok (if inner ≠ [] then { acc with telemetry := inner } else acc)
  else if key = FIELD_COMMANDS then
    .ok { acc with commands := ← copyBytes data valueStart valueEnd }
  else if key = FIELD_CUSTOM_META then
    .ok { acc with customMeta := ← copyBytes data valueStart valueEnd }
  else if key = FIELD_FILE_ATTACHMENTS ∨ key = FIELD_IMAGE ∨ key = FIELD_AUDIO then
    .ok { acc with fields := acc.fields ++ (← attachmentValue data key valueStart valueEnd) }
  else .ok acc

/-- The key of a map entry (a fixint or a uint8) and the offset behind it. -/
def fieldKey (data : Bytes) (off : Nat) : Except Fault (Option (UInt8 × Nat)) := do
  let kt ← byteAt data off
  let off := sz (off + 1)
  if kt ≤ 0x7F then .ok (some (kt, off))
  else if kt = 0xCC ∧ off < data.length then .ok (some (← byteAt data off, sz (off + 1)))
  else .ok none

/-- The loop over the entries of the fields map. -/
def fieldLoop (fuel : Nat) (data : Bytes) : Nat → Nat → Fields → Except Fault Fields
  | 0, _, acc => .ok acc
  | n + 1, off, acc => do
    if off < data.length then
      match ← fieldKey data off with
      | none => .ok acc
      | some (key, valueStart) =>
        let (ok, valueEnd) ← skipElement fuel data valueStart
        if ok then fieldLoop fuel data n valueEnd (← fieldValue data key valueStart valueEnd acc)
        else .ok acc
    else .ok acc

/-- The map header of element 3: the announced number of entries and the offset behind it. -/
def mapHeader (data : Bytes) (off : Nat) : Except Fault (Option (Nat × Nat)) := do
  let len := data.length
  let ftag ← byteAt data off
  if ftag = 0xC0 then .ok none
  else if ftag &&& 0xF0 = 0x80 then .ok (some ((ftag &&& 0x0F).toNat, sz (off + 1)))
  else if ftag = 0xDE then
    if sz (off + 2) ≥ len then .ok none else .ok (some (← u16 data (off + 1), sz (off + 3)))
  else if ftag = 0xDF then
    if sz (off + 4) ≥ len then .ok none else .ok (some (← u32 data (off + 1), sz (off + 5)))
  else .ok none

/-- Element 3 of the payload, when it is announced and there are bytes left. -/
def parseFields (fuel : Nat) (data : Bytes) (arrLen off : Nat) : Except Fault Fields := do
  if arrLen ≥ 4 ∧ off < data.length then
    match ← mapHeader data off with
    | none => .ok {}
    | some (mapLen, off) => fieldLoop fuel data mapLen off {}
  else .ok {}

/-- The timestamp, when element 0 is a float64. -/
def timestamp (data : Bytes) (off : Nat) : Except Fault (Option UInt64) := do
  if sz (off + 9) ≤ data.length then
    if (← byteAt data off) = 0xCB then
      let hi ← u32 data (off + 1)
      let lo ← u32 data (off + 5)
      .ok (some (UInt64.ofNat (hi * 2 ^ 32 + lo)))
    else .ok none
  else .ok none

/-- `_parse_lxmf_payload`: the out parameters, or `none` for the result false. -/
def parseLxmfPayload (fuel : Nat) (data : Bytes) : Except Fault (Option Parsed) := do
  if data.length < 2 then .ok none
  else
    match ← arrayHeader data with
    | none => .ok none
    | some (arrLen, off) =>
      if arrLen < 3 then .ok none
      else
        let ts ← timestamp data off
        let (ok, off) ← skipElement fuel data off
        if ok then
          let (title, off) ← readBinOrStr data off
          let (content, off) ← readBinOrStr data off
          let fields ← parseFields fuel data arrLen off
          .ok (some { ts, title := title.take LXMF_MAX_TITLE_BYTES,
                      content := content.take LXMF_MAX_BODY_BYTES, fields })
        else .ok none

/-- The out parameters of `_split_payload_stamp`. -/
structure Split where
  hdrLen : Nat
  coreEnd : Nat
  stamp : Bytes
  stripped : Bool
  deriving DecidableEq, Repr

/-- `_split_payload_stamp`: the out parameters, or `none` for the result false. -/
def splitPayloadStamp (fuel : Nat) (payload : Bytes) : Except Fault (Option Split) := do
  let len := payload.length
  if len < 1 then .ok none
  else
    match ← arrayHeader payload with
    | none => .ok none
    | some (arrLen, off) =>
      if arrLen < 5 then
        .ok (some { hdrLen := off, coreEnd := len, stamp := [], stripped := false })
      else
        let (ok, coreEnd) ← skipMany (skipElement fuel payload) 4 off
        if ok then
          let (s, _) ← readBinOrStr payload coreEnd
          .ok (some { hdrLen := off, coreEnd, stamp := s, stripped := true })
        else .ok none

/-- The payload part of `hashed_part` that `_deliver_lxmf_payload` builds from a split. -/
def hashedPayload (payload : Bytes) (s : Split) : Bytes :=
  if s.stripped then 0x94 :: window payload s.hdrLen (s.coreEnd - s.hdrLen) else payload

end URSupreme.LXMF
