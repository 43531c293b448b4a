import URSupreme.Common.MsgPack

/-!
# The telemetry parsers

`decode_into` of `Telemetry/Telemeter.h`, and `meta_marks_message`, the walk of `on_commands` and
the walk of `on_live_offer` of `LXMF/TelemetryShare.h`. All four step through a msgpack map or
array with the two decoders of `Common/MsgPack.h`.
-/

namespace URSupreme.Telemetry
open Lib MsgPack

def SID_TIME : UInt8 := 0x01
def SID_LOCATION : UInt8 := 0x02
def SID_PRESSURE : UInt8 := 0x03
def SID_BATTERY : UInt8 := 0x04
def SID_TEMPERATURE : UInt8 := 0x07
def SID_HUMIDITY : UInt8 := 0x08
def SID_MAGNETIC_FIELD : UInt8 := 0x09

/-- A msgpack number before its conversion to a double. -/
inductive Number where
  | int (v : Int)
  | float32 (bits : Nat)
  | float64 (bits : Nat)
  deriving DecidableEq, Repr

/-- The members `decode_into` writes for one sensor. -/
inductive Reading where
  | time (v : Number)
  | battery (pct : Number) (chg : Option Bool)
  | location (lat lon alt speed bearing acc : Int)
  | magnetic (x y z : Number)
  | pressure (v : Number)
  | temperature (v : Number)
  | humidity (v : Number)
  deriving DecidableEq, Repr

/-- `n` bytes from offset `o` on, joined most significant first. -/
def beAt (data : Bytes) : Nat → Nat → Nat → Except Fault Nat
  | 0, _, v => .ok v
  | n + 1, o, v => do beAt data n (o + 1) (v <<< 8 ||| (← byteAt data (sz o)).toNat)

/-- A `w`-byte number as a signed one. -/
def signed (w v : Nat) : Int := if v < 2 ^ (8 * w - 1) then v else v - 2 ^ (8 * w)

/-- `read_number`: the number, if there is one, and the offset it leaves. -/
def readNumber (data : Bytes) (off : Nat) : Except Fault (Option Number × Nat) := do
  if off ≥ data.length then .ok (none, off)
  else
    let t ← byteAt data off
    let wide (n : Nat) (f : Nat → Number) : Except Fault (Option Number × Nat) := do
      if sz (off + (n + 1)) > data.length then .ok (none, off)
      else .ok (some (f (← beAt data n (off + 1) 0)), sz (off + (n + 1)))
    if t ≤ 0x7F then .ok (some (.int t.toNat), sz (off + 1))
    else if t ≥ 0xE0 then .ok (some (.int (signed 1 t.toNat)), sz (off + 1))
    else if t = 0xCC then wide 1 fun v => .int v
    else if t = 0xCD then wide 2 fun v => .int v
    else if t = 0xCE then wide 4 fun v => .int v
    else if t = 0xCF then wide 8 fun v => .int v
    else if t = 0xD0 then wide 1 fun v => .int (signed 1 v)
    else if t = 0xD1 then wide 2 fun v => .int (signed 2 v)
    else if t = 0xD2 then wide 4 fun v => .int (signed 4 v)
    else if t = 0xD3 then wide 8 fun v => .int (signed 8 v)
    else if t = 0xCA then wide 4 .float32
    else if t = 0xCB then wide 8 .float64
    else .ok (none, off)

/-- `read_be_bin`: the packed integer of `want` bytes, if there is one, and the offset it leaves. -/
def readBeBin (data : Bytes) (off want : Nat) : Except Fault (Option Int × Nat) := do
  if sz (off + 1) ≥ data.length then .ok (none, off)
  else if (← byteAt data off) ≠ 0xC4 then .ok (none, off)
  else if (← byteAt data (sz (off + 1))).toNat ≠ want then .ok (none, off)
  else
    let off := sz (off + 2)
    if sz (off + want) > data.length then .ok (none, off)
    else
      let v ← beAt data want off 0
      .ok (some (if want = 4 then signed 4 v else v), sz (off + want))

/-- `array_header`: the announced length, if there is one, and the offset it leaves. -/
def arrayHeader (data : Bytes) (off : Nat) : Except Fault (Option Nat × Nat) := do
  if off ≥ data.length then .ok (none, off)
  else
    let t ← byteAt data off
    if t &&& 0xF0 = 0x90 then .ok (some (t &&& 0x0F).toNat, sz (off + 1))
    else if t = 0xDC ∧ sz (off + 2) < data.length then
      .ok (some (← u16 data (off + 1)), sz (off + 3))
    else .ok (none, off)

/-- The map header `decode_into`, `meta_marks_message` and `on_live_offer` start with. -/
def mapHeader (data : Bytes) : Except Fault (Option (Nat × Nat)) := do
  if data.length = 0 then .ok none
  else
    let mt ← byteAt data 0
    if mt &&& 0xF0 = 0x80 then .ok (some ((mt &&& 0x0F).toNat, 1))
    else if mt = 0xDE ∧ sz (0 + 2) < data.length then .ok (some (← u16 data 1, 3))
    else .ok none

/-- How a case of the sensor switch ends: `return`, `continue` at an offset, or `break`. -/
inductive Ending where
  | abort
  | next (out : List Reading) (off : Nat)
  | skip (out : List Reading)
  deriving DecidableEq, Repr

/-- A case that reads one number and breaks. -/
def numberReading (data : Bytes) (off : Nat) (f : Number → Reading) : Except Fault Ending := do
  let (v, _) ← readNumber data off
  .ok (.skip (v.toList.map f))

/-- The six packed integers of a location and the offset behind them. -/
def locationReading (data : Bytes) (off : Nat) : Except Fault (List Reading) := do
  let (some la, off) ← readBeBin data off 4 | .ok []
  let (some lo, off) ← readBeBin data off 4 | .ok []
  let (some alt, off) ← readBeBin data off 4 | .ok []
  let (some spd, off) ← readBeBin data off 4 | .ok []
  let (some brg, off) ← readBeBin data off 4 | .ok []
  let (some acc, _) ← readBeBin data off 2 | .ok []
  if -90000000 ≤ la ∧ la ≤ 90000000 ∧ -180000000 ≤ lo ∧ lo ≤ 180000000 then
    .ok [.location la lo alt spd brg acc]
  else .ok []

/-- The switch of `decode_into` over the sensor id. -/
def sensorCase (data : Bytes) (sid : UInt8) (off : Nat) : Except Fault Ending := do
  if sid = SID_TIME then
    let (some v, off) ← readNumber data off | .ok .abort
    .ok (.next [.time v] off)
  else if sid = SID_BATTERY then
    let (some n, off) ← arrayHeader data off | .ok (.skip [])
    if n < 2 then .ok (.skip [])
    else
      let (some pct, off) ← readNumber data off | .ok .abort
      if off < data.length then
        let b ← byteAt data off
        .ok (.skip [.battery pct (if b = 0xC2 ∨ b = 0xC3 then some (b = 0xC3) else none)])
      else .ok (.skip [.battery pct none])
  else if sid = SID_LOCATION then
    let (some n, off) ← arrayHeader data off | .ok (.skip [])
    if n < 6 then .ok (.skip []) else .ok (.skip (← locationReading data off))
  else if sid = SID_MAGNETIC_FIELD then
    let (some n, off) ← arrayHeader data off | .ok (.skip [])
    if n < 3 then .ok (.skip [])
    else
      let (some x, off) ← readNumber data off | .ok (.skip [])
      let (some y, off) ← readNumber data off | .ok (.skip [])
      let (some z, _) ← readNumber data off | .ok (.skip [])
      .ok (.skip [.magnetic x y z])
  else if sid = SID_PRESSURE then numberReading data off .pressure
  else if sid = SID_TEMPERATURE then numberReading data off .temperature
  else if sid = SID_HUMIDITY then numberReading data off .humidity
  else .ok (.skip [])

/-- The key of a telemeter entry (a fixint or a uint8) and the offset behind it. -/
def sensorKey (data : Bytes) (off : Nat) : Except Fault (Option (UInt8 × Nat)) := do
  let kt ← byteAt data off
  let off := sz (off + 1)
  if kt ≤ 0x7F then .ok (some (kt, off))
  else if kt = 0xCC ∧ off < data.length then .ok (some (← byteAt data off, sz (off + 1)))
  else .ok none

/-- The loop of `decode_into`. -/
def decodeLoop (fuel : Nat) (data : Bytes) : Nat → Nat → List Reading →
    Except Fault (List Reading)
  | 0, _, out => .ok out
  | n + 1, off, out => do
    if off < data.length then
      match ← sensorKey data off with
      | none => .ok out
      | some (sid, valueStart) =>
        match ← sensorCase data sid valueStart with
        | .abort => .ok out
        | .next r off => decodeLoop fuel data n off (out ++ r)
        | .skip r =>
          let (ok, off) ← skipElement fuel data valueStart
          if ok then decodeLoop fuel data n off (out ++ r) else .ok (out ++ r)
    else .ok out

/-- `decode_into`: the members written, in order. -/
def decodeInto (fuel : Nat) (data : Bytes) : Except Fault (List Reading) := do
  match ← mapHeader data with
  | none => .ok []
  | some (entries, off) => decodeLoop fuel data entries off []

/-- `"urtn_msg"`. -/
def urtnMsg : Bytes := [0x75, 0x72, 0x74, 0x6E, 0x5F, 0x6D, 0x73, 0x67]

/-- `"urtn_live"`. -/
def urtnLive : Bytes := [0x75, 0x72, 0x74, 0x6E, 0x5F, 0x6C, 0x69, 0x76, 0x65]

/-- The loop of `meta_marks_message`. -/
def marksLoop (fuel : Nat) (data : Bytes) : Nat → Nat → Except Fault Bool
  | 0, _ => .ok false
  | n + 1, off => do
    if off < data.length then
      let (key, off) ← readBinOrStr data off
      if key = [] then .ok false
      else if key = urtnMsg then .ok true
      else
        let (ok, off) ← skipElement fuel data off
        if ok then marksLoop fuel data n off else .ok false
    else .ok false

/-- `meta_marks_message`. -/
def metaMarksMessage (fuel : Nat) (data : Bytes) : Except Fault Bool := do
  match ← mapHeader data with
  | none => .ok false
  | some (entries, off) => marksLoop fuel data entries off

/-- The entries of one command map: whether a telemetry request was among them and the offset
behind it, or `none` for the early return. -/
def commandEntries (fuel : Nat) (data : Bytes) : Nat → Nat → Bool →
    Except Fault (Option (Bool × Nat))
  | 0, off, requested => .ok (some (requested, off))
  | n + 1, off, requested => do
    if off < data.length then
      let key ← byteAt data off
      if key > 0x7F then .ok none
      else
        let (ok, off) ← skipElement fuel data (sz (off + 1))
        if ok then commandEntries fuel data n off (requested || key = 0x01) else .ok none
    else .ok (some (requested, off))

/-- The loop over the commands of `on_commands`. -/
def commandLoop (fuel : Nat) (data : Bytes) : Nat → Nat → Bool → Except Fault Bool
  | 0, _, requested => .ok requested
  | n + 1, off, requested => do
    if off < data.length then
      let mt ← byteAt data off
      if mt &&& 0xF0 = 0x80 then
        match ← commandEntries fuel data (mt &&& 0x0F).toNat (sz (off + 1)) requested with
        | none => .ok false
        | some (requested, off) => commandLoop fuel data n off requested
      else .ok false
    else .ok requested

/-- The walk of `on_commands`: whether the sender asks for telemetry. -/
def commandsRequest (fuel : Nat) (data : Bytes) : Except Fault Bool := do
  match ← arrayHeader data 0 with
  | (none, _) => .ok false
  | (some n, off) => commandLoop fuel data n off false

/-- `read_uint` of `on_live_offer`. -/
def readUint (data : Bytes) (off : Nat) : Except Fault (Option (Nat × Nat)) := do
  if off ≥ data.length then .ok none
  else
    let v ← byteAt data off
    let wide (width : Nat) : Except Fault (Option (Nat × Nat)) := do
      if sz (off + 1 + width) > data.length then .ok none
      else .ok (some (← beAt data width (off + 1) 0, sz (off + 1 + width)))
    if v ≤ 0x7F then .ok (some (v.toNat, sz (off + 1)))
    else if v = 0xCC then wide 1
    else if v = 0xCD then wide 2
    else if v = 0xCE then wide 4
    else .ok none

/-- The offer behind the key `urtn_live`: how long and how often. -/
def liveOffer (data : Bytes) (off : Nat) : Except Fault (Option (Nat × Nat)) := do
  if off ≥ data.length then .ok none
  else
    let t ← byteAt data off
    if t &&& 0xF0 ≠ 0x90 ∨ t &&& 0x0F < 2 then .ok none
    else
      let some (forS, off) ← readUint data (sz (off + 1)) | .ok none
      let some (everyS, _) ← readUint data off | .ok none
      .ok (some (forS, everyS))

/-- The loop of `on_live_offer`. -/
def offerLoop (fuel : Nat) (data : Bytes) : Nat → Nat → Except Fault (Option (Nat × Nat))
  | 0, _ => .ok none
  | n + 1, off => do
    if off < data.length then
      let (key, off) ← readBinOrStr data off
      if key = [] then .ok none
      else if key ≠ urtnLive then
        let (ok, off) ← skipElement fuel data off
        if ok then offerLoop fuel data n off else .ok none
      else liveOffer data off
    else .ok none

/-- The walk of `on_live_offer`: the offer it acts on. -/
def onLiveOffer (fuel : Nat) (data : Bytes) : Except Fault (Option (Nat × Nat)) := do
  match ← mapHeader data with
  | none => .ok none
  | some (entries, off) => offerLoop fuel data entries off

end URSupreme.Telemetry
