import URSupreme.Lib.Numerals

/-!
# NMEA sentences

`Sensors/Position/Nmea.h`, and the lines that the pump of `Gnss.h` puts together. The parser works
in the line buffer: reading or writing outside of it has no result. What the fix does not take from
a sentence is left out, and so is the calendar of `mktime`, which is a parameter.
-/

namespace URSupreme.Nmea
open Lib

/-- `Fix`; coordinates, altitude and the other doubles are exact. -/
structure Fix where
  valid : Bool := false
  latitude_deg : Number := .finite 0
  longitude_deg : Number := .finite 0
  altitude_m : Number := .finite 0
  altitude_valid : Bool := false
  sats : UInt8 := 0
  hdop : Number := .finite 0
  hdop_valid : Bool := false
  sats_visible : UInt8 := 0
  sats_tracked : UInt8 := 0
  best_snr_db : UInt8 := 0
  speed_knots : Number := .finite 0
  heading_deg : Number := .finite 0
  unix_epoch : Number := .finite 0
  fix_received_ms : UInt32 := 0
  last_valid_fix_ms : UInt32 := 0
  deriving DecidableEq

inductive Sentence where
  | none
  | rmcValid
  | rmcInvalid
  | gga
  | gsv
  | txt
  | other
  deriving DecidableEq

def GSV_TALKERS : ℕ := 8
def GSV_CYCLE_MS : UInt32 := 5000

/-- A talker's place in the tables of `GsvState`. -/
structure Slot where
  talker : UInt8 × UInt8 := (0, 0)
  in_view : UInt8 := 0
  tracked : UInt8 := 0
  deriving DecidableEq

/-- `GsvState`. -/
structure GsvState where
  slots : List Slot := List.replicate GSV_TALKERS {}
  best_snr : UInt8 := 0
  last_ms : UInt32 := 0
  deriving DecidableEq

/-! ### The fields of a sentence -/

/-- `(uint8_t)n`. -/
def toByte (n : ℤ) : UInt8 := UInt8.ofNat (n % 256).toNat

/-- The first slot that is empty or the talker's. -/
def findSlot (talker : UInt8 × UInt8) (slots : List Slot) : Option ℕ :=
  slots.findIdx? fun s => s.talker.1 = 0 || s.talker = talker

/-- The signals of the quads. -/
def signals : List Bytes → List ℤ
  | _ :: _ :: _ :: snr :: rest =>
    let n := atoi snr
    if snr ≠ [] ∧ n > 0 ∧ n ≤ 99 then n :: signals rest else signals rest
  | _ => []

/-- A satellite is heard. -/
def Slot.hear (s : Slot) : Slot :=
  if s.tracked < 255 then { s with tracked := s.tracked + 1 } else s

/-- The talker's slot is changed; where it has none and none is empty, nothing is. -/
def place (talker : UInt8 × UInt8) (change : Slot → Slot) (slots : List Slot) : List Slot :=
  match findSlot talker slots with
  | some i => slots.modify i change
  | none => slots

/-- The part of `parse_line` for GSV. -/
def parseGsv (talker : UInt8 × UInt8) (fields : List Bytes) (now : UInt32) (f : Fix)
    (g : GsvState) : Fix × GsvState :=
  if fields.length < 3 then (f, g)
  else
    let g := if now - g.last_ms > GSV_CYCLE_MS then { g with
      slots := List.replicate GSV_TALKERS {}, best_snr := 0 } else g
    let g := { g with last_ms := now }
    let snrs := signals (fields.drop 3)
    let slots := place talker (fun s =>
      let s := { s with talker, in_view := toByte (atoi (fields.getD 2 [])) }
      let s := if atoi (fields.getD 1 []) = 1 then { s with tracked := 0 } else s
      snrs.foldl (fun s _ => s.hear) s) g.slots
    let g := { g with slots, best_snr := snrs.foldl (fun best n => max best (toByte n)) g.best_snr }
    let total := (g.slots.map fun s => s.in_view.toNat).sum
    let heard := (g.slots.map fun s => s.tracked.toNat).sum
    ({ f with
      sats_visible := UInt8.ofNat (min total 255)
      sats_tracked := UInt8.ofNat (min heard 255)
      best_snr_db := g.best_snr }, g)

/-- Degrees, and minutes that are added. -/
def Number.degrees (deg : ℕ) : Number → Number
  | .finite m => .finite (deg + m / 60)
  | m => m

/-- `parse_coord`. -/
def parseCoord (s : Bytes) (degree_digits : ℕ) : Number :=
  if s = [] then .finite 0
  else if s.length < degree_digits + 1 then .finite 0
  else
    let deg := s.take degree_digits
    if deg.all fun c => '0'.toUInt8 ≤ c ∧ c ≤ '9'.toUInt8 then
      Number.degrees (deg.foldl (fun d c => d * 10 + (c.toNat - 48)) 0)
        (atof (s.drop degree_digits))
    else .finite 0

/-- The fields of `tm` that are set: the year, the month, the day, the hour, the minute, the
second. -/
abbrev Tm := ℤ × ℤ × ℤ × ℤ × ℤ × ℤ

/-- `parse_rmc_datetime`. -/
def parseRmcDatetime (mktime : Tm → ℤ) (time_str date_str : Bytes) : Number :=
  if time_str.length < 6 then .finite 0
  else if date_str.length ≠ 6 then .finite 0
  else
    let digits2 (s : Bytes) (i : ℕ) : ℤ :=
      ((s.getD i 0).toNat - 48) * 10 + ((s.getD (i + 1) 0).toNat - 48)
    .finite (mktime (2000 + digits2 date_str 4 - 1900, digits2 date_str 2 - 1, digits2 date_str 0,
      digits2 time_str 0, digits2 time_str 2, digits2 time_str 4))

/-- The part of `parse_line` for GGA. -/
def parseGga (fields : List Bytes) (f : Fix) : Fix :=
  if fields.length < 10 then f
  else
    let field (i : ℕ) : Bytes := fields.getD i []
    if atoi (field 5) ≤ 0 then { f with altitude_valid := false, hdop_valid := false }
    else
      let f := if field 6 ≠ [] then { f with sats := toByte (atoi (field 6)) } else f
      let f := if field 7 ≠ [] then { f with hdop := atof (field 7), hdop_valid := true } else f
      if field 8 ≠ [] then { f with altitude_m := atof (field 8), altitude_valid := true } else f

/-- The part of `parse_line` for RMC. -/
def parseRmc (mktime : Tm → ℤ) (fields : List Bytes) (now : UInt32) (f : Fix) : Sentence × Fix :=
  if fields.length < 10 then (.rmcInvalid, f)
  else
    let field (i : ℕ) : Bytes := fields.getD i []
    if (field 1).head? ≠ some 'A'.toUInt8 then
      (.rmcInvalid, { f with valid := false, fix_received_ms := now })
    else
      let lat := parseCoord (field 2) 2
      let lon := parseCoord (field 4) 3
      (.rmcValid, { f with
        valid := true
        latitude_deg := if (field 3).head? = some 'S'.toUInt8 then lat.neg else lat
        longitude_deg := if (field 5).head? = some 'W'.toUInt8 then lon.neg else lon
        speed_knots := atof (field 6)
        heading_deg := atof (field 7)
        unix_epoch := parseRmcDatetime mktime (field 0) (field 8)
        fix_received_ms := now
        last_valid_fix_ms := now })

/-- The sentences that are handled. -/
inductive Kind where
  | rmc
  | gga
  | gsv
  | txt
  deriving DecidableEq

/-- The kind, by the letters behind the talker. -/
def kindOf (c2 c3 c4 : UInt8) : Option Kind :=
  let letters := [c2, c3, c4]
  if letters = ['R'.toUInt8, 'M'.toUInt8, 'C'.toUInt8] then some .rmc
  else if letters = ['G'.toUInt8, 'G'.toUInt8, 'A'.toUInt8] then some .gga
  else if letters = ['G'.toUInt8, 'S'.toUInt8, 'V'.toUInt8] then some .gsv
  else if letters = ['T'.toUInt8, 'X'.toUInt8, 'T'.toUInt8] then some .txt
  else none

/-- What a line comes to: what it was, the fix, the satellites, and the text of a TXT sentence. -/
structure Parsed where
  sentence : Sentence
  fix : Fix
  gsv : GsvState
  out_txt : Option Bytes := none
  deriving DecidableEq

/-- The end of `parse_line`, from the fields. -/
def parseFields (mktime : Tm → ℤ) (kind : Kind) (talker : UInt8 × UInt8) (fields : List Bytes)
    (now : UInt32) (f : Fix) (g : GsvState) : Parsed :=
  match kind with
  | .gsv =>
    let (fix, gsv) := parseGsv talker fields now f g
    { sentence := .gsv, fix, gsv }
  | .txt =>
    { sentence := .txt, fix := f, gsv := g
      out_txt := if fields.length ≥ 4 then fields[3]? else none }
  | .gga => { sentence := .gga, fix := parseGga fields f, gsv := g }
  | .rmc =>
    let (sentence, fix) := parseRmc mktime fields now f
    { sentence, fix, gsv := g }

/-! ### The line -/

def STAR : UInt8 := '*'.toUInt8
def COMMA : UInt8 := ','.toUInt8
def DOLLAR : UInt8 := '$'.toUInt8

/-- The size of the line buffer. -/
def LINE_SIZE : ℕ := 96

/-- A byte of the buffer. -/
def peek (b : Bytes) (i : ℤ) : Option UInt8 := if 0 ≤ i then b[i.toNat]? else none

/-- A byte is written. -/
def poke (b : Bytes) (i : ℤ) (c : UInt8) : Option Bytes :=
  if 0 ≤ i ∧ i < b.length then some (b.set i.toNat c) else none

/-- `memchr`, from `i` on. -/
def memchr (b : Bytes) (i : ℤ) (c : UInt8) : ℕ → Option (Option ℤ)
  | 0 => some none
  | len + 1 => do
    let x ← peek b i
    if x = c then some (some i) else memchr b (i + 1) c len

/-- The exclusive or of `len` bytes from `i` on. -/
def xorAt (b : Bytes) (i : ℤ) : ℕ → UInt8 → Option UInt8
  | 0, cs => some cs
  | len + 1, cs => do
    let x ← peek b i
    xorAt b (i + 1) len (cs ^^^ x)

/-- The value of a hexadecimal digit. -/
def fromhex (c : UInt8) : Option UInt8 := (digitOf 16 c).map UInt8.ofNat

/-- The two digits behind the asterisk are those of the sum. -/
def digitsOk (cs h l : UInt8) : Bool :=
  match fromhex h, fromhex l with
  | some h, some l => cs = (h <<< 4) ||| l
  | _, _ => false

/-- `checksum_ok`, on the `len` bytes from `line` on. -/
def checksumOk (b : Bytes) (line : ℤ) (len : ℕ) : Option Bool := do
  match ← memchr b line STAR len with
  | none => some false
  | some star =>
    if star + 3 > line + len then some false
    else
      let first ← peek b line
      let p := if first = DOLLAR then line + 1 else line
      let cs ← xorAt b p (star - p).toNat 0
      let h ← peek b (star + 1)
      let l ← peek b (star + 2)
      some (digitsOk cs h l)

/-- The loop of `split_fields`, at `i` with `len` bytes to come. -/
def splitLoop (max_fields : ℕ) : ℕ → ℤ → Bytes → List ℤ → Option (Bytes × List ℤ)
  | 0, _, b, fields => some (b, fields)
  | len + 1, i, b, fields =>
    if fields.length < max_fields then do
      let c ← peek b i
      if c = COMMA then
        let b ← poke b i 0
        splitLoop max_fields len (i + 1) b (fields ++ [i + 1])
      else splitLoop max_fields len (i + 1) b fields
    else some (b, fields)

/-- `split_fields`: the buffer, and where its fields begin. -/
def splitFields (b : Bytes) (p : ℤ) (len max_fields : ℕ) : Option (Bytes × List ℤ) :=
  splitLoop max_fields len p b [p]

/-- The string at `i`, up to its zero. -/
def cstr (b : Bytes) (i : ℤ) : Option Bytes :=
  if 0 ≤ i ∧ 0 ∈ b.drop i.toNat then some ((b.drop i.toNat).takeWhile (· ≠ 0)) else none

/-- The length without the line end. -/
def trimEnd (b : Bytes) (p : ℤ) : ℕ → Option ℕ
  | 0 => some 0
  | len + 1 => do
    let c ← peek b (p + len)
    if c = '\r'.toUInt8 ∨ c = '\n'.toUInt8 then trimEnd b p len else some (len + 1)

/-- A dollar sign is in front. -/
def hasDollar (b : Bytes) (len : ℕ) : Option Bool :=
  if len = 0 then some false else (peek b 0).map (· = DOLLAR)

/-- The sum is right with the byte in front of `p` or without. -/
def eitherOk (b : Bytes) (p : ℤ) (len : ℕ) : Option Bool :=
  (checksumOk b (p - 1) (len + 1)).bind fun ok => if ok then some true else checksumOk b p len

/-- The buffer with a zero for the asterisk, and the length up to it. -/
def cutStar (b : Bytes) (p : ℤ) (len : ℕ) : Option (Bytes × ℕ) :=
  (memchr b p STAR len).bind fun
    | some star => (poke b star 0).map (·, (star - p).toNat)
    | none => some (b, len)

/-- The end of `parse_line`, for a sentence that is handled. -/
def parseBody (mktime : Tm → ℤ) (kind : Kind) (b : Bytes) (p : ℤ) (len : ℕ) (now : UInt32)
    (f : Fix) (g : GsvState) : Option Parsed := do
  let (b, len) ← cutStar b p len
  match ← memchr b p COMMA len with
  | none => some { sentence := .other, fix := f, gsv := g }
  | some comma =>
    let body := comma + 1
    let (b, starts) ← splitFields b body (len - (body - p).toNat) 20
    let fields ← starts.mapM (cstr b)
    let t0 ← peek b p
    let t1 ← peek b (p + 1)
    some (parseFields mktime kind (t0, t1) fields now f g)

/-- `parse_line`, on the first `len` bytes of the buffer. -/
def parseLine (mktime : Tm → ℤ) (b : Bytes) (len : ℕ) (now : UInt32) (f : Fix) (g : GsvState) :
    Option Parsed := do
  let dollar ← hasDollar b len
  let p : ℤ := if dollar then 1 else 0
  let len ← trimEnd b p (if dollar then len - 1 else len)
  let ok ← eitherOk b p len
  if ¬ ok ∨ len < 5 then some { sentence := .none, fix := f, gsv := g }
  else
    let c2 ← peek b (p + 2)
    let c3 ← peek b (p + 3)
    let c4 ← peek b (p + 4)
    match kindOf c2 c3 c4 with
    | none => some { sentence := .other, fix := f, gsv := g }
    | some kind => parseBody mktime kind b p len now f g

/-- The line that is put together: the buffer, and how much of it is used. -/
structure LineBuf where
  buf : Bytes := List.replicate LINE_SIZE 0
  blen : ℕ := 0
  length : buf.length = LINE_SIZE := by decide
  blen_lt : blen < LINE_SIZE := by decide

/-- What is passed to `parse_line`: the buffer, with a zero behind the line, and the length. -/
def LineBuf.passed (l : LineBuf) : Bytes × ℕ := (l.buf.set l.blen 0, l.blen)

/-- A byte that the pump reads: the line goes on, or is passed on. -/
def LineBuf.pump (l : LineBuf) (c : UInt8) : LineBuf × Option (Bytes × ℕ) :=
  if c = '\n'.toUInt8 then
    ({ buf := l.passed.1, blen := 0, length := (List.length_set ..).trans l.length }, some l.passed)
  else if h : l.blen + 1 < LINE_SIZE then
    ({ buf := l.buf.set l.blen c, blen := l.blen + 1
       length := (List.length_set ..).trans l.length, blen_lt := h }, none)
  else ({ l with blen := 0, blen_lt := by decide }, none)

end URSupreme.Nmea
