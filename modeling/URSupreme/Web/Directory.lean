import URSupreme.Lib.Bytes

/-!
# The directories of a map archive

The codec of `Web/MapExtract.h` for directories: unsigned varints, the four columns of
`serialize_entries_range` and `deserialize_entries`, and `relevant` of the extraction, which takes
the entries it wants from a decoded directory.

A read outside the buffer and a write outside the vector are outcomes of their own.
-/

namespace URSupreme.MapExtract
open Lib

/-- What the code leaves to its target: how far a `uint64_t` is shifted by 64 bits or more, and for
how many entries a vector can be allocated. -/
structure Target where
  shiftLeft : UInt64 → Nat → UInt64
  room : Nat → Bool
  shiftLeft_eq : ∀ v s, s < 64 → shiftLeft v s = v <<< UInt64.ofNat s
  shiftLeft_zero : ∀ s, shiftLeft 0 s = 0
  room_lt : ∀ n, room n = true → n < 2 ^ 32

/-- `EntryV3`. -/
structure EntryV3 where
  tileId : UInt64
  offset : UInt64
  length : UInt32
  runLength : UInt32
  deriving DecidableEq, Repr

/-- The loop of `put_uvarint`; ten bytes hold 64 bits. -/
def putUvarintLoop : Nat → UInt64 → Bytes
  | 0, v => [v.toUInt8]
  | n + 1, v =>
    if v ≥ 0x80 then (v.toUInt8 ||| 0x80) :: putUvarintLoop n (v >>> 7) else [v.toUInt8]

/-- `put_uvarint`. -/
def putUvarint (v : UInt64) : Bytes := putUvarintLoop 9 v

variable (T : Target)

/-- The loop of `get_uvarint`, over the `n` bytes from `pos` to the end of the buffer. -/
def getUvarintLoop (p : Bytes) : Nat → UInt64 → Nat → Nat → Option (UInt64 × Nat)
  | 0, result, _, pos => some (result, pos)
  | n + 1, result, shift, pos =>
    match p[pos]? with
    | none => none
    | some b =>
      let result := result ||| T.shiftLeft (b &&& 0x7f).toUInt64 shift
      if b &&& 0x80 = 0 then some (result, pos + 1)
      else getUvarintLoop p n result (shift + 7) (pos + 1)

/-- `get_uvarint`: the value and the new position. -/
def getUvarint (p : Bytes) (pos : Nat) : Option (UInt64 × Nat) :=
  getUvarintLoop T p (p.length - pos) 0 0 pos

/-- The values of a column, one for each entry. -/
def getColumn (p : Bytes) : Nat → Nat → Option (List UInt64 × Nat)
  | 0, pos => some ([], pos)
  | num + 1, pos => do
    let (v, pos) ← getUvarint T p pos
    let (vs, pos) ← getColumn p num pos
    some (v :: vs, pos)

/-- The tile ids from their differences. -/
def tileIds (last : UInt64) : List UInt64 → List UInt64
  | [] => []
  | d :: ds => (last + d) :: tileIds (last + d) ds

/-- The offsets from their column and the lengths; a zero means that the entry follows the one
before, which the first entry does not have. -/
def offsets : Option (UInt64 × UInt32) → List (UInt64 × UInt32) → List UInt64
  | _, [] => []
  | before, (t, length) :: l =>
    let offset :=
      match before with
      | some (offset, length) => if t = 0 then offset + length.toUInt64 else t - 1
      | none => t - 1
    offset :: offsets (some (offset, length)) l

/-- The entries from their columns. -/
def entriesOf (ids runs lengths ts : List UInt64) : List EntryV3 :=
  let lengths := lengths.map (·.toUInt32)
  List.zipWith (fun (tileId, offset) (length, runLength) => { tileId, offset, length, runLength })
    ((tileIds 0 ids).zip (offsets none (ts.zip lengths)))
    (lengths.zip (runs.map (·.toUInt32)))

/-- The four loops of `deserialize_entries`. -/
def readEntries (p : Bytes) (num : Nat) (pos : Nat) : Option (List EntryV3) := do
  let (ids, pos) ← getColumn T p num pos
  let (runs, pos) ← getColumn T p num pos
  let (lengths, pos) ← getColumn T p num pos
  let (ts, _) ← getColumn T p num pos
  some (entriesOf ids runs lengths ts)

/-- How `deserialize_entries` ends. -/
inductive Decoded where
  /-- it returns -/
  | entries (out : List EntryV3)
  /-- the vector cannot be allocated -/
  | badAlloc
  /-- it writes behind the end of the vector, whose size has 32 bits -/
  | overrun
  /-- it reads outside the buffer -/
  | outside
  deriving DecidableEq, Repr

/-- `deserialize_entries`. -/
def deserializeEntries (p : Bytes) : Decoded :=
  match getUvarint T p 0 with
  | none => .outside
  | some (num, pos) =>
    if T.room (num.toNat % 2 ^ 32) = false then .badAlloc
    else if num.toNat % 2 ^ 32 < num.toNat then .overrun
    else
      match readEntries T p num.toNat pos with
      | none => .outside
      | some out => .entries out

/-- The differences of the tile ids. -/
def deltas (last : UInt64) : List EntryV3 → List UInt64
  | [] => []
  | e :: l => (e.tileId - last) :: deltas e.tileId l

/-- The column of the offsets, a zero for an entry that follows the one before. -/
def offsetColumn : Option EntryV3 → List EntryV3 → List UInt64
  | _, [] => []
  | before, e :: l =>
    let t :=
      match before with
      | some b => if e.offset = b.offset + b.length.toUInt64 then 0 else e.offset + 1
      | none => e.offset + 1
    t :: offsetColumn (some e) l

/-- `serialize_entries_range`, for the entries from `e` on. -/
def serializeEntriesRange (e : List EntryV3) : Bytes :=
  putUvarint (UInt64.ofNat e.length) ++ (deltas 0 e).flatMap putUvarint ++
    (e.map (·.runLength.toUInt64)).flatMap putUvarint ++
    (e.map (·.length.toUInt64)).flatMap putUvarint ++ (offsetColumn none e).flatMap putUvarint

/-- `rel_intersects`: `lower_bound` finds the first wanted tile from `lo` on. -/
def relIntersects (rel : List UInt64) (lo hi : UInt64) : Bool :=
  match rel.find? (· ≥ lo) with
  | some id => id < hi
  | none => false

/-- The runs of wanted tiles in the `n` tiles from `y` on, with the run that is open. -/
def wantedRuns (rel : List UInt64) (e : EntryV3) :
    Nat → UInt64 → UInt64 → UInt32 → List EntryV3
  | 0, _, curId, curRun =>
    if curRun > 0 then [{ e with tileId := curId, runLength := curRun }] else []
  | n + 1, y, curId, curRun =>
    if y ∈ rel then
      if curRun = 0 then wantedRuns rel e n (y + 1) y 1
      else wantedRuns rel e n (y + 1) curId (curRun + 1)
    else
      (if curRun > 0 then [{ e with tileId := curId, runLength := curRun }] else []) ++
        wantedRuns rel e n (y + 1) curId 0

/-- `relevant`: the tiles and the leaves it takes from a directory, for the wanted tiles `rel`. -/
def relevant (rel : List UInt64) (lastTile : UInt64) : List EntryV3 → List EntryV3 × List EntryV3
  | [] => ([], [])
  | e :: dir =>
    let (tiles, leaves) := relevant rel lastTile dir
    if e.runLength = 0 then
      let hi := (dir.head?.map (·.tileId)).getD lastTile
      if relIntersects rel e.tileId hi then (tiles, e :: leaves) else (tiles, leaves)
    else if e.runLength = 1 then
      if e.tileId ∈ rel then (e :: tiles, leaves) else (tiles, leaves)
    else
      let last := e.tileId + e.runLength.toUInt64
      (wantedRuns rel e (last.toNat - e.tileId.toNat) e.tileId e.tileId 0 ++ tiles, leaves)

end URSupreme.MapExtract
