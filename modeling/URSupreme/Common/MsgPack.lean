import URSupreme.Lib.Except
import URSupreme.Lib.Wire

/-!
# Msgpack helpers

The encoders and the two decoders of `Common/MsgPack.h`. A decoder gets the buffer `data` (its
`len` is `data.length`) and an offset; offsets are `size_t`, so sums are taken modulo `2 ^ 32`.
Reading at or past the end is the fault `overread`, and a recursion that outlives its `fuel` is
the fault `fuel`.
-/

namespace URSupreme.MsgPack
open Lib

/-- What can go wrong inside a decoder. -/
inductive Fault where
  | overread
  | fuel
  deriving DecidableEq, Repr

/-- A `size_t` value. -/
def sz (n : Nat) : Nat := n % 2 ^ 32

/-- `data[i]`. -/
def byteAt (data : Bytes) (i : Nat) : Except Fault UInt8 :=
  match data[i]? with
  | some b => .ok b
  | none => .error .overread

lemma sz_of_lt {n} (h : n < 2 ^ 32) : sz n = n := Nat.mod_eq_of_lt h

lemma byteAt_of_some {data i t} (h : data[i]? = some t) : byteAt data i = .ok t := by
  rw [byteAt, h]

lemma byteAt_of_le {data i} (h : data.length ≤ i) : byteAt data i = .error .overread := by
  rw [byteAt, List.getElem?_eq_none h]

lemma some_of_byteAt {data i b} (h : byteAt data i = .ok b) : data[i]? = some b := by
  unfold byteAt at h
  split at h
  next e => rw [e, Except.ok.inj h]
  next => cases h

lemma lt_of_some {data : Bytes} {i b} (h : data[i]? = some b) : i < data.length :=
  (List.getElem?_eq_some_iff.mp h).1

/-- `(data[i] << 8) | data[i + 1]`. -/
def u16 (data : Bytes) (i : Nat) : Except Fault Nat := do
  let a ← byteAt data (sz i)
  let b ← byteAt data (sz (i + 1))
  .ok (a.toNat <<< 8 ||| b.toNat)

/-- `(data[i] << 24) | (data[i + 1] << 16) | (data[i + 2] << 8) | data[i + 3]`. -/
def u32 (data : Bytes) (i : Nat) : Except Fault Nat := do
  let a ← byteAt data (sz i)
  let b ← byteAt data (sz (i + 1))
  let c ← byteAt data (sz (i + 2))
  let d ← byteAt data (sz (i + 3))
  .ok (a.toNat <<< 24 ||| b.toNat <<< 16 ||| c.toNat <<< 8 ||| d.toNat)

/-- The end of `read_bin_or_str`: the `slen` bytes from the offset on. -/
def readBody (data : Bytes) (slen offset : Nat) : Except Fault (Bytes × Nat) :=
  if sz (offset + slen) > data.length then .ok ([], offset)
  else if offset + slen > data.length then .error .overread
  else .ok (window data offset slen, sz (offset + slen))

/-- `read_bin_or_str`: the string read and the offset it leaves. -/
def readBinOrStr (data : Bytes) (offset : Nat) : Except Fault (Bytes × Nat) := do
  let len := data.length
  if offset ≥ len then .ok ([], offset)
  else
    let tag ← byteAt data offset
    let offset := sz (offset + 1)
    if tag &&& 0xE0 = 0xA0 then readBody data (tag &&& 0x1F).toNat offset
    else if tag = 0xD9 ∧ offset < len then
      readBody data (← byteAt data offset).toNat (sz (offset + 1))
    else if tag = 0xDA ∧ sz (offset + 1) < len then
      readBody data (← u16 data offset) (sz (offset + 2))
    else if tag = 0xDB ∧ sz (offset + 3) < len then
      readBody data (← u32 data offset) (sz (offset + 4))
    else if tag = 0xC4 ∧ offset < len then
      readBody data (← byteAt data offset).toNat (sz (offset + 1))
    else if tag = 0xC5 ∧ sz (offset + 1) < len then
      readBody data (← u16 data offset) (sz (offset + 2))
    else if tag = 0xC6 ∧ sz (offset + 3) < len then
      readBody data (← u32 data offset) (sz (offset + 4))
    else .ok ([], offset)

/-- What `skip_element` has decided before it recurses: its result, or the number of elements
to skip from the offset on. -/
inductive Head where
  | leaf (ok : Bool) (offset : Nat)
  | items (n offset : Nat)
  deriving DecidableEq, Repr

/-- `offset += n; return offset <= len;` -/
def advance (data : Bytes) (offset n : Nat) : Head :=
  .leaf (decide (sz (offset + n) ≤ data.length)) (sz (offset + n))

/-- The tests of `skip_element` on the tag, with the offset just behind it. -/
def skipTag (data : Bytes) (tag : UInt8) (offset : Nat) : Except Fault Head := do
  let len := data.length
  if tag = 0xC0 ∨ tag = 0xC2 ∨ tag = 0xC3 then .ok (.leaf true offset)
  else if tag ≤ 0x7F then .ok (.leaf true offset)
  else if tag ≥ 0xE0 then .ok (.leaf true offset)
  else if tag &&& 0xE0 = 0xA0 then .ok (advance data offset (tag &&& 0x1F).toNat)
  else if tag &&& 0xF0 = 0x90 then .ok (.items (tag &&& 0x0F).toNat offset)
  else if tag &&& 0xF0 = 0x80 then .ok (.items ((tag &&& 0x0F).toNat * 2) offset)
  else if tag = 0xCC ∨ tag = 0xD0 then .ok (advance data offset 1)
  else if tag = 0xCD ∨ tag = 0xD1 then .ok (advance data offset 2)
  else if tag = 0xCE ∨ tag = 0xD2 ∨ tag = 0xCA then .ok (advance data offset 4)
  else if tag = 0xCF ∨ tag = 0xD3 ∨ tag = 0xCB then .ok (advance data offset 8)
  else if tag = 0xD9 ∧ offset < len then
    .ok (advance data offset (1 + (← byteAt data offset).toNat))
  else if tag = 0xDA ∧ sz (offset + 1) < len then
    .ok (advance data offset (2 + (← u16 data offset)))
  else if tag = 0xDB ∧ sz (offset + 3) < len then
    .ok (advance data offset (4 + (← u32 data offset)))
  else if tag = 0xC4 ∧ offset < len then
    .ok (advance data offset (1 + (← byteAt data offset).toNat))
  else if tag = 0xC5 ∧ sz (offset + 1) < len then
    .ok (advance data offset (2 + (← u16 data offset)))
  else if tag = 0xC6 ∧ sz (offset + 3) < len then
    .ok (advance data offset (4 + (← u32 data offset)))
  else if tag = 0xDC ∧ sz (offset + 1) < len then
    .ok (.items (← u16 data offset) (sz (offset + 2)))
  else if tag = 0xDE ∧ sz (offset + 1) < len then
    .ok (.items ((← u16 data offset) * 2) (sz (offset + 2)))
  else if tag = 0xD4 then .ok (advance data offset 2)
  else if tag = 0xD5 then .ok (advance data offset 3)
  else if tag = 0xD6 then .ok (advance data offset 5)
  else if tag = 0xD7 then .ok (advance data offset 9)
  else if tag = 0xD8 then .ok (advance data offset 17)
  else .ok (.leaf false offset)

/-- The loop `for (i = 0; i < n; i++) if (!skip_element(..)) return false; return true;`. -/
def skipMany (skip : Nat → Except Fault (Bool × Nat)) : Nat → Nat → Except Fault (Bool × Nat)
  | 0, offset => .ok (true, offset)
  | n + 1, offset => do
    let (ok, offset) ← skip offset
    if ok then skipMany skip n offset else .ok (false, offset)

lemma skipMany_succ (skip : Nat → Except Fault (Bool × Nat)) (n offset : Nat) :
    skipMany skip (n + 1) offset = (do
      let (ok, offset) ← skip offset
      if ok then skipMany skip n offset else .ok (false, offset)) := rfl

/-- `skip_element`: its result and the offset it leaves, recursing at most `fuel` deep. -/
def skipElement : Nat → Bytes → Nat → Except Fault (Bool × Nat)
  | 0, _, _ => .error .fuel
  | fuel + 1, data, offset => do
    if offset ≥ data.length then .ok (false, offset)
    else
      match ← skipTag data (← byteAt data offset) (sz (offset + 1)) with
      | .leaf ok offset => .ok (ok, offset)
      | .items n offset => skipMany (skipElement fuel data) n offset

end URSupreme.MsgPack
