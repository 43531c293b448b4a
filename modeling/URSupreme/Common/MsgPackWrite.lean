import URSupreme.Common.MsgPackTags

/-!
# The msgpack encoders

The encoders of `Common/MsgPack.h`. Each gets the room left in the destination (`buflen`) and
returns the bytes it writes, `none` where the source returns 0.
-/

namespace URSupreme.MsgPack
open Lib Lib.Wire

/-- `pack_bin_header`. -/
def packBinHeader (buflen dlen : Nat) : Option Bytes :=
  if dlen ≤ 255 then
    if buflen < 2 then none else some (0xC4 :: beBytes 1 dlen)
  else if dlen ≤ 0xFFFF then
    if buflen < 3 then none else some (0xC5 :: beBytes 2 dlen)
  else if buflen < 5 then none else some (0xC6 :: beBytes 4 dlen)

/-- `pack_bin` (and `pack_bin_str`). -/
def packBin (buflen : Nat) (data : Bytes) : Option Bytes := do
  let pos ← packBinHeader buflen data.length
  if pos.length + data.length > buflen then none else some (pos ++ data)

/-- `pack_float64` of a bit pattern. -/
def packFloat64 (buflen : Nat) (bits : UInt64) : Option Bytes :=
  if buflen < 9 then none else some (0xCB :: beBytes 8 bits.toNat)

/-- `pack_uint8`. -/
def packUint8 (buflen : Nat) (v : UInt8) : Option Bytes :=
  if buflen < 1 then none
  else if v ≤ 0x7F then some [v]
  else if buflen < 2 then none
  else some [0xCC, v]

/-- `pack_int`. -/
def packInt (buflen : Nat) (v : Int64) : Option Bytes :=
  let bits := v.toUInt64.toNat
  if v ≥ 0 then
    if v ≤ 0x7F then if buflen < 1 then none else some [UInt8.ofNat bits]
    else if v ≤ 0xFF then if buflen < 2 then none else some (0xCC :: beBytes 1 bits)
    else if v ≤ 0xFFFF then if buflen < 3 then none else some (0xCD :: beBytes 2 bits)
    else if v ≤ 0xFFFFFFFF then if buflen < 5 then none else some (0xCE :: beBytes 4 bits)
    else if buflen < 9 then none else some (0xCF :: beBytes 8 bits)
  else
    if v ≥ -32 then if buflen < 1 then none else some [0xE0 ||| (UInt8.ofNat bits &&& 0x1F)]
    else if v ≥ -128 then if buflen < 2 then none else some (0xD0 :: beBytes 1 bits)
    else if v ≥ -32768 then if buflen < 3 then none else some (0xD1 :: beBytes 2 bits)
    else if v ≥ -2147483648 then if buflen < 5 then none else some (0xD2 :: beBytes 4 bits)
    else if buflen < 9 then none else some (0xD3 :: beBytes 8 bits)

/-- `pack_bool`. -/
def packBool (buflen : Nat) (v : Bool) : Option Bytes :=
  if buflen < 1 then none else some [if v then 0xC3 else 0xC2]

/-- `pack_str`. -/
def packStr (buflen : Nat) (s : Bytes) : Option Bytes :=
  let slen := s.length
  if slen ≤ 31 then
    if 1 + slen > buflen then none else some ((0xA0 ||| UInt8.ofNat slen) :: s)
  else if slen ≤ 255 then
    if 2 + slen > buflen then none else some (0xD9 :: beBytes 1 slen ++ s)
  else if slen ≤ 0xFFFF then
    if 3 + slen > buflen then none else some (0xDA :: beBytes 2 slen ++ s)
  else if 5 + slen > buflen then none
  else some (0xDB :: beBytes 4 slen ++ s)

/-- `pack_array_header`. -/
def packArrayHeader (buflen n : Nat) : Option Bytes :=
  if n ≤ 15 then
    if buflen < 1 then none else some [0x90 ||| UInt8.ofNat n]
  else if n ≤ 0xFFFF then
    if buflen < 3 then none else some (0xDC :: beBytes 2 n)
  else if buflen < 5 then none else some (0xDD :: beBytes 4 n)

/-- `pack_map_header`. -/
def packMapHeader (buflen n : Nat) : Option Bytes :=
  if n ≤ 15 then
    if buflen < 1 then none else some [0x80 ||| UInt8.ofNat n]
  else if n ≤ 0xFFFF then
    if buflen < 3 then none else some (0xDE :: beBytes 2 n)
  else if buflen < 5 then none else some (0xDF :: beBytes 4 n)

/-- A `bin` header and the length it announces. -/
inductive BinHeader : Bytes → Nat → Prop where
  | bin8 {n} : n < 256 ^ 1 → BinHeader (0xC4 :: beBytes 1 n) n
  | bin16 {n} : n < 256 ^ 2 → BinHeader (0xC5 :: beBytes 2 n) n
  | bin32 {n} : n < 256 ^ 4 → BinHeader (0xC6 :: beBytes 4 n) n

lemma binHeader_of_pack {buflen n hdr} (hn : n < 2 ^ 32) (h : packBinHeader buflen n = some hdr) :
    BinHeader hdr n := by
  unfold packBinHeader at h
  split at h
  next h1 =>
    split at h
    · cases h
    · exact Option.some.inj h ▸ .bin8 (by omega)
  next =>
    split at h
    next h2 =>
      split at h
      · cases h
      · exact Option.some.inj h ▸ .bin16 (by omega)
    next =>
      split at h
      · cases h
      · exact Option.some.inj h ▸ .bin32 (by omega)

/-- A `bin` header with its bytes is a complete element. -/
lemma BinHeader.text {hdr} {data : Bytes} (h : BinHeader hdr data.length) :
    Text (hdr ++ data) data := by
  cases h with
  | bin8 hn => exact .sized (w := 1) rfl (length_beBytes _ _) (be_beBytes hn).symm
  | bin16 hn => exact .sized (w := 2) rfl (length_beBytes _ _) (be_beBytes hn).symm
  | bin32 hn => exact .sized (w := 4) rfl (length_beBytes _ _) (be_beBytes hn).symm

lemma text_of_packBin {buflen raw} {data : Bytes} (hn : data.length < 2 ^ 32)
    (h : packBin buflen data = some raw) : Text raw data := by
  unfold packBin at h
  obtain ⟨hdr, hh, h⟩ := bind_some h
  split at h
  · cases h
  · cases h
    exact (binHeader_of_pack hn hh).text

/-- `pack_str` writes a complete element. -/
lemma text_of_packStr {buflen raw} {s : Bytes} (hn : s.length < 2 ^ 32)
    (h : packStr buflen s = some raw) : Text raw s := by
  have short : ∀ n ≤ 31, (0xA0 ||| UInt8.ofNat n).toNat = 0xA0 + n := by decide +kernel
  unfold packStr at h
  dsimp only at h
  split at h
  next h1 =>
    split at h
    · cases h
    · cases h
      have e := short _ h1
      exact .short (by omega) (by omega) (by omega)
  next =>
    split at h
    next h2 =>
      split at h
      · cases h
      · cases h
        exact .sized (w := 1) rfl (length_beBytes _ _) (be_beBytes (by omega)).symm
    next =>
      split at h
      next h3 =>
        split at h
        · cases h
        · cases h
          exact .sized (w := 2) rfl (length_beBytes _ _) (be_beBytes (by omega)).symm
      next =>
        split at h
        · cases h
        · cases h
          exact .sized (w := 4) rfl (length_beBytes _ _) (be_beBytes (by omega)).symm

/-- The two forms of a small unsigned integer: fixint and uint8. -/
inductive SmallUint : Bytes → UInt8 → Prop where
  | fixint {v} : v ≤ 0x7F → SmallUint [v] v
  | uint8 {v} : SmallUint [0xCC, v] v

lemma smallUint_of_packUint8 {buflen raw v} (h : packUint8 buflen v = some raw) :
    SmallUint raw v := by
  unfold packUint8 at h
  split at h
  · cases h
  · split at h
    next hv => cases h; exact .fixint hv
    next =>
      split at h
      · cases h
      · cases h
        exact .uint8

/-- A small unsigned integer is a complete element. -/
lemma SmallUint.element {raw v} (h : SmallUint raw v) : Element Known raw := by
  cases h with
  | @fixint v hv =>
    have e : Element Known (v :: ([] ++ [])) :=
      .fixed (by rw [Known, skippable, fixint_mask hv]) (fixint_mask hv) rfl .nil
    exact e
  | uint8 =>
    have e : Element Known (0xCC :: ([v] ++ [])) := .fixed rfl rfl rfl .nil
    exact e

lemma element_of_fixed {t k body} (hc : classify t = .fixed k) (hb : body.length = k) :
    Element Known (t :: body) := by
  have e : Element Known (t :: (body ++ [])) := .fixed (by rw [Known, skippable, hc]) hc hb .nil
  rwa [List.append_nil] at e

/-- `pack_int` writes a complete element. -/
lemma element_of_packInt {buflen raw v} (h : packInt buflen v = some raw) : Element Known raw := by
  have low : ∀ {b : UInt8}, classify (0xE0 ||| (b &&& 0x1F)) = .fixed 0 := fun {b} => by
    revert b
    apply forall_byte
    decide +kernel
  have take : ∀ {n w : Nat} {t : UInt8} {bits : Nat}, classify t = .fixed w →
      (if buflen < n then none else some (t :: beBytes w bits)) = some raw →
        Element Known raw := fun {n w t bits} hc h => by
    split at h
    next => cases h
    next =>
      cases h
      exact element_of_fixed hc (length_beBytes _ _)
  unfold packInt at h
  dsimp only at h
  split at h
  next hpos =>
    split at h
    next hv =>
      split at h
      next => cases h
      next =>
        cases h
        refine element_of_fixed (fixint_mask ?_) rfl
        have h1 : v.toInt ≤ 127 := Int64.le_iff_toInt_le.mp hv
        have h2 := Int64.cast_toNatClampNeg v hpos
        rw [UInt8.le_iff_toNat_le, UInt8.toNat_ofNat', Int64.toNat_toUInt64_of_le hpos]
        have h3 : v.toNatClampNeg ≤ 127 := by omega
        exact (Nat.mod_le _ _).trans h3
    next =>
      split at h
      next => exact take rfl h
      next =>
        split at h
        next => exact take rfl h
        next =>
          split at h
          next => exact take rfl h
          next => exact take rfl h
  next =>
    split at h
    next =>
      split at h
      next => cases h
      next =>
        cases h
        exact element_of_fixed low rfl
    next =>
      split at h
      next => exact take rfl h
      next =>
        split at h
        next => exact take rfl h
        next =>
          split at h
          next => exact take rfl h
          next => exact take rfl h

end URSupreme.MsgPack
