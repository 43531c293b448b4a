import URSupreme.Common.MsgPackExact
import URSupreme.Telemetry.Telemeter

/-!
# What the telemeter decoder reads of packed values

The readers of `decode_into` on what `pack_int`, `pack_float64` and `pack_be_bin` write.
-/

namespace URSupreme.Telemetry
open Lib Lib.Wire MsgPack

variable {data bs raw : Bytes} {off o w n : Nat} {t : UInt8}

/-- The bytes lie at the offset, inside a buffer that is no longer than an object can be. -/
structure Lies (data : Bytes) (off : Nat) (bs : Bytes) : Prop where
  at_ : At data off bs
  le : off + bs.length ≤ data.length
  small : data.length < 2 ^ 31

lemma Lies.byte {b : UInt8} (h : Lies data off (b :: bs)) : data[off]? = some b :=
  (at_cons.mp h.at_).1

lemma Lies.tail {b : UInt8} (h : Lies data off (b :: bs)) : Lies data (off + 1) bs where
  at_ := (at_cons.mp h.at_).2
  le := by
    have hle := h.le
    rw [List.length_cons] at hle
    omega
  small := h.small

lemma Lies.left {a b : Bytes} (h : Lies data off (a ++ b)) : Lies data off a where
  at_ := (at_append.mp h.at_).1
  le := by
    have hle := h.le
    rw [List.length_append] at hle
    omega
  small := h.small

lemma Lies.right {a b : Bytes} (h : Lies data off (a ++ b)) : Lies data (off + a.length) b where
  at_ := (at_append.mp h.at_).2
  le := by
    have hle := h.le
    rw [List.length_append] at hle
    omega
  small := h.small

lemma Lies.lt {b : UInt8} (h : Lies data off (b :: bs)) : off < data.length := lt_of_some h.byte

lemma Lies.sz (h : Lies data off bs) (hw : w ≤ bs.length + 1) : sz (off + w) = off + w := by
  have hle := h.le
  have hs := h.small
  exact sz_of_lt (by omega)

/-- The joined bytes are their big-endian number. -/
lemma beAt_of_lies {v : Nat} (h : Lies data o bs) :
    beAt data bs.length o v = .ok (v * 256 ^ bs.length + be bs) := by
  induction bs generalizing o v with
  | nil => rw [List.length_nil, pow_zero, mul_one]; rfl
  | cons b bs ih =>
    have hb : byteAt data (MsgPack.sz o) = .ok b := by
      have hsz := h.sz (Nat.zero_le _)
      rw [Nat.add_zero] at hsz
      rw [hsz]
      exact byteAt_of_some h.byte
    rw [List.length_cons, beAt, hb, ok_bind, ih h.tail, shl_or b.toNat_lt, be_cons, pow_succ]
    congr 1
    ring

/-- The tags of wide numbers, the bytes behind them, and what they make of these. -/
inductive Wide : UInt8 → Nat → (Nat → Number) → Prop where
  | uint8 : Wide 0xCC 1 fun v => .int v
  | uint16 : Wide 0xCD 2 fun v => .int v
  | uint32 : Wide 0xCE 4 fun v => .int v
  | uint64 : Wide 0xCF 8 fun v => .int v
  | int8 : Wide 0xD0 1 fun v => .int (signed 1 v)
  | int16 : Wide 0xD1 2 fun v => .int (signed 2 v)
  | int32 : Wide 0xD2 4 fun v => .int (signed 4 v)
  | int64 : Wide 0xD3 8 fun v => .int (signed 8 v)
  | float64 : Wide 0xCB 8 .float64

lemma readNumber_wide {f : Nat → Number} (hw : Wide t w f) (hl : bs.length = w)
    (h : Lies data off (t :: bs)) :
    readNumber data off = .ok (some (f (be bs)), off + (w + 1)) := by
  have hoff : ¬ off ≥ data.length := not_le.mpr h.lt
  have hle : ¬ off + (w + 1) > data.length := by
    have hle := h.le
    rw [List.length_cons] at hle
    omega
  have hsz : MsgPack.sz (off + (w + 1)) = off + (w + 1) := h.sz (by
    rw [List.length_cons]
    omega)
  have hbe : beAt data w (off + 1) 0 = .ok (be bs) := by
    rw [← hl, beAt_of_lies h.tail, zero_mul, zero_add]
  unfold readNumber
  rw [if_neg hoff, byteAt_of_some h.byte, ok_bind]
  dsimp only
  cases hw
  all_goals
    repeat rw [if_neg (by decide)]
    rw [if_pos rfl, hsz, if_neg hle, hbe, ok_bind]

/-- A `float64` is read as its pattern. -/
lemma readNumber_float64 {bits : UInt64} (h : Lies data off (0xCB :: beBytes 8 bits.toNat)) :
    readNumber data off = .ok (some (.float64 bits.toNat), off + 9) := by
  have hbe : be (beBytes 8 bits.toNat) = bits.toNat := be_beBytes bits.toNat_lt
  rw [readNumber_wide .float64 (length_beBytes _ _) h, hbe]

/-- The forms of a packed integer. -/
inductive IntForm (v : Int) : Bytes → Prop where
  | fixint {t : UInt8} : t ≤ 0x7F → v = t.toNat → IntForm v [t]
  | negative {t : UInt8} : t ≥ 0xE0 → v = signed 1 t.toNat → IntForm v [t]
  | wide {t : UInt8} {w n : Nat} {f : Nat → Number} : Wide t w f → f (n % 256 ^ w) = .int v →
      IntForm v (t :: beBytes w n)

lemma IntForm.length_le (h : IntForm v raw) : raw.length ≤ 9 := by
  cases h with
  | fixint => exact Nat.succ_le_succ (Nat.zero_le _)
  | negative => exact Nat.succ_le_succ (Nat.zero_le _)
  | wide hw =>
    rw [List.length_cons, length_beBytes]
    cases hw <;> decide

lemma IntForm.reads {v : Int} (h : IntForm v raw) (hl : Lies data off raw) :
    readNumber data off = .ok (some (.int v), off + raw.length) := by
  have small : ∀ {t : UInt8}, Lies data off [t] → MsgPack.sz (off + 1) = off + 1 :=
    fun hl => hl.sz (Nat.le_succ 1)
  cases h with
  | fixint h7 hv =>
    unfold readNumber
    rw [if_neg (not_le.mpr hl.lt), byteAt_of_some hl.byte, ok_bind]
    dsimp only
    rw [if_pos h7, small hl, hv]
    rfl
  | @negative t hE hv =>
    have h7 : ¬ t ≤ 0x7F := fun h7 => absurd (UInt8.le_trans hE h7) (by decide)
    unfold readNumber
    rw [if_neg (not_le.mpr hl.lt), byteAt_of_some hl.byte, ok_bind]
    dsimp only
    rw [if_neg h7, if_pos hE, small hl, hv]
    rfl
  | wide hw hv =>
    rw [readNumber_wide hw (length_beBytes _ _) hl, be_beBytes_mod, hv, List.length_cons,
      length_beBytes]

/-- The bits of a 64-bit integer. -/
lemma toNat_bits (v : Int64) : (v.toUInt64.toNat : Int) = v.toInt % 2 ^ 64 := by
  have hlt := v.toBitVec.isLt
  have h : v.toInt = v.toBitVec.toInt := rfl
  have hn : v.toUInt64.toNat = v.toBitVec.toNat := rfl
  rw [h, hn, BitVec.toInt_eq_toNat_cond]
  split <;> omega

/-- `pack_int` has room for every integer in 9 bytes. -/
lemma packInt_form {cap : Nat} (v : Int64) (hcap : 9 ≤ cap) :
    ∃ raw, packInt cap v = some raw ∧ IntForm v.toInt raw := by
  have hbits := toNat_bits v
  have hlo : -2 ^ 63 ≤ v.toInt := v.le_toInt
  have hhi : v.toInt < 2 ^ 63 := v.toInt_lt
  generalize hn : v.toUInt64.toNat = n at hbits
  have wide : ∀ {k w : Nat} {t : UInt8} {f : Nat → Number}, k ≤ 9 → Wide t w f →
      f (n % 256 ^ w) = .int v.toInt →
      ∃ raw, (if cap < k then none else some (t :: beBytes w n)) = some raw ∧
        IntForm v.toInt raw := fun hk hw hf => ⟨_, if_neg (by omega), .wide hw hf⟩
  unfold packInt
  rw [hn]
  dsimp only
  split
  next h0 =>
    have h0 : 0 ≤ v.toInt := Int64.le_iff_toInt_le.mp h0
    split
    next h7 =>
      have h7 : v.toInt ≤ 127 := Int64.le_iff_toInt_le.mp h7
      have ht : (UInt8.ofNat n).toNat = n := by
        rw [UInt8.toNat_ofNat']
        omega
      refine ⟨_, if_neg (by omega), .fixint ?_ ?_⟩
      · rw [UInt8.le_iff_toNat_le, ht]
        change n ≤ 127
        omega
      · rw [ht]
        omega
    next =>
      split
      next h =>
        have h : v.toInt ≤ 255 := Int64.le_iff_toInt_le.mp h
        refine wide (by decide) .uint8 (congrArg Number.int ?_)
        omega
      next =>
        split
        next h =>
          have h : v.toInt ≤ 65535 := Int64.le_iff_toInt_le.mp h
          refine wide (by decide) .uint16 (congrArg Number.int ?_)
          omega
        next =>
          split
          next h =>
            have h : v.toInt ≤ 4294967295 := Int64.le_iff_toInt_le.mp h
            refine wide (by decide) .uint32 (congrArg Number.int ?_)
            omega
          next =>
            refine wide (by decide) .uint64 (congrArg Number.int ?_)
            omega
  next h0 =>
    have h0 : v.toInt < 0 := Int64.lt_iff_toInt_lt.mp (Int64.not_le.mp h0)
    split
    next h =>
      have h : -32 ≤ v.toInt := Int64.le_iff_toInt_le.mp h
      have low : ∀ b : UInt8, 0xE0 ≤ b.toNat → 0xE0 ||| (b &&& 0x1F) = b := by
        apply forall_byte
        decide +kernel
      have ht : ((UInt8.ofNat n).toNat : Int) = v.toInt + 256 := by
        rw [UInt8.toNat_ofNat']
        omega
      rw [low _ (by omega)]
      refine ⟨_, if_neg (by omega), .negative ?_ ?_⟩
      · rw [ge_iff_le, UInt8.le_iff_toNat_le]
        change 224 ≤ _
        omega
      · unfold signed
        split <;> omega
    next =>
      split
      next h =>
        have h : -128 ≤ v.toInt := Int64.le_iff_toInt_le.mp h
        refine wide (by decide) .int8 (congrArg Number.int ?_)
        unfold signed
        split <;> omega
      next =>
        split
        next h =>
          have h : -32768 ≤ v.toInt := Int64.le_iff_toInt_le.mp h
          refine wide (by decide) .int16 (congrArg Number.int ?_)
          unfold signed
          split <;> omega
        next =>
          split
          next h =>
            have h : -2147483648 ≤ v.toInt := Int64.le_iff_toInt_le.mp h
            refine wide (by decide) .int32 (congrArg Number.int ?_)
            unfold signed
            split <;> omega
          next =>
            refine wide (by decide) .int64 (congrArg Number.int ?_)
            unfold signed
            split <;> omega

/-- What is packed does not depend on the room. -/
lemma packInt_room {room : Nat} {v : Int64} (hr : 9 ≤ room) : packInt room v = packInt 9 v := by
  have h1 : ¬ room < 1 := by omega
  have h2 : ¬ room < 2 := by omega
  have h3 : ¬ room < 3 := by omega
  have h5 : ¬ room < 5 := by omega
  have h9 : ¬ room < 9 := by omega
  simp [packInt, h1, h2, h3, h5, h9]

/-- The bits of a 32-bit integer are read back with its sign. -/
lemma signed_uint32 (v : Int32) : signed 4 (uint32 v) = v.toInt := by
  have hlt := v.toBitVec.isLt
  have h : v.toInt = v.toBitVec.toInt := rfl
  have hn : uint32 v = v.toBitVec.toNat := rfl
  rw [h, hn, BitVec.toInt_eq_toNat_cond, signed]
  split <;> split <;> omega

/-- `read_be_bin` gives back what `pack_be_bin` wrote. -/
lemma readBeBin_of_lies (hw : w < 256) (h : Lies data off (0xC4 :: UInt8.ofNat w :: bs))
    (hl : bs.length = w) :
    readBeBin data off w =
      .ok (some (if w = 4 then signed 4 (be bs) else be bs), off + (2 + w)) := by
  have h1 := h.tail
  have h2 := h1.tail
  have hwn : (UInt8.ofNat w).toNat = w := by
    rw [UInt8.toNat_ofNat']
    exact Nat.mod_eq_of_lt hw
  have hs1 : MsgPack.sz (off + 1) = off + 1 := h.sz (by rw [List.length_cons]; omega)
  have hs2 : MsgPack.sz (off + 2) = off + 2 := h.sz (by simp only [List.length_cons]; omega)
  have hs3 : MsgPack.sz (off + 2 + w) = off + 2 + w := h2.sz (by omega)
  have hle := h2.le
  have hbe : beAt data w (off + 2) 0 = .ok (be bs) := by
    rw [← hl, beAt_of_lies h2, zero_mul, zero_add]
  unfold readBeBin
  rw [hs1, if_neg (not_le.mpr h1.lt), byteAt_of_some h.byte, ok_bind, if_neg (not_not.mpr rfl),
    byteAt_of_some h1.byte, ok_bind, if_neg (not_not.mpr hwn), hs2]
  dsimp only
  rw [hs3, if_neg (by omega), hbe, ok_bind, Nat.add_assoc]

/-- A short array header. -/
lemma arrayHeader_of_lies (ht : t &&& 0xF0 = 0x90) (h : Lies data off (t :: bs)) :
    arrayHeader data off = .ok (some (t &&& 0x0F).toNat, off + 1) := by
  have hs : MsgPack.sz (off + 1) = off + 1 := h.sz (by rw [List.length_cons]; omega)
  unfold arrayHeader
  rw [if_neg (not_le.mpr h.lt), byteAt_of_some h.byte, ok_bind, if_pos ht, hs]

end URSupreme.Telemetry
