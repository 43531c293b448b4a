import Mathlib.Data.Nat.Bitwise
import URSupreme.Lib.Hilbert

/-!
# Tile ids

`zxy_to_id` of `Web/MapExtract.h`: the tiles of a zoom level are numbered along the Hilbert curve,
behind the tiles of the lower levels. The coordinates are 32 bits wide and wrap around in
`hilbert_rotate`, and bits above the level stay in them; only the low bits count.
-/

namespace URSupreme.MapExtract
open Lib

/-- `hilbert_rotate`. -/
def hilbertRotate (n x y rx ry : UInt32) : UInt32 × UInt32 :=
  if ry = 0 then
    let (x, y) := if rx ≠ 0 then (n - 1 - x, n - 1 - y) else (x, y)
    (y, x)
  else (x, y)

lemma toNat_shiftRight_one (s : UInt32) : (s >>> 1).toNat = s.toNat / 2 := by
  rw [UInt32.toNat_shiftRight]
  exact Nat.shiftRight_one _

/-- The loop of `zxy_to_id`. -/
def zxyLoop (s : UInt32) (n : Int) (x y : UInt32) (acc : UInt64) : UInt64 :=
  if s = 0 then acc
  else
    let rx := s &&& x
    let ry := s &&& y
    let acc := acc + ((3 * rx) ^^^ ry).toUInt64 <<< UInt64.ofNat n.toNat
    let (x, y) := hilbertRotate s x y rx ry
    zxyLoop (s >>> 1) (n - 1) x y acc
termination_by s.toNat
decreasing_by
  rename_i h
  have hs : s.toNat ≠ 0 := fun e => h (UInt32.toNat_inj.mp e)
  rw [toNat_shiftRight_one]
  omega

/-- `zxy_to_id`. -/
def zxyToId (z : Nat) (x y : UInt32) : UInt64 :=
  let acc := ((1 : UInt64) <<< UInt64.ofNat (z * 2) - 1) / 3
  zxyLoop (if z ≠ 0 then 1 <<< UInt32.ofNat (z - 1) else 0) ((z : Int) - 1) x y acc

/-- The side of a quadrant, `1 << k`. -/
def side (k : Nat) : UInt32 := 1 <<< UInt32.ofNat k

variable {k : Nat} {x y : UInt32} {acc : UInt64}

lemma toNat_side (hk : k ≤ 25) : (side k).toNat = 2 ^ k := by
  have h1 : (UInt32.ofNat k).toNat = k := UInt32.toNat_ofNat_of_lt' (by
    show k < 4294967296
    omega)
  have h2 : 2 ^ k ≤ 2 ^ 25 := Nat.pow_le_pow_right (by decide) hk
  rw [side, UInt32.toNat_shiftLeft, h1, UInt32.toNat_one, Nat.mod_eq_of_lt (by omega : k < 32),
    Nat.one_shiftLeft, Nat.mod_eq_of_lt (by omega)]

/-- The bit of a coordinate. -/
lemma toNat_side_and (hk : k ≤ 25) :
    (side k &&& x).toNat = if x.toNat.testBit k then 2 ^ k else 0 := by
  rw [UInt32.toNat_and, toNat_side hk, Nat.two_pow_and]
  cases x.toNat.testBit k with
  | true => exact Nat.mul_one _
  | false => rfl

lemma side_and_eq_zero (hk : k ≤ 25) : side k &&& x = 0 ↔ x.toNat.testBit k = false := by
  rw [← UInt32.toNat_inj, toNat_side_and hk, UInt32.toNat_zero]
  cases x.toNat.testBit k with
  | true => simp
  | false => simp

/-- The number of the quadrant. -/
def quadrant (rx ry : Bool) : Nat :=
  match rx, ry with
  | false, false => 0
  | false, true => 1
  | true, true => 2
  | true, false => 3

lemma quadrant_le (rx ry : Bool) : quadrant rx ry ≤ 3 := by
  cases rx with
  | false => cases ry <;> decide
  | true => cases ry <;> decide

/-- What a step adds. -/
lemma toNat_added (hk : k ≤ 25) :
    (((3 * (side k &&& x)) ^^^ (side k &&& y)).toUInt64 <<< UInt64.ofNat k).toNat =
      quadrant (x.toNat.testBit k) (y.toNat.testBit k) * 4 ^ k := by
  have h2 : 2 ^ k ≤ 2 ^ 25 := Nat.pow_le_pow_right (by decide) hk
  have hmul : (3 * (side k &&& x)).toNat = 3 * (side k &&& x).toNat := by
    have hle : (side k &&& x).toNat ≤ 2 ^ k := by
      rw [toNat_side_and hk]
      split
      next => exact le_rfl
      next => exact Nat.zero_le _
    rw [UInt32.toNat_mul]
    show 3 * (side k &&& x).toNat % 4294967296 = _
    omega
  have hxor : 3 * 2 ^ k ^^^ 2 ^ k = 2 * 2 ^ k := by
    have h := Nat.shiftLeft_xor_distrib (a := 3) (b := 1) (i := k)
    rw [Nat.shiftLeft_eq, Nat.shiftLeft_eq, Nat.shiftLeft_eq, Nat.one_mul] at h
    exact h.symm
  have hq : ((3 * (side k &&& x)) ^^^ (side k &&& y)).toNat =
      quadrant (x.toNat.testBit k) (y.toNat.testBit k) * 2 ^ k := by
    rw [UInt32.toNat_xor, hmul, toNat_side_and hk, toNat_side_and hk]
    cases x.toNat.testBit k with
    | true =>
      cases y.toNat.testBit k with
      | true => exact hxor
      | false => simp [quadrant]
    | false =>
      cases y.toNat.testBit k with
      | true => simp [quadrant]
      | false => simp [quadrant]
  have hle := quadrant_le (x.toNat.testBit k) (y.toNat.testBit k)
  have hk64 : (UInt64.ofNat k).toNat = k := UInt64.toNat_ofNat_of_lt' (by
    show k < 18446744073709551616
    omega)
  have h4 : 2 ^ k * 2 ^ k = 4 ^ k := by
    rw [← Nat.mul_pow]
  have h4le : 4 ^ k ≤ 4 ^ 25 := Nat.pow_le_pow_right (by decide) hk
  have hlt : quadrant (x.toNat.testBit k) (y.toNat.testBit k) * 4 ^ k < 2 ^ 64 :=
    (Nat.mul_le_mul hle h4le).trans_lt (by decide)
  rw [UInt64.toNat_shiftLeft, UInt32.toNat_toUInt64, hq, hk64,
    Nat.mod_eq_of_lt (by omega : k < 64), Nat.shiftLeft_eq, Nat.mul_assoc, h4,
    Nat.mod_eq_of_lt hlt]

/-- Turning a coordinate around, whatever its high bits are. -/
lemma turned (hk : k ≤ 25) :
    (side k - 1 - x).toNat % 2 ^ k = 2 ^ k - 1 - x.toNat % 2 ^ k := by
  have hpos : 0 < 2 ^ k := by positivity
  have hx : x.toNat < 4294967296 := x.toNat_lt
  obtain ⟨c, hc⟩ : 2 ^ k ∣ 4294967296 := Nat.pow_dvd_pow 2 (by omega : k ≤ 32)
  have hone : (side k - 1).toNat = 2 ^ k - 1 := by
    rw [UInt32.toNat_sub_of_le, toNat_side hk, UInt32.toNat_one]
    rw [UInt32.le_iff_toNat_le, toNat_side hk]
    exact hpos
  have hdiv := Nat.div_add_mod x.toNat (2 ^ k)
  have hmod := Nat.mod_lt x.toNat hpos
  have hq : x.toNat / 2 ^ k < c := by
    rw [Nat.div_lt_iff_lt_mul hpos, Nat.mul_comm]
    omega
  rw [UInt32.toNat_sub, hone]
  show (4294967296 - x.toNat + (2 ^ k - 1)) % 4294967296 % 2 ^ k = _
  rw [Nat.mod_mod_of_dvd _ ⟨c, hc⟩]
  obtain ⟨e, rfl⟩ := Nat.exists_eq_add_of_lt hq
  have hsplit : 4294967296 - x.toNat + (2 ^ k - 1) =
      2 ^ k * (e + 1) + (2 ^ k - 1 - x.toNat % 2 ^ k) := by
    have hle : 2 ^ k ≤ 2 ^ k * (e + 1) := Nat.le_mul_of_pos_right _ (Nat.succ_pos e)
    rw [hc, Nat.add_assoc, Nat.mul_add]
    omega
  rw [hsplit, Nat.mul_add_mod, Nat.mod_eq_of_lt (by omega)]

/-- A quadrant is turned when it is the first or the last one. -/
lemma hilbertRotate_side (hk : k ≤ 25) :
    hilbertRotate (side k) x y (side k &&& x) (side k &&& y) =
      match x.toNat.testBit k, y.toNat.testBit k with
      | false, false => (y, x)
      | true, false => (side k - 1 - y, side k - 1 - x)
      | _, true => (x, y) := by
  unfold hilbertRotate
  simp only [ne_eq, side_and_eq_zero hk]
  cases x.toNat.testBit k with
  | true => cases y.toNat.testBit k with
    | true => rfl
    | false => rfl
  | false => cases y.toNat.testBit k with
    | true => rfl
    | false => rfl

/-- The loop adds the place of the cell on the curve. -/
lemma zxyLoop_eq (hk : k ≤ 26) (hacc : acc.toNat + 4 ^ k ≤ 2 ^ 64) :
    (zxyLoop (if k ≠ 0 then side (k - 1) else 0) ((k : Int) - 1) x y acc).toNat =
      acc.toNat + Hilbert.index k x.toNat y.toNat := by
  induction k generalizing x y acc with
  | zero =>
    rw [zxyLoop]
    rfl
  | succ k ih =>
    have hk' : k ≤ 25 := by omega
    have hne : side k ≠ 0 := by
      rw [Ne, ← UInt32.toNat_inj, toNat_side hk']
      exact (Nat.two_pow_pos k).ne'
    have hshift : side k >>> 1 = if k ≠ 0 then side (k - 1) else 0 := by
      rw [← UInt32.toNat_inj, toNat_shiftRight_one, toNat_side hk']
      cases k with
      | zero => rfl
      | succ k =>
        rw [if_pos (Nat.succ_ne_zero k), Nat.add_sub_cancel, toNat_side (by omega), pow_succ,
          Nat.mul_div_cancel _ (by decide)]
    have hn : ((k + 1 : Nat) : Int) - 1 = k := by omega
    have hplus : (acc + ((3 * (side k &&& x)) ^^^ (side k &&& y)).toUInt64 <<<
        UInt64.ofNat k).toNat =
        acc.toNat + quadrant (x.toNat.testBit k) (y.toNat.testBit k) * 4 ^ k := by
      have hle := quadrant_le (x.toNat.testBit k) (y.toNat.testBit k)
      have hmul := Nat.mul_le_mul_right (4 ^ k) hle
      have hpos : 0 < 4 ^ k := by positivity
      rw [pow_succ] at hacc
      rw [UInt64.toNat_add, toNat_added hk']
      exact Nat.mod_eq_of_lt (by omega)
    rw [pow_succ] at hacc
    rw [zxyLoop, if_pos (Nat.succ_ne_zero k), Nat.add_sub_cancel, if_neg hne, hn, hshift,
      Int.toNat_natCast]
    dsimp only
    rw [hilbertRotate_side hk']
    generalize acc + ((3 * (side k &&& x)) ^^^ (side k &&& y)).toUInt64 <<< UInt64.ofNat k = acc'
      at hplus
    unfold Hilbert.index
    cases hx : x.toNat.testBit k with
    | false =>
      cases hy : y.toNat.testBit k with
      | false =>
        rw [hx, hy] at hplus
        have hq : acc'.toNat = acc.toNat := by simpa [quadrant] using hplus
        dsimp only
        rw [ih (by omega) (by omega), hq]
      | true =>
        rw [hx, hy] at hplus
        have hq : acc'.toNat = acc.toNat + 4 ^ k := by simpa [quadrant] using hplus
        dsimp only
        rw [ih (by omega) (by omega), hq, Nat.add_assoc]
    | true =>
      cases hy : y.toNat.testBit k with
      | false =>
        rw [hx, hy] at hplus
        have hq : acc'.toNat = acc.toNat + 3 * 4 ^ k := hplus
        dsimp only
        rw [ih (by omega) (by omega), hq, Nat.add_assoc]
        congr 2
        have hlt : ∀ u, 2 ^ k - 1 - u < 2 ^ k := fun u => by
          have hpos : 0 < 2 ^ k := by positivity
          omega
        refine Hilbert.index_congr ?_ ?_
        · rw [turned hk', Nat.mod_eq_of_lt (hlt _)]
        · rw [turned hk', Nat.mod_eq_of_lt (hlt _)]
      | true =>
        rw [hx, hy] at hplus
        have hq : acc'.toNat = acc.toNat + 2 * 4 ^ k := hplus
        dsimp only
        rw [ih (by omega) (by omega), hq, Nat.add_assoc]

/-- The id of the first tile of a zoom level. -/
def firstId (z : Nat) : Nat := (4 ^ z - 1) / 3

lemma firstId_succ (z : Nat) : firstId (z + 1) = firstId z + 4 ^ z := by
  have hpos : 0 < 4 ^ z := by positivity
  have h : 4 ^ (z + 1) - 1 = 4 ^ z - 1 + 3 * 4 ^ z := by
    rw [pow_succ]
    omega
  rw [firstId, h, Nat.add_mul_div_left _ _ (by decide)]
  rfl

/-- `zxy_to_id` numbers the tiles of a level along the curve. -/
lemma toNat_zxyToId {z : Nat} (hz : z ≤ 26) :
    (zxyToId z x y).toNat = firstId z + Hilbert.index z x.toNat y.toNat := by
  have h4le : 4 ^ z ≤ 4 ^ 26 := Nat.pow_le_pow_right (by decide) hz
  have hz2 : (UInt64.ofNat (z * 2)).toNat = z * 2 := UInt64.toNat_ofNat_of_lt' (by
    show z * 2 < 18446744073709551616
    omega)
  have hpow : ((1 : UInt64) <<< UInt64.ofNat (z * 2)).toNat = 4 ^ z := by
    rw [UInt64.toNat_shiftLeft, hz2, Nat.mod_eq_of_lt (by omega : z * 2 < 64), UInt64.toNat_one,
      Nat.one_shiftLeft, Nat.mul_comm, pow_mul]
    exact Nat.mod_eq_of_lt (show 4 ^ z < 18446744073709551616 by omega)
  have hfirst : (((1 : UInt64) <<< UInt64.ofNat (z * 2) - 1) / 3).toNat = firstId z := by
    rw [UInt64.toNat_div, UInt64.toNat_sub_of_le, hpow]
    · rfl
    · rw [UInt64.le_iff_toNat_le, hpow]
      exact Nat.one_le_pow _ _ (by decide)
  have hle : firstId z ≤ 4 ^ z := (Nat.div_le_self _ _).trans (Nat.sub_le _ _)
  have h := @zxyLoop_eq z x y (((1 : UInt64) <<< UInt64.ofNat (z * 2) - 1) / 3) hz (by omega)
  rw [hfirst] at h
  exact h

end URSupreme.MapExtract
