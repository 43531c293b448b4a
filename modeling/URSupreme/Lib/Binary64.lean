import Mathlib.Tactic
import Mathlib.Data.Rat.Floor
import Mathlib.Data.Int.Log

/-!
# Double precision

A positive number rounded to 53 significant bits, to even when it lies halfway, as the operations on
`double` round their exact results while these stay in the range of normal numbers; the values of
bit patterns, and the conversions between them and integers.
-/

namespace Lib.Binary64

/-- The nearest integer, the even one of two. -/
def roundEven (q : ℚ) : ℤ :=
  if Int.fract q = 1 / 2 then (if ⌊q⌋ % 2 = 0 then ⌊q⌋ else ⌊q⌋ + 1) else round q

lemma abs_roundEven_sub_le (q : ℚ) : |(roundEven q : ℚ) - q| ≤ 1 / 2 := by
  have hfloor := Int.self_sub_floor q
  unfold roundEven
  split
  next h =>
    rw [h] at hfloor
    split
    next =>
      rw [abs_le]
      constructor <;> linarith
    next =>
      push_cast
      rw [abs_le]
      constructor <;> linarith
  next =>
    rw [abs_sub_comm]
    exact abs_sub_round q

/-- The unit in the last place. -/
def ulp (q : ℚ) : ℚ := 2 ^ (Int.log 2 q - 52)

/-- A positive number in double precision. -/
def fl (q : ℚ) : ℚ := roundEven (q / ulp q) * ulp q

lemma ulp_pos (q : ℚ) : 0 < ulp q := zpow_pos (by norm_num) _

/-- The relative error is at most the 53rd bit. -/
lemma abs_fl_sub_le {q : ℚ} (hq : 0 < q) : |fl q - q| ≤ q / 2 ^ 53 := by
  have hu := ulp_pos q
  have hlow : ulp q * 2 ^ 52 ≤ q := by
    have h := Int.zpow_log_le_self (b := 2) (by decide) hq
    have e : ulp q * 2 ^ 52 = (2 : ℚ) ^ Int.log 2 q := by
      rw [ulp, ← zpow_natCast (2 : ℚ) 52, ← zpow_add₀ (by norm_num)]
      congr 1
      push_cast
      ring
    rw [e]
    exact_mod_cast h
  have hsplit : fl q - q = (roundEven (q / ulp q) - q / ulp q) * ulp q := by
    rw [fl, sub_mul, div_mul_cancel₀ _ hu.ne']
  rw [hsplit, abs_mul, abs_of_pos hu]
  calc |(roundEven (q / ulp q) : ℚ) - q / ulp q| * ulp q ≤ 1 / 2 * ulp q :=
        mul_le_mul_of_nonneg_right (abs_roundEven_sub_le _) hu.le
    _ ≤ q / 2 ^ 53 := by
        rw [le_div_iff₀ (by norm_num)]
        linarith

/-- The value of a pattern with `p` exponent and `m` mantissa bits, if it is finite. -/
def value (p m bits : ℕ) : Option ℚ :=
  let exponent : ℕ := bits / 2 ^ m % 2 ^ p
  let mantissa : ℕ := bits % 2 ^ m
  let bias : ℤ := 2 ^ (p - 1) - 1
  let sign : ℚ := if bits / 2 ^ (m + p) % 2 = 0 then 1 else -1
  if exponent = 2 ^ p - 1 then none
  else if exponent = 0 then some (sign * (mantissa * 2 ^ (1 - bias - m)))
  else some (sign * ((2 ^ m + mantissa : ℕ) * 2 ^ (exponent - bias - m)))

/-- A finite value towards zero, where the result has 64 bits; elsewhere the conversion is not
defined. -/
def truncate (q : ℚ) : Option ℤ :=
  let t := if 0 ≤ q then ⌊q⌋ else -⌊-q⌋
  if -2 ^ 63 ≤ t ∧ t < 2 ^ 63 then some t else none

/-- The conversion of an integer. -/
def ofInt (v : ℤ) : ℚ := if 0 < v then fl v else if v < 0 then -fl (-v) else 0

/-- An integer of 64 bits is its own integer part. -/
lemma truncate_intCast {t : ℤ} (hlo : -2 ^ 63 ≤ t) (hhi : t < 2 ^ 63) :
    truncate (t : ℚ) = some t := by
  have h : (if 0 ≤ (t : ℚ) then ⌊(t : ℚ)⌋ else -⌊-(t : ℚ)⌋) = t := by
    rw [Int.floor_intCast, ← Int.cast_neg, Int.floor_intCast, neg_neg, ite_self]
  rw [truncate, h]
  exact if_pos ⟨hlo, hhi⟩

lemma roundEven_intCast (n : ℤ) : roundEven n = n := by
  unfold roundEven
  rw [Int.fract_intCast, if_neg (by norm_num), round_intCast]

/-- A number with 53 significant bits is not rounded. -/
lemma fl_eq_self {m k : ℕ} (hm : m < 2 ^ 53) (hpos : 0 < m) :
    fl (m * 2 ^ k : ℕ) = (m * 2 ^ k : ℕ) := by
  generalize hq : ((m * 2 ^ k : ℕ) : ℚ) = q
  have hlog : Int.log 2 q ≤ 52 + k := by
    rw [← hq, Int.log_natCast]
    have h : m * 2 ^ k < 2 ^ (53 + k) := by
      rw [Nat.pow_add]
      exact Nat.mul_lt_mul_of_pos_right hm (Nat.two_pow_pos k)
    have h2 := Nat.log_lt_of_lt_pow (by positivity) h
    omega
  -- dividing by the unit in the last place leaves an integer
  obtain ⟨n, hn⟩ : ∃ n : ℤ, q / ulp q = n := by
    obtain ⟨j, hj⟩ := Int.eq_ofNat_of_zero_le (show 0 ≤ 52 + k - Int.log 2 q by omega)
    refine ⟨m * 2 ^ j, ?_⟩
    have he : (k : ℤ) - (Int.log 2 q - 52) = j := by omega
    have hcast : q = m * 2 ^ (k : ℤ) := by
      rw [← hq, zpow_natCast]
      push_cast
      rfl
    calc q / ulp q = m * (2 ^ (k : ℤ) / 2 ^ (Int.log 2 q - 52)) := by
          rw [ulp, ← mul_div_assoc, ← hcast]
      _ = m * 2 ^ j := by rw [← zpow_sub₀ (by norm_num), he, zpow_natCast]
      _ = ((m * 2 ^ j : ℤ) : ℚ) := by push_cast; rfl
  rw [fl, hn, roundEven_intCast, ← hn, div_mul_cancel₀ _ (ulp_pos q).ne']

lemma ofInt_eq_self {v : ℤ} {m k : ℕ} (hm : m < 2 ^ 53) (hv : v.natAbs = m * 2 ^ k) :
    ofInt v = v := by
  have hfl : v ≠ 0 → fl (v.natAbs : ℕ) = (v.natAbs : ℕ) := fun h0 => by
    have hpos : 0 < m := Nat.pos_of_ne_zero fun h => h0
      (Int.natAbs_eq_zero.mp (by rw [hv, h, zero_mul]))
    rw [hv]
    exact fl_eq_self hm hpos
  unfold ofInt
  split
  next h =>
    have e : ((v.natAbs : ℕ) : ℚ) = v := by rw [Nat.cast_natAbs, abs_of_pos h]
    rw [← e, hfl h.ne', e]
  next =>
    split
    next h =>
      have e : ((v.natAbs : ℕ) : ℚ) = -v := by
        rw [Nat.cast_natAbs, abs_of_neg h]
        push_cast
        rfl
      rw [← e, hfl h.ne, e, neg_neg]
    next h1 h2 =>
      obtain rfl : v = 0 := by omega
      rfl

/-- What lies below a number with 53 significant bits has 53 significant bits again. -/
lemma exists_floor {M : ℕ} (hM : M < 2 ^ 53) (e : ℤ) :
    ∃ m k : ℕ, m < 2 ^ 53 ∧ ⌊(M : ℚ) * 2 ^ e⌋ = (m * 2 ^ k : ℕ) := by
  rcases Int.le_total 0 e with he | he
  · obtain ⟨k, rfl⟩ := Int.eq_ofNat_of_zero_le he
    refine ⟨M, k, hM, ?_⟩
    rw [Int.floor_eq_iff]
    push_cast
    rw [zpow_natCast]
    constructor
    · exact le_rfl
    · exact lt_add_one _
  · have h0 : 0 ≤ (M : ℚ) * 2 ^ e := by positivity
    have hle : (M : ℚ) * 2 ^ e ≤ M := by
      refine mul_le_of_le_one_right (Nat.cast_nonneg M) ?_
      exact zpow_le_one_of_nonpos₀ (by norm_num) he
    refine ⟨⌊(M : ℚ) * 2 ^ e⌋.toNat, 0, ?_, ?_⟩
    · have h1 : ⌊(M : ℚ) * 2 ^ e⌋ ≤ M :=
        Int.floor_le_iff.mpr (by exact_mod_cast hle.trans_lt (lt_add_one _))
      omega
    · rw [pow_zero, mul_one, Int.toNat_of_nonneg (Int.floor_nonneg.mpr h0)]

/-- An integer that is a double towards zero is a double itself. -/
theorem ofInt_truncate {bits : ℕ} {q : ℚ} {t : ℤ} (hq : value 11 52 bits = some q)
    (ht : truncate q = some t) : ofInt t = t := by
  obtain ⟨s, M, e, hs, hM, rfl⟩ : ∃ (s : ℚ) (M : ℕ) (e : ℤ), (s = 1 ∨ s = -1) ∧ M < 2 ^ 53 ∧
      q = s * (M * 2 ^ e) := by
    have hmant : bits % 2 ^ 52 < 2 ^ 52 := Nat.mod_lt _ (by norm_num)
    unfold value at hq
    dsimp only at hq
    generalize hsign : (if bits / 2 ^ (52 + 11) % 2 = 0 then (1 : ℚ) else -1) = s at hq
    have hs : s = 1 ∨ s = -1 := by
      rw [← hsign]
      split
      · exact .inl rfl
      · exact .inr rfl
    split at hq
    next => cases hq
    next =>
      split at hq
      next => exact ⟨s, bits % 2 ^ 52, _, hs, by omega, (Option.some.inj hq).symm⟩
      next => exact ⟨s, 2 ^ 52 + bits % 2 ^ 52, _, hs, by omega, (Option.some.inj hq).symm⟩
  obtain ⟨m, k, hm, hfloor⟩ := exists_floor hM e
  have h0 : 0 ≤ (M : ℚ) * 2 ^ e := by positivity
  have habs : t.natAbs = m * 2 ^ k := by
    unfold truncate at ht
    generalize hT : (if 0 ≤ s * (M * 2 ^ e) then ⌊s * (M * 2 ^ e)⌋
      else -⌊-(s * (M * 2 ^ e))⌋) = T at ht
    dsimp only at ht
    split at ht
    next =>
      rw [← Option.some.inj ht, ← hT]
      rcases hs with rfl | rfl
      · rw [one_mul, if_pos h0, hfloor, Int.natAbs_natCast]
      · rw [neg_one_mul, neg_neg]
        split
        next hneg =>
          obtain hz : (M : ℚ) * 2 ^ e = 0 := by linarith
          rw [hz] at hfloor ⊢
          rw [neg_zero, ← Int.natAbs_natCast (m * 2 ^ k), ← hfloor]
        next => rw [hfloor, Int.natAbs_neg, Int.natAbs_natCast]
    next => cases ht
  exact ofInt_eq_self hm habs

end Lib.Binary64
