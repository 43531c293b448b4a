import Mathlib.Algebra.BigOperators.Intervals
import Mathlib.Tactic

/-!
# Places among spans

Spans of given lengths that lie one behind the other, and the span that a position falls into.
-/

namespace Lib
open Finset

/-- From span `k` on, the span of position `n` and the position in it. -/
def locate (len : ℕ → ℕ) : ℕ → ℕ → ℕ → ℕ × ℕ
  | 0, k, n => (k, n)
  | fuel + 1, k, n => if n < len k then (k, n) else locate len fuel (k + 1) (n - len k)

variable {len : ℕ → ℕ} {fuel k n m : ℕ}

/-- The position is as far into its span as it is behind the begin of it. -/
lemma locate_spec (hlen : ∀ i, 0 < len i) (h : n < fuel) :
    k ≤ (locate len fuel k n).1 ∧
      ∑ i ∈ Ico k (locate len fuel k n).1, len i + (locate len fuel k n).2 = n ∧
      (locate len fuel k n).2 < len (locate len fuel k n).1 := by
  induction fuel generalizing k n with
  | zero => cases h
  | succ fuel ih =>
    rw [locate]
    split
    next hn => simpa using hn
    next hn =>
      have hk := hlen k
      obtain ⟨hle, hsum, hlt⟩ := @ih (k + 1) (n - len k) (by omega)
      refine ⟨(Nat.le_succ k).trans hle, ?_, hlt⟩
      rw [sum_eq_sum_Ico_succ_bot (Nat.lt_of_succ_le hle), Nat.add_assoc, hsum]
      omega

/-- A position that is not behind the begin of a span is before it. -/
lemma locate_lt (hlen : ∀ i, 0 < len i) (h : n < fuel) (hm : n < ∑ i ∈ Ico k m, len i) :
    (locate len fuel k n).1 < m := by
  obtain ⟨-, hsum, -⟩ := @locate_spec len fuel k n hlen h
  by_contra hge
  have hle : ∑ i ∈ Ico k m, len i ≤ ∑ i ∈ Ico k (locate len fuel k n).1, len i :=
    sum_le_sum_of_subset (Ico_subset_Ico_right (not_lt.mp hge))
  omega

/-- A position behind the begin of a span is not before it. -/
lemma le_locate (hlen : ∀ i, 0 < len i) (h : n < fuel) (hm : ∑ i ∈ Ico k m, len i ≤ n) :
    m ≤ (locate len fuel k n).1 := by
  obtain ⟨hk, hsum, hlt⟩ := @locate_spec len fuel k n hlen h
  by_contra hlt'
  have hle : ∑ i ∈ Ico k ((locate len fuel k n).1 + 1), len i ≤ ∑ i ∈ Ico k m, len i :=
    sum_le_sum_of_subset (Ico_subset_Ico_right (Nat.succ_le_of_lt (not_le.mp hlt')))
  rw [sum_Ico_succ_top hk] at hle
  omega

end Lib
