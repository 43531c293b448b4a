import Mathlib.Tactic

/-!
# Weights in bins

Entries with weights, each in one of `n` bins. The weights of the entries in question, bin by bin,
add up to their weight.
-/

namespace Lib

variable {α : Type} {w bin : α → Nat} {p q : α → Bool} {a : α} {l : List α} {n : Nat}

/-- The weight of the entries that `p` holds of. -/
def weight (w : α → Nat) (p : α → Bool) (l : List α) : Nat := ((l.filter p).map w).sum

lemma weight_nil : weight w p [] = 0 := rfl

lemma weight_cons : weight w p (a :: l) = (if p a then w a else 0) + weight w p l := by
  unfold weight
  rw [List.filter_cons]
  split
  next => rw [List.map_cons, List.sum_cons]
  next => rw [Nat.zero_add]

/-- Fewer entries weigh less. -/
lemma weight_mono (h : ∀ a ∈ l, p a = true → q a = true) : weight w p l ≤ weight w q l := by
  induction l with
  | nil => exact le_rfl
  | cons a l ih =>
    rw [weight_cons, weight_cons]
    refine Nat.add_le_add ?_ (ih fun b hb => h b (List.mem_cons_of_mem a hb))
    split
    next hp => rw [if_pos (h a List.mem_cons_self hp)]
    next => exact Nat.zero_le _

lemma weight_eq_zero (h : ∀ a ∈ l, ¬ p a = true) : weight w p l = 0 := by
  rw [weight, List.filter_eq_nil_iff.mpr h]
  rfl

/-- The bins together weigh as much as the entries. -/
lemma sum_weight (h : ∀ a ∈ l, bin a < n) :
    ∑ b ∈ Finset.range n, weight w (fun a => p a && bin a = b) l = weight w p l := by
  induction l with
  | nil => exact Finset.sum_eq_zero fun _ _ => rfl
  | cons a l ih =>
    have ha := h a List.mem_cons_self
    rw [weight_cons, ← ih fun b hb => h b (List.mem_cons_of_mem a hb)]
    have hone : ∑ b ∈ Finset.range n, (if (p a && bin a = b) = true then w a else 0) =
        if p a then w a else 0 := by
      rw [Finset.sum_eq_single (bin a)]
      · simp
      · intro b _ hb
        simp [hb.symm]
      · exact fun hn => absurd (Finset.mem_range.mpr ha) hn
    rw [← hone, ← Finset.sum_add_distrib]
    exact Finset.sum_congr rfl fun b _ => weight_cons

end Lib
