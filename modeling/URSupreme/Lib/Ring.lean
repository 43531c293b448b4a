import Mathlib.Tactic

/-!
# Ring buffers

`Spans n q s l`: the elements `l` stand in the slots of the ring `q` of `n` slots from position `s`
on. Positions are not reduced: position `s` is slot `s % n`, so that the end of a span is simply
`s + l.length`.
-/

namespace Lib

variable {α : Type} {n : Nat} {q : Nat → α}

/-- The elements `l` stand in the ring from position `s` on. -/
def Spans (n : Nat) (q : Nat → α) : Nat → List α → Prop
  | _, [] => True
  | s, a :: l => q (s % n) = a ∧ Spans n q (s + 1) l

lemma spans_nil {s} : Spans n q s [] := trivial

lemma spans_append {s l l'} :
    Spans n q s (l ++ l') ↔ Spans n q s l ∧ Spans n q (s + l.length) l' := by
  induction l generalizing s with
  | nil => exact ⟨fun h => ⟨trivial, h⟩, fun h => h.2⟩
  | cons a l ih =>
    rw [List.cons_append, Spans, Spans, ih, List.length_cons, and_assoc, Nat.add_assoc,
      Nat.add_comm 1]

/-- Positions a whole number of turns apart are the same. -/
lemma spans_congr {s t l} (h : s % n = t % n) : Spans n q s l ↔ Spans n q t l := by
  induction l generalizing s t with
  | nil => exact Iff.rfl
  | cons a l ih =>
    have e : (s + 1) % n = (t + 1) % n := by rw [Nat.add_mod, h, ← Nat.add_mod]
    exact and_congr (by rw [h]) (ih e)

/-- What is read from the slots of a span. -/
lemma Spans.read {s l} (h : Spans n q s l) :
    (List.range l.length).map (fun i => q ((s + i) % n)) = l := by
  induction l generalizing s with
  | nil => rfl
  | cons a l ih =>
    rw [List.length_cons, List.range_succ_eq_map, List.map_cons, List.map_map]
    have e : (fun i => q ((s + i) % n)) ∘ Nat.succ = fun i => q ((s + 1 + i) % n) := by
      funext i
      rw [Function.comp, Nat.succ_eq_add_one, Nat.add_assoc s 1, Nat.add_comm 1]
    rw [e, ih h.2]
    exact congrArg (· :: l) h.1

/-- Adding up to one turn to a slot. -/
lemma add_mod_ring {h k : Nat} (hh : h < n) (hk : k ≤ n) :
    (h + k) % n = if h + k < n then h + k else h + k - n := by
  split
  next hlt => exact Nat.mod_eq_of_lt hlt
  next hge => rw [Nat.mod_eq_sub_mod (by omega), Nat.mod_eq_of_lt (by omega)]

/-- Positions less than a turn apart are different slots. -/
lemma slot_ne {s k j : Nat} (hk : k < n) (hj : j < k) : (s + j) % n ≠ (s + k) % n := by
  have hlt := Nat.mod_lt s (show n > 0 by omega)
  rw [← Nat.mod_add_mod s n j, ← Nat.mod_add_mod s n k, add_mod_ring hlt (by omega),
    add_mod_ring hlt (by omega)]
  split <;> split <;> omega

/-- Storing in a slot outside a span. -/
lemma Spans.update_of_ne {s l p a} (h : Spans n q s l)
    (hp : ∀ j < l.length, (s + j) % n ≠ p) : Spans n (Function.update q p a) s l := by
  induction l generalizing s with
  | nil => exact trivial
  | cons b l ih =>
    refine ⟨?_, ih h.2 fun j hj => ?_⟩
    · exact (Function.update_of_ne (hp 0 (Nat.succ_pos _)) a q).trans h.1
    · rw [Nat.add_assoc, Nat.add_comm 1]
      exact hp (j + 1) (Nat.succ_lt_succ hj)

/-- Storing right behind a span that leaves a slot free extends it. -/
lemma Spans.snoc {s l a} (h : Spans n q s l) (hl : l.length < n) :
    Spans n (Function.update q ((s + l.length) % n) a) s (l ++ [a]) := by
  refine spans_append.mpr ⟨h.update_of_ne fun j hj => slot_ne hl hj, ?_, trivial⟩
  exact Function.update_self ..

end Lib
