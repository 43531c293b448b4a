import Mathlib.Tactic

/-!
# Sweeps over a queue

A pass over a queue that handles its entries in order: each is kept, changed or not, or taken off,
and the state the entries share is threaded through.
-/

namespace Lib

variable {σ α : Type} {f : σ → α → σ × Option α} {s : σ} {l d : List α}

/-- The state after the pass, and the entries that are left. -/
def sweep (f : σ → α → σ × Option α) : σ → List α → σ × List α
  | s, [] => (s, [])
  | s, a :: l =>
    let (s, kept) := f s a
    let (s, rest) := sweep f s l
    (s, kept.toList ++ rest)

/-- What holds before the pass, of no handled entry and all the others, and is kept by the handling
of each, holds of all handled entries in the end. -/
lemma sweep_induction {P : σ → List α → List α → Prop} (h0 : P s d l)
    (h : ∀ {s d a l}, P s d (a :: l) → P (f s a).1 (d ++ (f s a).2.toList) l) :
    P (sweep f s l).1 (d ++ (sweep f s l).2) [] := by
  induction l generalizing s d with
  | nil =>
    rw [sweep, List.append_nil]
    exact h0
  | cons a l ih =>
    have h1 := ih (h h0)
    rw [List.append_assoc] at h1
    exact h1

end Lib
