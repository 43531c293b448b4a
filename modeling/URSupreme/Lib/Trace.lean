import Mathlib.Tactic

/-!
# Traces

A trace of marks grows at its end. `Always ok l`: each mark of `l` is allowed after the ones before
it. Marks of several subjects stand in one log, from which the trace of each is read.
-/

namespace Lib

variable {κ μ : Type} {ok : List μ → μ → Prop} {l : List μ} {m : μ}

/-- Each mark is allowed after the ones before it. -/
def Always (ok : List μ → μ → Prop) (l : List μ) : Prop := ∀ l₁ m l₂, l = l₁ ++ m :: l₂ → ok l₁ m

lemma always_nil : Always ok [] := fun l₁ m l₂ h => by simp at h

/-- A mark that is allowed is added. -/
lemma Always.snoc (h : Always ok l) (hm : ok l m) : Always ok (l ++ [m]) := by
  intro l₁ m' l₂ e
  rcases List.eq_nil_or_concat l₂ with rfl | ⟨l₃, m₃, rfl⟩
  · obtain ⟨hl, he⟩ := List.append_inj' e rfl
    subst hl
    obtain rfl := (List.cons.inj he).1
    exact hm
  · rw [List.concat_eq_append, ← List.cons_append, ← List.append_assoc] at e
    exact h l₁ m' l₃ (List.append_inj' e rfl).1

/-- The trace of one subject. -/
def marks [DecidableEq κ] (k : κ) (log : List (κ × μ)) : List μ :=
  (log.filter (·.1 = k)).map (·.2)

lemma marks_snoc [DecidableEq κ] {k k' : κ} {log : List (κ × μ)} :
    marks k (log ++ [(k', m)]) = if k' = k then marks k log ++ [m] else marks k log := by
  unfold marks
  rw [List.filter_append, List.map_append]
  by_cases h : k' = k
  · rw [if_pos h, List.filter_cons, if_pos (decide_eq_true h)]
    rfl
  · rw [if_neg h, List.filter_cons, if_neg (by simpa using h)]
    exact List.append_nil _

lemma marks_append [DecidableEq κ] {k : κ} {log log' : List (κ × μ)} :
    marks k (log ++ log') = marks k log ++ marks k log' := by
  unfold marks
  rw [List.filter_append, List.map_append]

/-- Marks of other subjects do not show in the trace of one. -/
lemma marks_other [DecidableEq κ] {k : κ} {log log' : List (κ × μ)} (h : ∀ x ∈ log', x.1 ≠ k) :
    marks k (log ++ log') = marks k log := by
  have hnil : marks k log' = [] := by
    unfold marks
    rw [List.filter_eq_nil_iff.mpr fun x hx => by simpa using h x hx]
    rfl
  rw [marks_append, hnil, List.append_nil]

end Lib
