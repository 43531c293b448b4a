import Mathlib.Tactic

/-!
# Endless runs

A run is endless when each of its states has a further step. A measure that falls with every step
rules such runs out; a condition under which there always is a step that keeps it makes one.
-/

namespace Lib

variable {σ ε : Type} {step : σ → ε → σ} {busy : σ → ε → Prop} {s : σ}

/-- An endless run of steps that `busy` allows. -/
def Endless (step : σ → ε → σ) (busy : σ → ε → Prop) (s : σ) : Prop :=
  ∃ run : ℕ → σ, run 0 = s ∧ ∀ n, ∃ e, busy (run n) e ∧ run (n + 1) = step (run n) e

/-- A measure that every step lowers, as long as the invariant holds. -/
lemma not_endless {α : Type} [Preorder α] [WellFoundedLT α] {I : σ → Prop} {μ : σ → α}
    (hI : ∀ {s e}, I s → busy s e → I (step s e))
    (hμ : ∀ {s e}, I s → busy s e → μ (step s e) < μ s)
    (h : I s) : ¬ Endless step busy s := by
  rintro ⟨run, h0, hrun⟩
  have hinv : ∀ n, I (run n) := by
    intro n
    induction n with
    | zero =>
      rw [h0]
      exact h
    | succ n ih =>
      obtain ⟨e, hb, he⟩ := hrun n
      rw [he]
      exact hI ih hb
  have hfall : ∀ n, μ (run (n + 1)) < μ (run n) := by
    intro n
    obtain ⟨e, hb, he⟩ := hrun n
    rw [he]
    exact hμ (hinv n) hb
  obtain ⟨n, hn⟩ := WellFounded.not_rel_apply_succ (r := (· < ·)) fun n => μ (run n)
  exact hn (hfall n)

/-- A step that there always is, and that keeps what it needs. -/
lemma endless_of_next {I : σ → Prop} {next : σ → ε} (hb : ∀ {s}, I s → busy s (next s))
    (hI : ∀ {s}, I s → I (step s (next s))) (h : I s) : Endless step busy s := by
  have hinv : ∀ n, I ((fun s => step s (next s))^[n] s) := by
    intro n
    induction n with
    | zero => exact h
    | succ n ih =>
      rw [Function.iterate_succ_apply']
      exact hI ih
  exact ⟨fun n => (fun s => step s (next s))^[n] s, rfl, fun n =>
    ⟨next _, hb (hinv n), Function.iterate_succ_apply' _ n s⟩⟩

end Lib
