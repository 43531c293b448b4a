import Mathlib.Tactic

/-!
# Computations that may fail

The steps of a computation in `Except`: what a first part that succeeded or failed leaves to do, and
what a success of the whole says about its parts.
-/

namespace Lib

variable {ε α β : Type}

@[simp] lemma ok_bind {a : α} {f : α → Except ε β} : (Except.ok a >>= f) = f a := rfl

@[simp] lemma error_bind {e : ε} {f : α → Except ε β} :
    (Except.error e >>= f) = .error e := rfl

/-- A computation that succeeds has a first part that succeeds. -/
lemma bind_ok {x : Except ε α} {f : α → Except ε β} {b} (h : (x >>= f) = .ok b) :
    ∃ a, x = .ok a ∧ f a = .ok b := by
  cases x with
  | error e => cases h
  | ok a => exact ⟨a, rfl, h⟩

/-- An optional computation that succeeds has a first part that succeeds. -/
lemma bind_some {x : Option α} {f : α → Option β} {b} (h : (x >>= f) = some b) :
    ∃ a, x = some a ∧ f a = some b := by
  cases x with
  | none => cases h
  | some a => exact ⟨a, rfl, h⟩

end Lib
