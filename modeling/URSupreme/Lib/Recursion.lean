import Mathlib.Data.Fintype.Card
import Mathlib.Data.Set.Finite.Basic
import Mathlib.Logic.Relation

/-!
# Recursion over finitely many arguments

A function calls itself on other arguments, and `Ends n a` says that the call on `a` ends within
`n` nested calls. Where only finitely many arguments can be reached, a call ends exactly if no
call below it is nested in a call on the same argument.
-/

namespace Lib.Recursion
open Relation

variable {α : Type*} {calls : α → α → Prop} {Ends : ℕ → α → Prop} {a b : α} {n : ℕ}

/-- No call below the call on `a` is nested in a call on the same argument. -/
def Acyclic (calls : α → α → Prop) (a : α) : Prop :=
  ∀ b, ReflTransGen calls a b → ¬ TransGen calls b b

lemma Acyclic.of_calls (h : Acyclic calls a) (hc : calls a b) : Acyclic calls b :=
  fun c hb => h c (.head hc hb)

/-- The calls below the call on `a` can be gone through from the innermost ones on. -/
lemma Acyclic.acc (h : Acyclic calls a) (hfin : {b | ReflTransGen calls a b}.Finite) :
    Acc (fun b c => calls c b) a := by
  have : Finite {b | ReflTransGen calls a b} := hfin
  let r (b c : {b | ReflTransGen calls a b}) : Prop := TransGen calls c.1 b.1
  have : IsTrans _ r := ⟨fun b c d hbc hcd => TransGen.trans hcd hbc⟩
  have : Std.Irrefl r := ⟨fun b hb => h b.1 b.2 hb⟩
  have hwf := Finite.wellFounded_of_trans_of_irrefl r
  have hall : ∀ b : {b | ReflTransGen calls a b}, Acc (fun b c => calls c b) b.1 := by
    intro b
    induction b using hwf.induction with
    | h b ih =>
      apply Acc.intro
      intro c hc
      exact ih ⟨c, b.2.tail hc⟩ (.single hc)
  exact hall ⟨a, .refl⟩

/-- How a function recurses: no call ends within no calls, a call that ends leaves one nested call
less for each call it makes, and a call all of whose calls end does so too. -/
structure Recurses (calls : α → α → Prop) (Ends : ℕ → α → Prop) : Prop where
  zero : ∀ {a}, ¬ Ends 0 a
  call : ∀ {n a b}, Ends (n + 1) a → calls a b → Ends n b
  ret : ∀ {a}, (∀ b, calls a b → ∃ n, Ends n b) → ∃ n, Ends n a

namespace Recurses

/-- A nested call ends within fewer calls. -/
lemma nested (hr : Recurses calls Ends) (hab : TransGen calls a b) (h : Ends n a) :
    ∃ m < n, Ends m b := by
  have step : ∀ {n a b}, Ends n a → calls a b → ∃ m < n, Ends m b := by
    intro n a b hn hab
    cases n with
    | zero => exact absurd hn hr.zero
    | succ n => exact ⟨n, Nat.lt_succ_self n, hr.call hn hab⟩
  induction hab with
  | single hab => exact step h hab
  | tail _ hbc ih =>
    obtain ⟨m, hm, hb⟩ := ih
    obtain ⟨k, hk, hc⟩ := step hb hbc
    exact ⟨k, hk.trans hm, hc⟩

/-- A call that is nested in itself does not end. -/
lemma not_ends (hr : Recurses calls Ends) (ha : TransGen calls a a) : ¬ Ends n a := by
  induction n using Nat.strong_induction_on with
  | _ n ih =>
    intro h
    obtain ⟨m, hm, hend⟩ := hr.nested ha h
    exact ih m hm hend

/-- A call ends exactly if no call below it is nested in a call on the same argument. -/
theorem ends_iff (hr : Recurses calls Ends) (hfin : {b | ReflTransGen calls a b}.Finite) :
    (∃ n, Ends n a) ↔ Acyclic calls a := by
  constructor
  · rintro ⟨n, h⟩ b hab hbb
    cases reflTransGen_iff_eq_or_transGen.mp hab with
    | inl heq =>
      subst heq
      exact hr.not_ends hbb h
    | inr hab =>
      obtain ⟨m, -, hb⟩ := hr.nested hab h
      exact hr.not_ends hbb hb
  · intro h
    have hacc := h.acc hfin
    clear h hfin
    induction hacc with
    | intro a _ ih => exact hr.ret ih

end Recurses

end Lib.Recursion
