import Mathlib.Tactic

/-!
# A matcher that starts over

A matcher goes through a text and counts how many symbols of a pattern it has seen. On a mismatch it
starts over, with the symbol at hand. When the first symbol of the pattern does not occur in it
again, the count is the length of the longest beginning of the pattern with which the text ends.

A word that does not contain a separator is found on one side of it.
-/

namespace Lib

variable {α : Type} {a b : α} {P Q t : List α} {i k : Nat}

/-- The count after one more symbol. -/
def advance [DecidableEq α] (P : List α) (i : Nat) (b : α) : Nat :=
  if P[i]? = some b then i + 1 else if P.head? = some b then 1 else 0

/-- `i` is the length of the longest beginning of `P` with which `t` ends. -/
structure Matches (P t : List α) (i : Nat) : Prop where
  le : i ≤ P.length
  suffix : P.take i <:+ t
  longest : ∀ k ≤ P.length, P.take k <:+ t → k ≤ i

lemma Matches.nil : Matches P [] 0 := by
  refine ⟨Nat.zero_le _, List.nil_suffix, fun k hk h => ?_⟩
  have h := congrArg List.length (List.suffix_nil.mp h)
  rw [List.length_take, min_eq_left hk] at h
  exact h.le

/-- The whole pattern is matched when the text ends with it. -/
lemma Matches.full (h : Matches P t i) : P <:+ t ↔ i = P.length := by
  constructor
  · intro hs
    refine le_antisymm h.le (h.longest P.length le_rfl ?_)
    rw [List.take_length]
    exact hs
  · intro hi
    have := h.suffix
    rw [hi, List.take_length] at this
    exact this

/-- A text that is one symbol longer ends with a beginning that is one symbol longer. -/
lemma take_succ_suffix_snoc (hk : k < P.length) :
    P.take (k + 1) <:+ t ++ [b] ↔ P.take k <:+ t ∧ P[k]? = some b := by
  rw [List.take_add_one, List.getElem?_eq_getElem hk, Option.toList_some]
  constructor
  · rintro ⟨x, hx⟩
    rw [← List.append_assoc] at hx
    obtain ⟨h1, h2⟩ := List.append_inj' hx rfl
    exact ⟨⟨x, h1⟩, congrArg some (List.singleton_inj.mp h2)⟩
  · rintro ⟨⟨x, rfl⟩, hb⟩
    refine ⟨x, ?_⟩
    rw [Option.some.inj hb, List.append_assoc]

/-- A shorter beginning does not end a longer one. -/
lemma take_not_suffix_take (ha : a ∉ Q) (hk : 0 < k) (hki : k < i) (hi : i ≤ (a :: Q).length) :
    ¬ (a :: Q).take k <:+ (a :: Q).take i := by
  rintro ⟨x, hx⟩
  obtain ⟨k, rfl⟩ := Nat.exists_eq_succ_of_ne_zero hk.ne'
  obtain ⟨i, rfl⟩ := Nat.exists_eq_succ_of_ne_zero (Nat.zero_lt_of_lt hki).ne'
  rw [List.take_succ_cons, List.take_succ_cons] at hx
  cases x with
  | nil =>
    have hlen := congrArg List.length hx
    rw [List.nil_append, List.length_cons, List.length_cons, List.length_take,
      List.length_take] at hlen
    rw [List.length_cons] at hi
    omega
  | cons c x =>
    have hmem : a ∈ Q.take i := by
      rw [← (List.cons.inj hx).2]
      exact List.mem_append_right _ List.mem_cons_self
    exact ha (List.mem_of_mem_take hmem)

/-- One more symbol. -/
lemma Matches.advance [DecidableEq α] (ha : a ∉ Q) (h : Matches (a :: Q) t i)
    (hi : i < (a :: Q).length) : Matches (a :: Q) (t ++ [b]) (advance (a :: Q) i b) := by
  unfold Lib.advance
  split
  next hb =>
    refine ⟨hi, (take_succ_suffix_snoc hi).mpr ⟨h.suffix, hb⟩, fun k hk hs => ?_⟩
    cases k with
    | zero => exact Nat.zero_le _
    | succ k =>
      obtain ⟨hs, -⟩ := (take_succ_suffix_snoc hk).mp hs
      exact Nat.succ_le_succ (h.longest k (Nat.le_of_succ_le hk) hs)
  next hb =>
    split
    next hab =>
      have hab : a = b := Option.some.inj hab
      refine ⟨Nat.succ_le_succ (Nat.zero_le _), ⟨t, by rw [hab]; rfl⟩, fun k hk hs => ?_⟩
      cases k with
      | zero => exact Nat.zero_le _
      | succ k =>
        obtain ⟨-, he⟩ := (take_succ_suffix_snoc hk).mp hs
        cases k with
        | zero => exact le_rfl
        | succ k =>
          rw [← hab, List.getElem?_cons_succ] at he
          exact absurd (List.mem_of_getElem? he) ha
    next hab =>
      refine ⟨Nat.zero_le _, List.nil_suffix, fun k hk hs => ?_⟩
      cases k with
      | zero => exact le_rfl
      | succ k =>
        obtain ⟨hs, he⟩ := (take_succ_suffix_snoc hk).mp hs
        have hle := h.longest k (Nat.le_of_succ_le hk) hs
        rcases Nat.eq_zero_or_pos k with rfl | hpos
        · exact absurd he hab
        · have hne : k ≠ i := fun e => hb (e ▸ he)
          have hlen : ((a :: Q).take k).length ≤ ((a :: Q).take i).length := by
            rw [List.length_take, List.length_take]
            omega
          exact absurd (List.suffix_of_suffix_length_le hs h.suffix hlen)
            (take_not_suffix_take ha hpos (lt_of_le_of_ne hle hne) h.le)

variable {sep : α} {w xs ys : List α}

/-- A word without a separator does not reach beyond it. -/
lemma prefix_split (hs : sep ∉ w) : w <+: xs ++ sep :: ys ↔ w <+: xs := by
  induction xs generalizing w with
  | nil =>
    cases w with
    | nil => exact iff_of_true List.nil_prefix List.nil_prefix
    | cons c w =>
      refine iff_of_false (fun h => ?_) fun h => absurd (List.prefix_nil.mp h) nofun
      obtain ⟨rfl, -⟩ := List.cons_prefix_cons.mp h
      exact hs List.mem_cons_self
  | cons x xs ih =>
    cases w with
    | nil => exact iff_of_true List.nil_prefix List.nil_prefix
    | cons c w =>
      rw [List.cons_append, List.cons_prefix_cons, List.cons_prefix_cons,
        ih fun h => hs (List.mem_cons_of_mem c h)]

/-- A word without a separator lies on one side of it. -/
lemma infix_split (hw : w ≠ []) (hs : sep ∉ w) :
    w <:+: xs ++ sep :: ys ↔ w <:+: xs ∨ w <:+: ys := by
  induction xs with
  | nil =>
    have hp : ¬ w <+: [] ++ sep :: ys := fun h => hw (List.prefix_nil.mp ((prefix_split hs).mp h))
    rw [List.nil_append, List.infix_cons_iff, List.infix_nil]
    exact or_congr_left (iff_of_false hp hw)
  | cons x xs ih =>
    rw [List.cons_append, List.infix_cons_iff, ih, List.infix_cons_iff , or_assoc,
      ← List.cons_append, prefix_split hs]

end Lib
