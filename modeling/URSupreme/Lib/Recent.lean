import Mathlib.Tactic

/-!
# The most recent entries

A history `l` of which only the last `n` entries are remembered, and what it means that an entry is
added only when it is not among them: equal entries are more than `n` places apart.
-/

namespace Lib

variable {α : Type} {n i j : Nat} {l l' : List α} {x : α}

/-- The last `n` entries. -/
def recent (n : Nat) (l : List α) : List α := l.drop (l.length - n)

lemma mem_recent : x ∈ recent n l ↔ ∃ i, l.length ≤ i + n ∧ l[i]? = some x := by
  rw [recent, List.mem_iff_getElem?]
  constructor
  · rintro ⟨i, h⟩
    rw [List.getElem?_drop] at h
    exact ⟨l.length - n + i, by omega, h⟩
  · rintro ⟨i, hi, h⟩
    refine ⟨i - (l.length - n), ?_⟩
    have e : l.length - n + (i - (l.length - n)) = i := by omega
    rw [List.getElem?_drop, e]
    exact h

lemma mem_of_mem_recent (h : x ∈ recent n l) : x ∈ l := List.mem_of_mem_drop h

lemma length_recent : (recent n l).length = min n l.length := by
  rw [recent, List.length_drop]
  omega

/-- Nothing is dropped while there is room. -/
lemma recent_of_le (h : l.length ≤ n) : recent n l = l := by
  rw [recent, Nat.sub_eq_zero_of_le h, List.drop_zero]

lemma map_recent {β : Type} (f : α → β) : (recent n l).map f = recent n (l.map f) := by
  rw [recent, recent, List.map_drop, List.length_map]

/-- What was dropped, and what is remembered. -/
lemma take_append_recent : l.take (l.length - n) ++ recent n l = l := List.take_append_drop _ _

/-- Entries that are added to the remembered ones or to the whole history. -/
lemma recent_append : recent n (recent n l ++ l') = recent n (l ++ l') := by
  unfold recent
  have e : (l.drop (l.length - n)).length = min n l.length := length_recent
  rw [List.length_append, List.length_append, e]
  by_cases h : l.length ≤ n
  · rw [Nat.sub_eq_zero_of_le h, List.drop_zero, min_eq_right h]
  · rw [min_eq_left (not_le.mp h).le, ← List.drop_append_of_le_length (Nat.sub_le _ _),
      List.drop_drop]
    congr 1
    omega

/-- Entries that are added one by one. -/
lemma foldl_recent : l'.foldl (fun a x => recent n (a ++ [x])) (recent n l) = recent n
    (l ++ l') := by
  induction l' generalizing l with
  | nil => rw [List.append_nil, List.foldl_nil]
  | cons x l' ih =>
    rw [List.foldl_cons, recent_append, ih, List.append_assoc]
    rfl

/-- Adding an entry to the remembered ones and dropping the oldest when there are too many. -/
lemma recent_snoc (hn : 0 < n) :
    recent n (l ++ [x]) =
      if (recent n l ++ [x]).length > n then (recent n l ++ [x]).tail else recent n l ++ [x] := by
  have hlen : (recent n l ++ [x]).length = min n l.length + 1 := by
    rw [List.length_append, length_recent, List.length_singleton]
  rw [hlen, recent, List.length_append, List.length_singleton]
  split
  next h =>
    have hl : n ≤ l.length := by omega
    have e : l.length + 1 - n = l.length - n + 1 := by omega
    rw [e, ← List.drop_drop, List.drop_append_of_le_length (by omega), List.drop_one]
    rfl
  next h =>
    have e1 : l.length + 1 - n = 0 := by omega
    have e2 : l.length - n = 0 := by omega
    rw [recent, e1, e2, List.drop_zero, List.drop_zero]

/-- Equal entries are more than `n` places apart. -/
def Spread (n : Nat) (l : List α) : Prop :=
  ∀ i j x, i < j → l[i]? = some x → l[j]? = some x → i + n < j

lemma Spread.nil : Spread n ([] : List α) := by
  intro i j x _ h
  cases h

/-- An entry that is not remembered can be added. -/
lemma Spread.snoc (h : Spread n l) (hx : x ∉ recent n l) : Spread n (l ++ [x]) := by
  intro i j y hij hi hj
  have hjl : j < (l ++ [x]).length := (List.getElem?_eq_some_iff.mp hj).1
  rw [List.length_append, List.length_singleton] at hjl
  rw [List.getElem?_append_left (by omega)] at hi
  rcases Nat.lt_or_ge j l.length with hlt | hge
  · rw [List.getElem?_append_left hlt] at hj
    exact h i j y hij hi hj
  · obtain rfl : j = l.length := by omega
    rw [List.getElem?_concat_length] at hj
    obtain rfl := Option.some.inj hj
    by_contra hc
    exact hx (mem_recent.mpr ⟨i, by omega, hi⟩)

/-- Between two equal entries there are `n` others that are all different. -/
lemma Spread.between (h : Spread n l) (hij : i < j) (hi : l[i]? = some x) (hj : l[j]? = some x) :
    i + n < j ∧ ((l.drop (i + 1)).take n).Nodup ∧ x ∉ (l.drop (i + 1)).take n := by
  have hlt := h i j x hij hi hj
  have hget : ∀ {a y}, ((l.drop (i + 1)).take n)[a]? = some y → a < n ∧ l[i + 1 + a]? = some y := by
    intro a y ha
    have han : a < ((l.drop (i + 1)).take n).length := (List.getElem?_eq_some_iff.mp ha).1
    rw [List.length_take] at han
    rw [List.getElem?_take_of_lt (by omega), List.getElem?_drop] at ha
    exact ⟨by omega, ha⟩
  refine ⟨hlt, List.nodup_iff_getElem?_ne_getElem?.mpr fun a b hab hb e => ?_, fun hx => ?_⟩
  · have hb' := List.getElem?_eq_getElem hb
    obtain ⟨_, h1⟩ := hget (e.trans hb')
    obtain ⟨hbn, h2⟩ := hget hb'
    have := h _ _ _ (by omega) h1 h2
    omega
  · obtain ⟨a, ha⟩ := List.mem_iff_getElem?.mp hx
    obtain ⟨han, h1⟩ := hget ha
    have := h _ _ _ (by omega) hi h1
    omega

end Lib
