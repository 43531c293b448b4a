import Mathlib.Tactic

/-!
# Ordered tables

Tables of keys and values in the order of the keys, as an ordered map iterates them. What is proved
of a table is proved of its entries, so each operation comes with what it does to membership.
-/

namespace Lib

variable {κ α : Type} {key : κ} {a : α} {t : List (κ × α)} {x : κ × α}

/-- The value of a key. -/
def lookup [DecidableEq κ] (key : κ) (t : List (κ × α)) : Option α :=
  (t.find? (·.1 = key)).map (·.2)

/-- The table without a key. -/
def erase [DecidableEq κ] (key : κ) (t : List (κ × α)) : List (κ × α) := t.filter (·.1 ≠ key)

/-- The entry before the first larger key. -/
def place [LT κ] [DecidableLT κ] (x : κ × α) : List (κ × α) → List (κ × α)
  | [] => [x]
  | y :: t => if x.1 < y.1 then x :: y :: t else y :: place x t

/-- The table with a new value for a key. -/
def insert [DecidableEq κ] [LT κ] [DecidableLT κ] (key : κ) (a : α) (t : List (κ × α)) :
    List (κ × α) :=
  place (key, a) (erase key t)

lemma lookup_nil [DecidableEq κ] : lookup key ([] : List (κ × α)) = none := rfl

lemma lookup_cons [DecidableEq κ] :
    lookup key (x :: t) = if x.1 = key then some x.2 else lookup key t := by
  unfold lookup
  rw [List.find?_cons]
  split
  next h => rw [if_pos (of_decide_eq_true h)]; rfl
  next h => rw [if_neg (of_decide_eq_false h)]

/-- The values of a table are changed. -/
lemma lookup_map [DecidableEq κ] {β : Type} (f : α → β) :
    lookup key (t.map fun x => (x.1, f x.2)) = (lookup key t).map f := by
  induction t with
  | nil => rfl
  | cons x t ih =>
    rw [List.map_cons, lookup_cons, lookup_cons, ih]
    split <;> rfl

lemma mem_of_lookup [DecidableEq κ] (h : lookup key t = some a) : (key, a) ∈ t := by
  obtain ⟨x, hx, rfl⟩ := Option.map_eq_some_iff.mp h
  have hk : x.1 = key := by simpa using List.find?_some hx
  exact hk ▸ List.mem_of_find?_eq_some hx

lemma not_mem_of_lookup [DecidableEq κ] (h : lookup key t = none) : (key, a) ∉ t := by
  intro hm
  have := List.find?_eq_none.mp (Option.map_eq_none_iff.mp h) _ hm
  simp at this

lemma lookup_of_mem [DecidableEq κ] (h : (key, a) ∈ t) : ∃ b, lookup key t = some b := by
  cases hk : lookup key t with
  | none =>
    have := List.find?_eq_none.mp (Option.map_eq_none_iff.mp hk) _ h
    simp at this
  | some b => exact ⟨b, rfl⟩

lemma mem_erase [DecidableEq κ] : x ∈ erase key t ↔ x ∈ t ∧ x.1 ≠ key := by
  rw [erase, List.mem_filter, decide_eq_true_eq]

lemma erase_erase [DecidableEq κ] : erase key (erase key t) = erase key t := by
  rw [erase, erase, List.filter_filter]
  simp only [Bool.and_self]

lemma lookup_erase [DecidableEq κ] : lookup key (erase key t) = none := by
  rw [lookup, Option.map_eq_none_iff, List.find?_eq_none]
  intro x hx
  simpa using (mem_erase.mp hx).2

lemma lookup_erase_of_ne [DecidableEq κ] {key' : κ} (h : key ≠ key') :
    lookup key (erase key' t) = lookup key t := by
  induction t with
  | nil => rfl
  | cons x t ih =>
    rw [erase, List.filter_cons]
    split
    next => rw [lookup_cons, lookup_cons, ← erase, ih]
    next hx =>
      have hx : x.1 = key' := by simpa using hx
      rw [← erase, ih, lookup_cons, if_neg fun e => h (e.symm.trans hx)]

lemma mem_place [LT κ] [DecidableLT κ] {y : κ × α} : x ∈ place y t ↔ x = y ∨ x ∈ t := by
  induction t with
  | nil => rw [place, List.mem_singleton, List.mem_nil_iff, or_false]
  | cons z t ih =>
    unfold place
    split
    next => exact List.mem_cons
    next => rw [List.mem_cons, ih, List.mem_cons, or_left_comm]

lemma lookup_place [DecidableEq κ] [LT κ] [DecidableLT κ] (h : ∀ x ∈ t, x.1 ≠ key) :
    lookup key (place (key, a) t) = some a := by
  unfold lookup
  induction t with
  | nil => simp [place]
  | cons y t ih =>
    unfold place
    split
    next => simp
    next =>
      rw [List.find?_cons_of_neg (by simpa using h y List.mem_cons_self)]
      exact ih fun x hx => h x (List.mem_cons_of_mem y hx)

lemma lookup_insert [DecidableEq κ] [LT κ] [DecidableLT κ] :
    lookup key (insert key a t) = some a :=
  lookup_place fun _ hx => (mem_erase.mp hx).2

lemma lookup_place_of_ne [DecidableEq κ] [LT κ] [DecidableLT κ] (h : x.1 ≠ key) :
    lookup key (place x t) = lookup key t := by
  induction t with
  | nil => rw [place, lookup_cons, if_neg h]
  | cons y t ih =>
    unfold place
    split
    next => rw [lookup_cons, if_neg h]
    next => rw [lookup_cons, lookup_cons, ih]

lemma lookup_insert_of_ne [DecidableEq κ] [LT κ] [DecidableLT κ] {key' : κ} (h : key ≠ key') :
    lookup key (insert key' a t) = lookup key t := by
  rw [insert, lookup_place_of_ne h.symm, lookup_erase_of_ne h]

lemma mem_insert [DecidableEq κ] [LT κ] [DecidableLT κ] :
    x ∈ insert key a t ↔ x = (key, a) ∨ x ∈ t ∧ x.1 ≠ key := by
  rw [insert, mem_place, mem_erase]

lemma erase_place [DecidableEq κ] [LT κ] [DecidableLT κ] (h : ∀ x ∈ t, x.1 ≠ key) :
    erase key (place (key, a) t) = t := by
  have hs : erase key t = t := List.filter_eq_self.mpr fun x hx => decide_eq_true (h x hx)
  induction t with
  | nil => simp [place, erase]
  | cons y t ih =>
    have ht : ∀ x ∈ t, x.1 ≠ key := fun x hx => h x (List.mem_cons_of_mem y hx)
    unfold place
    split
    next => rw [← hs, erase, List.filter_cons, if_neg (by simp), ← erase, erase_erase]
    next =>
      rw [erase, List.filter_cons, if_pos (decide_eq_true (h y List.mem_cons_self))]
      refine congrArg (y :: ·) (ih ht ?_)
      exact List.filter_eq_self.mpr fun x hx => decide_eq_true (ht x hx)

/-- A new value takes the place of the old one. -/
lemma insert_insert [DecidableEq κ] [LT κ] [DecidableLT κ] {b : α} :
    insert key b (insert key a t) = insert key b t := by
  rw [insert, insert, erase_place fun _ hx => (mem_erase.mp hx).2, insert]

/-- The values of a table are changed, and one key with them. -/
lemma erase_map [DecidableEq κ] {β : Type} (f : α → β) :
    erase key (t.map fun x => (x.1, f x.2)) = (erase key t).map fun x => (x.1, f x.2) := by
  rw [erase, List.filter_map]
  rfl

lemma place_map [LT κ] [DecidableLT κ] {β : Type} (f : α → β) :
    place (key, f a) (t.map fun x => (x.1, f x.2)) =
      (place (key, a) t).map fun x => (x.1, f x.2) := by
  induction t with
  | nil => rfl
  | cons y t ih =>
    rw [List.map_cons, place, place]
    split
    next => rfl
    next => rw [ih, List.map_cons]

lemma insert_map [DecidableEq κ] [LT κ] [DecidableLT κ] {β : Type} (f : α → β) :
    insert key (f a) (t.map fun x => (x.1, f x.2)) =
      (insert key a t).map fun x => (x.1, f x.2) := by
  rw [insert, erase_map, place_map, insert]

lemma length_place [LT κ] [DecidableLT κ] : (place x t).length = t.length + 1 := by
  induction t with
  | nil => rfl
  | cons y t ih =>
    unfold place
    split
    next => rfl
    next => rw [List.length_cons, ih, List.length_cons]

lemma length_erase_le [DecidableEq κ] : (erase key t).length ≤ t.length := List.length_filter_le _ t

lemma length_erase_lt [DecidableEq κ] (h : lookup key t = some a) :
    (erase key t).length < t.length := by
  refine List.length_filter_lt_length_iff_exists.mpr ⟨_, mem_of_lookup h, ?_⟩
  simp

lemma length_insert_le [DecidableEq κ] [LT κ] [DecidableLT κ] :
    (insert key a t).length ≤ t.length + 1 := by
  rw [insert, length_place]
  exact Nat.succ_le_succ length_erase_le

/-- A new value for a key that is there. -/
lemma length_insert_of_lookup [DecidableEq κ] [LT κ] [DecidableLT κ] {b : α}
    (h : lookup key t = some b) : (insert key a t).length ≤ t.length := by
  rw [insert, length_place]
  exact length_erase_lt h

end Lib
