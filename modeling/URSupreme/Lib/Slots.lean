import Mathlib.Tactic

/-!
# Tables of slots

Tables that are searched from the front: `modifyFirst p f` changes the first entry that satisfies
`p`. The hit splits the table in two, and what the rest of the proofs need is about that split.
-/

namespace Lib

variable {α : Type} {p : α → Bool} {l l1 l2 : List α} {a b : α}

/-- The list with its first element that satisfies `p` changed by `f`. -/
def modifyFirst (p : α → Bool) (f : α → α) : List α → List α
  | [] => []
  | a :: l => if p a then f a :: l else a :: modifyFirst p f l

lemma modifyFirst_cons_of_pos {f : α → α} (h : p a = true) :
    modifyFirst p f (a :: l) = f a :: l := if_pos h

lemma modifyFirst_cons_of_neg {f : α → α} (h : ¬ p a = true) :
    modifyFirst p f (a :: l) = a :: modifyFirst p f l := if_neg h

/-- The hit satisfies `p`, and it alone is changed. -/
lemma modifyFirst_of_find (h : l.find? p = some a) :
    p a = true ∧ ∃ l1 l2, l = l1 ++ a :: l2 ∧ ∀ f, modifyFirst p f l = l1 ++ f a :: l2 := by
  induction l with
  | nil => cases h
  | cons b l ih =>
    cases hb : p b with
    | true =>
      rw [List.find?_cons_of_pos hb, Option.some.injEq] at h
      subst h
      exact ⟨hb, [], l, rfl, fun f => modifyFirst_cons_of_pos hb⟩
    | false =>
      have hb' : ¬ p b = true := by simp [hb]
      rw [List.find?_cons_of_neg hb'] at h
      obtain ⟨hp, l1, l2, rfl, hf⟩ := ih h
      refine ⟨hp, b :: l1, l2, rfl, fun f => ?_⟩
      rw [modifyFirst_cons_of_neg hb', hf]
      rfl

/-- Without a hit nothing changes. -/
lemma modifyFirst_of_none {f : α → α} (h : l.find? p = none) : modifyFirst p f l = l := by
  induction l with
  | nil => rfl
  | cons a l ih =>
    rw [List.find?_eq_none] at h
    rw [modifyFirst_cons_of_neg (h a List.mem_cons_self), ih]
    exact List.find?_eq_none.mpr fun x hx => h x (List.mem_cons_of_mem a hx)

lemma length_modifyFirst {f : α → α} : (modifyFirst p f l).length = l.length := by
  induction l with
  | nil => rfl
  | cons a l ih =>
    by_cases ha : p a = true
    · rw [modifyFirst_cons_of_pos ha]
      rfl
    · rw [modifyFirst_cons_of_neg ha]
      exact congrArg (· + 1) ih

/-- An entry of the changed table is an old one, or the change of one. -/
lemma of_mem_modifyFirst {f : α → α} (h : b ∈ modifyFirst p f l) : b ∈ l ∨ ∃ a ∈ l, b = f a := by
  induction l with
  | nil => cases h
  | cons a l ih =>
    by_cases ha : p a = true
    · rw [modifyFirst_cons_of_pos ha] at h
      rcases List.mem_cons.mp h with rfl | h
      · exact .inr ⟨a, List.mem_cons_self, rfl⟩
      · exact .inl (List.mem_cons_of_mem a h)
    · rw [modifyFirst_cons_of_neg ha] at h
      rcases List.mem_cons.mp h with rfl | h
      · exact .inl List.mem_cons_self
      · refine (ih h).imp (List.mem_cons_of_mem a) fun ⟨x, hx, e⟩ => ?_
        exact ⟨x, List.mem_cons_of_mem a hx, e⟩

/-- A change that keeps the key of the entry keeps the keys of the table. -/
lemma map_modifyFirst {β : Type} {key : α → β} {f : α → α} (hf : ∀ a, key (f a) = key a) :
    (modifyFirst p f l).map key = l.map key := by
  induction l with
  | nil => rfl
  | cons a l ih =>
    by_cases ha : p a = true
    · rw [modifyFirst_cons_of_pos ha, List.map_cons, List.map_cons, hf]
    · rw [modifyFirst_cons_of_neg ha, List.map_cons, List.map_cons, ih]

/-- The changed entry is the first that satisfies `p`, as long as the change keeps that. -/
lemma find_modifyFirst {f : α → α} (hf : ∀ a, p (f a) = p a) (h : l.find? p = some a) :
    (modifyFirst p f l).find? p = some (f a) := by
  induction l with
  | nil => cases h
  | cons b l ih =>
    by_cases hb : p b
    · rw [List.find?_cons_of_pos hb, Option.some.injEq] at h
      subst h
      rw [modifyFirst_cons_of_pos hb, List.find?_cons_of_pos (by rwa [hf])]
    · rw [List.find?_cons_of_neg hb] at h
      rw [modifyFirst_cons_of_neg hb, List.find?_cons_of_neg hb]
      exact ih h

/-- In a table without equal keys no entry has the key of an erased one. -/
lemma find_eraseP_key {κ : Type} [DecidableEq κ] {key : α → κ} {k : κ} (h : (l.map key).Nodup) :
    (l.eraseP (key · = k)).find? (key · = k) = none := by
  induction l with
  | nil => rfl
  | cons a l ih =>
    obtain ⟨ha, hl⟩ := List.nodup_cons.mp h
    by_cases hk : key a = k
    · rw [List.eraseP_cons_of_pos (by simpa using hk), List.find?_eq_none]
      intro b hb hbk
      have hkey : key b = key a := by
        rw [hk]
        exact of_decide_eq_true hbk
      exact ha (hkey ▸ List.mem_map_of_mem hb)
    · rw [List.eraseP_cons_of_neg (by simpa using hk), List.find?_cons_of_neg (by simpa using hk)]
      exact ih hl

/-- In a table without equal keys each entry is found by its key. -/
lemma find_key {κ : Type} [DecidableEq κ] {key : α → κ} (h : (l.map key).Nodup) (ha : a ∈ l) :
    l.find? (key · = key a) = some a := by
  induction l with
  | nil => cases ha
  | cons b l ih =>
    obtain ⟨hb, hl⟩ := List.nodup_cons.mp h
    rcases List.mem_cons.mp ha with rfl | ha
    · exact List.find?_cons_of_pos (decide_eq_true rfl)
    · have hne : ¬ key b = key a := fun e => hb (e ▸ List.mem_map_of_mem ha)
      rw [List.find?_cons_of_neg (by simpa using hne)]
      exact ih hl ha

/-- An entry of a table with one entry singled out. -/
lemma mem_split : b ∈ l1 ++ a :: l2 ↔ b = a ∨ b ∈ l1 ++ l2 := by
  rw [List.perm_middle.mem_iff, List.mem_cons]

/-- The entry that is singled out is the hit, where none before it satisfies `p`. -/
lemma find_split (h : ∀ b ∈ l1, p b = false) (ha : p a = true) :
    (l1 ++ a :: l2).find? p = some a :=
  List.find?_eq_some_iff_append.mpr ⟨ha, l1, l2, rfl, fun b hb => by rw [h b hb]; rfl⟩

lemma modifyFirst_split {f : α → α} (h : ∀ b ∈ l1, p b = false) (ha : p a = true) :
    modifyFirst p f (l1 ++ a :: l2) = l1 ++ f a :: l2 := by
  induction l1 with
  | nil => exact modifyFirst_cons_of_pos ha
  | cons b l1 ih =>
    obtain ⟨hb, h⟩ := List.forall_mem_cons.mp h
    have hb' : ¬ p b = true := by simp [hb]
    rw [List.cons_append, modifyFirst_cons_of_neg hb', ih h]
    rfl

/-- A symmetric relation between the entries of a table with one entry singled out. -/
lemma pairwise_split {R : α → α → Prop} (hR : ∀ {a b}, R a b → R b a) :
    (l1 ++ a :: l2).Pairwise R ↔ (∀ b ∈ l1 ++ l2, R a b) ∧ (l1 ++ l2).Pairwise R := by
  rw [List.pairwise_middle hR, List.pairwise_cons]

end Lib
