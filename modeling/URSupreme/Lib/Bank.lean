import Mathlib.Data.List.Lex
import URSupreme.Lib.Bytes
import URSupreme.Lib.Table

/-!
# Banks of slots

A bank of slots that is filled from an ordered table: each row builds an item or none, and the bank
holds the items of the first rows that build one, as far as its slots go. A slot is found by the key
of its item.
-/

namespace Lib

/-- Bytes are ordered as numbers, and byte strings by their first difference. -/
instance instStrictByte : IsStrictTotalOrder UInt8 (· < ·) where
  trichotomous _ _ h1 h2 := UInt8.le_antisymm (UInt8.not_lt.mp h2) (UInt8.not_lt.mp h1)
  irrefl := UInt8.lt_irrefl
  trans _ _ _ := UInt8.lt_trans

instance instStrictBytes : IsStrictTotalOrder Bytes (· < ·) :=
  show IsStrictTotalOrder (List UInt8) (List.Lex (· < ·)) from
    { isStrictWeakOrder_of_isOrderConnected with }

section sorted

variable {κ α β : Type}
variable {key : κ} {a : α} {t acc : List (κ × α)} {x : κ × α}

lemma ne_of_key_lt [LT κ] [IsStrictTotalOrder κ (· < ·)]
    {k k' : κ} (h : k < k') : k ≠ k' := fun e => irrefl_of (· < ·) k' (e ▸ h)

lemma key_lt_of_not [LT κ] [IsStrictTotalOrder κ (· < ·)]
    {k k' : κ} (h : ¬ k < k') (hne : k' ≠ k) : k' < k := by
  rcases trichotomous_of (· < ·) k k' with h1 | h1 | h1
  · exact absurd h1 h
  · exact absurd h1.symm hne
  · exact h1

/-- The keys of the table increase. -/
def Sorted [LT κ] (t : List (κ × α)) : Prop := t.Pairwise (·.1 < ·.1)

lemma Sorted.erase [DecidableEq κ] [LT κ]
    (h : Sorted t) : Sorted (erase key t) := List.Pairwise.filter _ h

lemma Sorted.place [LT κ] [DecidableLT κ] [IsStrictTotalOrder κ (· < ·)]
    (h : Sorted t) (hx : ∀ y ∈ t, y.1 ≠ x.1) : Sorted (place x t) := by
  induction t with
  | nil => exact List.pairwise_singleton _ _
  | cons y t ih =>
    obtain ⟨hy, ht⟩ := List.pairwise_cons.mp h
    unfold Lib.place
    split
    next hlt =>
      refine List.pairwise_cons.mpr ⟨fun z hz => ?_, h⟩
      rcases List.mem_cons.mp hz with rfl | hz
      · exact hlt
      · exact trans_of (· < ·) hlt (hy z hz)
    next hlt =>
      have hyx : y.1 < x.1 := key_lt_of_not hlt (hx y List.mem_cons_self)
      refine List.pairwise_cons.mpr
        ⟨fun z hz => ?_, ih ht fun z hz => hx z (List.mem_cons_of_mem y hz)⟩
      rcases mem_place.mp hz with rfl | hz
      · exact hyx
      · exact hy z hz

lemma Sorted.insert [DecidableEq κ] [LT κ] [DecidableLT κ] [IsStrictTotalOrder κ (· < ·)]
    (h : Sorted t) : Sorted (insert key a t) :=
  h.erase.place fun _ hy => (mem_erase.mp hy).2

/-- An entry behind all others. -/
lemma place_last [LT κ] [DecidableLT κ] [IsStrictTotalOrder κ (· < ·)]
    (h : ∀ y ∈ t, y.1 < x.1) : place x t = t ++ [x] := by
  induction t with
  | nil => rfl
  | cons y t ih =>
    rw [place, if_neg (asymm_of (· < ·) (h y List.mem_cons_self)),
      ih fun z hz => h z (List.mem_cons_of_mem y hz), List.cons_append]

lemma erase_of_not_mem [DecidableEq κ]
    (h : ∀ y ∈ t, y.1 ≠ key) : erase key t = t :=
  List.filter_eq_self.mpr fun y hy => decide_eq_true (h y hy)

/-- A table that is read entry by entry. -/
lemma foldl_insert [DecidableEq κ] [LT κ] [DecidableLT κ] [IsStrictTotalOrder κ (· < ·)]
    (h : Sorted (acc ++ t)) :
    t.foldl (fun acc x => insert x.1 x.2 acc) acc = acc ++ t := by
  induction t generalizing acc with
  | nil => exact (List.append_nil acc).symm
  | cons x t ih =>
    have hlt : ∀ y ∈ acc, y.1 < x.1 := fun y hy =>
      (List.pairwise_append.mp h).2.2 y hy x List.mem_cons_self
    have hx : insert x.1 x.2 acc = acc ++ [x] := by
      rw [insert, erase_of_not_mem fun y hy => ne_of_key_lt (hlt y hy)]
      exact place_last hlt
    have e : acc ++ x :: t = (acc ++ [x]) ++ t := by rw [List.append_assoc]; rfl
    rw [List.foldl_cons, hx, e]
    exact ih (e ▸ h)

lemma Sorted.foldl [DecidableEq κ] [LT κ] [DecidableLT κ] [IsStrictTotalOrder κ (· < ·)]
    {f : β → κ × α} {l : List β} (h : Sorted acc) :
    Sorted (l.foldl (fun acc b => Lib.insert (f b).1 (f b).2 acc) acc) := by
  induction l generalizing acc with
  | nil => exact h
  | cons b l ih => exact ih h.insert

end sorted

section items

variable {κ α γ : Type}
variable {key : κ} {a : α} {t : List (κ × α)} {x : κ × α}
variable {build : κ × α → Option γ} {name : γ → κ} {c c' : γ}

/-- The items the rows of a table build. -/
def items (build : κ × α → Option γ) (t : List (κ × α)) : List γ := t.filterMap build

lemma mem_items : c ∈ items build t ↔ ∃ x ∈ t, build x = some c := List.mem_filterMap

/-- The items of a sorted table have names of their own. -/
lemma items_nodup [LT κ] [IsStrictTotalOrder κ (· < ·)]
    (hn : ∀ {x c}, build x = some c → name c = x.1) (h : Sorted t) :
    ((items build t).map name).Nodup := by
  induction t with
  | nil => exact List.nodup_nil
  | cons x t ih =>
    obtain ⟨hx, ht⟩ := List.pairwise_cons.mp h
    unfold items
    cases hb : build x with
    | none => rw [List.filterMap_cons_none hb]; exact ih ht
    | some c =>
      rw [List.filterMap_cons_some hb, List.map_cons]
      refine List.nodup_cons.mpr ⟨fun hm => ?_, ih ht⟩
      obtain ⟨d, hd, e⟩ := List.mem_map.mp hm
      obtain ⟨y, hy, hby⟩ := mem_items.mp hd
      exact absurd ((hn hby).symm.trans (e.trans (hn hb))) (ne_of_key_lt (hx y hy)).symm

lemma items_erase [DecidableEq κ]
    (hn : ∀ {x c}, build x = some c → name c = x.1) :
    items build (erase key t) = (items build t).filter (name · ≠ key) := by
  induction t with
  | nil => rfl
  | cons x t ih =>
    have hx : erase key (x :: t) = if x.1 ≠ key then x :: erase key t else erase key t := by
      rw [erase, List.filter_cons, ← erase]
      simp only [decide_eq_true_eq]
    unfold items at ih ⊢
    rw [hx]
    cases hb : build x with
    | none =>
      rw [List.filterMap_cons_none hb, ← ih]
      split
      next => rw [List.filterMap_cons_none hb]
      next => rfl
    | some c =>
      rw [List.filterMap_cons_some hb, List.filter_cons, ← ih]
      simp only [decide_eq_true_eq, hn hb]
      split
      next => rw [List.filterMap_cons_some hb]
      next => rfl

/-- A row that builds nothing. -/
lemma items_insert_none [DecidableEq κ] [LT κ] [DecidableLT κ]
    (hn : ∀ {x c}, build x = some c → name c = x.1)
    (hb : build (key, a) = none) :
    items build (insert key a t) = (items build t).filter (name · ≠ key) := by
  rw [← items_erase hn, insert]
  generalize erase key t = t
  unfold items
  induction t with
  | nil => rw [place, List.filterMap_cons_none hb]
  | cons y t ih =>
    unfold place
    split
    next => rw [List.filterMap_cons_none hb]
    next => rw [List.filterMap_cons, ih, List.filterMap_cons]

/-- A row that builds an item under a name that built none. -/
lemma items_insert_new [DecidableEq κ] [LT κ] [DecidableLT κ]
    (hn : ∀ {x c}, build x = some c → name c = x.1)
    (hb : build (key, a) = some c) (hk : key ∉ (items build t).map name) :
    (items build (insert key a t)).Perm (c :: items build t) := by
  have he : items build (erase key t) = items build t := by
    rw [items_erase hn]
    exact List.filter_eq_self.mpr fun d hd =>
      decide_eq_true fun e => hk (List.mem_map.mpr ⟨d, hd, e⟩)
  rw [← he, insert]
  generalize erase key t = t
  unfold items
  induction t with
  | nil => rw [place, List.filterMap_cons_some hb]
  | cons y t ih =>
    unfold place
    split
    next => rw [List.filterMap_cons_some hb]
    next =>
      cases hy : build y with
      | none => rw [List.filterMap_cons_none hy, List.filterMap_cons_none hy]; exact ih
      | some d =>
        rw [List.filterMap_cons_some hy, List.filterMap_cons_some hy]
        exact (ih.cons d).trans (.swap c d _)

/-- A row that builds another item under the name: it takes the place of the old one. -/
lemma items_insert_old [DecidableEq κ] [LT κ] [DecidableLT κ] [IsStrictTotalOrder κ (· < ·)]
    (hn : ∀ {x c}, build x = some c → name c = x.1) (h : Sorted t)
    (hb : build (key, a) = some c') (hk : key ∈ (items build t).map name) :
    items build (insert key a t) =
      (items build t).map fun c => if name c = key then c' else c := by
  induction t with
  | nil => cases hk
  | cons y t ih =>
    obtain ⟨hy, ht⟩ := List.pairwise_cons.mp h
    have hrest : ∀ c ∈ items build t, y.1 < name c := fun c hc => by
      obtain ⟨z, hz, hbz⟩ := mem_items.mp hc
      exact hn hbz ▸ hy z hz
    by_cases hyk : y.1 = key
    · have he : insert key a (y :: t) = (key, a) :: t := by
        rw [insert, erase, List.filter_cons_of_neg (by simpa using hyk), ← erase,
          erase_of_not_mem fun z hz => (ne_of_key_lt (hyk ▸ hy z hz)).symm]
        cases t with
        | nil => rfl
        | cons z t => rw [place, if_pos (hyk ▸ hy z List.mem_cons_self)]
      have hsame : (items build t).map
        (fun c => if name c = key then c' else c) = items build t := by
        refine (List.map_congr_left fun c hc => ?_).trans (List.map_id _)
        exact if_neg (ne_of_key_lt (hyk ▸ hrest c hc)).symm
      rw [he]
      cases hby : build y with
      | none =>
        obtain ⟨c, hc, e⟩ := List.mem_map.mp hk
        rw [items, List.filterMap_cons_none hby, ← items] at hc
        exact absurd (hyk.trans e.symm) (ne_of_key_lt (hrest c hc))
      | some c =>
        have hc : name c = key := (hn hby).trans hyk
        rw [items, items, List.filterMap_cons_some hb, List.filterMap_cons_some hby, ← items,
          List.map_cons, if_pos hc, hsame]
    · have hk' : key ∈ (items build t).map name := by
        obtain ⟨c, hc, e⟩ := List.mem_map.mp hk
        obtain ⟨z, hz, hbz⟩ := mem_items.mp hc
        rcases List.mem_cons.mp hz with rfl | hz
        · exact absurd ((hn hbz).symm.trans e) hyk
        · exact List.mem_map.mpr ⟨c, mem_items.mpr ⟨z, hz, hbz⟩, e⟩
      obtain ⟨c, hc, e⟩ := List.mem_map.mp hk'
      have hlt : y.1 < key := e ▸ hrest c hc
      have he : insert key a (y :: t) = y :: insert key a t := by
        rw [insert, erase, List.filter_cons_of_pos (by simpa using hyk), ← erase, place,
          if_neg (asymm_of (· < ·) hlt), ← insert]
      rw [he]
      cases hby : build y with
      | none =>
        rw [items, items, List.filterMap_cons_none hby, List.filterMap_cons_none hby]
        exact ih ht hk'
      | some d =>
        have hd : ¬ name d = key := fun e => hyk ((hn hby).symm.trans e)
        rw [items, items, List.filterMap_cons_some hby, List.filterMap_cons_some hby, List.map_cons,
          if_neg hd]
        exact congrArg (d :: ·) (ih ht hk')

end items

section bank

variable {κ γ : Type} {name : γ → κ} {n : Nat} {key : κ} {c c' : γ}
variable {all all' held : List γ}

/-- The bank holds the first items of all, as far as its `n` slots go. -/
def Fills (n : Nat) (all held : List γ) : Prop := ∀ c, c ∈ held ↔ c ∈ all.take n

/-- A bank with room holds all. -/
lemma Fills.room (h : Fills n all held) (ha : (all.map name).Nodup) (hh : (held.map name).Nodup)
    (hlt : held.length < n) : all.length < n := by
  have hp : held.Perm (all.take n) :=
    (List.perm_ext_iff_of_nodup hh.of_map (ha.of_map.sublist (List.take_sublist n all))).mpr h
  have hl := hp.length_eq
  rw [List.length_take] at hl
  omega

/-- An item into a free slot. -/
lemma Fills.push (h : Fills n all held) (hlt : all.length < n) (hp : all'.Perm (c :: all)) :
    Fills n all' (c :: held) := fun d => by
  have hl : all'.length ≤ n := by
    rw [hp.length_eq, List.length_cons]
    exact hlt
  rw [List.take_of_length_le hl, hp.mem_iff, List.mem_cons, List.mem_cons, h d,
    List.take_of_length_le hlt.le]

/-- An item that is in no slot is not among the first. -/
lemma Fills.not_mem (h : Fills n all held) (hk : key ∉ held.map name) :
    key ∉ (all.take n).map name := fun hm => by
  obtain ⟨c, hc, e⟩ := List.mem_map.mp hm
  exact hk (List.mem_map.mpr ⟨c, (h c).mpr hc, e⟩)

/-- An item leaves the table and its slot. -/
lemma Fills.filter [DecidableEq κ] (h : Fills n all held)
    (hk : key ∈ held.map name → all.length ≤ n) :
    Fills n (all.filter (name · ≠ key)) (held.filter (name · ≠ key)) := fun d => by
  by_cases hm : key ∈ held.map name
  · have hl := hk hm
    rw [List.take_of_length_le ((List.length_filter_le _ all).trans hl), List.mem_filter,
      List.mem_filter, h d, List.take_of_length_le hl]
  · have hkeep : ∀ {l : List γ}, key ∉ l.map name → l.filter (name · ≠ key) = l := fun hl =>
      List.filter_eq_self.mpr fun d hd => decide_eq_true fun e => hl (List.mem_map.mpr ⟨d, hd, e⟩)
    have ht := h.not_mem hm
    rw [hkeep hm, h d, ← List.take_append_drop n all, List.filter_append, hkeep ht,
      List.take_append_drop]
    by_cases hl : n ≤ all.length
    · rw [List.take_append_of_le_length (by rw [List.length_take]; exact (Nat.min_eq_left hl).ge),
        List.take_take, Nat.min_self]
    · have hle : all.length ≤ n := (Nat.lt_of_not_le hl).le
      rw [List.drop_eq_nil_of_le hle, List.filter_nil, List.append_nil, List.take_take,
        Nat.min_self]

/-- An item takes the place of another in the table, and its slot. -/
lemma Fills.replace [DecidableEq κ] (h : Fills n all held) (hc : name c' = key)
    (hm : key ∈ held.map name) : Fills n (all.map fun c => if name c = key then c' else c)
      (c' :: held.filter (name · ≠ key)) := fun d => by
  rw [← List.map_take, List.mem_cons, List.mem_filter, List.mem_map, h d, decide_eq_true_eq]
  constructor
  · rintro (rfl | ⟨hd, hne⟩)
    · obtain ⟨c, hc', e⟩ := List.mem_map.mp hm
      exact ⟨c, (h c).mp hc', if_pos e⟩
    · exact ⟨d, hd, if_neg hne⟩
  · rintro ⟨c, hmem, e⟩
    split at e
    next => exact .inl e.symm
    next hne => exact .inr (e ▸ ⟨hmem, hne⟩)

/-- Behind the last slot nothing changes. -/
lemma Fills.replace_behind [DecidableEq κ] (h : Fills n all held) (hm : key ∉ held.map name) :
    Fills n (all.map fun c => if name c = key then c' else c) held := fun d => by
  have ht := h.not_mem hm
  rw [← List.map_take, h d, List.map_congr_left fun c hc => if_neg fun e =>
    ht (List.mem_map.mpr ⟨c, hc, e⟩), List.map_id']

end bank

end Lib
