import URSupreme.Lib.Table
import URSupreme.Lib.Recent

/-!
# Keeping elements by index and by class

The elements of a list at the indices that are not in a list of dropped ones, the last elements of
each class, and the values of a list of pairs gathered in a bucket for each key.
-/

namespace Lib

variable {α κ : Type} {l l' : List α} {drop : List Nat}

/-- The elements whose index is not dropped, when the first one has index `k`. -/
def keepFrom (k : Nat) (drop : List Nat) (l : List α) : List α :=
  ((l.zipIdx k).filter (·.2 ∉ drop)).map (·.1)

lemma keepFrom_append {k : Nat} {l₁ l₂ : List α} :
    keepFrom k drop (l₁ ++ l₂) = keepFrom k drop l₁ ++ keepFrom (k + l₁.length) drop l₂ := by
  unfold keepFrom
  rw [List.zipIdx_append, List.filter_append, List.map_append]

/-- Indices that do not occur drop nothing. -/
lemma keepFrom_of_lt {k : Nat} (h : ∀ i ∈ drop, i < k) : keepFrom k drop l = l := by
  unfold keepFrom
  rw [List.filter_eq_self.mpr, List.zipIdx_map_fst]
  intro p hp
  obtain ⟨hk, -⟩ := List.mem_zipIdx (x := p.1) (i := p.2) hp
  exact decide_eq_true fun hd => absurd (h _ hd) (by omega)

/-- A list's elements are kept alike by index lists that agree below `k + l.length`. -/
lemma keepFrom_congr {k : Nat} {drop' : List Nat}
    (h : ∀ i, i < k + l.length → (i ∈ drop ↔ i ∈ drop')) :
    keepFrom k drop l = keepFrom k drop' l := by
  unfold keepFrom
  congr 1
  refine List.filter_congr fun p hp => ?_
  obtain ⟨-, hlt, -⟩ := List.mem_zipIdx (x := p.1) (i := p.2) hp
  rw [decide_eq_decide, not_iff_not]
  exact h _ (by omega)

/-- Erasing by index, from the highest index down, keeps the elements at the other indices. -/
lemma foldl_eraseIdx (hd : drop.Pairwise (· > ·)) :
    drop.foldl (fun l i => if i < l.length then l.eraseIdx i else l) l = keepFrom 0 drop l := by
  induction drop generalizing l with
  | nil => exact (keepFrom_of_lt fun _ h => (List.not_mem_nil h).elim).symm
  | cons i drop ih =>
    obtain ⟨hi, hd⟩ := List.pairwise_cons.mp hd
    rw [List.foldl_cons, ih hd]
    by_cases hlt : i < l.length
    · rw [if_pos hlt, List.eraseIdx_eq_take_drop_succ, keepFrom_append]
      have hl : l = l.take i ++ l[i] :: l.drop (i + 1) := by
        rw [List.getElem_cons_drop, List.take_append_drop]
      have htake : (l.take i).length = i := List.length_take_of_le hlt.le
      conv_rhs => rw [hl, keepFrom_append]
      congr 1
      · refine keepFrom_congr fun j hj => ?_
        rw [List.mem_cons, or_iff_right]
        omega
      · have hrest : keepFrom i (i :: drop) (l[i] :: l.drop (i + 1)) =
            keepFrom (i + 1) (i :: drop) (l.drop (i + 1)) := by
          unfold keepFrom
          rw [List.zipIdx_cons, List.filter_cons_of_neg]
          simp
        rw [htake, Nat.zero_add, hrest, keepFrom_of_lt hi, keepFrom_of_lt]
        intro j hj
        rcases List.mem_cons.mp hj with rfl | hj
        · exact Nat.lt_succ_self j
        · exact Nat.lt_succ_of_lt (hi j hj)
    · rw [if_neg hlt]
      refine keepFrom_congr fun j hj => ?_
      rw [List.mem_cons, or_iff_right]
      omega

lemma keepFrom_cons {k : Nat} {x : α} : keepFrom k drop (x :: l) =
    if k ∈ drop then keepFrom (k + 1) drop l else x :: keepFrom (k + 1) drop l := by
  unfold keepFrom
  rw [List.zipIdx_cons, List.filter_cons]
  simp only [decide_not, Bool.not_eq_true', decide_eq_false_iff_not, ite_not]
  split <;> rfl

variable [DecidableEq κ] {key : α → κ} {k k₀ : κ}

/-- Of each class with a limit only the last elements, as many as the limit allows. -/
def keepLast (key : α → κ) (limit : κ → Option Nat) : List α → List α
  | [] => []
  | x :: l =>
    if ∃ n ∈ limit (key x), n ≤ (l.filter (key · = key x)).length then keepLast key limit l
    else x :: keepLast key limit l

variable {limit : κ → Option Nat}

lemma keepLast_sublist : (keepLast key limit l).Sublist l := by
  induction l with
  | nil => exact List.Sublist.slnil
  | cons x l ih =>
    unfold keepLast
    split
    next => exact ih.cons x
    next => exact ih.cons_cons x

/-- What is kept of one class. -/
lemma filter_keepLast : (keepLast key limit l).filter (key · = k) =
    match limit k with
    | some n => recent n (l.filter (key · = k))
    | none => l.filter (key · = k) := by
  induction l with
  | nil =>
    cases limit k with
    | none => rfl
    | some n => exact (recent_of_le (Nat.zero_le n)).symm
  | cons x l ih =>
    unfold keepLast
    by_cases hx : key x = k
    · have hcons : ∀ l' : List α, (x :: l').filter (key · = k) = x :: l'.filter (key · = k) :=
        fun l' => List.filter_cons_of_pos (decide_eq_true hx)
      rw [hx, hcons l]
      cases hl : limit k with
      | none =>
        rw [hl] at ih
        rw [if_neg (by simp), hcons, ih]
      | some n =>
        rw [hl] at ih
        dsimp only at ih ⊢
        split
        next h =>
          obtain ⟨m, hm, hn⟩ := h
          obtain rfl := Option.mem_some.mp hm
          rw [ih, recent, recent, List.length_cons, Nat.succ_sub hn, List.drop_succ_cons]
        next h =>
          have hn : (l.filter (key · = k)).length < n := by
            by_contra hn
            exact h ⟨n, rfl, Nat.le_of_not_lt hn⟩
          rw [hcons, ih, recent_of_le hn.le, recent_of_le (by rw [List.length_cons]; exact hn)]
    · have hcons : ∀ l' : List α, (x :: l').filter (key · = k) = l'.filter (key · = k) :=
        fun l' => List.filter_cons_of_neg (by rw [decide_eq_true_eq]; exact hx)
      rw [hcons l, ← ih]
      split
      next => rfl
      next => exact hcons _

/-- What is dropped by index. -/
lemma keepLast_eq_keepFrom {k : Nat} (h : ∀ i (hi : i < l.length), k + i ∈ drop ↔
      ∃ n ∈ limit (key l[i]), n ≤ ((l.drop (i + 1)).filter (key · = key l[i])).length) :
    keepLast key limit l = keepFrom k drop l := by
  induction l generalizing k with
  | nil => rfl
  | cons x l ih =>
    have hx := h 0 (Nat.succ_pos _)
    have hl : keepLast key limit l = keepFrom (k + 1) drop l := ih fun i hi => by
      have hi' := h (i + 1) (Nat.succ_lt_succ hi)
      rw [← Nat.add_assoc, Nat.add_right_comm] at hi'
      exact hi'
    rw [keepFrom_cons, ← hl, keepLast]
    exact if_congr hx.symm rfl rfl

/-- Finer names for the classes change nothing. -/
lemma keepLast_comp {κ' : Type} [DecidableEq κ'] {f : κ → κ'} (hf : Function.Injective f)
    {limit : κ' → Option Nat} : keepLast key (limit ∘ f) l = keepLast (f ∘ key) limit l := by
  induction l with
  | nil => rfl
  | cons x l ih =>
    unfold keepLast
    rw [ih]
    simp only [Function.comp_apply, hf.eq_iff]

/-- A sublist that has as many elements of every class is the whole list. -/
lemma eq_of_sublist_of_filter (h : l'.Sublist l)
    (hc : ∀ k, (l'.filter (key · = k)).length = (l.filter (key · = k)).length) : l' = l := by
  induction h with
  | slnil => rfl
  | @cons l₁ l₂ a h ih =>
    have hle := (h.filter (key · = key a)).length_le
    have hk := hc (key a)
    rw [List.filter_cons, if_pos (decide_eq_true rfl), List.length_cons] at hk
    omega
  | @cons_cons l₁ l₂ a h ih =>
    rw [ih fun k => ?_]
    have hk := hc k
    rw [List.filter_cons, List.filter_cons] at hk
    split at hk
    · exact Nat.succ.inj hk
    · exact hk

/-- The values of a key, in order. -/
def valuesOf (k : κ) (l : List (κ × α)) : List α := (l.filter (·.1 = k)).map (·.2)

/-- A value goes to the end of its key's bucket; the first one opens the bucket. -/
def bucket (k₀ : κ) (a : α) : List (κ × List α) → List (κ × List α)
  | [] => [(k₀, [a])]
  | (k, as) :: m => if k = k₀ then (k, as ++ [a]) :: m else (k, as) :: bucket k₀ a m

/-- The values of a list by key. -/
def buckets (l : List (κ × α)) : List (κ × List α) := l.foldl (fun m x => bucket x.1 x.2 m) []

variable {a : α} {m : List (κ × List α)}

lemma lookup_bucket : lookup k (bucket k₀ a m) =
    if k = k₀ then some ((lookup k m).getD [] ++ [a]) else lookup k m := by
  induction m with
  | nil =>
    rw [bucket, lookup_cons]
    simp only [eq_comm]
    rfl
  | cons x m ih =>
    unfold bucket
    split
    next hx =>
      rw [lookup_cons, lookup_cons]
      by_cases hk : k = k₀
      · rw [if_pos (hx.trans hk.symm), if_pos hk, if_pos (hx.trans hk.symm)]
        rfl
      · rw [if_neg (hx ▸ Ne.symm hk), if_neg hk, if_neg (hx ▸ Ne.symm hk)]
    next hx =>
      rw [lookup_cons, lookup_cons, ih]
      by_cases hk : x.1 = k
      · rw [if_pos hk, if_pos hk, if_neg (hk ▸ hx)]
      · rw [if_neg hk, if_neg hk]

lemma mem_keys_bucket {x : κ} (h : x ∈ (bucket k₀ a m).map (·.1)) : x = k₀ ∨ x ∈ m.map (·.1) := by
  induction m with
  | nil => exact .inl (List.mem_singleton.mp h)
  | cons y m ih =>
    unfold bucket at h
    split at h
    next => exact .inr h
    next =>
      rw [List.map_cons, List.mem_cons] at h ⊢
      rcases h with h | h
      · exact .inr (.inl h)
      · exact (ih h).imp_right .inr

lemma nodup_bucket (h : (m.map (·.1)).Nodup) : ((bucket k₀ a m).map (·.1)).Nodup := by
  induction m with
  | nil => exact List.nodup_singleton _
  | cons y m ih =>
    rw [List.map_cons, List.nodup_cons] at h
    unfold bucket
    split
    next => exact List.nodup_cons.mpr h
    next hy =>
      refine List.nodup_cons.mpr ⟨fun hm => ?_, ih h.2⟩
      rcases mem_keys_bucket hm with e | hm
      · exact hy e
      · exact h.1 hm

lemma buckets_snoc {l : List (κ × α)} {x : κ × α} :
    buckets (l ++ [x]) = bucket x.1 x.2 (buckets l) := by
  unfold buckets
  rw [List.foldl_append]
  rfl

lemma nodup_buckets {l : List (κ × α)} : ((buckets l).map (·.1)).Nodup := by
  induction l using List.reverseRecOn with
  | nil => exact List.nodup_nil
  | append_singleton l x ih =>
    rw [buckets_snoc]
    exact nodup_bucket ih

lemma lookup_buckets {l : List (κ × α)} :
    lookup k (buckets l) = if valuesOf k l = [] then none else some (valuesOf k l) := by
  induction l using List.reverseRecOn with
  | nil => rfl
  | append_singleton l x ih =>
    have hv : valuesOf k (l ++ [x]) = valuesOf k l ++ if x.1 = k then [x.2] else [] := by
      unfold valuesOf
      rw [List.filter_append, List.map_append]
      congr 1
      rw [List.filter_cons]
      simp only [decide_eq_true_eq]
      split <;> rfl
    rw [buckets_snoc, lookup_bucket, ih, hv]
    by_cases hk : k = x.1
    · rw [if_pos hk, if_pos hk.symm,
        if_neg (List.append_ne_nil_of_right_ne_nil _ (List.cons_ne_nil _ _))]
      split
      next h => rw [h]; rfl
      next => rfl
    · rw [if_neg hk, if_neg (Ne.symm hk), List.append_nil]

/-- The buckets are the values of the keys that have any. -/
lemma mem_buckets {l : List (κ × α)} {as : List α} :
    (k, as) ∈ buckets l ↔ as = valuesOf k l ∧ as ≠ [] := by
  have hl := lookup_buckets (k := k) (l := l)
  constructor
  · intro h
    obtain ⟨bs, hb⟩ := lookup_of_mem h
    have e : as = bs :=
      (Prod.mk.inj (List.inj_on_of_nodup_map nodup_buckets h (mem_of_lookup hb) rfl)).2
    rw [hb] at hl
    split at hl
    next => cases hl
    next hv =>
      obtain rfl := Option.some.inj hl
      exact ⟨e, e ▸ hv⟩
  · rintro ⟨rfl, hne⟩
    rw [if_neg hne] at hl
    exact mem_of_lookup hl

end Lib
