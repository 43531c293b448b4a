import Mathlib.Analysis.Convex.Segment
import Mathlib.Analysis.Convex.Basic
import Mathlib.Algebra.Order.Floor.Ring
import Mathlib.Data.List.Sort
import Mathlib.Tactic

/-!
# Polygons and horizontal lines

A polygon is the list of its vertices, each joined to the one before it and the first to the last. A
line crosses the edges that lead from one side of it to the other, of which the line itself is the
one side. A closed polygon is crossed an even number of times; the crossings, sorted and taken in
pairs, cover what lies on one of them or has an odd number of them on its left.
-/

namespace Lib.Polygon

/-! ### The edges -/

section Edges

variable {α : Type} {p : α → Bool} {a b u v w : α} {vs : List α} {e : α × α}

/-- Each vertex with the one before it; `last` is before the first. -/
def edgesFrom : α → List α → List (α × α)
  | _, [] => []
  | last, v :: vs => (v, last) :: edgesFrom v vs

/-- The edges of the closed polygon. -/
def edges : List α → List (α × α)
  | [] => []
  | v :: vs => edgesFrom (vs.getLastD v) (v :: vs)

lemma edgesFrom_nil : edgesFrom a [] = [] := rfl

lemma edgesFrom_cons : edgesFrom a (v :: vs) = (v, a) :: edgesFrom v vs := rfl

lemma edges_cons : edges (v :: vs) = edgesFrom (vs.getLastD v) (v :: vs) := rfl

lemma edgesFrom_append {l l' : List α} :
    edgesFrom a (l ++ l') = edgesFrom a l ++ edgesFrom (l.getLastD a) l' := by
  induction l generalizing a with
  | nil => rfl
  | cons v l ih =>
    rw [List.getLastD_cons, List.cons_append]
    exact congrArg ((v, a) :: ·) ih

lemma edges_concat : edges (vs ++ [b]) = edgesFrom b (vs ++ [b]) := by
  cases vs with
  | nil => rfl
  | cons v vs =>
    have hlast : (vs ++ [b]).getLastD v = b := List.getLastD_concat
    rw [List.cons_append, edges_cons, hlast]

lemma edgesFrom_concat : edgesFrom a (vs ++ [b]) = edgesFrom a vs ++ [(b, vs.getLastD a)] :=
  edgesFrom_append

lemma mem_of_mem_edgesFrom (h : e ∈ edgesFrom a vs) : e.1 ∈ vs ∧ e.2 ∈ a :: vs := by
  induction vs generalizing a with
  | nil => cases h
  | cons v vs ih =>
    cases List.mem_cons.mp h with
    | inl he =>
      subst he
      exact ⟨List.mem_cons_self, List.mem_cons_self⟩
    | inr h =>
      obtain ⟨h1, h2⟩ := ih h
      exact ⟨List.mem_cons_of_mem _ h1, List.mem_cons_of_mem _ h2⟩

lemma mem_of_mem_edges (h : e ∈ edges vs) : e.1 ∈ vs ∧ e.2 ∈ vs := by
  cases vs with
  | nil => cases h
  | cons v vs =>
    obtain ⟨h1, h2⟩ := mem_of_mem_edgesFrom h
    refine ⟨h1, ?_⟩
    cases List.mem_cons.mp h2 with
    | inl he => exact he ▸ List.getLastD_mem_cons
    | inr h2 => exact h2

/-- The walk starts over at the next vertex. -/
lemma edges_rotate : (edges (vs ++ [v])).Perm (edges (v :: vs)) := by
  rw [edges_concat, edgesFrom_concat]
  exact List.perm_append_singleton _ _

lemma edgesFrom_reverse :
    (edgesFrom b (vs.reverse ++ [a])).Perm ((edgesFrom a (vs ++ [b])).map Prod.swap) := by
  induction vs generalizing a with
  | nil => exact .refl _
  | cons v vs ih =>
    have hlast : (vs.reverse ++ [v]).getLastD b = v := List.getLastD_concat
    rw [List.reverse_cons, edgesFrom_concat, hlast]
    exact (List.perm_append_singleton _ _).trans (ih.cons (a, v))

/-- The walk in the other direction. -/
lemma edges_reverse : (edges vs.reverse).Perm ((edges vs).map Prod.swap) := by
  induction vs using List.reverseRecOn with
  | nil => exact .refl _
  | append_singleton vs b =>
    rw [List.reverse_append, List.reverse_singleton, List.singleton_append, edges_concat]
    refine edges_rotate.symm.trans ?_
    rw [edges_concat]
    exact edgesFrom_reverse

lemma even_changes_from :
    Even ((edgesFrom a vs).countP fun e => p e.1 != p e.2) ↔ p a = p (vs.getLastD a) := by
  induction vs generalizing a with
  | nil => simp [edgesFrom_nil]
  | cons v vs ih =>
    rw [edgesFrom_cons, List.countP_cons, Nat.even_add, ih, List.getLastD_cons]
    cases p a <;> cases p v <;> cases p (vs.getLastD v) <;> decide

/-- Round a closed polygon a property of the vertices changes an even number of times. -/
theorem even_changes : Even ((edges vs).countP fun e => p e.1 != p e.2) := by
  cases vs with
  | nil => exact ⟨0, rfl⟩
  | cons v vs =>
    rw [edges_cons, even_changes_from, List.getLastD_cons]

end Edges

/-! ### The crossings -/

section Sides

variable {K : Type} [LinearOrder K] {y : K} {e : (K × K) × (K × K)}

/-- The ends lie on different sides of the line, which itself belongs to the side before it. -/
def Straddles (y : K) (e : (K × K) × (K × K)) : Prop :=
  (e.1.2 ≤ y ∧ y < e.2.2) ∨ (e.2.2 ≤ y ∧ y < e.1.2)

instance : Decidable (Straddles y e) := inferInstanceAs (Decidable (_ ∨ _))

lemma straddles_swap : Straddles y e.swap ↔ Straddles y e := Or.comm

lemma straddles_iff : Straddles y e ↔ decide (e.1.2 ≤ y) ≠ decide (e.2.2 ≤ y) := by
  change (e.1.2 ≤ y ∧ y < e.2.2) ∨ (e.2.2 ≤ y ∧ y < e.1.2) ↔ _
  by_cases h1 : e.1.2 ≤ y
  · by_cases h2 : e.2.2 ≤ y
    · simp [h1, h2, not_lt.mpr h1, not_lt.mpr h2]
    · simp [h1, h2, not_le.mp h2]
  · by_cases h2 : e.2.2 ≤ y
    · simp [h1, h2, not_le.mp h1]
    · simp [h1, h2]

lemma Straddles.ne (h : Straddles y e) : e.1.2 ≠ e.2.2 := by
  cases h with
  | inl h => exact (h.1.trans_lt h.2).ne
  | inr h => exact (h.1.trans_lt h.2).ne'

end Sides

section Crossings

variable {K : Type} [Field K] [LinearOrder K]
  {x y t : K} {e : (K × K) × (K × K)} {u v w p : K × K} {vs : List (K × K)}

/-- Where the line at `y` crosses the edge. -/
def crossing (y : K) (e : (K × K) × (K × K)) : Option K :=
  if Straddles y e then some (e.1.1 + (y - e.1.2) / (e.2.2 - e.1.2) * (e.2.1 - e.1.1)) else none

lemma crossing_of_straddles (h : Straddles y e) :
    crossing y e = some (e.1.1 + (y - e.1.2) / (e.2.2 - e.1.2) * (e.2.1 - e.1.1)) := if_pos h

lemma crossing_of_not_straddles (h : ¬ Straddles y e) : crossing y e = none := if_neg h

/-- The crossings of the line at `y`, edge by edge. -/
def crossings (y : K) (vs : List (K × K)) : List K := (edges vs).filterMap (crossing y)

lemma crossings_eq : crossings y vs = (edges vs).filterMap (crossing y) := rfl

lemma isSome_crossing :
    (crossing y e).isSome = (decide (e.1.2 ≤ y) != decide (e.2.2 ≤ y)) := by
  by_cases h : Straddles y e
  · rw [crossing_of_straddles h]
    exact (bne_iff_ne.mpr (straddles_iff.mp h)).symm
  · rw [crossing_of_not_straddles h]
    have heq : decide (e.1.2 ≤ y) = decide (e.2.2 ≤ y) := not_not.mp (mt straddles_iff.mpr h)
    simp [heq]

variable [IsStrictOrderedRing K]

/-- The points of the segment, by how far along it they are. -/
lemma mem_segment {a b : K × K} : p ∈ segment K a b ↔
    ∃ s, 0 ≤ s ∧ s ≤ 1 ∧ p.1 = a.1 + s * (b.1 - a.1) ∧ p.2 = a.2 + s * (b.2 - a.2) := by
  rw [segment_eq_image']
  constructor
  · rintro ⟨s, ⟨h0, h1⟩, rfl⟩
    exact ⟨s, h0, h1, rfl, rfl⟩
  · rintro ⟨s, h0, h1, hx, hy⟩
    exact ⟨s, ⟨h0, h1⟩, Prod.ext hx.symm hy.symm⟩

/-- A segment that is not level has one point at each height. -/
lemma segment_inj {a b : K × K} (hne : a.2 ≠ b.2) (hx : (x, y) ∈ segment K a b)
    (ht : (t, y) ∈ segment K a b) : x = t := by
  obtain ⟨s, -, -, hx, hy⟩ := mem_segment.mp hx
  obtain ⟨s', -, -, ht, hy'⟩ := mem_segment.mp ht
  have hs : s = s' := by
    have h : s * (b.2 - a.2) = s' * (b.2 - a.2) := add_left_cancel (hy.symm.trans hy')
    exact mul_right_cancel₀ (sub_ne_zero.mpr hne.symm) h
  subst hs
  exact hx.trans ht.symm

lemma Straddles.mem_segment (h : Straddles y e) :
    (e.1.1 + (y - e.1.2) / (e.2.2 - e.1.2) * (e.2.1 - e.1.1), y) ∈ segment K e.1 e.2 := by
  have hne : e.2.2 - e.1.2 ≠ 0 := sub_ne_zero.mpr h.ne.symm
  refine Polygon.mem_segment.mpr ⟨(y - e.1.2) / (e.2.2 - e.1.2), ?_, ?_, rfl, ?_⟩
  · cases h with
    | inl h => exact div_nonneg (sub_nonneg.mpr h.1) (sub_nonneg.mpr (h.1.trans h.2.le))
    | inr h =>
      exact div_nonneg_of_nonpos (sub_nonpos.mpr h.2.le) (sub_nonpos.mpr (h.1.trans h.2.le))
  · cases h with
    | inl h =>
      rw [div_le_one (sub_pos.mpr (h.1.trans_lt h.2))]
      linarith
    | inr h =>
      rw [div_le_one_of_neg (sub_neg.mpr (h.1.trans_lt h.2))]
      linarith
  · rw [div_mul_cancel₀ _ hne]
    ring

/-- The crossing is the point of the edge on the line. -/
theorem crossing_eq_some_iff :
    crossing y e = some x ↔ Straddles y e ∧ (x, y) ∈ segment K e.1 e.2 := by
  by_cases h : Straddles y e
  · rw [crossing_of_straddles h, Option.some_inj]
    constructor
    · intro hx
      exact ⟨h, hx ▸ h.mem_segment⟩
    · intro hx
      exact segment_inj h.ne h.mem_segment hx.2
  · rw [crossing_of_not_straddles h]
    exact iff_of_false nofun fun hx => h hx.1

lemma crossing_swap : crossing y e.swap = crossing y e := by
  apply Option.ext
  intro x
  rw [crossing_eq_some_iff, crossing_eq_some_iff, straddles_swap, Prod.fst_swap, Prod.snd_swap,
    segment_symm]

lemma mem_crossings :
    x ∈ crossings y vs ↔ ∃ e ∈ edges vs, Straddles y e ∧ (x, y) ∈ segment K e.1 e.2 := by
  rw [crossings_eq]
  simp only [List.mem_filterMap, crossing_eq_some_iff]

omit [IsStrictOrderedRing K] in
/-- A closed polygon is crossed an even number of times. -/
theorem even_length_crossings : Even (crossings y vs).length := by
  rw [crossings_eq, List.length_filterMap_eq_countP]
  have hchange : (fun e => (crossing y e).isSome) =
      fun e : (K × K) × (K × K) => decide (e.1.2 ≤ y) != decide (e.2.2 ≤ y) := by
    funext e
    exact isSome_crossing
  rw [hchange]
  exact even_changes (p := fun v : K × K => decide (v.2 ≤ y))

/-- The crossings lie where the vertices do. -/
lemma crossings_mem {c : Set (K × K)} (hc : Convex K c) (hv : ∀ v ∈ vs, v ∈ c)
    (hx : x ∈ crossings y vs) : (x, y) ∈ c := by
  obtain ⟨e, he, -, hs⟩ := mem_crossings.mp hx
  obtain ⟨h1, h2⟩ := mem_of_mem_edges he
  exact hc.segment_subset (hv _ h1) (hv _ h2) hs

/-- A line with a crossing has a vertex on either side. -/
lemma exists_sides (hx : x ∈ crossings y vs) : (∃ v ∈ vs, v.2 ≤ y) ∧ ∃ v ∈ vs, y < v.2 := by
  obtain ⟨e, he, hs, -⟩ := mem_crossings.mp hx
  obtain ⟨h1, h2⟩ := mem_of_mem_edges he
  cases hs with
  | inl hs => exact ⟨⟨_, h1, hs.1⟩, _, h2, hs.2⟩
  | inr hs => exact ⟨⟨_, h2, hs.1⟩, _, h1, hs.2⟩

/-- Two edges that lead across the line together, one along the other. -/
lemma crossing_congr {f : (K × K) × (K × K)} (hs : Straddles y e ↔ Straddles y f)
    (hsub : segment K e.1 e.2 ⊆ segment K f.1 f.2) : crossing y e = crossing y f := by
  by_cases h : Straddles y e
  · have he := crossing_eq_some_iff.mpr ⟨h, h.mem_segment⟩
    have hf := crossing_eq_some_iff.mpr ⟨hs.mp h, hsub h.mem_segment⟩
    exact he.trans hf.symm
  · exact (crossing_of_not_straddles h).trans (crossing_of_not_straddles (mt hs.mpr h)).symm

/-- A vertex between two others is on the side of one of them. -/
lemma between_side (hw : w ∈ segment K u v) :
    (w.2 ≤ y ↔ v.2 ≤ y) ∨ (w.2 ≤ y ↔ u.2 ≤ y) := by
  obtain ⟨s, h0, h1, -, hw⟩ := mem_segment.mp hw
  by_cases hu : u.2 ≤ y
  · by_cases hv : v.2 ≤ y
    · refine .inl (iff_of_true ?_ hv)
      rw [hw]
      nlinarith
    · by_cases hy : w.2 ≤ y
      · exact .inr (iff_of_true hy hu)
      · exact .inl (iff_of_false hy hv)
  · by_cases hv : v.2 ≤ y
    · by_cases hy : w.2 ≤ y
      · exact .inl (iff_of_true hy hv)
      · exact .inr (iff_of_false hy hu)
    · refine .inl (iff_of_false ?_ hv)
      rw [hw]
      have hu := not_le.mp hu
      have hv := not_le.mp hv
      nlinarith [mul_nonneg h0 (sub_nonneg.mpr hv.le),
        mul_nonneg (sub_nonneg.mpr h1) (sub_nonneg.mpr hu.le)]

/-- An edge cut in two is crossed in one of its parts. -/
lemma crossing_between (hw : w ∈ segment K u v) :
    (crossing y (w, u) = crossing y (v, u) ∧ crossing y (v, w) = none) ∨
    (crossing y (w, u) = none ∧ crossing y (v, w) = crossing y (v, u)) := by
  have hvu : w ∈ segment K v u := segment_symm K u v ▸ hw
  have hu : segment K w u ⊆ segment K v u :=
    (convex_segment v u).segment_subset hvu (right_mem_segment K v u)
  have hv : segment K v w ⊆ segment K v u :=
    (convex_segment v u).segment_subset (left_mem_segment K v u) hvu
  cases between_side (y := y) hw with
  | inl h =>
    refine .inl ⟨crossing_congr ?_ hu, crossing_of_not_straddles ?_⟩
    · rw [straddles_iff, straddles_iff]
      simp only [h]
    · rw [straddles_iff]
      simp only [h, ne_eq, not_true_eq_false, not_false_eq_true]
  | inr h =>
    refine .inr ⟨crossing_of_not_straddles ?_, crossing_congr ?_ hv⟩
    · rw [straddles_iff]
      simp only [h, ne_eq, not_true_eq_false, not_false_eq_true]
    · rw [straddles_iff, straddles_iff]
      simp only [h]

omit [IsStrictOrderedRing K] in
lemma crossings_rotate : (crossings y (vs ++ [v])).Perm (crossings y (v :: vs)) :=
  edges_rotate.filterMap _

lemma crossings_reverse : (crossings y vs.reverse).Perm (crossings y vs) := by
  refine (edges_reverse.filterMap _).trans ?_
  rw [List.filterMap_map]
  exact .of_eq (congrArg (List.filterMap · (edges vs)) (funext fun e => crossing_swap))

lemma crossings_between (hw : w ∈ segment K u v) :
    crossings y (u :: w :: v :: vs) = crossings y (u :: v :: vs) := by
  have hlast : (w :: v :: vs).getLastD u = (v :: vs).getLastD u := by
    rw [List.getLastD_cons, List.getLastD_cons, List.getLastD_cons]
  simp only [crossings_eq, edges_cons, edgesFrom_cons, hlast]
  obtain ⟨h1, h2⟩ | ⟨h1, h2⟩ := crossing_between (y := y) hw
  · simp only [List.filterMap_cons, h1, h2]
  · simp only [List.filterMap_cons, h1, h2]

end Crossings

/-! ### Pairs of crossings -/

section Pairs

/-- The numbers two by two. -/
def pairs {K : Type} : List K → List (K × K)
  | a :: b :: xs => (a, b) :: pairs xs
  | _ => []

variable {K : Type} [LinearOrder K] {t : K} {xs : List K} {q : K × K}

omit [LinearOrder K] in
lemma mem_of_mem_pairs (h : q ∈ pairs xs) : q.1 ∈ xs ∧ q.2 ∈ xs := by
  induction xs using pairs.induct with
  | case1 a b xs ih =>
    cases List.mem_cons.mp h with
    | inl he =>
      subst he
      exact ⟨List.mem_cons_self, List.mem_cons_of_mem _ List.mem_cons_self⟩
    | inr h =>
      obtain ⟨h1, h2⟩ := ih h
      exact ⟨List.mem_cons_of_mem _ (List.mem_cons_of_mem _ h1),
        List.mem_cons_of_mem _ (List.mem_cons_of_mem _ h2)⟩
  | case2 xs hxs => simp [pairs] at h

lemma le_of_mem_pairs (hs : xs.Pairwise (· ≤ ·)) (h : q ∈ pairs xs) : q.1 ≤ q.2 := by
  induction xs using pairs.induct with
  | case1 a b xs ih =>
    obtain ⟨ha, hs⟩ := List.pairwise_cons.mp hs
    cases List.mem_cons.mp h with
    | inl he =>
      subst he
      exact ha b List.mem_cons_self
    | inr h => exact ih (List.pairwise_cons.mp hs).2 h
  | case2 xs hxs => simp [pairs] at h

lemma countP_lt_eq_zero (h : ∀ c ∈ xs, t ≤ c) : xs.countP (· < t) = 0 :=
  List.countP_eq_zero.mpr fun c hc => by simpa using h c hc

/-- The pairs of sorted numbers cover those numbers and what has an odd number of them before it. -/
theorem exists_pair_iff (hs : xs.Pairwise (· ≤ ·)) (he : Even xs.length) :
    (∃ q ∈ pairs xs, q.1 ≤ t ∧ t ≤ q.2) ↔ t ∈ xs ∨ Odd (xs.countP (· < t)) := by
  induction xs using pairs.induct with
  | case1 a b xs ih =>
    obtain ⟨ha, hs⟩ := List.pairwise_cons.mp hs
    obtain ⟨hb, hs⟩ := List.pairwise_cons.mp hs
    have hab : a ≤ b := ha b List.mem_cons_self
    have ih := ih hs (by simpa [Nat.even_add_one] using he)
    rw [pairs, List.exists_mem_cons_iff, ih]
    rcases lt_or_ge t a with hta | hta
    · -- before the first of them
      have hlt : ∀ c ∈ a :: b :: xs, t < c := by
        intro c hc
        cases List.mem_cons.mp hc with
        | inl hc => exact hc ▸ hta
        | inr hc => exact hta.trans_le (ha c hc)
      have hxs : ∀ c ∈ xs, t < c := fun c hc =>
        hlt c (List.mem_cons_of_mem _ (List.mem_cons_of_mem _ hc))
      have hnone : ∀ {ys : List K}, (∀ c ∈ ys, t < c) → ¬ (t ∈ ys ∨ Odd (ys.countP (· < t))) := by
        rintro ys hys (hm | hodd)
        · exact (hys t hm).false
        · rw [countP_lt_eq_zero fun c hc => (hys c hc).le] at hodd
          cases hodd with
          | intro k hk => omega
      exact iff_of_false (not_or.mpr ⟨fun h => (h.1.trans_lt hta).false.elim, hnone hxs⟩)
        (hnone hlt)
    · rcases le_or_gt t b with htb | htb
      · -- between the first two
        refine iff_of_true (.inl ⟨hta, htb⟩) ?_
        by_cases hea : t = a
        · exact .inl (hea ▸ List.mem_cons_self)
        by_cases heb : t = b
        · exact .inl (heb ▸ List.mem_cons_of_mem _ List.mem_cons_self)
        right
        have hlt : a < t := lt_of_le_of_ne hta (Ne.symm hea)
        have hxs : xs.countP (· < t) = 0 := countP_lt_eq_zero fun c hc => htb.trans (hb c hc)
        simp [hlt, not_lt.mpr htb, hxs]
      · -- behind them, where both of them count
        have hat : a < t := hab.trans_lt htb
        have hcount : (a :: b :: xs).countP (· < t) = xs.countP (· < t) + 2 := by
          simp [hat, htb]
        have hmem : t ∈ a :: b :: xs ↔ t ∈ xs := by
          simp [hat.ne', htb.ne']
        have hout : ¬ (a ≤ t ∧ t ≤ b) := fun h => (h.2.trans_lt htb).false
        rw [hcount, hmem, or_iff_right hout, Nat.odd_add]
        simp
  | case2 xs hxs =>
    cases xs with
    | nil => simp [pairs]
    | cons a xs =>
      cases xs with
      | nil => simp at he
      | cons b xs => exact absurd rfl (hxs a b xs)

end Pairs

/-! ### Inside and outside -/

section Inside

variable {K : Type} [Field K] [LinearOrder K] {x y t : K} {p : K × K} {vs ws : List (K × K)}

/-- The point is on an edge. -/
def OnBoundary (vs : List (K × K)) (p : K × K) : Prop := ∃ e ∈ edges vs, p ∈ segment K e.1 e.2

/-- The point is off the edges, with an odd number of crossings on its left. -/
def Interior (vs : List (K × K)) (p : K × K) : Prop :=
  ¬ OnBoundary vs p ∧ Odd ((crossings p.2 vs).countP (· < p.1))

/-- The line at `y` is covered at `t`: by a crossing, or with an odd number of them on the left. -/
def Covers (vs : List (K × K)) (y t : K) : Prop :=
  t ∈ crossings y vs ∨ Odd ((crossings y vs).countP (· < t))

/-- Edges meet only where they are joined. -/
structure Simple (vs : List (K × K)) : Prop where
  nodup : vs.Nodup
  meet : ∀ e ∈ edges vs, ∀ f ∈ edges vs, e ≠ f → ∀ p, p ∈ segment K e.1 e.2 →
    p ∈ segment K f.1 f.2 → p = e.1 ∧ p = f.2 ∨ p = e.2 ∧ p = f.1

lemma Covers.of_perm (hp : (crossings y vs).Perm (crossings y ws)) :
    Covers vs y t ↔ Covers ws y t := by
  unfold Covers
  rw [hp.mem_iff, hp.countP_eq]

/-- The sorted crossings, two by two, cover the line. -/
theorem covers_iff : Covers vs y t ↔
    ∃ q ∈ pairs ((crossings y vs).insertionSort (· ≤ ·)), q.1 ≤ t ∧ t ≤ q.2 := by
  have hp := List.perm_insertionSort (· ≤ ·) (crossings y vs)
  have he : Even ((crossings y vs).insertionSort (· ≤ ·)).length :=
    hp.length_eq ▸ even_length_crossings
  rw [exists_pair_iff (List.pairwise_insertionSort _ _) he, hp.mem_iff, hp.countP_eq]
  rfl

/-- What is covered lies between two crossings. -/
lemma Covers.exists_crossings (h : Covers vs y t) :
    (∃ x ∈ crossings y vs, x ≤ t) ∧ ∃ x ∈ crossings y vs, t ≤ x := by
  obtain ⟨q, hq, h1, h2⟩ := covers_iff.mp h
  obtain ⟨hm1, hm2⟩ := mem_of_mem_pairs hq
  exact ⟨⟨q.1, (List.mem_insertionSort _).mp hm1, h1⟩, q.2, (List.mem_insertionSort _).mp hm2, h2⟩

/-- The unit intervals that an interval reaches. -/
lemma exists_between_iff [IsStrictOrderedRing K] [FloorRing K] {n : ℤ} (h : x ≤ y) :
    (∃ t : K, (n ≤ t ∧ t < n + 1) ∧ x ≤ t ∧ t ≤ y) ↔ ⌊x⌋ ≤ n ∧ n ≤ ⌊y⌋ := by
  constructor
  · rintro ⟨t, ht, h1, h2⟩
    have hn : ⌊t⌋ = n := Int.floor_eq_iff.mpr ht
    exact ⟨hn ▸ Int.floor_mono h1, hn ▸ Int.floor_mono h2⟩
  · rintro ⟨h1, h2⟩
    have hlt := Int.floor_lt.mp (Int.lt_add_one_of_le h1)
    push_cast at hlt
    have hge := Int.le_floor.mp h2
    rcases le_total x n with hn | hn
    · exact ⟨n, ⟨le_rfl, lt_add_one _⟩, hn, hge⟩
    · exact ⟨x, ⟨hn, hlt⟩, le_rfl, h⟩

/-- The unit intervals that a pair reaches are those with a covered point. -/
theorem exists_cell_iff [IsStrictOrderedRing K] [FloorRing K] {n : ℤ} :
    (∃ q ∈ pairs ((crossings y vs).insertionSort (· ≤ ·)), ⌊q.1⌋ ≤ n ∧ n ≤ ⌊q.2⌋) ↔
      ∃ t : K, (n ≤ t ∧ t < n + 1) ∧ Covers vs y t := by
  have hle : ∀ q ∈ pairs ((crossings y vs).insertionSort (· ≤ ·)), q.1 ≤ q.2 := fun q hq =>
    le_of_mem_pairs (List.pairwise_insertionSort _ _) hq
  constructor
  · rintro ⟨q, hq, hn⟩
    obtain ⟨t, ht, hm⟩ := (exists_between_iff (hle q hq)).mpr hn
    exact ⟨t, ht, covers_iff.mpr ⟨q, hq, hm⟩⟩
  · rintro ⟨t, ht, hc⟩
    obtain ⟨q, hq, hm⟩ := covers_iff.mp hc
    exact ⟨q, hq, (exists_between_iff (hle q hq)).mp ⟨t, ht, hm⟩⟩

lemma Interior.covers (h : Interior vs p) : Covers vs p.2 p.1 := .inr h.2

variable [IsStrictOrderedRing K]

lemma onBoundary_of_mem (h : x ∈ crossings y vs) : OnBoundary vs (x, y) := by
  obtain ⟨e, he, -, hs⟩ := mem_crossings.mp h
  exact ⟨e, he, hs⟩

/-- What a line covers belongs to the polygon. -/
theorem Covers.touches (h : Covers vs y t) : OnBoundary vs (t, y) ∨ Interior vs (t, y) := by
  by_cases hb : OnBoundary vs (t, y)
  · exact .inl hb
  · exact .inr ⟨hb, h.resolve_left (mt onBoundary_of_mem hb)⟩

/-- A point inside has a crossing on its right. -/
lemma Interior.exists_lt (h : Interior vs p) : ∃ x ∈ crossings p.2 vs, p.1 < x := by
  obtain ⟨-, x, hx, hle⟩ := h.covers.exists_crossings
  refine ⟨x, hx, lt_of_le_of_ne hle ?_⟩
  intro he
  subst he
  exact h.1 (onBoundary_of_mem hx)

end Inside

/-! ### Boxes -/

/-- A rectangle along the axes. -/
structure Box (K : Type) [LT K] where
  left : K
  top : K
  right : K
  bottom : K
  left_lt : left < right
  top_lt : top < bottom

section Boxes

variable {K : Type} [Field K] [LinearOrder K] [IsStrictOrderedRing K]

def Box.corners (b : Box K) : List (K × K) :=
  [(b.left, b.top), (b.right, b.top), (b.right, b.bottom), (b.left, b.bottom)]

/-- The polygon goes round the box: from any corner, in either direction, with any vertices on the
sides. -/
inductive Outlines (b : Box K) : List (K × K) → Prop
  | corners : Outlines b b.corners
  | rotate {v vs} : Outlines b (v :: vs) → Outlines b (vs ++ [v])
  | reverse {vs} : Outlines b vs → Outlines b vs.reverse
  | between {u v w vs} : Outlines b (u :: v :: vs) → w ∈ segment K u v →
      Outlines b (u :: w :: v :: vs)

variable {b : Box K} {c y t : K} {p : K × K} {vs : List (K × K)}

lemma Outlines.crossings_perm (h : Outlines b vs) :
    (crossings y vs).Perm (crossings y b.corners) := by
  induction h with
  | corners => exact .refl _
  | rotate _ ih => exact crossings_rotate.trans ih
  | reverse _ ih => exact crossings_reverse.trans ih
  | between _ hw ih => exact (crossings_between hw) ▸ ih

omit [IsStrictOrderedRing K] in
/-- The corners are vertices. -/
lemma Outlines.corners_mem (h : Outlines b vs) : ∀ v ∈ b.corners, v ∈ vs := by
  induction h with
  | corners => exact fun v hv => hv
  | rotate _ ih => exact fun v hv => (List.perm_append_singleton _ _).mem_iff.mpr (ih v hv)
  | reverse _ ih => exact fun v hv => List.mem_reverse.mpr (ih v hv)
  | between _ _ ih =>
    intro v hv
    have hm := ih v hv
    simp only [List.mem_cons] at hm ⊢
    tauto

/-- A line between the level sides crosses the other two. -/
lemma crossings_corners :
    crossings y b.corners = if b.top ≤ y ∧ y < b.bottom then [b.left, b.right] else [] := by
  have hup : ∀ x : K, crossing y ((x, b.top), (x, b.bottom)) =
      if b.top ≤ y ∧ y < b.bottom then some x else none := by
    intro x
    have hout : ¬ (b.bottom ≤ y ∧ y < b.top) := fun h =>
      ((h.1.trans_lt h.2).trans b.top_lt).false
    by_cases h : b.top ≤ y ∧ y < b.bottom
    · have hs : Straddles y ((x, b.top), (x, b.bottom)) := .inl h
      simp [crossing_of_straddles hs, h]
    · rw [crossing_of_not_straddles (not_or.mpr ⟨h, hout⟩), if_neg h]
  have hdown : ∀ x : K, crossing y ((x, b.bottom), (x, b.top)) =
      if b.top ≤ y ∧ y < b.bottom then some x else none := fun x => crossing_swap.trans (hup x)
  have hlevel : ∀ x x' z : K, crossing y ((x, z), (x', z)) = none := by
    intro x x' z
    refine crossing_of_not_straddles ?_
    rw [straddles_iff]
    exact fun h => h rfl
  simp only [crossings_eq, Box.corners, edges_cons, edgesFrom_cons, edgesFrom_nil,
    List.getLastD_cons, List.getLastD_nil, List.filterMap_cons, List.filterMap_nil, hup, hdown,
    hlevel]
  by_cases h : b.top ≤ y ∧ y < b.bottom
  · simp only [if_pos h]
  · simp only [if_neg h]

/-- An outlined box is covered from its left side to its right one. -/
theorem Outlines.covers_iff (h : Outlines b vs) :
    Covers vs y t ↔ (b.top ≤ y ∧ y < b.bottom) ∧ b.left ≤ t ∧ t ≤ b.right := by
  rw [Covers.of_perm h.crossings_perm, Covers, crossings_corners]
  split
  next hy =>
    rw [← exists_pair_iff (by simpa using b.left_lt.le) (by simp)]
    simp [pairs, hy]
  next hy => simp [hy]

/-- The same polygon at another size. -/
def scale (c : K) (v : K × K) : K × K := (v.1 * c, v.2 * c)

def Box.scale (b : Box K) (hc : 0 < c) : Box K where
  left := b.left * c
  top := b.top * c
  right := b.right * c
  bottom := b.bottom * c
  left_lt := mul_lt_mul_of_pos_right b.left_lt hc
  top_lt := mul_lt_mul_of_pos_right b.top_lt hc

lemma scale_mem_segment {u v w : K × K} (h : w ∈ segment K u v) :
    scale c w ∈ segment K (scale c u) (scale c v) := by
  obtain ⟨s, h0, h1, hx, hy⟩ := mem_segment.mp h
  refine mem_segment.mpr ⟨s, h0, h1, ?_, ?_⟩
  · simp only [scale, hx]
    ring
  · simp only [scale, hy]
    ring

lemma Outlines.scale (h : Outlines b vs) (hc : 0 < c) :
    Outlines (b.scale hc) (vs.map (Polygon.scale c)) := by
  induction h with
  | corners => exact .corners
  | rotate _ ih =>
    rw [List.map_append]
    exact ih.rotate
  | reverse _ ih =>
    rw [List.map_reverse]
    exact ih.reverse
  | between _ hw ih => exact ih.between (scale_mem_segment hw)

lemma segment_upright {x : K} {z z' : K} (h : p ∈ segment K (x, z) (x, z')) : p.1 = x := by
  obtain ⟨s, -, -, hx, -⟩ := mem_segment.mp h
  simpa using hx

lemma segment_level {x x' : K} {z : K} (h : p ∈ segment K (x, z) (x', z)) : p.2 = z := by
  obtain ⟨s, -, -, -, hy⟩ := mem_segment.mp h
  simpa using hy

/-- A box is a simple polygon. -/
theorem Box.simple : Simple b.corners := by
  have hx := b.left_lt.ne
  have hy := b.top_lt.ne
  constructor
  · simp [corners, hx, hy, hx.symm]
  · intro e he f hf hne p hpe hpf
    simp only [corners, edges_cons, edgesFrom_cons, edgesFrom_nil, List.getLastD_cons,
      List.getLastD_nil, List.mem_cons, List.not_mem_nil, or_false] at he hf
    -- opposite sides are apart, and neighbours meet in their corner
    rcases he with rfl | rfl | rfl | rfl
    · have hp := segment_upright hpe
      rcases hf with rfl | rfl | rfl | rfl
      · exact absurd rfl hne
      · have hq := segment_level hpf
        exact .inl ⟨Prod.ext hp hq, Prod.ext hp hq⟩
      · exact absurd (hp.symm.trans (segment_upright hpf)) hx
      · have hq := segment_level hpf
        exact .inr ⟨Prod.ext hp hq, Prod.ext hp hq⟩
    · have hp := segment_level hpe
      rcases hf with rfl | rfl | rfl | rfl
      · have hq := segment_upright hpf
        exact .inr ⟨Prod.ext hq hp, Prod.ext hq hp⟩
      · exact absurd rfl hne
      · have hq := segment_upright hpf
        exact .inl ⟨Prod.ext hq hp, Prod.ext hq hp⟩
      · exact absurd (hp.symm.trans (segment_level hpf)) hy
    · have hp := segment_upright hpe
      rcases hf with rfl | rfl | rfl | rfl
      · exact absurd ((segment_upright hpf).symm.trans hp) hx
      · have hq := segment_level hpf
        exact .inr ⟨Prod.ext hp hq, Prod.ext hp hq⟩
      · exact absurd rfl hne
      · have hq := segment_level hpf
        exact .inl ⟨Prod.ext hp hq, Prod.ext hp hq⟩
    · have hp := segment_level hpe
      rcases hf with rfl | rfl | rfl | rfl
      · have hq := segment_upright hpf
        exact .inl ⟨Prod.ext hq hp, Prod.ext hq hp⟩
      · exact absurd ((segment_level hpf).symm.trans hp) hy
      · have hq := segment_upright hpf
        exact .inr ⟨Prod.ext hq hp, Prod.ext hq hp⟩
      · exact absurd rfl hne

end Boxes

end Lib.Polygon
