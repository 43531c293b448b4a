import Mathlib.Tactic

/-!
# Parts that are written one after another

A state with a part for each key, and writes of different parts: each part ends as its own write
leaves it, so that together they change nothing only if none of them does.

Stages that may be refused run until the first that is.
-/

namespace Lib

section Parts

variable {ι : Type} [DecidableEq ι] {β : ι → Type} {f : ∀ i, β i → β i} {v : ∀ i, β i}
  {is : List ι} {i : ι}

/-- The parts of the list are written, each from what it was. -/
def writeParts (f : ∀ i, β i → β i) (v : ∀ i, β i) (is : List ι) : ∀ i, β i :=
  is.foldl (fun v i => Function.update v i (f i (v i))) v

lemma writeParts_append {js : List ι} :
    writeParts f v (is ++ js) = writeParts f (writeParts f v is) js := List.foldl_append

lemma writeParts_of_notMem (h : i ∉ is) : writeParts f v is i = v i := by
  induction is generalizing v with
  | nil => rfl
  | cons j is ih =>
    obtain ⟨hne, h⟩ := not_or.mp (mt List.mem_cons.mpr h)
    exact (ih h).trans (Function.update_of_ne hne _ _)

lemma writeParts_of_mem (hn : is.Nodup) (h : i ∈ is) : writeParts f v is i = f i (v i) := by
  induction is generalizing v with
  | nil => cases h
  | cons j is ih =>
    obtain ⟨hj, hn⟩ := List.nodup_cons.mp hn
    cases List.mem_cons.mp h with
    | inl he =>
      subst he
      exact (writeParts_of_notMem hj).trans (Function.update_self ..)
    | inr h =>
      have hne : i ≠ j := fun e => hj (e ▸ h)
      have hi := ih (v := Function.update v j (f j (v j))) hn h
      rw [Function.update_of_ne hne] at hi
      exact hi

/-- Writes of different parts change nothing exactly when none of them does. -/
theorem writeParts_eq_iff (hn : is.Nodup) : writeParts f v is = v ↔ ∀ i ∈ is, f i (v i) = v i := by
  constructor
  · intro h i hi
    exact (writeParts_of_mem hn hi).symm.trans (congrFun h i)
  · intro h
    funext i
    by_cases hi : i ∈ is
    · rw [writeParts_of_mem hn hi, h i hi]
    · exact writeParts_of_notMem hi

end Parts

section Stages

variable {σ ε : Type}

/-- Stages in their order, until the first that is refused. -/
def runStages : List (σ → σ × Option ε) → σ → σ × Option ε
  | [], s => (s, none)
  | f :: fs, s =>
    match f s with
    | (s', some e) => (s', some e)
    | (s', none) => runStages fs s'

/-- A run of stages, of which those that `refuses` holds of are refused: `I` holds of what the
stages before have left, and `Q` of what the first refused one leaves. -/
theorem runStages_cases {ι : Type} {stage : ι → σ → σ × Option ε} {refuses : ι → Bool}
    {I : List ι → σ → Prop} {Q : List ι → ι → σ → Prop} {is done rest : List ι} {s : σ}
    (hgo : ∀ {done i rest' s}, done ++ i :: rest' = is → I done s → refuses i = false →
      ∃ s', stage i s = (s', none) ∧ I (done ++ [i]) s')
    (hno : ∀ {done i rest' s}, done ++ i :: rest' = is → I done s → refuses i = true →
      ∃ s' e, stage i s = (s', some e) ∧ Q done i s')
    (his : done ++ rest = is) (h : I done s) :
    (∃ s', runStages (rest.map stage) s = (s', none) ∧ I is s' ∧ ∀ i ∈ rest, refuses i = false) ∨
    ∃ pre i post s' e, rest = pre ++ i :: post ∧ (∀ j ∈ pre, refuses j = false) ∧
      refuses i = true ∧ runStages (rest.map stage) s = (s', some e) ∧ Q (done ++ pre) i s' := by
  induction rest generalizing done s with
  | nil =>
    rw [List.append_nil] at his
    subst his
    exact .inl ⟨s, rfl, h, nofun⟩
  | cons i rest ih =>
    cases hr : refuses i with
    | true =>
      obtain ⟨s', e, hs, hq⟩ := hno his h hr
      refine .inr ⟨[], i, rest, s', e, rfl, nofun, hr, ?_, (List.append_nil done).symm ▸ hq⟩
      simp only [List.map_cons, runStages, hs]
    | false =>
      obtain ⟨s', hs, hi⟩ := hgo his h hr
      have hrun : runStages ((i :: rest).map stage) s = runStages (rest.map stage) s' := by
        simp only [List.map_cons, runStages, hs]
      have his' : (done ++ [i]) ++ rest = is := by rw [← his, List.append_assoc]; rfl
      rw [hrun]
      cases ih his' hi with
      | inl hall =>
        obtain ⟨t, ht, hit, hall⟩ := hall
        exact .inl ⟨t, ht, hit, List.forall_mem_cons.mpr ⟨hr, hall⟩⟩
      | inr hfirst =>
        obtain ⟨pre, j, post, t, e, rfl, hpre, hj, ht, hq⟩ := hfirst
        refine .inr ⟨i :: pre, j, post, t, e, rfl, List.forall_mem_cons.mpr ⟨hr, hpre⟩, hj, ht, ?_⟩
        rw [List.append_assoc] at hq
        exact hq

/-- The whole run, from its first stage. -/
theorem runStages_all {ι : Type} (stage : ι → σ → σ × Option ε) (refuses : ι → Bool) (is : List ι)
    {I : List ι → σ → Prop} {Q : List ι → ι → σ → Prop} {s : σ}
    (hgo : ∀ {done i rest s}, done ++ i :: rest = is → I done s → refuses i = false →
      ∃ s', stage i s = (s', none) ∧ I (done ++ [i]) s')
    (hno : ∀ {done i rest s}, done ++ i :: rest = is → I done s → refuses i = true →
      ∃ s' e, stage i s = (s', some e) ∧ Q done i s')
    (h : I [] s) :
    (∃ s', runStages (is.map stage) s = (s', none) ∧ I is s' ∧ ∀ i ∈ is, refuses i = false) ∨
    ∃ pre i post s' e, is = pre ++ i :: post ∧ (∀ j ∈ pre, refuses j = false) ∧
      refuses i = true ∧ runStages (is.map stage) s = (s', some e) ∧ Q pre i s' := by
  have hrun := runStages_cases (I := I) (Q := Q) hgo hno (List.nil_append is) h
  exact hrun

end Stages

end Lib
