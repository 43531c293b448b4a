import Mathlib.Tactic

/-!
# Runs of a state machine

A state machine is an initial state and a step function; a run takes the steps whose events `ok`
allows in the state before them. An invariant of the allowed steps holds in every state a run
reaches.
-/

namespace Lib

/-- The states reached from `init` by steps that `ok` allows. -/
inductive Reach {σ ε : Type} (step : σ → ε → σ) (ok : σ → ε → Prop) (init : σ) : σ → Prop where
  | init : Reach step ok init init
  | step {s e} : Reach step ok init s → ok s e → Reach step ok init (step s e)

variable {σ ε : Type} {step : σ → ε → σ} {ok ok' : σ → ε → Prop} {init s : σ}

/-- An invariant that the allowed steps keep holds in every state reached. -/
lemma Reach.invariant {P : σ → Prop} (h : Reach step ok init s) (h0 : P init)
    (hs : ∀ {s e}, ok s e → P s → P (step s e)) : P s := by
  induction h with
  | init => exact h0
  | step _ hok ih => exact hs hok ih

/-- Every event of the list is allowed in the state the ones before it lead to. -/
def Allowed (step : σ → ε → σ) (ok : σ → ε → Prop) : σ → List ε → Prop
  | _, [] => True
  | s, e :: es => ok s e ∧ Allowed step ok (step s e) es

instance instDecidableAllowed [∀ s e, Decidable (ok s e)] : ∀ s es, Decidable (Allowed step ok s es)
  | _, [] => .isTrue trivial
  | s, e :: es =>
    have := instDecidableAllowed (step s e) es
    inferInstanceAs (Decidable (ok s e ∧ Allowed step ok (step s e) es))

/-- Allowed events lead to a state that is reached. -/
lemma Reach.run {es : List ε} (h : Reach step ok init s) (hes : Allowed step ok s es) :
    Reach step ok init (es.foldl step s) := by
  induction es generalizing s with
  | nil => exact h
  | cons e es ih => exact ih (h.step hes.1) hes.2

lemma allowed_of_forall {es : List ε} (h : ∀ s e, ok s e) : Allowed step ok s es := by
  induction es generalizing s with
  | nil => trivial
  | cons e es ih => exact ⟨h s e, ih⟩

/-- What every event has that is allowed where the invariant holds. -/
lemma Allowed.imp {I : σ → Prop} {es : List ε} (hI : ∀ {s e}, I s → ok s e → I (step s e))
    (himp : ∀ {s e}, I s → ok s e → ok' s e) (h : I s) (hes : Allowed step ok s es) :
    Allowed step ok' s es := by
  induction es generalizing s with
  | nil => trivial
  | cons e es ih => exact ⟨himp h hes.1, ih (hI h hes.1) hes.2⟩

/-- Two conditions on the events that agree wherever the invariant holds allow the same runs, among
those that a third one allows. -/
lemma allowed_congr {I : σ → Prop} {g : σ → ε → Prop} {es : List ε}
    (hI : ∀ {s e}, I s → g s e → ok s e → I (step s e))
    (hiff : ∀ {s e}, I s → g s e → (ok' s e ↔ ok s e)) (h : I s) (hg : Allowed step g s es) :
    Allowed step ok' s es ↔ Allowed step ok s es := by
  induction es generalizing s with
  | nil => exact Iff.rfl
  | cons e es ih =>
    obtain ⟨hge, hg⟩ := hg
    refine ⟨fun ⟨he, hes⟩ => ?_, fun ⟨he, hes⟩ =>
      ⟨(hiff h hge).mpr he, (ih (hI h hge he) hg).mpr hes⟩⟩
    have he := (hiff h hge).mp he
    exact ⟨he, (ih (hI h hge he) hg).mp hes⟩

/-- What the invariant gives holds after each event of a run exactly when each event is allowed,
where an event that is not allowed breaks it. -/
lemma allowed_iff {I P : σ → Prop} {es : List ε} (hP : ∀ {s}, I s → P s)
    (hok : ∀ {s e}, I s → ok s e → I (step s e))
    (hbad : ∀ {s e}, I s → ¬ ok s e → ¬ P (step s e)) (h : I s) :
    (∀ k, P ((es.take k).foldl step s)) ↔ Allowed step ok s es := by
  induction es generalizing s with
  | nil =>
    refine ⟨fun _ => trivial, fun _ k => ?_⟩
    rw [List.take_nil]
    exact hP h
  | cons e es ih =>
    have hall : (∀ k, P (((e :: es).take k).foldl step s)) ↔
        ∀ k, P ((es.take k).foldl step (step s e)) := by
      refine ⟨fun hk k => hk (k + 1), fun hk k => ?_⟩
      cases k with
      | zero => exact hP h
      | succ k => exact hk k
    rw [hall]
    constructor
    · intro hk
      have he : ok s e := by_contra fun hn => hbad h hn (hk 0)
      exact ⟨he, (ih (hok h he)).mp hk⟩
    · exact fun ⟨he, hes⟩ => (ih (hok h he)).mpr hes

/-- The events of a run that `shown` holds of decide what can be seen of its last state, when the
others change nothing that can be seen. -/
lemma Allowed.purge {α : Type} {view : σ → α} {next : α → ε → α} {shown : ε → Bool} {es : List ε}
    (h : Allowed step ok s es)
    (hs : ∀ {s e}, ok s e → shown e = true → view (step s e) = next (view s) e)
    (hu : ∀ {s e}, ok s e → shown e = false → view (step s e) = view s) :
    view (es.foldl step s) = (es.filter shown).foldl next (view s) := by
  induction es generalizing s with
  | nil => rfl
  | cons e es ih =>
    rw [List.foldl_cons, ih h.2]
    cases he : shown e with
    | true => rw [hs h.1 he, List.filter_cons_of_pos he, List.foldl_cons]
    | false => rw [hu h.1 he, List.filter_cons_of_neg (by rw [he]; exact Bool.false_ne_true)]

end Lib
