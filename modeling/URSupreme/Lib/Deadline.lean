import URSupreme.Lib.Clock

/-!
# Deadlines that a counter reads

A deadline that is kept as the reading of its own time, and compared with later readings. It is told
right as long as the counter does not start over before it, and from then on wherever the counter
has not fallen behind it again.
-/

namespace Lib

variable {n a b w due due' t u : Nat}

/-- The counter does not start over in an interval `w` from `t` on. -/
def Fits (n t w : Nat) : Prop := (t + w) / n = t / n

instance : Decidable (Fits n t w) := inferInstanceAs (Decidable (_ = _))

/-- At `t` the counter has not fallen behind a deadline that is over. -/
def Past (n due t : Nat) : Prop := due ≤ t → reading n due ≤ reading n t

instance : Decidable (Past n due t) := inferInstanceAs (Decidable (_ → _))

/-- What is kept at `t` of a deadline: a reading that is its own while it is ahead, in the count
that the counter is in, and not beyond its own from then on. -/
structure Marks (n a due t : Nat) : Prop where
  le : a ≤ reading n due
  eq : t < due → a = reading n due
  ahead : t < due → t / n = due / n

lemma div_eq_of_between (h : t / n = due / n) (htu : t ≤ u) (hud : u ≤ due) : u / n = due / n := by
  apply le_antisymm
  · exact Nat.div_le_div_right hud
  · rw [← h]
    exact Nat.div_le_div_right htu

/-- Within one count the counter reads times in their order. -/
lemma reading_lt_reading (h : t / n = u / n) : reading n t < reading n u ↔ t < u := by
  have ht := Nat.mod_add_div t n
  have hu := Nat.mod_add_div u n
  rw [h] at ht
  unfold reading
  constructor
  · intro hlt
    omega
  · intro hlt
    omega

lemma past_of_div_eq (h : t / n = due / n) : Past n due t := fun hle =>
  not_lt.mp fun hlt => not_lt.mpr hle ((reading_lt_reading h).mp hlt)

/-- The reading that is kept of a sum. -/
lemma marks_sum (h : Fits n t w) : Marks n ((reading n t + w) % n) (t + w) t := by
  have he : (reading n t + w) % n = reading n (t + w) := Nat.mod_add_mod t n w
  exact ⟨he.le, fun _ => he, fun _ => h.symm⟩

/-- Time goes on. -/
lemma Marks.later (h : Marks n a due t) (htu : t ≤ u) : Marks n a due u where
  le := h.le
  eq := fun hlt => h.eq (htu.trans_lt hlt)
  ahead := fun hlt => div_eq_of_between (h.ahead (htu.trans_lt hlt)) htu hlt.le

/-- A deadline is told right. -/
lemma Marks.reached (h : Marks n a due t) (hp : Past n due t) : a ≤ reading n t ↔ due ≤ t := by
  constructor
  · intro ha
    by_contra hlt
    have hlt := not_le.mp hlt
    rw [h.eq hlt] at ha
    exact absurd ((reading_lt_reading (h.ahead hlt)).mpr hlt) (not_lt.mpr ha)
  · intro hle
    exact h.le.trans (hp hle)

/-- A window that ends at a deadline is told right. -/
lemma Marks.open_iff (h : Marks n a due t) (hp : Past n due t) : reading n t < a ↔ t < due := by
  rw [← not_le, ← not_le, h.reached hp]

/-- The earlier of two deadlines is the one with the lower reading. -/
lemma Marks.min (h : Marks n a due t) (h' : Marks n b due' t) :
    Marks n (Min.min a b) (Min.min due due') t := by
  rcases lt_or_ge t (Min.min due due') with hlt | hge
  · obtain ⟨hd, hd'⟩ := lt_min_iff.mp hlt
    have hc : due / n = due' / n := (h.ahead hd).symm.trans (h'.ahead hd')
    have hr : Min.min (reading n due) (reading n due') = reading n (Min.min due due') := by
      rcases lt_or_ge due due' with hlt | hge
      · rw [min_eq_left hlt.le, min_eq_left ((reading_lt_reading hc).mpr hlt).le]
      · rw [min_eq_right hge, min_eq_right]
        exact not_lt.mp fun h => not_lt.mpr hge ((reading_lt_reading hc).mp h)
    have he : Min.min a b = reading n (Min.min due due') := by rw [h.eq hd, h'.eq hd', hr]
    refine ⟨he.le, fun _ => he, fun _ => ?_⟩
    rcases min_choice due due' with hm | hm
    · rw [hm]
      exact h.ahead hd
    · rw [hm]
      exact h'.ahead hd'
  · refine ⟨?_, fun hlt => absurd hlt (not_lt.mpr hge), fun hlt => absurd hlt (not_lt.mpr hge)⟩
    rcases min_choice due due' with hm | hm
    · rw [hm]
      exact (min_le_left a b).trans h.le
    · rw [hm]
      exact (min_le_right a b).trans h'.le

/-- A deadline that is over stays so, whatever else is put in its place that is not ahead of it. -/
lemma Marks.lower (h : Marks n a due t) (hd : due ≤ t) (hb : b ≤ a) : Marks n b due t :=
  ⟨hb.trans h.le, fun hlt => absurd hlt (not_lt.mpr hd), fun hlt => absurd hlt (not_lt.mpr hd)⟩

end Lib
