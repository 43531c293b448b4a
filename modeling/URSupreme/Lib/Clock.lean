import Mathlib.Tactic

/-!
# Clocks that start over

A counter of `n` values reads a time that goes on for ever. A deadline that is a reading and an
interval is compared with later readings, and it comes late by a whole turn of the counter for each
time that the counter starts over in between.

Work waits for a deadline while ticks, each with its time, look at it in turn.
-/

namespace Lib

/-- What a counter of `n` values reads. -/
def reading (n t : Nat) : Nat := t % n

/-- How often the counter starts over from one time to another. -/
def wraps (n t₀ t : Nat) : Nat := t / n - t₀ / n

/-- At `t` an interval `w` from `t₀` on is not over yet, or the counter has not delayed it. -/
def Timely (n t₀ w t : Nat) : Prop := t < t₀ + w ∨ t₀ + w + n * wraps n t₀ t ≤ t

instance {n t₀ w t} : Decidable (Timely n t₀ w t) := inferInstanceAs (Decidable (_ ∨ _))

variable {n t₀ w t u : Nat}

lemma reading_add_wraps (h : t₀ ≤ t) : reading n t + n * wraps n t₀ t + t₀ = reading n t₀ + t := by
  have ht := Nat.mod_add_div t n
  have ht₀ := Nat.mod_add_div t₀ n
  have hd : n * (t / n - t₀ / n) + n * (t₀ / n) = n * (t / n) := by
    rw [← Nat.mul_add, Nat.sub_add_cancel (Nat.div_le_div_right h)]
  unfold reading wraps
  omega

/-- When a deadline is reached. -/
lemma deadline_le (h : t₀ ≤ t) :
    reading n t₀ + w ≤ reading n t ↔ t₀ + w + n * wraps n t₀ t ≤ t := by
  have := reading_add_wraps (n := n) h
  omega

/-- A deadline is not reached before its interval is over. -/
lemma le_of_deadline (h : t₀ ≤ t) (hd : reading n t₀ + w ≤ reading n t) : t₀ + w ≤ t :=
  le_trans (Nat.le_add_right _ _) ((deadline_le h).mp hd)

/-- A deadline that the counter does not count up to is never reached. -/
lemma deadline_stranded (hn : 0 < n) (h : n ≤ reading n t₀ + w) :
    ¬ reading n t₀ + w ≤ reading n t :=
  not_le.mpr (lt_of_lt_of_le (Nat.mod_lt t hn) h)

/-- Within one count nothing is delayed. -/
lemma timely_of_wraps (h : wraps n t₀ t = 0) : Timely n t₀ w t := by
  rw [Timely, h, Nat.mul_zero, Nat.add_zero]
  exact lt_or_ge _ _

lemma wraps_mono (h : t ≤ u) : wraps n t₀ t ≤ wraps n t₀ u :=
  Nat.sub_le_sub_right (Nat.div_le_div_right h) _

/-- The counter reads less than before only when it has started over. -/
lemma reading_lt_iff (h : t₀ ≤ t) (hw : t < t₀ + n) :
    reading n t < reading n t₀ ↔ wraps n t₀ t ≠ 0 := by
  have := reading_add_wraps (n := n) h
  constructor
  · intro hlt h0
    rw [h0] at this
    omega
  · intro h0
    have := Nat.le_mul_of_pos_right n (Nat.pos_of_ne_zero h0)
    omega

section Ticks

variable {σ ε : Type} {step : σ → Nat × ε → σ} {waits : σ → Prop} {s : σ} {pre : List (Nat × ε)}
  {last : Nat × ε}

/-- Ticks in the order of their times, none before `t₀`. -/
def InOrder (t₀ : Nat) (ticks : List (Nat × ε)) : Prop := (t₀ :: ticks.map (·.1)).Pairwise (· ≤ ·)

instance {ticks : List (Nat × ε)} : Decidable (InOrder t₀ ticks) :=
  inferInstanceAs (Decidable (List.Pairwise ..))

lemma InOrder.le (h : InOrder t₀ pre) (hl : last ∈ pre) : t₀ ≤ last.1 :=
  (List.pairwise_cons.mp h).1 _ (List.mem_map_of_mem hl)

lemma InOrder.le_last (h : InOrder t₀ (pre ++ [last])) {x} (hx : x ∈ pre) : x.1 ≤ last.1 := by
  have := (List.pairwise_cons.mp h).2
  rw [List.map_append, List.pairwise_append] at this
  exact this.2.2 _ (List.mem_map_of_mem hx) _ (by simp)

/-- Ticks that leave a state as it is. -/
lemma foldl_idle {ticks : List (Nat × ε)} (h : ∀ x ∈ ticks, step s x = s) :
    ticks.foldl step s = s := by
  induction ticks with
  | nil => rfl
  | cons x ticks ih =>
    rw [List.foldl_cons, h x List.mem_cons_self]
    exact ih fun y hy => h y (List.mem_cons_of_mem x hy)

/-- Of these ticks the last is the first that can come after the interval, and the work waits until
it if and only if it comes before. -/
def OnTime (step : σ → Nat × ε → σ) (waits : σ → Prop) (t₀ w : Nat) (pre : List (Nat × ε))
    (last : Nat × ε) (s : σ) : Prop :=
  waits ((pre ++ [last]).foldl step s) ↔ last.1 < t₀ + w

/-- Work that waits for a deadline is on time exactly when the counter does not delay it. -/
theorem onTime_iff (hs : waits s)
    (hidle : ∀ x, reading n x.1 < reading n t₀ + w → step s x = s)
    (htaken : ∀ x, reading n t₀ + w ≤ reading n x.1 → ¬ waits (step s x))
    (ho : InOrder t₀ (pre ++ [last])) (hpre : ∀ x ∈ pre, x.1 < t₀ + w) :
    OnTime step waits t₀ w pre last s ↔ Timely n t₀ w last.1 := by
  have hrun : pre.foldl step s = s := by
    refine foldl_idle fun x hx => hidle x (lt_of_not_ge fun hd => ?_)
    have := le_of_deadline (ho.le (List.mem_append_left _ hx)) hd
    exact absurd (hpre x hx) (not_lt.mpr this)
  have hle : t₀ ≤ last.1 := ho.le (List.mem_append_right _ List.mem_cons_self)
  have hw : waits ((pre ++ [last]).foldl step s) ↔
      ¬ t₀ + w + n * wraps n t₀ last.1 ≤ last.1 := by
    rw [List.foldl_append, hrun, List.foldl_cons, List.foldl_nil, ← deadline_le hle]
    constructor
    · exact fun h hd => htaken last hd h
    · intro hd
      rw [hidle last (lt_of_not_ge hd)]
      exact hs
  have := Nat.le_add_right (t₀ + w) (n * wraps n t₀ last.1)
  rw [OnTime, hw, Timely]
  omega

end Ticks

end Lib
