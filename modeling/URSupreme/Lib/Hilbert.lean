import Mathlib.Tactic
import Mathlib.Data.Nat.Dist

/-!
# The Hilbert curve

The curve of level `k` visits the `4 ^ k` cells of a square with side `2 ^ k`, quadrant by quadrant:
each quadrant holds the curve of the level below, the first one and the last one turned so that the
ends meet.
-/

namespace Lib.Hilbert

/-- The cell of a quadrant of side `s` that holds the cell `p` of the curve below. -/
def place (s : Nat) (q : Nat) (p : Nat × Nat) : Nat × Nat :=
  match q with
  | 0 => (p.2, p.1)
  | 1 => (p.1, s + p.2)
  | 2 => (s + p.1, s + p.2)
  | _ => (s + (s - 1 - p.2), s - 1 - p.1)

/-- The cells in the order of the curve. -/
def cell : Nat → Nat → Nat × Nat
  | 0, _ => (0, 0)
  | k + 1, d => place (2 ^ k) (d / 4 ^ k) (cell k (d % 4 ^ k))

/-- The place of a cell on the curve, from the low `k` bits of its coordinates. -/
def index : Nat → Nat → Nat → Nat
  | 0, _, _ => 0
  | k + 1, x, y =>
    match x.testBit k, y.testBit k with
    | false, false => index k y x
    | false, true => 4 ^ k + index k x y
    | true, true => 2 * 4 ^ k + index k x y
    | true, false => 3 * 4 ^ k + index k (2 ^ k - 1 - y % 2 ^ k) (2 ^ k - 1 - x % 2 ^ k)

variable {k d x y x' y' : Nat}

lemma cell_succ (k d : Nat) : cell (k + 1) d = place (2 ^ k) (d / 4 ^ k) (cell k (d % 4 ^ k)) := rfl

/-- The quadrant of a cell is told by the bit `k` of its coordinates. -/
lemma index_of_bits {a b : Bool} : x.testBit k = a → y.testBit k = b → index (k + 1) x y =
      match a, b with
      | false, false => index k y x
      | false, true => 4 ^ k + index k x y
      | true, true => 2 * 4 ^ k + index k x y
      | true, false => 3 * 4 ^ k + index k (2 ^ k - 1 - y % 2 ^ k) (2 ^ k - 1 - x % 2 ^ k) := by
  rintro rfl rfl
  rfl

/-- Only the low bits count. -/
lemma index_congr (hx : x % 2 ^ k = x' % 2 ^ k) (hy : y % 2 ^ k = y' % 2 ^ k) :
    index k x y = index k x' y' := by
  induction k generalizing x y x' y' with
  | zero => rfl
  | succ k ih =>
    have low : ∀ {a b : Nat}, a % 2 ^ (k + 1) = b % 2 ^ (k + 1) →
        a.testBit k = b.testBit k ∧ a % 2 ^ k = b % 2 ^ k := by
      intro a b h
      have hdvd : 2 ^ k ∣ 2 ^ (k + 1) := Nat.pow_dvd_pow 2 (Nat.le_succ k)
      refine ⟨?_, by rw [← Nat.mod_mod_of_dvd a hdvd, h, Nat.mod_mod_of_dvd b hdvd]⟩
      have ha := Nat.testBit_mod_two_pow a (k + 1) k
      have hb := Nat.testBit_mod_two_pow b (k + 1) k
      rw [h] at ha
      simpa using ha.symm.trans hb
    obtain ⟨hx1, hx2⟩ := low hx
    obtain ⟨hy1, hy2⟩ := low hy
    rw [index_of_bits hx1 hy1, index_of_bits rfl rfl, hx2, hy2, ih hx2 hy2, ih hy2 hx2]

/-- The bit of a coordinate says in which half it lies. -/
lemma testBit_low (h : x < 2 ^ k) : x.testBit k = false := Nat.testBit_lt_two_pow h

lemma testBit_high (h : x < 2 ^ k) : (2 ^ k + x).testBit k = true := by
  rw [Nat.testBit_two_pow_add_eq, testBit_low h]
  rfl

lemma index_low_low (hx : x < 2 ^ k) (hy : y < 2 ^ k) : index (k + 1) x y = index k y x :=
  index_of_bits (testBit_low hx) (testBit_low hy)

lemma index_low_high (hx : x < 2 ^ k) (hy : y < 2 ^ k) :
    index (k + 1) x (2 ^ k + y) = 4 ^ k + index k x y := by
  rw [index_of_bits (testBit_low hx) (testBit_high hy)]
  exact congrArg _ (index_congr rfl (Nat.add_mod_left _ _))

lemma index_high_high (hx : x < 2 ^ k) (hy : y < 2 ^ k) :
    index (k + 1) (2 ^ k + x) (2 ^ k + y) = 2 * 4 ^ k + index k x y := by
  rw [index_of_bits (testBit_high hx) (testBit_high hy)]
  exact congrArg _ (index_congr (Nat.add_mod_left _ _) (Nat.add_mod_left _ _))

lemma index_high_low (hx : x < 2 ^ k) (hy : y < 2 ^ k) :
    index (k + 1) (2 ^ k + x) y = 3 * 4 ^ k + index k (2 ^ k - 1 - y) (2 ^ k - 1 - x) := by
  rw [index_of_bits (testBit_high hx) (testBit_low hy), Nat.add_mod_left, Nat.mod_eq_of_lt hx,
    Nat.mod_eq_of_lt hy]

/-- A coordinate of the next level lies in the lower half or in the upper one. -/
lemma half (h : x < 2 ^ (k + 1)) : x < 2 ^ k ∨ ∃ u < 2 ^ k, x = 2 ^ k + u := by
  rw [pow_succ] at h
  rcases Nat.lt_or_ge x (2 ^ k) with hlt | hge
  · exact .inl hlt
  · exact .inr ⟨x - 2 ^ k, by omega, by omega⟩

/-- The curve is within its square. -/
lemma cell_lt (k d : Nat) : (cell k d).1 < 2 ^ k ∧ (cell k d).2 < 2 ^ k := by
  induction k generalizing d with
  | zero => exact ⟨Nat.one_pos, Nat.one_pos⟩
  | succ k ih =>
    obtain ⟨h1, h2⟩ := ih (d % 4 ^ k)
    rw [cell_succ]
    generalize cell k (d % 4 ^ k) = p at h1 h2
    rw [pow_succ]
    unfold place
    split
    next => exact ⟨by omega, by omega⟩
    next => exact ⟨by omega, by omega⟩
    next => exact ⟨by omega, by omega⟩
    next => exact ⟨by omega, by omega⟩

/-- The place of a cell is below the number of cells, and the cell at its place is the cell. -/
lemma cell_index (hx : x < 2 ^ k) (hy : y < 2 ^ k) :
    index k x y < 4 ^ k ∧ cell k (index k x y) = (x, y) := by
  induction k generalizing x y with
  | zero =>
    refine ⟨Nat.one_pos, ?_⟩
    rw [pow_zero, Nat.lt_one_iff] at hx hy
    rw [hx, hy]
    rfl
  | succ k ih =>
    have step : ∀ q u v, index k u v < 4 ^ k ∧ cell k (index k u v) = (u, v) →
        cell (k + 1) (q * 4 ^ k + index k u v) = place (2 ^ k) q (u, v) := by
      rintro q u v ⟨h1, h2⟩
      rw [cell_succ, Nat.mul_add_mod_of_lt h1, h2, Nat.add_comm,
        Nat.add_mul_div_right _ _ (by positivity), Nat.div_eq_of_lt h1, Nat.zero_add]
    rw [pow_succ]
    rcases half hx with hx | ⟨u, hu, rfl⟩
    · rcases half hy with hy | ⟨v, hv, rfl⟩
      · have h := ih hy hx
        have h' := step 0 y x h
        rw [Nat.zero_mul, Nat.zero_add] at h'
        rw [index_low_low hx hy]
        exact ⟨by omega, h'⟩
      · have h := ih hx hv
        have h' := step 1 x v h
        rw [Nat.one_mul] at h'
        rw [index_low_high hx hv]
        exact ⟨by omega, h'⟩
    · rcases half hy with hy | ⟨v, hv, rfl⟩
      · have h : index k (2 ^ k - 1 - y) (2 ^ k - 1 - u) < 4 ^ k ∧ _ := ih (by omega) (by omega)
        have h' := step 3 _ _ h
        rw [index_high_low hu hy]
        refine ⟨by omega, h'.trans ?_⟩
        show (2 ^ k + (2 ^ k - 1 - (2 ^ k - 1 - u)), 2 ^ k - 1 - (2 ^ k - 1 - y)) = _
        rw [Nat.sub_sub_self (by omega), Nat.sub_sub_self (by omega)]
      · have h := ih hu hv
        rw [index_high_high hu hv]
        exact ⟨by omega, step 2 u v h⟩

/-- The place is below the number of cells, whatever the high bits are. -/
lemma index_lt (k x y : Nat) : index k x y < 4 ^ k := by
  rw [index_congr (Nat.mod_mod x _).symm (Nat.mod_mod y _).symm]
  exact (cell_index (Nat.mod_lt x (by positivity)) (Nat.mod_lt y (by positivity))).1

/-- The place of the cell at a place is that place. -/
lemma index_cell (h : d < 4 ^ k) : index k (cell k d).1 (cell k d).2 = d := by
  induction k generalizing d with
  | zero =>
    rw [pow_zero, Nat.lt_one_iff] at h
    rw [h]
    rfl
  | succ k ih =>
    obtain ⟨h1, h2⟩ := cell_lt k (d % 4 ^ k)
    have hi := ih (Nat.mod_lt d (by positivity))
    have hd := Nat.div_add_mod d (4 ^ k)
    have hq : d / 4 ^ k < 4 := Nat.div_lt_of_lt_mul (by rwa [pow_succ] at h)
    rw [cell_succ]
    generalize cell k (d % 4 ^ k) = p at h1 h2 hi
    generalize d / 4 ^ k = q at hq hd
    obtain ⟨u, v⟩ := p
    dsimp only at h1 h2 hi
    match q, hq with
    | 0, _ =>
      refine (index_low_low h2 h1).trans ?_
      omega
    | 1, _ =>
      refine (index_low_high h1 h2).trans ?_
      omega
    | 2, _ =>
      refine (index_high_high h1 h2).trans ?_
      omega
    | 3, _ =>
      show index (k + 1) (2 ^ k + (2 ^ k - 1 - v)) (2 ^ k - 1 - u) = d
      rw [index_high_low (by omega) (by omega), Nat.sub_sub_self (by omega),
        Nat.sub_sub_self (by omega)]
      omega

/-- The curve starts at the origin. -/
lemma cell_zero (k : Nat) : cell k 0 = (0, 0) := by
  induction k with
  | zero => rfl
  | succ k ih => rw [cell_succ, Nat.zero_div, Nat.zero_mod, ih]; rfl

/-- The curve ends at the other end of the first coordinate's axis. -/
lemma cell_last (k : Nat) : cell k (4 ^ k - 1) = (2 ^ k - 1, 0) := by
  induction k with
  | zero => rfl
  | succ k ih =>
    have hpos : 0 < 4 ^ k := by positivity
    have e : 4 ^ (k + 1) - 1 = 3 * 4 ^ k + (4 ^ k - 1) := by
      rw [pow_succ]
      omega
    rw [cell_succ, e, Nat.mul_add_mod_of_lt (by omega), ih, Nat.add_comm,
      Nat.add_mul_div_right _ _ hpos, Nat.div_eq_of_lt (by omega), Nat.zero_add, pow_succ]
    show (2 ^ k + (2 ^ k - 1 - 0), 2 ^ k - 1 - (2 ^ k - 1)) = _
    have hpos2 : 0 < 2 ^ k := by positivity
    rw [Nat.sub_self]
    congr 1
    omega

/-- Two cells share an edge. -/
def Adjacent (p q : Nat × Nat) : Prop := Nat.dist p.1 q.1 + Nat.dist p.2 q.2 = 1

/-- A mirror keeps distances. -/
lemma dist_mirror {c a b : Nat} (ha : a ≤ c) (hb : b ≤ c) :
    Nat.dist (c - a) (c - b) = Nat.dist a b := by
  rw [Nat.dist_comm a]
  exact Nat.dist_eq_intro (by omega)

/-- Placing a quadrant keeps neighbours together. -/
lemma Adjacent.place {s q : Nat} {p p' : Nat × Nat} (h : Adjacent p p')
    (hp : p.1 < s ∧ p.2 < s) (hp' : p'.1 < s ∧ p'.2 < s) :
    Adjacent (place s q p) (place s q p') := by
  unfold Adjacent at h ⊢
  unfold Hilbert.place
  split
  next => rw [Nat.add_comm, h]
  next => rw [Nat.dist_add_add_left, h]
  next => rw [Nat.dist_add_add_left, Nat.dist_add_add_left, h]
  next =>
    rw [Nat.dist_add_add_left, dist_mirror (Nat.le_sub_one_of_lt hp.1) (Nat.le_sub_one_of_lt hp'.1),
      dist_mirror (Nat.le_sub_one_of_lt hp.2) (Nat.le_sub_one_of_lt hp'.2), Nat.add_comm, h]

/-- Neighbours on the curve share an edge. -/
lemma adjacent_cell (h : d + 1 < 4 ^ k) : Adjacent (cell k d) (cell k (d + 1)) := by
  induction k generalizing d with
  | zero => exact absurd h (by rw [pow_zero]; omega)
  | succ k ih =>
    have hpos : 0 < 4 ^ k := by positivity
    have hpos2 : 0 < 2 ^ k := by positivity
    have hd := Nat.div_add_mod d (4 ^ k)
    have hr := Nat.mod_lt d hpos
    rw [cell_succ, cell_succ]
    generalize d % 4 ^ k = r at hd hr
    generalize d / 4 ^ k = q at hd
    subst hd
    rcases Nat.lt_or_ge (r + 1) (4 ^ k) with hlt | hge
    · rw [Nat.add_assoc, Nat.mul_add_mod, Nat.mod_eq_of_lt hlt, Nat.mul_add_div hpos,
        Nat.div_eq_of_lt hlt]
      exact (ih hlt).place (cell_lt k r) (cell_lt k (r + 1))
    · -- the curve goes on in the next quadrant
      obtain rfl : r = 4 ^ k - 1 := by omega
      have e : 4 ^ k * q + (4 ^ k - 1) + 1 = 4 ^ k * (q + 1) := by
        rw [Nat.mul_succ]
        omega
      rw [e, Nat.mul_mod_right, Nat.mul_div_cancel_left _ hpos, cell_zero, cell_last]
      have hq : q + 1 < 4 := by
        rw [e, pow_succ] at h
        exact Nat.lt_of_mul_lt_mul_left h
      match q, hq with
      | 0, _ =>
        show Nat.dist 0 0 + Nat.dist (2 ^ k - 1) (2 ^ k + 0) = 1
        unfold Nat.dist
        omega
      | 1, _ =>
        show Nat.dist (2 ^ k - 1) (2 ^ k + 0) + Nat.dist (2 ^ k + 0) (2 ^ k + 0) = 1
        unfold Nat.dist
        omega
      | 2, _ =>
        show Nat.dist (2 ^ k + (2 ^ k - 1)) (2 ^ k + (2 ^ k - 1 - 0)) +
          Nat.dist (2 ^ k + 0) (2 ^ k - 1 - 0) = 1
        unfold Nat.dist
        omega

end Lib.Hilbert
