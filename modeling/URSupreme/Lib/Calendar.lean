import URSupreme.Lib.Locate

/-!
# The calendar

Seconds since 1970 and the fields of the date in UTC, both ways: the `gmtime` and `mktime` of the C
library.
-/

namespace Lib
open Finset

/-- `struct tm`. -/
structure Tm where
  sec : ℤ
  min : ℤ
  hour : ℤ
  mday : ℤ
  mon : ℤ
  year : ℤ
  wday : ℤ := 0
  deriving DecidableEq, Repr

def leap (year : ℤ) : Bool := year % 4 = 0 ∧ (year % 100 ≠ 0 ∨ year % 400 = 0)

def yearLen (year : ℕ) : ℕ := if leap year then 366 else 365

/-- The length of a month, which counts from 0. -/
def monthLen (leap : Bool) : ℕ → ℕ
  | 1 => if leap then 29 else 28
  | 3 | 5 | 8 | 10 => 30
  | _ => 31

/-- The days from 1970 to the begin of a year. -/
def daysBefore (year : ℤ) : ℤ :=
  365 * (year - 1970) + (year - 1969) / 4 - (year - 1901) / 100 + (year - 1601) / 400

/-- `gmtime_r`. -/
def gmtime (e : ℕ) : Tm :=
  let days := e / 86400
  let year := locate yearLen (days + 1) 1970 days
  let month := locate (monthLen (leap year.1)) (year.2 + 1) 0 year.2
  { sec := e % 60
    min := e / 60 % 60
    hour := e / 3600 % 24
    mday := month.2 + 1
    mon := month.1
    year := year.1 - 1900
    wday := (days + 4) % 7 }

/-- `mktime` in UTC. -/
def mktime (t : Tm) : ℤ :=
  let year := t.year + 1900 + t.mon / 12
  let month := ∑ i ∈ range (t.mon % 12).toNat, monthLen (leap year) i
  (((daysBefore year + month + t.mday - 1) * 24 + t.hour) * 60 + t.min) * 60 + t.sec

variable {e : ℕ} {year y : ℕ} {b : Bool}

lemma yearLen_pos (year : ℕ) : 0 < yearLen year := by
  unfold yearLen
  split
  all_goals simp

lemma monthLen_pos (b : Bool) (i : ℕ) : 0 < monthLen b i := by
  cases b
  all_goals
    unfold monthLen
    split
    all_goals simp

lemma daysBefore_succ (year : ℕ) : daysBefore (year + 1) = daysBefore year + yearLen year := by
  unfold daysBefore yearLen leap
  split
  next h =>
    rw [decide_eq_true_eq] at h
    push_cast
    omega
  next h =>
    rw [decide_eq_true_eq] at h
    push_cast
    omega

/-- The years behind 1970 add up to the days before one. -/
lemma sum_yearLen (h : 1970 ≤ year) : (∑ i ∈ Ico 1970 year, yearLen i : ℕ) = daysBefore year := by
  induction year, h using Nat.le_induction with
  | base => rfl
  | succ year h ih =>
    rw [sum_Ico_succ_top h]
    push_cast at ih ⊢
    rw [ih, daysBefore_succ]

/-- The months of a year. -/
lemma sum_monthLen (year : ℕ) : ∑ i ∈ Ico 0 12, monthLen (leap year) i = yearLen year := by
  unfold yearLen
  cases leap year
  all_goals rfl

/-- The date of a time. -/
structure Dated (e : ℕ) (t : Tm) : Prop where
  sec : 0 ≤ t.sec ∧ t.sec < 60
  min : 0 ≤ t.min ∧ t.min < 60
  hour : 0 ≤ t.hour ∧ t.hour < 24
  mday : 1 ≤ t.mday ∧ t.mday ≤ 31
  mon : 0 ≤ t.mon ∧ t.mon < 12
  wday : 0 ≤ t.wday ∧ t.wday < 7
  back : ∀ wday, mktime { t with wday } = e

lemma monthLen_le (b : Bool) (i : ℕ) : monthLen b i ≤ 31 := by
  cases b
  all_goals
    unfold monthLen
    split
    all_goals simp

/-- `mktime` gives back what `gmtime_r` was given. -/
lemma gmtime_spec (e : ℕ) : Dated e (gmtime e) := by
  obtain ⟨hy, hysum, hylt⟩ := @locate_spec _ (e / 86400 + 1) 1970 _ yearLen_pos (Nat.lt_succ_self _)
  set year := locate yearLen (e / 86400 + 1) 1970 (e / 86400) with hyear
  have hm : year.2 < ∑ i ∈ Ico 0 12, monthLen (leap year.1) i := by rwa [sum_monthLen]
  obtain ⟨-, hmsum, hmlt⟩ := @locate_spec _ (year.2 + 1) 0 _ (monthLen_pos (leap year.1))
    (Nat.lt_succ_self _)
  have hmon := locate_lt (monthLen_pos (leap year.1)) (Nat.lt_succ_self _) hm
  set month := locate (monthLen (leap year.1)) (year.2 + 1) 0 year.2 with hmonth
  have hday := monthLen_le (leap year.1) month.1
  have ht : gmtime e = ⟨(e : ℤ) % 60, (e : ℤ) / 60 % 60, (e : ℤ) / 3600 % 24, month.2 + 1, month.1,
      year.1 - 1900, ((e / 86400 : ℕ) + 4) % 7⟩ := rfl
  rw [ht]
  have hback (wday : ℤ) : mktime ⟨(e : ℤ) % 60, (e : ℤ) / 60 % 60, (e : ℤ) / 3600 % 24, month.2 + 1,
      month.1, year.1 - 1900, wday⟩ = e := by
    have hyd := sum_yearLen hy
    have hmod : ((month.1 : ℤ) % 12).toNat = month.1 := by omega
    have hdiv : (year.1 : ℤ) - 1900 + 1900 + (month.1 : ℤ) / 12 = year.1 := by omega
    rw [Nat.Ico_zero_eq_range] at hmsum
    unfold mktime
    dsimp only
    rw [hdiv, hmod, ← hyd]
    push_cast
    zify at hmsum hysum
    omega
  refine ⟨?_, ?_, ?_, ?_, ?_, ?_, hback⟩
  all_goals
    dsimp only
    omega

/-- The days of a year come behind those before it. -/
lemma le_year (hy : 1970 ≤ y) (h : daysBefore y * 86400 ≤ e) :
    (y : ℤ) ≤ (gmtime e).year + 1900 := by
  have hle : ∑ i ∈ Ico 1970 y, yearLen i ≤ e / 86400 := by
    have hsum := sum_yearLen hy
    omega
  have hloc := le_locate yearLen_pos (Nat.lt_add_one (e / 86400)) hle
  change (y : ℤ) ≤ ((locate yearLen (e / 86400 + 1) 1970 (e / 86400)).1 : ℤ) - 1900 + 1900
  omega

lemma year_lt (hy : 1970 ≤ y) (h : e < daysBefore y * 86400) : (gmtime e).year + 1900 < y := by
  have hlt : e / 86400 < ∑ i ∈ Ico 1970 y, yearLen i := by
    have hsum := sum_yearLen hy
    omega
  have hloc := locate_lt yearLen_pos (Nat.lt_add_one (e / 86400)) hlt
  change ((locate yearLen (e / 86400 + 1) 1970 (e / 86400)).1 : ℤ) - 1900 + 1900 < y
  omega

end Lib
