import URSupreme.Lib.Calendar

/-!
# The hardware clock

`Sensors/Clock/PCF8563.h`: the time that is written to the seven registers of the chip, in BCD, and
the time that is read back from them. A time is the number that its double stands for. The registers
keep the years of one century, so that the one second of the year 2100 that is taken comes back as
one of the year 2000.
-/

namespace URSupreme.PCF8563
open Lib

/-- `bcd_to_bin`. -/
def bcdToBin (v : UInt8) : UInt8 := ((v >>> 4) &&& 0x0F) * 10 + (v &&& 0x0F)

/-- `bin_to_bcd`. -/
def binToBcd (v : UInt8) : UInt8 := ((v / 10) <<< 4) ||| (v % 10)

/-- The registers from `0x02` on. -/
structure Registers where
  vlSeconds : UInt8
  minutes : UInt8
  hours : UInt8
  days : UInt8
  weekdays : UInt8
  centuryMonths : UInt8
  years : UInt8
  deriving DecidableEq, Repr

/-- `(uint8_t)n`. -/
def toByte (n : ℤ) : UInt8 := UInt8.ofNat (n % 256).toNat

/-- `read_epoch`; `none` is a failed read. -/
def readEpoch : Option Registers → ℤ
  | none => 0
  | some b =>
    if b.vlSeconds &&& 0x80 ≠ 0 then 0
    else
      let century : ℤ := if b.centuryMonths &&& 0x80 ≠ 0 then 1900 else 2000
      mktime
        { sec := (bcdToBin (b.vlSeconds &&& 0x7F)).toNat
          min := (bcdToBin (b.minutes &&& 0x7F)).toNat
          hour := (bcdToBin (b.hours &&& 0x3F)).toNat
          mday := (bcdToBin (b.days &&& 0x3F)).toNat
          mon := (bcdToBin (b.centuryMonths &&& 0x1F)).toNat - 1
          year := century - 1900 + (bcdToBin b.years).toNat }

/-- `write_epoch`: what goes to the registers, if anything does. -/
def writeEpoch (available : Bool) (epoch : ℚ) : Option Registers :=
  if !available then none
  else if epoch < 1577836800 ∨ epoch > 4102444800 then none
  else
    let t := gmtime ⌊epoch⌋.toNat
    let yearFull := t.year + 1900
    let centuryBit : UInt8 := if yearFull < 2000 then 0x80 else 0x00
    some
      { vlSeconds := binToBcd (toByte t.sec) &&& 0x7F
        minutes := binToBcd (toByte t.min) &&& 0x7F
        hours := binToBcd (toByte t.hour) &&& 0x3F
        days := binToBcd (toByte t.mday) &&& 0x3F
        weekdays := toByte t.wday &&& 0x07
        centuryMonths := (binToBcd (toByte (t.mon + 1)) &&& 0x1F) ||| centuryBit
        years := binToBcd (toByte (yearFull % 100)) }

/-- Two decimal digits. -/
def Bcd (v : UInt8) : Prop := v >>> 4 ≤ 9 ∧ v &&& 0x0F ≤ 9

instance : DecidablePred Bcd := fun _ => inferInstanceAs (Decidable (_ ∧ _))

/-- What the chip expects of its registers. -/
structure Registers.Valid (b : Registers) : Prop where
  voltage : b.vlSeconds &&& 0x80 = 0
  seconds : Bcd b.vlSeconds ∧ bcdToBin b.vlSeconds < 60
  minutes : Bcd b.minutes ∧ bcdToBin b.minutes < 60
  hours : Bcd b.hours ∧ bcdToBin b.hours < 24
  days : Bcd b.days ∧ 1 ≤ bcdToBin b.days ∧ bcdToBin b.days ≤ 31
  weekdays : b.weekdays < 7
  months : Bcd (b.centuryMonths &&& 0x1F) ∧ 1 ≤ bcdToBin (b.centuryMonths &&& 0x1F) ∧
    bcdToBin (b.centuryMonths &&& 0x1F) ≤ 12
  years : Bcd b.years

variable {b : Registers} {epoch : ℚ} {n : ℤ}

/-! ### One field -/

/-- A number of two digits comes back from its field, and the masks leave those that belong there. -/
lemma field_all : ∀ n : Fin 100,
    (Bcd (binToBcd (UInt8.ofNat n)) ∧ (bcdToBin (binToBcd (UInt8.ofNat n))).toNat = n) ∧
    (n < 60 → binToBcd (UInt8.ofNat n) &&& 0x7F = binToBcd (UInt8.ofNat n)) ∧
    (n < 32 → binToBcd (UInt8.ofNat n) &&& 0x3F = binToBcd (UInt8.ofNat n)) ∧
    (n < 13 → binToBcd (UInt8.ofNat n) &&& 0x1F = binToBcd (UInt8.ofNat n)) ∧
    binToBcd (UInt8.ofNat n) &&& 0xFF = binToBcd (UInt8.ofNat n) := by decide +kernel

lemma toByte_eq {k : ℕ} (h : (k : ℤ) = n) (hk : k < 256) : toByte n = UInt8.ofNat k := by
  unfold toByte
  congr 1
  omega

/-- A field with its mask, where the numbers below `m` fit into it. -/
structure Fits (mask : UInt8) (m : ℕ) : Prop where
  le : m ≤ 100
  keep : ∀ k < m, binToBcd (UInt8.ofNat k) &&& mask = binToBcd (UInt8.ofNat k)

lemma fits_seconds : Fits 0x7F 60 where
  le := by simp
  keep k hk := (field_all ⟨k, by omega⟩).2.1 hk

lemma fits_days : Fits 0x3F 32 where
  le := by simp
  keep k hk := (field_all ⟨k, by omega⟩).2.2.1 hk

lemma fits_hours : Fits 0x3F 24 where
  le := by simp
  keep k hk := fits_days.keep k (by omega)

lemma fits_months : Fits 0x1F 13 where
  le := by simp
  keep k hk := (field_all ⟨k, by omega⟩).2.2.2.1 hk

lemma fits_years : Fits 0xFF 100 where
  le := le_rfl
  keep k hk := (field_all ⟨k, hk⟩).2.2.2.2

/-- What is written to a field. -/
lemma Fits.write {mask : UInt8} {m : ℕ} (h : Fits mask m) (h0 : 0 ≤ n) (hn : n < m) :
    let v := binToBcd (toByte n) &&& mask
    v &&& mask = v ∧ Bcd v ∧ ((bcdToBin v).toNat : ℤ) = n := by
  obtain ⟨k, rfl⟩ := Int.eq_ofNat_of_zero_le h0
  have hk : k < m := by omega
  have hle := h.le
  obtain ⟨hbcd, hback⟩ := (field_all ⟨k, by omega⟩).1
  rw [toByte_eq rfl (by omega), h.keep k hk]
  refine ⟨h.keep k hk, hbcd, ?_⟩
  simpa using hback

/-! ### All fields -/

/-- The seconds that are accepted. -/
lemma accepted (h : writeEpoch true epoch = some b) :
    ∃ e : ℕ, (e : ℤ) = ⌊epoch⌋ ∧ 1577836800 ≤ e ∧ (e < 4102444800 ↔ epoch < 4102444800) ∧
      (¬ epoch < 4102444800 → epoch = 4102444800) := by
  unfold writeEpoch at h
  rw [if_neg (by simp)] at h
  split at h
  next => cases h
  next hr =>
    obtain ⟨hlo, hhi⟩ := not_or.mp hr
    have hlo : (1577836800 : ℤ) ≤ ⌊epoch⌋ := Int.le_floor.mpr (by exact_mod_cast not_lt.mp hlo)
    refine ⟨⌊epoch⌋.toNat, by omega, by omega, ?_, fun hn => le_antisymm (not_lt.mp hhi)
      (not_lt.mp hn)⟩
    have hiff : ⌊epoch⌋ < 4102444800 ↔ epoch < 4102444800 := by
      rw [Int.floor_lt]
      norm_cast
    rw [← hiff]
    omega

/-- The registers hold the date, up to the century. -/
lemma written {e : ℕ} (he : (e : ℤ) = ⌊epoch⌋) (hlo : 1577836800 ≤ e)
    (h : writeEpoch true epoch = some b) : b.Valid ∧
      readEpoch (some b) = mktime { gmtime e with
        wday := 0, year := 100 + ((gmtime e).year + 1900) % 100 } := by
  have hd := gmtime_spec e
  have hyear := @le_year e 2020 (by simp) (by
    rw [show daysBefore ((2020 : ℕ) : ℤ) = 18262 from rfl]
    omega)
  unfold writeEpoch at h
  rw [if_neg (by simp)] at h
  split at h
  next => cases h
  next =>
    have he : ⌊epoch⌋.toNat = e := by omega
    dsimp only at h
    rw [he, if_neg (by omega), UInt8.or_zero] at h
    obtain rfl := Option.some.inj h
    set t := gmtime e
    obtain ⟨hs, hsb, hsn⟩ := fits_seconds.write hd.sec.1 hd.sec.2
    obtain ⟨hm, hmb, hmn⟩ := fits_seconds.write hd.min.1 hd.min.2
    obtain ⟨hh, hhb, hhn⟩ := fits_hours.write hd.hour.1 hd.hour.2
    obtain ⟨hday, hdayb, hdayn⟩ := fits_days.write (n := t.mday) (by have := hd.mday; omega)
      (by have := hd.mday; omega)
    obtain ⟨hmon, hmonb, hmonn⟩ := fits_months.write (n := t.mon + 1) (by have := hd.mon; omega)
      (by have := hd.mon; omega)
    obtain ⟨hyr, hyrb, hyrn⟩ := fits_years.write (n := (t.year + 1900) % 100) (by omega) (by omega)
    have hv : binToBcd (toByte t.sec) &&& 0x7F &&& 0x80 = 0 := by
      rw [UInt8.and_assoc]
      exact UInt8.and_zero
    have hmv : binToBcd (toByte (t.mon + 1)) &&& 0x1F &&& 0x80 = 0 := by
      rw [UInt8.and_assoc]
      exact UInt8.and_zero
    have hff : binToBcd (toByte ((t.year + 1900) % 100)) &&& 0xFF =
        binToBcd (toByte ((t.year + 1900) % 100)) := UInt8.and_neg_one
    rw [hff] at hyrb hyrn
    refine ⟨⟨hv, ⟨hsb, ?_⟩, ⟨hmb, ?_⟩, ⟨hhb, ?_⟩, ⟨hdayb, ?_, ?_⟩, ?_, ⟨?_, ?_, ?_⟩, hyrb⟩, ?_⟩
    · have hlt := hd.sec.2
      rw [← hsn] at hlt
      exact UInt8.lt_iff_toNat_lt.mpr (by exact_mod_cast hlt)
    · have hlt := hd.min.2
      rw [← hmn] at hlt
      exact UInt8.lt_iff_toNat_lt.mpr (by exact_mod_cast hlt)
    · have hlt := hd.hour.2
      rw [← hhn] at hlt
      exact UInt8.lt_iff_toNat_lt.mpr (by exact_mod_cast hlt)
    · have hle := hd.mday.1
      rw [← hdayn] at hle
      exact UInt8.le_iff_toNat_le.mpr (by exact_mod_cast hle)
    · have hle := hd.mday.2
      rw [← hdayn] at hle
      exact UInt8.le_iff_toNat_le.mpr (by exact_mod_cast hle)
    · obtain ⟨hw0, hw⟩ := hd.wday
      obtain ⟨k, hk⟩ := Int.eq_ofNat_of_zero_le hw0
      have hall : ∀ k < 7, UInt8.ofNat k &&& 0x07 < 7 := by decide
      rw [toByte_eq hk.symm (by omega)]
      exact hall k (by omega)
    all_goals dsimp only
    · rw [hmon]
      exact hmonb
    · rw [hmon]
      have hle := hd.mon.1
      refine UInt8.le_iff_toNat_le.mpr ?_
      change 1 ≤ _
      omega
    · rw [hmon]
      have hle := hd.mon.2
      refine UInt8.le_iff_toNat_le.mpr ?_
      change _ ≤ 12
      omega
    · unfold readEpoch
      dsimp only
      rw [if_neg (not_not.mpr hv), if_neg (not_not.mpr hmv), hs, hm, hh, hday, hmon, hsn, hmn, hhn,
        hdayn, hmonn, hyrn, Int.add_sub_cancel]
      rfl

/-- What is meant to come back from the chip. -/
def RoundTrip (epoch : ℚ) (b : Registers) : Prop := b.Valid ∧ readEpoch (some b) = ⌊epoch⌋

/-- What the chip holds at the last time that is accepted. -/
lemma written_last : writeEpoch true 4102444800 = some ⟨0, 0, 0, 1, 5, 1, 0⟩ ∧
    readEpoch (some ⟨0, 0, 0, 1, 5, 1, 0⟩) = 946684800 := by decide +kernel

/-- A time that is accepted comes back when it is before the year 2100. -/
theorem roundTrip_iff (h : writeEpoch true epoch = some b) :
    RoundTrip epoch b ↔ epoch < 4102444800 := by
  obtain ⟨e, he, hlo, hiff, htop⟩ := accepted h
  obtain ⟨hvalid, hread⟩ := written he hlo h
  have hd := gmtime_spec e
  constructor
  · rintro ⟨-, hback⟩
    by_contra hn
    obtain rfl := htop hn
    obtain ⟨hb, hlast⟩ := written_last
    obtain rfl := Option.some.inj (h.symm.trans hb)
    rw [hlast] at hback
    norm_num at hback
  · intro hlt
    refine ⟨hvalid, ?_⟩
    have hy1 := @le_year e 2020 (by simp) (by
      rw [show daysBefore ((2020 : ℕ) : ℤ) = 18262 from rfl]
      omega)
    have hy2 := @year_lt e 2100 (by simp) (by
      have := hiff.mpr hlt
      rw [show daysBefore ((2100 : ℕ) : ℤ) = 47482 from rfl]
      omega)
    have hyear : 100 + ((gmtime e).year + 1900) % 100 = (gmtime e).year := by omega
    rw [hread, hyear, ← he]
    exact hd.back 0

/-- 2023-11-14, with a fraction of a second. -/
theorem roundTrip_iff_within : ∃ b, writeEpoch true (3400000001 / 2) = some b ∧
    RoundTrip (3400000001 / 2) b := by
  have hb : writeEpoch true (3400000001 / 2) =
      some ⟨0x20, 0x13, 0x22, 0x14, 2, 0x11, 0x23⟩ := by decide +kernel
  exact ⟨_, hb, (roundTrip_iff hb).mpr (by norm_num)⟩

/-- The last time that is accepted comes back as the begin of the year 2000. -/
theorem not_roundTrip_last : ∃ b, writeEpoch true 4102444800 = some b ∧
    readEpoch (some b) = 946684800 ∧ ¬ RoundTrip 4102444800 b := by
  obtain ⟨hb, hread⟩ := written_last
  refine ⟨_, hb, hread, fun h => ?_⟩
  have hback := h.2
  rw [hread] at hback
  norm_num at hback

end URSupreme.PCF8563
