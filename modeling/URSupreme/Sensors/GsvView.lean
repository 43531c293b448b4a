import URSupreme.Lib.Run
import URSupreme.Sensors.Nmea

/-!
# The satellites in view

GSV sentences over a stream: beside the tables of the parser stands what each talker said last,
since the last silence of more than five seconds. The tables are emptied by a silence only: a talker
that falls silent while another goes on stays in them, and so does the strongest signal.
-/

namespace URSupreme.Nmea
open Lib

/-- A satellite: its number, elevation and azimuth, and its signal, which may be empty. -/
structure Sat where
  prn : Bytes
  elev : Bytes
  azim : Bytes
  snr : List (Fin 10)

/-- A GSV sentence: its number of a set of `total`, the satellites in view, and up to four of
them. -/
structure Report where
  talker : UInt8 × UInt8
  total : List (Fin 10)
  num : List (Fin 10)
  inView : List (Fin 10)
  sats : List Sat
  rest : List Bytes := []

/-- Its fields. -/
def Report.fields (r : Report) : List Bytes :=
  text r.total :: text r.num :: text r.inView ::
    (r.sats.flatMap fun s => [s.prn, s.elev, s.azim, text s.snr]) ++ r.rest

structure Report.Valid (r : Report) : Prop where
  talker : r.talker.1 ≠ 0
  first : 1 ≤ value r.num
  num_le : value r.num ≤ value r.total
  inView : value r.inView < 256
  sats : r.sats.length ≤ 4
  snr : ∀ s ∈ r.sats, value s.snr ≤ 99
  rest : r.rest.length ≤ 1

instance {r : Report} : Decidable r.Valid :=
  decidable_of_iff (r.talker.1 ≠ 0 ∧ 1 ≤ value r.num ∧ value r.num ≤ value r.total ∧
      value r.inView < 256 ∧ r.sats.length ≤ 4 ∧ (∀ s ∈ r.sats, value s.snr ≤ 99) ∧
      r.rest.length ≤ 1)
    ⟨fun ⟨h1, h2, h3, h4, h5, h6, h7⟩ => ⟨h1, h2, h3, h4, h5, h6, h7⟩,
      fun h => ⟨h.talker, h.first, h.num_le, h.inView, h.sats, h.snr, h.rest⟩⟩

/-- The signals that are heard. -/
def Report.snrs (r : Report) : List ℕ := (r.sats.map fun s => value s.snr).filter (0 < ·)

/-- What a talker said last: when, the number of the sentence, the satellites in view, and the
signals of its latest set. -/
structure Seen where
  heard : ℕ
  num : ℕ
  inView : ℕ
  signals : List ℕ

/-- The talkers, in the order in which they were heard first. -/
abbrev Sky := List ((UInt8 × UInt8) × Seen)

/-- A sentence whose number is not above the last one begins a set. -/
def Seen.next (t : ℕ) (r : Report) (s : Seen) : Seen where
  heard := t
  num := value r.num
  inView := value r.inView
  signals := if value r.num ≤ s.num then r.snrs else s.signals ++ r.snrs

def Sky.report (t : ℕ) (r : Report) : Sky → Sky
  | [] => [(r.talker, ⟨t, value r.num, value r.inView, r.snrs⟩)]
  | x :: sky =>
    if x.1 = r.talker then (x.1, x.2.next t r) :: sky else x :: Sky.report t r sky

/-- The parser, the time of the last sentence, and what was said since the last silence. -/
structure View where
  fix : Fix := {}
  gsv : GsvState := {}
  now : ℕ := 0
  sky : Sky := []
  strongest : ℕ := 0

/-- Longer than five seconds. -/
def View.Quiet (v : View) (t : ℕ) : Prop := 5000 < t - v.now

instance {v : View} {t} : Decidable (v.Quiet t) := inferInstanceAs (Decidable (_ < _))

/-- What was said since the last silence, at `t`. -/
def View.before (v : View) (t : ℕ) : Sky := if v.Quiet t then [] else v.sky

/-- A sentence at a time. -/
def View.step (v : View) (e : ℕ × Report) : View :=
  let (t, r) := e
  let (fix, gsv) := parseGsv r.talker r.fields (UInt32.ofNat t) v.fix v.gsv
  { fix, gsv, now := t
    sky := Sky.report t r (v.before t)
    strongest := r.snrs.foldl max (if v.Quiet t then 0 else v.strongest) }

/-- A valid sentence of one of the constellations; a set begins with the sentence of number 1, and a
silence is not one that the clock of 32 bits takes for a short one. -/
structure Stream (talkers : List (UInt8 × UInt8)) (v : View) (e : ℕ × Report) : Prop where
  later : v.now ≤ e.1
  valid : e.2.Valid
  mem : e.2.talker ∈ talkers
  head : ∀ x ∈ v.before e.1, x.1 = e.2.talker → value e.2.num ≤ x.2.num → value e.2.num = 1
  silence : v.Quiet e.1 → 5000 < (e.1 - v.now) % 2 ^ 32

instance {talkers : List (UInt8 × UInt8)} {v : View} {e : ℕ × Report} :
    Decidable (Stream talkers v e) :=
  decidable_of_iff (v.now ≤ e.1 ∧ e.2.Valid ∧ e.2.talker ∈ talkers ∧
      (∀ x ∈ v.before e.1, x.1 = e.2.talker → value e.2.num ≤ x.2.num → value e.2.num = 1) ∧
      (v.Quiet e.1 → 5000 < (e.1 - v.now) % 2 ^ 32))
    ⟨fun ⟨h1, h2, h3, h4, h5⟩ => ⟨h1, h2, h3, h4, h5⟩,
      fun h => ⟨h.later, h.valid, h.mem, h.head, h.silence⟩⟩

/-- The talkers that were heard within five seconds. -/
def View.recent (v : View) : Sky := v.sky.filter fun x => v.now ≤ x.2.heard + 5000

/-- The talkers that have fallen silent. -/
def View.gone (v : View) : Sky := v.sky.filter fun x => ¬ v.now ≤ x.2.heard + 5000

def Sky.visible (sky : Sky) : ℕ := (sky.map fun x => x.2.inView).sum

def Sky.tracked (sky : Sky) : ℕ := (sky.map fun x => x.2.signals.length).sum

def Sky.best (sky : Sky) : ℕ := (sky.flatMap fun x => x.2.signals).foldl max 0

/-- The fix shows the talkers that were heard within five seconds. -/
structure View.Shows (v : View) : Prop where
  visible : v.fix.sats_visible.toNat = min v.recent.visible 255
  tracked : v.fix.sats_tracked.toNat = min v.recent.tracked 255
  best : v.fix.best_snr_db.toNat = v.recent.best

/-- The talkers that have fallen silent had no satellites, or the numbers are at their cap without
them, and the strongest signal since the last silence is one of the latest sets. -/
structure View.Faded (v : View) : Prop where
  visible : v.gone.visible = 0 ∨ 255 ≤ v.recent.visible
  tracked : v.gone.tracked = 0 ∨ 255 ≤ v.recent.tracked
  best : v.strongest = v.recent.best

variable {r : Report} {v : View} {sky : Sky} {t n k : ℕ} {x : (UInt8 × UInt8) × Seen}
  {talkers : List (UInt8 × UInt8)} {e : ℕ × Report} {talker : UInt8 × UInt8}
  {g : Slot → Slot} {s : Slot} {slots : List Slot} {snrs : List ℕ} {b : UInt8}

/-! ### The fields of a sentence -/

lemma atoi_small {ds : List (Fin 10)} (h : value ds < 2 ^ 31) : atoi (text ds) = value ds := by
  rw [atoi_text, min_eq_left (by omega)]

lemma signals_rest {rest : List Bytes} (h : rest.length ≤ 1) : signals rest = [] := by
  match rest, h with
  | [], _ => rfl
  | [_], _ => rfl

lemma signals_sats {sats : List Sat} {rest : List Bytes} (hs : ∀ s ∈ sats, value s.snr ≤ 99)
    (hr : rest.length ≤ 1) :
    signals ((sats.flatMap fun s => [s.prn, s.elev, s.azim, text s.snr]) ++ rest) =
      ((sats.map fun s => value s.snr).filter (0 < ·)).map (Nat.cast : ℕ → ℤ) := by
  induction sats with
  | nil => exact signals_rest hr
  | cons s sats ih =>
    rw [List.forall_mem_cons] at hs
    obtain ⟨hle, hs⟩ := hs
    have hatoi : atoi (text s.snr) = value s.snr := atoi_small (by omega)
    simp only [List.flatMap_cons, List.cons_append, List.nil_append, signals, hatoi, ih hs,
      List.map_cons]
    by_cases hpos : 0 < value s.snr
    · have hne : text s.snr ≠ [] := by
        intro he
        rw [text, List.map_eq_nil_iff] at he
        rw [he] at hpos
        exact absurd hpos (by decide)
      rw [if_pos ⟨hne, by omega, by omega⟩, List.filter_cons_of_pos (by simpa using hpos),
        List.map_cons]
    · rw [if_neg (fun h => hpos (by omega)), List.filter_cons_of_neg (by simpa using hpos)]

lemma Report.Valid.signals (h : r.Valid) :
    Nmea.signals (r.fields.drop 3) = r.snrs.map (Nat.cast : ℕ → ℤ) :=
  signals_sats h.snr h.rest

lemma Report.Valid.snr_le (h : r.Valid) : ∀ n ∈ r.snrs, n ≤ 99 := by
  intro n hn
  obtain ⟨hn, -⟩ := List.mem_filter.mp hn
  obtain ⟨s, hs, rfl⟩ := List.mem_map.mp hn
  exact h.snr s hs

/-! ### The slots -/

lemma place_cons : place talker g (s :: slots) =
    if s.talker.1 = 0 ∨ s.talker = talker then g s :: slots else s :: place talker g slots := by
  unfold place findSlot
  rw [List.findIdx?_cons]
  by_cases h : s.talker.1 = 0 ∨ s.talker = talker
  · rw [if_pos h]
    simp [h]
  · rw [if_neg h]
    have hf : (decide (s.talker.1 = 0) || decide (s.talker = talker)) = false := by simpa using h
    rw [hf]
    cases slots.findIdx? fun s => decide (s.talker.1 = 0) || decide (s.talker = talker) with
    | none => rfl
    | some i => rfl

/-- Each signal is counted, up to 255. -/
lemma hear_all {α : Type} {l : List α} : l.foldl (fun s _ => Slot.hear s) s =
    { s with tracked := UInt8.ofNat (min (s.tracked.toNat + l.length) 255) } := by
  induction l generalizing s with
  | nil =>
    have hle := s.tracked.toNat_lt
    rw [List.foldl_nil, List.length_nil, Nat.add_zero, min_eq_left (by omega), UInt8.ofNat_toNat]
  | cons a l ih =>
    rw [List.foldl_cons, ih, List.length_cons]
    unfold Slot.hear
    have hlt : s.tracked < 255 ↔ s.tracked.toNat < 255 := UInt8.lt_iff_toNat_lt
    split
    next h =>
      have hadd : (s.tracked + 1).toNat = s.tracked.toNat + 1 := by
        rw [UInt8.toNat_add]
        exact Nat.mod_eq_of_lt (by have := hlt.mp h; simp; omega)
      dsimp only
      rw [hadd, Nat.add_assoc, Nat.add_comm 1]
    next h =>
      have hmax := s.tracked.toNat_lt
      rw [hlt] at h
      rw [min_eq_right (by omega), min_eq_right (by omega)]

/-- The slot of a talker. -/
def slotOf (x : (UInt8 × UInt8) × Seen) : Slot where
  talker := x.1
  in_view := UInt8.ofNat x.2.inView
  tracked := UInt8.ofNat (min x.2.signals.length 255)

/-- What a sentence does to the slot of its talker. -/
def Report.change (r : Report) (s : Slot) : Slot :=
  let s := { s with talker := r.talker, in_view := UInt8.ofNat (value r.inView) }
  r.snrs.foldl (fun s _ => s.hear) (if value r.num = 1 then { s with tracked := 0 } else s)

lemma count_toNat : (UInt8.ofNat (min n 255)).toNat = min n 255 := by
  rw [UInt8.toNat_ofNat']
  exact Nat.mod_eq_of_lt (by omega)

/-- An empty slot becomes that of the talker. -/
lemma change_empty : r.change {} = slotOf (r.talker, ⟨t, value r.num, value r.inView, r.snrs⟩) := by
  unfold Report.change
  simp [hear_all, slotOf]

/-- The talker's own goes on. -/
lemma change_slotOf (hx : x.1 = r.talker) (hpos : 1 ≤ x.2.num)
    (hhead : value r.num ≤ x.2.num → value r.num = 1) :
    r.change (slotOf x) = slotOf (x.1, x.2.next t r) := by
  unfold Report.change
  rw [hear_all]
  by_cases h1 : value r.num = 1
  · have hle : value r.num ≤ x.2.num := by omega
    simp [h1, slotOf, Seen.next, hx, h1 ▸ hle]
  · have hlt : ¬ value r.num ≤ x.2.num := fun h => h1 (hhead h)
    rw [if_neg h1]
    simp only [slotOf, Seen.next, if_neg hlt, count_toNat, hx, List.length_append]
    congr 2
    omega

/-- The change that the parser makes. -/
lemma Report.Valid.change (h : r.Valid) : (fun s : Slot =>
    let s := { s with talker := r.talker, in_view := toByte (atoi (r.fields.getD 2 [])) }
    let s := if atoi (r.fields.getD 1 []) = 1 then { s with tracked := 0 } else s
    (Nmea.signals (r.fields.drop 3)).foldl (fun s _ => s.hear) s) = r.change := by
  have hin : toByte (atoi (r.fields.getD 2 [])) = UInt8.ofNat (value r.inView) := by
    have hlt := h.inView
    show toByte (atoi (text r.inView)) = _
    rw [atoi_small (by omega), toByte]
    congr 1
    omega
  have hnum : atoi (r.fields.getD 1 []) = 1 ↔ value r.num = 1 := by
    show atoi (text r.num) = 1 ↔ _
    rw [atoi_text]
    omega
  funext s
  simp only [hin, hnum, h.signals, List.foldl_map]
  rfl

/-- The slots are those of the talkers, and empty ones behind them. -/
def table (sky : Sky) (k : ℕ) : List Slot := sky.map slotOf ++ List.replicate k ({} : Slot)

lemma table_cons : table (x :: sky) k = slotOf x :: table sky k := rfl

/-- The talker's slot is changed, or the first empty one becomes its own. -/
lemma place_table (hkey : ∀ x ∈ sky, x.1.1 ≠ 0) (hpos : ∀ x ∈ sky, 1 ≤ x.2.num)
    (hhead : ∀ x ∈ sky, x.1 = r.talker → value r.num ≤ x.2.num → value r.num = 1)
    (hroom : r.talker ∉ sky.map (·.1) → 0 < k) :
    place r.talker r.change (table sky k) =
      table (Sky.report t r sky) (sky.length + k - (Sky.report t r sky).length) := by
  induction sky with
  | nil =>
    obtain ⟨k, rfl⟩ := Nat.exists_eq_succ_of_ne_zero (hroom (by simp)).ne'
    have htable : table [] (k + 1) = ({} : Slot) :: table [] k := rfl
    rw [htable, place_cons, if_pos (.inl rfl), change_empty (t := t), Sky.report]
    simp [table]
  | cons x sky ih =>
    rw [List.forall_mem_cons] at hkey hpos hhead
    rw [table_cons, place_cons, Sky.report]
    by_cases hx : x.1 = r.talker
    · rw [if_pos (.inr hx), if_pos hx, change_slotOf (t := t) hx hpos.1 (hhead.1 hx), table_cons]
      simp
    · have hslot : ¬ ((slotOf x).talker.1 = 0 ∨ (slotOf x).talker = r.talker) :=
        not_or.mpr ⟨hkey.1, hx⟩
      have hlen : (x :: sky).length + k - (x :: Sky.report t r sky).length =
          sky.length + k - (Sky.report t r sky).length := by
        rw [List.length_cons, List.length_cons]
        omega
      rw [if_neg hslot, if_neg hx, hlen, table_cons, ih hkey.2 hpos.2 hhead.2]
      intro hn
      apply hroom
      rw [List.map_cons, List.mem_cons, not_or]
      exact ⟨Ne.symm hx, hn⟩

/-! ### The talkers -/

/-- What holds of each talker, of the new one, and of one that goes on. -/
lemma forall_report {P : (UInt8 × UInt8) × Seen → Prop} (h : ∀ x ∈ sky, P x)
    (hnew : P (r.talker, ⟨t, value r.num, value r.inView, r.snrs⟩))
    (hnext : ∀ x ∈ sky, x.1 = r.talker → P (x.1, x.2.next t r)) :
    ∀ x ∈ Sky.report t r sky, P x := by
  induction sky with
  | nil => simpa [Sky.report] using hnew
  | cons x sky ih =>
    rw [List.forall_mem_cons] at h hnext
    rw [Sky.report]
    split
    next hx =>
      rw [List.forall_mem_cons]
      exact ⟨hnext.1 hx, h.2⟩
    next hx =>
      rw [List.forall_mem_cons]
      exact ⟨h.1, ih h.2 hnext.2⟩

lemma keys_report : (Sky.report t r sky).map (·.1) =
    if r.talker ∈ sky.map (·.1) then sky.map (·.1) else sky.map (·.1) ++ [r.talker] := by
  induction sky with
  | nil => rfl
  | cons x sky ih =>
    rw [Sky.report]
    by_cases hx : x.1 = r.talker
    · simp [hx]
    · rw [if_neg hx, List.map_cons, ih]
      have hne : ¬ r.talker = x.1 := Ne.symm hx
      split
      next h => simp [h]
      next h => simp [h, hne]

lemma nodup_report (h : (sky.map (·.1)).Nodup) : ((Sky.report t r sky).map (·.1)).Nodup := by
  rw [keys_report]
  split
  next => exact h
  next hn => exact List.nodup_append.mpr ⟨h, List.nodup_singleton _, by
    intro a ha b hb
    rw [List.mem_singleton] at hb
    rintro rfl
    exact hn (hb ▸ ha)⟩

/-! ### The numbers of the fix -/

lemma sum_visible (h : ∀ x ∈ sky, x.2.inView < 256) :
    ((table sky k).map fun s => s.in_view.toNat).sum = sky.visible := by
  unfold table Sky.visible
  rw [List.map_append, List.sum_append, List.map_map]
  have hempty : ((List.replicate k ({} : Slot)).map fun s => s.in_view.toNat).sum = 0 := by simp
  rw [hempty, Nat.add_zero]
  congr 1
  apply List.map_congr_left
  intro x hx
  show (UInt8.ofNat x.2.inView).toNat = x.2.inView
  rw [UInt8.toNat_ofNat']
  exact Nat.mod_eq_of_lt (h x hx)

/-- A cap of each term is none of the capped sum. -/
lemma min_sum_min {l : List ℕ} : min (l.map fun n => min n 255).sum 255 = min l.sum 255 := by
  induction l with
  | nil => rfl
  | cons n l ih =>
    rw [List.map_cons, List.sum_cons, List.sum_cons]
    omega

lemma sum_tracked :
    min ((table sky k).map fun s => s.tracked.toNat).sum 255 = min sky.tracked 255 := by
  unfold table Sky.tracked
  rw [List.map_append, List.sum_append, List.map_map]
  have hempty : ((List.replicate k ({} : Slot)).map fun s => s.tracked.toNat).sum = 0 := by simp
  have hmap : sky.map ((fun s => s.tracked.toNat) ∘ slotOf) =
      (sky.map fun x => x.2.signals.length).map fun n => min n 255 := by
    rw [List.map_map]
    exact List.map_congr_left fun x _ => count_toNat
  rw [hempty, Nat.add_zero, hmap, min_sum_min]

lemma foldl_best (hs : ∀ m ∈ snrs, m ≤ 99) (hn : n ≤ 99) :
    (snrs.map (Nat.cast : ℕ → ℤ)).foldl (fun best m => max best (toByte m)) (UInt8.ofNat n) =
      UInt8.ofNat (snrs.foldl max n) ∧ snrs.foldl max n ≤ 99 := by
  induction snrs generalizing n with
  | nil => exact ⟨rfl, hn⟩
  | cons m snrs ih =>
    rw [List.forall_mem_cons] at hs
    have hmax : max (UInt8.ofNat n) (toByte m) = UInt8.ofNat (max n m) := by
      have hbyte : toByte (m : ℤ) = UInt8.ofNat m := by
        unfold toByte
        congr 1
        omega
      have hle : UInt8.ofNat n ≤ UInt8.ofNat m ↔ n ≤ m := by
        rw [UInt8.le_iff_toNat_le, UInt8.toNat_ofNat', UInt8.toNat_ofNat']
        omega
      rw [hbyte]
      show (if UInt8.ofNat n ≤ UInt8.ofNat m then UInt8.ofNat m else UInt8.ofNat n) = _
      by_cases h : n ≤ m
      · rw [if_pos (hle.mpr h), max_eq_right h]
      · rw [if_neg fun hc => h (hle.mp hc), max_eq_left (by omega)]
    rw [List.map_cons, List.foldl_cons, List.foldl_cons, hmax]
    exact ih hs.2 (by omega)

/-! ### Runs -/

/-- The tables of the parser are those of the talkers since the last silence. -/
structure Tables (talkers : List (UInt8 × UInt8)) (v : View) : Prop where
  slots : v.gsv.slots = table v.sky (GSV_TALKERS - v.sky.length)
  best : v.gsv.best_snr = UInt8.ofNat v.strongest
  strongest : v.strongest ≤ 99
  last : v.gsv.last_ms = UInt32.ofNat v.now
  nodup : (v.sky.map (·.1)).Nodup
  talker : ∀ x ∈ v.sky, x.1 ∈ talkers ∧ x.1.1 ≠ 0 ∧ 1 ≤ x.2.num ∧ x.2.inView < 256
  visible : v.fix.sats_visible = UInt8.ofNat (min v.sky.visible 255)
  tracked : v.fix.sats_tracked = UInt8.ofNat (min v.sky.tracked 255)
  bestFix : v.fix.best_snr_db = UInt8.ofNat v.strongest

lemma tables_init : Tables talkers {} where
  slots := rfl
  best := rfl
  strongest := Nat.zero_le _
  last := rfl
  nodup := List.nodup_nil
  talker := fun _ h => nomatch h
  visible := rfl
  tracked := rfl
  bestFix := rfl

/-- Distinct talkers are no more than there are constellations. -/
lemma length_le_of_mem (hn : (sky.map (·.1)).Nodup) (hm : ∀ x ∈ sky, x.1 ∈ talkers) :
    sky.length ≤ talkers.length := by
  have hsub : sky.map (·.1) ⊆ talkers := by
    intro key hkey
    obtain ⟨x, hx, rfl⟩ := List.mem_map.mp hkey
    exact hm x hx
  have hle := (hn.subperm hsub).length_le
  rwa [List.length_map] at hle

/-- The parser sees the silences. -/
lemma Stream.quiet_iff (h : Stream talkers v e) (hl : v.gsv.last_ms = UInt32.ofNat v.now) :
    UInt32.ofNat e.1 - v.gsv.last_ms > GSV_CYCLE_MS ↔ v.Quiet e.1 := by
  have hlater := h.later
  have hsil := h.silence
  have hsub : (UInt32.ofNat e.1 - UInt32.ofNat v.now).toNat = (e.1 - v.now) % 2 ^ 32 := by
    rw [UInt32.toNat_sub, UInt32.toNat_ofNat', UInt32.toNat_ofNat']
    omega
  have hms : GSV_CYCLE_MS.toNat = 5000 := rfl
  rw [hl, gt_iff_lt, UInt32.lt_iff_toNat_lt, hsub, hms]
  refine ⟨fun hlt => ?_, hsil⟩
  have hle := Nat.mod_le (e.1 - v.now) (2 ^ 32)
  exact hlt.trans_le hle

/-- The tables in front of a sentence, behind the silence if there was one. -/
lemma Tables.before (h : Tables talkers v) (hs : Stream talkers v e) :
    (if UInt32.ofNat e.1 - v.gsv.last_ms > GSV_CYCLE_MS then
      { v.gsv with slots := List.replicate GSV_TALKERS {}, best_snr := 0 } else v.gsv) =
    { v.gsv with
      slots := table (v.before e.1) (GSV_TALKERS - (v.before e.1).length)
      best_snr := UInt8.ofNat (if v.Quiet e.1 then 0 else v.strongest) } := by
  have hiff := hs.quiet_iff h.last
  unfold View.before
  by_cases hq : v.Quiet e.1
  · rw [if_pos (hiff.mpr hq), if_pos hq, if_pos hq]
    rfl
  · rw [if_neg fun hc => hq (hiff.mp hc), if_neg hq, if_neg hq, ← h.slots, ← h.best]

lemma Tables.mem_before (h : Tables talkers v) : (v.before t).map (·.1) |>.Nodup := by
  unfold View.before
  split
  next => exact List.nodup_nil
  next => exact h.nodup

lemma Tables.talker_before (h : Tables talkers v) : ∀ x ∈ v.before t,
    x.1 ∈ talkers ∧ x.1.1 ≠ 0 ∧ 1 ≤ x.2.num ∧ x.2.inView < 256 := by
  unfold View.before
  split
  next => exact fun _ hx => nomatch hx
  next => exact h.talker

/-- What a sentence does to the tables and the fix. -/
lemma Tables.parse (h : Tables talkers v) (hs : Stream talkers v e) (hle : talkers.length ≤ 8) :
    let sky := Sky.report e.1 e.2 (v.before e.1)
    let strongest := e.2.snrs.foldl max (if v.Quiet e.1 then 0 else v.strongest)
    parseGsv e.2.talker e.2.fields (UInt32.ofNat e.1) v.fix v.gsv =
      ({ v.fix with
        sats_visible := UInt8.ofNat (min sky.visible 255)
        sats_tracked := UInt8.ofNat (min sky.tracked 255)
        best_snr_db := UInt8.ofNat strongest },
      { slots := table sky (GSV_TALKERS - sky.length), best_snr := UInt8.ofNat strongest
        last_ms := UInt32.ofNat e.1 }) := by
  intro sky strongest
  have hold := h.talker_before (t := e.1)
  have hlen := length_le_of_mem h.mem_before fun x hx => (hold x hx).1
  have hnew : ∀ x ∈ sky, x.1 ∈ talkers ∧ x.2.inView < 256 := by
    apply forall_report
    · exact fun x hx => ⟨(hold x hx).1, (hold x hx).2.2.2⟩
    · exact ⟨hs.mem, hs.valid.inView⟩
    · exact fun x hx _ => ⟨(hold x hx).1, hs.valid.inView⟩
  -- a new talker finds an empty slot
  have hroom : e.2.talker ∉ (v.before e.1).map (·.1) →
      0 < GSV_TALKERS - (v.before e.1).length := by
    intro hn
    have hnodup : (sky.map (·.1)).Nodup := nodup_report h.mem_before
    have hlt := length_le_of_mem hnodup fun x hx => (hnew x hx).1
    have hkeys : sky.map (·.1) = (v.before e.1).map (·.1) ++ [e.2.talker] :=
      keys_report.trans (if_neg hn)
    have hone := congrArg List.length hkeys
    rw [List.length_map, List.length_append, List.length_map, List.length_singleton] at hone
    unfold GSV_TALKERS
    omega
  have hplace := place_table (t := e.1) (fun x hx => (hold x hx).2.1)
    (fun x hx => (hold x hx).2.2.1) hs.head hroom
  have hsize : (v.before e.1).length + (GSV_TALKERS - (v.before e.1).length) = GSV_TALKERS := by
    unfold GSV_TALKERS
    omega
  rw [hsize] at hplace
  have hstrong : (if v.Quiet e.1 then 0 else v.strongest) ≤ 99 := by
    split
    next => exact Nat.zero_le _
    next => exact h.strongest
  have hbest := (foldl_best hs.valid.snr_le hstrong).1
  have hfields : ¬ e.2.fields.length < 3 := by simp [Report.fields]
  unfold parseGsv
  rw [if_neg hfields, h.before hs]
  dsimp only
  rw [hs.valid.change, hplace, hs.valid.signals, hbest, sum_visible fun x hx => (hnew x hx).2,
    sum_tracked]

lemma Tables.step (h : Tables talkers v) (hs : Stream talkers v e) (hle : talkers.length ≤ 8) :
    Tables talkers (v.step e) := by
  have hold := h.talker_before (t := e.1)
  have hstrong : (if v.Quiet e.1 then 0 else v.strongest) ≤ 99 := by
    split
    next => exact Nat.zero_le _
    next => exact h.strongest
  unfold View.step
  dsimp only
  rw [h.parse hs hle]
  refine ⟨rfl, rfl, (foldl_best hs.valid.snr_le hstrong).2, rfl, nodup_report h.mem_before, ?_,
    rfl, rfl, rfl⟩
  apply forall_report
  · exact hold
  · exact ⟨hs.mem, hs.valid.talker, hs.valid.first, hs.valid.inView⟩
  · exact fun x hx _ => ⟨(hold x hx).1, (hold x hx).2.1, hs.valid.first, hs.valid.inView⟩

lemma tables_of_reach (hle : talkers.length ≤ 8) (h : Reach View.step (Stream talkers) {} v) :
    Tables talkers v :=
  h.invariant tables_init fun hs ht => ht.step hs hle

/-! ### What is shown -/

/-- A sum over the talkers is one over those that were heard and those that fell silent. -/
lemma sum_split {f : (UInt8 × UInt8) × Seen → ℕ} {p : (UInt8 × UInt8) × Seen → Bool} :
    (sky.map f).sum = ((sky.filter p).map f).sum + ((sky.filter fun x => ¬ p x).map f).sum := by
  induction sky with
  | nil => rfl
  | cons x sky ih =>
    rw [List.map_cons, List.sum_cons, ih]
    cases hp : p x with
    | true => simp [hp, Nat.add_assoc]
    | false =>
      simp [hp]
      omega

/-- **What the fix shows behind a sentence is right exactly when the talkers that have fallen silent
had nothing to show, and the strongest signal since the last silence is one of the latest sets.** -/
theorem view_shows_iff {talkers : List (UInt8 × UInt8)} {v : View} (hle : talkers.length ≤ 8)
    (h : Reach View.step (Stream talkers) {} v) : v.Shows ↔ v.Faded := by
  have ht := tables_of_reach hle h
  have hvisible : v.sky.visible = v.recent.visible + v.gone.visible := by
    unfold View.recent View.gone Sky.visible
    simpa using sum_split (p := fun x => decide (v.now ≤ x.2.heard + 5000))
  have htracked : v.sky.tracked = v.recent.tracked + v.gone.tracked := by
    unfold View.recent View.gone Sky.tracked
    simpa using sum_split (p := fun x => decide (v.now ≤ x.2.heard + 5000))
  have hbest : (UInt8.ofNat v.strongest).toNat = v.strongest := by
    have hmax := ht.strongest
    rw [UInt8.toNat_ofNat']
    omega
  constructor
  · intro hs
    refine ⟨?_, ?_, ?_⟩
    · have hshow := hs.visible
      rw [ht.visible, count_toNat] at hshow
      omega
    · have hshow := hs.tracked
      rw [ht.tracked, count_toNat] at hshow
      omega
    · have hshow := hs.best
      rwa [ht.bestFix, hbest] at hshow
  · intro hf
    refine ⟨?_, ?_, ?_⟩
    · have hgone := hf.visible
      rw [ht.visible, count_toNat]
      omega
    · have hgone := hf.tracked
      rw [ht.tracked, count_toNat]
      omega
    · rw [ht.bestFix, hbest]
      exact hf.best

/-- GPS and GLONASS. -/
def constellations : List (UInt8 × UInt8) :=
  [('G'.toUInt8, 'P'.toUInt8), ('G'.toUInt8, 'L'.toUInt8)]

/-- A sentence of a constellation, with one satellite of a signal. -/
def oneSat (talker : UInt8 × UInt8) (total num : Fin 10) (snr : List (Fin 10)) : Report where
  talker
  total := [total]
  num := [num]
  inView := [0, 2]
  sats := [⟨['7'.toUInt8], ['9'.toUInt8], ['5'.toUInt8], snr⟩]

/-- A set of two sentences, one of another constellation between them. -/
theorem view_shows_iff_burst :
    (([(1000, oneSat ('G'.toUInt8, 'P'.toUInt8) 2 1 [4, 0]),
      (1010, oneSat ('G'.toUInt8, 'L'.toUInt8) 1 1 [2, 1]),
      (1020, oneSat ('G'.toUInt8, 'P'.toUInt8) 2 2 [3, 5])]).foldl View.step {}).Shows := by
  have hr : Reach View.step (Stream constellations) {}
      (([(1000, oneSat ('G'.toUInt8, 'P'.toUInt8) 2 1 [4, 0]),
        (1010, oneSat ('G'.toUInt8, 'L'.toUInt8) 1 1 [2, 1]),
        (1020, oneSat ('G'.toUInt8, 'P'.toUInt8) 2 2 [3, 5])]).foldl View.step {}) :=
    Reach.init.run (by decide +kernel)
  refine (view_shows_iff (by decide) hr).mpr ⟨.inl ?_, .inl ?_, ?_⟩
  · decide +kernel
  · decide +kernel
  · decide +kernel

/-- GPS falls silent while GLONASS goes on: eight seconds later its satellites are still shown. -/
theorem not_shows_fading : ¬ ∀ es : List (ℕ × Report),
    Allowed View.step (Stream constellations) {} es → (es.foldl View.step {}).Shows := by
  intro h
  have hs := h [(1000, oneSat ('G'.toUInt8, 'P'.toUInt8) 1 1 [4, 0]),
    (5000, oneSat ('G'.toUInt8, 'L'.toUInt8) 1 1 [2, 1]),
    (9000, oneSat ('G'.toUInt8, 'L'.toUInt8) 1 1 [2, 1])] (by decide +kernel)
  exact absurd hs.visible (by decide +kernel)

end URSupreme.Nmea
