import URSupreme.Lib.Run

/-!
# The calibration of the compass

The hard-iron bounds of `QMC6310.h`, the flatness gate that locks them, and the file that
`SensorConfig` keeps them in. The file says that there are bounds, not that the gate was satisfied:
what is saved between a reset and the next lock is taken for a calibration at the next boot.

The arithmetic of the readings is that of any type of floats, with no law assumed of it, and the
text of a number in the file is a parameter. The heading is left out.
-/

namespace URSupreme.QMC6310
open Lib

/-- A type of floats. -/
class Floats (F : Type) extends Add F, Sub F, Mul F, Div F, LT F, LE F where
  sqrt : F → F
  isnan : F → Bool
  lit : ℚ → F
  decLt : DecidableLT F
  decLe : DecidableLE F

variable {F : Type} [Floats F]

instance decidableLT : DecidableLT F := Floats.decLt

instance decidableLE : DecidableLE F := Floats.decLe

/-- A literal of the source. -/
abbrev lit (q : ℚ) : F := Floats.lit q

def CAL_MIN_SPAN_UT : F := lit 50
def CAL_WIN : ℕ := 48
def CAL_FLAT_REL : F := lit (10 / 100)
def CAL_DIRTY_REL : F := lit (22 / 100)
def CAL_MOVE_MIN_UT : F := lit 30

/-- The smallest and the largest field along each axis. -/
structure Bounds (F : Type) where
  xmin : F
  xmax : F
  ymin : F
  ymax : F
  zmin : F
  zmax : F
  deriving DecidableEq

/-- `Calib`. -/
structure Calib (F : Type) [Floats F] where
  seeded : Bool := false
  bounds : Bounds F := ⟨lit 0, lit 0, lit 0, lit 0, lit 0, lit 0⟩

/-- `CalWin`. -/
structure CalWin (F : Type) [Floats F] where
  raw : ℕ → F := fun _ => lit 0
  corr : ℕ → F := fun _ => lit 0
  idx : ℕ := 0
  cnt : ℕ := 0
  ready : Bool := false
  flat_prog : F := lit 0

/-- A field that was read, when, and whether the gravity is known. -/
structure Sample (F : Type) where
  x_uT : F
  y_uT : F
  z_uT : F
  taken_ms : ℕ
  have_g : Bool

/-- `Reading`, without its heading. -/
structure Reading (F : Type) [Floats F] where
  valid : Bool := false
  cal_ready : Bool := false
  cal_progress : F := lit 0
  field_uT : F := lit 0
  taken_ms : ℕ := 0
  x_uT : F := lit 0
  y_uT : F := lit 0
  z_uT : F := lit 0

/-- The statics of the driver. -/
structure Driver (F : Type) [Floats F] where
  calib : Calib F := {}
  calwin : CalWin F := {}
  prev_ready : Bool := false
  cal_dirty : Bool := false
  last : Reading F := {}

/-- The bounds grow with a sample. -/
def Bounds.grow (b : Bounds F) (r : Sample F) : Bounds F :=
  { xmin := if r.x_uT < b.xmin then r.x_uT else b.xmin
    xmax := if b.xmax < r.x_uT then r.x_uT else b.xmax
    ymin := if r.y_uT < b.ymin then r.y_uT else b.ymin
    ymax := if b.ymax < r.y_uT then r.y_uT else b.ymax
    zmin := if r.z_uT < b.zmin then r.z_uT else b.zmin
    zmax := if b.zmax < r.z_uT then r.z_uT else b.zmax }

/-- The first sample seeds the bounds, and the others make them grow until they are locked. -/
def Calib.take (c : Calib F) (cal_locked : Bool) (r : Sample F) : Calib F :=
  if ¬ c.seeded then
    { seeded := true, bounds := ⟨r.x_uT, r.x_uT, r.y_uT, r.y_uT, r.z_uT, r.z_uT⟩ }
  else if ¬ cal_locked then { c with bounds := c.bounds.grow r }
  else c

/-- The spans of the axes. -/
def Bounds.spans (b : Bounds F) : F × F × F := (b.xmax - b.xmin, b.ymax - b.ymin, b.zmax - b.zmin)

/-- The strength of the corrected field. -/
def Bounds.field (b : Bounds F) (r : Sample F) : F :=
  let (rx, ry, rz) := b.spans
  let xc := (b.xmin + b.xmax) * lit (1 / 2)
  let yc := (b.ymin + b.ymax) * lit (1 / 2)
  let zc := (b.zmin + b.zmax) * lit (1 / 2)
  let avg := (rx + ry + rz) / lit 3
  let mx := if lit 1 < rx then (r.x_uT - xc) * (avg / rx) else r.x_uT - xc
  let my := if lit 1 < ry then (r.y_uT - yc) * (avg / ry) else r.y_uT - yc
  let mz := if lit 1 < rz then (r.z_uT - zc) * (avg / rz) else r.z_uT - zc
  Floats.sqrt (mx * mx + my * my + mz * mz)

/-- Every axis was swept. -/
def Bounds.spansFull (b : Bounds F) : Bool :=
  let (rx, ry, rz) := b.spans
  decide (CAL_MIN_SPAN_UT ≤ rx) && decide (CAL_MIN_SPAN_UT ≤ ry) && decide (CAL_MIN_SPAN_UT ≤ rz)

/-- The window takes a sample. -/
def CalWin.push (w : CalWin F) (raw corr : F) : CalWin F :=
  { w with
    raw := Function.update w.raw w.idx raw
    corr := Function.update w.corr w.idx corr
    idx := (w.idx + 1) % CAL_WIN
    cnt := if w.cnt < CAL_WIN then w.cnt + 1 else w.cnt }

/-- Flatness, judged while moving and until it is ready. -/
def CalWin.judge (w : CalWin F) (spans_full : Bool) : CalWin F :=
  if CAL_WIN ≤ w.cnt then
    let raws := (List.range CAL_WIN).map w.raw
    let corrs := (List.range CAL_WIN).map w.corr
    let rmin := raws.foldl (fun m a => if a < m then a else m) (w.raw 0)
    let rmax := raws.foldl (fun m a => if m < a then a else m) (w.raw 0)
    let sum := corrs.foldl (· + ·) (lit 0)
    let sumsq := corrs.foldl (fun s a => s + a * a) (lit 0)
    if w.ready = false ∧ CAL_MOVE_MIN_UT < rmax - rmin then
      let mean := sum / lit CAL_WIN
      let var := sumsq / lit CAL_WIN - mean * mean
      let var := if var < lit 0 then lit 0 else var
      let rel := if lit 1 < mean then Floats.sqrt var / mean else lit 1
      let fp := (CAL_DIRTY_REL - rel) / (CAL_DIRTY_REL - CAL_FLAT_REL)
      { w with
        flat_prog := if fp < lit 0 then lit 0 else if lit 1 < fp then lit 1 else fp
        ready := spans_full && decide (rel < CAL_FLAT_REL) }
    else w
  else w

/-- The bar. -/
def Driver.progress (d : Driver F) : F :=
  let (rx, ry, rz) := d.calib.bounds.spans
  let least := if rx < ry then (if rx < rz then rx else rz) else (if ry < rz then ry else rz)
  let span_prog := least / CAL_MIN_SPAN_UT
  let span_prog := if lit 1 < span_prog then lit 1 else span_prog
  if d.calib.bounds.spansFull then d.calwin.flat_prog else span_prog

/-- `do_read`, where the sensor answers. -/
def Driver.doRead (d : Driver F) (r : Sample F) : Driver F :=
  let valid := !Floats.isnan r.x_uT && !Floats.isnan r.y_uT && !Floats.isnan r.z_uT
  let reading : Reading F :=
    { valid, taken_ms := r.taken_ms, x_uT := r.x_uT, y_uT := r.y_uT, z_uT := r.z_uT }
  if valid then
    let calib := d.calib.take d.calwin.ready r
    let field_uT := calib.bounds.field r
    let raw_mag := Floats.sqrt (r.x_uT * r.x_uT + r.y_uT * r.y_uT + r.z_uT * r.z_uT)
    let w := (d.calwin.push raw_mag field_uT).judge calib.bounds.spansFull
    let d' := { d with
      calib, calwin := w
      cal_dirty := if w.ready ∧ ¬ d.prev_ready then true else d.cal_dirty
      prev_ready := w.ready }
    { d' with last := { reading with
        field_uT, cal_progress := d'.progress, cal_ready := r.have_g && w.ready } }
  else { d with last := reading }

/-- `reset_calibration`. -/
def Driver.resetCalibration (d : Driver F) : Driver F :=
  { d with calib := {}, calwin := {}, prev_ready := false, cal_dirty := true }

/-- `take_cal_dirty`. -/
def Driver.takeCalDirty (d : Driver F) : Bool × Driver F :=
  (d.cal_dirty, { d with cal_dirty := false })

/-- `set_cal_bounds`. -/
def Driver.setCalBounds (d : Driver F) (b : Bounds F) : Driver F :=
  { d with
    calib := { seeded := true, bounds := b }
    calwin := { d.calwin with ready := true }
    prev_ready := true }

/-- What is in the file: `seeded`, and the bounds with it. -/
abbrev File (F : Type) : Type := Option (Bounds F)

/-- `load_mag_cal`, from a file that may not exist. -/
def loadMagCal (file : Option (File F)) (d : Driver F) : Driver F :=
  match file with
  | some (some b) => d.setCalBounds b
  | _ => d

def Bounds.map (json : F → F) (b : Bounds F) : Bounds F :=
  ⟨json b.xmin, json b.xmax, json b.ymin, json b.ymax, json b.zmin, json b.zmax⟩

/-- `save_mag_cal`; a number is read back from its text as `json` has it. -/
def saveMagCal (json : F → F) (d : Driver F) : File F :=
  if d.calib.seeded then some (d.calib.bounds.map json) else none

/-- The device, and the bounds that satisfied the gate when it locked, since the last reset. -/
structure Device (F : Type) [Floats F] where
  driver : Driver F := {}
  file : Option (File F) := none
  locked : Option (Bounds F) := none

inductive Event (F : Type) where
  | read (r : Sample F)
  | reset
  | poll
  | reboot

/-- A reading, a reset, a poll of the dirty flag by the main loop, and a boot. -/
def Device.step (json : F → F) (s : Device F) : Event F → Device F
  | .read r =>
    let driver := s.driver.doRead r
    { s with
      driver
      locked :=
        if driver.calwin.ready ∧ ¬ s.driver.calwin.ready then some driver.calib.bounds
        else s.locked }
  | .reset => { s with driver := s.driver.resetCalibration, locked := none }
  | .poll =>
    let (dirty, driver) := s.driver.takeCalDirty
    { s with driver, file := if dirty then some (saveMagCal json driver) else s.file }
  | .reboot => { s with driver := loadMagCal s.file {} }

/-- What is treated as ready has the bounds that satisfied the gate, and was not reset since. -/
def Device.Rightful (s : Device F) : Prop :=
  s.driver.calwin.ready = true → s.locked = some s.driver.calib.bounds

/-- The condition: what a poll saves is nothing, or the bounds of a lock that come back from their
text, and at a reboot nothing is unsaved unless the file has no bounds, or these. -/
def Saves (json : F → F) (s : Device F) : Event F → Prop
  | .poll => s.driver.cal_dirty = true → s.driver.calib.seeded = true →
      s.driver.calwin.ready = true ∧ s.driver.calib.bounds.map json = s.driver.calib.bounds
  | .reboot => s.driver.cal_dirty = true → ∀ b ∈ s.file.join,
      s.driver.calwin.ready = true ∧ b = s.driver.calib.bounds
  | _ => True

instance [DecidableEq F] (json : F → F) (s : Device F) : ∀ e, Decidable (Saves json s e)
  | .read _ | .reset => .isTrue trivial
  | .poll => inferInstanceAs (Decidable (_ → _ → _ ∧ _))
  | .reboot => inferInstanceAs (Decidable (_ → ∀ b ∈ s.file.join, _ ∧ _))

variable {json : F → F} {s : Device F} {d : Driver F} {c : Calib F} {w : CalWin F} {r : Sample F}
  {b : Bounds F} {e : Event F} {raw corr : F} {full : Bool}

/-! ### The lock -/

@[simp] lemma take_seeded {locked : Bool} : (c.take locked r).seeded = true := by
  unfold Calib.take
  split
  next => rfl
  next h =>
    have hs : c.seeded = true := by simpa using h
    split
    next => exact hs
    next => exact hs

/-- Locked bounds stay as they are. -/
lemma take_locked (hs : c.seeded = true) : c.take true r = c := by
  unfold Calib.take
  rw [if_neg (not_not.mpr hs), if_neg (by decide)]

lemma judge_ready (hr : w.ready = true) : ((w.push raw corr).judge full).ready = true := by
  have hpush : (w.push raw corr).ready = true := hr
  unfold CalWin.judge
  split
  next =>
    dsimp only
    rw [if_neg]
    · exact hpush
    · rintro ⟨hnot, -⟩
      rw [hpush] at hnot
      exact Bool.noConfusion hnot
  next => exact hpush

/-- What a reading can do to the calibration. -/
lemma doRead_cases (hready : d.calwin.ready = true → d.calib.seeded = true)
    (hprev : d.prev_ready = d.calwin.ready) :
    -- nothing, or the bounds go on as they were
    ((d.doRead r).calwin.ready = d.calwin.ready ∧ (d.doRead r).prev_ready = d.calwin.ready ∧
      (d.doRead r).cal_dirty = d.cal_dirty ∧
      (d.calwin.ready = true → (d.doRead r).calib = d.calib)) ∨
    -- or they are locked
    (d.calwin.ready = false ∧ (d.doRead r).calwin.ready = true ∧ (d.doRead r).prev_ready = true ∧
      (d.doRead r).cal_dirty = true ∧ (d.doRead r).calib.seeded = true) := by
  unfold Driver.doRead
  dsimp only
  split
  next =>
    cases hr : d.calwin.ready with
    | true =>
      have hs := hready hr
      left
      dsimp only
      rw [judge_ready hr, hprev, hr]
      exact ⟨rfl, rfl, if_neg (fun h => h.2 rfl), fun _ => take_locked hs⟩
    | false =>
      generalize CalWin.judge (F := F) _ _ = w
      cases hw : w.ready with
      | true =>
        right
        refine ⟨rfl, rfl, rfl, if_pos ⟨rfl, ?_⟩, take_seeded⟩
        rw [hprev, hr]
        decide
      | false =>
        left
        exact ⟨rfl, rfl, by simp, fun h => Bool.noConfusion h⟩
  next => exact .inl ⟨rfl, hprev, rfl, fun _ => rfl⟩

/-! ### The file -/

/-- What holds in every state of a run. -/
structure Inv (s : Device F) : Prop where
  seeded : s.driver.calwin.ready = true → s.driver.calib.seeded = true
  rightful : s.Rightful
  prev : s.driver.prev_ready = s.driver.calwin.ready
  -- what is in the file is of the last lock, or a save is pending
  file : ∀ b, s.file = some (some b) → s.driver.cal_dirty = true ∨ s.locked = some b
  -- without a lock it is pending behind a reset
  dirty : s.driver.cal_dirty = true → s.driver.calwin.ready = false → s.locked = none

lemma inv_init : Inv ({} : Device F) where
  seeded := fun h => Bool.noConfusion h
  rightful := fun h => Bool.noConfusion h
  prev := rfl
  file := fun _ h => nomatch h
  dirty := fun h => Bool.noConfusion h

lemma Inv.read (h : Inv s) : Inv (s.step json (.read r)) := by
  cases doRead_cases (r := r) h.seeded h.prev with
  | inl hsame =>
    obtain ⟨hready, hprev, hdirty, hcalib⟩ := hsame
    have hlocked : (s.step json (.read r)).locked = s.locked := by
      show (if _ then _ else _) = _
      rw [hready]
      exact if_neg fun hc => hc.2 hc.1
    refine ⟨fun hr => ?_, fun hr => ?_, hprev.trans hready.symm, fun b hb => ?_, fun hd hr => ?_⟩
    · have hr : s.driver.calwin.ready = true := hready.symm.trans hr
      show (s.driver.doRead r).calib.seeded = true
      rw [hcalib hr]
      exact h.seeded hr
    · have hr : s.driver.calwin.ready = true := hready.symm.trans hr
      rw [hlocked]
      show s.locked = some (s.driver.doRead r).calib.bounds
      rw [hcalib hr]
      exact h.rightful hr
    · rw [hlocked]
      show (s.driver.doRead r).cal_dirty = true ∨ _
      rw [hdirty]
      exact h.file b hb
    · rw [hlocked]
      exact h.dirty (hdirty.symm.trans hd) (hready.symm.trans hr)
  | inr hlock =>
    obtain ⟨hnot, hready, hprev, hdirty, hseeded⟩ := hlock
    refine ⟨fun _ => hseeded, fun _ => ?_, hprev.trans hready.symm, fun _ _ => .inl hdirty,
      fun _ hr => Bool.noConfusion (hready.symm.trans hr)⟩
    refine if_pos ⟨hready, ?_⟩
    rw [hnot]
    decide

lemma inv_reset : Inv (s.step json .reset) where
  seeded := fun hr => Bool.noConfusion hr
  rightful := fun hr => Bool.noConfusion hr
  prev := rfl
  file := fun _ _ => .inl rfl
  dirty := fun _ _ => rfl

lemma saveMagCal_eq (h : saveMagCal json d = some b) :
    d.calib.seeded = true ∧ b = d.calib.bounds.map json := by
  unfold saveMagCal at h
  split at h
  next hs => exact ⟨hs, (Option.some.inj h).symm⟩
  next => exact nomatch h

lemma Inv.poll (h : Inv s) (hok : Saves json s .poll) : Inv (s.step json .poll) := by
  refine ⟨h.seeded, h.rightful, h.prev, fun b hb => .inr ?_, fun hd => Bool.noConfusion hd⟩
  have hfile : (if s.driver.cal_dirty then some (saveMagCal json s.driver.takeCalDirty.2)
      else s.file) = some (some b) := hb
  show s.locked = some b
  split at hfile
  next hd =>
    obtain ⟨hs, rfl⟩ := saveMagCal_eq (Option.some.inj hfile)
    obtain ⟨hr, hmap⟩ := hok hd hs
    show s.locked = some (s.driver.calib.bounds.map json)
    rw [hmap]
    exact h.rightful hr
  next hd => exact (h.file b hfile).resolve_left hd

lemma Inv.reboot (h : Inv s) (hok : Saves json s .reboot) : Inv (s.step json .reboot) := by
  by_cases hb : ∃ b, s.file = some (some b)
  · obtain ⟨b, hb⟩ := hb
    have hlocked : s.locked = some b := by
      cases h.file b hb with
      | inl hd =>
        obtain ⟨hr, heq⟩ := hok hd b (Option.join_eq_some_iff.mpr hb)
        rw [heq]
        exact h.rightful hr
      | inr hl => exact hl
    have hstep : s.step json .reboot = { s with driver := Driver.setCalBounds {} b } := by
      simp [Device.step, loadMagCal, hb]
    rw [hstep]
    refine ⟨fun _ => rfl, fun _ => hlocked, rfl, fun b' hb' => .inr ?_,
      fun hd => Bool.noConfusion hd⟩
    rw [hlocked, ← Option.some.inj (hb.symm.trans hb')]
  · have hstep : s.step json .reboot = { s with driver := {} } := by
      simp only [Device.step, loadMagCal]
      split
      next b hf => exact absurd ⟨b, hf⟩ hb
      next => rfl
    rw [hstep]
    exact ⟨fun hr => Bool.noConfusion hr, fun hr => Bool.noConfusion hr, rfl,
      fun b hf => absurd ⟨b, hf⟩ hb, fun hd => Bool.noConfusion hd⟩

lemma Inv.step (h : Inv s) (hok : Saves json s e) : Inv (s.step json e) := by
  cases e with
  | read r => exact h.read
  | reset => exact inv_reset
  | poll => exact h.poll hok
  | reboot => exact h.reboot hok

lemma inv_of_reach (h : Reach (Device.step json) (Saves json) {} s) : Inv s :=
  h.invariant inv_init fun hok hs => hs.step hok

/-- What a reboot makes of a file with bounds. -/
lemma rightful_reboot (hf : s.file = some (some b)) :
    (s.step json .reboot).Rightful ↔ s.locked = some b := by
  have hstep : s.step json .reboot = { s with driver := Driver.setCalBounds {} b } := by
    simp [Device.step, loadMagCal, hf]
  rw [hstep]
  exact ⟨fun h => h rfl, fun h _ => h⟩

/-- A step that does not meet the condition goes wrong, at once or at the next boot. -/
lemma Inv.saves (h : Inv s) (hnow : (s.step json e).Rightful)
    (hboot : e = .poll → ((s.step json e).step json .reboot).Rightful) : Saves json s e := by
  -- a pending save without a lock is behind a reset
  have hlock : ∀ {b}, s.driver.cal_dirty = true → s.locked = some b →
      s.driver.calwin.ready = true ∧ b = s.driver.calib.bounds := by
    intro b hd hl
    cases hr : s.driver.calwin.ready with
    | true => exact ⟨rfl, Option.some.inj (hl.symm.trans (h.rightful hr))⟩
    | false =>
      rw [h.dirty hd hr] at hl
      exact nomatch hl
  cases e with
  | read r => trivial
  | reset => trivial
  | poll =>
    intro hd hs
    have hfile : (s.step json .poll).file = some (some (s.driver.calib.bounds.map json)) := by
      simp [Device.step, Driver.takeCalDirty, saveMagCal, hd, hs]
    exact hlock hd ((rightful_reboot hfile).mp (hboot rfl))
  | reboot =>
    intro hd b hf
    exact hlock hd ((rightful_reboot (Option.join_eq_some_iff.mp hf)).mp hnow)

/-- **In a run whose saves are of locks, what is treated as ready has the bounds that satisfied the
gate and was not reset since; and a step that does not meet this condition goes wrong, at once or at
the next boot.** -/
theorem rightful_of_reach {F : Type} [Floats F] {json : F → F} {s : Device F}
    (h : Reach (Device.step json) (Saves json) {} s) : s.Rightful ∧ ∀ e,
      Saves json s e ↔ (s.step json e).Rightful ∧
        (e = .poll → ((s.step json e).step json .reboot).Rightful) := by
  have hinv := inv_of_reach h
  refine ⟨hinv.rightful, fun e => ⟨fun hok => ?_, fun ⟨hnow, hboot⟩ => hinv.saves hnow hboot⟩⟩
  have hnext := hinv.step hok
  refine ⟨hnext.rightful, fun he => ?_⟩
  subst he
  refine (hnext.reboot fun hd => ?_).rightful
  exact Bool.noConfusion hd

/-- Floats that are rational numbers, with square roots of rational squares. -/
instance : Floats ℚ where
  sqrt q := (Nat.sqrt q.num.toNat : ℚ) / (Nat.sqrt q.den : ℚ)
  isnan _ := false
  lit q := q
  decLt := inferInstance
  decLe := inferInstance

/-- A sample of a field of 50 around the centre `(120, 0, 0)`, in one of six directions. -/
def turned (k : ℕ) : Sample ℚ :=
  match k % 6 with
  | 0 => ⟨170, 0, 0, k, true⟩
  | 1 => ⟨70, 0, 0, k, true⟩
  | 2 => ⟨120, 50, 0, k, true⟩
  | 3 => ⟨120, -50, 0, k, true⟩
  | 4 => ⟨120, 0, 50, k, true⟩
  | _ => ⟨120, 0, -50, k, true⟩

/-- The compass is turned, locks, is saved and boots. -/
theorem rightful_of_reach_turned :
    let s := ((List.range 54).map (fun k => Event.read (turned k)) ++ [Event.poll, .reboot]).foldl
      (Device.step id) {}
    s.driver.calwin.ready = true ∧ s.Rightful := by
  refine ⟨by decide +kernel, (rightful_of_reach (Reach.init.run ?_)).1⟩
  decide +kernel

/-- A reset, one sample, the poll and a boot: its bounds are taken for a calibration. -/
theorem not_rightful_seeded :
    ¬ ∀ es : List (Event ℚ), (es.foldl (Device.step id) {}).Rightful := by
  intro h
  have hr := h [.reset, .read (turned 0), .poll, .reboot] (by decide +kernel)
  exact absurd hr (by decide +kernel)

end URSupreme.QMC6310
