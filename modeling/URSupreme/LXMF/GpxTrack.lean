import URSupreme.LXMF.Record
import URSupreme.Storage.SdWriterFiles

/-!
# The track of a live share

`LXMF/GpxTrack.h`, on the card: a track is created with its first point, and a later point is put
over the closing tags, with new ones behind it. Both are one-shot writes of the SD writer, so that
the file holds the points in their order exactly as far as the writer keeps to the order of its
writes. The text that the format makes of a point is outside.
-/

namespace URSupreme.GpxTrack
open Lib SdWriter
open Inbox (ascii)

def HEADER : Bytes :=
  ascii "<?xml version=\"1.0\"?>\n<gpx version=\"1.1\" creator=\"uRSupreme\"><trk><trkseg>\n"

def CLOSE : Bytes := ascii "</trkseg></trk></gpx>\n"

/-- The priority of a write for which the caller gives none. -/
def PRIO_NORMAL : Nat := 128

/-- `fmt_trkpt`; `text` is what the format makes of the point. -/
def fmtTrkpt (text : Bytes) : Option Bytes :=
  if 0 < text.length ∧ text.length < 64 then some text else none

/-- The write of `create`; `dirs` answers `ensure_parent_dirs`. -/
def create (path : String) (dirs : Bool) (text : Bytes) : Option Write :=
  match fmtTrkpt text with
  | none => none
  | some pt =>
    let body := HEADER ++ pt ++ CLOSE
    if body.length ≥ 256 then none
    else if !dirs then none
    else some ⟨path, body, .truncate, 0, PRIO_NORMAL⟩

/-- The write of `append`. -/
def append (path : String) (text : Bytes) : Option Write :=
  match fmtTrkpt text with
  | none => none
  | some pt => some ⟨path, pt ++ CLOSE, .appendSeek, CLOSE.length, PRIO_NORMAL⟩

/-- The writes to a path that were accepted. -/
def writesTo (p : String) (l : Ledger) : List Write :=
  (l.accepted.filter fun x => x.2.path = p).map (·.2)

/-- What the writer is to keep: writes to one path at one priority are committed in the order of
their acceptance, and when it has nothing to do, the file of a track holds its points in order. -/
def Keeps (l : Ledger) : Prop :=
  (∀ p q, on p q l.committed <+: on p q l.accepted) ∧
    ∀ p dirs text texts w ws, create p dirs text = some w →
      List.Forall₂ (fun text w => append p text = some w) texts ws → writesTo p l = w :: ws →
      p ∉ l.streams → l.writer.Idle →
      l.writer.card.content p = HEADER ++ text ++ texts.flatten ++ CLOSE

variable {l : Ledger} {p : String} {dirs : Bool} {text file : Bytes} {texts : List Bytes}
  {w : Write} {ws : List Write}

/-! ### The writes of a track -/

lemma fmtTrkpt_some {pt : Bytes} (h : fmtTrkpt text = some pt) : pt = text := by
  unfold fmtTrkpt at h
  split at h
  next => exact (Option.some.inj h).symm
  next => cases h

lemma create_some (h : create p dirs text = some w) :
    w = ⟨p, HEADER ++ text ++ CLOSE, .truncate, 0, PRIO_NORMAL⟩ := by
  unfold create at h
  split at h
  next => cases h
  next pt hpt =>
    dsimp only at h
    split at h
    next => cases h
    next =>
      split at h
      next => cases h
      next => rw [← Option.some.inj h, fmtTrkpt_some hpt]

lemma append_some (h : append p text = some w) :
    w = ⟨p, text ++ CLOSE, .appendSeek, CLOSE.length, PRIO_NORMAL⟩ := by
  unfold append at h
  split at h
  next => cases h
  next pt hpt => rw [← Option.some.inj h, fmtTrkpt_some hpt]

/-- The file of a new track. -/
lemma apply_create (h : create p dirs text = some w) :
    w.apply file = HEADER ++ text ++ CLOSE := by
  rw [create_some h]
  exact writeAt_nil

/-- A point goes before the closing tags. -/
lemma apply_append (h : append p text = some w) :
    w.apply (file ++ CLOSE) = file ++ text ++ CLOSE := by
  rw [append_some h, List.append_assoc file]
  refine writeAt_end ?_
  rw [List.length_append]
  exact Nat.le_add_left _ _

/-- The points go there in order. -/
lemma foldl_append (h : List.Forall₂ (fun text w => append p text = some w) texts ws) :
    ws.foldl Write.apply (file ++ CLOSE) = file ++ texts.flatten ++ CLOSE := by
  induction h generalizing file with
  | nil => rw [List.flatten_nil, List.append_nil]; rfl
  | cons hw _ ih =>
    rw [List.foldl_cons, apply_append hw, ih, List.flatten_cons, List.append_assoc file]

/-- All writes of a track have the same priority. -/
lemma priority_of_track (hw : create p dirs text = some w)
    (hws : List.Forall₂ (fun text w => append p text = some w) texts ws) :
    ∀ x ∈ w :: ws, x.priority = PRIO_NORMAL := by
  intro x hx
  rcases List.mem_cons.mp hx with rfl | hx
  · rw [create_some hw]
  · induction hws with
    | nil => cases hx
    | cons hy _ ih =>
      rcases List.mem_cons.mp hx with rfl | hx
      · rw [append_some hy]
      · exact ih (List.mem_cons_of_mem _ hx) hx

lemma on_of_sole {q : Nat} (h : ∀ x ∈ l.accepted, x.2.path = p → x.2.priority = q) :
    (on p q l.accepted).map (·.2) = writesTo p l := by
  refine congrArg _ (List.filter_congr fun x hx => ?_)
  rw [decide_eq_decide]
  exact ⟨And.left, fun hp => ⟨hp, h x hx hp⟩⟩

/-! ### The order -/

lemma keeps_of_inOrder (h : InOrder l) : Keeps l := by
  refine ⟨h.committed, fun p dirs text texts w ws hw hws hl hstr hi => ?_⟩
  have hprio : ∀ x ∈ l.accepted, x.2.path = p → x.2.priority = PRIO_NORMAL := fun x hx hp => by
    refine priority_of_track hw hws x.2 ?_
    rw [← hl]
    exact List.mem_map_of_mem (List.mem_filter.mpr ⟨hx, decide_eq_true hp⟩)
  rw [h.idle hi ⟨hprio, hstr⟩, on_of_sole hprio, hl, List.foldl_cons, apply_create hw,
    foldl_append hws]

/-- In a run without an error in which each write that is accepted comes behind those it has to wait
for, the order is kept. -/
theorem keeps_order {events : List Event} (hc : ∀ e ∈ events, e.clean = true)
    (h : Allowed Ledger.step (fun l e => Sound l.writer e) {} events) :
    Keeps (events.foldl Ledger.step {}) :=
  keeps_of_inOrder (InOrder.init.run hc h)

/-- A pass of the task that ends a small job. -/
def pass : List Event :=
  [.pick 0, .start true true, .receive 0, .put 1000, .check, .sync true, .close, .commit]

/-- A track of two points, which the task finds both at once. -/
def drawn : List Event :=
  [.write true true "/t" (HEADER ++ ascii "a" ++ CLOSE) .truncate 0 PRIO_NORMAL false,
    .write true true "/t" (ascii "b" ++ CLOSE) .appendSeek CLOSE.length PRIO_NORMAL false] ++
    pass ++ pass

/-- The file of two points in order. -/
theorem keeps_order_drawn : (drawn.foldl Ledger.step {}).writer.Idle ∧
    (drawn.foldl Ledger.step {}).writer.card.content "/t" =
      HEADER ++ ascii "a" ++ ascii "b" ++ CLOSE := by
  have hi : (drawn.foldl Ledger.step {}).writer.Idle := by decide +kernel
  have hc : ∀ e ∈ drawn, e.clean = true := by decide +kernel
  have hok : Allowed Ledger.step (fun l e => Sound l.writer e) {} drawn := by decide +kernel
  have hall : List.Forall₂ (fun text w => append "/t" text = some w) [ascii "b"]
      [⟨"/t", ascii "b" ++ CLOSE, .appendSeek, CLOSE.length, PRIO_NORMAL⟩] := .cons rfl .nil
  exact ⟨hi, (keeps_order hc hok).2 "/t" true (ascii "a") _ _ _ rfl hall (by decide +kernel)
    (by decide +kernel) hi⟩

/-- A track of three points: the last one comes to a slot that another job has left, in front of the
one before it. -/
def overtaken : List Event :=
  [.write true true "/t" (HEADER ++ ascii "a" ++ CLOSE) .truncate 0 PRIO_NORMAL false] ++ pass ++
    [.write true true "/x" (ascii "x") .truncate 0 PRIO_NORMAL false,
      .write true true "/t" (ascii "b" ++ CLOSE) .appendSeek CLOSE.length PRIO_NORMAL false] ++
    pass ++
    [.write true true "/t" (ascii "c" ++ CLOSE) .appendSeek CLOSE.length PRIO_NORMAL false] ++
    pass ++ pass

/-- The points of a track change their places. -/
theorem not_keeps_overtaken : (∀ e ∈ overtaken, e.clean = true) ∧
    (overtaken.foldl Ledger.step {}).writer.card.content "/t" =
      HEADER ++ ascii "a" ++ ascii "c" ++ ascii "b" ++ CLOSE ∧
    ¬ Keeps (overtaken.foldl Ledger.step {}) := by
  have hfile : (overtaken.foldl Ledger.step {}).writer.card.content "/t" =
      HEADER ++ ascii "a" ++ ascii "c" ++ ascii "b" ++ CLOSE := by decide +kernel
  refine ⟨by decide +kernel, hfile, fun h => ?_⟩
  have hall : List.Forall₂ (fun text w => append "/t" text = some w) [ascii "b", ascii "c"]
      [⟨"/t", ascii "b" ++ CLOSE, .appendSeek, CLOSE.length, PRIO_NORMAL⟩,
        ⟨"/t", ascii "c" ++ CLOSE, .appendSeek, CLOSE.length, PRIO_NORMAL⟩] :=
    .cons rfl (.cons rfl .nil)
  have hfile' := h.2 "/t" true (ascii "a") _ _ _ rfl hall (by decide +kernel) (by decide +kernel)
    (by decide +kernel)
  rw [hfile] at hfile'
  revert hfile'
  decide +kernel

end URSupreme.GpxTrack
