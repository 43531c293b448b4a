import URSupreme.Web.MapJobs

/-!
# Runs of the map jobs

Each task knows at every point what its destination holds, as long as no other job touches it. A job
that fails removes its destination, whether or not it has written to it, so that what was there
before is kept only where nothing was.
-/

namespace URSupreme.MapJobs
open Lib

/-! ## What is claimed -/

/-- A job that is done has left its archive, any other what was there before. -/
def Report.Honest (r : Report) : Prop :=
  if r.phase = .done then r.goal ≠ none ∧ r.left = r.goal else r.left = r.before

/-- The download has its destination open. -/
def Fetch.writes : Option Fetch → Bool
  | some (.loop _ _ _) => true
  | _ => false

/-- The extract has its destination open. -/
def Cut.writes : Option Cut → Bool
  | some (.head _) | some (.alloc _ _) | some (.range _ _ _) | some (.tile _ _ _ _ _)
  | some (.header _) => true
  | _ => false

/-- No job has damaged a stored layer. -/
structure Engines.Undamaged (s : Engines) : Prop where
  reports : ∀ r ∈ s.reports, r.Honest
  apart : Fetch.writes s.download.task = true → Cut.writes s.extract.task = true →
    s.download.dest ≠ s.extract.dest

/-! ## The steps that keep it -/

/-- A step of the download fails, or sees the cancel flag, when the old file is gone. -/
def fetchFails (d : Job Fetch) (r : Result) : Bool :=
  match d.task with
  | some (.mkdir _) | some (.openDest _) => r = .failed
  | some (.loop _ _ stalls) =>
    d.cancel || match r with
      | .readError => true
      | .nothing => stalls + 1 > STALL_LIMIT
      | .bytes n wrote => wrote < n
      | _ => false
  | _ => false

/-- A step of the extract fails, or sees the cancel flag. -/
def cutFails (e : Job Cut) (scan : Scan) (r : Result) : Bool :=
  match e.task with
  | some .resolve => e.url = [] && r = .failed
  | some .scan =>
    match scan with
    | .failed _ => true
    | .cancelled => e.cancel
    | .archive _ => false
  | some (.mkdir _) | some (.openDest _) | some (.alloc _ _) | some (.header _) => r = .failed
  | some (.range _ _ (_ :: _)) =>
    e.cancel || match r with
      | .failed => true
      | .response status _ => status ≠ 206
      | _ => false
  | some (.tile _ _ rest _ idle) =>
    rest ≠ [] && (e.cancel || match r with
      | .readError | .ended => true
      | .nothing => idle + 1 > STALL_LIMIT
      | .bytes n wrote => wrote < n
      | _ => false)
  | _ => false

/-- The writes of the extract that nothing checks are complete. -/
def writesWhole (e : Job Cut) (r : Result) : Bool :=
  match e.task, r with
  | some (.head a), .wrote counts =>
    counts = [127, a.root.length, a.metadata.length, a.leaves.length]
  | some (.header _), .wrote counts => counts = [127]
  | _, _ => true

/-- The request starts a download. -/
def Engines.starts (s : Engines) (b : DownloadPost) : Bool :=
  b.auth && isLink b.url && b.card && s.download.phase ≠ .running && b.spawned

/-- A download starts beside an extract only with files of its own; a job fails only where its
destination held nothing; and the unchecked writes are complete. -/
def Engines.keeps (s : Engines) : Event → Bool
  | .postDownload b =>
    !(s.starts b && s.extract.phase.active) || (b.path ≠ s.extract.dest &&
      (s.extract.sidecar = none || b.path ≠ sidecarPath s.extract.dest))
  | .download r => !fetchFails s.download r || s.download.before = none
  | .extract scan r =>
    (!cutFails s.extract scan r || s.extract.before = none) && writesWhole s.extract r
  | _ => true

/-! ## The files -/

variable {files : Files} {path p : Path} {data c : Bytes} {pos : Nat}

lemma remove_of_ne (h : p ≠ path) : remove files path p = files p := Function.update_of_ne h _ _

lemma remove_self : remove files path path = none := Function.update_self ..

lemma create_of_ne (h : p ≠ path) : create files path p = files p := Function.update_of_ne h _ _

lemma create_self : create files path path = some [] := Function.update_self ..

lemma writeAt_of_ne (h : p ≠ path) : writeAt files path pos data p = files p := by
  unfold writeAt
  cases files path with
  | none => rfl
  | some c => exact Function.update_of_ne h _ _

/-- A write at the end of the file appends. -/
lemma writeAt_end (h : files path = some c) (hpos : pos = c.length) :
    writeAt files path pos data path = some (c ++ data) := by
  unfold writeAt
  rw [h, hpos]
  dsimp only
  rw [Function.update_self, List.take_length, List.drop_eq_nil_of_le (by omega), List.append_nil]

/-- A write at the start of the file replaces what it covers. -/
lemma writeAt_start {old rest : Bytes} (h : files path = some (old ++ rest))
    (hlen : data.length = old.length) : writeAt files path 0 data path = some (data ++ rest) := by
  unfold writeAt
  rw [h]
  dsimp only
  rw [Function.update_self, List.take_zero, Nat.zero_add, hlen, List.drop_left, List.nil_append]

/-! ## A job and its destination -/

section job
variable {κ : Type} {files' : Files} {j : Job κ} {pc : κ} {t : Files × Job κ}

/-- The files a job may change. -/
def Job.Touches (j : Job κ) (p : Path) : Prop :=
  p = j.dest ∨ j.sidecar ≠ none ∧ p = sidecarPath j.dest

/-- What is known of a task: how its job stands while it runs, and what its destination holds at
each point, next to what it held before and what it is to hold. -/
structure Outline (κ : Type) where
  up : Phase → Path → Prop
  holds : (before goal content : Option Bytes) → κ → Prop

variable {o : Outline κ}

def Outline.Knows (o : Outline κ) (j : Job κ) (content : Option Bytes) : Prop :=
  match j.task with
  | none => j.phase.active = false
  | some pc => o.up j.phase j.dest ∧ o.holds j.before j.goal content pc

/-- A step of a task keeps to the files of its job, and its outline holds again. -/
structure Outline.Step (o : Outline κ) (files : Files) (j : Job κ) (t : Files × Job κ) : Prop where
  dest : t.2.dest = j.dest
  sidecar : t.2.sidecar = j.sidecar
  others : ∀ p, ¬ j.Touches p → t.1 p = files p
  knows : o.Knows t.2 (t.1 j.dest)

lemma Outline.Step.change (h : o.up j.phase j.dest) (ho : ∀ p ≠ j.dest, files' p = files p)
    (hpc : o.holds j.before j.goal (files' j.dest) pc) : o.Step files j (files', j.goto pc) :=
  ⟨rfl, rfl, fun p hp => ho p fun he => hp (.inl he), h, hpc⟩

lemma Outline.Step.goto (h : o.up j.phase j.dest)
    (hpc : o.holds j.before j.goal (files j.dest) pc) : o.Step files j (files, j.goto pc) :=
  .change h (fun _ _ => rfl) hpc

lemma Outline.Step.same (h : o.up j.phase j.dest) (ht : j.task = some pc)
    (hpc : o.holds j.before j.goal (files j.dest) pc) : o.Step files j (files, j) := by
  refine ⟨rfl, rfl, fun _ _ => rfl, ?_⟩
  rw [Outline.Knows, ht]
  exact ⟨h, hpc⟩

/-- What a job leaves that ends in this phase. -/
def Ended (before goal content : Option Bytes) (phase : Phase) : Prop :=
  phase.active = false ∧ if phase = .done then goal ≠ none ∧ content = goal else content = before

end job

/-! ## The download -/

/-- What the destination holds where the task stands. -/
def Fetch.Holds (before goal content : Option Bytes) : Fetch → Prop
  | .alloc | .card | .httpInit | .connect | .headers => content = before
  | .fresh body => content = before ∧ goal = some body
  | .mkdir body | .openDest body => content = none ∧ goal = some body
  | .loop body written _ =>
    content = some (body.take written) ∧ written ≤ body.length ∧ goal = some body
  | .finish phase _ removeDest =>
    if removeDest then (phase.active = false ∧ phase ≠ .done) ∧ before = none
    else Ended before goal content phase
  | .publish phase _ => Ended before goal content phase

def Fetch.outline : Outline Fetch where
  up phase dest := phase = .running ∧ dest ≠ []
  holds := Fetch.Holds

section download
variable {files' : Files} {d : Job Fetch} {r : Result} {body : Bytes} {written stalls : Nat}
  {pc : Fetch}

/-- A failure that leaves the destination. -/
lemma fail_step (h : Fetch.outline.up d.phase d.dest) {error : String}
    (hb : files d.dest = d.before) : Fetch.outline.Step files d (files, fail d error false) :=
  .goto h ⟨rfl, hb⟩

/-- A failure that removes it. -/
lemma failRemove_step (h : Fetch.outline.up d.phase d.dest) {error : String}
    (ho : ∀ p ≠ d.dest, files' p = files p) (hb : d.before = none) :
    Fetch.outline.Step files d (files', fail d error true) :=
  .change h ho ⟨⟨rfl, nofun⟩, hb⟩

lemma check_step (h : Fetch.outline.up d.phase d.dest) (ht : d.task = some pc)
    (hpc : pc.Holds d.before d.goal (files d.dest)) {next : Fetch}
    (hn : next.Holds d.before d.goal (files d.dest)) {error : String}
    (hb : r = .failed → files d.dest = d.before) :
    Fetch.outline.Step files d (check files d next error r) := by
  cases r with
  | ok => exact .goto h hn
  | failed => exact fail_step h (hb rfl)
  | _ => exact .same h ht hpc

/-- One round of the reading loop. -/
lemma readLoop_step (h : Fetch.outline.up d.phase d.dest)
    (ht : d.task = some (.loop body written stalls))
    (hpc : (Fetch.loop body written stalls).Holds d.before d.goal (files d.dest))
    (hc : d.cancel = false) (hb : fetchFails d r = true → d.before = none) :
    Fetch.outline.Step files d (readLoop files d body written stalls r) := by
  obtain ⟨hcontent, hle, hgoal⟩ := hpc
  rw [fetchFails, ht, hc] at hb
  cases r with
  | readError => exact failRemove_step h (fun _ _ => rfl) (hb rfl)
  | ended =>
    dsimp only [readLoop]
    split
    next he =>
      refine .goto h ⟨rfl, ?_⟩
      rw [if_pos rfl, hgoal, hcontent, he, List.take_length]
      exact ⟨Option.some_ne_none _, rfl⟩
    next => exact .same h ht ⟨hcontent, hle, hgoal⟩
  | nothing =>
    dsimp only [readLoop]
    split
    next hs => exact failRemove_step h (fun _ _ => rfl) (hb (decide_eq_true hs))
    next => exact .goto h ⟨hcontent, hle, hgoal⟩
  | bytes n wrote =>
    dsimp only [readLoop]
    split
    next hn =>
      split
      next hw => exact failRemove_step h (fun _ hp => writeAt_of_ne hp) (hb (decide_eq_true hw))
      next hw =>
        refine .change h (fun _ hp => writeAt_of_ne hp) ⟨?_, hn.2.2, hgoal⟩
        have hlen : written = (body.take written).length := by
          rw [List.length_take, Nat.min_eq_left hle]
        have hall : ((body.drop written).take n).take wrote = (body.drop written).take n :=
          List.take_of_length_le (by rw [List.length_take]; omega)
        rw [writeAt_end hcontent hlen, hall, ← List.take_add]
    next => exact .same h ht ⟨hcontent, hle, hgoal⟩
  | _ => exact .same h ht ⟨hcontent, hle, hgoal⟩

/-- A step of the download task. -/
lemma downloadStep_step (h : Fetch.outline.Knows d (files d.dest))
    (hb : fetchFails d r = true → d.before = none) :
    Fetch.outline.Step files d (downloadStep files d r) := by
  unfold downloadStep
  cases ht : d.task with
  | none => exact ⟨rfl, rfl, fun _ _ => rfl, h⟩
  | some pc =>
    rw [Outline.Knows, ht] at h
    obtain ⟨hup, hpc⟩ := h
    cases pc <;> dsimp only
    case alloc | card | httpInit | connect =>
      refine check_step hup ht hpc ?_ fun _ => hpc
      exact hpc
    case headers =>
      cases r with
      | response status body =>
        dsimp only
        split
        next => exact fail_step hup hpc
        next => exact ⟨rfl, rfl, fun _ _ => rfl, hup, hpc, rfl⟩
      | _ => exact .same hup ht hpc
    case fresh body => exact .change hup (fun _ hp => remove_of_ne hp) ⟨remove_self, hpc.2⟩
    case mkdir body =>
      refine check_step hup ht hpc ?_ fun he => ?_
      · exact hpc
      rw [fetchFails, ht] at hb
      rw [hpc.1, hb (decide_eq_true he)]
    case openDest body =>
      rw [fetchFails, ht] at hb
      cases r with
      | ok => exact .change hup (fun _ hp => create_of_ne hp) ⟨create_self, Nat.zero_le _, hpc.2⟩
      | failed =>
        refine fail_step hup ?_
        rw [hpc.1, hb rfl]
      | _ => exact .same hup ht hpc
    case loop body written stalls =>
      split
      next hc =>
        rw [fetchFails, ht, hc] at hb
        exact .goto hup ⟨⟨rfl, nofun⟩, hb rfl⟩
      next hc => exact readLoop_step hup ht hpc (Bool.eq_false_of_not_eq_true hc) hb
    case finish phase error removeDest =>
      cases removeDest with
      | true =>
        obtain ⟨⟨hin, hne⟩, hbefore⟩ := hpc
        rw [if_pos ⟨rfl, hup.2⟩]
        refine .change hup (fun _ hp => remove_of_ne hp) ⟨hin, ?_⟩
        rw [if_neg hne, remove_self, hbefore]
      | false => exact .goto hup hpc
    case publish phase error => exact ⟨rfl, rfl, fun _ _ => rfl, hpc.1⟩

/-- What the download publishes is honest. -/
lemma downloadStep_report (h : Fetch.outline.Knows d (files d.dest))
    (hp : Fetch.publishes d.task = true) :
    ((downloadStep files d r).2.report (downloadStep files d r).1).Honest := by
  unfold downloadStep
  cases ht : d.task with
  | none =>
    rw [ht] at hp
    cases hp
  | some pc =>
    rw [ht] at hp
    rw [Outline.Knows, ht] at h
    cases pc with
    | publish phase error => exact h.2.2
    | _ => cases hp

end download

/-! ## The extract -/

lemma sidecarPath_ne (stem : Path) : sidecarPath (stem ++ pmtilesExt) ≠ stem ++ pmtilesExt := by
  intro h
  have hlen := congrArg List.length h
  rw [sidecarPath, List.length_append, List.length_append, Nat.add_sub_cancel,
    List.take_left] at hlen
  exact absurd (Nat.add_left_cancel hlen) (by decide)

/-- The archive under its placeholder header, as far as the tiles `t`. -/
def Archive.placed (a : Archive) (t : Bytes) : Bytes :=
  List.replicate 127 0 ++ (a.sections.flatten ++ t)

/-- The file is written up to `pos`, and the tiles `rest` are still to come. -/
def Archive.Copied (a : Archive) (content : Option Bytes) (pos : Nat) (rest : Bytes) : Prop :=
  ∃ t, content = some (a.placed t) ∧ pos = (a.placed t).length ∧ t ++ rest = a.ranges.flatten

/-- What the destination holds where the task stands. -/
def Cut.Holds (before goal content : Option Bytes) : Cut → Prop
  | .resolve | .scan => content = before
  | .fresh a => content = before ∧ goal = some a.bytes
  | .mkdir a | .openDest a => content = none ∧ goal = some a.bytes
  | .head a => content = some [] ∧ goal = some a.bytes
  | .alloc a pos => a.Copied content pos a.ranges.flatten ∧ goal = some a.bytes
  | .range a pos left => a.Copied content pos left.flatten ∧ goal = some a.bytes
  | .tile a pos rest left _ => a.Copied content pos (rest ++ left.flatten) ∧ goal = some a.bytes
  | .header a => content = some (a.placed a.ranges.flatten) ∧ goal = some a.bytes
  | .sidecar => goal ≠ none ∧ content = goal
  | .finish phase _ => (phase.active = false ∧ phase ≠ .done) ∧ before = none
  | .publish phase _ => Ended before goal content phase

def Cut.outline : Outline Cut where
  up phase dest := phase.active = true ∧ ∃ stem, dest = stem ++ pmtilesExt
  holds := Cut.Holds

section extract
variable {files' : Files} {e : Job Cut} {scan : Scan} {r : Result} {a : Archive} {rest : Bytes}
  {left : List Bytes} {idle : Nat} {content : Option Bytes}

/-- The head is the placeholder and the sections, where every write is complete. -/
lemma Archive.head_whole :
    a.head [127, a.root.length, a.metadata.length, a.leaves.length] = a.placed [] := by
  simp only [Archive.head, Archive.placed, Archive.sections, List.zipWith_cons_cons,
    List.zipWith_nil_left, List.flatten_cons, List.flatten_nil, List.take_length, List.append_nil]
  rfl

/-- The next tile bytes go to the end of the file. -/
lemma Archive.Copied.write {path : Path} {n : Nat} (h : a.Copied (files path) pos (rest ++ c))
    (hn : n ≤ rest.length) :
    a.Copied (writeAt files path pos (rest.take n) path) (pos + n) (rest.drop n ++ c) := by
  obtain ⟨t, hcontent, hpos, hrest⟩ := h
  have hplaced : a.placed t ++ rest.take n = a.placed (t ++ rest.take n) := by
    rw [Archive.placed, Archive.placed, List.append_assoc, List.append_assoc]
  refine ⟨t ++ rest.take n, ?_, ?_, ?_⟩
  · rw [writeAt_end hcontent hpos, hplaced]
  · rw [← hplaced, List.length_append, List.length_take_of_le hn, hpos]
  · rw [List.append_assoc, ← List.append_assoc (rest.take n), List.take_append_drop, hrest]

/-- The real header goes over the placeholder. -/
lemma Archive.write_header {path : Path} (h : files path = some (a.placed a.ranges.flatten)) :
    writeAt files path 0 a.header path = some a.bytes :=
  writeAt_start h (by rw [a.length_header, List.length_replicate])

/-- A failure, which will remove the destination. -/
lemma giveUp_step (h : Cut.outline.up e.phase e.dest) {error : String}
    (ho : ∀ p ≠ e.dest, files' p = files p) (hb : e.before = none) :
    Cut.outline.Step files e (files', giveUp e error) :=
  .change h ho ⟨⟨rfl, nofun⟩, hb⟩

/-- The end of a cancelled task. -/
lemma cancel_step (h : Cut.outline.up e.phase e.dest) (hb : e.before = none) :
    Cut.outline.Step files e (files, e.goto (.finish .cancelled none)) :=
  .goto h ⟨⟨rfl, nofun⟩, hb⟩

/-- One round of the loop over a source range. -/
lemma tileLoop_step (h : Cut.outline.up e.phase e.dest)
    (ht : e.task = some (.tile a pos rest left idle))
    (hpc : (Cut.tile a pos rest left idle).Holds e.before e.goal (files e.dest))
    (hrest : rest ≠ []) (hc : e.cancel = false)
    (hb : cutFails e scan r = true → e.before = none) :
    Cut.outline.Step files e (tileLoop files e a pos rest left idle r) := by
  unfold cutFails at hb
  rw [ht] at hb
  dsimp only at hb
  rw [hc] at hb
  rw [decide_eq_true hrest, Bool.true_and, Bool.false_or] at hb
  cases r with
  | readError => exact giveUp_step h (fun _ _ => rfl) (hb rfl)
  | ended => exact giveUp_step h (fun _ _ => rfl) (hb rfl)
  | nothing =>
    dsimp only [tileLoop]
    split
    next hs => exact giveUp_step h (fun _ _ => rfl) (hb (decide_eq_true hs))
    next => exact .goto h hpc
  | bytes n wrote =>
    dsimp only [tileLoop]
    split
    next hn =>
      split
      next hw => exact giveUp_step h (fun _ hp => writeAt_of_ne hp) (hb (decide_eq_true hw))
      next hw =>
        have hall : (rest.take n).take wrote = rest.take n :=
          List.take_of_length_le (by rw [List.length_take]; omega)
        rw [hall]
        exact .change h (fun _ hp => writeAt_of_ne hp) ⟨hpc.1.write hn.2.2, hpc.2⟩
    next => exact .same h ht hpc
  | _ => exact .same h ht hpc

/-- A step of the extract task. -/
lemma extractStep_step (h : Cut.outline.Knows e (files e.dest))
    (hb : cutFails e scan r = true → e.before = none) (hw : writesWhole e r = true) :
    Cut.outline.Step files e (extractStep files e scan r) := by
  unfold extractStep
  cases ht : e.task with
  | none => exact ⟨rfl, rfl, fun _ _ => rfl, h⟩
  | some pc =>
    rw [Outline.Knows, ht] at h
    have hkeep := hb
    unfold cutFails at hb
    rw [ht] at hb
    unfold writesWhole at hw
    rw [ht] at hw
    obtain ⟨hup, hpc⟩ := h
    cases pc <;> dsimp only at hb hw ⊢
    case resolve =>
      split
      next => exact .goto hup hpc
      next hurl =>
        cases r with
        | ok => exact .goto hup hpc
        | failed =>
          refine giveUp_step hup (fun _ _ => rfl) (hb ?_)
          rw [decide_eq_true (not_not.mp hurl)]
          rfl
        | _ => exact .same hup ht hpc
    case scan =>
      cases scan with
      | failed err => exact giveUp_step hup (fun _ _ => rfl) (hb rfl)
      | cancelled =>
        dsimp only
        split
        next hc => exact cancel_step hup (hb hc)
        next => exact .same hup ht hpc
      | archive a => exact ⟨rfl, rfl, fun _ _ => rfl, ⟨rfl, hup.2⟩, hpc, rfl⟩
    case fresh a => exact .change hup (fun _ hp => remove_of_ne hp) ⟨remove_self, hpc.2⟩
    case mkdir a =>
      cases r with
      | ok => exact .goto hup hpc
      | failed => exact giveUp_step hup (fun _ _ => rfl) (hb rfl)
      | _ => exact .same hup ht hpc
    case openDest a =>
      cases r with
      | ok => exact .change hup (fun _ hp => create_of_ne hp) ⟨create_self, hpc.2⟩
      | failed => exact giveUp_step hup (fun _ _ => rfl) (hb rfl)
      | _ => exact .same hup ht hpc
    case head a =>
      cases r with
      | wrote counts =>
        obtain rfl := of_decide_eq_true hw
        dsimp only
        rw [Archive.head_whole]
        refine .change hup (fun _ hp => writeAt_of_ne hp) ⟨⟨[], ?_, rfl, rfl⟩, hpc.2⟩
        exact writeAt_end hpc.1 rfl
      | _ => exact .same hup ht hpc
    case alloc a pos =>
      cases r with
      | ok => exact .goto hup hpc
      | failed => exact giveUp_step hup (fun _ _ => rfl) (hb rfl)
      | _ => exact .same hup ht hpc
    case range a pos left =>
      cases left with
      | nil =>
        obtain ⟨⟨t, hcontent, -, hrest⟩, hgoal⟩ := hpc
        rw [List.flatten_nil, List.append_nil] at hrest
        exact .goto hup ⟨hrest ▸ hcontent, hgoal⟩
      | cons rg left =>
        dsimp only at hb ⊢
        split
        next hc => exact cancel_step hup (hb (by rw [hc, Bool.true_or]))
        next hc =>
          rw [Bool.eq_false_of_not_eq_true hc, Bool.false_or] at hb
          cases r with
          | failed => exact giveUp_step hup (fun _ _ => rfl) (hb rfl)
          | response status body =>
            dsimp only
            split
            next hs => exact giveUp_step hup (fun _ _ => rfl) (hb (decide_eq_true hs))
            next => exact .goto hup hpc
          | _ => exact .same hup ht hpc
    case tile a pos rest left idle =>
      split
      next hrest =>
        subst hrest
        exact .goto hup hpc
      next hrest =>
        split
        next hc => exact cancel_step hup (hb (by rw [decide_eq_true hrest, hc]; rfl))
        next hc =>
          exact tileLoop_step hup ht hpc hrest (Bool.eq_false_of_not_eq_true hc) hkeep
    case header a =>
      cases r with
      | failed => exact giveUp_step hup (fun _ _ => rfl) (hb rfl)
      | wrote counts =>
        obtain rfl := of_decide_eq_true hw
        have hall : a.header.take ([127].headD 0) = a.header :=
          List.take_of_length_le a.length_header.le
        dsimp only
        rw [hall]
        refine .change hup (fun _ hp => writeAt_of_ne hp) ?_
        rw [Archive.write_header hpc.1, hpc.2]
        exact ⟨Option.some_ne_none _, rfl⟩
      | _ => exact .same hup ht hpc
    case sidecar =>
      have hend : Ended e.before e.goal e.goal .done := by
        refine ⟨rfl, ?_⟩
        rw [if_pos rfl]
        exact ⟨hpc.1, rfl⟩
      cases hs : e.sidecar with
      | none => exact .goto hup (hpc.2 ▸ hend)
      | some text =>
        cases r with
        | failed => exact .goto hup (hpc.2 ▸ hend)
        | wrote counts =>
          obtain ⟨stem, hdest⟩ := hup.2
          have hne : e.dest ≠ sidecarPath e.dest := by
            rw [hdest]
            exact (sidecarPath_ne stem).symm
          refine ⟨rfl, rfl, fun p hp => ?_, hup, ?_⟩
          · refine Function.update_of_ne (fun he => hp (.inr ⟨?_, he⟩)) _ _
            rw [hs]
            exact Option.some_ne_none _
          · dsimp only
            rw [Function.update_of_ne hne, hpc.2]
            exact hend
        | _ => exact .same hup ht hpc
    case finish phase error =>
      obtain ⟨stem, hdest⟩ := hup.2
      have hne : e.dest ≠ [] := by
        rw [hdest]
        exact List.append_ne_nil_of_right_ne_nil _ (by decide)
      obtain ⟨⟨hin, hdone⟩, hbefore⟩ := hpc
      rw [if_pos ⟨hdone, hne⟩]
      refine .change hup (fun _ hp => remove_of_ne hp) ⟨hin, ?_⟩
      rw [if_neg hdone, remove_self, hbefore]
    case publish phase error => exact ⟨rfl, rfl, fun _ _ => rfl, hpc.1⟩

/-- What the extract publishes is honest. -/
lemma extractStep_report (h : Cut.outline.Knows e (files e.dest))
    (hp : Cut.publishes e.task = true) :
    ((extractStep files e scan r).2.report (extractStep files e scan r).1).Honest := by
  unfold extractStep
  cases ht : e.task with
  | none =>
    rw [ht] at hp
    cases hp
  | some pc =>
    rw [ht] at hp
    rw [Outline.Knows, ht] at h
    cases pc with
    | publish phase error => exact h.2.2
    | _ => cases hp

end extract

/-! ## Both engines -/

section job
variable {κ : Type} {j : Job κ} {pc : κ} {t : Files × Job κ} {o : Outline κ} {phase : Phase}
  {url dest : Path} {sidecar : Option Bytes} {spawned published : Bool} {s : Engines}

lemma Outline.Step.touches (h : o.Step files j t) : t.2.Touches p ↔ j.Touches p := by
  rw [Job.Touches, Job.Touches, h.dest, h.sidecar]

/-- A job whose task runs is up. -/
lemma Outline.Knows.up {content : Option Bytes} (h : o.Knows j content) (ht : j.task ≠ none) :
    o.up j.phase j.dest := by
  unfold Outline.Knows at h
  cases hj : j.task with
  | none => exact absurd hj ht
  | some pc =>
    rw [hj] at h
    exact h.1

/-- Another job keeps what is known of this one, where it does not touch its destination. -/
lemma Outline.Knows.frame {content content' : Option Bytes} (h : o.Knows j content)
    (hc : j.task ≠ none → content' = content) : o.Knows j content' := by
  unfold Outline.Knows at h ⊢
  cases hj : j.task with
  | none =>
    rw [hj] at h
    exact h
  | some pc =>
    rw [hj] at h
    rw [hc (by rw [hj]; exact Option.some_ne_none pc)]
    exact h

/-- Of two jobs that run, neither changes the destination of the other. -/
def Job.Apart {κ' : Type} (j : Job κ) (k : Job κ') : Prop :=
  j.task ≠ none → k.task ≠ none → ¬ j.Touches k.dest ∧ ¬ k.Touches j.dest

/-- A step of one job, beside another. -/
lemma Outline.Step.beside {κ' : Type} {k : Job κ'} {o' : Outline κ'} (h : o.Step files j t)
    (hidle : j.task = none → t = (files, j)) (hk : o'.Knows k (files k.dest)) (ha : j.Apart k) :
    o.Knows t.2 (t.1 t.2.dest) ∧ o'.Knows k (t.1 k.dest) ∧ t.2.Apart k := by
  refine ⟨?_, ?_, fun hj hr => ?_⟩
  · rw [h.dest]
    exact h.knows
  · refine hk.frame fun hr => ?_
    cases hj : j.task with
    | none => rw [hidle hj]
    | some pc => exact h.others _ (ha (by rw [hj]; exact Option.some_ne_none pc) hr).1
  · have hold : j.task ≠ none := fun hn => hj (by rw [hidle hn]; exact hn)
    obtain ⟨h1, h2⟩ := ha hold hr
    refine ⟨fun ht => h1 (h.touches.mp ht), ?_⟩
    rw [h.dest]
    exact h2

/-- A job starts with what its destination holds. -/
lemma Job.start_knows (h : o.up phase dest) (hpc : o.holds (files dest) none (files dest) pc) :
    o.Knows (j.start files phase pc url dest sidecar spawned)
      (files (j.start files phase pc url dest sidecar spawned).dest) := by
  cases spawned with
  | true => exact ⟨h, hpc⟩
  | false => exact rfl

/-- A job that was not spawned has changed nothing. -/
lemma Job.start_report :
    ((j.start files phase pc url dest sidecar false).report files).Honest := rfl

lemma Engines.note_honest (h : ∀ r ∈ s.reports, r.Honest)
    (hp : published = true → (j.report files).Honest) :
    ∀ r ∈ s.note published files j, r.Honest := by
  cases published with
  | false => exact h
  | true =>
    intro r hr
    rcases List.mem_append.mp hr with hr | hr
    · exact h r hr
    · obtain rfl := List.mem_singleton.mp hr
      exact hp rfl

end job

section engines
variable {s : Engines} {ev : Event}

lemma downloadStep_idle {d : Job Fetch} {r : Result} (h : d.task = none) :
    downloadStep files d r = (files, d) := by
  unfold downloadStep
  rw [h]

lemma extractStep_idle {e : Job Cut} {scan : Scan} {r : Result} (h : e.task = none) :
    extractStep files e scan r = (files, e) := by
  unfold extractStep
  rw [h]

lemma DownloadPost.path_ne_nil (b : DownloadPost) : b.path ≠ [] := by
  unfold DownloadPost.path sanitizeFile
  split
  next => decide
  next hd =>
    split
    next => decide
    next => exact hd

lemma ExtractPost.path_eq (b : ExtractPost) : ∃ stem, b.path = stem ++ pmtilesExt := by
  unfold ExtractPost.path
  split
  next => exact ⟨layersDir ++ world, rfl⟩
  next => exact ⟨_, rfl⟩

/-- A request refused, or a job started. -/
lemma postDownload_cases (s : Engines) (b : DownloadPost) :
    (s.postDownload b).1 = s ∨ (b.spawned = true → s.starts b = true) ∧
      let download := s.download.start s.files .running .alloc b.url b.path none b.spawned
      (s.postDownload b).1 = { s with
        download, reports := s.note (!b.spawned) s.files download } := by
  unfold Engines.postDownload
  split
  next => exact .inl rfl
  next hauth =>
    split
    next => exact .inl rfl
    next hlink =>
      split
      next => exact .inl rfl
      next hcard =>
        split
        next => exact .inl rfl
        next hphase =>
          refine .inr ⟨fun hs => ?_, ?_⟩
          · rw [Engines.starts, Bool.not_not_eq.mp hauth, Bool.not_not_eq.mp hlink,
              Bool.not_not_eq.mp hcard, decide_eq_true hphase, hs]
            rfl
          · cases hs : b.spawned with
            | true => rfl
            | false => rfl

lemma postExtract_cases (s : Engines) (b : ExtractPost) :
    (s.postExtract b).1 = s ∨ s.download.phase ≠ .running ∧ ∃ sidecar,
      let extract := s.extract.start s.files .scanning .resolve b.url b.path sidecar b.spawned
      (s.postExtract b).1 = { s with extract, reports := s.note (!b.spawned) s.files extract } := by
  unfold Engines.postExtract
  split
  next => exact .inl rfl
  next =>
    split
    next => exact .inl rfl
    next =>
      split
      next => exact .inl rfl
      next =>
        cases b.geometry with
        | error code => exact .inl rfl
        | ok sidecar =>
          dsimp only
          split
          next => exact .inl rfl
          next =>
            split
            next => exact .inl rfl
            next hbusy =>
              refine .inr ⟨fun hr => hbusy (.inl hr), sidecar, ?_⟩
              cases hs : b.spawned with
              | true => rfl
              | false => rfl

/-- Both tasks know their destinations, and neither changes that of the other. -/
structure Engines.Inv (s : Engines) : Prop where
  download : Fetch.outline.Knows s.download (s.files s.download.dest)
  extract : Cut.outline.Knows s.extract (s.files s.extract.dest)
  apart : s.download.Apart s.extract
  reports : ∀ r ∈ s.reports, r.Honest

lemma Engines.Inv.start : Engines.Inv { files } where
  download := rfl
  extract := rfl
  apart := fun h => absurd rfl h
  reports := fun _ hr => absurd hr List.not_mem_nil

lemma Engines.Inv.postDownload {b : DownloadPost} (h : s.Inv)
    (hok : s.keeps (.postDownload b) = true) : (s.postDownload b).1.Inv := by
  rcases postDownload_cases s b with he | ⟨hstarts, he⟩
  · rw [he]
    exact h
  rw [he]
  refine ⟨Job.start_knows ⟨rfl, b.path_ne_nil⟩ rfl, h.extract, fun hd hx => ?_,
    Engines.note_honest h.reports fun hs => ?_⟩
  · have hspawned : b.spawned = true := by
      cases hs : b.spawned with
      | true => rfl
      | false => exact absurd (by rw [hs]; rfl) hd
    rw [Engines.keeps, hstarts hspawned, (h.extract.up hx).1, Bool.and_true, Bool.not_true,
      Bool.false_or, Bool.and_eq_true] at hok
    have hdest := of_decide_eq_true hok.1
    rw [hspawned]
    refine ⟨?_, ?_⟩
    · rintro (ht | ⟨hside, -⟩)
      · exact hdest ht.symm
      · exact hside rfl
    · rintro (ht | ⟨hside, ht⟩)
      · exact hdest ht
      · rcases Bool.or_eq_true_iff.mp hok.2 with hn | hn
        · exact hside (of_decide_eq_true hn)
        · exact of_decide_eq_true hn ht
  · rw [Bool.not_eq_true'] at hs
    rw [hs]
    exact Job.start_report

lemma Engines.Inv.postExtract {b : ExtractPost} (h : s.Inv) : (s.postExtract b).1.Inv := by
  rcases postExtract_cases s b with he | ⟨hphase, sidecar, he⟩
  · rw [he]
    exact h
  rw [he]
  refine ⟨h.download, Job.start_knows ⟨rfl, b.path_eq⟩ rfl, fun hd => ?_,
    Engines.note_honest h.reports fun hs => ?_⟩
  · exact absurd (h.download.up hd).1 hphase
  · rw [Bool.not_eq_true'] at hs
    rw [hs]
    exact Job.start_report

lemma Engines.Inv.downloadStep {r : Result} (h : s.Inv) (hok : s.keeps (.download r) = true) :
    (s.step (.download r)).Inv := by
  have hb : fetchFails s.download r = true → s.download.before = none := by
    intro hf
    rw [Engines.keeps, hf] at hok
    exact of_decide_eq_true hok
  obtain ⟨hd, hx, ha⟩ :=
    (downloadStep_step h.download hb).beside downloadStep_idle h.extract h.apart
  exact ⟨hd, hx, ha, Engines.note_honest h.reports fun hp => downloadStep_report h.download hp⟩

lemma Engines.Inv.extractStep {scan : Scan} {r : Result} (h : s.Inv)
    (hok : s.keeps (.extract scan r) = true) : (s.step (.extract scan r)).Inv := by
  obtain ⟨hok, hw⟩ := Bool.and_eq_true_iff.mp hok
  have hb : cutFails s.extract scan r = true → s.extract.before = none := by
    intro hf
    rw [hf] at hok
    exact of_decide_eq_true hok
  obtain ⟨hx, hd, ha⟩ := (extractStep_step h.extract hb hw).beside extractStep_idle h.download
    fun hx hd => (h.apart hd hx).symm
  exact ⟨hd, hx, fun hd hx => (ha hx hd).symm,
    Engines.note_honest h.reports fun hp => extractStep_report h.extract hp⟩

lemma Engines.Inv.step (h : s.Inv) (hok : s.keeps ev = true) : (s.step ev).Inv := by
  cases ev with
  | postDownload b => exact h.postDownload hok
  | cancelDownload auth =>
    dsimp only [Engines.step, Engines.cancelDownload]
    split
    next => exact h
    next =>
      split
      next => exact ⟨h.download, h.extract, h.apart, h.reports⟩
      next => exact h
  | postExtract b => exact h.postExtract
  | cancelExtract auth =>
    dsimp only [Engines.step, Engines.cancelExtract]
    split
    next => exact h
    next =>
      split
      next => exact ⟨h.download, h.extract, h.apart, h.reports⟩
      next => exact h
  | download r => exact h.downloadStep hok
  | extract scan r => exact h.extractStep hok

/-- A task that writes runs. -/
lemma Fetch.writes_ne {t : Option Fetch} (h : Fetch.writes t = true) : t ≠ none := by
  rintro rfl
  cases h

lemma Cut.writes_ne {t : Option Cut} (h : Cut.writes t = true) : t ≠ none := by
  rintro rfl
  cases h

lemma Engines.Inv.undamaged (h : s.Inv) : s.Undamaged where
  reports := h.reports
  apart := fun hd hx he =>
    (h.apart (Fetch.writes_ne hd) (Cut.writes_ne hx)).2 (.inl he)

/-- **No stored layer is damaged** in a run whose steps all keep to the condition, from any
files. -/
theorem undamaged_of_keeps
    (h : Reach Engines.step (fun s ev => s.keeps ev = true) { files } s) : s.Undamaged :=
  (h.invariant Engines.Inv.start fun hok h => Engines.Inv.step h hok).undamaged

/-- A file of two bytes is downloaded beside an extract, which is cancelled. -/
def beside : List Event :=
  [.postExtract { url := https, maxzoom := 4, geometry := .ok none, areaHash := [0x61] },
    .postDownload { url := http }, .download .ok, .download .ok, .download .ok, .download .ok,
    .download (.response 200 [1, 2]), .download .ok, .download .ok, .download .ok,
    .extract .cancelled .ok, .download (.bytes 2 2), .cancelExtract true,
    .extract .cancelled .ok, .download .ended, .extract .cancelled .ok, .download .ok,
    .extract .cancelled .ok, .download .ok]

theorem undamaged_of_keeps_beside :
    (beside.foldl Engines.step { files := fun _ => none }).Undamaged ∧
      (beside.foldl Engines.step { files := fun _ => none }).reports =
        [⟨.cancelled, none, none, none⟩, ⟨.done, none, some [1, 2], some [1, 2]⟩] :=
  ⟨undamaged_of_keeps (Reach.init.run (by decide)), by decide⟩

/-- The world layer is to be cut anew, and the header of the source cannot be fetched. -/
def refetch : List Event :=
  [.postExtract { url := https, maxzoom := 4, geometry := .ok none, toWorld := true,
                  areaHash := [] },
    .extract .cancelled .ok, .extract (.failed .fetchHeader) .ok, .extract .cancelled .ok,
    .extract .cancelled .ok]

/-- The extract fails before it writes, and the layer is gone. -/
theorem not_undamaged_refetch :
    ¬ (refetch.foldl Engines.step
        { files := Function.update (fun _ => none) (layerFile world) (some [1]) }).Undamaged := by
  intro h
  have hr : (⟨.error, some [1], none, none⟩ : Report) ∈ (refetch.foldl Engines.step
      { files := Function.update (fun _ => none) (layerFile world) (some [1]) }).reports := by
    decide
  exact absurd (h.reports _ hr) (Option.some_ne_none _).symm

end engines

end URSupreme.MapJobs
