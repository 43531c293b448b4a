import URSupreme.Lib.Run
import URSupreme.Storage.OutboundStaging

/-!
# Uploads in the staging buffers

`Storage/OutboundStaging.h` with the memory and the files behind the buffers, and with the jobs of
the writer for the card: between the calls a job writes what was fed to it, concludes, fails or is
abandoned. `data` lists what was appended to a buffer. An upload is finished when finalizing it
reports success and it is complete, as the handler of the upload checks.

`now` is the time since boot, and `finished` tells when which bytes were finished under which id.
-/

namespace URSupreme.Staging
open Lib
open Clock (elapsed)

/-- The writer's job for the file of a buffer; a job that is gone is not in its table. -/
inductive Job where
  | working (ending : Bool)
  | failed
  | done
  | gone
  deriving DecidableEq, Repr

/-- `Buffer`, with the memory at `psram_ptr`, the file at `disk_path`, whether `flash_file` is open,
the writer's job, and when it was finished. -/
structure Upload extends Buffer where
  memory : Bytes := []
  file : Option Bytes := none
  flashOpen : Bool := false
  job : Job := .gone
  doneMs : Option Nat := none
  deriving DecidableEq, Repr

/-- The buffers, `next_id`, the time and the finished uploads. -/
structure Stage where
  uploads : List Upload := []
  nextId : Nat := 1
  now : Nat := 0
  finished : List (Nat × Bytes × Nat) := []
  deriving DecidableEq, Repr

/-- `millis()`. -/
def Stage.millis (s : Stage) : Nat := s.now % 2 ^ 32

/-- `gc`. -/
def Stage.gc (s : Stage) : Stage :=
  { s with uploads := s.uploads.filter fun u => !u.stale s.millis }

/-- The loop of `allocate` that takes the writer from earlier uploads to the card. -/
def Upload.reclaim (u : Upload) : Upload :=
  if u.backend = .sd ∧ u.sdHandle then { u with sdHandle := false, file := none, job := .gone }
  else u

/-- The new buffer; `junk` is what its memory held before. -/
def Stage.fresh (s : Stage) (backend : Backend) (totalBytes : Nat) (junk : Bytes) : Upload :=
  { id := s.nextId, backend, totalBytes, createdMs := s.millis, sdHandle := backend = .sd
    memory := if backend = .psram then (junk ++ List.replicate totalBytes 0).take totalBytes else []
    file := if backend = .flash then some [] else none
    flashOpen := backend = .flash
    job := if backend = .sd then .working false else .gone }

/-- `allocate`. -/
def Stage.allocate (s : Stage) (totalBytes : Nat) (caps : Caps) (opened : Bool) (junk : Bytes) :
    Stage :=
  let s := s.gc
  if totalBytes = 0 then s
  else if totalBytes > caps.maxBytes then s
  else
    let taken := { s with nextId := (s.nextId + 1) % 2 ^ 32 }
    match caps.backend totalBytes with
    | none => taken
    | some backend =>
      let uploads := if backend = .sd then s.uploads.map Upload.reclaim else s.uploads
      if opened then { taken with uploads := uploads ++ [s.fresh backend totalBytes junk] }
      else { taken with uploads }

/-- `append` to a buffer; its backend takes the first `w` bytes. -/
def Upload.append (data : Bytes) (w : Nat) (u : Upload) : Upload :=
  let taken : Upload := { u with written := u.written + data.length, data := u.data ++ data }
  if data.length > u.totalBytes - u.written then u
  else
    match u.backend with
    | .psram =>
      { taken with
        memory := u.memory.take u.written ++ data ++ u.memory.drop (u.written + data.length) }
    | .sd =>
      if u.sdHandle = false ∨ u.job = .gone ∨ u.job = .failed then u
      else if w = data.length then taken
      else { u with job := .failed }
    | .flash =>
      if u.flashOpen = false then u
      else
        let file := u.file.map (· ++ data.take w)
        if w = data.length then { taken with file } else { u with file }

/-- The upload is finished, if it is complete and was not before. -/
def Upload.finish (now : Nat) (u : Upload) : Upload :=
  if u.written = u.totalBytes ∧ u.doneMs = none then { u with doneMs := some now } else u

/-- `finalize_begin` on a buffer. -/
def Upload.finalizeBegin (now : Nat) (u : Upload) : Upload :=
  match u.backend with
  | .psram => u.finish now
  | .flash => { u with flashOpen := false }.finish now
  | .sd => if u.job = .working false then { u with job := .working true } else u

/-- `finalize_poll` on a buffer for the card. -/
def Upload.finalizePoll (now : Nat) (u : Upload) : Upload :=
  if u.backend = .sd ∧ (u.sdHandle = false ∨ u.job = .done ∨ u.job = .gone) ∧
      (u.file.getD []).length = u.written then u.finish now
  else u

/-- What the writer does with a job. -/
inductive Work where
  | write (n : Nat)
  | conclude
  | fail
  | abandon
  deriving DecidableEq, Repr

/-- The writer opens or continues the file, concludes the job when it is told that it ends and all
is written, or gives it up. -/
def Upload.work (p : Work) (u : Upload) : Upload :=
  match p, u.job with
  | .write n, .working _ => { u with file := some (u.data.take ((u.file.getD []).length + n)) }
  | .conclude, .working true => if u.file = some u.data then { u with job := .done } else u
  | .fail, .working _ => { u with job := .failed }
  | .abandon, .working false => { u with job := .gone }
  | _, _ => u

/-- A change of the buffer with an id, and the uploads it finishes. -/
def Stage.modify (s : Stage) (id : Nat) (f : Upload → Upload) : Stage :=
  { s with
    uploads := modifyFirst (·.id = id) f s.uploads
    finished := s.finished ++ ((s.uploads.find? (·.id = id)).filter fun u =>
      u.doneMs = none ∧ (f u).doneMs ≠ none).toList.map fun u => (id, u.data, s.now) }

/-- `release`. -/
def Stage.release (s : Stage) (id : Nat) : Stage :=
  { s with
    uploads := s.uploads.eraseP (·.id = id)
    finished := s.finished.filter (·.1 ≠ id) }

/-- `read`. -/
def Stage.read (s : Stage) (id offset len : Nat) : Bytes :=
  match s.uploads.find? (·.id = id) with
  | none => []
  | some u =>
    if offset ≥ u.totalBytes then []
    else
      let avail := min len (u.totalBytes - offset)
      match u.backend with
      | .psram => window u.memory offset avail
      | .sd | .flash => window (u.file.getD []) offset avail

/-- What happens to the buffers. -/
inductive Event where
  | allocate (totalBytes : Nat) (caps : Caps) (opened : Bool) (junk : Bytes)
  | append (id : Nat) (data : Bytes) (w : Nat)
  | finalizeBegin (id : Nat)
  | finalizePoll (id : Nat)
  | work (id : Nat) (p : Work)
  | release (id : Nat)
  | gc
  | wait (ms : Nat)

/-- One event. -/
def Stage.step (s : Stage) : Event → Stage
  | .allocate totalBytes caps opened junk => s.allocate totalBytes caps opened junk
  | .append id data w => s.modify id (·.append data w)
  | .finalizeBegin id => s.modify id (·.finalizeBegin s.now)
  | .finalizePoll id => s.modify id (·.finalizePoll s.now)
  | .work id p => s.modify id (·.work p)
  | .release id => s.release id
  | .gc => s.gc
  | .wait ms => { s with now := s.now + ms }

/-- How long a finished upload is kept. -/
def keepMs : Nat := 5 * STAGING_TIMEOUT_MS

/-- No finished upload is collected before its time. -/
def Stage.Spares (s : Stage) : Prop :=
  ∀ u ∈ s.uploads, ∀ t ∈ u.doneMs, u.stale s.millis = true → t + keepMs < s.now

/-- The step does no harm to finished uploads: the counter of the ids does not wrap, nothing goes to
the card while it holds one, none is collected before its time, and flash takes the bytes of an
append as a whole. -/
def Stage.Kept (s : Stage) : Event → Prop
  | .allocate totalBytes caps _ _ => s.Spares ∧ s.nextId + 1 < 2 ^ 32 ∧
    (totalBytes ≠ 0 → totalBytes ≤ caps.maxBytes → caps.backend totalBytes = some .sd →
      ∀ u ∈ s.gc.uploads, u.backend = .sd → u.sdHandle = true → u.doneMs = none)
  | .append id data w => ∀ u ∈ s.uploads.find? (·.id = id), u.backend = .flash →
    w = 0 ∨ w = data.length
  | .gc => s.Spares
  | _ => True

variable {s : Stage} {u u' : Upload} {e : Event} {id w now : Nat} {data : Bytes}

/-- What is behind a buffer. -/
structure Held (u : Upload) : Prop where
  pos : 0 < u.totalBytes
  written : u.written = u.data.length
  handle : u.backend = .sd → u.sdHandle = false → u.job = .gone
  fits : u.data.length ≤ u.totalBytes
  memory : u.backend = .psram → u.memory.length = u.totalBytes ∧ u.data <+: u.memory
  card : u.backend = .sd → ∀ f ∈ u.file, f <+: u.data
  flash : u.backend = .flash → u.file = some u.data
  finished : ∀ t ∈ u.doneMs, u.data.length = u.totalBytes ∧
    (u.backend = .sd → u.file = some u.data ∧ ∀ ending, u.job ≠ .working ending)

/-- A change of a buffer that leaves it as it is when it is finished. -/
structure Safe (now : Nat) (u u' : Upload) : Prop where
  held : Held u'
  id : u'.id = u.id
  finished : ∀ t ∈ u.doneMs, u'.doneMs = some t ∧ u'.data = u.data
  finishes : u.doneMs = none → ∀ t ∈ u'.doneMs, t = now ∧ u'.data = u.data

lemma Safe.refl (h : Held u) : Safe now u u :=
  ⟨h, rfl, fun _ ht => ⟨ht, rfl⟩, fun hn t ht => absurd (hn ▸ ht) (by simp)⟩

/-- A change that finishes nothing. -/
lemma Safe.other (h : Held u') (hid : u'.id = u.id) (hd : u'.doneMs = u.doneMs)
    (hdata : u.doneMs ≠ none → u'.data = u.data) : Safe now u u' := by
  refine ⟨h, hid, fun t ht => ⟨hd.trans ht, hdata ?_⟩, fun hn t ht => ?_⟩
  · rw [show u.doneMs = some t from ht]
    exact Option.some_ne_none t
  · rw [hd, hn] at ht
    cases ht

lemma Safe.append (h : Held u) (hf : u.backend = .flash → w = 0 ∨ w = data.length) :
    Safe now u (u.append data w) := by
  have hw := h.written
  have hfits := h.fits
  unfold Upload.append
  dsimp only
  split
  next => exact .refl h
  next hroom =>
    have hlen : (u.data ++ data).length = u.data.length + data.length := List.length_append
    have hle : (u.data ++ data).length ≤ u.totalBytes := by omega
    have hlen' : u.written + data.length = (u.data ++ data).length := by omega
    have hnil : u.doneMs ≠ none → data = [] := fun hne => by
      obtain ⟨t, ht⟩ := Option.ne_none_iff_exists'.mp hne
      have h1 := (h.finished t ht).1
      exact List.eq_nil_of_length_eq_zero (by omega)
    have hsame : u.doneMs ≠ none → u.data ++ data = u.data := fun hne => by
      rw [hnil hne, List.append_nil]
    have hdone : ∀ t ∈ u.doneMs, u.data ++ data = u.data := fun t ht => hsame (by
      rw [show u.doneMs = some t from ht]
      exact Option.some_ne_none t)
    split
    next hb =>
      obtain ⟨hmlen, hpre⟩ := h.memory hb
      have htake : u.memory.take u.written = u.data := by
        rw [hw]
        exact (List.prefix_iff_eq_take.mp hpre).symm
      have hmem : (u.memory.take u.written ++ data ++
          u.memory.drop (u.written + data.length)).length = u.totalBytes := by
        rw [htake, List.length_append, List.length_drop]
        omega
      refine .other ⟨h.pos, hlen', h.handle, hle, fun _ => ⟨hmem, ?_⟩, ?_, ?_, ?_⟩ rfl rfl hsame
      · dsimp only
        rw [htake]
        exact List.prefix_append _ _
      · exact fun hb' => absurd (hb.symm.trans hb') (by decide)
      · exact fun hb' => absurd (hb.symm.trans hb') (by decide)
      · intro t ht
        rw [hdone t ht]
        exact h.finished t ht
    next hb =>
      split
      next => exact .refl h
      next hlive =>
        split
        next =>
          refine .other ⟨h.pos, hlen', h.handle, hle, ?_, fun _ f hfile => ?_, ?_, ?_⟩ rfl rfl hsame
          · exact fun hb' => absurd (hb.symm.trans hb') (by decide)
          · exact (h.card hb f hfile).trans (List.prefix_append _ _)
          · exact fun hb' => absurd (hb.symm.trans hb') (by decide)
          · intro t ht
            rw [hdone t ht]
            exact h.finished t ht
        next =>
          refine .other { h with handle := fun _ hh => ?_, finished := fun t ht => ?_ } rfl rfl
            fun _ => rfl
          · exact absurd (.inl hh) hlive
          · obtain ⟨h1, h2⟩ := h.finished t ht
            exact ⟨h1, fun hb => ⟨(h2 hb).1, nofun⟩⟩
    next hb =>
      have hfile := h.flash hb
      split
      next => exact .refl h
      next =>
        split
        next hwl =>
          refine .other ⟨h.pos, hlen', h.handle, hle, ?_, ?_, fun _ => ?_, ?_⟩ rfl rfl hsame
          · exact fun hb' => absurd (hb.symm.trans hb') (by decide)
          · exact fun hb' => absurd (hb.symm.trans hb') (by decide)
          · rw [hfile, hwl, List.take_length]
            rfl
          · intro t ht
            rw [hdone t ht]
            refine ⟨(h.finished t ht).1, fun hb' => absurd (hb.symm.trans hb') (by decide)⟩
        next hwl =>
          have hzero : w = 0 := (hf hb).resolve_right hwl
          have hsamefile : u.file.map (· ++ data.take w) = u.file := by
            rw [hzero, hfile, List.take_zero, Option.map_some, List.append_nil]
          rw [hsamefile]
          exact .refl h

lemma Safe.finish (h : Held u)
    (hsd : u.data.length = u.totalBytes → u.backend = .sd →
      u.file = some u.data ∧ ∀ ending, u.job ≠ .working ending) :
    Safe now u (u.finish now) := by
  unfold Upload.finish
  split
  next hc =>
    obtain ⟨hfull, hnone⟩ := hc
    have hlen : u.data.length = u.totalBytes := h.written ▸ hfull
    refine ⟨{ h with finished := fun t _ => ⟨hlen, hsd hlen⟩ }, rfl, fun t ht => ?_,
      fun _ t ht => ⟨(Option.some.inj ht).symm, rfl⟩⟩
    rw [hnone] at ht
    cases ht
  next => exact .refl h

lemma Safe.trans {u'' : Upload} (h : Safe now u u') (hd : u'.doneMs = u.doneMs)
    (hdata : u'.data = u.data) (h' : Safe now u' u'') : Safe now u u'' := by
  refine ⟨h'.held, h'.id.trans h.id, fun t ht => ?_, fun hn t ht => ?_⟩
  · obtain ⟨h1, h2⟩ := h'.finished t (hd.trans ht)
    exact ⟨h1, h2.trans hdata⟩
  · obtain ⟨h1, h2⟩ := h'.finishes (hd.trans hn) t ht
    exact ⟨h1, h2.trans hdata⟩

lemma Safe.finalizeBegin (h : Held u) : Safe now u (u.finalizeBegin now) := by
  unfold Upload.finalizeBegin
  split
  next hb => exact .finish h fun _ hb' => absurd (hb.symm.trans hb') (by decide)
  next hb =>
    have h1 : Held { u with flashOpen := false } := { h with }
    have h2 : Safe now u { u with flashOpen := false } := .other h1 rfl rfl fun _ => rfl
    refine h2.trans rfl rfl (.finish h1 fun _ hb' => ?_)
    exact absurd (hb.symm.trans hb') (by decide)
  next hb =>
    split
    next hjob =>
      refine .other { h with handle := fun _ hh => ?_, finished := fun t ht => ?_ } rfl rfl
        fun _ => rfl
      · exact absurd ((h.handle hb hh).symm.trans hjob) nofun
      · exact absurd hjob (((h.finished t ht).2 hb).2 false)
    next => exact .refl h

lemma Safe.finalizePoll (h : Held u) : Safe now u (u.finalizePoll now) := by
  unfold Upload.finalizePoll
  split
  next hc =>
    obtain ⟨hb, hjob, hlen⟩ := hc
    refine .finish h fun hfull _ => ⟨?_, fun ending he => ?_⟩
    · rw [h.written] at hlen
      cases hfile : u.file with
      | none =>
        -- a file that is not there has no bytes
        have hpos := h.pos
        rw [hfile, Option.getD_none, List.length_nil] at hlen
        omega
      | some f =>
        rw [hfile, Option.getD_some] at hlen
        rw [(h.card hb f hfile).eq_of_length hlen]
    · rcases hjob with hh | hj | hj
      · exact absurd (he.symm.trans (h.handle hb hh)) nofun
      · exact absurd (he.symm.trans hj) nofun
      · exact absurd (he.symm.trans hj) nofun
  next => exact .refl h

lemma Safe.work {p : Work} (h : Held u) (hsd : u.job ≠ .gone → u.backend = .sd) :
    Safe now u (u.work p) := by
  have hbusy : ∀ {ending}, u.job = .working ending → u.backend = .sd ∧ u.doneMs = none :=
    fun {ending} hj => by
      have hb := hsd (by rw [hj]; exact nofun)
      refine ⟨hb, Option.eq_none_iff_forall_not_mem.mpr fun t ht => ?_⟩
      exact ((h.finished t ht).2 hb).2 ending hj
  unfold Upload.work
  split
  next n ending hj =>
    obtain ⟨hb, hnone⟩ := hbusy hj
    refine .other { h with card := fun _ f hf => ?_, flash := ?_, finished := ?_ } rfl rfl
      fun _ => rfl
    · exact Option.some.inj hf ▸ List.take_prefix _ _
    · exact fun hb' => absurd (hb.symm.trans hb') (by decide)
    · exact fun t ht => absurd (hnone ▸ ht) (by simp)
  next hj =>
    obtain ⟨hb, hnone⟩ := hbusy hj
    split
    next =>
      refine .other { h with handle := fun _ hh => ?_, finished := ?_ } rfl rfl fun _ => rfl
      · exact absurd ((h.handle hb hh).symm.trans hj) nofun
      · exact fun t ht => absurd (hnone ▸ ht) (by simp)
    next => exact .refl h
  next ending hj =>
    obtain ⟨hb, hnone⟩ := hbusy hj
    refine .other { h with handle := fun _ hh => ?_, finished := ?_ } rfl rfl fun _ => rfl
    · exact absurd ((h.handle hb hh).symm.trans hj) nofun
    · exact fun t ht => absurd (hnone ▸ ht) (by simp)
  next hj =>
    obtain ⟨hb, hnone⟩ := hbusy hj
    refine .other { h with handle := fun _ _ => rfl, finished := ?_ } rfl rfl fun _ => rfl
    exact fun t ht => absurd (hnone ▸ ht) (by simp)
  next => exact .refl h

/-- What a finished upload gives. -/
lemma Held.read (h : Held u) {t offset len : Nat} (ht : t ∈ u.doneMs)
    (hu : s.uploads.find? (·.id = id) = some u) :
    s.read id offset len = window u.data offset len := by
  obtain ⟨hfull, hsd⟩ := h.finished t ht
  have havail : offset < u.totalBytes →
      window u.data offset (min len (u.totalBytes - offset)) = window u.data offset len :=
    fun hlt => by
      unfold window
      rw [← hfull, ← List.length_drop, List.take_eq_take_min (i := len)]
  unfold Stage.read
  rw [hu]
  dsimp only
  split
  next hge =>
    rw [window, List.drop_eq_nil_of_le (by omega), List.take_nil]
  next hlt =>
    have hlt := not_le.mp hlt
    split
    next hb =>
      obtain ⟨hmlen, hpre⟩ := h.memory hb
      rw [← hpre.eq_of_length (by omega)]
      exact havail hlt
    next hb =>
      rw [(hsd hb).1]
      exact havail hlt
    next hb =>
      rw [h.flash hb]
      exact havail hlt

/-- What every run keeps. -/
structure Stage.Good (s : Stage) : Prop where
  ids : (s.uploads.map (·.id)).Nodup
  below : ∀ u ∈ s.uploads, u.id < s.nextId
  held : ∀ u ∈ s.uploads, Held u ∧ (u.job ≠ .gone → u.backend = .sd)
  /-- A finished upload that is not too old is there as it was. -/
  kept : ∀ f ∈ s.finished, s.now ≤ f.2.2 + keepMs →
    ∃ u ∈ s.uploads, u.id = f.1 ∧ u.data = f.2.1 ∧ u.doneMs = some f.2.2
  old : ∀ f ∈ s.finished, f.1 < s.nextId

/-- A change of one buffer. -/
lemma Stage.Good.modify {f : Upload → Upload} (h : s.Good)
    (hf : ∀ u ∈ s.uploads, u.id = id → Safe s.now u (f u))
    (hjob : ∀ u, (f u).backend = u.backend ∧ ((f u).job ≠ .gone → u.job ≠ .gone)) :
    (s.modify id f).Good := by
  unfold Stage.modify
  cases hu : s.uploads.find? (·.id = id) with
  | none =>
    rw [modifyFirst_of_none hu]
    exact { h with
      kept := fun x hx => h.kept x (by simpa using hx)
      old := fun x hx => h.old x (by simpa using hx) }
  | some u =>
    obtain ⟨hid, l1, l2, hl, hmod⟩ := modifyFirst_of_find hu
    have hid := of_decide_eq_true hid
    have hmem : u ∈ s.uploads := List.mem_of_find?_eq_some hu
    have hsafe := hf u hmem hid
    have hsub : ∀ x ∈ l1 ++ l2, x ∈ s.uploads := fun x hx => hl ▸ mem_split.mpr (.inr hx)
    have hids : (l1 ++ f u :: l2).map (·.id) = s.uploads.map (·.id) := by
      rw [hl, List.map_append, List.map_append, List.map_cons, List.map_cons, hsafe.id]
    rw [hmod]
    refine ⟨hids ▸ h.ids, fun x hx => ?_, fun x hx => ?_, fun x hx hnow => ?_, fun x hx => ?_⟩
    · rcases mem_split.mp hx with rfl | hx
      · exact hsafe.id ▸ h.below u hmem
      · exact h.below x (hsub x hx)
    · rcases mem_split.mp hx with rfl | hx
      · obtain ⟨hb, hj⟩ := hjob u
        exact ⟨hsafe.held, fun hne => hb.trans ((h.held u hmem).2 (hj hne))⟩
      · exact h.held x (hsub x hx)
    · rcases List.mem_append.mp hx with hx | hx
      · obtain ⟨y, hy, hyid, hdata, hdone⟩ := h.kept x hx hnow
        rw [hl] at hy
        rcases mem_split.mp hy with rfl | hy
        · obtain ⟨h1, h2⟩ := hsafe.finished _ hdone
          exact ⟨f y, mem_split.mpr (.inl rfl), hsafe.id.trans hyid, h2.trans hdata, h1⟩
        · exact ⟨y, mem_split.mpr (.inr hy), hyid, hdata, hdone⟩
      · -- the upload that the change finishes
        obtain ⟨y, hy, rfl⟩ := List.mem_map.mp hx
        obtain ⟨hy, hc⟩ := Option.filter_eq_some_iff.mp (Option.mem_toList.mp hy)
        obtain rfl := Option.some.inj hy
        obtain ⟨hnone, hsome⟩ := of_decide_eq_true hc
        obtain ⟨t, ht⟩ := Option.ne_none_iff_exists'.mp hsome
        obtain ⟨rfl, hdata⟩ := hsafe.finishes hnone t ht
        exact ⟨f u, mem_split.mpr (.inl rfl), hsafe.id.trans hid, hdata, ht⟩
    · rcases List.mem_append.mp hx with hx | hx
      · exact h.old x hx
      · obtain ⟨y, -, rfl⟩ := List.mem_map.mp hx
        exact hid ▸ h.below u hmem

/-- What `gc` leaves. -/
lemma Stage.Good.gc (h : s.Good) (hs : s.Spares) : s.gc.Good := by
  refine ⟨h.ids.sublist (List.filter_sublist.map _),
    fun u hu => h.below u (List.mem_of_mem_filter hu),
    fun u hu => h.held u (List.mem_of_mem_filter hu), fun f hf hnow => ?_, h.old⟩
  obtain ⟨u, hu, hid, hdata, hdone⟩ := h.kept f hf hnow
  refine ⟨u, List.mem_filter.mpr ⟨hu, ?_⟩, hid, hdata, hdone⟩
  cases hst : u.stale s.millis with
  | false => rfl
  | true => exact absurd hnow (not_le.mpr (hs u hu _ hdone hst))

lemma Stage.Good.release (h : s.Good) : (s.release id).Good := by
  have hsub : (s.uploads.eraseP (·.id = id)).Sublist s.uploads := List.eraseP_sublist
  refine ⟨h.ids.sublist (hsub.map _), fun u hu => h.below u (hsub.subset hu),
    fun u hu => h.held u (hsub.subset hu), fun f hf hnow => ?_,
    fun f hf => h.old f (List.mem_of_mem_filter hf)⟩
  obtain ⟨hf, hne⟩ := List.mem_filter.mp hf
  obtain ⟨u, hu, hid, hdata, hdone⟩ := h.kept f hf hnow
  have hne : f.1 ≠ id := of_decide_eq_true hne
  refine ⟨u, (List.mem_eraseP_of_neg ?_).mpr hu, hid, hdata, hdone⟩
  simpa using hid.trans_ne hne

lemma held_fresh {backend : Backend} {totalBytes : Nat} {junk : Bytes} (h0 : totalBytes ≠ 0) :
    Held (s.fresh backend totalBytes junk) ∧
      ((s.fresh backend totalBytes junk).job ≠ .gone → backend = .sd) := by
  have hmem : ((junk ++ List.replicate totalBytes 0).take totalBytes).length = totalBytes := by
    rw [List.length_take, List.length_append, List.length_replicate]
    omega
  refine ⟨⟨Nat.pos_of_ne_zero h0, rfl, ?_, Nat.zero_le _, ?_, ?_, ?_, nofun⟩, ?_⟩
  · rintro rfl hh
    cases hh
  · rintro rfl
    exact ⟨hmem, List.nil_prefix⟩
  · rintro rfl
    exact nofun
  · rintro rfl
    rfl
  · intro hj
    cases backend with
    | sd => rfl
    | psram => exact absurd rfl hj
    | flash => exact absurd rfl hj

/-- Buffers that are not finished may lose their job and their file. -/
lemma held_reclaim (h : Held u ∧ (u.job ≠ .gone → u.backend = .sd))
    (hfin : u.backend = .sd → u.sdHandle = true → u.doneMs = none) :
    (Held u.reclaim ∧ (u.reclaim.job ≠ .gone → u.reclaim.backend = .sd)) ∧ u.reclaim.id = u.id ∧
      (u.doneMs ≠ none → u.reclaim = u) := by
  unfold Upload.reclaim
  split
  next hc =>
    obtain ⟨hb, hh⟩ := hc
    have hnone := hfin hb hh
    refine ⟨⟨{ h.1 with
      handle := fun _ _ => rfl, card := fun _ => nofun, flash := ?_, finished := ?_ },
      fun hj => absurd rfl hj⟩, rfl, fun hne => absurd hnone hne⟩
    · exact fun hb' => absurd (hb.symm.trans hb') (by decide)
    · exact fun t ht => absurd (hnone ▸ ht) (by simp)
  next => exact ⟨h, rfl, fun _ => rfl⟩

/-- A new buffer behind the others, which are as they were where they are finished. -/
lemma Stage.Good.push {totalBytes : Nat} (backend : Backend) (junk : Bytes) (g : Upload → Upload)
    (h : s.Good) (h0 : totalBytes ≠ 0) (hn : s.nextId + 1 < 2 ^ 32)
    (hg : ∀ u ∈ s.uploads, (Held (g u) ∧ ((g u).job ≠ .gone → (g u).backend = .sd)) ∧
      (g u).id = u.id ∧ (u.doneMs ≠ none → g u = u)) (opened : Bool) :
    Stage.Good { s with
      nextId := (s.nextId + 1) % 2 ^ 32
      uploads := s.uploads.map g ++ if opened then [s.fresh backend totalBytes junk] else [] } := by
  have hid : (s.uploads.map g).map (·.id) = s.uploads.map (·.id) := by
    rw [List.map_map]
    exact List.map_congr_left fun u hu => (hg u hu).2.1
  have hnext : s.nextId < (s.nextId + 1) % 2 ^ 32 := by
    rw [Nat.mod_eq_of_lt hn]
    exact Nat.lt_succ_self _
  have hnew : ∀ u ∈ (if opened then [s.fresh backend totalBytes junk] else []),
      u = s.fresh backend totalBytes junk := fun u hu => by
    cases opened with
    | true => exact List.mem_singleton.mp hu
    | false => cases hu
  refine ⟨?_, fun u hu => ?_, fun u hu => ?_, fun f hf hnow => ?_,
    fun f hf => (h.old f hf).trans hnext⟩
  · rw [List.map_append, hid]
    refine List.nodup_append.mpr ⟨h.ids, ?_, fun a ha b hb hab => ?_⟩
    · cases opened with
      | true => exact List.nodup_singleton _
      | false => exact List.nodup_nil
    · obtain ⟨u, hu, rfl⟩ := List.mem_map.mp ha
      obtain ⟨v, hv, rfl⟩ := List.mem_map.mp hb
      have hlt := h.below u hu
      rw [hab, hnew v hv] at hlt
      exact absurd hlt (lt_irrefl _)
  · rcases List.mem_append.mp hu with hu | hu
    · obtain ⟨v, hv, rfl⟩ := List.mem_map.mp hu
      rw [(hg v hv).2.1]
      exact (h.below v hv).trans hnext
    · rw [hnew u hu]
      exact hnext
  · rcases List.mem_append.mp hu with hu | hu
    · obtain ⟨v, hv, rfl⟩ := List.mem_map.mp hu
      exact (hg v hv).1
    · rw [hnew u hu]
      exact held_fresh h0
  · obtain ⟨u, hu, huid, hdata, hdone⟩ := h.kept f hf hnow
    have hsame : g u = u := (hg u hu).2.2 (by rw [hdone]; exact Option.some_ne_none _)
    exact ⟨u, List.mem_append_left _ (List.mem_map.mpr ⟨u, hu, hsame⟩), huid, hdata, hdone⟩

lemma Stage.Good.allocate {totalBytes : Nat} {caps : Caps} {opened : Bool} {junk : Bytes}
    (h : s.Good) (hk : s.Kept (.allocate totalBytes caps opened junk)) :
    (s.allocate totalBytes caps opened junk).Good := by
  obtain ⟨hspares, hnext, hcard⟩ := hk
  have hgc := h.gc hspares
  unfold Stage.allocate
  dsimp only
  split
  next => exact hgc
  next h0 =>
    split
    next => exact hgc
    next hle =>
      have hpush := fun (backend : Backend) (g : Upload → Upload) hg =>
        Stage.Good.push backend junk g hgc h0 hnext hg
      split
      next hnone =>
        have h1 := hpush .sd id (fun u hu => ⟨hgc.held u hu, rfl, fun _ => rfl⟩) false
        rw [List.map_id, if_neg Bool.false_ne_true, List.append_nil] at h1
        exact h1
      next backend hb =>
        have h1 : Stage.Good { s.gc with
            nextId := (s.gc.nextId + 1) % 2 ^ 32
            uploads := (if backend = .sd then s.gc.uploads.map Upload.reclaim else s.gc.uploads) ++
              if opened then [s.gc.fresh backend totalBytes junk] else [] } := by
          split
          next hsd =>
            subst hsd
            exact hpush .sd Upload.reclaim (fun u hu => held_reclaim (hgc.held u hu)
              (hcard h0 (not_lt.mp hle) hb u hu)) opened
          next =>
            have h2 := hpush backend id (fun u hu => ⟨hgc.held u hu, rfl, fun _ => rfl⟩) opened
            rw [List.map_id] at h2
            exact h2
        cases opened with
        | true => exact h1
        | false =>
          rw [if_neg Bool.false_ne_true, List.append_nil] at h1
          exact h1

lemma Upload.finish_job (now : Nat) : (u.finish now).backend = u.backend ∧
    (u.finish now).job = u.job := by
  unfold Upload.finish
  split <;> exact ⟨rfl, rfl⟩

lemma Upload.append_job : (u.append data w).backend = u.backend ∧
    ((u.append data w).job ≠ .gone → u.job ≠ .gone) := by
  unfold Upload.append
  dsimp only
  repeat' split
  all_goals first
    | exact ⟨rfl, fun hj => hj⟩
    | exact ⟨rfl, fun _ => by grind⟩

lemma Upload.finalizeBegin_job : (u.finalizeBegin now).backend = u.backend ∧
    ((u.finalizeBegin now).job ≠ .gone → u.job ≠ .gone) := by
  unfold Upload.finalizeBegin
  split
  next =>
    obtain ⟨hb, hj⟩ := Upload.finish_job (u := u) now
    exact ⟨hb, fun h => hj ▸ h⟩
  next =>
    obtain ⟨hb, hj⟩ := Upload.finish_job (u := { u with flashOpen := false }) now
    exact ⟨hb, fun h => hj ▸ h⟩
  next =>
    split
    next hj => exact ⟨rfl, fun _ => by rw [hj]; exact nofun⟩
    next => exact ⟨rfl, fun hj => hj⟩

lemma Upload.finalizePoll_job : (u.finalizePoll now).backend = u.backend ∧
    ((u.finalizePoll now).job ≠ .gone → u.job ≠ .gone) := by
  unfold Upload.finalizePoll
  split
  next =>
    obtain ⟨hb, hj⟩ := Upload.finish_job (u := u) now
    exact ⟨hb, fun h => hj ▸ h⟩
  next => exact ⟨rfl, fun hj => hj⟩

lemma Upload.work_job {p : Work} : (u.work p).backend = u.backend ∧
    ((u.work p).job ≠ .gone → u.job ≠ .gone) := by
  unfold Upload.work
  split
  next hj => exact ⟨rfl, fun h => h⟩
  next hj =>
    split
    next => exact ⟨rfl, fun _ => by rw [hj]; exact nofun⟩
    next => exact ⟨rfl, fun h => h⟩
  next hj => exact ⟨rfl, fun _ => by rw [hj]; exact nofun⟩
  next hj => exact ⟨rfl, fun h => absurd rfl h⟩
  next => exact ⟨rfl, fun h => h⟩

/-- Any step. -/
lemma Stage.Good.step (h : s.Good) (hk : s.Kept e) : (s.step e).Good := by
  cases e with
  | allocate totalBytes caps opened junk => exact h.allocate hk
  | append id data w =>
    refine h.modify (fun u hu hid => .append (h.held u hu).1 (hk u ?_)) fun u => Upload.append_job
    rw [← hid]
    exact find_key h.ids hu
  | finalizeBegin id =>
    exact h.modify (fun u hu _ => .finalizeBegin (h.held u hu).1) fun u => Upload.finalizeBegin_job
  | finalizePoll id =>
    exact h.modify (fun u hu _ => .finalizePoll (h.held u hu).1) fun u => Upload.finalizePoll_job
  | work id p =>
    exact h.modify (fun u hu _ => .work (h.held u hu).1 (h.held u hu).2) fun u => Upload.work_job
  | release id => exact h.release
  | gc => exact h.gc hk
  | wait ms =>
    exact { h with kept := fun f hf hnow => h.kept f hf (le_trans (Nat.le_add_right _ _) hnow) }

/-- In every run of steps that do no harm a finished upload is read as what was appended to it,
until it is released or too old. -/
theorem read_of_kept (h : Reach Stage.step Stage.Kept {} s) :
    ∀ f ∈ s.finished, s.now ≤ f.2.2 + keepMs →
      ∀ offset len, s.read f.1 offset len = window f.2.1 offset len := by
  have hg : s.Good := h.invariant (P := Stage.Good)
    ⟨List.nodup_nil, fun _ h => (List.not_mem_nil h).elim, fun _ h => (List.not_mem_nil h).elim,
      fun _ h => (List.not_mem_nil h).elim, fun _ h => (List.not_mem_nil h).elim⟩
    fun hk hs => hs.step hk
  intro f hf hnow offset len
  obtain ⟨u, hu, hid, hdata, hdone⟩ := hg.kept f hf hnow
  rw [← hid, ← hdata]
  exact (hg.held u hu).1.read hdone (find_key hg.ids hu)

/-- A card with room. -/
def card : Caps := { sdMax := 1000, psramMax := 0, flashMax := 0 }

/-- An upload of one byte to the card. -/
def upload : List Event :=
  [.allocate 1 card true [], .append 1 [65] 1, .finalizeBegin 1, .work 1 (.write 1),
    .work 1 .conclude, .finalizePoll 1]

theorem read_of_kept_upload :
    let s := upload.foldl Stage.step {}
    s.finished = [(1, [65], 0)] ∧ s.read 1 0 5 = [65] := by
  have hs : (upload.foldl Stage.step {}).finished = [(1, [65], 0)] := rfl
  have hok : Allowed Stage.step Stage.Kept {} upload := by
    refine ⟨⟨fun _ h => (List.not_mem_nil h).elim, by decide, fun _ _ _ _ h =>
      (List.not_mem_nil h).elim⟩, ?_, trivial, trivial, trivial, trivial, trivial⟩
    exact fun u _ _ => .inr rfl
  have h1 := read_of_kept (Reach.init.run hok) (1, [65], 0)
    (by rw [hs]; exact List.mem_singleton.mpr rfl) (by decide) 0 5
  exact ⟨hs, h1⟩

/-- The next upload to the card removes the file of a finished one. -/
theorem not_read_reclaimed :
    let s := (upload ++ [Event.allocate 1 card true []]).foldl Stage.step {}
    s.finished = [(1, [65], 0)] ∧ s.now = 0 ∧ s.read 1 0 5 = [] :=
  ⟨rfl, rfl, rfl⟩

end URSupreme.Staging
