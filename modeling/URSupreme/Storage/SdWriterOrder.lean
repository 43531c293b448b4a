import URSupreme.Storage.SdWriterParks

/-!
# The order of writes to one file

One-shot writes of the SD writer to one path at one priority: those that were accepted and are not
committed yet wait in a line, in the order of their acceptance. The scheduler knows nothing of the
line. Among jobs of one priority it takes the one that was serviced the longest time ago, and of
those that were not serviced yet the one in the lowest slot. So the line is kept when each write
comes to a slot behind the ones it has to wait for, and each of these needs no more than one pass.
-/

namespace URSupreme.SdWriter
open Lib

/-- What a call of `write` asks for. -/
structure Write where
  path : String
  data : Bytes
  op : Op
  seekBack : Nat
  priority : Nat
  deriving DecidableEq, Repr

/-- A one-shot job in the table. -/
def Job.Shot (j : Job) : Prop := j.id ≠ 0 ∧ j.streaming = false

instance {j : Job} : Decidable j.Shot := inferInstanceAs (Decidable (_ ∧ _))

/-- The number of a one-shot job, and what it is to write. -/
def Job.entry (j : Job) : Nat × Write := (j.serial, ⟨j.path, j.inbuf, j.op, j.seekBack, j.priority⟩)

/-- What a step accepts. -/
def Writer.accepts (s : Writer) : Event → List (Nat × Write)
  | .write up alloc path data op seekBack priority done =>
    if (s.write up alloc path data op seekBack priority done).1 then
      [(s.created, ⟨path, data, op, seekBack, priority⟩)]
    else []
  | _ => []

/-- What a step commits: a one-shot job at the end of its last pass. -/
def Writer.commits (s : Writer) : Event → List (Nat × Write)
  | .commit =>
    match s.phase with
    | .leaving i true => if (s.jobs i).streaming then [] else [(s.jobs i).entry]
    | _ => []
  | _ => []

/-- The path of a stream that a step opens. -/
def Writer.opens (s : Writer) : Event → List String
  | .openJob up size path op seekBack priority wantSha keep now =>
    if (s.openJob up size path op seekBack priority wantSha keep now).1 = 0 then [] else [path]
  | _ => []

/-- The writer, with the one-shot writes that it has accepted and those that it has committed, and
the paths of its streams. -/
structure Ledger where
  writer : Writer := {}
  accepted : List (Nat × Write) := []
  committed : List (Nat × Write) := []
  streams : List String := []

def Ledger.step (l : Ledger) (e : Event) : Ledger where
  writer := l.writer.step e
  accepted := l.accepted ++ l.writer.accepts e
  committed := l.committed ++ l.writer.commits e
  streams := l.streams ++ l.writer.opens e

/-- The writes to a path at a priority. -/
def on (path : String) (priority : Nat) (ws : List (Nat × Write)) : List (Nat × Write) :=
  ws.filter fun w => w.2.path = path ∧ w.2.priority = priority

/-- The job comes to its end in the pass that the task is in. -/
def Job.Ending (j : Job) : Phase → Prop
  | .picked _ | .opened _ | .writing .. => j.inbuf.length - j.inoff ≤ SCRATCH
  | .wrote _ => j.inbuf.length ≤ j.inoff
  | .finalizing _ | .ended _ | .leaving _ true => True
  | _ => False

instance {j : Job} : ∀ ph, Decidable (j.Ending ph)
  | .picked _ | .opened _ | .writing .. => inferInstanceAs (Decidable (_ ≤ _))
  | .wrote _ => inferInstanceAs (Decidable (_ ≤ _))
  | .finalizing _ | .ended _ | .leaving _ true => .isTrue trivial
  | .parked | .empty _ | .leaving _ false => .isFalse id

/-- The job in slot `k` comes to its end before one that is put into slot `i`: in the pass that the
task is in, or in one pass, for which it is picked first. -/
def Writer.Before (s : Writer) (k i : Fin MAX_JOBS) : Prop :=
  (s.jobs k).Ending (s.view k) ∨
    ((s.jobs k).rrTick = 0 ∧ k < i ∧ (s.jobs k).inbuf.length ≤ SCRATCH)

instance {s : Writer} {k i : Fin MAX_JOBS} : Decidable (s.Before k i) :=
  inferInstanceAs (Decidable (_ ∨ _ ∧ _ ∧ _))

/-- The one-shot jobs to a path at a priority. -/
def Writer.On (s : Writer) (path : String) (priority : Nat) (k : Fin MAX_JOBS) : Prop :=
  (s.jobs k).Shot ∧ (s.jobs k).path = path ∧ (s.jobs k).priority = priority

instance {s : Writer} {path : String} {priority : Nat} {k : Fin MAX_JOBS} :
    Decidable (s.On path priority k) := inferInstanceAs (Decidable (_ ∧ _ ∧ _))

/-- The condition on the calls: a write that is accepted comes behind each one to the same path at
the same priority, and a handle of a stream that is not in the table any more is not that of a
one-shot job. -/
def Sound (s : Writer) : Event → Prop
  | .write up alloc path data op seekBack priority done =>
    (s.write up alloc path data op seekBack priority done).1 = true →
      ∀ i, s.findFree = some i → ∀ k, s.On path priority k → s.Before k i
  | .release h => ∀ i, s.findJob h = some i → (s.jobs i).streaming = true
  | .timeout n => ∀ f, s.feeds[n]? = some f → ∀ i, s.findJob f.handle = some i →
      (s.jobs i).streaming = true
  | _ => True

instance {s : Writer} : ∀ e, Decidable (Sound s e)
  | .write .. => inferInstanceAs (Decidable (_ → ∀ _, _))
  | .release _ => inferInstanceAs (Decidable (∀ _, _ → _))
  | .timeout n =>
    match h : s.feeds[n]? with
    | none => .isTrue fun f hf => by cases h.symm.trans hf
    | some f =>
      decidable_of_iff (∀ i, s.findJob f.handle = some i → (s.jobs i).streaming = true)
        ⟨fun hi g hg => Option.some.inj (h.symm.trans hg) ▸ hi, fun hi => hi f h⟩
  | .openJob .. | .feed .. | .send .. | .finish _ | .pick _ | .start .. | .receive _ | .look | .put
      _
  | .check | .sync _ | .close | .commit | .drain => .isTrue trivial

variable {s s' : Writer} {l : Ledger} {e : Event} {j j' : Job} {i k b : Fin MAX_JOBS}
  {ph ph' : Phase} {p : String} {q : Nat} {ks : List (Fin MAX_JOBS)} {x : Nat × Write}
  {ws ws' : List (Nat × Write)}

lemma on_append : on p q (ws ++ ws') = on p q ws ++ on p q ws' := List.filter_append ..

/-! ### The job that is picked -/

/-- The scheduler prefers `b` to `i`. -/
def Writer.Prefers (s : Writer) (b i : Fin MAX_JOBS) : Prop :=
  (s.jobs i).priority < (s.jobs b).priority ∨
    ((s.jobs i).priority = (s.jobs b).priority ∧
      ((s.jobs b).rrTick < (s.jobs i).rrTick ∨ ((s.jobs b).rrTick = (s.jobs i).rrTick ∧ b ≤ i)))

lemma Writer.Prefers.trans {a : Fin MAX_JOBS} (h : s.Prefers a b) (h' : s.Prefers b i) :
    s.Prefers a i := by
  unfold Writer.Prefers at *
  omega

/-- Through the slots that are left, the best job so far is preferred to all that are ready. -/
lemma prefers_foldl {slots : List (Fin MAX_JOBS)} {o : Option (Fin MAX_JOBS)}
    (hs : slots.Pairwise (· < ·)) (ho : ∀ a, o = some a → ∀ i ∈ slots, a < i)
    (h : slots.foldl (fun best i =>
      if !s.ready (s.jobs i) then best
      else
        match best with
        | none => some i
        | some b => if Writer.before (s.jobs i) (s.jobs b) then some i else some b) o = some b) :
    (∀ a, o = some a → s.Prefers b a) ∧
      ∀ i ∈ slots, s.ready (s.jobs i) = true → s.Prefers b i := by
  induction slots generalizing o with
  | nil => exact ⟨fun a ha => Option.some.inj (ha.symm.trans h) ▸ .inr ⟨rfl, .inr ⟨rfl, le_rfl⟩⟩,
      fun i hi => absurd hi List.not_mem_nil⟩
  | cons k slots ih =>
    obtain ⟨hk, hs⟩ := List.pairwise_cons.mp hs
    rw [List.foldl_cons] at h
    split at h
    next hr =>
      obtain ⟨h1, h2⟩ := ih hs (fun a ha i hi => ho a ha i (List.mem_cons_of_mem _ hi)) h
      refine ⟨h1, fun i hi hready => ?_⟩
      rcases List.mem_cons.mp hi with rfl | hi
      · rw [hready] at hr
        cases hr
      · exact h2 i hi hready
    next =>
      split at h
      next =>
        obtain ⟨h1, h2⟩ := ih hs (fun a ha => Option.some.inj ha ▸ hk) h
        refine ⟨nofun, fun i hi hready => ?_⟩
        rcases List.mem_cons.mp hi with rfl | hi
        · exact h1 _ rfl
        · exact h2 i hi hready
      next a =>
        have hak : a < k := ho a rfl k List.mem_cons_self
        split at h
        next hbef =>
          obtain ⟨h1, h2⟩ := ih hs (fun a ha => Option.some.inj ha ▸ hk) h
          have hka : s.Prefers k a := by
            unfold Writer.before at hbef
            have hbef := of_decide_eq_true hbef
            unfold Writer.Prefers
            omega
          refine ⟨fun a' ha => Option.some.inj ha ▸ (h1 k rfl).trans hka, fun i hi hready => ?_⟩
          rcases List.mem_cons.mp hi with rfl | hi
          · exact h1 _ rfl
          · exact h2 i hi hready
        next hbef =>
          obtain ⟨h1, h2⟩ := ih hs (fun a' ha i hi => Option.some.inj ha ▸
            ho a rfl i (List.mem_cons_of_mem _ hi)) h
          have hak : s.Prefers a k := by
            unfold Writer.before at hbef
            have hbef : ¬ _ := fun hd => hbef (decide_eq_true hd)
            unfold Writer.Prefers
            omega
          refine ⟨h1, fun i hi hready => ?_⟩
          rcases List.mem_cons.mp hi with rfl | hi
          · exact (h1 a rfl).trans hak
          · exact h2 i hi hready

/-- The job that is picked is preferred to all that are ready. -/
lemma prefers_best (h : s.best = some b) (hi : s.ready (s.jobs i) = true) : s.Prefers b i :=
  (prefers_foldl (List.pairwise_lt_finRange _) (fun _ ha => by cases ha) h).2 i
  (List.mem_finRange i) hi

/-! ### One job -/

/-- The file of a job and what is written of it, by where the task is with it. -/
def Job.At (j : Job) : Phase → Prop
  | .parked | .picked _ => j.fd = none → j.inoff = 0
  | .opened _ | .wrote _ | .leaving _ false => j.fd ≠ none
  | .writing _ src off => j.fd ≠ none ∧ src = (j.inbuf.drop j.inoff).take SCRATCH ∧ off ≤ src.length
  | .finalizing _ | .ended _ => j.fd ≠ none ∧ j.inoff = j.inbuf.length
  | .leaving _ true => j.fd = none ∧ j.inoff = j.inbuf.length
  | .empty _ => False

/-- What is known of a one-shot job without an error. -/
structure Plain (j : Job) (ph : Phase) : Prop where
  held : j.aborting = false
  sound : j.error = false
  open_ : j.doneFlag = false
  reaped : j.callerReaps = false
  full : j.inbuf ≠ []
  le : j.inoff ≤ j.inbuf.length
  at_ : j.At ph

lemma Plain.ready (h : Plain j ph) (hj : j.Shot) : s.ready j = true := by
  unfold Writer.ready
  rw [if_neg (fun hn => hn.elim hj.1 fun hd => Bool.eq_false_iff.mp h.open_ hd), h.held, hj.2,
    h.sound]
  rfl

/-- The chunk that a pass writes is the rest of a job that comes to its end in it. -/
lemma take_ending (h : j.inbuf.length - j.inoff ≤ SCRATCH) :
    (j.inbuf.drop j.inoff).take SCRATCH = j.inbuf.drop j.inoff :=
  List.take_of_length_le (by rw [List.length_drop]; exact h)

lemma finished_shot {data : Bytes} (hs : j.streaming = false) :
    j.finished data = true ↔ j.inbuf.length ≤ j.inoff := by
  unfold Job.finished
  rw [if_neg (by rw [hs]; nofun)]
  exact decide_eq_true_iff

/-- What a turn leaves of a one-shot job. -/
structure Moved (j : Job) (ph : Phase) (j' : Job) (ph' : Phase) : Prop where
  shot : j'.id = j.id ∧ j'.streaming = j.streaming
  entry : j'.entry = j.entry
  rrTick : j'.rrTick = j.rrTick
  plain : Plain j' ph'
  ending : j.Ending ph → j'.Ending ph'

/-- A turn without an error brings a one-shot job on. -/
lemma Turn.moved {files : Nat} {data data' : Bytes} {ms : List (Nat × Mark)}
    (h : Turn files i j data true ph j' data' ph' ms) (hs : j.streaming = false) (hp : Plain j ph) :
    Moved j ph j' ph' := by
  have hat := hp.at_
  cases h with
  | gaveUp ha => exact absurd (hp.held.symm.trans ha) Bool.false_ne_true
  | reopened _ hfd => exact ⟨⟨rfl, rfl⟩, rfl, rfl, { hp with at_ := hfd }, id⟩
  | opened _ hfd => exact ⟨⟨rfl, rfl⟩, rfl, rfl, { hp with at_ := nofun }, id⟩
  | drained hst => exact absurd (hs.symm.trans hst) Bool.false_ne_true
  | nothing hst => exact absurd (hs.symm.trans hst) Bool.false_ne_true
  | took _ hne => exact ⟨⟨rfl, rfl⟩, rfl, rfl, { hp with at_ := ⟨hat, rfl, Nat.zero_le _⟩ }, id⟩
  | tookNone _ hnil =>
    refine ⟨⟨rfl, rfl⟩, rfl, rfl, { hp with at_ := hat }, fun he => ?_⟩
    rw [take_ending he, List.drop_eq_nil_iff] at hnil
    exact hnil
  | ends => exact hat.elim
  | waits => exact hat.elim
  | part hn hlt => exact ⟨⟨rfl, rfl⟩, rfl, rfl, { hp with at_ := ⟨hat.1, hat.2.1, hlt.le⟩ }, id⟩
  | @chunk src off n hn hle =>
    obtain ⟨hfd, hsrc, hoff⟩ := hat
    have hlen : off + ((src.drop off).take n).length = src.length := by
      rw [List.length_take, List.length_drop] at hle ⊢
      omega
    have hsrc : src.length = min SCRATCH (j.inbuf.length - j.inoff) := by
      rw [hsrc, List.length_take, List.length_drop]
    rw [hlen]
    have hin : (j.behind src src.length).inoff = j.inoff + src.length := if_neg (by rw [hs]; nofun)
    refine ⟨⟨rfl, rfl⟩, rfl, rfl, { hp with le := ?_, at_ := hfd }, fun he => ?_⟩
    · have hle := hp.le
      rw [hin]
      change j.inoff + src.length ≤ j.inbuf.length
      omega
    · have he : j.inbuf.length - j.inoff ≤ SCRATCH := he
      change j.inbuf.length ≤ _
      rw [hin]
      omega
  | finished hf =>
    rw [finished_shot hs] at hf
    exact ⟨⟨rfl, rfl⟩, rfl, rfl, { hp with at_ := ⟨hat, le_antisymm hp.le hf⟩ }, fun _ => trivial⟩
  | unfinished hf =>
    refine ⟨⟨rfl, rfl⟩, rfl, rfl, { hp with at_ := hat }, fun he => ?_⟩
    rw [(finished_shot hs).mpr he] at hf
    cases hf
  | synced => exact ⟨⟨rfl, rfl⟩, rfl, rfl, { hp with at_ := hat }, fun _ => trivial⟩
  | closed =>
    exact ⟨⟨rfl, rfl⟩, rfl, rfl, { hp with at_ := ⟨rfl, hat.2⟩ }, fun _ => trivial⟩

/-! ### What a step does -/

/-- What a call leaves of a job. -/
structure Leaves (j j' : Job) : Prop where
  shot : j.Shot → ∃ fed ending finishAt, j' = { j with fed, ending, finishAt }
  other : ¬ j.Shot → ¬ j'.Shot
  file : j'.fd = j.fd ∧ j'.path = j.path ∨ j'.fd = none ∧ j'.id = 0
  live : j'.id = j.id ∧ j'.path = j.path ∨ j'.id = 0

/-- A call that ends no one-shot job and adds none. -/
structure Left (s s' : Writer) : Prop where
  jobs : ∀ k, Leaves (s.jobs k) (s'.jobs k)
  phase : s'.phase = s.phase
  nextId : s'.nextId = s.nextId
  files : s'.files = s.files
  disk : ∃ ms, s'.disk = s.disk ++ ms ∧ ∀ x ∈ ms, x.2 = Mark.closed

lemma Leaves.refl : Leaves j j := ⟨fun _ => ⟨_, _, _, rfl⟩, id, .inl ⟨rfl, rfl⟩, .inl ⟨rfl, rfl⟩⟩

lemma Left.refl : Left s s := ⟨fun _ => .refl, rfl, rfl, rfl, [], (List.append_nil _).symm, nofun⟩

/-- What a step does, with the writes that it accepts and commits and the stream that it opens. -/
inductive Did (s : Writer) : Writer → List (Nat × Write) → List (Nat × Write) → List String →
    Prop where
  | leaves {s' : Writer} : Left s s' → Did s s' [] [] []
  | opens {s' : Writer} {i : Fin MAX_JOBS} {j : Job} : (s.jobs i).id = 0 → j.streaming = true →
      j.fd = none → s'.jobs = Function.update s.jobs i j → s'.phase = s.phase → s'.nextId ≠ 0 →
      s'.files = s.files → s'.disk = s.disk → Did s s' [] [] [j.path]
  | accepts {s' : Writer} {i : Fin MAX_JOBS} {j : Job} : (s.jobs i).id = 0 → j.id = s.nextId →
      j.streaming = false → Plain j .parked → j.fd = none →
      (∀ k, s.On j.path j.priority k → s.Before k i) → s'.jobs = Function.update s.jobs i j →
      s'.phase = s.phase → s'.nextId ≠ 0 → s'.files = s.files → s'.disk = s.disk →
      Did s s' [j.entry] [] []
  | picks {s₁ s' : Writer} {i : Fin MAX_JOBS} {rrTick : Nat} : Left s s₁ → s₁.phase = .parked →
      (∀ k, s₁.ready (s₁.jobs k) = true → s₁.Prefers i k) →
      s'.jobs = Function.update s₁.jobs i { s₁.jobs i with servicing := true, rrTick } →
      s'.phase = .picked i → s'.nextId = s₁.nextId → s'.files = s₁.files → s'.disk = s₁.disk →
      Did s s' [] [] []
  | turns {s' : Writer} {i : Fin MAX_JOBS} {j' : Job} {data' : Bytes} {ph' : Phase}
      {ms : List (Nat × Mark)} : Turned s s' i true j' data' ph' ms → s'.nextId = s.nextId →
      (s.phase = .picked i → (s.jobs i).aborting = false → (s.jobs i).fd = none →
        s.files < s'.files) → Did s s' [] [] []
  | goes {s' : Writer} {i : Fin MAX_JOBS} : s.phase = .leaving i false →
      s'.jobs = Function.update s.jobs i { s.jobs i with servicing := false } →
      s'.phase = .parked → s'.nextId = s.nextId → s'.files = s.files → s'.disk = s.disk →
      Did s s' [] [] []
  | ends {s' : Writer} {i : Fin MAX_JOBS} {j' : Job} {ms : List (Nat × Mark)} :
      s.phase = .leaving i true → s'.jobs = Function.update s.jobs i j' →
      ((s.jobs i).callerReaps = false → j'.id = 0) → j'.streaming = (s.jobs i).streaming →
      (j'.fd = (s.jobs i).fd ∨ j'.fd = none) → j'.path = (s.jobs i).path → s'.phase = .parked →
      s'.nextId = s.nextId → s'.files = s.files → s'.disk = s.disk ++ ms →
      (∀ x ∈ ms, x.2 = Mark.closed) →
      Did s s' [] (if (s.jobs i).streaming then [] else [(s.jobs i).entry]) []

/-- What `write` does. -/
lemma write_spec {up alloc path data op seekBack priority done} :
    ((s.write up alloc path data op seekBack priority done).1 = false ∧
        (s.write up alloc path data op seekBack priority done).2 = s) ∨
      ((s.write up alloc path data op seekBack priority done).1 = true ∧ data ≠ [] ∧
        ∃ i ownsBuf inlineBytes, s.findFree = some i ∧
          (s.write up alloc path data op seekBack priority done).2 =
            { s.addJob i { priority, path, op, seekBack, inbuf := data, ownsBuf, done } with
              inlineBytes }) := by
  unfold Writer.write
  dsimp only
  split
  next => exact .inl ⟨rfl, rfl⟩
  next hn =>
    have hdata : data ≠ [] := fun he => hn (.inr (.inl he))
    split
    next => exact .inl ⟨rfl, rfl⟩
    next =>
      split
      next => exact .inl ⟨rfl, rfl⟩
      next i hi =>
        refine .inr ⟨rfl, hdata, i, ?_⟩
        split
        next => exact ⟨_, _, hi, rfl⟩
        next => exact ⟨_, _, hi, rfl⟩

/-- What `open` does. -/
lemma openJob_spec {up size path op seekBack priority wantSha keep now} :
    ((s.openJob up size path op seekBack priority wantSha keep now).1 = 0 ∧
        (s.openJob up size path op seekBack priority wantSha keep now).2 = s) ∨
      ((s.openJob up size path op seekBack priority wantSha keep now).1 = s.nextId ∧
        ∃ i j rings issued, s.findFree = some i ∧ j.streaming = true ∧ j.path = path ∧ j.fd = none ∧
          (s.openJob up size path op seekBack priority wantSha keep now).2 =
            Writer.addJob i j { s with rings, issued }) := by
  unfold Writer.openJob
  dsimp only
  split
  next => exact .inl ⟨rfl, rfl⟩
  next =>
    split
    next i r ring hi _ => exact .inr ⟨rfl, i, _, _, _, hi, rfl, rfl, rfl, rfl⟩
    next => exact .inl ⟨rfl, rfl⟩

lemma bumpId_ne {n : Nat} : Writer.bumpId n ≠ 0 := by
  unfold Writer.bumpId
  dsimp only
  split
  next => exact Nat.one_ne_zero
  next h => exact h

lemma left_setJob (h : Leaves (s.jobs i) j) : Left s (s.setJob i j) :=
  ⟨fun k => setJob_all (P := Leaves) (fun _ => .refl) h k, rfl, rfl, rfl, [],
  (List.append_nil _).symm, nofun⟩

lemma not_shot_of_streaming (h : j.streaming = true) : ¬ j.Shot := fun hs =>
  Bool.false_ne_true (hs.2.symm.trans h)

/-- A stream stays one, or leaves its slot. -/
lemma leaves_stream (h : j.streaming = true) (h' : j'.streaming = true)
    (hf : j'.fd = j.fd ∧ j'.path = j.path ∨ j'.fd = none ∧ j'.id = 0)
    (hl : j'.id = j.id ∧ j'.path = j.path ∨ j'.id = 0) : Leaves j j' :=
  ⟨fun hs => absurd hs (not_shot_of_streaming h), fun _ => not_shot_of_streaming h', hf, hl⟩

/-- Only closing is left to the task or done at once. -/
lemma dropFd_disk (fd : Option Nat) (s : Writer) : ∃ pendingClose ms,
    s.dropFd fd = { s with pendingClose, disk := s.disk ++ ms } ∧ ∀ x ∈ ms, x.2 = Mark.closed := by
  unfold Writer.dropFd
  cases fd with
  | none => exact ⟨s.pendingClose, [], by rw [List.append_nil], nofun⟩
  | some fd =>
    dsimp only
    split
    next => exact ⟨_, [], by rw [List.append_nil], nofun⟩
    next => exact ⟨s.pendingClose, [(fd, .closed)], rfl,
      fun x hx => by rw [List.mem_singleton.mp hx]⟩

/-- What `release_job` leaves in the slot. -/
lemma releaseJob_jobs (i : Fin MAX_JOBS) (s : Writer) : ∃ j' ms,
    (s.releaseJob i).jobs = Function.update s.jobs i j' ∧ j'.id = 0 ∧ j'.fd = none ∧
      j'.streaming = (s.jobs i).streaming ∧ j'.path = (s.jobs i).path ∧
      (s.releaseJob i).phase = s.phase ∧ (s.releaseJob i).nextId = s.nextId ∧
      (s.releaseJob i).files = s.files ∧ (s.releaseJob i).disk = s.disk ++ ms ∧
      ∀ x ∈ ms, x.2 = Mark.closed := by
  obtain ⟨pendingClose, ms, hdrop, hms⟩ := dropFd_disk (s.jobs i).fd s
  obtain ⟨rings, hfree, -, -⟩ := freeRing_spec (s.jobs i).ringIdx
    { s with pendingClose, disk := s.disk ++ ms }
  unfold Writer.releaseJob
  dsimp only
  rw [hdrop, hfree]
  split
  next => exact ⟨_, ms, rfl, rfl, rfl, rfl, rfl, rfl, rfl, rfl, rfl, hms⟩
  next => exact ⟨_, ms, rfl, rfl, rfl, rfl, rfl, rfl, rfl, rfl, rfl, hms⟩

/-- Steps that reach no one-shot job. -/
lemma left_feed {hd : Nat} {data : Bytes} : Left s (s.feed hd data) := by
  unfold Writer.feed
  split
  next => exact .refl
  next =>
    dsimp only
    split
    next =>
      split
      next => exact ⟨fun _ => .refl, rfl, rfl, rfl, [], (List.append_nil _).symm, nofun⟩
      next => exact .refl
    next => exact .refl

lemma left_send {n m : Nat} : Left s (s.send n m) := by
  unfold Writer.send
  split
  next => exact .refl
  next f hf =>
    dsimp only
    split
    next =>
      refine ⟨fun k => ?_, rfl, rfl, rfl, [], (List.append_nil _).symm, nofun⟩
      dsimp only [Writer.sent]
      split
      next =>
        exact ⟨fun _ => ⟨_, _, _, rfl⟩, id, .inl ⟨rfl, rfl⟩, .inl ⟨rfl, rfl⟩⟩
      next => exact .refl
    next => exact .refl

lemma left_finish {hd : Nat} : Left s (s.finish hd) := by
  unfold Writer.finish
  split
  next => exact .refl
  next => exact left_setJob ⟨fun _ => ⟨_, _, _, rfl⟩, id, .inl ⟨rfl, rfl⟩, .inl ⟨rfl, rfl⟩⟩

lemma left_timeout {n : Nat} (hok : Sound s (.timeout n)) : Left s (s.timeout n) := by
  unfold Writer.timeout
  split
  next => exact .refl
  next f hf =>
    dsimp only
    split
    next => exact ⟨fun _ => .refl, rfl, rfl, rfl, [], (List.append_nil _).symm, nofun⟩
    next i hi =>
      have hst : (s.jobs i).streaming = true := hok f hf i hi
      have hl : Left s (s.setJob i { s.jobs i with error := true }) :=
        left_setJob (leaves_stream hst hst (.inl ⟨rfl, rfl⟩) (.inl ⟨rfl, rfl⟩))
      exact ⟨hl.jobs, rfl, rfl, rfl, hl.disk⟩

lemma left_release {hd : Nat} (hok : Sound s (.release hd)) : Left s (s.release hd) := by
  unfold Writer.release
  split
  next => exact .refl
  next i hi =>
    have hst : (s.jobs i).streaming = true := hok i hi
    dsimp only
    split
    next => exact left_setJob (leaves_stream hst hst (.inl ⟨rfl, rfl⟩) (.inl ⟨rfl, rfl⟩))
    next =>
      obtain ⟨j', ms, hjobs, hid, hfd, hst', hpath, hp, hn, hf, hd, hms⟩ := releaseJob_jobs i s
      refine ⟨fun k => ?_, hp, hn, hf, ms, hd, hms⟩
      rw [hjobs]
      exact setJob_all (fun _ => .refl)
        (leaves_stream hst (hst'.trans hst) (.inr ⟨hfd, hid⟩) (.inr hid)) k

lemma left_drain : Left s s.drain := by
  unfold Writer.drain
  split
  next fd fds _ _ =>
    refine ⟨fun _ => .refl, rfl, rfl, rfl, [(fd, .closed)], rfl, fun x hx => ?_⟩
    rw [List.mem_singleton.mp hx]
  next => exact .refl

lemma left_abandon {now : Nat} : Left s (s.abandon now) := by
  refine ⟨fun k => ?_, rfl, rfl, rfl, [], (List.append_nil _).symm, nofun⟩
  dsimp only [Writer.abandon]
  split
  next hsil =>
    have hst : (s.jobs k).streaming = true := (of_decide_eq_true hsil).2.1
    exact leaves_stream hst hst (.inl ⟨rfl, rfl⟩) (.inl ⟨rfl, rfl⟩)
  next => exact .refl

/-- A turn takes no handle. -/
lemma nextId_turn (he : e.turn = true) : (s.step e).nextId = s.nextId := by
  cases e with
  | start opened seeked =>
    change (s.start opened seeked).nextId = _
    unfold Writer.start
    dsimp only
    repeat' split
    all_goals rfl
  | receive now =>
    change (s.receive now).nextId = _
    unfold Writer.receive
    dsimp only
    repeat' split
    all_goals rfl
  | look =>
    change s.look.nextId = _
    unfold Writer.look
    split
    all_goals rfl
  | put n =>
    change (s.put n).nextId = _
    unfold Writer.put
    dsimp only
    repeat' split
    all_goals rfl
  | check =>
    change s.check.nextId = _
    unfold Writer.check
    split
    all_goals rfl
  | sync ok =>
    change (s.sync ok).nextId = _
    unfold Writer.sync
    dsimp only
    repeat' split
    all_goals rfl
  | close =>
    change s.close.nextId = _
    unfold Writer.close
    split
    all_goals rfl
  | _ => cases he

/-- A file that is opened gets a new number. -/
lemma files_start {opened seeked : Bool} (hc : (Event.start opened seeked).clean = true)
    (hp : s.phase = .picked i) (ha : (s.jobs i).aborting = false) (hfd : (s.jobs i).fd = none) :
    s.files < (s.start opened seeked).files := by
  rw [Event.clean, Bool.and_eq_true] at hc
  unfold Writer.start
  rw [hp]
  dsimp only
  rw [if_neg (by rw [ha]; exact Bool.false_ne_true), hfd]
  dsimp only
  rw [if_neg (by rw [hc.1]; exact Bool.false_ne_true),
    if_neg fun hn => absurd hn.2 (by rw [hc.2]; exact Bool.false_ne_true)]
  exact Nat.lt_succ_self _

lemma did_turn (he : e.turn = true) (hc : e.clean = true) : Did s (s.step e) [] [] [] := by
  by_cases hn : e.Next s
  · obtain ⟨i, ok, j', data', ph', ms, ht, hok⟩ := next_turns hn
    rw [hok hc] at ht
    refine .turns ht (nextId_turn he) fun hp ha hfd => ?_
    cases e with
    | start => exact files_start hc hp ha hfd
    | put =>
      obtain ⟨_, _, _, hn⟩ := hn
      cases hp.symm.trans hn
    | receive | look | check | sync | close =>
      obtain ⟨_, hn⟩ := hn
      cases hp.symm.trans hn
    | _ => cases he
  · rw [step_idle he hn]
    exact .leaves .refl

lemma did_write {up alloc path data op seekBack priority done}
    (hok : Sound s (.write up alloc path data op seekBack priority done)) :
    Did s (s.write up alloc path data op seekBack priority done).2
      (s.accepts (.write up alloc path data op seekBack priority done)) [] [] := by
  dsimp only [Writer.accepts]
  rcases @write_spec s up alloc path data op seekBack priority done with
    ⟨hf, hs⟩ | ⟨ht, hdata, i, ownsBuf, inlineBytes, hi, hs⟩
  · rw [hf, hs, if_neg Bool.false_ne_true]
    exact .leaves .refl
  · rw [ht, if_pos rfl, hs]
    let j : Job :=
      { priority, path, op, seekBack, inbuf := data, ownsBuf, done
        id := s.nextId
        serial := s.created }
    have hj : Plain j .parked := ⟨rfl, rfl, rfl, rfl, hdata, Nat.zero_le _, fun _ => rfl⟩
    exact .accepts (j := j) (findFree_spec hi) rfl rfl hj rfl
      (hok ht i hi) rfl rfl bumpId_ne rfl rfl

lemma did_openJob {up size path op seekBack priority wantSha keep now} (hn : s.nextId ≠ 0) :
    Did s (s.openJob up size path op seekBack priority wantSha keep now).2 [] []
      (s.opens (.openJob up size path op seekBack priority wantSha keep now)) := by
  dsimp only [Writer.opens]
  rcases @openJob_spec s up size path op seekBack priority wantSha keep now with
    ⟨hz, hs⟩ | ⟨hid, i, j, rings, issued, hi, hst, rfl, hfd, hs⟩
  · rw [hz, hs, if_pos rfl]
    exact .leaves .refl
  · rw [hid, hs, if_neg hn]
    exact .opens (j := { j with id := s.nextId, serial := s.created })
      (findFree_spec hi) hst hfd rfl
      rfl bumpId_ne rfl rfl

lemma did_pick {now : Nat} : Did s (s.pick now) [] [] [] := by
  by_cases hp : s.phase = .parked
  · rcases pick_spec now hp with ⟨-, hs⟩ | ⟨i, hb, -, hs⟩
    · rw [hs]
      exact .leaves left_abandon
    · rw [hs]
      exact .picks left_abandon hp (fun k hr => prefers_best hb hr) rfl rfl rfl rfl rfl
  · have hs : s.pick now = s := by
      unfold Writer.pick
      split
      next h => exact absurd h hp
      next => rfl
    rw [hs]
    exact .leaves .refl

lemma did_commit : Did s s.commit [] (s.commits .commit) [] := by
  by_cases hp : ∃ i terminal, s.phase = .leaving i terminal
  · obtain ⟨i, terminal, hp⟩ := hp
    dsimp only [Writer.commits]
    rw [hp]
    rcases commit_spec hp with ⟨rfl, hs⟩ | ⟨rfl, inlineBytes, ⟨hs, hreaps⟩ | hs⟩
    · rw [hs]
      exact .goes hp rfl rfl rfl rfl rfl
    · rw [hs]
      refine .ends hp rfl (fun hr => ?_) rfl (.inl rfl) rfl rfl rfl rfl
        (List.append_nil _).symm nofun
      exact absurd (hr.symm.trans hreaps) Bool.false_ne_true
    · obtain ⟨j', ms, hjobs, hid, hfd, hst, hpath, hph, hn, hf, hd, hms⟩ := releaseJob_jobs i
        { s.setJob i { s.jobs i with servicing := false } with phase := .parked, inlineBytes }
      have hself : (Function.update s.jobs i { s.jobs i with servicing := false } i).streaming =
          (s.jobs i).streaming ∧
          (Function.update s.jobs i { s.jobs i with servicing := false } i).path =
          (s.jobs i).path := by
        rw [Function.update_self]
        exact ⟨rfl, rfl⟩
      rw [hs]
      refine @Did.ends s _ i j' ms hp ?_ (fun _ => hid) ?_ (.inr hfd) ?_ hph hn hf hd hms
      · rw [hjobs]
        exact Function.update_idem ..
      · exact hst.trans hself.1
      · exact hpath.trans hself.2
  · have hs : s.commit = s := by
      unfold Writer.commit
      split
      next hl => exact absurd ⟨_, _, hl⟩ hp
      next => rfl
    have hc : s.commits .commit = [] := by
      dsimp only [Writer.commits]
      split
      next hl => exact absurd ⟨_, _, hl⟩ hp
      next => rfl
    rw [hs, hc]
    exact .leaves .refl

/-- What a step does that has no error. -/
lemma did_step (hn : s.nextId ≠ 0) (hc : e.clean = true) (hok : Sound s e) :
    Did s (s.step e) (s.accepts e) (s.commits e) (s.opens e) := by
  cases e with
  | write => exact did_write hok
  | openJob => exact did_openJob hn
  | feed => exact .leaves left_feed
  | send => exact .leaves left_send
  | timeout => exact .leaves (left_timeout hok)
  | finish => exact .leaves left_finish
  | release => exact .leaves (left_release hok)
  | pick => exact did_pick
  | commit => exact did_commit
  | drain => exact .leaves left_drain
  | _ => exact did_turn rfl hc

/-- A turn leaves what kind of job it is. -/
lemma Turn.kind {files : Nat} {data data' : Bytes} {ms : List (Nat × Mark)} {ok : Bool}
    (h : Turn files i j data ok ph j' data' ph' ms) : j'.id = j.id ∧
    j'.streaming = j.streaming := by
  cases h with
  | _ => exact ⟨rfl, rfl⟩

/-! ### The line -/

/-- The slots `ks` with the writes to a path at a priority that are not committed yet. Each comes to
its end before those behind it, and only the first one is under way. -/
structure Line (l : Ledger) (p : String) (q : Nat) (ks : List (Fin MAX_JOBS)) : Prop where
  booked : on p q l.accepted = on p q l.committed ++ ks.map fun k => (l.writer.jobs k).entry
  mem : ∀ k, k ∈ ks ↔ l.writer.On p q k
  nodup : ks.Nodup
  before : ks.Pairwise l.writer.Before
  first : ∀ k ∈ ks, l.writer.phase.slot = some k → ks.head? = some k
  later : ∀ k ∈ ks.tail, (l.writer.jobs k).fd = none

/-- The writes stand in line. -/
structure Ordered (l : Ledger) : Prop where
  next : l.writer.nextId ≠ 0
  plain : ∀ k, (l.writer.jobs k).Shot → Plain (l.writer.jobs k) (l.writer.view k)
  line : ∀ p q, ∃ ks, Line l p q ks

lemma Ordered.init : Ordered {} :=
  ⟨Nat.one_ne_zero, fun _ h => absurd rfl h.1, fun _ _ =>
    ⟨[], rfl, fun _ => ⟨nofun, fun h => absurd rfl h.1.1⟩, List.nodup_nil, .nil, nofun, nofun⟩⟩

/-- The one behind is not the first. -/
lemma Line.not_slot (h : Line l p q ks) (hk : k ∈ ks.tail) : l.writer.phase.slot ≠ some k := by
  intro hs
  have hhead := h.first k (List.mem_of_mem_tail hk) hs
  have hnodup := h.nodup
  cases ks with
  | nil => cases hk
  | cons a ks =>
    obtain rfl := Option.some.inj hhead
    exact (List.nodup_cons.mp hnodup).1 hk

/-- What a step leaves of a one-shot job that it does not end. -/
structure Stays (s s' : Writer) (k : Fin MAX_JOBS) : Prop where
  shot : (s'.jobs k).Shot
  entry : (s'.jobs k).entry = (s.jobs k).entry
  plain : Plain (s.jobs k) (s.view k) → Plain (s'.jobs k) (s'.view k)
  before : Plain (s.jobs k) (s.view k) → ∀ i, s.Before k i → s'.Before k i
  fd : (s'.jobs k).fd = (s.jobs k).fd ∨ s.phase.slot = some k

/-- A job that is the first of the line at its path and its priority. -/
def Writer.Leads (s : Writer) (k : Fin MAX_JOBS) : Prop :=
  ∀ i, s.On (s.jobs k).path (s.jobs k).priority i → ¬ s.Before i k

lemma Stays.on (h : Stays s s' k) (hk : s.On p q k) : s'.On p q k := by
  have he := congrArg Prod.snd h.entry
  exact ⟨h.shot, (congrArg Write.path he).trans hk.2.1, (congrArg Write.priority he).trans hk.2.2⟩

/-- A step that ends no one-shot job and accepts none keeps the line. -/
lemma Ordered.keep {l' : Ledger} (h : Ordered l) (hnext : l'.writer.nextId ≠ 0)
    (hold : ∀ k, (l.writer.jobs k).Shot → Stays l.writer l'.writer k)
    (hnew : ∀ k, (l'.writer.jobs k).Shot → (l.writer.jobs k).Shot)
    (hslot : ∀ k, (l.writer.jobs k).Shot → l'.writer.phase.slot = some k →
      l.writer.phase.slot = some k ∨ l.writer.Leads k)
    (hacc : l'.accepted = l.accepted) (hcom : l'.committed = l.committed) : Ordered l' := by
  refine ⟨hnext, fun k hk => (hold k (hnew k hk)).plain (h.plain k (hnew k hk)), fun p q => ?_⟩
  obtain ⟨ks, hl⟩ := h.line p q
  have hks : ∀ k ∈ ks, Stays l.writer l'.writer k := fun k hk => hold k ((hl.mem k).mp hk).1
  refine ⟨ks, ?_, fun k => ⟨fun hk => (hks k hk).on ((hl.mem k).mp hk), fun hk => ?_⟩, hl.nodup, ?_,
    fun k hk hs => ?_, fun k hk => ?_⟩
  · rw [hacc, hcom, hl.booked]
    exact congrArg _ (List.map_congr_left fun k hk => (hks k hk).entry.symm)
  · have hs := hold k (hnew k hk.1)
    have he := congrArg Prod.snd hs.entry
    exact (hl.mem k).mpr ⟨hnew k hk.1, (congrArg Write.path he).symm.trans hk.2.1,
      (congrArg Write.priority he).symm.trans hk.2.2⟩
  · refine hl.before.imp_of_mem fun {a b} ha _ hab => ?_
    exact (hks a ha).before (h.plain a ((hl.mem a).mp ha).1) b hab
  · rcases hslot k ((hl.mem k).mp hk).1 hs with hs | hlead
    · exact hl.first k hk hs
    · -- nothing stands before a job that leads
      cases ks with
      | nil => cases hk
      | cons a ks =>
        rcases List.mem_cons.mp hk with rfl | hk'
        · rfl
        · have hon := (hl.mem k).mp hk
          refine absurd ((List.pairwise_cons.mp hl.before).1 k hk') (hlead a ?_)
          rw [hon.2.1, hon.2.2]
          exact (hl.mem a).mp List.mem_cons_self
  · rcases (hks k (List.mem_of_mem_tail hk)).fd with hf | hs
    · exact hf.trans (hl.later k hk)
    · exact absurd hs (hl.not_slot hk)

/-- A job that is changed in nothing that a one-shot write reads. -/
lemma stays_of_same (hk : (s.jobs k).Shot) (hv : s'.view k = s.view k)
    (hj : ∃ fed ending finishAt, s'.jobs k = { s.jobs k with fed, ending, finishAt }) :
    Stays s s' k := by
  obtain ⟨fed, ending, finishAt, hj⟩ := hj
  refine ⟨?_, ?_, fun h => ?_, fun _ i hb => ?_, .inl ?_⟩
  · rw [hj]
    exact hk
  · rw [hj]
    rfl
  · rw [hj, hv]
    exact ⟨h.held, h.sound, h.open_, h.reaped, h.full, h.le, h.at_⟩
  · unfold Writer.Before
    rw [hj, hv]
    exact hb
  · rw [hj]

/-- A call that leaves the one-shot jobs as they are. -/
lemma Ordered.left {l' : Ledger} (h : Ordered l) (hs : Left l.writer l'.writer)
    (hacc : l'.accepted = l.accepted) (hcom : l'.committed = l.committed) : Ordered l' := by
  refine h.keep (hs.nextId.trans_ne h.next)
    (fun k hk => stays_of_same hk (view_eq (.inl hs.phase)) ((hs.jobs k).shot hk))
    (fun k hk => by_contra fun hn => (hs.jobs k).other hn hk) (fun k _ hp => .inl ?_) hacc hcom
  rw [← hs.phase]
  exact hp

/-- The task works on one job, and the others stay as they are. -/
lemma Ordered.slot {l' : Ledger} (h : Ordered l)
    (hjobs : l'.writer.jobs = Function.update l.writer.jobs i j')
    (hphase : ∀ k ≠ i, l.writer.phase.slot ≠ some k ∧ l'.writer.phase.slot ≠ some k)
    (hi : (l.writer.jobs i).Shot → Stays l.writer l'.writer i)
    (hother : ¬ (l.writer.jobs i).Shot → ¬ j'.Shot)
    (hslot : (l.writer.jobs i).Shot → l'.writer.phase.slot = some i →
      l.writer.phase.slot = some i ∨ l.writer.Leads i)
    (hnext : l'.writer.nextId = l.writer.nextId)
    (hacc : l'.accepted = l.accepted) (hcom : l'.committed = l.committed) : Ordered l' := by
  refine h.keep (hnext.trans_ne h.next) (fun k hk => ?_) (fun k hk => ?_)
    (fun k hk hs => ?_) hacc hcom
  · by_cases hki : k = i
    · subst hki
      exact hi hk
    · have hsame : l'.writer.jobs k = l.writer.jobs k := by rw [hjobs, Function.update_of_ne hki]
      exact stays_of_same hk (view_eq (.inr (hphase k hki))) ⟨_, _, _, hsame⟩
  · rw [hjobs] at hk
    by_cases hki : k = i
    · subst hki
      rw [Function.update_self] at hk
      exact by_contra fun hn => hother hn hk
    · rw [Function.update_of_ne hki] at hk
      exact hk
  · by_cases hki : k = i
    · subst hki
      exact hslot hk hs
    · exact absurd hs (hphase k hki).2

lemma view_self (h : s.phase.slot = some i) : s.view i = s.phase := if_pos h

lemma view_parked (h : s.phase = .parked) : s.view i = .parked := by
  unfold Writer.view
  rw [h]
  exact if_neg nofun

/-- The job that is picked leads its line. -/
lemma Ordered.pick {l' : Ledger} {rrTick : Nat} (h : Ordered l) (hp : l.writer.phase = .parked)
    (hbest : ∀ k, l.writer.ready (l.writer.jobs k) = true → l.writer.Prefers i k)
    (hjobs : l'.writer.jobs = Function.update l.writer.jobs i
      { l.writer.jobs i with servicing := true, rrTick })
    (hp' : l'.writer.phase = .picked i) (hnext : l'.writer.nextId = l.writer.nextId)
    (hacc : l'.accepted = l.accepted) (hcom : l'.committed = l.committed) : Ordered l' := by
  have hself : l'.writer.jobs i = { l.writer.jobs i with servicing := true, rrTick } := by
    rw [hjobs, Function.update_self]
  have hv' : l'.writer.view i = .picked i := (view_self (by rw [hp']; rfl)).trans hp'
  refine h.slot hjobs (fun k hk => ?_) (fun hi => ?_) id (fun hi _ => .inr fun a ha hb => ?_) hnext
    hacc hcom
  · rw [hp, hp']
    exact ⟨nofun, fun he => hk (Option.some.inj he).symm⟩
  · refine ⟨?_, ?_, fun hpl => ?_, fun hpl x hb => .inl ?_, .inl ?_⟩
    · rw [hself]
      exact hi
    · rw [hself]
      rfl
    · rw [view_parked hp] at hpl
      rw [hself, hv']
      exact { hpl with at_ := hpl.at_ }
    · unfold Writer.Before at hb
      rw [view_parked hp] at hb
      rw [hself, hv']
      rcases hb with hb | ⟨-, -, hlen⟩
      · exact hb.elim
      · exact (Nat.sub_le _ _).trans hlen
    · rw [hself]
  · unfold Writer.Before at hb
    rw [view_parked hp] at hb
    rcases hb with hb | ⟨htick, hlt, -⟩
    · exact hb
    · have hready := (h.plain a ha.1).ready (s := l.writer) ha.1
      have hpref := hbest a hready
      have hprio := ha.2.2
      unfold Writer.Prefers at hpref
      omega

/-- The task takes its next step for a job. -/
lemma Ordered.turn {l' : Ledger} {data' : Bytes} {ms : List (Nat × Mark)} (h : Ordered l)
    (ht : Turned l.writer l'.writer i true j' data' ph' ms)
    (hnext : l'.writer.nextId = l.writer.nextId) (hacc : l'.accepted = l.accepted)
    (hcom : l'.committed = l.committed) : Ordered l' := by
  obtain ⟨hs, hs', -⟩ := ht.turn.slot
  have hself : l'.writer.jobs i = j' := by rw [ht.jobs, Function.update_self]
  have hv : l.writer.view i = l.writer.phase := view_self hs
  have hv' : l'.writer.view i = ph' := (view_self (by rw [ht.phase]; exact hs')).trans ht.phase
  refine h.slot ht.jobs (fun k hk => ?_) (fun hi => ?_) (fun hi hj => hi ?_)
    (fun _ _ => .inl hs) hnext hacc hcom
  · rw [hs, ht.phase, hs']
    exact ⟨fun he => hk (Option.some.inj he).symm, fun he => hk (Option.some.inj he).symm⟩
  · have hm (hpl : Plain (l.writer.jobs i) (l.writer.view i)) := ht.turn.moved hi.2 (hv ▸ hpl)
    have hpl := h.plain i hi
    refine ⟨?_, ?_, fun hpl => ?_, fun hpl x hb => ?_, .inr hs⟩
    · rw [hself, Job.Shot, (hm hpl).shot.1, (hm hpl).shot.2]
      exact hi
    · rw [hself]
      exact (hm hpl).entry
    · rw [hself, hv']
      exact (hm hpl).plain
    · unfold Writer.Before at hb ⊢
      rw [hself, hv', (hm hpl).rrTick]
      rw [hv] at hb
      have he : j'.inbuf = (l.writer.jobs i).inbuf := congrArg (fun x => x.2.data) (hm hpl).entry
      rw [he]
      exact hb.imp_left (hm hpl).ending
  · obtain ⟨hid, hst⟩ := ht.turn.kind
    exact ⟨hid ▸ hj.1, hst ▸ hj.2⟩

/-- The task leaves a job that has more to write. -/
lemma Ordered.go {l' : Ledger} (h : Ordered l) (hp : l.writer.phase = .leaving i false)
    (hjobs : l'.writer.jobs = Function.update l.writer.jobs i
      { l.writer.jobs i with servicing := false })
    (hp' : l'.writer.phase = .parked) (hnext : l'.writer.nextId = l.writer.nextId)
    (hacc : l'.accepted = l.accepted) (hcom : l'.committed = l.committed) : Ordered l' := by
  have hs : l.writer.phase.slot = some i := by
    rw [hp]
    rfl
  have hself : l'.writer.jobs i = { l.writer.jobs i with servicing := false } := by
    rw [hjobs, Function.update_self]
  have hv : l.writer.view i = .leaving i false := (view_self hs).trans hp
  refine h.slot hjobs (fun k hk => ?_) (fun hi => ?_) id (fun _ _ => .inl hs) hnext hacc hcom
  · rw [hs, hp']
    exact ⟨fun he => hk (Option.some.inj he).symm, nofun⟩
  · refine ⟨?_, ?_, fun hpl => ?_, fun _ x hb => .inr ?_, .inr hs⟩
    · rw [hself]
      exact hi
    · rw [hself]
      rfl
    · rw [hv] at hpl
      rw [hself, view_parked hp']
      exact { hpl with at_ := fun hfd => absurd hfd hpl.at_ }
    · unfold Writer.Before at hb
      rw [hv] at hb
      rw [hself]
      exact hb.resolve_left id

lemma on_entry : on p q [j.entry] = if j.path = p ∧ j.priority = q then [j.entry] else [] := by
  unfold on
  by_cases h : j.path = p ∧ j.priority = q
  · rw [if_pos h]
    exact List.filter_cons_of_pos (decide_eq_true h)
  · rw [if_neg h]
    exact List.filter_cons_of_neg fun hd => h (of_decide_eq_true hd)

/-- Jobs that stay keep their places. -/
lemma Line.before_of_same (h : Line l p q ks) {ks' : List (Fin MAX_JOBS)} (hs : ks'.Sublist ks)
    (hsame : ∀ k ∈ ks', s'.jobs k = l.writer.jobs k ∧ s'.view k = l.writer.view k) :
    ks'.Pairwise s'.Before := by
  refine (h.before.sublist hs).imp_of_mem fun {a b} ha _ hab => ?_
  unfold Writer.Before
  rw [(hsame a ha).1, (hsame a ha).2]
  exact hab

/-- The first of its line is committed. -/
lemma Ordered.settle {l' : Ledger} (h : Ordered l) (hi : (l.writer.jobs i).Shot)
    (hp : l.writer.phase = .leaving i true)
    (hjobs : l'.writer.jobs = Function.update l.writer.jobs i j') (hj : j'.id = 0)
    (hp' : l'.writer.phase = .parked) (hnext : l'.writer.nextId = l.writer.nextId)
    (hacc : l'.accepted = l.accepted)
    (hcom : l'.committed = l.committed ++ [(l.writer.jobs i).entry]) : Ordered l' := by
  have hs : l.writer.phase.slot = some i := by
    rw [hp]
    rfl
  have hself : l'.writer.jobs i = j' := by rw [hjobs, Function.update_self]
  have hgone : ¬ (l'.writer.jobs i).Shot := fun hn => hn.1 (hself ▸ hj)
  have hsame : ∀ k ≠ i, l'.writer.jobs k = l.writer.jobs k ∧
    l'.writer.view k = l.writer.view k := by
    refine fun k hk => ⟨by rw [hjobs, Function.update_of_ne hk], view_eq (.inr ?_)⟩
    rw [hs, hp']
    exact ⟨fun he => hk (Option.some.inj he).symm, nofun⟩
  have hon : ∀ p q, ∀ k ≠ i, (l'.writer.On p q k ↔ l.writer.On p q k) := fun p q k hk => by
    unfold Writer.On
    rw [(hsame k hk).1]
  refine ⟨hnext.trans_ne h.next, fun k hk => ?_, fun p q => ?_⟩
  · have hki : k ≠ i := fun he => hgone (he ▸ hk)
    rw [(hsame k hki).1] at hk ⊢
    rw [(hsame k hki).2]
    exact h.plain k hk
  obtain ⟨ks, hl⟩ := h.line p q
  by_cases hmem : i ∈ ks
  · -- the job that ends is the first one
    have hhead := hl.first i hmem hs
    have hmatch := (hl.mem i).mp hmem
    cases ks with
    | nil => cases hmem
    | cons a ks =>
      obtain rfl := Option.some.inj hhead
      have hnot : a ∉ ks := (List.nodup_cons.mp hl.nodup).1
      have hne : ∀ k ∈ ks, k ≠ a := fun k hk he => hnot (he ▸ hk)
      refine ⟨ks, ?_, fun k => ?_, (List.nodup_cons.mp hl.nodup).2, ?_, fun k hk hs' => ?_,
        fun k hk => ?_⟩
      · rw [hacc, hcom, on_append, on_entry, if_pos ⟨hmatch.2.1, hmatch.2.2⟩, hl.booked,
          List.map_cons, List.append_assoc, List.singleton_append]
        exact congrArg _ (congrArg _
          (List.map_congr_left fun k hk => by rw [(hsame k (hne k hk)).1]))
      · by_cases hka : k = a
        · subst hka
          exact iff_of_false hnot fun hn => hgone hn.1
        · rw [hon p q k hka, ← hl.mem k, List.mem_cons]
          exact ⟨.inr, fun hk => hk.resolve_left hka⟩
      · exact hl.before_of_same (List.sublist_cons_self _ _) fun k hk => hsame k (hne k hk)
      · rw [hp'] at hs'
        cases hs'
      · have hk := List.mem_of_mem_tail hk
        rw [(hsame k (hne k hk)).1]
        exact hl.later k hk
  · have hne : ∀ k ∈ ks, k ≠ i := fun k hk he => hmem (he ▸ hk)
    have hnot : ¬ ((l.writer.jobs i).path = p ∧ (l.writer.jobs i).priority = q) := fun hm =>
      hmem ((hl.mem i).mpr ⟨hi, hm.1, hm.2⟩)
    refine ⟨ks, ?_, fun k => ?_, hl.nodup, ?_, fun k hk hs' => ?_, fun k hk => ?_⟩
    · rw [hacc, hcom, on_append, on_entry, if_neg hnot, List.append_nil, hl.booked]
      exact congrArg _ (List.map_congr_left fun k hk => by rw [(hsame k (hne k hk)).1])
    · by_cases hki : k = i
      · subst hki
        exact iff_of_false hmem fun hn => hgone hn.1
      · rw [hon p q k hki, hl.mem k]
    · exact hl.before_of_same (List.Sublist.refl _) fun k hk => hsame k (hne k hk)
    · rw [hp'] at hs'
      cases hs'
    · rw [(hsame k (hne k (List.mem_of_mem_tail hk))).1]
      exact hl.later k hk

/-- A write is put at the end of its line. -/
lemma Ordered.accept {l' : Ledger} (h : Ordered l) (hi : (l.writer.jobs i).id = 0)
    (hfree : l.writer.phase.slot ≠ some i)
    (hid : j.id = l.writer.nextId) (hst : j.streaming = false) (hpl : Plain j .parked)
    (hfd : j.fd = none) (hbefore : ∀ k, l.writer.On j.path j.priority k → l.writer.Before k i)
    (hjobs : l'.writer.jobs = Function.update l.writer.jobs i j)
    (hp : l'.writer.phase = l.writer.phase) (hnext : l'.writer.nextId ≠ 0)
    (hacc : l'.accepted = l.accepted ++ [j.entry]) (hcom : l'.committed = l.committed) :
    Ordered l' := by
  have hself : l'.writer.jobs i = j := by rw [hjobs, Function.update_self]
  have hshot : (l'.writer.jobs i).Shot := by
    rw [hself]
    exact ⟨hid.trans_ne h.next, hst⟩
  have hsame : ∀ k ≠ i, l'.writer.jobs k = l.writer.jobs k ∧ l'.writer.view k = l.writer.view k :=
    fun k hk => ⟨by rw [hjobs, Function.update_of_ne hk], view_eq (.inl hp)⟩
  have hview : l'.writer.view i = .parked := if_neg (by rw [hp]; exact hfree)
  refine ⟨hnext, fun k hk => ?_, fun p q => ?_⟩
  · by_cases hki : k = i
    · subst hki
      rw [hself, hview]
      exact hpl
    · rw [(hsame k hki).1] at hk ⊢
      rw [(hsame k hki).2]
      exact h.plain k hk
  obtain ⟨ks, hl⟩ := h.line p q
  have hmem : i ∉ ks := fun hk => ((hl.mem i).mp hk).1.1 hi
  have hne : ∀ k ∈ ks, k ≠ i := fun k hk he => hmem (he ▸ hk)
  have hon : ∀ k ≠ i, (l'.writer.On p q k ↔ k ∈ ks) := fun k hk => by
    rw [hl.mem k]
    unfold Writer.On
    rw [(hsame k hk).1]
  have hmap : ks.map (fun k => (l'.writer.jobs k).entry) =
    ks.map fun k => (l.writer.jobs k).entry :=
    List.map_congr_left fun k hk => by rw [(hsame k (hne k hk)).1]
  have hks := hl.before_of_same (List.Sublist.refl _) fun k hk => hsame k (hne k hk)
  have hfirst : ∀ k ∈ ks, l'.writer.phase.slot = some k → ks.head? = some k := fun k hk hs =>
    hl.first k hk (hp ▸ hs)
  by_cases hm : j.path = p ∧ j.priority = q
  · obtain ⟨rfl, rfl⟩ := hm
    refine ⟨ks ++ [i], ?_, fun k => ?_, ?_, ?_, fun k hk hs => ?_, fun k hk => ?_⟩
    · rw [hacc, hcom, on_append, on_entry, if_pos ⟨rfl, rfl⟩, hl.booked, List.map_append, hmap,
        List.append_assoc, List.map_singleton, hself]
    · rw [List.mem_append, List.mem_singleton]
      by_cases hki : k = i
      · subst hki
        refine iff_of_true (.inr rfl) ⟨hshot, ?_, ?_⟩
        · rw [hself]
        · rw [hself]
      · rw [hon k hki]
        exact ⟨fun hk => hk.resolve_right hki, .inl⟩
    · exact List.nodup_append.mpr ⟨hl.nodup, List.nodup_singleton _, fun a ha b hb he =>
        hmem (List.mem_singleton.mp hb ▸ he ▸ ha)⟩
    · refine List.pairwise_append.mpr ⟨hks, List.pairwise_singleton _ _, fun a ha b hb => ?_⟩
      obtain rfl := List.mem_singleton.mp hb
      unfold Writer.Before
      rw [(hsame a (hne a ha)).1, (hsame a (hne a ha)).2]
      exact hbefore a ((hl.mem a).mp ha)
    · rcases List.mem_append.mp hk with hk | hk
      · rw [List.head?_append, hfirst k hk hs]
        rfl
      · obtain rfl := List.mem_singleton.mp hk
        exact absurd (hp ▸ hs) hfree
    · cases ks with
      | nil => cases hk
      | cons a ks =>
        rcases List.mem_append.mp hk with hk | hk
        · rw [(hsame k (hne k (List.mem_cons_of_mem _ hk))).1]
          exact hl.later k hk
        · obtain rfl := List.mem_singleton.mp hk
          rw [hself]
          exact hfd
  · refine ⟨ks, ?_, fun k => ?_, hl.nodup, hks, hfirst, fun k hk => ?_⟩
    · rw [hacc, hcom, on_append, on_entry, if_neg hm, List.append_nil, hl.booked, hmap]
    · by_cases hki : k = i
      · subst hki
        refine iff_of_false hmem fun hn => hm ?_
        rw [← hself]
        exact hn.2
      · exact (hon k hki).symm
    · rw [(hsame k (hne k (List.mem_of_mem_tail hk))).1]
      exact hl.later k hk

/-- Every step keeps the lines. -/
lemma Ordered.did {l' : Ledger} {acc com : List (Nat × Write)} {str : List String} (h : Ordered l)
    (hh : Held l.writer) (hd : Did l.writer s' acc com str) (hw : l'.writer = s')
    (hacc : l'.accepted = l.accepted ++ acc) (hcom : l'.committed = l.committed ++ com) :
    Ordered l' := by
  cases hd with
  | leaves hl =>
    exact h.left (hw ▸ hl) (hacc.trans (List.append_nil _)) (hcom.trans (List.append_nil _))
  | @opens _ i j hi hst hfd hjobs hp hn hf hdk =>
    have hacc := hacc.trans (List.append_nil _)
    have hcom := hcom.trans (List.append_nil _)
    have hnot : ¬ (l.writer.jobs i).Shot := fun hs => hs.1 hi
    have hjobs : l'.writer.jobs = Function.update l.writer.jobs i j := hw ▸ hjobs
    have hp : l'.writer.phase = l.writer.phase := hw ▸ hp
    refine h.keep (hw ▸ hn) (fun k hk => ?_) (fun k hk => ?_)
      (fun k _ hs => .inl (hp ▸ hs)) hacc hcom
    · have hki : k ≠ i := fun he => hnot (he ▸ hk)
      have hsame : l'.writer.jobs k = l.writer.jobs k := by rw [hjobs, Function.update_of_ne hki]
      exact stays_of_same hk (view_eq (.inl hp)) ⟨_, _, _, hsame⟩
    · have hki : k ≠ i := fun he => by
        rw [he, hjobs, Function.update_self] at hk
        exact not_shot_of_streaming hst hk
      rw [hjobs, Function.update_of_ne hki] at hk
      exact hk
  | @accepts _ i j hi hid hst hpl hfd hbefore hjobs hp hn hf hdk =>
    exact h.accept hi (fun hs => (hh.busy i hs).1 hi) hid hst hpl hfd hbefore (hw ▸ hjobs) (hw ▸ hp)
      (hw ▸ hn) hacc (hcom.trans (List.append_nil _))
  | @picks s₁ _ i rrTick hl hp hbest hjobs hp' hn hf hdk =>
    have h₁ : Ordered { l with writer := s₁ } := h.left hl rfl rfl
    exact h₁.pick hp hbest (hw ▸ hjobs) (hw ▸ hp') (hw ▸ hn) (hacc.trans (List.append_nil _))
      (hcom.trans (List.append_nil _))
  | turns ht hn _ =>
    exact h.turn (hw ▸ ht) (hw ▸ hn) (hacc.trans (List.append_nil _))
      (hcom.trans (List.append_nil _))
  | goes hp hjobs hp' hn hf hdk =>
    exact h.go hp (hw ▸ hjobs) (hw ▸ hp') (hw ▸ hn) (hacc.trans (List.append_nil _))
      (hcom.trans (List.append_nil _))
  | @ends _ i j' ms hp hjobs hid hst hfd hpath hp' hn hf hdk hms =>
    have hacc := hacc.trans (List.append_nil _)
    by_cases hi : (l.writer.jobs i).Shot
    · rw [if_neg (by rw [hi.2]; exact Bool.false_ne_true)] at hcom
      exact h.settle hi hp (hw ▸ hjobs) (hid (h.plain i hi).reaped) (hw ▸ hp') (hw ▸ hn) hacc hcom
    · have hs : l.writer.phase.slot = some i := by
        rw [hp]
        rfl
      have hstream : (l.writer.jobs i).streaming = true :=
        Bool.eq_true_of_not_eq_false fun hf => hi ⟨(hh.busy i hs).1, hf⟩
      rw [if_pos hstream] at hcom
      refine h.slot (hw ▸ hjobs) (fun k hk => ?_) (fun hn => absurd hn hi)
        (fun _ => not_shot_of_streaming (hst.trans hstream)) (fun hn => absurd hn hi) (hw ▸ hn) hacc
        (hcom.trans (List.append_nil _))
      rw [hs, hw, hp']
      exact ⟨fun he => hk (Option.some.inj he).symm, nofun⟩

/-- Every step keeps the lines. -/
lemma Ordered.step (h : Ordered l) (hh : Held l.writer) (hc : e.clean = true)
    (hok : Sound l.writer e) : Ordered (l.step e) :=
  h.did hh (did_step h.next hc hok) rfl rfl rfl

end URSupreme.SdWriter
