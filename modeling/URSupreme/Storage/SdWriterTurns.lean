import URSupreme.Storage.SdWriterRuns

/-!
# The turns of the writer

What the task does for the job it is with, step by step and with all outcomes, and what the jobs in
the table never lose to each other: the slot of a job that is serviced, and its ring.
-/

namespace URSupreme.SdWriter
open Lib

variable {s s' : Writer} {j : Job} {i k : Fin MAX_JOBS} {r : Fin MAX_STREAMS}

/-- Whether a job is finished, with what is in its ring. -/
def Job.finished (j : Job) (data : Bytes) : Bool :=
  if j.streaming then j.ending && data.isEmpty else j.inoff ≥ j.inbuf.length

/-- The job behind a chunk of which so much is written. -/
def Job.behind (j : Job) (src : Bytes) (off : Nat) : Job :=
  { j with
    sha := if j.wantSha then j.sha ++ src else j.sha
    written := j.written + off
    inoff := if j.streaming then j.inoff else j.inoff + off }

/-- One step of the task for a job, between picking it and leaving it: whether the card does what it
is told, the job, what is in its ring, where the task is, and what is done to the files, `files` of
which were opened before. -/
inductive Turn (files : Nat) (i : Fin MAX_JOBS) (j : Job) (data : Bytes) :
    Bool → Phase → Job → Bytes → Phase → List (Nat × Mark) → Prop where
  | gaveUp : j.aborting = true → Turn files i j data true (.picked i) j data (.ended i) []
  | reopened : j.aborting = false → j.fd ≠ none →
      Turn files i j data true (.picked i) j data (.opened i) []
  | opened : j.aborting = false → j.fd = none → Turn files i j data true (.picked i)
      { j with fd := some files, file := some files } data (.opened i)
      [(files, .opened j.path j.op j.seekBack)]
  | unopened {ms} : Turn files i j data false (.picked i) { j with error := true } data
      (.ended i) ms
  | drained {now : Nat} : j.streaming = true → data ≠ [] → Turn files i j data true (.opened i)
      { j with lastActiveMs := now } (data.drop SCRATCH) (.writing i (data.take SCRATCH) 0) []
  | nothing : j.streaming = true → data = [] →
      Turn files i j data true (.opened i) j data (.empty i) []
  | took : j.streaming = false → (j.inbuf.drop j.inoff).take SCRATCH ≠ [] →
      Turn files i j data true (.opened i) j data
      (.writing i ((j.inbuf.drop j.inoff).take SCRATCH) 0) []
  | tookNone : j.streaming = false → (j.inbuf.drop j.inoff).take SCRATCH = [] →
      Turn files i j data true (.opened i) j data (.wrote i) []
  | ends : j.ending = true → data = [] → Turn files i j data true (.empty i) j data (.wrote i) []
  | waits : ¬ (j.ending = true ∧ data = []) →
      Turn files i j data true (.empty i) j data (.leaving i false) []
  | failed {src off} : Turn files i j data false (.writing i src off) { j with error := true } data
      (.ended i) []
  | part {src off n} : 0 < n → off + ((src.drop off).take n).length < src.length →
      Turn files i j data true (.writing i src off) j data
        (.writing i src (off + ((src.drop off).take n).length))
        (j.fd.toList.map fun fd => (fd, .wrote ((src.drop off).take n)))
  | chunk {src off n} : 0 < n → src.length ≤ off + ((src.drop off).take n).length →
      Turn files i j data true (.writing i src off)
        (j.behind src (off + ((src.drop off).take n).length)) data (.wrote i)
        (j.fd.toList.map fun fd => (fd, .wrote ((src.drop off).take n)))
  | finished : j.finished data = true →
      Turn files i j data true (.wrote i) j data (.finalizing i) []
  | unfinished : j.finished data = false →
      Turn files i j data true (.wrote i) j data (.leaving i false) []
  | synced : Turn files i j data true (.finalizing i)
      { j with digestReady := j.digestReady || (!j.error && j.wantSha) } data (.ended i)
      (j.fd.toList.map fun fd => (fd, .synced))
  | unsynced : Turn files i j data false (.finalizing i) { j with error := true } data (.ended i) []
  | closed : Turn files i j data true (.ended i) { j with fd := none } data (.leaving i true)
      (j.fd.toList.map fun fd => (fd, .closed))

/-- The state after a turn. -/
structure Turned (s s' : Writer) (i : Fin MAX_JOBS) (ok : Bool) (j' : Job) (data' : Bytes)
    (ph' : Phase) (ms : List (Nat × Mark)) : Prop where
  turn : Turn s.files i (s.jobs i) (s.ringData (s.jobs i)) ok s.phase j' data' ph' ms
  jobs : s'.jobs = Function.update s.jobs i j'
  phase : s'.phase = ph'
  inUse : ∀ r, (s'.rings r).inUse = (s.rings r).inUse
  ring : ∀ r, (s.jobs i).ringIdx = some r → (s'.rings r).data = data'
  rings : ∀ r, (s.jobs i).ringIdx ≠ some r → (s'.rings r).data = (s.rings r).data
  disk : s'.disk = s.disk ++ ms
  files : s.files ≤ s'.files ∧
    ∀ f, j'.file = some f → (s.jobs i).file = some f ∨ f = s.files ∧ f < s'.files
  pending : s'.pendingClose = s.pendingClose

/-- The card does what it is told. -/
def Event.clean : Event → Bool
  | .start opened seeked => opened && seeked
  | .put n => n ≠ 0
  | .sync ok => ok
  | _ => true

/-- A turn that moves the task on and leaves the ring and the files. -/
lemma turned_plain {ok : Bool} {j' : Job} {ph' : Phase} {ms : List (Nat × Mark)} {s₁ : Writer}
    (ht : Turn s.files i (s.jobs i) (s.ringData (s.jobs i)) ok s.phase j'
    (s.ringData (s.jobs i)) ph' ms)
    (hjobs : s₁.jobs = Function.update s.jobs i j') (hph : s₁.phase = ph') (hr : s₁.rings = s.rings)
    (hd : s₁.disk = s.disk ++ ms) (hf : s₁.files = s.files) (hfile : j'.file = (s.jobs i).file)
    (hpend : s₁.pendingClose = s.pendingClose) :
    Turned s s₁ i ok j' (s.ringData (s.jobs i)) ph' ms where
  turn := ht
  jobs := hjobs
  phase := hph
  inUse r := by rw [hr]
  ring r hring := by rw [hr, ringData_some hring]
  rings r _ := by rw [hr]
  disk := hd
  files := ⟨hf.ge, fun f h => .inl (hfile ▸ h)⟩
  pending := hpend

lemma jobs_self : s.jobs = Function.update s.jobs i (s.jobs i) :=
  (Function.update_eq_self i s.jobs).symm

lemma inUse_setRing {data : Bytes} (r' : Fin MAX_STREAMS) :
    ((s.setRing r data).rings r').inUse = (s.rings r').inUse := by
  change (Function.update s.rings r _ r').inUse = _
  by_cases hr : r' = r
  · rw [hr, Function.update_self]
  · rw [Function.update_of_ne hr]

section steps

lemma start_turns {opened seeked : Bool} (hp : s.phase = .picked i) :
    ∃ ok j' data' ph' ms, Turned s (s.start opened seeked) i ok j' data' ph' ms ∧
      ((Event.start opened seeked).clean = true → ok = true) := by
  unfold Writer.start
  rw [hp]
  dsimp only
  split
  next ha =>
    exact ⟨_, _, _, _, _, turned_plain (by rw [hp]; exact .gaveUp ha) jobs_self rfl rfl
      (List.append_nil _).symm rfl rfl rfl, fun _ => rfl⟩
  next ha =>
    have ha : (s.jobs i).aborting = false := Bool.eq_false_iff.mpr ha
    split
    next f hf =>
      exact ⟨_, _, _, _, _, turned_plain
        (by rw [hp]; exact .reopened ha (by rw [hf]; nofun)) jobs_self
        rfl rfl (List.append_nil _).symm rfl rfl rfl, fun _ => rfl⟩
    next hf =>
      split
      next ho =>
        refine ⟨_, _, _, _, [], turned_plain (by rw [hp]; exact .unopened) rfl rfl rfl
          (List.append_nil _).symm rfl rfl rfl, fun hc => ?_⟩
        rw [Event.clean, Bool.and_eq_true] at hc
        rw [hc.1] at ho
        cases ho
      next =>
        split
        next hs =>
          refine ⟨false, { s.jobs i with error := true }, s.ringData (s.jobs i), .ended i,
            [(s.files, .opened (s.jobs i).path (s.jobs i).op (s.jobs i).seekBack),
            (s.files, .closed)],
            ⟨by rw [hp]; exact .unopened, rfl, rfl, fun _ => rfl,
            fun r hr => (ringData_some hr).symm,
              fun _ _ => rfl, ?_, ⟨Nat.le_succ _, fun f h => .inl h⟩, rfl⟩, fun hc => ?_⟩
          · exact List.append_assoc _ _ _
          · rw [Event.clean, Bool.and_eq_true] at hc
            rw [hc.2] at hs
            cases hs.2
        next =>
          exact ⟨_, _, _, _, _, ⟨by rw [hp]; exact .opened ha hf, rfl, rfl, fun _ => rfl,
            fun r hr => (ringData_some hr).symm, fun _ _ => rfl, rfl,
            ⟨Nat.le_succ _, fun f h => .inr
            ⟨(Option.some.inj h).symm, Option.some.inj h ▸ Nat.lt_succ_self _⟩⟩,
            rfl⟩, fun _ => rfl⟩

lemma receive_turns {now : Nat} (hp : s.phase = .opened i) :
    ∃ j' data' ph' ms, Turned s (s.receive now) i true j' data' ph' ms := by
  unfold Writer.receive
  rw [hp]
  dsimp only
  split
  next r hst hr =>
    have hdata : s.ringData (s.jobs i) = (s.rings r).data := ringData_some hr
    split
    next hnil =>
      exact ⟨_, _, _, _, turned_plain (by rw [hp]; exact .nothing hst (hdata.trans hnil)) jobs_self
        rfl rfl (List.append_nil _).symm rfl rfl rfl⟩
    next hne =>
      rw [← hdata] at hne ⊢
      refine ⟨_, _, _, _, ⟨by rw [hp]; exact .drained hst hne, rfl, rfl, inUse_setRing,
        fun r' hr' => ?_, fun r' hr' => ?_, (List.append_nil _).symm, ⟨le_rfl, fun f h => .inl h⟩,
        rfl⟩⟩
      · obtain rfl := Option.some.inj (hr.symm.trans hr')
        change (Function.update s.rings r _ r).data = _
        rw [Function.update_self]
      · have hne' : r' ≠ r := fun he => hr' (he ▸ hr)
        change (Function.update s.rings r _ r').data = _
        rw [Function.update_of_ne hne']
  next hst hr =>
    have hnil : s.ringData (s.jobs i) = [] := by
      unfold Writer.ringData
      rw [hr]
    exact ⟨_, _, _, _, turned_plain (by rw [hp]; exact .nothing hst hnil) jobs_self
      rfl rfl (List.append_nil _).symm rfl rfl rfl⟩
  next hst =>
    split
    next hnil =>
      exact ⟨_, _, _, _, turned_plain (by rw [hp]; exact .tookNone hst hnil) jobs_self
        rfl rfl (List.append_nil _).symm rfl rfl rfl⟩
    next hne =>
      exact ⟨_, _, _, _, turned_plain (by rw [hp]; exact .took hst hne) jobs_self
        rfl rfl (List.append_nil _).symm rfl rfl rfl⟩

lemma look_turns (hp : s.phase = .empty i) :
    ∃ j' data' ph' ms, Turned s s.look i true j' data' ph' ms := by
  unfold Writer.look
  rw [hp]
  dsimp only
  split
  next h =>
    exact ⟨_, _, _, _, turned_plain (by rw [hp]; exact .ends h.1 h.2) jobs_self
      rfl rfl (List.append_nil _).symm rfl rfl rfl⟩
  next h =>
    exact ⟨_, _, _, _, turned_plain (by rw [hp]; exact .waits h) jobs_self
      rfl rfl (List.append_nil _).symm rfl rfl rfl⟩

lemma put_turns {n off : Nat} {src : Bytes} (hp : s.phase = .writing i src off) :
    ∃ ok j' data' ph' ms, Turned s (s.put n) i ok j' data' ph' ms ∧
      ((Event.put n).clean = true → ok = true) := by
  unfold Writer.put
  rw [hp]
  dsimp only
  split
  next hn =>
    refine ⟨_, _, _, _, _, turned_plain (by rw [hp]; exact .failed) rfl
      rfl rfl (List.append_nil _).symm rfl rfl rfl, fun hc => ?_⟩
    exact absurd hn (of_decide_eq_true hc)
  next hn =>
    split
    next hlt =>
      exact ⟨_, _, _, _, _, turned_plain
        (by rw [hp]; exact .part (Nat.pos_of_ne_zero hn) hlt) jobs_self
        rfl rfl rfl rfl rfl rfl, fun _ => rfl⟩
    next hlt =>
      exact ⟨_, _, _, _, _, turned_plain
        (by rw [hp]; exact .chunk (Nat.pos_of_ne_zero hn) (not_lt.mp hlt)) rfl
        rfl rfl rfl rfl rfl rfl, fun _ => rfl⟩

lemma check_turns (hp : s.phase = .wrote i) :
    ∃ j' data' ph' ms, Turned s s.check i true j' data' ph' ms := by
  have hcheck : s.check = { s with
      phase := if (s.jobs i).finished (s.ringData (s.jobs i)) then .finalizing i
        else .leaving i false } := by
    unfold Writer.check
    rw [hp]
    rfl
  rw [hcheck]
  split
  next h =>
    exact ⟨_, _, _, _, turned_plain (by rw [hp]; exact .finished h) jobs_self
      rfl rfl (List.append_nil _).symm rfl rfl rfl⟩
  next h =>
    exact ⟨_, _, _, _, turned_plain (by rw [hp]; exact .unfinished (Bool.eq_false_iff.mpr h))
      jobs_self rfl rfl (List.append_nil _).symm rfl rfl rfl⟩

lemma sync_turns {ok : Bool} (hp : s.phase = .finalizing i) :
    ∃ ok' j' data' ph' ms, Turned s (s.sync ok) i ok' j' data' ph' ms ∧
      ((Event.sync ok).clean = true → ok' = true) := by
  unfold Writer.sync
  rw [hp]
  dsimp only
  split
  next =>
    exact ⟨_, _, _, _, _, turned_plain (by rw [hp]; exact .synced) rfl rfl rfl rfl rfl rfl rfl,
      fun _ => rfl⟩
  next h =>
    exact ⟨_, _, _, _, _, turned_plain (by rw [hp]; exact .unsynced) rfl rfl rfl
      (List.append_nil _).symm rfl rfl rfl, fun hc => absurd hc h⟩

lemma close_turns (hp : s.phase = .ended i) :
    ∃ j' data' ph' ms, Turned s s.close i true j' data' ph' ms := by
  unfold Writer.close
  rw [hp]
  exact ⟨_, _, _, _, turned_plain (by rw [hp]; exact .closed) rfl rfl rfl rfl rfl rfl rfl⟩

end steps

/-- The steps between picking a job and leaving it. -/
def Event.turn : Event → Bool
  | .start .. | .receive .. | .look | .put .. | .check | .sync .. | .close => true
  | _ => false

/-- The step is the next one of the task for the job it is with. -/
def Event.Next (s : Writer) : Event → Prop
  | .start _ _ => ∃ i, s.phase = .picked i
  | .receive _ => ∃ i, s.phase = .opened i
  | .look => ∃ i, s.phase = .empty i
  | .put _ => ∃ i src off, s.phase = .writing i src off
  | .check => ∃ i, s.phase = .wrote i
  | .sync _ => ∃ i, s.phase = .finalizing i
  | .close => ∃ i, s.phase = .ended i
  | _ => False

/-- The task's next step for the job it is with is a turn. -/
lemma next_turns {e : Event} (h : e.Next s) : ∃ i ok j' data' ph' ms,
    Turned s (s.step e) i ok j' data' ph' ms ∧ (e.clean = true → ok = true) := by
  cases e with
  | start => exact h.imp fun _ hp => start_turns hp
  | receive =>
    obtain ⟨i, hp⟩ := h
    obtain ⟨j', data', ph', ms, ht⟩ := receive_turns hp
    exact ⟨i, true, j', data', ph', ms, ht, fun _ => rfl⟩
  | look =>
    obtain ⟨i, hp⟩ := h
    obtain ⟨j', data', ph', ms, ht⟩ := look_turns hp
    exact ⟨i, true, j', data', ph', ms, ht, fun _ => rfl⟩
  | put => exact h.imp fun _ ⟨_, _, hp⟩ => put_turns hp
  | check =>
    obtain ⟨i, hp⟩ := h
    obtain ⟨j', data', ph', ms, ht⟩ := check_turns hp
    exact ⟨i, true, j', data', ph', ms, ht, fun _ => rfl⟩
  | sync => exact h.imp fun _ hp => sync_turns hp
  | close =>
    obtain ⟨i, hp⟩ := h
    obtain ⟨j', data', ph', ms, ht⟩ := close_turns hp
    exact ⟨i, true, j', data', ph', ms, ht, fun _ => rfl⟩
  | _ => exact h.elim

/-- A step of the task that is not the next one does nothing. -/
lemma step_idle {e : Event} (he : e.turn = true) (h : ¬ e.Next s) : s.step e = s := by
  cases e with
  | start opened seeked =>
    change s.start opened seeked = s
    unfold Writer.start
    split
    next hp => exact absurd ⟨_, hp⟩ h
    next => rfl
  | receive now =>
    change s.receive now = s
    unfold Writer.receive
    split
    next hp => exact absurd ⟨_, hp⟩ h
    next => rfl
  | look =>
    change s.look = s
    unfold Writer.look
    split
    next hp => exact absurd ⟨_, hp⟩ h
    next => rfl
  | put n =>
    change s.put n = s
    unfold Writer.put
    split
    next hp => exact absurd ⟨_, _, _, hp⟩ h
    next => rfl
  | check =>
    change s.check = s
    unfold Writer.check
    split
    next hp => exact absurd ⟨_, hp⟩ h
    next => rfl
  | sync ok =>
    change s.sync ok = s
    unfold Writer.sync
    split
    next hp => exact absurd ⟨_, hp⟩ h
    next => rfl
  | close =>
    change s.close = s
    unfold Writer.close
    split
    next hp => exact absurd ⟨_, hp⟩ h
    next => rfl
  | _ => cases he

/-- A step of the task between picking a job and leaving it is a turn, or does nothing. -/
lemma step_turns {e : Event} (he : e.turn = true) : s.step e = s ∨ ∃ i ok j' data' ph' ms,
    Turned s (s.step e) i ok j' data' ph' ms ∧ (e.clean = true → ok = true) := by
  by_cases h : e.Next s
  · exact .inr (next_turns h)
  · exact .inl (step_idle he h)

/-! ### The slots in use -/

/-- The job that is serviced stays in its slot, and no two jobs share a ring. -/
structure Held (s : Writer) : Prop where
  busy : ∀ i, s.phase.slot = some i →
    (s.jobs i).id ≠ 0 ∧ (s.jobs i).servicing = true ∧ (s.jobs i).doneFlag = false
  used : ∀ i r, (s.jobs i).id ≠ 0 → (s.jobs i).ringIdx = some r → (s.rings r).inUse = true
  apart : ∀ i k r, i ≠ k → (s.jobs i).id ≠ 0 → (s.jobs k).id ≠ 0 →
    (s.jobs i).ringIdx = some r → (s.jobs k).ringIdx ≠ some r

/-- What `Held` speaks of. -/
def Job.hold (j : Job) : Nat × Option (Fin MAX_STREAMS) × Bool × Bool :=
  (j.id, j.ringIdx, j.servicing, j.doneFlag)

lemma hold_eq {j' : Job} (h : j'.hold = j.hold) : j'.id = j.id ∧ j'.ringIdx = j.ringIdx ∧
    j'.servicing = j.servicing ∧ j'.doneFlag = j.doneFlag := by
  simpa only [Job.hold, Prod.mk.injEq] using h

lemma Held.init : Held {} := ⟨nofun, fun _ _ h => absurd rfl h, fun _ _ _ _ h => absurd rfl h⟩

lemma Held.of_same (h : Held s) (hj : ∀ k, (s'.jobs k).hold = (s.jobs k).hold)
    (hr : ∀ r, (s'.rings r).inUse = (s.rings r).inUse) (hp : s'.phase.slot = s.phase.slot) :
    Held s' := by
  refine ⟨fun i hi => ?_, fun i r hi hring => ?_, fun i k r hne hi hk hring => ?_⟩
  · obtain ⟨h1, -, h2, h3⟩ := hold_eq (hj i)
    rw [h1, h2, h3]
    exact h.busy i (hp ▸ hi)
  · obtain ⟨h1, h2, -, -⟩ := hold_eq (hj i)
    rw [hr]
    exact h.used i r (h1 ▸ hi) (h2 ▸ hring)
  · obtain ⟨h1, h2, -, -⟩ := hold_eq (hj i)
    obtain ⟨h3, h4, -, -⟩ := hold_eq (hj k)
    rw [h4]
    exact h.apart i k r hne (h1 ▸ hi) (h3 ▸ hk) (h2 ▸ hring)

/-- A property of the changes of each slot, after the change of one. -/
lemma setJob_all {P : Job → Job → Prop} (hrefl : ∀ j, P j j) (h : P (s.jobs i) j)
    (k : Fin MAX_JOBS) : P (s.jobs k) ((s.setJob i j).jobs k) := by
  change P (s.jobs k) (Function.update s.jobs i j k)
  by_cases hk : k = i
  · rw [hk, Function.update_self]
    exact h
  · rw [Function.update_of_ne hk]
    exact hrefl _

lemma hold_setJob (h : j.hold = (s.jobs i).hold) (k : Fin MAX_JOBS) :
    ((s.setJob i j).jobs k).hold = (s.jobs k).hold :=
  setJob_all (P := fun a b => b.hold = a.hold) (fun _ => rfl) h k

lemma Held.setJob (h : Held s) (hj : j.hold = (s.jobs i).hold) : Held (s.setJob i j) :=
  h.of_same (hold_setJob hj) (fun _ => rfl) rfl

/-- A job goes into a free slot, with a ring that nobody has. -/
lemma Held.add (rings : Fin MAX_STREAMS → Ring) (h : Held s) (hi : (s.jobs i).id = 0)
    (hfree : ∀ r, j.ringIdx = some r → (s.rings r).inUse = false ∧ (rings r).inUse = true)
    (hrings : ∀ r, j.ringIdx ≠ some r → rings r = s.rings r) :
    Held (Writer.addJob i j { s with rings }) := by
  let s' := Writer.addJob i j { s with rings }
  have hself : (s'.jobs i).ringIdx = j.ringIdx := by
    change (Function.update s.jobs i _ i).ringIdx = _
    rw [Function.update_self]
  have hne : ∀ k ≠ i, s'.jobs k = s.jobs k := fun k hk => Function.update_of_ne hk _ _
  have hother : ∀ k ≠ i, ∀ r, (s.jobs k).id ≠ 0 → (s.jobs k).ringIdx = some r →
      j.ringIdx ≠ some r := by
    intro k hk r hlive hring hj
    have hused := h.used k r hlive hring
    rw [(hfree r hj).1] at hused
    cases hused
  refine ⟨fun k hk => ?_, fun k r hlive hring => ?_, fun k l r hkl hk hl hring => ?_⟩
  · have hbusy := h.busy k hk
    rw [hne k fun he => hbusy.1 (he ▸ hi)]
    exact hbusy
  · by_cases hki : k = i
    · rw [hki, hself] at hring
      exact (hfree r hring).2
    · rw [hne k hki] at hlive hring
      change (rings r).inUse = true
      rw [hrings r (hother k hki r hlive hring)]
      exact h.used k r hlive hring
  · by_cases hki : k = i
    · rw [hki, hself] at hring
      have hli : l ≠ i := fun he => hkl (hki.trans he.symm)
      rw [hne l hli] at hl ⊢
      exact fun he => hother l hli r hl he hring
    · rw [hne k hki] at hk hring
      by_cases hli : l = i
      · rw [hli, hself]
        exact hother k hki r hk hring
      · rw [hne l hli] at hl ⊢
        exact h.apart k l r hkl hk hl hring

lemma Held.write {up alloc path data op seekBack priority done} (h : Held s) :
    Held (s.write up alloc path data op seekBack priority done).2 := by
  unfold Writer.write
  split
  next => exact h
  next =>
    dsimp only
    split
    next => exact h
    next =>
      split
      next => exact h
      next i hf =>
        have hadd := h.add (j := { priority, path, op, seekBack, inbuf := data, ownsBuf := !done,
                                   done })
          s.rings (findFree_spec hf) nofun fun _ _ => rfl
        dsimp only
        split
        next => exact hadd.of_same (fun _ => rfl) (fun _ => rfl) rfl
        next => exact hadd

lemma Held.openJob {up size path op seekBack priority wantSha keep now} (h : Held s) :
    Held (s.openJob up size path op seekBack priority wantSha keep now).2 := by
  unfold Writer.openJob
  split
  next => exact h
  next =>
    split
    next i r ring hf hc =>
      obtain ⟨hno, hyes, -⟩ := claimRing_spec hc
      have hadd := h.add (j := { priority, path, op, seekBack, streaming := true, ringIdx := some r
                                 lastActiveMs := now, wantSha, callerReaps := keep })
        (Function.update s.rings r ring) (findFree_spec hf)
        (fun r' hr => by
          obtain rfl := Option.some.inj hr
          rw [Function.update_self]
          exact ⟨hno, hyes⟩)
        fun r' hr => Function.update_of_ne (fun he => hr (congrArg some he.symm)) _ _
      exact hadd.of_same (fun _ => rfl) (fun _ => rfl) rfl
    next => exact h

/-- What `release_job` does to the slots and the rings. -/
lemma releaseJob_spec (i : Fin MAX_JOBS) (s : Writer) :
    ((s.releaseJob i).jobs i).id = 0 ∧ (∀ k ≠ i, (s.releaseJob i).jobs k = s.jobs k) ∧
      (s.releaseJob i).phase = s.phase ∧
      (∀ r, ((s.releaseJob i).rings r).data.length ≤ (s.rings r).data.length) ∧
      ∀ r, (s.jobs i).ringIdx ≠ some r → (s.releaseJob i).rings r = s.rings r := by
  obtain ⟨pendingClose, ms, hdrop, -, -⟩ := dropFd_spec (s.jobs i).fd s
  obtain ⟨rings, hfree, hsame, hempty⟩ := freeRing_spec (s.jobs i).ringIdx
    { s with pendingClose, disk := s.disk ++ ms }
  unfold Writer.releaseJob
  dsimp only
  rw [hdrop, hfree]
  refine ⟨?_, fun k hk => ?_, ?_, fun r => ?_, fun r hr => ?_⟩
  · split
    all_goals
      dsimp only [Writer.setJob]
      rw [Function.update_self]
  · split
    next => exact Function.update_of_ne hk _ _
    next => exact Function.update_of_ne hk _ _
  · split
    next => rfl
    next => rfl
  · split
    next =>
      change (rings r).data.length ≤ _
      by_cases hr : (s.jobs i).ringIdx = some r
      · rw [hempty r hr]
        exact Nat.zero_le _
      · rw [hsame r hr]
    next => exact le_rfl
  · split
    next => exact hsame r hr
    next => rfl

/-- A job that is not serviced leaves its slot. -/
lemma Held.releaseJob (h : Held s) (hi : (s.jobs i).id ≠ 0) (hslot : s.phase.slot ≠ some i) :
    Held (s.releaseJob i) := by
  obtain ⟨hfree, hne, hphase, -, hrings⟩ := releaseJob_spec i s
  have hki : ∀ {k}, ((s.releaseJob i).jobs k).id ≠ 0 → k ≠ i := fun hk he => hk (he ▸ hfree)
  refine ⟨fun k hk => ?_, fun k r hlive hring => ?_, fun k l r hkl hk hl hring => ?_⟩
  · rw [hphase] at hk
    rw [hne k fun he => hslot (he ▸ hk)]
    exact h.busy k hk
  · have hk := hki hlive
    rw [hne k hk] at hlive hring
    rw [hrings r fun he => h.apart i k r hk.symm hi hlive he hring]
    exact h.used k r hlive hring
  · have hki' := hki hk
    have hli := hki hl
    rw [hne k hki'] at hk hring
    rw [hne l hli] at hl ⊢
    exact h.apart k l r hkl hk hl hring

lemma Held.release {hd : Nat} (h : Held s) : Held (s.release hd) := by
  unfold Writer.release
  split
  next => exact h
  next i hf =>
    dsimp only
    split
    next => exact h.setJob rfl
    next hs => exact h.releaseJob (findJob_spec hf).2 fun hp => hs (h.busy i hp).2.1

lemma Held.timeout {n : Nat} (h : Held s) : Held (s.timeout n) := by
  unfold Writer.timeout
  split
  next => exact h
  next f hf =>
    have h' : Held { s with feeds := s.feeds.eraseIdx n } :=
      h.of_same (fun _ => rfl) (fun _ => rfl) rfl
    dsimp only
    split
    next => exact h'
    next => exact h'.setJob rfl

lemma Held.finish {hd : Nat} (h : Held s) : Held (s.finish hd) := by
  unfold Writer.finish
  split
  next => exact h
  next => exact h.setJob rfl

lemma Held.feed {hd : Nat} {data : Bytes} (h : Held s) : Held (s.feed hd data) := by
  unfold Writer.feed
  split
  next => exact h
  next =>
    dsimp only
    split
    next =>
      split
      next => exact h.of_same (fun _ => rfl) (fun _ => rfl) rfl
      next => exact h
    next => exact h

lemma Held.send {a n : Nat} (h : Held s) : Held (s.send a n) := by
  unfold Writer.send
  split
  next => exact h
  next f hf =>
    dsimp only
    split
    next =>
      refine h.of_same (fun k => ?_) inUse_setRing rfl
      dsimp only [Writer.sent]
      split
      next => rfl
      next => rfl
    next => exact h

lemma hold_abandon {now : Nat} (k : Fin MAX_JOBS) :
    ((s.abandon now).jobs k).hold = (s.jobs k).hold := by
  dsimp only [Writer.abandon]
  split
  next => rfl
  next => rfl

lemma Held.pick {now : Nat} (h : Held s) : Held (s.pick now) := by
  unfold Writer.pick
  split
  next hp =>
    have h' : Held (s.abandon now) := h.of_same hold_abandon (fun _ => rfl) rfl
    have hp' : (s.abandon now).phase = .parked := hp
    dsimp only
    split
    next => exact h'
    next i hb =>
      obtain ⟨hi, hd⟩ := best_spec hb
      have hring : ∀ k, ((Writer.setJob i { (s.abandon now).jobs i with
          servicing := true, rrTick := (s.rrClock + 1) % 2 ^ 32 } (s.abandon now)).jobs k).id =
            ((s.abandon now).jobs k).id ∧ ((Writer.setJob i { (s.abandon now).jobs i with
          servicing := true, rrTick := (s.rrClock + 1) % 2 ^ 32 } (s.abandon now)).jobs k).ringIdx =
            ((s.abandon now).jobs k).ringIdx :=
        setJob_all (P := fun a b => b.id = a.id ∧ b.ringIdx = a.ringIdx) (fun _ => ⟨rfl, rfl⟩)
          ⟨rfl, rfl⟩
      refine ⟨fun k hk => ?_, fun k r hlive hr => ?_, fun k l r hkl hk hl hr => ?_⟩
      · obtain rfl := Option.some.inj hk
        dsimp only [Writer.setJob]
        rw [Function.update_self]
        exact ⟨hi, rfl, hd⟩
      · exact h'.used k r ((hring k).1 ▸ hlive) ((hring k).2 ▸ hr)
      · intro hr'
        exact h'.apart k l r hkl ((hring k).1 ▸ hk) ((hring l).1 ▸ hl) ((hring k).2 ▸ hr)
          ((hring l).2 ▸ hr')
  next => exact h

/-- A turn stays with its job. -/
lemma Turn.slot {files : Nat} {data data' : Bytes} {j' : Job} {ph ph' : Phase}
    {ms : List (Nat × Mark)} {ok : Bool} (h : Turn files i j data ok ph j' data' ph' ms) :
    ph.slot = some i ∧ ph'.slot = some i ∧ j'.hold = j.hold := by
  cases h <;> exact ⟨rfl, rfl, rfl⟩

lemma Held.turned {ok : Bool} {j' : Job} {data' : Bytes} {ph' : Phase} {ms : List (Nat × Mark)}
    (h : Held s) (ht : Turned s s' i ok j' data' ph' ms) : Held s' := by
  obtain ⟨hs, hs', hj⟩ := ht.turn.slot
  refine h.of_same (fun k => ?_) ht.inUse (by rw [ht.phase, hs, hs'])
  rw [ht.jobs]
  exact hold_setJob hj k

lemma Held.drain (h : Held s) : Held s.drain := by
  unfold Writer.drain
  split
  next => exact h.of_same (fun _ => rfl) (fun _ => rfl) rfl
  next => exact h

/-- The end of a pass. A job that has come to its end stays for the caller that reaps it, or leaves
its slot. -/
lemma commit_spec {terminal : Bool} (hp : s.phase = .leaving i terminal) :
    terminal = false ∧
        s.commit = { s.setJob i { s.jobs i with servicing := false } with phase := .parked } ∨
      terminal = true ∧ ∃ inlineBytes,
        (s.commit = { s.setJob i { s.jobs i with servicing := false, doneFlag := true } with
            phase := .parked, inlineBytes } ∧ (s.jobs i).callerReaps = true) ∨
          s.commit = Writer.releaseJob i
            { s.setJob i { s.jobs i with servicing := false } with
              phase := .parked, inlineBytes } := by
  let j' : Job := { s.jobs i with servicing := false }
  unfold Writer.commit
  rw [hp]
  dsimp only
  cases terminal with
  | false => exact .inl ⟨rfl, rfl⟩
  | true =>
    -- the account of the copies may change before the job is settled or released
    have hend : ∀ t : Writer,
        (∃ inlineBytes, t = { s.setJob i j' with phase := .parked, inlineBytes }) →
        ∃ inlineBytes,
          ((if j'.callerReaps = true ∧ (!j'.aborting) = true then
              t.setJob i { j' with doneFlag := true } else t.releaseJob i) =
            { s.setJob i { s.jobs i with servicing := false, doneFlag := true } with
              phase := .parked, inlineBytes } ∧ (s.jobs i).callerReaps = true) ∨
          (if j'.callerReaps = true ∧ (!j'.aborting) = true then
              t.setJob i { j' with doneFlag := true } else t.releaseJob i) =
            Writer.releaseJob i { s.setJob i j' with phase := .parked, inlineBytes } := by
      rintro t ⟨inlineBytes, rfl⟩
      refine ⟨inlineBytes, ?_⟩
      split
      next hc =>
        refine .inl ⟨?_, hc.1⟩
        unfold Writer.setJob
        dsimp only
        rw [Function.update_idem]
      next => exact .inr rfl
    refine .inr ⟨rfl, hend _ ?_⟩
    split
    next => exact ⟨_, rfl⟩
    next => exact ⟨_, rfl⟩

lemma Held.commit (h : Held s) : Held s.commit := by
  by_cases hp : ∃ i terminal, s.phase = .leaving i terminal
  · obtain ⟨i, terminal, hp⟩ := hp
    have hslot : s.phase.slot = some i := by rw [hp]; rfl
    obtain ⟨hi, -, -⟩ := h.busy i hslot
    -- parked, no slot is serviced, and the keys of the jobs are as before
    have keep : ∀ {j' : Job} {inlineBytes : Nat}, j'.id = (s.jobs i).id →
        j'.ringIdx = (s.jobs i).ringIdx →
          Held { s.setJob i j' with phase := .parked, inlineBytes } := by
      intro j' inlineBytes hid hring
      have hsame : ∀ k, ((s.setJob i j').jobs k).id = (s.jobs k).id ∧
          ((s.setJob i j').jobs k).ringIdx = (s.jobs k).ringIdx :=
        setJob_all (P := fun a b => b.id = a.id ∧ b.ringIdx = a.ringIdx) (fun _ => ⟨rfl, rfl⟩)
          ⟨hid, hring⟩
      refine ⟨nofun, fun k r hk hr => ?_, fun k l r hkl hk hl hr hr' => ?_⟩
      · exact h.used k r ((hsame k).1 ▸ hk) ((hsame k).2 ▸ hr)
      · exact h.apart k l r hkl ((hsame k).1 ▸ hk) ((hsame l).1 ▸ hl) ((hsame k).2 ▸ hr)
          ((hsame l).2 ▸ hr')
    rcases commit_spec hp with ⟨-, he⟩ | ⟨-, inlineBytes, ⟨he, -⟩ | he⟩
    · rw [he]
      exact keep rfl rfl
    · rw [he]
      exact keep rfl rfl
    · have hkeep : Held { s.setJob i { s.jobs i with servicing := false } with
          phase := .parked, inlineBytes } := keep rfl rfl
      rw [he]
      refine hkeep.releaseJob ?_ nofun
      dsimp only [Writer.setJob]
      rw [Function.update_self]
      exact hi
  · unfold Writer.commit
    split
    next hp' => exact absurd ⟨_, _, hp'⟩ hp
    next => exact h

lemma Held.step {e : Event} (h : Held s) : Held (s.step e) := by
  by_cases he : e.turn = true
  · rcases step_turns (s := s) he with hs | ⟨i, ok, j', data', ph', ms, ht, -⟩
    · rwa [hs]
    · exact h.turned ht
  · cases e with
    | write => exact h.write
    | openJob => exact h.openJob
    | feed => exact h.feed
    | send => exact h.send
    | timeout => exact h.timeout
    | finish => exact h.finish
    | release => exact h.release
    | pick => exact h.pick
    | commit => exact h.commit
    | drain => exact h.drain
    | _ => exact absurd rfl he

lemma Held.of_reach {ok : Writer → Event → Prop} (h : Reach Writer.step ok {} s) : Held s :=
  h.invariant Held.init fun _ h => h.step

end URSupreme.SdWriter
