import URSupreme.Discovery.Stamp

/-!
# Every stamp job ends once

What becomes of the jobs of the stamp worker over the interleavings of the callers and the worker.
The jobs stand in a ledger: each accepted one is still the worker's, or has its one result. `Placed`
is what the fields of the worker tell about where it is, and `Withdrawn` what a cancel leaves
behind.

A cancel is heeded when it finds its job in the queue or in the search, and the search looks at the
flag once more before it ends. In the stretch where the worker has the job but has not made it the
current one the cancel does nothing.
-/

namespace URSupreme.Stamp
open Lib

variable {fullHash : Bytes → Bytes} {s : Worker} {e : Event} {i : Nat} {j : Job} {p : Post}
  {material key : Bytes}

/-- How jobs and results are read. -/
def desk (fullHash : Bytes → Bytes) : Desk Nat Bytes Job Post Bytes where
  key := Job.id
  content := Job.material fullHash
  comesTo := id
  about p := some p.id
  Tells p _ m := p.key = m

/-- The events that are not a caller's. -/
def Event.own : Event → Bool
  | .submit .. | .cancel .. | .take .. => false
  | _ => true

/-- A cancel meets its job in the queue, in the search for the mailbox, or after a search that has
not come to a stamp; the search does not end without a look at a raised flag, and a discovery search
does not fail. -/
def Heeded (fullHash : Bytes → Bytes) (s : Worker) : Event → Prop
  | .cancel material locked =>
    ∀ j ∈ s.job, j.material fullHash = material → locked = true ∧
      (s.pending = some j ∨ (s.phase = .running j ∧ j.kind ≠ .discoveryGenerate) ∨
        ∃ r, s.phase = .finished j r ∧ r.ok = false)
  | .complete o =>
    ∀ j, s.phase = .running j →
      (s.cancelFlag = true → o = .failed) ∧ (o = .failed → j.kind ≠ .discoveryGenerate)
  | _ => True

/-- Steps of the worker, and of the submitter that owes the signal, bring the job to its result. -/
def Ends (fullHash : Bytes → Bytes) (s : Worker) (j : Job) : Prop :=
  ∃ es : List Event, (∀ e ∈ es, e.own = true) ∧
    Allowed (Worker.step fullHash) (Heeded fullHash) s es ∧
      ∃ p ∈ (es.foldl (Worker.step fullHash) s).ends, p.id = j.id

/-- Every job has one result under its own key, which only a taker with that key gets, and a
cancelled job has not come to a stamp. -/
structure Served (fullHash : Bytes → Bytes) (s : Worker) : Prop where
  /-- An accepted job is the worker's, or has its one result. -/
  one : ∀ a ∈ s.accepted,
    ((∃ j ∈ s.job, j.id = a.1 ∧ j.material fullHash = a.2) ∧ ∀ p ∈ s.ends, p.id ≠ a.1) ∨
      ((∀ j ∈ s.job, j.id ≠ a.1) ∧ ∃ p, s.ends.filter (·.id = a.1) = [p] ∧ p.key = a.2)
  ends : ∀ j ∈ s.job, Ends fullHash s j
  handed : ∀ x ∈ s.handed, x.2.key = x.1 ∧ x.2 ∈ s.ends
  once : ((s.handed.map (·.2.id)) ++ s.results.map (·.id)).Nodup
  cancelled : ∀ p ∈ s.ends, p.id ∈ s.cancelled → p.result.ok = false

/-! ### The ledger -/

/-- The jobs and their results. -/
structure Kept (fullHash : Bytes → Bytes) (accepted : List (Nat × Bytes)) (job : Option Job)
    (ends results : List Post) (handed : List (Bytes × Post)) : Prop where
  booked : Booked (desk fullHash) accepted job.toList ends
  ids : (accepted.map (·.1)).Nodup
  below : ∀ a ∈ accepted, a.1 < accepted.length
  ended : ∀ p ∈ ends, p.id < accepted.length
  given : ∀ x ∈ handed, x.2.key = x.1 ∧ x.2 ∈ ends
  boxed : ∀ p ∈ results, p ∈ ends
  once : (handed.map (·.2.id) ++ results.map (·.id)).Nodup

section
variable {accepted : List (Nat × Bytes)} {job : Option Job} {ends results results' : List Post}
  {handed : List (Bytes × Post)}

lemma Kept.init : Kept fullHash [] none [] [] [] :=
  ⟨.nil, List.nodup_nil, nofun, nofun, nofun, nofun, List.nodup_nil⟩

/-- A job with the next number is accepted. -/
lemma Kept.accept (h : Kept fullHash accepted none ends results handed)
    (hj : j.id = accepted.length) :
    Kept fullHash (accepted ++ [(j.id, j.material fullHash)]) (some j) ends results handed := by
  have hlen : (accepted ++ [(j.id, j.material fullHash)]).length = accepted.length + 1 :=
    List.length_append
  have hnew : ∀ a ∈ accepted, a.1 ≠ j.id := fun a ha => by
    rw [hj]
    exact (h.below a ha).ne
  refine ⟨?_, ?_, fun a ha => ?_, fun p hp => ?_, h.given, h.boxed, h.once⟩
  · have hends : ∀ p ∈ ends, (desk fullHash).about p ≠ some ((desk fullHash).key j) :=
      fun p hp he => by
      have := h.ended p hp
      have : p.id = j.id := Option.some.inj he
      omega
    exact h.booked.accept (e := j) hnew hends rfl
  · rw [List.map_append]
    refine List.nodup_append.mpr ⟨h.ids, List.nodup_singleton _, fun a ha b hb => ?_⟩
    obtain ⟨x, hx, rfl⟩ := List.mem_map.mp ha
    obtain rfl := List.mem_singleton.mp hb
    exact hnew x hx
  · rw [hlen]
    rcases List.mem_append.mp ha with ha | ha
    · exact Nat.lt_succ_of_lt (h.below a ha)
    · obtain rfl := List.mem_singleton.mp ha
      exact Nat.lt_succ_of_le hj.le
  · rw [hlen]
    exact Nat.lt_succ_of_lt (h.ended p hp)

/-- The number of the job that is the worker's. -/
lemma Kept.job_below (h : Kept fullHash accepted (some j) ends results handed) :
    j.id < accepted.length := by
  obtain ⟨m, hm⟩ := h.booked.key_mem (List.mem_singleton.mpr rfl)
  exact h.below _ hm

/-- The job that is the worker's has no result. -/
lemma Kept.not_ended (h : Kept fullHash accepted (some j) ends results handed) :
    ∀ p ∈ ends, p.id ≠ j.id := fun p hp he =>
  (h.booked.waiting j (List.mem_singleton.mpr rfl)).2 p hp (congrArg some he)

/-- The worker's job comes to its result. -/
lemma Kept.settle (h : Kept fullHash accepted (some j) ends results handed) (hp : p.id = j.id)
    (hk : p.key = j.material fullHash) :
    Kept fullHash accepted none (ends ++ [p]) results handed := by
  have hb : Booked (desk fullHash) accepted ([] ++ j :: []) ends := h.booked
  refine ⟨hb.settle (congrArg some hp) hk, h.ids, h.below, fun q hq => ?_, fun x hx => ?_,
    fun q hq => List.mem_append_left _ (h.boxed q hq), h.once⟩
  · rcases List.mem_append.mp hq with hq | hq
    · exact h.ended q hq
    · obtain rfl := List.mem_singleton.mp hq
      rw [hp]
      exact h.job_below
  · exact ⟨(h.given x hx).1, List.mem_append_left _ (h.given x hx).2⟩

/-- The mailbox forgets some results. -/
lemma Kept.forget (h : Kept fullHash accepted job ends results handed)
    (hs : results'.Sublist results) : Kept fullHash accepted job ends results' handed :=
  { h with
    boxed := fun p hp => h.boxed p (hs.subset hp)
    once := h.once.sublist ((hs.map _).append_left _) }

/-- The result goes to the mailbox, too. -/
lemma Kept.post (h : Kept fullHash accepted (some j) ends results handed) (hp : p.id = j.id)
    (hk : p.key = j.material fullHash) (hs : results'.Sublist (results ++ [p])) :
    Kept fullHash accepted none (ends ++ [p]) results' handed := by
  have hset := h.settle hp hk
  refine Kept.forget { hset with boxed := fun q hq => ?_, once := ?_ } hs
  · rcases List.mem_append.mp hq with hq | hq
    · exact hset.boxed q hq
    · exact List.mem_append_right _ hq
  · rw [List.map_append, ← List.append_assoc]
    refine List.nodup_append.mpr ⟨h.once, List.nodup_singleton _, fun a ha b hb => ?_⟩
    obtain rfl := List.mem_singleton.mp hb
    dsimp only
    rw [hp]
    rcases List.mem_append.mp ha with ha | ha
    · obtain ⟨x, hx, rfl⟩ := List.mem_map.mp ha
      exact h.not_ended _ (h.given x hx).2
    · obtain ⟨q, hq, rfl⟩ := List.mem_map.mp ha
      exact h.not_ended q (h.boxed q hq)

/-- A result is handed to the taker with its key. -/
lemma Kept.take (h : Kept fullHash accepted job ends results handed)
    (hp : results.find? (·.key = key) = some p) :
    Kept fullHash accepted job ends (results.eraseP (·.key = key)) (handed ++ [(key, p)]) := by
  obtain ⟨hk, l1, l2, rfl, hl1⟩ := List.find?_eq_some_iff_append.mp hp
  have hl : (l1 ++ p :: l2).eraseP (·.key = key) = l1 ++ l2 := by
    rw [List.eraseP_append_right _ fun q hq => by simpa using hl1 q hq]
    exact congrArg (l1 ++ ·) (List.eraseP_cons_of_pos (p := fun q : Post => q.key = key) hk)
  have hmem : p ∈ ends := h.boxed p (mem_split.mpr (.inl rfl))
  rw [hl]
  refine { h with given := fun x hx => ?_, boxed := fun q hq => ?_, once := ?_ }
  · rcases List.mem_append.mp hx with hx | hx
    · exact h.given x hx
    · obtain rfl := List.mem_singleton.mp hx
      exact ⟨of_decide_eq_true hk, hmem⟩
  · exact h.boxed q (mem_split.mpr (.inr hq))
  · have hperm : ((handed ++ [(key, p)]).map (·.2.id) ++ (l1 ++ l2).map (·.id)).Perm
        (handed.map (·.2.id) ++ (l1 ++ p :: l2).map (·.id)) := by
      rw [List.map_append, List.append_assoc]
      refine List.Perm.append_left _ ?_
      exact (List.perm_middle.map Post.id).symm
    exact hperm.nodup_iff.mpr h.once

/-- What has become of an accepted job. -/
lemma Kept.fate (h : Kept fullHash accepted job ends results handed) {a : Nat × Bytes}
    (ha : a ∈ accepted) :
    ((∃ j ∈ job, j.id = a.1 ∧ j.material fullHash = a.2) ∧ ∀ p ∈ ends, p.id ≠ a.1) ∨
      ((∀ j ∈ job, j.id ≠ a.1) ∧ ∃ p, ends.filter (·.id = a.1) = [p] ∧ p.key = a.2) := by
  have hsome : ∀ p : Post, decide ((desk fullHash).about p = some a.1) = decide (p.id = a.1) :=
    fun p => decide_eq_decide.mpr Option.some_inj
  have huniq : ∀ {m}, newest a.1 accepted = some m → m = a.2 := fun hm =>
    congrArg Prod.snd (List.inj_on_of_nodup_map h.ids (mem_of_newest hm) ha rfl)
  obtain ⟨m, hm, hf⟩ := h.booked.fate ha
  obtain rfl := huniq hm
  rcases hf with ⟨j, hj, hc, hl⟩ | ⟨hq, p, hp, hk⟩
  · have hj' : j ∈ job.toList.filter ((desk fullHash).key · = a.1) := by
      rw [hj]
      exact List.mem_singleton.mpr rfl
    obtain ⟨hj', hid⟩ := List.mem_filter.mp hj'
    refine .inl ⟨⟨j, Option.mem_toList.mp hj', of_decide_eq_true hid, hc⟩, fun p hp he => ?_⟩
    rw [List.filter_eq_nil_iff] at hl
    exact hl p hp (decide_eq_true (congrArg some he))
  · refine .inr ⟨fun j hj he => ?_, p, ?_, hk⟩
    · rw [List.filter_eq_nil_iff] at hq
      exact hq j (Option.mem_toList.mpr hj) (decide_eq_true he)
    · rw [← hp]
      exact List.filter_congr fun p _ => (hsome p).symm

end

/-! ### The worker's fields -/

/-- What the fields tell about where the worker is. -/
structure Placed (fullHash : Bytes → Bytes) (s : Worker) : Prop where
  idle : s.pending.isSome = true → s.phase = .waiting ∨ s.phase = .woken
  busy : s.busy = s.phase.busy
  signalled : s.pending.isSome = true → s.signal = true ∨ 0 < s.owed ∨ s.phase = .woken
  key : ∀ j, s.phase.current = some j → s.currentKey = j.material fullHash
  found : ∀ j r, s.phase = .finished j r → j.kind = .discoveryGenerate → r.stamp.length = STAMP_SIZE
  clear : ∀ j, s.phase.current = some j → j.kind = .discoveryGenerate → s.cancelFlag = false

/-- A job for which a cancel was called will not come to a stamp. -/
structure Withdrawn (s : Worker) (i : Nat) : Prop where
  below : i < s.accepted.length
  job : ∀ j ∈ s.job, j.id = i →
    (s.phase = .running j ∧ s.cancelFlag = true) ∨ ∃ r, s.phase = .finished j r ∧ r.ok = false
  ends : ∀ p ∈ s.ends, p.id = i → p.result.ok = false

/-- The invariant of the runs whose steps are heeded. -/
structure Inv (fullHash : Bytes → Bytes) (s : Worker) : Prop where
  kept : Kept fullHash s.accepted s.job s.ends s.results s.handed
  placed : Placed fullHash s
  withdrawn : ∀ i ∈ s.cancelled, Withdrawn s i

lemma Inv.init : Inv fullHash {} :=
  ⟨.init, ⟨nofun, rfl, nofun, nofun, nofun, nofun⟩, nofun⟩

/-- While a job waits in the queue the worker has none. -/
lemma Placed.phase_job (h : Placed fullHash s) (hp : s.pending = some j) :
    s.phase = .waiting ∨ s.phase = .woken := h.idle (by rw [hp]; rfl)

/-- A worker that has a job has an empty queue. -/
lemma Placed.pending_none (h : Placed fullHash s) (hw : s.phase ≠ .waiting)
    (hk : s.phase ≠ .woken) : s.pending = none := by
  cases hp : s.pending with
  | none => rfl
  | some j =>
    rcases h.phase_job hp with hp | hp
    · exact absurd hp hw
    · exact absurd hp hk

/-- The worker's job is the one of its phase. -/
lemma Placed.job_eq (h : Placed fullHash s) (hb : s.phase.busy = true) : s.job = s.phase.job := by
  have hp : s.pending = none := h.pending_none
    (fun he => by rw [he] at hb; cases hb) (fun he => by rw [he] at hb; cases hb)
  unfold Worker.job
  rw [hp]
  rfl

lemma current_job {ph : Phase} (h : ph.current = some j) : ph.busy = true ∧ ph.job = some j := by
  cases ph with
  | published j' => exact ⟨rfl, h⟩
  | running j' => exact ⟨rfl, h⟩
  | _ => cases h

/-- A withdrawn job is not in the queue. -/
lemma Withdrawn.not_pending (h : Withdrawn s i) (hp : Placed fullHash s) (hj : s.pending = some j) :
    j.id ≠ i := by
  intro he
  have hjob : s.job = some j := by
    unfold Worker.job
    rw [hj]
    rfl
  rcases hp.phase_job hj with hph | hph
  all_goals
    rcases h.job j hjob he with ⟨hr, -⟩ | ⟨r, hr, -⟩
    all_goals
      rw [hph] at hr
      cases hr

/-! ### The callers -/

lemma Inv.submit {kind input stamp cost onDone} (h : Inv fullHash s) :
    Inv fullHash (s.submit fullHash kind input stamp cost onDone) := by
  unfold Worker.submit
  split
  next => exact h
  next hfree =>
    obtain ⟨hbusy, hpend⟩ := not_or.mp hfree
    have hpend : s.pending = none := Option.not_isSome_iff_eq_none.mp hpend
    have hph : s.phase = .waiting ∨ s.phase = .woken := by
      have hb := h.placed.busy
      rw [Bool.not_eq_true] at hbusy
      cases hp : s.phase with
      | waiting => exact .inl rfl
      | woken => exact .inr rfl
      | _ =>
        rw [hbusy, hp] at hb
        cases hb
    have hjob : s.job = none := by
      unfold Worker.job
      rw [hpend]
      rcases hph with hp | hp
      all_goals
        rw [hp]
        rfl
    have hkept := h.kept
    rw [hjob] at hkept
    refine ⟨hkept.accept rfl, ⟨fun _ => hph, h.placed.busy, fun _ => .inr (.inl (Nat.succ_pos _)),
      h.placed.key, h.placed.found, h.placed.clear⟩, fun i hi => ?_⟩
    obtain ⟨hlt, -, hends⟩ := h.withdrawn i hi
    refine ⟨?_, fun j hj he => ?_, hends⟩
    · dsimp only
      rw [List.length_append]
      exact Nat.lt_add_right _ hlt
    · obtain rfl := Option.some.inj hj
      exact absurd he hlt.ne'

lemma Inv.signal (h : Inv fullHash s) : Inv fullHash (s.step fullHash .signal) := by
  dsimp only [Worker.step]
  split
  next => exact h
  next => exact ⟨h.kept, { h.placed with signalled := fun _ => .inl rfl },
      fun i hi => ⟨(h.withdrawn i hi).below, (h.withdrawn i hi).job, (h.withdrawn i hi).ends⟩⟩

lemma Inv.take (h : Inv fullHash s) : Inv fullHash (s.take key) := by
  unfold Worker.take
  split
  next => exact h
  next hp => exact ⟨h.kept.take hp, { h.placed with },
      fun i hi => ⟨(h.withdrawn i hi).below, (h.withdrawn i hi).job, (h.withdrawn i hi).ends⟩⟩

/-- The jobs a cancel is about. -/
lemma mem_cancels : i ∈ s.cancels fullHash material ↔
    ∃ j ∈ s.job, j.material fullHash = material ∧ j.id = i := by
  unfold Worker.cancels
  rw [List.mem_map]
  constructor
  · rintro ⟨j, hj, rfl⟩
    obtain ⟨hj, hm⟩ := List.mem_filter.mp hj
    exact ⟨j, Option.mem_toList.mp hj, of_decide_eq_true hm, rfl⟩
  · rintro ⟨j, hj, hm, rfl⟩
    exact ⟨j, List.mem_filter.mpr ⟨Option.mem_toList.mpr hj, decide_eq_true hm⟩, rfl⟩

/-- The flag is raised for the current job, when the mailbox waits for it. -/
lemma Inv.raise (h : Inv fullHash s)
    (hk : s.currentKey = material → ∀ j, s.phase.current = some j → j.kind ≠ .discoveryGenerate) :
    Inv fullHash (s.raise material) := by
  unfold Worker.raise
  split
  next hm =>
    refine ⟨h.kept, { h.placed with clear := fun j hj hd => absurd hd (hk hm j hj) },
      fun i hi => ?_⟩
    obtain ⟨hlt, hjob, hends⟩ := h.withdrawn i hi
    refine ⟨hlt, fun j hj he => ?_, hends⟩
    exact (hjob j hj he).imp_left fun hr => ⟨hr.1, rfl⟩
  next => exact h

/-- More jobs are withdrawn. -/
lemma Inv.withdraw {l} (h : Inv fullHash s) (hl : ∀ i ∈ l, Withdrawn s i) :
    Inv fullHash { s with cancelled := s.cancelled ++ l } := by
  refine ⟨h.kept, { h.placed with }, fun i hi => ?_⟩
  have hi : Withdrawn s i := by
    rcases List.mem_append.mp hi with hi | hi
    · exact h.withdrawn i hi
    · exact hl i hi
  exact ⟨hi.below, hi.job, hi.ends⟩

/-- A job in the queue is dropped with a result that is not ok. -/
lemma drop_pending (hp : s.pending = some j) (hm : j.material fullHash = material) :
    s.drop fullHash material =
      { s with pending := none }.post { id := j.id, key := material, result := {} } := by
  unfold Worker.drop
  rw [hp]
  dsimp only
  rw [if_pos hm]

/-- Another job stays in the queue. -/
lemma drop_other (hp : ∀ j, s.pending = some j → j.material fullHash ≠ material) :
    s.drop fullHash material = s := by
  unfold Worker.drop
  split
  next => rfl
  next j hs => exact if_neg (hp j hs)

lemma Inv.drop (h : Inv fullHash s) (hp : s.pending = some j)
    (hm : j.material fullHash = material) : Inv fullHash (s.drop fullHash material) ∧
    Withdrawn (s.drop fullHash material) j.id := by
  have hkept := h.kept
  have hjob : s.job = some j := by
    unfold Worker.job
    rw [hp]
    rfl
  have hnone : s.phase.job = none := by
    rcases h.placed.phase_job hp with hp | hp
    all_goals
      rw [hp]
      rfl
  let p : Post := { id := j.id, key := material, result := {} }
  rw [hjob] at hkept
  rw [drop_pending hp hm]
  have hpost := hkept.post (p := p) rfl hm.symm
    (List.drop_sublist ((s.results ++ [p]).length - RESULTS_MAX) _)
  refine ⟨⟨?_, ⟨nofun, h.placed.busy, nofun, h.placed.key, h.placed.found, h.placed.clear⟩,
    fun i hi => ⟨(h.withdrawn i hi).below, fun x hx => ?_, fun q hq hid => ?_⟩⟩,
    hkept.job_below, fun x hx => ?_, fun q hq hid => ?_⟩
  · rw [← hnone] at hpost
    exact hpost
  · exact absurd (hnone.symm.trans hx) nofun
  · rcases List.mem_append.mp hq with hq | hq
    · exact (h.withdrawn i hi).ends q hq hid
    · obtain rfl := List.mem_singleton.mp hq
      rfl
  · exact absurd (hnone.symm.trans hx) nofun
  · rcases List.mem_append.mp hq with hq | hq
    · exact absurd hid (hkept.not_ended q hq)
    · obtain rfl := List.mem_singleton.mp hq
      rfl

lemma Withdrawn.raise (h : Withdrawn s i) : Withdrawn (s.raise material) i := by
  unfold Worker.raise
  split
  next =>
    exact ⟨h.below, fun j hj he => (h.job j hj he).imp_left fun hr => ⟨hr.1, rfl⟩, h.ends⟩
  next => exact h

/-- The log of cancels is the step's. -/
lemma cancel_cancelled : (s.cancel fullHash material).cancelled = s.cancelled := by
  have hd : (s.drop fullHash material).cancelled = s.cancelled := by
    unfold Worker.drop
    split
    next => rfl
    next =>
      split
      next => rfl
      next => rfl
  unfold Worker.cancel Worker.raise
  split
  next => exact hd
  next => exact hd

/-- A cancel that meets its job. -/
lemma Inv.cancel_met (h : Inv fullHash s) (hj : j ∈ s.job) (hm : j.material fullHash = material)
    (hp : s.pending = some j ∨ (s.phase = .running j ∧ j.kind ≠ .discoveryGenerate) ∨
      ∃ r, s.phase = .finished j r ∧ r.ok = false) :
    Inv fullHash (s.cancel fullHash material) ∧ Withdrawn (s.cancel fullHash material) j.id := by
  unfold Worker.cancel
  rcases hp with hp | ⟨hr, hd⟩ | ⟨r, hr, hok⟩
  · obtain ⟨hinv, hw⟩ := h.drop hp hm
    refine ⟨hinv.raise fun _ x hx => ?_, hw.raise⟩
    rw [drop_pending hp hm] at hx
    have hx : s.phase.current = some x := hx
    rcases h.placed.phase_job hp with hq | hq
    all_goals
      rw [hq] at hx
      cases hx
  · have hpend : s.pending = none := h.placed.pending_none (by rw [hr]; nofun) (by rw [hr]; nofun)
    have hkept := h.kept
    rw [Option.mem_def.mp hj] at hkept
    rw [drop_other (by rw [hpend]; nofun)]
    constructor
    · refine h.raise fun _ x hx => ?_
      rw [hr] at hx
      cases hx
      exact hd
    · unfold Worker.raise
      rw [if_pos ((h.placed.key j (by rw [hr]; rfl)).trans hm)]
      refine ⟨hkept.job_below, fun x hx _ => .inl ⟨?_, rfl⟩, fun p hq he => ?_⟩
      · rw [Option.mem_unique hx hj]
        exact hr
      · exact absurd he (hkept.not_ended p hq)
  · have hpend : s.pending = none := h.placed.pending_none (by rw [hr]; nofun) (by rw [hr]; nofun)
    have hkept := h.kept
    rw [Option.mem_def.mp hj] at hkept
    rw [drop_other (by rw [hpend]; nofun)]
    constructor
    · refine h.raise fun _ x hx => ?_
      rw [hr] at hx
      cases hx
    · have hw : Withdrawn s j.id := by
        refine ⟨hkept.job_below, fun x hx _ => .inr ⟨r, ?_, hok⟩, fun p hq he => ?_⟩
        · rw [Option.mem_unique hx hj]
          exact hr
        · exact absurd he (hkept.not_ended p hq)
      exact hw.raise

/-- A cancel that is about no job. -/
lemma Inv.cancel_unmet (h : Inv fullHash s) (hj : ∀ j ∈ s.job, j.material fullHash ≠ material) :
    Inv fullHash (s.cancel fullHash material) := by
  have hpend : ∀ j, s.pending = some j → j.material fullHash ≠ material := fun j hp => by
    apply hj
    unfold Worker.job
    rw [hp]
    rfl
  unfold Worker.cancel
  rw [drop_other hpend]
  refine h.raise fun hkey x hx => (hj x ?_ ((h.placed.key x hx).symm.trans hkey)).elim
  obtain ⟨hb, hpj⟩ := current_job hx
  exact (h.placed.job_eq hb).trans hpj

lemma Inv.cancel {locked} (h : Inv fullHash s) (hh : Heeded fullHash s (.cancel material locked)) :
    Inv fullHash (s.step fullHash (.cancel material locked)) := by
  dsimp only [Worker.step]
  by_cases hj : ∃ j ∈ s.job, j.material fullHash = material
  · obtain ⟨j, hj, hm⟩ := hj
    obtain ⟨rfl, hp⟩ := hh j hj hm
    obtain ⟨hinv, hw⟩ := h.cancel_met hj hm hp
    rw [if_pos rfl]
    have := hinv.withdraw (l := s.cancels fullHash material) fun i hi => by
      obtain ⟨j', hj', -, rfl⟩ := mem_cancels.mp hi
      rw [Option.mem_unique hj' hj]
      exact hw
    rw [cancel_cancelled] at this
    exact this
  · have hno : ∀ j ∈ s.job, j.material fullHash ≠ material := fun j hm he => hj ⟨j, hm, he⟩
    have hnil : ∀ {s'}, ∀ i ∈ s.cancels fullHash material, Withdrawn s' i := fun i hi => by
      obtain ⟨j, hm, he, -⟩ := mem_cancels.mp hi
      exact absurd he (hno j hm)
    cases locked with
    | true =>
      have := (h.cancel_unmet hno).withdraw hnil
      rw [cancel_cancelled] at this
      exact this
    | false => exact h.withdraw hnil

/-! ### The worker -/

/-- The worker goes on with the same job, or with none. -/
lemma Inv.move {s' : Worker} (h : Inv fullHash s) (hp : Placed fullHash s')
    (hk : Kept fullHash s.accepted s.job s.ends s.results s.handed →
      Kept fullHash s'.accepted s'.job s'.ends s'.results s'.handed)
    (hw : ∀ i, Withdrawn s i → Withdrawn s' i) (hc : s'.cancelled = s.cancelled) :
    Inv fullHash s' :=
  ⟨hk h.kept, hp, fun i hi => hw i (h.withdrawn i (hc ▸ hi))⟩

lemma Inv.wake (h : Inv fullHash s) : Inv fullHash (s.step fullHash .wake) := by
  dsimp only [Worker.step]
  split
  next hw =>
    obtain ⟨hph, -⟩ := hw
    have hjob : Worker.job { s with signal := false, phase := .woken } = s.job := by
      unfold Worker.job
      rw [hph]
      rfl
    have hbusy := h.placed.busy
    rw [hph] at hbusy
    refine h.move ⟨fun _ => .inr rfl, hbusy, fun _ => .inr (.inr rfl), nofun, nofun, nofun⟩
      (fun hk => ?_) (fun i hi => ⟨hi.below, fun j hj he => ?_, hi.ends⟩) rfl
    · rw [hjob]
      exact hk
    · rw [hjob] at hj
      rcases hi.job j hj he with ⟨hr, -⟩ | ⟨r, hr, -⟩
      all_goals
        rw [hph] at hr
        cases hr
  next => exact h

lemma Inv.dequeue (h : Inv fullHash s) : Inv fullHash s.dequeue := by
  unfold Worker.dequeue
  split
  next hph hp =>
    have hjob : Worker.job { s with phase := .waiting } = s.job := by
      unfold Worker.job
      rw [hph]
      rfl
    have hbusy := h.placed.busy
    rw [hph] at hbusy
    have hpend : ∀ {P : Prop}, s.pending.isSome = true → P := fun hs => by
      rw [hp] at hs
      cases hs
    refine h.move ⟨hpend, hbusy, hpend, nofun, nofun, nofun⟩ (fun hk => ?_)
      (fun i hi => ⟨hi.below, fun j hj he => ?_, hi.ends⟩) rfl
    · rw [hjob]
      exact hk
    · unfold Worker.job at hj
      rw [hp] at hj
      cases hj
  next j hph hp =>
    have hjob : s.job = some j := by
      unfold Worker.job
      rw [hp]
      rfl
    refine h.move ⟨nofun, rfl, nofun, nofun, nofun, nofun⟩ (fun hk => ?_)
      (fun i hi => ⟨hi.below, fun x hx he => ?_, hi.ends⟩) rfl
    · rw [hjob] at hk
      exact hk
    · obtain rfl := Option.some.inj hx
      exact absurd he (hi.not_pending h.placed hp)
  next => exact h

lemma Inv.publish (h : Inv fullHash s) : Inv fullHash (s.publish fullHash) := by
  unfold Worker.publish
  split
  next j hph =>
    have hjob := h.placed.job_eq (by rw [hph]; rfl)
    have hpend : s.pending = none := h.placed.pending_none (by rw [hph]; nofun) (by rw [hph]; nofun)
    rw [hph] at hjob
    have hnone : ∀ {P : Prop}, s.pending.isSome = true → P := fun hs => by
      rw [hpend] at hs
      cases hs
    have hbusy := h.placed.busy
    rw [hph] at hbusy
    have hwith : ∀ {i x}, Withdrawn s i → some j = some x → x.id ≠ i := fun {i x} hi hx he => by
      rcases hi.job x (hjob.trans hx) he with ⟨hr, -⟩ | ⟨r, hr, -⟩
      all_goals
        rw [hph] at hr
        cases hr
    split
    next =>
      refine h.move ⟨hnone, hbusy, hnone, fun x hx => ?_, nofun, fun x hx _ => rfl⟩ (fun hk => ?_)
        (fun i hi => ⟨hi.below, fun x hx he => ?_, hi.ends⟩) rfl
      · cases hx
        rfl
      · unfold Worker.job
        rw [hpend]
        rw [hjob] at hk
        exact hk
      · unfold Worker.job at hx
        rw [hpend] at hx
        exact absurd he (hwith hi hx)
    next hd =>
      refine h.move ⟨hnone, hbusy, hnone, fun x hx => ?_, nofun, fun x hx _ => rfl⟩ (fun hk => ?_)
        (fun i hi => ⟨hi.below, fun x hx he => ?_, hi.ends⟩) rfl
      · cases hx
        rfl
      · unfold Worker.job
        rw [hpend]
        rw [hjob] at hk
        exact hk
      · unfold Worker.job at hx
        rw [hpend] at hx
        exact absurd he (hwith hi hx)
  next => exact h

/-- The search for the current job ends. -/
lemma Inv.finish {r cacheKey cacheStamp} (h : Inv fullHash s) (hj : s.phase.current = some j)
    (hd : j.kind = .discoveryGenerate → r.stamp.length = STAMP_SIZE)
    (hr : s.phase = .running j → s.cancelFlag = true → r.ok = false) :
    Inv fullHash { s with phase := .finished j r, cacheKey, cacheStamp } := by
  obtain ⟨hb, hpj⟩ := current_job hj
  have hjob : s.job = some j := (h.placed.job_eq hb).trans hpj
  have hpend : s.pending = none :=
    h.placed.pending_none (fun he => by rw [he] at hb; cases hb)
    (fun he => by rw [he] at hb; cases hb)
  have hnone : ∀ {P : Prop}, s.pending.isSome = true → P := fun hs => by
    rw [hpend] at hs
    cases hs
  refine h.move ⟨hnone, h.placed.busy.trans hb, hnone, nofun, fun x r' hx => ?_, nofun⟩
    (fun hk => ?_) (fun i hi => ⟨hi.below, fun x hx he => ?_, hi.ends⟩) rfl
  · cases hx
    exact hd
  · unfold Worker.job
    rw [hpend]
    rw [hjob] at hk
    exact hk
  · unfold Worker.job at hx
    rw [hpend] at hx
    obtain rfl := Option.some.inj hx
    rcases hi.job j hjob he with ⟨hrun, hf⟩ | ⟨r', hfin, -⟩
    · exact .inr ⟨r, rfl, hr hrun hf⟩
    · rw [hfin] at hj
      cases hj

lemma Inv.lookup (h : Inv fullHash s) : Inv fullHash (s.lookup fullHash) := by
  unfold Worker.lookup
  split
  next j hph =>
    have hcur : s.phase.current = some j := by rw [hph]; rfl
    split
    next hc =>
      refine h.finish hcur (fun _ => hc.2) fun he => ?_
      rw [hph] at he
      cases he
    next =>
      obtain ⟨hb, hpj⟩ := current_job hcur
      have hpend : s.pending = none :=
        h.placed.pending_none (by rw [hph]; nofun) (by rw [hph]; nofun)
      have hjob : Worker.job { s with phase := .running j } = s.job := by
        rw [h.placed.job_eq hb, hpj]
        unfold Worker.job
        rw [hpend]
        rfl
      have hnone : ∀ {P : Prop}, s.pending.isSome = true → P := fun hs => by
        rw [hpend] at hs
        cases hs
      refine h.move ⟨hnone, h.placed.busy.trans hb, hnone, fun x hx => ?_, nofun, fun x hx => ?_⟩
        (fun hk => ?_) (fun i hi => ⟨hi.below, fun x hx he => ?_, hi.ends⟩) rfl
      · exact h.placed.key x (hcur.trans hx)
      · exact h.placed.clear x (hcur.trans hx)
      · rw [hjob]
        exact hk
      · rw [hjob] at hx
        rcases hi.job x hx he with ⟨hr, -⟩ | ⟨r, hr, -⟩
        all_goals
          rw [hph] at hr
          cases hr
  next => exact h

lemma Inv.check (h : Inv fullHash s) : Inv fullHash s.check := by
  unfold Worker.check
  split
  next j hph =>
    have hcur : s.phase.current = some j := by rw [hph]; rfl
    split
    next hf =>
      refine h.finish hcur (fun hd => ?_) fun _ _ => rfl
      rw [h.placed.clear j hcur hd] at hf
      cases hf
    next => exact h
  next => exact h

lemma Inv.complete {o} (h : Inv fullHash s) (hh : Heeded fullHash s (.complete o)) :
    Inv fullHash (s.complete fullHash o) := by
  unfold Worker.complete
  split
  next j hph =>
    obtain ⟨hflag, hdisc⟩ := hh j hph
    have hcur : s.phase.current = some j := by rw [hph]; rfl
    have hd : j.kind = .discoveryGenerate → (j.result o).stamp.length = STAMP_SIZE := fun hd => by
      cases o with
      | failed => exact absurd hd (hdisc rfl)
      | done stamp value valid =>
        unfold Job.result
        dsimp only
        rw [hd]
        exact stamp.2
    have hr : s.phase = .running j → s.cancelFlag = true → (j.result o).ok = false := fun _ hf => by
      rw [hflag hf]
      rfl
    dsimp only
    split
    next => exact h.finish hcur hd hr
    next => exact h.finish hcur hd hr
  next => exact h

lemma Inv.deliver (h : Inv fullHash s) : Inv fullHash (s.deliver fullHash) := by
  unfold Worker.deliver
  split
  next j r hph =>
    have hpend : s.pending = none := h.placed.pending_none (by rw [hph]; nofun) (by rw [hph]; nofun)
    have hjob : s.job = some j := by
      rw [h.placed.job_eq (by rw [hph]; rfl), hph]
      rfl
    have hnone : ∀ {P : Prop}, s.pending.isSome = true → P := fun hs => by
      rw [hpend] at hs
      cases hs
    have hbusy := h.placed.busy
    rw [hph] at hbusy
    have hend : ∀ {i}, Withdrawn s i → ∀ q ∈ s.ends ++ [⟨j.id, j.material fullHash, r⟩], q.id = i →
        q.result.ok = false := fun {i} hi q hq he => by
      rcases List.mem_append.mp hq with hq | hq
      · exact hi.ends q hq he
      · obtain rfl := List.mem_singleton.mp hq
        rcases hi.job j hjob he with ⟨hr, -⟩ | ⟨r', hr, hok⟩
        · rw [hph] at hr
          cases hr
        · rw [hph] at hr
          cases hr
          exact hok
    have hno : ∀ x, (Option.or s.pending none : Option Job) = some x → False := fun x hx => by
      rw [hpend] at hx
      cases hx
    dsimp only
    split
    next hk =>
      rw [if_pos (h.placed.found j r hph hk)]
      refine h.move ⟨hnone, hbusy, hnone, nofun, nofun, nofun⟩ (fun hkept => ?_)
        (fun i hi => ⟨hi.below, fun x hx => (hno x hx).elim, hend hi⟩) rfl
      unfold Worker.job
      rw [hpend]
      rw [hjob] at hkept
      exact hkept.settle rfl rfl
    next =>
      refine h.move ⟨hnone, hbusy, hnone, nofun, nofun, nofun⟩ (fun hkept => ?_)
        (fun i hi => ⟨hi.below, fun x hx => (hno x hx).elim, hend hi⟩) rfl
      unfold Worker.job
      dsimp only [Worker.post]
      rw [hpend]
      rw [hjob] at hkept
      exact hkept.post rfl rfl (List.drop_sublist _ _)
  next => exact h

lemma Inv.clear (h : Inv fullHash s) : Inv fullHash s.clear := by
  unfold Worker.clear
  split
  next j hph =>
    have hpend : s.pending = none := h.placed.pending_none (by rw [hph]; nofun) (by rw [hph]; nofun)
    have hjob : s.job = none := by
      rw [h.placed.job_eq (by rw [hph]; rfl), hph]
      rfl
    have hnone : ∀ {P : Prop}, s.pending.isSome = true → P := fun hs => by
      rw [hpend] at hs
      cases hs
    refine h.move ⟨hnone, rfl, hnone, nofun, nofun, nofun⟩ (fun hk => ?_)
      (fun i hi => ⟨hi.below, fun x hx => ?_, hi.ends⟩) rfl
    · unfold Worker.job
      rw [hpend]
      rw [hjob] at hk
      exact hk
    · unfold Worker.job at hx
      rw [hpend] at hx
      cases hx
  next => exact h

/-- Every heeded step keeps the invariant. -/
lemma Inv.step (h : Inv fullHash s) (he : Heeded fullHash s e) :
    Inv fullHash (s.step fullHash e) := by
  cases e with
  | submit kind input stamp cost onDone locked =>
    cases locked with
    | true => exact h.submit
    | false => exact h
  | signal => exact h.signal
  | cancel material locked => exact h.cancel he
  | take key locked =>
    cases locked with
    | true => exact h.take
    | false => exact h
  | wake => exact h.wake
  | dequeue => exact h.dequeue
  | publish => exact h.publish
  | lookup => exact h.lookup
  | check => exact h.check
  | complete o => exact h.complete he
  | deliver => exact h.deliver
  | clear => exact h.clear

/-! ### The way to a result -/

lemma Ends.cons (h : Ends fullHash (s.step fullHash e) j) (ho : e.own = true)
    (he : Heeded fullHash s e) : Ends fullHash s j := by
  obtain ⟨es, hown, hal, hp⟩ := h
  refine ⟨e :: es, fun x hx => ?_, ⟨he, hal⟩, hp⟩
  rcases List.mem_cons.mp hx with rfl | hx
  · exact ho
  · exact hown x hx

lemma Inv.ends_finished {r} (h : Inv fullHash s) (hph : s.phase = .finished j r) :
    Ends fullHash s j := by
  refine ⟨[.deliver], fun e he => ?_, ⟨trivial, trivial⟩, ⟨j.id, j.material fullHash, r⟩, ?_, rfl⟩
  · obtain rfl := List.mem_singleton.mp he
    rfl
  · dsimp only [List.foldl, Worker.step]
    unfold Worker.deliver
    rw [hph]
    dsimp only
    split
    next hk =>
      rw [if_pos (h.placed.found j r hph hk)]
      exact List.mem_append_right _ (List.mem_singleton.mpr rfl)
    next => exact List.mem_append_right _ (List.mem_singleton.mpr rfl)

lemma Inv.ends_running (h : Inv fullHash s) (hph : s.phase = .running j) : Ends fullHash s j := by
  let found : Outcome := .done ⟨List.replicate STAMP_SIZE 0, List.length_replicate⟩ 0 true
  have hfin : ∀ o, (s.complete fullHash o).phase = .finished j (j.result o) := fun o => by
    unfold Worker.complete
    rw [hph]
    dsimp only
    split
    next => rfl
    next => rfl
  have hend : ∀ o, Heeded fullHash s (.complete o) → Ends fullHash s j := fun o ho =>
    Ends.cons (e := .complete o) (Inv.ends_finished (h.step ho) (hfin o)) rfl ho
  cases hf : s.cancelFlag with
  | true =>
    refine hend .failed fun x hx => ⟨fun _ => rfl, fun _ hd => ?_⟩
    rw [h.placed.clear x (by rw [hx]; rfl) hd] at hf
    cases hf
  | false =>
    refine hend found fun x _ => ⟨fun ht => ?_, nofun⟩
    rw [hf] at ht
    cases ht

lemma Inv.ends_published (h : Inv fullHash s) (hph : s.phase = .published j) :
    Ends fullHash s j := by
  have hnext : Ends fullHash (s.step fullHash .lookup) j := by
    have hinv := h.step (e := .lookup) trivial
    have hcase : (∃ r, (s.lookup fullHash).phase = .finished j r) ∨
        (s.lookup fullHash).phase = .running j := by
      unfold Worker.lookup
      rw [hph]
      dsimp only
      split
      next => exact .inl ⟨_, rfl⟩
      next => exact .inr rfl
    rcases hcase with ⟨r, hr⟩ | hr
    · exact hinv.ends_finished hr
    · exact hinv.ends_running hr
  exact hnext.cons rfl trivial

lemma Inv.ends_taken (h : Inv fullHash s) (hph : s.phase = .taken j) : Ends fullHash s j := by
  have hnext : Ends fullHash (s.step fullHash .publish) j := by
    have hinv := h.step (e := .publish) trivial
    have hcase : (s.publish fullHash).phase = .published j ∨
      (s.publish fullHash).phase = .running j := by
      unfold Worker.publish
      rw [hph]
      dsimp only
      split
      next => exact .inl rfl
      next => exact .inr rfl
    rcases hcase with hr | hr
    · exact hinv.ends_published hr
    · exact hinv.ends_running hr
  exact hnext.cons rfl trivial

lemma Inv.ends_woken (h : Inv fullHash s) (hp : s.pending = some j) (hph : s.phase = .woken) :
    Ends fullHash s j := by
  have hdeq : (s.dequeue).phase = .taken j := by
    unfold Worker.dequeue
    rw [hph, hp]
  exact Ends.cons (e := .dequeue) (Inv.ends_taken (h.step trivial) hdeq) rfl trivial

lemma Inv.ends_signalled (h : Inv fullHash s) (hp : s.pending = some j) (hph : s.phase = .waiting)
    (hs : s.signal = true) : Ends fullHash s j := by
  have hwake : s.step fullHash .wake = { s with signal := false, phase := .woken } :=
    if_pos ⟨hph, hs⟩
  have hinv := h.step (e := .wake) trivial
  have hnext : Ends fullHash (s.step fullHash .wake) j := by
    rw [hwake] at hinv ⊢
    exact hinv.ends_woken hp rfl
  exact hnext.cons rfl trivial

/-- The worker's job comes to its result. -/
lemma Inv.ends (h : Inv fullHash s) (hj : s.job = some j) : Ends fullHash s j := by
  cases hp : s.pending with
  | some j' =>
    unfold Worker.job at hj
    rw [hp] at hj
    obtain rfl := Option.some.inj hj
    rcases h.placed.phase_job hp with hph | hph
    · rcases h.placed.signalled (by rw [hp]; rfl) with hs | ho | hw
      · exact h.ends_signalled hp hph hs
      · have hsig : s.step fullHash .signal = { s with owed := s.owed - 1, signal := true } :=
          if_neg ho.ne'
        have hinv := h.step (e := .signal) trivial
        have hnext : Ends fullHash (s.step fullHash .signal) j' := by
          rw [hsig] at hinv ⊢
          exact hinv.ends_signalled hp hph rfl
        exact hnext.cons rfl trivial
      · exact h.ends_woken hp hw
    · exact h.ends_woken hp hph
  | none =>
    unfold Worker.job at hj
    rw [hp] at hj
    have hj : s.phase.job = some j := hj
    cases hph : s.phase with
    | taken j' =>
      rw [hph] at hj
      cases hj
      exact h.ends_taken hph
    | published j' =>
      rw [hph] at hj
      cases hj
      exact h.ends_published hph
    | running j' =>
      rw [hph] at hj
      cases hj
      exact h.ends_running hph
    | finished j' r =>
      rw [hph] at hj
      cases hj
      exact h.ends_finished hph
    | _ =>
      rw [hph] at hj
      cases hj

/-! ### Runs -/

/-- In a run of heeded steps every job ends once, and no cancel is lost. -/
theorem served_of_heeded (h : Reach (Worker.step fullHash) (Heeded fullHash) {} s) :
    Served fullHash s := by
  have hinv : Inv fullHash s := h.invariant .init fun he hs => hs.step he
  refine ⟨fun a ha => hinv.kept.fate ha, fun j hj => hinv.ends hj, hinv.kept.given, hinv.kept.once,
    fun p hp hi => ?_⟩
  exact (hinv.withdrawn _ hi).ends p hp rfl

/-- A job that is scored, cancelled in the search, and ends at the next look at the flag. -/
def sampleRun : List Event :=
  [.submit .lxmfValue [7] [1] 8 false true, .signal, .wake, .dequeue, .publish, .cancel [7] true,
  .check, .deliver, .clear, .take [7] true]

theorem served_sample : Served id (sampleRun.foldl (Worker.step id) {}) := by
  refine served_of_heeded (Reach.init.run ?_)
  refine ⟨trivial, trivial, trivial, trivial, trivial, fun j hj _ => ?_, trivial, trivial, trivial,
    trivial, trivial⟩
  obtain rfl := Option.some.inj hj
  exact ⟨rfl, .inr (.inl ⟨rfl, nofun⟩)⟩

/-- The cancel falls between the queue and the search, and the job comes to a stamp. -/
def missedRun : List Event :=
  [.submit .lxmfGenerate [7] [] 8 false true, .signal, .wake, .dequeue, .cancel [7] true, .publish,
  .check, .complete (.done ⟨List.replicate STAMP_SIZE 0, List.length_replicate⟩ 8 true), .deliver]

/-- A cancel is lost. -/
theorem not_served : ∃ s, Reach (Worker.step id) (fun _ _ => True) {} s ∧ ¬ Served id s := by
  have hrun : ∀ (es : List Event) (s : Worker),
    Allowed (Worker.step id) (fun _ _ => True) s es := by
    intro es
    induction es with
    | nil => exact fun _ => trivial
    | cons e es ih => exact fun s => ⟨trivial, ih _⟩
  refine ⟨missedRun.foldl (Worker.step id) {}, Reach.init.run (hrun _ _), fun hs => ?_⟩
  have hend : ∃ p ∈ (missedRun.foldl (Worker.step id) {}).ends,
      p.id ∈ (missedRun.foldl (Worker.step id) {}).cancelled ∧ p.result.ok = true := by decide
  obtain ⟨p, hp, hi, hok⟩ := hend
  rw [hs.cancelled p hp hi] at hok
  cases hok

end URSupreme.Stamp
