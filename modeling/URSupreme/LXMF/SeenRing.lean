import Mathlib
import URSupreme.Lib.Run
import URSupreme.LXMF.Inbound

/-!
# The seen ring

What the seen ring of a messenger says about the messages it was handed. Every hash enters the ring
when the message arrives, before the stamp policy decides: in runs where no message is refused
after that, a duplicate is only dropped when the first copy was delivered or is parked, and copies
that are both delivered have as many other hashes recorded between them as the ring holds.
-/

namespace URSupreme.Inbound
open Lib MsgPack LXMF

variable {P : Platform} {s : Messengers} {m m' : Messenger} {jobs : List PendingStampValidation}
  {job : PendingStampValidation} {k : Nat}

/-- The message in the job can be read. -/
def Readable (P : Platform) (job : PendingStampValidation) : Prop :=
  ∃ sourceHash payload p, openWire job.wire job.hasDestPrefix = some (sourceHash, payload) ∧
    parsePayload P payload = some p

/-- A message that was read for its hash can be read again. -/
lemma readable_of_readMessage (job : PendingStampValidation) {destination : Bytes}
    {r : Bytes × Bytes}
    (h : readMessage P destination job.wire job.hasDestPrefix = some r) : Readable P job := by
  unfold readMessage at h
  obtain ⟨⟨sourceHash, payload⟩, h1, h⟩ := Option.bind_eq_some_iff.mp h
  obtain ⟨p, h2, _⟩ := Option.bind_eq_some_iff.mp h
  exact ⟨sourceHash, payload, p, h1, h2⟩

/-- What the delivery callback leaves alone. -/
lemma onDelivery_keeps {address : Bytes} {r : MessageRecord} :
    ∃ inbox, m.onDelivery P address r = { m with inbox } ∧
      (inbox = m.inbox ∨ ∃ r, inbox = recent DEFAULT_RAM_CAPACITY (m.inbox ++ [⟨address, r⟩])) := by
  unfold Messenger.onDelivery
  split
  next => exact ⟨m.inbox, rfl, .inl rfl⟩
  next =>
    split
    next => exact ⟨m.inbox, rfl, .inl rfl⟩
    next => exact ⟨_, rfl, .inr ⟨_, rfl⟩⟩

/-- `_complete_delivery` runs the callback, which at most files the message. -/
lemma completeDelivery_spec {checked valid : Bool} {value : Int} (h : Readable P job) :
    ∃ inbox, m.completeDelivery P job checked valid value =
        { m with inbox, ran := m.ran ++ [⟨job.reception, m.recorded.length⟩] } ∧
      (inbox = m.inbox ∨
        ∃ r, inbox = recent DEFAULT_RAM_CAPACITY (m.inbox ++ [⟨job.address, r⟩])) := by
  obtain ⟨sourceHash, payload, p, h1, h2⟩ := h
  unfold Messenger.completeDelivery deliveryRecord
  rw [h1, Option.bind_eq_bind, Option.bind_some]
  dsimp only
  rw [h2, Option.bind_eq_bind, Option.bind_some]
  obtain ⟨inbox, e, hi⟩ := onDelivery_keeps (P := P) (m := m)
  dsimp only
  rw [e]
  exact ⟨inbox, rfl, hi⟩

/-- The seen ring, the parked jobs and the callback runs of one messenger fit together. -/
structure Tracked (P : Platform) (m : Messenger) (jobs : List PendingStampValidation) : Prop where
  ring : m.deliveredHashes = recent DELIVERED_DEDUP_MAX m.recorded
  spread : Spread DELIVERED_DEDUP_MAX m.recorded
  parked : ∀ job ∈ jobs, m.recorded[job.reception]? = some job.messageHash ∧ Readable P job
  once : (m.ran.map (·.reception) ++ jobs.map (·.reception)).Nodup
  ran : ∀ r ∈ m.ran, r.reception < m.recorded.length ∧ r.reception < r.since

/-- Every message recorded was delivered or is parked. -/
def Settled (m : Messenger) (jobs : List PendingStampValidation) : Prop :=
  ∀ i < m.recorded.length, i ∈ m.ran.map (·.reception) ∨ i ∈ jobs.map (·.reception)

/-- Receptions are numbered by the hashes recorded before them. -/
lemma Tracked.lt (h : Tracked P m jobs) {i : Nat}
    (hi : i ∈ m.ran.map (·.reception) ++ jobs.map (·.reception)) : i < m.recorded.length := by
  rcases List.mem_append.mp hi with hi | hi
  · obtain ⟨r, hr, rfl⟩ := List.mem_map.mp hi
    exact (h.ran r hr).1
  · obtain ⟨job, hj, rfl⟩ := List.mem_map.mp hi
    exact (List.getElem?_eq_some_iff.mp (h.parked job hj).1).1

lemma seenDelivery_some {hash : Bytes} (h : m.seenDelivery hash = some m') :
    hash ∉ m.deliveredHashes ∧
      m' = { m with
        deliveredHashes :=
          if (m.deliveredHashes ++ [hash]).length > DELIVERED_DEDUP_MAX
          then (m.deliveredHashes ++ [hash]).tail else m.deliveredHashes ++ [hash]
        recorded := m.recorded ++ [hash] } := by
  unfold Messenger.seenDelivery at h
  split at h
  next => cases h
  next hn => exact ⟨hn, (Option.some.inj h).symm⟩

lemma seenDelivery_none {hash : Bytes} (h : m.seenDelivery hash = none) :
    hash ∈ m.deliveredHashes := by
  unfold Messenger.seenDelivery at h
  split at h
  next hn => exact hn
  next => cases h

/-- A message is recorded, and then refused. -/
lemma Tracked.record {hash : Bytes} (h : Tracked P m jobs) (hs : m.seenDelivery hash = some m') :
    Tracked P m' jobs := by
  obtain ⟨hn, rfl⟩ := seenDelivery_some hs
  rw [h.ring] at hn
  refine ⟨?_, h.spread.snoc hn, fun job hj => ?_, h.once, fun r hr => ?_⟩
  · show (if _ then _ else _) = recent _ (m.recorded ++ [hash])
    rw [h.ring]
    exact (recent_snoc (by decide)).symm
  · obtain ⟨h1, h2⟩ := h.parked job hj
    refine ⟨?_, h2⟩
    rw [List.getElem?_append_left (List.getElem?_eq_some_iff.mp h1).1]
    exact h1
  · rw [List.length_append]
    exact ⟨Nat.lt_add_right _ (h.ran r hr).1, (h.ran r hr).2⟩

/-- The number of the message just recorded. -/
lemma recorded_of_seenDelivery {hash : Bytes} (hs : m.seenDelivery hash = some m') :
    m'.recorded = m.recorded ++ [hash] ∧ m'.ran = m.ran := by
  obtain ⟨_, rfl⟩ := seenDelivery_some hs
  exact ⟨rfl, rfl⟩

lemma recorded_at {hash : Bytes} (hs : m.seenDelivery hash = some m') :
    m'.recorded[m.recorded.length]? = some hash := by
  rw [(recorded_of_seenDelivery hs).1, List.getElem?_concat_length]

/-- The message just recorded is parked. -/
lemma Tracked.park (h : Tracked P m jobs) (hs : m.seenDelivery job.messageHash = some m')
    (hj : job.reception = m.recorded.length) (hr : Readable P job) :
    Tracked P m' (jobs ++ [job]) := by
  have h' := h.record hs
  refine ⟨h'.ring, h'.spread, fun j hjm => ?_, ?_, h'.ran⟩
  · rcases List.mem_append.mp hjm with hjm | hjm
    · exact h'.parked j hjm
    · obtain rfl := List.mem_singleton.mp hjm
      exact ⟨hj ▸ recorded_at hs, hr⟩
  · rw [(recorded_of_seenDelivery hs).2, List.map_append, ← List.append_assoc]
    refine List.nodup_append.mpr ⟨h.once, List.nodup_singleton _, fun i hi j hj' => ?_⟩
    obtain rfl := List.mem_singleton.mp hj'
    show i ≠ job.reception
    have := h.lt hi
    omega

/-- The message of a job is delivered. -/
lemma Tracked.deliver {checked valid : Bool} {value : Int}
    (h : Tracked P m (job :: jobs)) :
    Tracked P (m.completeDelivery P job checked valid value) jobs := by
  obtain ⟨h1, h2⟩ := h.parked job List.mem_cons_self
  obtain ⟨inbox, e, _⟩ := completeDelivery_spec (m := m) h2
  rw [e]
  have hlt := (List.getElem?_eq_some_iff.mp h1).1
  refine ⟨h.ring, h.spread, fun j hj => h.parked j (List.mem_cons_of_mem _ hj), ?_, fun r hr => ?_⟩
  · show (List.map _ (m.ran ++ _) ++ _).Nodup
    rw [List.map_append, List.append_assoc]
    exact h.once
  · rcases List.mem_append.mp hr with hr | hr
    · exact h.ran r hr
    · obtain rfl := List.mem_singleton.mp hr
      exact ⟨hlt, hlt⟩

/-- A job is dropped. -/
lemma Tracked.drop (h : Tracked P m (job :: jobs)) : Tracked P m jobs := by
  refine ⟨h.ring, h.spread, fun j hj => h.parked j (List.mem_cons_of_mem _ hj), ?_, h.ran⟩
  exact h.once.sublist (List.Sublist.append_left (List.sublist_cons_self _ _) _)

/-- The order of the jobs does not matter. -/
lemma Tracked.perm {jobs' : List PendingStampValidation} (h : Tracked P m jobs)
    (hp : jobs.Perm jobs') : Tracked P m jobs' :=
  ⟨h.ring, h.spread, fun j hj => h.parked j (hp.mem_iff.mpr hj),
    ((hp.map _).append_left _).nodup_iff.mp h.once, h.ran⟩

/-- The message just recorded is delivered. -/
lemma Tracked.recordDeliver {checked valid : Bool} {value : Int} (h : Tracked P m jobs)
    (hs : m.seenDelivery job.messageHash = some m') (hj : job.reception = m.recorded.length)
    (hr : Readable P job) : Tracked P (m'.completeDelivery P job checked valid value) jobs :=
  ((h.park hs hj hr).perm (List.perm_append_singleton job jobs)).deliver

/-- What settles: a message parked. -/
lemma Settled.park (h : Settled m jobs) (hs : m.seenDelivery job.messageHash = some m')
    (hj : job.reception = m.recorded.length) : Settled m' (jobs ++ [job]) := by
  obtain ⟨e1, e2⟩ := recorded_of_seenDelivery hs
  intro i hi
  rw [e1, List.length_append, List.length_singleton] at hi
  rw [e2, List.map_append]
  rcases Nat.lt_or_ge i m.recorded.length with hlt | hge
  · exact (h i hlt).imp id (List.mem_append_left _)
  · refine .inr (List.mem_append_right _ (List.mem_singleton.mpr ?_))
    show i = job.reception
    omega

/-- What settles: a message delivered. -/
lemma Settled.deliver {checked valid : Bool} {value : Int} (h : Settled m (job :: jobs))
    (hr : Readable P job) : Settled (m.completeDelivery P job checked valid value) jobs := by
  obtain ⟨inbox, e, _⟩ := completeDelivery_spec (m := m) hr
  rw [e]
  intro i hi
  show i ∈ List.map _ (m.ran ++ _) ∨ _
  rw [List.map_append, List.mem_append]
  rcases h i hi with hi | hi
  · exact .inl (.inl hi)
  · rcases List.mem_cons.mp hi with rfl | hi
    · exact .inl (.inr (List.mem_singleton.mpr rfl))
    · exact .inr hi

lemma Settled.perm {jobs' : List PendingStampValidation} (h : Settled m jobs)
    (hp : jobs.Perm jobs') : Settled m jobs' :=
  fun i hi => (h i hi).imp id (hp.map _).mem_iff.mp

/-- The parked jobs of slot `k`. -/
def Messengers.jobsOf (s : Messengers) (k : Nat) : List PendingStampValidation :=
  s.parked.filter (·.owner = k)

/-- An invariant of every messenger with its jobs. -/
def Everywhere (I : Messenger → List PendingStampValidation → Prop) (s : Messengers) : Prop :=
  ∀ k, I (s.slot k) (s.jobsOf k)

variable {I : Messenger → List PendingStampValidation → Prop}

/-- One messenger changes, and the queue for it. -/
lemma Everywhere.put {parked : List PendingStampValidation} (h : Everywhere I s)
    (hk : I m (parked.filter (·.owner = k)))
    (ho : ∀ i ≠ k, parked.filter (·.owner = i) = s.jobsOf i) :
    Everywhere I { s.put k m with parked } := by
  intro i
  show I (Function.update s.slot k m i) _
  by_cases hi : i = k
  · subst hi
    rw [Function.update_self]
    exact hk
  · rw [Function.update_of_ne hi]
    show I _ (parked.filter _)
    rw [ho i hi]
    exact h i

lemma filter_snoc_of_ne {l : List PendingStampValidation} (h : job.owner ≠ k) :
    (l ++ [job]).filter (·.owner = k) = l.filter (·.owner = k) := by
  rw [List.filter_append, List.filter_cons_of_neg (by simpa using h), List.filter_nil,
    List.append_nil]

lemma filter_snoc_of_eq {l : List PendingStampValidation} (h : job.owner = k) :
    (l ++ [job]).filter (·.owner = k) = l.filter (·.owner = k) ++ [job] := by
  rw [List.filter_append, List.filter_cons_of_pos (by simpa using h), List.filter_nil]

/-- `_deliver_lxmf_payload`, for an invariant that each verdict keeps. -/
lemma Everywhere.deliverLxmfPayload {wire packetHash : Bytes} {hasDestPrefix sigOk : Bool}
    (h : Everywhere I s)
    (hv : ∀ messageHash stamp m',
      readMessage P (s.slot k).destination wire hasDestPrefix = some (messageHash, stamp) →
      (s.slot k).seenDelivery messageHash = some m' →
      let job : PendingStampValidation :=
        { owner := k, wire, packetHash, hasDestPrefix, sigOk, messageHash, stamp
          cost := (s.slot k).stampCost, address := (s.slot k).destination
          reception := (s.slot k).recorded.length }
      match (s.slot k).verdict stamp s.parked.length with
      | .refuse => I m' (s.jobsOf k)
      | .park => I m' (s.jobsOf k ++ [job])
      | .deliver checked => I (m'.completeDelivery P job checked false (-1)) (s.jobsOf k)) :
    Everywhere I (deliverLxmfPayload P k wire packetHash hasDestPrefix sigOk s) := by
  unfold Inbound.deliverLxmfPayload
  dsimp only
  split
  next => exact h
  next messageHash stamp hr =>
    split
    next => exact h
    next m' hs =>
      have hI := hv messageHash stamp m' hr hs
      dsimp only at hI
      split
      next e =>
        rw [e] at hI
        exact h.put hI fun _ _ => rfl
      next e =>
        rw [e] at hI
        refine h.put ?_ fun i hi => filter_snoc_of_ne hi.symm
        rw [filter_snoc_of_eq]
        · exact hI
        · rfl
      next checked e =>
        rw [e] at hI
        exact h.put hI fun _ _ => rfl

/-- The first job of the queue belongs to its owner, and to nobody else. -/
lemma jobsOf_cons {f : PendingStampValidation} {q : List PendingStampValidation}
    (e : s.parked = f :: q) :
    s.jobsOf f.owner = f :: q.filter (·.owner = f.owner) ∧
      ∀ i ≠ f.owner, q.filter (·.owner = i) = s.jobsOf i := by
  unfold Messengers.jobsOf
  rw [e]
  refine ⟨List.filter_cons_of_pos (by simp), fun i hi => ?_⟩
  rw [List.filter_cons_of_neg (by simpa using hi.symm)]

/-- `tick_stamp_validations`, for an invariant that a delivery and a drop keep. -/
lemma Everywhere.tickStampValidations {accepted : Bool} {result : Option JobResult}
    (h : Everywhere I s)
    (hsub : ∀ f q, s.parked = f :: q → ∀ m l, I m (f :: l) →
      I m ({ f with submitted := accepted } :: l))
    (hdrop : ∀ f q, s.parked = f :: q → ((s.slot f.owner).initialized = false ∨
        f.submitted = true ∧ ∃ r, result = some r ∧ (s.slot f.owner).scored r = none) →
      ∀ l, I (s.slot f.owner) (f :: l) → I (s.slot f.owner) l)
    (hdel : ∀ f q, s.parked = f :: q → (s.slot f.owner).initialized = true →
      ∀ checked valid value l, I (s.slot f.owner) (f :: l) →
      I ((s.slot f.owner).completeDelivery P f checked valid value) l) :
    Everywhere I (tickStampValidations P accepted result s) := by
  -- the queue changes for the owner of its first job only
  have hput {f q m parked} (e : s.parked = f :: q)
      (hp : ∀ i ≠ f.owner, parked.filter (·.owner = i) = q.filter (·.owner = i))
      (hI : I m (parked.filter (·.owner = f.owner))) :
      Everywhere I { s.put f.owner m with parked } :=
    h.put hI fun i hi => (hp i hi).trans ((jobsOf_cons e).2 i hi)
  have hkeep {f q parked} (e : s.parked = f :: q)
      (hp : ∀ i ≠ f.owner, parked.filter (·.owner = i) = q.filter (·.owner = i))
      (hI : I (s.slot f.owner) (parked.filter (·.owner = f.owner))) :
      Everywhere I { s with parked } := by
    have := hput e hp hI
    unfold Messengers.put at this
    rwa [Function.update_eq_self] at this
  unfold Inbound.tickStampValidations
  split
  next => exact h
  next f q e =>
    have hf := h f.owner
    rw [(jobsOf_cons e).1] at hf
    dsimp only
    split
    next hi =>
      refine hkeep e (fun _ _ => rfl) (hdrop f q e (.inl ?_) _ hf)
      rwa [Bool.not_eq_true'] at hi
    next hi =>
      rw [Bool.not_eq_true', Bool.not_eq_false] at hi
      split
      next =>
        refine hkeep e (fun i hi => ?_) ?_
        · rw [List.filter_cons_of_neg (by simpa using hi.symm)]
        · rw [List.filter_cons_of_pos (by simp)]
          exact hsub f q e _ _ hf
      next hsb =>
        split
        next => exact h
        next r =>
          split
          next hs =>
            refine hkeep e (fun _ _ => rfl) (hdrop f q e (.inr ⟨?_, r, rfl, hs⟩) _ hf)
            rwa [Bool.not_eq_true', Bool.not_eq_false] at hsb
          next checked valid value hs =>
            exact hput e (fun _ _ => rfl) (hdel f q e hi checked valid value _ hf)

/-- A change that the seen ring does not notice. -/
def SameRing (m m' : Messenger) : Prop :=
  m'.deliveredHashes = m.deliveredHashes ∧ m'.recorded = m.recorded ∧ m'.ran = m.ran

lemma Tracked.same (h : Tracked P m jobs) (hm : SameRing m m') : Tracked P m' jobs := by
  obtain ⟨e1, e2, e3⟩ := hm
  constructor
  · rw [e1, e2]
    exact h.ring
  · rw [e2]
    exact h.spread
  · rw [e2]
    exact h.parked
  · rw [e3]
    exact h.once
  · rw [e2, e3]
    exact h.ran

lemma Settled.same (h : Settled m jobs) (hm : SameRing m m') : Settled m' jobs := by
  obtain ⟨_, e2, e3⟩ := hm
  unfold Settled
  rw [e2, e3]
  exact h

/-- An event that does not touch the queue, on one slot. -/
lemma Everywhere.change (h : Everywhere I s) (hk : I m (s.jobsOf k)) :
    Everywhere I (s.put k m) := by
  have hp : Everywhere I { s.put k m with parked := s.parked } := h.put hk fun _ _ => rfl
  exact hp

lemma Everywhere.put_same (h : Everywhere I s) (hm : SameRing (s.slot k) m)
    (hI : ∀ {m m' l}, I m l → SameRing m m' → I m' l) : Everywhere I (s.put k m) :=
  h.change (hI (h k) hm)

/-- Whatever happens, the ring, the jobs and the callback runs of a messenger fit together. -/
lemma tracked_step {e : Event} (h : Everywhere (Tracked P) s) :
    Everywhere (Tracked P) (s.step P e) := by
  cases e with
  | deliver destination wire packetHash hasDestPrefix sigOk =>
    dsimp only [Messengers.step]
    split
    next => exact h
    next k _ =>
      refine h.deliverLxmfPayload fun messageHash stamp m' hr hs => ?_
      have hread := readable_of_readMessage ⟨k, wire, packetHash, hasDestPrefix, sigOk, messageHash,
        stamp, (s.slot k).stampCost, false, (s.slot k).destination, (s.slot k).recorded.length⟩ hr
      dsimp only
      split
      next => exact (h k).record hs
      next => exact (h k).park hs rfl hread
      next => exact (h k).recordDeliver hs rfl hread
  | tick accepted result =>
    refine h.tickStampValidations (fun f _ _ m l hI => ?_) (fun _ _ _ _ _ hI => hI.drop)
      fun _ _ _ _ _ _ _ _ hI => hI.deliver
    refine ⟨hI.ring, hI.spread, fun j hj => ?_, hI.once, hI.ran⟩
    rcases List.mem_cons.mp hj with rfl | hj
    · exact hI.parked f List.mem_cons_self
    · exact hI.parked j (List.mem_cons_of_mem _ hj)
  | setPolicy => exact h.put_same ⟨rfl, rfl, rfl⟩ Tracked.same
  | activate => exact h.put_same ⟨rfl, rfl, rfl⟩ Tracked.same
  | delete => exact h.put_same ⟨rfl, rfl, rfl⟩ Tracked.same

/-- The event gives up a message after its hash was recorded: it does not meet the stamp policy,
the queue is full, the worker could not score it, or its identity is gone. -/
def refuses (P : Platform) (s : Messengers) : Event → Bool
  | .deliver destination wire _ hasDestPrefix _ =>
    match s.dispatch destination with
    | none => false
    | some k =>
      match readMessage P (s.slot k).destination wire hasDestPrefix with
      | none => false
      | some (messageHash, stamp) =>
        messageHash ∉ (s.slot k).deliveredHashes &&
          (s.slot k).verdict stamp s.parked.length = .refuse
  | .tick _ result =>
    match s.parked with
    | [] => false
    | f :: _ =>
      !(s.slot f.owner).initialized ||
        f.submitted && (match result with
          | none => false
          | some r => ((s.slot f.owner).scored r).isNone)
  | _ => false

/-- Without refusals every message recorded is delivered or parked. -/
lemma settled_step {e : Event} (hr : refuses P s e = false) (ht : Everywhere (Tracked P) s)
    (h : Everywhere Settled s) : Everywhere Settled (s.step P e) := by
  cases e with
  | deliver destination wire packetHash hasDestPrefix sigOk =>
    dsimp only [Messengers.step]
    dsimp only [refuses] at hr
    split
    next => exact h
    next k hk =>
      rw [hk] at hr
      refine h.deliverLxmfPayload fun messageHash stamp m' hm hs => ?_
      have hread := readable_of_readMessage ⟨k, wire, packetHash, hasDestPrefix, sigOk, messageHash,
        stamp, (s.slot k).stampCost, false, (s.slot k).destination, (s.slot k).recorded.length⟩ hm
      dsimp only at hr ⊢
      rw [hm] at hr
      dsimp only at hr
      split
      next e =>
        rw [e] at hr
        exact absurd hr (by simp [(seenDelivery_some hs).1])
      next => exact (h k).park hs rfl
      next =>
        exact (((h k).park hs rfl).perm (List.perm_append_singleton _ _)).deliver hread
  | tick accepted result =>
    refine h.tickStampValidations (fun _ _ _ _ _ hI => hI) (fun f q e hd => ?_)
      fun f q e _ _ _ _ l hI => hI.deliver ?_
    · dsimp only [refuses] at hr
      rw [e, Bool.or_eq_false_iff] at hr
      rcases hd with hd | ⟨hd, r, rfl, hs⟩
      · rw [hd] at hr
        exact absurd hr.1 (by decide)
      · have hr := hr.2
        dsimp only at hr
        rw [hd, hs] at hr
        exact absurd hr (by decide)
    · have hf := ht f.owner
      rw [(jobsOf_cons e).1] at hf
      exact (hf.parked f List.mem_cons_self).2
  | setPolicy => exact h.put_same ⟨rfl, rfl, rfl⟩ Settled.same
  | activate => exact h.put_same ⟨rfl, rfl, rfl⟩ Settled.same
  | delete => exact h.put_same ⟨rfl, rfl, rfl⟩ Settled.same

/-- What the seen ring is for. A duplicate is dropped only when a copy was delivered or is parked.
The callback runs once for a message received, and for two messages with one hash only when as many
other hashes as the ring holds were recorded between them. -/
structure Deduplicated (P : Platform) (s : Messengers) : Prop where
  duplicate : ∀ k wire hasDestPrefix messageHash stamp,
    readMessage P (s.slot k).destination wire hasDestPrefix = some (messageHash, stamp) →
    (s.slot k).seenDelivery messageHash = none →
    (∃ r ∈ (s.slot k).ran, (s.slot k).recorded[r.reception]? = some messageHash) ∨
      ∃ job ∈ s.parked, job.owner = k ∧ job.messageHash = messageHash
  once : ∀ k, ((s.slot k).ran.map (·.reception)).Nodup
  apart : ∀ k, ∀ r ∈ (s.slot k).ran, ∀ r' ∈ (s.slot k).ran, r.reception < r'.reception →
    ∀ messageHash, (s.slot k).recorded[r.reception]? = some messageHash →
      (s.slot k).recorded[r'.reception]? = some messageHash →
      let others := ((s.slot k).recorded.drop (r.reception + 1)).take DELIVERED_DEDUP_MAX
      r.reception + DELIVERED_DEDUP_MAX < r'.reception ∧ others.Nodup ∧ messageHash ∉ others ∧
        r.reception < r.since ∧ r'.reception < r'.since

lemma tracked_init : Tracked P {} [] where
  ring := rfl
  spread := Spread.nil
  parked _ h := absurd h List.not_mem_nil
  once := List.nodup_nil
  ran _ h := absurd h List.not_mem_nil

/-- A duplicate changes nothing. -/
lemma step_duplicate {destination wire packetHash messageHash stamp : Bytes}
    {hasDestPrefix sigOk : Bool} (hk : s.dispatch destination = some k)
    (hr : readMessage P (s.slot k).destination wire hasDestPrefix = some (messageHash, stamp))
    (hs : (s.slot k).seenDelivery messageHash = none) :
    s.step P (.deliver destination wire packetHash hasDestPrefix sigOk) = s := by
  dsimp only [Messengers.step]
  rw [hk]
  dsimp only [deliverLxmfPayload]
  rw [hr]
  dsimp only
  rw [hs]

/-- A platform to run on. -/
def samplePlatform : Platform :=
  { fullHash := fun b => b.reverse.take 32, fuel := 8, persisted := fun _ => true }

/-- The message `A` without a stamp, or with a stamp as fifth element. -/
def sampleWire (stamp : Option UInt8) : Bytes :=
  let core : Bytes := 0xCB :: List.replicate 8 0 ++ [0xC4, 0x00, 0xC4, 0x01, 0x41, 0xC0]
  List.replicate HEADER_LEN 0 ++ match stamp with
    | none => 0x94 :: core
    | some b => 0x95 :: core ++ [0xC4, 0x01, b]

end URSupreme.Inbound
