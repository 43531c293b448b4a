import URSupreme.Lib.Endless
import URSupreme.Storage.SdWriterTurns

/-!
# When the writer parks

What a pass of the writer task brings, and whether the task comes to rest when no more calls are
made. A job that is picked loses bytes to the card or comes to its end, unless it is a stream that
was marked in error when a call of `feed` had waited too long: `ready` always takes it, and
`service` looks at its ring and its end only.
-/

namespace URSupreme.SdWriter
open Lib

/-- A stream in error that has neither ended nor been given up. -/
structure Job.Failed (j : Job) : Prop where
  live : j.id ≠ 0
  open_ : j.doneFlag = false
  streaming : j.streaming = true
  error : j.error = true
  running : j.ending = false
  held : j.aborting = false

/-- A failed stream that the task is not about to close. -/
def Writer.Stuck (s : Writer) (i : Fin MAX_JOBS) : Prop :=
  (s.jobs i).Failed ∧ s.phase ≠ .finalizing i ∧ s.phase ≠ .ended i ∧ s.phase ≠ .leaving i true

/-- The next step of the task, which has not parked. -/
def Busy (s : Writer) : Event → Prop
  | .drain => s.phase = .parked ∧ s.pendingClose ≠ []
  | .pick now => s.phase = .parked ∧ s.pendingClose = [] ∧ (s.abandon now).best ≠ none
  | .commit => ∃ i terminal, s.phase = .leaving i terminal
  | e => e.Next s

/-- What can happen while the job in a slot is serviced: anything, except that bytes go into its
ring behind `finish`. -/
def Meanwhile (i : Fin MAX_JOBS) (s : Writer) : Event → Prop
  | .send k _ => (s.jobs i).ending = true → ∀ f, s.feeds[k]? = some f →
      (s.jobs i).ringIdx ≠ some f.ring
  | .commit => False
  | _ => True

/-- Each job that is picked gets bytes written, or comes to its end. -/
def Writer.Serves (s : Writer) : Prop :=
  ∀ now i es terminal, s.phase = .parked → (s.pick now).phase = .picked i →
    Allowed Writer.step (Meanwhile i) (s.pick now) es →
      (es.foldl Writer.step (s.pick now)).phase = .leaving i terminal →
        terminal = true ∨
          (s.jobs i).written < ((es.foldl Writer.step (s.pick now)).jobs i).written

/-- The task never spins: each pass brings something, and without further calls it parks. -/
def Writer.Rests (s : Writer) : Prop := s.Serves ∧ ¬ Endless Writer.step Busy s

variable {s s' : Writer} {j j' : Job} {i k : Fin MAX_JOBS} {r : Fin MAX_STREAMS}
  {data data' : Bytes} {ok : Bool} {ph ph' : Phase} {ms : List (Nat × Mark)} {files w : Nat}

/-! ### What a pass brings -/

/-- The source of the job has something to take, or its end has come. -/
def Job.due (j : Job) (data : Bytes) : Prop := j.streaming = true → data ≠ [] ∨ j.ending = true

/-- The pass at this point is sure to get past `w` bytes written, or to the end of the job. -/
def Phase.Served (w : Nat) (j : Job) (data : Bytes) : Phase → Prop
  | .parked => False
  | .picked _ => j.written = w ∧ (j.aborting = true ∨ j.due data)
  | .opened _ => j.written = w ∧ j.due data
  | .empty _ => j.streaming = true ∧ j.ending = true ∧ data = []
  | .writing _ src _ => j.written = w ∧ src ≠ []
  | .wrote _ => w < j.written ∨ j.finished data = true
  | .leaving _ terminal => terminal = true ∨ w < j.written
  | .finalizing _ | .ended _ => True

/-- A turn keeps a pass on its way. -/
lemma Turn.served (h : Turn files i j data ok ph j' data' ph' ms) (hs : ph.Served w j data) :
    ph'.Served w j' data' := by
  cases h with
  | gaveUp | unopened | failed | finished | synced | unsynced => trivial
  | closed => exact .inl rfl
  | reopened ha => exact ⟨hs.1, hs.2.resolve_left (by rw [ha]; exact Bool.false_ne_true)⟩
  | opened ha => exact ⟨hs.1, hs.2.resolve_left (by rw [ha]; exact Bool.false_ne_true)⟩
  | drained _ hne =>
    refine ⟨hs.1, fun hnil => ?_⟩
    rcases List.take_eq_nil_iff.mp hnil with h0 | h0
    · cases h0
    · exact hne h0
  | nothing hst hnil => exact ⟨hst, (hs.2 hst).resolve_left (not_not.mpr hnil), hnil⟩
  | took _ hne => exact ⟨hs.1, hne⟩
  | tookNone hst hnil =>
    refine .inr ?_
    rw [Job.finished, hst, if_neg Bool.false_ne_true, decide_eq_true_eq]
    rcases List.take_eq_nil_iff.mp hnil with h0 | h0
    · cases h0
    · exact List.drop_eq_nil_iff.mp h0
  | ends he hnil =>
    refine .inr ?_
    rw [Job.finished, hs.1, if_pos rfl, he, hnil]
    rfl
  | waits hno => exact absurd ⟨hs.2.1, hs.2.2⟩ hno
  | part => exact hs
  | @chunk src off n hn hle =>
    have hpos := List.length_pos_of_ne_nil hs.2
    have hw := hs.1
    refine .inl ?_
    dsimp only [Job.behind]
    omega
  | unfinished hno => exact .inr (hs.resolve_right (by rw [hno]; exact Bool.false_ne_true))

/-- What the calls of others leave of a job that is serviced, and of its ring. -/
structure Kept (j : Job) (data : Bytes) (j' : Job) (data' : Bytes) : Prop where
  streaming : j'.streaming = j.streaming
  inbuf : j'.inbuf = j.inbuf
  inoff : j'.inoff = j.inoff
  written : j'.written = j.written
  aborting : j.aborting = true → j'.aborting = true
  ending : j.ending = true → j'.ending = true
  full : data ≠ [] → data' ≠ []
  empty : j.ending = true → data = [] → data' = []

lemma Kept.refl : Kept j data j data :=
  ⟨rfl, rfl, rfl, rfl, id, id, id, fun _ => id⟩

lemma Kept.due (h : Kept j data j' data') (hd : j.due data) : j'.due data' := fun hst =>
  (hd (h.streaming.symm.trans hst)).imp h.full h.ending

lemma Kept.finished (h : Kept j data j' data') (hf : j.finished data = true) :
    j'.finished data' = true := by
  unfold Job.finished at hf ⊢
  rw [h.streaming, h.inoff, h.inbuf]
  split at hf
  next hst =>
    rw [Bool.and_eq_true, List.isEmpty_iff] at hf
    rw [if_pos hst, h.ending hf.1, h.empty hf.1 hf.2]
    rfl
  next hst => rwa [if_neg hst]

lemma Kept.served (h : Kept j data j' data') (hs : ph.Served w j data) : ph.Served w j' data' := by
  cases ph with
  | parked => exact hs
  | picked => exact ⟨h.written.trans hs.1, hs.2.imp h.aborting h.due⟩
  | opened => exact ⟨h.written.trans hs.1, h.due hs.2⟩
  | empty => exact ⟨h.streaming.trans hs.1, h.ending hs.2.1, h.empty hs.2.1 hs.2.2⟩
  | writing => exact ⟨h.written.trans hs.1, hs.2⟩
  | wrote => exact hs.imp (fun hlt => h.written.symm ▸ hlt) h.finished
  | finalizing => trivial
  | ended => trivial
  | leaving => exact hs.imp_right fun hlt => h.written.symm ▸ hlt

/-- A step leaves the task where it is, and its job what the pass needs. -/
def Keeps (i : Fin MAX_JOBS) (s s' : Writer) : Prop :=
  s'.phase = s.phase ∧
    Kept (s.jobs i) (s.ringData (s.jobs i)) (s'.jobs i) (s'.ringData (s'.jobs i))

lemma Keeps.refl : Keeps i s s := ⟨rfl, .refl⟩

/-- The job and what is in its ring are as before. -/
lemma keeps_of_eq (hp : s'.phase = s.phase) (hj : s'.jobs i = s.jobs i)
    (hr : ∀ r, (s.jobs i).ringIdx = some r → (s'.rings r).data = (s.rings r).data) :
    Keeps i s s' := by
  have hdata : s'.ringData (s.jobs i) = s.ringData (s.jobs i) := by
    unfold Writer.ringData
    split
    next => rfl
    next r hring => exact hr r hring
  refine ⟨hp, ?_⟩
  rw [hj, hdata]
  exact .refl

/-- One slot changes, in a way that would be good for a pass of its job. -/
lemma keeps_setJob (hring : j.ringIdx = (s.jobs k).ringIdx)
    (h : Kept (s.jobs k) (s.ringData (s.jobs k)) j (s.ringData (s.jobs k))) :
    Keeps i s (s.setJob k j) := by
  by_cases hi : i = k
  · subst hi
    have hself : (s.setJob i j).jobs i = j := Function.update_self ..
    have hdata : (s.setJob i j).ringData j = s.ringData (s.jobs i) := by
      unfold Writer.ringData
      rw [hring]
      rfl
    refine ⟨rfl, ?_⟩
    rw [hself, hdata]
    exact h
  · exact keeps_of_eq rfl (Function.update_of_ne hi _ _) fun _ _ => rfl

lemma keeps_write {up alloc path data op seekBack priority done} (hi : (s.jobs i).id ≠ 0) :
    Keeps i s (s.write up alloc path data op seekBack priority done).2 := by
  unfold Writer.write
  split
  next => exact .refl
  next =>
    dsimp only
    split
    next => exact .refl
    next =>
      split
      next => exact .refl
      next k hf =>
        have hne : i ≠ k := fun he => hi (he ▸ findFree_spec hf)
        dsimp only
        split
        next => exact keeps_of_eq rfl (Function.update_of_ne hne _ _) fun _ _ => rfl
        next => exact keeps_of_eq rfl (Function.update_of_ne hne _ _) fun _ _ => rfl

lemma keeps_openJob {up size path op seekBack priority wantSha keep now} (hi : (s.jobs i).id ≠ 0) :
    Keeps i s (s.openJob up size path op seekBack priority wantSha keep now).2 := by
  unfold Writer.openJob
  split
  next => exact .refl
  next =>
    split
    next k r ring hf hc =>
      have hne : i ≠ k := fun he => hi (he ▸ findFree_spec hf)
      refine keeps_of_eq rfl (Function.update_of_ne hne _ _) fun r' _ => ?_
      change (Function.update s.rings r ring r').data = _
      by_cases hr : r' = r
      · rw [hr, Function.update_self]
        exact (claimRing_spec hc).2.2
      · rw [Function.update_of_ne hr]
    next => exact .refl

lemma keeps_feed {hd : Nat} {bytes : Bytes} : Keeps i s (s.feed hd bytes) := by
  unfold Writer.feed
  split
  next => exact .refl
  next =>
    dsimp only
    split
    next =>
      split
      next => exact keeps_of_eq rfl rfl fun _ _ => rfl
      next => exact .refl
    next => exact .refl

lemma keeps_send {n m : Nat} (hm : Meanwhile i s (.send n m)) : Keeps i s (s.send n m) := by
  unfold Writer.send
  split
  next => exact .refl
  next f hf =>
    dsimp only
    split
    next =>
      obtain ⟨fed, hjob⟩ : ∃ fed, (s.sent n m f).jobs i = { s.jobs i with fed } := by
        dsimp only [Writer.sent]
        split
        next => exact ⟨_, rfl⟩
        next => exact ⟨_, rfl⟩
      have hring : ∀ r, (s.jobs i).ringIdx = some r →
          ((s.sent n m f).rings r).data = (s.rings r).data ∨
            (s.jobs i).ringIdx = some f.ring ∧
              ((s.sent n m f).rings r).data = (s.rings r).data ++ f.rest.take m := by
        intro r hr
        change (Function.update s.rings f.ring _ r).data = _ ∨ _ ∧
          (Function.update s.rings f.ring _ r).data = _
        by_cases hf : r = f.ring
        · subst hf
          rw [Function.update_self]
          exact .inr ⟨hr, rfl⟩
        · rw [Function.update_of_ne hf]
          exact .inl rfl
      have hdata : (s.sent n m f).ringData (s.jobs i) = s.ringData (s.jobs i) ∨
          (s.jobs i).ringIdx = some f.ring ∧
            (s.sent n m f).ringData (s.jobs i) = s.ringData (s.jobs i) ++ f.rest.take m := by
        unfold Writer.ringData
        split
        next => exact .inl rfl
        next r hr => exact hring r hr
      refine ⟨rfl, ?_⟩
      rw [hjob]
      change Kept _ _ _ ((s.sent n m f).ringData (s.jobs i))
      rcases hdata with he | ⟨hr, he⟩
      · rw [he]
        exact ⟨rfl, rfl, rfl, rfl, id, id, id, fun _ => id⟩
      · rw [he]
        exact ⟨rfl, rfl, rfl, rfl, id, id, fun hne hnil => hne (List.append_eq_nil_iff.mp hnil).1,
          fun hend _ => absurd hr (hm hend f hf)⟩
    next => exact .refl

lemma keeps_timeout {n : Nat} : Keeps i s (s.timeout n) := by
  unfold Writer.timeout
  split
  next => exact .refl
  next f hf =>
    dsimp only
    split
    next => exact keeps_of_eq rfl rfl fun _ _ => rfl
    next k hk =>
      have h := keeps_setJob (s := { s with feeds := s.feeds.eraseIdx n }) (i := i) (k := k)
        (j := { s.jobs k with error := true }) rfl ⟨rfl, rfl, rfl, rfl, id, id, id, fun _ => id⟩
      exact h

lemma keeps_finish {hd : Nat} : Keeps i s (s.finish hd) := by
  unfold Writer.finish
  split
  next => exact .refl
  next => exact keeps_setJob rfl ⟨rfl, rfl, rfl, rfl, id, fun _ => rfl, id, fun _ => id⟩

lemma keeps_release {hd : Nat} (h : Held s) (hi : s.phase.slot = some i) :
    Keeps i s (s.release hd) := by
  obtain ⟨hlive, hserv, -⟩ := h.busy i hi
  unfold Writer.release
  split
  next => exact .refl
  next k hk =>
    dsimp only
    split
    next => exact keeps_setJob rfl ⟨rfl, rfl, rfl, rfl, fun _ => rfl, id, id, fun _ => id⟩
    next hs =>
      have hne : i ≠ k := fun he => hs (he ▸ hserv)
      obtain ⟨-, hother, hphase, -, hrings⟩ := releaseJob_spec k s
      refine keeps_of_eq hphase (hother i hne) fun r hr => ?_
      rw [hrings r (h.apart i k r hne hlive (findJob_spec hk).2 hr)]

/-- While a job is serviced, the calls of others leave it what the pass needs. -/
lemma step_keeps {e : Event} (h : Held s) (hi : s.phase.slot = some i) (he : e.turn = false)
    (hm : Meanwhile i s e) : Keeps i s (s.step e) := by
  have hlive := (h.busy i hi).1
  have hparked : s.phase ≠ .parked := by
    intro hp
    rw [hp] at hi
    cases hi
  cases e with
  | write => exact keeps_write hlive
  | openJob => exact keeps_openJob hlive
  | feed => exact keeps_feed
  | send => exact keeps_send hm
  | timeout => exact keeps_timeout
  | finish => exact keeps_finish
  | release => exact keeps_release h hi
  | pick now =>
    change Keeps i s (s.pick now)
    unfold Writer.pick
    split
    next hp => exact absurd hp hparked
    next => exact .refl
  | drain =>
    change Keeps i s s.drain
    unfold Writer.drain
    split
    next hp _ => exact absurd hp hparked
    next => exact .refl
  | commit => exact hm.elim
  | _ => cases he

/-- A job that is serviced, on its way past `w` bytes or to its end. -/
structure Serving (i : Fin MAX_JOBS) (w : Nat) (s : Writer) : Prop where
  held : Held s
  slot : s.phase.slot = some i
  served : s.phase.Served w (s.jobs i) (s.ringData (s.jobs i))

lemma Turn.nil (h : Turn files i j [] ok ph j' data' ph' ms) : data' = [] := by
  cases h with
  | drained => exact List.drop_nil
  | _ => rfl

/-- The job after a turn, and its ring. -/
lemma Turned.job (h : Turned s s' i ok j' data' ph' ms) :
    s'.jobs i = j' ∧ s'.ringData (s'.jobs i) = data' := by
  obtain ⟨-, -, hhold⟩ := h.turn.slot
  have hidx : j'.ringIdx = (s.jobs i).ringIdx := (hold_eq hhold).2.1
  have hjob : s'.jobs i = j' := by rw [h.jobs, Function.update_self]
  refine ⟨hjob, ?_⟩
  rw [hjob]
  cases hring : (s.jobs i).ringIdx with
  | none =>
    have hnil : s.ringData (s.jobs i) = [] := by
      unfold Writer.ringData
      rw [hring]
    have hturn := h.turn
    rw [hnil] at hturn
    rw [hturn.nil]
    unfold Writer.ringData
    rw [hidx, hring]
  | some r => exact (ringData_some (hidx.trans hring)).trans (h.ring r hring)

lemma Serving.step {e : Event} (h : Serving i w s) (hm : Meanwhile i s e) :
    Serving i w (s.step e) := by
  cases he : e.turn with
  | true =>
    rcases step_turns (s := s) he with hs | ⟨k, ok, j', data', ph', ms, ht, -⟩
    · rwa [hs]
    · obtain ⟨hk, hk', -⟩ := ht.turn.slot
      obtain rfl := Option.some.inj (h.slot.symm.trans hk)
      obtain ⟨hjob, hdata⟩ := ht.job
      refine ⟨h.held.step, by rw [ht.phase, hk'], ?_⟩
      rw [hdata, hjob, ht.phase]
      exact ht.turn.served h.served
  | false =>
    obtain ⟨hp, hkept⟩ := step_keeps h.held h.slot he hm
    refine ⟨h.held.step, by rw [hp, h.slot], ?_⟩
    rw [hp]
    exact hkept.served h.served

lemma Serving.run {es : List Event} (h : Serving i w s)
    (hes : Allowed Writer.step (Meanwhile i) s es) : Serving i w (es.foldl Writer.step s) := by
  induction es generalizing s with
  | nil => exact h
  | cons e es ih => exact ih (h.step hes.1) hes.2

/-- What `pick` does when the task is at rest. -/
lemma pick_spec (now : Nat) (hp : s.phase = .parked) :
    (s.abandon now).best = none ∧ s.pick now = s.abandon now ∨
      ∃ i, (s.abandon now).best = some i ∧ (s.abandon now).ready ((s.abandon now).jobs i) = true ∧
        s.pick now = { (s.abandon now).setJob i { (s.abandon now).jobs i with
            servicing := true, rrTick := (s.rrClock + 1) % 2 ^ 32 } with
          rrClock := (s.rrClock + 1) % 2 ^ 32, phase := .picked i } := by
  unfold Writer.pick
  rw [hp]
  dsimp only
  cases hb : (s.abandon now).best with
  | none => exact .inl ⟨rfl, rfl⟩
  | some i => exact .inr ⟨i, rfl, best_ready (fun _ he => by cases he) hb, rfl⟩

/-- Giving up silent streams marks them, and nothing else. -/
lemma abandon_job (now : Nat) (k : Fin MAX_JOBS) : ∃ aborting,
    (s.abandon now).jobs k = { s.jobs k with aborting } ∧
      ((s.jobs k).aborting = true → aborting = true) := by
  dsimp only [Writer.abandon]
  split
  next => exact ⟨true, rfl, fun _ => rfl⟩
  next => exact ⟨_, rfl, id⟩

lemma failed_of_abandon {now : Nat} (h : ((s.abandon now).jobs k).Failed) : (s.jobs k).Failed := by
  obtain ⟨aborting, hj, ha⟩ := abandon_job (s := s) now k
  rw [hj] at h
  refine ⟨h.live, h.open_, h.streaming, h.error, h.running, Bool.eq_false_iff.mpr fun he => ?_⟩
  exact absurd (ha he) (Bool.eq_false_iff.mp h.held)

/-- A job that is ready without having failed is due. -/
lemma due_of_ready (hr : s.ready j = true) (hf : ¬ j.Failed) :
    j.aborting = true ∨ j.due (s.ringData j) := by
  unfold Writer.ready at hr
  split at hr
  next => cases hr
  next hn =>
    obtain ⟨hlive, hopen⟩ := not_or.mp hn
    split at hr
    next ha => exact .inl ha
    next ha =>
      refine .inr fun hst => ?_
      rw [if_pos hst, Bool.or_eq_true, Bool.or_eq_true] at hr
      rcases hr with (he | hd) | he
      · right
        by_contra hend
        exact hf ⟨hlive, Bool.eq_false_iff.mpr hopen, hst, he, Bool.eq_false_iff.mpr hend,
          Bool.eq_false_iff.mpr ha⟩
      · left
        intro hnil
        rw [hnil] at hd
        cases hd
      · exact .inr he

/-- Without failed streams each pass brings something. -/
lemma serves_of_not_stuck (h : Held s) (hs : ∀ i, ¬ s.Stuck i) : s.Serves := by
  intro now i es terminal hp hpick hes hend
  have hstart : Serving i (s.jobs i).written (s.pick now) := by
    rcases pick_spec now hp with ⟨-, he⟩ | ⟨k, -, hready, he⟩
    · rw [he] at hpick
      exact absurd (hp.symm.trans hpick) nofun
    · have hik : k = i := by
        rw [he] at hpick
        exact Phase.picked.inj hpick
      subst hik
      have hjob : (s.pick now).jobs k = { (s.abandon now).jobs k with
          servicing := true, rrTick := (s.rrClock + 1) % 2 ^ 32 } := by
        rw [he]
        exact Function.update_self ..
      have hring : (s.pick now).ringData ((s.pick now).jobs k) =
          (s.abandon now).ringData ((s.abandon now).jobs k) := by
        rw [hjob, he]
        rfl
      have hfail : ¬ ((s.abandon now).jobs k).Failed := fun hf =>
        hs k ⟨failed_of_abandon hf, by rw [hp]; nofun, by rw [hp]; nofun, by rw [hp]; nofun⟩
      obtain ⟨aborting, hab, -⟩ := abandon_job (s := s) now k
      have hdue := due_of_ready hready hfail
      refine ⟨h.pick, by rw [hpick]; rfl, ?_⟩
      rw [hpick, hring, hjob]
      refine ⟨?_, hdue⟩
      dsimp only
      rw [hab]
  have hrun := (hstart.run hes).served
  rw [hend] at hrun
  exact hrun

/-! ### What is left to do -/

/-- What a job that has not come to its end has left to do. -/
def Job.load (j : Job) : Nat := if j.id = 0 ∨ j.doneFlag then 0 else 1 + (j.inbuf.length - j.inoff)

/-- What is left to do for the jobs, and in the rings. -/
def Writer.load (s : Writer) : Nat :=
  ∑ k, (s.jobs k).load + ∑ r, (s.rings r).data.length

/-- How far the task is from the next byte or end that lowers the load; behind one it is far
again. -/
def Phase.rank (j : Job) (data : Bytes) : Phase → Nat
  | .parked => 20
  | .picked _ => if j.aborting ∨ !j.streaming ∨ data ≠ [] ∨ j.ending then 19 else 39
  | .opened _ => if !j.streaming ∨ data ≠ [] ∨ j.ending then 18 else 38
  | .empty _ => if j.ending ∧ data = [] ∧ j.finished data then 17 else 37
  | .writing _ src _ => if !j.streaming ∧ j.inoff < j.inbuf.length ∧ src ≠ [] then 16 else 36
  | .wrote _ => if j.finished data then 15 else 35
  | .finalizing _ => 14
  | .ended _ => 13
  | .leaving _ true => 12
  | .leaving _ false => 21

def Writer.rank (s : Writer) : Nat :=
  match s.phase.slot with
  | none => 20
  | some i => s.phase.rank (s.jobs i) (s.ringData (s.jobs i))

/-- What is left of the chunk, or of the files to close. -/
def Phase.rest (pending : Nat) : Phase → Nat
  | .parked => pending
  | .writing _ src off => src.length - off
  | _ => 0

/-- The measure of a state, in order of weight. -/
def Writer.measure (s : Writer) : ℕ ×ₗ ℕ ×ₗ ℕ :=
  toLex (s.load, toLex (s.rank, s.phase.rest s.pendingClose.length))

lemma measure_lt (hl : s'.load ≤ s.load)
    (h : s'.load < s.load ∨ s'.rank < s.rank ∨ s'.rank = s.rank ∧
      s'.phase.rest s'.pendingClose.length < s.phase.rest s.pendingClose.length) :
    s'.measure < s.measure := by
  unfold Writer.measure
  rw [Prod.Lex.toLex_lt_toLex]
  rcases h with h | h
  · exact .inl h
  · refine (Nat.lt_or_eq_of_le hl).imp_right fun he => ⟨he, ?_⟩
    rw [Prod.Lex.toLex_lt_toLex]
    exact h

lemma load_le (hj : ∀ k, (s'.jobs k).load ≤ (s.jobs k).load)
    (hr : ∀ r, (s'.rings r).data.length ≤ (s.rings r).data.length) : s'.load ≤ s.load :=
  Nat.add_le_add (Finset.sum_le_sum fun k _ => hj k) (Finset.sum_le_sum fun r _ => hr r)

lemma load_lt_job (hj : ∀ k, (s'.jobs k).load ≤ (s.jobs k).load)
    (hr : ∀ r, (s'.rings r).data.length ≤ (s.rings r).data.length)
    (h : (s'.jobs i).load < (s.jobs i).load) : s'.load < s.load :=
  Nat.add_lt_add_of_lt_of_le (Finset.sum_lt_sum (fun k _ => hj k) ⟨i, Finset.mem_univ i, h⟩)
    (Finset.sum_le_sum fun r _ => hr r)

lemma load_lt_ring (hj : ∀ k, (s'.jobs k).load ≤ (s.jobs k).load)
    (hr : ∀ r, (s'.rings r).data.length ≤ (s.rings r).data.length)
    (h : (s'.rings r).data.length < (s.rings r).data.length) : s'.load < s.load :=
  Nat.add_lt_add_of_le_of_lt (Finset.sum_le_sum fun k _ => hj k)
    (Finset.sum_lt_sum (fun r _ => hr r) ⟨r, Finset.mem_univ r, h⟩)

/-- A turn lowers the load, or brings the task nearer to the next byte or end that does. -/
lemma Turn.descends (h : Turn files i j data ok ph j' data' ph' ms) (hlive : j.id ≠ 0)
    (hopen : j.doneFlag = false) :
    j'.load ≤ j.load ∧ data'.length ≤ data.length ∧
      (j'.load < j.load ∨ data'.length < data.length ∨ ph'.rank j' data' < ph.rank j data ∨
        ph'.rank j' data' = ph.rank j data ∧ ∀ n, ph'.rest n < ph.rest n) := by
  -- most turns change nothing that is counted, and bring the task nearer
  have near : ∀ {ph ph' : Phase}, ph'.rank j data < ph.rank j data →
      j.load ≤ j.load ∧ data.length ≤ data.length ∧
        (j.load < j.load ∨ data.length < data.length ∨ ph'.rank j data < ph.rank j data ∨
          ph'.rank j data = ph.rank j data ∧ ∀ n, ph'.rest n < ph.rest n) :=
    fun h => ⟨le_rfl, le_rfl, .inr (.inr (.inl h))⟩
  have rank_picked : 19 ≤ (Phase.picked i).rank j data := by
    dsimp only [Phase.rank]
    split_ifs
    all_goals decide
  have rank_writing : ∀ {src off}, 16 ≤ (Phase.writing i src off).rank j data := by
    intro src off
    dsimp only [Phase.rank]
    split_ifs
    all_goals decide
  have hended : (Phase.ended i).rank j data < (Phase.picked i).rank j data :=
    lt_of_lt_of_le (by decide : 13 < 19) rank_picked
  cases h with
  | gaveUp => exact near hended
  | unopened => exact ⟨le_rfl, le_rfl, .inr (.inr (.inl hended))⟩
  | reopened ha =>
    refine near ?_
    simp only [Phase.rank, ha, Bool.false_eq_true, false_or]
    split_ifs
    all_goals decide
  | opened ha =>
    refine ⟨le_rfl, le_rfl, .inr (.inr (.inl ?_))⟩
    simp only [Phase.rank, ha, Bool.false_eq_true, false_or]
    split_ifs
    all_goals decide
  | drained hst hne =>
    have hpos := List.length_pos_of_ne_nil hne
    have hlt : (data.drop SCRATCH).length < data.length := by
      rw [List.length_drop]
      exact Nat.sub_lt hpos (by decide)
    exact ⟨le_rfl, hlt.le, .inr (.inl hlt)⟩
  | nothing hst hnil =>
    refine near ?_
    simp only [Phase.rank, Job.finished, hst, hnil]
    cases j.ending <;> simp
  | took hst hne =>
    have hlt : j.inoff < j.inbuf.length := by
      by_contra hle
      rw [List.drop_eq_nil_iff.mpr (not_lt.mp hle)] at hne
      exact hne List.take_nil
    refine near ?_
    dsimp only [Phase.rank]
    rw [if_pos ⟨by rw [hst]; rfl, hlt, hne⟩]
    split_ifs
    all_goals decide
  | tookNone hst hnil =>
    have hfin : j.finished data = true := by
      rw [Job.finished, hst, if_neg Bool.false_ne_true, decide_eq_true_eq]
      rcases List.take_eq_nil_iff.mp hnil with h0 | h0
      · cases h0
      · exact List.drop_eq_nil_iff.mp h0
    refine near ?_
    dsimp only [Phase.rank]
    rw [if_pos hfin]
    split_ifs
    all_goals decide
  | ends he hnil =>
    refine near ?_
    dsimp only [Phase.rank]
    by_cases hf : j.finished data = true
    · rw [if_pos hf, if_pos ⟨he, hnil, hf⟩]
      decide
    · rw [if_neg hf, if_neg fun h => hf h.2.2]
      decide
  | waits hno =>
    refine near ?_
    dsimp only [Phase.rank]
    rw [if_neg fun h => hno ⟨h.1, h.2.1⟩]
    decide
  | failed =>
    exact ⟨le_rfl, le_rfl, .inr (.inr (.inl (lt_of_lt_of_le (by decide : 13 < 16) rank_writing)))⟩
  | @part src off n hn hlt =>
    refine ⟨le_rfl, le_rfl, .inr (.inr (.inr ⟨rfl, fun _ => ?_⟩))⟩
    dsimp only [Phase.rest]
    rw [List.length_take, List.length_drop] at hlt ⊢
    omega
  | @chunk src off n hn hle =>
    have hload : (j.behind src (off + ((src.drop off).take n).length)).load ≤ j.load := by
      unfold Job.load Job.behind
      dsimp only
      split_ifs
      all_goals omega
    refine ⟨hload, le_rfl, ?_⟩
    by_cases hst : j.streaming = false ∧ j.inoff < j.inbuf.length ∧ src ≠ []
    · left
      have hpos := List.length_pos_of_ne_nil hst.2.2
      have hlt := hst.2.1
      unfold Job.load Job.behind
      dsimp only
      rw [hst.1, hopen, if_neg (not_or.mpr ⟨hlive, Bool.false_ne_true⟩),
        if_neg (not_or.mpr ⟨hlive, Bool.false_ne_true⟩), if_neg Bool.false_ne_true]
      omega
    · have hrank : (Phase.writing i src off).rank j data = 36 :=
        if_neg fun h => hst ⟨by simpa using h.1, h.2⟩
      right; right; left
      rw [hrank]
      dsimp only [Phase.rank]
      split_ifs
      all_goals decide
  | finished hf =>
    refine near ?_
    dsimp only [Phase.rank]
    rw [if_pos hf]
    decide
  | unfinished hf =>
    refine near ?_
    dsimp only [Phase.rank]
    rw [if_neg (by rw [hf]; exact Bool.false_ne_true)]
    decide
  | synced => exact ⟨le_rfl, le_rfl, .inr (.inr (.inl (by decide : 13 < 14)))⟩
  | unsynced => exact ⟨le_rfl, le_rfl, .inr (.inr (.inl (by decide : 13 < 14)))⟩
  | closed => exact ⟨le_rfl, le_rfl, .inr (.inr (.inl (by decide : 12 < 13)))⟩

lemma Turned.descends (h : Turned s s' i ok j' data' ph' ms) (hs : Held s) :
    s'.measure < s.measure := by
  obtain ⟨hslot, hslot', -⟩ := h.turn.slot
  obtain ⟨hlive, -, hopen⟩ := hs.busy i hslot
  obtain ⟨hjob, hdata⟩ := h.job
  obtain ⟨hload, hlen, hfall⟩ := h.turn.descends hlive hopen
  have hj : ∀ k, (s'.jobs k).load ≤ (s.jobs k).load := by
    rw [h.jobs]
    exact setJob_all (P := fun a b => b.load ≤ a.load) (fun _ => le_rfl) hload
  have hr : ∀ r, (s'.rings r).data.length ≤ (s.rings r).data.length := by
    intro r
    by_cases hring : (s.jobs i).ringIdx = some r
    · rw [h.ring r hring]
      rwa [ringData_some hring] at hlen
    · rw [h.rings r hring]
  have hrank : s.rank = s.phase.rank (s.jobs i) (s.ringData (s.jobs i)) := by
    unfold Writer.rank
    rw [hslot]
  have hrank' : s'.rank = ph'.rank j' data' := by
    unfold Writer.rank
    rw [h.phase, hslot']
    dsimp only
    rw [hdata, hjob]
  refine measure_lt (load_le hj hr) ?_
  rcases hfall with hfall | hfall | hfall | ⟨he, hfall⟩
  · exact .inl (load_lt_job (i := i) hj hr (by rwa [hjob]))
  · left
    cases hring : (s.jobs i).ringIdx with
    | none =>
      have hnil : s.ringData (s.jobs i) = [] := by
        unfold Writer.ringData
        rw [hring]
      rw [hnil] at hfall
      cases hfall
    | some r =>
      refine load_lt_ring (r := r) hj hr ?_
      rw [h.ring r hring]
      rwa [ringData_some hring] at hfall
  · refine .inr (.inl ?_)
    rwa [hrank, hrank']
  · refine .inr (.inr ⟨by rw [hrank, hrank', he], ?_⟩)
    rw [h.phase, h.pending]
    exact hfall _

/-- No failed stream comes up while the task works alone. -/
lemma Turn.stuck (h : Turn files i j data ok ph j' data' ph' ms) (hf : j'.Failed)
    (hp : ph' ≠ .finalizing i ∧ ph' ≠ .ended i ∧ ph' ≠ .leaving i true) :
    j.Failed ∧ ph ≠ .finalizing i ∧ ph ≠ .ended i ∧ ph ≠ .leaving i true := by
  cases h with
  | gaveUp | unopened | failed | synced | unsynced => exact absurd rfl hp.2.1
  | closed => exact absurd rfl hp.2.2
  | finished => exact absurd rfl hp.1
  | _ => exact ⟨⟨hf.live, hf.open_, hf.streaming, hf.error, hf.running, hf.held⟩, nofun, nofun,
      nofun⟩

/-- No job but the one that is worked on changes, and that one is not left stuck. -/
lemma Turned.stuck (h : Turned s s' i ok j' data' ph' ms) (hk : s'.Stuck k) : s.Stuck k := by
  obtain ⟨hslot, hslot', -⟩ := h.turn.slot
  obtain ⟨hf, hp⟩ := hk
  rw [h.phase] at hp
  by_cases hki : k = i
  · subst hki
    rw [h.job.1] at hf
    exact h.turn.stuck hf hp
  · rw [h.jobs, Function.update_of_ne hki] at hf
    have hother : ∀ {ph : Phase}, ph.slot = some k → s.phase ≠ ph := by
      rintro ph hph rfl
      exact hki (Option.some.inj (hph.symm.trans hslot))
    exact ⟨hf, hother rfl, hother rfl, hother rfl⟩

lemma hold_load {j j' : Job} (hid : j'.id = j.id) (hd : j'.doneFlag = j.doneFlag)
    (hbuf : j'.inbuf = j.inbuf) (hoff : j'.inoff = j.inoff) : j'.load = j.load := by
  unfold Job.load
  rw [hid, hd, hbuf, hoff]

/-- Picking a job that has not failed brings the task nearer to its next byte or end. -/
lemma pick_descends {now : Nat} (hp : s.phase = .parked) (hb : (s.abandon now).best ≠ none)
    (hs : ∀ i, ¬ s.Stuck i) :
    (s.pick now).measure < s.measure ∧ ∀ i, ¬ (s.pick now).Stuck i := by
  have hno : ∀ k, ¬ ((s.abandon now).jobs k).Failed := fun k hf =>
    hs k ⟨failed_of_abandon hf, by rw [hp]; nofun, by rw [hp]; nofun, by rw [hp]; nofun⟩
  rcases pick_spec now hp with ⟨hnone, -⟩ | ⟨i, -, hready, he⟩
  · exact absurd hnone hb
  · have hdue := due_of_ready hready (hno i)
    have hjobs : ∀ k, ∃ servicing rrTick,
        (s.pick now).jobs k = { (s.abandon now).jobs k with servicing, rrTick } := by
      intro k
      rw [he]
      change ∃ servicing rrTick, Function.update (s.abandon now).jobs i _ k = _
      by_cases hk : k = i
      · rw [hk, Function.update_self]
        exact ⟨_, _, rfl⟩
      · rw [Function.update_of_ne hk]
        exact ⟨_, _, rfl⟩
    have hload : ∀ k, ((s.pick now).jobs k).load = (s.jobs k).load := by
      intro k
      obtain ⟨_, _, hk⟩ := hjobs k
      obtain ⟨_, hab, -⟩ := abandon_job (s := s) now k
      rw [hk, hab]
      exact hold_load rfl rfl rfl rfl
    refine ⟨measure_lt (load_le (fun k => (hload k).le) fun r => by rw [he]; exact le_rfl)
      (.inr (.inl ?_)), fun k hk => ?_⟩
    · have hrank : s.rank = 20 := by
        unfold Writer.rank
        rw [hp]
        rfl
      have hrank' : (s.pick now).rank = 19 := by
        obtain ⟨_, _, hi⟩ := hjobs i
        have hring : (s.pick now).ringData ((s.pick now).jobs i) =
            (s.abandon now).ringData ((s.abandon now).jobs i) := by
          rw [hi, he]
          rfl
        have hphase : (s.pick now).phase = .picked i := by rw [he]
        unfold Writer.rank
        rw [hphase]
        refine if_pos ?_
        rw [hring, hi]
        rcases hdue with hdue | hdue
        · exact .inl hdue
        · refine .inr ?_
          cases hst : ((s.abandon now).jobs i).streaming with
          | false => exact .inl rfl
          | true => exact .inr (hdue hst)
      rw [hrank, hrank']
      decide
    · obtain ⟨_, _, hk'⟩ := hjobs k
      have hf := hk.1
      rw [hk'] at hf
      exact hno k ⟨hf.live, hf.open_, hf.streaming, hf.error, hf.running, hf.held⟩

lemma drain_descends (hp : s.phase = .parked) (hd : s.pendingClose ≠ []) :
    s.drain.measure < s.measure ∧ ∀ i, s.drain.Stuck i → s.Stuck i := by
  unfold Writer.drain
  rw [hp]
  cases hpend : s.pendingClose with
  | nil => exact absurd hpend hd
  | cons fd fds =>
    refine ⟨measure_lt le_rfl (.inr (.inr ⟨rfl, ?_⟩)), fun i h => h⟩
    rw [hpend]
    change Phase.rest fds.length s.phase < Phase.rest (fds.length + 1) s.phase
    rw [hp]
    exact Nat.lt_succ_self _

/-- A pass ends with less to do, or nearer to the next pass. -/
lemma commit_descends {terminal : Bool} (h : Held s) (hp : s.phase = .leaving i terminal) :
    s.commit.measure < s.measure ∧ ∀ k, s.commit.Stuck k → s.Stuck k := by
  have hslot : s.phase.slot = some i := by rw [hp]; rfl
  obtain ⟨hlive, -, hopen⟩ := h.busy i hslot
  have hpos : (s.jobs i).load = 1 + ((s.jobs i).inbuf.length - (s.jobs i).inoff) :=
    if_neg (not_or.mpr ⟨hlive, by rw [hopen]; exact Bool.false_ne_true⟩)
  have hother : ∀ {k}, k ≠ i → s.phase ≠ .finalizing k ∧ s.phase ≠ .ended k ∧
      s.phase ≠ .leaving k true := by
    intro k hk
    rw [hp]
    exact ⟨nofun, nofun, fun he => hk (Phase.leaving.inj he).1.symm⟩
  -- the slot is emptied, or its job has come to its end
  have ended : ∀ {t : Writer}, (∀ k ≠ i, t.jobs k = s.jobs k) →
      ((t.jobs i).id = 0 ∨ (t.jobs i).doneFlag = true) →
        (∀ r, (t.rings r).data.length ≤ (s.rings r).data.length) →
          t.measure < s.measure ∧ ∀ k, t.Stuck k → s.Stuck k := by
    intro t hne hi hr
    have hzero : (t.jobs i).load = 0 := if_pos hi
    have hj : ∀ k, (t.jobs k).load ≤ (s.jobs k).load := by
      intro k
      by_cases hk : k = i
      · rw [hk, hzero]
        exact Nat.zero_le _
      · rw [hne k hk]
    have hlt : t.load < s.load := load_lt_job (i := i) hj hr (by rw [hzero, hpos]; omega)
    refine ⟨measure_lt hlt.le (.inl hlt), fun k hk => ?_⟩
    have hki : k ≠ i := by
      rintro rfl
      rcases hi with h0 | hd
      · exact hk.1.live h0
      · exact Bool.false_ne_true (hk.1.open_.symm.trans hd)
    have hf := hk.1
    rw [hne k hki] at hf
    exact ⟨hf, hother hki⟩
  rcases commit_spec hp with ⟨rfl, he⟩ | ⟨rfl, inlineBytes, ⟨he, -⟩ | he⟩
  · have hrank : s.rank = 21 := by
      unfold Writer.rank
      rw [hp]
      rfl
    rw [he]
    refine ⟨measure_lt (load_le (setJob_all (P := fun a b => b.load ≤ a.load) (fun _ => le_rfl)
      (hold_load rfl rfl rfl rfl).le) fun _ => le_rfl) (.inr (.inl ?_)), fun k hk => ?_⟩
    · rw [hrank]
      change 20 < 21
      decide
    · have hf : (s.jobs k).Failed := setJob_all (i := i) (j := { s.jobs i with servicing := false })
        (P := fun a b => b.Failed → a.Failed) (fun _ => id)
        (fun h => ⟨h.live, h.open_, h.streaming, h.error, h.running, h.held⟩) k hk.1
      refine ⟨hf, ?_⟩
      rw [hp]
      exact ⟨nofun, nofun, nofun⟩
  · rw [he]
    refine ended (fun k hk => Function.update_of_ne hk _ _) (.inr ?_) fun _ => le_rfl
    exact congrArg Job.doneFlag (Function.update_self i _ s.jobs)
  · obtain ⟨h0, hne, -, hr, -⟩ := releaseJob_spec i
      { s.setJob i { s.jobs i with servicing := false } with phase := .parked, inlineBytes }
    rw [he]
    exact ended (fun k hk => (hne k hk).trans (Function.update_of_ne hk _ _)) (.inl h0) hr

/-- While the task works alone and no stream has failed, every step lowers the measure. -/
lemma busy_descends {e : Event} (h : Held s) (hs : ∀ i, ¬ s.Stuck i) (hb : Busy s e) :
    (s.step e).measure < s.measure ∧ ∀ i, ¬ (s.step e).Stuck i := by
  have alone : (s.step e).measure < s.measure ∧ (∀ k, (s.step e).Stuck k → s.Stuck k) →
      (s.step e).measure < s.measure ∧ ∀ i, ¬ (s.step e).Stuck i :=
    fun hd => ⟨hd.1, fun i hi => hs i (hd.2 i hi)⟩
  by_cases hn : e.Next s
  · obtain ⟨i, ok, j', data', ph', ms, ht, -⟩ := next_turns hn
    exact alone ⟨ht.descends h, fun _ => ht.stuck⟩
  · cases e with
    | drain => exact alone (drain_descends hb.1 hb.2)
    | pick now => exact pick_descends hb.1 hb.2.2 hs
    | commit =>
      obtain ⟨i, terminal, hp⟩ := hb
      exact alone (commit_descends h hp)
    | _ => exact absurd hb hn

/-- Without failed streams the task parks. -/
lemma parks_of_not_stuck (h : Held s) (hs : ∀ i, ¬ s.Stuck i) : ¬ Endless Writer.step Busy s :=
  not_endless (I := fun s => Held s ∧ ∀ i, ¬ s.Stuck i) (μ := Writer.measure)
    (fun hI hb => ⟨hI.1.step, (busy_descends hI.1 hI.2 hb).2⟩)
    (fun hI hb => (busy_descends hI.1 hI.2 hb).1) ⟨h, hs⟩

/-! ### Failed streams -/

/-- The next step of the task, with a card that does what it is told. -/
def Writer.next (s : Writer) : Event :=
  match s.phase with
  | .parked => if s.pendingClose = [] then .pick 0 else .drain
  | .picked _ => .start true true
  | .opened _ => .receive 0
  | .empty _ => .look
  | .writing .. => .put 1
  | .wrote _ => .check
  | .finalizing _ => .sync true
  | .ended _ => .close
  | .leaving .. => .commit

/-- The scheduler keeps a job once it has one. -/
lemma foldl_ne_none {l : List (Fin MAX_JOBS)} {b : Option (Fin MAX_JOBS)}
    (h : b ≠ none ∨ ∃ i ∈ l, s.ready (s.jobs i) = true) :
    l.foldl (fun best i =>
      if !s.ready (s.jobs i) then best
      else
        match best with
        | none => some i
        | some b => if Writer.before (s.jobs i) (s.jobs b) then some i else some b) b ≠ none := by
  induction l generalizing b with
  | nil => exact h.resolve_right fun ⟨_, hm, _⟩ => List.not_mem_nil hm
  | cons k l ih =>
    rw [List.foldl_cons]
    refine ih ?_
    cases hk : s.ready (s.jobs k) with
    | true =>
      left
      rw [if_neg (by decide)]
      split
      next => nofun
      next =>
        split
        next => nofun
        next => nofun
    | false =>
      rw [if_pos (by rfl)]
      refine h.imp_right fun ⟨i, hi, hr⟩ => ?_
      rcases List.mem_cons.mp hi with rfl | hi
      · rw [hk] at hr
        cases hr
      · exact ⟨i, hi, hr⟩

/-- A job that is ready keeps the scheduler from finding none. -/
lemma best_ne_none (hr : s.ready (s.jobs i) = true) : s.best ≠ none :=
  foldl_ne_none (.inr ⟨i, List.mem_finRange i, hr⟩)

lemma ready_of_failed (h : j.Failed) : s.ready j = true := by
  unfold Writer.ready
  rw [if_neg (not_or.mpr ⟨h.live, by rw [h.open_]; exact Bool.false_ne_true⟩), h.held,
    if_neg Bool.false_ne_true, if_pos h.streaming, h.error]
  rfl

/-- A failed stream is not given up as a silent one. -/
lemma abandon_failed (now : Nat) (h : (s.jobs k).Failed) : (s.abandon now).jobs k = s.jobs k := by
  refine if_neg fun hs => ?_
  unfold Writer.silent at hs
  rw [h.error] at hs
  simp at hs

/-- A failed stream keeps the task from parking. -/
lemma busy_next (hk : s.Stuck k) : Busy s s.next := by
  unfold Writer.next
  cases hp : s.phase with
  | parked =>
    dsimp only
    split
    next hpend =>
      refine ⟨hp, hpend, best_ne_none (i := k) ?_⟩
      rw [abandon_failed _ hk.1]
      exact ready_of_failed hk.1
    next hpend => exact ⟨hp, hpend⟩
  | picked i => exact ⟨i, hp⟩
  | opened i => exact ⟨i, hp⟩
  | empty i => exact ⟨i, hp⟩
  | writing i src off => exact ⟨i, src, off, hp⟩
  | wrote i => exact ⟨i, hp⟩
  | finalizing i => exact ⟨i, hp⟩
  | ended i => exact ⟨i, hp⟩
  | leaving i terminal => exact ⟨i, terminal, hp⟩

/-- As long as the card does what it is told, a turn does not bring a failed stream to its end. -/
lemma Turn.fails (h : Turn files i j data true ph j' data' ph' ms) (hf : j.Failed)
    (hp : ph ≠ .finalizing i ∧ ph ≠ .ended i ∧ ph ≠ .leaving i true) :
    j'.Failed ∧ ph' ≠ .finalizing i ∧ ph' ≠ .ended i ∧ ph' ≠ .leaving i true := by
  cases h with
  | gaveUp ha => exact absurd (hf.held.symm.trans ha) Bool.false_ne_true
  | finished hfin =>
    unfold Job.finished at hfin
    rw [if_pos hf.streaming, hf.running] at hfin
    cases hfin
  | synced => exact absurd rfl hp.1
  | closed => exact absurd rfl hp.2.1
  | _ => exact ⟨⟨hf.live, hf.open_, hf.streaming, hf.error, hf.running, hf.held⟩, nofun, nofun,
      nofun⟩

lemma stuck_turned (ht : Turned s s' i true j' data' ph' ms) (hk : s.Stuck k) : s'.Stuck k := by
  obtain ⟨hslot, hslot', -⟩ := ht.turn.slot
  obtain ⟨hf, hp⟩ := hk
  by_cases hki : k = i
  · subst hki
    unfold Writer.Stuck
    rw [ht.job.1, ht.phase]
    exact ht.turn.fails hf hp
  · have hother : ∀ {ph : Phase}, ph.slot = some k → s'.phase ≠ ph := by
      rintro ph hph rfl
      rw [ht.phase] at hph
      exact hki (Option.some.inj (hph.symm.trans hslot'))
    refine ⟨?_, hother rfl, hother rfl, hother rfl⟩
    rw [ht.jobs, Function.update_of_ne hki]
    exact hf

/-- With a card that does what it is told a failed stream stays as it is. -/
lemma stuck_next (hk : s.Stuck k) : (s.step s.next).Stuck k := by
  obtain ⟨hf, hp⟩ := hk
  by_cases hn : s.next.Next s
  · obtain ⟨i, ok, j', data', ph', ms, ht, hok⟩ := next_turns hn
    have hclean : s.next.clean = true := by
      unfold Writer.next
      split
      next =>
        split
        next => rfl
        next => rfl
      all_goals rfl
    obtain rfl := hok hclean
    exact stuck_turned ht ⟨hf, hp⟩
  · cases hph : s.phase with
    | parked =>
      have hnext : s.next = if s.pendingClose = [] then .pick 0 else .drain := by
        unfold Writer.next
        rw [hph]
      rw [hnext]
      split
      next =>
        change (s.pick 0).Stuck k
        have hsame := abandon_failed 0 hf
        rcases pick_spec 0 hph with ⟨-, he⟩ | ⟨i, -, -, he⟩
        · rw [he]
          refine ⟨?_, hp⟩
          rw [hsame]
          exact hf
        · rw [he]
          refine ⟨?_, nofun, nofun, nofun⟩
          have hf' : ((s.abandon 0).jobs k).Failed := by rwa [hsame]
          exact setJob_all (s := s.abandon 0) (i := i) (j := { (s.abandon 0).jobs i with
              servicing := true, rrTick := (s.rrClock + 1) % 2 ^ 32 })
            (P := fun a b => a.Failed → b.Failed) (fun _ => id)
            (fun h => ⟨h.live, h.open_, h.streaming, h.error, h.running, h.held⟩) k hf'
      next hpend =>
        change s.drain.Stuck k
        unfold Writer.drain
        rw [hph]
        cases hfds : s.pendingClose with
        | nil => exact absurd hfds hpend
        | cons => exact ⟨hf, hp⟩
    | leaving i terminal =>
      have hnext : s.next = .commit := by
        unfold Writer.next
        rw [hph]
      rw [hnext]
      change s.commit.Stuck k
      -- at the end of a pass that is not its last, or of one of another job
      have rest : ∀ {t : Writer}, t.phase = .parked → (t.jobs k).Failed → t.Stuck k :=
        fun hpt hft => ⟨hft, by rw [hpt]; nofun, by rw [hpt]; nofun, by rw [hpt]; nofun⟩
      have hki : terminal = true → k ≠ i := by
        rintro rfl rfl
        exact hp.2.2 hph
      rcases commit_spec hph with ⟨-, he⟩ | ⟨ht, inlineBytes, ⟨he, -⟩ | he⟩
      · rw [he]
        exact rest rfl (setJob_all (i := i) (j := { s.jobs i with servicing := false })
          (P := fun a b => a.Failed → b.Failed) (fun _ => id)
          (fun h => ⟨h.live, h.open_, h.streaming, h.error, h.running, h.held⟩) k hf)
      · rw [he]
        refine rest rfl ?_
        change (Function.update s.jobs i _ k).Failed
        rwa [Function.update_of_ne (hki ht)]
      · obtain ⟨-, hne, hpt, -, -⟩ := releaseJob_spec i
          { s.setJob i { s.jobs i with servicing := false } with phase := .parked, inlineBytes }
        rw [he]
        refine rest hpt ?_
        rw [hne k (hki ht)]
        change (Function.update s.jobs i _ k).Failed
        rwa [Function.update_of_ne (hki ht)]
    | writing i src off =>
      refine absurd ?_ hn
      unfold Writer.next
      rw [hph]
      exact ⟨i, src, off, hph⟩
    | _ =>
      refine absurd ?_ hn
      unfold Writer.next
      rw [hph]
      exact ⟨_, hph⟩

/-- The writer comes to rest, and each pass brings something, exactly when there is no stream in
error that has neither ended nor been given up. -/
theorem rests_iff (hr : Reach Writer.step (fun _ _ => True) {} s) : s.Rests ↔ ∀ i, ¬ s.Stuck i := by
  have h : Held s := .of_reach hr
  refine ⟨fun hrest i hi => hrest.2 ?_,
    fun hs => ⟨serves_of_not_stuck h hs, parks_of_not_stuck h hs⟩⟩
  exact endless_of_next (I := (Writer.Stuck · i)) busy_next stuck_next hi

instance (j : Job) : Decidable j.Failed :=
  decidable_of_iff (j.id ≠ 0 ∧ j.doneFlag = false ∧ j.streaming = true ∧ j.error = true ∧
      j.ending = false ∧ j.aborting = false)
    ⟨fun ⟨h1, h2, h3, h4, h5, h6⟩ => ⟨h1, h2, h3, h4, h5, h6⟩,
      fun h => ⟨h.live, h.open_, h.streaming, h.error, h.running, h.held⟩⟩

instance (s : Writer) (i : Fin MAX_JOBS) : Decidable (s.Stuck i) :=
  inferInstanceAs (Decidable (_ ∧ _))

/-- An upload that is through leaves the task at rest. -/
theorem rests_iff_upload : (upload.foldl Writer.step {}).Rests :=
  (rests_iff (Reach.init.run (allowed_of_forall fun _ _ => trivial))).mpr (by decide)

/-- A call of `feed` fills a ring of `n` bytes, and waits too long for room for one more. -/
def stalled (n : Nat) : List Event :=
  [.openJob true (some n) "/a" .truncate 0 16 false true 0, .feed 1 (List.replicate (n + 1) 0),
    .send 0 n, .timeout 0]

lemma stuck_stalled {n : Nat} (hn : 0 < n) :
    ((stalled n).foldl Writer.step {}).Stuck ⟨0, by decide⟩ := by
  let s : Writer := ((stalled n).take 2).foldl Writer.step {}
  let f : Feed :=
    { handle := 1, serial := 0, ring := ⟨0, by decide⟩, rest := List.replicate (n + 1) 0 }
  have hsend : s.send 0 n = s.sent 0 n f := by
    change (if 0 < n ∧ n ≤ f.rest.length ∧ 0 + n ≤ n then s.sent 0 n f else s) = _
    refine if_pos ⟨hn, ?_, (Nat.zero_add n).le⟩
    change n ≤ (List.replicate (n + 1) (0 : UInt8)).length
    rw [List.length_replicate]
    exact Nat.le_succ n
  have hrest : f.rest.drop n = [0] := by
    change (List.replicate (n + 1) (0 : UInt8)).drop n = [0]
    rw [List.drop_replicate, Nat.add_sub_cancel_left]
    rfl
  have hfeeds : (s.sent 0 n f).feeds = [{ f with rest := [0] }] := by
    unfold Writer.sent
    dsimp only
    rw [hrest]
    rfl
  have hend : (stalled n).foldl Writer.step {} = (s.send 0 n).timeout 0 := rfl
  rw [hend, hsend]
  unfold Writer.timeout
  rw [hfeeds]
  exact ⟨⟨Nat.one_ne_zero, rfl, rfl, rfl, rfl, rfl⟩, nofun, nofun, nofun⟩

/-- The task spins on the stream of a `feed` that has waited too long. -/
theorem not_rests_stalled : ¬ ((stalled (768 * 1024)).foldl Writer.step {}).Rests := fun h =>
  (rests_iff (Reach.init.run (allowed_of_forall fun _ _ => trivial))).mp h _
    (stuck_stalled (by decide))

end URSupreme.SdWriter
