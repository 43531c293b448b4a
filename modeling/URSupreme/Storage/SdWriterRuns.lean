import URSupreme.Storage.SdWriter

/-!
# What `poll` tells

The jobs in the table own what they use: each has a number of its own, each stream a ring that no
other job uses, each file belongs to one job. So what a step does for one job leaves the others as
they are, and for each job it is enough to follow its own bytes: what `feed` has put into its ring
is what was written, what the task holds, and what is still in the ring, in this order.

A job whose end `poll` reports as a success has its file synced and closed behind the bytes it was
fed before `finish`. A handle without a job reads as a success, too.
-/

namespace URSupreme.SdWriter
open Lib

/-- The `n`-th handle. -/
def handleOf (n : Nat) : Nat := n % (2 ^ 32 - 1) + 1

/-- What was done to the file of a job. -/
def Writer.trace (s : Writer) (j : Job) : List Mark :=
  match j.file with
  | none => []
  | some f => marks f s.disk

/-- The marks of a file that was opened and got chunks. -/
def chunks (path : String) (op : Op) (seekBack : Nat) (ws : List Bytes) : List Mark :=
  .opened path op seekBack :: ws.map .wrote

/-- The file of the job was opened, got chunks, was synced and closed, and the chunks are what the
job was fed, at least up to `finish`. -/
def Written (s : Writer) (j : Job) : Prop :=
  ∃ ws n late, s.trace j = chunks j.path j.op j.seekBack ws ++ [.synced, .closed] ∧
    j.finishAt = some n ∧ n ≤ ws.flatten.length ∧ j.fed = ws.flatten ++ late

/-- The bytes that `feed` has taken on a handle. -/
def Writer.taken (h : Nat) (s : Writer) : Bytes := (marks h s.accepted).flatten

/-- `poll` reports a success only when a file was opened, got all that `feed` has taken on the
handle, was synced and closed. -/
def Truthful (s : Writer) (h : Nat) : Prop :=
  s.poll h = 1 → ∃ f path op seekBack ws,
    marks f s.disk = chunks path op seekBack ws ++ [.synced, .closed] ∧ ws.flatten = s.taken h

/-- A call of `feed` sends only while the job that it found is in the table. -/
def InTable (s : Writer) : Event → Prop
  | .send k _ => ∀ f, s.feeds[k]? = some f → ∃ i, (s.jobs i).id ≠ 0 ∧ (s.jobs i).serial = f.serial
  | _ => True

/-! ### What the jobs own -/

/-- What a job has of its own. -/
structure Claim where
  id : Nat
  serial : Nat
  streaming : Bool
  ringIdx : Option (Fin MAX_STREAMS)
  file : Option Nat

def Job.claim (j : Job) : Claim := ⟨j.id, j.serial, j.streaming, j.ringIdx, j.file⟩

/-- A claim is met by what there is. -/
structure Fit (inUse : Fin MAX_STREAMS → Bool) (created files : Nat) (x : Claim) : Prop where
  serial : x.serial < created
  id : x.id = handleOf x.serial
  ring : x.streaming = true → ∃ r, x.ringIdx = some r ∧ inUse r = true
  plain : x.streaming = false → x.ringIdx = none
  file : ∀ f, x.file = some f → f < files

/-- Two claims do not meet. -/
structure Apart (x y : Claim) : Prop where
  serial : x.serial ≠ y.serial
  ring : ∀ r, x.ringIdx = some r → y.ringIdx ≠ some r
  file : ∀ f, x.file = some f → y.file ≠ some f

structure Own (c : Fin MAX_JOBS → Claim) (inUse : Fin MAX_STREAMS → Bool) (created files : Nat) :
    Prop where
  fit : ∀ i, (c i).id ≠ 0 → Fit inUse created files (c i)
  apart : ∀ i k, i ≠ k → (c i).id ≠ 0 → (c k).id ≠ 0 → Apart (c i) (c k)

variable {c : Fin MAX_JOBS → Claim} {inUse inUse' : Fin MAX_STREAMS → Bool}
  {created created' files files' n : Nat} {i k : Fin MAX_JOBS} {r : Fin MAX_STREAMS} {x y : Claim}

lemma Apart.symm (h : Apart x y) : Apart y x :=
  ⟨h.serial.symm, fun r hy hx => h.ring r hx hy, fun f hy hx => h.file f hx hy⟩

lemma Fit.mono (h : Fit inUse created files x) (hr : ∀ r, x.ringIdx = some r → inUse r = true →
    inUse' r = true) (hc : created ≤ created') (hf : files ≤ files') :
    Fit inUse' created' files' x :=
  ⟨h.serial.trans_le hc, h.id, fun hs => (h.ring hs).imp fun r hr' => ⟨hr'.1, hr r hr'.1 hr'.2⟩,
  h.plain,
    fun f hx => (h.file f hx).trans_le hf⟩

/-- One slot gets another claim. -/
lemma Own.update (h : Own c inUse created files)
    (hx : x.id ≠ 0 → Fit inUse' created' files' x ∧ ∀ k ≠ i, (c k).id ≠ 0 → Apart x (c k))
    (hk : ∀ k ≠ i, (c k).id ≠ 0 → Fit inUse created files (c k) →
    Fit inUse' created' files' (c k)) :
    Own (Function.update c i x) inUse' created' files' := by
  refine ⟨fun k hlive => ?_, fun k l hne hlive hlive' => ?_⟩
  · by_cases hki : k = i
    · subst hki
      rw [Function.update_self] at hlive ⊢
      exact (hx hlive).1
    · rw [Function.update_of_ne hki] at hlive ⊢
      exact hk k hki hlive (h.fit k hlive)
  · by_cases hki : k = i
    · subst hki
      rw [Function.update_self] at hlive ⊢
      rw [Function.update_of_ne hne.symm] at hlive' ⊢
      exact (hx hlive).2 l hne.symm hlive'
    · rw [Function.update_of_ne hki] at hlive ⊢
      by_cases hli : l = i
      · subst hli
        rw [Function.update_self] at hlive' ⊢
        exact ((hx hlive').2 k hki hlive).symm
      · rw [Function.update_of_ne hli] at hlive' ⊢
        exact h.apart k l hne hlive hlive'

lemma handleOf_ne : handleOf n ≠ 0 := Nat.succ_ne_zero _

lemma bumpId_handleOf : Writer.bumpId (handleOf n) = handleOf (n + 1) := by
  unfold Writer.bumpId handleOf
  dsimp only
  split
  next h => omega
  next h => omega

/-! ### The bytes of one job -/

/-- What the task holds of a job that has left its source. -/
def Phase.held : Phase → Bytes
  | .writing _ src off => src.drop off
  | _ => []

/-- The marks behind the chunks. -/
def Phase.tail : Phase → List Mark
  | .ended _ => [.synced]
  | .leaving _ true => [.synced, .closed]
  | _ => []

/-- The job was found to be finished. -/
def Phase.past : Phase → Bool
  | .finalizing _ | .ended _ | .leaving _ true => true
  | _ => false

/-- The file may not be open yet. -/
def Phase.early : Phase → Bool
  | .parked | .picked _ => true
  | _ => false

def Phase.shut : Phase → Bool
  | .leaving _ true => true
  | _ => false

/-- A stream under way: not opened yet, or its file has what the task has written. -/
def UnderWay (j : Job) (data : Bytes) (ms : List Mark) (ph : Phase) : Prop :=
  (j.fd = none ∧ j.file = none ∧ j.fed = data ∧ ph.early = true) ∨
    ∃ f ws, j.file = some f ∧ ms = chunks j.path j.op j.seekBack ws ++ ph.tail ∧
      j.fed = ws.flatten ++ ph.held ++ data ∧ (ph.shut = false → j.fd = some f) ∧
        (ph.past = true → ∃ n, j.finishAt = some n ∧ n ≤ ws.flatten.length)

/-- A stream that has come to its end. -/
def Closed (j : Job) (data : Bytes) (ms : List Mark) : Prop :=
  ∃ ws n, ms = chunks j.path j.op j.seekBack ws ++ [.synced, .closed] ∧ j.finishAt = some n ∧
    n ≤ ws.flatten.length ∧ j.fed = ws.flatten ++ data

/-- A job with what is in its ring, what was done to its file, and where the task is with it. -/
structure Good (j : Job) (data : Bytes) (ms : List Mark) (ph : Phase) : Prop where
  fin : ∀ n, j.finishAt = some n → n ≤ j.fed.length
  ending : j.ending = true → ∃ n, j.finishAt = some n
  fd : ∀ f, j.fd = some f → j.file = some f
  reaps : j.callerReaps = true → j.streaming = true
  done : j.doneFlag = true → j.streaming = true ∧ ph = .parked ∧
  (j.error = false → Closed j data ms)
  way : j.streaming = true → j.doneFlag = false → j.error = false → j.aborting = false →
    UnderWay j data ms ph

/-- Where the task is with a slot. -/
def Writer.view (s : Writer) (i : Fin MAX_JOBS) : Phase :=
  if s.phase.slot = some i then s.phase else .parked

/-- The state of a slot. -/
def Writer.Holds (s : Writer) (i : Fin MAX_JOBS) : Prop :=
  Good (s.jobs i) (s.ringData (s.jobs i)) (s.trace (s.jobs i)) (s.view i)

structure Inv (s : Writer) : Prop where
  own : Own (fun i => (s.jobs i).claim) (fun r => (s.rings r).inUse) s.created s.files
  next : s.nextId = handleOf s.created
  disk : ∀ x ∈ s.disk, x.1 < s.files
  stray : ∀ fd ∈ s.pendingClose, fd < s.files ∧ ∀ i, (s.jobs i).id ≠ 0 → (s.jobs i).file ≠ some fd
  free : ∀ r, (s.rings r).inUse = false → (s.rings r).data = []
  serv : ∀ i, (s.jobs i).id ≠ 0 → ((s.jobs i).servicing = true ↔ s.phase.slot = some i)
  busy : ∀ i, s.phase.slot = some i → (s.jobs i).id ≠ 0
  feeds : ∀ f ∈ s.feeds, f.serial < s.created ∧ ∀ i, (s.jobs i).id ≠ 0 →
    (s.jobs i).serial = f.serial → (s.jobs i).streaming = true ∧ (s.jobs i).ringIdx = some f.ring
  holds : ∀ i, (s.jobs i).id ≠ 0 → s.Holds i

variable {s s' : Writer} {j : Job}

lemma Inv.init : Inv {} :=
  ⟨⟨fun _ h => absurd rfl h, fun _ _ _ h => absurd rfl h⟩, rfl, nofun, nofun, fun _ _ => rfl,
    fun _ h => absurd rfl h, nofun, nofun, fun _ h => absurd rfl h⟩

/-- Marks of other files do not show. -/
lemma trace_append {ms : List (Nat × Mark)} (h : s'.disk = s.disk ++ ms)
    (hm : ∀ x ∈ ms, j.file ≠ some x.1) : s'.trace j = s.trace j := by
  unfold Writer.trace
  cases hf : j.file with
  | none => rfl
  | some f =>
    dsimp only
    rw [h]
    exact marks_other fun x hx he => hm x hx (by rw [hf, he])

/-- The task is with a slot as before. -/
lemma slot_iff (h : s'.phase = s.phase ∨ s.phase.slot ≠ some k ∧ s'.phase.slot ≠ some k) :
    s'.phase.slot = some k ↔ s.phase.slot = some k := by
  rcases h with h | h
  · rw [h]
  · exact iff_of_false h.2 h.1

lemma view_eq (h : s'.phase = s.phase ∨ s.phase.slot ≠ some k ∧ s'.phase.slot ≠ some k) :
    s'.view k = s.view k := by
  unfold Writer.view
  rcases h with h | h
  · rw [h]
  · rw [if_neg h.1, if_neg h.2]

/-- A step for one job, which may give it a file that no job has. -/
lemma Inv.slot {ms : List (Nat × Mark)} {file : Option Nat} (h : Inv s) (hi : (s.jobs i).id ≠ 0)
    (hjobs : ∀ k ≠ i, s'.jobs k = s.jobs k)
    (hclaim : (s'.jobs i).claim = { (s.jobs i).claim with file })
    (hnew : file = (s.jobs i).file ∨ ∃ f, file = some f ∧ f < s.files ∧ f ∉ s.pendingClose ∧
      ∀ k, (s.jobs k).id ≠ 0 → (s.jobs k).file ≠ some f)
    (hrings : ∀ r, (s'.rings r).inUse = (s.rings r).inUse)
    (hdata : ∀ r, (s.jobs i).ringIdx ≠ some r → (s'.rings r).data = (s.rings r).data)
    (hdisk : s'.disk = s.disk ++ ms) (hms : ∀ x ∈ ms, (s.jobs i).file = some x.1)
    (hrest : s'.created = s.created ∧ s'.nextId = s.nextId ∧ s'.files = s.files ∧
      s'.pendingClose = s.pendingClose)
    (hfeeds : ∀ f ∈ s'.feeds, ∃ g ∈ s.feeds, f.serial = g.serial ∧ f.ring = g.ring)
    (hphase : s'.phase = s.phase ∨ ∀ k ≠ i, s.phase.slot ≠ some k ∧ s'.phase.slot ≠ some k)
    (hserv : (s'.jobs i).servicing = true ↔ s'.phase.slot = some i) (hgood : s'.Holds i) :
    Inv s' := by
  obtain ⟨hcr, hnx, hfl, hpc⟩ := hrest
  have hc : ∀ k, ∃ file, (s'.jobs k).claim = { (s.jobs k).claim with file } := fun k => by
    by_cases hk : k = i
    · rw [hk]
      exact ⟨file, hclaim⟩
    · rw [hjobs k hk]
      exact ⟨_, rfl⟩
  have hid : ∀ k, (s'.jobs k).id = (s.jobs k).id := fun k => congrArg Claim.id (hc k).choose_spec
  have hser : ∀ k, (s'.jobs k).serial = (s.jobs k).serial := fun k =>
    congrArg Claim.serial (hc k).choose_spec
  have hfile : (s'.jobs i).file = file := congrArg Claim.file hclaim
  have hslot : ∀ k ≠ i, (s'.phase.slot = some k ↔ s.phase.slot = some k) := fun k hk =>
    slot_iff (hphase.imp_right fun hp => hp k hk)
  refine ⟨?_, ?_, fun x hx => ?_, fun fd hfd => ?_, fun r hr => ?_, fun k hk => ?_, fun k hk => ?_,
    fun f hf => ?_, fun k hk => ?_⟩
  · have hfit := h.own.fit i hi
    have hup := h.own.update (i := i) (x := { (s.jobs i).claim with file })
      (fun _ => ⟨⟨hfit.serial, hfit.id, hfit.ring, hfit.plain, fun f hf => ?_⟩, fun k hk hlk =>
        ⟨(h.own.apart i k hk.symm hi hlk).serial, (h.own.apart i k hk.symm hi hlk).ring,
        fun f hf => ?_⟩⟩)
      fun _ _ _ => id
    · rw [hcr, hfl, show (fun r => (s'.rings r).inUse) =
        fun r => (s.rings r).inUse from funext hrings,
        show (fun k => (s'.jobs k).claim) = Function.update (fun k => (s.jobs k).claim) i
          { (s.jobs i).claim with file } from ?_]
      · exact hup
      · funext k
        by_cases hk : k = i
        · rw [hk, hclaim, Function.update_self]
        · rw [Function.update_of_ne hk, hjobs k hk]
    · rcases hnew with rfl | ⟨g, rfl, hlt, -⟩
      · exact hfit.file f hf
      · exact Option.some.inj hf ▸ hlt
    · rcases hnew with rfl | ⟨g, rfl, -, -, hno⟩
      · exact (h.own.apart i k hk.symm hi hlk).file f hf
      · exact hf ▸ hno k hlk
  · rw [hnx, hcr]
    exact h.next
  · rw [hdisk] at hx
    rw [hfl]
    rcases List.mem_append.mp hx with hx | hx
    · exact h.disk x hx
    · exact (h.own.fit i hi).file _ (hms x hx)
  · rw [hpc] at hfd
    obtain ⟨hlt, hno⟩ := h.stray fd hfd
    rw [hfl]
    refine ⟨hlt, fun k hk => ?_⟩
    rw [hid] at hk
    by_cases hki : k = i
    · rw [hki, hfile]
      rcases hnew with rfl | ⟨f, rfl, -, hpend, -⟩
      · exact hno i hi
      · exact fun he => hpend (Option.some.inj he ▸ hfd)
    · rw [hjobs k hki]
      exact hno k hk
  · rw [hrings] at hr
    have hne : (s.jobs i).ringIdx ≠ some r := fun he => by
      cases hst : (s.jobs i).streaming with
      | true =>
        obtain ⟨r', hr', huse⟩ := (h.own.fit i hi).ring hst
        obtain rfl := Option.some.inj (hr'.symm.trans he)
        rw [hr] at huse
        cases huse
      | false =>
        have hnone : (s.jobs i).ringIdx = none := (h.own.fit i hi).plain hst
        rw [hnone] at he
        cases he
    rw [hdata r hne]
    exact h.free r hr
  · by_cases hki : k = i
    · rw [hki]
      exact hserv
    · rw [hid] at hk
      rw [hjobs k hki, hslot k hki]
      exact h.serv k hk
  · by_cases hki : k = i
    · rw [hki, hid]
      exact hi
    · rw [hid]
      exact h.busy k ((hslot k hki).mp hk)
  · obtain ⟨g, hg, hs, hr⟩ := hfeeds f hf
    obtain ⟨hlt, hown⟩ := h.feeds g hg
    rw [hs, hr, hcr]
    refine ⟨hlt, fun k hk he => ?_⟩
    rw [hid] at hk
    rw [hser] at he
    obtain ⟨h1, h2⟩ := hown k hk he
    obtain ⟨_, hck⟩ := hc k
    exact ⟨(congrArg Claim.streaming hck).trans h1, (congrArg Claim.ringIdx hck).trans h2⟩
  · by_cases hki : k = i
    · rw [hki]
      exact hgood
    · rw [hid] at hk
      have hap := h.own.apart i k (Ne.symm hki) hi hk
      have hview : s'.view k = s.view k := view_eq (hphase.imp_right fun hp => hp k hki)
      have hring : s'.ringData (s.jobs k) = s.ringData (s.jobs k) := by
        unfold Writer.ringData
        split
        next => rfl
        next r hr => exact hdata r fun he => hap.ring r he hr
      have htrace : s'.trace (s.jobs k) = s.trace (s.jobs k) :=
        trace_append hdisk fun x hx => hap.file _ (hms x hx)
      unfold Writer.Holds
      rw [hjobs k hki, hview, hring, htrace]
      exact h.holds k hk

/-- A slot is freed. -/
lemma Inv.vacate {ms : List (Nat × Mark)} (h : Inv s) (hi : (s.jobs i).id ≠ 0)
    (hjobs : ∀ k ≠ i, s'.jobs k = s.jobs k) (hid : (s'.jobs i).id = 0)
    (hrings : ∀ r, (s.jobs i).ringIdx ≠ some r → s'.rings r = s.rings r)
    (hfree : ∀ r, (s.jobs i).ringIdx = some r → (s'.rings r).data = [])
    (hdisk : s'.disk = s.disk ++ ms) (hms : ∀ x ∈ ms, (s.jobs i).file = some x.1)
    (hpend : ∀ fd ∈ s'.pendingClose, fd ∈ s.pendingClose ∨ (s.jobs i).file = some fd)
    (hrest : s'.created = s.created ∧ s'.nextId = s.nextId ∧ s'.files = s.files ∧
    s'.feeds = s.feeds)
    (hphase : s'.phase = s.phase ∨ ∀ k ≠ i, s.phase.slot ≠ some k ∧ s'.phase.slot ≠ some k)
    (hslot : s'.phase.slot ≠ some i) : Inv s' := by
  obtain ⟨hcr, hnx, hfl, hfd⟩ := hrest
  have hsame : ∀ k ≠ i, (s'.phase.slot = some k ↔ s.phase.slot = some k) := fun k hk =>
    slot_iff (hphase.imp_right fun hp => hp k hk)
  have hne : ∀ {k}, (s'.jobs k).id ≠ 0 → k ≠ i := fun hk he => hk (he ▸ hid)
  have hlive : ∀ {k}, (s'.jobs k).id ≠ 0 → (s.jobs k).id ≠ 0 := fun {k} hk => by
    rw [hjobs k (hne hk)] at hk
    exact hk
  have hown : Own (Function.update (fun k => (s.jobs k).claim) i (s'.jobs i).claim)
      (fun r => (s'.rings r).inUse) s.created s.files :=
    h.own.update (fun hx => absurd hid hx) fun k hk hlk hfit => by
      refine hfit.mono (fun r hr huse => ?_) le_rfl le_rfl
      rw [hrings r fun he => (h.own.apart i k (Ne.symm hk) hi hlk).ring r he hr]
      exact huse
  have hc : Function.update (fun k => (s.jobs k).claim) i (s'.jobs i).claim =
    fun k => (s'.jobs k).claim := by
    funext k
    by_cases hk : k = i
    · subst hk
      rw [Function.update_self]
    · rw [Function.update_of_ne hk, hjobs k hk]
  rw [hc] at hown
  refine ⟨?_, ?_, fun x hx => ?_, fun fd hx => ?_, fun r hr => ?_, fun k hk => ?_, fun k hk => ?_,
    fun f hf => ?_, fun k hk => ?_⟩
  · rw [hcr, hfl]
    exact hown
  · rw [hnx, hcr]
    exact h.next
  · rw [hdisk] at hx
    rw [hfl]
    rcases List.mem_append.mp hx with hx | hx
    · exact h.disk x hx
    · exact (h.own.fit i hi).file _ (hms x hx)
  · rw [hfl]
    rcases hpend fd hx with hx | hx
    · refine ⟨(h.stray fd hx).1, fun k hk => ?_⟩
      rw [hjobs k (hne hk)]
      exact (h.stray fd hx).2 k (hlive hk)
    · refine ⟨(h.own.fit i hi).file fd hx, fun k hk => ?_⟩
      rw [hjobs k (hne hk)]
      exact (h.own.apart i k (Ne.symm (hne hk)) hi (hlive hk)).file fd hx
  · by_cases he : (s.jobs i).ringIdx = some r
    · exact hfree r he
    · rw [hrings r he] at hr ⊢
      exact h.free r hr
  · rw [hjobs k (hne hk), hsame k (hne hk)]
    exact h.serv k (hlive hk)
  · have hki : k ≠ i := fun he => hslot (he ▸ hk)
    rw [hjobs k hki]
    exact h.busy k ((hsame k hki).mp hk)
  · rw [hfd] at hf
    rw [hcr]
    refine ⟨(h.feeds f hf).1, fun k hk => ?_⟩
    rw [hjobs k (hne hk)]
    exact (h.feeds f hf).2 k (hlive hk)
  · have hki := hne hk
    have hap := h.own.apart i k (Ne.symm hki) hi (hlive hk)
    have hview : s'.view k = s.view k := view_eq (hphase.imp_right fun hp => hp k hki)
    have hring : s'.ringData (s.jobs k) = s.ringData (s.jobs k) := by
      unfold Writer.ringData
      split
      next => rfl
      next r hr => rw [hrings r fun he => hap.ring r he hr]
    have htrace : s'.trace (s.jobs k) = s.trace (s.jobs k) :=
      trace_append hdisk fun x hx => hap.file _ (hms x hx)
    unfold Writer.Holds
    rw [hjobs k hki, hview, hring, htrace]
    exact h.holds k (hlive hk)

lemma dropFd_spec (fd : Option Nat) (s : Writer) : ∃ pendingClose ms,
    s.dropFd fd = { s with pendingClose, disk := s.disk ++ ms } ∧ (∀ x ∈ ms, fd = some x.1) ∧
      ∀ f ∈ pendingClose, f ∈ s.pendingClose ∨ fd = some f := by
  unfold Writer.dropFd
  cases fd with
  | none => exact ⟨s.pendingClose, [], by rw [List.append_nil], nofun, fun f hf => .inl hf⟩
  | some fd =>
    dsimp only
    split
    next =>
      refine ⟨fd :: s.pendingClose, [], by rw [List.append_nil], nofun, fun f hf => ?_⟩
      rcases List.mem_cons.mp hf with rfl | hf
      · exact .inr rfl
      · exact .inl hf
    next =>
      refine ⟨s.pendingClose, [(fd, .closed)], rfl, fun x hx => ?_, fun f hf => .inl hf⟩
      rw [List.mem_singleton.mp hx]

lemma freeRing_spec (ringIdx : Option (Fin MAX_STREAMS)) (s : Writer) : ∃ rings,
    s.freeRing ringIdx = { s with rings } ∧ (∀ r, ringIdx ≠ some r → rings r = s.rings r) ∧
      ∀ r, ringIdx = some r → (rings r).data = [] := by
  unfold Writer.freeRing
  cases ringIdx with
  | none => exact ⟨s.rings, rfl, fun _ _ => rfl, nofun⟩
  | some r =>
    refine ⟨_, rfl, fun r' hr' => ?_, fun r' hr' => ?_⟩
    · exact Function.update_of_ne (fun he => hr' (congrArg some he.symm)) _ _
    obtain rfl := Option.some.inj hr'
    rw [Function.update_self]

/-- A job is released, and the task leaves it. -/
lemma Inv.reap {j' : Job} {ph : Phase} (h : Inv s) (inlineBytes : Nat) (hi : (s.jobs i).id ≠ 0)
    (hclaim : j'.claim = (s.jobs i).claim) (hfd : ∀ f, j'.fd = some f → j'.file = some f)
    (hphase : ph = s.phase ∨ ∀ k ≠ i, s.phase.slot ≠ some k ∧ ph.slot ≠ some k)
    (hslot : ph.slot ≠ some i) :
    Inv (Writer.releaseJob i { s.setJob i j' with phase := ph, inlineBytes }) := by
  let s₁ : Writer := { s.setJob i j' with phase := ph, inlineBytes }
  have hself : s₁.jobs i = j' := Function.update_self ..
  have hfile : j'.file = (s.jobs i).file := congrArg Claim.file hclaim
  have hring : j'.ringIdx = (s.jobs i).ringIdx := congrArg Claim.ringIdx hclaim
  have hplain : j'.streaming = false → j'.ringIdx = none := fun hs => by
    rw [hring]
    exact (h.own.fit i hi).plain ((congrArg Claim.streaming hclaim).symm.trans hs)
  obtain ⟨pendingClose, ms, hdrop, hms, hpend⟩ := dropFd_spec j'.fd s₁
  obtain ⟨rings, hfree, hsame, hempty⟩ := freeRing_spec j'.ringIdx
    { s₁ with pendingClose, disk := s₁.disk ++ ms }
  have hrings : (if j'.streaming then
        Writer.freeRing j'.ringIdx { s₁ with pendingClose, disk := s₁.disk ++ ms }
      else { s₁ with pendingClose, disk := s₁.disk ++ ms }) =
      { s₁ with pendingClose, disk := s₁.disk ++ ms, rings } := by
    rw [← hfree]
    split
    next => rfl
    next hst =>
      rw [hplain (Bool.eq_false_iff.mpr hst)]
      rfl
  change Inv (s₁.releaseJob i)
  unfold Writer.releaseJob
  dsimp only
  rw [hself, hdrop, hrings]
  rw [hring] at hsame hempty
  refine h.vacate hi (fun k hk => ?_) ?_ hsame hempty rfl
    (fun x hx => hfile ▸ hfd _ (hms x hx)) (fun fd hx => ?_) ⟨rfl, rfl, rfl, rfl⟩ hphase hslot
  · dsimp only [Writer.setJob, s₁]
    rw [Function.update_of_ne hk, Function.update_of_ne hk]
  · dsimp only [Writer.setJob]
    rw [Function.update_self]
  · exact (hpend fd hx).imp_right fun hx => hfile ▸ hfd _ hx

@[simp]
lemma setJob_self : s.setJob i (s.jobs i) = s := by
  unfold Writer.setJob
  rw [Function.update_eq_self]

lemma Inv.releaseJob (h : Inv s) (hi : (s.jobs i).id ≠ 0) (hslot : s.phase.slot ≠ some i) :
    Inv (s.releaseJob i) := by
  have hr := h.reap s.inlineBytes hi rfl (h.holds i hi).fd (.inl rfl) hslot
  rw [setJob_self] at hr
  exact hr

/-- A slot that another one is not. -/
lemma slot_other {ph : Phase} (h : s.phase.slot = some i) (hp : ph.slot = some i ∨ ph.slot = none) :
    ph = s.phase ∨ ∀ k ≠ i, s.phase.slot ≠ some k ∧ ph.slot ≠ some k := by
  refine .inr fun k hk => ⟨fun he => hk ?_, fun he => ?_⟩
  · rw [h] at he
    exact (Option.some.inj he).symm
  · rcases hp with hp | hp
    · rw [hp] at he
      exact hk (Option.some.inj he).symm
    · rw [hp] at he
      cases he

lemma claim_ringData {j' : Job} (h : j'.claim = j.claim) : s.ringData j' = s.ringData j := by
  have hr : j'.ringIdx = j.ringIdx := congrArg Claim.ringIdx h
  unfold Writer.ringData
  rw [hr]

/-- A step for one job that leaves the rings. -/
lemma Inv.set (j' : Job) (ph : Phase) (ms : List (Nat × Mark)) (h : Inv s) (hi : (s.jobs i).id ≠ 0)
    (hclaim : j'.claim = (s.jobs i).claim) (hms : ∀ x ∈ ms, (s.jobs i).file = some x.1)
    (hphase : ph = s.phase ∨ ∀ k ≠ i, s.phase.slot ≠ some k ∧ ph.slot ≠ some k)
    (hserv : j'.servicing = true ↔ ph.slot = some i)
    (hgood : Good j' (s.ringData (s.jobs i)) (s.trace (s.jobs i) ++ ms.map (·.2))
      (if ph.slot = some i then ph else .parked)) :
    Inv { s.setJob i j' with phase := ph, disk := s.disk ++ ms } := by
  have hself : (Function.update s.jobs i j') i = j' := Function.update_self ..
  have htrace : Writer.trace { s.setJob i j' with phase := ph, disk := s.disk ++ ms } j' =
      s.trace (s.jobs i) ++ ms.map (·.2) := by
    have hf : j'.file = (s.jobs i).file := congrArg Claim.file hclaim
    unfold Writer.trace
    rw [hf]
    cases hj : (s.jobs i).file with
    | none =>
      cases ms with
      | nil => rfl
      | cons x ms =>
        have := hms x List.mem_cons_self
        rw [hj] at this
        cases this
    | some f =>
      have hall : ms.filter (·.1 = f) = ms := List.filter_eq_self.mpr fun x hx => by
        have := hms x hx
        rw [hj] at this
        exact decide_eq_true (Option.some.inj this).symm
      show marks f (s.disk ++ ms) = marks f s.disk ++ ms.map (·.2)
      rw [marks_append]
      unfold marks
      rw [hall]
  refine h.slot hi (fun k hk => Function.update_of_ne hk _ _) ?_ (.inl rfl) (fun _ => rfl)
    (fun _ _ => rfl)
    rfl hms ⟨rfl, rfl, rfl, rfl⟩ (fun f hf => ⟨f, hf, rfl, rfl⟩) hphase ?_ ?_
  · dsimp only [Writer.setJob]
    rw [hself]
    exact hclaim
  · dsimp only [Writer.setJob]
    rw [hself]
    exact hserv
  · unfold Writer.Holds
    have hj : (Writer.jobs { s.setJob i j' with phase := ph, disk := s.disk ++ ms }) i = j' := hself
    rw [hj, htrace]
    have hring : Writer.ringData j' { s.setJob i j' with phase := ph, disk := s.disk ++ ms } =
        s.ringData (s.jobs i) := claim_ringData hclaim
    rw [hring]
    exact hgood

/-- A step for one job that does nothing to the files. -/
lemma Inv.set_quiet (j' : Job) (ph : Phase) (h : Inv s) (hi : (s.jobs i).id ≠ 0)
    (hclaim : j'.claim = (s.jobs i).claim)
    (hphase : ph = s.phase ∨ ∀ k ≠ i, s.phase.slot ≠ some k ∧ ph.slot ≠ some k)
    (hserv : j'.servicing = true ↔ ph.slot = some i)
    (hgood : Good j' (s.ringData (s.jobs i)) (s.trace (s.jobs i))
      (if ph.slot = some i then ph else .parked)) :
    Inv { s.setJob i j' with phase := ph } := by
  have hset := h.set j' ph [] hi hclaim nofun hphase hserv
    (by rw [List.map_nil, List.append_nil]; exact hgood)
  rw [List.append_nil] at hset
  exact hset

/-! ### The calls -/

lemma findJob_spec {hd : Nat} (h : s.findJob hd = some i) : (s.jobs i).id = hd ∧
    (s.jobs i).id ≠ 0 := by
  unfold Writer.findJob at h
  split at h
  next => cases h
  next hne =>
    have hdec := List.find?_some h
    have hid := of_decide_eq_true hdec
    exact ⟨hid, hid ▸ hne⟩

/-- `finishAt` is set once. -/
lemma finishAt_getD {n m : Nat} (h : j.finishAt = some n) : some (j.finishAt.getD m) = some n := by
  rw [h]
  rfl

lemma Good.finish {data ms ph} (h : Good j data ms ph) :
    Good { j with ending := true, finishAt := some (j.finishAt.getD j.fed.length) } data ms ph := by
  refine ⟨fun n hn => ?_, fun _ => ⟨_, rfl⟩, h.fd, h.reaps, fun hd => ?_, fun hst hd he ha => ?_⟩
  · obtain rfl := Option.some.inj hn
    cases hf : j.finishAt with
    | none => exact le_rfl
    | some m => exact h.fin m hf
  · obtain ⟨hst, hph, hcl⟩ := h.done hd
    refine ⟨hst, hph, fun he => ?_⟩
    obtain ⟨ws, n, h1, h2, h3, h4⟩ := hcl he
    exact ⟨ws, n, h1, finishAt_getD h2, h3, h4⟩
  · rcases h.way hst hd he ha with hw | ⟨f, ws, h1, h2, h3, h4, h5⟩
    · exact .inl hw
    · refine .inr ⟨f, ws, h1, h2, h3, h4, fun hp => ?_⟩
      obtain ⟨n, hn, hle⟩ := h5 hp
      exact ⟨n, finishAt_getD hn, hle⟩

lemma Inv.finish {hd : Nat} (h : Inv s) : Inv (s.finish hd) := by
  unfold Writer.finish
  split
  next => exact h
  next i hf =>
    have hi := (findJob_spec hf).2
    exact h.set_quiet _ s.phase hi rfl (.inl rfl) (h.serv i hi) (h.holds i hi).finish

/-- A job with an error owes nothing more. -/
lemma Good.fail {data ms ph} (h : Good j data ms ph) : Good { j with error := true } data ms ph :=
  ⟨h.fin, h.ending, h.fd, h.reaps, fun hd => ⟨(h.done hd).1, (h.done hd).2.1, nofun⟩, nofun⟩

/-- Calls of `feed` come to an end. -/
lemma Inv.fewer {feeds : List Feed} (h : Inv s) (hf : ∀ f ∈ feeds, f ∈ s.feeds) :
    Inv { s with feeds } :=
  { own := h.own, next := h.next, disk := h.disk, stray := h.stray, free := h.free, serv := h.serv
    busy := h.busy, feeds := fun f hm => h.feeds f (hf f hm), holds := h.holds }

lemma Inv.timeout {n : Nat} (h : Inv s) : Inv (s.timeout n) := by
  unfold Writer.timeout
  split
  next => exact h
  next f hf =>
    have h' : Inv { s with feeds := s.feeds.eraseIdx n } :=
      h.fewer fun g hg => List.mem_of_mem_eraseIdx hg
    dsimp only
    split
    next => exact h'
    next i hi =>
      have hi := (findJob_spec hi).2
      exact h'.set_quiet _ s.phase hi rfl (.inl rfl) (h'.serv i hi) (h'.holds i hi).fail

lemma Inv.release {hd : Nat} (h : Inv s) : Inv (s.release hd) := by
  unfold Writer.release
  split
  next => exact h
  next i hf =>
    have hi := (findJob_spec hf).2
    dsimp only
    split
    next hs =>
      have hg := h.holds i hi
      exact h.set_quiet _ s.phase hi rfl (.inl rfl) (h.serv i hi)
        ⟨hg.fin, hg.ending, hg.fd, hg.reaps, hg.done, fun _ _ _ => nofun⟩
    next hs => exact h.releaseJob hi fun hp => hs ((h.serv i hi).mpr hp)

lemma Inv.feed {hd : Nat} {data : Bytes} (h : Inv s) : Inv (s.feed hd data) := by
  unfold Writer.feed
  split
  next => exact h
  next i hf =>
    have hi := (findJob_spec hf).2
    dsimp only
    split
    next r hr =>
      split
      next hs =>
        refine { own := h.own, next := h.next, disk := h.disk, stray := h.stray, free := h.free,
                 serv := h.serv, busy := h.busy, feeds := fun f hm => ?_, holds := h.holds }
        rcases List.mem_append.mp hm with hm | hm
        · exact h.feeds f hm
        · obtain rfl := List.mem_singleton.mp hm
          refine ⟨(h.own.fit i hi).serial, fun k hk he => ?_⟩
          have hki : k = i := by
            by_contra hne
            exact (h.own.apart k i hne hk hi).serial he
          rw [hki]
          exact ⟨hs.1, hr⟩
      next => exact h
    next => exact h

/-- The counters and the logs of the calls do not matter. -/
lemma Inv.counters (h : Inv s) (rrClock inlineBytes : Nat) (issued : List Nat)
    (accepted : List (Nat × Bytes)) : Inv { s with rrClock, inlineBytes, issued, accepted } :=
  { own := h.own, next := h.next, disk := h.disk, stray := h.stray, free := h.free, serv := h.serv
    busy := h.busy, feeds := h.feeds, holds := h.holds }

/-- A job that has not been worked on. -/
structure Fresh (j : Job) : Prop where
  file : j.file = none
  fd : j.fd = none
  fed : j.fed = []
  finishAt : j.finishAt = none
  ending : j.ending = false
  servicing : j.servicing = false
  doneFlag : j.doneFlag = false
  reaps : j.callerReaps = true → j.streaming = true

/-- A job goes into a free slot. -/
lemma Inv.add (rings : Fin MAX_STREAMS → Ring) (h : Inv s) (hi : (s.jobs i).id = 0) (hj : Fresh j)
    (hst : j.streaming = true → ∃ r, j.ringIdx = some r ∧ (s.rings r).inUse = false ∧
      (rings r).inUse = true ∧ (rings r).data = (s.rings r).data)
    (hpl : j.streaming = false → j.ringIdx = none)
    (hrings : ∀ r, j.ringIdx ≠ some r → rings r = s.rings r) :
    Inv (Writer.addJob i j { s with rings }) := by
  let j' : Job := { j with id := s.nextId, serial := s.created }
  have hring : ∀ r, j.ringIdx = some r → (s.rings r).inUse = false ∧ (rings r).inUse = true ∧
      (rings r).data = (s.rings r).data := fun r hr => by
    cases hs : j.streaming with
    | true =>
      obtain ⟨r', hr', h'⟩ := hst hs
      obtain rfl := Option.some.inj (hr'.symm.trans hr)
      exact h'
    | false =>
      rw [hpl hs] at hr
      cases hr
  have huse : ∀ r, (s.rings r).inUse = true → rings r = s.rings r := fun r hr => by
    refine hrings r fun he => ?_
    rw [(hring r he).1] at hr
    cases hr
  have hother : ∀ k ≠ i, (Function.update s.jobs i j') k = s.jobs k := fun k hk =>
    Function.update_of_ne hk _ _
  have hself : (Function.update s.jobs i j') i = j' := Function.update_self ..
  have hlive : ∀ {P : Fin MAX_JOBS → Job → Prop}, P i j' →
    (∀ k, (s.jobs k).id ≠ 0 → P k (s.jobs k)) → ∀ k, ((Function.update s.jobs i j') k).id ≠ 0 →
    P k ((Function.update s.jobs i j') k) :=
    fun {P} hp hs k hk => by
      by_cases hki : k = i
      · rw [hki, hself]
        exact hp
      · rw [hother k hki] at hk ⊢
        exact hs k hk
  have hslot : s.phase.slot ≠ some i := fun he => h.busy i he hi
  have hown : Own (fun k => ((Function.update s.jobs i j') k).claim) (fun r => (rings r).inUse)
      (s.created + 1) s.files := by
    have hup : Own (Function.update (fun k => (s.jobs k).claim) i j'.claim)
        (fun r => (rings r).inUse) (s.created + 1) s.files := h.own.update
      (fun _ => ⟨⟨Nat.lt_succ_self _, h.next, fun hs => (hst hs).imp fun r hr => ⟨hr.1, hr.2.2.1⟩,
      hpl,
          fun f hf => absurd (hj.file.symm.trans hf) nofun⟩, fun k _ hk =>
        ⟨(h.own.fit k hk).serial.ne', fun r hr he => ?_,
        fun f hf => absurd (hj.file.symm.trans hf) nofun⟩⟩)
      fun k _ hk hfit => hfit.mono (fun r _ hr => (congrArg Ring.inUse (huse r hr)).trans hr)
        (Nat.le_succ _) le_rfl
    · have hc : Function.update (fun k => (s.jobs k).claim) i j'.claim =
          fun k => ((Function.update s.jobs i j') k).claim := by
        funext k
        by_cases hk : k = i
        · subst hk
          rw [Function.update_self, Function.update_self]
        · rw [Function.update_of_ne hk, Function.update_of_ne hk]
      rw [hc] at hup
      exact hup
    · cases hs : (s.jobs k).streaming with
      | true =>
        obtain ⟨r', hr', hin⟩ := (h.own.fit k hk).ring hs
        obtain rfl := Option.some.inj (hr'.symm.trans he)
        rw [(hring r' hr).1] at hin
        cases hin
      | false =>
        have : (s.jobs k).ringIdx = none := (h.own.fit k hk).plain hs
        rw [show (s.jobs k).claim.ringIdx = none from this] at he
        cases he
  refine ⟨hown, ?_, h.disk, fun fd hfd => ⟨(h.stray fd hfd).1, ?_⟩, fun r hr => ?_, ?_,
    fun k hk => ?_,
    fun f hf => ⟨Nat.lt_succ_of_lt (h.feeds f hf).1, ?_⟩, ?_⟩
  · show Writer.bumpId s.nextId = handleOf (s.created + 1)
    rw [h.next, bumpId_handleOf]
  · refine hlive (P := fun _ y => y.file ≠ some fd) ?_ (h.stray fd hfd).2
    rw [show j'.file = none from hj.file]
    nofun
  · by_cases he : j.ringIdx = some r
    · have hyes : (rings r).inUse = false := hr
      rw [(hring r he).2.1] at hyes
      cases hyes
    · have hno : (rings r).inUse = false := hr
      show (rings r).data = []
      rw [hrings r he] at hno ⊢
      exact h.free r hno
  · refine hlive (P := fun k y => y.servicing = true ↔ s.phase.slot = some k) ?_ h.serv
    rw [show j'.servicing = false from hj.servicing]
    exact iff_of_false Bool.false_ne_true hslot
  · have hki : k ≠ i := fun he => hslot (he ▸ hk)
    show ((Function.update s.jobs i j') k).id ≠ 0
    rw [hother k hki]
    exact h.busy k hk
  · refine hlive (P := fun _ y => y.serial = f.serial → y.streaming = true ∧
      y.ringIdx = some f.ring) (fun he => ?_) (h.feeds f hf).2
    exact absurd he (h.feeds f hf).1.ne'
  · refine hlive (P := fun k y => Good y (Writer.ringData y { s with rings }) (s.trace y)
      (s.view k)) ?_
      fun k hk => ?_
    · have hdata : Writer.ringData j' { s with rings } = [] := by
        unfold Writer.ringData
        split
        next => rfl
        next r hr =>
          show (rings r).data = []
          rw [(hring r hr).2.2]
          exact h.free r (hring r hr).1
      have hview : s.view i = .parked := if_neg hslot
      rw [hdata, hview]
      refine ⟨fun n hn => ?_, fun he => ?_, fun f hf => ?_, hj.reaps, fun hd => ?_,
        fun _ _ _ _ => ?_⟩
      · exact absurd (hj.finishAt.symm.trans hn) nofun
      · exact absurd (hj.ending.symm.trans he) nofun
      · exact absurd (hj.fd.symm.trans hf) nofun
      · exact absurd (hj.doneFlag.symm.trans hd) nofun
      · exact .inl ⟨hj.fd, hj.file, hj.fed, rfl⟩
    · have hring : Writer.ringData (s.jobs k) { s with rings } = s.ringData (s.jobs k) := by
        unfold Writer.ringData
        split
        next => rfl
        next r hr =>
          cases hs : (s.jobs k).streaming with
          | true =>
            obtain ⟨r', hr', hin⟩ := (h.own.fit k hk).ring hs
            obtain rfl := Option.some.inj (hr'.symm.trans hr)
            exact congrArg Ring.data (huse r' hin)
          | false =>
            have : (s.jobs k).ringIdx = none := (h.own.fit k hk).plain hs
            rw [this] at hr
            cases hr
      rw [hring]
      exact h.holds k hk

lemma findFree_spec (h : s.findFree = some i) : (s.jobs i).id = 0 := by
  unfold Writer.findFree at h
  have hdec := List.find?_some h
  exact of_decide_eq_true hdec

lemma Inv.write {up alloc path data op seekBack priority done} (h : Inv s) :
    Inv (s.write up alloc path data op seekBack priority done).2 := by
  unfold Writer.write
  split
  next => exact h
  next =>
    dsimp only
    split
    next => exact h
    next =>
      split
      next => exact h
      next i hf =>
        have hadd := h.add s.rings (findFree_spec hf)
          (j := { priority, path, op, seekBack, inbuf := data, ownsBuf := !done, done })
          ⟨rfl, rfl, rfl, rfl, rfl, rfl, rfl, nofun⟩ nofun (fun _ => rfl) fun _ _ => rfl
        dsimp only
        split
        next => exact hadd.counters _ _ _ _
        next => exact hadd

/-- The ring that is claimed was free, and is empty. -/
lemma claimRing_spec {rings : Fin MAX_STREAMS → Ring} {size : Option Nat}
    {rs : List (Fin MAX_STREAMS)} {ring : Ring}
    (h : Writer.claimRing rings size rs = some (r, ring)) : (rings r).inUse = false ∧
    ring.inUse = true ∧ ring.data = (rings r).data := by
  induction rs with
  | nil => cases h
  | cons r' rs ih =>
    unfold Writer.claimRing at h
    split at h
    next => exact ih h
    next hu =>
      split at h
      next =>
        cases h
        exact ⟨Bool.eq_false_iff.mpr hu, rfl, rfl⟩
      next =>
        obtain ⟨n, -, hn⟩ := Option.map_eq_some_iff.mp h
        cases hn
        exact ⟨Bool.eq_false_iff.mpr hu, rfl, rfl⟩

lemma Inv.openJob {up size path op seekBack priority wantSha keep now} (h : Inv s) :
    Inv (s.openJob up size path op seekBack priority wantSha keep now).2 := by
  unfold Writer.openJob
  split
  next => exact h
  next =>
    split
    next i r ring hf hc =>
      obtain ⟨hno, hyes, hdata⟩ := claimRing_spec hc
      have hadd := h.add (Function.update s.rings r ring) (findFree_spec hf)
        (j := { priority, path, op, seekBack, streaming := true, ringIdx := some r,
                lastActiveMs := now, wantSha, callerReaps := keep })
        ⟨rfl, rfl, rfl, rfl, rfl, rfl, rfl, fun _ => rfl⟩
        (fun _ => ⟨r, rfl, hno, by rw [Function.update_self]; exact ⟨hyes, hdata⟩⟩) nofun
        fun r' hr => Function.update_of_ne (fun he => hr (congrArg some he.symm)) _ _
      exact hadd.counters s.rrClock s.inlineBytes (s.issued ++ [s.nextId]) s.accepted
    next => exact h

lemma Good.feed {data ms ph} (sent : Bytes) (h : Good j data ms ph) :
    Good { j with fed := j.fed ++ sent } (data ++ sent) ms ph := by
  refine ⟨fun n hn => ?_, h.ending, h.fd, h.reaps, fun hd => ?_, fun hst hd he ha => ?_⟩
  · dsimp only
    rw [List.length_append]
    exact Nat.le_add_right_of_le (h.fin n hn)
  · obtain ⟨hst, hph, hcl⟩ := h.done hd
    refine ⟨hst, hph, fun he => ?_⟩
    obtain ⟨ws, n, h1, h2, h3, h4⟩ := hcl he
    refine ⟨ws, n, h1, h2, h3, ?_⟩
    dsimp only
    rw [h4, List.append_assoc]
  · rcases h.way hst hd he ha with ⟨h1, h2, h3, h4⟩ | ⟨f, ws, h1, h2, h3, h4, h5⟩
    · exact .inl ⟨h1, h2, congrArg (· ++ sent) h3, h4⟩
    · refine .inr ⟨f, ws, h1, h2, ?_, h4, h5⟩
      dsimp only
      rw [h3, List.append_assoc]

lemma ringData_some (hr : j.ringIdx = some r) : s.ringData j = (s.rings r).data := by
  unfold Writer.ringData
  rw [hr]

/-- The bytes go into the ring of the job that the call has found. -/
lemma Inv.sent {a n : Nat} {f : Feed} (h : Inv s) (hf : f ∈ s.feeds) (hi : (s.jobs i).id ≠ 0)
    (hser : (s.jobs i).serial = f.serial) : Inv (s.sent a n f) := by
  obtain ⟨-, hring⟩ := (h.feeds f hf).2 i hi hser
  have hjob : (s.sent a n f).jobs i = { s.jobs i with fed := (s.jobs i).fed ++ f.rest.take n } :=
    if_pos ⟨hi, hser⟩
  have hother : ∀ k ≠ i, (s.sent a n f).jobs k = s.jobs k := fun k hk =>
    if_neg fun he => (h.own.apart k i hk he.1 hi).serial (he.2.trans hser.symm)
  have hdata : ((s.sent a n f).rings f.ring).data = (s.rings f.ring).data ++ f.rest.take n := by
    dsimp only [Writer.sent, Writer.setRing]
    rw [Function.update_self]
  refine h.slot hi hother ?_ (.inl rfl) (fun r => ?_) (fun r hr => ?_)
    (List.append_nil _).symm nofun ⟨rfl, rfl, rfl, rfl⟩ (fun g hg => ?_) (.inl rfl) ?_ ?_
  · rw [hjob]
    rfl
  · dsimp only [Writer.sent, Writer.setRing]
    by_cases hr : r = f.ring
    · rw [hr, Function.update_self]
    · rw [Function.update_of_ne hr]
  · have hne : r ≠ f.ring := fun he => hr (by rw [he, hring])
    dsimp only [Writer.sent, Writer.setRing]
    rw [Function.update_of_ne hne]
  · dsimp only [Writer.sent] at hg
    split at hg
    next => exact ⟨g, List.mem_of_mem_eraseIdx hg, rfl, rfl⟩
    next =>
      rcases List.mem_or_eq_of_mem_set hg with hg | rfl
      · exact ⟨g, hg, rfl, rfl⟩
      · exact ⟨f, hf, rfl, rfl⟩
  · rw [hjob]
    exact h.serv i hi
  · have hg := (h.holds i hi).feed (f.rest.take n)
    rw [ringData_some hring] at hg
    unfold Writer.Holds
    rw [hjob, ringData_some (by exact hring), hdata]
    exact hg

lemma Inv.send {a n : Nat} (h : Inv s) (hok : InTable s (.send a n)) : Inv (s.send a n) := by
  unfold Writer.send
  split
  next => exact h
  next f hf =>
    dsimp only
    split
    next =>
      obtain ⟨i, hi, hser⟩ := hok f hf
      exact h.sent (List.mem_of_getElem? hf) hi hser
    next => exact h

/-! ### The task -/

/-- The job that the task is with. -/
lemma Inv.at_slot (h : Inv s) (hs : s.phase.slot = some i) :
    (s.jobs i).id ≠ 0 ∧ (s.jobs i).servicing = true ∧ s.view i = s.phase ∧
      (s.jobs i).doneFlag = false := by
  have hi := h.busy i hs
  have hview : s.view i = s.phase := if_pos hs
  refine ⟨hi, (h.serv i hi).mpr hs, hview, ?_⟩
  cases hd : (s.jobs i).doneFlag with
  | false => rfl
  | true =>
    have hph := ((h.holds i hi).done hd).2.1
    rw [hview] at hph
    rw [hph] at hs
    cases hs

lemma best_ready {l : List (Fin MAX_JOBS)} {b : Option (Fin MAX_JOBS)}
    (hb : ∀ i, b = some i → s.ready (s.jobs i) = true)
    (h : l.foldl (fun best i =>
      if !s.ready (s.jobs i) then best
      else
        match best with
        | none => some i
        | some b => if Writer.before (s.jobs i) (s.jobs b) then some i else some b) b = some i) :
    s.ready (s.jobs i) = true := by
  induction l generalizing b with
  | nil => exact hb i h
  | cons k l ih =>
    rw [List.foldl_cons] at h
    refine ih (fun i' hi' => ?_) h
    split at hi'
    next => exact hb i' hi'
    next hr =>
      have hr : s.ready (s.jobs k) = true := by simpa using hr
      split at hi'
      next => exact Option.some.inj hi' ▸ hr
      next b' =>
        split at hi'
        next => exact Option.some.inj hi' ▸ hr
        next => exact hb i' hi'

/-- The job that is picked is live, and has not come to its end. -/
lemma best_spec (h : s.best = some i) : (s.jobs i).id ≠ 0 ∧ (s.jobs i).doneFlag = false := by
  have hr : s.ready (s.jobs i) = true := best_ready (fun _ he => by cases he) h
  unfold Writer.ready at hr
  split at hr
  next => cases hr
  next hn =>
    obtain ⟨h1, h2⟩ := not_or.mp hn
    exact ⟨h1, Bool.eq_false_iff.mpr h2⟩

lemma Inv.abandon {now : Nat} (h : Inv s) : Inv (s.abandon now) := by
  have hj : ∀ k, ((s.abandon now).jobs k).claim = (s.jobs k).claim ∧
      ((s.abandon now).jobs k).servicing = (s.jobs k).servicing ∧
      ∀ data ms ph, Good (s.jobs k) data ms ph → Good ((s.abandon now).jobs k) data ms ph :=
      fun k => by
    dsimp only [Writer.abandon]
    split
    next =>
      refine ⟨rfl, rfl, fun data ms ph hg => ?_⟩
      exact ⟨hg.fin, hg.ending, hg.fd, hg.reaps, hg.done, fun _ _ _ => nofun⟩
    next => exact ⟨rfl, rfl, fun _ _ _ => id⟩
  have hid : ∀ k, ((s.abandon now).jobs k).id = (s.jobs k).id := fun k => congrArg Claim.id (hj k).1
  have hfile : ∀ k, ((s.abandon now).jobs k).file = (s.jobs k).file := fun k =>
    congrArg Claim.file (hj k).1
  refine ⟨?_, h.next, h.disk, fun fd hfd => ⟨(h.stray fd hfd).1, fun k hk => ?_⟩, h.free,
    fun k hk => ?_,
    fun k hk => ?_, fun f hf => ⟨(h.feeds f hf).1, fun k hk he => ?_⟩, fun k hk => ?_⟩
  · rw [show (fun k => ((s.abandon now).jobs k).claim) = fun k => (s.jobs k).claim from
      funext fun k => (hj k).1]
    exact h.own
  · rw [hid] at hk
    rw [hfile]
    exact (h.stray fd hfd).2 k hk
  · rw [hid] at hk
    rw [(hj k).2.1]
    exact h.serv k hk
  · rw [hid]
    exact h.busy k hk
  · rw [hid] at hk
    rw [show ((s.abandon now).jobs k).serial = (s.jobs k).serial from congrArg Claim.serial
      (hj k).1] at he
    obtain ⟨h1, h2⟩ := (h.feeds f hf).2 k hk he
    exact ⟨(congrArg Claim.streaming (hj k).1).trans h1, (congrArg Claim.ringIdx (hj k).1).trans h2⟩
  · rw [hid] at hk
    have hg := (hj k).2.2 _ _ _ (h.holds k hk)
    have hring : (s.abandon now).ringData ((s.abandon now).jobs k) = s.ringData (s.jobs k) :=
      claim_ringData (s := s) (hj k).1
    have htrace : (s.abandon now).trace ((s.abandon now).jobs k) = s.trace (s.jobs k) := by
      unfold Writer.trace
      rw [hfile]
      rfl
    unfold Writer.Holds
    rw [hring, htrace]
    exact hg

lemma Inv.pick {now : Nat} (h : Inv s) : Inv (s.pick now) := by
  unfold Writer.pick
  split
  next hp =>
    have h' : Inv (s.abandon now) := h.abandon
    have hp' : (s.abandon now).phase = .parked := hp
    dsimp only
    split
    next => exact h'
    next i hb =>
      obtain ⟨hi, hd⟩ := best_spec hb
      have hg := h'.holds i hi
      have hview : (s.abandon now).view i = .parked := by
        unfold Writer.view
        rw [hp']
        exact if_neg nofun
      let j' : Job :=
        { (s.abandon now).jobs i with servicing := true, rrTick := (s.rrClock + 1) % 2 ^ 32 }
      have hset := h'.set_quiet j' (.picked i) hi rfl ?_ (iff_of_true rfl rfl) ?_
      · exact hset.counters _ _ _ _
      · exact .inr fun k hk => ⟨by rw [hp']; nofun, fun he => hk (Option.some.inj he).symm⟩
      · rw [if_pos (show (Phase.picked i).slot = some i from rfl)]
        unfold Writer.Holds at hg
        rw [hview] at hg
        refine ⟨hg.fin, hg.ending, hg.fd, hg.reaps, fun hd' => ?_, fun hst hd' he ha => ?_⟩
        · exact absurd (hd.symm.trans hd') Bool.false_ne_true
        · rcases hg.way hst hd' he ha with ⟨h1, h2, h3, -⟩ | ⟨f, ws, h1, h2, h3, h4, h5⟩
          · exact .inl ⟨h1, h2, h3, rfl⟩
          · exact .inr ⟨f, ws, h1, h2, h3, fun _ => h4 rfl, nofun⟩
  next => exact h

/-- The job that the task is with, and where it is with it. -/
lemma Inv.at_phase {ph : Phase} (h : Inv s) (hp : s.phase = ph) (hs : ph.slot = some i) :
    (s.jobs i).id ≠ 0 ∧ (s.jobs i).doneFlag = false ∧
      Good (s.jobs i) (s.ringData (s.jobs i)) (s.trace (s.jobs i)) ph := by
  obtain ⟨hi, -, hview, hd⟩ := h.at_slot (by rw [hp]; exact hs)
  have hg := h.holds i hi
  unfold Writer.Holds at hg
  rw [hview, hp] at hg
  exact ⟨hi, hd, hg⟩

/-- The task goes on with a job that has not come to its end. -/
lemma Good.turn {data data' ms ms' ph} (ph' : Phase) (h : Good j data ms ph)
    (hd : j.doneFlag = false) (hw : UnderWay j data ms ph → UnderWay j data' ms' ph') :
    Good j data' ms' ph' :=
  ⟨h.fin, h.ending, h.fd, h.reaps, fun hd' => absurd (hd.symm.trans hd') Bool.false_ne_true,
    fun hst _ he ha => hw (h.way hst hd he ha)⟩

/-- A step of the task for the job that it is with. -/
lemma Inv.work {ph : Phase} (j' : Job) (ph' : Phase) (ms : List (Nat × Mark)) (h : Inv s)
    (hp : s.phase = ph) (hs : ph.slot = some i) (hs' : ph'.slot = some i)
    (hclaim : j'.claim = (s.jobs i).claim) (hserv : j'.servicing = (s.jobs i).servicing)
    (hms : ∀ x ∈ ms, (s.jobs i).file = some x.1)
    (hgood : Good j' (s.ringData (s.jobs i)) (s.trace (s.jobs i) ++ ms.map (·.2)) ph') :
    Inv { s.setJob i j' with phase := ph', disk := s.disk ++ ms } := by
  have hslot : s.phase.slot = some i := by rw [hp]; exact hs
  obtain ⟨hi, hsv, -, -⟩ := h.at_slot hslot
  refine h.set j' ph' ms hi hclaim hms (slot_other hslot (.inl hs')) ?_ ?_
  · exact iff_of_true (hserv.trans hsv) hs'
  · rw [if_pos hs']
    exact hgood

/-- A step of the task that does nothing to the files. -/
lemma Inv.work_quiet {ph : Phase} (j' : Job) (ph' : Phase) (h : Inv s)
    (hp : s.phase = ph) (hs : ph.slot = some i) (hs' : ph'.slot = some i)
    (hclaim : j'.claim = (s.jobs i).claim) (hserv : j'.servicing = (s.jobs i).servicing)
    (hgood : Good j' (s.ringData (s.jobs i)) (s.trace (s.jobs i)) ph') :
    Inv { s.setJob i j' with phase := ph' } := by
  have hw := h.work j' ph' [] hp hs hs' hclaim hserv nofun
    (by rw [List.map_nil, List.append_nil]; exact hgood)
  rw [List.append_nil] at hw
  exact hw

/-- The task only goes on. -/
lemma Inv.move {ph : Phase} (ph' : Phase) (h : Inv s) (hp : s.phase = ph) (hs : ph.slot = some i)
    (hs' : ph'.slot = some i)
    (hw : UnderWay (s.jobs i) (s.ringData (s.jobs i)) (s.trace (s.jobs i)) ph →
      UnderWay (s.jobs i) (s.ringData (s.jobs i)) (s.trace (s.jobs i)) ph') :
    Inv { s with phase := ph' } := by
  obtain ⟨-, hd, hg⟩ := h.at_phase hp hs
  have hm := h.work_quiet (s.jobs i) ph' hp hs hs' rfl rfl (hg.turn _ hd hw)
  rw [setJob_self] at hm
  exact hm

/-- The task gives a job up with an error. -/
lemma Inv.failed {ph : Phase} (h : Inv s) (hp : s.phase = ph) (hs : ph.slot = some i) :
    Inv { s.setJob i { s.jobs i with error := true } with phase := .ended i } := by
  obtain ⟨-, hd, hg⟩ := h.at_phase hp hs
  refine h.work_quiet _ (.ended i) hp hs rfl rfl rfl
    ⟨hg.fin, hg.ending, hg.fd, hg.reaps, fun hd' => ?_, nofun⟩
  exact absurd (hd.symm.trans hd') Bool.false_ne_true

/-- The file of a stream under way is open. -/
lemma UnderWay.late {data ms ph} (h : UnderWay j data ms ph) (hp : ph.early = false) :
    ∃ f ws, j.file = some f ∧ ms = chunks j.path j.op j.seekBack ws ++ ph.tail ∧
      j.fed = ws.flatten ++ ph.held ++ data ∧ (ph.shut = false → j.fd = some f) ∧
        (ph.past = true → ∃ n, j.finishAt = some n ∧ n ≤ ws.flatten.length) :=
  h.resolve_left fun hw => Bool.false_ne_true (hp.symm.trans hw.2.2.2)

/-- Nothing is written between two phases before the end. -/
lemma UnderWay.onward {data ms ph ph'} (h : UnderWay j data ms ph) (hp : ph.early = false)
    (htail : ph'.tail = ph.tail) (hheld : ph'.held = ph.held) (hshut : ph.shut = false)
    (hpast : ph'.past = false) : UnderWay j data ms ph' := by
  obtain ⟨f, ws, h1, h2, h3, h4, -⟩ := h.late hp
  refine .inr ⟨f, ws, h1, ?_, ?_, fun _ => h4 hshut, fun hy => ?_⟩
  · rw [htail]
    exact h2
  · rw [hheld]
    exact h3
  · rw [hpast] at hy
    cases hy

lemma Inv.look (h : Inv s) : Inv s.look := by
  unfold Writer.look
  split
  next i hp =>
    dsimp only
    split
    next => exact h.move _ hp rfl rfl fun hw => hw.onward rfl rfl rfl rfl rfl
    next => exact h.move _ hp rfl rfl fun hw => hw.onward rfl rfl rfl rfl rfl
  next => exact h

lemma Inv.check (h : Inv s) : Inv s.check := by
  unfold Writer.check
  split
  next i hp =>
    obtain ⟨-, hd, hg⟩ := h.at_phase hp (i := i) rfl
    dsimp only
    generalize hdone : (if (s.jobs i).streaming = true then
      (s.jobs i).ending && (s.ringData (s.jobs i)).isEmpty
      else decide ((s.jobs i).inoff ≥ (s.jobs i).inbuf.length)) = done
    cases done with
    | false => exact h.move _ hp rfl rfl fun hw => hw.onward rfl rfl rfl rfl rfl
    | true =>
      have hgood : Good (s.jobs i) (s.ringData (s.jobs i)) (s.trace (s.jobs i))
        (.finalizing i) := by
        refine ⟨hg.fin, hg.ending, hg.fd, hg.reaps, fun hd' => ?_, fun hst _ he ha => ?_⟩
        · exact absurd (hd.symm.trans hd') Bool.false_ne_true
        rw [if_pos hst, Bool.and_eq_true, List.isEmpty_iff] at hdone
        obtain ⟨n, hn⟩ := hg.ending hdone.1
        obtain ⟨f, ws, h1, h2, h3, h4, -⟩ := (hg.way hst hd he ha).late rfl
        refine .inr ⟨f, ws, h1, h2, h3, fun _ => h4 rfl, fun _ => ⟨n, hn, ?_⟩⟩
        -- the ring is empty, so all that was fed has been written
        have hle := hg.fin n hn
        rw [h3, hdone.2] at hle
        simpa [Phase.held] using hle
      have hm := h.work_quiet (s.jobs i) (.finalizing i) hp rfl rfl rfl rfl hgood
      rw [setJob_self] at hm
      exact hm
  next => exact h

/-- What is done to the file of a job. -/
lemma log_file (h : ∀ f, j.fd = some f → j.file = some f) (m : Mark) :
    ∀ x ∈ j.fd.toList.map fun fd => (fd, m), j.file = some x.1 := fun x hx => by
  obtain ⟨fd, hfd, rfl⟩ := List.mem_map.mp hx
  exact h fd (Option.mem_toList.mp hfd)

lemma log_marks {f : Nat} (h : j.fd = some f) (m : Mark) :
    (j.fd.toList.map fun fd => (fd, m)).map (·.2) = [m] := by
  rw [h]
  rfl

/-- Some bytes of the chunk are written. -/
lemma UnderWay.chunk {data ms src off ph'} {bytes : Bytes}
    (h : UnderWay j data ms (.writing i src off)) (hrest : bytes ++ ph'.held = src.drop off)
    (htail : ph'.tail = []) (hpast : ph'.past = false) :
    UnderWay j data (ms ++ (j.fd.toList.map fun fd => (fd, Mark.wrote bytes)).map (·.2)) ph' := by
  obtain ⟨f, ws, h1, h2, h3, h4, -⟩ := h.late rfl
  have hfd := h4 rfl
  refine .inr ⟨f, ws ++ [bytes], h1, ?_, ?_, fun _ => hfd, fun hy => ?_⟩
  · rw [log_marks hfd, h2, htail]
    simp [chunks, Phase.tail]
  · rw [h3]
    simp only [Phase.held, ← hrest, List.flatten_append, List.flatten_singleton, List.append_assoc]
  · rw [hpast] at hy
    cases hy

/-- What was written, and what is left of the chunk. -/
lemma take_rest (bytes : Bytes) (n off : Nat) : (bytes.drop off).take n ++
    bytes.drop (off + ((bytes.drop off).take n).length) = bytes.drop off := by
  rw [← List.drop_drop]
  exact List.prefix_iff_eq_append.mp (List.take_prefix n _)

lemma Inv.put {n : Nat} (h : Inv s) : Inv (s.put n) := by
  unfold Writer.put
  split
  next i src off hp =>
    obtain ⟨-, hd, hg⟩ := h.at_phase hp (i := i) rfl
    dsimp only
    split
    next => exact h.failed hp rfl
    next =>
      have hms := log_file hg.fd (.wrote ((src.drop off).take n))
      have hrest := take_rest src n off
      split
      next =>
        have hm := h.work (s.jobs i)
          (.writing i src (off + ((src.drop off).take n).length)) _ hp rfl
          rfl rfl rfl hms (hg.turn _ hd fun hw => hw.chunk hrest rfl rfl)
        rw [setJob_self] at hm
        exact hm
      next hlen =>
        rw [List.drop_eq_nil_of_le (Nat.le_of_not_lt hlen)] at hrest
        have hgood := hg.turn (.wrote i) hd fun hw => hw.chunk hrest rfl rfl
        exact h.work _ (.wrote i) _ hp rfl rfl rfl rfl hms
          ⟨hgood.fin, hgood.ending, hgood.fd, hgood.reaps, hgood.done, hgood.way⟩
  next => exact h

/-- A file that belongs to no job. -/
lemma Inv.newFile (h : Inv s) (ms : List Mark) :
    Inv { s with disk := s.disk ++ ms.map fun m => (s.files, m), files := s.files + 1 } := by
  have hno : ∀ i, (s.jobs i).id ≠ 0 → (s.jobs i).file ≠ some s.files := fun i hi he =>
    lt_irrefl _ ((h.own.fit i hi).file _ he)
  refine { own := ⟨fun i hi => ?_, h.own.apart⟩, next := h.next, disk := fun x hx => ?_,
           stray := fun fd hfd => ?_, free := h.free, serv := h.serv, busy := h.busy,
             feeds := h.feeds
           holds := fun i hi => ?_ }
  · exact (h.own.fit i hi).mono (fun _ _ => id) le_rfl (Nat.le_succ _)
  · rcases List.mem_append.mp hx with hx | hx
    · exact Nat.lt_succ_of_lt (h.disk x hx)
    · obtain ⟨m, -, rfl⟩ := List.mem_map.mp hx
      exact Nat.lt_succ_self _
  · exact ⟨Nat.lt_succ_of_lt (h.stray fd hfd).1, (h.stray fd hfd).2⟩
  · let s₁ : Writer := { s with
      disk := s.disk ++ ms.map fun m => (s.files, m), files := s.files + 1 }
    have htrace : s₁.trace (s.jobs i) = s.trace (s.jobs i) := trace_append rfl fun x hx he => by
      obtain ⟨m, -, rfl⟩ := List.mem_map.mp hx
      exact hno i hi he
    change Good (s.jobs i) (s.ringData (s.jobs i)) (s₁.trace (s.jobs i)) (s.view i)
    rw [htrace]
    exact h.holds i hi

/-- A file that is opened has no marks before. -/
lemma marks_new {l : List (Nat × Mark)} (h : ∀ x ∈ l, x.1 < n) (m : Mark) :
    marks n (l ++ [(n, m)]) = [m] := by
  have hnil : marks n ([] ++ l) = marks n [] := marks_other fun x hx => (h x hx).ne
  rw [List.nil_append] at hnil
  rw [marks_snoc, if_pos rfl, hnil]
  rfl

/-- A file that has just been opened is given to the job. -/
lemma Inv.assign {f : Nat} (h : Inv s) (hp : s.phase = .picked i) (hnone : (s.jobs i).fd = none)
    (hlt : f < s.files) (hpend : f ∉ s.pendingClose)
    (hno : ∀ k, (s.jobs k).id ≠ 0 → (s.jobs k).file ≠ some f)
    (hms : marks f s.disk = [.opened (s.jobs i).path (s.jobs i).op (s.jobs i).seekBack]) :
    Inv { s.setJob i { s.jobs i with fd := some f, file := some f } with phase := .opened i } := by
  obtain ⟨hi, hd, hg⟩ := h.at_phase hp (i := i) rfl
  have hslot : s.phase.slot = some i := by rw [hp]; rfl
  let j' : Job := { s.jobs i with fd := some f, file := some f }
  let s₁ : Writer := { s.setJob i j' with phase := .opened i }
  have hself : s₁.jobs i = j' := Function.update_self ..
  change Inv s₁
  refine h.slot hi (fun k hk => Function.update_of_ne hk _ _) ?_
    (.inr ⟨f, rfl, hlt, hpend, hno⟩) (fun _ => rfl) (fun _ _ => rfl) (List.append_nil _).symm nofun
    ⟨rfl, rfl, rfl, rfl⟩ (fun g hg => ⟨g, hg, rfl, rfl⟩) (slot_other hslot (.inl rfl)) ?_ ?_
  · rw [hself]
    rfl
  · rw [hself]
    exact iff_of_true (h.at_slot hslot).2.1 rfl
  · have hview : s₁.view i = .opened i := if_pos rfl
    unfold Writer.Holds
    rw [hself, hview]
    refine ⟨hg.fin, hg.ending, fun _ => id, hg.reaps, fun hd' => ?_, fun hst _ he ha => ?_⟩
    · exact absurd (hd.symm.trans hd') Bool.false_ne_true
    · rcases hg.way hst hd he ha with ⟨-, -, hfed, -⟩ | ⟨g, ws, -, -, -, hfd, -⟩
      · exact .inr ⟨f, [], rfl, hms, hfed, fun _ => rfl, nofun⟩
      · exact absurd (hnone.symm.trans (hfd rfl)) nofun

lemma Inv.start {opened seeked : Bool} (h : Inv s) : Inv (s.start opened seeked) := by
  unfold Writer.start
  split
  next i hp =>
    obtain ⟨hi, hd, hg⟩ := h.at_phase hp (i := i) rfl
    dsimp only
    split
    next ha =>
      have hm := h.work_quiet (s.jobs i) (.ended i) hp rfl rfl rfl rfl
        ⟨hg.fin, hg.ending, hg.fd, hg.reaps,
        fun hd' => absurd (hd.symm.trans hd') Bool.false_ne_true,
          fun _ _ _ hn => absurd (hn.symm.trans ha) Bool.false_ne_true⟩
      rw [setJob_self] at hm
      exact hm
    next =>
      split
      next f hf =>
        refine h.move (.opened i) hp rfl rfl fun hw => ?_
        rcases hw with ⟨hnone, -⟩ | ⟨g, ws, h1, h2, h3, h4, -⟩
        · exact absurd (hf.symm.trans hnone) nofun
        · exact .inr ⟨g, ws, h1, h2, h3, h4, nofun⟩
      next hf =>
        split
        next => exact h.failed hp rfl
        next =>
          split
          next =>
            have hf := (h.newFile
              [.opened (s.jobs i).path (s.jobs i).op (s.jobs i).seekBack, .closed]).failed hp rfl
            dsimp only [Writer.log, Option.toList, List.map]
            rw [List.append_assoc]
            exact hf
          next =>
            have hn := h.newFile [.opened (s.jobs i).path (s.jobs i).op (s.jobs i).seekBack]
            exact hn.assign (f := s.files) hp hf (Nat.lt_succ_self _)
              (fun hx => lt_irrefl _ (h.stray _ hx).1)
              (fun k hk he => lt_irrefl _ ((h.own.fit k hk).file _ he))
              (marks_new h.disk _)
  next => exact h

/-- A chunk is taken out of the ring of the job. -/
lemma Inv.drawn {now : Nat} (h : Inv s) (hp : s.phase = .opened i)
    (hr : (s.jobs i).ringIdx = some r) :
    Inv { (s.setRing r ((s.rings r).data.drop SCRATCH)).setJob i { s.jobs i with
      lastActiveMs := now } with
      phase := .writing i ((s.rings r).data.take SCRATCH) 0 } := by
  obtain ⟨hi, hd, hg⟩ := h.at_phase hp (i := i) rfl
  have hslot : s.phase.slot = some i := by rw [hp]; rfl
  let ph : Phase := .writing i ((s.rings r).data.take SCRATCH) 0
  let s₁ : Writer := { (s.setRing r ((s.rings r).data.drop SCRATCH)).setJob i
    { s.jobs i with lastActiveMs := now } with phase := ph }
  have hself : s₁.jobs i = { s.jobs i with lastActiveMs := now } := Function.update_self ..
  have hring : s₁.rings r = { s.rings r with data := (s.rings r).data.drop SCRATCH } :=
    Function.update_self ..
  have hother : ∀ r', r' ≠ r → s₁.rings r' = s.rings r' :=
    fun r' hr' => Function.update_of_ne hr' _ _
  change Inv s₁
  refine h.slot hi (fun k hk => Function.update_of_ne hk _ _) ?_ (.inl rfl) (fun r' => ?_)
    (fun r' hr' => ?_) (List.append_nil _).symm nofun ⟨rfl, rfl, rfl, rfl⟩
    (fun g hg => ⟨g, hg, rfl, rfl⟩) (slot_other hslot (.inl rfl)) ?_ ?_
  · rw [hself]
    rfl
  · by_cases hr' : r' = r
    · rw [hr', hring]
    · rw [hother r' hr']
  · rw [hother r' fun he => hr' (by rw [he]; exact hr)]
  · rw [hself]
    exact iff_of_true (h.at_slot hslot).2.1 rfl
  · have hview : s₁.view i = ph := if_pos rfl
    have hdata : s₁.ringData (s₁.jobs i) = (s.rings r).data.drop SCRATCH := by
      rw [hself, ringData_some (j := { s.jobs i with lastActiveMs := now }) hr, hring]
    have hgood : Good (s.jobs i) ((s.rings r).data.drop SCRATCH) (s.trace (s.jobs i)) ph := by
      refine hg.turn _ hd fun hw => ?_
      obtain ⟨f, ws, h1, h2, h3, h4, -⟩ := hw.late rfl
      refine .inr ⟨f, ws, h1, h2, ?_, fun _ => h4 rfl, nofun⟩
      rw [h3, ringData_some hr]
      simp [Phase.held, ph, List.take_append_drop]
    unfold Writer.Holds
    rw [hdata, hself, hview]
    exact ⟨hgood.fin, hgood.ending, hgood.fd, hgood.reaps, hgood.done, hgood.way⟩

lemma Inv.receive {now : Nat} (h : Inv s) : Inv (s.receive now) := by
  unfold Writer.receive
  split
  next i hp =>
    obtain ⟨hi, hd, hg⟩ := h.at_phase hp (i := i) rfl
    dsimp only
    split
    next r hst hr =>
      split
      next => exact h.move _ hp rfl rfl fun hw => hw.onward rfl rfl rfl rfl rfl
      next => exact h.drawn hp hr
    next => exact h.move _ hp rfl rfl fun hw => hw.onward rfl rfl rfl rfl rfl
    next hst =>
      -- a job that has its bytes from the start owes the ring nothing
      have hm : ∀ ph : Phase, ph.slot = some i → Inv { s with phase := ph } := fun ph hs => by
        have hw := h.work_quiet (s.jobs i) ph hp rfl hs rfl rfl
          ⟨hg.fin, hg.ending, hg.fd, hg.reaps,
          fun hd' => absurd (hd.symm.trans hd') Bool.false_ne_true,
            fun hs' => absurd (hst.symm.trans hs') Bool.false_ne_true⟩
        rw [setJob_self] at hw
        exact hw
      refine hm _ ?_
      split
      next => rfl
      next => rfl
  next => exact h

lemma Inv.sync {ok : Bool} (h : Inv s) : Inv (s.sync ok) := by
  unfold Writer.sync
  split
  next i hp =>
    obtain ⟨hi, hd, hg⟩ := h.at_phase hp (i := i) rfl
    dsimp only
    split
    next =>
      have hgood : Good (s.jobs i) (s.ringData (s.jobs i)) (s.trace (s.jobs i) ++
          ((s.jobs i).fd.toList.map fun fd => (fd, Mark.synced)).map (·.2)) (.ended i) := by
        refine hg.turn _ hd fun hw => ?_
        obtain ⟨f, ws, h1, h2, h3, h4, h5⟩ := hw.late rfl
        refine .inr ⟨f, ws, h1, ?_, h3, fun _ => h4 rfl, fun _ => h5 rfl⟩
        rw [log_marks (h4 rfl), h2]
        simp [Phase.tail]
      exact h.work _ (.ended i) _ hp rfl rfl rfl rfl (log_file hg.fd .synced)
        ⟨hgood.fin, hgood.ending, hgood.fd, hgood.reaps, hgood.done, hgood.way⟩
    next => exact h.failed hp rfl
  next => exact h

lemma Inv.close (h : Inv s) : Inv s.close := by
  unfold Writer.close
  split
  next i hp =>
    obtain ⟨hi, hd, hg⟩ := h.at_phase hp (i := i) rfl
    refine h.work _ (.leaving i true) _ hp rfl rfl rfl rfl (log_file hg.fd .closed)
      ⟨hg.fin, hg.ending, nofun, hg.reaps, fun hd' => absurd (hd.symm.trans hd') Bool.false_ne_true,
        fun hst _ he ha => ?_⟩
    obtain ⟨f, ws, h1, h2, h3, h4, h5⟩ := (hg.way hst hd he ha).late rfl
    refine .inr ⟨f, ws, h1, ?_, h3, nofun, fun _ => h5 rfl⟩
    rw [log_marks (h4 rfl), h2]
    simp [Phase.tail]
  next => exact h

/-- The stream came to its end. -/
lemma UnderWay.closed {data ms} (h : UnderWay j data ms (.leaving i true)) : Closed j data ms := by
  obtain ⟨f, ws, -, h2, h3, -, h5⟩ := h.late rfl
  obtain ⟨n, hn, hle⟩ := h5 rfl
  refine ⟨ws, n, h2, hn, hle, ?_⟩
  rw [h3]
  simp [Phase.held]

/-- A stream whose caller reaps it stays in the table. -/
lemma Inv.settle (h : Inv s) (inlineBytes : Nat) (hp : s.phase = .leaving i true)
    (hreaps : (s.jobs i).callerReaps = true) (hno : (s.jobs i).aborting = false) :
    Inv (Writer.setJob i { s.jobs i with servicing := false, doneFlag := true }
      { s.setJob i { s.jobs i with servicing := false } with phase := .parked, inlineBytes }) := by
  obtain ⟨hi, hd, hg⟩ := h.at_phase hp (i := i) rfl
  have hslot : s.phase.slot = some i := by rw [hp]; rfl
  have hset := h.set_quiet { s.jobs i with servicing := false, doneFlag := true } .parked hi rfl
    (slot_other hslot (.inr rfl)) (iff_of_false Bool.false_ne_true nofun) ?_
  · have hcount := hset.counters s.rrClock inlineBytes s.issued s.accepted
    unfold Writer.setJob at hcount ⊢
    dsimp only at hcount ⊢
    rw [Function.update_idem]
    exact hcount
  · have hst := hg.reaps hreaps
    refine ⟨hg.fin, hg.ending, hg.fd, hg.reaps, fun _ => ⟨hst, rfl, fun he => ?_⟩, fun _ => nofun⟩
    obtain ⟨ws, n, hcl⟩ := (hg.way hst hd he hno).closed
    exact ⟨ws, n, hcl⟩

lemma Inv.commit (h : Inv s) : Inv s.commit := by
  unfold Writer.commit
  split
  next i terminal hp =>
    obtain ⟨hi, hd, hg⟩ := h.at_phase hp (i := i) rfl
    have hslot : s.phase.slot = some i := by rw [hp]; rfl
    have hph : Phase.parked = s.phase ∨ ∀ k ≠ i, s.phase.slot ≠ some k ∧
      Phase.parked.slot ≠ some k :=
      slot_other hslot (.inr rfl)
    let j' : Job := { s.jobs i with servicing := false }
    dsimp only
    cases terminal with
    | false =>
      refine h.set_quiet j' .parked hi rfl hph (iff_of_false Bool.false_ne_true nofun) ?_
      have hgood := hg.turn .parked hd fun hw => hw.onward rfl rfl rfl rfl rfl
      exact ⟨hgood.fin, hgood.ending, hgood.fd, hgood.reaps, hgood.done, hgood.way⟩
    | true =>
      -- the account of the copies may change before the job is settled or released
      have hend : ∀ t : Writer,
          (∃ inlineBytes, t = { s.setJob i j' with phase := .parked, inlineBytes }) →
          Inv (if j'.callerReaps = true ∧ (!j'.aborting) = true then
            t.setJob i { j' with doneFlag := true } else t.releaseJob i) := fun t ht => by
        obtain ⟨inlineBytes, rfl⟩ := ht
        split
        next hc => exact h.settle inlineBytes hp hc.1 (by simpa [j'] using hc.2)
        next => exact h.reap inlineBytes hi rfl hg.fd hph nofun
      refine hend _ ?_
      split
      next => exact ⟨_, rfl⟩
      next => exact ⟨_, rfl⟩
  next => exact h

lemma Inv.drain (h : Inv s) : Inv s.drain := by
  unfold Writer.drain
  split
  next fd fds hp hpend =>
    have hstray := h.stray fd (by rw [hpend]; exact List.mem_cons_self)
    refine { own := h.own, next := h.next, disk := fun x hx => ?_, stray := fun f hf => ?_,
             free := h.free
             serv := h.serv, busy := h.busy, feeds := h.feeds, holds := fun i hi => ?_ }
    · rcases List.mem_append.mp hx with hx | hx
      · exact h.disk x hx
      · rw [List.mem_singleton.mp hx]
        exact hstray.1
    · exact h.stray f (by rw [hpend]; exact List.mem_cons_of_mem _ hf)
    · let s₁ : Writer := { s.log (some fd) .closed with pendingClose := fds }
      have htrace : s₁.trace (s.jobs i) = s.trace (s.jobs i) := trace_append rfl fun x hx he => by
        rw [List.mem_singleton.mp hx] at he
        exact hstray.2 i hi he
      change Good (s.jobs i) (s.ringData (s.jobs i)) (s₁.trace (s.jobs i)) (s.view i)
      rw [htrace]
      exact h.holds i hi
  next => exact h

lemma Inv.step {e : Event} (h : Inv s) (hok : InTable s e) : Inv (s.step e) := by
  cases e with
  | write => exact h.write
  | openJob => exact h.openJob
  | feed => exact h.feed
  | send => exact h.send hok
  | timeout => exact h.timeout
  | finish => exact h.finish
  | release => exact h.release
  | pick => exact h.pick
  | start => exact h.start
  | receive => exact h.receive
  | look => exact h.look
  | put => exact h.put
  | check => exact h.check
  | sync => exact h.sync
  | close => exact h.close
  | commit => exact h.commit
  | drain => exact h.drain

instance (s : Writer) : ∀ e, Decidable (InTable s e)
  | .send k _ => decidable_of_iff
    (∀ f ∈ s.feeds[k]?, ∃ i, (s.jobs i).id ≠ 0 ∧ (s.jobs i).serial = f.serial) Iff.rfl
  | .write .. | .openJob .. | .feed .. | .timeout .. | .finish .. | .release .. | .pick .. | .start
      ..
  | .receive .. | .look | .put .. | .check | .sync .. | .close | .commit | .drain => .isTrue trivial

/-- A stream that is opened, fed, finished and drained. -/
def upload : List Event :=
  [.openJob true (some 65536) "/a" .truncate 0 16 false true 0, .feed 1 [7, 8], .send 0 2,
    .finish 1, .pick 1, .start true true, .receive 1, .put 2, .check, .sync true, .close, .commit]

/-- The bytes that were written to a file. -/
def writtenBytes (ms : List Mark) : Bytes :=
  ms.flatMap fun
    | .wrote bytes => bytes
    | _ => []

/-- No file that was synced has the bytes taken on the handle. -/
def Missing (h : Nat) (s : Writer) : Prop :=
  ∀ x ∈ s.disk, x.2 = .synced → writtenBytes (marks x.1 s.disk) ≠ s.taken h

lemma writtenBytes_chunks {path : String} {op : Op} {seekBack : Nat} {ws : List Bytes} :
    writtenBytes (chunks path op seekBack ws ++ [.synced, .closed]) = ws.flatten := by
  unfold writtenBytes chunks
  rw [List.cons_append, List.flatMap_cons, List.nil_append, List.flatMap_append]
  induction ws with
  | nil => rfl
  | cons w ws ih =>
    rw [List.map_cons, List.flatMap_cons, List.append_assoc, ih]
    rfl

lemma not_truthful {hd : Nat} (hp : s.poll hd = 1) (hm : Missing hd s) : ¬ Truthful s hd :=
  fun h => by
  obtain ⟨f, path, op, seekBack, ws, hms, hws⟩ := h hp
  have hmem : Mark.synced ∈ marks f s.disk := by
    rw [hms]
    exact List.mem_append_right _ List.mem_cons_self
  obtain ⟨x, hx, hsync⟩ := List.mem_map.mp hmem
  obtain ⟨hx, hf⟩ := List.mem_filter.mp hx
  refine hm x hx hsync ?_
  rw [of_decide_eq_true hf, hms, writtenBytes_chunks, hws]

instance {h : Nat} : Decidable (Missing h s) :=
  inferInstanceAs (Decidable (∀ x ∈ s.disk, x.2 = .synced →
    writtenBytes (marks x.1 s.disk) ≠ s.taken h))

/-- A stream that falls silent is given up and reaped. -/
def silence : List Event :=
  [.openJob true (some 65536) "/a" .truncate 0 16 false true 0, .feed 1 [7], .send 0 1,
    .pick 1, .start true true, .receive 1, .put 1, .check, .commit,
    .pick (ABANDON_MS + 1), .start true true, .close, .commit]

/-- Bytes that come between the last look at the ring and the end of the job. -/
def lateFeed : List Event :=
  [.openJob true (some 65536) "/a" .truncate 0 16 false true 0, .feed 1 [7], .send 0 1, .finish 1,
    .pick 1, .start true true, .receive 1, .put 1, .check, .feed 1 [8], .send 0 1, .sync true,
    .close,
    .commit]

/-- A call of `feed` goes on after its stream was released, and its ring is the next stream's. -/
def staleFeed : List Event :=
  [.openJob true (some 65536) "/a" .truncate 0 16 false true 0, .feed 1 [7], .release 1,
    .openJob true (some 65536) "/b" .truncate 0 16 false true 0, .send 0 1, .finish 2,
    .pick 1, .start true true, .receive 1, .put 1, .check, .sync true, .close, .commit]

end URSupreme.SdWriter
