import URSupreme.Lib.Clock
import URSupreme.LXMF.Delivery
import URSupreme.LXMF.SendQueue
import URSupreme.LXMF.StampTick

/-!
# Deadlines

Retries, attempts and queued sends wait for deadlines, and old entries are swept. Every time is
taken from `millis()`, which starts over after 2 ^ 32 ms; a deadline is the sum in 64 bits, and an
age is the difference in 64 bits. So nothing is early except a sweep, and across a start of
`millis()` the rest is late, or never comes.
-/

namespace URSupreme.Deadlines
open Lib LXMF Outbound
open SendQueue (Sender PendingIdentitySend Message)

/-- `millis()`, at a time since the boot. -/
def millis (t : Nat) : Nat := reading (2 ^ 32) t

/-- Work that waits: the ticks that look at it, and whether it still waits as it was. -/
structure Work where
  State : Type
  Env : Type
  tick : State → Nat × Env → State
  waits : State → Prop

/-- An entry of the sends over links, for `tick_retries`. -/
def linkRetry (key : Bytes) (ps : PendingLinkSend) : Work where
  State := Pending
  Env := Reopened
  tick s x := retryOne key (millis x.1) x.2 s
  waits s := lookup key s.links = some ps

/-- An entry of the single packets without a proof, for `tick_opportunistic_receipts`. -/
def oppAttempt (key : Bytes) (op : PendingOppSend) : Work where
  State := Pending
  Env := OppState
  tick s x := oppOne key (millis x.1) { x.2 with delivered := false } s
  waits s := lookup key s.opps = some op

/-- An entry of the send queue, for `tick_pending_identity_sends`. -/
def queuedSend (e : PendingIdentitySend) : Work where
  State := Sender × Option PendingIdentitySend
  Env := SendQueue.World
  tick s x :=
    match s.2 with
    | none => s
    | some e => s.1.tickEntry { x.2 with millis := millis x.1 } e
  waits s := s.2 = some e

/-- The front of the stamped sends of an identity that is there, for `tick_pending_stamp_sends`. -/
def stampDispatch (f : StampTick.PendingStampSend) : Work where
  State := StampTick.Front
  Env := StampTick.World
  tick s x :=
    match s with
    | .kept f => StampTick.tickFront (millis x.1) { x.2 with identity := true } f
    | s => s
  waits s := s = .kept f

/-- Work is scheduled: its deadline was set at `t₀`, an interval `w` ahead. -/
inductive Scheduled (t₀ w : Nat) : (work : Work) → work.State → Prop
  | link {key ps s} : lookup key s.links = some ps → ps.retryPending = true →
    ps.nextRetryAtMs = millis t₀ + w → Scheduled t₀ w (linkRetry key ps) s
  | opp {key op s} : lookup key s.opps = some op → op.status ≠ .failed →
    op.nextAttemptAtMs = millis t₀ + w → Scheduled t₀ w (oppAttempt key op) s
  | queued {s e} : e.nextAtMs = millis t₀ + w → Scheduled t₀ w (queuedSend e) (s, some e)
  | stamped {f} : f.stamp ≠ [] → f.sidecarHandle = false → f.nextDispatchMs = millis t₀ + w →
    Scheduled t₀ w (stampDispatch f) (.kept f)

/-- An entry that the sweep may take, of a send that was started at `t₀`. -/
structure Sweepable (t₀ : Nat) (key : Bytes) (ps : PendingLinkSend) (s : Pending) : Prop where
  mem : lookup key s.links = some ps
  started : ps.startedMs = millis t₀
  running : ps.retryPending = false
  delivered : ps.status ≠ .delivered
  failed : ps.status ≠ .failed

/-- A tick of `sweep_orphaned_pending`. -/
def sweepTick (key : Bytes) (s : Pending) (x : Nat × Unit) : Pending := sweepOne key (millis x.1) s

variable {t₀ w now : Nat} {key link : Bytes} {ps : PendingLinkSend} {op : PendingOppSend}
  {s : Pending} {e : PendingIdentitySend}

/-! ### Entries before and after their deadlines -/

lemma retryOne_early {r} (hk : lookup key s.links = some ps) (h : now < ps.nextRetryAtMs) :
    retryOne key now r s = s := by
  unfold retryOne
  rw [hk]
  exact if_neg fun hd => absurd hd.2 (not_le.mpr h)

/-- A retry that fails at once counts. -/
lemma scheduleRetryOrFail_ne {ps' : PendingLinkSend} (hr : ps'.retryPending = true)
    (hb : ps.retriesLeft = ps'.retriesLeft) :
    lookup key (scheduleRetryOrFail key ps now s).links ≠ some ps' := by
  unfold scheduleRetryOrFail
  split
  next h0 =>
    rw [Pending.notify_links, Pending.putLink, lookup_insert]
    intro he
    rw [← Option.some.inj he] at hr
    cases hr
  next h0 =>
    rw [Pending.putLink, lookup_insert]
    intro he
    have := congrArg PendingLinkSend.retriesLeft (Option.some.inj he)
    dsimp only at this
    omega

lemma retryOne_late {r} (hk : lookup key s.links = some ps) (hr : ps.retryPending = true)
    (h : ps.nextRetryAtMs ≤ now) : lookup key (retryOne key now r s).links ≠ some ps := by
  unfold retryOne
  rw [hk]
  dsimp only
  rw [if_pos ⟨hr, h⟩]
  cases r with
  | unknownIdentity => exact scheduleRetryOrFail_ne hr rfl
  | threw =>
    dsimp only
    rw [Pending.releaseWireFile_links, Pending.notify_links, Pending.eraseLink, lookup_erase]
    nofun
  | opened link =>
    dsimp only [Pending.putLink, Pending.eraseLink]
    by_cases hl : link = key
    · subst hl
      rw [lookup_insert]
      intro he
      rw [← Option.some.inj he] at hr
      cases hr
    · intro he
      rcases mem_insert.mp (mem_of_lookup he) with h | h
      · exact hl (congrArg Prod.fst h).symm
      · exact (mem_erase.mp h.1).2 rfl

lemma oppOne_early {env : OppState} (hk : lookup key s.opps = some op)
    (hd : env.delivered = false) (h : now < op.nextAttemptAtMs) : oppOne key now env s = s := by
  unfold oppOne
  rw [hk]
  dsimp only
  rw [if_neg (by simp [hd]), if_pos (.inr h)]

lemma oppOne_late {env : OppState} (hk : lookup key s.opps = some op)
    (hd : env.delivered = false) (hf : op.status ≠ .failed) (h : op.nextAttemptAtMs ≤ now) :
    lookup key (oppOne key now env s).opps ≠ some op := by
  unfold oppOne
  rw [hk]
  dsimp only
  rw [if_neg (by simp [hd]), if_neg (by simp [hf, h])]
  split
  next =>
    rw [Pending.notify_opps, lookup_insert]
    exact fun he => hf (congrArg PendingOppSend.status (Option.some.inj he)).symm
  next =>
    have hne {op' : PendingOppSend} (ho : op'.deliveryAttempts = op.deliveryAttempts + 1) :
        lookup key (insert key op' s.opps) ≠ some op := by
      rw [lookup_insert]
      intro he
      rw [Option.some.inj he] at ho
      exact Nat.succ_ne_self _ ho.symm
    split
    next => exact hne rfl
    next =>
      split
      next => exact hne rfl
      next => exact hne rfl

lemma tickEntry_early {a : Sender} {x : SendQueue.World} (h : x.millis < e.nextAtMs) :
    a.tickEntry x e = (a, some e) := by
  unfold Sender.tickEntry
  split
  next => exact if_pos h
  next => exact if_pos h

/-- An entry that is looked at is sent, given up, or waits for longer. -/
lemma tickEntry_late {a : Sender} {x : SendQueue.World} (h : e.nextAtMs ≤ x.millis) :
    (a.tickEntry x e).2 ≠ some e := by
  have hlater {e' : PendingIdentitySend} (he : e.nextAtMs < e'.nextAtMs) : some e' ≠ some e := by
    intro h
    rw [Option.some.inj h] at he
    exact lt_irrefl _ he
  unfold Sender.tickEntry
  split
  next =>
    unfold Sender.tickText
    rw [if_neg (not_lt.mpr h)]
    split
    next => nofun
    next =>
      split
      next => nofun
      next => exact hlater (lt_of_le_of_lt h (Nat.lt_add_of_pos_right (Nat.succ_pos _)))
  next =>
    unfold Sender.tickAttachments
    rw [if_neg (not_lt.mpr h)]
    have hr : e.nextAtMs < x.millis + SendQueue.PENDING_ATTACH_RECHECK_MS :=
      lt_of_le_of_lt h (Nat.lt_add_of_pos_right (Nat.succ_pos _))
    split
    next => nofun
    next =>
      split
      next =>
        split
        next => nofun
        next => exact hlater hr
      next => exact hlater hr

/-- With its stamp, the front entry is at the dispatch. -/
lemma stampDispatch_tick {f : StampTick.PendingStampSend} {x : Nat × StampTick.World}
    (hs : f.stamp ≠ []) (hh : f.sidecarHandle = false) :
    (stampDispatch f).tick (.kept f) x =
      StampTick.dispatch (millis x.1) { x.2 with identity := true } f :=
  StampTick.tickFront_stamped (w := { x.2 with identity := true }) rfl hh hs

/-- Scheduled work waits. -/
lemma Scheduled.waits {work s} (h : Scheduled t₀ w work s) : work.waits s := by
  cases h with
  | link hk => exact hk
  | opp hk => exact hk
  | queued => rfl
  | stamped => rfl

/-- A tick that reads less than the deadline passes over it. -/
lemma Scheduled.idle {work s} (h : Scheduled t₀ w work s) {x : Nat × work.Env}
    (hx : millis x.1 < millis t₀ + w) : work.tick s x = s := by
  cases h with
  | link hk _ hd => exact retryOne_early hk (hd ▸ hx)
  | opp hk _ hd => exact oppOne_early hk rfl (hd ▸ hx)
  | queued hd => exact tickEntry_early (hd ▸ hx)
  | stamped hs hh hd =>
    exact (stampDispatch_tick hs hh).trans (StampTick.dispatch_early (hd ▸ hx))

/-- A tick that reads the deadline or more takes it. -/
lemma Scheduled.taken {work s} (h : Scheduled t₀ w work s) {x : Nat × work.Env}
    (hx : millis t₀ + w ≤ millis x.1) : ¬ work.waits (work.tick s x) := by
  cases h with
  | link hk hr hd => exact retryOne_late hk hr (hd ▸ hx)
  | opp hk hf hd => exact oppOne_late hk rfl hf (hd ▸ hx)
  | queued hd => exact tickEntry_late (hd ▸ hx)
  | stamped hs hh hd =>
    exact fun he => StampTick.dispatch_late (hd ▸ hx) ((stampDispatch_tick hs hh).symm.trans he)

/-! ### Where work is scheduled -/

/-- A failed attempt schedules a retry. -/
lemma retry_scheduled (hr : ps.retriesLeft ≠ 0) :
    ∃ ps', Scheduled t₀ DELIVERY_RETRY_WAIT_MS (linkRetry key ps')
      (scheduleRetryOrFail key ps (millis t₀) s) := by
  rw [scheduleRetryOrFail, if_neg hr]
  exact ⟨_, .link lookup_insert rfl rfl⟩

/-- A single packet schedules its second attempt. -/
lemma first_scheduled {k destHash wire tag} {env : Outbound.SendEnv} (hr : env.receipt = true)
    (hn : env.now = millis t₀) :
    ∃ op, Scheduled t₀ DELIVERY_RETRY_WAIT_MS (oppAttempt env.packetHash op)
      (sendOpportunistic k destHash wire env tag s).1 := by
  rw [sendOpportunistic, if_pos hr]
  exact ⟨_, .opp lookup_insert nofun (by rw [hn])⟩

/-- An attempt schedules the next one. -/
lemma next_scheduled {env : OppState} (hk : lookup key s.opps = some op)
    (hd : env.delivered = false) (hf : op.status ≠ .failed) (hn : op.nextAttemptAtMs ≤ millis t₀)
    (ha : op.deliveryAttempts ≤ MAX_DELIVERY_ATTEMPTS) :
    ∃ op' w, (w = PATH_REQUEST_WAIT_MS ∨ w = DELIVERY_RETRY_WAIT_MS) ∧
      Scheduled t₀ w (oppAttempt key op') (oppOne key (millis t₀) env s) := by
  unfold oppOne
  rw [hk]
  dsimp only
  rw [if_neg (by simp [hd]), if_neg (by simp [hf, hn]), if_neg (not_lt.mpr ha)]
  split
  next => exact ⟨_, _, .inl rfl, .opp lookup_insert hf rfl⟩
  next =>
    split
    next => exact ⟨_, _, .inr rfl, .opp lookup_insert hf rfl⟩
    next => exact ⟨_, _, .inr rfl, .opp lookup_insert hf rfl⟩

/-- A retry by hand is scheduled for the next tick. -/
lemma manual_scheduled {recordHash}
    (hk : s.links.find? (·.2.recordHash = recordHash) = some (key, ps)) (hf : ps.status = .failed) :
    ∃ ps', Scheduled t₀ 0 (linkRetry key ps') (manualRetry recordHash (millis t₀) s) := by
  unfold manualRetry
  rw [hk]
  dsimp only
  rw [if_neg (by simp [hf])]
  exact ⟨_, .link lookup_insert rfl rfl⟩

/-- An entry of the queue is scheduled when it is new. -/
lemma pending_scheduled {a seq} {m : Message} :
    Scheduled t₀ (if m.attachments = [] then SendQueue.PENDING_ID_BACKOFF_MS
        else SendQueue.PENDING_ATTACH_RECHECK_MS)
      (queuedSend (m.pending (millis t₀) seq)) (a, some (m.pending (millis t₀) seq)) := by
  refine .queued ?_
  unfold Message.pending
  dsimp only
  split <;> rfl

/-- An entry that stays in the queue is scheduled again. -/
lemma requeue_scheduled {a : Sender} {e'} {x : SendQueue.World} (hx : x.millis = millis t₀)
    (hn : e.nextAtMs ≤ millis t₀) (he : (a.tickEntry x e).2 = some e') :
    ∃ w, (w = SendQueue.PENDING_ID_BACKOFF_MS * e'.attempts ∨
        w = SendQueue.PENDING_ATTACH_RECHECK_MS) ∧
      Scheduled t₀ w (queuedSend e') (a.tickEntry x e) := by
  have hq {w} (h : e'.nextAtMs = millis t₀ + w) :
      Scheduled t₀ w (queuedSend e') (a.tickEntry x e) := by
    rw [show a.tickEntry x e = ((a.tickEntry x e).1, some e') from Prod.ext rfl he]
    exact .queued h
  unfold Sender.tickEntry at he
  split at he
  next =>
    unfold Sender.tickText at he
    rw [hx, if_neg (not_lt.mpr hn)] at he
    split at he
    next => cases he
    next =>
      split at he
      next => cases he
      next =>
        obtain rfl := Option.some.inj he
        exact ⟨_, .inl rfl, hq rfl⟩
  next =>
    unfold Sender.tickAttachments at he
    rw [hx, if_neg (not_lt.mpr hn)] at he
    split at he
    next => cases he
    next =>
      split at he
      next =>
        split at he
        next => cases he
        next =>
          obtain rfl := Option.some.inj he
          exact ⟨_, .inr rfl, hq rfl⟩
      next =>
        obtain rfl := Option.some.inj he
        exact ⟨_, .inr rfl, hq rfl⟩

/-- A dispatch that fails schedules the next one. -/
lemma redispatch_scheduled {f f' : StampTick.PendingStampSend} {x : StampTick.World}
    (hs : f.stamp ≠ []) (hh : f.sidecarHandle = false) (hn : f.nextDispatchMs ≤ millis t₀)
    (he : StampTick.dispatch (millis t₀) x f = .kept f') :
    Scheduled t₀ (StampTick.STAMP_DISPATCH_BACKOFF_MS * f'.dispatchAttempts) (stampDispatch f')
      (.kept f') := by
  unfold StampTick.dispatch at he
  rw [if_neg (not_lt.mpr hn)] at he
  dsimp only at he
  split at he
  next => cases he
  next =>
    split at he
    next => cases he
    next =>
      split at he
      next => cases he
      next =>
        split at he
        next => cases he
        next =>
          obtain rfl := StampTick.Front.kept.inj he
          exact .stamped hs hh rfl

/-! ### The sweep -/

/-- The age of an entry that is not as old as the limit. -/
lemma age_eq {t} (ht : t₀ ≤ t) (hw : t < t₀ + PENDING_SEND_ORPHAN_MS) :
    (millis t + 2 ^ 64 - millis t₀) % 2 ^ 64 =
      if wraps (2 ^ 32) t₀ t = 0 then t - t₀ else millis t + 2 ^ 64 - millis t₀ := by
  have hr := reading_lt_iff (n := 2 ^ 32) ht
    (lt_of_lt_of_le hw (Nat.add_le_add_left (by decide) t₀))
  have ha := reading_add_wraps (n := 2 ^ 32) ht
  have hb : reading (2 ^ 32) t₀ < 2 ^ 32 := Nat.mod_lt _ (by decide)
  unfold millis
  split
  next h0 =>
    rw [h0, Nat.mul_zero, Nat.add_zero] at ha
    unfold PENDING_SEND_ORPHAN_MS at hw
    omega
  next h0 =>
    have := hr.mpr h0
    omega

/-- The sweep keeps an entry that is not as old as the limit, within one count. -/
lemma sweepTick_kept {x} (h : Sweepable t₀ key ps s) (ht : t₀ ≤ x.1)
    (hw : x.1 < t₀ + PENDING_SEND_ORPHAN_MS) (h0 : wraps (2 ^ 32) t₀ x.1 = 0) :
    sweepTick key s x = s := by
  unfold sweepTick sweepOne
  rw [h.mem]
  dsimp only
  rw [h.started, age_eq ht hw, if_pos h0]
  refine if_neg fun hc => ?_
  have := hc.2.1
  omega

/-- Once `millis()` has started over, it takes it. -/
lemma sweepTick_taken {x} (h : Sweepable t₀ key ps s) (ht : t₀ ≤ x.1)
    (hw : x.1 < t₀ + PENDING_SEND_ORPHAN_MS) (h0 : wraps (2 ^ 32) t₀ x.1 ≠ 0) :
    lookup key (sweepTick key s x).links = none := by
  have hr : millis x.1 < millis t₀ :=
    (reading_lt_iff ht (lt_of_lt_of_le hw (Nat.add_le_add_left (by decide) t₀))).mpr h0
  have hb : millis t₀ < 2 ^ 32 := Nat.mod_lt _ (by decide)
  unfold sweepTick sweepOne
  rw [h.mem]
  dsimp only
  rw [h.started, age_eq ht hw, if_neg h0, if_pos]
  · rw [Pending.eraseLink]
    exact lookup_erase
  · refine ⟨by omega, ?_, by simp [h.running], h.delivered, h.failed⟩
    unfold PENDING_SEND_ORPHAN_MS
    omega

lemma sweepTick_gone {x} (h : lookup key s.links = none) : sweepTick key s x = s := by
  unfold sweepTick sweepOne
  rw [h]

/-- Ticks before the limit leave an entry as it is, or take it. -/
lemma sweep_run {ticks : List (Nat × Unit)} (h : Sweepable t₀ key ps s)
    (ht : ∀ x ∈ ticks, t₀ ≤ x.1 ∧ x.1 < t₀ + PENDING_SEND_ORPHAN_MS) :
    ticks.foldl (sweepTick key) s = s ∨
      lookup key (ticks.foldl (sweepTick key) s).links = none := by
  induction ticks with
  | nil => exact .inl rfl
  | cons x ticks ih =>
    obtain ⟨h1, h2⟩ := ht x List.mem_cons_self
    rw [List.foldl_cons]
    by_cases h0 : wraps (2 ^ 32) t₀ x.1 = 0
    · rw [sweepTick_kept h h1 h2 h0]
      exact ih fun y hy => ht y (List.mem_cons_of_mem x hy)
    · have hg := sweepTick_taken h h1 h2 h0
      right
      rw [foldl_idle fun y _ => sweepTick_gone hg]
      exact hg

/-- Of ticks that come before the limit, up to the last, the sweep takes an entry at none exactly
when `millis()` has not started over. -/
lemma sweep_iff {pre : List (Nat × Unit)} {last} (h : Sweepable t₀ key ps s)
    (ho : InOrder t₀ (pre ++ [last])) (hw : last.1 < t₀ + PENDING_SEND_ORPHAN_MS) :
    lookup key ((pre ++ [last]).foldl (sweepTick key) s).links = some ps ↔
      wraps (2 ^ 32) t₀ last.1 = 0 := by
  have hle {x} (hx : x ∈ pre ++ [last]) : x.1 ≤ last.1 := by
    rcases List.mem_append.mp hx with hx | hx
    · exact ho.le_last hx
    · rw [List.mem_singleton.mp hx]
  constructor
  · intro hk
    have hpre : ∀ x ∈ pre, t₀ ≤ x.1 ∧ x.1 < t₀ + PENDING_SEND_ORPHAN_MS := fun x hx =>
      ⟨ho.le (List.mem_append_left _ hx), lt_of_le_of_lt (ho.le_last hx) hw⟩
    rw [List.foldl_append, List.foldl_cons, List.foldl_nil] at hk
    by_contra h0
    rcases sweep_run h hpre with hr | hr
    · rw [hr, sweepTick_taken h (ho.le (List.mem_append_right _ List.mem_cons_self)) hw h0] at hk
      cases hk
    · rw [sweepTick_gone hr, hr] at hk
      cases hk
  · intro h0
    rw [foldl_idle]
    · exact h.mem
    · intro x hx
      refine sweepTick_kept h (ho.le hx) (lt_of_le_of_lt (hle hx) hw) ?_
      exact Nat.le_zero.mp (h0 ▸ wraps_mono (hle hx))

/-- Across a start of `millis()` work is late unless its tick comes a whole turn after, and an entry
is swept too early: otherwise work is on time, and the sweep takes no entry before the limit. -/
theorem on_time_iff (t₀ : Nat) :
    (∀ {w work s pre last}, Scheduled t₀ w work s → InOrder t₀ (pre ++ [last]) →
      (∀ x ∈ pre, x.1 < t₀ + w) →
      (OnTime work.tick work.waits t₀ w pre last s ↔ Timely (2 ^ 32) t₀ w last.1)) ∧
    (∀ {key ps s pre last}, Sweepable t₀ key ps s → InOrder t₀ (pre ++ [last]) →
      ((last.1 < t₀ + PENDING_SEND_ORPHAN_MS →
          lookup key ((pre ++ [last]).foldl (sweepTick key) s).links = some ps) ↔
        (last.1 < t₀ + PENDING_SEND_ORPHAN_MS → wraps (2 ^ 32) t₀ last.1 = 0))) := by
  constructor
  · intro w work s pre last h ho hpre
    exact onTime_iff h.waits (fun _ => h.idle) (fun _ => h.taken) ho hpre
  · intro key ps s pre last h ho
    exact forall_congr' fun hw => sweep_iff h ho hw

/-- Work whose deadline is past the last reading of `millis()` is never looked at again. -/
theorem stranded {work s} {ticks : List (Nat × work.Env)} (h : Scheduled t₀ w work s)
    (hd : 2 ^ 32 ≤ millis t₀ + w) : ticks.foldl work.tick s = s :=
  foldl_idle fun _ _ => h.idle (lt_of_not_ge (deadline_stranded (Nat.two_pow_pos 32) hd))

/-- An entry of a send that was started at `t₀`, for a link that answers nothing. -/
def sample (t₀ : Nat) : PendingLinkSend :=
  { link := [1], startedMs := millis t₀, destHash := [2], owner := 0, recordHash := [1]
    directWire := [], tag := ⟨[], 0⟩ }

/-- A retry scheduled 10 s ahead of the start of `millis()` is due, and is not taken. -/
theorem not_on_time : ¬ ∀ {t₀ w work s pre last}, Scheduled t₀ w work s →
    InOrder t₀ (pre ++ [last]) → (∀ x ∈ pre, x.1 < t₀ + w) →
    OnTime work.tick work.waits t₀ w pre last s := by
  intro h
  have hr : ∃ ps, Scheduled (2 ^ 32 - 1) DELIVERY_RETRY_WAIT_MS (linkRetry [1] ps)
      (scheduleRetryOrFail [1] (sample 0) (millis (2 ^ 32 - 1)) {}) := retry_scheduled (by decide)
  obtain ⟨ps, hs⟩ := hr
  let tick : Nat × Reopened := (2 ^ 32 + 9999, .unknownIdentity)
  have ho : InOrder (2 ^ 32 - 1) ([] ++ [tick]) := by decide
  have hlate : ¬ tick.1 < 2 ^ 32 - 1 + DELIVERY_RETRY_WAIT_MS := by decide
  have hw : [tick].foldl (linkRetry [1] ps).tick _ = _ := stranded hs (by decide)
  exact hlate ((h hs ho nofun).mp ((congrArg (linkRetry [1] ps).waits hw).mpr hs.waits))

/-- Within one count, the retry of the same send is taken when its 10 s are over, and the sweep
keeps its entry until then. -/
theorem on_time_sample :
    OnTime (linkRetry [1] { sample 5 with retryPending := true, nextRetryAtMs := 10005 }).tick
        (linkRetry [1] { sample 5 with retryPending := true, nextRetryAtMs := 10005 }).waits 5 10000
        [(10004, Reopened.threw)] (10005, Reopened.threw)
        { links := [([1], { sample 5 with retryPending := true, nextRetryAtMs := 10005 })] } ∧
      lookup [1] ([(10005, ())].foldl (sweepTick [1]) { links := [([1], sample 5)] }).links =
        some (sample 5) := by
  constructor
  · exact ((on_time_iff 5).1 (.link rfl rfl rfl) (by decide) (by decide)).mpr (by decide)
  · have ho : InOrder 5 ([] ++ [(10005, ())]) := by decide
    exact ((on_time_iff 5).2 ⟨rfl, rfl, rfl, by decide, by decide⟩ ho).mpr (fun _ => by decide)
      (by decide)

end URSupreme.Deadlines
