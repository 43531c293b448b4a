import URSupreme.LXMF.SendQueue

/-!
# What sends and ticks do

What `send`, one entry of `tick_pending_identity_sends` and `queue_pending_identity_send` do, said
once for the results about staging buffers, queued sends and telemetry.
-/

namespace URSupreme.SendQueue
open Lib LXMF
open Gateway (IdentityId)
open Staging (Buffers)

variable {s s' : Sender} {w : World} {m : Message} {e e' : PendingIdentitySend} {r : SendResult}
  {useSeq seq : Nat}

/-- The buffers of attachments after a call that takes them over: read or not, and released. -/
def TakesOver (s s' : Buffers) (atts : List OutgoingAttachment) : Prop :=
  ∃ read : Bool, s' = (stagingIds atts).foldl Buffers.release
    (if read then (stagingIds atts).foldl (·.use .read ·) s else s)

/-- The entry of a stamped send for a message and its number. -/
def PendingStampSend.Holds (p : PendingStampSend) (m : Message) (seq : Nat) : Prop :=
  p.message = m ∧ p.idenId = m.idenId ∧ p.outboxSeq = seq

/-- What `send_message` and `send_with_stamp` do. -/
structure Handed (s s' : Sender) (m : Message) (useSeq : Nat) (r : SendResult) : Prop where
  active : s'.active = s.active
  queue : s'.queue = s.queue
  staging : TakesOver s.staging s'.staging m.attachments
  outcome :
    (∃ err, r = .failed err ∧ s'.log = s.log ∧ s'.stamps = s.stamps ∧ s'.nextSeq = s.nextSeq) ∨
    (r = .sent ∧ m.machinery = true ∧ s'.log = s.log ++ [.dispatched m useSeq] ∧
      s'.stamps = s.stamps ∧ s'.nextSeq = s.nextSeq) ∨
    (r = .sent ∧ s'.nextSeq = (s.appendOutbox m.idenId useSeq).1.nextSeq ∧
      ((s'.log = s.log ++ [.dispatched m (s.appendOutbox m.idenId useSeq).2] ∧
          s'.stamps = s.stamps) ∨
        ∃ p : PendingStampSend, s'.log = s.log ++ [.deferred m (s.appendOutbox m.idenId useSeq).2] ∧
          s'.stamps = s.stamps ++ [p] ∧ p.Holds m (s.appendOutbox m.idenId useSeq).2))

/-- An outbox has its part of the state only. -/
lemma appendOutbox_keeps {iden : IdentityId} :
    (s.appendOutbox iden useSeq).1 =
      { s with nextSeq := (s.appendOutbox iden useSeq).1.nextSeq } := by
  unfold Sender.appendOutbox
  split <;> rfl

/-- The number and the counter after an append do not depend on the rest. -/
lemma appendOutbox_congr {iden : IdentityId} (h : s'.nextSeq = s.nextSeq) :
    (s'.appendOutbox iden useSeq).2 = (s.appendOutbox iden useSeq).2 ∧
      (s'.appendOutbox iden useSeq).1.nextSeq = (s.appendOutbox iden useSeq).1.nextSeq := by
  unfold Sender.appendOutbox Sender.reserveSeq
  rw [h]
  split <;> exact ⟨rfl, rfl⟩

/-- The call of `prepare_message` takes over the buffers, and nothing else. -/
lemma prepareMessage_fst :
    (s.prepareMessage w m).1 = (s.readStaging m.attachments).releaseStaging m.attachments := rfl

/-- The outbox after it. -/
lemma appendOutbox_taken {atts : List OutgoingAttachment} {iden : IdentityId} :
    (((s.readStaging atts).releaseStaging atts).appendOutbox iden useSeq).2 =
        (s.appendOutbox iden useSeq).2 ∧
      (((s.readStaging atts).releaseStaging atts).appendOutbox iden useSeq).1.nextSeq =
        (s.appendOutbox iden useSeq).1.nextSeq :=
  appendOutbox_congr rfl

lemma Handed.sendWithStamp {cost : Nat} :
    Handed s (s.sendWithStamp w m cost useSeq).1 m useSeq (s.sendWithStamp w m cost useSeq).2 := by
  unfold Sender.sendWithStamp
  split
  next => exact ⟨rfl, rfl, ⟨false, rfl⟩, .inl ⟨_, rfl, rfl, rfl, rfl⟩⟩
  next =>
    have h1 := prepareMessage_fst (s := s) (w := w) (m := m)
    split
    next s1 err hp =>
      rw [hp] at h1
      obtain rfl := h1
      exact ⟨rfl, rfl, ⟨true, rfl⟩, .inl ⟨err, rfl, rfl, rfl, rfl⟩⟩
    next s1 pm hp =>
      rw [hp] at h1
      obtain rfl := h1
      obtain ⟨e1, e2⟩ : _ ∧ _ := appendOutbox_taken (s := s)
      dsimp only
      rw [appendOutbox_keeps, e1, e2]
      exact ⟨rfl, rfl, ⟨true, rfl⟩, .inr (.inr ⟨rfl, rfl, .inr ⟨_, rfl, rfl, rfl, rfl, rfl⟩⟩)⟩

lemma Handed.sendNow :
    Handed s (s.sendNow w m useSeq).1 m useSeq (s.sendNow w m useSeq).2 := by
  unfold Sender.sendNow
  dsimp only
  split
  next => exact Handed.sendWithStamp
  next =>
    have h1 := prepareMessage_fst (s := s) (w := w) (m := m)
    split
    next s1 err hp =>
      rw [hp] at h1
      obtain rfl := h1
      exact ⟨rfl, rfl, ⟨true, rfl⟩, .inl ⟨err, rfl, rfl, rfl, rfl⟩⟩
    next s1 pm hp =>
      rw [hp] at h1
      obtain rfl := h1
      split
      next err _ => exact ⟨rfl, rfl, ⟨true, rfl⟩, .inl ⟨err, rfl, rfl, rfl, rfl⟩⟩
      next =>
        obtain ⟨e1, e2⟩ : _ ∧ _ := appendOutbox_taken (s := s)
        dsimp only
        split
        next hm => exact ⟨rfl, rfl, ⟨true, rfl⟩, .inr (.inl ⟨rfl, hm, rfl, rfl, rfl⟩)⟩
        next =>
          rw [appendOutbox_keeps, e1, e2]
          exact ⟨rfl, rfl, ⟨true, rfl⟩, .inr (.inr ⟨rfl, rfl, .inl ⟨rfl, rfl⟩⟩)⟩

/-- What becomes of an entry whose route is up. -/
structure AutoSent (s s' : Sender) (e : PendingIdentitySend) : Prop where
  active : s'.active = s.active
  queue : s'.queue = s.queue
  staging : if s.active e.idenId then TakesOver s.staging s'.staging e.attachments
    else s'.staging = s.staging
  nextSeq : e.outboxSeq ≠ 0 → e.outboxSeq ≤ s.nextSeq e.idenId → s'.nextSeq = s.nextSeq
  outcome :
    (s'.log = s.log ++ [.failed e.idenId e.outboxSeq] ∧ s'.stamps = s.stamps) ∨
    ∃ seq, (e.outboxSeq ≠ 0 → seq = e.outboxSeq) ∧
      ((s'.log = s.log ++ [.dispatched e.message seq] ∧ s'.stamps = s.stamps) ∨
        ∃ p : PendingStampSend, s'.log = s.log ++ [.deferred e.message seq] ∧
          s'.stamps = s.stamps ++ [p] ∧ s.active e.idenId = true ∧ p.Holds e.message seq)

/-- The record of a number that was reserved. -/
lemma appendOutbox_reserved {iden : IdentityId} (h0 : seq ≠ 0) (h : seq ≤ s.nextSeq iden) :
    (s.appendOutbox iden seq).1.nextSeq = s.nextSeq := by
  unfold Sender.appendOutbox
  rw [if_neg h0, max_eq_left h]
  exact Function.update_eq_self iden s.nextSeq

lemma appendOutbox_snd {iden : IdentityId} (h0 : seq ≠ 0) : (s.appendOutbox iden seq).2 = seq := by
  unfold Sender.appendOutbox
  rw [if_neg h0]

lemma autoSent (hr : w.route e.dest = true) : AutoSent s (s.autoSend w e) e := by
  unfold Sender.autoSend
  cases ha : s.active e.idenId with
  | false =>
    have h1 : s.send w e.message e.outboxSeq =
        (s, .failed "No such identity is logged in on this device.") := if_pos ha
    rw [h1]
    exact ⟨rfl, rfl, by rw [ha]; rfl, fun _ _ => rfl, .inl ⟨rfl, rfl⟩⟩
  | true =>
    have h1 : s.send w e.message e.outboxSeq = s.sendNow w e.message e.outboxSeq := by
      have ha' : s.active e.message.idenId ≠ false := by
        rw [show e.message.idenId = e.idenId from rfl, ha]
        exact Bool.noConfusion
      exact (if_neg ha').trans (if_pos hr)
    have h2 : Handed s _ e.message e.outboxSeq _ := Handed.sendNow (w := w)
    rw [h1]
    generalize s.sendNow w e.message e.outboxSeq = x at h2
    obtain ⟨s', r⟩ := x
    have hst : if s.active e.idenId then TakesOver s.staging s'.staging e.attachments
        else s'.staging = s.staging := by
      rw [ha, if_pos rfl]
      exact h2.staging
    obtain ⟨err, rfl, hlog, hstamps, hnext⟩ | ⟨rfl, -, hlog, hstamps, hnext⟩ | ⟨rfl, hnext, ho⟩ :=
      h2.outcome
    · exact ⟨h2.active, h2.queue, hst, fun _ _ => hnext, .inl ⟨congrArg (· ++ _) hlog, hstamps⟩⟩
    · exact ⟨h2.active, h2.queue, hst, fun _ _ => hnext,
        .inr ⟨_, fun _ => rfl, .inl ⟨hlog, hstamps⟩⟩⟩
    · refine ⟨h2.active, h2.queue, hst, fun h0 hle => hnext.trans (appendOutbox_reserved h0 hle),
        .inr ⟨(s.appendOutbox e.message.idenId e.outboxSeq).2, fun h0 => appendOutbox_snd h0, ?_⟩⟩
      exact ho.imp_right fun ⟨p, hlog, hstamps, hp⟩ => ⟨p, hlog, hstamps, ha, hp⟩

/-- How often the entry is tried. -/
def PendingIdentitySend.maxAttempts (e : PendingIdentitySend) : Nat :=
  if e.attachments = [] then PENDING_ID_MAX_ATTEMPTS else PENDING_ATTACH_MAX_ATTEMPTS

/-- The entry after a try that found no route. -/
def PendingIdentitySend.retried (now : Nat) (e : PendingIdentitySend) : PendingIdentitySend :=
  if e.attachments = [] then
    { e with
      attempts := e.attempts + 1, nextAtMs := now + PENDING_ID_BACKOFF_MS * (e.attempts + 1) }
  else
    { e with
      attempts := e.attempts + 1
      nextRequestMs := now + PENDING_ATTACH_REQUEST_MS
      nextAtMs := now + PENDING_ATTACH_RECHECK_MS }

/-- What a tick does with an entry. -/
inductive Ticked (w : World) (s : Sender) (e : PendingIdentitySend) :
    Sender → Option PendingIdentitySend → Prop where
  | early : w.millis < e.nextAtMs → Ticked w s e s (some e)
  | polled : e.attachments ≠ [] → e.nextAtMs ≤ w.millis → w.millis < e.nextRequestMs →
      Ticked w s e s (some { e with nextAtMs := w.millis + PENDING_ATTACH_RECHECK_MS })
  | retried : e.nextAtMs ≤ w.millis → e.attempts + 1 < e.maxAttempts →
      Ticked w s e s (some (e.retried w.millis))
  | gaveUp : e.nextAtMs ≤ w.millis →
      Ticked w s e
        { s.releaseStaging e.attachments with log := s.log ++ [.failed e.idenId e.outboxSeq] } none
  | routed {t} : e.nextAtMs ≤ w.millis → w.route e.dest = true → AutoSent s t e →
      Ticked w s e t none

lemma ticked : Ticked w s e (s.tickEntry w e).1 (s.tickEntry w e).2 := by
  unfold Sender.tickEntry
  by_cases hatts : e.attachments = []
  · rw [if_pos hatts]
    unfold Sender.tickText
    split
    next h => exact .early h
    next h =>
      have h := not_lt.mp h
      split
      next hr => exact .routed h hr (autoSent hr)
      next =>
        split
        next =>
          have h1 := Ticked.gaveUp (w := w) (s := s) h
          rw [hatts] at h1
          exact h1
        next hmax =>
          have h1 := Ticked.retried (w := w) (s := s) h (by
            rw [PendingIdentitySend.maxAttempts, if_pos hatts]
            exact not_le.mp hmax)
          rw [PendingIdentitySend.retried, if_pos hatts] at h1
          exact h1
  · rw [if_neg hatts]
    unfold Sender.tickAttachments
    split
    next h => exact .early h
    next h =>
      have h := not_lt.mp h
      split
      next hr => exact .routed h hr (autoSent hr)
      next =>
        split
        next hreq =>
          split
          next => exact .gaveUp h
          next hmax =>
            have h1 := Ticked.retried (w := w) (s := s) h (by
              rw [PendingIdentitySend.maxAttempts, if_neg hatts]
              exact not_le.mp hmax)
            rw [PendingIdentitySend.retried, if_neg hatts] at h1
            exact h1
        next hreq => exact .polled hatts h (not_le.mp hreq)

/-- What a call of `send` does. -/
inductive Sent (w : World) (s : Sender) (m : Message) (useSeq : Nat) : Sender → SendResult →
    Prop where
  | inactive {err} : s.active m.idenId = false → Sent w s m useSeq s (.failed err)
  | handed {t u} : s.active m.idenId = true → Handed s t m useSeq u → Sent w s m useSeq t u
  | refused {err} : s.active m.idenId = true → m.attachments = [] →
      Sent w s m useSeq s (.failed err)
  | coalesced {p} : s.active m.idenId = true → w.route m.dest = false →
      s.findCoalesced m = some p → p.outboxSeq ≠ 0 →
      Sent w s m useSeq
        { s with queue := modifyFirst (·.coalesces m) (·.coalesced w.millis m) s.queue }
        (.queued p.outboxSeq)
  | added {n} : s.active m.idenId = true → w.route m.dest = false → s.findCoalesced m = none →
      n = s.nextSeq m.idenId + 1 →
      Sent w s m useSeq
        { s with
          nextSeq := Function.update s.nextSeq m.idenId n
          queue := s.queue ++ [m.pending w.millis n] }
        (.queued n)

/-- A counter that does not wrap gives numbers that are not 0, and so do the entries in the
queue. -/
lemma sent (hseq : s.nextSeq m.idenId + 1 < 2 ^ 32)
    (hq : ∀ p ∈ s.queue, p.outboxSeq ≠ 0) :
    Sent w s m useSeq (s.send w m useSeq).1 (s.send w m useSeq).2 := by
  cases ha : s.active m.idenId with
  | false =>
    rw [show s.send w m useSeq = (s, .failed _) from if_pos ha]
    exact .inactive ha
  | true =>
    have ha' : ¬ s.active m.idenId = false := by
      rw [ha]
      exact Bool.noConfusion
    cases hr : w.route m.dest with
    | true =>
      rw [show s.send w m useSeq = s.sendNow w m useSeq from (if_neg ha').trans (if_pos hr)]
      exact .handed ha Handed.sendNow
    | false =>
      have hr' : ¬ w.route m.dest = true := by
        rw [hr]
        exact Bool.noConfusion
      unfold Sender.send
      rw [if_neg ha', if_neg hr']
      unfold Sender.queuePendingIdentitySend
      cases hf : s.findCoalesced m with
      | some p =>
        have hp : p.outboxSeq ≠ 0 := by
          unfold Sender.findCoalesced at hf
          split at hf
          next => exact hq p (List.mem_of_find?_eq_some hf)
          next => cases hf
        have h1 : Sent w s m useSeq _ _ := .coalesced ha hr hf hp
        obtain ⟨n, hn⟩ := Nat.exists_eq_succ_of_ne_zero hp
        dsimp only
        rw [hn] at h1 ⊢
        exact h1
      | none =>
        dsimp only
        by_cases hfull : s.queue.length ≥ PENDING_ID_MAX
        · rw [if_pos hfull]
          dsimp only
          split
          next hatts => exact .refused ha hatts
          next => exact .handed ha Handed.sendNow
        · rw [if_neg hfull]
          unfold Sender.reserveSeq
          dsimp only
          rw [Nat.mod_eq_of_lt hseq]
          exact .added ha hr hf rfl

end URSupreme.SendQueue
