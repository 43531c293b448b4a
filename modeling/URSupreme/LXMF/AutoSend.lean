import URSupreme.Lib.Ledger
import URSupreme.Lib.Run
import URSupreme.LXMF.SendSteps

/-!
# Sends that wait for a route

Every send that `send` accepts into the queue, returning its sequence number, waits there until it
is dispatched once or reported as failed under that number, and it does not wait for ever. A send
that is coalesced into a waiting one takes its place under the same number.

An accepted send is kept with its number in `accepted`, and `now` is the last value of `millis()`.
-/

namespace URSupreme.SendQueue
open Lib LXMF
open Gateway (IdentityId)

/-- The identity and the sequence number of an accepted send. -/
abbrev Key := IdentityId × Nat

/-- The sender with what it accepted. -/
structure Queueing where
  sender : Sender := {}
  accepted : List (Key × Message) := []
  now : Nat := 0

/-- What happens to the queue. -/
inductive Event where
  | send (w : World) (m : Message)
  | tick (w : World)
  | announced (dest : Bytes) (now : Nat)
  | stampTick (progress : StampProgress)

/-- One event. -/
def Queueing.step (s : Queueing) : Event → Queueing
  | .send w m =>
    let (sender, r) := s.sender.send w m 0
    { sender
      accepted := match r with
        | .queued seq => s.accepted ++ [((m.idenId, seq), m)]
        | _ => s.accepted
      now := w.millis }
  | .tick w => { s with sender := s.sender.tickPendingIdentitySends w, now := w.millis }
  | .announced dest now => { s with sender := s.sender.drainPeerAnnouncement dest now, now }
  | .stampTick progress => { s with sender := s.sender.tickPendingStampSends progress }

/-- The kind of extra fields: which there are, and whether a user composed them. -/
def Extra.kind (e : Extra) : Option (Bool × Bool × Bool × Bool) :=
  if e.empty then none
  else some (e.telemetry ≠ [], e.commands ≠ [], e.customMeta ≠ [], e.visible)

/-- The kind of the extra fields of a message. -/
def Message.kind (m : Message) : Option (Bool × Bool × Bool × Bool) := (m.extra.getD {}).kind

/-- The clock and the counter of the outbox do not wrap, and a send is coalesced into one of the
same kind. -/
def Queueing.Keeps (s : Queueing) : Event → Prop
  | .send w m =>
    s.now ≤ w.millis ∧ s.sender.nextSeq m.idenId + 1 < 2 ^ 32 ∧
      ∀ p ∈ s.sender.findCoalesced m, p.extra.kind = m.kind
  | .tick w => s.now ≤ w.millis
  | .announced _ now => s.now ≤ now
  | .stampTick _ => True

/-- The message as `send_message` gets it: fields that are all empty are none. -/
def Message.passed (m : Message) : Message :=
  { m with extra := if (m.extra.getD {}).empty then none else m.extra }

/-- The send that an outcome is about. -/
def Outcome.key : Outcome → Option Key
  | .dispatched m seq | .deferred m seq => some (m.idenId, seq)
  | .failed idenId seq => some (idenId, seq)
  | .stamped .. | .stampFailed .. => none

/-- An outcome is the failure of a send, or its dispatch with this message. -/
def Outcome.Tells (o : Outcome) (k : Key) (m : Message) : Prop :=
  o = .failed k.1 k.2 ∨ o = .dispatched m k.2 ∨ o = .deferred m k.2

/-- How the queue and the log are read. -/
def desk : Desk Key Message PendingIdentitySend Outcome Message where
  key e := (e.idenId, e.outboxSeq)
  content := PendingIdentitySend.message
  comesTo := Message.passed
  about := Outcome.key
  Tells := Outcome.Tells

/-- Two sends that differ in the contents of extra fields of the same kind. -/
def Alike (m m' : Message) : Prop :=
  m.idenId = m'.idenId ∧ m.dest = m'.dest ∧ m.title = m'.title ∧ m.content = m'.content ∧
    m.attachments = m'.attachments ∧ m.kind = m'.kind

/-- What holds of the accepted sends, the queue, the log and the counters of the outboxes. -/
structure Inv (acc : List (Key × Message)) (queue : List PendingIdentitySend) (log : List Outcome)
    (next : IdentityId → Nat) : Prop where
  booked : Booked desk acc queue log
  issued : ∀ a ∈ acc, a.1.1 = a.2.idenId ∧ a.1.2 ≠ 0 ∧ a.1.2 ≤ next a.1.1
  logged : ∀ o ∈ log, ∀ k ∈ o.key, k.2 ≤ next k.1
  alike : ∀ a ∈ acc, ∀ b ∈ acc, a.1 = b.1 → Alike a.2 b.2
  once : ∀ a ∈ acc, a.2.attachments ≠ [] → acc.filter (·.1 = a.1) = [a]

variable {acc : List (Key × Message)} {queue l1 l2 : List PendingIdentitySend} {log : List Outcome}
  {next next' : IdentityId → Nat} {e e' : PendingIdentitySend} {m : Message} {o : Outcome}
  {w : World}

/-- The numbers of the entries in the queue. -/
lemma Inv.entry (h : Inv acc queue log next) (he : e ∈ queue) :
    e.outboxSeq ≠ 0 ∧ e.outboxSeq ≤ next e.idenId := by
  obtain ⟨m, hm⟩ := h.booked.key_mem he
  exact (h.issued _ hm).2

/-- An outcome that was never queued. -/
lemma Inv.note (h : Inv acc queue log next) (hn : ∀ iden, next iden ≤ next' iden)
    (ho : ∀ k ∈ o.key, k.2 ≤ next' k.1 ∧ (k.2 = 0 ∨ next k.1 < k.2)) :
    Inv acc queue (log ++ [o]) next' := by
  refine ⟨h.booked.note fun a ha hoa => ?_, fun a ha => ?_, fun x hx k hk => ?_, h.alike, h.once⟩
  · obtain ⟨-, h0, hle⟩ := h.issued a ha
    rcases (ho a.1 hoa).2 with hz | hlt
    · exact h0 hz
    · exact absurd hle (not_le.mpr hlt)
  · obtain ⟨hi, h0, hle⟩ := h.issued a ha
    exact ⟨hi, h0, hle.trans (hn _)⟩
  · rcases List.mem_append.mp hx with hx | hx
    · exact (h.logged x hx k hk).trans (hn _)
    · obtain rfl := List.mem_singleton.mp hx
      exact (ho k hk).1

/-- An entry that stays. -/
lemma Inv.keep (h : Inv acc (l1 ++ e :: l2) log next) (hk : desk.key e' = desk.key e)
    (hc : e'.message = e.message) : Inv acc (l1 ++ e' :: l2) log next :=
  { h with booked := h.booked.keep hk hc }

/-- An entry that is settled. -/
lemma Inv.settle (h : Inv acc (l1 ++ e :: l2) log next)
    (ho : o.Tells (e.idenId, e.outboxSeq) e.message) : Inv acc (l1 ++ l2) (log ++ [o]) next := by
  have hkey : o.key = some (e.idenId, e.outboxSeq) := by
    rcases ho with rfl | rfl | rfl <;> rfl
  refine { h with booked := h.booked.settle hkey ho, logged := fun x hx k hk => ?_ }
  rcases List.mem_append.mp hx with hx | hx
  · exact h.logged x hx k hk
  · obtain rfl := List.mem_singleton.mp hx
    rw [hkey] at hk
    obtain rfl := Option.some.inj hk
    exact (h.entry (mem_split.mpr (.inl rfl))).2

lemma Alike.refl : Alike m m := ⟨rfl, rfl, rfl, rfl, rfl, rfl⟩

lemma Alike.symm {m' : Message} (h : Alike m m') : Alike m' m :=
  ⟨h.1.symm, h.2.1.symm, h.2.2.1.symm, h.2.2.2.1.symm, h.2.2.2.2.1.symm, h.2.2.2.2.2.symm⟩

lemma Alike.trans {m1 m2 m3 : Message} (h : Alike m1 m2) (h' : Alike m2 m3) : Alike m1 m3 :=
  ⟨h.1.trans h'.1, h.2.1.trans h'.2.1, h.2.2.1.trans h'.2.2.1, h.2.2.2.1.trans h'.2.2.2.1,
    h.2.2.2.2.1.trans h'.2.2.2.2.1, h.2.2.2.2.2.trans h'.2.2.2.2.2⟩

/-- A new entry holds its message. -/
lemma pending_spec (now seq : Nat) :
    desk.key (m.pending now seq) = (m.idenId, seq) ∧ (m.pending now seq).message = m.passed := by
  have hx : (if (m.extra.getD {}).empty then none else some (m.extra.getD {})) =
      if (m.extra.getD {}).empty then none else m.extra := by
    cases m.extra <;> rfl
  unfold Message.pending
  dsimp only
  split
  next h => exact ⟨rfl, by rw [PendingIdentitySend.message, Message.passed, hx, h]⟩
  next h => exact ⟨rfl, by rw [PendingIdentitySend.message, Message.passed, hx]⟩

/-- What it takes to be coalesced. -/
lemma of_coalesces (h : e.coalesces m = true) :
    e.attachments = [] ∧ e.idenId = m.idenId ∧ e.dest = m.dest ∧ e.title = m.title ∧
      e.content = m.content :=
  of_decide_eq_true h

lemma Extra.kind_none {x : Extra} (h : x.kind = none) : x.empty = true := by
  unfold Extra.kind at h
  split at h
  next he => exact he
  next => cases h

/-- An entry holds the message that is coalesced into it. -/
lemma coalesced_spec {now : Nat} (h : e.coalesces m = true) (hatts : m.attachments = [])
    (hk : e.extra.kind = m.kind) : (e.coalesced now m).message = m.passed := by
  obtain ⟨ha, hi, hd, ht, hc⟩ := of_coalesces h
  have hx : (if (m.extra.getD e.extra).empty then none else some (m.extra.getD e.extra)) =
      if (m.extra.getD {}).empty then none else m.extra := by
    unfold Message.kind at hk
    cases hm : m.extra with
    | some x => rfl
    | none =>
      rw [hm] at hk
      exact if_pos (Extra.kind_none hk)
  rw [PendingIdentitySend.message, PendingIdentitySend.coalesced, Message.passed, hx]
  dsimp only
  rw [hi, hd, ht, hc, ha, hatts]

/-- The message that an entry held is like the one that is coalesced into it. -/
lemma alike_of_coalesces {m' : Message} (h : e.coalesces m = true) (hatts : m.attachments = [])
    (hk : e.extra.kind = m.kind) (hm : e.message = m'.passed) : Alike m' m := by
  obtain ⟨ha, hi, hd, ht, hc⟩ := of_coalesces h
  have hkind : m'.kind = e.extra.kind := by
    have hx := congrArg Message.extra hm
    unfold PendingIdentitySend.message Message.passed at hx
    dsimp only at hx
    unfold Message.kind Extra.kind
    cases he : e.extra.empty with
    | true =>
      rw [he] at hx
      cases hme : (m'.extra.getD {}).empty with
      | true => rfl
      | false =>
        rw [hme] at hx
        have hnone : m'.extra = none := hx.symm
        rw [hnone] at hme
        cases hme
    | false =>
      rw [he] at hx
      cases hme : (m'.extra.getD {}).empty with
      | true =>
        rw [hme] at hx
        cases hx
      | false =>
        rw [hme] at hx
        have hsome : m'.extra = some e.extra := hx.symm
        rw [hsome]
        rfl
  refine ⟨?_, ?_, ?_, ?_, ?_, hkind.trans hk⟩
  · exact (congrArg Message.idenId hm).symm.trans hi
  · exact (congrArg Message.dest hm).symm.trans hd
  · exact (congrArg Message.title hm).symm.trans ht
  · exact (congrArg Message.content hm).symm.trans hc
  · exact ((congrArg Message.attachments hm).symm.trans ha).trans hatts.symm

/-- A send that is coalesced into an entry. -/
lemma Inv.replace {now : Nat} (h : Inv acc (l1 ++ e :: l2) log next) (hc : e.coalesces m = true)
    (hatts : m.attachments = []) (hk : e.extra.kind = m.kind) :
    Inv (acc ++ [((m.idenId, e.outboxSeq), m)]) (l1 ++ e.coalesced now m :: l2) log next := by
  have he : e ∈ l1 ++ e :: l2 := mem_split.mpr (.inl rfl)
  obtain ⟨-, hi, -⟩ := of_coalesces hc
  have hkey : desk.key e = (m.idenId, e.outboxSeq) := by
    rw [← hi]
    rfl
  obtain ⟨⟨m', hnew, hmsg⟩, -⟩ := h.booked.waiting e he
  have hmem := mem_of_newest hnew
  have halike : Alike m' m := alike_of_coalesces hc hatts hk hmsg
  have hold : ∀ a ∈ acc, a.1 = (m.idenId, e.outboxSeq) → Alike a.2 m := fun a ha hak =>
    (h.alike a ha _ hmem (hak.trans hkey.symm)).trans halike
  refine ⟨?_, fun a ha => ?_, h.logged, fun a ha b hb hab => ?_, fun a ha hne => ?_⟩
  · rw [← hkey]
    exact h.booked.replace rfl (coalesced_spec hc hatts hk)
  · rcases List.mem_append.mp ha with ha | ha
    · exact h.issued a ha
    · obtain rfl := List.mem_singleton.mp ha
      obtain ⟨h0, hle⟩ := h.entry he
      exact ⟨rfl, h0, hi ▸ hle⟩
  · rcases List.mem_append.mp ha with ha | ha
    · rcases List.mem_append.mp hb with hb | hb
      · exact h.alike a ha b hb hab
      · obtain rfl := List.mem_singleton.mp hb
        exact hold a ha hab
    · obtain rfl := List.mem_singleton.mp ha
      rcases List.mem_append.mp hb with hb | hb
      · exact (hold b hb hab.symm).symm
      · obtain rfl := List.mem_singleton.mp hb
        exact Alike.refl
  · rcases List.mem_append.mp ha with ha | ha
    · have hka : ¬ (m.idenId, e.outboxSeq) = a.1 := fun hka =>
        hne ((hold a ha hka.symm).2.2.2.2.1.trans hatts)
      rw [List.filter_append, h.once a ha hne, List.filter_cons_of_neg (by simpa using hka)]
      rfl
    · obtain rfl := List.mem_singleton.mp ha
      exact absurd hatts hne

/-- The counter of one outbox goes up. -/
lemma le_update {iden : IdentityId} {n : Nat} (h : next iden ≤ n) (i : IdentityId) :
    next i ≤ Function.update next iden n i := by
  by_cases hi : i = iden
  · subst hi
    rw [Function.update_self]
    exact h
  · rw [Function.update_of_ne hi]

/-- A send that is accepted under a new number. -/
lemma Inv.accept {now n : Nat} (h : Inv acc queue log next) (hn : n = next m.idenId + 1) :
    Inv (acc ++ [((m.idenId, n), m)]) (queue ++ [m.pending now n]) log
      (Function.update next m.idenId n) := by
  obtain ⟨hkey, hmsg⟩ := pending_spec (m := m) now n
  have hle : ∀ i, next i ≤ Function.update next m.idenId n i := le_update (by omega)
  have hself : Function.update next m.idenId n m.idenId = n := Function.update_self ..
  -- the number is beyond all that were given out
  have hnew : ∀ k : Key, k.2 ≤ next k.1 → k ≠ (m.idenId, n) := by
    rintro k hk rfl
    dsimp only at hk
    omega
  have hfresh : ∀ a ∈ acc, a.1 ≠ (m.idenId, n) := fun a ha => hnew _ (h.issued a ha).2.2
  refine ⟨?_, fun a ha => ?_, fun x hx k hk => (h.logged x hx k hk).trans (hle _),
    fun a ha b hb hab => ?_, fun a ha hne => ?_⟩
  · rw [← hkey]
    refine h.booked.accept (fun a ha => ?_) (fun x hx hxk => ?_) hmsg
    · rw [hkey]
      exact hfresh a ha
    · rw [hkey] at hxk
      exact hnew _ (h.logged x hx _ hxk) rfl
  · rcases List.mem_append.mp ha with ha | ha
    · obtain ⟨hi, h0, hb⟩ := h.issued a ha
      exact ⟨hi, h0, hb.trans (hle _)⟩
    · obtain rfl := List.mem_singleton.mp ha
      exact ⟨rfl, by rw [hn]; exact Nat.succ_ne_zero _, hself.ge⟩
  · rcases List.mem_append.mp ha with ha | ha
    · rcases List.mem_append.mp hb with hb | hb
      · exact h.alike a ha b hb hab
      · obtain rfl := List.mem_singleton.mp hb
        exact absurd hab (hfresh a ha)
    · obtain rfl := List.mem_singleton.mp ha
      rcases List.mem_append.mp hb with hb | hb
      · exact absurd hab.symm (hfresh b hb)
      · obtain rfl := List.mem_singleton.mp hb
        exact Alike.refl
  · rw [List.filter_append]
    rcases List.mem_append.mp ha with ha | ha
    · have hka : ¬ (m.idenId, n) = a.1 := Ne.symm (hfresh a ha)
      rw [h.once a ha hne, List.filter_cons_of_neg (by simpa using hka)]
      rfl
    · obtain rfl := List.mem_singleton.mp ha
      have hnil : acc.filter (·.1 = (m.idenId, n)) = [] :=
        List.filter_eq_nil_iff.mpr fun b hb => by simpa using hfresh b hb
      rw [hnil, List.filter_cons_of_pos (by simp)]
      rfl

/-- What `send` accepts, when its counter does not wrap and it is coalesced into its own kind. -/
lemma Inv.send {s : Queueing} (h : Inv s.accepted s.sender.queue s.sender.log s.sender.nextSeq)
    (hk : s.Keeps (.send w m)) :
    let s' := s.step (.send w m)
    Inv s'.accepted s'.sender.queue s'.sender.log s'.sender.nextSeq := by
  obtain ⟨-, hseq, hkind⟩ := hk
  have h1 : Sent w s.sender m 0 _ _ := sent hseq fun p hp => (h.entry hp).1
  unfold Queueing.step
  dsimp only
  generalize s.sender.send w m 0 = x at h1
  obtain ⟨t, r⟩ := x
  dsimp only at h1 ⊢
  cases h1 with
  | inactive => exact h
  | refused => exact h
  | added _ _ _ hn => exact h.accept hn
  | coalesced _ _ hf _ =>
    have hkp := hkind _ hf
    unfold Sender.findCoalesced at hf
    split at hf
    next hatts =>
      obtain ⟨hc, l1, l2, hl, hmod⟩ := modifyFirst_of_find hf
      dsimp only
      rw [hmod]
      rw [hl] at h
      exact h.replace hc hatts hkp
    next => cases hf
  | handed _ hh =>
    have hqueue := hh.queue
    have hres : s.sender.appendOutbox m.idenId 0 = s.sender.reserveSeq m.idenId := if_pos rfl
    have hsnd : (s.sender.reserveSeq m.idenId).2 = s.sender.nextSeq m.idenId + 1 :=
      Nat.mod_eq_of_lt hseq
    have hnext : (s.sender.reserveSeq m.idenId).1.nextSeq =
        Function.update s.sender.nextSeq m.idenId (s.sender.nextSeq m.idenId + 1) := by
      rw [← hsnd]
      rfl
    obtain ⟨err, rfl, hlog, -, hn⟩ | ⟨rfl, -, hlog, -, hn⟩ | ⟨rfl, hn, ho⟩ := hh.outcome
    · rw [hqueue, hlog, hn]
      exact h
    · rw [hqueue, hlog, hn]
      refine h.note (fun _ => le_rfl) fun k hk => ?_
      obtain rfl := Option.some.inj hk
      exact ⟨Nat.zero_le _, .inl rfl⟩
    · rw [hqueue, hn, hres, hnext]
      rw [hres, hsnd] at ho
      have hle : ∀ i, s.sender.nextSeq i ≤ Function.update s.sender.nextSeq m.idenId
          (s.sender.nextSeq m.idenId + 1) i := le_update (Nat.le_succ _)
      have hkey : ∀ k : Key, k = (m.idenId, s.sender.nextSeq m.idenId + 1) →
          k.2 ≤ Function.update s.sender.nextSeq m.idenId (s.sender.nextSeq m.idenId + 1) k.1 ∧
            (k.2 = 0 ∨ s.sender.nextSeq k.1 < k.2) := by
        rintro k rfl
        dsimp only
        rw [Function.update_self]
        exact ⟨le_rfl, .inr (Nat.lt_succ_self _)⟩
      obtain ⟨hlog, -⟩ | ⟨p, hlog, -⟩ := ho
      · rw [hlog]
        exact h.note hle fun k hk => hkey k (Option.some.inj hk).symm
      · rw [hlog]
        exact h.note hle fun k hk => hkey k (Option.some.inj hk).symm

/-- What a tick settles and what it leaves. -/
lemma Inv.tick {s : Sender} (h : Inv acc s.queue s.log s.nextSeq) :
    let s' := s.tickPendingIdentitySends w
    Inv acc s'.queue s'.log s'.nextSeq := by
  have h1 := sweep_induction (f := Sender.tickEntry w) (s := s) (d := []) (l := s.queue)
    (P := fun t done rest => Inv acc (done ++ rest) t.log t.nextSeq) h fun {t done e l} ht => by
      have h2 : Ticked w t e _ _ := ticked
      generalize t.tickEntry w e = x at h2
      obtain ⟨u, r⟩ := x
      dsimp only at h2 ⊢
      cases h2 with
      | early =>
        rw [Option.toList_some, List.append_assoc]
        exact ht
      | polled =>
        rw [Option.toList_some, List.append_assoc]
        exact ht.keep rfl rfl
      | retried =>
        rw [Option.toList_some, List.append_assoc]
        exact ht.keep (by unfold PendingIdentitySend.retried; split <;> rfl)
          (by unfold PendingIdentitySend.retried; split <;> rfl)
      | gaveUp =>
        rw [Option.toList_none, List.append_nil]
        exact ht.settle (.inl rfl)
      | routed _ _ ha =>
        rw [Option.toList_none, List.append_nil]
        obtain ⟨h0, hle⟩ := ht.entry (mem_split.mpr (.inl rfl))
        rw [ha.nextSeq h0 hle]
        obtain ⟨hlog, -⟩ | ⟨seq, hs, ⟨hlog, -⟩ | ⟨p, hlog, -⟩⟩ := ha.outcome
        · rw [hlog]
          exact ht.settle (.inl rfl)
        · rw [hlog]
          exact ht.settle (.inr (.inl (by rw [hs h0])))
        · rw [hlog]
          exact ht.settle (.inr (.inr (by rw [hs h0])))
  rw [List.append_nil] at h1
  exact h1

/-- The queue of stamped sends is another one. -/
lemma stampTick_queue {t : Sender} {progress : StampProgress} :
    (t.tickPendingStampSends progress).queue = t.queue := by
  unfold Sender.tickPendingStampSends
  split
  next => rfl
  next =>
    split
    next => rfl
    next => split <;> rfl

lemma stampTick_spec {t : Sender} (progress : StampProgress) :
    (t.tickPendingStampSends progress).nextSeq = t.nextSeq ∧
      ((t.tickPendingStampSends progress).log = t.log ∨
        ∃ o : Outcome, o.key = none ∧ (t.tickPendingStampSends progress).log = t.log ++ [o]) := by
  unfold Sender.tickPendingStampSends
  split
  next => exact ⟨rfl, .inl rfl⟩
  next =>
    split
    next => exact ⟨rfl, .inl rfl⟩
    next =>
      split
      next => exact ⟨rfl, .inl rfl⟩
      next => exact ⟨rfl, .inr ⟨_, rfl, rfl⟩⟩
      next => exact ⟨rfl, .inr ⟨_, rfl, rfl⟩⟩

/-- One event of a run. -/
lemma Inv.step {s : Queueing} {ev : Event} (hk : s.Keeps ev)
    (h : Inv s.accepted s.sender.queue s.sender.log s.sender.nextSeq) :
    let s' := s.step ev
    Inv s'.accepted s'.sender.queue s'.sender.log s'.sender.nextSeq := by
  cases ev with
  | send w m => exact h.send hk
  | tick w => exact h.tick
  | announced dest now =>
    refine { h with booked := h.booked.map (fun e => ?_) fun e => ?_ }
    · split <;> rfl
    · split <;> rfl
  | stampTick progress =>
    dsimp only [Queueing.step]
    obtain ⟨hn, hl | ⟨o, ho, hl⟩⟩ := stampTick_spec (t := s.sender) _
    · rw [stampTick_queue, hn, hl]
      exact h
    · rw [stampTick_queue, hn, hl]
      refine h.note (fun _ => le_rfl) fun k hk => ?_
      rw [ho] at hk
      cases hk

/-- The longest time between two tries. -/
def maxBackoff : Nat := PENDING_ID_BACKOFF_MS * (PENDING_ID_MAX_ATTEMPTS - 1)

/-- When the entry is tried again at the latest. -/
def PendingIdentitySend.deadline (e : PendingIdentitySend) : Nat :=
  if e.attachments = [] then e.nextAtMs else e.nextRequestMs + PENDING_ATTACH_RECHECK_MS

/-- An entry has tries left and waits no longer than the longest time for the next. -/
structure Timed (now : Nat) (e : PendingIdentitySend) : Prop where
  tries : e.attempts < e.maxAttempts
  next : e.nextAtMs ≤ e.deadline
  deadline : e.deadline ≤ now + maxBackoff

/-- An entry that the ticks settle when `c` of them come after `last`, each so much later. -/
def Pace (last c : Nat) (e : PendingIdentitySend) : Prop :=
  (e.deadline ≤ last + maxBackoff ∧ e.maxAttempts ≤ e.attempts + c) ∨
    e.maxAttempts + 1 ≤ e.attempts + c

/-- How many ticks of a run come after `last` and so much later than the one counted before. -/
def ticksApart (gap : Nat) : Nat → List Event → Nat
  | _, [] => 0
  | last, .tick w :: es =>
    if last + gap ≤ w.millis then ticksApart gap w.millis es + 1 else ticksApart gap last es
  | last, _ :: es => ticksApart gap last es

/-- No send is accepted under the number. -/
def Queueing.Leaves (k : Key) (s : Queueing) (ev : Event) : Prop :=
  (s.step ev).accepted.filter (·.1 = k) = s.accepted.filter (·.1 = k)

variable {s : Queueing} {ev : Event} {k : Key} {now last c : Nat}

/-- What a tick leaves in the queue. -/
inductive Left (now : Nat) (e : PendingIdentitySend) : PendingIdentitySend → Prop where
  | early : now < e.nextAtMs → Left now e e
  | polled : e.attachments ≠ [] → e.nextAtMs ≤ now → now < e.nextRequestMs →
      Left now e { e with nextAtMs := now + PENDING_ATTACH_RECHECK_MS }
  | retried : e.nextAtMs ≤ now → e.attempts + 1 < e.maxAttempts → Left now e (e.retried now)

lemma mem_tick {t : Sender} (h : e' ∈ (t.tickPendingIdentitySends w).queue) :
    ∃ e ∈ t.queue, Left w.millis e e' := by
  have h1 := sweep_induction (f := Sender.tickEntry w) (s := t) (d := []) (l := t.queue)
    (P := fun _ done rest =>
      (∀ x ∈ done, ∃ e ∈ t.queue, Left w.millis e x) ∧ ∀ x ∈ rest, x ∈ t.queue)
    ⟨nofun, fun _ hx => hx⟩ fun {u done e l} ⟨hd, hr⟩ => by
      have h2 : Ticked w u e _ _ := ticked
      refine ⟨fun x hx => ?_, fun x hx => hr x (List.mem_cons_of_mem _ hx)⟩
      rcases List.mem_append.mp hx with hx | hx
      · exact hd x hx
      · generalize u.tickEntry w e = y at h2 hx
        obtain ⟨u', r⟩ := y
        obtain rfl := Option.mem_toList.mp hx
        refine ⟨e, hr e List.mem_cons_self, ?_⟩
        cases h2 with
        | early h => exact .early h
        | polled ha h h' => exact .polled ha h h'
        | retried h h' => exact .retried h h'
  exact h1.1 e' h

lemma retried_attempts : (e.retried now).attempts = e.attempts + 1 := by
  unfold PendingIdentitySend.retried
  split <;> rfl

lemma retried_maxAttempts : (e.retried now).maxAttempts = e.maxAttempts := by
  unfold PendingIdentitySend.retried
  split <;> rfl

lemma retried_timed (h : e.attempts + 1 < e.maxAttempts) : Timed now (e.retried now) := by
  refine ⟨by rw [retried_attempts, retried_maxAttempts]; exact h, ?_, ?_⟩
  · unfold PendingIdentitySend.deadline PendingIdentitySend.retried
    by_cases ha : e.attachments = []
    · simp only [ha, if_true, le_refl]
    · simp only [ha, if_false]
      exact Nat.add_le_add_right (Nat.le_add_right _ _) _
  · unfold PendingIdentitySend.deadline PendingIdentitySend.retried
    unfold PendingIdentitySend.maxAttempts at h
    by_cases ha : e.attachments = []
    · rw [if_pos ha] at h
      simp only [ha, if_true]
      exact Nat.add_le_add_left (Nat.mul_le_mul_left _ (Nat.le_pred_of_lt h)) _
    · simp only [ha, if_false]
      rw [Nat.add_assoc]
      exact Nat.add_le_add_left (by decide) _

/-- An entry that is left is due in time. -/
lemma Timed.left (h : Timed last e) (hle : last ≤ now) (hl : Left now e e') : Timed now e' := by
  cases hl with
  | early => exact { h with deadline := h.deadline.trans (Nat.add_le_add_right hle _) }
  | polled ha _ hreq =>
    have hd : e.deadline = e.nextRequestMs + PENDING_ATTACH_RECHECK_MS := if_neg ha
    have hd' : PendingIdentitySend.deadline { e with nextAtMs := now + PENDING_ATTACH_RECHECK_MS } =
        e.nextRequestMs + PENDING_ATTACH_RECHECK_MS := if_neg ha
    refine ⟨h.tries, ?_, ?_⟩
    · rw [hd']
      exact Nat.add_le_add_right hreq.le _
    · rw [hd', ← hd]
      exact h.deadline.trans (Nat.add_le_add_right hle _)
  | retried _ hlt => exact retried_timed hlt

/-- A tick that leaves an entry brings it nearer to its end. -/
lemma Pace.left (h : Pace last c e) (ht : Timed now e) (hl : Left now e e') :
    Pace last c e' ∧ (last + maxBackoff ≤ now → ∃ d, c = d + 1 ∧ Pace now d e') := by
  have htries := ht.tries
  have hdl := ht.deadline
  cases hl with
  | early hearly =>
    refine ⟨h, fun hgap => ?_⟩
    have hnext := ht.next
    obtain ⟨hd, -⟩ | hc := h
    · omega
    · exact ⟨c - 1, by omega, .inl ⟨hdl, by omega⟩⟩
  | polled ha hdue hreq =>
    have hd : e.deadline = e.nextRequestMs + PENDING_ATTACH_RECHECK_MS := if_neg ha
    have hd' : PendingIdentitySend.deadline { e with nextAtMs := now + PENDING_ATTACH_RECHECK_MS } =
        e.deadline := (if_neg ha).trans hd.symm
    unfold Pace
    rw [hd']
    refine ⟨h, fun hgap => ?_⟩
    obtain ⟨hdue', -⟩ | hc := h
    · omega
    · refine ⟨c - 1, by omega, .inl ⟨hdl, ?_⟩⟩
      show e.maxAttempts ≤ e.attempts + (c - 1)
      omega
  | retried _ hlt =>
    have hr := (show Timed now (e.retried now) from retried_timed hlt).deadline
    unfold Pace
    rw [retried_attempts, retried_maxAttempts]
    obtain ⟨-, hc⟩ | hc := h
    · exact ⟨.inr (by omega), fun _ => ⟨c - 1, by omega, .inl ⟨hr, by omega⟩⟩⟩
    · exact ⟨.inr (by omega), fun _ => ⟨c - 1, by omega, .inl ⟨hr, by omega⟩⟩⟩

/-- An entry that an announce makes due. -/
lemma drained_spec (h : Timed last e) (hle : last ≤ now) (hdue : now < e.nextAtMs) :
    let e' := { e with nextAtMs := now }
    Timed now e' ∧ e'.deadline ≤ e.deadline ∧ e'.attempts = e.attempts ∧
      e'.maxAttempts = e.maxAttempts := by
  have hnext := h.next
  have hdl := h.deadline
  have hd : PendingIdentitySend.deadline { e with nextAtMs := now } ≤ e.deadline ∧
      now ≤ PendingIdentitySend.deadline { e with nextAtMs := now } := by
    unfold PendingIdentitySend.deadline at hnext ⊢
    by_cases ha : e.attachments = []
    · simp only [ha, if_true, le_refl, and_true]
      exact hdue.le
    · simp only [ha, if_false] at hnext ⊢
      exact ⟨le_rfl, hdue.le.trans hnext⟩
  exact ⟨⟨h.tries, hd.2, by omega⟩, hd.1, rfl, rfl⟩

lemma maxAttempts_pos : 0 < e.maxAttempts := by
  unfold PendingIdentitySend.maxAttempts
  split
  next => exact Nat.succ_pos _
  next => exact Nat.succ_pos _

/-- A send that is accepted is noted under its number. -/
lemma not_leaves (h : (s.step ev).accepted = s.accepted ++ [(k, m)]) : ¬ s.Leaves k ev := by
  intro hl
  rw [Queueing.Leaves, h, List.filter_append, List.filter_cons_of_pos (by simp)] at hl
  exact absurd (List.append_right_eq_self.mp hl) (List.cons_ne_nil _ _)

/-- An entry that was not there before a send, or not like this, was accepted by it. -/
lemma mem_send (h : Inv s.accepted s.sender.queue s.sender.log s.sender.nextSeq)
    (hk : s.Keeps (.send w m))
    (he : e ∈ (s.step (.send w m)).sender.queue) :
    e ∈ s.sender.queue ∨ (Timed w.millis e ∧ ¬ s.Leaves (e.idenId, e.outboxSeq) (.send w m)) := by
  obtain ⟨hnow, hseq, -⟩ := hk
  have h1 : Sent w s.sender m 0 _ _ := sent hseq fun p hp => (h.entry hp).1
  have hnl : (s.step (.send w m)).accepted = s.accepted ++ [((e.idenId, e.outboxSeq), m)] →
      ¬ s.Leaves (e.idenId, e.outboxSeq) (.send w m) := not_leaves
  unfold Queueing.step at he hnl
  dsimp only at he hnl
  generalize s.sender.send w m 0 = x at h1 he hnl
  obtain ⟨t, r⟩ := x
  dsimp only at h1 he hnl
  cases h1 with
  | inactive => exact .inl he
  | refused => exact .inl he
  | handed _ hh =>
    rw [hh.queue] at he
    exact .inl he
  | @added n _ _ _ hn =>
    rcases List.mem_append.mp he with he | he
    · exact .inl he
    · obtain rfl := List.mem_singleton.mp he
      obtain ⟨hkey, -⟩ := pending_spec (m := m) w.millis n
      refine .inr ⟨?_, hnl (congrArg (fun k : Key => s.accepted ++ [(k, m)]) hkey.symm)⟩
      unfold Message.pending
      dsimp only
      split
      next ha =>
        exact ⟨maxAttempts_pos, le_rfl, Nat.add_le_add_left (by decide) _⟩
      next ha =>
        refine ⟨maxAttempts_pos, ?_, ?_⟩
        · rw [PendingIdentitySend.deadline, if_neg ha, Nat.add_assoc]
          exact Nat.add_le_add_left (by decide) _
        · rw [PendingIdentitySend.deadline, if_neg ha, Nat.add_assoc]
          exact Nat.add_le_add_left (by decide) _
  | @coalesced p _ _ hf _ =>
    unfold Sender.findCoalesced at hf
    split at hf
    next hatts =>
      obtain ⟨hc, l1, l2, hl, hmod⟩ := modifyFirst_of_find hf
      obtain ⟨ha, hi, -⟩ := of_coalesces hc
      rw [hmod] at he
      rcases mem_split.mp he with rfl | he
      · refine .inr ⟨?_, hnl (by rw [← hi]; rfl)⟩
        have hd : (p.coalesced w.millis m).deadline = w.millis + PENDING_ID_BACKOFF_MS :=
          if_pos ha
        refine ⟨maxAttempts_pos, hd.ge, ?_⟩
        rw [hd]
        exact Nat.add_le_add_left (by decide) _
      · rw [hl]
        exact .inl (mem_split.mpr (.inr he))
    next => cases hf

/-- The entries stay in time. -/
lemma Timed.step (h : Inv s.accepted s.sender.queue s.sender.log s.sender.nextSeq)
    (ht : ∀ e ∈ s.sender.queue, Timed s.now e) (hk : s.Keeps ev) :
    ∀ e ∈ (s.step ev).sender.queue, Timed (s.step ev).now e := by
  intro e he
  have hlate : ∀ {now}, s.now ≤ now → ∀ e ∈ s.sender.queue, Timed now e := fun hle e he =>
    { ht e he with deadline := (ht e he).deadline.trans (Nat.add_le_add_right hle _) }
  cases ev with
  | send w m =>
    rcases mem_send h hk he with he | ⟨he, -⟩
    · exact hlate hk.1 e he
    · exact he
  | tick w =>
    obtain ⟨e, hmem, hl⟩ := mem_tick he
    exact (ht e hmem).left hk hl
  | announced dest now =>
    obtain ⟨e, hmem, rfl⟩ := List.mem_map.mp he
    split
    next hdue => exact (drained_spec (ht e hmem) hk hdue.2).1
    next => exact hlate hk e hmem
  | stampTick progress =>
    dsimp only [Queueing.step] at he ⊢
    rw [stampTick_queue] at he
    exact ht e he

/-- An entry that has no more tries than there are ticks to come does not last. -/
lemma Pace.run {es : List Event} (h : Inv s.accepted s.sender.queue s.sender.log s.sender.nextSeq)
    (ht : ∀ e ∈ s.sender.queue, Timed s.now e)
    (hes : Allowed Queueing.step (fun s ev => s.Keeps ev ∧ s.Leaves k ev) s es)
    (hp : ∀ e ∈ s.sender.queue, (e.idenId, e.outboxSeq) = k → Pace last c e)
    (hc : c ≤ ticksApart maxBackoff last es) :
    ∀ e ∈ (es.foldl Queueing.step s).sender.queue, (e.idenId, e.outboxSeq) ≠ k := by
  induction es generalizing s last c with
  | nil =>
    intro e he hek
    have htries := (ht e he).tries
    obtain rfl := Nat.le_zero.mp hc
    obtain ⟨-, h1⟩ | h1 := hp e he hek <;> omega
  | cons ev es ih =>
    obtain ⟨⟨hk, hl⟩, hes⟩ := hes
    have h1 := h.step hk
    have ht1 := Timed.step h ht hk
    cases ev with
    | send w m =>
      refine ih h1 ht1 hes (fun e he hek => ?_) hc
      rcases mem_send h hk he with he | ⟨-, hnl⟩
      · exact hp e he hek
      · exact absurd (hek ▸ hl) hnl
    | tick w =>
      rw [ticksApart] at hc
      have hleft : ∀ e' ∈ (s.step (.tick w)).sender.queue, (e'.idenId, e'.outboxSeq) = k →
          Pace last c e' ∧ (last + maxBackoff ≤ w.millis → ∃ d, c = d + 1 ∧
          Pace w.millis d e') := by
        intro e' he' hek
        obtain ⟨e, he, hle⟩ := mem_tick he'
        have hkey : (e.idenId, e.outboxSeq) = (e'.idenId, e'.outboxSeq) := by
          cases hle with
          | early => rfl
          | polled => rfl
          | retried =>
            unfold PendingIdentitySend.retried
            split <;> rfl
        have hte := ht e he
        refine (hp e he (hkey.trans hek)).left ?_ hle
        exact { hte with deadline := hte.deadline.trans (Nat.add_le_add_right hk _) }
      split at hc
      next hgap =>
        have hc' : c - 1 ≤ ticksApart maxBackoff w.millis es := by omega
        refine ih h1 ht1 hes (fun e he hek => ?_) hc'
        obtain ⟨d, rfl, hd⟩ := (hleft e he hek).2 hgap
        exact hd
      next => exact ih h1 ht1 hes (fun e he hek => (hleft e he hek).1) hc
    | announced dest now =>
      refine ih h1 ht1 hes (fun e he hek => ?_) hc
      obtain ⟨e, hmem, rfl⟩ := List.mem_map.mp he
      by_cases hdue : e.dest = dest ∧ e.nextAtMs > now
      · rw [if_pos hdue] at hek ⊢
        obtain ⟨-, hd, ha, hm⟩ := drained_spec (ht e hmem) hk hdue.2
        unfold Pace
        rw [ha, hm]
        exact (hp e hmem hek).imp_left fun ⟨h1, h2⟩ => ⟨hd.trans h1, h2⟩
      · rw [if_neg hdue] at hek ⊢
        exact hp e hmem hek
    | stampTick progress =>
      refine ih h1 ht1 hes (fun e he hek => ?_) hc
      dsimp only [Queueing.step] at he
      rw [stampTick_queue] at he
      exact hp e he hek

/-- What is handed to the queue of stamped sends. -/
def Outcome.deferral : Outcome → Option (Message × Nat)
  | .deferred m seq => some (m, seq)
  | _ => none

/-- How a stamped send ends: with its message, or as failed. -/
def Outcome.stampEnd : Outcome → Option (Key × Option Message)
  | .stamped m seq => some ((m.idenId, seq), some m)
  | .stampFailed idenId seq => some ((idenId, seq), none)
  | _ => none

/-- A stamped send ends, or waits, as what it was handed over as. -/
def Follows (d : Message × Nat) (x : Key × Option Message) : Prop :=
  x.1 = (d.1.idenId, d.2) ∧ ∀ m ∈ x.2, m = d.1

/-- An entry that waits for its stamp. -/
def PendingStampSend.waits (p : PendingStampSend) : Key × Option Message :=
  ((p.idenId, p.outboxSeq), some p.message)

/-- The stamped sends that have ended. -/
def stampEnds (log : List Outcome) : List (Key × Option Message) := log.filterMap Outcome.stampEnd

/-- The stamped sends end in the order in which they were handed over, each once. -/
structure InOrder (active : IdentityId → Bool) (stamps : List PendingStampSend)
    (log : List Outcome) : Prop where
  active : ∀ p ∈ stamps, active p.idenId = true ∧ p.idenId = p.message.idenId
  follows : List.Forall₂ Follows (log.filterMap Outcome.deferral)
    (stampEnds log ++ stamps.map PendingStampSend.waits)

variable {active : IdentityId → Bool} {stamps q : List PendingStampSend} {f : PendingStampSend}
  {seq : Nat}

lemma forall₂_change {α β : Type} {R : α → β → Prop} {l : List α} {l1 l2 : List β} {a b : β}
    (hab : ∀ d, R d a → R d b) (h : List.Forall₂ R l (l1 ++ a :: l2)) :
    List.Forall₂ R l (l1 ++ b :: l2) := by
  induction l1 generalizing l with
  | nil =>
    cases h with
    | cons hd hl => exact .cons (hab _ hd) hl
  | cons c l1 ih =>
    cases h with
    | cons hd hl => exact .cons hd (ih hl)

/-- What is no stamped send. -/
lemma InOrder.note (h : InOrder active stamps log) (hd : o.deferral = none)
    (he : o.stampEnd = none) : InOrder active stamps (log ++ [o]) := by
  refine ⟨h.active, ?_⟩
  have h1 : stampEnds (log ++ [o]) = stampEnds log := by
    rw [stampEnds, List.filterMap_append, List.filterMap_cons_none he]
    exact List.append_nil _
  rw [h1, List.filterMap_append, List.filterMap_cons_none hd, List.filterMap_nil, List.append_nil]
  exact h.follows

/-- A message that is handed over. -/
lemma InOrder.handOver (h : InOrder active stamps log) (ha : active m.idenId = true)
    (hp : f.Holds m seq) : InOrder active (stamps ++ [f]) (log ++ [.deferred m seq]) := by
  obtain ⟨hm, hi, hs⟩ := hp
  refine ⟨fun p hp => ?_, ?_⟩
  · rcases List.mem_append.mp hp with hp | hp
    · exact h.active p hp
    · obtain rfl := List.mem_singleton.mp hp
      exact ⟨hi ▸ ha, by rw [hm, hi]⟩
  · have h1 : stampEnds (log ++ [.deferred m seq]) = stampEnds log := by
      rw [stampEnds, List.filterMap_append]
      exact List.append_nil _
    rw [h1, List.filterMap_append, List.map_append, ← List.append_assoc]
    refine List.rel_append h.follows (.cons ⟨?_, fun x hx => ?_⟩ .nil)
    · exact congrArg₂ Prod.mk hi hs
    · exact (Option.some.inj hx).symm.trans hm

/-- The front of the queue of stamped sends comes to its end. -/
lemma InOrder.finish (h : InOrder active (f :: q) log) (hd : o.deferral = none)
    {x : Key × Option Message} (he : o.stampEnd = some x) (hk : x.1 = (f.idenId, f.outboxSeq))
    (hm : ∀ m ∈ x.2, m = f.message) : InOrder active q (log ++ [o]) := by
  refine ⟨fun p hp => h.active p (List.mem_cons_of_mem f hp), ?_⟩
  have h1 : stampEnds (log ++ [o]) = stampEnds log ++ [x] := by
    rw [stampEnds, List.filterMap_append, List.filterMap_cons_some he]
    rfl
  rw [h1, List.filterMap_append, List.filterMap_cons_none hd, List.filterMap_nil, List.append_nil,
    List.append_assoc]
  refine forall₂_change (fun d hd => ⟨hk.trans hd.1, fun m hx => ?_⟩) h.follows
  exact (hm m hx).trans (hd.2 _ rfl)

lemma InOrder.send (h : InOrder s.sender.active s.sender.stamps s.sender.log)
    (hq : ∀ p ∈ s.sender.queue, p.outboxSeq ≠ 0) (hk : s.Keeps (.send w m)) :
    let t := (s.step (.send w m)).sender
    InOrder t.active t.stamps t.log := by
  have h1 : Sent w s.sender m 0 _ _ := sent hk.2.1 hq
  unfold Queueing.step
  dsimp only
  generalize s.sender.send w m 0 = x at h1
  obtain ⟨t, r⟩ := x
  dsimp only at h1 ⊢
  cases h1 with
  | inactive => exact h
  | refused => exact h
  | added => exact h
  | coalesced => exact h
  | handed hact hh =>
    rw [hh.active]
    obtain ⟨-, -, hl, hs, -⟩ | ⟨-, -, hl, hs, -⟩ | ⟨-, -, ⟨hl, hs⟩ | ⟨p, hl, hs, hp⟩⟩ := hh.outcome
    · rw [hl, hs]
      exact h
    · rw [hl, hs]
      exact h.note rfl rfl
    · rw [hl, hs]
      exact h.note rfl rfl
    · rw [hl, hs]
      exact h.handOver hact hp

lemma InOrder.tick {t : Sender} (h : InOrder t.active t.stamps t.log) :
    let u := t.tickPendingIdentitySends w
    InOrder u.active u.stamps u.log := by
  refine sweep_induction (f := Sender.tickEntry w) (s := t) (d := []) (l := t.queue)
    (P := fun u _ _ => InOrder u.active u.stamps u.log) h fun {u done e l} hu => ?_
  have h2 : Ticked w u e _ _ := ticked
  generalize u.tickEntry w e = x at h2
  obtain ⟨v, r⟩ := x
  dsimp only at h2 ⊢
  cases h2 with
  | early => exact hu
  | polled => exact hu
  | retried => exact hu
  | gaveUp => exact hu.note rfl rfl
  | routed _ _ ha =>
    rw [ha.active]
    obtain ⟨hl, hs⟩ | ⟨seq, -, ⟨hl, hs⟩ | ⟨p, hl, hs, hact, hp⟩⟩ := ha.outcome
    · rw [hl, hs]
      exact hu.note rfl rfl
    · rw [hl, hs]
      exact hu.note rfl rfl
    · rw [hl, hs]
      exact hu.handOver hact hp

/-- What a tick of the stamped sends does: nothing, or it ends the front. -/
lemma stampTick_cases {t : Sender} (progress : StampProgress)
    (h : InOrder t.active t.stamps t.log) :
    let u := t.tickPendingStampSends progress
    InOrder u.active u.stamps u.log ∧
      ((u = t ∧ (progress = .wait ∨ t.stamps = [])) ∨
        ∃ f o x, t.stamps = f :: u.stamps ∧ u.log = t.log ++ [o] ∧ o.stampEnd = some x) := by
  dsimp only
  unfold Sender.tickPendingStampSends
  obtain ⟨active, nextSeq, queue, stamps, staging, log⟩ := t
  cases stamps with
  | nil => exact ⟨h, .inl ⟨rfl, .inr rfl⟩⟩
  | cons f q =>
    obtain ⟨ha, hi⟩ := h.active f List.mem_cons_self
    dsimp only at ha ⊢
    rw [if_neg (by rw [ha]; exact Bool.noConfusion)]
    cases progress with
    | wait => exact ⟨h, .inl ⟨rfl, .inl rfl⟩⟩
    | fail => exact ⟨h.finish rfl rfl rfl nofun, .inr ⟨f, _, _, rfl, rfl, rfl⟩⟩
    | dispatch =>
      refine ⟨h.finish rfl rfl (by rw [hi]) fun m hm => ?_, .inr ⟨f, _, _, rfl, rfl, rfl⟩⟩
      exact (Option.some.inj hm).symm

lemma InOrder.step (h : InOrder s.sender.active s.sender.stamps s.sender.log)
    (hq : ∀ p ∈ s.sender.queue, p.outboxSeq ≠ 0) (hk : s.Keeps ev) :
    let t := (s.step ev).sender
    InOrder t.active t.stamps t.log := by
  cases ev with
  | send w m => exact h.send hq hk
  | tick w => exact h.tick
  | announced dest now => exact h
  | stampTick progress => exact (stampTick_cases progress h).1

/-- A tick that ends the front of the queue of stamped sends, if there is one. -/
def Event.completes : Event → Bool
  | .stampTick progress => progress ≠ .wait
  | _ => false

/-- The log grows. -/
lemma log_prefix (hq : ∀ p ∈ s.sender.queue, p.outboxSeq ≠ 0) (hk : s.Keeps ev) :
    s.sender.log <+: (s.step ev).sender.log := by
  cases ev with
  | send w m =>
    have h1 : Sent w s.sender m 0 _ _ := sent hk.2.1 hq
    unfold Queueing.step
    dsimp only
    generalize s.sender.send w m 0 = x at h1
    obtain ⟨t, r⟩ := x
    dsimp only at h1 ⊢
    cases h1 with
    | inactive => exact List.prefix_rfl
    | refused => exact List.prefix_rfl
    | added => exact List.prefix_rfl
    | coalesced => exact List.prefix_rfl
    | handed _ hh =>
      obtain ⟨-, -, hl, -⟩ | ⟨-, -, hl, -⟩ | ⟨-, -, ⟨hl, -⟩ | ⟨p, hl, -⟩⟩ := hh.outcome
      · exact hl ▸ List.prefix_rfl
      · exact hl ▸ List.prefix_append _ _
      · exact hl ▸ List.prefix_append _ _
      · exact hl ▸ List.prefix_append _ _
  | tick w =>
    refine sweep_induction (f := Sender.tickEntry w) (s := s.sender) (d := [])
      (l := s.sender.queue) (P := fun u _ _ => s.sender.log <+: u.log) List.prefix_rfl
      fun {u done e l} hu => hu.trans ?_
    have h2 : Ticked w u e _ _ := ticked
    generalize u.tickEntry w e = x at h2
    obtain ⟨v, r⟩ := x
    dsimp only at h2 ⊢
    cases h2 with
    | early => exact List.prefix_rfl
    | polled => exact List.prefix_rfl
    | retried => exact List.prefix_rfl
    | gaveUp => exact List.prefix_append _ _
    | routed _ _ ha =>
      obtain ⟨hl, -⟩ | ⟨seq, -, ⟨hl, -⟩ | ⟨p, hl, -⟩⟩ := ha.outcome
      · exact hl ▸ List.prefix_append _ _
      · exact hl ▸ List.prefix_append _ _
      · exact hl ▸ List.prefix_append _ _
  | announced dest now => exact List.prefix_rfl
  | stampTick progress =>
    dsimp only [Queueing.step]
    obtain ⟨-, hl | ⟨o, -, hl⟩⟩ := stampTick_spec (t := s.sender) progress
    · exact hl ▸ List.prefix_rfl
    · exact hl ▸ List.prefix_append _ _

/-- What is handed over has ended or waits. -/
lemma InOrder.length (h : InOrder active stamps log) :
    (log.filterMap Outcome.deferral).length = (stampEnds log).length + stamps.length := by
  rw [h.follows.length_eq, List.length_append, List.length_map]

/-- What a reached state keeps. -/
structure Good (s : Queueing) : Prop where
  inv : Inv s.accepted s.sender.queue s.sender.log s.sender.nextSeq
  timed : ∀ e ∈ s.sender.queue, Timed s.now e
  inOrder : InOrder s.sender.active s.sender.stamps s.sender.log

lemma Good.step (h : Good s) (hk : s.Keeps ev) : Good (s.step ev) :=
  ⟨h.inv.step hk, Timed.step h.inv h.timed hk,
    h.inOrder.step (fun _ hp => (h.inv.entry hp).1) hk⟩

/-- The stamped sends that were handed over have ended after as many ticks that complete. -/
lemma Good.stamped {es : List Event} {n : Nat} (h : Good s)
    (hes : Allowed Queueing.step Queueing.Keeps s es)
    (hn : n ≤ (s.sender.log.filterMap Outcome.deferral).length)
    (hc : n ≤ (stampEnds s.sender.log).length + es.countP Event.completes) :
    n ≤ (stampEnds (es.foldl Queueing.step s).sender.log).length := by
  induction es generalizing s with
  | nil => exact hc
  | cons ev es ih =>
    obtain ⟨hk, hes⟩ := hes
    have hpre := log_prefix (fun p hp => (h.inv.entry hp).1) hk
    have hmono : ∀ {β : Type} (g : Outcome → Option β), (s.sender.log.filterMap g).length ≤
        ((s.step ev).sender.log.filterMap g).length := fun g => (hpre.filterMap g).length_le
    refine ih (h.step hk) hes (hn.trans (hmono _)) ?_
    have hends := hmono Outcome.stampEnd
    rw [List.countP_cons] at hc
    unfold stampEnds at hc ⊢
    split at hc
    next hev =>
      cases ev with
      | stampTick progress =>
        obtain ⟨-, ⟨-, rfl | hnil⟩ | ⟨f, o, x, -, hl, hx⟩⟩ :=
          stampTick_cases progress h.inOrder
        · cases hev
        · -- none waits
          have hlen := h.inOrder.length
          rw [hnil] at hlen
          unfold stampEnds at hlen
          dsimp only [List.length_nil] at hlen
          omega
        · have hlen : ((s.step
            (.stampTick progress)).sender.log.filterMap Outcome.stampEnd).length =
            (s.sender.log.filterMap Outcome.stampEnd).length + 1 := by
            rw [show (s.step (.stampTick progress)).sender.log = _ from hl, List.filterMap_append,
              List.filterMap_cons_some hx, List.length_append]
            rfl
          omega
      | send => cases hev
      | tick => cases hev
      | announced => cases hev
    next => omega

/-- An empty queue, and nothing is logged. -/
def Queueing.Fresh (s : Queueing) : Prop :=
  s.accepted = [] ∧ s.sender.queue = [] ∧ s.sender.stamps = [] ∧ s.sender.log = []

lemma Queueing.Fresh.good (h : s.Fresh) : Good s := by
  obtain ⟨ha, hq, hs, hl⟩ := h
  refine ⟨?_, ?_, ?_⟩
  · rw [ha, hq, hl]
    exact ⟨Booked.nil, nofun, nofun, nofun, nofun⟩
  · rw [hq]
    exact nofun
  · rw [hs, hl]
    exact ⟨nofun, .nil⟩

/-- The send waits, in one entry, and has no outcome. -/
def Sender.Waits (s : Sender) (k : Key) (m : Message) : Prop :=
  ∃ e, s.queue.filter (fun e => (e.idenId, e.outboxSeq) = k) = [e] ∧ e.message = m.passed ∧
    s.log.filter (·.key = some k) = []

/-- The send does not wait, and has one outcome. -/
def Sender.Settled (s : Sender) (k : Key) (m : Message) : Prop :=
  s.queue.filter (fun e => (e.idenId, e.outboxSeq) = k) = [] ∧
    ∃ o, s.log.filter (·.key = some k) = [o] ∧ o.Tells k m.passed

/-- What has become of an accepted send. -/
lemma Good.fate (h : Good s) (ha : (k, m) ∈ s.accepted) :
    ∃ m', newest k s.accepted = some m' ∧ Alike m m' ∧ (m.attachments ≠ [] → m' = m) ∧
      (s.sender.Waits k m' ∨ s.sender.Settled k m') := by
  obtain ⟨m', hm', hf⟩ := h.inv.booked.fate ha
  have hmem := mem_of_newest hm'
  refine ⟨m', hm', h.inv.alike _ ha _ hmem rfl, fun hne => ?_, ?_⟩
  · have h1 := h.inv.once _ ha hne
    have h2 : (k, m') ∈ s.accepted.filter (·.1 = k) := List.mem_filter.mpr ⟨hmem, by simp⟩
    rw [h1, List.mem_singleton] at h2
    exact congrArg Prod.snd h2
  · obtain ⟨e, he, hc, hl⟩ | ⟨he, ho⟩ := hf
    · exact .inl ⟨e, he, hc, hl⟩
    · exact .inr ⟨he, ho⟩

/-- Events that the runs of a state allow keep what reached states keep. -/
lemma Good.run {es : List Event} {ok : Queueing → Event → Prop} (h : Good s)
    (hok : ∀ {s ev}, ok s ev → s.Keeps ev) (hes : Allowed Queueing.step ok s es) :
    Good (es.foldl Queueing.step s) := by
  induction es generalizing s with
  | nil => exact h
  | cons ev es ih => exact ih (h.step (hok hes.1)) hes.2

/-- Sends that are accepted under the number are told apart from none. -/
lemma leaves_run {es : List Event}
    (hes : Allowed Queueing.step (fun s ev => s.Keeps ev ∧ s.Leaves k ev) s es) :
    (es.foldl Queueing.step s).accepted.filter (·.1 = k) = s.accepted.filter (·.1 = k) := by
  induction es generalizing s with
  | nil => rfl
  | cons ev es ih => exact (ih hes.2).trans hes.1.2

/-- A device that finds no route. -/
def deadEnd : World where
  millis := 1000
  hasPath _ := false
  recalls _ := false
  peerStampCost _ := 0
  env _ :=
    { initialized := true, remoteIdentity := false, hasPath := false, srcHash := [],
      fullHash := id, timestamp := 0, malloc := fun _ => true, staging := fun _ => [],
      persistOutbound := none, bootEpoch := 0, millis := 1000 }
  sendPrepared _ _ _ _ := none

/-- A text that a user wrote. -/
def greeting : Message where
  idenId := [1]
  dest := [2]
  title := []
  content := [104, 105]

/-- A sender with its identity logged in. -/
def ready : Queueing := { sender := { active := fun _ => true } }

end URSupreme.SendQueue
