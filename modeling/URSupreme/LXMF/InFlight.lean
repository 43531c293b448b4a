import URSupreme.LXMF.WireKept

/-!
# Sends in flight

`send_prepared` refuses a send while `MAX_INFLIGHT_SENDS` entries are pending. Only a send adds an
entry, so there are never more. An entry whose retries are spent stays, to be retried by hand, and
it counts: once that many are kept, no send is accepted although none is under way.
-/

namespace URSupreme.Outbound
open Lib LXMF

/-- A send over a link that has come to its end. -/
def PendingLinkSend.Terminal (ps : PendingLinkSend) : Prop :=
  ps.status = .delivered ∨ ps.status = .failed ∧ ps.retryPending = false

/-- A single packet that has come to its end. -/
def PendingOppSend.Terminal (op : PendingOppSend) : Prop :=
  op.status = .delivered ∨ op.status = .failed

instance {ps : PendingLinkSend} : Decidable ps.Terminal := inferInstanceAs (Decidable (_ ∨ _))

instance {op : PendingOppSend} : Decidable op.Terminal := inferInstanceAs (Decidable (_ ∨ _))

/-- The sends that are pending. -/
def Pending.inFlight (s : Pending) : Nat := s.links.length + s.opps.length

/-- The entries of sends that have come to their end. -/
def Pending.kept (s : Pending) : Nat :=
  s.links.countP (·.2.Terminal) + s.opps.countP (·.2.Terminal)

/-- Every send that is pending has come to its end. -/
def Pending.Settled (s : Pending) : Prop :=
  (∀ x ∈ s.links, x.2.Terminal) ∧ ∀ x ∈ s.opps, x.2.Terminal

/-- The error text of a send that is refused for `MAX_INFLIGHT_SENDS`. -/
def tooMany : String := "Too many messages are still being delivered. Wait a moment, then resend."

/-- The cap counts sends that are under way, and holds. -/
structure Capped (s : Pending) : Prop where
  admits : s.Settled → ∀ C k destHash pm stamp env,
    sendPrepared C k destHash pm stamp env s ≠ .error tooMany
  bounded : s.inFlight ≤ MAX_INFLIGHT_SENDS

variable {C : Crypto} {s s' : Pending} {key link destHash wire stamp recordHash : Bytes}
  {now k : Nat} {ps : PendingLinkSend} {pm : PreparedMessage} {env : SendEnv} {tag : Tag}

/-! ### What is refused -/

lemma packWire_error {a : Slot} {err : String} (h : packWire C a destHash pm stamp = .error err) :
    err ≠ tooMany := by
  unfold packWire at h
  dsimp only at h
  split at h
  next => exact Except.error.inj h ▸ by decide
  next =>
    split at h
    next => exact Except.error.inj h ▸ by decide
    next =>
      split at h
      next => exact Except.error.inj h ▸ by decide
      next =>
        unfold payloadWire at h
        split at h
        next => cases h
        next =>
          split at h
          next => exact Except.error.inj h ▸ by decide
          next => cases h

/-- A send is refused for the cap when the entries are that many. -/
lemma sendPrepared_tooMany : sendPrepared C k destHash pm stamp env s = .error tooMany ↔
    (s.slot k).initialized = true ∧ pm.payload ≠ [] ∧ MAX_INFLIGHT_SENDS ≤ s.inFlight := by
  unfold sendPrepared Pending.inFlight
  dsimp only
  cases hi : (s.slot k).initialized with
  | false =>
    refine iff_of_false (fun h => ?_) (fun h => Bool.false_ne_true h.1)
    exact absurd (Except.error.inj h) (by decide)
  | true =>
    by_cases hp : pm.payload = []
    · refine iff_of_false (fun h => ?_) (fun h => h.2.1 hp)
      rw [if_neg (by decide), if_pos hp] at h
      exact absurd (Except.error.inj h) (by decide)
    · rw [if_neg (by decide), if_neg hp]
      by_cases hc : s.links.length + s.opps.length ≥ MAX_INFLIGHT_SENDS
      · exact iff_of_true (if_pos hc) ⟨rfl, hp, hc⟩
      · refine iff_of_false (fun h => ?_) (fun h => hc h.2.2)
        rw [if_neg hc] at h
        split at h
        next => exact absurd (Except.error.inj h) (by decide)
        next =>
          cases hw : packWire C (s.slot k) destHash pm stamp with
          | error err =>
            rw [hw] at h
            exact packWire_error hw (Except.error.inj h)
          | ok w =>
            rw [hw] at h
            dsimp only [bind, Except.bind] at h
            split at h <;> cases h

/-! ### Only a send adds an entry -/

/-- No table of entries has become longer. -/
structure NoMore (s s' : Pending) : Prop where
  links : s'.links.length ≤ s.links.length
  opps : s'.opps.length ≤ s.opps.length

lemma NoMore.refl (s : Pending) : NoMore s s := ⟨le_rfl, le_rfl⟩

lemma NoMore.trans {s1 s2 s3 : Pending} (h : NoMore s1 s2) (h' : NoMore s2 s3) : NoMore s1 s3 :=
  ⟨h'.links.trans h.links, h'.opps.trans h.opps⟩

lemma NoMore.notify {st} : NoMore s (s.notify k recordHash st tag) :=
  ⟨by rw [Pending.notify_links], by rw [Pending.notify_opps]⟩

lemma NoMore.releaseWireFile : NoMore s (s.releaseWireFile ps) := by
  unfold Pending.releaseWireFile
  split
  next => exact .refl s
  next => exact ⟨le_rfl, le_rfl⟩

lemma NoMore.eraseLink : NoMore s (s.eraseLink key) := ⟨length_erase_le, le_rfl⟩

/-- A new state of an entry. -/
lemma NoMore.putLink {ps' : PendingLinkSend} (h : lookup key s.links = some ps') :
    NoMore s (s.putLink key ps) :=
  ⟨length_insert_of_lookup h, le_rfl⟩

lemma NoMore.putOpp {op op' : PendingOppSend} (h : lookup key s.opps = some op') :
    NoMore s { s with opps := insert key op s.opps } :=
  ⟨le_rfl, length_insert_of_lookup h⟩

lemma NoMore.scheduleRetryOrFail {ps' : PendingLinkSend} (h : lookup key s.links = some ps') :
    NoMore s (scheduleRetryOrFail key ps now s) := by
  unfold Outbound.scheduleRetryOrFail
  split
  next => exact (NoMore.putLink h).trans .notify
  next => exact .putLink h

lemma NoMore.sendOnLink {env : Established} (h : lookup key s.links = some ps) :
    NoMore s (sendOnLink key ps wire now env s) := by
  have ht {ps'} : NoMore s ((s.transmit ps wire).putLink key ps') :=
    ⟨length_insert_of_lookup h, le_rfl⟩
  unfold Outbound.sendOnLink
  split
  next =>
    split
    next => exact .scheduleRetryOrFail h
    next => exact ((ht.trans .notify).trans .releaseWireFile).trans .eraseLink
  next =>
    split
    next => exact .scheduleRetryOrFail h
    next => exact ht

lemma NoMore.linkEstablished {env : Established} : NoMore s (linkEstablished link now env s) := by
  unfold Outbound.linkEstablished
  cases hk : lookup link s.links with
  | none => exact .refl s
  | some ps =>
    dsimp only
    split
    next =>
      split
      next => exact .scheduleRetryOrFail hk
      next => exact .sendOnLink hk
    next => exact .sendOnLink hk

lemma NoMore.linkClosed : NoMore s (linkClosed link now s) := by
  have h1 : NoMore s { s with directLinks := s.directLinks.eraseP (·.2 = link) } :=
    ⟨le_rfl, le_rfl⟩
  unfold Outbound.linkClosed
  dsimp only
  cases hk : lookup link s.links with
  | none => exact h1
  | some ps =>
    dsimp only
    split
    next => exact h1.trans (.scheduleRetryOrFail hk)
    next => exact (h1.trans .releaseWireFile).trans .eraseLink

lemma NoMore.resourceConcluded {resourceHash complete keys} :
    NoMore s (resourceConcluded resourceHash complete now keys s) := by
  induction keys generalizing s with
  | nil => exact .refl s
  | cons key keys ih =>
    unfold Outbound.resourceConcluded
    cases hk : lookup key s.links with
    | none => exact ih
    | some ps =>
      dsimp only
      split
      next =>
        split
        next =>
          have h1 : NoMore s (s.putLink key { ps with status := .delivered }) := .putLink hk
          exact (((h1.trans .notify).trans .releaseWireFile).trans .eraseLink).trans ih
        next => exact .scheduleRetryOrFail hk
      next => exact ih

/-- An entry that moves to a new link. -/
lemma NoMore.retryOne {r} : NoMore s (retryOne key now r s) := by
  unfold Outbound.retryOne
  cases hk : lookup key s.links with
  | none => exact .refl s
  | some ps =>
    have hlen {link} {ps' : PendingLinkSend} :
        (insert link ps' (erase key s.links)).length ≤ s.links.length :=
      length_insert_le.trans (length_erase_lt hk)
    dsimp only
    split
    next =>
      cases r with
      | unknownIdentity =>
        have h1 : NoMore s ((s.eraseLink key).putLink key { ps with retryPending := false }) :=
          ⟨hlen, le_rfl⟩
        exact h1.trans (.scheduleRetryOrFail lookup_insert)
      | threw => exact (NoMore.eraseLink.trans .notify).trans .releaseWireFile
      | opened link => exact ⟨hlen, le_rfl⟩
    next => exact .refl s

lemma NoMore.sweepOne : NoMore s (sweepOne key now s) := by
  unfold Outbound.sweepOne
  split
  next => exact .refl s
  next =>
    split
    next => exact (NoMore.notify.trans .releaseWireFile).trans .eraseLink
    next => exact .refl s

lemma NoMore.cleanOne {closed} : NoMore s (cleanOne destHash closed now s) := by
  unfold Outbound.cleanOne
  split
  next => exact .refl s
  next link _ =>
    have h1 : NoMore s (if closed then s else Outbound.linkClosed link now s) := by
      split
      next => exact .refl s
      next => exact .linkClosed
    exact ⟨h1.links, h1.opps⟩

lemma NoMore.oppOne {env : OppState} : NoMore s (oppOne key now env s) := by
  unfold Outbound.oppOne
  cases hk : lookup key s.opps with
  | none => exact .refl s
  | some op =>
    dsimp only
    split
    next =>
      have h1 : NoMore s (s.notify op.owner op.recordHash .delivered op.tag) := .notify
      exact h1.trans ⟨le_rfl, length_erase_le⟩
    next =>
      split
      next => exact .refl s
      next =>
        split
        next => exact (NoMore.putOpp hk).trans .notify
        next =>
          split
          next => exact .putOpp hk
          next =>
            split
            next => exact .putOpp hk
            next => exact .putOpp hk

lemma NoMore.manualRetry : NoMore s (manualRetry recordHash now s) := by
  unfold Outbound.manualRetry
  split
  next key ps hfind =>
    split
    next => exact .refl s
    next =>
      obtain ⟨ps', hk⟩ := lookup_of_mem (List.mem_of_find?_eq_some hfind)
      exact .putLink hk
  next =>
    split
    next => exact .refl s
    next op hk =>
      split
      next => exact .refl s
      next => exact (NoMore.putOpp hk).trans .notify

/-- A callback, a tick or a retry by hand adds no entry. -/
lemma NoMore.step {e : Event} (he : e.Delivers) : NoMore s (s.step C e) := by
  cases e with
  | send | stampRecord | prune | activate | delete => exact he.elim
  | established => exact .linkEstablished
  | closed => exact .linkClosed
  | concluded => exact .resourceConcluded
  | retry => exact .retryOne
  | sweep => exact .sweepOne
  | clean => exact .cleanOne
  | opportunistic => exact .oppOne
  | manualRetry => exact .manualRetry
  | announced => exact ⟨(List.length_map ..).le, (List.length_map ..).le⟩

/-- One entry more at most. -/
def OneMore (s s' : Pending) : Prop := s'.inFlight ≤ s.inFlight + 1

lemma OneMore.sendOpportunistic : OneMore s (sendOpportunistic k destHash wire env tag s).1 := by
  unfold Outbound.sendOpportunistic
  dsimp only
  split
  next => exact Nat.add_le_add_left length_insert_le _
  next => exact Nat.le_succ _

lemma chooseLink_tables (destHash : Bytes) (env : SendEnv) (s : Pending) :
    (chooseLink destHash env s).2.2.links = s.links ∧
      (chooseLink destHash env s).2.2.opps = s.opps := by
  unfold chooseLink
  dsimp only
  split
  next => exact ⟨rfl, rfl⟩
  next =>
    split
    next => exact ⟨rfl, rfl⟩
    next => split <;> exact ⟨rfl, rfl⟩

lemma directEntry_tables (k : Nat) (destHash wire : Bytes) (contentSize : Nat) (env : SendEnv)
    (tag : Tag) (link : Bytes) (s : Pending) :
    (directEntry k destHash wire contentSize env tag link s).2.links = s.links ∧
      (directEntry k destHash wire contentSize env tag link s).2.opps = s.opps := by
  unfold directEntry Pending.spillWireToDisk
  dsimp only
  split
  next => cases env.spill <;> exact ⟨rfl, rfl⟩
  next => exact ⟨rfl, rfl⟩

lemma OneMore.sendDirect {contentSize} :
    OneMore s (sendDirect k destHash wire contentSize env tag s).1 := by
  unfold Outbound.sendDirect
  have h1 := chooseLink_tables destHash env s
  generalize chooseLink destHash env s = c at h1
  obtain ⟨link, reuse, s1⟩ := c
  have h2 := directEntry_tables k destHash wire contentSize env tag link s1
  dsimp only at h1 ⊢
  generalize directEntry k destHash wire contentSize env tag link s1 = e at h2
  obtain ⟨ps, s2⟩ := e
  dsimp only at h2 ⊢
  have h3 : OneMore s (s2.putLink link ps) := by
    unfold OneMore Pending.inFlight Pending.putLink
    dsimp only
    rw [h2.1, h2.2, h1.1, h1.2]
    have : (insert link ps s.links).length ≤ s.links.length + 1 := length_insert_le
    omega
  split
  next =>
    have h4 : NoMore (s2.putLink link ps) (Outbound.linkEstablished link env.now env.established
      (s2.putLink link ps)) := .linkEstablished
    exact (Nat.add_le_add h4.links h4.opps).trans h3
  next => exact h3

/-- A send is accepted only while there is room. -/
lemma sendPrepared_room {r} (h : sendPrepared C k destHash pm stamp env s = .ok r) :
    s.inFlight < MAX_INFLIGHT_SENDS := by
  unfold sendPrepared at h
  dsimp only at h
  split at h
  next => cases h
  next =>
    split at h
    next => cases h
    next =>
      split at h
      next => cases h
      next hc => exact not_le.mp hc

/-- A send, accepted or not. -/
lemma inFlight_send {id store} (h : s.inFlight ≤ MAX_INFLIGHT_SENDS) :
    (send C id destHash pm stamp store env s).inFlight ≤ MAX_INFLIGHT_SENDS := by
  unfold Outbound.send
  split
  next => exact h
  next k _ =>
    split
    next => exact h
    next s' packetHash status hsent =>
      have hroom := sendPrepared_room hsent
      obtain ⟨wire, contentSize, -, e⟩ := sendPrepared_ok hsent
      obtain rfl := congrArg Prod.fst e
      have h1 (s' : Pending) (ho : OneMore { s with sends := s.sends + 1 } s') :
          s'.inFlight ≤ MAX_INFLIGHT_SENDS := ho.trans hroom
      apply h1
      dsimp only
      split
      next => exact .sendOpportunistic
      next => exact .sendDirect

lemma inFlight_step {e : Event} (h : s.inFlight ≤ MAX_INFLIGHT_SENDS) :
    (s.step C e).inFlight ≤ MAX_INFLIGHT_SENDS := by
  have hd (he : e.Delivers) : (s.step C e).inFlight ≤ MAX_INFLIGHT_SENDS :=
    (Nat.add_le_add (NoMore.step he).links (NoMore.step he).opps).trans h
  cases e with
  | send => exact inFlight_send h
  | stampRecord =>
    dsimp only [Pending.step, stampRecord]
    split <;> exact h
  | prune | activate | delete => exact h
  | established | closed | concluded | retry | sweep | clean | opportunistic | manualRetry
  | announced => exact hd trivial

/-! ### What is kept -/

/-- All that is pending is kept when every send has come to its end. -/
lemma kept_eq (h : s.Settled) : s.kept = s.inFlight := by
  have h1 : s.links.countP (·.2.Terminal) = s.links.length :=
    List.countP_eq_length.mpr fun x hx => decide_eq_true (h.1 x hx)
  have h2 : s.opps.countP (·.2.Terminal) = s.opps.length :=
    List.countP_eq_length.mpr fun x hx => decide_eq_true (h.2 x hx)
  rw [Pending.kept, h1, h2, Pending.inFlight]

/-- When all that is pending is kept, every send has come to its end. -/
lemma settled_of_kept (h : s.inFlight ≤ s.kept) : s.Settled := by
  have h1 : s.links.countP (·.2.Terminal) ≤ s.links.length := List.countP_le_length
  have h2 : s.opps.countP (·.2.Terminal) ≤ s.opps.length := List.countP_le_length
  unfold Pending.inFlight Pending.kept at h
  constructor
  · intro x hx
    exact of_decide_eq_true (List.countP_eq_length.mp (le_antisymm h1 (by omega)) x hx)
  · intro x hx
    exact of_decide_eq_true (List.countP_eq_length.mp (le_antisymm h2 (by omega)) x hx)

/-- In every state of a run the cap counts sends that are under way, and holds, exactly when fewer
than `MAX_INFLIGHT_SENDS` entries are kept of sends that have come to their end, or no identity is
there to send. -/
theorem capped_iff (h : Reach (Pending.step C) (fun _ _ => True) {} s) :
    Capped s ↔ ((∃ k, (s.slot k).initialized = true) → s.kept < MAX_INFLIGHT_SENDS) := by
  have hb : s.inFlight ≤ MAX_INFLIGHT_SENDS :=
    h.invariant (P := fun s => s.inFlight ≤ MAX_INFLIGHT_SENDS) (Nat.zero_le _)
      fun _ hs => inFlight_step hs
  constructor
  · rintro ⟨hadm, -⟩ ⟨k, hk⟩
    by_contra hn
    have hs := settled_of_kept (hb.trans (not_lt.mp hn))
    have hp : (sampleMessage 0).payload ≠ [] := List.cons_ne_nil _ _
    refine hadm hs C k [] _ [] (sampleSend 0 .written .other)
      (sendPrepared_tooMany.mpr ⟨hk, hp, ?_⟩)
    rw [← kept_eq hs]
    exact not_lt.mp hn
  · refine fun hc => ⟨fun hs C k destHash pm stamp env he => ?_, hb⟩
    obtain ⟨hi, -, hfull⟩ := sendPrepared_tooMany.mp he
    rw [← kept_eq hs] at hfull
    exact not_le.mpr (hc ⟨k, hi⟩) hfull

/-! ### A run that fills the cap -/

/-- The hash of the `n`-th packet. -/
def sampleHash (n : Nat) : Bytes := List.replicate n 1

/-- A state of a run whose `n` sends have all failed. -/
structure Spent (n : Nat) (s : Pending) : Prop where
  reach : Reach (Pending.step sampleCrypto) (fun _ _ => True) {} s
  active : (s.slot 0).active = true
  initialized : (s.slot 0).initialized = true
  id : (s.slot 0).id = [7]
  links : s.links = []
  length : s.opps.length = n
  failed : ∀ x ∈ s.opps, x.2.status = .failed
  keys : ∀ x ∈ s.opps, ∃ i < n, x.1 = sampleHash i

/-- A packet to a peer without a path is tried again until its attempts are spent. -/
lemma reach_failed {init op} (d : Nat) (hs : op.status = .sent) (h0 : 1 ≤ op.deliveryAttempts)
    (hd : op.deliveryAttempts + d = MAX_DELIVERY_ATTEMPTS + 1)
    (hr : Reach (Pending.step C) (fun _ _ => True) init { s with opps := insert key op s.opps }) :
    ∃ op', op'.status = .failed ∧ op'.owner = op.owner ∧
      Reach (Pending.step C) (fun _ _ => True) init
        ({ s with
          opps := insert key op' s.opps }.notify op.owner op.recordHash .failed op.tag) := by
  induction d generalizing op with
  | zero =>
    refine ⟨{ op with status := .failed }, rfl, rfl, ?_⟩
    have h1 := hr.step (e := .opportunistic key op.nextAttemptAtMs
      ⟨false, false, false, false⟩) trivial
    have e : Pending.step C { s with opps := insert key op s.opps }
        (.opportunistic key op.nextAttemptAtMs ⟨false, false, false, false⟩) =
        { s with opps := insert key { op with status := .failed } s.opps }.notify op.owner
          op.recordHash .failed op.tag := by
      dsimp only [Pending.step]
      unfold oppOne
      dsimp only
      rw [lookup_insert]
      dsimp only
      rw [if_neg Bool.false_ne_true, if_neg (by simp [hs]), if_pos (by omega), insert_insert]
    rw [e] at h1
    exact h1
  | succ d ih =>
    have h1 := hr.step (e := .opportunistic key op.nextAttemptAtMs
      ⟨false, false, false, false⟩) trivial
    have e : Pending.step C { s with opps := insert key op s.opps }
        (.opportunistic key op.nextAttemptAtMs ⟨false, false, false, false⟩) =
        { s with opps := insert key { op with
            deliveryAttempts := op.deliveryAttempts + 1
            nextAttemptAtMs := op.nextAttemptAtMs + PATH_REQUEST_WAIT_MS } s.opps } := by
      dsimp only [Pending.step]
      unfold oppOne
      dsimp only
      rw [lookup_insert]
      dsimp only
      rw [if_neg Bool.false_ne_true, if_neg (by simp [hs]), if_neg (by omega),
        if_pos (.inl ⟨h0, rfl⟩), insert_insert]
    rw [e] at h1
    obtain ⟨op', hf, ho, hr'⟩ := ih (by exact hs) (by exact Nat.le_succ_of_le h0)
      (by exact (Nat.succ_add_eq_add_succ _ d).trans hd) h1
    exact ⟨op', hf, ho, hr'⟩

lemma notify_slot {st j} :
    ((s.notify k recordHash st tag).slot j).active = (s.slot j).active ∧
      ((s.notify k recordHash st tag).slot j).initialized = (s.slot j).initialized ∧
      ((s.notify k recordHash st tag).slot j).id = (s.slot j).id := by
  unfold Pending.notify
  dsimp only
  split
  next =>
    by_cases hj : j = k
    · subst hj
      dsimp only
      rw [Function.update_self]
      exact ⟨rfl, rfl, rfl⟩
    · dsimp only
      rw [Function.update_of_ne hj]
      exact ⟨rfl, rfl, rfl⟩
  next => exact ⟨rfl, rfl, rfl⟩

/-- A short message is sent as a packet, and the packet is pending. -/
lemma Spent.send {n} (h : Spent n s) (hn : n < MAX_INFLIGHT_SENDS) :
    ∃ op : PendingOppSend, op.status = .sent ∧ op.deliveryAttempts = 1 ∧
      Outbound.send sampleCrypto [7] [9] (sampleMessage 1) [] .machinery
        { sampleSend 0 .written .other with packetHash := sampleHash n } s =
        { s with
          sends := s.sends + 1
          issued := s.issued ++ [sampleHash n]
          opps := insert (sampleHash n) op s.opps } := by
  have hid : s.byId [7] = some 0 := by
    have h0 : ((s.slot 0).active && (s.slot 0).id = [7]) = true := by simp [h.active, h.id]
    unfold Pending.byId
    rw [if_neg (by decide), List.find?_eq_some_iff_append]
    exact ⟨h0, [], [1, 2, 3], rfl, nofun⟩
  have hpack : ∃ wire, packWire sampleCrypto (s.slot 0) [9] (sampleMessage 1) [] = .ok (wire, 1) :=
    ⟨_, rfl⟩
  obtain ⟨wire, hpack⟩ := hpack
  have hroom : ¬ s.links.length + s.opps.length ≥ MAX_INFLIGHT_SENDS := by
    rw [h.links, h.length]
    exact not_le.mpr (by simpa using hn)
  let op : PendingOppSend :=
    { recordHash := sampleHash n, destHash := [9], wire, owner := 0, startedMs := 1
      deliveryAttempts := 1, nextAttemptAtMs := 1 + DELIVERY_RETRY_WAIT_MS, status := .sent
      tag := ⟨(s.slot 0).id, s.sends⟩ }
  have hprep : sendPrepared sampleCrypto 0 [9] (sampleMessage 1) []
      { sampleSend 0 .written .other with packetHash := sampleHash n } s =
      .ok ({ s with
          sends := s.sends + 1
          issued := s.issued ++ [sampleHash n]
          opps := insert (sampleHash n) op s.opps }, sampleHash n, .sent) := by
    unfold sendPrepared
    dsimp only
    rw [if_neg (by simp [h.initialized]), if_neg (by decide), if_neg hroom, hpack]
    rfl
  refine ⟨op, rfl, rfl, ?_⟩
  unfold Outbound.send
  rw [hid]
  dsimp only
  rw [hprep]
  dsimp only [Slot.store]
  rw [Function.update_eq_self]

/-- One more send that fails. -/
lemma Spent.succ {n} (h : Spent n s) (hn : n < MAX_INFLIGHT_SENDS) : ∃ s', Spent (n + 1) s' := by
  have hnew : ∀ x ∈ s.opps, x.1 ≠ sampleHash n := by
    intro x hx e
    obtain ⟨i, hi, hk⟩ := h.keys x hx
    have := congrArg List.length (hk.symm.trans e)
    unfold sampleHash at this
    rw [List.length_replicate, List.length_replicate] at this
    omega
  obtain ⟨op, hs, hd, he⟩ := h.send hn
  have h1 := h.reach.step (e := .send [7] [9] (sampleMessage 1) [] .machinery
    { sampleSend 0 .written .other with packetHash := sampleHash n }) trivial
  dsimp only [Pending.step] at h1
  rw [he] at h1
  obtain ⟨op', hf, -, hr⟩ := reach_failed
    (s := { s with sends := s.sends + 1, issued := s.issued ++ [sampleHash n] }) 5 hs hd.ge
    (by rw [hd]; rfl) h1
  refine ⟨_, hr, ?_, ?_, ?_, ?_, ?_, ?_, ?_⟩
  · rw [notify_slot.1]
    exact h.active
  · rw [notify_slot.2.1]
    exact h.initialized
  · rw [notify_slot.2.2]
    exact h.id
  · rw [Pending.notify_links]
    exact h.links
  · rw [Pending.notify_opps]
    dsimp only
    rw [Lib.insert, length_place, erase,
      List.filter_eq_self.mpr fun x hx => decide_eq_true (hnew x hx), h.length]
  · rw [Pending.notify_opps]
    intro x hx
    rcases mem_insert.mp hx with rfl | ⟨hx, -⟩
    · exact hf
    · exact h.failed x hx
  · rw [Pending.notify_opps]
    intro x hx
    rcases mem_insert.mp hx with rfl | ⟨hx, -⟩
    · exact ⟨n, Nat.lt_succ_self n, rfl⟩
    · obtain ⟨i, hi, hk⟩ := h.keys x hx
      exact ⟨i, Nat.lt_succ_of_lt hi, hk⟩

/-- Any number of sends fail, up to the cap. -/
lemma exists_spent {n} (hn : n ≤ MAX_INFLIGHT_SENDS) : ∃ s, Spent n s := by
  induction n with
  | zero =>
    have h0 : Reach (Pending.step sampleCrypto) (fun _ _ => True) {} {} := .init
    exact ⟨_, h0.step (e := .activate 0 [7] [8]) trivial, rfl, rfl, rfl, rfl, rfl, nofun, nofun⟩
  | succ n ih =>
    obtain ⟨s, hs⟩ := ih (Nat.le_of_succ_le hn)
    exact hs.succ hn

/-- After 64 packets without a proof no send is accepted, although none is under way. -/
theorem not_capped : ∃ s, Reach (Pending.step sampleCrypto) (fun _ _ => True) {} s ∧ s.Settled ∧
    sendPrepared sampleCrypto 0 [9] (sampleMessage 1) [] (sampleSend 0 .written .other) s =
      .error tooMany ∧ ¬ Capped s := by
  obtain ⟨s, hs⟩ := exists_spent le_rfl
  have hset : s.Settled := by
    refine ⟨fun x hx => ?_, fun x hx => .inr (hs.failed x hx)⟩
    rw [hs.links] at hx
    cases hx
  have hfull : MAX_INFLIGHT_SENDS ≤ s.inFlight := by
    rw [Pending.inFlight, hs.links, hs.length]
    decide
  have herr : sendPrepared sampleCrypto 0 [9] (sampleMessage 1) []
    (sampleSend 0 .written .other) s = .error tooMany :=
    sendPrepared_tooMany.mpr ⟨hs.initialized, by decide, hfull⟩
  exact ⟨s, hs.reach, hset, herr, fun hc => hc.admits hset _ _ _ _ _ _ herr⟩

/-- While one send is under way the next one is accepted. -/
theorem capped_sample :
    Capped ([Event.activate 0 [7] [8],
      .send [7] [9] (sampleMessage 1) [] .machinery (sampleSend 1 .written .other)].foldl
        (Pending.step sampleCrypto) {}) := by
  have hr : Reach (Pending.step sampleCrypto) (fun _ _ => True) {}
      ([Event.activate 0 [7] [8],
        .send [7] [9] (sampleMessage 1) [] .machinery (sampleSend 1 .written .other)].foldl
          (Pending.step sampleCrypto) {}) := Reach.init.run (by decide)
  exact (capped_iff hr).mpr fun _ => by decide +kernel

end URSupreme.Outbound
