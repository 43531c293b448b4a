import URSupreme.Lib.Run
import URSupreme.LXMF.Outbound

/-!
# Changes of a delivery

What the callbacks, retries and sweeps of `LXMF/LXMFMinimal.h` do to the pending sends comes down to
a few changes: an entry goes on, a status is raised, a payload goes out, an entry is dropped with
its file, or it moves to a new link. What is proved of every change holds of every event of a
delivery.
-/

namespace URSupreme.Outbound
open Lib LXMF Relation

variable {lost : Prop} {s s' : Pending} {key link recordHash destHash : Bytes} {now : Nat}
  {ps ps' : PendingLinkSend} {op op' : PendingOppSend}

/-- An entry that goes on is for the same send. Its wire may be dropped from RAM when it is spilled,
or when it may be `lost`. -/
structure Kept (lost : Prop) (ps ps' : PendingLinkSend) : Prop where
  wire : ps'.wire = ps.wire ∨ ps.wirePath ≠ none ∨ lost
  wirePath : ps'.wirePath = ps.wirePath
  totalBytes : ps.wirePath ≠ none → ps'.totalBytes = ps.totalBytes
  destHash : ps'.destHash = ps.destHash
  owner : ps'.owner = ps.owner
  recordHash : ps'.recordHash = ps.recordHash
  directWire : ps'.directWire = ps.directWire
  tag : ps'.tag = ps.tag

/-- An opportunistic entry that goes on is for the same send. -/
structure OppKept (op op' : PendingOppSend) : Prop where
  recordHash : op'.recordHash = op.recordHash
  owner : op'.owner = op.owner
  tag : op'.tag = op.tag

lemma Kept.refl (ps : PendingLinkSend) : Kept lost ps ps :=
  ⟨.inl rfl, rfl, fun _ => rfl, rfl, rfl, rfl, rfl, rfl⟩

lemma OppKept.refl (op : PendingOppSend) : OppKept op op := ⟨rfl, rfl, rfl⟩

/-- The payload that an attempt takes for an entry. -/
def Pending.Carries (s : Pending) (ps : PendingLinkSend) (bytes : Bytes) : Prop :=
  match ps.wirePath with
  | none => bytes = ps.wire
  | some path =>
    ∃ file, s.files path = some file ∧ ps.totalBytes ≤ file.length ∧ bytes = file.take ps.totalBytes

/-- The changes a delivery is made of. -/
inductive Change (lost : Prop) : Pending → Pending → Prop
  | progress {s l} : (∀ x ∈ l, ∃ y ∈ s.links, y.1 = x.1 ∧ Kept lost y.2 x.2) →
    Change lost s { s with links := l }
  | status {s x} (st : OutboxStatus) : x ∈ s.links →
    Change lost s (s.notify x.2.owner x.2.recordHash st x.2.tag)
  | transmit {s x bytes} : x ∈ s.links → s.Carries x.2 bytes →
    Change lost s (s.transmit x.2 bytes)
  | drop {s x} : x ∈ s.links → Change lost s ((s.releaseWireFile x.2).eraseLink x.1)
  | move {s x ps link} : x ∈ s.links → link ∉ s.issued → link ≠ [] → Kept lost x.2 ps →
    Change lost s
      { s.eraseLink x.1 with
        issued := s.issued ++ [link]
        directLinks := insert ps.destHash link s.directLinks
        links := insert link ps (erase x.1 s.links) }
  | uncache {s c} : c ⊆ s.directLinks → Change lost s { s with directLinks := c }
  | oppProgress {s l} : (∀ x ∈ l, ∃ y ∈ s.opps, OppKept y.2 x.2) →
    Change lost s { s with opps := l }
  | oppStatus {s x} (st : OutboxStatus) : x ∈ s.opps →
    Change lost s (s.notify x.2.owner x.2.recordHash st x.2.tag)

/-- Any number of changes. -/
abbrev Changes (lost : Prop) : Pending → Pending → Prop := ReflTransGen (Change lost)

@[simp] lemma Pending.notify_links {k st tag} : (s.notify k recordHash st tag).links = s.links := by
  unfold Pending.notify
  dsimp only
  split <;> rfl

@[simp] lemma Pending.notify_opps {k st tag} : (s.notify k recordHash st tag).opps = s.opps := by
  unfold Pending.notify
  dsimp only
  split <;> rfl

/-- A status is raised before or after its entry is taken from the table. -/
@[simp] lemma Pending.releaseWireFile_links : (s.releaseWireFile ps).links = s.links := by
  unfold Pending.releaseWireFile
  split <;> rfl

lemma Pending.notify_eraseLink {k st tag} :
    (s.eraseLink key).notify k recordHash st tag =
    (s.notify k recordHash st tag).eraseLink key := by
  unfold Pending.notify Pending.eraseLink
  dsimp only
  split <;> rfl

/-- The file is released before or after its entry is taken from the table. -/
lemma Pending.releaseWireFile_eraseLink :
    (s.eraseLink key).releaseWireFile ps = (s.releaseWireFile ps).eraseLink key := by
  unfold Pending.releaseWireFile Pending.eraseLink
  split <;> rfl

/-- A new state of one entry. -/
lemma Change.put (hm : (key, ps) ∈ s.links) (hk : Kept lost ps ps') :
    Change lost s (s.putLink key ps') := by
  refine .progress fun x hx => ?_
  rcases mem_insert.mp hx with rfl | ⟨hx, -⟩
  · exact ⟨_, hm, rfl, hk⟩
  · exact ⟨x, hx, rfl, .refl _⟩

lemma mem_putLink (key : Bytes) : (key, ps) ∈ (s.putLink key ps).links := mem_insert.mpr (.inl rfl)

/-- A new state of one opportunistic entry. -/
lemma Change.putOpp (hm : (key, op) ∈ s.opps) (hk : OppKept op op') :
    Change lost s { s with opps := insert key op' s.opps } := by
  refine .oppProgress fun x hx => ?_
  rcases mem_insert.mp hx with rfl | ⟨hx, -⟩
  · exact ⟨_, hm, hk⟩
  · exact ⟨x, hx, .refl _⟩

/-- `_schedule_retry_or_fail`. -/
lemma Changes.scheduleRetryOrFail (hm : (key, ps) ∈ s.links) :
    Changes lost s (scheduleRetryOrFail key ps now s) := by
  unfold Outbound.scheduleRetryOrFail
  split
  next =>
    -- the entry stays, so that it can be retried by hand
    have h1 : Kept lost ps
        { ps with status := .failed, retryPending := false, resourceHash := [] } :=
      ⟨.inl rfl, rfl, fun _ => rfl, rfl, rfl, rfl, rfl, rfl⟩
    exact .tail (.single (.put hm h1)) (.status _ (mem_putLink key))
  next => exact .single (.put hm ⟨.inl rfl, rfl, fun _ => rfl, rfl, rfl, rfl, rfl, rfl⟩)

/-- Establishing the link takes the wire of its entry out of RAM, with no copy in a file. -/
def DropsWire (link : Bytes) (env : Established) (s : Pending) : Prop :=
  env.ready = true ∧ ∃ ps ∈ lookup link s.links,
    ps.wirePath = none ∧ LXMF_LINK_PACKET_MAX < ps.wire.length

/-- An in-link packet or a resource that carries `wire`. -/
lemma Changes.sendOnLink {wire : Bytes} {env : Established} (hm : (key, ps) ∈ s.links)
    (hc : s.Carries ps wire)
    (hl : env.ready = true → LXMF_LINK_PACKET_MAX < wire.length → ps.wirePath ≠ none ∨ lost) :
    Changes lost s (sendOnLink key ps wire now env s) := by
  have ht : Change lost s (s.transmit ps wire) := .transmit hm hc
  have hm1 : (key, ps) ∈ (s.transmit ps wire).links := hm
  unfold Outbound.sendOnLink
  split
  next =>
    split
    next => exact .scheduleRetryOrFail hm
    next =>
      have h1 : Kept lost ps { ps with status := .sent } :=
        ⟨.inl rfl, rfl, fun _ => rfl, rfl, rfl, rfl, rfl, rfl⟩
      have h2 := ReflTransGen.tail (.single ht) (.put hm1 h1)
      refine .tail (.tail h2 (.status .sent (mem_putLink key))) ?_
      refine .drop (x := (key, { ps with status := .sent })) ?_
      rw [Pending.notify_links]
      exact mem_putLink key
  next hlen =>
    split
    next => exact .scheduleRetryOrFail hm
    next hready =>
      have hready : env.ready = true := by simpa using hready
      refine .tail (.single ht) (.put hm1 ?_)
      refine ⟨.inr (hl hready (not_le.mp hlen)), rfl, fun hp => ?_, rfl, rfl, rfl, rfl, rfl⟩
      -- a spilled wire of no bytes is never sent
      refine if_neg fun h0 => hlen ?_
      obtain ⟨path, hpath⟩ := Option.ne_none_iff_exists'.mp hp
      rw [Pending.Carries, hpath] at hc
      obtain ⟨file, -, -, rfl⟩ := hc
      rw [h0]
      exact Nat.zero_le _

/-- A wire that was read back is the file up to its size. -/
lemma carries_of_load {path : WirePath} {loads : Bool} (hpath : ps.wirePath = some path)
    (hload : s.loadWireFromDisk path ps.totalBytes loads ≠ []) :
    s.Carries ps (s.loadWireFromDisk path ps.totalBytes loads) := by
  rw [Pending.Carries, hpath]
  unfold Pending.loadWireFromDisk at hload ⊢
  cases hfile : s.files path with
  | none => exact absurd (by rw [hfile]) hload
  | some file =>
    rw [hfile] at hload
    dsimp only at hload ⊢
    cases loads with
    | false => exact absurd rfl hload
    | true =>
      rw [if_pos rfl] at hload ⊢
      split at hload
      next => exact absurd rfl hload
      next hlen => exact ⟨file, hfile, not_lt.mp hlen, if_neg hlen⟩

/-- `_static_outbound_link_established`. -/
lemma Changes.linkEstablished {env : Established} (hl : DropsWire link env s → lost) :
    Changes lost s (linkEstablished link now env s) := by
  unfold Outbound.linkEstablished
  cases hlook : lookup link s.links with
  | none => exact .refl
  | some ps =>
    have hm := mem_of_lookup hlook
    dsimp only
    cases hpath : ps.wirePath with
    | some path =>
      dsimp only
      split
      next => exact .scheduleRetryOrFail hm
      next hload =>
        refine .sendOnLink hm (carries_of_load hpath hload) fun _ _ => .inl ?_
        rw [hpath]
        exact Option.some_ne_none path
    | none =>
      refine .sendOnLink hm (by rw [Pending.Carries, hpath]) fun hready hlen => .inr ?_
      exact hl ⟨hready, ps, hlook, hpath, hlen⟩

/-- `_static_outbound_link_closed`. -/
lemma Changes.linkClosed : Changes lost s (linkClosed link now s) := by
  unfold Outbound.linkClosed
  have h1 : Changes lost s { s with directLinks := s.directLinks.eraseP (·.2 = link) } :=
    .single (.uncache List.eraseP_subset)
  dsimp only
  cases hlook : lookup link s.links with
  | none => exact h1
  | some ps =>
    dsimp only
    split
    next => exact h1.trans (Changes.scheduleRetryOrFail (mem_of_lookup hlook))
    next => exact .tail h1 (.drop (x := (link, ps)) (mem_of_lookup hlook))

/-- `_static_outbound_resource_concluded`. -/
lemma Changes.resourceConcluded {resourceHash : Bytes} {complete : Bool} {keys : List Bytes} :
    Changes lost s (resourceConcluded resourceHash complete now keys s) := by
  induction keys generalizing s with
  | nil => exact .refl
  | cons key keys ih =>
    unfold Outbound.resourceConcluded
    cases hlook : lookup key s.links with
    | none => exact ih
    | some ps =>
      have hm := mem_of_lookup hlook
      dsimp only
      split
      next =>
        split
        next =>
          have h1 : Kept lost ps { ps with status := .delivered } :=
            ⟨.inl rfl, rfl, fun _ => rfl, rfl, rfl, rfl, rfl, rfl⟩
          have h2 := ReflTransGen.tail (.single (Change.put hm h1))
            (.status .delivered (mem_putLink key))
          refine .trans (.tail h2 (.drop (x := (key, { ps with status := .delivered })) ?_)) ih
          rw [Pending.notify_links]
          exact mem_putLink key
        next => exact .scheduleRetryOrFail hm
      next => exact ih

/-- `accelerate_pending_for` and `accelerate_opp_for`. -/
lemma Changes.announced :
    Changes lost s (accelerateOppFor destHash now (acceleratePendingFor destHash now s)) := by
  refine .tail (.single (.progress fun x hx => ?_)) (.oppProgress fun x hx => ?_)
  · obtain ⟨y, hy, rfl⟩ := List.mem_map.mp hx
    refine ⟨y, hy, ?_⟩
    dsimp only
    split
    next => exact ⟨rfl, .inl rfl, rfl, fun _ => rfl, rfl, rfl, rfl, rfl, rfl⟩
    next => exact ⟨rfl, .refl _⟩
  · obtain ⟨y, hy, rfl⟩ := List.mem_map.mp hx
    refine ⟨y, hy, ?_⟩
    dsimp only
    split
    next => exact ⟨rfl, rfl, rfl⟩
    next => exact .refl _

/-- `manual_retry`. -/
lemma Changes.manualRetry : Changes lost s (manualRetry recordHash now s) := by
  unfold Outbound.manualRetry
  split
  next key ps hfind =>
    have hm := List.mem_of_find?_eq_some hfind
    split
    next => exact .refl
    next => exact .single (.put hm ⟨.inl rfl, rfl, fun _ => rfl, rfl, rfl, rfl, rfl, rfl⟩)
  next =>
    cases hlook : lookup recordHash s.opps with
    | none => exact .refl
    | some op =>
      dsimp only
      split
      next => exact .refl
      next =>
        have hk : OppKept op { op with
          deliveryAttempts := 1, status := .sent, nextAttemptAtMs := now } := ⟨rfl, rfl, rfl⟩
        exact .tail (.single (.putOpp (mem_of_lookup hlook) hk))
          (.oppStatus (x := (recordHash, { op with
              deliveryAttempts := 1, status := .sent, nextAttemptAtMs := now })) .sent
              (mem_insert.mpr (.inl rfl)))

/-- One entry of `tick_retries`. -/
lemma Changes.retryOne {r : Reopened}
    (hr : ∀ link, r = .opened link → link ∉ s.issued ∧ link ≠ []) :
    Changes lost s (retryOne key now r s) := by
  unfold Outbound.retryOne
  cases hlook : lookup key s.links with
  | none => exact .refl
  | some ps =>
    have hm := mem_of_lookup hlook
    have hk : Kept lost ps { ps with retryPending := false } :=
      ⟨.inl rfl, rfl, fun _ => rfl, rfl, rfl, rfl, rfl, rfl⟩
    dsimp only
    split
    next =>
      cases r with
      | unknownIdentity =>
        have e : (s.eraseLink key).putLink key { ps with retryPending := false } =
            s.putLink key { ps with retryPending := false } := by
          unfold Pending.putLink Pending.eraseLink Lib.insert
          rw [erase_erase]
        dsimp only
        rw [e]
        exact .trans (.single (.put hm hk)) (Changes.scheduleRetryOrFail (mem_putLink key))
      | opened link =>
        have hk : Kept lost ps { ps with retryPending := false, link, startedMs := now } :=
          ⟨.inl rfl, rfl, fun _ => rfl, rfl, rfl, rfl, rfl, rfl⟩
        exact .single (.move hm (hr link rfl).1 (hr link rfl).2 hk)
      | threw =>
        dsimp only
        rw [Pending.notify_eraseLink, Pending.releaseWireFile_eraseLink]
        refine .tail (.single (.status .failed hm)) (.drop (x := (key, ps)) ?_)
        rw [Pending.notify_links]
        exact hm
    next => exact .refl

/-- One entry of `sweep_orphaned_pending`. -/
lemma Changes.sweepOne : Changes lost s (sweepOne key now s) := by
  unfold Outbound.sweepOne
  cases hlook : lookup key s.links with
  | none => exact .refl
  | some ps =>
    have hm := mem_of_lookup hlook
    dsimp only
    split
    next =>
      refine .tail (.single (.status .failed hm)) (.drop (x := (key, ps)) ?_)
      rw [Pending.notify_links]
      exact hm
    next => exact .refl

/-- One destination of `tick_clean_links`. -/
lemma Changes.cleanOne {closed : Bool} : Changes lost s (cleanOne destHash closed now s) := by
  unfold Outbound.cleanOne
  split
  next => exact .refl
  next link _ =>
    have h1 : Changes lost s (if closed then s else Outbound.linkClosed link now s) := by
      split
      next => exact .refl
      next => exact .linkClosed
    exact .tail h1 (.uncache fun _ hx => (mem_erase.mp hx).1)

/-- One entry of `tick_opportunistic_receipts`. -/
lemma Changes.oppOne {env : OppState} : Changes lost s (oppOne key now env s) := by
  unfold Outbound.oppOne
  cases hlook : lookup key s.opps with
  | none => exact .refl
  | some op =>
    have hm := mem_of_lookup hlook
    dsimp only
    split
    next =>
      refine .tail (.single (.oppStatus .delivered hm)) (.oppProgress fun x hx => ?_)
      exact ⟨x, (mem_erase.mp hx).1, .refl _⟩
    next =>
      split
      next => exact .refl
      next =>
        split
        next =>
          have hk : OppKept op { op with status := .failed } := ⟨rfl, rfl, rfl⟩
          exact .tail (.single (.putOpp hm hk))
            (.oppStatus (x := (key, { op with status := .failed })) .failed
              (mem_insert.mpr (.inl rfl)))
        next =>
          split
          next => exact .single (.putOpp hm ⟨rfl, rfl, rfl⟩)
          next =>
            split
            next => exact .single (.putOpp hm ⟨rfl, rfl, rfl⟩)
            next => exact .single (.putOpp hm ⟨rfl, rfl, rfl⟩)

/-- The hashes of new links and packets are new, and not empty. -/
def Event.Fresh (s : Pending) : Event → Prop
  | .send _ _ _ _ _ env =>
    env.newLink ∉ s.issued ∧ env.newLink ≠ [] ∧ env.packetHash ∉ s.issued ∧ env.packetHash ≠ []
  | .retry _ _ (.opened link) => link ∉ s.issued ∧ link ≠ []
  | _ => True

instance {s : Pending} : ∀ e : Event, Decidable (e.Fresh s)
  | .send .. => inferInstanceAs (Decidable (_ ∧ _ ∧ _ ∧ _))
  | .retry _ _ (.opened _) => inferInstanceAs (Decidable (_ ∧ _))
  | .retry _ _ .unknownIdentity | .retry _ _ .threw => .isTrue trivial
  | .stampRecord .. | .established .. | .closed .. | .concluded .. | .sweep .. | .clean ..
  | .opportunistic .. | .manualRetry .. | .announced .. | .prune .. | .activate .. | .delete .. =>
    .isTrue trivial

/-- A callback, a tick or a manual retry: the event goes on with sends that are pending. -/
def Event.Delivers : Event → Prop
  | .send .. | .stampRecord .. | .prune .. | .activate .. | .delete .. => False
  | _ => True

/-- A delivery is made of its changes. -/
lemma Changes.step {C : Crypto} {e : Event} (he : e.Delivers) (hf : e.Fresh s)
    (hl : ∀ link now env, e = .established link now env → DropsWire link env s → lost) :
    Changes lost s (s.step C e) := by
  cases e with
  | send | stampRecord | prune | activate | delete => exact he.elim
  | established link now env => exact .linkEstablished (hl link now env rfl)
  | closed => exact .linkClosed
  | concluded => exact .resourceConcluded
  | retry key now r =>
    refine .retryOne fun link e => ?_
    subst e
    exact hf
  | sweep => exact .sweepOne
  | clean => exact .cleanOne
  | opportunistic => exact .oppOne
  | manualRetry => exact .manualRetry
  | announced => exact .announced

/-- The choice of a link does not depend on the number of sends. -/
lemma chooseLink_sends (destHash : Bytes) (env : SendEnv) (s : Pending) (n : Nat) :
    (chooseLink destHash env { s with sends := n }).1 = (chooseLink destHash env s).1 ∧
    (chooseLink destHash env { s with sends := n }).2.1 = (chooseLink destHash env s).2.1 := by
  unfold chooseLink
  dsimp only
  split
  next => exact ⟨rfl, rfl⟩
  next =>
    split
    next => exact ⟨rfl, rfl⟩
    next =>
      split
      next => exact ⟨rfl, rfl⟩
      next => exact ⟨rfl, rfl⟩

/-- A blob holds a signature, and its content size is that of the payload. -/
lemma packWire_ok {a : Slot} {pm : PreparedMessage} {stamp : Bytes} {contentSize : Nat}
    (h : packWire C a destHash pm stamp = .ok (wire, contentSize)) :
    wire ≠ [] ∧ ∃ payload, payloadWire pm.payload stamp = .ok payload ∧
      contentSize = payload.length - 16 := by
  unfold packWire at h
  dsimp only at h
  split at h
  next => cases h
  next =>
    split at h
    next => cases h
    next signature _ =>
      split at h
      next => cases h
      next hlen =>
        cases hp : payloadWire pm.payload stamp with
        | error => 
          rw [hp] at h
          cases h
        | ok payload =>
          rw [hp] at h
          cases h
          refine ⟨fun e => ?_, payload, rfl, ?_⟩
          · have hs : signature = [] :=
              (List.append_eq_nil_iff.mp (List.append_eq_nil_iff.mp e).1).2
            rw [hs] at hlen
            exact hlen (by decide)
          · split <;> omega

/-- What is sent when nothing is in the way. -/
lemma sendPrepared_ok {C : Crypto} {k : Nat} {pm : PreparedMessage} {stamp packetHash : Bytes}
    {env : SendEnv} {status : OutboxStatus}
    (h : sendPrepared C k destHash pm stamp env s = .ok (s', packetHash, status)) :
    ∃ wire contentSize, packWire C (s.slot k) destHash pm stamp = .ok (wire, contentSize) ∧
      (s', packetHash, status) =
        let tag : Tag := ⟨(s.slot k).id, s.sends⟩
        let s := { s with sends := s.sends + 1 }
        if contentSize ≤ LXMF_OPPORTUNISTIC_MAX then sendOpportunistic k destHash wire env tag s
        else sendDirect k destHash wire contentSize env tag s := by
  unfold sendPrepared at h
  dsimp only at h
  split at h
  next => cases h
  next =>
    split at h
    next => cases h
    next =>
      split at h
      next => cases h
      next =>
        split at h
        next => cases h
        next =>
          obtain ⟨⟨wire, contentSize⟩, hpack, h⟩ := bind_ok h
          refine ⟨wire, contentSize, hpack, ?_⟩
          dsimp only at h ⊢
          split at h
          next hlen =>
            rw [if_pos hlen]
            exact (Except.ok.inj h).symm
          next hlen =>
            rw [if_neg hlen]
            exact (Except.ok.inj h).symm

/-- A delivery, whatever it does to the wires. -/
lemma Changes.delivery {C : Crypto} {e : Event} (he : e.Delivers) (hf : e.Fresh s) :
    Changes True s (s.step C e) :=
  .step he hf fun _ _ _ _ _ => trivial

end URSupreme.Outbound
