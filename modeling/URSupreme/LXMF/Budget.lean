import URSupreme.LXMF.Keyed
import URSupreme.LXMF.WireKept

/-!
# The retry budget

One entry of the sends over links, through the attempts that are made for it. An attempt fails when
its link closes or its resource does not arrive, and a failure takes one retry from the budget. What
is heard late of a resource finds no entry. A link that is heard of again after its attempt has
failed, before the retry has moved the entry to another, is left out: the attempt is counted twice
then.

A retry is counted when it finds the identity of the peer unknown, and opens no link.
-/

namespace URSupreme.Outbound
open Lib LXMF

/-- What becomes of an attempt when its link is established. -/
inductive Dispatch where
  | failed
  | sent
  | started
  deriving DecidableEq, Repr

/-- The wire that an attempt takes. -/
def Pending.wireOf (ps : PendingLinkSend) (env : Established) (s : Pending) : Bytes :=
  match ps.wirePath with
  | some path => s.loadWireFromDisk path ps.totalBytes env.loads
  | none => ps.wire

/-- A packet or a resource on the link. -/
def Established.dispatch (env : Established) (wire : Bytes) : Dispatch :=
  if wire.length ≤ LXMF_LINK_PACKET_MAX then (if env.threw then .failed else .sent)
  else if env.ready then .started
  else .failed

/-- A wire that cannot be read fails the attempt. -/
def Pending.dispatch (ps : PendingLinkSend) (env : Established) (s : Pending) : Dispatch :=
  let wire := s.wireOf ps env
  if ps.wirePath ≠ none ∧ wire = [] then .failed else env.dispatch wire

/-- The attempts for one entry: under which key it is, whether the attempt under way has failed, how
many have failed, and how many were made on a new link and without the identity of the peer. -/
structure Tally where
  key : Bytes
  down : Bool := false
  failed : Nat := 0
  reopened : Nat := 0
  unknown : Nat := 0
  ended : Bool := false
  deriving DecidableEq, Repr

/-- The attempt under way fails, which it does only once. -/
def Tally.fail (t : Tally) : Tally :=
  if t.down then t else { t with down := true, failed := t.failed + 1 }

/-- One event. -/
def Tally.step (s : Pending) (t : Tally) (e : Event) : Tally :=
  match lookup t.key s.links with
  | none => t
  | some ps =>
    match e with
    | .established link _ env =>
      if link = t.key then
        match s.dispatch ps env with
        | .failed => t.fail
        | .sent => { t with ended := true }
        | .started => t
      else t
    | .closed link _ =>
      if link = t.key then
        if ps.status ≠ .sent ∧ ps.status ≠ .delivered then t.fail else { t with ended := true }
      else t
    | .concluded resourceHash complete _ =>
      if ps.resourceHash = resourceHash then
        if complete then { t with ended := true } else t.fail
      else t
    | .retry key now r =>
      if key = t.key ∧ ps.retryPending ∧ now ≥ ps.nextRetryAtMs then
        match r with
        | .unknownIdentity =>
          { t with down := true, failed := t.failed + 1, unknown := t.unknown + 1 }
        | .opened link => { t with key := link, down := false, reopened := t.reopened + 1 }
        | .threw => { t with ended := true }
      else t
    | _ => t

/-- A callback of a link or a resource, or a retry tick. -/
def Event.OfLink : Event → Prop
  | .established .. | .closed .. | .concluded .. | .retry .. => True
  | _ => False

/-- A resource that concludes has a hash, and is that of one entry. -/
def Event.Conclusive (s : Pending) : Event → Prop
  | .concluded resourceHash _ _ => resourceHash ≠ [] ∧ ∀ x ∈ s.links, ∀ y ∈ s.links,
    x.2.resourceHash = resourceHash → y.2.resourceHash = resourceHash → x.1 = y.1
  | _ => True

/-- The link of an attempt that has failed is heard of again. -/
def Event.Late (t : Tally) : Event → Prop
  | .established link _ _ | .closed link _ => link = t.key ∧ t.down = true
  | _ => False

/-- The steps of the entry, with the count of its attempts. -/
def Tally.run (C : Crypto) (st : Pending × Tally) (e : Event) : Pending × Tally :=
  (st.1.step C e, st.2.step st.1 e)

/-- The events that the count is about. -/
def Tally.Counts (st : Pending × Tally) (e : Event) : Prop :=
  e.OfLink ∧ e.Fresh st.1 ∧ e.Conclusive st.1 ∧ ¬ e.Late st.2

/-- An entry as `send_prepared` puts it. -/
structure NewEntry (key : Bytes) (ps : PendingLinkSend) (s : Pending) : Prop where
  mem : lookup key s.links = some ps
  issued : key ∈ s.issued
  budget : ps.retriesLeft = DEFAULT_OUTBOX_RETRIES
  status : ps.status = .queued
  running : ps.retryPending = false

/-- The budget of an entry: each attempt that failed has taken one retry, the retry for it is still
scheduled, and the entry has failed when the first attempt and all retries have. -/
structure Budgeted (t : Tally) (ps : PendingLinkSend) : Prop where
  left : ps.status ≠ .failed → ps.retriesLeft + t.failed = DEFAULT_OUTBOX_RETRIES
  scheduled : t.down = true → ps.status ≠ .failed → ps.retryPending = true
  running : t.down = false → ps.status = .queued ∧ ps.retryPending = false
  spent : ps.status = .failed → t.failed = DEFAULT_OUTBOX_RETRIES + 1
  attempts : t.failed + (if t.down then 0 else 1) = 1 + t.reopened + t.unknown

/-- An entry with the budget of its attempts, none of which has left a resource behind. -/
structure Tallied (t : Tally) (s : Pending) (ps : PendingLinkSend) : Prop extends
    Budgeted t ps where
  mem : lookup t.key s.links = some ps
  issued : t.key ∈ s.issued
  queued : ps.status = .queued ∨ ps.status = .failed
  idle : ps.status = .failed → ps.retriesLeft = 0 ∧ ps.retryPending = false
  cleared : t.down = true → ps.resourceHash = []

variable {C : Crypto} {s s' : Pending} {t : Tally} {ps ps' : PendingLinkSend} {now : Nat}
  {key link resourceHash : Bytes} {env : Established}

/-! ### The entry under one key -/

lemma lookup_notify {k recordHash st tag} :
    lookup key (s.notify k recordHash st tag).links = lookup key s.links := by
  rw [Pending.notify_links]

/-- `_schedule_retry_or_fail` leaves this entry. -/
lemma lookup_scheduleRetryOrFail : lookup key (scheduleRetryOrFail key ps now s).links =
    some (if ps.retriesLeft = 0 then
      { ps with status := .failed, retryPending := false, resourceHash := [] }
    else
      { ps with
        retriesLeft := ps.retriesLeft - 1, retryPending := true
        nextRetryAtMs := now + DELIVERY_RETRY_WAIT_MS, status := .queued,
          resourceHash := [] }) := by
  unfold scheduleRetryOrFail
  split
  next => rw [lookup_notify, Pending.putLink, lookup_insert]
  next => rw [Pending.putLink, lookup_insert]

/-- It leaves the others as they are. -/
lemma lookup_scheduleRetryOrFail_of_ne (h : key ≠ link) :
    lookup key (scheduleRetryOrFail link ps now s).links = lookup key s.links := by
  unfold scheduleRetryOrFail
  split
  next => rw [lookup_notify, Pending.putLink, lookup_insert_of_ne h]
  next => rw [Pending.putLink, lookup_insert_of_ne h]

/-- What the established link leaves of its entry. -/
def Established.leaves (key : Bytes) (ps : PendingLinkSend) (wire : Bytes) (now : Nat)
    (env : Established) (s : Pending) : Dispatch → Option PendingLinkSend
  | .failed => lookup key (scheduleRetryOrFail key ps now s).links
  | .sent => none
  | .started => some { ps with
      resourceHash := env.resourceHash
      totalBytes := if ps.totalBytes = 0 then wire.length else ps.totalBytes
      wire := [] }

lemma lookup_sendOnLink {wire : Bytes} : lookup key (sendOnLink key ps wire now env s).links =
    env.leaves key ps wire now s (env.dispatch wire) := by
  unfold sendOnLink Established.dispatch
  split
  next =>
    split
    next => rfl
    next => rw [Pending.eraseLink, lookup_erase, Established.leaves]
  next =>
    cases env.ready with
    | false => rfl
    | true =>
      rw [if_neg (by decide), if_pos rfl, Pending.putLink, lookup_insert]
      rfl

/-- `_static_outbound_link_established`, on the entry of the link. -/
lemma lookup_linkEstablished (h : lookup link s.links = some ps) :
    lookup link (linkEstablished link now env s).links =
      env.leaves link ps (s.wireOf ps env) now s (s.dispatch ps env) := by
  unfold linkEstablished Pending.dispatch Pending.wireOf
  rw [h]
  dsimp only
  cases hp : ps.wirePath with
  | none =>
    dsimp only
    rw [if_neg fun hc => hc.1 rfl]
    exact lookup_sendOnLink
  | some path =>
    dsimp only
    split
    next hw => rw [if_pos ⟨Option.some_ne_none path, hw⟩, Established.leaves]
    next hw =>
      rw [if_neg fun hc => hw hc.2]
      exact lookup_sendOnLink

/-- On the others. -/
lemma lookup_linkEstablished_of_ne (h : key ≠ link) :
    lookup key (linkEstablished link now env s).links = lookup key s.links := by
  have hs {ps wire} : lookup key
    (sendOnLink link ps wire now env s).links = lookup key s.links := by
    unfold sendOnLink
    split
    next =>
      split
      next => exact lookup_scheduleRetryOrFail_of_ne h
      next =>
        rw [Pending.eraseLink, lookup_erase_of_ne h, Pending.releaseWireFile_links, lookup_notify]
        exact lookup_insert_of_ne h
    next =>
      split
      next => exact lookup_scheduleRetryOrFail_of_ne h
      next => exact lookup_insert_of_ne h
  unfold linkEstablished
  split
  next => rfl
  next =>
    split
    next =>
      dsimp only
      split
      next => exact lookup_scheduleRetryOrFail_of_ne h
      next => exact hs
    next => exact hs

/-- `_static_outbound_link_closed`, on the entry of the link. -/
lemma lookup_linkClosed (h : lookup link s.links = some ps)
    (hq : ps.status ≠ .sent ∧ ps.status ≠ .delivered) :
    lookup link (linkClosed link now s).links =
      lookup link (scheduleRetryOrFail link ps now s).links := by
  unfold linkClosed
  dsimp only
  rw [h]
  dsimp only
  rw [if_pos hq, lookup_scheduleRetryOrFail, lookup_scheduleRetryOrFail]

lemma lookup_linkClosed_of_ne (h : key ≠ link) :
    lookup key (linkClosed link now s).links = lookup key s.links := by
  unfold linkClosed
  dsimp only
  split
  next => rfl
  next =>
    split
    next => exact lookup_scheduleRetryOrFail_of_ne h
    next => rw [Pending.eraseLink, lookup_erase_of_ne h, Pending.releaseWireFile_links]

/-- `tick_retries` without the identity of the peer, on an entry that is due. -/
lemma lookup_retryOne_unknown (h : lookup key s.links = some ps)
    (hd : ps.retryPending = true ∧ now ≥ ps.nextRetryAtMs) :
    lookup key (retryOne key now .unknownIdentity s).links =
      lookup key (scheduleRetryOrFail key { ps with retryPending := false } now s).links := by
  unfold retryOne
  rw [h]
  dsimp only
  rw [if_pos hd, lookup_scheduleRetryOrFail, lookup_scheduleRetryOrFail]

/-- With a new link. -/
lemma lookup_retryOne_opened (h : lookup key s.links = some ps)
    (hd : ps.retryPending = true ∧ now ≥ ps.nextRetryAtMs) :
    lookup link (retryOne key now (.opened link) s).links =
      some { ps with retryPending := false, link, startedMs := now } := by
  unfold retryOne
  rw [h]
  dsimp only
  rw [if_pos hd]
  exact lookup_insert

lemma retryOne_of_not_due {r} (h : lookup key s.links = some ps)
    (hd : ¬ (ps.retryPending = true ∧ now ≥ ps.nextRetryAtMs)) : retryOne key now r s = s := by
  unfold retryOne
  rw [h]
  exact if_neg hd

lemma lookup_retryOne_of_ne {r} (h : key ≠ link) (hr : ∀ link', r = .opened link' → key ≠ link') :
    lookup key (retryOne link now r s).links = lookup key s.links := by
  unfold retryOne
  split
  next => rfl
  next =>
    split
    next =>
      cases r with
      | unknownIdentity =>
        dsimp only
        rw [lookup_scheduleRetryOrFail_of_ne h, Pending.putLink, lookup_insert_of_ne h,
          Pending.eraseLink, lookup_erase_of_ne h]
      | threw =>
        dsimp only
        rw [Pending.releaseWireFile_links, lookup_notify, Pending.eraseLink, lookup_erase_of_ne h]
      | opened link' =>
        dsimp only
        rw [Pending.putLink, lookup_insert_of_ne (hr link' rfl)]
        exact lookup_erase_of_ne h
    next => rfl

/-- An entry without the resource stays as it is. -/
lemma lookup_resourceConcluded_of_ne {complete} {keys : List Bytes}
    (h : lookup key s.links = some ps) (hne : ps.resourceHash ≠ resourceHash) :
    lookup key (resourceConcluded resourceHash complete now keys s).links = some ps := by
  induction keys generalizing s with
  | nil => exact h
  | cons k keys ih =>
    unfold resourceConcluded
    cases hk : lookup k s.links with
    | none => exact ih h
    | some ps' =>
      dsimp only
      split
      next heq =>
        have hkey : key ≠ k := by
          rintro rfl
          rw [h] at hk
          exact hne (Option.some.inj hk ▸ heq)
        split
        next =>
          apply ih
          rw [Pending.eraseLink, lookup_erase_of_ne hkey, Pending.releaseWireFile_links,
            lookup_notify, Pending.putLink, lookup_insert_of_ne hkey]
          exact h
        next =>
          rw [lookup_scheduleRetryOrFail_of_ne hkey]
          exact h
      next => exact ih h

/-- A resource that fails is that of one entry. -/
lemma lookup_resourceConcluded {keys : List Bytes} (h : lookup key s.links = some ps)
    (hk : key ∈ keys) (he : ps.resourceHash = resourceHash)
    (hu : ∀ x ∈ s.links, x.2.resourceHash = resourceHash → x.1 = key) :
    lookup key (resourceConcluded resourceHash false now keys s).links =
      lookup key (scheduleRetryOrFail key ps now s).links := by
  induction keys with
  | nil => cases hk
  | cons k keys ih =>
    unfold resourceConcluded
    by_cases hkey : k = key
    · subst hkey
      rw [h]
      dsimp only
      rw [if_pos he, if_neg Bool.false_ne_true]
    · have hk : key ∈ keys := (List.mem_cons.mp hk).resolve_left fun e => hkey e.symm
      cases hl : lookup k s.links with
      | none => exact ih hk
      | some ps' =>
        dsimp only
        rw [if_neg fun e => hkey (hu _ (mem_of_lookup hl) e)]
        exact ih hk

/-! ### What one step keeps -/

/-- A failure takes one retry, or is the last. -/
lemma exists_tallied {t' : Tally} (hi : t'.key ∈ s'.issued) (hdown : t'.down = true)
    (hm : lookup t'.key s'.links = lookup t'.key (scheduleRetryOrFail t'.key ps now s).links)
    (hl : ps.retriesLeft + t'.failed = DEFAULT_OUTBOX_RETRIES + 1)
    (ha : t'.failed = 1 + t'.reopened + t'.unknown) : ∃ ps', Tallied t' s' ps' := by
  rw [lookup_scheduleRetryOrFail] at hm
  by_cases h0 : ps.retriesLeft = 0
  · rw [if_pos h0] at hm
    exact ⟨_, {
      left := fun hs => absurd rfl hs
      scheduled := fun _ hs => absurd rfl hs
      running := fun hd => absurd (hd.symm.trans hdown) Bool.false_ne_true
      spent := fun _ => by omega
      attempts := by rw [if_pos hdown]; exact ha
      mem := hm
      issued := hi
      queued := .inr rfl
      idle := fun _ => ⟨h0, rfl⟩
      cleared := fun _ => rfl }⟩
  · rw [if_neg h0] at hm
    exact ⟨_, {
      left := fun _ => by dsimp only; omega
      scheduled := fun _ _ => rfl
      running := fun hd => absurd (hd.symm.trans hdown) Bool.false_ne_true
      spent := fun hs => OutboxStatus.noConfusion hs
      attempts := by rw [if_pos hdown]; exact ha
      mem := hm
      issued := hi
      queued := .inl rfl
      idle := fun hs => OutboxStatus.noConfusion hs
      cleared := fun _ => rfl }⟩

/-- The attempt under way fails. -/
lemma Tallied.fail (h : Tallied t s ps) (hd : t.down = false) (hi : t.key ∈ s'.issued)
    (hm : lookup t.key s'.links = lookup t.key (scheduleRetryOrFail t.key ps now s).links) :
    ∃ ps', Tallied t.fail s' ps' := by
  have he : t.fail = { t with down := true, failed := t.failed + 1 } :=
    if_neg (by rw [hd]; exact Bool.false_ne_true)
  have hl := h.left (by rw [(h.running hd).1]; nofun)
  have ha := h.attempts
  rw [hd, if_neg Bool.false_ne_true] at ha
  rw [he]
  exact exists_tallied hi rfl hm (by dsimp only; omega) ha

/-- Nothing happens to the entry. -/
lemma Tallied.same (h : Tallied t s ps) (hi : t.key ∈ s'.issued)
    (hm : lookup t.key s'.links = lookup t.key s.links) : ∃ ps', Tallied t s' ps' :=
  ⟨ps, { h with mem := hm.trans h.mem, issued := hi }⟩

/-- The entry is kept by the budget until it ends. -/
lemma Tallied.step {e : Event} (h : Tallied t s ps) (hc : Tally.Counts (s, t) e)
    (he : (t.step s e).ended = false) : ∃ ps', Tallied (t.step s e) (s.step C e) ps' := by
  obtain ⟨hof, hf, hcon, hlate⟩ := hc
  have hdel : e.Delivers := by
    cases e with
    | established | closed | concluded | retry => trivial
    | _ => exact hof.elim
  have hch : Changes True s (s.step C e) := .step hdel hf fun _ _ _ _ _ => trivial
  have hi : t.key ∈ (s.step C e).issued := (Traced.changes hch).issued h.issued
  unfold Tally.step at he ⊢
  rw [h.mem] at he ⊢
  cases e with
  | established link now env =>
    dsimp only [Pending.step] at he hi ⊢
    split at he
    next hlink =>
      subst hlink
      rw [if_pos rfl]
      have hd : t.down = false := by simpa [Event.Late] using hlate
      have hm : lookup t.key (linkEstablished t.key now env s).links = _ :=
        lookup_linkEstablished h.mem
      cases hdis : s.dispatch ps env with
      | failed =>
        rw [hdis] at hm
        exact h.fail hd hi hm
      | sent =>
        rw [hdis] at he
        cases he
      | started =>
        rw [hdis, Established.leaves] at hm
        dsimp only
        refine ⟨_, Tallied.mk ⟨?_, ?_, ?_, ?_, ?_⟩ hm hi ?_ ?_ ?_⟩
        · exact h.left
        · exact h.scheduled
        · exact h.running
        · exact h.spent
        · exact h.attempts
        · exact h.queued
        · exact h.idle
        · exact fun hd' => absurd (hd.symm.trans hd') Bool.false_ne_true
    next hlink =>
      rw [if_neg hlink]
      exact h.same hi (lookup_linkEstablished_of_ne fun e => hlink e.symm)
  | closed link now =>
    dsimp only [Pending.step] at he hi ⊢
    split at he
    next hlink =>
      subst hlink
      have hd : t.down = false := by simpa [Event.Late] using hlate
      have hq : ps.status ≠ .sent ∧ ps.status ≠ .delivered := by
        rw [(h.running hd).1]
        exact ⟨nofun, nofun⟩
      rw [if_pos rfl, if_pos hq]
      exact h.fail hd hi (lookup_linkClosed h.mem hq)
    next hlink =>
      rw [if_neg hlink]
      exact h.same hi (lookup_linkClosed_of_ne fun e => hlink e.symm)
  | concluded resourceHash complete now =>
    dsimp only [Pending.step] at he hi ⊢
    split at he
    next heq =>
      rw [if_pos heq]
      cases complete with
      | true => cases he
      | false =>
        -- an attempt that has failed has no resource
        have hd : t.down = false := by
          rw [← Bool.not_eq_true]
          exact fun hd => hcon.1 (heq ▸ h.cleared hd)
        refine h.fail hd hi (lookup_resourceConcluded h.mem ?_ heq fun x hx hxe => ?_)
        · exact List.mem_map_of_mem (mem_of_lookup h.mem)
        · exact hcon.2 x hx _ (mem_of_lookup h.mem) hxe heq
    next hne =>
      rw [if_neg hne]
      exact h.same hi ((lookup_resourceConcluded_of_ne h.mem hne).trans h.mem.symm)
  | retry key now r =>
    dsimp only [Pending.step] at he hi ⊢
    split at he
    next hdue =>
      obtain ⟨rfl, hdue⟩ := hdue
      rw [if_pos ⟨rfl, hdue⟩]
      have hst : ps.status = .queued := h.queued.resolve_right fun hs =>
        absurd (hdue.1.symm.trans (h.idle hs).2) (by decide)
      have hd : t.down = true := by
        rw [← Bool.not_eq_false]
        exact fun hd => absurd (hdue.1.symm.trans (h.running hd).2) (by decide)
      have hl := h.left (by rw [hst]; nofun)
      have ha := h.attempts
      rw [if_pos hd] at ha
      cases r with
      | unknownIdentity =>
        have hm := lookup_retryOne_unknown h.mem hdue
        exact exists_tallied hi rfl hm (by dsimp only; omega) (by dsimp only; omega)
      | threw => cases he
      | opened link =>
        have hil : link ∈ (retryOne t.key now (.opened link) s).issued := by
          unfold retryOne
          rw [h.mem]
          dsimp only
          rw [if_pos hdue]
          exact List.mem_append_right _ (List.mem_singleton.mpr rfl)
        refine ⟨{ ps with retryPending := false, link, startedMs := now }, Tallied.mk
          ⟨fun _ => hl, ?_, fun _ => ⟨hst, rfl⟩, ?_, ?_⟩ (lookup_retryOne_opened h.mem hdue) hil
          (.inl hst) ?_ ?_⟩
        · exact fun hd => absurd hd Bool.false_ne_true
        · exact fun hs => absurd (hst.symm.trans hs) (by decide)
        · dsimp only
          rw [if_neg Bool.false_ne_true]
          omega
        · exact fun hs => absurd (hst.symm.trans hs) (by decide)
        · exact fun hd => absurd hd Bool.false_ne_true
    next hdue =>
      rw [if_neg hdue]
      refine h.same hi ?_
      by_cases hkey : key = t.key
      · subst hkey
        rw [retryOne_of_not_due h.mem fun hd => hdue ⟨rfl, hd⟩]
      · refine lookup_retryOne_of_ne (fun e => hkey e.symm) fun link' hr e => ?_
        subst hr
        exact hf.1 (e ▸ h.issued)
  | _ => exact hof.elim

lemma Tally.ended_of_step {e : Event} (h : t.ended = true) : (t.step s e).ended = true := by
  have hf : t.fail.ended = true := by
    unfold Tally.fail
    split <;> exact h
  unfold Tally.step
  split
  next => exact h
  next =>
    cases e with
    | established =>
      dsimp only
      split
      next => split <;> first | exact hf | exact h | rfl
      next => exact h
    | closed | concluded =>
      dsimp only
      split
      next => split <;> first | exact hf | rfl
      next => exact h
    | retry =>
      dsimp only
      split
      next => split <;> first | exact h | rfl
      next => exact h
    | _ => exact h

/-- While an entry is pending, every attempt that has failed, on a link or for want of the identity
of the peer, has taken one retry; the retry for it stays scheduled; and the entry has failed only
when the first attempt and `DEFAULT_OUTBOX_RETRIES` retries have. -/
theorem budgeted_of_counts {ps₀ : PendingLinkSend} {s₀ : Pending} {st : Pending × Tally}
    (h₀ : NewEntry key ps₀ s₀) (h : Reach (Tally.run C) Tally.Counts (s₀, { key }) st)
    (he : st.2.ended = false) : ∃ ps, lookup st.2.key st.1.links = some ps ∧ Budgeted st.2 ps := by
  suffices ∃ ps, Tallied st.2 st.1 ps by
    obtain ⟨ps, hps⟩ := this
    exact ⟨ps, hps.mem, hps.toBudgeted⟩
  have hinv := h.invariant (P := fun st => st.2.ended = false → ∃ ps, Tallied st.2 st.1 ps)
    (fun _ => ?_) fun {st e} hc ih he => ?_
  · exact hinv he
  · have hq : ps₀.status ≠ .failed := by rw [h₀.status]; nofun
    exact ⟨ps₀, Tallied.mk ⟨fun _ => h₀.budget, nofun, fun _ => ⟨h₀.status, h₀.running⟩,
      fun hs => absurd hs hq, rfl⟩ h₀.mem h₀.issued (.inl h₀.status) (fun hs => absurd hs hq) nofun⟩
  · have he' : st.2.ended = false := by
      rw [← Bool.not_eq_true]
      exact fun ht => absurd (he.symm.trans (Tally.ended_of_step ht)) Bool.false_ne_true
    obtain ⟨ps, hps⟩ := ih he'
    exact hps.step hc he

/-- A resource that fails and then its link that closes take two retries for one attempt. -/
theorem two_retries_for_one_attempt (h : Tallied t s ps) (hd : t.down = false)
    (hr : ps.resourceHash = resourceHash) (hl : 2 ≤ ps.retriesLeft)
    (hu : ∀ x ∈ s.links, x.2.resourceHash = resourceHash → x.1 = t.key) :
    let st := Tally.run C (s, t) (.concluded resourceHash false now)
    (Tally.run C st (.closed t.key now)).2.failed = t.failed + 1 ∧
      ∃ ps', lookup t.key (Tally.run C st (.closed t.key now)).1.links = some ps' ∧
        ps'.retriesLeft + 2 = ps.retriesLeft := by
  have hkey : t.key ∈ s.links.map (·.1) := List.mem_map_of_mem (mem_of_lookup h.mem)
  have h1 : lookup t.key (resourceConcluded resourceHash false now _ s).links = _ :=
    (lookup_resourceConcluded h.mem hkey hr hu).trans lookup_scheduleRetryOrFail
  rw [if_neg (by omega)] at h1
  have h2 : lookup t.key (linkClosed t.key now _).links = _ :=
    (lookup_linkClosed h1 ⟨nofun, nofun⟩).trans lookup_scheduleRetryOrFail
  dsimp only at h2
  rw [if_neg (by omega)] at h2
  have ht : t.step s (.concluded resourceHash false now) =
      { t with down := true, failed := t.failed + 1 } := by
    unfold Tally.step
    rw [h.mem]
    dsimp only
    rw [if_pos hr, if_neg Bool.false_ne_true]
    exact if_neg (by rw [hd]; exact Bool.false_ne_true)
  refine ⟨?_, _, h2, by dsimp only; omega⟩
  dsimp only [Tally.run]
  rw [ht]
  unfold Tally.step
  dsimp only [Pending.step]
  rw [h1]
  dsimp only
  rw [if_pos rfl, if_pos ⟨nofun, nofun⟩]
  rfl

instance : ∀ e : Event, Decidable e.OfLink
  | .established .. | .closed .. | .concluded .. | .retry .. => .isTrue trivial
  | .send .. | .stampRecord .. | .sweep .. | .clean .. | .opportunistic .. | .manualRetry ..
  | .announced .. | .prune .. | .activate .. | .delete .. => .isFalse id

instance {s : Pending} : ∀ e : Event, Decidable (e.Conclusive s)
  | .concluded .. => inferInstanceAs (Decidable (_ ∧ ∀ x ∈ s.links, ∀ y ∈ s.links, _))
  | .established .. | .closed .. | .retry .. | .send .. | .stampRecord .. | .sweep .. | .clean ..
  | .opportunistic .. | .manualRetry .. | .announced .. | .prune .. | .activate .. | .delete .. =>
    .isTrue trivial

instance {t : Tally} : ∀ e : Event, Decidable (e.Late t)
  | .established .. | .closed .. => inferInstanceAs (Decidable (_ ∧ _))
  | .concluded .. | .retry .. | .send .. | .stampRecord .. | .sweep .. | .clean ..
  | .opportunistic .. | .manualRetry .. | .announced .. | .prune .. | .activate .. | .delete .. =>
    .isFalse id

instance {st : Pending × Tally} {e : Event} : Decidable (Tally.Counts st e) :=
  inferInstanceAs (Decidable (_ ∧ _ ∧ _ ∧ ¬ _))

/-- A device with one message of 400 bytes under way. -/
def samplePending : Pending :=
  [Event.activate 0 [7] [8], .send [7] [9] (sampleMessage 400) [] .machinery
    (sampleSend 1 .written .closed)].foldl (Pending.step sampleCrypto) {}

/-- Its entry. -/
def sampleEntry : PendingLinkSend :=
  { wirePath := some ⟨[1], 1⟩, link := [1], startedMs := 1, destHash := [9], totalBytes := 482
    owner := 0, recordHash := [1]
    directWire := [9] ++ ([8] ++ List.replicate 64 1 ++ (sampleMessage 400).payload)
    tag := ⟨[7], 0⟩ }

/-- The entry is new. -/
lemma newEntry_sample : NewEntry [1] sampleEntry samplePending :=
  ⟨by decide +kernel, by decide +kernel, rfl, rfl, rfl⟩

/-- An attempt fails, and the five retries find the identity of the peer unknown. -/
def sampleUnknown : List Event :=
  [.closed [1] 0, .retry [1] 10000 .unknownIdentity, .retry [1] 20000 .unknownIdentity,
    .retry [1] 30000 .unknownIdentity, .retry [1] 40000 .unknownIdentity,
    .retry [1] 50000 .unknownIdentity]

/-- A send fails after one attempt, with no retry over a link. -/
theorem failed_without_reattempts :
    ¬ ∀ st ps, Reach (Tally.run sampleCrypto) Tally.Counts (samplePending, { key := [1] }) st →
      lookup st.2.key st.1.links = some ps → ps.status = .failed →
      st.2.reopened = DEFAULT_OUTBOX_RETRIES := by
  intro h
  let st := sampleUnknown.foldl (Tally.run sampleCrypto) (samplePending, { key := [1] })
  have hr : Reach (Tally.run sampleCrypto) Tally.Counts (samplePending, { key := [1] }) st :=
    Reach.init.run (by decide +kernel)
  have hs : (lookup st.2.key st.1.links).map (·.status) = some .failed := by decide +kernel
  have h0 : st.2.reopened = 0 := by decide +kernel
  obtain ⟨ps, hl, hf⟩ := Option.map_eq_some_iff.mp hs
  exact absurd (h0.symm.trans (h st ps hr hl hf)) (by decide)

/-- A resource fails, the retry opens a new link, and then the old link closes and the resource is
heard of once more: one retry is taken. -/
theorem budgeted_of_counts_reopened :
    let st := [Event.established [1] 2 (sampleSend 1 .written .closed).established,
      .concluded [1, 1] false 3, .concluded [1, 1] true 4, .retry [1] 20000 (.opened [2]),
      .closed [1] 20001, .concluded [1, 1] false 20002].foldl (Tally.run sampleCrypto)
        (samplePending, { key := [1] })
    st.2.failed = 1 ∧ ∃ ps, lookup st.2.key st.1.links = some ps ∧ Budgeted st.2 ps :=
  ⟨by decide +kernel, budgeted_of_counts newEntry_sample (Reach.init.run (by decide +kernel))
    (by decide +kernel)⟩

end URSupreme.Outbound
