import URSupreme.Lib.Keep
import URSupreme.LXMF.InboxSpool

/-!
# Retention

`prune_expired` of `LXMF/LXMFInbox.h` pass by pass: the records past the age limit of their peer go
first, then the indices of the ring are gathered by peer, those in excess of a peer's count are
sorted and erased from the highest down, and the capacity bounds what is left. What stays is what
each peer's policy keeps of its records.
-/

namespace URSupreme.Inbox
open Lib LXMF
open Gateway (Retention RetentionKind)

/-- The operations on `double` that `prune_expired` uses. -/
structure Doubles where
  /-- `x > 0.0` -/
  positive : UInt64 → Bool
  /-- `x <= 0.0` -/
  unset : UInt64 → Bool
  /-- `x - (double)n` -/
  minus : UInt64 → Nat → UInt64
  /-- `x < y` -/
  less : UInt64 → UInt64 → Bool

variable (P : Platform) (D : Doubles)

/-- The peer of a record in hexadecimal. -/
def peerHex (r : MessageRecord) : Bytes := P.toHex r.peerHash

/-- Pass 1 of `prune_expired` erases a record. -/
def LXMFInbox.tooOld (s : LXMFInbox) (now : UInt64) (r : MessageRecord) : Bool :=
  let p := s.effectiveRetentionFor (peerHex P r)
  if p.kind ≠ .time ∨ p.value = 0 ∨ D.unset r.ts then false
  else D.less r.ts (D.minus now p.value)

/-- `by_peer`, the indices of a ring by peer. -/
def byPeer (ring : List MessageRecord) : List (Bytes × List Nat) :=
  buckets (ring.zipIdx.map fun x => (peerHex P x.1, x.2))

/-- The indices of a peer that pass 2 of `prune_expired` adds to `drop`. -/
def LXMFInbox.excess (s : LXMFInbox) (kv : Bytes × List Nat) : List Nat :=
  let p := s.effectiveRetentionFor kv.1
  if p.kind ≠ .count ∨ p.value = 0 then []
  else if kv.2.length ≤ p.value then []
  else kv.2.take (kv.2.length - p.value)

/-- `drop`. -/
def LXMFInbox.drop (s : LXMFInbox) (ring : List MessageRecord) : List Nat :=
  (byPeer P ring).flatMap s.excess

/-- Pass 2 of `prune_expired`. -/
def LXMFInbox.dropExcess (s : LXMFInbox) (ring : List MessageRecord) : List MessageRecord :=
  let drop := s.drop P ring
  if drop = [] then ring
  else
    (drop.mergeSort fun a b => decide (a ≥ b)).foldl
      (fun ring idx => if idx < ring.length then ring.eraseIdx idx else ring) ring

/-- `prune_expired`, for what `_now_epoch` gives. -/
def LXMFInbox.prune (now : UInt64) (s : LXMFInbox) : LXMFInbox :=
  if s.peerRetention = [] ∧ s.defaultRetention.kind = .none then
    { s with ring := recent s.ramCapacity s.ring }
  else
    let timed := if D.positive now then s.ring.filter fun r => !s.tooOld P D now r else s.ring
    let s' := { s with ring := recent s.ramCapacity (s.dropExcess P timed) }
    if s'.ring.length ≠ s.ring.length then s'.rewriteSpool P else s'

/-- How many records of a peer a count policy leaves. -/
def LXMFInbox.limit (s : LXMFInbox) (peer : Bytes) : Option Nat :=
  let p := s.effectiveRetentionFor peer
  if p.kind = .count ∧ p.value ≠ 0 then some p.value else none

variable {P D} {s : LXMFInbox} {now : UInt64} {ring : List MessageRecord}

lemma excess_eq (kv : Bytes × List Nat) : s.excess kv =
    match s.limit kv.1 with
    | some n => kv.2.take (kv.2.length - n)
    | none => [] := by
  unfold LXMFInbox.excess LXMFInbox.limit
  dsimp only
  by_cases h : (s.effectiveRetentionFor kv.1).kind = .count ∧
      (s.effectiveRetentionFor kv.1).value ≠ 0
  · rw [if_neg (by tauto), if_pos h]
    dsimp only
    split
    next hle => rw [Nat.sub_eq_zero_of_le hle, List.take_zero]
    next => rfl
  · rw [if_pos (by tauto), if_neg h]

/-- The indices of a peer's records, when the first one of the list has index `k`. -/
def indicesOf (P : Platform) (peer : Bytes) (k : Nat) (l : List MessageRecord) : List Nat :=
  valuesOf peer ((l.zipIdx k).map fun x => (peerHex P x.1, x.2))

lemma indicesOf_eq {peer : Bytes} {k : Nat} {l : List MessageRecord} :
    indicesOf P peer k l = ((l.zipIdx k).filter (peerHex P ·.1 = peer)).map (·.2) := by
  rw [indicesOf, valuesOf, List.filter_map, List.map_map]
  rfl

lemma length_indicesOf {peer : Bytes} {k : Nat} {l : List MessageRecord} :
    (indicesOf P peer k l).length = (l.filter (peerHex P · = peer)).length := by
  rw [indicesOf_eq, List.length_map]
  conv_rhs => rw [← List.zipIdx_map_fst k l, List.filter_map, List.length_map]
  rfl

lemma mem_indicesOf {peer : Bytes} {k i : Nat} {l : List MessageRecord} :
    i ∈ indicesOf P peer k l ↔
      k ≤ i ∧ ∃ h : i - k < l.length, peerHex P l[i - k] = peer := by
  rw [indicesOf_eq, List.mem_map]
  constructor
  · rintro ⟨x, hx, rfl⟩
    obtain ⟨hx, hp⟩ := List.mem_filter.mp hx
    obtain ⟨h1, h2, h3⟩ := List.mem_zipIdx (x := x.1) (i := x.2) hx
    exact ⟨h1, by omega, h3 ▸ of_decide_eq_true hp⟩
  · rintro ⟨hk, hlt, hp⟩
    refine ⟨(l[i - k], i), List.mem_filter.mpr ⟨?_, decide_eq_true hp⟩, rfl⟩
    rw [List.mk_mem_zipIdx_iff_le_and_getElem?_sub]
    exact ⟨hk, List.getElem?_eq_getElem hlt⟩

lemma nodup_indicesOf {peer : Bytes} {l : List MessageRecord} : (indicesOf P peer 0 l).Nodup := by
  have h : (l.zipIdx.map (·.2)).Nodup := by
    rw [List.zipIdx_map_snd]
    exact List.nodup_range'
  rw [indicesOf_eq]
  exact h.sublist (List.filter_sublist.map _)

/-- The buckets of `by_peer` are the peers' indices. -/
lemma mem_byPeer {peer : Bytes} {idx : List Nat} :
    (peer, idx) ∈ byPeer P ring ↔ idx = indicesOf P peer 0 ring ∧ idx ≠ [] := mem_buckets

/-- The indices of a peer before, at and after one of its records. -/
lemma indicesOf_split (i : Nat) (hi : i < ring.length) :
    indicesOf P (peerHex P ring[i]) 0 ring = indicesOf P (peerHex P ring[i]) 0 (ring.take i) ++
      i :: indicesOf P (peerHex P ring[i]) (i + 1) (ring.drop (i + 1)) := by
  have hsplit : ring = ring.take i ++ ring[i] :: ring.drop (i + 1) := by
    rw [List.getElem_cons_drop, List.take_append_drop]
  have htake : (ring.take i).length = i := List.length_take_of_le hi.le
  generalize hp : peerHex P ring[i] = peer
  simp only [indicesOf_eq]
  conv_lhs => rw [hsplit, List.zipIdx_append, List.filter_append, List.map_append, htake,
    Nat.zero_add, List.zipIdx_cons, List.filter_cons, if_pos (decide_eq_true hp), List.map_cons]

/-- An index is among the first `n` of a list when fewer come before it. -/
lemma mem_take_iff {l l' : List Nat} {i n : Nat} (h : i ∉ l) :
    i ∈ (l ++ i :: l').take n ↔ l.length < n := by
  rw [List.take_append, List.mem_append, or_iff_right fun hi => h (List.mem_of_mem_take hi)]
  cases hn : n - l.length with
  | zero =>
    rw [List.take_zero]
    exact iff_of_false List.not_mem_nil (by omega)
  | succ k =>
    rw [List.take_succ_cons]
    exact iff_of_true List.mem_cons_self (by omega)

/-- An index is dropped when enough records of the same peer come after it. -/
lemma mem_drop (i : Nat) (hi : i < ring.length) : i ∈ s.drop P ring ↔
    ∃ n ∈ s.limit (peerHex P ring[i]),
      n ≤ ((ring.drop (i + 1)).filter (peerHex P · = peerHex P ring[i])).length := by
  have hbucket : i ∈ s.drop P ring ↔
      i ∈ s.excess (peerHex P ring[i], indicesOf P (peerHex P ring[i]) 0 ring) := by
    rw [LXMFInbox.drop, List.mem_flatMap]
    constructor
    · rintro ⟨⟨peer, idx⟩, hm, hx⟩
      obtain ⟨rfl, -⟩ := mem_byPeer.mp hm
      have hidx : i ∈ indicesOf P peer 0 ring := by
        rw [excess_eq] at hx
        split at hx
        next => exact List.mem_of_mem_take hx
        next => exact (List.not_mem_nil hx).elim
      obtain ⟨_, _, rfl⟩ := mem_indicesOf.mp hidx
      exact hx
    · intro hx
      refine ⟨_, mem_byPeer.mpr ⟨rfl, ?_⟩, hx⟩
      rw [indicesOf_split i hi]
      exact List.append_ne_nil_of_right_ne_nil _ (List.cons_ne_nil _ _)
  have hbefore : i ∉ indicesOf P (peerHex P ring[i]) 0 (ring.take i) := by
    intro h
    obtain ⟨_, h, _⟩ := mem_indicesOf.mp h
    rw [List.length_take] at h
    omega
  rw [hbucket, excess_eq]
  dsimp only
  cases s.limit (peerHex P ring[i]) with
  | none => simp
  | some n =>
    rw [indicesOf_split i hi]
    dsimp only
    rw [mem_take_iff hbefore, List.length_append, List.length_cons, length_indicesOf,
      length_indicesOf]
    constructor
    · exact fun h => ⟨n, rfl, by omega⟩
    · rintro ⟨m, hm, h⟩
      obtain rfl := Option.mem_some.mp hm
      omega

/-- No index is dropped twice. -/
lemma nodup_drop : (s.drop P ring).Nodup := by
  have hsub : ∀ kv : Bytes × List Nat, (s.excess kv).Sublist kv.2 := by
    intro kv
    rw [excess_eq]
    split
    next => exact List.take_sublist _ _
    next => exact List.nil_sublist _
  have hb : ∀ kv ∈ byPeer P ring, kv.2 = indicesOf P kv.1 0 ring := fun kv h =>
    (mem_byPeer.mp h).1
  refine List.nodup_flatMap.mpr ⟨fun kv h => ?_, ?_⟩
  · refine List.Nodup.sublist (hsub kv) ?_
    rw [hb kv h]
    exact nodup_indicesOf
  · have hk : (byPeer P ring).Pairwise (·.1 ≠ ·.1) := List.pairwise_map.mp nodup_buckets
    refine hk.imp_of_mem fun {a b} ha hb' hne i h1 h2 => hne ?_
    have h1' := (hsub a).subset h1
    have h2' := (hsub b).subset h2
    rw [hb a ha] at h1'
    rw [hb b hb'] at h2'
    obtain ⟨_, _, e1⟩ := mem_indicesOf.mp h1'
    obtain ⟨_, _, e2⟩ := mem_indicesOf.mp h2'
    exact e1.symm.trans e2

/-- Pass 2 keeps the newest records of every peer with a count policy. -/
lemma dropExcess_eq : s.dropExcess P ring = keepLast (peerHex P) s.limit ring := by
  have hkeep : keepLast (peerHex P) s.limit ring = keepFrom 0 (s.drop P ring) ring := by
    refine keepLast_eq_keepFrom fun i hi => ?_
    rw [Nat.zero_add]
    exact mem_drop i hi
  unfold LXMFInbox.dropExcess
  dsimp only
  split
  next h => rw [hkeep, h, keepFrom_of_lt fun _ h => (List.not_mem_nil h).elim]
  next =>
    have hsorted : ((s.drop P ring).mergeSort fun a b => decide (a ≥ b)).Pairwise (· > ·) := by
      have hge := List.pairwise_mergeSort' (· ≥ ·) (s.drop P ring)
      have hne : ((s.drop P ring).mergeSort fun a b => decide (a ≥ b)).Nodup :=
        (List.mergeSort_perm _ _).nodup_iff.mpr nodup_drop
      exact (hge.and hne).imp fun h => lt_of_le_of_ne h.1 (Ne.symm h.2)
    rw [foldl_eraseIdx hsorted, hkeep]
    exact keepFrom_congr fun i _ => List.mem_mergeSort

/-- What a policy keeps of the records of one peer, oldest first: all of them, those that have no
time or are not past the age limit, or the newest ones. -/
def kept (D : Doubles) (now : UInt64) (p : Retention) (l : List MessageRecord) :
    List MessageRecord :=
  match p.kind with
  | .none => l
  | .time =>
    if p.value ≠ 0 ∧ D.positive now then
      l.filter fun r => D.unset r.ts || !D.less r.ts (D.minus now p.value)
    else l
  | .count => if p.value ≠ 0 then recent p.value l else l

/-- The records of a peer. -/
def ofPeer (P : Platform) (peer : Bytes) (l : List MessageRecord) : List MessageRecord :=
  l.filter (peerHex P · = peer)

lemma kept_sublist {p : Retention} {l : List MessageRecord} : (kept D now p l).Sublist l := by
  unfold kept
  split
  next => exact List.Sublist.refl l
  next =>
    split
    next => exact List.filter_sublist
    next => exact List.Sublist.refl l
  next =>
    split
    next => exact List.drop_sublist _ l
    next => exact List.Sublist.refl l

/-- A policy keeps all of what it kept, less some of the oldest. -/
lemma kept_suffix {p : Retention} {l l' : List MessageRecord} (h : l'.IsSuffix (kept D now p l)) :
    kept D now p l' = l' := by
  unfold kept at h ⊢
  split
  next => rfl
  next hk =>
    rw [hk] at h
    split
    next hv =>
      rw [if_pos hv] at h
      refine List.filter_eq_self.mpr fun r hr => ?_
      exact (List.mem_filter.mp (h.subset hr)).2
    next => rfl
  next hk =>
    rw [hk] at h
    split
    next hv =>
      rw [if_pos hv] at h
      refine recent_of_le (h.length_le.trans ?_)
      rw [length_recent]
      exact min_le_left _ _
    next => rfl

variable (P D) in
/-- The records that the two passes of `prune_expired` leave. -/
def LXMFInbox.retained (s : LXMFInbox) (now : UInt64) : List MessageRecord :=
  s.dropExcess P (if D.positive now then s.ring.filter fun r => !s.tooOld P D now r else s.ring)

lemma retained_sublist : (s.retained P D now).Sublist s.ring := by
  rw [LXMFInbox.retained, dropExcess_eq]
  refine keepLast_sublist.trans ?_
  split
  next => exact List.filter_sublist
  next => exact List.Sublist.refl _

/-- The first pass, one peer's records at a time. -/
lemma ofPeer_timed {peer : Bytes} :
    ofPeer P peer (if D.positive now then s.ring.filter fun r => !s.tooOld P D now r
      else s.ring) =
    if (s.effectiveRetentionFor peer).kind = .time then
      kept D now (s.effectiveRetentionFor peer) (ofPeer P peer s.ring)
    else ofPeer P peer s.ring := by
  have hexp : ∀ r, peerHex P r = peer → s.tooOld P D now r =
      if (s.effectiveRetentionFor peer).kind ≠ .time ∨ (s.effectiveRetentionFor peer).value = 0 ∨
        D.unset r.ts then false
      else D.less r.ts (D.minus now (s.effectiveRetentionFor peer).value) := by
    rintro r rfl
    rfl
  generalize s.effectiveRetentionFor peer = p at hexp ⊢
  by_cases hn : D.positive now = true
  · rw [if_pos hn, ofPeer, List.filter_comm]
    split
    next hk =>
      rw [kept, hk]
      dsimp only
      by_cases hv : p.value = 0
      · rw [if_neg fun h => h.1 hv]
        refine List.filter_eq_self.mpr fun r hr => ?_
        rw [hexp r (of_decide_eq_true (List.mem_filter.mp hr).2), if_pos (.inr (.inl hv))]
        rfl
      · rw [if_pos ⟨hv, hn⟩]
        refine List.filter_congr fun r hr => ?_
        rw [hexp r (of_decide_eq_true (List.mem_filter.mp hr).2)]
        cases hu : D.unset r.ts with
        | true => simp
        | false => simp [hk, hv]
    next hk =>
      refine List.filter_eq_self.mpr fun r hr => ?_
      rw [hexp r (of_decide_eq_true (List.mem_filter.mp hr).2), if_pos (.inl hk)]
      rfl
  · rw [if_neg hn]
    split
    next hk =>
      rw [kept, hk]
      dsimp only
      rw [if_neg fun h => hn h.2]
    next => rfl

/-- Of every peer's records those stay that its policy keeps. -/
lemma ofPeer_retained {peer : Bytes} : ofPeer P peer (s.retained P D now) =
    kept D now (s.effectiveRetentionFor peer) (ofPeer P peer s.ring) := by
  have htimed := @ofPeer_timed P D s now peer
  rw [LXMFInbox.retained, dropExcess_eq]
  generalize (if D.positive now then s.ring.filter fun r => !s.tooOld P D now r
    else s.ring) = timed at htimed ⊢
  rw [ofPeer, filter_keepLast]
  unfold ofPeer at htimed
  rw [htimed, LXMFInbox.limit]
  generalize s.effectiveRetentionFor peer = p
  cases hk : p.kind with
  | none => simp [kept, hk, ofPeer]
  | time => simp [ofPeer]
  | count =>
    by_cases hv : p.value = 0
    · simp [kept, hk, hv, ofPeer]
    · simp [kept, hk, hv, ofPeer]

/-- With a policy set, `prune_expired` changes the ring and the spool. -/
lemma prune_eq (h : ¬ (s.peerRetention = [] ∧ s.defaultRetention.kind = .none)) :
    ∃ spool, s.prune P D now =
      { s with ring := recent s.ramCapacity (s.retained P D now), spool } := by
  rw [LXMFInbox.prune, if_neg h]
  change ∃ spool, (if (recent s.ramCapacity (s.retained P D now)).length ≠ s.ring.length then
    LXMFInbox.rewriteSpool P { s with ring := recent s.ramCapacity (s.retained P D now) }
    else { s with ring := recent s.ramCapacity (s.retained P D now) }) = _
  split
  next => exact ⟨_, rfl⟩
  next => exact ⟨_, rfl⟩

/-- `prune_expired` leaves what the policies keep, within the capacity. -/
lemma ring_prune : ∃ l, (∀ peer, ofPeer P peer l =
      kept D now (s.effectiveRetentionFor peer) (ofPeer P peer s.ring)) ∧
    l.Sublist s.ring ∧ (s.prune P D now).ring = recent s.ramCapacity l := by
  by_cases hnone : s.peerRetention = [] ∧ s.defaultRetention.kind = .none
  · refine ⟨s.ring, fun peer => ?_, List.Sublist.refl _, by rw [LXMFInbox.prune, if_pos hnone]⟩
    have hp : s.effectiveRetentionFor peer = s.defaultRetention := by
      rw [LXMFInbox.effectiveRetentionFor, hnone.1]
      rfl
    rw [hp, kept, hnone.2]
  · refine ⟨s.retained P D now, fun peer => ofPeer_retained, retained_sublist, ?_⟩
    obtain ⟨spool, e⟩ := prune_eq hnone
    rw [e]

lemma prune_members : (s.prune P D now).ramCapacity = s.ramCapacity ∧
    (s.prune P D now).peerRetention = s.peerRetention ∧
    (s.prune P D now).defaultRetention = s.defaultRetention := by
  by_cases h : s.peerRetention = [] ∧ s.defaultRetention.kind = .none
  · rw [LXMFInbox.prune, if_pos h]
    exact ⟨rfl, rfl, rfl⟩
  · obtain ⟨spool, e⟩ := prune_eq h
    rw [e]
    exact ⟨rfl, rfl, rfl⟩

/-- Pruning again at the same time removes nothing. -/
lemma prune_prune : ((s.prune P D now).prune P D now).ring = (s.prune P D now).ring := by
  obtain ⟨l, hl, hsub, e⟩ := @ring_prune P D s now
  obtain ⟨l', hl', hsub', e'⟩ := @ring_prune P D (s.prune P D now) now
  obtain ⟨hcap, hpeer, hdefault⟩ := @prune_members P D s now
  have hpolicy : ∀ peer, (s.prune P D now).effectiveRetentionFor peer =
      s.effectiveRetentionFor peer := by
    intro peer
    rw [LXMFInbox.effectiveRetentionFor, hpeer, hdefault]
    rfl
  have hsame : l' = (s.prune P D now).ring := by
    refine eq_of_sublist_of_filter hsub' fun peer => congrArg List.length ((hl' peer).trans ?_)
    have hsuf : (ofPeer P peer (recent s.ramCapacity l)).IsSuffix
        (kept D now (s.effectiveRetentionFor peer) (ofPeer P peer s.ring)) := by
      rw [← hl peer]
      exact (List.drop_suffix _ l).filter _
    rw [hpolicy, e]
    exact kept_suffix hsuf
  rw [e', hsame, hcap, e]
  refine recent_of_le ?_
  rw [length_recent]
  exact min_le_left _ _

/-- The second pass as the mailbox's model has it. -/
lemma keepNewest_eq (hx : Function.Injective P.toHex) :
    s.keepNewest P ring = keepLast (peerHex P) s.limit ring := by
  refine Eq.trans ?_ (keepLast_comp hx)
  induction ring with
  | nil => rfl
  | cons r l ih =>
    rw [LXMFInbox.keepNewest, keepLast, ih]
    refine if_congr ?_ rfl rfl
    rw [Function.comp_apply, LXMFInbox.limit]
    generalize s.effectiveRetentionFor (P.toHex r.peerHash) = p
    constructor
    · rintro ⟨h1, h2, h3⟩
      exact ⟨p.value, by rw [if_pos ⟨h1, h2⟩]; rfl, h3⟩
    · rintro ⟨n, hn, h3⟩
      split at hn
      next h =>
        obtain rfl := Option.mem_some.mp hn
        exact ⟨h.1, h.2, h3⟩
      next => cases hn

/-- `prune_expired` pass by pass is `prune_expired` of the mailbox. -/
theorem prune_eq_pruneExpired (hx : Function.Injective P.toHex)
    (hP : ∀ ts now n, P.older ts now n = (!D.unset ts && D.less ts (D.minus now n))) :
    s.prune P D now = s.pruneExpired P (if D.positive now then some now else none) := by
  have htime : ∀ r, (!s.tooOld P D now r) = s.inTime P now r := by
    intro r
    unfold LXMFInbox.tooOld LXMFInbox.inTime peerHex
    dsimp only
    rw [hP]
    generalize s.effectiveRetentionFor (P.toHex r.peerHash) = p
    by_cases hk : p.kind = .time
    · by_cases hv : p.value = 0
      · simp [hk, hv]
      · cases D.unset r.ts <;> simp [hk, hv]
    · simp [hk]
  have hsurv : s.surviving P (if D.positive now then some now else none) =
      recent s.ramCapacity (s.retained P D now) := by
    unfold LXMFInbox.surviving
    rw [LXMFInbox.retained, dropExcess_eq, ← keepNewest_eq hx]
    simp only [htime]
    cases D.positive now with
    | true => rfl
    | false => rfl
  unfold LXMFInbox.prune LXMFInbox.pruneExpired
  rw [hsurv]
  rfl

/-- A ring never exceeds its capacity, whatever happens to the mailbox. -/
lemma room_step {e : Event} (h : s.ring.length ≤ s.ramCapacity) :
    (s.step P e).ring.length ≤ (s.step P e).ramCapacity := by
  have hprune : ∀ (s : LXMFInbox) now, s.ring.length ≤ s.ramCapacity →
      (s.pruneExpired P now).ring.length ≤ (s.pruneExpired P now).ramCapacity := by
    intro s now h
    rcases pruneExpired_cases (P := P) now h with e | ⟨ring, hsub, e⟩
    · rw [e]
      exact h
    · rw [e]
      exact hsub.length_le.trans h
  have hrecent : ∀ n (l : List MessageRecord), (recent n l).length ≤ n := by
    intro n l
    rw [length_recent]
    exact min_le_left _ _
  cases e with
  | append r w now =>
    cases w with
    | short n => exact h
    | whole => exact hprune _ now (hrecent _ _)
  | updateStatus packetHash status =>
    unfold LXMFInbox.step LXMFInbox.updateStatus
    dsimp only
    split
    next => exact (List.length_map _).trans_le h
    next => exact h
  | mutateBySeq seq f =>
    unfold LXMFInbox.step LXMFInbox.mutateBySeq
    dsimp only
    split
    next => exact length_modifyFirst.trans_le h
    next => exact h
  | updateAttachmentBackends source target =>
    unfold LXMFInbox.step LXMFInbox.updateAttachmentBackends
    dsimp only
    split
    next => exact (List.length_map _).trans_le h
    next => exact h
  | purgePeer peerHash =>
    have hlen := (List.length_filter_le (·.peerHash ≠ peerHash) s.ring).trans h
    unfold LXMFInbox.step LXMFInbox.purgePeer
    dsimp only
    split
    next => exact hlen
    next => exact hlen
  | pruneExpired now => exact hprune s now h
  | setCapacity cap =>
    unfold LXMFInbox.step LXMFInbox.setCapacity
    dsimp only
    split
    next => exact hrecent _ _
    next => exact hrecent _ _
  | setDefaultRetention r now => exact hprune _ now h
  | setPeerRetention peerHex r now =>
    unfold LXMFInbox.step LXMFInbox.setPeerRetention
    dsimp only
    split
    next => exact h
    next => exact hprune _ now h
  | clearPeerRetention peerHex now =>
    unfold LXMFInbox.step LXMFInbox.clearPeerRetention
    dsimp only
    split
    next => exact h
    next => exact hprune _ now h
  | clearAllPeerRetention => exact h
  | reserveSeq => exact h
  | load opened =>
    obtain ⟨h1, h2, -⟩ :=
      @ring_applyDocs P (loadSpool P s.spool) { s with ring := [], nextSeq := 0 } rfl
    unfold LXMFInbox.step LXMFInbox.load
    dsimp only
    split
    next =>
      have hlen := (congrArg List.length h1).trans_le ((hrecent _ _).trans h2.ge)
      split
      next => exact hlen
      next => exact hlen
    next => exact Nat.zero_le _

/-- In every state of a run the capacity has room for the ring. -/
lemma room_of_reach {ramCapacity : Nat} {defaultRetention : Retention}
    (h : Reach (LXMFInbox.step P) (fun _ _ => True) { ramCapacity, defaultRetention } s) :
    s.ring.length ≤ s.ramCapacity :=
  h.invariant (P := fun s => s.ring.length ≤ s.ramCapacity) (Nat.zero_le _) fun _ h => room_step h

/-- Whatever the ring, the policies and the clock are: of every peer's records `prune_expired` keeps
those that the peer's policy keeps, all in the order they had, and the newest that the capacity
admits when the ring exceeds it; pruning again at the same time removes nothing. -/
theorem retained_of_policy (P : Platform) (D : Doubles) (s : LXMFInbox) (now : UInt64) :
    ∃ l, (∀ peer, ofPeer P peer l =
        kept D now (s.effectiveRetentionFor peer) (ofPeer P peer s.ring)) ∧
      l.Sublist s.ring ∧
      (s.prune P D now).ring = recent s.ramCapacity l ∧
      (s.ring.length ≤ s.ramCapacity → (s.prune P D now).ring = l) ∧
      ((s.prune P D now).prune P D now).ring = (s.prune P D now).ring := by
  obtain ⟨l, hl, hsub, e⟩ := @ring_prune P D s now
  refine ⟨l, hl, hsub, e, fun hcap => ?_, prune_prune⟩
  rw [e, recent_of_le (hsub.length_le.trans hcap)]

end URSupreme.Inbox
