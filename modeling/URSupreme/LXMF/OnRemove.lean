import Mathlib
import URSupreme.LXMF.InboxSpool

/-!
# The hook for records that are removed

The calls of `on_remove` in `LXMF/LXMFInbox.h`, which `activate` of `LXMF/LXMFGateway.h` sets to
delete the attachment files of the record. `append`, the passes of `prune_expired` and `purge_peer`
call it; `set_capacity`, the last loop of `prune_expired` and `load` drop records without it.

A mailbox is followed with the records it has taken, the calls of the hook and the attachment files.
-/

namespace URSupreme.Inbox
open Lib LXMF
open Gateway (Retention RetentionKind)

variable (P : Platform)

/-- The records that the loop of `append` removes. -/
def LXMFInbox.overflowing (r : MessageRecord) (s : LXMFInbox) : List MessageRecord :=
  (s.ring ++ [r]).take ((s.ring ++ [r]).length - s.ramCapacity)

/-- The records that the first pass of `prune_expired` removes. -/
def LXMFInbox.expired (now : Option UInt64) (s : LXMFInbox) : List MessageRecord :=
  match now with
  | some now => s.ring.filter (!s.inTime P now ·)
  | none => []

/-- The records that the second pass of `prune_expired` removes. -/
def LXMFInbox.dropOldest (s : LXMFInbox) : List MessageRecord → List MessageRecord
  | [] => []
  | r :: l =>
    let p := s.effectiveRetentionFor (P.toHex r.peerHash)
    if p.kind = .count ∧ p.value ≠ 0 ∧ p.value ≤ (l.filter (·.peerHash = r.peerHash)).length then
      r :: s.dropOldest l
    else s.dropOldest l

/-- The calls of `prune_expired`; the second pass goes from the newest record to the oldest. -/
def LXMFInbox.pruned (now : Option UInt64) (s : LXMFInbox) : List MessageRecord :=
  if s.peerRetention = [] ∧ s.defaultRetention.kind = .none then []
  else
    let timed := match now with
      | some now => s.ring.filter (s.inTime P now)
      | none => s.ring
    s.expired P now ++ (s.dropOldest P timed).reverse

/-- The calls of `append`. -/
def LXMFInbox.appended (r : MessageRecord) (w : Written) (now : Option UInt64) (s : LXMFInbox) :
    List MessageRecord :=
  let r' := s.numbered r
  match w with
  | .short _ => []
  | .whole => s.overflowing r' ++ ((s.counted r).pushed P r').pruned P now

/-- The calls of `purge_peer`. -/
def LXMFInbox.purged (peerHash : Bytes) (s : LXMFInbox) : List MessageRecord :=
  s.ring.filter (·.peerHash = peerHash)

/-- What happens to the records of a mailbox. -/
inductive Change where
  | append (r : MessageRecord) (w : Written) (now : Option UInt64)
  | setCapacity (cap : Nat)
  | setDefaultRetention (r : Retention) (now : Option UInt64)
  | setPeerRetention (peerHex : Bytes) (r : Retention) (now : Option UInt64)
  | clearPeerRetention (peerHex : Bytes) (now : Option UInt64)
  | pruneExpired (now : Option UInt64)
  | purgePeer (peerHash : Bytes)
  | load (opened : Bool)

/-- As an event of the mailbox. -/
def Change.event : Change → Event
  | .append r w now => .append r w now
  | .setCapacity cap => .setCapacity cap
  | .setDefaultRetention r now => .setDefaultRetention r now
  | .setPeerRetention peerHex r now => .setPeerRetention peerHex r now
  | .clearPeerRetention peerHex now => .clearPeerRetention peerHex now
  | .pruneExpired now => .pruneExpired now
  | .purgePeer peerHash => .purgePeer peerHash
  | .load opened => .load opened

/-- The calls of the hook. -/
def LXMFInbox.calls (s : LXMFInbox) : Change → List MessageRecord
  | .append r w now => s.appended P r w now
  | .setCapacity _ => []
  | .setDefaultRetention r now => { s with defaultRetention := r }.pruned P now
  | .setPeerRetention peerHex r now =>
    if lookup peerHex s.peerRetention = some r then []
    else { s with peerRetention := (peerHex, r) :: erase peerHex s.peerRetention }.pruned P now
  | .clearPeerRetention peerHex now =>
    if lookup peerHex s.peerRetention = none then []
    else { s with peerRetention := erase peerHex s.peerRetention }.pruned P now
  | .pruneExpired now => s.pruned P now
  | .purgePeer peerHash => s.purged peerHash
  | .load _ => []

/-- The attachment files of a record. -/
def ownFiles (r : MessageRecord) : List Bytes := (r.attachments.map (·.filename)).filter (· ≠ [])

/-- A mailbox with the records it took, the calls of the hook and the attachment files. -/
structure Accounted where
  inbox : LXMFInbox
  taken : List MessageRecord := []
  removed : List MessageRecord := []
  files : List Bytes := []

/-- The record that a change adds. -/
def LXMFInbox.added (s : LXMFInbox) : Change → List MessageRecord
  | .append r .whole _ => [s.numbered r]
  | _ => []

/-- The hook deletes the files of a record. -/
def deleteFiles (files : List Bytes) (r : MessageRecord) : List Bytes :=
  files.filter (· ∉ ownFiles r)

/-- One change. -/
def Accounted.step (s : Accounted) (c : Change) : Accounted :=
  let added := s.inbox.added c
  let calls := s.inbox.calls P c
  { inbox := s.inbox.step P c.event
    taken := s.taken ++ added
    removed := s.removed ++ calls
    files := calls.foldl deleteFiles (s.files ++ added.flatMap ownFiles) }

/-- What a record is known by: its number and its files. -/
def tally (r : MessageRecord) : Nat × List Bytes := (r.seq, ownFiles r)

/-- A record whose number and file names the spool gives back. -/
def Sound (r : MessageRecord) : Prop := r.seq < 2 ^ 31 ∧ ∀ a ∈ r.attachments, 0 ∉ a.filename

/-- The change does no harm. A record is added behind whole lines, with files of its own, or not to
the end of its line; a capacity is not below the number of records, and gives no room to lines of
removed ones; the spool can be opened. -/
def Accounted.Kept (s : Accounted) : Change → Prop
  | .append r .whole _ => CleanEnd s.inbox.spool ∧ Sound (s.inbox.numbered r) ∧
    ∀ x ∈ s.taken, ∀ f ∈ ownFiles r, f ∉ ownFiles x
  | .append r (.short n) _ => n = 0 ∨
    CleanEnd s.inbox.spool ∧ n < (P.serialize (recordToDoc P.toCodec (s.inbox.numbered r))).length
  | .setCapacity cap => s.inbox.ring.length ≤ cap ∧
    (cap ≤ s.inbox.ramCapacity ∨ s.inbox.spool.count 10 ≤ s.inbox.ring.length)
  | .load opened => opened = true
  | _ => True

/-- Every record that was taken is listed or had its one call of the hook, and the files are those
of the listed records. -/
structure Accounts (s : Accounted) : Prop where
  once : ((s.inbox.ring ++ s.removed).map tally).Perm (s.taken.map tally)
  files : ∀ f, f ∈ s.files ↔ ∃ r ∈ s.inbox.ring, f ∈ ownFiles r

variable {P} {s s' : LXMFInbox} {c : Change} {l lines : List MessageRecord} {now : Option UInt64}
  {r : MessageRecord} {cut : Bytes} {old : List (Nat × List Bytes)}

lemma tally_readBack {C : Codec} (h : Sound r) : tally (r.readBack C) = tally r := by
  have hnames : (r.attachments.map readBackMeta).map (·.filename) = r.attachments.map
    (·.filename) := by
    rw [List.map_map]
    exact List.map_congr_left fun a ha => cString_of_not_mem (h.2 a ha)
  refine Prod.ext (if_pos h.1) ?_
  exact congrArg (List.filter (· ≠ [])) hnames

lemma Sound.readBack {C : Codec} (h : Sound r) : Sound (r.readBack C) := by
  refine ⟨?_, fun a ha => ?_⟩
  · rw [show (r.readBack C).seq = r.seq from if_pos h.1]
    exact h.1
  · obtain ⟨x, hx, rfl⟩ := List.mem_map.mp ha
    rw [show (readBackMeta x).filename = x.filename from cString_of_not_mem (h.2 x hx)]
    exact h.2 x hx

/-- The spool holds lines that are known as `old` records and those of the ring, and a document that
was cut short. -/
structure Traced (P : Platform) (s : LXMFInbox) (lines : List MessageRecord)
    (old : List (Nat × List Bytes)) (cut : Bytes) : Prop where
  spool : s.spool = lines.flatMap (line P) ++ cut
  cut : Cut P cut
  same : lines.map tally = old ++ s.ring.map tally
  sound : (∀ r ∈ lines, Sound r) ∧ ∀ r ∈ s.ring, Sound r
  room : s.ring.length ≤ s.ramCapacity
  /-- The ring is full when records were dropped. -/
  full : old = [] ∨ s.ring.length = s.ramCapacity

/-- A mailbox that differs in other parts. -/
lemma Traced.other (h : Traced P s lines old cut) (h1 : s'.spool = s.spool) (h2 : s'.ring = s.ring)
    (h3 : s'.ramCapacity = s.ramCapacity) : Traced P s' lines old cut := by
  refine ⟨h1.trans h.spool, h.cut, ?_, ?_, ?_, ?_⟩
  · rw [h2]
    exact h.same
  · rw [h2]
    exact h.sound
  · rw [h2, h3]
    exact h.room
  · rw [h2, h3]
    exact h.full

/-- A spool that was just rewritten. -/
lemma Traced.rewrite (hs : ∀ r ∈ s.ring, Sound r) (hr : s.ring.length ≤ s.ramCapacity) :
    Traced P (s.rewriteSpool P) s.ring [] [] :=
  ⟨(List.append_nil _).symm, .inl rfl, rfl, ⟨hs, hs⟩, hr, .inl rfl⟩

lemma Traced.prune (h : Traced P s lines old cut) :
    ∃ lines old cut, Traced P (s.pruneExpired P now) lines old cut := by
  rcases pruneExpired_cases (P := P) now h.room with e | ⟨ring, hsub, e⟩
  · exact ⟨lines, old, cut, by rwa [e]⟩
  · refine ⟨ring, [], [], ?_⟩
    rw [e]
    exact Traced.rewrite (s := { s with ring }) (fun r hr => h.sound.2 r (hsub.subset hr))
      (hsub.length_le.trans h.room)

/-- A spool with whole lines has no rest. -/
lemma Traced.clean (hP : P.Reads) (h : Traced P s lines old cut) (hc : CleanEnd s.spool) :
    cut = [] :=
  cut_of_cleanEnd hP h.cut (h.spool ▸ hc)

/-- A record that is added behind whole lines. -/
lemma Traced.push (h : Traced P s lines old []) (hr : Sound r) :
    ∃ old, Traced P (s.pushed P r) (lines ++ [r]) old [] := by
  have hring : (s.pushed P r).ring = recent s.ramCapacity (s.ring ++ [r]) := rfl
  have hmap : (lines ++ [r]).map tally = old ++ (s.ring ++ [r]).map tally := by
    rw [List.map_append, List.map_append, h.same, List.append_assoc]
  refine ⟨old ++ ((s.ring ++ [r]).take ((s.ring ++ [r]).length - s.ramCapacity)).map tally, ?_,
    .inl rfl, ?_, ⟨fun x hx => ?_, fun x hx => ?_⟩, ?_, ?_⟩
  · rw [LXMFInbox.pushed, h.spool, List.append_nil, List.append_nil, List.flatMap_append,
      List.flatMap_singleton]
  · rw [hmap, hring, List.append_assoc, ← List.map_append, take_append_recent]
  · rcases List.mem_append.mp hx with hx | hx
    · exact h.sound.1 x hx
    · exact List.mem_singleton.mp hx ▸ hr
  · rcases List.mem_append.mp (mem_of_mem_recent hx) with hx | hx
    · exact h.sound.2 x hx
    · exact List.mem_singleton.mp hx ▸ hr
  · exact length_recent.le.trans (min_le_left _ _)
  · rw [hring, length_recent, List.length_append, List.length_singleton]
    by_cases hlt : s.ring.length < s.ramCapacity
    · refine .inl ?_
      rw [h.full.resolve_right hlt.ne, Nat.sub_eq_zero_of_le hlt]
      rfl
    · exact .inr (min_eq_left (Nat.le_succ_of_le (not_lt.mp hlt)))

/-- `load` finds the records that are listed. -/
lemma Traced.load (hP : P.Reads) (h : Traced P s lines old cut) :
    (s.load P true).ring.map tally = s.ring.map tally ∧
      ∃ old cut lines, Traced P (s.load P true) lines old cut := by
  have hdocs : (loadSpool P s.spool).map (docToRecord P.toCodec) =
      lines.map (·.readBack P.toCodec) := by
    rw [h.spool, loadSpool_lines hP h.cut, List.map_map]
    exact List.map_congr_left fun r _ => docToRecord_readBack hP.hex
  obtain ⟨hr, hcap, hspool⟩ := ring_applyDocs (P := P) (loadSpool P s.spool)
    { s with ring := [], nextSeq := 0 } rfl
  rw [hdocs] at hr
  have htally : (recent s.ramCapacity (lines.map (·.readBack P.toCodec))).map tally =
      s.ring.map tally := by
    have hl : (lines.map (·.readBack P.toCodec)).map tally = old ++ s.ring.map tally := by
      rw [List.map_map, ← h.same]
      exact List.map_congr_left fun r hr => tally_readBack (h.sound.1 r hr)
    rw [map_recent, hl]
    rcases h.full with rfl | hf
    · exact recent_of_le ((List.length_map _).le.trans h.room)
    · rw [← hf, recent, List.length_append, List.length_map, Nat.add_sub_cancel, List.drop_left]
  have hlen : (recent s.ramCapacity (lines.map (·.readBack P.toCodec))).length = s.ring.length := by
    have h1 := congrArg List.length htally
    rwa [List.length_map, List.length_map] at h1
  have hsound : ∀ r ∈ recent s.ramCapacity (lines.map (·.readBack P.toCodec)), Sound r :=
    fun r hr => by
      obtain ⟨x, hx, rfl⟩ := List.mem_map.mp (mem_of_mem_recent hr)
      exact (h.sound.1 x hx).readBack
  unfold LXMFInbox.load
  rw [if_pos rfl]
  dsimp only
  generalize hd : (loadSpool P s.spool).foldl (LXMFInbox.applyDocToRing P)
    { s with ring := [], nextSeq := 0 } = s' at hr hcap hspool
  dsimp only at hr hcap hspool
  split
  next =>
    refine ⟨(congrArg (List.map tally) hr).trans htally, [], [], s'.ring, ?_⟩
    exact .rewrite (by rw [hr]; exact hsound) (by rw [hr, hlen, hcap]; exact h.room)
  next =>
    refine ⟨(congrArg (List.map tally) hr).trans htally, old, cut, lines, ?_, h.cut, ?_, ?_, ?_, ?_⟩
    · rw [hspool]
      exact h.spool
    · rw [hr, htally]
      exact h.same
    · rw [hr]
      exact ⟨h.sound.1, hsound⟩
    · rw [hr, hlen, hcap]
      exact h.room
    · rw [hr, hlen, hcap]
      exact h.full

lemma keepNewest_perm : (s.keepNewest P l ++ s.dropOldest P l).Perm l := by
  induction l with
  | nil => exact .nil
  | cons r l ih =>
    unfold LXMFInbox.keepNewest LXMFInbox.dropOldest
    dsimp only
    split
    next => exact List.perm_middle.trans (ih.cons r)
    next => exact ih.cons r

/-- A prune calls the hook for what it removes, when the ring is not too long. -/
lemma pruned_perm (now : Option UInt64) (h : s.ring.length ≤ s.ramCapacity) :
    ((s.pruneExpired P now).ring ++ s.pruned P now).Perm s.ring := by
  have hring : (s.pruneExpired P now).ring =
      if s.peerRetention = [] ∧ s.defaultRetention.kind = .none then recent s.ramCapacity s.ring
      else s.surviving P now := by
    unfold LXMFInbox.pruneExpired
    split
    next => rfl
    next =>
      dsimp only
      split <;> rfl
  rw [hring]
  unfold LXMFInbox.pruned
  split
  next => rw [recent_of_le h, List.append_nil]
  next =>
    unfold LXMFInbox.surviving LXMFInbox.expired
    cases now with
    | none =>
      dsimp only
      have hk := keepNewest_perm (P := P) (s := s) (l := s.ring)
      rw [recent_of_le ((keepNewest_sublist s _).length_le.trans h), List.nil_append]
      exact ((List.reverse_perm _).append_left _).trans hk
    | some now =>
      dsimp only
      have hk := keepNewest_perm (P := P) (s := s) (l := s.ring.filter (s.inTime P now))
      have hlen := (keepNewest_sublist (P := P) s (s.ring.filter (s.inTime P now))).length_le
      have hlen' : (s.ring.filter (s.inTime P now)).length ≤ s.ring.length :=
        List.filter_sublist.length_le
      rw [recent_of_le (hlen.trans (hlen'.trans h))]
      calc s.keepNewest P (s.ring.filter (s.inTime P now)) ++
            (s.ring.filter (!s.inTime P now ·) ++
              (s.dropOldest P (s.ring.filter (s.inTime P now))).reverse)
          |>.Perm (s.keepNewest P (s.ring.filter (s.inTime P now)) ++
            (s.dropOldest P (s.ring.filter (s.inTime P now)) ++
              s.ring.filter (!s.inTime P now ·))) := by
            refine List.Perm.append_left _ (List.perm_append_comm.trans ?_)
            exact (List.reverse_perm _).append_right _
        _ |>.Perm (s.ring.filter (s.inTime P now) ++ s.ring.filter (!s.inTime P now ·)) := by
            rw [← List.append_assoc]
            exact hk.append_right _
        _ |>.Perm s.ring := List.filter_append_perm _ _

/-- An append calls the hook for what it removes. -/
lemma append_perm {r : MessageRecord} :
    (((s.counted r).pushed P (s.numbered r)).pruneExpired P now).ring ++
        s.appended P r .whole now |>.Perm (s.ring ++ [s.numbered r]) := by
  have hlen : ((s.counted r).pushed P (s.numbered r)).ring.length ≤
      ((s.counted r).pushed P (s.numbered r)).ramCapacity :=
    length_recent.le.trans (min_le_left _ _)
  have hp := pruned_perm (P := P) now hlen
  unfold LXMFInbox.appended
  dsimp only
  refine List.Perm.trans ?_ (hp.append_right (s.overflowing (s.numbered r)) |>.trans ?_)
  · rw [List.append_assoc]
    exact List.perm_append_comm.append_left _
  · refine List.perm_append_comm.trans ?_
    exact List.Perm.of_eq take_append_recent

/-- A change calls the hook for what it removes, but for `load` and a capacity that is too small. -/
lemma calls_perm (hroom : s.ring.length ≤ s.ramCapacity)
    (hcap : ∀ cap, c = .setCapacity cap → s.ring.length ≤ cap)
    (hload : ∀ opened, c ≠ .load opened) :
    ((s.step P c.event).ring ++ s.calls P c).Perm (s.ring ++ s.added c) := by
  cases c with
  | append r w now =>
    cases w with
    | whole => exact append_perm
    | short n => exact .refl _
  | setCapacity cap =>
    have hring : (s.setCapacity P cap).ring = s.ring := by
      have hle := hcap cap rfl
      unfold LXMFInbox.setCapacity
      dsimp only
      rw [if_neg (not_lt.mpr hle)]
      exact recent_of_le hle
    show ((s.setCapacity P cap).ring ++ []).Perm (s.ring ++ [])
    rw [hring]
  | setDefaultRetention r now =>
    dsimp only [LXMFInbox.added]
    rw [List.append_nil s.ring]
    exact pruned_perm (s := { s with defaultRetention := r }) _ hroom
  | setPeerRetention peerHex r now =>
    dsimp only [LXMFInbox.added]
    rw [List.append_nil s.ring]
    dsimp only [Change.event, LXMFInbox.step, LXMFInbox.calls]
    unfold LXMFInbox.setPeerRetention
    split
    next => rw [List.append_nil]
    next =>
      exact pruned_perm
        (s := { s with peerRetention := (peerHex, r) :: erase peerHex s.peerRetention }) _ hroom
  | clearPeerRetention peerHex now =>
    dsimp only [LXMFInbox.added]
    rw [List.append_nil s.ring]
    dsimp only [Change.event, LXMFInbox.step, LXMFInbox.calls]
    unfold LXMFInbox.clearPeerRetention
    split
    next => rw [List.append_nil]
    next => exact pruned_perm (s := { s with
      peerRetention := erase peerHex s.peerRetention }) _ hroom
  | pruneExpired now =>
    dsimp only [LXMFInbox.added]
    rw [List.append_nil s.ring]
    exact pruned_perm _ hroom
  | purgePeer peerHash =>
    dsimp only [LXMFInbox.added]
    rw [List.append_nil s.ring]
    have hring : (s.purgePeer P peerHash).ring = s.ring.filter (·.peerHash ≠ peerHash) := by
      unfold LXMFInbox.purgePeer
      dsimp only
      split <;> rfl
    show ((s.purgePeer P peerHash).ring ++ s.ring.filter (·.peerHash = peerHash)).Perm s.ring
    rw [hring]
    refine List.perm_append_comm.trans ?_
    have h1 := List.filter_append_perm
      (fun r : MessageRecord => decide (r.peerHash = peerHash)) s.ring
    simpa using h1
  | load opened => exact absurd rfl (hload opened)

/-- The files that the calls leave. -/
lemma mem_deleteFiles {calls : List MessageRecord} {files : List Bytes} {f : Bytes} :
    f ∈ calls.foldl deleteFiles files ↔ f ∈ files ∧ ∀ r ∈ calls, f ∉ ownFiles r := by
  induction calls generalizing files with
  | nil => simp
  | cons r calls ih =>
    rw [List.foldl_cons, ih, deleteFiles, List.mem_filter]
    simp [and_assoc]

/-- The mailbox after a change can be traced, when the change does no harm. -/
lemma Traced.step {s : Accounted} (hP : P.Reads) (h : Traced P s.inbox lines old cut)
    (hk : s.Kept P c) : ∃ lines old cut, Traced P (s.inbox.step P c.event) lines old cut := by
  cases c with
  | append r w now =>
    cases w with
    | whole =>
      obtain ⟨hc, hr, -⟩ := hk
      obtain rfl := h.clean hP hc
      obtain ⟨old', hpush⟩ := h.push hr
      have hpush' : Traced P ((s.inbox.counted r).pushed P (s.inbox.numbered r))
          (lines ++ [s.inbox.numbered r]) old' [] := hpush.other rfl rfl rfl
      exact hpush'.prune
    | short n =>
      rcases hk with rfl | ⟨hc, hlt⟩
      · exact ⟨lines, old, cut, h.other (List.append_nil _) rfl rfl⟩
      · obtain rfl := h.clean hP hc
        by_cases hn : n = 0
        · subst hn
          exact ⟨lines, old, [], h.other (List.append_nil _) rfl rfl⟩
        · refine ⟨lines, old,
            (P.serialize (recordToDoc P.toCodec (s.inbox.numbered r))).take n, ?_,
            .inr ⟨_, n, hn, hlt, rfl⟩, h.same, h.sound, h.room, h.full⟩
          show s.inbox.spool ++ _ = _
          rw [h.spool, List.append_nil]
  | setCapacity cap =>
    obtain ⟨hle, hroom⟩ := hk
    refine ⟨lines, old, cut, ?_⟩
    dsimp only [Change.event, LXMFInbox.step]
    unfold LXMFInbox.setCapacity
    dsimp only
    rw [if_neg (not_lt.mpr hle), recent_of_le hle]
    refine ⟨h.spool, h.cut, h.same, h.sound, hle, ?_⟩
    rcases h.full with hold | hfull
    · exact .inl hold
    · rcases hroom with hroom | hroom
      · exact .inr (le_antisymm hle (hfull ▸ hroom))
      · have hlen := congrArg List.length h.same
        rw [h.spool, count_lines hP h.cut] at hroom
        rw [List.length_append, List.length_map, List.length_map] at hlen
        exact .inl (List.eq_nil_of_length_eq_zero (by omega))
  | setDefaultRetention r now =>
    have h' : Traced P { s.inbox with defaultRetention := r } lines old cut := h.other rfl rfl rfl
    exact h'.prune
  | setPeerRetention peerHex r now =>
    dsimp only [Change.event, LXMFInbox.step]
    unfold LXMFInbox.setPeerRetention
    split
    next => exact ⟨lines, old, cut, h⟩
    next =>
      have h' : Traced P
          { s.inbox with peerRetention := (peerHex, r) :: erase peerHex s.inbox.peerRetention }
          lines old cut := h.other rfl rfl rfl
      exact h'.prune
  | clearPeerRetention peerHex now =>
    dsimp only [Change.event, LXMFInbox.step]
    unfold LXMFInbox.clearPeerRetention
    split
    next => exact ⟨lines, old, cut, h⟩
    next =>
      have h' : Traced P { s.inbox with peerRetention := erase peerHex s.inbox.peerRetention }
          lines old cut := h.other rfl rfl rfl
      exact h'.prune
  | pruneExpired now => exact h.prune
  | purgePeer peerHash =>
    dsimp only [Change.event, LXMFInbox.step]
    unfold LXMFInbox.purgePeer
    have hsub : (s.inbox.ring.filter (·.peerHash ≠ peerHash)).Sublist s.inbox.ring :=
      List.filter_sublist
    dsimp only
    split
    next =>
      refine ⟨s.inbox.ring.filter (·.peerHash ≠ peerHash), [], [], ?_⟩
      exact Traced.rewrite (s := { s.inbox with ring := _ })
        (fun r hr => h.sound.2 r (hsub.subset hr)) (hsub.length_le.trans h.room)
    next hlen =>
      exact ⟨lines, old, cut, h.other rfl (hsub.eq_of_length_le (not_lt.mp hlen)) rfl⟩
  | load opened =>
    have hopened : opened = true := hk
    subst hopened
    obtain ⟨-, old, cut, lines, h'⟩ := h.load hP
    exact ⟨lines, old, cut, h'⟩

/-- What a run keeps. -/
structure Accounted.Good (P : Platform) (s : Accounted) : Prop where
  traced : ∃ lines old cut, Traced P s.inbox lines old cut
  accounts : Accounts s
  /-- No two records own a file together. -/
  apart : (s.taken.map tally).Pairwise fun x y => ∀ f ∈ y.2, f ∉ x.2

lemma exists_tally {f : Bytes} : (∃ r ∈ l, f ∈ ownFiles r) ↔ ∃ x ∈ l.map tally, f ∈ x.2 := by
  simp [tally]

/-- The ledger after a change that calls the hook for what it removes. -/
lemma Accounted.Good.settle {s : Accounted} (hs : s.Good P)
    (hperm : ((s.inbox.step P c.event).ring ++ s.inbox.calls P c).Perm
      (s.inbox.ring ++ s.inbox.added c))
    (hapart : ((s.step P c).taken.map tally).Pairwise fun x y => ∀ f ∈ y.2, f ∉ x.2) :
    Accounts (s.step P c) := by
  have honce : (((s.step P c).inbox.ring ++ (s.step P c).removed).map tally).Perm
      ((s.step P c).taken.map tally) :=
    calc ((s.inbox.step P c.event).ring ++ (s.removed ++ s.inbox.calls P c)).map tally
        |>.Perm (((s.inbox.step P c.event).ring ++ s.inbox.calls P c ++ s.removed).map tally) := by
          rw [List.append_assoc]
          exact (List.perm_append_comm.append_left _).map _
      _ |>.Perm ((s.inbox.ring ++ s.inbox.added c ++ s.removed).map tally) :=
          (hperm.append_right _).map _
      _ |>.Perm ((s.inbox.ring ++ s.removed).map tally ++ (s.inbox.added c).map tally) := by
          rw [← List.map_append, List.append_assoc, List.append_assoc]
          exact (List.perm_append_comm.append_left _).map _
      _ |>.Perm (s.taken.map tally ++ (s.inbox.added c).map tally) :=
          hs.accounts.once.append_right _
      _ |>.Perm ((s.taken ++ s.inbox.added c).map tally) := by rw [List.map_append]
  refine ⟨honce, fun f => ?_⟩
  have hsymm : ∀ {x y : Nat × List Bytes}, (∀ f ∈ y.2, f ∉ x.2) → ∀ f ∈ x.2, f ∉ y.2 :=
    fun h f hf hy => h f hy hf
  have hpw := (honce.pairwise_iff hsymm).mpr hapart
  rw [List.map_append] at hpw
  obtain ⟨-, -, hcross⟩ := List.pairwise_append.mp hpw
  have hmem : f ∈ s.files ++ (s.inbox.added c).flatMap ownFiles ↔
      ∃ r ∈ s.inbox.ring ++ s.inbox.added c, f ∈ ownFiles r := by
    rw [List.mem_append, hs.accounts.files f, List.mem_flatMap]
    simp only [List.mem_append, or_and_right, exists_or]
  refine mem_deleteFiles.trans ?_
  rw [hmem]
  constructor
  · rintro ⟨⟨r, hr, hf⟩, hcalls⟩
    rcases List.mem_append.mp (hperm.mem_iff.mpr hr) with hr | hr
    · exact ⟨r, hr, hf⟩
    · exact absurd hf (hcalls r hr)
  · rintro ⟨r, hr, hf⟩
    refine ⟨⟨r, hperm.mem_iff.mp (List.mem_append_left _ hr), hf⟩, fun x hx hfx => ?_⟩
    exact hcross _ (List.mem_map_of_mem hr) _
      (List.mem_map_of_mem (List.mem_append_right _ hx)) f hfx hf

lemma Accounted.Good.step {s : Accounted} (hP : P.Reads) (hs : s.Good P) (hk : s.Kept P c) :
    (s.step P c).Good P := by
  obtain ⟨lines, old, cut, h⟩ := hs.traced
  have hapart : ((s.step P c).taken.map tally).Pairwise fun x y => ∀ f ∈ y.2, f ∉ x.2 := by
    have hsame : s.inbox.added c = [] →
        ((s.taken ++ s.inbox.added c).map tally).Pairwise fun x y => ∀ f ∈ y.2, f ∉ x.2 :=
      fun e => by
        rw [e, List.append_nil]
        exact hs.apart
    cases c with
    | append r w now =>
      cases w with
      | short => exact hsame rfl
      | whole =>
        have hadd : (s.taken ++ [s.inbox.numbered r]).map tally =
            s.taken.map tally ++ [tally (s.inbox.numbered r)] := List.map_append
        refine hadd ▸ List.pairwise_append.mpr ⟨hs.apart, List.pairwise_singleton _ _, ?_⟩
        rintro x hx y hy f hf
        obtain rfl := List.mem_singleton.mp hy
        obtain ⟨z, hz, rfl⟩ := List.mem_map.mp hx
        exact hk.2.2 z hz f hf
    | _ => exact hsame rfl
  refine ⟨h.step hP hk, ?_, hapart⟩
  by_cases hload : ∃ opened, c = .load opened
  · obtain ⟨opened, rfl⟩ := hload
    have hopened : opened = true := hk
    subst hopened
    obtain ⟨htally, -⟩ := h.load hP
    have htally' : (s.step P (.load true)).inbox.ring.map tally = s.inbox.ring.map tally := htally
    refine ⟨?_, fun f => ?_⟩
    · have h1 := hs.accounts.once
      show (((s.step P (.load true)).inbox.ring ++ (s.removed ++ [])).map tally).Perm
        ((s.taken ++ []).map tally)
      rw [List.append_nil, List.append_nil, List.map_append, htally', ← List.map_append]
      exact h1
    · show f ∈ s.files ++ [] ↔ _
      rw [List.append_nil, hs.accounts.files f, exists_tally, exists_tally, htally']
  · refine hs.settle (calls_perm h.room (fun cap hc => ?_) fun opened hc => hload
      ⟨opened, hc⟩) hapart
    subst hc
    exact hk.1

/-- An empty mailbox. -/
def emptyAccounted (ramCapacity : Nat) (defaultRetention : Retention) : Accounted :=
  { inbox := emptyInbox ramCapacity defaultRetention }

/-- A message with a photo. -/
def photo (filename : Bytes) : MessageRecord :=
  { peerHash := [7], attachments := [{ filename, backend := ascii "flash" }] }

lemma sound_photo {seq : Nat} {filename : Bytes} (h : seq < 2 ^ 31) (hf : 0 ∉ filename) :
    Sound { photo filename with seq, bodySize := 0 } :=
  ⟨h, fun a ha => by rw [List.mem_singleton.mp ha]; exact hf⟩

/-- A mailbox for one record that takes two. -/
lemma reach_photos (P : Platform) :
    let s := [.append (photo [97]) .whole none, .append (photo [98]) .whole none].foldl
      (Accounted.step P) (emptyAccounted 1 {})
    Reach (Accounted.step P) (fun s c => s.Kept P c) (emptyAccounted 1 {}) s ∧
      s.inbox.ring.map (·.seq) = [2] ∧ s.removed.map (·.seq) = [1] ∧ s.files = [[98]] := by
  refine ⟨.step (.step .init ?_) ?_, rfl, rfl, rfl⟩
  · exact ⟨.inl rfl, sound_photo (by decide) (by decide), fun _ h => (List.not_mem_nil h).elim⟩
  · have hc : ∀ r, CleanEnd ([] ++ line P r) := fun r => by
      have h1 := cleanEnd_lines (P := P) [r]
      rwa [List.flatMap_singleton] at h1
    refine ⟨hc _, sound_photo (show 2 < 2 ^ 31 by decide) (by decide), ?_⟩
    intro x hx f hf
    obtain rfl := List.mem_singleton.mp hx
    obtain rfl := List.mem_singleton.mp hf
    exact fun h => absurd (List.mem_singleton.mp h) (by decide)

/-- A capacity that is lowered drops the record, and leaves its file. -/
lemma lowered (P : Platform) :
    let s := [.append (photo [97]) .whole none, .setCapacity 0].foldl (Accounted.step P)
      (emptyAccounted 1 {})
    s.inbox.ring = [] ∧ s.removed = [] ∧ s.files = [[97]] ∧ s.taken.length = 1 :=
  ⟨rfl, rfl, rfl, rfl⟩

end URSupreme.Inbox
