import URSupreme.LXMF.InboxSpool

/-!
# Sequence numbers

The numbers that a mailbox hands out, with `append` or ahead of it with `reserve_seq`, and a web
client that polls with the last number it was given. A number names one record as long as the spool
holds the last one handed out whenever it is loaded; the client gets every record as long as no poll
comes between a reservation and its `append`.
-/

namespace URSupreme.Inbox
open Lib LXMF
open Gateway (Retention)

variable {P : Platform} {s : LXMFInbox} {e : Event}

@[simp] lemma nextSeq_rewriteSpool : (s.rewriteSpool P).nextSeq = s.nextSeq := rfl

@[simp] lemma nextSeq_pruneExpired (now : Option UInt64) :
    (s.pruneExpired P now).nextSeq = s.nextSeq := by
  unfold LXMFInbox.pruneExpired
  split
  next => rfl
  next =>
    dsimp only
    split <;> rfl

/-- The number that an event hands out. -/
def Event.hands (s : LXMFInbox) : Event → Option Nat
  | .append r _ _ => if r.seq = 0 then some ((s.nextSeq + 1) % 2 ^ 32) else none
  | .reserveSeq => some ((s.nextSeq + 1) % 2 ^ 32)
  | _ => none

/-- The number of the record that an event appends. -/
def Event.names (s : LXMFInbox) : Event → Option Nat
  | .append r _ _ => some (s.numbered r).seq
  | _ => none

/-- An event hands out the next number there is. -/
def Event.Counts (s : LXMFInbox) (e : Event) : Prop :=
  e.hands s ≠ none → s.nextSeq + 1 < 2 ^ 32

/-- What an event other than `load` does to the last number: it is the one handed out, or not less
than before. -/
lemma nextSeq_step (hl : ∀ opened, e ≠ .load opened) (hc : e.Counts s) :
    s.nextSeq ≤ (s.step P e).nextSeq ∧
      (∀ n ∈ e.hands s, n = s.nextSeq + 1 ∧ (s.step P e).nextSeq = n) := by
  have hnone : ∀ {n : Nat}, n ∈ (none : Option Nat) → False := fun h => nomatch h
  cases e with
  | append r w now =>
    have hstep : (s.step P (.append r w now)).nextSeq = (s.counted r).nextSeq := by
      cases w with
      | whole => exact nextSeq_pruneExpired now
      | short n => rfl
    rw [hstep]
    unfold LXMFInbox.counted LXMFInbox.numbered
    dsimp only [Event.Counts, Event.hands] at hc ⊢
    by_cases h0 : r.seq = 0
    · simp only [h0, if_true] at hc ⊢
      have hmod := Nat.mod_eq_of_lt (hc (Option.some_ne_none _))
      rw [hmod]
      refine ⟨Nat.le_succ _, fun n hn => ?_⟩
      exact ⟨(Option.some.inj hn).symm, Option.some.inj hn⟩
    · simp only [h0, if_false]
      exact ⟨le_max_left _ _, fun n hn => (hnone hn).elim⟩
  | reserveSeq =>
    have hmod := Nat.mod_eq_of_lt (hc (Option.some_ne_none _))
    dsimp only [LXMFInbox.step, LXMFInbox.reserveSeq, Event.hands]
    rw [hmod]
    exact ⟨Nat.le_succ _, fun n hn => ⟨(Option.some.inj hn).symm, Option.some.inj hn⟩⟩
  | load opened => exact absurd rfl (hl opened)
  | updateStatus packetHash status =>
    refine ⟨le_of_eq ?_, fun n hn => (hnone hn).elim⟩
    dsimp only [LXMFInbox.step]
    unfold LXMFInbox.updateStatus
    split <;> rfl
  | mutateBySeq seq f =>
    refine ⟨le_of_eq ?_, fun n hn => (hnone hn).elim⟩
    dsimp only [LXMFInbox.step]
    unfold LXMFInbox.mutateBySeq
    split <;> rfl
  | updateAttachmentBackends source target =>
    refine ⟨le_of_eq ?_, fun n hn => (hnone hn).elim⟩
    dsimp only [LXMFInbox.step]
    unfold LXMFInbox.updateAttachmentBackends
    split <;> rfl
  | purgePeer peerHash =>
    refine ⟨le_of_eq ?_, fun n hn => (hnone hn).elim⟩
    dsimp only [LXMFInbox.step]
    unfold LXMFInbox.purgePeer
    dsimp only
    split <;> rfl
  | pruneExpired now =>
    exact ⟨(nextSeq_pruneExpired now).ge, fun n hn => (hnone hn).elim⟩
  | setCapacity cap =>
    refine ⟨le_of_eq ?_, fun n hn => (hnone hn).elim⟩
    dsimp only [LXMFInbox.step]
    unfold LXMFInbox.setCapacity
    dsimp only
    split <;> rfl
  | setDefaultRetention r now =>
    exact ⟨(nextSeq_pruneExpired (s := { s with defaultRetention := r }) now).ge,
      fun n hn => (hnone hn).elim⟩
  | setPeerRetention peerHex r now =>
    refine ⟨le_of_eq ?_, fun n hn => (hnone hn).elim⟩
    dsimp only [LXMFInbox.step]
    unfold LXMFInbox.setPeerRetention
    split
    next => rfl
    next => rw [nextSeq_pruneExpired]
  | clearPeerRetention peerHex now =>
    refine ⟨le_of_eq ?_, fun n hn => (hnone hn).elim⟩
    dsimp only [LXMFInbox.step]
    unfold LXMFInbox.clearPeerRetention
    split
    next => rfl
    next => rw [nextSeq_pruneExpired]
  | clearAllPeerRetention => exact ⟨le_rfl, fun n hn => (hnone hn).elim⟩

lemma nextSeq_applyDocs (docs : List Doc) (s : LXMFInbox) :
    s.nextSeq ≤ (docs.foldl (LXMFInbox.applyDocToRing P) s).nextSeq ∧
      ∀ doc ∈ docs, (docToRecord P.toCodec doc).seq ≤
        (docs.foldl (LXMFInbox.applyDocToRing P) s).nextSeq := by
  induction docs generalizing s with
  | nil => exact ⟨le_rfl, fun _ h => absurd h List.not_mem_nil⟩
  | cons doc docs ih =>
    obtain ⟨h1, h2⟩ := ih (s.applyDocToRing P doc)
    have h3 : max s.nextSeq (docToRecord P.toCodec doc).seq ≤ _ := h1
    refine ⟨(le_max_left _ _).trans h3, fun d hd => ?_⟩
    rcases List.mem_cons.mp hd with rfl | hd
    · exact (le_max_right _ _).trans h3
    · exact h2 d hd

/-- `load` goes on from the greatest number in the spool. -/
lemma nextSeq_load {doc : Doc} (hd : doc ∈ loadSpool P s.spool) :
    (docToRecord P.toCodec doc).seq ≤ (s.load P true).nextSeq := by
  have h := (nextSeq_applyDocs (P := P) (loadSpool P s.spool)
    { s with ring := [], nextSeq := 0 }).2 doc hd
  unfold LXMFInbox.load
  rw [if_pos rfl]
  dsimp only
  split <;> exact h

/-- A mailbox with the numbers it handed out, those that are reserved for a record to come, and
those of the records that were appended. -/
structure Life where
  box : LXMFInbox
  handed : List Nat := []
  reserved : List Nat := []
  records : List Nat := []

/-- One event. What was reserved is forgotten in a reboot, and used once. -/
def Life.step (P : Platform) (s : Life) (e : Event) : Life where
  box := s.box.step P e
  handed := s.handed ++ (e.hands s.box).toList
  reserved := match e with
    | .reserveSeq => s.reserved ++ (e.hands s.box).toList
    | .append r _ _ => s.reserved.filter (· ≠ (s.box.numbered r).seq)
    | .load _ => []
    | _ => s.reserved
  records := s.records ++ (e.names s.box).toList

/-- The step keeps to the numbers: there is a next one, a record is appended under its own reserved
number, and a spool that is loaded holds the last number that was handed out. -/
def Life.Kept (P : Platform) (s : Life) (e : Event) : Prop :=
  e.Counts s.box ∧ match e with
    | .append r _ _ => r.seq = 0 ∨ r.seq ∈ s.reserved
    | .load opened => s.box.nextSeq = 0 ∨ opened = true ∧
      ∃ doc ∈ loadSpool P s.box.spool, s.box.nextSeq ≤ (docToRecord P.toCodec doc).seq
    | _ => True

/-- Numbers are handed out in order, and name one record each. -/
structure Life.Unique (s : Life) : Prop where
  ordered : s.handed.Pairwise (· < ·)
  bound : ∀ n ∈ s.handed, n ≤ s.box.nextSeq
  reserved : ∀ n ∈ s.reserved, n ∈ s.handed ∧ n ∉ s.records
  once : s.records.Nodup
  records : ∀ n ∈ s.records, n ∈ s.handed

/-- The last number never falls, and the one handed out is new. -/
lemma Life.Kept.next {s : Life} (hk : s.Kept P e) :
    s.box.nextSeq ≤ (s.box.step P e).nextSeq ∧
      ∀ n ∈ e.hands s.box, n = s.box.nextSeq + 1 ∧ (s.box.step P e).nextSeq = n := by
  obtain ⟨hc, hk⟩ := hk
  by_cases hl : ∃ opened, e = .load opened
  · obtain ⟨opened, rfl⟩ := hl
    refine ⟨?_, fun n hn => nomatch hn⟩
    rcases hk with h0 | ⟨rfl, doc, hd, hle⟩
    · exact h0 ▸ Nat.zero_le _
    · exact hle.trans (nextSeq_load hd)
  · exact nextSeq_step (fun opened h => hl ⟨opened, h⟩) hc

/-- A record is appended under a number that was handed out to it. -/
lemma Life.Kept.names {s : Life} (h : s.Unique) (hk : s.Kept P e) {n : Nat}
    (hn : n ∈ e.names s.box) :
    n ∉ s.records ∧ n ∈ s.handed ++ (e.hands s.box).toList := by
  cases e with
  | append r w now =>
    obtain rfl := Option.some.inj hn
    by_cases h0 : r.seq = 0
    · have hh : (s.box.numbered r).seq ∈ Event.hands s.box (.append r w now) := by
        dsimp only [Event.hands, LXMFInbox.numbered]
        rw [if_pos h0, if_pos h0]
        rfl
      refine ⟨fun hr => ?_, List.mem_append_right _ (Option.mem_toList.mpr hh)⟩
      have hle := h.bound _ (h.records _ hr)
      rw [(hk.next.2 _ hh).1] at hle
      exact absurd hle (Nat.not_succ_le_self _)
    · have hseq : (s.box.numbered r).seq = r.seq := if_neg h0
      obtain ⟨h1, h2⟩ := h.reserved _ (hk.2.resolve_left h0)
      rw [hseq]
      exact ⟨h2, List.mem_append_left _ h1⟩
  | _ => cases hn

/-- Any step. -/
lemma Life.Unique.step {s : Life} (h : s.Unique) (hk : s.Kept P e) : (s.step P e).Unique := by
  obtain ⟨hle, hhand⟩ := hk.next
  have hnew : ∀ n ∈ (e.hands s.box).toList, ∀ m ∈ s.handed, m < n := fun n hn m hm => by
    rw [(hhand n (Option.mem_toList.mp hn)).1]
    exact Nat.lt_succ_of_le (h.bound m hm)
  have hnames : ∀ n ∈ (e.names s.box).toList,
      n ∉ s.records ∧ n ∈ s.handed ++ (e.hands s.box).toList := fun n hn =>
    hk.names h (Option.mem_toList.mp hn)
  refine ⟨?ordered, ?bound, ?reserved, ?once, ?records⟩
  case ordered =>
    refine List.pairwise_append.mpr ⟨h.ordered, ?_, fun m hm n hn => hnew n hn m hm⟩
    cases e.hands s.box with
    | none => exact List.Pairwise.nil
    | some n => exact List.pairwise_singleton _ _
  case bound =>
    intro n hn
    rcases List.mem_append.mp hn with hn | hn
    · exact (h.bound n hn).trans hle
    · exact (hhand n (Option.mem_toList.mp hn)).2.ge
  case once =>
    refine List.nodup_append.mpr ⟨h.once, ?_, fun m hm n hn e => (hnames n hn).1 (e ▸ hm)⟩
    cases e.names s.box with
    | none => exact List.nodup_nil
    | some n => exact List.nodup_singleton _
  case records =>
    intro n hn
    rcases List.mem_append.mp hn with hn | hn
    · exact List.mem_append_left _ (h.records n hn)
    · exact (hnames n hn).2
  case reserved =>
    have hold : ∀ n ∈ s.reserved, n ∈ (s.step P e).handed ∧ n ∉ s.records := fun n hn =>
      ⟨List.mem_append_left _ (h.reserved n hn).1, (h.reserved n hn).2⟩
    intro n hn
    cases e with
    | append r w now =>
      obtain ⟨hn, hne⟩ := List.mem_filter.mp hn
      obtain ⟨h1, h2⟩ := hold n hn
      refine ⟨h1, fun hr => ?_⟩
      rcases List.mem_append.mp hr with hr | hr
      · exact h2 hr
      · exact of_decide_eq_true hne (List.mem_singleton.mp hr)
    | reserveSeq =>
      have e : (s.step P .reserveSeq).records = s.records := List.append_nil _
      rw [e]
      rcases List.mem_append.mp hn with hn | hn
      · exact hold n hn
      · refine ⟨List.mem_append_right _ hn, fun hr => ?_⟩
        exact absurd (hnew n hn n (h.records n hr)) (Nat.lt_irrefl n)
    | load opened => exact absurd hn List.not_mem_nil
    | _ =>
      obtain ⟨h1, h2⟩ := hold n hn
      exact ⟨h1, by rwa [← List.append_nil s.records] at h2⟩

/-- In a run whose steps keep to the numbers, every number that is handed out is greater than all
before it, every record has a number of its own, and a record that is appended without reservation
gets the greatest one. -/
theorem unique_of_kept {ramCapacity : Nat} {defaultRetention : Retention} {s : Life}
    (h : Reach (Life.step P) (Life.Kept P) { box := emptyInbox ramCapacity defaultRetention } s) :
    s.handed.Pairwise (· < ·) ∧ s.records.Nodup ∧
      ∀ r : MessageRecord, r.seq = 0 → s.box.nextSeq + 1 < 2 ^ 32 →
        ∀ n ∈ s.handed, n < (s.box.numbered r).seq := by
  have hu : s.Unique := h.invariant
    ⟨List.Pairwise.nil, fun _ h => absurd h List.not_mem_nil, fun _ h => absurd h List.not_mem_nil,
      List.nodup_nil, fun _ h => absurd h List.not_mem_nil⟩ fun hk hu => hu.step hk
  refine ⟨hu.ordered, hu.once, fun r h0 hlt n hn => ?_⟩
  have hseq : (s.box.numbered r).seq = s.box.nextSeq + 1 := by
    unfold LXMFInbox.numbered
    dsimp only
    rw [if_pos h0, Nat.mod_eq_of_lt hlt]
  rw [hseq]
  exact Nat.lt_succ_of_le (hu.bound n hn)

/-- A number is reserved for a record, another record comes first, and the device reboots. -/
def sampleLife : List Event :=
  [.reserveSeq, .append sampleRecord .whole none,
  .append { sampleRecord with seq := 1 } .whole none, .load true]

lemma allowed_life (h : P.Reads) :
    Allowed (Life.step P) (Life.Kept P) { box := emptyInbox 2 {} } sampleLife := by
  have hone : 1 + 1 < 2 ^ 32 := by decide
  let r2 : MessageRecord := { sampleRecord with seq := 2, bodySize := 2 }
  let r1 : MessageRecord := { sampleRecord with seq := 1, bodySize := 2 }
  have hload : loadSpool P ([] ++ line P r2 ++ line P r1) =
      [r2, r1].map fun r => (recordToDoc P.toCodec r).readBack P.toCodec := by
    have hl : loadSpool P ([r2, r1].flatMap (line P) ++ []) = _ := loadSpool_lines h (.inl rfl)
    rwa [List.append_nil, List.flatMap_cons, List.flatMap_singleton] at hl
  refine ⟨⟨fun _ => by decide, trivial⟩, ⟨fun _ => hone, .inl rfl⟩,
    ⟨fun hne => absurd rfl hne, .inr (List.mem_singleton.mpr rfl)⟩,
    ⟨fun hne => absurd rfl hne, .inr ⟨rfl, (recordToDoc P.toCodec r2).readBack P.toCodec, ?_, ?_⟩⟩,
    trivial⟩
  · show _ ∈ loadSpool P ([] ++ line P r2 ++ line P r1)
    rw [hload]
    exact List.mem_cons_self
  · rw [docToRecord_readBack h.hex]
    exact le_rfl

lemma numbers_life (P : Platform) :
    let s := sampleLife.foldl (Life.step P) { box := emptyInbox 2 {} }
    s.handed = [1, 2] ∧ s.records = [2, 1] := ⟨rfl, rfl⟩

/-- The two records have two numbers. -/
theorem unique_of_kept_reserved :
    let s := sampleLife.foldl (Life.step samplePlatform) { box := emptyInbox 2 {} }
    s.handed = [1, 2] ∧ s.records = [2, 1] ∧ s.handed.Pairwise (· < ·) ∧ s.records.Nodup := by
  obtain ⟨h1, h2, -⟩ := unique_of_kept (Reach.init.run (allowed_life sample_reads))
  obtain ⟨h3, h4⟩ := numbers_life samplePlatform
  exact ⟨h3, h4, h1, h2⟩

/-- The only record is purged, the device reboots, and another record comes. -/
lemma records_purged (P : Platform) :
    ([.append sampleRecord .whole none, .purgePeer [7], .load true,
      .append { peerHash := [8], content := ascii "hello" } .whole none].foldl (Life.step P)
        { box := emptyInbox 2 {} }).records = [1, 1] := rfl

/-- It gets the number of the first. -/
theorem not_unique_purged :
    ¬ ([.append sampleRecord .whole none, .purgePeer [7], .load true,
      .append { peerHash := [8], content := ascii "hello" } .whole none].foldl
        (Life.step samplePlatform) { box := emptyInbox 2 {} }).records.Nodup := by
  rw [records_purged]
  decide

end URSupreme.Inbox
