import Mathlib.Tactic.DeriveEncodable
import URSupreme.Lib.Run
import URSupreme.LXMF.Inbox

/-!
# The spool of a mailbox

Loading the spool gives the ring again: the file holds the lines of the records of the ring, behind
lines of records that the ring has no room for, and possibly in front of a document that was cut
short. This holds as long as nothing is appended behind such a document, records are `Plain`, and
the ring does not get room for lines that it had dropped.
-/

namespace URSupreme.Inbox
open Lib LXMF
open Outbound (OutboxStatus)
open Gateway (Retention)

variable {P : Platform} {s s' : LXMFInbox} {r : MessageRecord} {rs : List MessageRecord}
  {cut : Bytes} {n : Nat}

/-- What the JSON library is relied on for: a document is written on one line that starts with a
brace, and is read back from the front of a stream. A part of it is an error. -/
structure Platform.Reads (P : Platform) : Prop where
  hex : P.toCodec.Hex
  opens : ∀ doc, ∃ rest, P.serialize doc = 0x7B :: rest
  oneLine : ∀ doc, 10 ∉ P.serialize doc
  read : ∀ doc rest, P.deserialize (P.serialize doc ++ rest) = (some (doc.readBack P.toCodec), rest)
  suffix : ∀ f, (P.deserialize f).2 <:+ f
  cut : ∀ doc n, n ≠ 0 → n < (P.serialize doc).length →
    (P.deserialize ((P.serialize doc).take n)).1 = none

/-- Nothing, or a part of a document. -/
def Cut (P : Platform) (cut : Bytes) : Prop :=
  cut = [] ∨ ∃ doc n, n ≠ 0 ∧ n < (P.serialize doc).length ∧ cut = (P.serialize doc).take n

/-- A document is never empty, and never starts with white space. -/
lemma Platform.Reads.dropWhile (h : P.Reads) (doc : Doc) (rest : Bytes) :
    (P.serialize doc ++ rest).dropWhile isSpace = P.serialize doc ++ rest ∧
      P.serialize doc ++ rest ≠ [] := by
  obtain ⟨b, e⟩ := h.opens doc
  rw [e]
  exact ⟨rfl, List.cons_ne_nil _ _⟩

/-- A newline is white space. -/
lemma loadLoop_newline (n : Nat) (f : Bytes) : loadLoop P n (10 :: f) = loadLoop P n f := by
  cases n <;> rfl

/-- A part of a document gives nothing. -/
lemma loadLoop_cut (h : P.Reads) (hc : Cut P cut) (n : Nat) : loadLoop P n cut = [] := by
  cases n with
  | zero => rfl
  | succ n =>
    rcases hc with rfl | ⟨doc, k, hk, hlt, rfl⟩
    · rfl
    · obtain ⟨b, e⟩ := h.opens doc
      have hd : ((P.serialize doc).take k).dropWhile isSpace = (P.serialize doc).take k := by
        obtain ⟨k, rfl⟩ := Nat.exists_eq_succ_of_ne_zero hk
        rw [e]
        rfl
      have hnl : 10 ∉ (P.deserialize ((P.serialize doc).take k)).2 := fun hm =>
        h.oneLine doc (List.mem_of_mem_take ((h.suffix _).subset hm))
      have hnone := h.cut doc k hk hlt
      rw [loadLoop, hd]
      split
      next => rfl
      next =>
        -- the rest of the line is skipped, and there is no next one
        generalize P.deserialize ((P.serialize doc).take k) = x at hnl hnone
        obtain ⟨d, rest⟩ := x
        dsimp only at hnl hnone
        subst hnone
        have hrest : rest.dropWhile (· ≠ 10) = [] :=
          List.dropWhile_eq_nil_iff.mpr fun b hb => decide_eq_true fun e => hnl (e ▸ hb)
        dsimp only
        rw [hrest]
        cases n <;> rfl

/-- The documents of whole lines. -/
lemma loadLoop_lines (h : P.Reads) (hc : Cut P cut) (hn : rs.length < n) :
    loadLoop P n (rs.flatMap (line P) ++ cut) =
      rs.map fun r => (recordToDoc P.toCodec r).readBack P.toCodec := by
  induction rs generalizing n with
  | nil => exact loadLoop_cut h hc n
  | cons r rs ih =>
    obtain ⟨n, rfl⟩ := Nat.exists_eq_succ_of_ne_zero (Nat.ne_zero_of_lt hn)
    have e : (r :: rs).flatMap (line P) ++ cut =
        P.serialize (recordToDoc P.toCodec r) ++ (10 :: (rs.flatMap (line P) ++ cut)) := by
      rw [List.flatMap_cons, line, List.append_assoc, List.append_assoc]
      rfl
    obtain ⟨hd, hne⟩ := h.dropWhile (recordToDoc P.toCodec r) (10 :: (rs.flatMap (line P) ++ cut))
    rw [e, loadLoop, hd, if_neg hne, h.read]
    dsimp only
    rw [loadLoop_newline, ih (Nat.lt_of_succ_lt_succ hn), List.map_cons]

/-- The spool has enough bytes for the loop to come to its end. -/
lemma length_lines (rs : List MessageRecord) : rs.length ≤ (rs.flatMap (line P)).length := by
  induction rs with
  | nil => exact Nat.zero_le _
  | cons r rs ih =>
    rw [List.flatMap_cons, List.length_append, List.length_cons, line, List.length_append,
      List.length_singleton]
    omega

lemma loadSpool_lines (h : P.Reads) (hc : Cut P cut) :
    loadSpool P (rs.flatMap (line P) ++ cut) =
      rs.map fun r => (recordToDoc P.toCodec r).readBack P.toCodec := by
  refine loadLoop_lines h hc ?_
  have := length_lines (P := P) rs
  rw [List.length_append]
  omega

/-- The ring of a mailbox that applied documents to an empty one. -/
lemma ring_applyDocs (docs : List Doc) (s : LXMFInbox) (hs : s.ring = []) :
    (docs.foldl (LXMFInbox.applyDocToRing P) s).ring =
        recent s.ramCapacity (docs.map (docToRecord P.toCodec)) ∧
      (docs.foldl (LXMFInbox.applyDocToRing P) s).ramCapacity = s.ramCapacity ∧
      (docs.foldl (LXMFInbox.applyDocToRing P) s).spool = s.spool := by
  suffices h : ∀ l, s.ring = recent s.ramCapacity l →
      (docs.foldl (LXMFInbox.applyDocToRing P) s).ring =
          recent s.ramCapacity (l ++ docs.map (docToRecord P.toCodec)) ∧
        (docs.foldl (LXMFInbox.applyDocToRing P) s).ramCapacity = s.ramCapacity ∧
        (docs.foldl (LXMFInbox.applyDocToRing P) s).spool = s.spool from
    h [] (hs.trans (recent_of_le (Nat.zero_le _)).symm)
  clear hs
  induction docs generalizing s with
  | nil =>
    intro l hl
    refine ⟨?_, rfl, rfl⟩
    rw [List.map_nil, List.append_nil]
    exact hl
  | cons doc docs ih =>
    intro l hl
    obtain ⟨h1, h2, h3⟩ := ih (s.applyDocToRing P doc) (l ++ [docToRecord P.toCodec doc]) (by
      show recent s.ramCapacity (s.ring ++ [_]) = recent s.ramCapacity _
      rw [hl, recent_append])
    refine ⟨h1.trans ?_, h2, h3⟩
    rw [List.append_assoc]
    rfl

/-- `load` puts the newest records of the spool into the ring. -/
lemma ring_load (h : P.Reads) (hc : Cut P cut) (hs : s.spool = rs.flatMap (line P) ++ cut)
    (hp : ∀ r ∈ rs, Plain P.toCodec r) : (s.load P true).ring = recent s.ramCapacity rs := by
  have hdocs : (loadSpool P s.spool).map (docToRecord P.toCodec) = rs := by
    rw [hs, loadSpool_lines h hc, List.map_map]
    refine (List.map_congr_left fun r hr => ?_).trans (List.map_id rs)
    exact (docToRecord_readBack h.hex).trans (readBack_eq (hp r hr))
  have hr := (ring_applyDocs (P := P) (loadSpool P s.spool)
    { s with ring := [], nextSeq := 0 } rfl).1
  rw [hdocs] at hr
  unfold LXMFInbox.load
  rw [if_pos rfl]
  dsimp only
  split <;> exact hr

/-- The spool holds the lines of `old` records and of the ring, and a document that was cut
short. -/
structure Spooled (P : Platform) (s : LXMFInbox) (old : List MessageRecord) (cut : Bytes) :
    Prop where
  spool : s.spool = (old ++ s.ring).flatMap (line P) ++ cut
  cut : Cut P cut
  plain : ∀ r ∈ old ++ s.ring, Plain P.toCodec r
  room : s.ring.length ≤ s.ramCapacity
  /-- The ring is full when records were dropped. -/
  full : old = [] ∨ s.ring.length = s.ramCapacity

/-- Loading the spool gives the ring again. -/
lemma Spooled.load {old : List MessageRecord} (h : P.Reads) (hs : Spooled P s old cut) :
    (s.load P true).ring = s.ring := by
  rw [ring_load h hs.cut hs.spool hs.plain]
  rcases hs.full with rfl | hf
  · exact recent_of_le hs.room
  · rw [← hf, recent, List.length_append, Nat.add_sub_cancel, List.drop_left]

/-- A spool that was just rewritten. -/
lemma Spooled.rewrite (hp : ∀ r ∈ s.ring, Plain P.toCodec r) (hr : s.ring.length ≤ s.ramCapacity) :
    Spooled P (s.rewriteSpool P) [] [] :=
  ⟨(List.append_nil _).symm, .inl rfl, hp, hr, .inl rfl⟩

lemma keepNewest_sublist (s : LXMFInbox) (l : List MessageRecord) :
    (s.keepNewest P l).Sublist l := by
  induction l with
  | nil => exact List.Sublist.slnil
  | cons r l ih =>
    unfold LXMFInbox.keepNewest
    dsimp only
    split
    next => exact ih.cons r
    next => exact ih.cons_cons r

lemma surviving_sublist (s : LXMFInbox) (now : Option UInt64) :
    (s.surviving P now).Sublist s.ring := by
  unfold LXMFInbox.surviving recent
  refine (List.drop_sublist _ _).trans ((keepNewest_sublist s _).trans ?_)
  cases now with
  | none => exact List.Sublist.refl _
  | some now => exact List.filter_sublist

/-- What `prune_expired` does to a ring that fits: nothing, or it drops records and writes the spool
anew. -/
lemma pruneExpired_cases (now : Option UInt64) (h : s.ring.length ≤ s.ramCapacity) :
    s.pruneExpired P now = s ∨ ∃ ring, ring.Sublist s.ring ∧
      s.pruneExpired P now = LXMFInbox.rewriteSpool P { s with ring } := by
  unfold LXMFInbox.pruneExpired
  split
  next =>
    rw [recent_of_le h]
    exact .inl rfl
  next =>
    have hs := surviving_sublist (P := P) s now
    dsimp only
    split
    next => exact .inr ⟨_, hs, rfl⟩
    next hlen =>
      left
      rw [hs.eq_of_length (not_not.mp hlen)]

/-- Pruning a ring that fits leaves a spool that holds it. -/
lemma Spooled.prune {old : List MessageRecord} (hs : Spooled P s old cut) (now : Option UInt64) :
    ∃ old cut, Spooled P (s.pruneExpired P now) old cut := by
  rcases pruneExpired_cases (P := P) now hs.room with e | ⟨ring, hsub, e⟩
  · exact ⟨old, cut, by rwa [e]⟩
  · refine ⟨[], [], ?_⟩
    rw [e]
    exact .rewrite (fun r hr => hs.plain r (List.mem_append_right _ (hsub.subset hr)))
      (hsub.length_le.trans hs.room)

/-- A member that the spool does not depend on. -/
lemma Spooled.same {old : List MessageRecord} (hs : Spooled P s old cut) (h1 : s'.spool = s.spool)
    (h2 : s'.ring = s.ring) (h3 : s'.ramCapacity = s.ramCapacity) : Spooled P s' old cut where
  spool := by rw [h1, h2, hs.spool]
  cut := hs.cut
  plain := by
    rw [h2]
    exact hs.plain
  room := by
    rw [h2, h3]
    exact hs.room
  full := by
    rw [h2, h3]
    exact hs.full

/-- A spool that was loaded, and rewritten when it had more lines than the ring. -/
lemma Spooled.reload {old : List MessageRecord} (h : P.Reads) (hs : Spooled P s old cut) :
    ∃ old cut, Spooled P (s.load P true) old cut := by
  have hring := hs.load h
  obtain ⟨-, hcap, hspool⟩ := ring_applyDocs (P := P) (loadSpool P s.spool)
    { s with ring := [], nextSeq := 0 } rfl
  unfold LXMFInbox.load at hring ⊢
  rw [if_pos rfl] at hring ⊢
  dsimp only at hring hcap hspool ⊢
  split at hring
  next hlen =>
    have hring : ((loadSpool P s.spool).foldl (LXMFInbox.applyDocToRing P)
      { s with ring := [], nextSeq := 0 }).ring = s.ring := hring
    rw [if_pos hlen]
    refine ⟨[], [], .rewrite (fun r hr => ?_) ?_⟩
    · exact hs.plain r (List.mem_append_right _ (hring ▸ hr))
    · rw [hring, hcap]
      exact hs.room
  next hlen =>
    rw [if_neg hlen]
    exact ⟨old, cut, hs.same hspool hring hcap⟩

/-- The spool is empty, or ends with a newline. -/
def CleanEnd (f : Bytes) : Prop := f = [] ∨ f.getLast? = some 10

lemma cut_of_cleanEnd {f : Bytes} (h : P.Reads) (hcut : Cut P cut) (hc : CleanEnd (f ++ cut)) :
    cut = [] := by
  rcases hcut with hcut | ⟨doc, n, hn, hlt, rfl⟩
  · exact hcut
  · have hne : (P.serialize doc).take n ≠ [] := by
      rw [ne_eq, List.take_eq_nil_iff, not_or]
      exact ⟨hn, fun e => by rw [e] at hlt; exact absurd hlt (Nat.not_lt_zero n)⟩
    rcases hc with e | e
    · exact (List.append_eq_nil_iff.mp e).2
    · rw [List.getLast?_append_of_ne_nil _ hne] at e
      exact absurd (List.mem_of_mem_take (List.mem_of_getLast? e)) (h.oneLine doc)

lemma cleanEnd_lines (rs : List MessageRecord) : CleanEnd (rs.flatMap (line P)) := by
  induction rs with
  | nil => exact .inl rfl
  | cons r rs ih =>
    right
    rw [List.flatMap_cons]
    rcases ih with e | e
    · rw [e, List.append_nil, line, List.getLast?_concat]
    · rw [List.getLast?_append, e]
      rfl

/-- Nothing is cut short at a clean end. -/
lemma Spooled.clean {old : List MessageRecord} (h : P.Reads) (hs : Spooled P s old cut)
    (hc : CleanEnd s.spool) : cut = [] :=
  cut_of_cleanEnd h hs.cut (hs.spool ▸ hc)

/-- A ring that has one record more, and drops the oldest if there is no room. -/
lemma Spooled.push {old : List MessageRecord} (hs : Spooled P s old []) (hr : Plain P.toCodec r) :
    ∃ old, Spooled P (s.pushed P r) old [] := by
  have e : (old ++ (s.ring ++ [r]).take ((s.ring ++ [r]).length - s.ramCapacity)) ++
      recent s.ramCapacity (s.ring ++ [r]) = old ++ s.ring ++ [r] := by
    rw [List.append_assoc, take_append_recent, List.append_assoc]
  refine ⟨old ++ (s.ring ++ [r]).take ((s.ring ++ [r]).length - s.ramCapacity), ?_, .inl rfl, ?_,
    ?_, ?_⟩
  · have hf : (old ++ s.ring ++ [r]).flatMap (line P) =
        (old ++ s.ring).flatMap (line P) ++ [r].flatMap (line P) := List.flatMap_append
    rw [LXMFInbox.pushed, e, hs.spool, List.append_nil, List.append_nil, hf,
      List.flatMap_singleton]
  · rw [LXMFInbox.pushed, e]
    intro x hx
    rcases List.mem_append.mp hx with hx | hx
    · exact hs.plain x hx
    · exact List.mem_singleton.mp hx ▸ hr
  · exact length_recent.le.trans (min_le_left _ _)
  · rw [LXMFInbox.pushed, length_recent, List.length_append, List.length_singleton]
    by_cases hlt : s.ring.length < s.ramCapacity
    · refine .inl ?_
      rw [hs.full.resolve_right hlt.ne, Nat.sub_eq_zero_of_le hlt]
      rfl
    · exact .inr (min_eq_left (Nat.le_succ_of_le (not_lt.mp hlt)))

/-- The step keeps the spool in step with the ring. An append goes behind whole lines, with a plain
record or not to its end; a change leaves records plain; and the ring does not get room for lines
that it had dropped. -/
def Event.Kept (P : Platform) (s : LXMFInbox) : Event → Prop
  | .append r .whole _ => CleanEnd s.spool ∧ Plain P.toCodec (s.numbered r)
  | .append r (.short n) _ => n = 0 ∨
    CleanEnd s.spool ∧ n < (P.serialize (recordToDoc P.toCodec (s.numbered r))).length
  | .updateStatus packetHash status =>
    status = .findingRoute → s.ring.any (·.packetHash = packetHash) = false
  | .mutateBySeq seq f => ∀ r ∈ s.ring.find? (·.seq = seq), Plain P.toCodec (f r)
  | .updateAttachmentBackends source target => (target ≠ [] ∧ 0 ∉ target) ∨
    s.ring.any (·.attachments.any (·.backend = source)) = false
  | .setCapacity cap => cap ≤ s.ramCapacity ∨ s.spool.count 10 ≤ s.ring.length
  | .load opened => opened = true
  | _ => True

/-- There is a newline for each line. -/
lemma count_lines (h : P.Reads) (hc : Cut P cut) :
    (rs.flatMap (line P) ++ cut).count 10 = rs.length := by
  have hcut : cut.count 10 = 0 := by
    rcases hc with rfl | ⟨doc, n, -, -, rfl⟩
    · rfl
    · exact List.count_eq_zero.mpr fun hm => h.oneLine doc (List.mem_of_mem_take hm)
  rw [List.count_append, hcut, Nat.add_zero]
  induction rs with
  | nil => rfl
  | cons r rs ih =>
    rw [List.flatMap_cons, List.count_append, ih, line, List.count_append,
      List.count_eq_zero.mpr (h.oneLine _), List.length_cons]
    exact Nat.add_comm _ _

lemma Spooled.count {old : List MessageRecord} (h : P.Reads) (hs : Spooled P s old cut) :
    s.spool.count 10 = old.length + s.ring.length := by
  rw [hs.spool, count_lines h hs.cut, List.length_append]

lemma Plain.setStatus (h : Plain P.toCodec r) {status : OutboxStatus}
    (hs : status ≠ .findingRoute) : Plain P.toCodec { r with status } :=
  { h with status := hs }

/-- Any step. -/
lemma Spooled.step {e : Event} {old : List MessageRecord} (h : P.Reads) (hs : Spooled P s old cut)
    (hk : e.Kept P s) : ∃ old cut, Spooled P (s.step P e) old cut := by
  have hplain : ∀ r ∈ s.ring, Plain P.toCodec r := fun r hr =>
    hs.plain r (List.mem_append_right _ hr)
  cases e with
  | append r w now =>
    cases w with
    | whole =>
      obtain ⟨hc, hp⟩ := hk
      obtain rfl := hs.clean h hc
      obtain ⟨old', hpush⟩ := hs.push hp
      have hpush' : Spooled P ((s.counted r).pushed P (s.numbered r)) old' [] :=
        hpush.same rfl rfl rfl
      exact hpush'.prune now
    | short n =>
      rcases hk with rfl | ⟨hc, hlt⟩
      · exact ⟨old, cut, hs.same (List.append_nil _) rfl rfl⟩
      · obtain rfl := hs.clean h hc
        by_cases hn : n = 0
        · subst hn
          exact ⟨old, [], hs.same (List.append_nil _) rfl rfl⟩
        · refine ⟨old, (P.serialize (recordToDoc P.toCodec (s.numbered r))).take n, ?_,
            .inr ⟨_, n, hn, hlt, rfl⟩, hs.plain, hs.room, hs.full⟩
          show s.spool ++ _ = _
          rw [hs.spool, List.append_nil]
          rfl
  | updateStatus packetHash status =>
    dsimp only [LXMFInbox.step]
    unfold LXMFInbox.updateStatus
    split
    next hany =>
      have hst : status ≠ .findingRoute := fun e => by
        rw [hk e] at hany
        exact Bool.false_ne_true hany
      refine ⟨[], [], .rewrite (fun r hr => ?_) ?_⟩
      · obtain ⟨r', hr', rfl⟩ := List.mem_map.mp hr
        split
        next => exact (hplain r' hr').setStatus hst
        next => exact hplain r' hr'
      · exact (List.length_map _).le.trans hs.room
    next => exact ⟨old, cut, hs⟩
  | mutateBySeq seq f =>
    dsimp only [LXMFInbox.step]
    unfold LXMFInbox.mutateBySeq
    split
    next =>
      refine ⟨[], [], ?_⟩
      cases hf : s.ring.find? (·.seq = seq) with
      | none =>
        rw [modifyFirst_of_none hf]
        exact .rewrite hplain hs.room
      | some r =>
        obtain ⟨-, l1, l2, e, hm⟩ := modifyFirst_of_find hf
        rw [hm]
        refine .rewrite (fun x hx => ?_) ?_
        · rcases mem_split.mp hx with rfl | hx
          · exact hk r hf
          · exact hplain x (e ▸ mem_split.mpr (.inr hx))
        · have hroom := hs.room
          rw [e, List.length_append, List.length_cons] at hroom
          rwa [List.length_append, List.length_cons]
    next => exact ⟨old, cut, hs⟩
  | updateAttachmentBackends source target =>
    dsimp only [LXMFInbox.step]
    unfold LXMFInbox.updateAttachmentBackends
    split
    next hany =>
      have ht := hk.resolve_right fun e => by
        rw [e] at hany
        exact Bool.false_ne_true hany
      refine ⟨[], [], .rewrite (fun r hr => ?_) ?_⟩
      · obtain ⟨r', hr', rfl⟩ := List.mem_map.mp hr
        refine { hplain r' hr' with attachments := fun a ha => ?_ }
        obtain ⟨a', ha', rfl⟩ := List.mem_map.mp ha
        unfold migrate
        split
        next => exact { (hplain r' hr').attachments a' ha' with backend := ht }
        next => exact (hplain r' hr').attachments a' ha'
      · exact (List.length_map _).le.trans hs.room
    next => exact ⟨old, cut, hs⟩
  | purgePeer peerHash =>
    dsimp only [LXMFInbox.step]
    unfold LXMFInbox.purgePeer
    have hsub : (s.ring.filter (·.peerHash ≠ peerHash)).Sublist s.ring := List.filter_sublist
    dsimp only
    split
    next =>
      exact ⟨[], [], .rewrite (fun r hr => hplain r (hsub.subset hr))
        (hsub.length_le.trans hs.room)⟩
    next hlen =>
      exact ⟨old, cut, hs.same rfl (hsub.eq_of_length_le (not_lt.mp hlen)) rfl⟩
  | pruneExpired now => exact hs.prune now
  | setCapacity cap =>
    dsimp only [LXMFInbox.step]
    unfold LXMFInbox.setCapacity
    dsimp only
    split
    next =>
      exact ⟨[], [], .rewrite (fun r hr => hplain r (mem_of_mem_recent hr))
        (length_recent.le.trans (min_le_left _ _))⟩
    next hlen =>
      have hlen := not_lt.mp hlen
      have hring : recent cap s.ring = s.ring := recent_of_le hlen
      refine ⟨old, cut, ?_, hs.cut, ?_, ?_, ?_⟩
      · dsimp only
        rw [hring]
        exact hs.spool
      · dsimp only
        rw [hring]
        exact hs.plain
      · dsimp only
        rwa [hring]
      · dsimp only
        rw [hring]
        rcases hs.full with hold | hfull
        · exact .inl hold
        · rcases hk with hk | hk
          · exact .inr (le_antisymm hlen (hfull ▸ hk))
          · rw [hs.count h] at hk
            exact .inl (List.eq_nil_of_length_eq_zero (by omega))
  | setDefaultRetention r now =>
    have hs' : Spooled P { s with defaultRetention := r } old cut := hs.same rfl rfl rfl
    exact hs'.prune now
  | setPeerRetention peerHex r now =>
    dsimp only [LXMFInbox.step]
    unfold LXMFInbox.setPeerRetention
    split
    next => exact ⟨old, cut, hs⟩
    next =>
      have hs' : Spooled P { s with peerRetention := (peerHex, r) :: erase peerHex s.peerRetention }
        old cut := hs.same rfl rfl rfl
      exact hs'.prune now
  | clearPeerRetention peerHex now =>
    dsimp only [LXMFInbox.step]
    unfold LXMFInbox.clearPeerRetention
    split
    next => exact ⟨old, cut, hs⟩
    next =>
      have hs' : Spooled P { s with peerRetention := erase peerHex s.peerRetention } old cut :=
        hs.same rfl rfl rfl
      exact hs'.prune now
  | clearAllPeerRetention => exact ⟨old, cut, hs.same rfl rfl rfl⟩
  | reserveSeq => exact ⟨old, cut, hs.same rfl rfl rfl⟩
  | load opened =>
    have hopened : opened = true := hk
    subst hopened
    exact hs.reload h

/-- A mailbox before its first event. -/
def emptyInbox (ramCapacity : Nat) (defaultRetention : Retention) : LXMFInbox :=
  { ramCapacity, defaultRetention }

/-- A digit of a hexadecimal text. -/
def hexDigit (n : Nat) : UInt8 := UInt8.ofNat (if n < 10 then 0x30 + n else 0x57 + n)

/-- The value of a digit. -/
def digitValue (b : UInt8) : Nat := if b.toNat < 0x40 then b.toNat - 0x30 else b.toNat - 0x57

/-- `RNS::Bytes::toHex`. -/
def toHex (bytes : Bytes) : Bytes :=
  bytes.flatMap fun b => [hexDigit (b.toNat / 16), hexDigit (b.toNat % 16)]

/-- `RNS::Bytes::assignHex`. -/
def assignHex : Bytes → Bytes
  | hi :: lo :: rest => UInt8.ofNat (digitValue hi * 16 + digitValue lo) :: assignHex rest
  | _ => []

instance encodableByte : Encodable UInt8 :=
  Encodable.ofLeftInjection UInt8.toNat (fun n => some (UInt8.ofNat n)) fun _ => by simp

instance encodableWord : Encodable UInt64 :=
  Encodable.ofLeftInjection UInt64.toNat (fun n => some (UInt64.ofNat n)) fun _ => by simp

deriving instance Encodable for Key
deriving instance Encodable for Scalar
deriving instance Encodable for Doc

/-- A document as a number between braces. -/
def sampleWrite (doc : Doc) : Bytes :=
  0x7B :: (List.replicate (Encodable.encode doc) 0x31 ++ [0x7D])

/-- Reading a document that `sampleWrite` wrote. -/
def sampleRead : Bytes → Option Doc × Bytes
  | [] => (none, [])
  | b :: f =>
    let rest := f.dropWhile (· = 0x31)
    if b = 0x7B ∧ rest.head? = some 0x7D then
      (Encodable.decode (f.takeWhile (· = 0x31)).length, rest.tail)
    else (none, rest)

/-- A mailbox with a stand-in for the JSON library. -/
def samplePlatform : Platform where
  toHex := toHex
  assignHex := assignHex
  double _ := 0
  number := id
  serialize := sampleWrite
  deserialize := sampleRead
  older _ _ _ := false

lemma digitValue_hexDigit {n : Nat} (h : n < 16) : digitValue (hexDigit n) = n := by
  revert n
  decide

lemma hexDigit_ne_zero {n : Nat} (h : n < 16) : hexDigit n ≠ 0 := by
  revert n
  decide

lemma sample_hex : samplePlatform.toCodec.Hex where
  read b := by
    induction b with
    | nil => rfl
    | cons b l ih =>
      have hb := b.toNat_lt
      have e : assignHex (toHex (b :: l)) =
          UInt8.ofNat (digitValue (hexDigit (b.toNat / 16)) * 16 +
            digitValue (hexDigit (b.toNat % 16))) :: assignHex (toHex l) := rfl
      have hv : b.toNat / 16 * 16 + b.toNat % 16 = b.toNat := by omega
      refine e.trans ?_
      rw [digitValue_hexDigit (by omega), digitValue_hexDigit (by omega), hv, UInt8.ofNat_toNat]
      exact congrArg (b :: ·) ih
  noZero b hm := by
    obtain ⟨c, -, hc⟩ := List.mem_flatMap.mp hm
    have hb := c.toNat_lt
    rcases List.mem_cons.mp hc with e | hc
    · exact hexDigit_ne_zero (by omega) e.symm
    · exact hexDigit_ne_zero (by omega) (List.mem_singleton.mp hc).symm

lemma readBack_sample (doc : Doc) : doc.readBack samplePlatform.toCodec = doc := by
  have hs : ∀ s : Scalar, s.readBack samplePlatform.toCodec = s := fun s => by cases s <;> rfl
  have hm : ∀ m : Members, m.map (fun x => (x.1, x.2.readBack samplePlatform.toCodec)) = m :=
    fun m => (List.map_congr_left fun x _ => congrArg (x.1, ·) (hs x.2)).trans (List.map_id m)
  obtain ⟨members, att⟩ := doc
  unfold Doc.readBack
  dsimp only
  rw [hm]
  cases att with
  | none => rfl
  | some l => rw [Option.map_some, (List.map_congr_left fun m _ => hm m).trans (List.map_id l)]

lemma dropWhile_replicate (n : Nat) (b : UInt8) (rest : Bytes) (hb : b ≠ 0x31) :
    (List.replicate n 0x31 ++ b :: rest).dropWhile (· = 0x31) = b :: rest ∧
      (List.replicate n 0x31 ++ b :: rest).takeWhile (· = 0x31) = List.replicate n 0x31 := by
  induction n with
  | zero =>
    have hd : decide (b = 0x31) = false := decide_eq_false hb
    exact ⟨List.dropWhile_cons_of_neg (by rw [hd]; exact Bool.false_ne_true),
      List.takeWhile_cons_of_neg (by rw [hd]; exact Bool.false_ne_true)⟩
  | succ n ih => exact ⟨ih.1, congrArg (0x31 :: ·) ih.2⟩

lemma sample_reads : samplePlatform.Reads where
  hex := sample_hex
  opens doc := ⟨_, rfl⟩
  oneLine doc hm := by
    rcases List.mem_cons.mp hm with e | hm
    · exact absurd e (by decide)
    · rcases List.mem_append.mp hm with hm | hm
      · exact absurd (List.eq_of_mem_replicate hm) (by decide)
      · exact absurd (List.mem_singleton.mp hm) (by decide)
  read doc rest := by
    obtain ⟨h1, h2⟩ := dropWhile_replicate (Encodable.encode doc) 0x7D rest (by decide)
    have e : sampleWrite doc ++ rest =
        0x7B :: (List.replicate (Encodable.encode doc) 0x31 ++ 0x7D :: rest) := by
      rw [sampleWrite, List.cons_append, List.append_assoc]
      rfl
    show sampleRead (sampleWrite doc ++ rest) = _
    rw [e, sampleRead, h1, h2, if_pos ⟨rfl, rfl⟩, List.length_replicate, Encodable.encodek,
      readBack_sample]
    rfl
  suffix f := by
    cases f with
    | nil => exact List.suffix_rfl
    | cons b f =>
      have h := (List.dropWhile_suffix (l := f) (p := (· = 0x31))).trans (List.suffix_cons b f)
      show (sampleRead (b :: f)).2 <:+ _
      unfold sampleRead
      dsimp only
      split
      next => exact (List.tail_suffix _).trans h
      next => exact h
  cut doc n hn hlt := by
    obtain ⟨n, rfl⟩ := Nat.exists_eq_succ_of_ne_zero hn
    have hle : n ≤ (List.replicate (Encodable.encode doc) (0x31 : UInt8)).length := by
      have hlt : n + 1 < (sampleWrite doc).length := hlt
      rw [sampleWrite, List.length_cons, List.length_append, List.length_singleton] at hlt
      omega
    have e : (sampleWrite doc).take (n + 1) =
        0x7B :: (List.replicate (Encodable.encode doc) 0x31).take n := by
      rw [sampleWrite, List.take_succ_cons, List.take_append_of_le_length hle]
    have hd : ((List.replicate (Encodable.encode doc) (0x31 : UInt8)).take n).dropWhile
        (· = 0x31) = [] :=
      List.dropWhile_eq_nil_iff.mpr fun b hb =>
        decide_eq_true (List.eq_of_mem_replicate (List.mem_of_mem_take hb))
    show (sampleRead ((sampleWrite doc).take (n + 1))).1 = none
    rw [e, sampleRead, hd, if_neg fun h => nomatch h.2]

/-- A message with a text. -/
def sampleRecord : MessageRecord := { peerHash := [7], content := ascii "hi" }

/-- A message that is queued and then fails, in a mailbox for one record. -/
def sampleEvents : List Event :=
  [.append { sampleRecord with status := .queued } .whole none,
    .mutateBySeq 1 fun r => { r with status := .failed },
    .append sampleRecord .whole none]

lemma plain_sample {C : Codec} {seq : Nat} {status : OutboxStatus} (hC : C.number = id)
    (hseq : seq < 2 ^ 31) (hs : status ≠ .findingRoute) :
    Plain C { sampleRecord with seq, status, bodySize := 2 } where
  seq := hseq
  ts := congrFun hC 0
  bootEpoch := Nat.two_pow_pos 31
  receivedMs := Nat.two_pow_pos 31
  title := List.not_mem_nil
  content := show 0 ∉ ascii "hi" by decide
  bodySize := show (2 ≠ 0 ∨ _) ∧ 2 < 2 ^ 32 from ⟨.inl (by decide), by decide⟩
  status := hs
  commands := rfl
  customMeta := rfl
  stamp := ⟨rfl, rfl⟩
  attachments _ h := absurd h List.not_mem_nil

/-- The three events are ones that keep the spool, and leave one record. -/
lemma allowed_sample (P : Platform) (hP : P.number = id) :
    Allowed (LXMFInbox.step P) (fun s e => e.Kept P s) (emptyInbox 1 {}) sampleEvents ∧
      (sampleEvents.foldl (LXMFInbox.step P) (emptyInbox 1 {})).ring.map (·.seq) = [2] := by
  refine ⟨⟨⟨.inl rfl, ?_⟩, ?_, ⟨?_, ?_⟩, trivial⟩, rfl⟩
  · exact plain_sample hP (by decide) (by decide)
  · intro r hr
    obtain rfl := Option.some.inj hr
    exact plain_sample hP (by decide) (by decide)
  · exact cleanEnd_lines [_]
  · exact plain_sample hP (show 2 < 2 ^ 31 by decide) (by decide)

/-- What is left of a line takes the next one with it. -/
lemma load_cut {doc : Doc} (h : s.spool = (sampleWrite doc).take 1 ++ line samplePlatform r) :
    (s.load samplePlatform true).ring = [] := by
  generalize hf : line samplePlatform r = f at h
  have hread : sampleRead (0x7B :: f) = (none, f) := by
    rw [← hf]
    rfl
  have hskip : f.dropWhile (· ≠ 10) = [10] := by
    have hne : ∀ b ∈ samplePlatform.serialize (recordToDoc samplePlatform.toCodec r),
        decide (b ≠ 10) = true := fun b hb =>
      decide_eq_true fun e => sample_reads.oneLine _ (e ▸ hb)
    rw [← hf, line, List.dropWhile_append_of_pos hne]
    rfl
  have hdocs : loadSpool samplePlatform s.spool = [] := by
    have hstart : ((sampleWrite doc).take 1 ++ f).dropWhile isSpace = 0x7B :: f := rfl
    have hdes : samplePlatform.deserialize (0x7B :: f) = (none, f) := hread
    rw [h, loadSpool, loadLoop, hstart, if_neg (List.cons_ne_nil _ _), hdes]
    dsimp only
    rw [hskip]
    rfl
  unfold LXMFInbox.load
  rw [if_pos rfl]
  dsimp only
  rw [hdocs]
  rfl

/-- An append that was cut short, and one that was not. -/
lemma spool_cut (P : Platform) :
    let s := [.append sampleRecord (.short 1) none, .append sampleRecord .whole none].foldl
      (LXMFInbox.step P) (emptyInbox 1 {})
    ∃ doc r, s.spool = (P.serialize doc).take 1 ++ line P r ∧
      s.ring.map (·.content) = [ascii "hi"] :=
  ⟨_, _, rfl, rfl⟩

end URSupreme.Inbox
