import URSupreme.Lib.Files
import URSupreme.Storage.SdWriterOrder

/-!
# What the files hold

The card after all that was done to its files. A path with one-shot writes of one priority and no
stream: its file holds the committed writes, each put into what the ones before it have left, and of
the first one in line what is written so far.
-/

namespace URSupreme.SdWriter
open Lib

/-- What is done to a file, on the card. -/
def onCard (c : Files String Nat) : Nat × Mark → Files String Nat
  | (f, .opened path .truncate _) => c.create f path
  | (f, .opened path .appendSeek seekBack) => c.openBack f path seekBack
  | (f, .wrote bytes) => c.write f bytes
  | (_, .synced) => c
  | (_, .closed) => c

/-- The card. -/
def Writer.card (s : Writer) : Files String Nat := s.disk.foldl onCard {}

/-- What is left of the file when a write opens it. -/
def Write.opened (file : Bytes) (w : Write) : Bytes :=
  match w.op with
  | .truncate => []
  | .appendSeek => file

/-- Where a write starts in the file. -/
def Write.start (file : Bytes) (w : Write) : Nat :=
  match w.op with
  | .truncate => 0
  | .appendSeek => file.length - w.seekBack

/-- The file after a write. -/
def Write.apply (file : Bytes) (w : Write) : Bytes := writeAt (w.opened file) ⟨w.start file, w.data⟩

/-- The file that the committed writes leave. -/
def Ledger.file (l : Ledger) (p : String) (q : Nat) : Bytes :=
  ((on p q l.committed).map (·.2)).foldl Write.apply []

/-- How much of a one-shot job is written. -/
def Job.sent (j : Job) : Phase → Nat
  | .writing _ _ off => j.inoff + off
  | _ => j.inoff

def Job.write (j : Job) : Write := j.entry.2

/-- What of a write is done. -/
def Write.part (n : Nat) (w : Write) : Write := { w with data := w.data.take n }

def Job.Started (j : Job) : Prop := j.fd ≠ none ∨ j.inoff ≠ 0

/-- The streams in the table are known. -/
def Ledger.Streams (l : Ledger) : Prop :=
  ∀ k, (l.writer.jobs k).id ≠ 0 → (l.writer.jobs k).streaming = true →
    (l.writer.jobs k).path ∈ l.streams

/-- Only one-shot writes of one priority go to the path. -/
structure Sole (l : Ledger) (p : String) (q : Nat) : Prop where
  priority : ∀ x ∈ l.accepted, x.2.path = p → x.2.priority = q
  stream : p ∉ l.streams

/-- Each job that has a file open has one of its own, at its path. -/
structure Descriptors (s : Writer) : Prop where
  lt : ∀ k f, (s.jobs k).fd = some f → f < s.files
  apart : ∀ i k f, (s.jobs i).fd = some f → (s.jobs k).fd = some f → i = k
  pos : ∀ k f, (s.jobs k).fd = some f → ∃ n, s.card.pos f = some ((s.jobs k).path, n)

/-- The file of a path holds the committed writes and what is done of the one under way. -/
structure Filed (l : Ledger) (p : String) (q : Nat) : Prop where
  rest : (∀ k, l.writer.On p q k → ¬ (l.writer.jobs k).Started) →
    l.writer.card.content p = l.file p q
  mid : ∀ k, l.writer.On p q k → (l.writer.jobs k).Started → l.writer.card.content p =
    ((l.writer.jobs k).write.part ((l.writer.jobs k).sent (l.writer.view k))).apply (l.file p q)
  pos : ∀ k f, l.writer.On p q k → (l.writer.jobs k).fd = some f → l.writer.card.pos f =
    some (p, (l.writer.jobs k).write.start (l.file p q) +
      (l.writer.jobs k).sent (l.writer.view k))

variable {s s' : Writer} {l l' : Ledger} {e : Event} {j j' : Job} {i k : Fin MAX_JOBS}
  {ph ph' : Phase} {p : String} {q : Nat} {ms : List (Nat × Mark)} {w : Write} {file : Bytes}

/-! ### Descriptors -/

lemma card_append (h : s'.disk = s.disk ++ ms) : s'.card = ms.foldl onCard s.card := by
  unfold Writer.card
  rw [h, List.foldl_append]

/-- Marks that do nothing to what the files hold. -/
def Mark.still : Mark → Bool
  | .synced | .closed => true
  | _ => false

lemma foldl_still {c : Files String Nat} (h : ∀ x ∈ ms, x.2.still = true) :
    ms.foldl onCard c = c := by
  induction ms with
  | nil => rfl
  | cons x ms ih =>
    obtain ⟨f, m⟩ := x
    rw [List.foldl_cons, show onCard c (f, m) = c from ?_]
    · exact ih fun x hx => h x (List.mem_cons_of_mem _ hx)
    · have hm := h (f, m) List.mem_cons_self
      cases m with
      | synced => rfl
      | closed => rfl
      | opened => cases hm
      | wrote => cases hm

lemma card_closed (hd : s'.disk = s.disk ++ ms) (h : ∀ x ∈ ms, x.2 = Mark.closed) :
    s'.card = s.card := by
  rw [card_append hd]
  exact foldl_still fun x hx => by rw [h x hx]; rfl

lemma card_eq (hd : s'.disk = s.disk) : s'.card = s.card := by
  unfold Writer.card
  rw [hd]

lemma Descriptors.init : Descriptors {} := ⟨nofun, nofun, nofun⟩

/-- Files that are open stay where they are, or are closed. -/
lemma Descriptors.keep (h : Descriptors s)
    (hk : ∀ k, (s'.jobs k).fd = (s.jobs k).fd ∧ (s'.jobs k).path = (s.jobs k).path ∨
      (s'.jobs k).fd = none)
    (hf : s.files ≤ s'.files)
    (hpos : ∀ k f n, (s.jobs k).fd = some f → s.card.pos f = some ((s.jobs k).path, n) →
      ∃ n', s'.card.pos f = some ((s.jobs k).path, n')) : Descriptors s' := by
  have hold : ∀ k f, (s'.jobs k).fd = some f →
      (s.jobs k).fd = some f ∧ (s'.jobs k).path = (s.jobs k).path := fun k f hfd => by
    rcases hk k with ⟨he, hp⟩ | he
    · exact ⟨he.symm.trans hfd, hp⟩
    · cases he.symm.trans hfd
  refine ⟨fun k f hfd => (h.lt k f (hold k f hfd).1).trans_le hf, fun i k f hi hk =>
    h.apart i k f (hold i f hi).1 (hold k f hk).1, fun k f hfd => ?_⟩
  obtain ⟨hfd, hp⟩ := hold k f hfd
  obtain ⟨n, hn⟩ := h.pos k f hfd
  rw [hp]
  exact hpos k f n hfd hn

/-- One job gets other fields, and the card stays. -/
lemma Descriptors.update (h : Descriptors s) (hjobs : s'.jobs = Function.update s.jobs i j)
    (hj : j.fd = (s.jobs i).fd ∧ j.path = (s.jobs i).path ∨ j.fd = none) (hf : s'.files = s.files)
    (hc : s'.card = s.card) : Descriptors s' := by
  refine h.keep (fun k => ?_) hf.ge fun k f n _ hn => ⟨n, hc ▸ hn⟩
  rw [hjobs]
  by_cases hki : k = i
  · subst hki
    rw [Function.update_self]
    exact hj
  · rw [Function.update_of_ne hki]
    exact .inl ⟨rfl, rfl⟩

/-- What a turn does to the file of a job: nothing, or it opens it, or it writes to it. -/
inductive Touched (files : Nat) (j : Job) (ph : Phase) (j' : Job) (ph' : Phase) :
    List (Nat × Mark) → Prop where
  | still {ms : List (Nat × Mark)} : (∀ x ∈ ms, x.2.still = true) → (j'.fd = j.fd ∨ j'.fd = none) →
      (j.Shot → Plain j ph → j'.sent ph' = j.sent ph ∧ (j'.Started ↔ j.Started)) →
      Touched files j ph j' ph' ms
  | opened : j.aborting = false → j.fd = none → j'.fd = some files → (∃ i, ph = .picked i) →
      (∃ i, ph' = .opened i) → j'.inoff = j.inoff →
      Touched files j ph j' ph' [(files, .opened j.path j.op j.seekBack)]
  | wrote {bytes : Bytes} : j'.fd = j.fd →
      (j.Shot → Plain j ph → j.fd ≠ none ∧ j'.sent ph' = j.sent ph + bytes.length ∧
        bytes = (j.inbuf.drop (j.sent ph)).take bytes.length) →
      Touched files j ph j' ph' (j.fd.toList.map fun fd => (fd, .wrote bytes))

/-- A piece of a chunk is the next piece of the job. -/
lemma piece_of_chunk {src : Bytes} {off n : Nat} (h : src = (j.inbuf.drop j.inoff).take SCRATCH) :
    (src.drop off).take n =
      (j.inbuf.drop (j.inoff + off)).take ((src.drop off).take n).length := by
  have he : (src.drop off).take n = (j.inbuf.drop (j.inoff + off)).take
    (min n (SCRATCH - off)) := by
    rw [h, List.drop_take, List.drop_drop, List.take_take]
  rw [he, List.length_take]
  exact List.take_eq_take_min

lemma Turn.touched {files : Nat} {data data' : Bytes}
    (h : Turn files i j data true ph j' data' ph' ms) : Touched files j ph j' ph' ms := by
  have hnil : ∀ x ∈ ([] : List (Nat × Mark)), x.2.still = true := nofun
  cases h with
  | gaveUp => exact .still hnil (.inl rfl) fun _ _ => ⟨rfl, Iff.rfl⟩
  | reopened => exact .still hnil (.inl rfl) fun _ _ => ⟨rfl, Iff.rfl⟩
  | opened ha hfd => exact .opened ha hfd rfl ⟨_, rfl⟩ ⟨_, rfl⟩ rfl
  | drained hst => exact .still hnil (.inl rfl) fun hs _ => absurd hs (not_shot_of_streaming hst)
  | nothing hst => exact .still hnil (.inl rfl) fun _ _ => ⟨rfl, Iff.rfl⟩
  | took => exact .still hnil (.inl rfl) fun _ _ => ⟨rfl, Iff.rfl⟩
  | tookNone => exact .still hnil (.inl rfl) fun _ _ => ⟨rfl, Iff.rfl⟩
  | ends => exact .still hnil (.inl rfl) fun _ _ => ⟨rfl, Iff.rfl⟩
  | waits => exact .still hnil (.inl rfl) fun _ _ => ⟨rfl, Iff.rfl⟩
  | part hn hlt =>
    exact .wrote rfl fun _ hp => ⟨hp.at_.1, (Nat.add_assoc ..).symm, piece_of_chunk hp.at_.2.1⟩
  | chunk hn hle =>
    refine .wrote rfl fun hs hp => ⟨hp.at_.1, ?_, piece_of_chunk hp.at_.2.1⟩
    exact (if_neg (by rw [hs.2]; exact Bool.false_ne_true)).trans (Nat.add_assoc ..).symm
  | finished => exact .still hnil (.inl rfl) fun _ _ => ⟨rfl, Iff.rfl⟩
  | unfinished => exact .still hnil (.inl rfl) fun _ _ => ⟨rfl, Iff.rfl⟩
  | synced =>
    refine .still (fun x hx => ?_) (.inl rfl) fun _ _ => ⟨rfl, Iff.rfl⟩
    obtain ⟨f, -, rfl⟩ := List.mem_map.mp hx
    rfl
  | closed =>
    refine .still (fun x hx => ?_) (.inr rfl) fun _ hp => ⟨rfl, ?_⟩
    · obtain ⟨f, -, rfl⟩ := List.mem_map.mp hx
      rfl
    · -- all of it is written, and that is something
      have hne : j.inoff ≠ 0 := by
        rw [hp.at_.2]
        exact fun h => hp.full (List.eq_nil_of_length_eq_zero h)
      exact iff_of_true (.inr hne) (.inr hne)

lemma Turn.path {files : Nat} {data data' : Bytes} {ok : Bool}
    (h : Turn files i j data ok ph j' data' ph' ms) : j'.path = j.path := by
  cases h with
  | _ => rfl

/-- A write to the file of a job. -/
lemma card_wrote {fd : Option Nat} {bytes : Bytes}
    (hd : s'.disk = s.disk ++ fd.toList.map fun fd => (fd, Mark.wrote bytes)) :
    (fd = none ∧ s'.card = s.card) ∨ ∃ f, fd = some f ∧ s'.card = s.card.write f bytes := by
  have hc := card_append hd
  cases fd with
  | none => exact .inl ⟨rfl, hc⟩
  | some f => exact .inr ⟨f, rfl, hc⟩

/-- The file of a job is opened. -/
lemma onCard_opened (c : Files String Nat) (f : Nat) (j : Job) :
    onCard c (f, .opened j.path j.op j.seekBack) =
      { content := Function.update c.content j.path (j.write.opened (c.content j.path))
        pos := Function.update c.pos f (some (j.path, j.write.start (c.content j.path))) } := by
  cases hop : j.op with
  | truncate =>
    have ho : j.write.op = .truncate := hop
    rw [Write.opened, Write.start, ho]
    rfl
  | appendSeek =>
    have ho : j.write.op = .appendSeek := hop
    rw [Write.opened, Write.start, ho]
    dsimp only
    rw [Function.update_eq_self]
    rfl

/-- Every step keeps the descriptors apart. -/
lemma Descriptors.did {acc com : List (Nat × Write)} {str : List String} (h : Descriptors s)
    (hd : Did s s' acc com str) : Descriptors s' := by
  have hleft : ∀ {s₁}, Left s s₁ → Descriptors s₁ := fun {s₁} hl => by
    obtain ⟨ms, hdk, hms⟩ := hl.disk
    refine h.keep (fun k => (hl.jobs k).file.imp_right And.left) hl.files.ge
      fun k f n _ hn => ⟨n, ?_⟩
    rw [card_closed hdk hms]
    exact hn
  cases hd with
  | leaves hl => exact hleft hl
  | opens hi hst hfd hjobs hp hn hf hdk => exact h.update hjobs (.inr hfd) hf (card_eq hdk)
  | accepts hi hid hst hpl hfd hbefore hjobs hp hn hf hdk =>
    exact h.update hjobs (.inr hfd) hf (card_eq hdk)
  | picks hl hp hbest hjobs hp' hn hf hdk =>
    exact (hleft hl).update hjobs (.inl ⟨rfl, rfl⟩) hf (card_eq hdk)
  | goes hp hjobs hp' hn hf hdk => exact h.update hjobs (.inl ⟨rfl, rfl⟩) hf (card_eq hdk)
  | ends hp hjobs hid hst hfd hpath hp' hn hf hdk hms =>
    exact h.update hjobs (hfd.imp_left fun he => ⟨he, hpath⟩) hf (card_closed hdk hms)
  | @turns _ i j' data' ph' ms ht hn hf =>
    have hpath := ht.turn.path
    have hdk := ht.disk
    cases ht.turn.touched with
    | still hms hfd =>
      refine h.keep (fun k => ?_) ht.files.1 fun k f n _ hn => ⟨n, ?_⟩
      · rw [ht.jobs]
        exact setJob_all (P := fun a b => b.fd = a.fd ∧ b.path = a.path ∨ b.fd = none)
          (fun _ => .inl ⟨rfl, rfl⟩) (hfd.imp_left fun he => ⟨he, hpath⟩) k
      · rw [card_append hdk, foldl_still hms]
        exact hn
    | wrote hfd =>
      refine h.keep (fun k => ?_) ht.files.1 fun k f n _ hn => ?_
      · rw [ht.jobs]
        exact setJob_all (P := fun a b => b.fd = a.fd ∧ b.path = a.path ∨ b.fd = none)
          (fun _ => .inl ⟨rfl, rfl⟩) (.inl ⟨hfd, hpath⟩) k
      · rcases card_wrote hdk with ⟨-, hc⟩ | ⟨f', -, hc⟩
        · rw [hc]
          exact ⟨n, hn⟩
        · rw [hc]
          exact Files.pos_write hn
    | opened ha hnone hfd hph =>
      obtain ⟨b, hph⟩ := hph
      have hb : b = i := by
        have hs := ht.turn.slot.1
        rw [hph] at hs
        exact Option.some.inj hs
      subst hb
      have hlt := hf hph ha hnone
      have hself : (s'.jobs b).fd = some s.files := by rw [ht.jobs, Function.update_self, hfd]
      have hother : ∀ k ≠ b, s'.jobs k = s.jobs k := fun k hk => by
        rw [ht.jobs, Function.update_of_ne hk]
      have hold : ∀ k ≠ b, ∀ f, (s'.jobs k).fd = some f → (s.jobs k).fd = some f ∧ f < s.files :=
        fun k hk f hkf => by
          rw [hother k hk] at hkf
          exact ⟨hkf, h.lt k f hkf⟩
      have hnew : ∀ k ≠ b, (s'.jobs k).fd ≠ some s.files := fun k hk hkf =>
        absurd (hold k hk _ hkf).2 (lt_irrefl _)
      have hc : s'.card = onCard s.card (s.files, .opened _ _ _) := card_append hdk
      rw [onCard_opened] at hc
      refine ⟨fun k f hkf => ?_, fun x k f hx hkf => ?_, fun k f hkf => ?_⟩
      · by_cases hk : k = b
        · subst hk
          rw [← Option.some.inj (hself.symm.trans hkf)]
          exact hlt
        · exact (hold k hk f hkf).2.trans hlt
      · by_cases hx' : x = b
        · subst hx'
          rw [← Option.some.inj (hself.symm.trans hx)] at hkf
          exact by_contra fun hk => hnew k (Ne.symm hk) hkf
        · by_cases hk : k = b
          · subst hk
            rw [← Option.some.inj (hself.symm.trans hkf)] at hx
            exact absurd hx (hnew x hx')
          · exact h.apart x k f (hold x hx' f hx).1 (hold k hk f hkf).1
      · rw [hc]
        dsimp only
        by_cases hk : k = b
        · subst hk
          rw [← Option.some.inj (hself.symm.trans hkf), Function.update_self, ht.jobs,
            Function.update_self, hpath]
          exact ⟨_, rfl⟩
        · obtain ⟨hkf, hlt⟩ := hold k hk f hkf
          rw [Function.update_of_ne hlt.ne, hother k hk]
          exact h.pos k f hkf

/-- A turn does something to the file of its own job at most. -/
lemma Turned.elsewhere {data' : Bytes} (h : Descriptors s)
    (ht : Turned s s' i true j' data' ph' ms) :
    (∀ p ≠ (s.jobs i).path, s'.card.content p = s.card.content p) ∧
      ∀ k ≠ i, ∀ f, (s.jobs k).fd = some f → s'.card.pos f = s.card.pos f := by
  have hdk := ht.disk
  cases ht.turn.touched with
  | still hms =>
    have hc : s'.card = s.card := (card_append hdk).trans (foldl_still hms)
    rw [hc]
    exact ⟨fun _ _ => rfl, fun _ _ _ _ => rfl⟩
  | opened ha hnone hfd hph =>
    have hc : s'.card = onCard s.card (s.files, .opened _ _ _) := card_append hdk
    rw [hc, onCard_opened]
    refine ⟨fun p hp => Function.update_of_ne hp _ _, fun k hk f hf => ?_⟩
    exact Function.update_of_ne (h.lt k f hf).ne _ _
  | wrote hfd =>
    rcases card_wrote hdk with ⟨-, hc⟩ | ⟨f', hf', hc⟩
    · rw [hc]
      exact ⟨fun _ _ => rfl, fun _ _ _ _ => rfl⟩
    · obtain ⟨n, hn⟩ := h.pos i f' hf'
      obtain ⟨-, -, hcont, hpos⟩ := Files.write_at _ hn
      rw [hc]
      refine ⟨hcont, fun k hk f hf => hpos f fun he => hk ?_⟩
      rw [he] at hf
      exact h.apart k i f' hf hf'

/-! ### The streams -/

lemma streams_init : Ledger.Streams {} := fun _ h => absurd rfl h

/-- A slot with a stream held it before the step. -/
lemma streams_keep (h : l.Streams) (hsub : l.streams ⊆ l'.streams)
    (hk : ∀ k, (l'.writer.jobs k).id ≠ 0 → (l'.writer.jobs k).streaming = true →
      (l'.writer.jobs k).path ∈ l'.streams ∨ (l.writer.jobs k).id ≠ 0 ∧
        (l.writer.jobs k).streaming = true ∧ (l'.writer.jobs k).path = (l.writer.jobs k).path) :
    l'.Streams := by
  intro k hid hst
  rcases hk k hid hst with hp | ⟨hid, hst, hp⟩
  · exact hp
  · rw [hp]
    exact hsub (h k hid hst)

/-- One slot gets another job. -/
lemma streams_update (h : l.Streams) (hsub : l.streams ⊆ l'.streams)
    (hjobs : l'.writer.jobs = Function.update l.writer.jobs i j')
    (hi : j'.id ≠ 0 → j'.streaming = true → j'.path ∈ l'.streams ∨ (l.writer.jobs i).id ≠ 0 ∧
        (l.writer.jobs i).streaming = true ∧ j'.path = (l.writer.jobs i).path) : l'.Streams := by
  refine streams_keep h hsub fun k hid hst => ?_
  rw [hjobs] at hid hst ⊢
  by_cases hki : k = i
  · subst hki
    rw [Function.update_self] at hid hst ⊢
    exact hi hid hst
  · rw [Function.update_of_ne hki] at hid hst ⊢
    exact .inr ⟨hid, hst, rfl⟩

lemma streams_left (h : l.Streams) (hs : Left l.writer l'.writer) (hstr : l'.streams = l.streams) :
    l'.Streams := by
  refine streams_keep h (fun _ hp => hstr ▸ hp) fun k hid hst => ?_
  have hk := hs.jobs k
  have hnot : ¬ (l.writer.jobs k).Shot := fun hshot => by
    obtain ⟨_, _, _, he⟩ := hk.shot hshot
    rw [he] at hst
    exact not_shot_of_streaming hst hshot
  obtain ⟨hid', hp⟩ := hk.live.resolve_right hid
  rw [hid'] at hid
  exact .inr ⟨hid, Bool.eq_true_of_not_eq_false fun hf => hnot ⟨hid, hf⟩, hp⟩

/-- Every step keeps track of the streams. -/
lemma streams_did {acc com : List (Nat × Write)} {str : List String} (h : l.Streams)
    (hh : Held l.writer) (hd : Did l.writer s' acc com str) (hw : l'.writer = s')
    (hstr : l'.streams = l.streams ++ str) : l'.Streams := by
  have hsub : l.streams ⊆ l'.streams := fun p hp => hstr ▸ List.mem_append_left _ hp
  cases hd with
  | leaves hl => exact streams_left h (hw ▸ hl) (hstr.trans (List.append_nil _))
  | opens hi hst hfd hjobs =>
    refine streams_update h hsub (hw ▸ hjobs) fun _ _ => .inl ?_
    rw [hstr]
    exact List.mem_append_right _ (List.mem_singleton_self _)
  | accepts hi hid hst hpl hfd hbefore hjobs =>
    exact streams_update h hsub (hw ▸ hjobs) fun _ hst' =>
      absurd (hst.symm.trans hst') Bool.false_ne_true
  | @picks s₁ _ i rrTick hl hp hbest hjobs =>
    have h₁ : Ledger.Streams { l with writer := s₁ } := streams_left h hl rfl
    have hjobs : l'.writer.jobs = Function.update s₁.jobs i
        { s₁.jobs i with servicing := true, rrTick } := hw ▸ hjobs
    exact streams_update h₁ hsub hjobs fun hid hst => .inr ⟨hid, hst, rfl⟩
  | @turns _ i j' _ _ _ ht =>
    obtain ⟨hid, hst⟩ := ht.turn.kind
    have hjobs := ht.jobs
    refine streams_update h hsub (hw ▸ hjobs) fun hid' hst' => .inr ?_
    rw [hid] at hid'
    exact ⟨hid', hst.symm.trans hst', ht.turn.path⟩
  | @goes _ i hp hjobs =>
    have hjobs : l'.writer.jobs = Function.update l.writer.jobs i
        { l.writer.jobs i with servicing := false } := hw ▸ hjobs
    exact streams_update h hsub hjobs fun hid hst => .inr ⟨hid, hst, rfl⟩
  | ends hp hjobs hid hst hfd hpath =>
    have hbusy := (hh.busy _ (congrArg Phase.slot hp)).1
    exact streams_update h hsub (hw ▸ hjobs) fun _ hst' =>
      .inr ⟨hbusy, hst.symm.trans hst', hpath⟩

/-! ### The content -/

lemma Ordered.entry_mem (h : Ordered l) (hk : (l.writer.jobs k).Shot) :
    (l.writer.jobs k).entry ∈ l.accepted := by
  obtain ⟨ks, hl⟩ := h.line (l.writer.jobs k).path (l.writer.jobs k).priority
  have hmem : k ∈ ks := (hl.mem k).mpr ⟨hk, rfl, rfl⟩
  have he : (l.writer.jobs k).entry ∈
      on (l.writer.jobs k).path (l.writer.jobs k).priority l.accepted := by
    rw [hl.booked]
    exact List.mem_append_right _ (List.mem_map_of_mem hmem)
  exact List.mem_of_mem_filter he

/-- Each job at such a path is in its line. -/
lemma Sole.on (h : Sole l p q) (ho : Ordered l) (hs : l.Streams) (hid : (l.writer.jobs k).id ≠ 0)
    (hp : (l.writer.jobs k).path = p) : l.writer.On p q k := by
  have hst : (l.writer.jobs k).streaming = false := Bool.eq_false_of_not_eq_true fun hst =>
    h.stream (hp ▸ hs k hid hst)
  exact ⟨⟨hid, hst⟩, hp, h.priority _ (ho.entry_mem ⟨hid, hst⟩) hp⟩

/-- Those behind in the line are not started. -/
lemma Line.behind {ks : List (Fin MAX_JOBS)} (h : Line l p q ks) (ho : Ordered l)
    (hk : k ∈ ks.tail) : ¬ (l.writer.jobs k).Started := by
  have hfd := h.later k hk
  have hpl := (ho.plain k ((h.mem k).mp (List.mem_of_mem_tail hk)).1).at_
  have hview : l.writer.view k = .parked := if_neg (h.not_slot hk)
  rw [hview] at hpl
  exact fun hs => hs.elim (absurd hfd) (absurd (hpl hfd))

/-- Only one job of a line is under way. -/
lemma Ordered.unstarted (h : Ordered l) (hi : l.writer.On p q i)
    (hs : (l.writer.jobs i).Started ∨ l.writer.phase.slot = some i) (hk : l.writer.On p q k)
    (hne : k ≠ i) : ¬ (l.writer.jobs k).Started := by
  obtain ⟨ks, hl⟩ := h.line p q
  have hik : i ∉ ks.tail := fun ht => hs.elim (hl.behind h ht) (hl.not_slot ht)
  have hi := (hl.mem i).mpr hi
  have hk := (hl.mem k).mpr hk
  refine hl.behind h ?_
  cases ks with
  | nil => cases hi
  | cons a ks =>
    obtain rfl := (List.mem_cons.mp hi).resolve_right hik
    exact (List.mem_cons.mp hk).resolve_left hne

lemma sent_le (h : Plain j ph) : j.sent ph ≤ j.inbuf.length := by
  have hle := h.le
  cases ph with
  | writing i src off =>
    obtain ⟨-, hsrc, hoff⟩ := h.at_
    have hlen := congrArg List.length hsrc
    rw [List.length_take, List.length_drop] at hlen
    change j.inoff + off ≤ _
    omega
  | _ => exact hle

lemma part_zero : (w.part 0).apply file = w.opened file := by
  change writeAt (w.opened file) ⟨_, w.data.take 0⟩ = _
  rw [List.take_zero]
  exact if_pos rfl

lemma part_all : w.part w.data.length = w := by
  unfold Write.part
  rw [List.take_length]

/-- The next piece of a write. -/
lemma part_append {n : Nat} {bytes : Bytes} (hn : n ≤ w.data.length)
    (hb : bytes = (w.data.drop n).take bytes.length) :
    writeAt ((w.part n).apply file) ⟨w.start file + n, bytes⟩ =
      (w.part (n + bytes.length)).apply file := by
  have hlen : (w.data.take n).length = n := List.length_take_of_le hn
  have happ := @writeAt_append (w.opened file) (w.data.take n) bytes (w.start file)
  rw [hlen] at happ
  have htake : w.data.take (n + bytes.length) = w.data.take n ++ bytes := by
    rw [List.take_add, ← hb]
  have hpart : (w.part (n + bytes.length)).apply file =
      writeAt (w.opened file) ⟨w.start file, w.data.take (n + bytes.length)⟩ := rfl
  rw [hpart, htake]
  exact happ

/-- A started job that is as it was. -/
structure Same (s s' : Writer) (p : String) (q : Nat) (k : Fin MAX_JOBS) : Prop where
  on : s.On p q k
  started : (s.jobs k).Started
  write : (s'.jobs k).write = (s.jobs k).write
  sent : (s'.jobs k).sent (s'.view k) = (s.jobs k).sent (s.view k)
  fd : (s'.jobs k).fd = (s.jobs k).fd ∨ (s'.jobs k).fd = none

/-- A step that does nothing to the file. -/
lemma Filed.keep (h : Filed l p q) (hfile : l'.file p q = l.file p q)
    (hcont : l'.writer.card.content p = l.writer.card.content p)
    (hpos : ∀ k f, l.writer.On p q k → (l.writer.jobs k).fd = some f →
      l'.writer.card.pos f = l.writer.card.pos f)
    (hnew : ∀ k, l'.writer.On p q k → (l'.writer.jobs k).Started → Same l.writer l'.writer p q k)
    (hold : ∀ k, l.writer.On p q k → (l.writer.jobs k).Started →
      l'.writer.On p q k ∧ (l'.writer.jobs k).Started) : Filed l' p q := by
  refine ⟨fun hn => ?_, fun k hk hs => ?_, fun k f hk hf => ?_⟩
  · rw [hcont, hfile]
    exact h.rest fun k hk hs => hn k (hold k hk hs).1 (hold k hk hs).2
  · have hs := hnew k hk hs
    rw [hcont, hfile, hs.write, hs.sent]
    exact h.mid k hs.on hs.started
  · have hs := hnew k hk (.inl (by rw [hf]; nofun))
    have hf : (l.writer.jobs k).fd = some f := by
      rcases hs.fd with he | he
      · exact he.symm.trans hf
      · cases he.symm.trans hf
    rw [hpos k f hs.on hf, hfile, hs.write, hs.sent]
    exact h.pos k f hs.on hf

/-- Only one slot changes, and nothing is done to the file. -/
lemma Filed.slot (h : Filed l p q) (hfile : l'.file p q = l.file p q)
    (hcont : l'.writer.card.content p = l.writer.card.content p)
    (hpos : ∀ k f, l.writer.On p q k → (l.writer.jobs k).fd = some f →
      l'.writer.card.pos f = l.writer.card.pos f)
    (hsame : ∀ k ≠ i, l'.writer.jobs k = l.writer.jobs k ∧ l'.writer.view k = l.writer.view k)
    (hnew : l'.writer.On p q i → (l'.writer.jobs i).Started → Same l.writer l'.writer p q i)
    (hold : l.writer.On p q i → (l.writer.jobs i).Started →
      l'.writer.On p q i ∧ (l'.writer.jobs i).Started) : Filed l' p q := by
  refine h.keep hfile hcont hpos (fun k hk hs => ?_) fun k hk hs => ?_
  · by_cases hki : k = i
    · subst hki
      exact hnew hk hs
    · obtain ⟨hj, hv⟩ := hsame k hki
      unfold Writer.On at hk
      rw [hj] at hk hs
      exact ⟨hk, hs, by rw [hj], by rw [hj, hv], .inl (by rw [hj])⟩
  · by_cases hki : k = i
    · subst hki
      exact hold hk hs
    · unfold Writer.On
      rw [(hsame k hki).1]
      exact ⟨hk, hs⟩

/-- A job of the line is under way. -/
lemma Filed.under_way (ho : Ordered l) (hi : l.writer.On p q i) (hs : (l.writer.jobs i).Started)
    (hcont : l.writer.card.content p = ((l.writer.jobs i).write.part
      ((l.writer.jobs i).sent (l.writer.view i))).apply (l.file p q))
    (hpos : ∀ f, (l.writer.jobs i).fd = some f → l.writer.card.pos f =
      some (p, (l.writer.jobs i).write.start (l.file p q) +
        (l.writer.jobs i).sent (l.writer.view i))) : Filed l p q := by
  have hone : ∀ k, l.writer.On p q k → (l.writer.jobs k).Started → k = i := fun k hk hst =>
    by_contra fun hne => ho.unstarted hi (.inl hs) hk hne hst
  refine ⟨fun hn => absurd hs (hn i hi), fun k hk hst => ?_, fun k f hk hf => ?_⟩
  · obtain rfl := hone k hk hst
    exact hcont
  · obtain rfl := hone k hk (.inl (by rw [hf]; nofun))
    exact hpos f hf

lemma Filed.left (h : Filed l p q) (hs : Left l.writer l'.writer)
    (hcom : l'.committed = l.committed) : Filed l' p q := by
  have hfile : l'.file p q = l.file p q := by
    unfold Ledger.file
    rw [hcom]
  obtain ⟨ms, hdk, hms⟩ := hs.disk
  have hc := card_closed hdk hms
  have hview : ∀ k, l'.writer.view k = l.writer.view k := fun k => view_eq (.inl hs.phase)
  refine h.keep hfile (by rw [hc]) (fun _ _ _ _ => by rw [hc])
    (fun k hk hst => ?_) fun k hk hst => ?_
  · have hshot : (l.writer.jobs k).Shot := by_contra fun hn => (hs.jobs k).other hn hk.1
    obtain ⟨_, _, _, he⟩ := (hs.jobs k).shot hshot
    unfold Writer.On at hk
    rw [he] at hk hst
    refine ⟨hk, hst, ?_, ?_, .inl ?_⟩
    · rw [he]
      rfl
    · rw [he, hview]
      rfl
    · rw [he]
  · obtain ⟨_, _, _, he⟩ := (hs.jobs k).shot hk.1
    unfold Writer.On
    rw [he]
    exact ⟨hk, hst⟩

/-- A turn of a job of the line. -/
lemma Filed.turn {data' : Bytes} (h : Filed l p q) (ho : Ordered l) (ho' : Ordered l')
    (ht : Turned l.writer l'.writer i true j' data' ph' ms)
    (hi : l.writer.On p q i) (hcom : l'.committed = l.committed) : Filed l' p q := by
  obtain ⟨hs, hs', -⟩ := ht.turn.slot
  have hfile : l'.file p q = l.file p q := by
    unfold Ledger.file
    rw [hcom]
  have hself : l'.writer.jobs i = j' := by rw [ht.jobs, Function.update_self]
  have hv : l.writer.view i = l.writer.phase := view_self hs
  have hv' : l'.writer.view i = ph' := (view_self (by rw [ht.phase]; exact hs')).trans ht.phase
  have hpl := ho.plain i hi.1
  rw [hv] at hpl
  have hm := ht.turn.moved hi.1.2 hpl
  have hwrite : (l'.writer.jobs i).write = (l.writer.jobs i).write := by
    rw [hself]
    exact congrArg Prod.snd hm.entry
  have hon : l'.writer.On p q i := by
    refine ⟨?_, (congrArg Write.path hwrite).trans hi.2.1,
      (congrArg Write.priority hwrite).trans hi.2.2⟩
    rw [hself, Job.Shot, hm.shot.1, hm.shot.2]
    exact hi.1
  have hdk := ht.disk
  cases ht.turn.touched with
  | still hms hfd hsent =>
    obtain ⟨hsent, hst⟩ := hsent hi.1 hpl
    have hc : l'.writer.card = l.writer.card := (card_append hdk).trans (foldl_still hms)
    refine h.slot hfile (by rw [hc]) (fun _ _ _ _ => by rw [hc]) (fun k hk => ?_) (fun _ hst' => ?_)
      fun _ hst' => ⟨hon, ?_⟩
    · refine ⟨by rw [ht.jobs, Function.update_of_ne hk], view_eq (.inr ?_)⟩
      rw [hs, ht.phase, hs']
      exact ⟨fun he => hk (Option.some.inj he).symm, fun he => hk (Option.some.inj he).symm⟩
    · rw [hself] at hst'
      refine ⟨hi, hst.mp hst', hwrite, ?_, ?_⟩
      · rw [hself, hv, hv', hsent]
      · rw [hself]
        exact hfd
    · rw [hself]
      exact hst.mpr hst'
  | opened ha hnone hfd hph hph' hin =>
    obtain ⟨_, hph⟩ := hph
    obtain ⟨_, rfl⟩ := hph'
    have hzero : (l.writer.jobs i).inoff = 0 := by
      have hat := hpl.at_
      rw [hph] at hat
      exact hat hnone
    -- nothing of the line has been started
    have hrest := h.rest fun k hk hst => by
      by_cases hki : k = i
      · subst hki
        exact hst.elim (absurd hnone) (absurd hzero)
      · exact ho.unstarted hi (.inr hs) hk hki hst
    have hc : l'.writer.card = onCard l.writer.card (l.writer.files, .opened _ _ _) :=
      card_append hdk
    rw [onCard_opened, hi.2.1, hrest] at hc
    have hsent : (l'.writer.jobs i).sent (l'.writer.view i) = 0 := by
      rw [hself, hv']
      exact hin.trans hzero
    refine .under_way ho' hon (.inl (by simp [hself, hfd])) ?_ fun f hf => ?_
    · rw [hsent, hfile, hwrite, part_zero, hc]
      exact Function.update_self ..
    · rw [hself, hfd] at hf
      obtain rfl := Option.some.inj hf
      rw [hsent, hfile, hwrite, hc]
      exact Function.update_self ..
  | @wrote bytes hfd hb =>
    obtain ⟨hne, hsent, hb⟩ := hb hi.1 hpl
    rcases card_wrote hdk with ⟨hnone, -⟩ | ⟨f, hf, hc⟩
    · exact absurd hnone hne
    have hst : (l.writer.jobs i).Started := .inl hne
    have hpos := h.pos i f hi hf
    have hmid := h.mid i hi hst
    rw [hv] at hpos hmid
    obtain ⟨hcont, hpos', -, -⟩ := Files.write_at bytes hpos
    have hsent' : (l'.writer.jobs i).sent (l'.writer.view i) =
        (l.writer.jobs i).sent l.writer.phase + bytes.length := by
      rw [hself, hv', hsent]
    refine .under_way ho' hon (.inl (by rw [hself, hfd]; exact hne)) ?_ fun f' hf' => ?_
    · rw [hsent', hfile, hwrite, hc, hcont, hmid]
      exact part_append (sent_le hpl) hb
    · rw [hself, hfd, hf] at hf'
      obtain rfl := Option.some.inj hf'
      rw [hsent', hfile, hwrite, hc, hpos', Nat.add_assoc]

/-- The first of the line is committed. -/
lemma Filed.settle (h : Filed l p q) (ho : Ordered l) (hp : l.writer.phase = .leaving i true)
    (hi : l.writer.On p q i) (hjobs : l'.writer.jobs = Function.update l.writer.jobs i j')
    (hj : j'.id = 0) (hdk : l'.writer.disk = l.writer.disk ++ ms)
    (hms : ∀ x ∈ ms, x.2 = Mark.closed)
    (hcom : l'.committed = l.committed ++ [(l.writer.jobs i).entry]) : Filed l' p q := by
  have hs : l.writer.phase.slot = some i := congrArg Phase.slot hp
  have hpl := ho.plain i hi.1
  rw [view_self hs, hp] at hpl
  obtain ⟨-, hall⟩ := hpl.at_
  have hst : (l.writer.jobs i).Started := .inr fun h0 =>
    hpl.full (List.eq_nil_of_length_eq_zero (hall.symm.trans h0))
  -- all of it is written
  have hsent : (l.writer.jobs i).sent (l.writer.view i) = (l.writer.jobs i).write.data.length := by
    rw [view_self hs, hp]
    exact hall
  have hmid := h.mid i hi hst
  rw [hsent, part_all] at hmid
  have hfile : l'.file p q = (l.writer.jobs i).write.apply (l.file p q) := by
    unfold Ledger.file
    rw [hcom, on_append, on_entry, if_pos ⟨hi.2.1, hi.2.2⟩, List.map_append, List.foldl_append]
    rfl
  have hnone : ∀ k, l'.writer.On p q k → ¬ (l'.writer.jobs k).Started := fun k hk => by
    by_cases hki : k = i
    · subst hki
      unfold Writer.On at hk
      rw [hjobs, Function.update_self] at hk
      exact absurd hj hk.1.1
    · unfold Writer.On at hk
      rw [hjobs, Function.update_of_ne hki] at hk ⊢
      exact ho.unstarted hi (.inr hs) hk hki
  refine ⟨fun _ => ?_, fun k hk hst => absurd hst (hnone k hk), fun k f hk hf => ?_⟩
  · rw [card_closed hdk hms, hfile]
    exact hmid
  · exact absurd (.inl (by rw [hf]; nofun)) (hnone k hk)

/-- A slot that is not in the line. -/
lemma Filed.off (h : Filed l p q) (hi : ¬ l.writer.On p q i) (hi' : ¬ l'.writer.On p q i)
    (hfile : l'.file p q = l.file p q)
    (hcont : l'.writer.card.content p = l.writer.card.content p)
    (hpos : ∀ k ≠ i, ∀ f, (l.writer.jobs k).fd = some f →
      l'.writer.card.pos f = l.writer.card.pos f)
    (hjobs : l'.writer.jobs = Function.update l.writer.jobs i j')
    (hview : ∀ k ≠ i, l'.writer.view k = l.writer.view k) : Filed l' p q :=
  h.slot hfile hcont (fun k f hk hf => hpos k (fun he => hi (he ▸ hk)) f hf)
    (fun k hk => ⟨by rw [hjobs, Function.update_of_ne hk], hview k hk⟩) (fun hn => absurd hn hi')
    fun hn => absurd hn hi

/-- The task takes a job or leaves it. -/
lemma Filed.marked {servicing : Bool} {rrTick : Nat} (h : Filed l p q)
    (hcom : l'.committed = l.committed) (hc : l'.writer.card = l.writer.card)
    (hjobs : l'.writer.jobs = Function.update l.writer.jobs i
      { l.writer.jobs i with servicing, rrTick })
    (hview : ∀ k ≠ i, l'.writer.view k = l.writer.view k)
    (hsent : (l.writer.jobs i).sent (l'.writer.view i) =
      (l.writer.jobs i).sent (l.writer.view i)) : Filed l' p q := by
  have hself : l'.writer.jobs i = { l.writer.jobs i with servicing, rrTick } := by
    rw [hjobs, Function.update_self]
  have hfile : l'.file p q = l.file p q := by
    unfold Ledger.file
    rw [hcom]
  refine h.slot hfile (by rw [hc]) (fun _ _ _ _ => by rw [hc])
    (fun k hk => ⟨by rw [hjobs, Function.update_of_ne hk], hview k hk⟩) (fun hn hst => ?_)
    fun hn hst => ?_
  · unfold Writer.On at hn
    rw [hself] at hn hst
    refine ⟨hn, hst, ?_, ?_, .inl ?_⟩
    · rw [hself]
      rfl
    · rw [hself]
      exact hsent
    · rw [hself]
  · unfold Writer.On
    rw [hself]
    exact ⟨hn, hst⟩

/-- Every step keeps to what the file is to hold. -/
lemma Filed.did {acc com : List (Nat × Write)} {str : List String} (h : Filed l p q)
    (hh : Held l.writer) (ho : Ordered l) (ho' : Ordered l') (hd : Descriptors l.writer)
    (hst : l.Streams) (hsole : Sole l p q) (hdid : Did l.writer s' acc com str)
    (hw : l'.writer = s') (hcom : l'.committed = l.committed ++ com) : Filed l' p q := by
  have hfile (hcom : l'.committed = l.committed) : l'.file p q = l.file p q := by
    unfold Ledger.file
    rw [hcom]
  subst hw
  cases hdid with
  | leaves hl => exact h.left hl (hcom.trans (List.append_nil _))
  | @opens _ i j hi hstream hfd hjobs hp hn hf hdk =>
    have hc := card_eq hdk
    refine h.off (i := i) (fun hn => hn.1.1 hi) (fun hn => ?_)
      (hfile (hcom.trans (List.append_nil _))) (by rw [hc]) (fun _ _ _ _ => by rw [hc]) hjobs
      fun k _ => view_eq (.inl hp)
    unfold Writer.On at hn
    rw [hjobs, Function.update_self] at hn
    exact not_shot_of_streaming hstream hn.1
  | @accepts _ i j hi hid hone hpl hfd hbefore hjobs hp hn hf hdk =>
    have hc := card_eq hdk
    refine h.slot (i := i) (hfile (hcom.trans (List.append_nil _))) (by rw [hc])
      (fun _ _ _ _ => by rw [hc])
      (fun k hk => ⟨by rw [hjobs, Function.update_of_ne hk], view_eq (.inl hp)⟩) (fun _ hst => ?_)
      fun hn => absurd hi hn.1.1
    rw [hjobs, Function.update_self] at hst
    exact hst.elim (absurd hfd) (absurd (hpl.at_ hfd))
  | @picks s₁ _ i rrTick hl hp hbest hjobs hp' hn hf hdk =>
    have h₁ : Filed { l with writer := s₁ } p q := h.left hl rfl
    have hs' : l'.writer.phase.slot = some i := congrArg Phase.slot hp'
    have hv' : l'.writer.view i = .picked i := (view_self hs').trans hp'
    have hv : s₁.view i = .parked := view_parked hp
    refine h₁.marked (i := i) (hcom.trans (List.append_nil _)) (card_eq hdk) hjobs
      (fun k hk => view_eq (.inr ?_)) ?_
    · rw [hs', hp]
      exact ⟨nofun, fun he => hk (Option.some.inj he).symm⟩
    · dsimp only
      rw [hv', hv]
      rfl
  | @turns _ i j' data' ph' ms ht hn hf =>
    have hcom := hcom.trans (List.append_nil _)
    have hs := ht.turn.slot
    by_cases hi : l.writer.On p q i
    · exact h.turn ho ho' ht hi hcom
    · have hid := (hh.busy i hs.1).1
      have hpath : (l.writer.jobs i).path ≠ p := fun hp => hi (hsole.on ho hst hid hp)
      obtain ⟨hcont, hpos⟩ := ht.elsewhere hd
      refine h.off hi (fun hn => hpath ?_) (hfile hcom) (hcont p hpath.symm) hpos ht.jobs
        fun k hk => view_eq (.inr ?_)
      · unfold Writer.On at hn
        rw [ht.jobs, Function.update_self, ht.turn.path] at hn
        exact hn.2.1
      · rw [hs.1, ht.phase, hs.2.1]
        exact ⟨fun he => hk (Option.some.inj he).symm, fun he => hk (Option.some.inj he).symm⟩
  | @goes _ i hp hjobs hp' hn hf hdk =>
    have hs : l.writer.phase.slot = some i := congrArg Phase.slot hp
    have hv' : l'.writer.view i = .parked := view_parked hp'
    have hv : l.writer.view i = .leaving i false := (view_self hs).trans hp
    refine h.marked (i := i) (hcom.trans (List.append_nil _)) (card_eq hdk) hjobs
      (fun k hk => view_eq (.inr ?_)) ?_
    · rw [hs, hp']
      exact ⟨fun he => hk (Option.some.inj he).symm, nofun⟩
    · rw [hv', hv]
      rfl
  | @ends _ i j' ms hp hjobs hid hstream hfd hpath hp' hn hf hdk hms =>
    have hs : l.writer.phase.slot = some i := congrArg Phase.slot hp
    by_cases hi : l.writer.On p q i
    · rw [if_neg (by rw [hi.1.2]; exact Bool.false_ne_true)] at hcom
      exact h.settle ho hp hi hjobs (hid (ho.plain i hi.1).reaped) hdk hms hcom
    · have hbusy := (hh.busy i hs).1
      have hc := card_closed hdk hms
      have hne : (l.writer.jobs i).path ≠ p := fun hp => hi (hsole.on ho hst hbusy hp)
      have hfile : l'.file p q = l.file p q := by
        unfold Ledger.file
        rw [hcom, on_append]
        split
        next => rw [show on p q [] = [] from rfl, List.append_nil]
        next => rw [on_entry, if_neg fun hm => hne hm.1, List.append_nil]
      refine h.off hi (fun hn => hne ?_) hfile (by rw [hc]) (fun _ _ _ _ => by rw [hc]) hjobs
        fun k hk => view_eq (.inr ?_)
      · unfold Writer.On at hn
        rw [hjobs, Function.update_self, hpath] at hn
        exact hn.2.1
      · rw [hs, hp']
        exact ⟨fun he => hk (Option.some.inj he).symm, nofun⟩

/-! ### Runs -/

/-- What is kept over a run. -/
structure InOrder (l : Ledger) : Prop where
  held : Held l.writer
  ordered : Ordered l
  descriptors : Descriptors l.writer
  streams : l.Streams
  filed : ∀ p q, Sole l p q → Filed l p q

lemma InOrder.init : InOrder {} :=
  ⟨.init, .init, .init, streams_init, fun _ _ _ => ⟨fun _ => rfl, fun _ h => absurd rfl h.1.1,
    fun _ _ h => absurd rfl h.1.1⟩⟩

lemma InOrder.step (h : InOrder l) (hc : e.clean = true) (hok : Sound l.writer e) :
    InOrder (l.step e) := by
  have hd := did_step h.ordered.next hc hok
  have ho : Ordered (l.step e) := h.ordered.step h.held hc hok
  refine ⟨h.held.step, ho, h.descriptors.did hd, streams_did h.streams h.held hd rfl rfl,
    fun p q hs => ?_⟩
  have hs : Sole l p q := ⟨fun x hx => hs.priority x (List.mem_append_left _ hx),
    fun hp => hs.stream (List.mem_append_left _ hp)⟩
  exact (h.filed p q hs).did h.held h.ordered ho h.descriptors h.streams hs hd rfl rfl

/-- A run without an error whose writes are accepted behind those they have to wait for. -/
lemma InOrder.run {events : List Event} (h : InOrder l) (hc : ∀ e ∈ events, e.clean = true)
    (hok : Allowed Ledger.step (fun l e => Sound l.writer e) l events) :
    InOrder (events.foldl Ledger.step l) := by
  induction events generalizing l with
  | nil => exact h
  | cons e es ih =>
    exact ih (h.step (hc e List.mem_cons_self) hok.1) (fun e he => hc e (List.mem_cons_of_mem _ he))
      hok.2

/-- The committed writes are the first of the accepted ones. -/
lemma InOrder.committed (h : InOrder l) (p : String) (q : Nat) :
    on p q l.committed <+: on p q l.accepted := by
  obtain ⟨ks, hl⟩ := h.ordered.line p q
  exact ⟨_, hl.booked.symm⟩

/-- The task has nothing to do. -/
def Writer.Idle (s : Writer) : Prop := s.phase = .parked ∧ s.best = none

instance {s : Writer} : Decidable s.Idle := inferInstanceAs (Decidable (_ ∧ _))

lemma InOrder.no_shot (h : InOrder l) (hi : l.writer.Idle) : ¬ (l.writer.jobs k).Shot := fun hk =>
  best_ne_none ((h.ordered.plain k hk).ready hk) hi.2

/-- When the task has nothing to do, all that was accepted is committed and in the file. -/
lemma InOrder.idle (h : InOrder l) (hi : l.writer.Idle) (hs : Sole l p q) :
    l.writer.card.content p = ((on p q l.accepted).map (·.2)).foldl Write.apply [] := by
  obtain ⟨ks, hl⟩ := h.ordered.line p q
  have hks : ks = [] := List.eq_nil_iff_forall_not_mem.mpr fun k hk =>
    h.no_shot hi ((hl.mem k).mp hk).1
  rw [(h.filed p q hs).rest fun k hk => absurd hk.1 (h.no_shot hi), hl.booked, hks, List.map_nil,
    List.append_nil]
  rfl

end URSupreme.SdWriter
