import URSupreme.Lib.Bytes
import URSupreme.Lib.Table

/-!
# Migration of attachments

`Storage/Migration.h` moves the attachment files of all identities from internal flash to the card,
and `LXMFInbox::update_attachment_backends` then changes the backend that the records name. A file
is found by its path, which is the same on both stores. What the calls to the two file systems
return is given for each file: whether it can be opened, and how many bytes each read and each write
takes.
-/

namespace URSupreme.Migration
open Lib

/-- Directory and name. -/
abbrev Path := String × String

/-- The size of the copy buffer. -/
def BUF : Nat := 1024

/-- What one turn of the copy loop gets from `read` and from `write`. -/
structure Chunk where
  got : Nat
  wrote : Nat
  deriving DecidableEq, Repr

/-- What the calls made for one file return. -/
structure Calls where
  probe : Bool := true
  sdProbe : Bool := true
  src : Bool := true
  parents : Bool := true
  dst : Bool := true
  chunks : List Chunk := []
  deriving DecidableEq, Repr

/-- `AttachmentMeta`, as far as the migration reads it. -/
structure AttachmentMeta where
  filename : String
  backend : String
  deriving DecidableEq, Repr

/-- The attachments of one record. -/
abbrev Record := List AttachmentMeta

/-- `LXMFIdentity`; the two rings of records. -/
structure Identity where
  dir : String
  inbox : List Record := []
  outbox : List Record := []
  deriving DecidableEq, Repr

/-- The files of internal flash, its directories, and the files of the card. -/
structure Stores where
  flash : List (Path × Bytes) := []
  directories : List String := []
  sd : List (Path × Bytes) := []
  deriving DecidableEq, Repr

structure Device where
  present : Bool
  stores : Stores
  identities : List Identity
  deriving DecidableEq, Repr

structure Result where
  moved : Nat := 0
  skipped : Nat := 0
  failed : Nat := 0
  bytes : Nat := 0
  recordsUpdated : Nat := 0
  deriving DecidableEq, Repr

/-- The loop of `_copy_flash_to_sd_chunked`: what is left of the source and what is in the
destination. -/
def copyLoop : List Chunk → Bytes → Bytes → Bytes × Bytes
  | [], rest, out => (rest, out)
  | c :: cs, rest, out =>
    if rest = [] then (rest, out) else
    let got := min c.got (min BUF rest.length)
    if got = 0 then (rest, out) else
    let w := min c.wrote got
    if w ≠ got then (rest, out ++ rest.take w) else
    copyLoop cs (rest.drop got) (out ++ rest.take got)

/-- `_copy_flash_to_sd_chunked` of a source with the bytes `data`. -/
def copyFlashToSdChunked (c : Calls) (p : Path) (data : Bytes) (sd : List (Path × Bytes)) :
    Bool × List (Path × Bytes) :=
  if !c.src then (false, sd) else
  let sd := if (lookup p sd).isSome then erase p sd else sd
  if !c.parents then (false, sd) else
  if !c.dst then (false, sd) else
  let (rest, out) := copyLoop c.chunks data []
  if rest ≠ [] then (false, erase p sd) else (true, (p, out) :: erase p sd)

/-- The size that `run` finds for a file of the card. -/
def Calls.sdSize (c : Calls) (old : Bytes) : Nat := if c.sdProbe then old.length else 0

/-- What `run` does for one file. -/
def sweepFile (calls : Path → Calls) (s : Stores × Result) (p : Path) : Stores × Result :=
  match lookup p s.1.flash with
  | none => s
  | some data =>
    if !(calls p).probe then (s.1, { s.2 with failed := s.2.failed + 1 }) else
    match lookup p s.1.sd with
    | some old =>
      if (calls p).sdSize old = data.length then
        ({ s.1 with flash := erase p s.1.flash }, { s.2 with skipped := s.2.skipped + 1 })
      else (s.1, { s.2 with failed := s.2.failed + 1 })
    | none =>
      let (copied, sd) := copyFlashToSdChunked (calls p) p data s.1.sd
      if !copied then ({ s.1 with sd := sd }, { s.2 with failed := s.2.failed + 1 }) else
      ({ s.1 with flash := erase p s.1.flash, sd := sd },
        { s.2 with moved := s.2.moved + 1, bytes := s.2.bytes + data.length })

/-- `listDirectory`, with the directory in front. -/
def listDirectory (dir : String) (s : Stores) : List Path := (s.flash.map (·.1)).filter (·.1 = dir)

/-- The name of an attachment's backend after `update_attachment_backends`. -/
def updateBackend (source target : String) (m : AttachmentMeta) : AttachmentMeta :=
  if m.backend = source then { m with backend := target } else m

/-- `LXMFInbox::update_attachment_backends`: the ring and the number of changes. -/
def updateAttachmentBackends (source target : String) (ring : List Record) : List Record × Nat :=
  (ring.map fun r => r.map (updateBackend source target),
    (ring.flatten.filter (·.backend = source)).length)

def Identity.attDir (a : Identity) : String := a.dir ++ "/attachments"

/-- What `run` does for one identity. -/
def sweepIdentity (calls : Path → Calls) (a : Identity) (s : Stores × Result) :
    Identity × Stores × Result :=
  if a.attDir ∉ s.1.directories then (a, s) else
  let (st, r) := (listDirectory a.attDir s.1).foldl (sweepFile calls) s
  let (inbox, n) := updateAttachmentBackends "flash" "sd" a.inbox
  let (outbox, m) := updateAttachmentBackends "flash" "sd" a.outbox
  ({ a with inbox := inbox, outbox := outbox }, st,
    { r with recordsUpdated := r.recordsUpdated + n + m })

/-- The loop of `run` over the active identities. -/
def sweepIdentities (calls : Path → Calls) :
    List Identity → Stores × Result → List Identity × Stores × Result
  | [], s => ([], s)
  | a :: as, s =>
    let (a', s') := sweepIdentity calls a s
    let (as', s'') := sweepIdentities calls as s'
    (a' :: as', s'')

/-- `Migration::run`. -/
def run (calls : Path → Calls) (s : Device) : Device × Result :=
  if !s.present then (s, {}) else
  let (identities, stores, r) := sweepIdentities calls s.identities (s.stores, {})
  ({ s with stores := stores, identities := identities }, r)

/-- What the store that `backend` names has under a path. -/
def Stores.named (s : Stores) (backend : String) (p : Path) : Option Bytes :=
  if backend = "flash" then lookup p s.flash
  else if backend = "sd" then lookup p s.sd
  else none

/-- What `handle_attachment_get` streams: the file of the card if there is one. -/
def Device.served (s : Device) (p : Path) : Option Bytes :=
  if s.present && (lookup p s.stores.sd).isSome then lookup p s.stores.sd
    else lookup p s.stores.flash

section copying

variable {c : Chunk} {cs : List Chunk} {rest out : Bytes} {size : Nat}

/-- What the first `k` reads have given. -/
def readUpTo (cs : List Chunk) (k : Nat) : Nat := ((cs.take k).map fun c => min c.got BUF).sum

/-- Some number of reads, none of them empty, give all bytes, and each write takes what was read. -/
def Whole (cs : List Chunk) (size : Nat) : Prop :=
  ∃ k, size ≤ readUpTo cs k ∧ ∀ i < k, ∀ c, cs[i]? = some c →
    0 < c.got ∧ min (min c.got BUF) (size - readUpTo cs i) ≤ c.wrote

lemma readUpTo_zero : readUpTo cs 0 = 0 := rfl

lemma readUpTo_succ {k : Nat} : readUpTo (c :: cs) (k + 1) = min c.got BUF + readUpTo cs k := by
  rw [readUpTo, List.take_succ_cons, List.map_cons, List.sum_cons, readUpTo]

lemma whole_nil : Whole [] size ↔ size = 0 := by
  refine ⟨fun ⟨k, hk, _⟩ => ?_,
    fun h => ⟨0, h.le.trans (Nat.zero_le _), fun _ h => absurd h (by omega)⟩⟩
  have hr : readUpTo [] k = 0 := by rw [readUpTo, List.take_nil]; rfl
  omega

lemma whole_cons : Whole (c :: cs) size ↔
    size = 0 ∨ 0 < c.got ∧ min (min c.got BUF) size ≤ c.wrote ∧
    Whole cs (size - min c.got BUF) := by
  constructor
  · rintro ⟨k, hk, hc⟩
    cases k with
    | zero => exact .inl (Nat.le_zero.mp hk)
    | succ k =>
      rw [readUpTo_succ] at hk
      obtain ⟨hg, hw⟩ := hc 0 (Nat.succ_pos k) c rfl
      refine .inr ⟨hg, hw, k, by omega, fun i hi d hd => ?_⟩
      obtain ⟨hg', hw'⟩ := hc (i + 1) (by omega) d hd
      rw [readUpTo_succ] at hw'
      exact ⟨hg', by rwa [Nat.sub_sub]⟩
  · rintro (h | ⟨hg, hw, k, hk, hc⟩)
    · exact ⟨0, h.le.trans (Nat.zero_le _), fun _ h => absurd h (by omega)⟩
    · refine ⟨k + 1, by rw [readUpTo_succ]; omega, fun i hi d hd => ?_⟩
      cases i with
      | zero =>
        cases Option.some.inj hd
        exact ⟨hg, hw⟩
      | succ i =>
        obtain ⟨hg', hw'⟩ := hc i (by omega) d hd
        rw [readUpTo_succ, ← Nat.sub_sub]
        exact ⟨hg', hw'⟩

/-- The loop reads the whole source exactly when no read and no write falls short before its end. -/
lemma copyLoop_whole : (copyLoop cs rest out).1 = [] ↔ Whole cs rest.length := by
  induction cs generalizing rest out with
  | nil => rw [copyLoop, whole_nil, List.length_eq_zero_iff]
  | cons c cs ih =>
    rw [whole_cons, copyLoop]
    split
    next h => simp [h]
    next h =>
      have hl : rest.length ≠ 0 := fun e => h (List.length_eq_zero_iff.mp e)
      simp only
      split
      next hg =>
        have : BUF = 1024 := rfl
        exact iff_of_false h fun hw => by omega
      next hg =>
        split
        next hw => exact iff_of_false h fun hw' => by omega
        next hw =>
          rw [ih, List.length_drop]
          have hd : rest.length - min c.got (min BUF rest.length) = rest.length - min c.got BUF :=
            by omega
          rw [hd]
          exact ⟨fun h => .inr ⟨by omega, by omega, h⟩, fun h => (h.resolve_left hl).2.2⟩

/-- What the loop has written is what it has read. -/
lemma copyLoop_out (h : (copyLoop cs rest out).1 = []) :
    (copyLoop cs rest out).2 = out ++ rest := by
  induction cs generalizing rest out with
  | nil =>
    cases (h : rest = [])
    exact (List.append_nil out).symm
  | cons c cs ih =>
    rw [copyLoop] at h ⊢
    split at h
    next hr => simp [hr]
    next hr =>
      simp only at h ⊢
      rw [if_neg hr]
      split at h
      next hg => exact absurd h hr
      next hg =>
        rw [if_neg hg]
        split at h
        next hw => exact absurd h hr
        next hw => rw [if_neg hw, ih h, List.append_assoc, List.take_append_drop]

end copying

/-- The copy of a file with the bytes `data` goes through. -/
def Calls.copies (c : Calls) (data : Bytes) : Bool :=
  c.src && c.parents && c.dst && (copyLoop c.chunks data []).1 = []

/-- Both files can be opened, and the bytes come and go in full. -/
def Calls.Complete (c : Calls) (size : Nat) : Prop :=
  c.src = true ∧ c.parents = true ∧ c.dst = true ∧ Whole c.chunks size

lemma copies_iff {c : Calls} {data : Bytes} : c.copies data = true ↔ c.Complete data.length := by
  rw [Calls.copies, Bool.and_eq_true, Bool.and_eq_true, Bool.and_eq_true, decide_eq_true_eq,
    copyLoop_whole, and_assoc, and_assoc, Calls.Complete]

/-- A path on both stores. -/
abbrev Cell := Option Bytes × Option Bytes

def Stores.cell (s : Stores) (p : Path) : Cell := (lookup p s.flash, lookup p s.sd)

/-- What becomes of one path, whatever else is stored. -/
def settle (c : Calls) : Cell → Cell
  | (none, old) => (none, old)
  | (some data, none) => if c.probe && c.copies data then (none, some data) else (some data, none)
  | (some data, some old) =>
    if c.probe && c.sdSize old = data.length then (none, some old) else (some data, some old)

section files

variable {calls : Path → Calls} {c : Calls} {p q : Path} {s : Stores × Result} {data : Bytes}
variable {sd : List (Path × Bytes)} {dir : String} {x : Cell}

/-- A turn moves a file of flash to the card, drops it, or leaves all as it is. -/
lemma settle_cases : (∃ data old, x = (some data, old) ∧
    settle c x = (none, some (old.getD data))) ∨ settle c x = x := by
  obtain ⟨_ | data, _ | old⟩ := x
  case none.none => exact .inr rfl
  case none.some => exact .inr rfl
  case some.none =>
    rw [settle]
    split
    next => exact .inl ⟨data, none, rfl, rfl⟩
    next => exact .inr rfl
  case some.some =>
    rw [settle]
    split
    next => exact .inl ⟨data, some old, rfl, rfl⟩
    next => exact .inr rfl

lemma settle_settle : settle c (settle c x) = settle c x := by
  obtain ⟨data, old, -, h⟩ | h := settle_cases (c := c) (x := x)
  · rw [h, settle]
  · rw [h, h]

lemma copyFlashToSdChunked_fst (h : lookup p sd = none) :
    (copyFlashToSdChunked c p data sd).1 = c.copies data := by
  unfold copyFlashToSdChunked Calls.copies
  rw [h]
  cases c.src <;> cases c.parents <;> cases c.dst <;> try rfl
  simp only [Bool.not_true, Bool.false_eq_true, if_false, Bool.true_and]
  split
  next hl => exact (decide_eq_false hl).symm
  next hl => exact (decide_eq_true (not_not.mp hl)).symm

/-- A copy leaves the other files of the card, and leaves a whole file or none. -/
lemma lookup_copyFlashToSdChunked (h : lookup p sd = none) :
    lookup q (copyFlashToSdChunked c p data sd).2 =
      if q = p then (if c.copies data then some data else none) else lookup q sd := by
  have he : lookup q (erase p sd) = if q = p then none else lookup q sd := by
    split
    next e => rw [e, lookup_erase]
    next e => exact lookup_erase_of_ne e
  have hs : lookup q sd = if q = p then none else lookup q sd := by
    split
    next e => rw [e, h]
    next => rfl
  unfold copyFlashToSdChunked Calls.copies
  rw [h]
  cases c.src <;> cases c.parents <;> cases c.dst <;> try exact hs
  simp only [Bool.not_true, Bool.false_eq_true, if_false, Bool.true_and, Option.isSome_none]
  split
  next hl =>
    rw [he, decide_eq_false hl]
    rfl
  next hl =>
    have hl := not_not.mp hl
    rw [lookup_cons, he, copyLoop_out hl, decide_eq_true hl, List.nil_append, if_pos rfl]
    simp only [eq_comm (a := p)]
    split <;> rfl

/-- One file's turn settles its path and no other. -/
lemma cell_sweepFile :
    (sweepFile calls s p).1.cell q = if q = p then settle (calls p) (s.1.cell p)
    else s.1.cell q := by
  have hk : s.1.cell q = if q = p then s.1.cell p else s.1.cell q := by
    split
    next e => rw [e]
    next => rfl
  have he : lookup q (erase p s.1.flash) = if q = p then none else lookup q s.1.flash := by
    split
    next e => rw [e, lookup_erase]
    next e => exact lookup_erase_of_ne e
  have hcell : ∀ f d, lookup p s.1.flash = f → lookup p s.1.sd = d → s.1.cell p = (f, d) :=
    fun f d hf hd => Prod.ext hf hd
  unfold sweepFile
  cases hf : lookup p s.1.flash with
  | none =>
    rw [hcell none _ hf rfl, settle, ← hcell none _ hf rfl]
    exact hk
  | some data =>
    cases hp : (calls p).probe with
    | false =>
      have hs : settle (calls p) (s.1.cell p) = s.1.cell p := by
        rw [hcell _ _ hf rfl]
        cases lookup p s.1.sd <;> simp [settle, hp]
      rw [hs]
      exact hk
    | true =>
      cases hd : lookup p s.1.sd with
      | some old =>
        rw [hcell _ _ hf hd, settle, hp, Bool.true_and, ← hcell _ _ hf hd]
        simp only [Bool.not_true, Bool.false_eq_true, if_false, decide_eq_true_eq]
        split
        next => 
          rw [Stores.cell, he, Stores.cell]
          split
          next e => rw [e, hd]
          next => rfl
        next => exact hk
      | none =>
        have hs : ∀ st : Stores,
          st.flash = (if (calls p).copies data then erase p s.1.flash else s.1.flash) →
          st.sd = (copyFlashToSdChunked (calls p) p data s.1.sd).2 →
          st.cell q = if q = p then settle (calls p) (s.1.cell p) else s.1.cell q := by
          intro st hfl hsd
          rw [hcell _ _ hf hd, settle, hp, Bool.true_and, Stores.cell, hfl, hsd,
            lookup_copyFlashToSdChunked hd]
          cases (calls p).copies data with
          | true =>
            rw [if_pos rfl, he]
            split <;> rfl
          | false =>
            rw [if_neg Bool.false_ne_true]
            split
            next e => rw [e, hf]; rfl
            next => rfl
        have hcopy := @copyFlashToSdChunked_fst (calls p) p data s.1.sd hd
        simp only [Bool.not_true, Bool.false_eq_true, if_false, hcopy]
        cases hc : (calls p).copies data with
        | true => exact hs _ (by rw [hc]; rfl) rfl
        | false => exact hs _ (by rw [hc]; rfl) rfl

lemma sweepFile_directories : (sweepFile calls s p).1.directories = s.1.directories := by
  unfold sweepFile
  cases lookup p s.1.flash with
  | none => rfl
  | some data =>
    cases lookup p s.1.sd <;> simp only <;> split <;> try rfl
    · split <;> rfl
    · split <;> rfl

/-- The turns of a list of files. -/
lemma sweep_files {ps : List Path} :
    (ps.foldl (sweepFile calls) s).1.directories = s.1.directories ∧
    ∀ q, (ps.foldl (sweepFile calls) s).1.cell q =
      if q ∈ ps then settle (calls q) (s.1.cell q) else s.1.cell q := by
  induction ps generalizing s with
  | nil => exact ⟨rfl, fun q => (if_neg List.not_mem_nil).symm⟩
  | cons p ps ih =>
    obtain ⟨hdir, hcell⟩ := ih (s := sweepFile calls s p)
    refine ⟨hdir.trans sweepFile_directories, fun q => ?_⟩
    rw [List.foldl_cons, hcell, cell_sweepFile]
    by_cases hq : q = p
    · rw [if_pos hq, hq, if_pos (List.mem_cons_self (a := p))]
      split
      next => exact settle_settle
      next => rfl
    · rw [if_neg hq]
      simp only [List.mem_cons, hq, false_or]

/-- The turns of the files of a directory. -/
lemma sweep_directory :
    ((listDirectory dir s.1).foldl (sweepFile calls) s).1.directories = s.1.directories ∧
    ∀ q, ((listDirectory dir s.1).foldl (sweepFile calls) s).1.cell q =
      if q.1 = dir then settle (calls q) (s.1.cell q) else s.1.cell q := by
  obtain ⟨hdir, hcell⟩ := @sweep_files calls s (listDirectory dir s.1)
  refine ⟨hdir, fun q => ?_⟩
  have hmem : q ∈ listDirectory dir s.1 ↔ q ∈ s.1.flash.map (·.1) ∧ q.1 = dir := by
    rw [listDirectory, List.mem_filter, decide_eq_true_eq]
  rw [hcell]
  by_cases hq : q.1 = dir
  · rw [if_pos hq]
    cases hf : lookup q s.1.flash with
    | some data => rw [if_pos (hmem.mpr ⟨List.mem_map.mpr ⟨_, mem_of_lookup hf, rfl⟩, hq⟩)]
    | none =>
      have hs : settle (calls q) (s.1.cell q) = s.1.cell q := by rw [Stores.cell, hf, settle]
      rw [hs, ite_self]
  · rw [if_neg hq, if_neg fun h => hq (hmem.mp h).2]

end files

section identities

variable {calls : Path → Calls} {a : Identity} {as : List Identity} {s : Stores × Result} {q : Path}

/-- The identity with its records changed. -/
def Identity.updated (a : Identity) : Identity :=
  { a with inbox := (updateAttachmentBackends "flash" "sd" a.inbox).1
           outbox := (updateAttachmentBackends "flash" "sd" a.outbox).1 }

/-- An identity whose directory is there has its records changed. -/
def Identity.after (directories : List String) (a : Identity) : Identity :=
  if a.attDir ∈ directories then a.updated else a

/-- A path is in the directory of one of the identities. -/
def swept (directories : List String) (as : List Identity) (q : Path) : Bool :=
  as.any fun a => a.attDir ∈ directories && a.attDir = q.1

lemma swept_cons {directories : List String} :
    swept directories (a :: as) q = (swept directories [a] q || swept directories as q) := by
  simp only [swept, List.any_cons, List.any_nil, Bool.or_false]

lemma sweep_identity :
    (sweepIdentity calls a s).1 = a.after s.1.directories ∧
    (sweepIdentity calls a s).2.1.directories = s.1.directories ∧
    ∀ q, (sweepIdentity calls a s).2.1.cell q =
      if swept s.1.directories [a] q then settle (calls q) (s.1.cell q) else s.1.cell q := by
  have hsw : ∀ q, swept s.1.directories [a] q = true ↔ a.attDir ∈ s.1.directories ∧
    q.1 = a.attDir := by
    intro q
    simp only [swept, List.any_cons, List.any_nil, Bool.or_false, Bool.and_eq_true,
      decide_eq_true_eq, eq_comm (a := q.1)]
  by_cases h : a.attDir ∈ s.1.directories
  · obtain ⟨hdir, hcell⟩ := @sweep_directory calls s a.attDir
    have hid : sweepIdentity calls a s = (a.updated, (sweepIdentity calls a s).2) := by
      rw [sweepIdentity, if_neg (not_not.mpr h)]
      rfl
    have hst : (sweepIdentity calls a s).2.1 =
        ((listDirectory a.attDir s.1).foldl (sweepFile calls) s).1 := by
      rw [sweepIdentity, if_neg (not_not.mpr h)]
    refine ⟨(congrArg Prod.fst hid).trans (if_pos h).symm, hst ▸ hdir, fun q => ?_⟩
    rw [hst, hcell]
    by_cases hq : q.1 = a.attDir
    · rw [if_pos hq, if_pos ((hsw q).mpr ⟨h, hq⟩)]
    · rw [if_neg hq, if_neg fun h' => hq ((hsw q).mp h').2]
  · have hid : sweepIdentity calls a s = (a, s) := if_pos h
    rw [hid]
    exact ⟨(if_neg h).symm, rfl, fun q => (if_neg fun h' => h ((hsw q).mp h').1).symm⟩

lemma sweep_identities :
    (sweepIdentities calls as s).1 = as.map (·.after s.1.directories) ∧
    (sweepIdentities calls as s).2.1.directories = s.1.directories ∧
    ∀ q, (sweepIdentities calls as s).2.1.cell q =
      if swept s.1.directories as q then settle (calls q) (s.1.cell q) else s.1.cell q := by
  induction as generalizing s with
  | nil => exact ⟨rfl, rfl, fun q => (if_neg Bool.false_ne_true).symm⟩
  | cons a as ih =>
    obtain ⟨ha, hdir, hcell⟩ := @sweep_identity calls a s
    obtain ⟨has, hdirs, hcells⟩ := ih (s := (sweepIdentity calls a s).2)
    refine ⟨?_, hdirs.trans hdir, fun q => (hcells q).trans ?_⟩
    · rw [hdir] at has
      rw [sweepIdentities, List.map_cons, ← ha, ← has]
    · have hs : swept s.1.directories (a :: as) q = _ := swept_cons
      rw [hdir, hcell, hs]
      cases swept s.1.directories [a] q <;> cases swept s.1.directories as q
      · rfl
      · rfl
      · rfl
      · exact settle_settle

end identities

section kept

variable {calls : Path → Calls} {a : Identity} {s : Device} {q : Path} {data : Bytes}

/-- The migration takes effect on a path. -/
def Device.swept (s : Device) (q : Path) : Bool :=
  s.present && Migration.swept s.stores.directories s.identities q

lemma run_present : (run calls s).1.present = s.present := by
  unfold run
  split <;> rfl

/-- **Each path of the two stores goes its own way**, as far as its directory is one of an
identity. -/
theorem cell_run : (run calls s).1.stores.cell q =
    if s.swept q then settle (calls q) (s.stores.cell q) else s.stores.cell q := by
  unfold run Device.swept
  cases s.present with
  | false => rfl
  | true => exact (@sweep_identities calls s.identities (s.stores, {})).2.2 q

lemma identities_run : (run calls s).1.identities =
    if s.present then s.identities.map (·.after s.stores.directories) else s.identities := by
  unfold run
  cases s.present with
  | false => rfl
  | true => exact (@sweep_identities calls s.identities (s.stores, {})).1

/-- What is asked of one attachment: its record names a store that has what it had. -/
def Names (s t : Device) (dir : String) (m m' : AttachmentMeta) : Prop :=
  m'.filename = m.filename ∧ ∀ data, s.stores.named m.backend (dir, m.filename) = some data →
    t.stores.named m'.backend (dir, m'.filename) = some data

/-- The attachments of the records of two rings, one by one. -/
def Rings (R : AttachmentMeta → AttachmentMeta → Prop) (ring ring' : List Record) : Prop :=
  List.Forall₂ (List.Forall₂ R) ring ring'

/-- Every file is on a store, every record names a store with what its file was, and every
attachment that could be read can be. -/
structure Kept (s t : Device) : Prop where
  files : ∀ q data, lookup q s.stores.flash = some data ∨ lookup q s.stores.sd = some data →
    lookup q t.stores.flash = some data ∨ lookup q t.stores.sd = some data
  records : List.Forall₂ (fun a a' => Rings (Names s t a.attDir) a.inbox a'.inbox ∧
    Rings (Names s t a.attDir) a.outbox a'.outbox) s.identities t.identities
  served : ∀ q data, s.served q = some data → t.served q = some data

/-- No file of the card has the size of the one in flash and other bytes, and each attachment that
its record has in flash is on the card already, or not there and its copy goes through. -/
def Safe (calls : Path → Calls) (s : Device) : Prop :=
  s.present = true → ∀ a ∈ s.identities, a.attDir ∈ s.stores.directories →
    (∀ name data old, s.stores.cell (a.attDir, name) = (some data, some old) →
      (calls (a.attDir, name)).probe = true →
      (calls (a.attDir, name)).sdSize old = data.length → old = data) ∧
    ∀ r ∈ a.inbox ++ a.outbox, ∀ m ∈ r, m.backend = "flash" →
      ∀ data, lookup (a.attDir, m.filename) s.stores.flash = some data →
        lookup (a.attDir, m.filename) s.stores.sd = some data ∨
        lookup (a.attDir, m.filename) s.stores.sd = none ∧
          (calls (a.attDir, m.filename)).probe = true ∧
          (calls (a.attDir, m.filename)).Complete data.length

/-- A path in the directory of an identity is swept. -/
lemma swept_of_mem (hp : s.present = true) (ha : a ∈ s.identities)
    (hd : a.attDir ∈ s.stores.directories) {name : String} : s.swept (a.attDir, name) = true := by
  rw [Device.swept, hp, Bool.true_and, Migration.swept, List.any_eq_true]
  exact ⟨a, ha, by rw [decide_eq_true hd, decide_eq_true rfl]; rfl⟩

lemma exists_of_swept (h : s.swept q = true) :
    s.present = true ∧ ∃ a ∈ s.identities, a.attDir ∈ s.stores.directories ∧ a.attDir = q.1 := by
  rw [Device.swept, Bool.and_eq_true, Migration.swept, List.any_eq_true] at h
  obtain ⟨hp, a, ha, hq⟩ := h
  rw [Bool.and_eq_true, decide_eq_true_eq, decide_eq_true_eq] at hq
  exact ⟨hp, a, ha, hq⟩

/-- A file of the card stays. -/
lemma settle_some {c : Calls} {f : Option Bytes} : (settle c (f, some data)).2 = some data := by
  cases f with
  | none => rfl
  | some => rw [settle]; split <;> rfl

lemma sd_run (h : lookup q s.stores.sd = some data) :
    lookup q (run calls s).1.stores.sd = some data := by
  have hc := congrArg Prod.snd (@cell_run calls s q)
  refine hc.trans ?_
  rw [Stores.cell, h]
  split
  next => exact settle_some
  next => rfl

/-- What is streamed for a path before is streamed for it afterwards. -/
lemma served_run (h : s.served q = some data) : (run calls s).1.served q = some data := by
  have hc := @cell_run calls s q
  have hp := @run_present calls s
  have hcell : ∀ {t : Device}, t.served q =
      if t.present && (t.stores.cell q).2.isSome then (t.stores.cell q).2
        else (t.stores.cell q).1 := rfl
  rw [hcell] at h ⊢
  rw [hc, hp]
  split
  next hs =>
    have hpres := (exists_of_swept hs).1
    rw [hpres, Bool.true_and] at h ⊢
    obtain ⟨f, old, hx, hset⟩ | hset := settle_cases (c := calls q) (x := s.stores.cell q)
    · rw [hset]
      rw [hx] at h
      cases old with
      | none => exact h
      | some old => exact h
    · rw [hset]
      exact h
  next => exact h

/-- A file of flash is lost when it is dropped for a file of the card with other bytes, and only
then. -/
lemma files_run_iff :
    (∀ q data, lookup q s.stores.flash = some data ∨ lookup q s.stores.sd = some data →
      lookup q (run calls s).1.stores.flash = some data ∨
      lookup q (run calls s).1.stores.sd = some data) ↔
    ∀ q data old, s.swept q = true → s.stores.cell q = (some data, some old) →
      (calls q).probe = true → (calls q).sdSize old = data.length → old = data := by
  constructor
  · intro h q data old hs hx hp hsz
    have hc := @cell_run calls s q
    rw [if_pos hs, hx, settle, hp, decide_eq_true hsz, Bool.and_self, if_pos rfl] at hc
    obtain ⟨hf, hd⟩ := Prod.mk.injEq .. ▸ hc
    have := h q data (.inl (congrArg Prod.fst hx))
    rw [hf, hd] at this
    exact Option.some.inj (this.resolve_left nofun)
  · intro h q data hq
    have hc := @cell_run calls s q
    obtain hf | hd := hq
    · have hx : s.stores.cell q = (some data, lookup q s.stores.sd) := Prod.ext hf rfl
      split at hc
      next hs =>
        cases hd : lookup q s.stores.sd with
        | none =>
          rw [hx, hd, settle] at hc
          split at hc
          next => exact .inr (congrArg Prod.snd hc)
          next => exact .inl (congrArg Prod.fst hc)
        | some old =>
          rw [hx, hd, settle] at hc
          split at hc
          next hcond =>
            obtain ⟨hp, hsz⟩ := (Bool.and_eq_true _ _).mp hcond
            have he := h q data old hs (hx.trans (by rw [hd])) hp (of_decide_eq_true hsz)
            exact .inr (he ▸ congrArg Prod.snd hc)
          next => exact .inl (congrArg Prod.fst hc)
      next => exact .inl (congrArg Prod.fst (hc.trans hx))
    · exact .inr (sd_run hd)

/-- The records of an identity that has no directory keep their backend, and so do its files. -/
lemma names_stay {m : AttachmentMeta} (h : s.present = true → a.attDir ∉ s.stores.directories) :
    Names s (run calls s).1 a.attDir m m := by
  have hs : s.swept (a.attDir, m.filename) = false := by
    by_contra hs
    obtain ⟨hp, b, -, hd, hb⟩ := exists_of_swept (Bool.not_eq_false _ ▸ hs)
    have hb : b.attDir = a.attDir := hb
    exact h hp (hb ▸ hd)
  have hc := @cell_run calls s (a.attDir, m.filename)
  rw [if_neg (Bool.eq_false_iff.mp hs)] at hc
  refine ⟨rfl, fun data hm => ?_⟩
  rw [Stores.named] at hm ⊢
  rwa [show lookup _ (run calls s).1.stores.flash = _ from congrArg Prod.fst hc,
    show lookup _ (run calls s).1.stores.sd = _ from congrArg Prod.snd hc]

/-- The record of a swept attachment names a store with its bytes exactly when they are on the card,
or its copy goes through. -/
lemma names_update {m : AttachmentMeta} (hs : s.swept (a.attDir, m.filename) = true) :
    Names s (run calls s).1 a.attDir m (updateBackend "flash" "sd" m) ↔ (m.backend = "flash" →
      ∀ data, lookup (a.attDir, m.filename) s.stores.flash = some data →
        lookup (a.attDir, m.filename) s.stores.sd = some data ∨
        lookup (a.attDir, m.filename) s.stores.sd = none ∧
          (calls (a.attDir, m.filename)).probe = true ∧
          (calls (a.attDir, m.filename)).Complete data.length) := by
  have hc := @cell_run calls s (a.attDir, m.filename)
  rw [if_pos hs] at hc
  by_cases hm : m.backend = "flash"
  · rw [updateBackend, if_pos hm]
    have hsd : ∀ data, lookup (a.attDir, m.filename) s.stores.flash = some data →
        (lookup (a.attDir, m.filename) (run calls s).1.stores.sd = some data ↔
          lookup (a.attDir, m.filename) s.stores.sd = some data ∨
          lookup (a.attDir, m.filename) s.stores.sd = none ∧
            (calls (a.attDir, m.filename)).probe = true ∧
            (calls (a.attDir, m.filename)).Complete data.length) := by
      intro data hf
      have hx : s.stores.cell (a.attDir, m.filename) = (some data, lookup _ s.stores.sd) :=
        Prod.ext hf rfl
      have hsnd := congrArg Prod.snd hc
      cases hd : lookup (a.attDir, m.filename) s.stores.sd with
      | some old =>
        rw [hx, hd, settle_some] at hsnd
        rw [show lookup _ (run calls s).1.stores.sd = some old from hsnd]
        exact ⟨.inl, fun h => h.resolve_right fun h' => absurd h'.1 nofun⟩
      | none =>
        rw [hx, hd, settle] at hsnd
        rw [show lookup _ (run calls s).1.stores.sd = _ from hsnd, ← copies_iff, ← Bool.and_eq_true]
        split
        next hcond => exact iff_of_true rfl (.inr ⟨rfl, hcond⟩)
        next hcond => exact iff_of_false nofun fun h => hcond (h.resolve_left nofun).2
    refine ⟨fun h _ data hf => ?_, fun h => ⟨rfl, fun data hd => ?_⟩⟩
    · refine (hsd data hf).mp ?_
      have := h.2 data (by rw [hm]; exact hf)
      exact this
    · rw [hm] at hd
      exact (hsd data hd).mpr (h hm data hd)
  · rw [updateBackend, if_neg hm]
    refine iff_of_true ⟨rfl, fun data hd => ?_⟩ fun h => absurd h hm
    rw [Stores.named, if_neg hm] at hd ⊢
    split at hd
    next hb => rw [if_pos hb]; exact sd_run hd
    next hb => exact absurd hd nofun

lemma forall₂_update {R : AttachmentMeta → AttachmentMeta → Prop} {ring : List Record} :
    Rings R ring (updateAttachmentBackends "flash" "sd" ring).1 ↔
      ∀ r ∈ ring, ∀ m ∈ r, R m (updateBackend "flash" "sd" m) := by
  rw [Rings, updateAttachmentBackends, List.forall₂_map_right_iff, List.forall₂_same]
  refine forall₂_congr fun r _ => ?_
  rw [List.forall₂_map_right_iff, List.forall₂_same]

lemma forall₂_stay {R : AttachmentMeta → AttachmentMeta → Prop} {ring : List Record}
    (h : ∀ m, R m m) : Rings R ring ring :=
  List.forall₂_same.mpr fun _ _ => List.forall₂_same.mpr fun m _ => h m

/-- **What is lost**: the migration loses nothing exactly when it is safe for the files and records
there are and for what the calls return. -/
theorem run_kept_iff (calls : Path → Calls) (s : Device) : Kept s (run calls s).1 ↔
    Safe calls s := by
  constructor
  · rintro ⟨hfiles, hrec, -⟩ hp a ha hd
    rw [identities_run, hp, if_pos rfl, List.forall₂_map_right_iff, List.forall₂_same] at hrec
    refine ⟨fun name data old hx => ?_, fun r hr m hm => ?_⟩
    · exact files_run_iff.mp hfiles _ data old (swept_of_mem hp ha hd) hx
    · refine (names_update (swept_of_mem hp ha hd)).mp ?_
      obtain ⟨hin, hout⟩ := hrec a ha
      rw [Identity.after, if_pos hd] at hin hout
      obtain hr | hr := List.mem_append.mp hr
      · exact forall₂_update.mp hin r hr m hm
      · exact forall₂_update.mp hout r hr m hm
  · intro h
    refine ⟨files_run_iff.mpr fun q data old hs hx => ?_, ?_, fun q data => served_run⟩
    · obtain ⟨hp, a, ha, hd, hq⟩ := exists_of_swept hs
      obtain ⟨dir, name⟩ := q
      cases hq
      exact (h hp a ha hd).1 name data old hx
    · rw [identities_run]
      split
      next hp =>
        rw [List.forall₂_map_right_iff, List.forall₂_same]
        intro a ha
        rw [Identity.after]
        split
        next hd =>
          have hm : ∀ r ∈ a.inbox ++ a.outbox, ∀ m ∈ r,
              Names s (run calls s).1 a.attDir m (updateBackend "flash" "sd" m) := fun r hr m hm =>
            (names_update (swept_of_mem hp ha hd)).mpr ((h hp a ha hd).2 r hr m hm)
          exact ⟨forall₂_update.mpr fun r hr => hm r (List.mem_append_left _ hr),
            forall₂_update.mpr fun r hr => hm r (List.mem_append_right _ hr)⟩
        next hd => exact ⟨forall₂_stay fun m => names_stay fun _ => hd,
            forall₂_stay fun m => names_stay fun _ => hd⟩
      next hp =>
        refine List.forall₂_same.mpr fun a _ => ?_
        exact ⟨forall₂_stay fun m => names_stay fun h => absurd h hp,
          forall₂_stay fun m => names_stay fun h => absurd h hp⟩

/-- One received photo of two bytes, in flash; the card cannot be written. -/
def fullCard : Device where
  present := true
  stores := {
    flash := [(("/lxmf/identities/ab/attachments", "c0_06_0.bin"), [1, 2])]
    directories := ["/lxmf/identities/ab/attachments"] }
  identities := [{ dir := "/lxmf/identities/ab", inbox := [[⟨"c0_06_0.bin", "flash"⟩]] }]

/-- A file that cannot be copied stays in flash, and its record names the card. -/
theorem run_not_kept :
    ¬ Kept fullCard (run (fun _ => { dst := false }) fullCard).1 := by
  have hrun : (run (fun _ => { dst := false }) fullCard).1 = { fullCard with
      identities := [{ dir := "/lxmf/identities/ab", inbox := [[⟨"c0_06_0.bin", "sd"⟩]] }] } := by
    decide
  intro h
  have hrec := h.records
  rw [hrun] at hrec
  obtain ⟨hin, -⟩ := (List.forall₂_cons.mp hrec).1
  have hname := (List.forall₂_cons.mp (List.forall₂_cons.mp hin).1).1
  exact absurd (hname.2 [1, 2] (by decide)) (by decide)

end kept

end URSupreme.Migration
