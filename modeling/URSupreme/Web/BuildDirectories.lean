import URSupreme.Lib.Binary64
import URSupreme.Web.DirectoryCodec
import URSupreme.Web.FindTile

/-!
# Building the directories of an archive

`build_directories` of `Web/MapExtract.h`: one flat root where it is small enough, else leaves whose
size grows until the root of their pointers is. A reader finds every tile through the root and a
leaf as it would in the list of all entries.

Allocations are taken to succeed.
-/

namespace URSupreme.MapExtract
open Lib Binary64

/-- `EntryVec`: a vector of entries, which are 24 bytes each, in 31 bits of address space. -/
structure EntryVec where
  entries : List EntryV3
  size_le : entries.length ≤ 89478485

/-- A size converted to `int`. -/
def toInt (size : Nat) : Int :=
  let low := size % 4294967296
  if low < 2147483648 then low else (low : Int) - 4294967296

/-- The loop over the leaves: their pointers and their bytes, behind `size` bytes of earlier
leaves, when every leaf holds `ls` entries. -/
def leafDirectories (ls : Nat) : Nat → Nat → List EntryV3 → List EntryV3 × Bytes
  | 0, _, _ => ([], [])
  | n + 1, size, rest =>
    match rest with
    | [] => ([], [])
    | e :: _ =>
      let ser := serializeEntriesRange (rest.take ls)
      let (rootEntries, leavesOut) := leafDirectories ls n (size + ser.length) (rest.drop ls)
      ({ tileId := e.tileId, offset := UInt64.ofNat size, length := UInt32.ofNat ser.length,
         runLength := 0 } :: rootEntries, ser ++ leavesOut)

/-- The `double` nearest to 1.2. -/
def oneFifthMore : ℚ := 5404319552844595 / 2 ^ 52

/-- The leaf size of the first round. -/
def firstLeafSize (size : Nat) : ℚ := max (fl (size / 3500)) 4096

/-- The rounds of `build_directories`, at most `fuel`. -/
def leafRounds (entries : List EntryV3) (targetRootLen : Int) : Nat → ℚ → Option (Bytes × Bytes)
  | 0, _ => none
  | fuel + 1, leafSize =>
    let ls := ⌊leafSize⌋.toNat
    let (rootEntries, leavesOut) := leafDirectories ls entries.length 0 entries
    let rootOut := serializeEntriesRange rootEntries
    if toInt rootOut.length ≤ targetRootLen then some (rootOut, leavesOut)
    else leafRounds entries targetRootLen fuel (fl (leafSize * oneFifthMore))

/-- `build_directories`, with at most `fuel` rounds: the root and the leaves. -/
def buildDirectories (fuel : Nat) (entries : EntryVec) (targetRootLen : Int) :
    Option (Bytes × Bytes) :=
  let rootOut := serializeEntriesRange entries.entries
  if entries.entries.length < 16384 ∧ toInt rootOut.length ≤ targetRootLen then some (rootOut, [])
  else leafRounds entries.entries targetRootLen fuel (firstLeafSize entries.entries.length)

/-- A reader looks a tile up in the root and, behind a pointer, in the leaf. -/
def lookupTile (T : Target) (root leaves : Bytes) (id : UInt64) : Option EntryV3 :=
  match findTile (directoryOf T root) id with
  | none => none
  | some e =>
    if e.runLength = 0 then
      findTile (directoryOf T ((leaves.drop e.offset.toNat).take e.length.toNat)) id
    else some e

variable {T : Target} {l : List EntryV3} {v : UInt64} {ls : Nat} {leaves : Bytes}

/-- A number takes at most a byte for each seven bits. -/
lemma length_putUvarintLoop {n : Nat} : (putUvarintLoop n v).length ≤ n + 1 := by
  induction n generalizing v with
  | zero => exact le_rfl
  | succ n ih =>
    unfold putUvarintLoop
    split
    next => exact Nat.succ_le_succ ih
    next => exact Nat.succ_le_succ (Nat.zero_le _)

lemma length_putUvarintLoop_of_lt {n k : Nat} (hv : v.toNat < 128 ^ (k + 1)) :
    (putUvarintLoop n v).length ≤ k + 1 := by
  induction n generalizing v k with
  | zero => exact Nat.succ_le_succ (Nat.zero_le _)
  | succ n ih =>
    unfold putUvarintLoop
    split
    next h =>
      have hge : 128 ≤ v.toNat := UInt64.le_iff_toNat_le.mp h
      have hshift : (v >>> 7).toNat = v.toNat / 128 := by
        rw [UInt64.toNat_shiftRight]
        exact Nat.shiftRight_eq_div_pow v.toNat 7
      cases k with
      | zero =>
        rw [pow_one] at hv
        omega
      | succ k =>
        refine Nat.succ_le_succ (ih ?_)
        rw [pow_succ] at hv
        rw [hshift]
        omega
    next => exact Nat.succ_le_succ (Nat.zero_le _)

lemma length_putUvarint : (putUvarint v).length ≤ 10 := length_putUvarintLoop

lemma length_putUvarint_of_lt {k : Nat} (hv : v.toNat < 128 ^ (k + 1)) :
    (putUvarint v).length ≤ k + 1 := length_putUvarintLoop_of_lt hv

lemma length_flatMap_putUvarint (vs : List UInt64) :
    (vs.flatMap putUvarint).length ≤ 10 * vs.length := by
  induction vs with
  | nil => exact le_rfl
  | cons v vs ih =>
    have h := length_putUvarint (v := v)
    rw [List.flatMap_cons, List.length_append, List.length_cons]
    omega

/-- A directory is at most 40 bytes for each entry and 10 for the count. -/
lemma length_serialize : (serializeEntriesRange l).length ≤ 10 + 40 * l.length := by
  have h0 := length_putUvarint (v := UInt64.ofNat l.length)
  have h1 := length_flatMap_putUvarint (deltas 0 l)
  have h2 := length_flatMap_putUvarint (l.map (·.runLength.toUInt64))
  have h3 := length_flatMap_putUvarint (l.map (·.length.toUInt64))
  have h4 := length_flatMap_putUvarint (offsetColumn none l)
  rw [length_deltas] at h1
  rw [List.length_map] at h2 h3
  rw [length_offsetColumn] at h4
  unfold serializeEntriesRange
  simp only [List.length_append]
  omega

/-- A root of one pointer to the first leaf fits 18 bytes. -/
lemma length_serialize_pointer (id : UInt64) (len : UInt32) :
    (serializeEntriesRange [⟨id, 0, len, 0⟩]).length ≤ 18 := by
  have h0 : (putUvarint (UInt64.ofNat 1)).length ≤ 0 + 1 := length_putUvarint_of_lt (by decide)
  have h1 := length_putUvarint (v := id - 0)
  have h2 : (putUvarint (0 : UInt32).toUInt64).length ≤ 0 + 1 := length_putUvarint_of_lt (by decide)
  have h3 : (putUvarint len.toUInt64).length ≤ 4 + 1 := by
    refine length_putUvarint_of_lt ?_
    rw [UInt32.toNat_toUInt64]
    exact len.toNat_lt.trans (show 4294967296 < 128 ^ (4 + 1) by norm_num)
  have h4 : (putUvarint (0 + 1)).length ≤ 0 + 1 := length_putUvarint_of_lt (by decide)
  simp only [serializeEntriesRange, deltas, offsetColumn, List.map_cons, List.map_nil,
    List.flatMap_cons, List.flatMap_nil, List.append_nil, List.length_append, List.length_singleton]
  omega

/-- A size that fits is itself as an `int`. -/
lemma toInt_eq {n : Nat} (h : n < 2147483648) : toInt n = n := by
  have hmod : n % 4294967296 = n := Nat.mod_eq_of_lt (by omega)
  unfold toInt
  rw [hmod]
  exact if_pos h

/-- The bytes that a pointer of the root points to. -/
def pointed (leaves : Bytes) (e : EntryV3) : Bytes :=
  (leaves.drop e.offset.toNat).take e.length.toNat

/-- A pointer to the leaf that holds `c`. -/
structure Points (leaves : Bytes) (e : EntryV3) (c : List EntryV3) : Prop where
  pointer : e.runLength = 0
  first : c.head?.map (·.tileId) = some e.tileId
  bytes : pointed leaves e = serializeEntriesRange c
  offset : e.offset + 1 ≠ 0

/-- The leaves hold the entries, piece by piece, behind the bytes `before`. -/
lemma leafDirectories_spec (hls : 10 ≤ ls) {n : Nat} (hn : l.length ≤ n) (before : Bytes)
    (hsize : l = [] ∨ before.length + 41 * l.length + 10 < 2 ^ 32) :
    ∃ pieces : List (List EntryV3), l = pieces.flatten ∧
      pieces.length * ls < l.length + ls ∧
      List.Forall₂ (Points (before ++ (leafDirectories ls n before.length l).2))
        (leafDirectories ls n before.length l).1 pieces := by
  induction n generalizing l before with
  | zero =>
    obtain rfl := List.length_eq_zero_iff.mp (Nat.le_zero.mp hn)
    exact ⟨[], rfl, by rw [List.length_nil, Nat.zero_mul, List.length_nil]; omega, .nil⟩
  | succ n ih =>
    cases l with
    | nil => exact ⟨[], rfl, by rw [List.length_nil, Nat.zero_mul, List.length_nil]; omega, .nil⟩
    | cons e l =>
      have hsize := hsize.resolve_left (List.cons_ne_nil e l)
      have hser := length_serialize (l := (e :: l).take ls)
      have htake : ((e :: l).take ls).length = min ls (e :: l).length := List.length_take
      have hdrop : ((e :: l).drop ls).length = (e :: l).length - ls := List.length_drop
      rw [List.length_cons] at hn
      have hlen : (e :: l).length = l.length + 1 := rfl
      have hbefore : (before ++ serializeEntriesRange ((e :: l).take ls)).length =
          before.length + (serializeEntriesRange ((e :: l).take ls)).length := List.length_append
      obtain ⟨pieces, hflat, hcount, hall⟩ := ih (l := (e :: l).drop ls) (by omega)
        (before ++ serializeEntriesRange ((e :: l).take ls)) (by
          rcases Nat.lt_or_ge ls (e :: l).length with hlt | hge
          · right
            omega
          · exact .inl (List.drop_eq_nil_of_le hge))
      rw [hbefore, List.append_assoc] at hall
      refine ⟨(e :: l).take ls :: pieces, ?_, ?_, ?_⟩
      · rw [List.flatten_cons, ← hflat, List.take_append_drop]
      · rw [List.length_cons, Nat.add_mul, Nat.one_mul]
        rcases Nat.lt_or_ge ls (e :: l).length with hlt | hge
        · omega
        · have h0 : pieces.length = 0 := by
            by_contra hne
            have hle : ls ≤ pieces.length * ls := Nat.le_mul_of_pos_left ls (Nat.pos_of_ne_zero hne)
            omega
          rw [h0]
          omega
      · refine .cons ⟨rfl, ?_, ?_, ?_⟩ hall
        · cases ls with
          | zero => omega
          | succ ls => rfl
        · have h1 : (UInt64.ofNat before.length).toNat = before.length :=
            UInt64.toNat_ofNat_of_lt' (show _ < 18446744073709551616 by omega)
          have h2 : (UInt32.ofNat (serializeEntriesRange ((e :: l).take ls)).length).toNat =
              (serializeEntriesRange ((e :: l).take ls)).length :=
            UInt32.toNat_ofNat_of_lt' (show _ < 4294967296 by omega)
          show ((before ++ (_ ++ _)).drop (UInt64.ofNat before.length).toNat).take
            (UInt32.ofNat _).toNat = _
          rw [h1, h2, List.drop_left, List.take_left]
        · show UInt64.ofNat before.length + 1 ≠ 0
          rw [Ne, ← UInt64.toNat_inj, UInt64.toNat_add, UInt64.toNat_ofNat_of_lt'
            (show _ < 18446744073709551616 by omega), UInt64.toNat_one, UInt64.toNat_zero,
            Nat.mod_eq_of_lt (by omega)]
          exact Nat.succ_ne_zero _

lemma lastLe_append (id : UInt64) (a b : List EntryV3) :
    lastLe id (a ++ b) = (lastLe id b).or (lastLe id a) := by
  rw [lastLe, List.filter_append, List.getLast?_append]
  rfl

lemma lastLe_singleton (id : UInt64) (e : EntryV3) :
    lastLe id [e] = if e.tileId ≤ id then some e else none := by
  rw [lastLe, List.filter_cons]
  simp only [decide_eq_true_eq]
  split
  next => rfl
  next => rfl

lemma tileId_le_of_lastLe {id : UInt64} {e : EntryV3} (h : lastLe id l = some e) :
    e.tileId ≤ id :=
  of_decide_eq_true (List.mem_filter.mp (List.mem_of_getLast? h)).2

lemma lastLe_eq_none {id : UInt64} : lastLe id l = none ↔ ∀ e ∈ l, id < e.tileId := by
  rw [lastLe, List.getLast?_eq_none_iff, List.filter_eq_nil_iff]
  simp only [decide_eq_true_eq, UInt64.not_le]

/-- A leaf's first tile id is that of its pointer. -/
lemma Points.head {e : EntryV3} {c : List EntryV3} (h : Points leaves e c) :
    ∃ f ∈ c, f.tileId = e.tileId ∧ (Increasing c → ∀ g ∈ c, f.tileId ≤ g.tileId) := by
  have hf := h.first
  cases c with
  | nil => cases hf
  | cons f c =>
    refine ⟨f, List.mem_cons_self, Option.some.inj hf, fun hc g hg => ?_⟩
    rcases List.mem_cons.mp hg with rfl | hg
    · exact UInt64.le_refl _
    · exact UInt64.le_of_lt (List.rel_of_pairwise_cons hc hg)

/-- The tile ids of the root grow when those of the entries do. -/
lemma increasing_root {root : List EntryV3} {pieces : List (List EntryV3)}
    (h : List.Forall₂ (Points leaves) root pieces) (hs : Increasing pieces.flatten) :
    Increasing root ∧ ∀ e ∈ root, ∃ f ∈ pieces.flatten, f.tileId = e.tileId := by
  induction h with
  | nil => exact ⟨List.Pairwise.nil, fun _ h => (List.not_mem_nil h).elim⟩
  | @cons e c root pieces hp _ ih =>
    rw [List.flatten_cons] at hs ⊢
    obtain ⟨_, hrest, hcross⟩ := List.pairwise_append.mp hs
    obtain ⟨h1, h2⟩ := ih hrest
    obtain ⟨f, hf, he, -⟩ := hp.head
    refine ⟨List.pairwise_cons.mpr ⟨fun e' he' => ?_, h1⟩, fun e' he' => ?_⟩
    · obtain ⟨f', hf', hid⟩ := h2 e' he'
      rw [← he, ← hid]
      exact hcross f hf f' hf'
    · rcases List.mem_cons.mp he' with rfl | he'
      · exact ⟨f, List.mem_append_left _ hf, he⟩
      · obtain ⟨f', hf', hid⟩ := h2 e' he'
        exact ⟨f', List.mem_append_right _ hf', hid⟩

/-- The last pointer that is not above a tile points to the leaf that holds the last such entry. -/
lemma lastLe_pieces {root : List EntryV3} {pieces : List (List EntryV3)} {id : UInt64}
    (h : List.Forall₂ (Points leaves) root pieces) (hs : Increasing pieces.flatten) :
    lastLe id root = none ∧ lastLe id pieces.flatten = none ∨
      ∃ e, ∃ c ∈ pieces, lastLe id root = some e ∧ Points leaves e c ∧
        lastLe id pieces.flatten = lastLe id c := by
  induction h with
  | nil => exact .inl ⟨rfl, rfl⟩
  | @cons e c root pieces hp _ ih =>
    rw [List.flatten_cons] at hs ⊢
    obtain ⟨hc, hrest, -⟩ := List.pairwise_append.mp hs
    obtain ⟨f, hf, he, hleast⟩ := hp.head
    have hroot : lastLe id (e :: root) =
        (lastLe id root).or (if e.tileId ≤ id then some e else none) := by
      rw [← lastLe_singleton, ← lastLe_append]
      rfl
    rw [hroot, lastLe_append]
    rcases ih hrest with ⟨h1, h2⟩ | ⟨e', c', hc', h1, hp', h2⟩
    · rw [h1, h2, Option.none_or, Option.none_or]
      split
      next hle => exact .inr ⟨e, c, List.mem_cons_self, rfl, hp, rfl⟩
      next hgt =>
        refine .inl ⟨rfl, lastLe_eq_none.mpr fun g hg => ?_⟩
        exact UInt64.lt_of_lt_of_le (he ▸ UInt64.not_le.mp hgt) (hleast hc g hg)
    · refine .inr ⟨e', c', List.mem_cons_of_mem c hc', by rw [h1]; rfl, hp', ?_⟩
      rw [h2]
      cases hlast : lastLe id c' with
      | some x => rfl
      | none =>
        obtain ⟨f', hf', he', -⟩ := hp'.head
        have hlt := lastLe_eq_none.mp hlast f' hf'
        rw [he'] at hlt
        exact absurd (tileId_le_of_lastLe h1) (UInt64.not_le.mpr hlt)

/-- Looking a tile up through the root and the leaf gives what the list of all entries gives. -/
lemma lookupTile_leaves {root : List EntryV3} {pieces : List (List EntryV3)} (id : UInt64)
    (h : List.Forall₂ (Points leaves) root pieces) (hs : Increasing pieces.flatten)
    (hf : pieces.flatten.IsChain Follows) (hlen : pieces.flatten.length < 2 ^ 64)
    (hroot : root.length < 2 ^ 64) :
    lookupTile T (serializeEntriesRange root) leaves id = findTile pieces.flatten id := by
  have hall := (List.forall₂_and_left (p := fun e => e.offset + 1 ≠ 0) _ _).mp
    (h.imp fun e c hp => ⟨hp.offset, hp⟩)
  have hchain : root.IsChain Follows :=
    (List.pairwise_of_forall_mem_list fun e _ e' he' => Or.inr (hall.1 e' he')).isChain
  have hdir : directoryOf T (serializeEntriesRange root) = root :=
    (directoryOf_serialize hchain hroot).2
  have hincr := (increasing_root h hs).1
  rw [lookupTile, hdir, findTile_eq hincr, findTile_eq hs]
  rcases @lastLe_pieces _ _ _ id h hs with ⟨h1, h2⟩ | ⟨e, c, hc, h1, hp, h2⟩
  · rw [h1, h2]
    rfl
  · have hin : c.IsInfix pieces.flatten := List.infix_of_mem_flatten hc
    have hleaf : directoryOf T (pointed leaves e) = c := by
      rw [hp.bytes]
      exact (directoryOf_serialize ( hf.infix hin) (hin.length_le.trans_lt hlen)).2
    have hcover : Covers id e := .inl hp.pointer
    rw [h1, h2, Option.filter_some, if_pos (decide_eq_true hcover)]
    dsimp only
    rw [if_pos hp.pointer]
    change findTile (directoryOf T (pointed leaves e)) id = _
    rw [hleaf, findTile_eq (hs.sublist hin.sublist)]

/-- A round with a leaf size that takes all entries leaves a root of one pointer. -/
lemma length_root_single {n : Nat} (hls : l.length ≤ ls) :
    (serializeEntriesRange (leafDirectories ls n 0 l).1).length ≤ 18 := by
  cases n with
  | zero => exact (length_serialize (l := [])).trans (by decide)
  | succ n =>
    cases l with
    | nil => exact (length_serialize (l := [])).trans (by decide)
    | cons e l =>
      have hrest : ∀ size, leafDirectories ls n size ((e :: l).drop ls) = ([], []) := by
        intro size
        rw [List.drop_eq_nil_of_le hls]
        cases n with
        | zero => rfl
        | succ n => rfl
      rw [leafDirectories]
      dsimp only
      rw [hrest]
      exact length_serialize_pointer _ _

/-- Growing by a fifth takes a leaf size past the next integer. -/
lemma grow {x : ℚ} (hx : 4096 ≤ x) :
    4096 ≤ fl (x * oneFifthMore) ∧ ⌊x⌋.toNat + 1 ≤ ⌊fl (x * oneFifthMore)⌋.toNat := by
  have hone : (1.19 : ℚ) ≤ oneFifthMore := by
    unfold oneFifthMore
    norm_num
  have hpos : 0 < x * oneFifthMore := mul_pos (by linarith) (by linarith)
  have herr := (abs_le.mp (abs_fl_sub_le hpos)).1
  have hmul : x * 1.19 ≤ x * oneFifthMore := mul_le_mul_of_nonneg_left hone (by linarith)
  have hsmall : x * oneFifthMore / 2 ^ 53 ≤ x * oneFifthMore * (1 / 100) := by
    rw [div_eq_mul_inv]
    exact mul_le_mul_of_nonneg_left (by norm_num) hpos.le
  have hge : x + 1 ≤ fl (x * oneFifthMore) := by linarith
  refine ⟨by linarith, ?_⟩
  have hfloor : ⌊x⌋ + 1 ≤ ⌊fl (x * oneFifthMore)⌋ := by
    rw [Int.le_floor]
    push_cast
    linarith [Int.floor_le x]
  have h0 : 0 ≤ ⌊x⌋ := Int.floor_nonneg.mpr (by linarith)
  omega

lemma le_floor_toNat {x : ℚ} (hx : 4096 ≤ x) : 4096 ≤ ⌊x⌋.toNat := by
  have h : (4096 : ℤ) ≤ ⌊x⌋ := Int.le_floor.mpr (by exact_mod_cast hx)
  omega

/-- The rounds end, with a leaf size of at least 4096 and a root within the target. -/
lemma leafRounds_spec {target : Int} (ht : 18 ≤ target) {fuel : Nat} {x : ℚ} (hx : 4096 ≤ x)
    (hfuel : l.length ≤ ⌊x⌋.toNat + fuel) :
    ∃ ls, 4096 ≤ ls ∧
      toInt (serializeEntriesRange (leafDirectories ls l.length 0 l).1).length ≤ target ∧
      ∀ k, leafRounds l target (fuel + 1 + k) x =
        some (serializeEntriesRange (leafDirectories ls l.length 0 l).1,
          (leafDirectories ls l.length 0 l).2) := by
  induction fuel generalizing x with
  | zero =>
    have h18 := length_root_single (n := l.length) hfuel
    rw [Nat.add_zero] at h18
    have hfit : toInt (serializeEntriesRange
        (leafDirectories ⌊x⌋.toNat l.length 0 l).1).length ≤ target := by
      rw [toInt_eq (by omega)]
      omega
    refine ⟨⌊x⌋.toNat, le_floor_toNat hx, hfit, fun k => ?_⟩
    rw [Nat.zero_add, Nat.add_comm, leafRounds]
    exact if_pos hfit
  | succ fuel ih =>
    by_cases hfit : toInt (serializeEntriesRange
        (leafDirectories ⌊x⌋.toNat l.length 0 l).1).length ≤ target
    · refine ⟨⌊x⌋.toNat, le_floor_toNat hx, hfit, fun k => ?_⟩
      rw [Nat.add_right_comm, leafRounds]
      exact if_pos hfit
    · obtain ⟨hx', hgrow⟩ := grow hx
      obtain ⟨ls, hls, hfit', hall⟩ := ih hx' (by omega)
      refine ⟨ls, hls, hfit', fun k => ?_⟩
      rw [Nat.add_right_comm, leafRounds]
      exact (if_neg hfit).trans (hall k)

/-- For every list of entries with growing tile ids, runs that are not empty and offsets that can be
told apart, and every target from 18 bytes on, `build_directories` ends. The root is within the
target, fewer than 16384 entries that fit it flat have no leaves, and every tile is found through
the root and a leaf as it is in the list. -/
theorem buildDirectories_finds (entries : EntryVec) (target : Int) (ht : 18 ≤ target)
    (hs : Increasing entries.entries) (hrun : ∀ e ∈ entries.entries, e.runLength ≠ 0)
    (hf : entries.entries.IsChain Follows) :
    ∃ root leaves,
      (∀ k, buildDirectories (entries.entries.length + 1 + k) entries target =
        some (root, leaves)) ∧
      (root.length : Int) ≤ target ∧
      (entries.entries.length < 16384 →
        ((serializeEntriesRange entries.entries).length : Int) ≤ target → leaves = []) ∧
      ∀ T id, lookupTile T root leaves id = findTile entries.entries id := by
  obtain ⟨l, hlen⟩ := entries
  dsimp only at hs hrun hf ⊢
  have hser := length_serialize (l := l)
  by_cases hflat : l.length < 16384 ∧ toInt (serializeEntriesRange l).length ≤ target
  · refine ⟨serializeEntriesRange l, [], fun k => if_pos hflat, ?_, fun _ _ => rfl, fun T id => ?_⟩
    · rw [← toInt_eq (by omega)]
      exact hflat.2
    · have hdir : directoryOf T (serializeEntriesRange l) = l :=
        (directoryOf_serialize hf (by omega)).2
      rw [lookupTile, hdir]
      cases hfind : findTile l id with
      | none => rfl
      | some e =>
        have hmem : e ∈ l := by
          rw [findTile_eq hs, Option.filter_eq_some_iff] at hfind
          exact (List.mem_filter.mp (List.mem_of_getLast? hfind.1)).1
        dsimp only
        rw [if_neg (hrun e hmem)]
  · obtain ⟨ls, hls, hfit, hall⟩ := leafRounds_spec (l := l) (x := firstLeafSize l.length) ht
      (le_max_right _ _) (Nat.le_add_left l.length _)
    obtain ⟨pieces, hflatten, hcount, hpoints⟩ := @leafDirectories_spec l ls
      (by omega) _ le_rfl [] (.inr (by rw [List.length_nil]; omega))
    have hroot : (leafDirectories ls l.length 0 l).1.length * ls < l.length + ls :=
      hpoints.length_eq ▸ hcount
    have hsmall : (leafDirectories ls l.length 0 l).1.length < 21850 := by
      by_contra hge
      have h1 := Nat.mul_le_mul_right ls (Nat.le_of_not_lt hge)
      omega
    have hrootser := length_serialize (l := (leafDirectories ls l.length 0 l).1)
    refine ⟨_, _, fun k => (if_neg hflat).trans (hall k), ?_, fun h1 h2 => ?_, fun T id => ?_⟩
    · rw [← toInt_eq (by omega)]
      exact hfit
    · rw [← toInt_eq (by omega)] at h2
      exact absurd ⟨h1, h2⟩ hflat
    · have h := lookupTile_leaves (T := T) id hpoints (hflatten ▸ hs) (hflatten ▸ hf)
        (by rw [← hflatten]; omega) (by rw [List.length_nil]; omega)
      rw [← hflatten] at h
      exact h

/-- Two entries, which fit a flat root of 18 bytes. -/
theorem buildDirectories_finds_two :
    ∃ root leaves,
      (∀ k, buildDirectories (2 + 1 + k) ⟨[⟨0, 0, 5, 1⟩, ⟨1, 5, 7, 2⟩], by decide⟩ 18 =
        some (root, leaves)) ∧
      (root.length : Int) ≤ 18 ∧
      (2 < 16384 →
        ((serializeEntriesRange [⟨0, 0, 5, 1⟩, ⟨1, 5, 7, 2⟩]).length : Int) ≤ 18 → leaves = []) ∧
      ∀ T id, lookupTile T root leaves id = findTile [⟨0, 0, 5, 1⟩, ⟨1, 5, 7, 2⟩] id :=
  buildDirectories_finds ⟨[⟨0, 0, 5, 1⟩, ⟨1, 5, 7, 2⟩], by decide⟩ 18 (by decide)
    (by unfold Increasing; decide) (by decide) (by decide)

/-- An entry with the last of all offsets is written like one that follows the entry before it, and
a reader finds it with another offset. -/
theorem not_buildDirectories_finds :
    let entries : List EntryV3 := [⟨0, 0, 1, 1⟩, ⟨1, 0xffffffffffffffff, 1, 1⟩]
    ∃ root, buildDirectories 3 ⟨entries, by decide⟩ 18 = some (root, []) ∧
      findTile entries 1 = some ⟨1, 0xffffffffffffffff, 1, 1⟩ ∧
      lookupTile supreme root [] 1 = some ⟨1, 1, 1, 1⟩ := by
  intro entries
  have hfits : entries.length < 16384 ∧ toInt (serializeEntriesRange entries).length ≤ 18 := by
    decide +kernel
  refine ⟨serializeEntriesRange entries, ?_, ?_, ?_⟩
  · unfold buildDirectories
    exact if_pos hfits
  · decide +kernel
  · decide +kernel

end URSupreme.MapExtract
