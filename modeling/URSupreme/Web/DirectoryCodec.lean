import Mathlib.Data.Nat.Bitwise
import URSupreme.Web.Directory

/-!
# What a directory decodes to

`deserialize_entries` gives back what `serialize_entries_range` wrote. On any other bytes it stays
inside the buffer and checks nothing: where the data ends it goes on with zeros.
-/

namespace URSupreme.MapExtract
open Lib

variable {T : Target} {p : Bytes} {pos : Nat}

/-- `get_uvarint` on the bytes that are left, with what is left behind the number. -/
def uvarintFrom (T : Target) : UInt64 → Nat → Bytes → UInt64 × Bytes
  | result, _, [] => (result, [])
  | result, shift, b :: l =>
    let result := result ||| T.shiftLeft (b &&& 0x7f).toUInt64 shift
    if b &&& 0x80 = 0 then (result, l) else uvarintFrom T result (shift + 7) l

/-- A column from the bytes that are left. -/
def columnFrom (T : Target) : Nat → Bytes → List UInt64 × Bytes
  | 0, l => ([], l)
  | num + 1, l =>
    let (v, l) := uvarintFrom T 0 0 l
    let (vs, l) := columnFrom T num l
    (v :: vs, l)

/-- The loop reads the bytes from its position on and none behind the end. -/
lemma getUvarintLoop_eq {n shift : Nat} {result : UInt64} (hn : n + pos = p.length) :
    ∃ pos', getUvarintLoop T p n result shift pos =
        some ((uvarintFrom T result shift (p.drop pos)).1, pos') ∧
      pos' ≤ p.length ∧ p.drop pos' = (uvarintFrom T result shift (p.drop pos)).2 := by
  induction n generalizing result shift pos with
  | zero =>
    have hnil : p.drop pos = [] := List.drop_eq_nil_of_le (by omega)
    rw [hnil]
    exact ⟨pos, rfl, by omega, hnil⟩
  | succ n ih =>
    have hlt : pos < p.length := by omega
    have hcons : p.drop pos = p[pos] :: p.drop (pos + 1) := List.drop_eq_getElem_cons hlt
    rw [hcons, getUvarintLoop, List.getElem?_eq_getElem hlt, uvarintFrom]
    dsimp only
    split
    next => exact ⟨pos + 1, rfl, hlt, rfl⟩
    next => exact ih (by omega)

/-- `get_uvarint` never reads outside the buffer. -/
lemma getUvarint_eq (hp : pos ≤ p.length) :
    ∃ pos', getUvarint T p pos = some ((uvarintFrom T 0 0 (p.drop pos)).1, pos') ∧
      pos' ≤ p.length ∧ p.drop pos' = (uvarintFrom T 0 0 (p.drop pos)).2 :=
  getUvarintLoop_eq (Nat.sub_add_cancel hp)

lemma getColumn_eq (num : Nat) (hp : pos ≤ p.length) :
    ∃ pos', getColumn T p num pos = some ((columnFrom T num (p.drop pos)).1, pos') ∧
      pos' ≤ p.length ∧ p.drop pos' = (columnFrom T num (p.drop pos)).2 := by
  induction num generalizing pos with
  | zero => exact ⟨pos, rfl, hp, rfl⟩
  | succ num ih =>
    obtain ⟨p1, e1, h1, d1⟩ := getUvarint_eq (T := T) hp
    obtain ⟨p2, e2, h2, d2⟩ := ih h1
    rw [d1] at e2 d2
    refine ⟨p2, ?_, h2, d2⟩
    simp only [getColumn, e1, e2, Option.bind_eq_bind, Option.bind_some]
    rfl

/-- The entries that are read from the bytes that are left. -/
def entriesFrom (T : Target) (num : Nat) (l : Bytes) : List EntryV3 :=
  let (ids, l) := columnFrom T num l
  let (runs, l) := columnFrom T num l
  let (lengths, l) := columnFrom T num l
  let (ts, _) := columnFrom T num l
  entriesOf ids runs lengths ts

lemma readEntries_eq {num : Nat} (hp : pos ≤ p.length) :
    readEntries T p num pos = some (entriesFrom T num (p.drop pos)) := by
  obtain ⟨p1, e1, h1, d1⟩ := getColumn_eq (T := T) num hp
  obtain ⟨p2, e2, h2, d2⟩ := getColumn_eq (T := T) num h1
  obtain ⟨p3, e3, h3, d3⟩ := getColumn_eq (T := T) num h2
  obtain ⟨p4, e4, h4, d4⟩ := getColumn_eq (T := T) num h3
  rw [d1] at e2 d2
  rw [d2] at e3 d3
  rw [d3] at e4
  simp only [readEntries, e1, e2, e3, e4, Option.bind_eq_bind, Option.bind_some]
  rfl

/-- The count of a directory. -/
def countOf (T : Target) (p : Bytes) : Nat := (uvarintFrom T 0 0 p).1.toNat

/-- The entries of a directory. -/
def directoryOf (T : Target) (p : Bytes) : List EntryV3 :=
  entriesFrom T (countOf T p) (uvarintFrom T 0 0 p).2

/-- What `deserialize_entries` does with any bytes: it depends on the count alone whether it
returns. -/
lemma deserializeEntries_eq : deserializeEntries T p =
    if T.room (countOf T p % 2 ^ 32) = false then .badAlloc
    else if countOf T p % 2 ^ 32 < countOf T p then .overrun
    else .entries (directoryOf T p) := by
  obtain ⟨p1, e1, h1, d1⟩ := getUvarint_eq (T := T) (Nat.zero_le p.length)
  rw [List.drop_zero] at e1 d1
  rw [deserializeEntries, e1]
  dsimp only
  rw [readEntries_eq h1, d1]
  rfl

lemma length_columnFrom {num : Nat} {l : Bytes} : (columnFrom T num l).1.length = num := by
  induction num generalizing l with
  | zero => rfl
  | succ num ih => exact congrArg (· + 1) ih

lemma length_tileIds {last : UInt64} {ds : List UInt64} : (tileIds last ds).length = ds.length := by
  induction ds generalizing last with
  | nil => rfl
  | cons d ds ih => exact congrArg (· + 1) ih

lemma length_offsets {before : Option (UInt64 × UInt32)} {l : List (UInt64 × UInt32)} :
    (offsets before l).length = l.length := by
  induction l generalizing before with
  | nil => rfl
  | cons x l ih => exact congrArg (· + 1) ih

/-- As many entries as the count says. -/
lemma length_directoryOf : (directoryOf T p).length = countOf T p := by
  unfold directoryOf entriesFrom entriesOf
  dsimp only
  simp only [List.length_zipWith, List.length_zip, List.length_map, length_tileIds, length_offsets,
    length_columnFrom, min_self]

/-- A number is read as though zeros followed the end of the data. -/
lemma uvarintFrom_zeros (result : UInt64) (shift : Nat) (l : Bytes) (k : Nat) :
    ∃ k', uvarintFrom T result shift (l ++ List.replicate k 0) =
      ((uvarintFrom T result shift l).1,
        (uvarintFrom T result shift l).2 ++ List.replicate k' 0) := by
  induction l generalizing result shift with
  | nil =>
    cases k with
    | zero => exact ⟨0, rfl⟩
    | succ k =>
      refine ⟨k, ?_⟩
      show (result ||| T.shiftLeft 0 shift, List.replicate k 0) = (result, List.replicate k 0)
      rw [T.shiftLeft_zero, UInt64.or_zero]
  | cons b l ih =>
    rw [List.cons_append, uvarintFrom, uvarintFrom]
    split
    next => exact ⟨k, rfl⟩
    next => exact ih _ _

lemma columnFrom_zeros (num : Nat) (l : Bytes) (k : Nat) :
    ∃ k', columnFrom T num (l ++ List.replicate k 0) =
      ((columnFrom T num l).1, (columnFrom T num l).2 ++ List.replicate k' 0) := by
  induction num generalizing l k with
  | zero => exact ⟨k, rfl⟩
  | succ num ih =>
    obtain ⟨k1, h1⟩ := uvarintFrom_zeros (T := T) 0 0 l k
    obtain ⟨k2, h2⟩ := ih (uvarintFrom T 0 0 l).2 k1
    refine ⟨k2, ?_⟩
    rw [columnFrom, h1]
    dsimp only
    rw [h2]
    rfl

/-- A directory that ends early is read as though zeros followed. -/
lemma directoryOf_zeros (k : Nat) : countOf T (p ++ List.replicate k 0) = countOf T p ∧
    directoryOf T (p ++ List.replicate k 0) = directoryOf T p := by
  obtain ⟨k1, h1⟩ := uvarintFrom_zeros (T := T) 0 0 p k
  have hcount : countOf T (p ++ List.replicate k 0) = countOf T p := by
    rw [countOf, h1]
    rfl
  refine ⟨hcount, ?_⟩
  rw [directoryOf, hcount, h1, directoryOf]
  generalize countOf T p = num
  dsimp only
  generalize (uvarintFrom T 0 0 p).2 = l
  obtain ⟨k2, h2⟩ := columnFrom_zeros (T := T) num l k1
  obtain ⟨k3, h3⟩ := columnFrom_zeros (T := T) num (columnFrom T num l).2 k2
  obtain ⟨k4, h4⟩ := columnFrom_zeros (T := T) num
    (columnFrom T num (columnFrom T num l).2).2 k3
  obtain ⟨k5, h5⟩ := columnFrom_zeros (T := T) num
    (columnFrom T num (columnFrom T num (columnFrom T num l).2).2).2 k4
  simp only [entriesFrom, h2, h3, h4, h5]

/-- A byte with its high bit set, and the seven bits below. -/
lemma and_0x7f (b : UInt8) : (b &&& 0x7f).toNat = b.toNat % 128 := by
  rw [UInt8.toNat_and]
  exact Nat.and_two_pow_sub_one_eq_mod b.toNat 7

lemma and_0x80 (b : UInt8) : b &&& 0x80 = 0 ↔ b.toNat < 128 := by
  have hlt : b.toNat < 256 := b.toNat_lt
  have h : (b &&& 0x80).toNat = (b.toNat.testBit 7).toNat * 2 ^ 7 := by
    rw [UInt8.toNat_and]
    exact Nat.and_two_pow b.toNat 7
  rw [← UInt8.toNat_inj, h]
  constructor
  · intro h0
    by_contra hge
    rw [Nat.testBit_of_two_pow_le_and_two_pow_add_one_gt (by omega) (by omega)] at h0
    exact absurd h0 (by decide)
  · intro hlt
    rw [Nat.testBit_lt_two_pow hlt]
    rfl

/-- The high bit leaves the seven bits below alone. -/
lemma or_0x80 (b : UInt8) :
    ((b ||| 0x80) &&& 0x7f).toNat = b.toNat % 128 ∧ (b ||| 0x80) &&& 0x80 ≠ 0 := by
  constructor
  · rw [and_0x7f, UInt8.toNat_or]
    exact (Nat.or_mod_two_pow (n := 7)).trans (Nat.or_zero _)
  · rw [Ne, and_0x80, UInt8.toNat_or]
    have h : 128 ≤ b.toNat ||| 128 := Nat.right_le_or
    exact Nat.not_lt.mpr h

/-- Seven more bits above those that were read. -/
lemma or_shiftLeft {r x : UInt64} {s : Nat} (hs : s < 64) (hr : r.toNat < 2 ^ s)
    (hx : x.toNat * 2 ^ s < 2 ^ 64) :
    (r ||| T.shiftLeft x s).toNat = r.toNat + x.toNat * 2 ^ s := by
  have hs' : (UInt64.ofNat s).toNat = s := UInt64.toNat_ofNat_of_lt' (by
    show s < 18446744073709551616
    omega)
  rw [T.shiftLeft_eq x s hs, UInt64.toNat_or, UInt64.toNat_shiftLeft, hs', Nat.mod_eq_of_lt hs,
    Nat.shiftLeft_eq, Nat.mod_eq_of_lt hx, Nat.or_comm, ← Nat.shiftLeft_eq,
    ← Nat.shiftLeft_add_eq_or_of_lt hr, Nat.add_comm]

/-- The last byte of a number. -/
lemma uvarintFrom_last {s : Nat} {r v : UInt64} {rest : Bytes} (n : Nat) (hs : s < 64)
    (hv : v.toNat < 128) (hr : r.toNat < 2 ^ s) (hfit : v.toNat * 2 ^ s < 2 ^ 64) :
    ∃ w, uvarintFrom T r s (putUvarintLoop n v ++ rest) = (w, rest) ∧
      w.toNat = r.toNat + v.toNat * 2 ^ s := by
  have hput : putUvarintLoop n v = [v.toUInt8] := by
    cases n with
    | zero => rfl
    | succ n =>
      rw [putUvarintLoop, if_neg]
      rw [ge_iff_le, UInt64.le_iff_toNat_le, Nat.not_le]
      exact hv
  have hb : v.toUInt8.toNat = v.toNat := by
    rw [UInt64.toNat_toUInt8]
    omega
  have hx : (v.toUInt8 &&& 0x7f).toUInt64.toNat = v.toNat := by
    rw [UInt8.toNat_toUInt64, and_0x7f, hb]
    omega
  refine ⟨_, ?_, (or_shiftLeft (T := T) hs hr (hx ▸ hfit)).trans (by rw [hx])⟩
  rw [hput, List.singleton_append, uvarintFrom, if_pos]
  rw [and_0x80, hb]
  exact hv

/-- A number that is written is read back. -/
lemma uvarintFrom_put {n s : Nat} {r v : UInt64} {rest : Bytes} (hs : s + 7 * n ≤ 63)
    (hv : v.toNat < 128 ^ (n + 1)) (hr : r.toNat < 2 ^ s) (hfit : v.toNat * 2 ^ s < 2 ^ 64) :
    ∃ w, uvarintFrom T r s (putUvarintLoop n v ++ rest) = (w, rest) ∧
      w.toNat = r.toNat + v.toNat * 2 ^ s := by
  induction n generalizing s r v with
  | zero => exact uvarintFrom_last 0 (by omega) (by rwa [pow_one] at hv) hr hfit
  | succ n ih =>
    rcases Nat.lt_or_ge v.toNat 128 with h | h
    · exact uvarintFrom_last (n + 1) (by omega) h hr hfit
    · obtain ⟨hlow, hhigh⟩ := or_0x80 v.toUInt8
      have hx : ((v.toUInt8 ||| 0x80) &&& 0x7f).toUInt64.toNat = v.toNat % 128 := by
        rw [UInt8.toNat_toUInt64, hlow, UInt64.toNat_toUInt8]
        omega
      have hshift : (v >>> 7).toNat = v.toNat / 128 := by
        rw [UInt64.toNat_shiftRight]
        exact Nat.shiftRight_eq_div_pow v.toNat 7
      have hpow : 2 ^ (s + 7) = 2 ^ s * 128 := pow_add 2 s 7
      have hsplit : v.toNat * 2 ^ s = v.toNat / 128 * (2 ^ s * 128) + v.toNat % 128 * 2 ^ s := by
        conv_lhs => rw [← Nat.div_add_mod v.toNat 128]
        ring
      have hmod : v.toNat % 128 < 128 := Nat.mod_lt _ (by decide)
      have hmul : v.toNat % 128 * 2 ^ s ≤ 127 * 2 ^ s := Nat.mul_le_mul_right _ (by omega)
      have hor := or_shiftLeft (T := T) (x := ((v.toUInt8 ||| 0x80) &&& 0x7f).toUInt64)
        (by omega : s < 64) hr (by rw [hx]; omega)
      rw [hx] at hor
      have hrest : (v >>> 7).toNat < 128 ^ (n + 1) := by
        rw [pow_succ] at hv
        rw [hshift]
        omega
      obtain ⟨w, hw, hwn⟩ := ih (s := s + 7) (by omega) hrest (by rw [hor, hpow]; omega)
        (by rw [hshift, hpow]; omega)
      refine ⟨w, ?_, ?_⟩
      · have hge : v ≥ 0x80 := UInt64.le_iff_toNat_le.mpr h
        rw [putUvarintLoop, if_pos hge, List.cons_append, uvarintFrom, if_neg hhigh]
        exact hw
      · rw [hwn, hor, hshift, hpow, hsplit]
        omega

/-- `get_uvarint` gives back what `put_uvarint` wrote, and leaves what follows. -/
lemma uvarintFrom_putUvarint (v : UInt64) (rest : Bytes) :
    uvarintFrom T 0 0 (putUvarint v ++ rest) = (v, rest) := by
  have hlt : v.toNat < 2 ^ 64 := v.toNat_lt
  obtain ⟨w, hw, hwn⟩ := @uvarintFrom_put T 9 0 0 v rest
    (by decide) (hlt.trans_le (by decide)) (by decide) (by omega)
  rw [putUvarint, hw]
  have e : w = v := UInt64.toNat_inj.mp (by rw [hwn]; simp)
  rw [e]

/-- A column that is written is read back. -/
lemma columnFrom_putUvarint (vs : List UInt64) (rest : Bytes) :
    columnFrom T vs.length (vs.flatMap putUvarint ++ rest) = (vs, rest) := by
  induction vs with
  | nil => rfl
  | cons v vs ih =>
    rw [List.flatMap_cons, List.append_assoc, List.length_cons, columnFrom,
      uvarintFrom_putUvarint]
    dsimp only
    rw [ih]

variable {l : List EntryV3}

lemma length_deltas {last : UInt64} : (deltas last l).length = l.length := by
  induction l generalizing last with
  | nil => rfl
  | cons e l ih => exact congrArg (· + 1) ih

lemma length_offsetColumn {before : Option EntryV3} :
    (offsetColumn before l).length = l.length := by
  induction l generalizing before with
  | nil => rfl
  | cons e l ih => exact congrArg (· + 1) ih

/-- The differences add up to the tile ids. -/
lemma tileIds_deltas {last : UInt64} : tileIds last (deltas last l) = l.map (·.tileId) := by
  induction l generalizing last with
  | nil => rfl
  | cons e l ih =>
    have h : last + (e.tileId - last) = e.tileId := by
      rw [UInt64.add_comm, UInt64.sub_add_cancel]
    rw [deltas, tileIds, h, ih]
    rfl

/-- The offset of an entry can be told from the one before: it follows that one, or it is not the
last of all offsets, whose successor is zero. -/
def Follows (b e : EntryV3) : Prop :=
  e.offset = b.offset + b.length.toUInt64 ∨ e.offset + 1 ≠ 0

instance instDecidableFollows (b e : EntryV3) : Decidable (Follows b e) :=
  inferInstanceAs (Decidable (_ ∨ _))

/-- The column of the offsets gives the offsets back. -/
lemma offsets_offsetColumn (before : Option EntryV3)
    (h : (before.toList ++ l).IsChain Follows) :
    offsets (before.map fun b => (b.offset, b.length))
      ((offsetColumn before l).zip (l.map (·.length))) = l.map (·.offset) := by
  induction l generalizing before with
  | nil => rfl
  | cons e l ih =>
    have hrest : offsets (some (e.offset, e.length))
        ((offsetColumn (some e) l).zip (l.map (·.length))) = l.map (·.offset) := by
      refine ih (some e) ?_
      cases before with
      | none => exact h
      | some b => exact h.tail
    cases before with
    | none =>
      rw [offsetColumn, List.map_cons, List.zip_cons_cons, Option.map_none, offsets]
      rw [UInt64.add_sub_cancel]
      exact congrArg _ hrest
    | some b =>
      have hf : Follows b e := (List.isChain_cons_cons.mp h).1
      rw [offsetColumn, List.map_cons, List.zip_cons_cons, Option.map_some, offsets]
      by_cases hc : e.offset = b.offset + b.length.toUInt64
      · rw [if_pos hc, if_pos rfl, ← hc]
        exact congrArg _ hrest
      · rw [if_neg hc, if_neg (hf.resolve_left hc), UInt64.add_sub_cancel]
        exact congrArg _ hrest

/-- The columns of a list of entries give the entries back. -/
lemma entriesOf_columns (h : l.IsChain Follows) :
    entriesOf (deltas 0 l) (l.map (·.runLength.toUInt64)) (l.map (·.length.toUInt64))
      (offsetColumn none l) = l := by
  have hl : (l.map (·.length.toUInt64)).map (·.toUInt32) = l.map (·.length) := by
    rw [List.map_map]
    exact List.map_congr_left fun e _ => UInt32.toUInt32_toUInt64 e.length
  have hr : (l.map (·.runLength.toUInt64)).map (·.toUInt32) = l.map (·.runLength) := by
    rw [List.map_map]
    exact List.map_congr_left fun e _ => UInt32.toUInt32_toUInt64 e.runLength
  have ho := offsets_offsetColumn none h
  rw [Option.map_none] at ho
  unfold entriesOf
  dsimp only
  rw [hl, hr, tileIds_deltas, ho]
  clear hl hr ho h
  induction l with
  | nil => rfl
  | cons e l ih =>
    simp only [List.map_cons, List.zip_cons_cons, List.zipWith_cons_cons]
    rw [ih]

/-- A directory that is written is read back. -/
lemma directoryOf_serialize (h : l.IsChain Follows) (hl : l.length < 2 ^ 64) :
    countOf T (serializeEntriesRange l) = l.length ∧
      directoryOf T (serializeEntriesRange l) = l := by
  have hcnt : (UInt64.ofNat l.length).toNat = l.length := UInt64.toNat_ofNat_of_lt' hl
  have hnum : countOf T (serializeEntriesRange l) = l.length := by
    unfold countOf serializeEntriesRange
    rw [List.append_assoc, List.append_assoc, List.append_assoc, uvarintFrom_putUvarint]
    exact hcnt
  refine ⟨hnum, ?_⟩
  have h1 := columnFrom_putUvarint (T := T) (deltas 0 l)
  have h2 := columnFrom_putUvarint (T := T) (l.map (·.runLength.toUInt64))
  have h3 := columnFrom_putUvarint (T := T) (l.map (·.length.toUInt64))
  have h4 := columnFrom_putUvarint (T := T) (offsetColumn none l) []
  rw [length_deltas] at h1
  rw [List.length_map] at h2 h3
  rw [length_offsetColumn, List.append_nil] at h4
  unfold directoryOf
  rw [hnum]
  unfold serializeEntriesRange
  rw [List.append_assoc, List.append_assoc, List.append_assoc, uvarintFrom_putUvarint]
  unfold entriesFrom
  dsimp only
  rw [h1]
  dsimp only
  rw [h2]
  dsimp only
  rw [h3]
  dsimp only
  rw [h4]
  exact entriesOf_columns h

/-- Every sub-range of a list is read back as it was written, as long as its offsets can be told
apart. Any bytes are read without leaving the buffer; when the count fits the vector, as many
entries come back as it says, with zeros where the data ends, or the vector cannot be allocated. -/
theorem deserializeEntries_reads (T : Target) :
    (∀ (l : List EntryV3) (i n : Nat), l.IsChain Follows →
      T.room ((l.drop i).take n).length = true →
      deserializeEntries T (serializeEntriesRange ((l.drop i).take n)) =
        .entries ((l.drop i).take n)) ∧
    ∀ p : Bytes, deserializeEntries T p ≠ .outside ∧
      (countOf T p < 2 ^ 32 →
        deserializeEntries T p = .badAlloc ∧ T.room (countOf T p) = false ∨
        ∃ out, out.length = countOf T p ∧
          ∀ k, deserializeEntries T (p ++ List.replicate k 0) = .entries out) := by
  refine ⟨fun l i n h hroom => ?_, fun p => ⟨?_, fun hlt => ?_⟩⟩
  · have hlt := T.room_lt _ hroom
    have hc : ((l.drop i).take n).IsChain Follows := (h.drop i).take n
    obtain ⟨h1, h2⟩ := directoryOf_serialize (T := T) hc (hlt.trans (by decide))
    rw [deserializeEntries_eq, h1, h2, Nat.mod_eq_of_lt hlt, hroom,
      if_neg Bool.true_eq_false_eq_False, if_neg (lt_irrefl _)]
  · rw [deserializeEntries_eq]
    split
    next => exact nofun
    next =>
      split
      next => exact nofun
      next => exact nofun
  · cases hroom : T.room (countOf T p) with
    | false =>
      left
      rw [deserializeEntries_eq, Nat.mod_eq_of_lt hlt, hroom, if_pos rfl]
      exact ⟨rfl, rfl⟩
    | true =>
      right
      refine ⟨directoryOf T p, length_directoryOf, fun k => ?_⟩
      obtain ⟨h1, h2⟩ := directoryOf_zeros (T := T) (p := p) k
      rw [deserializeEntries_eq, h1, h2, Nat.mod_eq_of_lt hlt, hroom, if_neg (by decide),
        if_neg (lt_irrefl _)]

/-- A target that shifts everything out and has 8 MB for the entries. -/
def supreme : Target where
  shiftLeft v s := if s < 64 then v <<< UInt64.ofNat s else 0
  room n := decide (n ≤ 349525)
  shiftLeft_eq v s h := if_pos h
  shiftLeft_zero s := by
    split
    next => exact UInt64.zero_shiftLeft
    next => rfl
  room_lt n h := by
    have := of_decide_eq_true h
    omega

/-- A directory of one entry that ends behind the run length decodes to a tile without bytes, which
the extraction takes; a count of five in a directory of one byte decodes to five entries; a first
entry that is said to follow another gets the last of all offsets; and a second entry with that
offset comes back with another one. -/
theorem not_deserializeEntries_rejects :
    (∃ e : EntryV3, deserializeEntries supreme [1, 0, 1] = .entries [e] ∧ e.length = 0 ∧
      (relevant [0] 1 [e]).1 = [e]) ∧
    deserializeEntries supreme [5] =
      .entries (List.replicate 5 ⟨0, 0xffffffffffffffff, 0, 0⟩) ∧
    deserializeEntries supreme [1, 0, 1, 7, 0] = .entries [⟨0, 0xffffffffffffffff, 7, 1⟩] ∧
    deserializeEntries supreme
      (serializeEntriesRange [⟨0, 0, 1, 1⟩, ⟨1, 0xffffffffffffffff, 1, 1⟩]) =
        .entries [⟨0, 0, 1, 1⟩, ⟨1, 1, 1, 1⟩] := by
  refine ⟨⟨⟨0, 0xffffffffffffffff, 0, 1⟩, ?_, rfl, ?_⟩, ?_, ?_, ?_⟩
  · decide +kernel
  · decide +kernel
  · decide +kernel
  · decide +kernel
  · decide +kernel

end URSupreme.MapExtract
