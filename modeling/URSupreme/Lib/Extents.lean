import Mathlib
import URSupreme.Lib.Bytes

/-!
# Positioned writes

A file is the list of its bytes. A write at an offset behind the end fills the gap with zeros, and a
write of no bytes does nothing. An extent is a byte string with its offset: a file holds it when its
bytes stand there, and a file that was written extent by extent holds nothing else but zeros.
-/

namespace Lib

/-- A byte string and where it stands. -/
structure Extent where
  off : Nat
  data : Bytes
  deriving DecidableEq, Repr

/-- The byte of the extent at a position of the file. -/
def Extent.at (e : Extent) (i : Nat) : Option UInt8 :=
  if e.off ≤ i then e.data[i - e.off]? else none

/-- `lseek` and `write`. -/
def writeAt (f : Bytes) (e : Extent) : Bytes :=
  if e.data = [] then f
  else f.take e.off ++ List.replicate (e.off - f.length) 0 ++ e.data ++ f.drop
    (e.off + e.data.length)

/-- The bytes of the extent stand in the file. -/
def Holds (f : Bytes) (e : Extent) : Prop := ∀ i b, e.at i = some b → f[i]? = some b

/-- Nothing else stands in the file. -/
def HoldsOnly (f : Bytes) (es : List Extent) : Prop :=
  ∀ i b, f[i]? = some b → b = 0 ∨ ∃ e ∈ es, e.at i = some b

/-- Two extents have the same bytes where they overlap. -/
def Agree (e e' : Extent) : Prop := ∀ i b b', e.at i = some b → e'.at i = some b' → b = b'

variable {f : Bytes} {e e' : Extent} {es es' : List Extent} {i n : Nat} {b : UInt8}

lemma Extent.at_lt (h : e.at i = some b) : e.off ≤ i ∧ i < e.off + e.data.length := by
  unfold Extent.at at h
  split at h
  next hle =>
    obtain ⟨hlt, -⟩ := List.getElem?_eq_some_iff.mp h
    omega
  next => cases h

lemma Agree.symm (h : Agree e e') : Agree e' e := fun i b b' hb hb' => (h i b' b hb' hb).symm

lemma agree_refl : Agree e e := fun _ _ _ h h' => Option.some.inj (h.symm.trans h')

instance : Decidable (Agree e e') :=
  decidable_of_iff (∀ i < e.off + e.data.length, ∀ b ∈ e.at i, ∀ b' ∈ e'.at i, b = b')
    ⟨fun h i b b' hb hb' => h i (Extent.at_lt hb).2 b hb b' hb',
    fun h i _ b hb b' hb' => h i b b' hb hb'⟩

lemma length_before (f : Bytes) (off : Nat) :
    (f.take off ++ List.replicate (off - f.length) (0 : UInt8)).length = off := by
  rw [List.length_append, List.length_take, List.length_replicate]
  omega

/-- What a file has at a position after a write. -/
lemma getElem?_writeAt (hd : e.data ≠ []) : (writeAt f e)[i]? =
    if i < e.off then some (f[i]?.getD 0)
    else if i < e.off + e.data.length then e.at i else f[i]? := by
  unfold writeAt
  rw [if_neg hd, List.append_assoc _ e.data]
  split
  next hlt =>
    rw [List.getElem?_append_left (by rw [length_before]; exact hlt)]
    by_cases hf : i < f.length
    · rw [List.getElem?_append_left (by rw [List.length_take]; omega), List.getElem?_take,
        if_pos hlt, List.getElem?_eq_getElem hf]
      rfl
    · rw [List.getElem?_append_right (by rw [List.length_take]; omega), List.getElem?_replicate,
        List.length_take, if_pos (by omega), List.getElem?_eq_none (Nat.le_of_not_lt hf)]
      rfl
  next hge =>
    have hge := Nat.le_of_not_lt hge
    rw [List.getElem?_append_right (by rw [length_before]; exact hge), length_before]
    split
    next hlt =>
      unfold Extent.at
      rw [List.getElem?_append_left (by omega), if_pos hge]
    next hge' =>
      rw [List.getElem?_append_right (by omega), List.getElem?_drop]
      congr 1
      omega

lemma holds_writeAt : Holds (writeAt f e) e := fun i b h => by
  obtain ⟨hle, hlt⟩ := Extent.at_lt h
  have hd : e.data ≠ [] := fun hd => by
    rw [hd, List.length_nil] at hlt
    omega
  rw [getElem?_writeAt hd, if_neg (Nat.not_lt.mpr hle), if_pos hlt, h]

/-- A write keeps what agrees with it. -/
lemma Holds.writeAt (h : Holds f e) (ha : Agree e e') : Holds (writeAt f e') e := fun i b hb => by
  by_cases hd : e'.data = []
  · unfold Lib.writeAt
    rw [if_pos hd]
    exact h i b hb
  · have hf := h i b hb
    rw [getElem?_writeAt hd]
    split
    next =>
      rw [hf]
      rfl
    next hge =>
      split
      next hlt =>
        have hi : i - e'.off < e'.data.length := by omega
        have hin : e'.at i = some (e'.data.get ⟨i - e'.off, hi⟩) := by
          unfold Extent.at
          rw [if_pos (Nat.le_of_not_lt hge), List.getElem?_eq_getElem hi]
          rfl
        rw [hin, ha i b _ hb hin]
      next => exact hf

lemma HoldsOnly.writeAt (h : HoldsOnly f es) (he : e ∈ es) : HoldsOnly (writeAt f e) es :=
  fun i b hb => by
  by_cases hd : e.data = []
  · unfold Lib.writeAt at hb
    rw [if_pos hd] at hb
    exact h i b hb
  · rw [getElem?_writeAt hd] at hb
    split at hb
    next =>
      cases hf : f[i]? with
      | none =>
        rw [hf] at hb
        exact .inl (Option.some.inj hb).symm
      | some c =>
        rw [hf] at hb
        exact h i b (hf.trans hb)
    next =>
      split at hb
      next => exact .inr ⟨e, he, hb⟩
      next => exact h i b hb

lemma HoldsOnly.mono (h : HoldsOnly f es) (hs : ∀ e ∈ es, e ∈ es') : HoldsOnly f es' :=
  fun i b hb =>
  (h i b hb).imp_right fun ⟨e, he, hi⟩ => ⟨e, hs e he, hi⟩

lemma holdsOnly_nil : HoldsOnly [] es := fun i b h => by
  rw [List.getElem?_nil] at h
  cases h

/-- What a file holds is held by its beginning that reaches that far. -/
lemma Holds.take (h : Holds f e) (hn : e.off + e.data.length ≤ n) : Holds (f.take n) e :=
  fun i b hb => by
  have hlt := (Extent.at_lt hb).2
  rw [List.getElem?_take, if_pos (by omega)]
  exact h i b hb

lemma HoldsOnly.take (h : HoldsOnly f es) : HoldsOnly (f.take n) es := fun i b hb => by
  rw [List.getElem?_take] at hb
  split at hb
  next => exact h i b hb
  next => cases hb

/-- The extent stands in the file at its offset. -/
lemma Holds.at (h : Holds f e) : At f e.off e.data := by
  unfold At
  rw [List.prefix_iff_getElem?]
  intro i hi
  rw [List.getElem?_drop]
  refine h _ _ ?_
  unfold Extent.at
  rw [if_pos (Nat.le_add_right _ _), Nat.add_sub_cancel_left, List.getElem?_eq_getElem hi]

end Lib
