import URSupreme.Lib.Bytes

/-!
# Records of one width

Records written one after another, all of the same number of bytes. A reader that is told how many
there are gets, of a file that was cut, the records that are there as a whole.

Numbers with the lowest byte first are the big-endian ones read backwards.
-/

namespace Lib

/-- The number a byte string writes in little-endian order. -/
def le (bs : Bytes) : Nat := be bs.reverse

/-- The `w` low bytes of `n`, least significant first. -/
def leBytes (w n : Nat) : Bytes := (beBytes w n).reverse

@[simp] lemma length_leBytes (w n : Nat) : (leBytes w n).length = w := by
  rw [leBytes, List.length_reverse, length_beBytes]

lemma le_leBytes {w n : Nat} (h : n < 256 ^ w) : le (leBytes w n) = n := by
  rw [le, leBytes, List.reverse_reverse, be_beBytes h]

variable {α β : Type}

/-- Reads up to so many records, and whether they are all there. -/
def readRecords (w : Nat) (dec : List β → α) : Nat → List β → List α × Bool
  | 0, _ => ([], true)
  | count + 1, data =>
    if data.length < w then ([], false)
    else
      let (l, ok) := readRecords w dec count (data.drop w)
      (dec data :: l, ok)

variable {w k : Nat} {dec : List β → α} {enc : α → List β} {l : List α}

/-- Of the first `k` bytes of some records the whole ones are read. -/
lemma readRecords_take (hw : 0 < w) (hlen : ∀ a ∈ l, (enc a).length = w)
    (hdec : ∀ a ∈ l, ∀ rest, dec (enc a ++ rest) = a) :
    (readRecords w dec l.length ((l.flatMap enc).take k)).1 = l.take (k / w) := by
  induction l generalizing k with
  | nil => rw [List.take_nil]; rfl
  | cons a l ih =>
    have ha := hlen a List.mem_cons_self
    rw [List.length_cons, readRecords, List.flatMap_cons, List.length_take, List.length_append, ha]
    rcases Nat.lt_or_ge k w with hk | hk
    · rw [if_pos (lt_of_le_of_lt (Nat.min_le_left _ _) hk), Nat.div_eq_of_lt hk]
      rfl
    · rw [if_neg (not_lt.mpr (le_min hk (Nat.le_add_right _ _))), List.take_append, ha,
        List.take_of_length_le (ha.trans_le hk), hdec a List.mem_cons_self,
        Nat.div_eq_sub_div hw hk,
        List.take_succ_cons]
      dsimp only
      rw [← ha, List.drop_left, ha]
      exact congrArg (a :: ·) (ih (fun b hb => hlen b (List.mem_cons_of_mem a hb))
        fun b hb => hdec b (List.mem_cons_of_mem a hb))

end Lib
