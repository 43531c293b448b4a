import Mathlib.Tactic

/-!
# Byte strings

Byte strings as lists of `UInt8`, the big-endian numbers `be` written in them, and the byte-table
principle `forall_byte`: a decidable property of one byte is settled by its 256 values.
-/

namespace Lib

/-- A byte string. -/
abbrev Bytes := List UInt8

instance lawfulBEqBytes : LawfulBEq Bytes := inferInstanceAs (LawfulBEq (List UInt8))

/-- A property of a byte holds if it holds of the 256 values (used with `decide`). -/
lemma forall_byte {P : UInt8 → Prop} (h : ∀ n < 256, P (UInt8.ofNat n)) (t : UInt8) : P t := by
  have e := h t.toNat t.toNat_lt
  rwa [UInt8.ofNat_toNat] at e

/-- The number a byte string writes in big-endian order. -/
def be : Bytes → Nat
  | [] => 0
  | b :: bs => b.toNat * 256 ^ bs.length + be bs

@[simp] lemma be_nil : be [] = 0 := rfl

@[simp] lemma be_cons (b : UInt8) (bs : Bytes) :
    be (b :: bs) = b.toNat * 256 ^ bs.length + be bs := rfl

lemma be_lt (bs : Bytes) : be bs < 256 ^ bs.length := by
  induction bs with
  | nil => simp
  | cons b bs ih =>
    have hb := b.toNat_lt
    rw [be_cons, List.length_cons, pow_succ]
    calc b.toNat * 256 ^ bs.length + be bs
        < b.toNat * 256 ^ bs.length + 256 ^ bs.length := by omega
      _ = (b.toNat + 1) * 256 ^ bs.length := by ring
      _ ≤ 256 * 256 ^ bs.length := Nat.mul_le_mul_right _ (by omega)
      _ = 256 ^ bs.length * 256 := by ring

/-- The `w` low bytes of `n`, most significant first. -/
def beBytes : Nat → Nat → Bytes
  | 0, _ => []
  | w + 1, n => UInt8.ofNat (n / 256 ^ w % 256) :: beBytes w n

@[simp] lemma beBytes_zero (n : Nat) : beBytes 0 n = [] := rfl

lemma beBytes_succ (w n : Nat) :
    beBytes (w + 1) n = UInt8.ofNat (n / 256 ^ w % 256) :: beBytes w n := rfl

@[simp] lemma length_beBytes (w n : Nat) : (beBytes w n).length = w := by
  induction w with
  | zero => rfl
  | succ w ih => rw [beBytes_succ, List.length_cons, ih]

/-- The high bytes come first. -/
lemma beBytes_add (w v n : Nat) : beBytes (w + v) n = beBytes w (n / 256 ^ v) ++ beBytes v n := by
  induction w with
  | zero => simp
  | succ w ih =>
    rw [show w + 1 + v = w + v + 1 by omega, beBytes_succ, beBytes_succ, ih, List.cons_append,
      Nat.div_div_eq_div_mul, ← pow_add, Nat.add_comm v w]

lemma be_beBytes_mod (w n : Nat) : be (beBytes w n) = n % 256 ^ w := by
  induction w with
  | zero => simp [Nat.mod_one]
  | succ w ih =>
    have hlt : n / 256 ^ w % 256 < 256 := Nat.mod_lt _ (by norm_num)
    have hb : (UInt8.ofNat (n / 256 ^ w % 256)).toNat = n / 256 ^ w % 256 := by
      simp [UInt8.toNat_ofNat']
    rw [beBytes_succ, be_cons, length_beBytes, ih, hb, pow_succ, Nat.mod_mul]
    ring

/-- Writing a number that fits in `w` bytes and reading it back gives the number. -/
lemma be_beBytes {w n : Nat} (h : n < 256 ^ w) : be (beBytes w n) = n := by
  rw [be_beBytes_mod, Nat.mod_eq_of_lt h]

/-- The `n` bytes from offset `o` on (fewer at the end of the string). -/
def window (data : Bytes) (o n : Nat) : Bytes := (data.drop o).take n

lemma length_window {data : Bytes} {o n : Nat} (h : o + n ≤ data.length) :
    (window data o n).length = n := by
  have hn : n ≤ (data.drop o).length := by
    rw [List.length_drop]
    omega
  exact List.length_take_of_le hn

/-- `bs` stands in `data` at offset `o`. -/
def At (data : Bytes) (o : Nat) (bs : Bytes) : Prop := bs <+: data.drop o

lemma at_iff {data bs : Bytes} {o : Nat} : At data o bs ↔ ∃ c, bs ++ c = data.drop o := Iff.rfl

lemma at_nil {data : Bytes} {o : Nat} : At data o [] := List.nil_prefix

lemma at_window {data : Bytes} {o n : Nat} : At data o (window data o n) := List.take_prefix n _

lemma At.window_eq {data bs : Bytes} {o : Nat} (h : At data o bs) :
    window data o bs.length = bs :=
  (List.prefix_iff_eq_take.mp h).symm

lemma At.length_le {data bs : Bytes} {o : Nat} (h : At data o bs) (ho : o ≤ data.length) :
    o + bs.length ≤ data.length := by
  have e := List.IsPrefix.length_le h
  rw [List.length_drop] at e
  omega

lemma at_append {data a b : Bytes} {o : Nat} :
    At data o (a ++ b) ↔ At data o a ∧ At data (o + a.length) b := by
  simp only [at_iff]
  constructor
  · rintro ⟨c, e⟩
    refine ⟨⟨b ++ c, by rw [← e, List.append_assoc]⟩, ⟨c, ?_⟩⟩
    rw [← List.drop_drop, ← e, List.append_assoc, List.drop_left]
  · rintro ⟨⟨c, e⟩, h⟩
    rw [← List.drop_drop, ← e, List.drop_left] at h
    obtain ⟨d, rfl⟩ := h
    exact ⟨d, by rw [← e, List.append_assoc]⟩

lemma at_cons {data bs : Bytes} {o : Nat} {t : UInt8} :
    At data o (t :: bs) ↔ data[o]? = some t ∧ At data (o + 1) bs := by
  rw [← List.singleton_append, at_append, List.length_singleton]
  refine and_congr_left fun _ => ?_
  rw [at_iff, ← List.head?_drop]
  cases data.drop o <;> simp [eq_comm]

lemma at_append_right {data bs rest : Bytes} {o : Nat} (h : At data o bs) :
    At (data ++ rest) o bs := by
  obtain ⟨c, e⟩ := h
  by_cases ho : o ≤ data.length
  · exact ⟨c ++ rest, by rw [List.drop_append_of_le_length ho, ← e, List.append_assoc]⟩
  · rw [List.drop_eq_nil_of_le (by omega), List.append_eq_nil_iff] at e
    rw [e.1]
    exact at_nil

lemma at_self {bs : Bytes} : At bs 0 bs := List.prefix_refl bs

end Lib
