import URSupreme.Lib.Bytes
import Mathlib.Data.Nat.Size
import Mathlib.Tactic

/-!
# The value of a stamp

`digest_value`, `digest_valid`, `hash_workblock_stamp` and `generate_search` of `Discovery/Stamp.h`.
The hash is a parameter: a state that is reset, updated and finalized, and copied as a value. The
search asks `should_abort` once in 256 candidates; its answers are given, and so is the number of
candidates it gets to.
-/

namespace URSupreme.StampValue
open Lib

def STAMP_SIZE : Nat := 32

/-- A digest of 32 bytes. -/
abbrev Digest := { b : Bytes // b.length = 32 }

/-- `while ((b & 0x80) == 0) { zeros++; b <<= 1; }`, for at most `n` turns. -/
def shiftZeros : Nat → UInt8 → Nat → Nat
  | 0, _, zeros => zeros
  | n + 1, b, zeros => if b &&& 0x80 = 0 then shiftZeros n (b <<< 1) (zeros + 1) else zeros

/-- The loop of `digest_value` over the bytes that are left. -/
def digestZeros : Bytes → Nat → Nat
  | [], zeros => zeros
  | b :: digest, zeros => if b = 0 then digestZeros digest (zeros + 8) else shiftZeros 8 b zeros

/-- `digest_value`. -/
def digestValue (digest : Digest) : Nat := digestZeros digest.1 0

/-- `while (b) { set_bits += (b & 1); b >>= 1; }`, for at most `n` turns. -/
def shiftBits : Nat → UInt8 → Nat → Nat
  | 0, _, setBits => setBits
  | n + 1, b, setBits => if b ≠ 0 then shiftBits n (b >>> 1) (setBits + (b &&& 1).toNat)
      else setBits

/-- The loop of `digest_valid`, which stops at two bits. -/
def digestBits : Bytes → Nat → Nat
  | [], setBits => setBits
  | b :: digest, setBits => if setBits < 2 then digestBits digest (shiftBits 8 b setBits)
      else setBits

/-- `digest_valid`. -/
def digestValid (digest : Digest) (cost : Nat) : Bool :=
  if cost = 0 then true
  else if cost > 256 then false
  else if digestValue digest ≥ cost then true
  else if digestValue digest ≠ cost - 1 then false
  else digestBits digest.1 0 = 1

/-- `SHA256`. -/
structure Sha (σ : Type) where
  reset : σ
  update : σ → Bytes → σ
  finalize : σ → Digest

section

variable {σ : Type} (S : Sha σ)

/-- The work block goes into the hash in pieces of 16384 bytes. -/
def updateBlock (h : σ) (workblock : Bytes) : σ :=
  if 0 < workblock.length then
    updateBlock (S.update h (workblock.take 16384)) (workblock.drop 16384)
  else h
termination_by workblock.length

/-- `hash_workblock_stamp`. -/
def hashWorkblockStamp (workblock stamp : Bytes) : Digest :=
  S.finalize (S.update (updateBlock S S.reset workblock) stamp)

/-- `stamp_valid`. -/
def stampValid (stamp : Bytes) (cost : Nat) (workblock : Bytes) : Bool :=
  digestValid (hashWorkblockStamp S workblock stamp) cost

/-- The little-endian bytes of the counter. -/
def counterBytes (n : UInt64) : Bytes :=
  (List.range 8).map fun i => UInt8.ofNat (n.toNat / 256 ^ i % 256)

/-- The candidate of a counter. -/
def candidate (n : UInt64) : Bytes := List.replicate (STAMP_SIZE - 8) 0 ++ counterBytes n

/-- What a search has come to: a stamp and its value, an abort, or nothing yet. -/
inductive Search where
  | found (stamp : Bytes) (value : Nat)
  | aborted
  | searching
  deriving DecidableEq, Repr

/-- The loop of `generate_search`, from the mid-state on. -/
def searchFrom (base : σ) (cost : Nat) (shouldAbort : UInt64 → Bool) : Nat → UInt64 → Search
  | 0, _ => .searching
  | fuel + 1, n =>
    let digest := S.finalize (S.update base (candidate n))
    if digestValid digest cost then .found (candidate n) (digestValue digest)
    else if (n + 1) &&& 0xFF = 0 ∧ shouldAbort (n + 1) = true then .aborted
    else searchFrom base cost shouldAbort fuel (n + 1)

/-- `generate_search`. -/
def generateSearch (workblock : Bytes) (cost : Nat) (shouldAbort : UInt64 → Bool) (fuel : Nat) :
    Search :=
  searchFrom S (updateBlock S S.reset workblock) cost shouldAbort fuel 0

end

section digest

variable {bs : Bytes} {b : UInt8} {z k : Nat}

/-- The leading zero bits of a byte, and the number of its bits. -/
lemma byte_loops (b : UInt8) :
    (b ≠ 0 → shiftZeros 8 b 0 < 8 ∧ 2 ^ (7 - shiftZeros 8 b 0) ≤ b.toNat ∧
      b.toNat < 2 ^ (8 - shiftZeros 8 b 0)) ∧
    (shiftBits 8 b 0 = 0 ↔ b = 0) ∧
    (shiftBits 8 b 0 = 1 ↔ ∃ j < 8, b.toNat = 2 ^ j) := by
  revert b
  apply forall_byte
  decide +kernel

lemma shiftZeros_add {n : Nat} : shiftZeros n b z = z + shiftZeros n b 0 := by
  induction n generalizing b z with
  | zero => rfl
  | succ n ih =>
    unfold shiftZeros
    split
    next =>
      rw [ih, @ih (b <<< 1) (0 + 1)]
      omega
    next => rfl

lemma shiftBits_add {n s : Nat} : shiftBits n b s = s + shiftBits n b 0 := by
  induction n generalizing b s with
  | zero => rfl
  | succ n ih =>
    unfold shiftBits
    split
    next =>
      rw [ih, @ih (b >>> 1) (0 + (b &&& 1).toNat)]
      omega
    next => rfl

lemma digestZeros_add : digestZeros bs z = z + digestZeros bs 0 := by
  induction bs generalizing z with
  | nil => rfl
  | cons b bs ih =>
    unfold digestZeros
    split
    next =>
      rw [ih, @ih (0 + 8)]
      omega
    next => exact shiftZeros_add

lemma pow_256 {n : Nat} : 256 ^ n = 2 ^ (8 * n) := by
  rw [Nat.pow_mul]

/-- A string of bytes starts with its leading zero bits. -/
lemma digestZeros_size : digestZeros bs 0 + (be bs).size = 8 * bs.length := by
  induction bs with
  | nil => rfl
  | cons b bs ih =>
    unfold digestZeros
    split
    next hb =>
      rw [hb, digestZeros_add, be_cons, UInt8.toNat_zero, Nat.zero_mul, Nat.zero_add (be bs),
        List.length_cons]
      omega
    next hb =>
      obtain ⟨hk, hlo, hhi⟩ := (byte_loops b).1 hb
      generalize shiftZeros 8 b 0 = k at hk hlo hhi
      have hlt := be_lt bs
      rw [pow_256] at hlt
      -- the first byte that is not zero has the highest bit
      have hsize : (be (b :: bs)).size = 8 - k + 8 * bs.length := by
        refine Nat.le_antisymm (Nat.size_le.mpr ?_) (Nat.le_of_pred_lt (Nat.lt_size.mpr ?_))
        · rw [be_cons, pow_256, Nat.pow_add]
          calc b.toNat * 2 ^ (8 * bs.length) + be bs
              < b.toNat * 2 ^ (8 * bs.length) + 2 ^ (8 * bs.length) := Nat.add_lt_add_left hlt _
            _ = (b.toNat + 1) * 2 ^ (8 * bs.length) := (Nat.succ_mul _ _).symm
            _ ≤ 2 ^ (8 - k) * 2 ^ (8 * bs.length) := Nat.mul_le_mul_right _ hhi
        · have hpred : Nat.pred (8 - k + 8 * bs.length) = 7 - k + 8 * bs.length := by
            rw [Nat.pred_eq_sub_one]
            omega
          rw [hpred, be_cons, pow_256, Nat.pow_add]
          exact (Nat.mul_le_mul_right _ hlo).trans (Nat.le_add_right _ _)
      rw [hsize, List.length_cons]
      omega

/-- `digest_value` is the number of leading zero bits. -/
lemma digestValue_eq {digest : Digest} : digestValue digest = 256 - (be digest.1).size := by
  have h := @digestZeros_size digest.1
  rw [digest.2] at h
  exact Nat.eq_sub_of_add_eq h

lemma digestBits_le {s : Nat} : s ≤ digestBits bs s := by
  induction bs generalizing s with
  | nil => exact le_rfl
  | cons b bs ih =>
    unfold digestBits
    split
    next => exact le_trans (by rw [shiftBits_add]; exact Nat.le_add_right _ _) ih
    next => exact le_rfl

/-- Behind one bit there is no other, exactly when the rest is zero. -/
lemma digestBits_one : digestBits bs 1 = 1 ↔ be bs = 0 := by
  induction bs with
  | nil => exact iff_of_true rfl rfl
  | cons b bs ih =>
    obtain ⟨-, hzero, -⟩ := byte_loops b
    have hpos : 0 < 256 ^ bs.length := Nat.pow_pos (by decide)
    rw [digestBits, if_pos (by decide), shiftBits_add, be_cons, Nat.add_eq_zero_iff,
      Nat.mul_eq_zero]
    by_cases hb : b = 0
    · rw [hzero.mpr hb, ih, hb]
      exact ⟨fun h => ⟨.inl rfl, h⟩, And.right⟩
    · have hne : shiftBits 8 b 0 ≠ 0 := fun h => hb (hzero.mp h)
      refine iff_of_false (fun h => ?_) fun h => ?_
      · have hle := @digestBits_le bs (1 + shiftBits 8 b 0)
        omega
      · rcases h.1 with h | h
        · exact hb (UInt8.toNat_inj.mp h)
        · exact hpos.ne' h

/-- One bit is set in a power of two, and only there. -/
lemma digestBits_zero : digestBits bs 0 = 1 ↔ ∃ k, be bs = 2 ^ k := by
  induction bs with
  | nil =>
    refine iff_of_false (by decide) ?_
    rintro ⟨k, hk⟩
    exact (Nat.pow_pos (n := k) (by decide)).ne hk
  | cons b bs ih =>
    obtain ⟨-, hzero, hone⟩ := byte_loops b
    have hlt := be_lt bs
    have hpos : 0 < 256 ^ bs.length := Nat.pow_pos (by decide)
    rw [digestBits, if_pos (by decide), be_cons]
    by_cases hb : b = 0
    · rw [hzero.mpr hb, ih, hb, UInt8.toNat_zero, Nat.zero_mul, Nat.zero_add]
    · by_cases h1 : shiftBits 8 b 0 = 1
      · -- the bit is in this byte
        obtain ⟨j, -, hj⟩ := hone.mp h1
        rw [h1, digestBits_one, hj, pow_256, ← Nat.pow_add]
        rw [pow_256] at hlt
        constructor
        · intro h
          exact ⟨j + 8 * bs.length, by rw [h, Nat.add_zero]⟩
        · rintro ⟨k, hk⟩
          by_contra hne
          have hj : 2 ^ (8 * bs.length) ≤ 2 ^ (j + 8 * bs.length) :=
            Nat.pow_le_pow_right (by decide) (Nat.le_add_left _ _)
          have hlo : 2 ^ (j + 8 * bs.length) < 2 ^ k := by omega
          have hhi : 2 ^ k < 2 ^ (j + 8 * bs.length + 1) := by
            rw [Nat.pow_succ]
            omega
          have h2 := (Nat.pow_lt_pow_iff_right (by decide)).mp hlo
          have h3 := (Nat.pow_lt_pow_iff_right (by decide)).mp hhi
          omega
      · -- the byte has more bits
        have h0 : shiftBits 8 b 0 ≠ 0 := fun h => hb (hzero.mp h)
        refine iff_of_false (fun h => ?_) ?_
        · have hle := @digestBits_le bs (shiftBits 8 b 0)
          omega
        · rintro ⟨k, hk⟩
          refine h1 (hone.mpr ?_)
          have hdiv : b.toNat = 2 ^ k / 256 ^ bs.length := by
            rw [← hk, Nat.add_comm, Nat.add_mul_div_right _ _ hpos, Nat.div_eq_of_lt hlt,
              Nat.zero_add]
          have hbne : b.toNat ≠ 0 := fun h => hb (UInt8.toNat_inj.mp h)
          rw [pow_256] at hdiv
          by_cases hle : 8 * bs.length ≤ k
          · rw [Nat.pow_div hle (by decide)] at hdiv
            refine ⟨k - 8 * bs.length, ?_, hdiv⟩
            have h8 : 2 ^ (k - 8 * bs.length) < 2 ^ 8 := hdiv ▸ b.toNat_lt
            exact (Nat.pow_lt_pow_iff_right (by decide)).mp h8
          · rw [Nat.div_eq_of_lt (Nat.pow_lt_pow_right (by decide) (Nat.lt_of_not_le hle))] at hdiv
            exact absurd hdiv hbne

/-- `digest_valid` compares the digest with the target. -/
lemma digestValid_iff {digest : Digest} {cost : Nat} (h : cost ≤ 256) :
    digestValid digest cost = true ↔ be digest.1 ≤ 2 ^ (256 - cost) := by
  have hlt := be_lt digest.1
  rw [digest.2, pow_256] at hlt
  have hz := @digestZeros_size digest.1
  rw [digest.2] at hz
  have hv : digestValue digest = digestZeros digest.1 0 := rfl
  unfold digestValid
  by_cases h0 : cost = 0
  · rw [if_pos h0, h0]
    exact iff_of_true rfl hlt.le
  · rw [if_neg h0, if_neg (Nat.not_lt.mpr h), hv]
    by_cases hge : digestZeros digest.1 0 ≥ cost
    · rw [if_pos hge]
      refine iff_of_true rfl (Nat.size_le.mp ?_).le
      omega
    · rw [if_neg hge]
      by_cases heq : digestZeros digest.1 0 = cost - 1
      · -- the highest bit is that of the target
        rw [if_neg (not_not.mpr heq), decide_eq_true_eq, digestBits_zero]
        have hs : (be digest.1).size = 256 - cost + 1 := by omega
        have hlo : 2 ^ (256 - cost) ≤ be digest.1 := Nat.lt_size.mp (by omega)
        have hhi : be digest.1 < 2 ^ (256 - cost + 1) := Nat.size_le.mp hs.le
        constructor
        · rintro ⟨k, hk⟩
          rw [hk] at hlo hhi ⊢
          have h1 := (Nat.pow_lt_pow_iff_right (by decide)).mp hhi
          exact Nat.pow_le_pow_right (by decide) (Nat.le_of_lt_succ h1)
        · exact fun hle => ⟨256 - cost, Nat.le_antisymm hle hlo⟩
      · rw [if_pos heq]
        refine iff_of_false Bool.false_ne_true fun hle => ?_
        have hlo : 2 ^ (256 - cost + 1) ≤ be digest.1 := Nat.lt_size.mp (by omega)
        have hp : 2 ^ (256 - cost) < 2 ^ (256 - cost + 1) :=
          Nat.pow_lt_pow_right (by decide) (Nat.lt_succ_self _)
        omega

/-- A digest that is valid at a cost is valid at every lower one. -/
lemma digestValid_mono {digest : Digest} {cost c : Nat} (h : digestValid digest cost = true)
    (hc : c ≤ cost) : digestValid digest c = true := by
  have hcost : cost ≤ 256 := by
    by_contra hgt
    unfold digestValid at h
    rw [if_neg (by omega), if_pos (by omega)] at h
    cases h
  rw [digestValid_iff hcost] at h
  rw [digestValid_iff (hc.trans hcost)]
  exact h.trans (Nat.pow_le_pow_right (by decide) (Nat.sub_le_sub_left hc _))

end digest

section search

variable {σ : Type} {S : Sha σ} {base : σ} {cost fuel value : Nat} {shouldAbort : UInt64 → Bool}
variable {n : UInt64} {stamp workblock : Bytes}

/-- What the loop returns is a candidate that is valid. -/
lemma of_searchFrom (h : searchFrom S base cost shouldAbort fuel n = .found stamp value) :
    digestValid (S.finalize (S.update base stamp)) cost = true ∧
      value = digestValue (S.finalize (S.update base stamp)) := by
  induction fuel generalizing n with
  | zero => cases h
  | succ fuel ih =>
    unfold searchFrom at h
    dsimp only at h
    split at h
    next hv =>
      cases h
      exact ⟨hv, rfl⟩
    next =>
      split at h
      next => cases h
      next => exact ih h

/-- **`digest_valid` is the comparison with the target**, `digest_value` the number of leading zero
bits, and a stamp of the search is valid for its work block, at its cost and at every lower one. -/
theorem digestValid_search :
    (∀ digest : Digest, digestValue digest = 256 - (be digest.1).size ∧
      ∀ cost ≤ 256, digestValid digest cost = true ↔ be digest.1 ≤ 2 ^ (256 - cost)) ∧
    ∀ workblock cost shouldAbort fuel stamp value,
      generateSearch S workblock cost shouldAbort fuel = .found stamp value →
        ∀ c ≤ cost, stampValid S stamp c workblock = true := by
  refine ⟨fun digest => ⟨digestValue_eq, fun cost hc => digestValid_iff hc⟩, ?_⟩
  intro workblock cost shouldAbort fuel stamp value h c hc
  exact digestValid_mono (of_searchFrom h).1 hc

/-- A hash that counts its bytes. -/
def countHash : Sha Nat where
  reset := 0
  update h b := h + b.length
  finalize h := ⟨List.replicate 31 0 ++ [UInt8.ofNat h], rfl⟩

/-- The first candidate is found, and valid at a lower cost. -/
theorem digestValid_search_first :
    generateSearch countHash [] 8 (fun _ => false) 1 = .found (candidate 0) 250 ∧
      stampValid countHash (candidate 0) 3 [] = true := by
  have hblock : updateBlock countHash countHash.reset [] = 0 := by
    rw [updateBlock]
    rfl
  have h : generateSearch countHash [] 8 (fun _ => false) 1 = .found (candidate 0) 250 := by
    rw [generateSearch, hblock]
    decide
  exact ⟨h, digestValid_search.2 _ _ _ _ _ _ h 3 (by decide)⟩

end search

end URSupreme.StampValue
