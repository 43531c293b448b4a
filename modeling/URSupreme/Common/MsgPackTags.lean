import URSupreme.Common.MsgPack

/-!
# The tags of the msgpack decoders

The tests of `skip_element` and `read_bin_or_str` on the tag byte, read through the class of the
tag, and the length fields they read behind it.
-/

namespace URSupreme.MsgPack
open Lib Lib.Wire

/-- The length field of `w` bytes that the tests read behind a tag. -/
def sizeAt (data : Bytes) (offset : Nat) : Nat → Except Fault Nat
  | 1 => do .ok (← byteAt data offset).toNat
  | 2 => u16 data offset
  | _ => u32 data offset

/-- `skipTag` by the class of the tag. -/
def skipClass (data : Bytes) (offset : Nat) : HeaderClass → Except Fault Head
  | .fixed n => .ok (advance data offset n)
  | .sized w =>
    if sz (offset + (w - 1)) < data.length then do
      .ok (advance data offset (w + (← sizeAt data offset w)))
    else .ok (.leaf false offset)
  | .items n => .ok (.items n offset)
  | .sizedItems 2 k =>
    if sz (offset + 1) < data.length then do
      .ok (.items ((← sizeAt data offset 2) * k) (sz (offset + 2)))
    else .ok (.leaf false offset)
  | .sizedItems _ _ => .ok (.leaf false offset)
  | .ext _ => .ok (.leaf false offset)
  | .unused => .ok (.leaf false offset)

/-- `readBinOrStr` by the class of the tag. -/
def readClass (data : Bytes) (offset : Nat) (t : UInt8) : Except Fault (Bytes × Nat) :=
  if 0xA0 ≤ t.toNat ∧ t.toNat ≤ 0xBF then readBody data (t.toNat - 0xA0) offset
  else
    match classify t with
    | .sized w =>
      if sz (offset + (w - 1)) < data.length then do
        readBody data (← sizeAt data offset w) (sz (offset + w))
      else .ok ([], offset)
    | _ => .ok ([], offset)

/-- The numbers of a class of tags are in their ranges. -/
def inRange : HeaderClass → Bool
  | .fixed n => n ≤ 31
  | .sized w => w = 1 ∨ w = 2 ∨ w = 4
  | .sizedItems w _ => w = 2 ∨ w = 4
  | _ => true

/-- The tag has a length field that counts bytes. -/
def isSized : HeaderClass → Bool
  | .sized _ => true
  | _ => false

/-- The masks of the tests on a tag byte, over its 256 values: the classes behind them, and the tags
they leave. -/
lemma tag_masks (t : UInt8) :
    ((t ≤ 0x7F ∨ 0xE0 ≤ t → classify t = .fixed 0) ∧
      (t &&& 0xE0 = 0xA0 → classify t = .fixed (t &&& 0x1F).toNat) ∧
      (t &&& 0xF0 = 0x90 → classify t = .items (t &&& 0x0F).toNat) ∧
      (t &&& 0xF0 = 0x80 → classify t = .items ((t &&& 0x0F).toNat * 2))) ∧
    ((t ≤ 0x7F ∨ 0xE0 ≤ t) ∨
      (¬ (t = 0xC0 ∨ t = 0xC2 ∨ t = 0xC3) ∧ ¬ t ≤ 0x7F ∧ ¬ 0xE0 ≤ t ∧
        (t &&& 0xE0 = 0xA0 ∨ (¬ t &&& 0xE0 = 0xA0 ∧
          (t &&& 0xF0 = 0x90 ∨ (¬ t &&& 0xF0 = 0x90 ∧ t &&& 0xF0 = 0x80))))) ∨
      (0xC0 ≤ t.toNat ∧ t.toNat < 0xE0)) := by
  revert t
  apply forall_byte
  decide +kernel

/-- The tags of strings and of length fields, and the numbers of the classes. -/
lemma tag_fields (t : UInt8) :
    ((t &&& 0xE0 = 0xA0 ↔ 0xA0 ≤ t.toNat ∧ t.toNat ≤ 0xBF) ∧
      (t &&& 0xE0 = 0xA0 → (t &&& 0x1F).toNat = t.toNat - 0xA0)) ∧
    (t = 0xD9 ∨ t = 0xDA ∨ t = 0xDB ∨ t = 0xC4 ∨ t = 0xC5 ∨ t = 0xC6 ∨
      ¬ (t = 0xD9 ∨ t = 0xDA ∨ t = 0xDB ∨ t = 0xC4 ∨ t = 0xC5 ∨ t = 0xC6) ∧
        isSized (classify t) = false) ∧
    inRange (classify t) = true := by
  revert t
  apply forall_byte
  decide +kernel

/-- The test for a short string. -/
lemma short_mask {t : UInt8} : (t &&& 0xE0 = 0xA0 ↔ 0xA0 ≤ t.toNat ∧ t.toNat ≤ 0xBF) ∧
    (t &&& 0xE0 = 0xA0 → (t &&& 0x1F).toNat = t.toNat - 0xA0) :=
  (tag_fields t).1

/-- The tests of `skip_element`, tag by tag. -/
lemma skipTag_eq {data t offset} (ho : offset ≤ data.length) (hl : data.length < 2 ^ 32) :
    skipTag data t offset = skipClass data offset (classify t) := by
  have h0 : sz offset = offset := sz_of_lt (by omega)
  have h1 : skipClass data offset (.fixed 0) = .ok (.leaf true offset) := by
    simp only [skipClass, advance, Nat.add_zero, h0, ho, decide_true]
  obtain ⟨⟨hfix, hstr, harr, hmap⟩, hcases⟩ := tag_masks t
  obtain h | ⟨hn, hlo, hhi, hm⟩ | ⟨hlo, hhi⟩ := hcases
  · rw [hfix h, h1, skipTag]
    rcases h with h | h
    · rw [if_pos h, ite_self]
    · rw [if_pos (c := t ≥ 0xE0) h, ite_self, ite_self]
  · rw [skipTag, if_neg hn, if_neg hlo, if_neg (c := t ≥ 0xE0) hhi]
    obtain hm | ⟨hn, hm | ⟨hn', hm⟩⟩ := hm
    · rw [if_pos hm, hstr hm]
      rfl
    · rw [if_neg hn, if_pos hm, harr hm]
      rfl
    · rw [if_neg hn, if_neg hn', if_pos hm, hmap hm]
      rfl
  · clear hfix hstr harr hmap
    obtain ⟨n, rfl⟩ : ∃ n, t = UInt8.ofNat n := ⟨t.toNat, (UInt8.ofNat_toNat).symm⟩
    generalize hk : (UInt8.ofNat n).toNat = k at hlo hhi
    have hn : UInt8.ofNat n = UInt8.ofNat k := by rw [← hk, UInt8.ofNat_toNat]
    rw [hn]
    clear hn hk
    interval_cases k
    all_goals first
      | rfl
      | exact h1.symm ▸ rfl
      | simp +decide [skipTag, skipClass, sizeAt, classify, h0]

/-- The tests of `read_bin_or_str`, tag by tag. -/
lemma readBinOrStr_eq {data t offset} (h : data[offset]? = some t)
    (hl : data.length < 2 ^ 32) :
    readBinOrStr data offset = readClass data (offset + 1) t := by
  have ho : offset < data.length := lt_of_some h
  have h0 : sz (offset + 1) = offset + 1 := sz_of_lt (by omega)
  simp only [readBinOrStr, ge_iff_le, not_le.mpr ho, if_false, byteAt_of_some h, ok_bind, h0]
  generalize offset + 1 = offset at h0
  clear h ho
  obtain ⟨⟨hmask, hlen⟩, hsized, -⟩ := tag_fields t
  by_cases hs : t &&& 0xE0 = 0xA0
  · rw [if_pos hs, readClass, if_pos (hmask.mp hs), hlen hs]
  · rw [if_neg hs, readClass, if_neg fun e => hs (hmask.mpr e)]
    clear hmask hlen hs
    obtain rfl | rfl | rfl | rfl | rfl | rfl | ⟨hn, hc⟩ := hsized
    case inr.inr.inr.inr.inr.inr =>
      simp only [not_or] at hn
      obtain ⟨n1, n2, n3, n4, n5, n6⟩ := hn
      simp only [n1, n2, n3, n4, n5, n6, false_and, if_false]
      cases hk : classify t with
      | sized w => rw [hk] at hc; exact absurd hc nofun
      | _ => rfl
    all_goals first
      | rfl
      | simp +decide [sizeAt, classify, h0]

/-- The numbers of the class of a tag. -/
lemma inRange_classify {t : UInt8} {c} (h : classify t = c) : inRange c = true :=
  h ▸ (tag_fields t).2.2

/-- The sizes of fixed elements. -/
lemma fixed_le {t n} (h : classify t = .fixed n) : n ≤ 31 :=
  of_decide_eq_true (inRange_classify h)

/-- The widths of length fields. -/
lemma width_sized {t w} (h : classify t = .sized w) : w = 1 ∨ w = 2 ∨ w = 4 :=
  of_decide_eq_true (inRange_classify h)

/-- The widths of count fields. -/
lemma width_sizedItems {t w k} (h : classify t = .sizedItems w k) : w = 2 ∨ w = 4 :=
  of_decide_eq_true (inRange_classify h)

/-- Shifted bytes joined by `|` are their big-endian number. -/
lemma shl_or {a w b : Nat} (h : b < 2 ^ w) : a <<< w ||| b = a * 2 ^ w + b := by
  rw [Nat.shiftLeft_eq, Nat.mul_comm, Nat.two_pow_add_eq_or_of_lt h]

/-- A length field inside the buffer is read as its big-endian number. -/
lemma sizeAt_of_at {data offset w len} (hw : w = 1 ∨ w = 2 ∨ w = 4) (hn : len.length = w)
    (h : At data offset len) (ho : offset ≤ data.length) (hl : data.length < 2 ^ 32) :
    sizeAt data offset w = .ok (be len) := by
  have hle := h.length_le ho
  rcases hw with rfl | rfl | rfl
  · match len, hn with
    | [a], _ =>
      rw [at_cons] at h
      simp [sizeAt, byteAt_of_some h.1]
  · match len, hn with
    | [a, b], _ =>
      have hb := b.toNat_lt
      simp only [at_cons] at h
      simp only [List.length_cons, List.length_nil] at hle
      simp only [sizeAt, u16, sz_of_lt (show offset < 2 ^ 32 by omega),
        sz_of_lt (show offset + 1 < 2 ^ 32 by omega), byteAt_of_some h.1, byteAt_of_some h.2.1,
        ok_bind]
      rw [shl_or (by omega)]
      simp
  · match len, hn with
    | [a, b, c, d], _ =>
      have hb := b.toNat_lt
      have hc := c.toNat_lt
      have hd := d.toNat_lt
      simp only [at_cons] at h
      simp only [List.length_cons, List.length_nil] at hle
      simp only [sizeAt, u32, sz_of_lt (show offset < 2 ^ 32 by omega),
        sz_of_lt (show offset + 1 < 2 ^ 32 by omega), sz_of_lt (show offset + 2 < 2 ^ 32 by omega),
        sz_of_lt (show offset + 3 < 2 ^ 32 by omega), byteAt_of_some h.1, byteAt_of_some h.2.1,
        byteAt_of_some h.2.2.1, byteAt_of_some h.2.2.2.1, ok_bind]
      rw [Nat.or_assoc, Nat.or_assoc, shl_or (a := c.toNat) (by omega),
        shl_or (a := b.toNat) (by omega), shl_or (a := a.toNat) (by omega)]
      simp

/-- The tags `skip_element` steps over. -/
def skippable (t : UInt8) : Bool :=
  match classify t with
  | .fixed _ | .sized _ | .items _ => true
  | .sizedItems w _ => w = 2
  | .ext _ | .unused => false

/-- A header byte `skip_element` steps over. -/
abbrev Known (t : UInt8) : Prop := skippable t = true

/-- The test for a positive fixint. -/
lemma fixint_mask {t : UInt8} (h : t ≤ 0x7F) : classify t = .fixed 0 := (tag_masks t).1.1 (.inl h)

/-- The test for a short map. -/
lemma map_mask {t : UInt8} (h : t &&& 0xF0 = 0x80) :
    classify t = .items (2 * (t &&& 0x0F).toNat) := by
  rw [(tag_masks t).1.2.2.2 h, Nat.mul_comm]

/-- A string or binary element is one `skip_element` steps over. -/
lemma element_of_text {raw content} (h : Text raw content) : Element Known raw := by
  refine h.element fun t k hc => ?_
  rcases hc with hc | ⟨h1, h2⟩
  · rw [Known, skippable, hc]
  · rw [Known, skippable, classify_short h1 h2]

end URSupreme.MsgPack
