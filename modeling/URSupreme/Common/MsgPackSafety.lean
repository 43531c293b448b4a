import URSupreme.Common.MsgPackTags

/-!
# Safety of the msgpack decoders

Where no announced end passes `2 ^ 32` (`Fits`) both decoders are total, stay inside the buffer and
step over complete elements, and `Fits` is exactly what they need.
-/

namespace URSupreme.MsgPack
open Lib Lib.Wire

/-- No length field and no announced payload of the buffer ends at or past `2 ^ 32`. -/
structure Fits (data : Bytes) : Prop where
  fixed : ∀ {o t n}, data[o]? = some t → classify t = .fixed n → o + 1 + n < 2 ^ 32
  sized : ∀ {o t w}, data[o]? = some t → classify t = .sized w → sz (o + w) < data.length →
    o + 1 + w + be (window data (o + 1) w) < 2 ^ 32
  sizedItems : ∀ {o t k}, data[o]? = some t → classify t = .sizedItems 2 k →
    sz (o + 2) < data.length → o + 3 < 2 ^ 32

/-- A buffer without 4-byte length fields fits if it ends well below `2 ^ 32`. -/
lemma fits_of_narrow {data : Bytes} (hl : data.length + 2 ^ 17 < 2 ^ 32)
    (h : ∀ t ∈ data, classify t ≠ .sized 4) : Fits data where
  fixed := by
    intro o t n ht hc
    have := lt_of_some ht
    have := fixed_le hc
    omega
  sized := by
    intro o t w ht hc _
    have ho := lt_of_some ht
    have hbe := be_lt (window data (o + 1) w)
    have hw : (window data (o + 1) w).length ≤ w := List.length_take_le ..
    have hmono := Nat.pow_le_pow_right (show 0 < 256 by norm_num) hw
    rcases width_sized hc with rfl | rfl | rfl
    · omega
    · omega
    · exact absurd hc (h t (List.mem_of_getElem? ht))
  sizedItems := by
    intro o t k ht _ _
    have := lt_of_some ht
    omega

/-- A successful skip has stepped over `n` complete elements. -/
def Skips (data : Bytes) (n offset : Nat) (r : Bool × Nat) : Prop :=
  r.1 = true → ∃ bs, Elements Known n bs ∧ At data offset bs ∧ r.2 = offset + bs.length

/-- What the tests of `skip_element` leave to do: nothing, or the elements of a container whose
header they have passed. -/
def Opens (data : Bytes) (offset : Nat) : Head → Prop
  | .leaf ok o => Skips data 1 offset (ok, o)
  | .items n o => ∃ hdr, At data offset hdr ∧ hdr ≠ [] ∧ o = offset + hdr.length ∧
      o ≤ data.length ∧ ∀ {inner}, Elements Known n inner → Element Known (hdr ++ inner)

section Total
variable {data : Bytes} (hf : Fits data) (hl : data.length < 2 ^ 32)
include hf hl

/-- The tests of `skip_element` read inside the buffer and open complete elements. -/
lemma skipTag_total {offset t} (h : data[offset]? = some t) :
    ∃ hd, skipTag data t (sz (offset + 1)) = .ok hd ∧ Opens data offset hd := by
  have ho : offset < data.length := lt_of_some h
  have h1 : At data (offset + 1) [] := at_nil
  rw [sz_of_lt (show offset + 1 < 2 ^ 32 by omega), skipTag_eq (by omega) hl]
  cases hc : classify t with
  | fixed n =>
    have hk : Known t := by rw [Known, skippable, hc]
    refine ⟨_, rfl, fun hok => ?_⟩
    rw [sz_of_lt (hf.fixed h hc)] at hok ⊢
    have hle : offset + 1 + n ≤ data.length := of_decide_eq_true hok
    refine ⟨t :: (window data (offset + 1) n ++ []), .fixed hk hc (length_window hle) .nil, ?_, ?_⟩
    · rw [List.append_nil]
      exact at_cons.mpr ⟨h, at_window⟩
    · simp only [List.append_nil, List.length_cons, length_window hle]
      omega
  | sized w =>
    have hk : Known t := by rw [Known, skippable, hc]
    have hw := width_sized hc
    simp only [skipClass, show offset + 1 + (w - 1) = offset + w by omega]
    split
    next hlt =>
      have hfit := hf.sized h hc hlt
      rw [sz_of_lt (by omega)] at hlt
      have hlen : (window data (offset + 1) w).length = w := length_window (by omega)
      rw [sizeAt_of_at hw hlen at_window (by omega) hl, ok_bind]
      refine ⟨_, rfl, fun hok => ?_⟩
      rw [← Nat.add_assoc, sz_of_lt hfit] at hok ⊢
      generalize hn : be (window data (offset + 1) w) = n at *
      have hle : offset + 1 + w + n ≤ data.length := of_decide_eq_true hok
      refine ⟨t :: (window data (offset + 1) w ++ (window data (offset + 1 + w) n ++ [])),
        .sized hk hc hlen (by rw [length_window hle, hn]) .nil, ?_, ?_⟩
      · rw [List.append_nil, at_cons, at_append, hlen]
        exact ⟨h, at_window, at_window⟩
      · simp only [List.append_nil, List.length_cons, List.length_append, length_window hle, hlen]
        omega
    next => exact ⟨_, rfl, fun hok => by cases hok⟩
  | items n =>
    have hk : Known t := by rw [Known, skippable, hc]
    refine ⟨_, rfl, [t], at_cons.mpr ⟨h, at_nil⟩, by simp, rfl, by omega, fun hi => ?_⟩
    rw [← List.append_nil (_ ++ _)]
    exact .items hk hc hi .nil
  | sizedItems w k =>
    rcases width_sizedItems hc with rfl | rfl
    · have hk : Known t := by rw [Known, skippable, hc]; rfl
      simp only [skipClass, show offset + 1 + 1 = offset + 2 by omega]
      split
      next hlt =>
        have hfit := hf.sizedItems h hc hlt
        rw [sz_of_lt (by omega)] at hlt
        have hlen : (window data (offset + 1) 2).length = 2 := length_window (by omega)
        rw [sizeAt_of_at (.inr (.inl rfl)) hlen at_window (by omega) hl, ok_bind,
          sz_of_lt (by omega)]
        refine ⟨_, rfl, t :: window data (offset + 1) 2, at_cons.mpr ⟨h, at_window⟩, by simp, ?_,
          by omega, fun hi => ?_⟩
        · rw [List.length_cons, hlen]
        · rw [Nat.mul_comm] at hi
          rw [← List.append_nil (_ ++ _), List.cons_append, List.cons_append, List.append_assoc]
          exact .sizedItems hk hc hlen hi .nil
      next => exact ⟨_, rfl, fun hok => by cases hok⟩
    · exact ⟨_, rfl, fun hok => by cases hok⟩
  | ext w => exact ⟨_, rfl, fun hok => by cases hok⟩
  | unused => exact ⟨_, rfl, fun hok => by cases hok⟩

omit hf hl in
/-- Skipping element after element steps over all of them. -/
lemma skipMany_total {skip lo}
    (h : ∀ {o}, lo ≤ o → o ≤ data.length → ∃ r, skip o = .ok r ∧ Skips data 1 o r) :
    ∀ {n o}, lo ≤ o → o ≤ data.length → ∃ r, skipMany skip n o = .ok r ∧ Skips data n o r := by
  intro n
  induction n with
  | zero =>
    intro o _ _
    exact ⟨_, rfl, fun _ => ⟨[], .nil, at_nil, rfl⟩⟩
  | succ n ih =>
    intro o hlo ho
    obtain ⟨⟨ok, o'⟩, e, hs⟩ := h hlo ho
    rw [skipMany_succ, e, ok_bind]
    cases ok with
    | false => exact ⟨_, rfl, fun hok => by cases hok⟩
    | true =>
      obtain ⟨a, ha, hat, rfl⟩ := hs rfl
      obtain ⟨r, e', hs'⟩ := ih (o := o + a.length) (by omega) (hat.length_le ho)
      refine ⟨r, e', fun hok => ?_⟩
      obtain ⟨b, hb, hbt, hr⟩ := hs' hok
      refine ⟨a ++ b, ?_, at_append.mpr ⟨hat, hbt⟩, ?_⟩
      · rw [Nat.add_comm n 1]
        exact ha.append hb
      · rw [hr, List.length_append, Nat.add_assoc]

/-- `skip_element` ends, and a success has stepped over one complete element. -/
lemma skipElement_total {fuel offset} (ho : offset ≤ data.length)
    (hfuel : data.length < offset + fuel) :
    ∃ r, skipElement fuel data offset = .ok r ∧ Skips data 1 offset r := by
  induction fuel generalizing offset with
  | zero => omega
  | succ fuel ih =>
    rw [skipElement]
    split
    next => exact ⟨_, rfl, fun hok => by cases hok⟩
    next hlt =>
      obtain ⟨t, ht⟩ : ∃ t, data[offset]? = some t := ⟨_, List.getElem?_eq_getElem (by omega)⟩
      obtain ⟨hd, e, hop⟩ := skipTag_total hf hl ht
      rw [byteAt_of_some ht, ok_bind, e, ok_bind]
      cases hd with
      | leaf ok o => exact ⟨_, rfl, hop⟩
      | items n o =>
        obtain ⟨hdr, hat, hne, rfl, hle, hel⟩ := hop
        have hpos := List.length_pos_of_ne_nil hne
        obtain ⟨r, e', hs⟩ := skipMany_total (n := n)
          (fun {o} (h1 : offset + 1 ≤ o) h2 => ih h2 (by omega)) (by omega) hle
        refine ⟨r, e', fun hok => ?_⟩
        obtain ⟨bs, hb, hbt, hr⟩ := hs hok
        exact ⟨hdr ++ bs, hel hb, at_append.mpr ⟨hat, hbt⟩,
          by rw [hr, List.length_append, Nat.add_assoc]⟩

/-- `read_bin_or_str` reads inside the buffer and moves forward, and what it returns is the content
of the element at the offset. -/
lemma readBinOrStr_total {offset} (ho : offset < data.length) :
    ∃ r, readBinOrStr data offset = .ok r ∧ offset < r.2 ∧ r.2 ≤ data.length ∧
      (r.1 ≠ [] → ∃ raw, Text raw r.1 ∧ At data offset raw ∧ r.2 = offset + raw.length) := by
  obtain ⟨t, ht⟩ : ∃ t, data[offset]? = some t := ⟨_, List.getElem?_eq_getElem ho⟩
  have body : ∀ {n hdr}, At data offset hdr → hdr ≠ [] → offset + hdr.length ≤ data.length →
      offset + hdr.length + n < 2 ^ 32 →
      (∀ {c : Bytes}, c.length = n → Text (hdr ++ c) c) →
      ∃ r, readBody data n (offset + hdr.length) = .ok r ∧ offset < r.2 ∧ r.2 ≤ data.length ∧
        (r.1 ≠ [] → ∃ raw, Text raw r.1 ∧ At data offset raw ∧ r.2 = offset + raw.length) := by
    intro n hdr hat hne h2 h3 htext
    have hpos := List.length_pos_of_ne_nil hne
    rw [readBody, sz_of_lt h3]
    split
    next => exact ⟨_, rfl, by simp only; omega, h2, fun h => absurd rfl h⟩
    next hle =>
      have hlen : (window data (offset + hdr.length) n).length = n := length_window (by omega)
      refine ⟨_, rfl, by simp only; omega, by simp only; omega, fun _ => ⟨_, htext hlen, ?_, ?_⟩⟩
      · exact at_append.mpr ⟨hat, at_window⟩
      · rw [List.length_append, hlen, Nat.add_assoc]
  have stop : ∃ r, (Except.ok ([], offset + 1) : Except Fault (Bytes × Nat)) = .ok r ∧
      offset < r.2 ∧ r.2 ≤ data.length ∧
      (r.1 ≠ [] → ∃ raw, Text raw r.1 ∧ At data offset raw ∧ r.2 = offset + raw.length) :=
    ⟨_, rfl, by simp, ho, fun h => absurd rfl h⟩
  rw [readBinOrStr_eq ht hl, readClass]
  split
  next hs =>
    have htag : At data offset [t] := at_cons.mpr ⟨ht, at_nil⟩
    have hend : offset + [t].length + (t.toNat - 0xA0) < 2 ^ 32 :=
      hf.fixed ht (classify_short hs.1 hs.2)
    rw [show offset + 1 = offset + [t].length from rfl]
    exact body htag (by simp) ho hend fun hc => .short hs.1 hs.2 hc
  next =>
    split
    next w hc =>
      rw [show offset + 1 + (w - 1) = offset + w by have := width_sized hc; omega]
      split
      next hlt =>
        have hfit := hf.sized ht hc hlt
        rw [sz_of_lt (by omega)] at hlt
        have hlen : (window data (offset + 1) w).length = w := length_window (by omega)
        have hhdr : offset + (t :: window data (offset + 1) w).length = offset + 1 + w := by
          rw [List.length_cons, hlen]
          omega
        rw [sizeAt_of_at (width_sized hc) hlen at_window (by omega) hl, ok_bind,
          sz_of_lt (by omega), ← hhdr]
        exact body (at_cons.mpr ⟨ht, at_window⟩) (by simp) (by omega) (by omega)
          fun h => .sized hc hlen h
      next => exact stop
    next => exact stop

end Total

/-- `skip_element` from `offset` ends without reading past the buffer, and a success has moved
forward inside it. -/
def SkipSafe (data : Bytes) (offset : Nat) : Prop :=
  ∃ fuel r, skipElement fuel data offset = .ok r ∧
    (r.1 = true → offset < r.2 ∧ r.2 ≤ data.length)

/-- `read_bin_or_str` from `offset` does not read past the buffer and moves forward inside it. -/
def ReadSafe (data : Bytes) (offset : Nat) : Prop :=
  ∃ r, readBinOrStr data offset = .ok r ∧ offset < r.2 ∧ r.2 ≤ data.length

/-- A length field that is read lies inside the buffer. -/
lemma sizeAt_ok {data offset w n} (hw : w = 1 ∨ w = 2 ∨ w = 4) (ho : offset < 2 ^ 32)
    (h : sizeAt data offset w = .ok n) : ∀ j < w, sz (offset + j) < data.length := by
  have h0 : sz offset = offset := sz_of_lt ho
  rcases hw with rfl | rfl | rfl
  · obtain ⟨a, ha, _⟩ := bind_ok h
    have := lt_of_some (some_of_byteAt ha)
    intro j hj
    rw [show j = 0 by omega, Nat.add_zero, h0]
    exact this
  · obtain ⟨a, ha, h⟩ := bind_ok h
    obtain ⟨b, hb, _⟩ := bind_ok h
    have := lt_of_some (some_of_byteAt ha)
    have := lt_of_some (some_of_byteAt hb)
    intro j hj
    interval_cases j <;> assumption
  · obtain ⟨a, ha, h⟩ := bind_ok h
    obtain ⟨b, hb, h⟩ := bind_ok h
    obtain ⟨c, hc, h⟩ := bind_ok h
    obtain ⟨d, hd, _⟩ := bind_ok h
    have := lt_of_some (some_of_byteAt ha)
    have := lt_of_some (some_of_byteAt hb)
    have := lt_of_some (some_of_byteAt hc)
    have := lt_of_some (some_of_byteAt hd)
    intro j hj
    interval_cases j <;> assumption

/-- A length field that is read does not reach `2 ^ 32`. -/
lemma sizeAt_lt {data offset w n} (hl : data.length < 2 ^ 32) (hw : w = 1 ∨ w = 2 ∨ w = 4)
    (ho : offset ≤ data.length) (h : sizeAt data offset w = .ok n) : offset + w < 2 ^ 32 := by
  by_contra hge
  have e := sizeAt_ok hw (by omega) h (2 ^ 32 - 1 - offset) (by omega)
  rw [sz, Nat.mod_eq_of_lt (by omega)] at e
  omega

/-- Where both decoders are safe from every offset, no announced end passes `2 ^ 32`: the sum that
passes it either comes back behind the start or makes a read run past the buffer. -/
lemma fits_of_safe {data} (hl : data.length < 2 ^ 32)
    (h : ∀ offset < data.length, SkipSafe data offset ∧ ReadSafe data offset) : Fits data where
  fixed := by
    intro o t n ht hc
    have ho : o < data.length := lt_of_some ht
    have hn := fixed_le hc
    by_contra hge
    obtain ⟨⟨fuel, r, e, hs⟩, _⟩ := h o ho
    cases fuel with
    | zero => cases e
    | succ fuel =>
      rw [skipElement, if_neg (by omega), byteAt_of_some ht, ok_bind, sz_of_lt (by omega),
        skipTag_eq (by omega) hl, hc, skipClass, ok_bind, advance,
        show sz (o + 1 + n) = o + 1 + n - 2 ^ 32 by unfold sz; omega,
        decide_eq_true (by omega)] at e
      cases e
      have := hs rfl
      simp only at this
      omega
  sized := by
    intro o t w ht hc hlt
    have ho : o < data.length := lt_of_some ht
    have hw := width_sized hc
    have hns : ¬ (0xA0 ≤ t.toNat ∧ t.toNat ≤ 0xBF) := fun hs => by
      rw [classify_short hs.1 hs.2] at hc
      cases hc
    obtain ⟨_, r, e, _⟩ := h o ho
    rw [readBinOrStr_eq ht hl, readClass, if_neg hns] at e
    simp only [hc] at e
    rw [show o + 1 + (w - 1) = o + w by omega, if_pos hlt] at e
    obtain ⟨n, hn, e⟩ := bind_ok e
    have hfield := sizeAt_lt hl hw (by omega) hn
    rw [sz_of_lt (by omega)] at hlt
    have hlen : (window data (o + 1) w).length = w := length_window (by omega)
    rw [sizeAt_of_at hw hlen at_window (by omega) hl] at hn
    cases hn
    have hbe := be_lt (window data (o + 1) w)
    rw [hlen] at hbe
    have hbe4 : 256 ^ w ≤ 2 ^ 32 := by rcases hw with rfl | rfl | rfl <;> norm_num
    by_contra hge
    rw [sz_of_lt (by omega), readBody] at e
    generalize be (window data (o + 1) w) = n at *
    rw [show sz (o + 1 + w + n) = o + 1 + w + n - 2 ^ 32 by unfold sz; omega, if_neg (by omega),
      if_pos (by omega)] at e
    cases e
  sizedItems := by
    intro o t k ht hc hlt
    have ho : o < data.length := lt_of_some ht
    obtain ⟨⟨fuel, r, e, _⟩, _⟩ := h o ho
    cases fuel with
    | zero => cases e
    | succ fuel =>
      rw [skipElement, if_neg (by omega), byteAt_of_some ht, ok_bind, sz_of_lt (by omega),
        skipTag_eq (by omega) hl, hc] at e
      simp only [skipClass] at e
      rw [show o + 1 + 1 = o + 2 by omega, if_pos hlt] at e
      obtain ⟨hd, e, _⟩ := bind_ok e
      obtain ⟨n, hn, _⟩ := bind_ok e
      have e' := sizeAt_lt hl (.inr (.inl rfl)) (by omega) hn
      omega

/-- Where no announced end passes `2 ^ 32`, both decoders are safe from every offset. -/
lemma safe_of_fits {data} (hl : data.length < 2 ^ 32) (hf : Fits data) :
    ∀ offset < data.length, SkipSafe data offset ∧ ReadSafe data offset := by
  intro offset ho
  obtain ⟨r, e, hs⟩ := skipElement_total hf hl ho.le
    (by omega : data.length < offset + (data.length + 1))
  obtain ⟨q, eq, hlt, hle, _⟩ := readBinOrStr_total hf hl ho
  refine ⟨⟨_, r, e, fun hok => ?_⟩, ⟨q, eq, hlt, hle⟩⟩
  obtain ⟨bs, hb, hat, hr⟩ := hs hok
  have hpos := hb.le_length
  have hle := hat.length_le ho.le
  omega

end URSupreme.MsgPack
