import URSupreme.Common.MsgPackExact
import URSupreme.Common.MsgPackSafety
import URSupreme.LXMF.Payload

/-!
# What a parsed payload shows

Which bytes the out parameters of `_parse_lxmf_payload` come from: title and content are elements 1
and 2, everything the fields map fills in lies inside element 3, and `_split_payload_stamp` puts the
end of the signed bytes right behind element 3.
-/

namespace URSupreme.LXMF
open Lib Lib.Wire MsgPack

/-- The source and signature bytes that stand in front of a payload in the received buffer. -/
def HEADER_LEN : Nat := 16 + 64

lemma at_take {data bs : Bytes} {o n : Nat} (h : At (data.take n) o bs) : At data o bs := by
  rw [At, List.drop_take] at h
  exact h.trans (List.take_prefix _ _)

lemma getElem?_take_some {data : Bytes} {o n : Nat} {t} (h : (data.take n)[o]? = some t) :
    data[o]? = some t := by
  have ho := lt_of_some h
  rw [List.length_take] at ho
  rwa [List.getElem?_take_of_lt (by omega)] at h

/-- The bound on announced ends is inherited by every front part of a buffer. -/
lemma fits_take {data n} (hf : Fits data) (hn : n ≤ data.length) : Fits (data.take n) := by
  have hlen : (data.take n).length = n := by rw [List.length_take]; omega
  refine ⟨fun h hc => hf.fixed (getElem?_take_some h) hc, fun {o t w} h hc hlt => ?_,
    fun h hc hlt => hf.sizedItems (getElem?_take_some h) hc (by omega)⟩
  rw [hlen] at hlt
  have e := hf.sized (getElem?_take_some h) hc (by omega)
  rw [sz_of_lt (by omega)] at hlt
  have hw : window (data.take n) (o + 1) w = window data (o + 1) w := by
    rw [window, window, List.drop_take, List.take_take, Nat.min_eq_left (by omega)]
  rwa [hw]

/-- What the fields map filled in lies between two offsets. -/
structure Within (data : Bytes) (lo hi : Nat) (f : Fields) : Prop where
  blob : ∀ b ∈ f.fields, lo ≤ b.raw ∧ b.raw + b.rawLen ≤ hi
  telemetry : f.telemetry ≠ [] → ∃ o raw, lo ≤ o ∧ o + raw.length ≤ hi ∧ At data o raw ∧
    Text raw f.telemetry
  commands : f.commands ≠ [] → ∃ o, lo ≤ o ∧ o + f.commands.length ≤ hi ∧ At data o f.commands ∧
    Element Known f.commands
  customMeta : f.customMeta ≠ [] → ∃ o, lo ≤ o ∧ o + f.customMeta.length ≤ hi ∧
    At data o f.customMeta ∧ Element Known f.customMeta

section Bounds
variable {data : Bytes} (hf : Fits data) (hl : data.length + HEADER_LEN < 2 ^ 32)
include hf hl

/-- A length field that is read announces an end below `2 ^ 32`. -/
lemma sized_end {p t w n} (h : data[p]? = some t) (hc : classify t = .sized w)
    (hlt : sz (p + w) < data.length) (hn : sizeAt data (p + 1) w = .ok n) :
    p + 1 + w + n < 2 ^ 32 := by
  have ho := lt_of_some h
  have e := hf.sized h hc hlt
  rw [sz_of_lt (by omega)] at hlt
  rw [sizeAt_of_at (width_sized hc) (length_window (by omega)) at_window (by omega)
    (by unfold HEADER_LEN at hl; omega)] at hn
  cases hn
  exact e

/-- A `bin` header that is read announces an end below `2 ^ 32`. -/
lemma binHeader_end {ve p hdr n} (hve : ve ≤ data.length)
    (h : binHeader data ve p = .ok (some (hdr, n))) : 1 ≤ hdr ∧ p + hdr + n < 2 ^ 32 := by
  unfold HEADER_LEN at hl
  unfold binHeader at h
  obtain ⟨t, ht, h⟩ := bind_ok h
  replace ht := some_of_byteAt ht
  have hp := lt_of_some ht
  split at h
  next hc =>
    obtain ⟨a, ha, h⟩ := bind_ok h
    cases h
    rw [sz_of_lt (by omega)] at ha
    have e := sized_end hf hl ht (w := 1) (by rw [hc.1]; rfl) (by omega)
      (by rw [sizeAt, ha]; rfl)
    exact ⟨by omega, by omega⟩
  next =>
    split at h
    next hc =>
      obtain ⟨a, ha, h⟩ := bind_ok h
      cases h
      have e := sized_end hf hl ht (w := 2) (by rw [hc.1]; rfl) (by omega) ha
      exact ⟨by omega, by omega⟩
    next =>
      split at h
      next hc =>
        obtain ⟨a, ha, h⟩ := bind_ok h
        cases h
        have e := sized_end hf hl ht (w := 4) (by rw [hc.1]; rfl) (by omega) ha
        exact ⟨by omega, by omega⟩
      next => cases h

/-- The first element of a pair ends inside the value. -/
lemma pairName_end {ve tag p name mode q} (hve : ve ≤ data.length) (hp : p < ve)
    (h : pairName data ve tag p = .ok (some (name, mode, q))) : p ≤ q ∧ q ≤ ve := by
  have hlen : (data.take ve).length = ve := by rw [List.length_take]; omega
  unfold HEADER_LEN at hl
  unfold pairName at h
  obtain ⟨t, ht, h⟩ := bind_ok h
  split at h
  next =>
    split at h
    next =>
      cases h
      rw [sz_of_lt (by omega)]
      omega
    next =>
      split at h
      next hc =>
        obtain ⟨a, ha, h⟩ := bind_ok h
        cases h
        rw [sz_of_lt (by omega)] at hc ⊢
        omega
      next => cases h
  next =>
    obtain ⟨⟨name', q'⟩, e, hlt, hle, _⟩ :=
      readBinOrStr_total (fits_take hf hve) (by omega) (by omega : p < _)
    rw [e, ok_bind] at h
    simp only at h
    split at h
    · cases h
    · cases h
      omega

/-- The blob of a pair lies behind the pair's header and inside the value. -/
lemma emitPair_within {ve tag p bs after} (hve : ve ≤ data.length)
    (h : emitPair data ve tag p = .ok (bs, after)) :
    (∀ b ∈ bs, p ≤ b.raw ∧ b.raw + b.rawLen ≤ ve) ∧ (after ≠ 0 → p ≤ after ∧ after ≤ ve) := by
  have stop : (∀ b ∈ ([] : List FieldBlob), p ≤ b.raw ∧ b.raw + b.rawLen ≤ ve) ∧
      ((0 : Nat) ≠ 0 → p ≤ 0 ∧ 0 ≤ ve) := ⟨by simp, fun h => absurd rfl h⟩
  unfold emitPair at h
  split at h
  next => cases h; exact stop
  next hp =>
    obtain ⟨name, hn, h⟩ := bind_ok h
    match name with
    | none => cases h; exact stop
    | some (filename, mode, q) =>
      have hq := pairName_end hf hl hve (by omega) hn
      simp only at h
      split at h
      next => cases h; exact stop
      next hqv =>
        obtain ⟨hdr, hh, h⟩ := bind_ok h
        match hdr with
        | none => cases h; exact stop
        | some (hdr, n) =>
          have hend := binHeader_end hf hl hve hh
          simp only at h
          split at h
          next => cases h; exact stop
          next hle =>
            rw [sz_of_lt hend.2] at h hle
            rw [sz_of_lt (show q + hdr < 2 ^ 32 by omega)] at h
            cases h
            simp only [List.mem_singleton, forall_eq]
            omega

/-- The blobs of all file pairs lie inside the value. -/
lemma filePairs_within {ve n p bs} (hve : ve ≤ data.length)
    (h : filePairs data ve n p = .ok bs) : ∀ b ∈ bs, p ≤ b.raw ∧ b.raw + b.rawLen ≤ ve := by
  induction n generalizing p bs with
  | zero => cases h; simp
  | succ n ih =>
    unfold HEADER_LEN at hl
    unfold filePairs at h
    split at h
    next hp =>
      obtain ⟨q, hq, h⟩ := bind_ok h
      match q with
      | none => cases h; simp
      | some q =>
        have hpq : p ≤ q := by
          unfold pairHeader at hq
          obtain ⟨t, _, hq⟩ := bind_ok hq
          simp only [sz_of_lt (show p + 1 < 2 ^ 32 by omega),
            sz_of_lt (show p + 3 < 2 ^ 32 by omega), sz_of_lt (show p + 5 < 2 ^ 32 by omega)] at hq
          split at hq
          · cases hq; omega
          · split at hq
            · cases hq; omega
            · split at hq
              · cases hq; omega
              · cases hq
        obtain ⟨⟨blob, after⟩, he, h⟩ := bind_ok h
        obtain ⟨hb, ha⟩ := emitPair_within hf hl hve he
        simp only at h
        split at h
        next =>
          cases h
          intro b hm
          have := hb b hm
          omega
        next hne =>
          obtain ⟨rest, hr, h⟩ := bind_ok h
          cases h
          intro b hm
          rcases List.mem_append.mp hm with hm | hm
          · have := hb b hm
            omega
          · have := ih hr b hm
            have := ha hne
            omega
    next => cases h; simp

/-- The blobs of an attachment value lie inside it. -/
lemma attachmentValue_within {key vs ve bs} (hve : ve ≤ data.length) (hvs : vs ≤ ve)
    (h : attachmentValue data key vs ve = .ok bs) :
    ∀ b ∈ bs, vs ≤ b.raw ∧ b.raw + b.rawLen ≤ ve := by
  have hl' := hl
  unfold HEADER_LEN at hl
  unfold attachmentValue at h
  obtain ⟨t, ht, h⟩ := bind_ok h
  replace ht := some_of_byteAt ht
  split at h
  next =>
    obtain ⟨hdr, hh, h⟩ := bind_ok h
    match hdr with
    | none => cases h; simp
    | some (n, p) =>
      have hp : vs ≤ p := by
        unfold valueHeader at hh
        obtain ⟨t, _, hh⟩ := bind_ok hh
        simp only [sz_of_lt (show vs + 1 < 2 ^ 32 by omega),
          sz_of_lt (show vs + 3 < 2 ^ 32 by omega), sz_of_lt (show vs + 5 < 2 ^ 32 by omega)] at hh
        split at hh
        · cases hh; omega
        · split at hh
          · obtain ⟨_, _, hh⟩ := bind_ok hh
            cases hh; omega
          · split at hh
            · obtain ⟨_, _, hh⟩ := bind_ok hh
              cases hh; omega
            · cases hh
      have bound : ∀ b ∈ bs, p ≤ b.raw ∧ b.raw + b.rawLen ≤ ve := by
        simp only at h
        split at h
        next =>
          obtain ⟨⟨blob, after⟩, he, h⟩ := bind_ok h
          cases h
          exact (emitPair_within hf hl' hve he).1
        next => exact filePairs_within hf hl' hve h
      intro b hm
      have := bound b hm
      omega
  next =>
    have whole : ∀ b ∈ [({ tag := key, raw := vs, rawLen := sz (ve + 2 ^ 32 - vs) } : FieldBlob)],
        vs ≤ b.raw ∧ b.raw + b.rawLen ≤ ve := by
      have e : sz (ve + 2 ^ 32 - vs) = ve - vs := by unfold sz; omega
      simp only [List.mem_singleton, forall_eq, e]
      omega
    obtain ⟨hdr, hh, h⟩ := bind_ok h
    match hdr with
    | none => cases h; exact whole
    | some (hdr, n) =>
      simp only at h
      split at h
      next hle =>
        have hend : vs + hdr + n < 2 ^ 32 := by
          unfold bareHeader at hh
          obtain ⟨t', ht', hh⟩ := bind_ok hh
          replace ht' := some_of_byteAt ht'
          have hv := lt_of_some ht'
          split at hh
          next hs =>
            cases hh
            rw [short_mask.2 hs]
            obtain ⟨h1, h2⟩ := short_mask.1.mp hs
            exact hf.fixed ht' (classify_short h1 h2)
          next =>
            split at hh
            next hc =>
              obtain ⟨a, ha, hh⟩ := bind_ok hh
              cases hh
              rw [sz_of_lt (by omega)] at ha
              have e := sized_end hf hl' ht' (w := 1) (by rw [hc.1]; rfl) (by omega)
                (by rw [sizeAt, ha]; rfl)
              omega
            next =>
              split at hh
              next hc =>
                obtain ⟨a, ha, hh⟩ := bind_ok hh
                cases hh
                have e := sized_end hf hl' ht' (w := 2) (by rw [hc.1]; rfl) (by omega) ha
                omega
              next =>
                split at hh
                next hc =>
                  obtain ⟨a, ha, hh⟩ := bind_ok hh
                  cases hh
                  have e := sized_end hf hl' ht' (w := 4) (by rw [hc.1]; rfl) (by omega) ha
                  omega
                next => exact (binHeader_end hf hl' hve hh).2
        rw [sz_of_lt hend] at hle
        rw [sz_of_lt (show vs + hdr < 2 ^ 32 by omega)] at h
        cases h
        simp only [List.mem_singleton, forall_eq]
        omega
      next => cases h; exact whole

/-- A field adds only what lies inside its value. -/
lemma fieldValue_within {key vs val lo hi acc f} (hv : Element Known val) (hat : At data vs val)
    (hvs : vs + val.length ≤ data.length) (hlo : lo ≤ vs) (hhi : vs + val.length ≤ hi)
    (ha : Within data lo hi acc)
    (h : fieldValue data key vs (vs + val.length) acc = .ok f) : Within data lo hi f := by
  have hpos := hv.le_length
  have copy : ∀ {bs}, copyBytes data vs (vs + val.length) = .ok bs → bs = val := by
    intro bs e
    have hn : sz (vs + val.length + 2 ^ 32 - vs) = val.length := by
      unfold HEADER_LEN at hl
      unfold sz
      omega
    rw [copyBytes, hn, if_neg (by omega), hat.window_eq] at e
    exact (Except.ok.inj e).symm
  unfold fieldValue at h
  split at h
  next =>
    have hlen : (data.take (vs + val.length)).length = vs + val.length := by
      rw [List.length_take]
      omega
    obtain ⟨⟨inner, o⟩, e, _, _, ht⟩ := readBinOrStr_total (fits_take hf hvs)
      (by unfold HEADER_LEN at hl; omega) (by omega : vs < _)
    rw [e, ok_bind] at h
    cases h
    split
    next hne =>
      obtain ⟨raw, htext, hraw, _⟩ := ht hne
      have hle := hraw.length_le (by omega)
      exact { ha with telemetry := fun _ => ⟨vs, raw, hlo, by omega, at_take hraw, htext⟩ }
    next => exact ha
  next =>
    split at h
    next =>
      obtain ⟨bs, e, h⟩ := bind_ok h
      cases h
      rw [copy e]
      exact { ha with commands := fun _ => ⟨vs, hlo, hhi, hat, hv⟩ }
    next =>
      split at h
      next =>
        obtain ⟨bs, e, h⟩ := bind_ok h
        cases h
        rw [copy e]
        exact { ha with customMeta := fun _ => ⟨vs, hlo, hhi, hat, hv⟩ }
      next =>
        split at h
        next =>
          obtain ⟨bs, e, h⟩ := bind_ok h
          cases h
          refine { ha with blob := fun b hm => ?_ }
          rcases List.mem_append.mp hm with hm | hm
          · exact ha.blob b hm
          · have := attachmentValue_within hf hl hvs (by omega) e b hm
            omega
        next => cases h; exact ha

omit hf in
/-- A key that is read is the whole element. -/
lemma fieldKey_exact {off k key vs} (hk : Element (fun _ => True) k) (hat : At data off k)
    (h : fieldKey data off = .ok (some (key, vs))) : vs = off + k.length := by
  unfold HEADER_LEN at hl
  obtain ⟨t, bs, rfl⟩ := hk.exists_cons
  rw [at_cons] at hat
  have ho := lt_of_some hat.1
  unfold fieldKey at h
  rw [byteAt_of_some hat.1, ok_bind] at h
  simp only [sz_of_lt (show off + 1 < 2 ^ 32 by omega),
    sz_of_lt (show off + 1 + 1 < 2 ^ 32 by omega)] at h
  split at h
  next ht =>
    rw [List.length_cons, hk.of_fixed (fixint_mask ht)]
    cases h
    rfl
  next =>
    split at h
    next hc =>
      obtain ⟨a, _, h⟩ := bind_ok h
      cases h
      have hc' : classify t = .fixed 1 := by rw [hc.1]; rfl
      rw [List.length_cons, hk.of_fixed hc']
    next => cases h

/-- The walk over the entries of a complete map stays inside it. -/
lemma fieldLoop_within {fuel n off rest lo hi acc f} (he : Elements (fun _ => True) (2 * n) rest)
    (hat : At data off rest) (hlo : lo ≤ off) (hhi : off + rest.length ≤ hi)
    (hle : hi ≤ data.length) (ha : Within data lo hi acc)
    (h : fieldLoop fuel data n off acc = .ok f) : Within data lo hi f := by
  induction n generalizing off rest acc with
  | zero => cases h; exact ha
  | succ n ih =>
    obtain ⟨k, tail, hk, ht, rfl⟩ := he.split (n := 2 * n + 1)
    obtain ⟨val, rest, hv, hr, rfl⟩ := ht.split (n := 2 * n)
    rw [at_append, at_append] at hat
    simp only [List.length_append] at hhi
    unfold fieldLoop at h
    split at h
    next =>
      obtain ⟨key, e, h⟩ := bind_ok h
      match key with
      | none => cases h; exact ha
      | some (key, vs) =>
        have hvs := fieldKey_exact hl hk hat.1 e
        subst hvs
        obtain ⟨⟨ok, ve⟩, es, h⟩ := bind_ok h
        cases ok with
        | false => cases h; exact ha
        | true =>
          obtain ⟨hv', rfl⟩ := skipElement_exact (by unfold HEADER_LEN at hl; omega) hv hat.2.1
            (by omega) es
          obtain ⟨acc', ev, h⟩ := bind_ok h
          have ha' := fieldValue_within hf hl hv' hat.2.1 (by omega) (by omega) (by omega) ha ev
          exact ih hr hat.2.2 (by omega) (by omega) ha' h
    next => cases h; exact ha

omit hf in
/-- A map header that is read opens the element it starts. -/
lemma mapHeader_exact {off raw n o} (hr : Element (fun _ => True) raw) (hat : At data off raw)
    (hle : off + raw.length ≤ data.length) (h : mapHeader data off = .ok (some (n, o))) :
    ∃ hdr inner, raw = hdr ++ inner ∧ o = off + hdr.length ∧
      Elements (fun _ => True) (2 * n) inner := by
  unfold HEADER_LEN at hl
  obtain ⟨t, bs, rfl⟩ := hr.exists_cons
  rw [at_cons] at hat
  rw [List.length_cons] at hle
  have sized : ∀ {w n}, classify t = .sizedItems w 2 → sizeAt data (off + 1) w = .ok n →
      ∃ hdr inner, t :: bs = hdr ++ inner ∧ off + 1 + w = off + hdr.length ∧
        Elements (fun _ => True) (2 * n) inner := by
    intro w n hc hn
    obtain ⟨len, inner, rfl, hw, hi⟩ := hr.of_sizedItems hc
    rw [at_append] at hat
    rw [List.length_append] at hle
    rw [sizeAt_of_at (by rcases width_sizedItems hc with h | h <;> omega) hw hat.2.1 (by omega)
      (by omega)] at hn
    cases hn
    exact ⟨t :: len, inner, rfl, by rw [List.length_cons, hw]; omega, hi⟩
  unfold mapHeader at h
  simp only [byteAt_of_some hat.1, ok_bind, sz_of_lt (show off + 1 < 2 ^ 32 by omega),
    sz_of_lt (show off + 3 < 2 ^ 32 by omega), sz_of_lt (show off + 5 < 2 ^ 32 by omega)] at h
  split at h
  next => cases h
  next =>
    split at h
    next hm =>
      cases h
      refine ⟨[t], bs, rfl, rfl, ?_⟩
      exact hr.of_items (map_mask hm)
    next =>
      split at h
      next hc =>
        split at h
        next => cases h
        next =>
          obtain ⟨m, hn, h⟩ := bind_ok h
          cases h
          exact sized (w := 2) (by rw [hc]; rfl) hn
      next =>
        split at h
        next hc =>
          split at h
          next => cases h
          next =>
            obtain ⟨m, hn, h⟩ := bind_ok h
            cases h
            exact sized (w := 4) (by rw [hc]; rfl) hn
        next => cases h

/-- What the fields map fills in lies inside element 3, when that is complete. -/
lemma parseFields_within {fuel n off raw f} (hr : Element (fun _ => True) raw)
    (hat : At data off raw) (hle : off + raw.length ≤ data.length)
    (h : parseFields fuel data n off = .ok f) : Within data off (off + raw.length) f := by
  have empty : Within data off (off + raw.length) {} :=
    ⟨by simp, fun h => absurd rfl h, fun h => absurd rfl h, fun h => absurd rfl h⟩
  unfold parseFields at h
  split at h
  next =>
    obtain ⟨hdr, hh, h⟩ := bind_ok h
    match hdr with
    | none => cases h; exact empty
    | some (m, o) =>
      obtain ⟨hdr, inner, rfl, rfl, hi⟩ := mapHeader_exact hl hr hat hle hh
      rw [at_append] at hat
      rw [List.length_append] at hle empty ⊢
      exact fieldLoop_within hf hl hi hat.2 (by omega) (by omega) hle empty h
  next => cases h; exact empty

end Bounds

/-- An array header and the number of elements it announces. -/
inductive ArrayHeader : Bytes → Nat → Prop where
  | short {t} : t &&& 0xF0 = 0x90 → ArrayHeader [t] (t &&& 0x0F).toNat
  | long {len} : len.length = 2 → ArrayHeader (0xDC :: len) (be len)

/-- The array header that is read stands at the start of the payload. -/
lemma arrayHeader_exact {data n off} (hl : data.length < 2 ^ 32)
    (h : arrayHeader data = .ok (some (n, off))) :
    ∃ hdr, ArrayHeader hdr n ∧ off = hdr.length ∧ At data 0 hdr := by
  unfold arrayHeader at h
  obtain ⟨t, ht, h⟩ := bind_ok h
  replace ht := some_of_byteAt ht
  split at h
  next hm =>
    cases h
    exact ⟨[t], .short hm, rfl, at_cons.mpr ⟨ht, at_nil⟩⟩
  next =>
    split at h
    next hc =>
      obtain ⟨m, hn, h⟩ := bind_ok h
      cases h
      have h2 : 2 < data.length := hc.2
      have hlen : (window data 1 2).length = 2 := length_window (by omega)
      have e := sizeAt_of_at (.inr (.inl rfl)) hlen at_window (by omega) hl
      rw [show sizeAt data 1 2 = u16 data 1 from rfl, hn] at e
      cases e
      refine ⟨0xDC :: window data 1 2, .long hlen, by rw [List.length_cons, hlen], ?_⟩
      rw [at_cons, ← hc.1]
      exact ⟨ht, at_window⟩
    next => cases h

/-- The parts of a parse that yields a message. -/
lemma parse_parts {fuel data m} (h : parseLxmfPayload fuel data = .ok (some m)) :
    ∃ n off off1 title off2 content off3, arrayHeader data = .ok (some (n, off)) ∧ 3 ≤ n ∧
      timestamp data off = .ok m.ts ∧ skipElement fuel data off = .ok (true, off1) ∧
      readBinOrStr data off1 = .ok (title, off2) ∧
      readBinOrStr data off2 = .ok (content, off3) ∧ parseFields fuel data n off3 = .ok m.fields ∧
      m.title = title.take LXMF_MAX_TITLE_BYTES ∧ m.content = content.take LXMF_MAX_BODY_BYTES := by
  unfold parseLxmfPayload at h
  split at h
  next => cases h
  next =>
    obtain ⟨o, hh, h⟩ := bind_ok h
    match o with
    | none => cases h
    | some (n, off) =>
      simp only at h
      split at h
      next => cases h
      next hn =>
        obtain ⟨ts, hts, h⟩ := bind_ok h
        obtain ⟨⟨ok, off1⟩, hs, h⟩ := bind_ok h
        cases ok with
        | false => cases h
        | true =>
          obtain ⟨⟨title, off2⟩, ht, h⟩ := bind_ok h
          obtain ⟨⟨content, off3⟩, hc, h⟩ := bind_ok h
          obtain ⟨f, hf, h⟩ := bind_ok h
          cases h
          exact ⟨n, off, off1, title, off2, content, off3, hh, by omega, hts, hs, ht, hc, hf,
            rfl, rfl⟩

/-- The parts of a split that succeeds. -/
lemma split_parts {fuel data s} (h : splitPayloadStamp fuel data = .ok (some s)) :
    ∃ n, arrayHeader data = .ok (some (n, s.hdrLen)) ∧
      (n < 5 → s.stripped = false ∧ s.coreEnd = data.length ∧ s.stamp = []) ∧
      (5 ≤ n → s.stripped = true ∧
        skipMany (skipElement fuel data) 4 s.hdrLen = .ok (true, s.coreEnd) ∧
        ∃ off, readBinOrStr data s.coreEnd = .ok (s.stamp, off)) := by
  unfold splitPayloadStamp at h
  dsimp only at h
  split at h
  next => cases h
  next =>
    obtain ⟨o, hh, h⟩ := bind_ok h
    match o with
    | none => cases h
    | some (n, off) =>
      simp only at h
      split at h
      next hn =>
        cases h
        exact ⟨n, hh, fun _ => ⟨rfl, rfl, rfl⟩, fun h => by omega⟩
      next hn =>
        obtain ⟨⟨ok, ce⟩, hs, h⟩ := bind_ok h
        cases ok with
        | false => cases h
        | true =>
          obtain ⟨⟨stamp, off5⟩, hr, h⟩ := bind_ok h
          cases h
          exact ⟨n, hh, fun h => by omega, fun _ => ⟨rfl, hs, off5, hr⟩⟩

/-- Behind three complete elements the split ends the signed bytes behind a complete fourth one. -/
lemma split_core {fuel data s hdr a b c} (hl : data.length < 2 ^ 32) (hf : Fits data)
    (hfuel : data.length < fuel) (ha : Element Known a) (hb : Element Known b)
    (hc : Element Known c) (hat : At data hdr (a ++ b ++ c)) (hhdr : hdr ≤ data.length)
    (hs : skipMany (skipElement fuel data) 4 hdr = .ok (true, s)) :
    ∃ raw, Element Known raw ∧ At data hdr (a ++ b ++ c ++ raw) ∧
      s = hdr + (a ++ b ++ c ++ raw).length := by
  have hle := hat.length_le hhdr
  have h3 : Elements Known 3 (a ++ b ++ c) := (ha.append hb).append hc
  rw [show 4 = 3 + 1 from rfl,
    skipMany_add (skipMany_of_elements hl h3 hat hhdr (by omega : _ < fuel)),
    skipMany_one] at hs
  obtain ⟨r, er, hr⟩ := skipElement_total hf hl hle (by omega : data.length < _ + fuel)
  rw [hs] at er
  cases er
  obtain ⟨raw, hraw, hatr, hce⟩ := hr rfl
  refine ⟨raw, hraw, at_append.mpr ⟨hat, hatr⟩, ?_⟩
  rw [List.length_append, ← Nat.add_assoc]
  exact hce

/-- What the user is shown of a payload `hdr ts rawTitle rawContent ..` whose elements 1 and 2 carry
`title` and `content`, and what is hashed of it. -/
structure Shows (fuel : Nat) (data : Bytes) (m : Parsed) (n : Nat)
    (hdr ts rawTitle title rawContent content : Bytes) : Prop where
  title : m.title = title.take LXMF_MAX_TITLE_BYTES
  content : m.content = content.take LXMF_MAX_BODY_BYTES
  /-- a payload of three elements has no fields -/
  noFields : n < 4 → m.fields = {}
  /-- the fields are read right behind the content -/
  fields : parseFields fuel data n (hdr ++ ts ++ rawTitle ++ rawContent).length = .ok m.fields
  /-- and from element 3 alone, when that is complete -/
  within : ∀ raw, Element (fun _ => True) raw →
    At data (hdr ++ ts ++ rawTitle ++ rawContent).length raw →
    Within data (hdr ++ ts ++ rawTitle ++ rawContent).length
      (hdr ++ ts ++ rawTitle ++ rawContent ++ raw).length m.fields
  /-- without a stamp the whole payload is hashed -/
  unstamped : ∀ s, splitPayloadStamp fuel data = .ok (some s) → n < 5 →
    s.coreEnd = data.length ∧ hashedPayload data s = data
  /-- with one, the hashed bytes end right behind element 3 -/
  stamped : ∀ s, splitPayloadStamp fuel data = .ok (some s) → 5 ≤ n → ∃ raw, Element Known raw ∧
    At data (hdr ++ ts ++ rawTitle ++ rawContent).length raw ∧
    s.coreEnd = (hdr ++ ts ++ rawTitle ++ rawContent ++ raw).length ∧
    hashedPayload data s = 0x94 :: (ts ++ rawTitle ++ rawContent ++ raw)

end URSupreme.LXMF
