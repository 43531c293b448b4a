import URSupreme.LXMF.Prepare

/-!
# What `prepare_message` packs

The bytes an accepted message is packed into, element by element: each packing step appends to the
buffer, and what it appends is a complete msgpack element of the expected form.
-/

namespace URSupreme.LXMF
open Lib Lib.Wire MsgPack

/-- The bytes of an outgoing attachment. -/
def OutgoingAttachment.bytes (env : SendEnv) (a : OutgoingAttachment) : Bytes :=
  if a.stagingId ≠ 0 then window (env.staging a.stagingId) 0 a.stagingTotalBytes else a.data

/-- `raw` is a pair of a name element and the `bin` element of `body`. -/
inductive PairRaw (name : Bytes → Prop) (body : Bytes) : Bytes → Prop where
  | mk {rawName hdr} : name rawName → BinHeader hdr body.length →
    PairRaw name body (0x92 :: (rawName ++ (hdr ++ body)))

/-- An entry of the fields map that may be absent: how many entries it is, and its bytes. -/
inductive Entry (key : UInt8) (P : Bytes → Prop) : Nat → Bytes → Prop where
  | absent : Entry key P 0 []
  | present {rawKey raw} : SmallUint rawKey key → P raw → Entry key P 1 (rawKey ++ raw)

/-- The array header of `n` elements as the encoder writes it. -/
inductive ListHeader : Bytes → Nat → Prop where
  | short {n} : n ≤ 15 → ListHeader [0x90 ||| UInt8.ofNat n] n
  | arr16 {n} : 15 < n → n ≤ 0xFFFF → ListHeader (0xDC :: beBytes 2 n) n
  | arr32 {n} : 0xFFFF < n → ListHeader (0xDD :: beBytes 4 n) n

/-- The value of the file entry: a list of `[name, bytes]` pairs. -/
inductive FilesRaw (env : SendEnv) (files : List OutgoingAttachment) : Bytes → Prop where
  | mk {hdr raws} : ListHeader hdr files.length →
    List.Forall₂ (fun a raw => (a.bytes env).length = a.byteCount ∧
      PairRaw (Text · a.filename) (a.bytes env) raw) files raws →
    FilesRaw env files (hdr ++ raws.flatten)

/-- The value of the image or audio entry: the pair of the first attachment with the tag. -/
inductive FirstRaw (env : SendEnv) (tag : UInt8) (name : OutgoingAttachment → Bytes → Prop)
    (atts : List OutgoingAttachment) : Bytes → Prop where
  | mk {a raw} : atts.find? (·.tag = tag) = some a → (a.bytes env).length = a.byteCount →
    PairRaw (name a) (a.bytes env) raw → FirstRaw env tag name atts raw

/-- Element 3 of the payload. -/
inductive FieldsRaw (env : SendEnv) (extra : ExtraFields) (atts : List OutgoingAttachment) :
    Bytes → Prop where
  | nil : atts = [] → extra = {} → FieldsRaw env extra atts [0xC0]
  | map {c1 c2 c3 c4 c5 c6 s1 s2 s3 s4 s5 s6} :
    c1 + c2 + c3 + c4 + c5 + c6 ≤ 6 →
    (c1 = 0 ↔ extra.telemetry = []) → Entry FIELD_TELEMETRY (Text · extra.telemetry) c1 s1 →
    (c2 = 0 ↔ extra.commands = []) → Entry FIELD_COMMANDS (· = extra.commands) c2 s2 →
    (c3 = 0 ↔ extra.customMeta = []) → Entry FIELD_CUSTOM_META (· = extra.customMeta) c3 s3 →
    (c4 = 0 ↔ atts.find? (·.tag = FIELD_IMAGE) = none) →
    Entry FIELD_IMAGE (FirstRaw env FIELD_IMAGE (fun a => (Text · a.ext)) atts) c4 s4 →
    (c5 = 0 ↔ atts.find? (·.tag = FIELD_AUDIO) = none) →
    Entry FIELD_AUDIO (FirstRaw env FIELD_AUDIO (fun a => (SmallUint · a.audioMode)) atts) c5 s5 →
    (c6 = 0 ↔ atts.filter (·.tag = FIELD_FILE_ATTACHMENTS) = []) →
    Entry FIELD_FILE_ATTACHMENTS (FilesRaw env (atts.filter (·.tag = FIELD_FILE_ATTACHMENTS))) c6
      s6 →
    FieldsRaw env extra atts
      ((0x80 ||| UInt8.ofNat (c1 + c2 + c3 + c4 + c5 + c6)) ::
        (s1 ++ (s2 ++ (s3 ++ (s4 ++ (s5 ++ s6))))))

/-- The masks of a short array header. -/
lemma short_header {n : Nat} (h : n ≤ 15) : (0x90 ||| UInt8.ofNat n) &&& 0xF0 = 0x90 ∧
    ((0x90 ||| UInt8.ofNat n) &&& 0x0F).toNat = n ∧
    classify (0x90 ||| UInt8.ofNat n) = .items n := by
  interval_cases n <;> decide

/-- The masks of a short map header. -/
lemma short_map {n : Nat} (h : n ≤ 6) : (0x80 ||| UInt8.ofNat n) ≠ 0xC0 ∧
    (0x80 ||| UInt8.ofNat n) &&& 0xF0 = 0x80 ∧ ((0x80 ||| UInt8.ofNat n) &&& 0x0F).toNat = n ∧
    classify (0x80 ||| UInt8.ofNat n) = .items (2 * n) := by
  interval_cases n <;> decide

/-- A pair is a complete element. -/
lemma PairRaw.element {P : Bytes → Prop} {body raw} (h : PairRaw P body raw)
    (hP : ∀ r, P r → Element Known r) : Element Known raw := by
  obtain @⟨rawName, hdr, hn, hb⟩ := h
  have hk : Known 0x92 := by decide
  have hc : classify 0x92 = .items 2 := by decide
  have e := Elements.items hk hc ((hP _ hn).append (element_of_text hb.text)) .nil
  rwa [List.append_nil] at e

/-- The file list is a complete element, as long as its header is one `skip_element` knows. -/
lemma FilesRaw.element {env files raw} (h : FilesRaw env files raw)
    (hn : files.length ≤ 0xFFFF) : Element Known raw := by
  obtain @⟨hdr, raws, hh, hraws⟩ := h
  have inner : Elements Known files.length raws.flatten := by
    clear hh hn
    induction hraws with
    | nil => exact .nil
    | @cons a raw files raws hr _ ih =>
      have e := (hr.2.element fun r hr => element_of_text hr).append ih
      rwa [Nat.add_comm] at e
  generalize files.length = n at *
  cases hh with
  | short h15 =>
    obtain ⟨_, _, hc⟩ := short_header h15
    have e := Elements.items (K := Known) (by rw [Known, skippable, hc]) hc inner .nil
    rwa [List.append_nil] at e
  | arr16 _ h16 =>
    have hk : Known 0xDC := by decide
    have hc : classify 0xDC = .sizedItems 2 1 := by decide
    have hi : Elements Known (1 * be (beBytes 2 n)) raws.flatten := by
      rwa [be_beBytes (by omega), Nat.one_mul]
    have e := Elements.sizedItems hk hc (length_beBytes 2 n) hi .nil
    rwa [List.append_nil] at e
  | arr32 h16 => omega

/-- An entry is a key and a value. -/
lemma Entry.elements {key P c seg} (h : Entry key P c seg)
    (hP : ∀ raw, c = 1 → P raw → Element Known raw) : Elements Known (2 * c) seg := by
  cases h with
  | absent => exact .nil
  | @present rawKey raw hk hr => exact hk.element.append (hP raw rfl hr)

/-- Element 3 is a complete element, as long as `skip_element` knows the headers in it. -/
lemma FieldsRaw.element {env extra atts raw} (h : FieldsRaw env extra atts raw)
    (hc : extra.commands = [] ∨ Element Known extra.commands)
    (hm : extra.customMeta = [] ∨ Element Known extra.customMeta)
    (hn : (atts.filter (·.tag = FIELD_FILE_ATTACHMENTS)).length ≤ 0xFFFF) :
    Element Known raw := by
  cases h with
  | nil =>
    have hk : Known 0xC0 := by decide
    have e := Elements.fixed hk (by decide : classify 0xC0 = .fixed 0) (List.length_nil) .nil
    exact e
  | @map c1 c2 c3 c4 c5 c6 s1 s2 s3 s4 s5 s6 hsum z1 n1 z2 n2 z3 n3 z4 n4 z5 n5 z6 n6 =>
    obtain ⟨_, _, _, hcl⟩ := short_map hsum
    have e1 := n1.elements fun _ _ h => element_of_text h
    have e2 := n2.elements fun _ h1 h => h ▸ hc.resolve_left fun h => by have := z2.mpr h; omega
    have e3 := n3.elements fun _ h1 h => h ▸ hm.resolve_left fun h => by have := z3.mpr h; omega
    have e4 := n4.elements fun _ _ h => by
      cases h with
      | mk _ _ hp => exact hp.element fun _ h => element_of_text h
    have e5 := n5.elements fun _ _ h => by
      cases h with
      | mk _ _ hp => exact hp.element fun _ h => h.element
    have e6 := n6.elements fun _ _ h => h.element hn
    have inner := e1.append (e2.append (e3.append (e4.append (e5.append e6))))
    rw [← Nat.mul_add, ← Nat.mul_add, ← Nat.mul_add, ← Nat.mul_add, ← Nat.mul_add] at inner
    rw [show c1 + (c2 + (c3 + (c4 + (c5 + c6)))) = c1 + c2 + c3 + c4 + c5 + c6 by omega] at inner
    have e := Elements.items (K := Known) (by rw [Known, skippable, hcl]) hcl inner .nil
    rwa [List.append_nil] at e

lemma orFail_ok {α : Type} {x : Option α} {msg a} (h : orFail x msg = .ok a) : x = some a := by
  cases x with
  | none => cases h
  | some b => exact congrArg some (Except.ok.inj h)

/-- A streamed attachment is the front part of the staged bytes. -/
lemma stagingLoop_eq {env id dlen fuel off bs} (h : stagingLoop env id dlen fuel off = some bs)
    (ho : off ≤ dlen) :
    bs = window (env.staging id) off (dlen - off) ∧ bs.length = dlen - off := by
  have done : ∀ {off : Nat}, off ≤ dlen → ¬ off < dlen →
      ([] : Bytes) = window (env.staging id) off (dlen - off) ∧
        ([] : Bytes).length = dlen - off := by
    intro off h1 h2
    rw [show dlen - off = 0 by omega]
    exact ⟨rfl, rfl⟩
  induction fuel generalizing off bs with
  | zero =>
    unfold stagingLoop at h
    split at h
    · cases h
    · cases h
      exact done ho ‹_›
  | succ fuel ih =>
    unfold stagingLoop at h
    split at h
    next hlt =>
      dsimp only at h
      split at h
      · cases h
      next hne =>
        obtain ⟨rest, hr, h⟩ := Option.map_eq_some_iff.mp h
        subst h
        generalize hg : env.stagingRead id off (min 4096 (dlen - off)) = got at *
        have hlen : got.length ≤ dlen - off := by
          rw [← hg, SendEnv.stagingRead, window, List.length_take]
          omega
        have hgot : got = window (env.staging id) off got.length := by
          rw [← hg, SendEnv.stagingRead, window, window, List.length_take, List.take_eq_take_iff]
          omega
        obtain ⟨e, el⟩ := ih hr (by omega)
        refine ⟨?_, by rw [List.length_append, el]; omega⟩
        rw [e]
        nth_rewrite 1 [hgot]
        rw [window, window, window, ← List.drop_drop, ← List.take_add,
          show got.length + (dlen - (off + got.length)) = dlen - off by omega]
    next hge =>
      cases h
      exact done ho hge

lemma packStr_length {buflen raw} {s : Bytes} (h : packStr buflen s = some raw) :
    s.length ≤ raw.length := by
  unfold packStr at h
  dsimp only at h
  repeat' split at h
  all_goals cases h
  all_goals simp only [List.length_cons, List.length_append]
  all_goals omega

lemma packBin_length {buflen raw} {data : Bytes} (h : packBin buflen data = some raw) :
    data.length ≤ raw.length := by
  unfold packBin at h
  obtain ⟨hdr, _, h⟩ := bind_some h
  split at h
  · cases h
  · cases h
    simp

/-- `pack_pair` appends a pair. -/
lemma packPair_eq {env cap mp name mode a mp'} (h : packPair env cap mp name mode a = some mp') :
    ∃ raw, mp' = mp ++ raw ∧ (a.bytes env).length = a.byteCount ∧ (mp'.length < 2 ^ 32 →
      PairRaw (fun r => if mode then SmallUint r a.audioMode else Text r name) (a.bytes env)
        raw) := by
  unfold packPair at h
  obtain ⟨hd, h2, h⟩ := bind_some h
  have hd2 : hd = [0x92] := by
    unfold packArrayHeader at h2
    split at h2
    · split at h2
      · cases h2
      · exact (Option.some.inj h2).symm
    · omega
  subst hd2
  obtain ⟨rawName, hn, h⟩ := bind_some h
  obtain ⟨hdr, hh, h⟩ := bind_some h
  have body : ∃ b, mp' = mp ++ [0x92] ++ rawName ++ hdr ++ b ∧ b = a.bytes env ∧
      b.length = a.byteCount := by
    dsimp only at h
    split at h
    · cases h
    · split at h
      next hs =>
        obtain ⟨b, hb, h⟩ := bind_some h
        obtain ⟨e, el⟩ := stagingLoop_eq hb (Nat.zero_le _)
        rw [Nat.sub_zero] at e el
        refine ⟨b, (Option.some.inj h).symm, ?_, el⟩
        rw [e, OutgoingAttachment.bytes, if_pos hs, OutgoingAttachment.byteCount, if_pos hs]
      next hs =>
        refine ⟨a.data, (Option.some.inj h).symm, ?_, ?_⟩
        · rw [OutgoingAttachment.bytes, if_neg hs]
        · rw [OutgoingAttachment.byteCount, if_neg hs]
  obtain ⟨b, rfl, hb, hbl⟩ := body
  refine ⟨0x92 :: (rawName ++ (hdr ++ b)), by simp, by rw [← hb, hbl], fun hlt => ?_⟩
  simp only [List.length_append] at hlt
  rw [hb]
  refine .mk ?_ ?_
  · unfold packName at hn
    split at hn
    next hm =>
      rw [if_pos hm]
      exact smallUint_of_packUint8 hn
    next hm =>
      rw [if_neg hm]
      have := packStr_length hn
      exact text_of_packStr (by omega) hn
  · rw [← hb, hbl]
    exact binHeader_of_pack (by omega) hh

/-- The telemetry step appends its entry. -/
lemma packTelemetry_eq {cap mp t mp'} (h : packTelemetry cap mp t = .ok mp') :
    ∃ c seg, mp' = mp ++ seg ∧ c ≤ 1 ∧ (c = 0 ↔ t = []) ∧
      (mp'.length < 2 ^ 32 → Entry FIELD_TELEMETRY (Text · t) c seg) := by
  unfold packTelemetry at h
  split at h
  next ht =>
    cases h
    exact ⟨0, [], by simp, by omega, by simp [ht], fun _ => .absent⟩
  next ht =>
    obtain ⟨k, hk, h⟩ := bind_ok h
    obtain ⟨v, hv, h⟩ := bind_ok h
    cases h
    refine ⟨1, k ++ v, by simp, le_refl 1, by simp [ht], fun hlt => ?_⟩
    have hle := packBin_length (orFail_ok hv)
    simp only [List.length_append] at hlt
    exact .present (smallUint_of_packUint8 (orFail_ok hk)) (text_of_packBin (by omega)
      (orFail_ok hv))

lemma packExtra_eq {cap mp key raw msg mp'} (h : packExtra cap mp key raw msg = .ok mp') :
    ∃ c seg, mp' = mp ++ seg ∧ c ≤ 1 ∧ (c = 0 ↔ raw = []) ∧ Entry key (· = raw) c seg := by
  unfold packExtra at h
  split at h
  next hr =>
    cases h
    exact ⟨0, [], by simp, by omega, by simp [hr], .absent⟩
  next hr =>
    obtain ⟨k, hk, h⟩ := bind_some (orFail_ok h)
    dsimp only at h
    split at h
    · cases h
    · cases h
      exact ⟨1, k ++ raw, by simp, le_refl 1, by simp [hr],
        .present (smallUint_of_packUint8 hk) rfl⟩

lemma packImage_eq {env cap mp atts mp'} (h : packImage env cap mp atts = .ok mp') :
    ∃ c seg, mp' = mp ++ seg ∧ c ≤ 1 ∧ (c = 0 ↔ atts.find? (·.tag = FIELD_IMAGE) = none) ∧
      (mp'.length < 2 ^ 32 →
        Entry FIELD_IMAGE (FirstRaw env FIELD_IMAGE (fun a => (Text · a.ext)) atts) c seg) := by
  unfold packImage at h
  split at h
  next hf =>
    cases h
    exact ⟨0, [], by simp, by omega, by simp [hf], fun _ => .absent⟩
  next a hf =>
    obtain ⟨k, hk, h⟩ := bind_ok h
    obtain ⟨raw, rfl, hlen, hraw⟩ := packPair_eq (orFail_ok h)
    exact ⟨1, k ++ raw, by simp, le_refl 1, by simp [hf], fun hlt =>
      .present (smallUint_of_packUint8 (orFail_ok hk)) (.mk hf hlen (hraw hlt))⟩

lemma packAudio_eq {env cap mp atts mp'} (h : packAudio env cap mp atts = .ok mp') :
    ∃ c seg, mp' = mp ++ seg ∧ c ≤ 1 ∧ (c = 0 ↔ atts.find? (·.tag = FIELD_AUDIO) = none) ∧
      (mp'.length < 2 ^ 32 → Entry FIELD_AUDIO
        (FirstRaw env FIELD_AUDIO (fun a => (SmallUint · a.audioMode)) atts) c seg) := by
  unfold packAudio at h
  split at h
  next hf =>
    cases h
    exact ⟨0, [], by simp, by omega, by simp [hf], fun _ => .absent⟩
  next a hf =>
    obtain ⟨k, hk, h⟩ := bind_ok h
    obtain ⟨raw, rfl, hlen, hraw⟩ := packPair_eq (orFail_ok h)
    exact ⟨1, k ++ raw, by simp, le_refl 1, by simp [hf], fun hlt =>
      .present (smallUint_of_packUint8 (orFail_ok hk)) (.mk hf hlen (hraw hlt))⟩

lemma packFilePairs_eq {env cap mp files mp'} (h : packFilePairs env cap mp files = .ok mp') :
    ∃ raws : List Bytes, mp' = mp ++ raws.flatten ∧ (mp'.length < 2 ^ 32 →
      List.Forall₂ (fun a raw => (a.bytes env).length = a.byteCount ∧
        PairRaw (Text · a.filename) (a.bytes env) raw) files raws) := by
  induction files generalizing mp with
  | nil =>
    cases h
    exact ⟨[], by simp, fun _ => .nil⟩
  | cons a files ih =>
    unfold packFilePairs at h
    obtain ⟨mp1, h1, h⟩ := bind_ok h
    obtain ⟨raw, rfl, hlen, hraw⟩ := packPair_eq (orFail_ok h1)
    obtain ⟨raws, rfl, hraws⟩ := ih h
    refine ⟨raw :: raws, by simp, fun hlt => ?_⟩
    have hlt1 := hlt
    rw [List.length_append] at hlt1
    exact .cons ⟨hlen, hraw (by omega)⟩ (hraws hlt)

lemma listHeader_of_pack {buflen n hdr} (h : packArrayHeader buflen n = some hdr) :
    ListHeader hdr n := by
  unfold packArrayHeader at h
  repeat' split at h
  all_goals cases h
  · exact .short (by omega)
  · exact .arr16 (by omega) (by omega)
  · exact .arr32 (by omega)

lemma packFiles_eq {env cap mp atts mp'} (h : packFiles env cap mp atts = .ok mp') :
    ∃ c seg, mp' = mp ++ seg ∧ c ≤ 1 ∧
      (c = 0 ↔ atts.filter (·.tag = FIELD_FILE_ATTACHMENTS) = []) ∧
      (mp'.length < 2 ^ 32 → Entry FIELD_FILE_ATTACHMENTS
        (FilesRaw env (atts.filter (·.tag = FIELD_FILE_ATTACHMENTS))) c seg) := by
  unfold packFiles at h
  dsimp only at h
  split at h
  next hf =>
    cases h
    exact ⟨0, [], by simp, by omega, by simp [hf], fun _ => .absent⟩
  next hf =>
    obtain ⟨k, hk, h⟩ := bind_ok h
    obtain ⟨hdr, hh, h⟩ := bind_ok h
    obtain ⟨raws, rfl, hraws⟩ := packFilePairs_eq h
    exact ⟨1, k ++ (hdr ++ raws.flatten), by simp, le_refl 1, by simp [hf], fun hlt =>
      .present (smallUint_of_packUint8 (orFail_ok hk))
        (.mk (listHeader_of_pack (orFail_ok hh)) (hraws hlt))⟩

lemma one_of {c : Nat} {p : Prop} [Decidable p] (h1 : c ≤ 1) (h : c = 0 ↔ p) :
    c = if p then 0 else 1 := by
  split
  next hp => exact h.mpr hp
  next hp =>
    have := mt h.mp hp
    omega

/-- Element 3 is the map of the entries there are. -/
lemma packFields_eq {env cap mp extra atts mp'} (h : packFields env cap mp extra atts = .ok mp') :
    ∃ raw, mp' = mp ++ raw ∧ (mp'.length < 2 ^ 32 → FieldsRaw env extra atts raw) := by
  unfold packFields at h
  split at h
  next hn =>
    cases h
    refine ⟨[0xC0], rfl, fun _ => ?_⟩
    obtain ⟨h1, h2, h3, h4⟩ := hn
    obtain ⟨t, c, m⟩ := extra
    simp only at h2 h3 h4
    subst h2 h3 h4
    exact .nil h1 rfl
  next =>
    obtain ⟨hdr, hh, h⟩ := bind_ok h
    obtain ⟨m1, e1, h⟩ := bind_ok h
    obtain ⟨m2, e2, h⟩ := bind_ok h
    obtain ⟨m3, e3, h⟩ := bind_ok h
    obtain ⟨m4, e4, h⟩ := bind_ok h
    obtain ⟨m5, e5, h⟩ := bind_ok h
    obtain ⟨c1, s1, rfl, l1, z1, n1⟩ := packTelemetry_eq e1
    obtain ⟨c2, s2, rfl, l2, z2, n2⟩ := packExtra_eq e2
    obtain ⟨c3, s3, rfl, l3, z3, n3⟩ := packExtra_eq e3
    obtain ⟨c4, s4, rfl, l4, z4, n4⟩ := packImage_eq e4
    obtain ⟨c5, s5, rfl, l5, z5, n5⟩ := packAudio_eq e5
    obtain ⟨c6, s6, rfl, l6, z6, n6⟩ := packFiles_eq h
    have hcount : fieldCount extra atts = c1 + c2 + c3 + c4 + c5 + c6 := by
      rw [one_of l1 z1, one_of l2 z2, one_of l3 z3, one_of l4 z4, one_of l5 z5, one_of l6 z6,
        fieldCount]
      omega
    have hhdr : hdr = [0x80 ||| UInt8.ofNat (c1 + c2 + c3 + c4 + c5 + c6)] := by
      have := orFail_ok hh
      rw [hcount, packMapHeader, if_pos (by omega)] at this
      split at this
      · cases this
      · exact (Option.some.inj this).symm
    subst hhdr
    refine ⟨(0x80 ||| UInt8.ofNat (c1 + c2 + c3 + c4 + c5 + c6)) ::
      (s1 ++ (s2 ++ (s3 ++ (s4 ++ (s5 ++ s6))))), by simp, fun hlt => ?_⟩
    simp only [List.length_append] at hlt n1 n4 n5 n6
    exact .map (by omega) z1 (n1 (by omega)) z2 n2 z3 n3 z4 (n4 (by omega)) z5 (n5 (by omega))
      z6 (n6 (by omega))

/-- What an accepted message is packed into. -/
structure Packed (env : SendEnv) (title content : Bytes) (extra : ExtraFields)
    (atts : List OutgoingAttachment) (rawTitle rawContent rawFields : Bytes) : Prop where
  title : Text rawTitle title
  content : Text rawContent content
  fields : FieldsRaw env extra atts rawFields
  size : rawTitle.length + rawContent.length + rawFields.length ≤ 1024 * 1024

/-- An accepted message is the array of timestamp, title, content and fields, its id is the hash of
these bytes, and its record lists all attachments. -/
lemma prepare_eq {env destHash title content atts extra pm rec}
    (h : prepareMessage env destHash title content atts extra = .ok (pm, rec)) :
    ∃ rawTitle rawContent rawFields,
      Packed env title content (extra.getD {}) atts rawTitle rawContent rawFields ∧
      pm.payload = 0x94 :: ((0xCB :: beBytes 8 env.timestamp.toNat) ++
        (rawTitle ++ (rawContent ++ rawFields))) ∧
      pm.messageId = env.fullHash (destHash ++ env.srcHash ++ pm.payload) ∧
      pm.ts = env.timestamp ∧ rec.attachments = recordAttachments env pm.messageId atts := by
  unfold prepareMessage at h
  split at h
  · cases h
  split at h
  · cases h
  split at h
  · cases h
  dsimp only at h
  split at h
  · cases h
  obtain ⟨rts, hts, h⟩ := bind_ok h
  obtain ⟨rt, ht, h⟩ := bind_ok h
  obtain ⟨rc, hc, h⟩ := bind_ok h
  obtain ⟨mp, hf, h⟩ := bind_ok h
  obtain ⟨rf, rfl, hfields⟩ := packFields_eq hf
  have hts' : rts = 0xCB :: beBytes 8 env.timestamp.toNat := by
    have e := orFail_ok hts
    unfold packFloat64 at e
    split at e
    · cases e
    · exact (Option.some.inj e).symm
  subst hts'
  split at h
  · cases h
  next hle =>
    cases h
    have h1 := packBin_length (orFail_ok ht)
    have h2 := packBin_length (orFail_ok hc)
    simp only [List.length_append] at hle hfields
    refine ⟨rt, rc, rf, ⟨text_of_packBin (by omega) (orFail_ok ht),
      text_of_packBin (by omega) (orFail_ok hc), hfields (by omega), by omega⟩, ?_, rfl, rfl, rfl⟩
    simp

end URSupreme.LXMF
