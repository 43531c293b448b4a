import URSupreme.LXMF.Decoding

/-!
# The LXMF round trip

What the receiver's `_parse_lxmf_payload` and `_split_payload_stamp` recover of a message that
`prepare_message` packed and `send_prepared` extended with a stamp, and exactly when that is the
whole message.
-/

namespace URSupreme.LXMF
open Lib Lib.Wire MsgPack

section Read
variable {data rawTitle title rawContent content rawFields : Bytes} {ts : UInt64} {h : UInt8}
  {fuel : Nat} (hl : data.length + HEADER_LEN < 2 ^ 32)
  (hat : At data 0 (h :: ((0xCB :: beBytes 8 ts.toNat) ++
    (rawTitle ++ (rawContent ++ rawFields)))))
include hl hat

/-- The timestamp is read back. -/
lemma timestamp_at : timestamp data 1 = .ok (some ts) := by
  have hle := hat.length_le (Nat.zero_le _)
  simp only [List.length_cons, List.length_append, length_beBytes] at hle
  unfold HEADER_LEN at hl
  obtain ⟨_, hts, _⟩ := (at_cons.mp hat).imp_right at_append.mp
  rw [at_cons, show (8 : Nat) = 4 + 4 from rfl, beBytes_add, at_append, length_beBytes] at hts
  have hhi := sizeAt_of_at (.inr (.inr rfl)) (length_beBytes 4 _) hts.2.1 (by omega) (by omega)
  have hlo := sizeAt_of_at (.inr (.inr rfl)) (length_beBytes 4 _) hts.2.2 (by omega) (by omega)
  have hlt := ts.toNat_lt
  rw [be_beBytes (by omega)] at hhi
  rw [be_beBytes_mod] at hlo
  rw [timestamp, if_pos (by rw [sz_of_lt (by omega)]; omega), byteAt_of_some hts.1, ok_bind,
    if_pos rfl, show u32 data (1 + 1) = _ from hhi, ok_bind,
    show u32 data (1 + 5) = _ from hlo, ok_bind,
    show ts.toNat / 256 ^ 4 * 2 ^ 32 + ts.toNat % 256 ^ 4 = ts.toNat by omega, UInt64.ofNat_toNat]

/-- Everything in front of the fields is read back. -/
lemma parse_at (hm : h &&& 0xF0 = 0x90) (hn : 3 ≤ (h &&& 0x0F).toNat) (hfuel : data.length < fuel)
    (ht : Text rawTitle title) (hc : Text rawContent content) :
    parseLxmfPayload fuel data = (do
      let fields ← parseFields fuel data (h &&& 0x0F).toNat
        (10 + rawTitle.length + rawContent.length)
      .ok (some { ts := some ts, title := title.take LXMF_MAX_TITLE_BYTES,
                  content := content.take LXMF_MAX_BODY_BYTES, fields })) := by
  have hle := hat.length_le (Nat.zero_le _)
  have hts := timestamp_at hl hat
  have hat' := hat
  rw [at_cons, at_append, at_append, at_append] at hat
  obtain ⟨h0, ats, att, atc, _⟩ := hat
  simp only [List.length_cons, List.length_append, length_beBytes, Nat.zero_add] at hle ats att atc
  unfold HEADER_LEN at hl
  have hel : Element Known (0xCB :: beBytes 8 ts.toNat) := by
    have e := Elements.fixed (K := Known) (by decide) (by decide : classify 0xCB = .fixed 8)
      (length_beBytes 8 ts.toNat) .nil
    rwa [List.append_nil] at e
  have hskip := skipElement_of_element (by omega) hel ats (by omega)
    (by simp only [List.length_cons, length_beBytes]; omega : _ < fuel)
  rw [parseLxmfPayload, if_neg (by omega), arrayHeader, byteAt_of_some h0, ok_bind]
  simp only
  rw [if_pos hm, ok_bind]
  simp only
  rw [if_neg (by omega), hts, ok_bind, hskip, ok_bind]
  simp only [if_true, List.length_cons, length_beBytes]
  rw [readBinOrStr_of_text (by omega) ht att (by omega), ok_bind]
  simp only
  rw [readBinOrStr_of_text (by omega) hc atc (by omega), ok_bind]

end Read

/-- The stamp is found right behind complete fields. -/
lemma split_at {data rawTitle title rawContent content rawFields stamp : Bytes} {ts : UInt64}
    {fuel : Nat} (hl : data.length + HEADER_LEN < 2 ^ 32) (hfuel : data.length < fuel)
    (ht : Text rawTitle title) (hc : Text rawContent content) (hf : Element Known rawFields)
    (hdata : data = 0x95 :: ((0xCB :: beBytes 8 ts.toNat) ++
      (rawTitle ++ (rawContent ++ rawFields))) ++ [0xC4, UInt8.ofNat stamp.length] ++ stamp) :
    splitPayloadStamp fuel data = .ok (some
      { hdrLen := 1, coreEnd := 1 + ((0xCB :: beBytes 8 ts.toNat) ++
          (rawTitle ++ (rawContent ++ rawFields))).length
        stamp := stamp.take (stamp.length % 256), stripped := true }) := by
  have hel : Element Known (0xCB :: beBytes 8 ts.toNat) := by
    have e := Elements.fixed (K := Known) (by decide) (by decide : classify 0xCB = .fixed 8)
      (length_beBytes 8 ts.toNat) .nil
    rwa [List.append_nil] at e
  have core := hel.append ((element_of_text ht).append ((element_of_text hc).append hf))
  generalize (0xCB :: beBytes 8 ts.toNat) ++ (rawTitle ++ (rawContent ++ rawFields)) = raw at *
  have hat : At data 0 (0x95 :: (raw ++ ([0xC4, UInt8.ofNat stamp.length] ++ stamp))) := by
    rw [hdata]
    simpa using at_self
  have hle := hat.length_le (Nat.zero_le _)
  rw [at_cons, at_append] at hat
  simp only [List.length_cons, List.length_append, List.length_nil, Nat.zero_add] at hle hat
  unfold HEADER_LEN at hl
  have hskip := skipMany_of_elements (by omega) core hat.2.1 (by omega) (by omega : _ < fuel)
  have hb : (UInt8.ofNat stamp.length).toNat = stamp.length % 256 := by
    simp [UInt8.toNat_ofNat']
  have hstamp : Text (0xC4 :: ([UInt8.ofNat stamp.length] ++ stamp.take (stamp.length % 256)))
      (stamp.take (stamp.length % 256)) := by
    refine .sized (by decide : classify 0xC4 = .sized 1) rfl ?_
    rw [be_cons, be_nil, hb, List.length_take]
    simp only [List.length_nil]
    have := Nat.mod_le stamp.length 256
    omega
  have hats : At data (1 + raw.length)
      (0xC4 :: ([UInt8.ofNat stamp.length] ++ stamp.take (stamp.length % 256))) := by
    refine List.IsPrefix.trans ?_ hat.2.2
    exact (List.prefix_append_right_inj [0xC4, UInt8.ofNat stamp.length]).mpr (List.take_prefix _ _)
  rw [splitPayloadStamp]
  simp only
  rw [if_neg (by omega), arrayHeader, byteAt_of_some hat.1, ok_bind, if_pos (by decide), ok_bind]
  simp only
  rw [if_neg (by decide), hskip, ok_bind]
  simp only [if_true]
  rw [readBinOrStr_of_text (by omega) hstamp hats (by omega), ok_bind]

/-- The payload on the wire starts with an array header and the four elements that were prepared. -/
lemma wire_at {raw stamp wire : Bytes} (hw : payloadWire (0x94 :: raw) stamp = .ok wire) :
    ∃ h, h &&& 0xF0 = 0x90 ∧ 4 ≤ (h &&& 0x0F).toNat ∧ At wire 0 (h :: raw) := by
  unfold payloadWire at hw
  split at hw
  next =>
    cases hw
    exact ⟨0x94, by decide, by decide, at_self⟩
  next =>
    cases hw
    refine ⟨0x95, by decide, by decide, ?_⟩
    rw [List.append_assoc]
    exact List.prefix_append _ _

/-- Images first, then audio clips, then files. -/
def grouped (atts : List OutgoingAttachment) : List OutgoingAttachment :=
  atts.filter (·.tag = FIELD_IMAGE) ++ atts.filter (·.tag = FIELD_AUDIO) ++
    atts.filter (·.tag = FIELD_FILE_ATTACHMENTS)

/-- A list the encoder leaves nothing out of. -/
structure Encodable (atts : List OutgoingAttachment) : Prop where
  tags : ∀ a ∈ atts, a.tag = FIELD_IMAGE ∨ a.tag = FIELD_AUDIO ∨ a.tag = FIELD_FILE_ATTACHMENTS
  images : (atts.filter (·.tag = FIELD_IMAGE)).length ≤ 1
  audio : (atts.filter (·.tag = FIELD_AUDIO)).length ≤ 1
  files : (atts.filter (·.tag = FIELD_FILE_ATTACHMENTS)).length ≤ 0xFFFF

lemma toList_find? {atts : List OutgoingAttachment} {t : UInt8} :
    (atts.find? (·.tag = t)).toList = (atts.filter (·.tag = t)).take 1 := by
  rw [← List.head?_filter]
  cases atts.filter (·.tag = t) <;> rfl

/-- The attachments are those of the three known tags and the rest. -/
lemma grouped_perm (atts : List OutgoingAttachment) :
    (grouped atts ++ atts.filter fun a =>
      ¬(a.tag = FIELD_IMAGE ∨ a.tag = FIELD_AUDIO ∨ a.tag = FIELD_FILE_ATTACHMENTS)).Perm atts := by
  rw [List.perm_iff_count]
  intro a
  have key : ∀ p : OutgoingAttachment → Bool,
      (atts.filter p).count a = if p a then atts.count a else 0 := by
    intro p
    split
    next h => exact List.count_filter h
    next h => exact List.count_eq_zero.mpr fun hm => h (List.mem_filter.mp hm).2
  simp only [grouped, List.count_append, key]
  by_cases h1 : a.tag = FIELD_IMAGE
  · simp [h1, FIELD_IMAGE, FIELD_AUDIO, FIELD_FILE_ATTACHMENTS]
  by_cases h2 : a.tag = FIELD_AUDIO
  · simp [h2, FIELD_IMAGE, FIELD_AUDIO, FIELD_FILE_ATTACHMENTS]
  by_cases h3 : a.tag = FIELD_FILE_ATTACHMENTS
  · simp [h3, FIELD_IMAGE, FIELD_AUDIO, FIELD_FILE_ATTACHMENTS]
  · simp [h1, h2, h3]

/-- All attachments reach the wire exactly when the encoder leaves nothing out. -/
lemma onWire_length {atts} (h : (onWire atts).length = atts.length) : Encodable atts := by
  have hp := (grouped_perm atts).length_eq
  unfold onWire at h
  rw [toList_find?, toList_find?] at h
  simp only [grouped, List.length_append, List.length_take] at h hp
  have rest : ∀ {n : Nat}, n = 0 → (atts.filter fun a => ¬(a.tag = FIELD_IMAGE ∨
      a.tag = FIELD_AUDIO ∨ a.tag = FIELD_FILE_ATTACHMENTS)).length = n →
      ∀ a ∈ atts, a.tag = FIELD_IMAGE ∨ a.tag = FIELD_AUDIO ∨ a.tag = FIELD_FILE_ATTACHMENTS := by
    intro n hn e a ha
    rw [hn, List.length_eq_zero_iff, List.filter_eq_nil_iff] at e
    exact not_not.mp fun h => e a ha (decide_eq_true h)
  split at h
  next hf => exact ⟨rest (by omega) rfl, by omega, by omega, hf⟩
  next hf =>
    rw [List.length_nil] at h
    omega

lemma onWire_eq {atts} (h : Encodable atts) : onWire atts = grouped atts := by
  rw [onWire, toList_find?, toList_find?, List.take_of_length_le h.images,
    List.take_of_length_le h.audio, if_pos h.files, grouped]

lemma onWire_perm {atts} (h : Encodable atts) : (onWire atts).Perm atts := by
  have hp := grouped_perm atts
  rw [List.filter_eq_nil_iff.mpr fun a ha h' =>
    absurd (h.tags a ha) (of_decide_eq_true h'), List.append_nil] at hp
  rw [onWire_eq h]
  exact hp

/-- A list whose tags come in groups is grouped. -/
lemma grouped_of_tags {atts : List OutgoingAttachment}
    (h : (grouped atts).map (·.tag) = atts.map (·.tag)) : grouped atts = atts := by
  unfold grouped at h
  rw [List.map_append, List.map_append] at h
  obtain ⟨l, r3, rfl, hl, h3⟩ := List.map_eq_append_iff.mp h.symm
  obtain ⟨r1, r2, rfl, h1, h2⟩ := List.map_eq_append_iff.mp hl
  have tags : ∀ {t : UInt8} {l r : List OutgoingAttachment},
      r.map (·.tag) = (l.filter (·.tag = t)).map (·.tag) → ∀ a ∈ r, a.tag = t := by
    intro t l r e a ha
    have hm := List.mem_map_of_mem (f := (·.tag)) ha
    rw [e] at hm
    obtain ⟨b, hb, e⟩ := List.mem_map.mp hm
    rw [← e]
    simpa using (List.mem_filter.mp hb).2
  have keep : ∀ {t : UInt8} {r : List OutgoingAttachment}, (∀ a ∈ r, a.tag = t) →
      r.filter (·.tag = t) = r := fun h => List.filter_eq_self.mpr fun a ha => by simpa using h a ha
  have drop : ∀ {t u : UInt8} {r : List OutgoingAttachment}, (∀ a ∈ r, a.tag = t) → t ≠ u →
      r.filter (·.tag = u) = [] := fun h hne =>
    List.filter_eq_nil_iff.mpr fun a ha => by simpa [h a ha] using hne
  have t1 := tags h1
  have t2 := tags h2
  have t3 := tags h3
  simp only [grouped, List.filter_append, keep t1, keep t2, keep t3,
    drop t1 (by decide : FIELD_IMAGE ≠ FIELD_AUDIO),
    drop t1 (by decide : FIELD_IMAGE ≠ FIELD_FILE_ATTACHMENTS),
    drop t2 (by decide : FIELD_AUDIO ≠ FIELD_IMAGE),
    drop t2 (by decide : FIELD_AUDIO ≠ FIELD_FILE_ATTACHMENTS),
    drop t3 (by decide : FIELD_FILE_ATTACHMENTS ≠ FIELD_IMAGE),
    drop t3 (by decide : FIELD_FILE_ATTACHMENTS ≠ FIELD_AUDIO), List.append_nil, List.nil_append]

lemma zipWith_attachmentMeta {env l atts} (h : l.length = atts.length) :
    (List.zipWith attachmentMeta l atts).map (fun a => (a.tag, a.size)) =
      (atts.map (OutgoingAttachment.view env)).map fun v => (v.tag, v.size) := by
  induction l generalizing atts with
  | nil =>
    rw [List.length_eq_zero_iff.mp h.symm]
    rfl
  | cons m l ih =>
    match atts with
    | [] => cases h
    | a :: atts =>
      rw [List.length_cons, List.length_cons, Nat.succ_inj] at h
      rw [List.zipWith_cons_cons, List.map_cons, ih h]
      rfl

/-- The record lists every attachment handed in, by tag and size. -/
lemma recordAttachments_map {env id atts} :
    (recordAttachments env id atts).map (fun a => (a.tag, a.size)) =
      (atts.map (OutgoingAttachment.view env)).map fun v => (v.tag, v.size) := by
  have none : ((atts.map (attachmentMeta {})).map fun a => (a.tag, a.size)) =
      (atts.map (OutgoingAttachment.view env)).map fun v => (v.tag, v.size) := by
    rw [List.map_map, List.map_map]
    rfl
  unfold recordAttachments
  dsimp only
  repeat' split
  · exact zipWith_attachmentMeta ‹_›
  · exact none
  · exact zipWith_attachmentMeta ‹_›
  · exact none

/-- What the receiver makes of `wire` is what the sender prepared, with lists of attachments
compared by `same`. -/
structure Recovers (same : (α : Type) → List α → List α → Prop) (fuel : Nat) (env : SendEnv)
    (destHash title content : Bytes) (atts : List OutgoingAttachment) (extra : ExtraFields)
    (pm : PreparedMessage) (rec : OutRecord) (stamp wire : Bytes) (m : Parsed) (s : Split) :
    Prop where
  parsed : parseLxmfPayload fuel wire = .ok (some m)
  split : splitPayloadStamp fuel wire = .ok (some s)
  ts : m.ts = some pm.ts
  title : m.title = title
  content : m.content = content
  telemetry : m.fields.telemetry = extra.telemetry
  commands : m.fields.commands = extra.commands
  customMeta : m.fields.customMeta = extra.customMeta
  stamp : s.stamp = stamp
  hashed : hashedPayload wire s = pm.payload
  messageId : env.fullHash (destHash ++ env.srcHash ++ hashedPayload wire s) = pm.messageId
  attachments : same AttachmentView (m.fields.fields.map (FieldBlob.view wire))
    (atts.map (OutgoingAttachment.view env))
  recorded : same (UInt8 × Nat) (m.fields.fields.map fun b => (b.tag, b.rawLen))
    (rec.attachments.map fun a => (a.tag, a.size))

/-- A message the receiver can recover. -/
structure Faithful (title content : Bytes) (atts : List OutgoingAttachment) (extra : ExtraFields)
    (stamp : Bytes) : Prop where
  title : title.length ≤ LXMF_MAX_TITLE_BYTES
  content : content.length ≤ LXMF_MAX_BODY_BYTES
  commands : extra.commands = [] ∨ Element Known extra.commands
  customMeta : extra.customMeta = [] ∨ Element Known extra.customMeta
  stamp : stamp.length < 256
  attachments : Encodable atts

section RoundTrip
variable {fuel : Nat} {env : SendEnv} {destHash title content : Bytes}
  {atts : List OutgoingAttachment} {extra : Option ExtraFields} {pm : PreparedMessage}
  {rec : OutRecord} {stamp wire : Bytes}
  (hp : prepareMessage env destHash title content atts extra = .ok (pm, rec))
  (hw : payloadWire pm.payload stamp = .ok wire) (hl : wire.length + HEADER_LEN < 2 ^ 32)
  (hfuel : wire.length < fuel)
include hp hw hl hfuel

/-- What the receiver shows and hashes of a message whose values it can walk. -/
lemma received (hc : (extra.getD {}).commands = [] ∨ Element Known (extra.getD {}).commands)
    (hm : (extra.getD {}).customMeta = [] ∨ Element Known (extra.getD {}).customMeta) :
    ∃ f, FieldsAre wire (extra.getD {}).telemetry (extra.getD {}).commands
        (extra.getD {}).customMeta ((onWire atts).map (OutgoingAttachment.view env)) f ∧
      parseLxmfPayload fuel wire = .ok (some
        { ts := some pm.ts, title := title.take LXMF_MAX_TITLE_BYTES
          content := content.take LXMF_MAX_BODY_BYTES, fields := f }) ∧
      ((atts.filter (·.tag = FIELD_FILE_ATTACHMENTS)).length ≤ 0xFFFF →
        ∃ s, splitPayloadStamp fuel wire = .ok (some s) ∧
          s.stamp = stamp.take (stamp.length % 256) ∧ hashedPayload wire s = pm.payload) := by
  obtain ⟨rt, rc, rf, hpk, hpay, _, hts, _⟩ := prepare_eq hp
  rw [hpay] at hw
  obtain ⟨h, hmask, hn, hat⟩ := wire_at hw
  have hle := hat.length_le (Nat.zero_le _)
  have hatf := hat
  rw [at_cons, at_append, at_append, at_append] at hatf
  obtain ⟨_, _, _, _, hatf⟩ := hatf
  simp only [List.length_cons, List.length_append, length_beBytes, Nat.zero_add] at hle hatf
  rw [show 1 + (8 + 1) + rt.length + rc.length = 10 + rt.length + rc.length by omega] at hatf
  obtain ⟨f, hf, e⟩ := parseFields_at hl hpk.fields hn hfuel hatf (by omega) hc hm
  refine ⟨f, hf, ?_, fun hfiles => ?_⟩
  · rw [parse_at hl hat hmask (by omega) hfuel hpk.title hpk.content, e, hts]
    rfl
  · have hel := hpk.fields.element hc hm hfiles
    unfold payloadWire at hw
    split at hw
    next hs =>
      cases hw
      subst hs
      refine ⟨{ hdrLen := 1, coreEnd := pm.payload.length, stamp := [], stripped := false }, ?_,
        rfl, ?_⟩
      · rw [hpay]
        rfl
      · rw [hpay]
        rfl
    next hs =>
      cases hw
      refine ⟨_, split_at hl hfuel hpk.title hpk.content hel rfl, rfl, ?_⟩
      rw [hashedPayload, if_pos rfl, hpay, Nat.add_sub_cancel_left]
      congr 1
      exact ((at_cons.mp hat).2).window_eq

/-- A message the receiver can recover is recovered. -/
lemma recovers_of_faithful {same : (α : Type) → List α → List α → Prop}
    (h : Faithful title content atts (extra.getD {}) stamp)
    (hs : ∀ {β : Type} (g : AttachmentView → β),
      same β (((onWire atts).map (OutgoingAttachment.view env)).map g)
        ((atts.map (OutgoingAttachment.view env)).map g)) :
    ∃ m s, Recovers same fuel env destHash title content atts (extra.getD {}) pm rec stamp wire
      m s := by
  obtain ⟨f, hf, hparse, hsplit⟩ := received hp hw hl hfuel h.commands h.customMeta
  obtain ⟨s, e, hstamp, hhash⟩ := hsplit h.attachments.files
  obtain ⟨_, _, _, _, _, hid, _, hrec⟩ := prepare_eq hp
  refine ⟨_, s, hparse, e, rfl, ?_, ?_, hf.telemetry, hf.commands, hf.customMeta, ?_, hhash, ?_, ?_,
    ?_⟩
  · exact List.take_of_length_le h.title
  · exact List.take_of_length_le h.content
  · rw [hstamp, Nat.mod_eq_of_lt h.stamp, List.take_length]
  · rw [hhash, hid]
  · rw [hf.views]
    simpa using hs id
  · have e : (f.fields.map fun b => (b.tag, b.rawLen)) =
        (f.fields.map (FieldBlob.view wire)).map fun v => (v.tag, v.size) := by
      rw [List.map_map]
      rfl
    rw [hrec, recordAttachments_map, e, hf.views]
    exact hs _

/-- A message that is recovered can be recovered in full. -/
lemma faithful_of_recovers {same : (α : Type) → List α → List α → Prop} {m s}
    (hsame : ∀ {α : Type} {l l' : List α}, same α l l' → l.length = l'.length)
    (hc : (extra.getD {}).commands = [] ∨ Element (fun _ => True) (extra.getD {}).commands)
    (hm : (extra.getD {}).customMeta = [] ∨ Element (fun _ => True) (extra.getD {}).customMeta)
    (h : Recovers same fuel env destHash title content atts (extra.getD {}) pm rec stamp wire
      m s) :
    Faithful title content atts (extra.getD {}) stamp ∧
      m.fields.fields.map (FieldBlob.view wire) =
        (onWire atts).map (OutgoingAttachment.view env) := by
  obtain ⟨_, _, _, _, _, _, _, _, _, _, _, _, _, _, ht, hct⟩ := parse_parts h.parsed
  obtain ⟨kc, km⟩ : ((extra.getD {}).commands = [] ∨ Element Known (extra.getD {}).commands) ∧
      ((extra.getD {}).customMeta = [] ∨ Element Known (extra.getD {}).customMeta) := by
    obtain ⟨rt, rc, rf, hpk, hpay, _⟩ := prepare_eq hp
    rw [hpay] at hw
    obtain ⟨b, hmask, hn, hat⟩ := wire_at hw
    have e := h.parsed
    rw [parse_at hl hat hmask (by omega) hfuel hpk.title hpk.content] at e
    obtain ⟨f, e, em⟩ := bind_ok e
    obtain rfl : f = m.fields := congrArg Parsed.fields (Option.some.inj (Except.ok.inj em))
    have hle := hat.length_le (Nat.zero_le _)
    rw [at_cons, at_append, at_append, at_append] at hat
    obtain ⟨_, _, _, _, hatf⟩ := hat
    simp only [List.length_cons, List.length_append, length_beBytes, Nat.zero_add] at hle hatf
    rw [show 1 + (8 + 1) + rt.length + rc.length = 10 + rt.length + rc.length by omega] at hatf
    exact known_of_parseFields hl hpk.fields hn hfuel hatf
      (by omega) hc hm e h.commands h.customMeta
  obtain ⟨f, hf, hparse, hsplit⟩ := received hp hw hl hfuel kc km
  have hmf : m.fields = f := by
    have e := h.parsed
    rw [hparse] at e
    exact (congrArg Parsed.fields (Option.some.inj (Except.ok.inj e))).symm
  have hviews : m.fields.fields.map (FieldBlob.view wire) =
      (onWire atts).map (OutgoingAttachment.view env) := by
    rw [hmf]
    exact hf.views
  have henc : Encodable atts := by
    have e := hsame h.attachments
    rw [hviews, List.length_map, List.length_map] at e
    exact onWire_length e
  refine ⟨⟨?_, ?_, kc, km, ?_, henc⟩, hviews⟩
  · rw [← h.title, ht]
    exact List.length_take_le _ _
  · rw [← h.content, hct]
    exact List.length_take_le _ _
  · obtain ⟨s', e, hstamp, _⟩ := hsplit henc.files
    rw [h.split] at e
    cases e
    have e := congrArg List.length (h.stamp.symm.trans hstamp)
    rw [List.length_take] at e
    omega

/-- A prepared message is recovered, up to the order of its attachments, exactly when it is
faithful, and with the attachments in order exactly when they are also grouped. -/
theorem recovers_iff
    (hc : (extra.getD {}).commands = [] ∨ Element (fun _ => True) (extra.getD {}).commands)
    (hm : (extra.getD {}).customMeta = [] ∨ Element (fun _ => True) (extra.getD {}).customMeta) :
    ((∃ m s, Recovers @List.Perm fuel env destHash title content atts (extra.getD {}) pm rec stamp
        wire m s) ↔ Faithful title content atts (extra.getD {}) stamp) ∧
    ((∃ m s, Recovers (fun α => @Eq (List α)) fuel env destHash title content atts (extra.getD {})
        pm rec stamp wire m s) ↔
      Faithful title content atts (extra.getD {}) stamp ∧ grouped atts = atts) := by
  constructor
  · constructor
    · rintro ⟨m, s, h⟩
      exact (faithful_of_recovers hp hw hl hfuel (fun h => h.length_eq) hc hm h).1
    · intro h
      exact recovers_of_faithful hp hw hl hfuel h fun g =>
        ((onWire_perm h.attachments).map _).map g
  · constructor
    · rintro ⟨m, s, h⟩
      obtain ⟨hf, hviews⟩ := faithful_of_recovers hp hw hl hfuel (fun h => by rw [h]) hc hm h
      refine ⟨hf, grouped_of_tags ?_⟩
      have e := congrArg (List.map (·.tag)) (hviews.symm.trans h.attachments)
      rw [onWire_eq hf.attachments, List.map_map, List.map_map] at e
      exact e
    · rintro ⟨h, hg⟩
      exact recovers_of_faithful hp hw hl hfuel h fun g => by rw [onWire_eq h.attachments, hg]

end RoundTrip

/-- A gateway with a route to the recipient, at a fixed time. -/
def noteEnv : SendEnv :=
  { initialized := true, remoteIdentity := true, hasPath := true, srcHash := List.replicate 16 0x22
    fullHash := fun bs => bs.take 32, timestamp := 0x41D954FC40000000, malloc := fun _ => true
    staging := fun _ => [], persistOutbound := none, bootEpoch := 0, millis := 0 }

/-- A one-byte image with extension `png`. -/
def dot (b : UInt8) : OutgoingAttachment :=
  { tag := FIELD_IMAGE, data := [b], ext := [0x70, 0x6E, 0x67] }

/-- A message with title `A`, content `B`, one image and a stamp. -/
theorem recovers_iff_dot :
    ∃ pm rec wire,
      prepareMessage noteEnv (List.replicate 16 0x11) [0x41] [0x42] [dot 1] none = .ok (pm, rec) ∧
      payloadWire pm.payload (List.replicate 32 7) = .ok wire ∧
      ((∃ m s, Recovers @List.Perm 100 noteEnv (List.replicate 16 0x11) [0x41] [0x42] [dot 1] {}
          pm rec (List.replicate 32 7) wire m s) ↔
        Faithful [0x41] [0x42] [dot 1] {} (List.replicate 32 7)) ∧
      ((∃ m s, Recovers (fun α => @Eq (List α)) 100 noteEnv (List.replicate 16 0x11) [0x41] [0x42]
          [dot 1] {} pm rec (List.replicate 32 7) wire m s) ↔
        Faithful [0x41] [0x42] [dot 1] {} (List.replicate 32 7) ∧ grouped [dot 1] = [dot 1]) := by
  have hp : prepareMessage noteEnv (List.replicate 16 0x11) [0x41] [0x42] [dot 1] none =
      .ok (_, _) := rfl
  refine ⟨_, _, _, hp, rfl, recovers_iff hp rfl ?_ ?_ (.inl rfl) (.inl rfl)⟩
  · decide +kernel
  · decide +kernel

/-- Of two images one is left out. -/
theorem not_recovers_twoDots :
    ∃ pm rec wire,
      prepareMessage noteEnv (List.replicate 16 0x11) [0x41] [0x42] [dot 1, dot 2] none =
        .ok (pm, rec) ∧
      payloadWire pm.payload (List.replicate 32 7) = .ok wire ∧
      ¬ ∃ m s, Recovers @List.Perm 100 noteEnv (List.replicate 16 0x11) [0x41] [0x42]
        [dot 1, dot 2] {} pm rec (List.replicate 32 7) wire m s := by
  refine ⟨_, _, _, rfl, rfl, ?_⟩
  rintro ⟨m, s, h⟩
  have hp : prepareMessage noteEnv (List.replicate 16 0x11) [0x41] [0x42] [dot 1, dot 2] none =
      .ok (_, _) := rfl
  refine absurd (faithful_of_recovers hp rfl ?_ ?_ (fun h => h.length_eq) (.inl rfl) (.inl rfl)
    h).1.attachments.images (by decide)
  · decide +kernel
  · decide +kernel

end URSupreme.LXMF
