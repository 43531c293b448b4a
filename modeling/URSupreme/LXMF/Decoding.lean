import URSupreme.LXMF.Encoding
import URSupreme.LXMF.PayloadExact

/-!
# Reading back what was packed

What the functions behind `_parse_lxmf_payload` return on the bytes `prepare_message` packs, from
one header up to the whole fields map.
-/

namespace URSupreme.LXMF
open Lib Lib.Wire MsgPack

/-- An attachment as both ends see it. -/
structure AttachmentView where
  tag : UInt8
  name : Bytes
  audioMode : UInt8
  size : Nat
  bytes : Bytes
  deriving DecidableEq, Repr

/-- What the receiver sees of a blob. -/
def FieldBlob.view (data : Bytes) (b : FieldBlob) : AttachmentView :=
  { tag := b.tag, name := b.filename, audioMode := b.audioMode, size := b.rawLen,
    bytes := b.bytes data }

/-- What the sender wants seen of an attachment; the size is the one in the outbox record. -/
def OutgoingAttachment.view (env : SendEnv) (a : OutgoingAttachment) : AttachmentView :=
  { tag := a.tag
    name := if a.tag = FIELD_IMAGE then a.ext else if a.tag = FIELD_AUDIO then [] else a.filename
    audioMode := if a.tag = FIELD_AUDIO then a.audioMode else 0xFF
    size := a.byteCount % 2 ^ 32
    bytes := a.bytes env }

lemma at_take_of {data bs : Bytes} {o n : Nat} (h : At data o bs) (hn : o + bs.length ≤ n) :
    At (data.take n) o bs := by
  rw [At, List.drop_take]
  exact List.prefix_take_iff.mpr ⟨h, by omega⟩

section Decode
variable {data : Bytes} (hl : data.length + HEADER_LEN < 2 ^ 32)
include hl

/-- A `bin` header is read back. -/
lemma binHeader_at {ve p hdr n} (h : BinHeader hdr n) (hat : At data p hdr)
    (hp : p + hdr.length ≤ ve) (hve : ve ≤ data.length) :
    binHeader data ve p = .ok (some (hdr.length, n)) := by
  unfold HEADER_LEN at hl
  have size : ∀ {t w}, w = 1 ∨ w = 2 ∨ w = 4 → n < 256 ^ w → At data p (t :: beBytes w n) →
      p + 1 ≤ data.length → data[p]? = some t ∧ sizeAt data (p + 1) w = .ok n := by
    intro t w hw hn ha hp1
    rw [at_cons] at ha
    rw [sizeAt_of_at hw (length_beBytes _ _) ha.2 hp1 (by omega), be_beBytes hn]
    exact ⟨ha.1, rfl⟩
  cases h with
  | bin8 hn =>
    simp only [List.length_cons, length_beBytes] at hp ⊢
    obtain ⟨h1, h2⟩ := size (.inl rfl) hn hat (by omega)
    obtain ⟨b, hb, h2⟩ := bind_ok h2
    cases h2
    rw [binHeader, byteAt_of_some h1, ok_bind, sz_of_lt (by omega), if_pos ⟨rfl, by omega⟩, hb,
      ok_bind]
  | bin16 hn =>
    simp only [List.length_cons, length_beBytes] at hp ⊢
    obtain ⟨h1, h2⟩ := size (.inr (.inl rfl)) hn hat (by omega)
    rw [binHeader, byteAt_of_some h1, ok_bind, if_neg (by simp), sz_of_lt (by omega),
      if_pos ⟨rfl, by omega⟩]
    rw [show u16 data (p + 1) = .ok n from h2, ok_bind]
  | bin32 hn =>
    simp only [List.length_cons, length_beBytes] at hp ⊢
    obtain ⟨h1, h2⟩ := size (.inr (.inr rfl)) hn hat (by omega)
    rw [binHeader, byteAt_of_some h1, ok_bind, if_neg (by simp), if_neg (by simp),
      sz_of_lt (by omega), if_pos ⟨rfl, by omega⟩]
    rw [show u32 data (p + 1) = .ok n from h2, ok_bind]

/-- A name or extension is read back. -/
lemma pairName_text {ve tag p raw name} (ht : tag ≠ FIELD_AUDIO) (h : Text raw name)
    (hat : At data p raw) (hp : p + raw.length ≤ ve) (hve : ve ≤ data.length) :
    pairName data ve tag p = .ok (some (name, 0xFF, p + raw.length)) := by
  unfold HEADER_LEN at hl
  have hlen : (data.take ve).length = ve := by rw [List.length_take]; omega
  have hpos := (element_of_text h).le_length
  obtain ⟨t, bs, rfl⟩ := (element_of_text h).exists_cons
  rw [pairName, byteAt_of_some (at_cons.mp hat).1, ok_bind, if_neg ht,
    readBinOrStr_of_text (by omega) h (at_take_of hat hp) (by omega), ok_bind]
  simp only
  rw [if_neg (by omega)]

/-- An audio mode is read back. -/
lemma pairName_audio {ve p raw mode} (h : SmallUint raw mode) (hat : At data p raw)
    (hp : p + raw.length ≤ ve) (hve : ve ≤ data.length) :
    pairName data ve FIELD_AUDIO p = .ok (some ([], mode, p + raw.length)) := by
  unfold HEADER_LEN at hl
  cases h with
  | fixint hv =>
    simp only [List.length_cons, List.length_nil] at hp
    rw [pairName, byteAt_of_some (at_cons.mp hat).1, ok_bind, if_pos rfl, if_pos hv,
      sz_of_lt (by omega)]
    rfl
  | uint8 =>
    simp only [List.length_cons, List.length_nil] at hp
    rw [at_cons, at_cons] at hat
    rw [pairName, byteAt_of_some hat.1, ok_bind, if_pos rfl, if_neg (by decide),
      sz_of_lt (by omega), if_pos ⟨rfl, by omega⟩, byteAt_of_some hat.2.1, ok_bind,
      sz_of_lt (by omega)]
    rfl

/-- A pair is read back, given that its first element is. -/
lemma emitPair_at {ve tag p name mode P body raw} (h : PairRaw P body raw) (hat : At data p raw)
    (hp : p + raw.length ≤ ve) (hve : ve ≤ data.length)
    (hname : ∀ {r q}, P r → At data q r → q + r.length ≤ ve →
      pairName data ve tag q = .ok (some (name, mode, q + r.length))) :
    ∃ b, emitPair data ve tag (p + 1) = .ok ([b], p + raw.length) ∧
      b.view data =
        { tag, name, audioMode := mode, size := body.length % 2 ^ 32, bytes := body } := by
  obtain @⟨rawName, hdr, hn, hb⟩ := h
  have hl' := hl
  unfold HEADER_LEN at hl
  have hpos : 1 ≤ hdr.length := by cases hb <;> simp
  rw [at_cons, at_append, at_append] at hat
  simp only [List.length_cons, List.length_append] at hp ⊢
  refine ⟨{ tag, raw := p + 1 + rawName.length + hdr.length, rawLen := body.length,
            filename := name, audioMode := mode }, ?_, ?_⟩
  · rw [emitPair, if_neg (by omega), hname hn hat.2.1 (by omega), ok_bind]
    simp only
    rw [if_neg (by omega), binHeader_at hl' hb hat.2.2.1 (by omega) hve, ok_bind]
    simp only
    rw [sz_of_lt (by omega), sz_of_lt (by omega), if_neg (by omega)]
    congr 2
    omega
  · rw [FieldBlob.view, FieldBlob.bytes, hat.2.2.2.window_eq, Nat.mod_eq_of_lt (by omega)]

/-- The image or audio entry is read back. -/
lemma attachmentValue_pair {vs tag name mode P body raw}
    (ht : tag = FIELD_IMAGE ∨ tag = FIELD_AUDIO) (h : PairRaw P body raw) (hat : At data vs raw)
    (hve : vs + raw.length ≤ data.length)
    (hname : ∀ {r q}, P r → At data q r → q + r.length ≤ vs + raw.length →
    pairName data (vs + raw.length) tag q = .ok (some (name, mode, q + r.length))) : ∃ b,
    attachmentValue data tag vs (vs + raw.length) = .ok [b] ∧ b.view data =
        { tag, name, audioMode := mode, size := body.length % 2 ^ 32, bytes := body } := by
  obtain ⟨b, e, hv⟩ := emitPair_at hl h hat le_rfl hve hname
  refine ⟨b, ?_, hv⟩
  have h92 : data[vs]? = some 0x92 := by
    cases h
    exact (at_cons.mp hat).1
  have hvs := lt_of_some h92
  unfold HEADER_LEN at hl
  rw [attachmentValue, byteAt_of_some h92, ok_bind, if_pos (by decide), valueHeader,
    byteAt_of_some h92, ok_bind, if_pos (by decide), ok_bind]
  simp only
  rw [if_pos ht, sz_of_lt (by omega), e, ok_bind]

/-- The pairs of the file entry are read back. -/
lemma filePairs_at {env : SendEnv} {ve p} {files : List OutgoingAttachment} {raws : List Bytes}
    (h : List.Forall₂ (fun a raw => (a.bytes env).length = a.byteCount ∧
      PairRaw (Text · a.filename) (a.bytes env) raw) files raws)
    (hfiles : ∀ a ∈ files, a.tag = FIELD_FILE_ATTACHMENTS) (hat : At data p raws.flatten)
    (hp : p + raws.flatten.length ≤ ve) (hve : ve ≤ data.length) :
    ∃ bs, filePairs data ve files.length p = .ok bs ∧
      bs.map (FieldBlob.view data) = files.map (OutgoingAttachment.view env) := by
  induction h generalizing p with
  | nil => exact ⟨[], rfl, rfl⟩
  | @cons a raw files raws hr _ ih =>
    obtain ⟨hlen, hr⟩ := hr
    rw [List.flatten_cons, at_append] at hat
    rw [List.flatten_cons, List.length_append] at hp
    have h92 : data[p]? = some 0x92 := by
      cases hr
      exact (at_cons.mp hat.1).1
    have hpos : 1 ≤ raw.length := by cases hr; simp
    have ha : a.tag = FIELD_FILE_ATTACHMENTS := hfiles a List.mem_cons_self
    obtain ⟨b, e, hv⟩ := emitPair_at hl hr hat.1 (by omega : p + raw.length ≤ ve) hve
      fun hr' hat' hq => pairName_text hl
        (by decide : FIELD_FILE_ATTACHMENTS ≠ FIELD_AUDIO) hr' hat' hq hve
    obtain ⟨bs, e', hvs⟩ := ih (fun a h => hfiles a (List.mem_cons_of_mem _ h)) hat.2 (by omega)
    refine ⟨b :: bs, ?_, ?_⟩
    · unfold HEADER_LEN at hl
      rw [List.length_cons, filePairs, if_pos (by omega), pairHeader, byteAt_of_some h92, ok_bind,
        if_pos (by decide), ok_bind]
      simp only
      rw [sz_of_lt (by omega), e, ok_bind]
      simp only
      rw [if_neg (by omega), e', ok_bind]
      rfl
    · rw [List.map_cons, List.map_cons, hv, hvs]
      congr 1
      rw [OutgoingAttachment.view, ha, hlen]
      rfl

/-- The file entry is read back. -/
lemma attachmentValue_files {env vs files raw} (h : FilesRaw env files raw)
    (hfiles : ∀ a ∈ files, a.tag = FIELD_FILE_ATTACHMENTS) (hn : files.length ≤ 0xFFFF)
    (hat : At data vs raw) (hve : vs + raw.length ≤ data.length) :
    ∃ bs, attachmentValue data FIELD_FILE_ATTACHMENTS vs (vs + raw.length) = .ok bs ∧
      bs.map (FieldBlob.view data) = files.map (OutgoingAttachment.view env) := by
  obtain @⟨hdr, raws, hh, hraws⟩ := h
  rw [at_append] at hat
  rw [List.length_append] at hve ⊢
  obtain ⟨bs, e, hv⟩ := filePairs_at hl hraws hfiles hat.2
    (by omega : vs + hdr.length + _ ≤ vs + (hdr.length + raws.flatten.length)) hve
  refine ⟨bs, ?_, hv⟩
  unfold HEADER_LEN at hl
  generalize hcount : files.length = n at *
  cases hh with
  | short h15 =>
    obtain ⟨h1, h2, _⟩ := short_header h15
    rw [at_cons] at hat
    rw [attachmentValue, byteAt_of_some hat.1.1, ok_bind, if_pos (.inl h1), valueHeader,
      byteAt_of_some hat.1.1, ok_bind, if_pos h1, h2, ok_bind]
    simp only [List.length_cons, List.length_nil] at e hve ⊢
    rw [if_neg (by decide), sz_of_lt (by omega), e]
  | arr16 h15 _ =>
    rw [at_cons] at hat
    simp only [List.length_cons, length_beBytes] at e hve ⊢
    have hs := sizeAt_of_at (.inr (.inl rfl)) (length_beBytes 2 n) hat.1.2 (by omega) (by omega)
    rw [be_beBytes (by omega)] at hs
    rw [attachmentValue, byteAt_of_some hat.1.1, ok_bind, if_pos (.inr (.inl rfl)), valueHeader,
      byteAt_of_some hat.1.1, ok_bind, if_neg (by decide), sz_of_lt (by omega),
      if_pos ⟨rfl, by omega⟩, show u16 data (vs + 1) = .ok n from hs, ok_bind, ok_bind]
    simp only
    rw [if_neg (by decide), sz_of_lt (by omega), e]
  | arr32 h16 => omega

/-- A key is read back. -/
lemma fieldKey_at {off raw key} (h : SmallUint raw key) (hat : At data off raw)
    (hle : off + raw.length ≤ data.length) :
    fieldKey data off = .ok (some (key, off + raw.length)) := by
  unfold HEADER_LEN at hl
  cases h with
  | fixint hv =>
    simp only [List.length_cons, List.length_nil] at hle
    rw [fieldKey, byteAt_of_some (at_cons.mp hat).1, ok_bind, if_pos hv, sz_of_lt (by omega)]
    rfl
  | uint8 =>
    simp only [List.length_cons, List.length_nil] at hle
    rw [at_cons, at_cons] at hat
    rw [fieldKey, byteAt_of_some hat.1, ok_bind, if_neg (by decide), sz_of_lt (by omega),
      if_pos ⟨rfl, by omega⟩, byteAt_of_some hat.2.1, ok_bind, sz_of_lt (by omega)]
    rfl

/-- The walk passes an entry, with what its value adds. -/
lemma fieldLoop_entry {fuel key P c seg n off acc} (Q : Fields → Prop) (h : Entry key P c seg)
    (hat : At data off seg) (hle : off + seg.length ≤ data.length) (hfuel : data.length < fuel)
    (habs : c = 0 → Q acc)
    (hval : ∀ {raw vs}, c = 1 → P raw → At data vs raw → vs + raw.length ≤ data.length →
      Element Known raw ∧ ∃ acc', fieldValue data key vs (vs + raw.length) acc = .ok acc' ∧
      Q acc') :
    ∃ acc', Q acc' ∧
      fieldLoop fuel data (c + n) off acc = fieldLoop fuel data n (off + seg.length) acc' := by
  cases h with
  | absent => exact ⟨acc, habs rfl, by rw [Nat.zero_add]; rfl⟩
  | @present rawKey raw hk hr =>
    rw [at_append] at hat
    rw [List.length_append] at hle ⊢
    obtain ⟨hel, acc', e, hq⟩ := hval rfl hr hat.2 (by omega)
    refine ⟨acc', hq, ?_⟩
    have hpos := hk.element.le_length
    have hl' : data.length < 2 ^ 32 := by unfold HEADER_LEN at hl; omega
    rw [Nat.add_comm 1 n, fieldLoop, if_pos (by omega), fieldKey_at hl hk hat.1 (by omega), ok_bind]
    simp only
    rw [skipElement_of_element hl' hel hat.2 (by omega) (by omega), ok_bind]
    simp only [if_true]
    rw [e, ok_bind, Nat.add_assoc]

/-- The walk stops at an entry whose value has a header `skip_element` does not know. -/
lemma fieldLoop_stuck {fuel key v c seg n off acc f} (h : Entry key (· = v) c seg)
    (hv : v = [] ∨ Element (fun _ => True) v) (hc : c = 0 ↔ v = []) (hat : At data off seg)
    (hle : off + seg.length ≤ data.length) (e : fieldLoop fuel data (c + n) off acc = .ok f)
    (hf : v ≠ [] → f ≠ acc) : v = [] ∨ Element Known v := by
  cases h with
  | absent => exact .inl (hc.mp rfl)
  | @present rawKey raw hk hr =>
    subst hr
    have hne : raw ≠ [] := fun h => absurd (hc.mpr h) (by simp)
    rw [at_append] at hat
    rw [List.length_append] at hle
    have hpos := hk.element.le_length
    have hl' : data.length < 2 ^ 32 := by unfold HEADER_LEN at hl; omega
    rw [Nat.add_comm 1 n, fieldLoop, if_pos (by omega), fieldKey_at hl hk hat.1 (by omega),
      ok_bind] at e
    simp only at e
    obtain ⟨⟨ok, ve⟩, hs, e⟩ := bind_ok e
    cases ok with
    | false =>
      cases e
      exact absurd rfl (hf hne)
    | true =>
      exact .inr (skipElement_exact hl' (hv.resolve_left hne) hat.2 (by omega) hs).1

/-- What the fields map has filled in so far. -/
structure FieldsAre (data telemetry commands customMeta : Bytes) (views : List AttachmentView)
    (f : Fields) : Prop where
  telemetry : f.telemetry = telemetry
  commands : f.commands = commands
  customMeta : f.customMeta = customMeta
  views : f.fields.map (FieldBlob.view data) = views

/-- The telemetry value is unwrapped. -/
lemma fieldValue_telemetry {vs raw t acc} (h : Text raw t) (ht : t ≠ []) (hat : At data vs raw)
    (hle : vs + raw.length ≤ data.length) :
    fieldValue data FIELD_TELEMETRY vs (vs + raw.length) acc =
      .ok { acc with telemetry := t } := by
  unfold HEADER_LEN at hl
  have hlen : (data.take (vs + raw.length)).length = vs + raw.length := by
    rw [List.length_take]
    omega
  rw [fieldValue, if_pos rfl, readBinOrStr_of_text (by omega) h (at_take_of hat le_rfl) (by omega),
    ok_bind]
  simp only
  rw [if_pos ht]

/-- A value copied verbatim. -/
lemma copyBytes_at {vs raw} (hat : At data vs raw) (hle : vs + raw.length ≤ data.length) :
    copyBytes data vs (vs + raw.length) = .ok raw := by
  unfold HEADER_LEN at hl
  have hn : sz (vs + raw.length + 2 ^ 32 - vs) = raw.length := by unfold sz; omega
  rw [copyBytes, hn, if_neg (by omega), hat.window_eq]

/-- The attachments that reach the wire: the first image, the first audio clip, and the files as
long as their list has a header `skip_element` knows. -/
def onWire (atts : List OutgoingAttachment) : List OutgoingAttachment :=
  (atts.find? (·.tag = FIELD_IMAGE)).toList ++ (atts.find? (·.tag = FIELD_AUDIO)).toList ++
    (if (atts.filter (·.tag = FIELD_FILE_ATTACHMENTS)).length ≤ 0xFFFF then
      atts.filter (·.tag = FIELD_FILE_ATTACHMENTS) else [])

section Entries
variable {env : SendEnv} {extra : ExtraFields} {atts : List OutgoingAttachment} {fuel : Nat}
  (hfuel : data.length < fuel)
include hfuel

/-- The walk past the telemetry entry. -/
lemma telemetry_at {t c seg n off} (z : c = 0 ↔ t = [])
    (h : Entry FIELD_TELEMETRY (Text · t) c seg) (hat : At data off seg)
    (hle : off + seg.length ≤ data.length) :
    ∃ acc, FieldsAre data t [] [] [] acc ∧
      fieldLoop fuel data (c + n) off {} = fieldLoop fuel data n (off + seg.length) acc := by
  refine fieldLoop_entry hl _ h hat hle hfuel (fun hc => ?_) fun hc hr hat' hle' => ?_
  · rw [z.mp hc]
    exact ⟨rfl, rfl, rfl, rfl⟩
  · have ht : t ≠ [] := fun h => by have := z.mpr h; omega
    exact ⟨element_of_text hr, _, fieldValue_telemetry hl hr ht hat' hle', rfl, rfl, rfl, rfl⟩

/-- The walk past the commands entry. -/
lemma commands_at {t v c seg n off acc} (z : c = 0 ↔ v = []) (hv : v = [] ∨ Element Known v)
    (h : Entry FIELD_COMMANDS (· = v) c seg) (hat : At data off seg)
    (hle : off + seg.length ≤ data.length) (ha : FieldsAre data t [] [] [] acc) :
    ∃ acc', FieldsAre data t v [] [] acc' ∧
      fieldLoop fuel data (c + n) off acc = fieldLoop fuel data n (off + seg.length) acc' := by
  refine fieldLoop_entry hl _ h hat hle hfuel
    (fun hc => z.mp hc ▸ ha) fun {raw vs} hc hr hat' hle' => ?_
  subst hr
  refine ⟨hv.resolve_left fun h => by have := z.mpr h; omega, { acc with commands := raw }, ?_,
    ⟨ha.telemetry, rfl, ha.customMeta, ha.views⟩⟩
  rw [fieldValue, if_neg (by decide), if_pos rfl, copyBytes_at hl hat' hle', ok_bind]

/-- The walk past the custom meta entry. -/
lemma customMeta_at {t v w c seg n off acc} (z : c = 0 ↔ w = []) (hw : w = [] ∨ Element Known w)
    (h : Entry FIELD_CUSTOM_META (· = w) c seg) (hat : At data off seg)
    (hle : off + seg.length ≤ data.length) (ha : FieldsAre data t v [] [] acc) :
    ∃ acc', FieldsAre data t v w [] acc' ∧
      fieldLoop fuel data (c + n) off acc = fieldLoop fuel data n (off + seg.length) acc' := by
  refine fieldLoop_entry hl _ h hat hle hfuel
    (fun hc => z.mp hc ▸ ha) fun {raw vs} hc hr hat' hle' => ?_
  subst hr
  refine ⟨hw.resolve_left fun h => by have := z.mpr h; omega, { acc with customMeta := raw }, ?_,
    ⟨ha.telemetry, ha.commands, rfl, ha.views⟩⟩
  rw [fieldValue, if_neg (by decide), if_neg (by decide), if_pos rfl, copyBytes_at hl hat' hle',
    ok_bind]

/-- The walk past the image or audio entry. -/
lemma first_at {tag : UInt8} {name : OutgoingAttachment → Bytes → Prop}
    {t v w views c seg n off acc} (ht : tag = FIELD_IMAGE ∨ tag = FIELD_AUDIO)
    (hel : ∀ a r, name a r → Element Known r)
    (hname : ∀ {a r q ve}, a.tag = tag → name a r → At data q r → q + r.length ≤ ve →
      ve ≤ data.length →
      pairName data ve tag q =
        .ok (some ((a.view env).name, (a.view env).audioMode, q + r.length)))
    (z : c = 0 ↔ atts.find? (·.tag = tag) = none)
    (h : Entry tag (FirstRaw env tag name atts) c seg) (hat : At data off seg)
    (hle : off + seg.length ≤ data.length) (ha : FieldsAre data t v w views acc) :
    ∃ acc', FieldsAre data t v w
        (views ++ (atts.find? (·.tag = tag)).toList.map (OutgoingAttachment.view env)) acc' ∧
      fieldLoop fuel data (c + n) off acc = fieldLoop fuel data n (off + seg.length) acc' := by
  refine fieldLoop_entry hl _ h hat hle hfuel (fun hc => ?_) fun hc hr hat' hle' => ?_
  · rw [z.mp hc]
    simpa using ha
  · obtain @⟨a, raw, hfind, hlen, hp⟩ := hr
    have hatag : a.tag = tag := by simpa using List.find?_some hfind
    obtain ⟨b, e, hv⟩ := attachmentValue_pair hl ht hp hat' hle' fun h1 h2 h3 =>
      hname hatag h1 h2 h3 hle'
    refine ⟨hp.element (hel a), { acc with fields := acc.fields ++ [b] }, ?_,
      ⟨ha.telemetry, ha.commands, ha.customMeta, ?_⟩⟩
    · have key : tag ≠ FIELD_TELEMETRY ∧ tag ≠ FIELD_COMMANDS ∧ tag ≠ FIELD_CUSTOM_META := by
        rcases ht with rfl | rfl <;> decide
      rw [fieldValue, if_neg key.1, if_neg key.2.1, if_neg key.2.2, if_pos (.inr ht), e, ok_bind]
    · rw [hfind, List.map_append, ha.views, Option.toList_some, List.map_singleton,
        List.map_singleton, hv]
      congr 2
      rw [OutgoingAttachment.view, hatag, hlen]

/-- The walk past the file entry. -/
lemma files_at {t v w views c seg off acc}
    (z : c = 0 ↔ atts.filter (·.tag = FIELD_FILE_ATTACHMENTS) = [])
    (h : Entry FIELD_FILE_ATTACHMENTS
      (FilesRaw env (atts.filter (·.tag = FIELD_FILE_ATTACHMENTS))) c seg)
    (hat : At data off seg) (hle : off + seg.length ≤ data.length)
    (ha : FieldsAre data t v w views acc) :
    ∃ acc', FieldsAre data t v w (views ++
        (if (atts.filter (·.tag = FIELD_FILE_ATTACHMENTS)).length ≤ 0xFFFF then
          atts.filter (·.tag = FIELD_FILE_ATTACHMENTS) else []).map
            (OutgoingAttachment.view env)) acc' ∧
      fieldLoop fuel data c off acc = .ok acc' := by
  generalize hfs : atts.filter (·.tag = FIELD_FILE_ATTACHMENTS) = files at *
  have htag : ∀ a ∈ files, a.tag = FIELD_FILE_ATTACHMENTS := by
    intro a h
    rw [← hfs] at h
    simpa using (List.mem_filter.mp h).2
  by_cases hn : files.length ≤ 0xFFFF
  · rw [if_pos hn]
    obtain ⟨acc', ha', e⟩ := fieldLoop_entry (n := 0) hl
      (FieldsAre data t v w (views ++ files.map (OutgoingAttachment.view env))) h hat hle hfuel
      (fun hc => by rw [z.mp hc]; simpa using ha) fun hc hr hat' hle' => by
        obtain ⟨bs, e, hv⟩ := attachmentValue_files hl hr htag hn hat' hle'
        refine ⟨hr.element hn, { acc with fields := acc.fields ++ bs }, ?_,
          ⟨ha.telemetry, ha.commands, ha.customMeta, ?_⟩⟩
        · rw [fieldValue, if_neg (by decide), if_neg (by decide), if_neg (by decide),
            if_pos (.inl rfl), e, ok_bind]
        · rw [List.map_append, ha.views, hv]
    exact ⟨acc', ha', e⟩
  · rw [if_neg hn, List.map_nil, List.append_nil]
    refine ⟨acc, ha, ?_⟩
    cases h with
    | absent => rfl
    | @present rawKey raw hk hr =>
      obtain @⟨hdr, raws, hh, _⟩ := hr
      generalize files.length = m at *
      cases hh with
      | short h15 => omega
      | arr16 _ h16 => omega
      | arr32 _ =>
        rw [at_append, at_append] at hat
        simp only [List.length_append, List.length_cons] at hle
        have hpos := hk.element.le_length
        have hl' : data.length < 2 ^ 32 := by unfold HEADER_LEN at hl; omega
        rw [fieldLoop, if_pos (by omega), fieldKey_at hl hk hat.1 (by omega), ok_bind]
        simp only
        have hdd := (at_cons.mp hat.2.1).1
        obtain ⟨fuel, rfl⟩ : ∃ k, fuel = k + 1 := ⟨fuel - 1, by omega⟩
        rw [skipElement_unknown hl' (by decide) hdd, ok_bind]
        rfl

end Entries

/-- A short map header is read and its entries are walked. -/
lemma parseFields_map {fuel n off k segs} (hk : k ≤ 6) (hn : 4 ≤ n)
    (hat : At data off ((0x80 ||| UInt8.ofNat k) :: segs)) :
    parseFields fuel data n off = fieldLoop fuel data k (off + 1) {} := by
  obtain ⟨m1, m2, m3, _⟩ := short_map hk
  have h0 := (at_cons.mp hat).1
  have hlt := lt_of_some h0
  unfold HEADER_LEN at hl
  rw [parseFields, if_pos ⟨hn, hlt⟩, mapHeader, byteAt_of_some h0, ok_bind, if_neg m1, if_pos m2,
    m3, sz_of_lt (by omega), ok_bind]

/-- The fields that reach the receiver, when the raw fields are elements `skip_element` knows. -/
lemma parseFields_at {env extra atts fuel n off raw} (h : FieldsRaw env extra atts raw) (hn : 4 ≤ n)
    (hfuel : data.length < fuel) (hat : At data off raw) (hle : off + raw.length ≤ data.length)
    (hc : extra.commands = [] ∨ Element Known extra.commands)
    (hm : extra.customMeta = [] ∨ Element Known extra.customMeta) :
    ∃ f, FieldsAre data extra.telemetry extra.commands extra.customMeta
        ((onWire atts).map (OutgoingAttachment.view env)) f ∧
      parseFields fuel data n off = .ok f := by
  cases h with
  | nil ha he =>
    subst ha he
    rw [at_cons] at hat
    have hlt := lt_of_some hat.1
    refine ⟨{}, ⟨rfl, rfl, rfl, rfl⟩, ?_⟩
    rw [parseFields, if_pos ⟨hn, hlt⟩, mapHeader, byteAt_of_some hat.1]
    rfl
  | @map c1 c2 c3 c4 c5 c6 s1 s2 s3 s4 s5 s6 hsum z1 n1 z2 n2 z3 n3 z4 n4 z5 n5 z6 n6 =>
    have e0 := (parseFields_map hl hsum hn hat : parseFields fuel data n off = _)
    rw [at_cons, at_append, at_append, at_append, at_append, at_append] at hat
    obtain ⟨h0, a1, a2, a3, a4, a5, a6⟩ := hat
    simp only [List.length_cons, List.length_append] at hle
    obtain ⟨f1, r1, e1⟩ := telemetry_at (n := c2 + (c3 + (c4 + (c5 + c6)))) hl hfuel z1 n1 a1
      (by omega)
    obtain ⟨f2, r2, e2⟩ := commands_at (n := c3 + (c4 + (c5 + c6))) hl hfuel z2 hc n2 a2
      (by omega) r1
    obtain ⟨f3, r3, e3⟩ := customMeta_at (n := c4 + (c5 + c6)) hl hfuel z3 hm n3 a3 (by omega) r2
    obtain ⟨f4, r4, e4⟩ := first_at (n := c5 + c6) hl hfuel (.inl rfl)
      (fun a r h => element_of_text h) (fun ht h1 h2 h3 h4 => by
        rw [pairName_text hl (by decide) h1 h2 h3 h4, OutgoingAttachment.view, ht]
        rfl) z4 n4 a4 (by omega) r3
    obtain ⟨f5, r5, e5⟩ := first_at (n := c6) hl hfuel (.inr rfl)
      (fun a r h => h.element) (fun ht h1 h2 h3 h4 => by
        rw [pairName_audio hl h1 h2 h3 h4, OutgoingAttachment.view, ht]
        rfl) z5 n5 a5 (by omega) r4
    obtain ⟨f6, r6, e6⟩ := files_at hl hfuel z6 n6 a6 (by omega) r5
    refine ⟨f6, ?_, ?_⟩
    · rw [List.nil_append] at r6
      rw [onWire, List.map_append, List.map_append]
      exact r6
    · rw [e0, show c1 + c2 + c3 + c4 + c5 + c6 = c1 + (c2 + (c3 + (c4 + (c5 + c6)))) by omega,
        e1, e2, e3, e4, e5, e6]

/-- Commands and meta that reach the receiver are elements `skip_element` knows. -/
lemma known_of_parseFields {env extra atts fuel n off raw f} (h : FieldsRaw env extra atts raw)
    (hn : 4 ≤ n) (hfuel : data.length < fuel) (hat : At data off raw)
    (hle : off + raw.length ≤ data.length)
    (hc : extra.commands = [] ∨ Element (fun _ => True) extra.commands)
    (hm : extra.customMeta = [] ∨ Element (fun _ => True) extra.customMeta)
    (e : parseFields fuel data n off = .ok f) (ec : f.commands = extra.commands)
    (em : f.customMeta = extra.customMeta) :
    (extra.commands = [] ∨ Element Known extra.commands) ∧
      (extra.customMeta = [] ∨ Element Known extra.customMeta) := by
  cases h with
  | nil _ he =>
    subst he
    exact ⟨.inl rfl, .inl rfl⟩
  | @map c1 c2 c3 c4 c5 c6 s1 s2 s3 s4 s5 s6 hsum z1 n1 z2 n2 z3 n3 z4 n4 z5 n5 z6 n6 =>
    rw [parseFields_map hl hsum hn hat,
      show c1 + c2 + c3 + c4 + c5 + c6 = c1 + (c2 + (c3 + (c4 + (c5 + c6)))) by omega] at e
    rw [at_cons, at_append, at_append, at_append] at hat
    obtain ⟨_, a1, a2, a3, _⟩ := hat
    simp only [List.length_cons, List.length_append] at hle
    obtain ⟨f1, r1, e1⟩ := telemetry_at (n := c2 + (c3 + (c4 + (c5 + c6)))) hl hfuel z1 n1 a1
      (by omega)
    rw [e1] at e
    have kc := fieldLoop_stuck hl n2 hc z2 a2 (by omega) e
      fun hne h => hne (by rw [← ec, h, r1.commands])
    obtain ⟨f2, r2, e2⟩ := commands_at (n := c3 + (c4 + (c5 + c6))) hl hfuel z2 kc n2 a2
      (by omega) r1
    rw [e2] at e
    exact ⟨kc, fieldLoop_stuck hl n3 hm z3 a3 (by omega) e
      fun hne h => hne (by rw [← em, h, r2.customMeta])⟩

end Decode

end URSupreme.LXMF
