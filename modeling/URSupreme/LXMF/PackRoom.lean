import URSupreme.LXMF.RoundTrip

/-!
# The room for a message

`mp_cap` is a sum made before anything is packed, with a guess at the bytes of each header. What a
packing call needs at most is stated call by call; together they need less than the sum, so a
message that gets as far as packing is packed.
-/

namespace URSupreme.LXMF
open Lib Lib.Wire MsgPack

/-- A packer that writes when it has room for `n` bytes, and no more than these. -/
def Needs (pack : Nat → Option Bytes) (n : Nat) : Prop :=
  ∀ buflen, n ≤ buflen → ∃ raw, pack buflen = some raw ∧ raw.length ≤ n

lemma needs_guard {k n : Nat} {raw : Bytes} (hk : k ≤ n) (hl : raw.length ≤ n) :
    Needs (fun buflen => if buflen < k then none else some raw) n := fun _ h =>
  ⟨raw, if_neg (by omega), hl⟩

lemma needs_packBinHeader (n : Nat) : Needs (packBinHeader · n) 5 := by
  unfold packBinHeader
  split
  next => exact needs_guard (by decide) (by simp)
  next =>
    split
    next => exact needs_guard (by decide) (by simp)
    next => exact needs_guard le_rfl (by simp)

lemma needs_packBin (data : Bytes) : Needs (packBin · data) (data.length + 5) := by
  intro buflen h
  obtain ⟨hdr, hh, hl⟩ := needs_packBinHeader data.length buflen (by omega)
  refine ⟨hdr ++ data, ?_, by rw [List.length_append]; omega⟩
  change packBinHeader buflen data.length = some hdr at hh
  change packBin buflen data = _
  unfold packBin
  rw [hh]
  exact if_neg (by omega)

lemma needs_packFloat64 (bits : UInt64) : Needs (packFloat64 · bits) 9 :=
  needs_guard le_rfl (by simp)

lemma needs_packUint8 (v : UInt8) : Needs (packUint8 · v) 2 := by
  intro buflen h
  change ∃ raw, packUint8 buflen v = _ ∧ _
  unfold packUint8
  rw [if_neg (by omega)]
  split
  next => exact ⟨_, rfl, by simp⟩
  next => exact ⟨_, if_neg (by omega), by simp⟩

lemma needs_packStr (s : Bytes) : Needs (packStr · s) (s.length + 5) := by
  unfold packStr
  dsimp only
  split
  next => exact needs_guard (by omega) (by simp)
  next =>
    split
    next => exact needs_guard (by omega) (by simp; omega)
    next =>
      split
      next => exact needs_guard (by omega) (by simp; omega)
      next => exact needs_guard (by omega) (by simp; omega)

lemma needs_packArrayHeader (n : Nat) : Needs (packArrayHeader · n) 5 := by
  unfold packArrayHeader
  split
  next => exact needs_guard (by decide) (by simp)
  next =>
    split
    next => exact needs_guard (by decide) (by simp)
    next => exact needs_guard le_rfl (by simp)

lemma needs_packMapHeader (n : Nat) : Needs (packMapHeader · n) 5 := by
  unfold packMapHeader
  split
  next => exact needs_guard (by decide) (by simp)
  next =>
    split
    next => exact needs_guard (by decide) (by simp)
    next => exact needs_guard le_rfl (by simp)

/-- The name of a pair: the audio mode takes less than any name. -/
lemma needs_packName (name : Bytes) (mode : Bool) (a : OutgoingAttachment) :
    Needs (packName · name mode a) (name.length + 5) := by
  unfold packName
  cases mode with
  | true =>
    intro buflen h
    obtain ⟨raw, hr, hl⟩ := needs_packUint8 a.audioMode buflen (by omega)
    exact ⟨raw, hr, by omega⟩
  | false => exact needs_packStr name

/-- A step that appends to the buffer, at most `n` bytes, when there is room for as many. -/
def Appends (cap : Nat) (step : Bytes → Except String Bytes) (n : Nat) : Prop :=
  ∀ mp, mp.length + n ≤ cap → ∃ raw, step mp = .ok (mp ++ raw) ∧ raw.length ≤ n

variable {env : SendEnv} {cap m n : Nat} {msg : String} {f g : Bytes → Except String Bytes}
  {pack : Nat → Option Bytes} {atts : List OutgoingAttachment} {a : OutgoingAttachment}

lemma appends_nothing : Appends cap .ok 0 := fun mp _ =>
  ⟨[], by rw [List.append_nil], le_rfl⟩

lemma Appends.mono (h : Appends cap f m) (hle : m ≤ n) : Appends cap f n := by
  intro mp hmp
  obtain ⟨raw, hr, hl⟩ := h mp (by omega)
  exact ⟨raw, hr, by omega⟩

lemma Appends.comp (h : Appends cap f m) (hg : Appends cap g n) :
    Appends cap (fun mp => f mp >>= g) (m + n) := by
  intro mp hmp
  obtain ⟨r, hr, hl⟩ := h mp (by omega)
  obtain ⟨r', hr', hl'⟩ := hg (mp ++ r) (by rw [List.length_append]; omega)
  refine ⟨r ++ r', ?_, by rw [List.length_append]; omega⟩
  dsimp only
  rw [hr, ok_bind, hr', List.append_assoc]

/-- A packer, and a step behind what it wrote. -/
lemma Needs.step (h : Needs pack m) (hg : Appends cap g n) :
    Appends cap (fun mp => orFail (pack (cap - mp.length)) msg >>= fun raw => g (mp ++ raw))
      (m + n) := by
  intro mp hmp
  obtain ⟨r, hr, hl⟩ := h (cap - mp.length) (by omega)
  obtain ⟨r', hr', hl'⟩ := hg (mp ++ r) (by rw [List.length_append]; omega)
  refine ⟨r ++ r', ?_, by rw [List.length_append]; omega⟩
  dsimp only
  rw [hr, orFail, ok_bind, hr', List.append_assoc]

lemma appends_packTelemetry (telemetry : Bytes) :
    Appends cap (packTelemetry cap · telemetry) (telemetry.length + 7) := by
  unfold packTelemetry
  split
  next => exact appends_nothing.mono (by omega)
  next => exact ((needs_packUint8 _).step ((needs_packBin _).step appends_nothing)).mono (by omega)

lemma appends_packExtra (key : UInt8) (raw : Bytes) (msg : String) :
    Appends cap (packExtra cap · key raw msg) (raw.length + 2) := by
  unfold packExtra
  split
  next => exact appends_nothing.mono (by omega)
  next =>
    intro mp hmp
    obtain ⟨k, hk, hl⟩ := needs_packUint8 key (cap - mp.length) (by omega)
    refine ⟨k ++ raw, ?_, by rw [List.length_append]; omega⟩
    dsimp only at hk ⊢
    unfold packRawField
    rw [hk, Option.bind_eq_bind, Option.bind_some]
    dsimp only
    rw [if_neg (by rw [List.length_append]; omega), List.append_assoc]
    rfl

/-- A staged upload that is complete is read to its end. -/
lemma stagingLoop_complete {id dlen fuel off : Nat} (h : dlen ≤ (env.staging id).length)
    (hf : dlen - off ≤ fuel) : ∃ bs, stagingLoop env id dlen fuel off = some bs := by
  induction fuel generalizing off with
  | zero => exact ⟨[], if_neg (by omega)⟩
  | succ fuel ih =>
    unfold stagingLoop
    split
    next hlt =>
      have hlen : (env.stagingRead id off (min 4096 (dlen - off))).length =
          min 4096 (dlen - off) := by
        rw [SendEnv.stagingRead, window, List.length_take, List.length_drop]
        omega
      have hpos : 0 < (env.stagingRead id off (min 4096 (dlen - off))).length := by omega
      have hnext : dlen - (off +
        (env.stagingRead id off (min 4096 (dlen - off))).length) ≤ fuel := by
        omega
      obtain ⟨bs, hbs⟩ := ih hnext
      dsimp only
      rw [if_neg (List.ne_nil_of_length_pos hpos), hbs]
      exact ⟨_, rfl⟩
    next => exact ⟨[], rfl⟩

/-- The bytes of the attachment are all there. -/
def OutgoingAttachment.Complete (env : SendEnv) (a : OutgoingAttachment) : Prop :=
  a.stagingId ≠ 0 → a.stagingTotalBytes ≤ (env.staging a.stagingId).length

instance : Decidable (a.Complete env) := inferInstanceAs (Decidable (_ → _))

lemma appends_packPair (name : Bytes) (mode : Bool) (msg : String) (ha : a.Complete env) :
    Appends cap (fun mp => orFail (packPair env cap mp name mode a) msg)
      (name.length + a.byteCount + 15) := by
  intro mp hmp
  obtain ⟨r1, h1, l1⟩ := needs_packArrayHeader 2 (cap - mp.length) (by omega)
  obtain ⟨r2, h2, l2⟩ := needs_packName name mode a
    (cap - (mp ++ r1).length) (by rw [List.length_append]; omega)
  obtain ⟨r3, h3, l3⟩ := needs_packBinHeader a.byteCount (cap - (mp ++ r1 ++ r2).length)
    (by simp only [List.length_append]; omega)
  obtain ⟨body, hbody, hl⟩ : ∃ body, (if a.stagingId ≠ 0 then
      (stagingLoop env a.stagingId a.byteCount a.byteCount 0).bind fun bs =>
        some (mp ++ r1 ++ r2 ++ r3 ++ bs)
      else some (mp ++ r1 ++ r2 ++ r3 ++ a.data)) = some (mp ++ r1 ++ r2 ++ r3 ++ body) ∧
      body.length = a.byteCount := by
    have hc : a.byteCount = if a.stagingId ≠ 0 then a.stagingTotalBytes else a.data.length := rfl
    split
    next hs =>
      rw [if_pos hs] at hc
      obtain ⟨bs, hbs⟩ := stagingLoop_complete (hc ▸ ha hs) (Nat.sub_le a.byteCount 0)
      exact ⟨bs, by rw [hbs]; rfl, (stagingLoop_eq hbs (Nat.zero_le _)).2⟩
    next hs =>
      rw [if_neg hs] at hc
      exact ⟨a.data, rfl, hc.symm⟩
  refine ⟨r1 ++ (r2 ++ (r3 ++ body)), ?_, by simp only [List.length_append]; omega⟩
  dsimp only at h1 h2 h3 ⊢
  unfold packPair
  rw [h1, Option.bind_eq_bind, Option.bind_some]
  dsimp only
  rw [h2, Option.bind_some, h3, Option.bind_some,
    if_neg (by simp only [List.length_append]; omega), hbody, List.append_assoc, List.append_assoc,
    List.append_assoc]
  rfl

/-- What `mp_cap` counts for an attachment. -/
def OutgoingAttachment.room (a : OutgoingAttachment) : Nat :=
  a.byteCount + (a.filename.length + a.ext.length) + 16

/-- What `mp_cap` counts for the first attachment with a tag. -/
def firstRoom (tag : UInt8) (atts : List OutgoingAttachment) : Nat :=
  ((atts.find? (·.tag = tag)).map (·.room)).getD 0

lemma appends_packImage (ha : ∀ a ∈ atts, a.Complete env) :
    Appends cap (packImage env cap · atts) (firstRoom FIELD_IMAGE atts + 1) := by
  unfold packImage firstRoom
  split
  next => exact appends_nothing.mono (Nat.zero_le _)
  next a hf =>
    rw [hf]
    refine ((needs_packUint8 _).step
      (appends_packPair _ _ _ (ha a (List.mem_of_find?_eq_some hf)))).mono ?_
    simp only [OutgoingAttachment.room, Option.map_some, Option.getD_some]
    omega

lemma appends_packAudio (ha : ∀ a ∈ atts, a.Complete env) :
    Appends cap (packAudio env cap · atts) (firstRoom FIELD_AUDIO atts + 1) := by
  unfold packAudio firstRoom
  split
  next => exact appends_nothing.mono (Nat.zero_le _)
  next a hf =>
    rw [hf]
    refine ((needs_packUint8 _).step
      (appends_packPair _ _ _ (ha a (List.mem_of_find?_eq_some hf)))).mono ?_
    simp only [OutgoingAttachment.room, Option.map_some, Option.getD_some, List.length_nil]
    omega

lemma appends_packFilePairs (files : List OutgoingAttachment) (ha : ∀ a ∈ files, a.Complete env) :
    Appends cap (packFilePairs env cap · files) (files.map (·.room)).sum := by
  induction files with
  | nil => exact appends_nothing
  | cons a files ih =>
    have hpair : Appends cap _ _ := appends_packPair a.filename false
      "Internal error packing file attachment." (ha a List.mem_cons_self)
    have hrest := ih fun b hb => ha b (List.mem_cons_of_mem _ hb)
    unfold packFilePairs
    refine (hpair.comp hrest).mono ?_
    rw [List.map_cons, List.sum_cons, OutgoingAttachment.room]
    omega

lemma appends_packFiles (ha : ∀ a ∈ atts, a.Complete env) :
    Appends cap (packFiles env cap · atts)
      (((atts.filter (·.tag = FIELD_FILE_ATTACHMENTS)).map (·.room)).sum + 7) := by
  have hpairs : Appends cap _ _ := appends_packFilePairs
    (atts.filter (·.tag = FIELD_FILE_ATTACHMENTS)) fun a h => ha a (List.mem_filter.mp h).1
  unfold packFiles
  dsimp only
  split
  next => exact appends_nothing.mono (Nat.zero_le _)
  next => exact ((needs_packUint8 _).step ((needs_packArrayHeader _).step hpairs)).mono (by omega)

/-- The room of an attachment, for the entry it can be in. -/
def OutgoingAttachment.share (tag : UInt8) (a : OutgoingAttachment) : Nat :=
  if a.tag = tag then a.room else 0

lemma firstRoom_cons (tag : UInt8) (atts : List OutgoingAttachment) :
    firstRoom tag (a :: atts) ≤ a.share tag + firstRoom tag atts := by
  unfold firstRoom OutgoingAttachment.share
  by_cases h : a.tag = tag
  · rw [List.find?_cons_of_pos (by exact decide_eq_true h), if_pos h]
    exact Nat.le_add_right _ _
  · rw [List.find?_cons_of_neg (by rwa [decide_eq_true_eq]), if_neg h, Nat.zero_add]

lemma filterRoom_cons {tag : UInt8} : (((a :: atts).filter (·.tag = tag)).map (·.room)).sum =
    a.share tag + ((atts.filter (·.tag = tag)).map (·.room)).sum := by
  unfold OutgoingAttachment.share
  by_cases h : a.tag = tag
  · rw [List.filter_cons_of_pos (by exact decide_eq_true h), if_pos h, List.map_cons, List.sum_cons]
  · rw [List.filter_cons_of_neg (by rwa [decide_eq_true_eq]), if_neg h, Nat.zero_add]

lemma share_le : a.share FIELD_IMAGE + a.share FIELD_AUDIO + a.share FIELD_FILE_ATTACHMENTS ≤
    a.room := by
  unfold OutgoingAttachment.share
  by_cases h : a.tag = FIELD_IMAGE
  · rw [h, if_pos rfl, if_neg (by decide), if_neg (by decide)]
    exact le_rfl
  · by_cases h' : a.tag = FIELD_AUDIO
    · rw [h', if_neg (by decide), if_pos rfl, if_neg (by decide), Nat.zero_add]
      exact le_rfl
    · rw [if_neg h, if_neg h', Nat.zero_add]
      split
      next => exact le_rfl
      next => exact Nat.zero_le _

/-- No attachment is in two entries. -/
lemma room_entries (atts : List OutgoingAttachment) :
    firstRoom FIELD_IMAGE atts + firstRoom FIELD_AUDIO atts +
    ((atts.filter (·.tag = FIELD_FILE_ATTACHMENTS)).map (·.room)).sum ≤
    (atts.map (·.room)).sum := by
  induction atts with
  | nil => exact le_rfl
  | cons a atts ih =>
    have himage := firstRoom_cons (a := a) FIELD_IMAGE atts
    have haudio := firstRoom_cons (a := a) FIELD_AUDIO atts
    have hshare := share_le (a := a)
    rw [filterRoom_cons, List.map_cons, List.sum_cons]
    omega

/-- The fields of a message. -/
lemma appends_packFields (extra : ExtraFields) (ha : ∀ a ∈ atts, a.Complete env) :
    Appends cap (packFields env cap · extra atts)
      (extra.telemetry.length + extra.commands.length + extra.customMeta.length +
        (atts.map (·.room)).sum + 25) := by
  have hroom := room_entries atts
  unfold packFields
  split
  next =>
    intro mp hmp
    exact ⟨[0xC0], rfl, by simp⟩
  next =>
    have hentries : Appends cap _ _ := (appends_packTelemetry extra.telemetry).comp
      ((appends_packExtra FIELD_COMMANDS extra.commands "Internal error packing commands.").comp
      ((appends_packExtra FIELD_CUSTOM_META extra.customMeta
        "Internal error packing custom meta.").comp
      ((appends_packImage ha).comp ((appends_packAudio ha).comp (appends_packFiles ha)))))
    exact ((needs_packMapHeader (fieldCount extra atts)).step hentries).mono (by omega)

lemma mpCap_le (title content : Bytes) (atts : List OutgoingAttachment)
    (extra : Option ExtraFields) :
    96 + title.length + content.length + (atts.map (·.room)).sum +
      ((extra.getD {}).telemetry.length + (extra.getD {}).commands.length +
        (extra.getD {}).customMeta.length) ≤ mpCap title content extra atts := by
  have hsum : (atts.map (·.room)).sum = (atts.map (·.byteCount)).sum +
      (atts.map fun a => a.filename.length + a.ext.length).sum + 16 * atts.length := by
    induction atts with
    | nil => rfl
    | cons a atts ih =>
      simp only [List.map_cons, List.sum_cons, List.length_cons, OutgoingAttachment.room] at ih ⊢
      omega
  unfold mpCap
  rw [hsum]
  cases extra with
  | none =>
    change _ + 0 ≤ _ + 0
    omega
  | some e =>
    simp only [Option.getD_some]
    split
    next h =>
      rw [h, List.length_nil]
      omega
    next => omega

def LXMF_MAX_ATTACHMENTS : Nat := 10

/-- The most bytes the upload handler stages for one attachment. -/
def PROTOCOL_CEILING : Nat := 256 * 1024 * 1024

/-- What `prepare_message` lets through to the packing. The sum is one that a `size_t` holds, and
staged uploads are complete, as the callers check. -/
structure Accepted (env : SendEnv) (destHash title content : Bytes)
    (atts : List OutgoingAttachment) (extra : Option ExtraFields) : Prop where
  up : env.initialized = true
  address : destHash.length = HASH_LEN
  identity : env.remoteIdentity = true
  path : env.hasPath = true
  memory : mpCap title content extra atts ≤ DRAM_BUF_THRESHOLD ∨
    env.malloc (mpCap title content extra atts) = true
  size : mpCap title content extra atts < 2 ^ 32
  staged : ∀ a ∈ atts, a.Complete env

/-- A message that is let through to the packing is packed into the buffer there is, with one entry
in the map for each that its header counts. Its length alone can still have it refused. -/
theorem accepted_packs {env : SendEnv} {destHash title content : Bytes}
    {atts : List OutgoingAttachment} {extra : Option ExtraFields}
    (h : Accepted env destHash title content atts extra) :
    ∃ mp rawTitle rawContent rawFields,
      mp = 0x94 :: ((0xCB :: beBytes 8 env.timestamp.toNat) ++
        (rawTitle ++ (rawContent ++ rawFields))) ∧
      Text rawTitle title ∧ Text rawContent content ∧
      FieldsRaw env (extra.getD {}) atts rawFields ∧
      mp.length ≤ mpCap title content extra atts ∧
      if HASH_LEN + SIG_LEN + mp.length > 1 * 1024 * 1024 then
        prepareMessage env destHash title content atts extra =
          .error "Message body is too large (> 1 MiB)."
      else ∃ pm rec, prepareMessage env destHash title content atts extra = .ok (pm, rec) ∧
        pm.payload = mp := by
  have hcap := mpCap_le title content atts extra
  generalize hc : mpCap title content extra atts = cap at hcap
  obtain ⟨rts, hts, lts⟩ := needs_packFloat64 env.timestamp (cap - ([0x94] : Bytes).length)
    (by rw [List.length_singleton]; omega)
  obtain ⟨rt, ht, lt⟩ := needs_packBin title (cap - ([0x94] ++ rts).length)
    (by simp only [List.length_append, List.length_singleton]; omega)
  obtain ⟨rc, hct, lc⟩ := needs_packBin content (cap - ([0x94] ++ rts ++ rt).length)
    (by simp only [List.length_append, List.length_singleton]; omega)
  have hfields : Appends cap _ _ := appends_packFields (extra.getD {}) h.staged
  obtain ⟨rf, hf, lf⟩ := hfields
    ([0x94] ++ rts ++ rt ++ rc)
    (by simp only [List.length_append, List.length_singleton]; omega)
  dsimp only at hts ht hct hf
  have hrun : ∃ r : PreparedMessage × OutRecord,
      r.1.payload = [0x94] ++ rts ++ rt ++ rc ++ rf ∧
      prepareMessage env destHash title content atts extra =
        if HASH_LEN + SIG_LEN + ([0x94] ++ rts ++ rt ++ rc ++ rf).length > 1 * 1024 * 1024 then
          .error "Message body is too large (> 1 MiB)."
        else .ok r := by
    unfold prepareMessage
    rw [if_neg (by rw [h.up]; decide), if_neg (not_not.mpr h.address),
      if_neg (by rw [h.identity, h.path]; decide)]
    dsimp only
    rw [hc, if_neg ?_, hts]
    · simp only [orFail, ok_bind]
      rw [ht]
      simp only [ok_bind]
      rw [hct]
      simp only [ok_bind]
      rw [hf, ok_bind]
      exact ⟨_, rfl, rfl⟩
    · rintro ⟨h1, h2⟩
      rcases h.memory with h3 | h3
      · omega
      · rw [hc, h2] at h3
        cases h3
  obtain ⟨r, hr, hrun⟩ := hrun
  have hsize : cap < 2 ^ 32 := hc ▸ h.size
  have hlen : ([0x94] ++ rts ++ rt ++ rc ++ rf).length ≤ cap := by
    simp only [List.length_append, List.length_singleton]
    omega
  obtain ⟨rf', he, hraw⟩ := packFields_eq hf
  obtain rfl := List.append_cancel_left he
  have hstamp : rts = 0xCB :: beBytes 8 env.timestamp.toNat := by
    unfold packFloat64 at hts
    split at hts
    next => cases hts
    next => exact (Option.some.inj hts).symm
  refine ⟨[0x94] ++ rts ++ rt ++ rc ++ rf, rt, rc, rf, ?_, text_of_packBin (by omega) ht,
    text_of_packBin (by omega) hct, hraw (by omega), hlen, ?_⟩
  · rw [hstamp]
    simp only [List.append_assoc, List.cons_append, List.nil_append]
  · rw [hrun]
    split
    next => rfl
    next => exact ⟨r.1, r.2, rfl, hr⟩

/-- A picture, a clip that was uploaded and a file. -/
def threeParts : List OutgoingAttachment :=
  [dot 1, { tag := FIELD_AUDIO, stagingId := 3, stagingTotalBytes := 2 },
    { tag := FIELD_FILE_ATTACHMENTS, data := [9], filename := [0x61] }]

/-- A message with all six entries is packed. -/
theorem accepted_packs_threeParts :
    let env := { noteEnv with staging := fun _ => [7, 8] }
    let extra : ExtraFields := { telemetry := [0x80], commands := [0x90], customMeta := [0x80] }
    ∃ pm rec,
      prepareMessage env (List.replicate 16 0x11) [0x41] [0x42] threeParts (some extra) =
        .ok (pm, rec) ∧
      pm.payload.length ≤ mpCap [0x41] [0x42] (some extra) threeParts := by
  intro env extra
  have h : Accepted env (List.replicate 16 0x11) [0x41] [0x42] threeParts (some extra) :=
    ⟨rfl, rfl, rfl, rfl, .inl (by decide), by decide, by decide⟩
  obtain ⟨mp, _, _, _, _, _, _, _, hle, h⟩ := accepted_packs h
  have hcap : mpCap [0x41] [0x42] (some extra) threeParts ≤ 1024 := by decide
  rw [if_neg (by unfold HASH_LEN SIG_LEN; omega)] at h
  obtain ⟨pm, rec, h, rfl⟩ := h
  exact ⟨pm, rec, h, hle⟩

/-- What the web handler lets through keeps the sum in a `size_t`. -/
lemma mpCap_lt {title content : Bytes} {extra : Option ExtraFields}
    (hn : atts.length ≤ LXMF_MAX_ATTACHMENTS) (hb : ∀ a ∈ atts, a.byteCount ≤ PROTOCOL_CEILING)
    (hm : title.length + content.length +
      (atts.map fun a => a.filename.length + a.ext.length).sum +
      ((extra.getD {}).telemetry.length + (extra.getD {}).commands.length +
        (extra.getD {}).customMeta.length) ≤ 2 ^ 30) :
    mpCap title content extra atts < 2 ^ 32 := by
  have hsum : (atts.map (·.byteCount)).sum ≤ atts.length * PROTOCOL_CEILING := by
    have h := List.sum_le_card_nsmul (atts.map (·.byteCount)) PROTOCOL_CEILING fun x hx => by
      obtain ⟨a, ha, rfl⟩ := List.mem_map.mp hx
      exact hb a ha
    rwa [List.length_map, smul_eq_mul] at h
  have hle := hsum.trans (Nat.mul_le_mul_right _ hn)
  unfold LXMF_MAX_ATTACHMENTS at hn hle
  unfold PROTOCOL_CEILING at hle
  unfold mpCap
  cases extra with
  | none => dsimp only [Option.getD_none] at hm ⊢; omega
  | some e =>
    dsimp only [Option.getD_some] at hm ⊢
    split
    next => omega
    next => omega


end URSupreme.LXMF
