import URSupreme.LXMF.TelemetryShare
import URSupreme.Telemetry.TelemeterRoundTrip

/-!
# The metadata of telemetry messages

`pack_meta` of `LXMF/TelemetryShare.h`, and what `meta_marks_message`, `on_live_offer` and
`on_commands` make of the bytes it and `pack_telemetry_request` write: the marker, the offer and the
request come back, whichever other keys the map has and in whichever order they stand.
-/

namespace URSupreme.Share
open Lib Lib.Wire MsgPack LXMF
open Telemetry (urtnLive urtnMsg Lies Emits emit readUint marksLoop offerLoop)
open Gateway (IdentityId)

/-- The room of `pack_meta`. -/
def META_BUF : Nat := 48

/-- `pack_meta`. -/
def packMeta (forS everyS : UInt32) (markMessage : Bool) : Bytes :=
  let live := decide (everyS > 0 ∨ forS > 0)
  let entries := (if live then 1 else 0) + (if markMessage then 1 else 0)
  if entries = 0 then []
  else
    let packed : Option Bytes := do
      let buf ← emit META_BUF (packMapHeader · entries) []
      let buf ← if live then do
          let buf ← emit META_BUF (packStr · urtnLive) buf
          let buf ← emit META_BUF (packArrayHeader · 2) buf
          let buf ← emit META_BUF (packInt · (Int64.ofNat forS.toNat)) buf
          emit META_BUF (packInt · (Int64.ofNat everyS.toNat)) buf
        else some buf
      if markMessage then do
        let buf ← emit META_BUF (packStr · urtnMsg) buf
        if buf.length ≥ META_BUF then none else some (buf ++ [0x01])
      else some buf
    packed.getD []

/-! ## The numbers of an offer -/

/-- The shortest form of an unsigned number. -/
def uintBytes (n : Nat) : Bytes :=
  if n ≤ 0x7F then [UInt8.ofNat n]
  else if n ≤ 0xFF then 0xCC :: beBytes 1 n
  else if n ≤ 0xFFFF then 0xCD :: beBytes 2 n
  else 0xCE :: beBytes 4 n

section numbers
variable {data : Bytes} {off n room cap : Nat}

lemma length_uintBytes : (uintBytes n).length ≤ 5 := by
  unfold uintBytes
  split_ifs
  all_goals simp only [List.length_cons, List.length_nil, length_beBytes]; omega

/-- `pack_int` writes the shortest form. -/
lemma packInt_uint (hn : n < 2 ^ 32) (hroom : 5 ≤ room) :
    packInt room (Int64.ofNat n) = some (uintBytes n) := by
  have hint : (Int64.ofNat n).toInt = n := Int64.toInt_ofNat_of_lt (by omega)
  have hbits : (Int64.ofNat n).toUInt64.toNat = n := by
    have h := Telemetry.toNat_bits (Int64.ofNat n)
    rw [hint] at h
    omega
  have le : ∀ {v : Int64} {k : Nat}, v.toInt = k → (Int64.ofNat n ≤ v ↔ n ≤ k) := by
    intro v k hv
    rw [Int64.le_iff_toInt_le, hint, hv, Int.ofNat_le]
  have h0 : Int64.ofNat n ≥ 0 := by
    rw [ge_iff_le, Int64.le_iff_toInt_le, hint]
    exact Int.natCast_nonneg n
  unfold packInt uintBytes
  dsimp only
  rw [hbits, if_pos h0]
  simp only [le (v := 0x7F) (k := 0x7F) rfl, le (v := 0xFF) (k := 0xFF) rfl,
    le (v := 0xFFFF) (k := 0xFFFF) rfl, le (v := 0xFFFFFFFF) (k := 0xFFFFFFFF) rfl]
  rw [if_pos (show n ≤ 0xFFFFFFFF by omega), if_neg (show ¬ room < 1 by omega),
    if_neg (show ¬ room < 2 by omega), if_neg (show ¬ room < 3 by omega),
    if_neg (show ¬ room < 5 by omega)]
  split_ifs
  all_goals rfl

lemma element_uintBytes (hn : n < 2 ^ 32) : Element Known (uintBytes n) :=
  element_of_packInt (packInt_uint hn (le_refl 5))

/-- `read_uint` gives the number back. -/
lemma readUint_uintBytes (hn : n < 2 ^ 32) (h : Lies data off (uintBytes n)) :
    readUint data off = .ok (some (n, off + (uintBytes n).length)) := by
  have wide : ∀ {t : UInt8} {w : Nat}, n < 256 ^ w → Lies data off (t :: beBytes w n) →
      ¬ sz (off + 1 + w) > data.length ∧ sz (off + 1 + w) = off + (1 + w) ∧
        Telemetry.beAt data w (off + 1) 0 = .ok n := by
    intro t w hw h
    have hle := h.le
    have hsz : sz (off + (1 + w)) = off + (1 + w) := h.sz (by
      rw [List.length_cons, length_beBytes]
      omega)
    rw [List.length_cons, length_beBytes] at hle
    rw [Nat.add_assoc, hsz]
    refine ⟨by omega, rfl, ?_⟩
    have hbe := Telemetry.beAt_of_lies (v := 0) h.tail
    rw [length_beBytes, zero_mul, zero_add, be_beBytes hw] at hbe
    exact hbe
  unfold uintBytes at h ⊢
  split_ifs at h ⊢ with h7 h8 h16
  all_goals unfold readUint
  · have ht : (UInt8.ofNat n).toNat = n := by
      rw [UInt8.toNat_ofNat']
      omega
    have hsz : sz (off + 1) = off + 1 := h.sz (Nat.le_succ 1)
    have hv : UInt8.ofNat n ≤ 0x7F := by
      rw [UInt8.le_iff_toNat_le, ht]
      exact h7
    rw [if_neg (not_le.mpr h.lt), byteAt_of_some h.byte, ok_bind]
    dsimp only
    rw [if_pos hv, ht, hsz]
    rfl
  · obtain ⟨hle, hsz, hbe⟩ := wide (by omega) h
    rw [if_neg (not_le.mpr h.lt), byteAt_of_some h.byte, ok_bind]
    dsimp only
    rw [if_neg (by decide), if_pos rfl, if_neg hle, hbe, ok_bind, hsz]
    rfl
  · obtain ⟨hle, hsz, hbe⟩ := wide (by omega) h
    rw [if_neg (not_le.mpr h.lt), byteAt_of_some h.byte, ok_bind]
    dsimp only
    rw [if_neg (by decide), if_neg (by decide), if_pos rfl, if_neg hle, hbe, ok_bind, hsz]
    rfl
  · obtain ⟨hle, hsz, hbe⟩ := wide (by omega) h
    rw [if_neg (not_le.mpr h.lt), byteAt_of_some h.byte, ok_bind]
    dsimp only
    rw [if_neg (by decide), if_neg (by decide), if_neg (by decide), if_pos rfl, if_neg hle, hbe,
      ok_bind, hsz]
    rfl

end numbers

/-! ## Maps with text keys -/

/-- An entry of the map: the name of its key, the packed key, and the packed value. -/
structure MetaEntry where
  name : Bytes
  key : Bytes
  value : Bytes

def MetaEntry.bytes (e : MetaEntry) : Bytes := e.key ++ e.value

/-- The key is the packed name, and the value an element that can be skipped. -/
structure MetaEntry.WellFormed (e : MetaEntry) : Prop where
  text : Text e.key e.name
  named : e.name ≠ []
  element : Element Known e.value

/-- A map of the entries. -/
def metaMap (es : List MetaEntry) : Bytes :=
  (packMapHeader 5 es.length).getD [] ++ es.flatMap MetaEntry.bytes

section walks
variable {data : Bytes} {off fuel n : Nat} {e : MetaEntry} {es : List MetaEntry}

lemma text_length_pos {raw content : Bytes} (h : Text raw content) : 0 < raw.length := by
  cases h with
  | short => exact Nat.succ_pos _
  | sized => exact Nat.succ_pos _

lemma MetaEntry.WellFormed.reads (he : e.WellFormed) (h : Lies data off e.bytes) :
    off < data.length ∧ readBinOrStr data off = .ok (e.name, off + e.key.length) := by
  have hsmall := h.small
  have hle := h.left.le
  have hpos := text_length_pos he.text
  exact ⟨by omega, readBinOrStr_of_text (by omega) he.text h.left.at_ (by omega)⟩

lemma MetaEntry.WellFormed.skips (he : e.WellFormed) (h : Lies data off e.bytes)
    (hf : data.length < fuel) :
    skipElement fuel data (off + e.key.length) = .ok (true, off + e.bytes.length) := by
  have hsmall := h.small
  have hle := h.right.le
  rw [MetaEntry.bytes, List.length_append, ← Nat.add_assoc]
  exact skipElement_of_element (by omega) he.element h.right.at_ (by omega) (by omega)

/-- `meta_marks_message` finds the marker wherever it stands. -/
lemma marksLoop_entries (hes : ∀ e ∈ es, e.WellFormed)
    (h : Lies data off (es.flatMap MetaEntry.bytes)) (hf : data.length < fuel) :
    marksLoop fuel data es.length off = .ok (es.any fun e => e.name = urtnMsg) := by
  induction es generalizing off with
  | nil => rfl
  | cons e es ih =>
    obtain ⟨he, hes⟩ := List.forall_mem_cons.mp hes
    rw [List.flatMap_cons] at h
    obtain ⟨hlt, hread⟩ := he.reads h.left
    rw [List.length_cons, marksLoop, if_pos hlt, hread, ok_bind, List.any_cons]
    dsimp only
    rw [if_neg he.named]
    by_cases hn : e.name = urtnMsg
    · rw [if_pos hn, decide_eq_true hn, Bool.true_or]
    · rw [if_neg hn, he.skips h.left hf, ok_bind, decide_eq_false hn, Bool.false_or]
      exact ih hes h.right

/-- `on_live_offer` reads the first offer, wherever it stands. -/
lemma offerLoop_entries {offer : Nat × Nat} (hes : ∀ e ∈ es, e.WellFormed)
    (hoffer : ∀ e ∈ es, e.name = urtnLive → ∀ {off}, Lies data off e.value →
      Telemetry.liveOffer data off = .ok (some offer))
    (h : Lies data off (es.flatMap MetaEntry.bytes)) (hf : data.length < fuel) :
    offerLoop fuel data es.length off =
      .ok (if es.any fun e => e.name = urtnLive then some offer else none) := by
  induction es generalizing off with
  | nil => rfl
  | cons e es ih =>
    obtain ⟨he, hes⟩ := List.forall_mem_cons.mp hes
    obtain ⟨hoff, hoffer⟩ := List.forall_mem_cons.mp hoffer
    rw [List.flatMap_cons] at h
    obtain ⟨hlt, hread⟩ := he.reads h.left
    rw [List.length_cons, offerLoop, if_pos hlt, hread, ok_bind, List.any_cons]
    dsimp only
    rw [if_neg he.named]
    by_cases hn : e.name = urtnLive
    · rw [if_neg (not_not.mpr hn), decide_eq_true hn, Bool.true_or, if_pos rfl]
      exact hoff hn h.left.right
    · rw [if_pos hn, he.skips h.left hf, ok_bind, decide_eq_false hn, Bool.false_or]
      exact ih hes hoffer h.right

/-- All three walks start behind the header of the map. -/
lemma mapHeader_metaMap (hn : es.length < 2 ^ 16) (hsmall : (metaMap es).length < 2 ^ 31) :
    ∃ off, Telemetry.mapHeader (metaMap es) = .ok (some (es.length, off)) ∧
      Lies (metaMap es) off (es.flatMap MetaEntry.bytes) := by
  have short : ∀ n ≤ 15, (0x80 ||| UInt8.ofNat n) &&& 0xF0 = 0x80 ∧
      ((0x80 ||| UInt8.ofNat n) &&& 0x0F).toNat = n := by decide +kernel
  have hl : Lies (metaMap es) 0 (metaMap es) := ⟨at_self, by omega, hsmall⟩
  have hne : (metaMap es).length ≠ 0 := by
    rw [metaMap, packMapHeader]
    split_ifs
    all_goals simp only [Option.getD_some, List.length_append, List.length_cons]; omega
  unfold Telemetry.mapHeader
  rw [if_neg hne]
  by_cases h15 : es.length ≤ 15
  · have hm : metaMap es = [0x80 ||| UInt8.ofNat es.length] ++ es.flatMap MetaEntry.bytes := by
      rw [metaMap, packMapHeader, if_pos h15, if_neg (by decide), Option.getD_some]
    obtain ⟨hmask, hcount⟩ := short _ h15
    generalize metaMap es = data at hm hl hne ⊢
    subst hm
    refine ⟨1, ?_, hl.right⟩
    rw [byteAt_of_some hl.byte, ok_bind, if_pos hmask, hcount]
  · have hm : metaMap es = (0xDE :: beBytes 2 es.length) ++ es.flatMap MetaEntry.bytes := by
      rw [metaMap, packMapHeader, if_neg h15, if_pos (by omega), if_neg (by decide),
        Option.getD_some]
    generalize metaMap es = data at hm hl hne hsmall ⊢
    subst hm
    have hle := hl.left.le
    have hu : u16 ((0xDE :: beBytes 2 es.length) ++ es.flatMap MetaEntry.bytes) 1 =
        .ok es.length := by
      have hsize := sizeAt_of_at (.inr (.inl rfl)) (length_beBytes 2 es.length)
        hl.left.tail.at_ (by omega) (by omega)
      rwa [be_beBytes hn] at hsize
    have hlong : sz (0 + 2) <
        ((0xDE :: beBytes 2 es.length) ++ es.flatMap MetaEntry.bytes).length := by
      rw [List.length_append, List.length_cons, length_beBytes]
      exact Nat.lt_of_lt_of_le (by decide) (Nat.le_add_right _ _)
    refine ⟨3, ?_, hl.right⟩
    rw [byteAt_of_some hl.byte, ok_bind, if_neg (by decide), if_pos ⟨rfl, hlong⟩, hu, ok_bind]

end walks

/-! ## What is packed -/

/-- The entry of an offer. -/
def liveEntry (forS everyS : UInt32) : MetaEntry where
  name := urtnLive
  key := 0xA9 :: urtnLive
  value := [0x92] ++ (uintBytes forS.toNat ++ uintBytes everyS.toNat)

/-- The entry of the marker. -/
def markEntry : MetaEntry where
  name := urtnMsg
  key := 0xA8 :: urtnMsg
  value := [0x01]

/-- The entries of `pack_meta`. -/
def metaEntries (forS everyS : UInt32) (markMessage : Bool) : List MetaEntry :=
  (if everyS > 0 ∨ forS > 0 then [liveEntry forS everyS] else []) ++
    if markMessage then [markEntry] else []

section packing
variable {data : Bytes} {off cap n : Nat} {forS everyS : UInt32} {markMessage : Bool}
  {e : MetaEntry}

lemma liveEntry_wellFormed : (liveEntry forS everyS).WellFormed where
  text := .short (t := 0xA9) (by decide) (by decide) rfl
  named := show urtnLive ≠ [] by decide
  element := by
    have hin := (element_uintBytes forS.toNat_lt).append (element_uintBytes everyS.toNat_lt)
    have h := Elements.items (K := Known) (t := 0x92) (by decide) rfl hin .nil
    rwa [List.append_nil] at h

lemma markEntry_wellFormed : markEntry.WellFormed where
  text := .short (by decide) (by decide) rfl
  named := by decide
  element := element_of_fixed rfl rfl

lemma wellFormed_of_mem (he : e ∈ metaEntries forS everyS markMessage) : e.WellFormed := by
  unfold metaEntries at he
  rcases List.mem_append.mp he with he | he
  · split at he
    · rw [List.mem_singleton.mp he]
      exact liveEntry_wellFormed
    · cases he
  · split at he
    · rw [List.mem_singleton.mp he]
      exact markEntry_wellFormed
    · cases he

/-- The offer that is read back. -/
lemma liveOffer_value (h : Lies data off (liveEntry forS everyS).value) :
    Telemetry.liveOffer data off = .ok (some (forS.toNat, everyS.toNat)) := by
  have hnum : Lies data (off + 1) (uintBytes forS.toNat ++ uintBytes everyS.toNat) := h.right
  have hsz : sz (off + 1) = off + 1 := h.sz (Nat.succ_le_succ (Nat.zero_le _))
  unfold Telemetry.liveOffer
  rw [if_neg (not_le.mpr h.lt), byteAt_of_some h.byte, ok_bind, if_neg (by decide), hsz,
    readUint_uintBytes forS.toNat_lt hnum.left, ok_bind]
  dsimp only
  rw [readUint_uintBytes everyS.toNat_lt hnum.right, ok_bind]

lemma emits_str {t : Bytes} (hs : t.length ≤ 31) :
    Emits cap (1 + t.length) (emit cap (packStr · t)) ((0xA0 ||| UInt8.ofNat t.length) :: t) :=
  Telemetry.emits_of (by rw [List.length_cons]; omega) fun room h => by
    unfold packStr
    rw [if_pos hs, if_neg (by omega)]

lemma emits_uint (hn : n < 2 ^ 32) :
    Emits cap 5 (emit cap (packInt · (Int64.ofNat n))) (uintBytes n) :=
  Telemetry.emits_of length_uintBytes fun _ h => packInt_uint hn h

lemma emits_map (hn : n ≤ 15) :
    Emits cap 1 (emit cap (packMapHeader · n)) [0x80 ||| UInt8.ofNat n] :=
  Telemetry.emits_of le_rfl fun room h => by
    rw [packMapHeader, if_pos hn, if_neg (by omega)]

/-- The room of `pack_meta` is enough: it writes its entries as a map, or nothing. -/
lemma packMeta_eq : packMeta forS everyS markMessage =
    if metaEntries forS everyS markMessage = [] then []
    else metaMap (metaEntries forS everyS markMessage) := by
  have hlive : ∀ forS everyS, Emits META_BUF (1 + urtnLive.length + (1 + (5 + 5))) _
      (liveEntry forS everyS).bytes :=
    fun forS everyS => (emits_str (t := urtnLive) (by decide)).bind
      ((Telemetry.emits_array (k := 2) (by decide)).bind
        ((emits_uint forS.toNat_lt).bind (emits_uint everyS.toNat_lt)))
  have hmark : Emits META_BUF (1 + urtnMsg.length + 1) (fun buf => do
      let buf ← emit META_BUF (packStr · urtnMsg) buf
      if buf.length ≥ META_BUF then none else some (buf ++ [0x01])) markEntry.bytes :=
    (emits_str (by decide)).bind ⟨le_rfl, fun buf h => if_neg (by omega)⟩
  unfold packMeta metaEntries
  by_cases hl : everyS > 0 ∨ forS > 0
  · cases markMessage with
    | true =>
      have h := ((emits_map (n := 1 + 1) (by decide)).bind
        ((hlive forS everyS).bind hmark)).some_ [] (by decide)
      simp only [hl, decide_true, if_true, bind_assoc] at h ⊢
      rw [if_neg (by decide), h]
      rfl
    | false =>
      have h := ((emits_map (n := 1 + 0) (by decide)).bind (hlive forS everyS)).some_ []
        (by decide)
      simp only [hl, decide_true, if_true, Bool.false_eq_true, if_false, Option.bind_eq_bind,
        Option.bind_fun_some] at h ⊢
      rw [if_neg (by decide), h, metaMap, List.append_nil, List.flatMap_singleton]
      rfl
  · cases markMessage with
    | true =>
      have h := ((emits_map (n := 0 + 1) (by decide)).bind hmark).some_ [] (by decide)
      simp only [hl, decide_false, if_true, Bool.false_eq_true, if_false, Option.bind_eq_bind,
        Option.bind_some] at h ⊢
      rw [if_neg (by decide), h]
      rfl
    | false => simp [hl]

end packing

/-! ## The round trip -/

/-- The custom metas that say the same as one that was packed: it itself, and each map with its
entries among other ones, in any order. -/
inductive MetaOf (forS everyS : UInt32) (markMessage : Bool) : Bytes → Prop where
  | packed : MetaOf forS everyS markMessage (packMeta forS everyS markMessage)
  | among {others es : List MetaEntry} : (∀ e ∈ others, e.WellFormed) →
      (∀ e ∈ others, e.name ≠ urtnLive ∧ e.name ≠ urtnMsg) →
      List.Perm es (metaEntries forS everyS markMessage ++ others) → es.length < 2 ^ 16 →
      (metaMap es).length < 2 ^ 31 → MetaOf forS everyS markMessage (metaMap es)

/-- The offer of a packed meta, if it has one. -/
def offerOf (forS everyS : UInt32) : Option (Nat × Nat) :=
  if everyS > 0 ∨ forS > 0 then some (forS.toNat, everyS.toNat) else none

section readers
variable {P : Inbound.Platform} {raw : Bytes} {fuel : Nat} {forS everyS : UInt32}
  {markMessage : Bool} {es : List MetaEntry}

/-- Both walks over a map of well-formed entries. -/
lemma walks_metaMap {o : Nat × Nat} (hes : ∀ e ∈ es, e.WellFormed)
    (hoffer : ∀ e ∈ es, e.name = urtnLive → ∀ {data off}, Lies data off e.value →
      Telemetry.liveOffer data off = .ok (some o))
    (hn : es.length < 2 ^ 16) (hsmall : (metaMap es).length < 2 ^ 31)
    (hf : (metaMap es).length < fuel) :
    Telemetry.metaMarksMessage fuel (metaMap es) = .ok (es.any fun e => e.name = urtnMsg) ∧
      Telemetry.onLiveOffer fuel (metaMap es) =
        .ok (if es.any fun e => e.name = urtnLive then some o else none) := by
  obtain ⟨off, hhdr, hl⟩ := mapHeader_metaMap hn hsmall
  unfold Telemetry.metaMarksMessage Telemetry.onLiveOffer
  rw [hhdr, ok_bind, ok_bind]
  exact ⟨marksLoop_entries hes hl hf,
    offerLoop_entries hes (fun e he hname => hoffer e he hname) hl hf⟩

/-- Which of the two keys the packed entries have. -/
lemma any_metaEntries : ((metaEntries forS everyS markMessage).any fun e => e.name = urtnMsg) =
      markMessage ∧
    ((metaEntries forS everyS markMessage).any fun e => e.name = urtnLive) =
      decide (everyS > 0 ∨ forS > 0) := by
  have h1 : ¬ urtnLive = urtnMsg := by decide
  unfold metaEntries
  by_cases hl : everyS > 0 ∨ forS > 0
  · rw [if_pos hl, decide_eq_true hl]
    cases markMessage <;> exact ⟨by simp [liveEntry, markEntry, h1], by simp [liveEntry]⟩
  · rw [if_neg hl, decide_eq_false hl]
    cases markMessage <;> exact ⟨by simp [markEntry], by simp [markEntry, Ne.symm h1]⟩

lemma length_metaMap_le : (metaEntries forS everyS markMessage).length ≤ 2 ∧
    (metaMap (metaEntries forS everyS markMessage)).length ≤ 36 := by
  have h1 : (liveEntry forS everyS).bytes.length ≤ 21 := by
    have hf := @length_uintBytes forS.toNat
    have he := @length_uintBytes everyS.toNat
    have hk : (0xA9 :: urtnLive).length = 10 := rfl
    simp only [MetaEntry.bytes, liveEntry, List.length_append, List.length_singleton, hk]
    omega
  have h2 : markEntry.bytes.length = 10 := rfl
  have hhdr : ∀ n ≤ 2, ((packMapHeader 5 n).getD []).length ≤ 5 := by decide +kernel
  have hlen : (metaEntries forS everyS markMessage).length ≤ 2 := by
    unfold metaEntries
    split_ifs
    all_goals simp
  have hbody : ((metaEntries forS everyS markMessage).flatMap MetaEntry.bytes).length ≤ 31 := by
    unfold metaEntries
    split_ifs
    all_goals
      simp only [List.flatMap_append, List.length_append, List.flatMap_singleton, List.flatMap_nil,
        List.length_nil]
      omega
  have h := hhdr _ hlen
  rw [metaMap, List.length_append]
  exact ⟨hlen, by omega⟩

lemma eq_liveEntry {e : MetaEntry} (he : e ∈ metaEntries forS everyS markMessage)
    (hname : e.name = urtnLive) : e = liveEntry forS everyS := by
  unfold metaEntries at he
  rcases List.mem_append.mp he with he | he
  · split at he
    next => exact List.mem_singleton.mp he
    next => cases he
  · split at he
    next =>
      rw [List.mem_singleton.mp he] at hname
      exact absurd hname (by decide)
    next => cases he

/-- The marker and the offer come back from every meta that says the same. -/
lemma walks_of_metaOf (h : MetaOf forS everyS markMessage raw) (hf : raw.length < fuel) :
    Telemetry.metaMarksMessage fuel raw = .ok markMessage ∧
      Telemetry.onLiveOffer fuel raw = .ok (offerOf forS everyS) := by
  obtain ⟨hmark, hlive⟩ := @any_metaEntries forS everyS markMessage
  unfold offerOf
  cases h with
  | packed =>
    rw [packMeta_eq] at hf ⊢
    split at hf
    next hnil =>
      rw [hnil] at hmark hlive
      rw [if_pos hnil, ← hmark, if_neg (of_decide_eq_false hlive.symm)]
      exact ⟨rfl, rfl⟩
    next hnil =>
      have hle := @length_metaMap_le forS everyS markMessage
      have h := walks_metaMap (o := (forS.toNat, everyS.toNat)) (fun _ => wellFormed_of_mem)
        (fun e he hname => by
          rw [eq_liveEntry he hname]
          exact liveOffer_value) (by omega) (by omega) hf
      rw [if_neg hnil]
      simpa only [hmark, hlive, decide_eq_true_eq] using h
  | @among others es hwf hother hperm hn hsmall =>
    have hmem : ∀ e ∈ es, e ∈ metaEntries forS everyS markMessage ∨ e ∈ others := fun e he =>
      List.mem_append.mp (hperm.mem_iff.mp he)
    have h := walks_metaMap (o := (forS.toNat, everyS.toNat))
      (fun e he => (hmem e he).elim wellFormed_of_mem (hwf e))
      (fun e he hname => by
        rcases hmem e he with he | he
        · rw [eq_liveEntry he hname]
          exact liveOffer_value
        · exact absurd hname (hother e he).1) hn hsmall hf
    have none_ : ∀ name, (∀ e ∈ others, e.name ≠ name) →
        (es.any fun e => e.name = name) =
          (metaEntries forS everyS markMessage).any fun e => e.name = name := by
      intro name hne
      have hno : (others.any fun e => e.name = name) = false := by
        rw [List.any_eq_false]
        exact fun e he hd => hne e he (of_decide_eq_true hd)
      rw [hperm.any_eq, List.any_append, hno, Bool.or_false]
    rw [none_ urtnMsg fun e he => (hother e he).2, none_ urtnLive fun e he => (hother e he).1,
      hmark, hlive] at h
    simpa only [decide_eq_true_eq] using h

/-- The walk of the delivery callback is the one of the parsers. -/
lemma metaMarksMessage_eq :
    Inbound.metaMarksMessage P raw = Telemetry.metaMarksMessage P.fuel raw := by
  have hloop : ∀ {n off}, Inbound.metaEntries P raw n off = marksLoop P.fuel raw n off := by
    intro n
    induction n with
    | zero => exact fun {_} => rfl
    | succ n ih =>
      intro off
      simp only [Inbound.metaEntries, marksLoop, ih]
      rfl
  unfold Inbound.metaMarksMessage Telemetry.metaMarksMessage Telemetry.mapHeader
  by_cases h0 : raw.length = 0
  · rw [if_pos h0, if_pos h0]
    rfl
  · rw [if_neg h0, if_neg h0]
    cases byteAt raw 0 with
    | error e => rfl
    | ok mt =>
      have h2 : sz (0 + 2) = 2 := rfl
      simp only [ok_bind, hloop, h2]
      split_ifs
      · rfl
      · cases u16 raw 1 <;> rfl
      · rfl

/-- The delivery callback hides a message that is machinery only, unless it has the marker. -/
lemma machineryOnly_iff {r : Inbound.MessageRecord} {b : Bool}
    (h : Telemetry.metaMarksMessage P.fuel r.customMeta = .ok b) :
    Inbound.machineryOnly P r = true ↔
      (r.content = [] ∧ r.attachments = [] ∧ (r.commands ≠ [] ∨ r.hasTelemetry = true)) ∧
        b = false := by
  unfold Inbound.machineryOnly
  rw [metaMarksMessage_eq, h]
  simp only [Bool.and_eq_true, Bool.or_eq_true, decide_eq_true_eq, ne_eq, Except.ok.injEq,
    and_assoc, Bool.not_eq_true]

/-- `on_commands` finds the request that was packed. -/
lemma requests_packed {timebase : UInt64} (hf : (packTelemetryRequest timebase).length < fuel) :
    requestsTelemetry fuel (packTelemetryRequest timebase) = true := by
  have hp : packTelemetryRequest timebase =
      [0x91] ++ ([0x81] ++ ([0x01] ++ ([0x92] ++ (Telemetry.floatBytes timebase ++ [0xC2])))) := by
    rw [packTelemetryRequest, packFloat64, if_neg (by decide), Option.getD_some]
    rfl
  have hv : Element Known ([0x92] ++ (Telemetry.floatBytes timebase ++ [0xC2])) := by
    have hin := (@Telemetry.element_floatBytes timebase).append
      (Telemetry.element_byte (b := 0xC2) rfl)
    have h := Elements.items (K := Known) (t := 0x92) (by decide) rfl hin .nil
    rwa [List.append_nil] at h
  have hlen : ([0x92] ++ (Telemetry.floatBytes timebase ++ [0xC2])).length = 11 := by
    simp only [List.length_append, List.length_singleton, Telemetry.length_floatBytes]
  generalize [0x92] ++ (Telemetry.floatBytes timebase ++ [0xC2]) = value at hp hv hlen
  generalize packTelemetryRequest timebase = data at hp hf ⊢
  have hlong : data.length = 14 := by
    rw [hp]
    simp only [List.length_append, List.length_singleton, hlen]
  have hl : Lies data 0 data := ⟨at_self, by omega, by omega⟩
  have h0 : Lies data 0 ([0x91] ++ ([0x81] ++ ([0x01] ++ value))) := by rwa [hp] at hl ⊢
  have h1 : Lies data 1 ([0x81] ++ ([0x01] ++ value)) := h0.right
  have h2 : Lies data 2 ([0x01] ++ value) := h1.right
  have h3 : Lies data 3 value := h2.right
  have hskip : skipElement fuel data 3 = .ok (true, 3 + value.length) :=
    skipElement_of_element (by omega) hv h3.at_ (by omega) (by omega)
  have hentries : Telemetry.commandEntries fuel data 1 2 false = .ok (some (true, 14)) := by
    rw [Telemetry.commandEntries, if_pos h2.lt, byteAt_of_some h2.byte, ok_bind, if_neg (by decide)]
    change (skipElement fuel data 3 >>= _) = _
    rw [hskip, ok_bind, hlen]
    rfl
  have hloop : Telemetry.commandLoop fuel data 1 1 false = .ok true := by
    rw [Telemetry.commandLoop, if_pos h1.lt, byteAt_of_some h1.byte, ok_bind, if_pos (by decide)]
    change (Telemetry.commandEntries fuel data 1 2 false >>= _) = _
    rw [hentries, ok_bind]
    rfl
  unfold requestsTelemetry Telemetry.commandsRequest
  rw [Telemetry.arrayHeader_of_lies (by decide) h0, ok_bind]
  have hloop : Telemetry.commandLoop fuel data ((0x91 : UInt8) &&& 0x0F).toNat (0 + 1) false =
      .ok true := hloop
  dsimp only
  rw [hloop]

end readers

/-! ## The tables -/

/-- At most one feed for each peer of an identity. -/
def Tables.OnePerPeer (s : Tables) : Prop := (s.feeds.map fun f => (f.iden, f.peer)).Nodup

/-- What can become of the tables. -/
inductive Tables.Step (s : Tables) : Tables → Prop where
  | recordGrant (iden : IdentityId) (peer : Bytes) (items : UInt8) (shareS : Nat) (epoch : Int) :
      Step s (s.recordGrant iden peer items shareS epoch)
  | removeGrant (iden : IdentityId) (peer : Bytes) : Step s (s.removeGrant iden peer)
  | removeFeed (iden : IdentityId) (peer : Bytes) : Step s (s.removeFeed iden peer)
  | onCommands (iden : IdentityId) (peer : Bytes) (requested : Bool) (epoch : Int) :
      Step s (s.onCommands iden peer requested epoch)
  | onLiveOffer (iden : IdentityId) (peer : Bytes) (offer : Option (Nat × Nat)) (epoch : Int)
      (millis : Nat) : Step s (s.onLiveOffer iden peer offer epoch millis)
  | onTelemetry (iden : IdentityId) (peer blob : Bytes) (location : Option (Int × Int))
      (appends : Bool) (millis : Nat) :
      Step s (s.onTelemetry iden peer blob location appends millis)
  | setFeedGpx (iden : IdentityId) (peer : Bytes) (lat lon : Int) :
      Step s (s.setFeedGpx iden peer lat lon)
  | tick (epoch : IdentityId → Int) (now : Nat) (pack : IdentityId → UInt8 → Bytes)
      (double : Int → UInt64) : Step s (s.tick epoch now pack double).1

/-- The tables after any run. -/
def Tables.Reachable (s : Tables) : Prop := Relation.ReflTransGen Tables.Step {} s

section tables
variable {s : Tables} {iden : IdentityId} {peer : Bytes} {forS everyS millis : Nat} {epoch : Int}

/-- The test of `find_feed`, as one on the key. -/
lemma ofPeer_eq : (fun f : Feed => decide (f.iden = iden ∧ f.peer = peer)) =
    fun f => decide ((f.iden, f.peer) = (iden, peer)) := by
  funext f
  simp only [Prod.mk.injEq]

/-- `remove_feed` leaves no feed of the peer. -/
lemma findFeed_removeFeed (h : s.OnePerPeer) :
    (s.removeFeed iden peer).findFeed iden peer = none := by
  unfold Tables.removeFeed Tables.findFeed
  rw [ofPeer_eq]
  exact find_eraseP_key h

lemma evictSoonest_sublist {α : Type} {f : α → Int} {l : List α} : (evictSoonest f l).Sublist l :=
  List.eraseP_sublist

/-- An offer of some time starts or supersedes the feed. -/
lemma findFeed_onLiveOffer (hfor : forS ≠ 0) :
    ∃ f, (s.onLiveOffer iden peer (some (forS, everyS)) epoch millis).findFeed iden peer = some f ∧
      f.expiresEpoch = epoch + (min forS MAX_SHARE_S : Nat) * 1000 ∧
      f.everyS = min (max everyS MIN_RATE_S) MAX_RATE_S ∧
      f.lastReqMs = millis ∧ f.awaiting = false ∧ f.misses = 0 := by
  unfold Tables.onLiveOffer
  dsimp only
  rw [if_neg hfor]
  cases hfound : s.findFeed iden peer with
  | some f =>
    exact ⟨_, find_modifyFirst (fun _ => rfl) hfound, rfl, rfl, rfl, rfl, rfl⟩
  | none =>
    refine ⟨{ iden, peer, expiresEpoch := epoch + (min forS MAX_SHARE_S : Nat) * 1000
              everyS := min (max everyS MIN_RATE_S) MAX_RATE_S, lastReqMs := millis
              awaiting := false, misses := 0 }, ?_, rfl, rfl, rfl, rfl, rfl⟩
    have hno : ∀ f ∈ s.feeds, ¬ (f.iden = iden ∧ f.peer = peer) := fun f hf =>
      of_decide_eq_false (Bool.eq_false_of_not_eq_true (List.find?_eq_none.mp hfound f hf))
    unfold Tables.findFeed
    rw [List.find?_append, List.find?_eq_none.mpr, Option.none_or, List.find?_cons_of_pos]
    · exact decide_eq_true ⟨rfl, rfl⟩
    · intro f hf
      have hmem : f ∈ s.feeds := by
        split at hf
        · exact evictSoonest_sublist.subset hf
        · exact hf
      simpa using hno f hmem

/-- A change of a feed that keeps its peer. -/
lemma Tables.OnePerPeer.modify {p : Feed → Bool} {g : Feed → Feed} (h : s.OnePerPeer)
    (hg : ∀ f, (g f).iden = f.iden ∧ (g f).peer = f.peer) :
    ({ s with feeds := modifyFirst p g s.feeds } : Tables).OnePerPeer := by
  have hkeys : (modifyFirst p g s.feeds).map (fun f => (f.iden, f.peer)) =
      s.feeds.map fun f => (f.iden, f.peer) :=
    map_modifyFirst fun f => Prod.ext (hg f).1 (hg f).2
  unfold Tables.OnePerPeer
  rwa [hkeys]

/-- `on_live_offer` keeps one feed for each peer. -/
lemma Tables.OnePerPeer.onLiveOffer {offer : Option (Nat × Nat)} (h : s.OnePerPeer) :
    (s.onLiveOffer iden peer offer epoch millis).OnePerPeer := by
  cases offer with
  | none => exact h
  | some o =>
    obtain ⟨forS, everyS⟩ := o
    unfold Tables.onLiveOffer
    dsimp only
    split
    next => exact h.sublist (List.eraseP_sublist.map _)
    next =>
      cases hfound : s.findFeed iden peer with
      | some f =>
        exact h.modify fun _ => ⟨rfl, rfl⟩
      | none =>
        have hsub : (if s.feeds.length ≥ MAX_FEEDS then evictSoonest (·.expiresEpoch) s.feeds
            else s.feeds).Sublist s.feeds := by
          split
          · exact evictSoonest_sublist
          · exact List.Sublist.refl _
        unfold Tables.OnePerPeer
        dsimp only
        rw [List.map_append, List.map_singleton, List.nodup_append]
        refine ⟨h.sublist (hsub.map _), List.nodup_singleton _, ?_⟩
        intro k hk k' hk'
        obtain ⟨f, hf, rfl⟩ := List.mem_map.mp hk
        rw [List.mem_singleton.mp hk']
        have hno := List.find?_eq_none.mp hfound f (hsub.subset hf)
        simpa using hno

/-- `on_commands` queues the peer of an unexpired grant, unless the queue is full. -/
lemma mem_onCommands {g : Grant} (hg : s.findGrant iden peer = some g) (he : epoch ≤ g.expiresEpoch)
    (hq : s.pending.length < MAX_PENDING) :
    ⟨iden, peer⟩ ∈ (s.onCommands iden peer true epoch).pending := by
  unfold Tables.onCommands
  rw [hg]
  by_cases hm : (⟨iden, peer⟩ : Peer) ∈ s.pending
  · rw [if_neg (by decide)]
    dsimp only
    rw [if_pos (.inr (.inl hm))]
    exact hm
  · rw [if_neg (by decide)]
    dsimp only
    rw [if_neg (by rw [not_or, not_or]; exact ⟨not_lt.mpr he, hm, not_le.mpr hq⟩)]
    exact List.mem_append_right _ List.mem_cons_self

/-- The feeds that `tick` leaves are old ones, with other counters. -/
lemma keys_feedLoop {epochs : IdentityId → Int} {now : Nat} {double : Int → UInt64}
    {l : List Feed} :
    ((feedLoop epochs now double l).1.map fun f => (f.iden, f.peer)).Sublist
      (l.map fun f => (f.iden, f.peer)) := by
  induction l with
  | nil => exact List.Sublist.refl _
  | cons f l ih =>
    unfold feedLoop
    dsimp only
    generalize hg : (if f.awaiting = true then { f with misses := f.misses + 1 } else f) = g
    have hkey : (g.iden, g.peer) = (f.iden, f.peer) := by
      rw [← hg]
      split
      · rfl
      · rfl
    split_ifs
    · exact ih.cons _
    · exact ih.cons_cons _
    · exact ih.cons _
    · rw [List.map_cons, List.map_cons]
      dsimp only
      rw [hkey]
      exact ih.cons_cons _

lemma Tables.OnePerPeer.step {s' : Tables} (h : s.OnePerPeer) (hs : Tables.Step s s') :
    s'.OnePerPeer := by
  cases hs with
  | recordGrant =>
    unfold Tables.recordGrant
    dsimp only
    split_ifs
    · exact h
    · split <;> exact h
    · split <;> exact h
  | removeGrant => exact h
  | removeFeed => exact h.sublist (List.eraseP_sublist.map _)
  | onCommands =>
    unfold Tables.onCommands
    split
    next => exact h
    next =>
      split
      next => exact h
      next => split_ifs <;> exact h
  | onLiveOffer => exact h.onLiveOffer
  | onTelemetry =>
    unfold Tables.onTelemetry
    split
    next => exact h
    next => exact h.modify fun _ => ⟨rfl, rfl⟩
  | setFeedGpx => exact h.modify fun _ => ⟨rfl, rfl⟩
  | tick => exact h.sublist keys_feedLoop

/-- One feed for each peer, in every run. -/
theorem Tables.Reachable.onePerPeer (h : s.Reachable) : s.OnePerPeer := by
  induction h with
  | refl => exact List.nodup_nil
  | tail _ hs ih => exact ih.step hs

end tables

/-- What the receiving side makes of a custom meta: the marker decides what is hidden, and the offer
starts, supersedes or stops the feed of the peer. -/
structure Recovers (P : Inbound.Platform) (forS everyS : UInt32) (markMessage : Bool)
    (raw : Bytes) : Prop where
  marks : Inbound.metaMarksMessage P raw = .ok markMessage
  hides : ∀ r : Inbound.MessageRecord, r.customMeta = raw →
    (Inbound.machineryOnly P r = true ↔
      (r.content = [] ∧ r.attachments = [] ∧ (r.commands ≠ [] ∨ r.hasTelemetry = true)) ∧
        markMessage = false)
  offers : liveOffer P.fuel raw = offerOf forS everyS
  keeps : forS = 0 → everyS = 0 → ∀ (s : Tables) iden peer epoch millis,
    s.onLiveOffer iden peer (liveOffer P.fuel raw) epoch millis = s
  stops : forS = 0 → everyS ≠ 0 → ∀ s : Tables, s.Reachable → ∀ iden peer epoch millis,
    (s.onLiveOffer iden peer (liveOffer P.fuel raw) epoch millis).findFeed iden peer = none
  starts : forS ≠ 0 → ∀ (s : Tables) iden peer epoch millis,
    ∃ f, (s.onLiveOffer iden peer (liveOffer P.fuel raw) epoch millis).findFeed iden peer = some f ∧
      f.expiresEpoch = epoch + (min forS.toNat MAX_SHARE_S : Nat) * 1000 ∧
      f.everyS = min (max everyS.toNat MIN_RATE_S) MAX_RATE_S ∧
      f.lastReqMs = millis ∧ f.awaiting = false ∧ f.misses = 0

/-- What the receiving side makes of a telemetry request: the peer of an unexpired grant is queued
for an answer. -/
structure Answers (P : Inbound.Platform) (raw : Bytes) : Prop where
  requests : requestsTelemetry P.fuel raw = true
  queues : ∀ (s : Tables) iden peer epoch g, s.findGrant iden peer = some g →
    epoch ≤ g.expiresEpoch → s.pending.length < MAX_PENDING →
      ⟨iden, peer⟩ ∈ (s.onCommands iden peer (requestsTelemetry P.fuel raw) epoch).pending

/-- Every packed meta, and every map with its entries in any order among other ones, is taken for
what was packed, and so is every packed request. -/
theorem meta_round_trip (P : Inbound.Platform) (forS everyS : UInt32) (markMessage : Bool)
    (timebase : UInt64) :
    (∀ raw, MetaOf forS everyS markMessage raw → raw.length < P.fuel →
      Recovers P forS everyS markMessage raw) ∧
    ((packTelemetryRequest timebase).length < P.fuel →
      Answers P (packTelemetryRequest timebase)) := by
  constructor
  · intro raw h hf
    obtain ⟨hmark, hlive⟩ := walks_of_metaOf h hf
    have hoffer : liveOffer P.fuel raw = offerOf forS everyS := by
      rw [liveOffer, hlive]
    refine ⟨metaMarksMessage_eq.trans hmark, fun r hr => machineryOnly_iff (hr ▸ hmark), hoffer,
      fun hfor hevery s iden peer epoch millis => ?_,
      fun hfor hevery s hs iden peer epoch millis => ?_, fun hfor s iden peer epoch millis => ?_⟩
    · rw [hoffer, hfor, hevery]
      rfl
    · have hpos : everyS > 0 := UInt32.pos_iff_ne_zero.mpr hevery
      rw [hoffer, offerOf, if_pos (.inl hpos), hfor]
      exact findFeed_removeFeed hs.onePerPeer
    · have hpos : forS > 0 := UInt32.pos_iff_ne_zero.mpr hfor
      rw [hoffer, offerOf, if_pos (.inr hpos)]
      exact findFeed_onLiveOffer fun h => hfor (UInt32.toNat_inj.mp h)
  · intro hf
    have hreq := requests_packed hf
    refine ⟨hreq, fun s iden peer epoch g hg he hq => ?_⟩
    rw [hreq]
    exact mem_onCommands hg he hq

/-- An hour of updates each minute, with the marker in front of the offer. -/
theorem meta_round_trip_swapped :
    Recovers ⟨id, 64, fun _ => true⟩ 3600 60 true (metaMap [markEntry, liveEntry 3600 60]) :=
  (meta_round_trip ⟨id, 64, fun _ => true⟩ 3600 60 true 0).1 _
    (@MetaOf.among 3600 60 true [] _ (fun _ h => absurd h List.not_mem_nil)
      (fun _ h => absurd h List.not_mem_nil) (List.Perm.swap _ _ _) (by decide) (by decide))
    (by decide)

end URSupreme.Share
