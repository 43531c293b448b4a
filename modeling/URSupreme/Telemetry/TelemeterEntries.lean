import URSupreme.Telemetry.TelemeterWalk

/-!
# The telemeter decoder, entry by entry

A map of telemeter entries as msgpack has it, the readings that its recognised entries stand for,
and the entries that stop the walk of `decode_into`. An entry is decoded exactly where no entry in
front of it stops the walk and its own headers are ones that its reader knows.
-/

namespace URSupreme.Telemetry
open Lib Lib.Wire MsgPack

/-! ### Values -/

/-- A complete msgpack element. -/
abbrev Complete (bs : Bytes) : Prop := Element (fun _ => True) bs

/-- A msgpack number and what it stands for. -/
inductive Numeral : Bytes → Number → Prop where
  | fixint {t : UInt8} : t ≤ 0x7F → Numeral [t] (.int t.toNat)
  | negative {t : UInt8} : t ≥ 0xE0 → Numeral [t] (.int (signed 1 t.toNat))
  | wide {t w f bs} : Wide t w f → bs.length = w → Numeral (t :: bs) (f (be bs))
  | float32 {bs} : bs.length = 4 → Numeral (0xCA :: bs) (.float32 (be bs))

/-- The header of a msgpack array of `n` items. -/
inductive ArrayHeader : Bytes → Nat → Prop where
  | fixarray {t : UInt8} : t &&& 0xF0 = 0x90 → ArrayHeader [t] (t &&& 0x0F).toNat
  | array16 {len} : len.length = 2 → ArrayHeader (0xDC :: len) (be len)
  | array32 {len} : len.length = 4 → ArrayHeader (0xDD :: len) (be len)

/-- A msgpack array of the items, with a header in `K`. -/
structure IsArray (K : UInt8 → Prop) (raw : Bytes) (items : List Bytes) : Prop where
  header : ∃ hdr, ArrayHeader hdr items.length ∧ (∀ t ∈ hdr.head?, K t) ∧
    raw = hdr ++ items.flatten
  items : ∀ i ∈ items, Complete i

/-- The header of a msgpack bin of `w` bytes. -/
inductive BinHeader : Bytes → Nat → Prop where
  | bin8 {w : UInt8} : BinHeader [0xC4, w] w.toNat
  | bin16 {len} : len.length = 2 → BinHeader (0xC5 :: len) (be len)
  | bin32 {len} : len.length = 4 → BinHeader (0xC6 :: len) (be len)

/-- A msgpack bin of `w` bytes with a header in `K`: the big-endian number `v`. -/
def Bin (K : UInt8 → Prop) (w : Nat) (raw : Bytes) (v : Nat) : Prop :=
  ∃ hdr body, BinHeader hdr w ∧ (∀ t ∈ hdr.head?, K t) ∧ body.length = w ∧ raw = hdr ++ body ∧
    v = be body

/-- The charging flag of a battery, where it is a boolean. -/
def charging (raw : Bytes) : Option Bool :=
  if raw = [0xC3] then some true else if raw = [0xC2] then some false else none

/-- The value of a sensor, well formed for it, and the reading that it stands for. The array and
bin headers in it are in `K`. -/
inductive Reads (K : UInt8 → Prop) : UInt8 → Bytes → Reading → Prop where
  | time {raw v} : Numeral raw v → Reads K SID_TIME raw (.time v)
  | battery {raw pct chg items v} : IsArray K raw (pct :: chg :: items) → Numeral pct v →
      Reads K SID_BATTERY raw (.battery v (charging chg))
  | location {raw la lo alt spd brg acc items} {a b c d e f : Nat} :
      IsArray K raw (la :: lo :: alt :: spd :: brg :: acc :: items) →
      Bin K 4 la a → Bin K 4 lo b → Bin K 4 alt c → Bin K 4 spd d → Bin K 4 brg e → Bin K 2 acc f →
      (-90000000 ≤ signed 4 a ∧ signed 4 a ≤ 90000000 ∧ -180000000 ≤ signed 4 b ∧
        signed 4 b ≤ 180000000) →
      Reads K SID_LOCATION raw
        (.location (signed 4 a) (signed 4 b) (signed 4 c) (signed 4 d) (signed 4 e) f)
  | magnetic {raw x y z items v v' v''} : IsArray K raw (x :: y :: z :: items) → Numeral x v →
      Numeral y v' → Numeral z v'' → Reads K SID_MAGNETIC_FIELD raw (.magnetic v v' v'')
  | pressure {raw v} : Numeral raw v → Reads K SID_PRESSURE raw (.pressure v)
  | temperature {raw v} : Numeral raw v → Reads K SID_TEMPERATURE raw (.temperature v)
  | humidity {raw v} : Numeral raw v → Reads K SID_HUMIDITY raw (.humidity v)

/-- The array and bin headers that `array_header` and `read_be_bin` know. -/
def Short (t : UInt8) : Prop := t ≠ 0xDD ∧ t ≠ 0xC5 ∧ t ≠ 0xC6

/-! ### Maps -/

/-- An entry of a map: its key and its value. -/
structure Pair where
  key : Bytes
  value : Bytes
  deriving DecidableEq, Repr

def Pair.bytes (p : Pair) : Bytes := p.key ++ p.value

/-- The header of a msgpack map of `n` entries. -/
inductive MapHeader : Bytes → Nat → Prop where
  | fixmap {t : UInt8} : t &&& 0xF0 = 0x80 → MapHeader [t] (t &&& 0x0F).toNat
  | map16 {len} : len.length = 2 → MapHeader (0xDE :: len) (be len)
  | map32 {len} : len.length = 4 → MapHeader (0xDF :: len) (be len)

/-- The buffer is a well-formed msgpack map: its header, and as many complete entries as that
announces. -/
structure IsMap (data hdr : Bytes) (ps : List Pair) : Prop where
  header : MapHeader hdr ps.length
  eq : data = hdr ++ ps.flatMap Pair.bytes
  keys : ∀ p ∈ ps, Complete p.key
  values : ∀ p ∈ ps, Complete p.value

/-- The sensor id that a key is recognised as: a positive fixint or a `uint8`. -/
def sidOf : Bytes → Option UInt8
  | [t] => if t ≤ 0x7F then some t else none
  | [t, b] => if t = 0xCC then some b else none
  | _ => none

/-- The walk does not come behind the entry. -/
inductive Pair.Stops (p : Pair) : Prop where
  | key : sidOf p.key = none → p.Stops
  | time : sidOf p.key = some SID_TIME → (∀ v, ¬ Numeral p.value v) → p.Stops
  | battery {pct chg items} : sidOf p.key = some SID_BATTERY →
      IsArray Short p.value (pct :: chg :: items) → (∀ v, ¬ Numeral pct v) → p.Stops
  | value : sidOf p.key ≠ some SID_TIME → ¬ Element Known p.value → p.Stops

section readers
variable {K : UInt8 → Prop} {data raw rest hdr bs : Bytes} {off n w v o : Nat} {t sid : UInt8}
  {f : Nat → Number} {x : Number} {items : List Bytes}

/-! ### Numbers -/

lemma Wide.classify (h : Wide t w f) : classify t = .fixed w := by
  cases h <;> rfl

lemma readNumber_float32 (hb : bs.length = 4) (h : Lies data off (0xCA :: bs)) :
    readNumber data off = .ok (some (.float32 (be bs)), off + 5) := by
  have hle := h.le
  rw [List.length_cons, hb] at hle
  have hsz : MsgPack.sz (off + (4 + 1)) = off + 5 := h.sz (by simp [hb])
  have hbe : beAt data 4 (off + 1) 0 = .ok (be bs) := by
    rw [← hb, beAt_of_lies h.tail, zero_mul, zero_add]
  unfold readNumber
  rw [if_neg (not_le.mpr h.lt), byteAt_of_some h.byte, ok_bind]
  dsimp only
  repeat rw [if_neg (by decide)]
  rw [if_pos rfl, hsz, if_neg (by omega), hbe, ok_bind]

lemma Numeral.reads (h : Numeral raw x) (hl : Lies data off raw) :
    readNumber data off = .ok (some x, off + raw.length) := by
  cases h with
  | fixint h => exact (IntForm.fixint h rfl).reads hl
  | negative h => exact (IntForm.negative h rfl).reads hl
  | wide hw hb => rw [readNumber_wide hw hb hl, List.length_cons, hb]
  | float32 hb => rw [readNumber_float32 hb hl, List.length_cons, hb]

/-- What is no number is not read as one. -/
lemma readNumber_none (hc : Complete raw) (hn : ∀ v, ¬ Numeral raw v) (hl : Lies data off raw) :
    readNumber data off = .ok (none, off) := by
  obtain ⟨t, bs, rfl⟩ := hc.exists_cons
  have low : ¬ t ≤ 0x7F := by
    intro h
    have hb := hc.of_fixed ((tag_masks t).1.1 (.inl h))
    rw [List.length_eq_zero_iff.mp hb] at hn
    exact hn _ (.fixint h)
  have high : ¬ t ≥ 0xE0 := by
    intro h
    have hb := hc.of_fixed ((tag_masks t).1.1 (.inr h))
    rw [List.length_eq_zero_iff.mp hb] at hn
    exact hn _ (.negative h)
  have wide : ∀ {t' w f}, Wide t' w f → t ≠ t' := by
    rintro t' w f hw rfl
    exact hn _ (.wide hw (hc.of_fixed hw.classify))
  have float : t ≠ 0xCA := by
    rintro rfl
    exact hn _ (.float32 (hc.of_fixed rfl))
  unfold readNumber
  rw [if_neg (not_le.mpr hl.lt), byteAt_of_some hl.byte, ok_bind]
  dsimp only
  rw [if_neg low, if_neg high, if_neg (wide .uint8), if_neg (wide .uint16), if_neg (wide .uint32),
    if_neg (wide .uint64), if_neg (wide .int8), if_neg (wide .int16), if_neg (wide .int32),
    if_neg (wide .int64), if_neg float, if_neg (wide .float64)]

/-! ### Arrays -/

/-- Elements in a row, one by one. -/
lemma exists_items (h : Elements K n bs) :
    ∃ items : List Bytes, items.length = n ∧ bs = items.flatten ∧ ∀ i ∈ items, Element K i := by
  induction n generalizing bs with
  | zero => exact ⟨[], rfl, h.eq_nil, nofun⟩
  | succ n ih =>
    obtain ⟨a, b, ha, hb, rfl⟩ := h.split
    obtain ⟨items, hlen, rfl, hitems⟩ := ih hb
    refine ⟨a :: items, by rw [List.length_cons, hlen], rfl, ?_⟩
    rw [List.forall_mem_cons]
    exact ⟨ha, hitems⟩

lemma ArrayHeader.ne_nil (h : ArrayHeader hdr n) : hdr ≠ [] := by
  cases h <;> exact List.cons_ne_nil _ _

lemma ArrayHeader.short (h : ArrayHeader hdr n) :
    (∀ t ∈ hdr.head?, Short t) ∨ ∃ len, hdr = 0xDD :: len := by
  cases h with
  | fixarray ht =>
    left
    rintro t' ⟨⟩
    refine ⟨?_, ?_, ?_⟩ <;> rintro rfl <;> exact absurd ht (by decide)
  | array16 =>
    left
    rintro t' ⟨⟩
    exact ⟨by decide, by decide, by decide⟩
  | array32 => exact .inr ⟨_, rfl⟩

/-- `array_header` reads the headers that it knows. -/
lemma ArrayHeader.reads (h : ArrayHeader hdr n) (hK : ∀ t ∈ hdr.head?, Short t)
    (hl : Lies data off (hdr ++ rest)) : arrayHeader data off = .ok (some n, off + hdr.length) := by
  cases h with
  | fixarray ht => exact arrayHeader_of_lies ht hl
  | @array16 len hlen =>
    have hle := hl.left.le
    have hsmall := hl.small
    rw [List.length_cons, hlen] at hle
    have hsize : u16 data (off + 1) = .ok (be len) :=
      sizeAt_of_at (.inr (.inl rfl)) hlen hl.left.tail.at_ (by omega) (by omega)
    unfold arrayHeader
    rw [if_neg (by omega), byteAt_of_some hl.byte, ok_bind, if_neg (by decide),
      if_pos ⟨rfl, by rw [sz_of_lt (by omega)]; omega⟩, hsize, ok_bind, sz_of_lt (by omega),
      List.length_cons, hlen]
  | array32 => exact absurd rfl (hK _ rfl).1

/-- What `array_header` has read is an array. -/
lemma isArray_of_arrayHeader (hc : Complete raw) (hl : Lies data off raw)
    (h : arrayHeader data off = .ok (some n, o)) :
    ∃ items, items.length = n ∧ IsArray Short raw items := by
  obtain ⟨t, bs, rfl⟩ := hc.exists_cons
  have hsmall := hl.small
  have hlt := hl.lt
  unfold arrayHeader at h
  rw [if_neg (by omega), byteAt_of_some hl.byte, ok_bind] at h
  split at h
  next ht =>
    obtain ⟨items, hlen, rfl, hitems⟩ := exists_items (hc.of_items ((tag_masks t).1.2.2.1 ht))
    simp only [Except.ok.injEq, Prod.mk.injEq, Option.some.injEq] at h
    refine ⟨items, hlen.trans h.1, ⟨[t], hlen ▸ .fixarray ht, ?_, rfl⟩, hitems⟩
    cases (ArrayHeader.fixarray ht).short with
    | inl hs => exact hs
    | inr h =>
      obtain ⟨len, h⟩ := h
      cases h
      exact absurd ht (by decide)
  next ht =>
    split at h
    next hdc =>
      obtain ⟨rfl, -⟩ := hdc
      obtain ⟨len, inner, rfl, hlen, hin⟩ := hc.of_sizedItems (t := 0xDC) (w := 2) (k := 1) rfl
      rw [one_mul] at hin
      obtain ⟨items, hn, rfl, hitems⟩ := exists_items hin
      have hsize : u16 data (off + 1) = .ok (be len) :=
        sizeAt_of_at (.inr (.inl rfl)) hlen hl.tail.left.at_ (by omega) (by omega)
      rw [hsize, ok_bind] at h
      simp only [Except.ok.injEq, Prod.mk.injEq, Option.some.injEq] at h
      refine ⟨items, hn.trans h.1, ⟨0xDC :: len, hn ▸ .array16 hlen, ?_, rfl⟩, hitems⟩
      rintro t' ⟨⟩
      exact ⟨by decide, by decide, by decide⟩
    next => cases h

/-- An array with a header that `array_header` knows is opened; the others have the header of an
array with a 32-bit length. -/
lemma IsArray.reads (h : IsArray K raw items) (hl : Lies data off raw) :
    (IsArray Short raw items ∧ ∃ o, arrayHeader data off = .ok (some items.length, o) ∧
      Lies data o items.flatten) ∨ arrayHeader data off = .ok (none, off) := by
  obtain ⟨⟨hdr, hh, hK, rfl⟩, hitems⟩ := h
  cases hh.short with
  | inl hs =>
    exact .inl ⟨⟨⟨hdr, hh, hs, rfl⟩, hitems⟩, _, hh.reads hs hl, hl.right⟩
  | inr h =>
    obtain ⟨len, rfl⟩ := h
    refine .inr ?_
    unfold arrayHeader
    rw [if_neg (not_le.mpr hl.lt), byteAt_of_some hl.byte, ok_bind, if_neg (by decide),
      if_neg fun h => absurd h.1 (by decide)]

lemma IsArray.reads_short (h : IsArray Short raw items) (hl : Lies data off raw) :
    ∃ o, arrayHeader data off = .ok (some items.length, o) ∧ Lies data o items.flatten := by
  obtain ⟨⟨hdr, hh, hK, rfl⟩, -⟩ := h
  exact ⟨_, hh.reads hK hl, hl.right⟩

/-! ### Bins -/

lemma readBeBin_none (ht : t ≠ 0xC4) (hl : Lies data off (t :: bs)) :
    readBeBin data off w = .ok (none, off) := by
  unfold readBeBin
  split
  next => rfl
  next => rw [byteAt_of_some hl.byte, ok_bind, if_pos ht]

/-- A bin with a header that `read_be_bin` knows is read. -/
lemma Bin.reads_short (h : Bin Short w raw v) (hl : Lies data off raw) :
    readBeBin data off w =
      .ok (some (if w = 4 then signed 4 v else v), off + raw.length) := by
  obtain ⟨hdr, body, hh, hK, hb, rfl, rfl⟩ := h
  cases hh with
  | @bin8 w =>
    have hw : UInt8.ofNat w.toNat = w := UInt8.ofNat_toNat
    rw [← hw, List.cons_append, List.cons_append, List.nil_append] at hl
    rw [readBeBin_of_lies w.toNat_lt hl hb, List.length_append, hb]
    rfl
  | bin16 => exact absurd rfl (hK _ rfl).2.1
  | bin32 => exact absurd rfl (hK _ rfl).2.2

/-- The others are not read. -/
lemma Bin.reads (h : Bin K w raw v) (hl : Lies data off raw) :
    Bin Short w raw v ∨ readBeBin data off w = .ok (none, off) := by
  obtain ⟨hdr, body, hh, hK, hb, rfl, rfl⟩ := h
  cases hh with
  | bin8 =>
    refine .inl ⟨_, body, .bin8, ?_, hb, rfl, rfl⟩
    rintro t' ⟨⟩
    exact ⟨by decide, by decide, by decide⟩
  | bin16 => exact .inr (readBeBin_none (by decide) hl)
  | bin32 => exact .inr (readBeBin_none (by decide) hl)

section location
variable {la lo alt spd brg acc : Bytes} {a b c d e f : Nat} {rs : List Reading}

lemma locationReading_short (hl : Lies data off
    (la ++ (lo ++ (alt ++ (spd ++ (brg ++ (acc ++ rest))))))) (ha : Bin Short 4 la a)
    (hb : Bin Short 4 lo b) (hc : Bin Short 4 alt c) (hd : Bin Short 4 spd d)
    (he : Bin Short 4 brg e) (hf : Bin Short 2 acc f)
    (hr : -90000000 ≤ signed 4 a ∧ signed 4 a ≤ 90000000 ∧ -180000000 ≤ signed 4 b ∧
    signed 4 b ≤ 180000000) : locationReading data off = .ok
    [.location (signed 4 a) (signed 4 b) (signed 4 c) (signed 4 d) (signed 4 e) f] := by
  have h1 := ha.reads_short hl.left
  have h2 := hb.reads_short hl.right.left
  have h3 := hc.reads_short hl.right.right.left
  have h4 := hd.reads_short hl.right.right.right.left
  have h5 := he.reads_short hl.right.right.right.right.left
  have h6 := hf.reads_short hl.right.right.right.right.right.left
  simp only [locationReading, h1, h2, h3, h4, h5, h6, ok_bind, if_true]
  rw [if_pos hr]
  rfl

/-- A location of which something is written is one whose bins `read_be_bin` knows. -/
lemma short_of_locationReading
    (hl : Lies data off (la ++ (lo ++ (alt ++ (spd ++ (brg ++ (acc ++ rest)))))))
    (ha : Bin K 4 la a) (hb : Bin K 4 lo b) (hc : Bin K 4 alt c) (hd : Bin K 4 spd d)
    (he : Bin K 4 brg e) (hf : Bin K 2 acc f) (h : locationReading data off = .ok rs)
    (hrs : rs ≠ []) : Bin Short 4 la a ∧ Bin Short 4 lo b ∧ Bin Short 4 alt c ∧
      Bin Short 4 spd d ∧ Bin Short 4 brg e ∧ Bin Short 2 acc f := by
  have stop : (.ok [] : Except Fault (List Reading)) ≠ .ok rs :=
    fun h => hrs (Except.ok.inj h).symm
  unfold locationReading at h
  obtain ha | e1 := ha.reads hl.left
  case inr =>
    rw [e1, ok_bind] at h
    exact absurd h stop
  rw [ha.reads_short hl.left, ok_bind] at h
  dsimp only at h
  obtain hb | e2 := hb.reads hl.right.left
  case inr =>
    rw [e2, ok_bind] at h
    exact absurd h stop
  rw [hb.reads_short hl.right.left, ok_bind] at h
  dsimp only at h
  obtain hc | e3 := hc.reads hl.right.right.left
  case inr =>
    rw [e3, ok_bind] at h
    exact absurd h stop
  rw [hc.reads_short hl.right.right.left, ok_bind] at h
  dsimp only at h
  obtain hd | e4 := hd.reads hl.right.right.right.left
  case inr =>
    rw [e4, ok_bind] at h
    exact absurd h stop
  rw [hd.reads_short hl.right.right.right.left, ok_bind] at h
  dsimp only at h
  obtain he | e5 := he.reads hl.right.right.right.right.left
  case inr =>
    rw [e5, ok_bind] at h
    exact absurd h stop
  rw [he.reads_short hl.right.right.right.right.left, ok_bind] at h
  dsimp only at h
  obtain hf | e6 := hf.reads hl.right.right.right.right.right.left
  case inr =>
    rw [e6, ok_bind] at h
    exact absurd h stop
  exact ⟨ha, hb, hc, hd, he, hf⟩

end location

/-! ### The sensor switch -/

section switch
variable {r : Reading} {e : Ending} {pct chg : Bytes} {p : Pair}

/-- The flag that is read behind the percentage. -/
lemma charging_cons (hc : Complete (t :: bs)) :
    charging (t :: bs) = if t = 0xC2 ∨ t = 0xC3 then some (decide (t = 0xC3)) else none := by
  have single : classify t = .fixed 0 → bs = [] :=
    fun h => List.length_eq_zero_iff.mp (hc.of_fixed h)
  by_cases h3 : t = 0xC3
  · subst h3
    rw [single rfl]
    rfl
  · by_cases h2 : t = 0xC2
    · subst h2
      rw [single rfl]
      rfl
    · simp [charging, h2, h3]

lemma sensorCase_time (h : Numeral raw x) (hl : Lies data off raw) :
    sensorCase data SID_TIME off = .ok (.next [.time x] (off + raw.length)) := by
  rw [sensorCase, if_pos rfl, h.reads hl, ok_bind]

lemma numberReading_of (h : Numeral raw x) (hl : Lies data off raw) (f : Number → Reading) :
    numberReading data off f = .ok (.skip [f x]) := by
  rw [numberReading, h.reads hl, ok_bind]
  rfl

/-- What a value with headers that its reader knows stands for is written. -/
lemma Reads.mem_readings (h : Reads Short sid raw r) (hl : Lies data off raw) :
    ∃ e, sensorCase data sid off = .ok e ∧ r ∈ e.readings := by
  cases h with
  | time h => exact ⟨_, sensorCase_time h hl, List.mem_singleton_self _⟩
  | pressure h => exact ⟨_, numberReading_of h hl .pressure, List.mem_singleton_self _⟩
  | temperature h => exact ⟨_, numberReading_of h hl .temperature, List.mem_singleton_self _⟩
  | humidity h => exact ⟨_, numberReading_of h hl .humidity, List.mem_singleton_self _⟩
  | @battery _ pct chg items v ha hv =>
    obtain ⟨o, e, hin⟩ := ha.reads_short hl
    rw [List.flatten_cons, List.flatten_cons] at hin
    have hchg : Complete chg := ha.items chg (by simp)
    have hlies := hin.right.left
    obtain ⟨c, tl, rfl⟩ := hchg.exists_cons
    refine ⟨.skip [.battery v (charging (c :: tl))], ?_, List.mem_singleton_self _⟩
    rw [sensorCase, if_neg (by decide), if_pos rfl, e, ok_bind]
    dsimp only
    rw [if_neg (by simp), hv.reads hin.left, ok_bind]
    dsimp only
    rw [if_pos hlies.lt, byteAt_of_some hlies.byte, ok_bind, charging_cons hchg]
  | location ha h1 h2 h3 h4 h5 h6 hr =>
    obtain ⟨o, e, hin⟩ := ha.reads_short hl
    simp only [List.flatten_cons] at hin
    refine ⟨.skip [_], ?_, List.mem_singleton_self _⟩
    rw [sensorCase, if_neg (by decide), if_neg (by decide), if_pos rfl, e, ok_bind]
    dsimp only
    rw [if_neg (by simp), locationReading_short hin h1 h2 h3 h4 h5 h6 hr, ok_bind]
  | magnetic ha hx hy hz =>
    obtain ⟨o, e, hin⟩ := ha.reads_short hl
    simp only [List.flatten_cons] at hin
    refine ⟨.skip [_], ?_, List.mem_singleton_self _⟩
    rw [sensorCase, if_neg (by decide), if_neg (by decide), if_neg (by decide), if_pos rfl, e,
      ok_bind]
    dsimp only
    rw [if_neg (by simp), hx.reads hin.left, ok_bind]
    dsimp only
    rw [hy.reads hin.right.left, ok_bind]
    dsimp only
    rw [hz.reads hin.right.right.left, ok_bind]

/-- What is written is what a value with such headers stands for. -/
lemma Reads.short_of_mem (h : Reads K sid raw r) (hl : Lies data off raw)
    (he : sensorCase data sid off = .ok e) (hr : r ∈ e.readings) : Reads Short sid raw r := by
  cases h with
  | time h => exact .time h
  | pressure h => exact .pressure h
  | temperature h => exact .temperature h
  | humidity h => exact .humidity h
  | battery ha hv =>
    cases ha.reads hl with
    | inl ha => exact .battery ha.1 hv
    | inr e1 =>
      rw [sensorCase, if_neg (by decide), if_pos rfl, e1, ok_bind] at he
      cases he
      cases hr
  | location ha h1 h2 h3 h4 h5 h6 hrange =>
    cases ha.reads hl with
    | inl ha =>
      obtain ⟨ha, o, e1, hin⟩ := ha
      simp only [List.flatten_cons] at hin
      rw [sensorCase, if_neg (by decide), if_neg (by decide), if_pos rfl, e1, ok_bind] at he
      dsimp only at he
      rw [if_neg (by simp)] at he
      obtain ⟨rs, e2, he⟩ := bind_ok he
      cases he
      obtain ⟨h1, h2, h3, h4, h5, h6⟩ :=
        short_of_locationReading hin h1 h2 h3 h4 h5 h6 e2 (List.ne_nil_of_mem hr)
      exact .location ha h1 h2 h3 h4 h5 h6 hrange
    | inr e1 =>
      rw [sensorCase, if_neg (by decide), if_neg (by decide), if_pos rfl, e1, ok_bind] at he
      cases he
      cases hr
  | magnetic ha hx hy hz =>
    cases ha.reads hl with
    | inl ha => exact .magnetic ha.1 hx hy hz
    | inr e1 =>
      rw [sensorCase, if_neg (by decide), if_neg (by decide), if_neg (by decide), if_pos rfl, e1,
        ok_bind] at he
      cases he
      cases hr

lemma Reads.sid_eq (h : Reads K sid raw r) : r.sid = sid := by
  cases h <;> rfl

/-- A battery whose percentage is no number leaves the walk. -/
lemma sensorCase_battery_abort (ha : IsArray Short raw (pct :: chg :: items))
    (hn : ∀ v, ¬ Numeral pct v) (hl : Lies data off raw) :
    sensorCase data SID_BATTERY off = .ok .abort := by
  obtain ⟨o, e, hin⟩ := ha.reads_short hl
  rw [List.flatten_cons] at hin
  have hpct : Complete pct := ha.items pct (by simp)
  rw [sensorCase, if_neg (by decide), if_pos rfl, e, ok_bind]
  dsimp only
  rw [if_neg (by simp), readNumber_none hpct hn hin.left, ok_bind]

/-- The values that leave the walk. -/
lemma stops_of_abort (hsid : sidOf p.key = some sid) (hc : Complete p.value)
    (hl : Lies data off p.value) (h : sensorCase data sid off = .ok .abort) : p.Stops := by
  have ho : off ≤ data.length := (Nat.le_add_right _ _).trans hl.le
  obtain ⟨e, he, hof⟩ := @sensorCase_total data off sid hl.small ho
  rw [h, Except.ok.injEq] at he
  cases hof.abort he.symm with
  | inl ht =>
    subst ht
    refine .time hsid fun v hv => ?_
    rw [sensorCase_time hv hl] at h
    cases h
  | inr hb =>
    subst hb
    rw [sensorCase, if_neg (by decide), if_pos rfl] at h
    obtain ⟨⟨_ | n, o⟩, e, -⟩ := arrayHeader_within hl.small ho <;> rw [e, ok_bind] at h
    · cases h
    dsimp only at h
    obtain ⟨items, rfl, ha⟩ := isArray_of_arrayHeader hc hl e
    split at h
    next => cases h
    next hlen =>
      obtain ⟨pct, rest, rfl⟩ := List.exists_cons_of_length_pos (show 0 < items.length by omega)
      rw [List.length_cons] at hlen
      obtain ⟨chg, items, rfl⟩ := List.exists_cons_of_length_pos (show 0 < rest.length by omega)
      refine .battery hsid ha fun v hv => ?_
      obtain ⟨o', e', hin⟩ := ha.reads_short hl
      rw [e, Except.ok.injEq, Prod.mk.injEq] at e'
      rw [← e'.2, List.flatten_cons] at hin
      rw [hv.reads hin.left, ok_bind] at h
      dsimp only at h
      split at h
      next =>
        obtain ⟨b, -, h⟩ := bind_ok h
        cases h
      next => cases h

end switch

end readers

/-! ### The walk -/

section walk
variable {data hdr : Bytes} {off n fuel : Nat} {p : Pair} {ps : List Pair} {out : List Reading}

/-- A key is read as the sensor id that it is recognised as. -/
lemma sensorKey_of {key : Bytes} (hc : Complete key) (hl : Lies data off key) :
    sensorKey data off = .ok ((sidOf key).map fun sid => (sid, off + key.length)) := by
  obtain ⟨t, bs, rfl⟩ := hc.exists_cons
  have hsz : MsgPack.sz (off + 1) = off + 1 := hl.sz (Nat.succ_le_succ (Nat.zero_le _))
  rw [sensorKey, byteAt_of_some hl.byte, ok_bind, hsz]
  dsimp only
  split
  next h =>
    have hb := List.length_eq_zero_iff.mp (hc.of_fixed ((tag_masks t).1.1 (.inl h)))
    subst hb
    rw [sidOf, if_pos h]
    rfl
  next h =>
    split
    next hcc =>
      obtain ⟨rfl, -⟩ := hcc
      obtain ⟨b, rfl⟩ := List.length_eq_one_iff.mp (hc.of_fixed (t := 0xCC) rfl)
      have hsz : MsgPack.sz (off + 1 + 1) = off + 1 + 1 := hl.tail.sz (Nat.le_succ 1)
      rw [byteAt_of_some hl.tail.byte, ok_bind, hsz]
      rfl
    next hcc =>
      have hnone : sidOf (t :: bs) = none := by
        cases bs with
        | nil => rw [sidOf, if_neg h]
        | cons b bs =>
          cases bs with
          | nil =>
            rw [sidOf, if_neg fun ht => hcc ⟨ht, ?_⟩]
            exact hl.tail.lt
          | cons c bs => rfl
      rw [hnone]
      rfl

/-- One entry of a map: what it writes, and whether the walk comes behind it. -/
lemma decodeLoop_pair (hk : Complete p.key) (hv : Complete p.value) (hl : Lies data off p.bytes)
    (hf : data.length < fuel) : ∃ rs : List Reading, (∀ r ∈ rs, sidOf p.key = some r.sid) ∧
      (∀ sid r, sidOf p.key = some sid → Reads Short sid p.value r → r ∈ rs) ∧
      (∀ K r, Reads K r.sid p.value r → r ∈ rs → Reads Short r.sid p.value r) ∧
      (p.Stops → decodeLoop fuel data (n + 1) off out = .ok (out ++ rs)) ∧
      (¬ p.Stops → decodeLoop fuel data (n + 1) off out =
        decodeLoop fuel data n (off + p.bytes.length) (out ++ rs)) := by
  have hkey := sensorKey_of hk hl.left
  have hval : Lies data (off + p.key.length) p.value := hl.right
  have hsmall := hl.small
  have hlt : off < data.length := by
    obtain ⟨t, bs, h⟩ := hk.exists_cons
    have hleft : Lies data off p.key := hl.left
    rw [h] at hleft
    exact hleft.lt
  have hend : off + p.bytes.length = off + p.key.length + p.value.length := by
    rw [Pair.bytes, List.length_append, Nat.add_assoc]
  have hle : off + p.key.length ≤ data.length := (Nat.le_add_right _ _).trans hval.le
  have hfuel : p.value.length < fuel := by
    have hle := hval.le
    omega
  rw [decodeLoop, if_pos hlt, hkey, ok_bind, hend]
  cases hsid : sidOf p.key with
  | none =>
    refine ⟨[], fun r hr => absurd hr List.not_mem_nil, (fun sid r h => by cases h),
      fun K r _ hr => absurd hr List.not_mem_nil, fun _ => by simp, fun h => absurd (.key hsid) h⟩
  | some sid =>
    obtain ⟨e, he, hof⟩ := @sensorCase_total data (off + p.key.length) sid hsmall hle
    refine ⟨e.readings, fun r hr => by rw [hof.readings r hr], ?_, ?_, ?_⟩
    · rintro sid' r ⟨⟩ h
      obtain ⟨e', he', hr⟩ := h.mem_readings hval
      rw [he, Except.ok.injEq] at he'
      rwa [he']
    · intro K r h hr
      rw [hof.readings r hr] at h ⊢
      exact h.short_of_mem hval he hr
    dsimp only [Option.map_some]
    rw [he, ok_bind]
    cases e with
    | abort =>
      have hstop : p.Stops := stops_of_abort hsid hv hval he
      exact ⟨fun _ => by simp [Ending.readings], fun h => absurd hstop h⟩
    | next rs o =>
      have ht := hof.next rs o rfl
      subst ht
      -- only a number gets here
      obtain ⟨v, hnum⟩ : ∃ v, Numeral p.value v := by
        by_contra hn
        rw [not_exists] at hn
        rw [sensorCase, if_pos rfl, readNumber_none hv hn hval, ok_bind] at he
        cases he
      rw [sensorCase_time hnum hval, Except.ok.injEq, Ending.next.injEq] at he
      obtain ⟨rfl, rfl⟩ := he
      refine ⟨fun h => ?_, fun _ => rfl⟩
      cases h with
      | key h =>
        rw [hsid] at h
        cases h
      | time _ h => exact absurd hnum (h v)
      | battery h =>
        rw [hsid] at h
        cases h
      | value h => exact absurd hsid h
    | skip rs =>
      have ht := hof.skip rs rfl
      dsimp only [Ending.readings]
      by_cases hknown : Element Known p.value
      · rw [skipElement_of_element (by omega) hknown hval.at_ hle hfuel, ok_bind]
        refine ⟨fun h => ?_, fun _ => rfl⟩
        cases h with
        | key h =>
          rw [hsid] at h
          cases h
        | time h =>
          rw [hsid, Option.some.injEq] at h
          exact absurd h ht
        | battery h ha hn =>
          rw [hsid, Option.some.injEq] at h
          subst h
          rw [sensorCase_battery_abort ha hn hval] at he
          cases he
        | value _ h => exact absurd hknown h
      · obtain ⟨o, e⟩ := skipElement_refuses (by omega) hv hknown hval.at_ hle hfuel
        rw [e, ok_bind]
        have hstop : p.Stops := by
          refine .value (fun h => ?_) hknown
          rw [hsid, Option.some.injEq] at h
          exact ht h
        exact ⟨fun _ => rfl, fun h => absurd hstop h⟩

/-- The entries of a map: something is written of those in front of which no entry stops the walk,
and of those with headers that their readers know all is. -/
lemma decodeLoop_pairs (hk : ∀ p ∈ ps, Complete p.key) (hv : ∀ p ∈ ps, Complete p.value)
    (hl : Lies data off (ps.flatMap Pair.bytes)) (hf : data.length < fuel) :
    ∃ rs : List Reading, decodeLoop fuel data ps.length off out = .ok (out ++ rs) ∧
      (∀ r ∈ rs, ∃ pre p post, ps = pre ++ p :: post ∧ (∀ q ∈ pre, ¬ q.Stops) ∧
        sidOf p.key = some r.sid ∧
        ∀ K, Reads K r.sid p.value r → Reads Short r.sid p.value r) ∧
      (∀ pre p post sid r, ps = pre ++ p :: post → (∀ q ∈ pre, ¬ q.Stops) →
        sidOf p.key = some sid → Reads Short sid p.value r → r ∈ rs) := by
  induction ps generalizing off out with
  | nil =>
    refine ⟨[], by rw [List.append_nil]; rfl, nofun, ?_⟩
    intro pre p post sid r h
    simp at h
  | cons p ps ih =>
    rw [List.forall_mem_cons] at hk hv
    rw [List.flatMap_cons] at hl
    obtain ⟨rs, hsids, hin, hshort, hstop, hgo⟩ :=
      @decodeLoop_pair data off ps.length fuel p out hk.1 hv.1 hl.left hf
    have first : ∀ r ∈ rs, ∃ pre p' post, p :: ps = pre ++ p' :: post ∧ (∀ q ∈ pre, ¬ q.Stops) ∧
        sidOf p'.key = some r.sid ∧
        ∀ K, Reads K r.sid p'.value r → Reads Short r.sid p'.value r :=
      fun r hr => ⟨[], p, ps, rfl, nofun, hsids r hr, fun K h => hshort K r h hr⟩
    by_cases hs : p.Stops
    · refine ⟨rs, hstop hs, first, ?_⟩
      intro pre p' post sid r hps hpre hsid hr
      cases pre with
      | nil =>
        cases hps
        exact hin sid r hsid hr
      | cons q pre =>
        cases hps
        exact absurd hs (hpre p (List.mem_cons_self ..))
    · obtain ⟨rs', e, hthen, hin'⟩ := @ih (off + p.bytes.length) (out ++ rs) hk.2 hv.2 hl.right
      refine ⟨rs ++ rs', ?_, ?_, ?_⟩
      · rw [List.length_cons, hgo hs, e, List.append_assoc]
      · intro r hr
        cases List.mem_append.mp hr with
        | inl hr => exact first r hr
        | inr hr =>
          obtain ⟨pre, p', post, rfl, hpre, hsid, hread⟩ := hthen r hr
          exact ⟨p :: pre, p', post, rfl, List.forall_mem_cons.mpr ⟨hs, hpre⟩, hsid, hread⟩
      · intro pre p' post sid r hps hpre hsid hr
        rw [List.mem_append]
        cases pre with
        | nil =>
          cases hps
          exact .inl (hin sid r hsid hr)
        | cons q pre =>
          cases hps
          rw [List.forall_mem_cons] at hpre
          exact .inr (hin' pre p' post sid r rfl hpre.2 hsid hr)

end walk

/-! ### The whole map -/

section whole
variable {data hdr : Bytes} {ps pre post pre' post' : List Pair} {p p' : Pair} {sid : UInt8}
  {r : Reading} {n fuel : Nat}

/-- The buffer is a map in which `p`, between `pre` and `post`, is the only entry of its sensor, and
its value is well formed for that: it stands for `r`. -/
structure Stands (data hdr : Bytes) (pre : List Pair) (p : Pair) (post : List Pair)
    (r : Reading) : Prop where
  map : IsMap data hdr (pre ++ p :: post)
  key : sidOf p.key = some r.sid
  only : ∀ q ∈ pre ++ post, sidOf q.key ≠ some r.sid
  reads : Reads (fun _ => True) r.sid p.value r

/-- What is asked of the decoder on a buffer: it ends, reading inside the buffer, and every
well-formed entry of a well-formed map appears in what it writes. -/
structure Robust (data : Bytes) : Prop where
  ends : ∃ fuel out, decodeInto fuel data = .ok out
  shows : ∀ fuel out hdr pre p post r, decodeInto fuel data = .ok out →
    Stands data hdr pre p post r → r ∈ out

/-- No container in a value that the walk skips lies inside itself; and where the buffer is a
well-formed map with a well-formed entry, the map has no 32-bit count, no entry in front of that one
stops the walk, and its value has none but headers that its reader knows. -/
structure Walkable (data : Bytes) : Prop where
  unwound : Unwound data
  reached : ∀ hdr pre p post r, Stands data hdr pre p post r →
    hdr.head? ≠ some 0xDF ∧ (∀ q ∈ pre, ¬ q.Stops) ∧ Reads Short r.sid p.value r

/-- The header of a map, where `decode_into` knows it. -/
lemma mapHeader_of (h : MapHeader hdr n) (hl : Lies data 0 hdr) :
    mapHeader data = .ok (if hdr.head? = some 0xDF then none else some (n, hdr.length)) := by
  have hsmall := hl.small
  cases h with
  | @fixmap t ht =>
    have hdf : t ≠ 0xDF := by
      rintro rfl
      exact absurd ht (by decide)
    have hlt := hl.lt
    unfold mapHeader
    rw [if_neg (by omega), byteAt_of_some hl.byte, ok_bind, if_pos ht]
    simp [hdf]
  | @map16 len hlen =>
    have hle := hl.le
    rw [List.length_cons, hlen] at hle
    have hsize : u16 data 1 = .ok (be len) :=
      sizeAt_of_at (.inr (.inl rfl)) hlen hl.tail.at_ (by omega) (by omega)
    unfold mapHeader
    rw [if_neg (by omega), byteAt_of_some hl.byte, ok_bind, if_neg (by decide),
      if_pos ⟨rfl, by rw [sz_of_lt (by decide)]; omega⟩, hsize, ok_bind]
    simp [hlen]
  | map32 =>
    have hlt := hl.lt
    unfold mapHeader
    rw [if_neg (by omega), byteAt_of_some hl.byte, ok_bind, if_neg (by decide),
      if_neg fun h => absurd h.1 (by decide)]
    rfl

/-- An entry that is the only one of its kind stands at one place only. -/
lemma split_unique {P : Pair → Prop} (h : pre ++ p :: post = pre' ++ p' :: post') (hp : P p')
    (hn : ∀ q ∈ pre ++ post, ¬ P q) : pre' = pre ∧ p' = p := by
  induction pre generalizing pre' with
  | nil =>
    cases pre' with
    | nil =>
      cases h
      exact ⟨rfl, rfl⟩
    | cons q pre' =>
      cases h
      exact absurd hp (hn p' (by simp))
  | cons q pre ih =>
    cases pre' with
    | nil =>
      cases h
      exact absurd hp (hn p' (by simp))
    | cons q' pre' =>
      rw [List.cons_append, List.cons_append, List.cons.injEq] at h
      rw [List.cons_append, List.forall_mem_cons] at hn
      obtain ⟨rfl, rfl⟩ := ih h.2 hn.2
      exact ⟨by rw [h.1], rfl⟩

/-- The walk over a well-formed map: an entry is written exactly if the walk gets to it and its
reader knows its headers. -/
lemma Stands.mem_iff (h : Stands data hdr pre p post r) (hl : data.length < 2 ^ 31)
    (hf : data.length < fuel) {out : List Reading} (ho : decodeInto fuel data = .ok out) :
    r ∈ out ↔
      hdr.head? ≠ some 0xDF ∧ (∀ q ∈ pre, ¬ q.Stops) ∧ Reads Short r.sid p.value r := by
  have hlies : Lies data 0 (hdr ++ (pre ++ p :: post).flatMap Pair.bytes) := by
    rw [← h.map.eq]
    exact ⟨at_self, (Nat.zero_add _).le, hl⟩
  rw [decodeInto, mapHeader_of h.map.header hlies.left, ok_bind] at ho
  by_cases hdf : hdr.head? = some 0xDF
  · rw [if_pos hdf] at ho
    cases ho
    exact iff_of_false List.not_mem_nil fun hn => hn.1 hdf
  · rw [if_neg hdf] at ho
    dsimp only at ho
    have hps := hlies.right
    rw [Nat.zero_add] at hps
    obtain ⟨rs, e, hmem, hin⟩ :=
      @decodeLoop_pairs data hdr.length fuel (pre ++ p :: post) [] h.map.keys h.map.values hps hf
    rw [e, List.nil_append, Except.ok.injEq] at ho
    subst ho
    constructor
    · intro hr
      obtain ⟨pre', p', post', heq, hpre, hsid, hread⟩ := hmem r hr
      obtain ⟨rfl, rfl⟩ := split_unique heq hsid h.only
      exact ⟨hdf, hpre, hread _ h.reads⟩
    · rintro ⟨-, hpre, hread⟩
      exact hin pre p post r.sid r rfl hpre h.key hread

/-- A time that is nil, in front of a battery of fifty percent. -/
def nilTime : Bytes := [0x82, 0x01, 0xC0, 0x04, 0x92, 0x32, 0xC3]

end whole

end URSupreme.Telemetry
