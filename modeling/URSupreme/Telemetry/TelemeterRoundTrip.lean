import URSupreme.Lib.Binary64
import URSupreme.Telemetry.TelemeterReads

/-!
# The telemeter round trip

What `pack` writes is one map of as many entries as its header declares, at most `MAX_PACKED` bytes
long, and `decode_into` gives back the readings that were packed and no others.
-/

namespace URSupreme.Telemetry
open Lib Lib.Wire MsgPack

/-- An entry of the map: its key, its value, and the members it is decoded to. -/
structure Entry where
  key : UInt8
  value : Bytes
  out : List Reading

def Entry.bytes (e : Entry) : Bytes := e.key :: e.value

/-- `decode_into` makes of the entry what is said of it. -/
structure Entry.Decodes (e : Entry) : Prop where
  key : e.key ≤ 0x7F
  element : Element Known e.value
  case : ∀ {data off}, Lies data off e.value →
    sensorCase data e.key off = .ok (.skip e.out) ∨
      sensorCase data e.key off = .ok (.next e.out (off + e.value.length))

section decoding
variable {data : Bytes} {off fuel n : Nat} {out : List Reading} {e : Entry} {es : List Entry}

/-- One entry of the map. -/
lemma decodeLoop_entry (he : e.Decodes) (h : Lies data off e.bytes) (hf : e.value.length < fuel) :
    decodeLoop fuel data (n + 1) off out =
      decodeLoop fuel data n (off + e.bytes.length) (out ++ e.out) := by
  have hv : Lies data (off + 1) e.value := h.tail
  have hkey : sensorKey data off = .ok (some (e.key, off + 1)) := by
    have hsz : sz (off + 1) = off + 1 := h.sz (Nat.succ_le_succ (Nat.zero_le _))
    rw [sensorKey, byteAt_of_some h.byte, ok_bind, hsz, if_pos he.key]
  have hskip : skipElement fuel data (off + 1) = .ok (true, off + 1 + e.value.length) := by
    have hsmall := h.small
    exact skipElement_of_element (by omega) he.element hv.at_
      ((Nat.le_add_right _ _).trans hv.le) hf
  have hend : off + e.bytes.length = off + 1 + e.value.length := by
    rw [Entry.bytes, List.length_cons]
    omega
  rw [decodeLoop, if_pos h.lt, hkey, ok_bind, hend]
  rcases he.case hv with hcase | hcase
  · dsimp only
    rw [hcase, ok_bind]
    dsimp only
    rw [hskip, ok_bind]
    rfl
  · dsimp only
    rw [hcase, ok_bind]

/-- All the entries of the map. -/
lemma decodeLoop_entries (hes : ∀ e ∈ es, e.Decodes) (h : Lies data off (es.flatMap Entry.bytes))
    (hf : data.length < fuel) :
    decodeLoop fuel data es.length off out = .ok (out ++ es.flatMap Entry.out) := by
  induction es generalizing off out with
  | nil =>
    rw [List.flatMap_nil, List.append_nil]
    rfl
  | cons e es ih =>
    obtain ⟨he, hes⟩ := List.forall_mem_cons.mp hes
    rw [List.flatMap_cons] at h
    have hlen := h.left.le
    rw [Entry.bytes, List.length_cons] at hlen
    rw [List.length_cons, decodeLoop_entry he h.left (by omega), ih hes h.right,
      List.flatMap_cons, List.append_assoc]

/-- The entries are that many pairs of complete elements. -/
lemma elements_of_entry_list (hes : ∀ e ∈ es, e.Decodes) :
    Elements Known (2 * es.length) (es.flatMap Entry.bytes) := by
  induction es with
  | nil => exact .nil
  | cons e es ih =>
    obtain ⟨he, hes⟩ := List.forall_mem_cons.mp hes
    have hkey : Element Known [e.key] := element_of_fixed (fixint_mask he.key) rfl
    have h := (hkey.append he.element).append (ih hes)
    rw [List.flatMap_cons, List.length_cons, Nat.mul_succ, Nat.add_comm]
    exact h

end decoding

/-! ## What is packed -/

section packing
variable {cap n m : Nat} {f g : Bytes → Option Bytes} {a b : Bytes}

/-- `f` writes the bytes `a`, at most `n` of them, where `n` bytes are left. -/
structure Emits (cap n : Nat) (f : Bytes → Option Bytes) (a : Bytes) : Prop where
  le : a.length ≤ n
  some_ : ∀ buf, buf.length + n ≤ cap → f buf = some (buf ++ a)

lemma Emits.bind (hf : Emits cap n f a) (hg : Emits cap m g b) :
    Emits cap (n + m) (fun buf => f buf >>= g) (a ++ b) where
  le := by
    rw [List.length_append]
    exact Nat.add_le_add hf.le hg.le
  some_ := by
    intro buf h
    have hle := hf.le
    have h1 := hf.some_ buf (by omega)
    have h2 := hg.some_ (buf ++ a) (by rw [List.length_append]; omega)
    rw [h1, Option.bind_eq_bind, Option.bind_some, h2, List.append_assoc]

/-- An item that is packed only if it is there. -/
lemma Emits.ite {c : Bool} (hf : Emits cap n f a) :
    Emits cap n (fun buf => if c then f buf else some buf) (if c then a else []) := by
  cases c with
  | true => exact hf
  | false => exact ⟨Nat.zero_le _, fun buf _ => congrArg some (List.append_nil buf).symm⟩

lemma emits_of {w : Nat → Option Bytes} (hle : a.length ≤ n)
    (h : ∀ room, n ≤ room → w room = some a) : Emits cap n (emit cap w) a where
  le := hle
  some_ := by
    intro buf hroom
    rw [emit, h _ (by omega)]
    rfl

lemma emits_key {k : UInt8} (hk : k ≤ 0x7F) : Emits cap 1 (emit cap (packUint8 · k)) [k] :=
  emits_of le_rfl fun room h => by
    rw [packUint8, if_neg (by omega), if_pos hk]

lemma emits_array {k : Nat} (hk : k ≤ 15) :
    Emits cap 1 (emit cap (packArrayHeader · k)) [0x90 ||| UInt8.ofNat k] :=
  emits_of le_rfl fun room h => by
    rw [packArrayHeader, if_pos hk, if_neg (by omega)]

lemma emits_float64 (bits : UInt64) :
    Emits cap 9 (emit cap (packFloat64 · bits)) (0xCB :: beBytes 8 bits.toNat) :=
  emits_of le_rfl fun room h => if_neg (by omega)

lemma emits_bool (v : Bool) : Emits cap 1 (emit cap (packBool · v)) [if v then 0xC3 else 0xC2] :=
  emits_of le_rfl fun room h => if_neg (by omega)

lemma emits_bin (v width : Nat) :
    Emits cap (2 + width) (emit cap (packBeBin · v width))
      (0xC4 :: UInt8.ofNat width :: beBytes width v) :=
  emits_of (by simp only [List.length_cons, length_beBytes]; omega)
    fun room h => if_neg (by omega)

/-- An integer takes at most 9 bytes. -/
lemma emits_int (v : Int64) : ∃ raw, Emits cap 9 (emit cap (packInt · v)) raw ∧
    IntForm v.toInt raw ∧ Element Known raw := by
  obtain ⟨raw, hraw, hform⟩ := packInt_form v (le_refl 9)
  refine ⟨raw, emits_of hform.length_le fun room h => ?_, hform, element_of_packInt hraw⟩
  rw [packInt_room h, hraw]

end packing

section entries
variable {cap : Nat} {raw last : Bytes} {v : Int} {batt : Snapshot} {fix : Fix} {mag : Magnetic}
  {bits : UInt64} {now : Int64}

def timeEntry (raw : Bytes) (v : Int) : Entry := ⟨SID_TIME, raw, [.time (.int v)]⟩

lemma timeEntry_decodes (h : IntForm v raw) (he : Element Known raw) :
    (timeEntry raw v).Decodes where
  key := show SID_TIME ≤ 0x7F by decide
  element := he
  case hl := by
    refine .inr ?_
    change sensorCase _ SID_TIME _ = _
    rw [sensorCase, if_pos rfl, h.reads hl]
    rfl

def floatBytes (bits : UInt64) : Bytes := 0xCB :: beBytes 8 bits.toNat

lemma element_floatBytes : Element Known (floatBytes bits) :=
  element_of_fixed (k := 8) rfl (length_beBytes _ _)

lemma length_floatBytes : (floatBytes bits).length = 9 := by
  rw [floatBytes, List.length_cons, length_beBytes]

/-- A sensor with one number. -/
def floatEntry (sid : UInt8) (f : Number → Reading) (bits : UInt64) : Entry :=
  ⟨sid, floatBytes bits, [f (.float64 bits.toNat)]⟩

lemma floatEntry_decodes {sid : UInt8} {f : Number → Reading} (hk : sid ≤ 0x7F)
    (h : ∀ data off, sensorCase data sid off = numberReading data off f) :
    (floatEntry sid f bits).Decodes where
  key := hk
  element := element_floatBytes
  case hl := by
    refine .inl ?_
    change sensorCase _ sid _ = _
    rw [h, numberReading, readNumber_float64 hl]
    rfl

def batteryEntry (batt : Snapshot) : Entry where
  key := SID_BATTERY
  value := [0x93] ++ (floatBytes batt.percentBits ++
    ([if batt.state = .charging then 0xC3 else 0xC2] ++ [0xC0]))
  out := [.battery (.float64 batt.percentBits.toNat) (some (batt.state = .charging))]

/-- An element with a single byte. -/
lemma element_byte {b : UInt8} (h : classify b = .fixed 0) : Element Known [b] :=
  element_of_fixed h rfl

lemma batteryEntry_decodes : (batteryEntry batt).Decodes where
  key := show SID_BATTERY ≤ 0x7F by decide
  element := by
    have hbool : Element Known [if batt.state = .charging then (0xC3 : UInt8) else 0xC2] := by
      split
      · exact element_byte rfl
      · exact element_byte rfl
    have hin := (@element_floatBytes batt.percentBits).append
      (hbool.append (element_byte (b := 0xC0) rfl))
    have h := Elements.items (K := Known) (t := 0x93) (by decide) rfl hin .nil
    rwa [List.append_nil] at h
  case := by
    intro data off hl
    refine .inl ?_
    have h0 : arrayHeader data off = .ok (some 3, off + 1) := arrayHeader_of_lies rfl hl
    have hf : Lies data (off + 1) (floatBytes batt.percentBits ++
      ([if batt.state = .charging then 0xC3 else 0xC2] ++ [0xC0])) := hl.right
    have hnum := readNumber_float64 hf.left
    have hb := hf.right.left
    rw [length_floatBytes] at hb
    change sensorCase data SID_BATTERY off = _
    rw [sensorCase, if_neg (by decide), if_pos rfl, h0, ok_bind]
    dsimp only
    rw [if_neg (by decide), hnum, ok_bind]
    dsimp only
    rw [if_pos hb.lt, byteAt_of_some hb.byte, ok_bind, batteryEntry]
    by_cases hc : batt.state = .charging
    · simp only [hc, if_true]
      rfl
    · simp only [hc, if_false]
      rfl

def magEntry (mag : Magnetic) : Entry where
  key := SID_MAGNETIC_FIELD
  value := [0x93] ++ (floatBytes mag.x ++ (floatBytes mag.y ++ floatBytes mag.z))
  out := [.magnetic (.float64 mag.x.toNat) (.float64 mag.y.toNat) (.float64 mag.z.toNat)]

lemma magEntry_decodes : (magEntry mag).Decodes where
  key := show SID_MAGNETIC_FIELD ≤ 0x7F by decide
  element := by
    have hin := (@element_floatBytes mag.x).append
      ((@element_floatBytes mag.y).append (@element_floatBytes mag.z))
    have h := Elements.items (K := Known) (t := 0x93) (by decide) rfl hin .nil
    rwa [List.append_nil] at h
  case := by
    intro data off hl
    refine .inl ?_
    have h0 : arrayHeader data off = .ok (some 3, off + 1) := arrayHeader_of_lies rfl hl
    have hx : Lies data (off + 1) (floatBytes mag.x ++ (floatBytes mag.y ++ floatBytes mag.z)) :=
      hl.right
    have hy := hx.right
    rw [length_floatBytes] at hy
    have hz := hy.right
    rw [length_floatBytes] at hz
    change sensorCase data SID_MAGNETIC_FIELD off = _
    rw [sensorCase, if_neg (by decide), if_neg (by decide), if_neg (by decide), if_pos rfl, h0,
      ok_bind]
    dsimp only
    rw [if_neg (by decide), readNumber_float64 hx.left, ok_bind]
    dsimp only
    rw [readNumber_float64 hy.left, ok_bind]
    dsimp only
    rw [readNumber_float64 hz, ok_bind]
    rfl

def binBytes (width v : Nat) : Bytes := 0xC4 :: UInt8.ofNat width :: beBytes width v

lemma length_binBytes {width v : Nat} : (binBytes width v).length = 2 + width := by
  rw [binBytes, List.length_cons, List.length_cons, length_beBytes]
  omega

lemma element_binBytes {width v : Nat} (hw : width < 256) : Element Known (binBytes width v) := by
  have hbe : be [UInt8.ofNat width] = width := by
    simp only [be_cons, List.length_nil, pow_zero, mul_one, be_nil, Nat.add_zero,
      UInt8.toNat_ofNat']
    exact Nat.mod_eq_of_lt hw
  have h : Element Known (0xC4 :: ([UInt8.ofNat width] ++ (beBytes width v ++ []))) :=
    .sized (by decide) rfl rfl (by rw [length_beBytes, hbe]) .nil
  rw [List.append_nil] at h
  exact h

/-- The latitude and the longitude are degrees. -/
def Fix.InRange (fix : Fix) : Prop :=
  (-90000000 ≤ fix.latitude.toInt ∧ fix.latitude.toInt ≤ 90000000) ∧
    -180000000 ≤ fix.longitude.toInt ∧ fix.longitude.toInt ≤ 180000000

def locationEntry (fix : Fix) (last : Bytes) : Entry where
  key := SID_LOCATION
  value := [0x97] ++ (binBytes 4 (uint32 fix.latitude) ++ (binBytes 4 (uint32 fix.longitude) ++
    (binBytes 4 (uint32 fix.altitude) ++ (binBytes 4 (uint32 fix.speed) ++
      (binBytes 4 (uint32 fix.heading) ++ (binBytes 2 fix.accuracy.toNat ++ last))))))
  out := [.location fix.latitude.toInt fix.longitude.toInt fix.altitude.toInt fix.speed.toInt
    fix.heading.toInt fix.accuracy.toNat]

/-- A packed 32-bit integer is read back. -/
lemma readBeBin_int32 {data : Bytes} {off : Nat} {i : Int32}
    (h : Lies data off (binBytes 4 (uint32 i))) :
    readBeBin data off 4 = .ok (some i.toInt, off + 6) := by
  have hlt : uint32 i < 256 ^ 4 := i.toUInt32.toNat_lt
  rw [readBeBin_of_lies (by decide) h (length_beBytes _ _), be_beBytes hlt, if_pos rfl,
    signed_uint32]

lemma readBeBin_uint16 {data : Bytes} {off : Nat} {i : UInt16}
    (h : Lies data off (binBytes 2 i.toNat)) :
    readBeBin data off 2 = .ok (some (i.toNat : Int), off + 4) := by
  have hlt : i.toNat < 256 ^ 2 := i.toNat_lt
  rw [readBeBin_of_lies (by decide) h (length_beBytes _ _), be_beBytes hlt, if_neg (by decide)]

lemma locationEntry_decodes (hr : fix.InRange) (he : Element Known last) :
    (locationEntry fix last).Decodes where
  key := show SID_LOCATION ≤ 0x7F by decide
  element := by
    have h4 : ∀ v, Element Known (binBytes 4 v) := fun v => element_binBytes (by decide)
    have h2 : ∀ v, Element Known (binBytes 2 v) := fun v => element_binBytes (by decide)
    have hin := (h4 (uint32 fix.latitude)).append ((h4 (uint32 fix.longitude)).append
      ((h4 (uint32 fix.altitude)).append ((h4 (uint32 fix.speed)).append
        ((h4 (uint32 fix.heading)).append ((h2 fix.accuracy.toNat).append he)))))
    have h := Elements.items (K := Known) (t := 0x97) (by decide) rfl hin .nil
    rwa [List.append_nil] at h
  case := by
    intro data off hl
    refine .inl ?_
    have h0 : arrayHeader data off = .ok (some 7, off + 1) := arrayHeader_of_lies rfl hl
    have hla := hl.right
    have hlo := hla.right
    have halt := hlo.right
    have hspd := halt.right
    have hbrg := hspd.right
    have hacc := hbrg.right
    simp only [length_binBytes] at hlo halt hspd hbrg hacc
    have hread : locationReading data (off + 1) = .ok (locationEntry fix last).out := by
      have h1 : readBeBin data (off + 1) 4 = _ := readBeBin_int32 hla.left
      have h2 : readBeBin data (off + 1 + 6) 4 = _ := readBeBin_int32 hlo.left
      have h3 : readBeBin data (off + 1 + 6 + 6) 4 = _ := readBeBin_int32 halt.left
      have h4 : readBeBin data (off + 1 + 6 + 6 + 6) 4 = _ := readBeBin_int32 hspd.left
      have h5 : readBeBin data (off + 1 + 6 + 6 + 6 + 6) 4 = _ := readBeBin_int32 hbrg.left
      have h6 : readBeBin data (off + 1 + 6 + 6 + 6 + 6 + 6) 2 = _ := readBeBin_uint16 hacc.left
      simp only [locationReading, h1, h2, h3, h4, h5, h6, ok_bind]
      rw [if_pos ⟨hr.1.1, hr.1.2, hr.2.1, hr.2.2⟩]
      rfl
    change sensorCase data SID_LOCATION off = _
    rw [sensorCase, if_neg (by decide), if_neg (by decide), if_pos rfl, h0, ok_bind]
    dsimp only
    rw [if_neg (by decide), hread, ok_bind]

/-! ## The packers of the items -/

lemma packTime_emits : ∃ raw, Emits cap 10 (packTime cap now) (timeEntry raw now.toInt).bytes ∧
    (timeEntry raw now.toInt).Decodes := by
  obtain ⟨raw, hraw, hform, he⟩ := @emits_int cap now
  have hkey : SID_TIME ≤ 0x7F := by decide
  exact ⟨raw, (emits_key hkey).bind hraw, timeEntry_decodes hform he⟩

lemma packBattery_emits : Emits cap 13 (packBattery cap batt) (batteryEntry batt).bytes := by
  have hkey : SID_BATTERY ≤ 0x7F := by decide
  have hnil : Emits cap 1 (fun buf => if buf.length ≥ cap then none else some (buf ++ [0xC0]))
      [0xC0] := ⟨le_rfl, fun buf h => if_neg (by omega)⟩
  have harray := @emits_array cap 3 (by decide)
  have h := (emits_key hkey).bind (harray.bind ((emits_float64 batt.percentBits).bind
    ((emits_bool (batt.state = .charging)).bind hnil)))
  have hbytes : (batteryEntry batt).bytes = [SID_BATTERY] ++ ([0x90 ||| UInt8.ofNat 3] ++
      ((0xCB :: beBytes 8 batt.percentBits.toNat) ++
        ([if decide (batt.state = .charging) then 0xC3 else 0xC2] ++ [0xC0]))) := by
    simp only [decide_eq_true_eq]
    rfl
  rw [hbytes]
  exact h

lemma packMag_emits : Emits cap 29 (packMag cap mag) (magEntry mag).bytes := by
  have hkey : SID_MAGNETIC_FIELD ≤ 0x7F := by decide
  have harray := @emits_array cap 3 (by decide)
  exact (emits_key hkey).bind (harray.bind
    ((emits_float64 mag.x).bind ((emits_float64 mag.y).bind (emits_float64 mag.z))))

lemma packLocation_emits : ∃ last, Element Known last ∧
    Emits cap 45 (packLocation cap now fix) (locationEntry fix last).bytes := by
  obtain ⟨last, hlast, -, he⟩ := @emits_int cap (fix.unixEpoch.getD now)
  have hkey : SID_LOCATION ≤ 0x7F := by decide
  have harray := @emits_array cap 7 (by decide)
  have h := (emits_key hkey).bind (harray.bind ((emits_bin (uint32 fix.latitude) 4).bind
    ((emits_bin (uint32 fix.longitude) 4).bind ((emits_bin (uint32 fix.altitude) 4).bind
      ((emits_bin (uint32 fix.speed) 4).bind ((emits_bin (uint32 fix.heading) 4).bind
        ((emits_bin fix.accuracy.toNat 2).bind hlast)))))))
  exact ⟨last, he, h⟩

def envEntries (env : Environment) : List Entry :=
  [floatEntry SID_PRESSURE .pressure env.pressure,
    floatEntry SID_TEMPERATURE .temperature env.temperature,
    floatEntry SID_HUMIDITY .humidity env.humidity]

lemma envEntries_decode {env : Environment} : ∀ e ∈ envEntries env, e.Decodes := by
  have h3 : (floatEntry SID_PRESSURE .pressure env.pressure).Decodes :=
    floatEntry_decodes (by decide) fun _ _ => rfl
  have h7 : (floatEntry SID_TEMPERATURE .temperature env.temperature).Decodes :=
    floatEntry_decodes (by decide) fun _ _ => rfl
  have h8 : (floatEntry SID_HUMIDITY .humidity env.humidity).Decodes :=
    floatEntry_decodes (by decide) fun _ _ => rfl
  simp only [envEntries, List.forall_mem_cons]
  exact ⟨h3, h7, h8, nofun⟩

lemma packEnv_emits {env : Environment} :
    Emits cap 30 (packEnv cap env) ((envEntries env).flatMap Entry.bytes) := by
  have h3 : SID_PRESSURE ≤ 0x7F := by decide
  have h7 : SID_TEMPERATURE ≤ 0x7F := by decide
  have h8 : SID_HUMIDITY ≤ 0x7F := by decide
  have h := (emits_key h3).bind ((emits_float64 env.pressure).bind ((emits_key h7).bind
    ((emits_float64 env.temperature).bind ((emits_key h8).bind
      (@emits_float64 cap env.humidity)))))
  exact h

end entries

/-! ## The whole map -/

section whole
variable {inc : Include} {r : Readings} {now : Int64}

/-- The members `decode_into` writes for what is packed. -/
def packed (inc : Include) (r : Readings) (now : Int64) : List Reading :=
  .time (.int now.toInt) ::
    ((if haveBattery inc r then
        [.battery (.float64 r.batt.percentBits.toNat) (some (r.batt.state = .charging))] else []) ++
      (if haveLocation inc r then
        [.location r.fix.latitude.toInt r.fix.longitude.toInt r.fix.altitude.toInt
          r.fix.speed.toInt r.fix.heading.toInt r.fix.accuracy.toNat] else []) ++
      (if haveMag inc r then
        [.magnetic (.float64 r.mag.x.toNat) (.float64 r.mag.y.toNat)
          (.float64 r.mag.z.toNat)] else []) ++
      (if haveEnv inc r then
        [.pressure (.float64 r.env.pressure.toNat),
          .temperature (.float64 r.env.temperature.toNat),
          .humidity (.float64 r.env.humidity.toNat)] else []))

/-- `(int64_t)v` of a number that was read as a double. -/
def jsonTime (v : Int) : Option Int := Binary64.truncate (Binary64.ofInt v)

/-- The entries that are packed. -/
def packedEntries (inc : Include) (r : Readings) (now : Int64) (raw last : Bytes) : List Entry :=
  timeEntry raw now.toInt ::
    ((if haveBattery inc r then [batteryEntry r.batt] else []) ++
      ((if haveLocation inc r then [locationEntry r.fix last] else []) ++
        ((if haveMag inc r then [magEntry r.mag] else []) ++
          (if haveEnv inc r then envEntries r.env else []))))

variable {raw last : Bytes}

lemma length_packedEntries : (packedEntries inc r now raw last).length = entries inc r := by
  unfold packedEntries entries
  cases haveBattery inc r <;> cases haveLocation inc r <;> cases haveMag inc r <;>
    cases haveEnv inc r <;> rfl

lemma out_packedEntries : (packedEntries inc r now raw last).flatMap Entry.out = packed inc r
    now := by
  unfold packedEntries packed
  cases haveBattery inc r <;> cases haveLocation inc r <;> cases haveMag inc r <;>
    cases haveEnv inc r <;> rfl

lemma forall_mem_ite {α : Type} {P : α → Prop} {c : Bool} {l : List α}
    (h : c = true → ∀ e ∈ l, P e) : ∀ e ∈ (if c then l else []), P e := by
  cases c with
  | true => exact h rfl
  | false => exact nofun

lemma packReadings_emits {cap : Nat} : ∃ raw last, Element Known last ∧
    (timeEntry raw now.toInt).Decodes ∧
    Emits cap 127 (packReadings cap inc r now)
      ((packedEntries inc r now raw last).flatMap Entry.bytes) := by
  obtain ⟨raw, hraw, ht⟩ := @packTime_emits cap now
  obtain ⟨last, hlast, hloc⟩ := @packLocation_emits cap r.fix now
  refine ⟨raw, last, hlast, ht, ?_⟩
  have h1 := @Emits.ite _ _ _ _ (haveBattery inc r) (@packBattery_emits cap r.batt)
  have h2 := @Emits.ite _ _ _ _ (haveLocation inc r) hloc
  have h3 := @Emits.ite _ _ _ _ (haveMag inc r) (@packMag_emits cap r.mag)
  have h4 := @Emits.ite _ _ _ _ (haveEnv inc r) (@packEnv_emits cap r.env)
  have h := hraw.bind (h1.bind (h2.bind (h3.bind h4)))
  have hbytes : (packedEntries inc r now raw last).flatMap Entry.bytes =
      (timeEntry raw now.toInt).bytes ++
        ((if haveBattery inc r then (batteryEntry r.batt).bytes else []) ++
          ((if haveLocation inc r then (locationEntry r.fix last).bytes else []) ++
            ((if haveMag inc r then (magEntry r.mag).bytes else []) ++
              (if haveEnv inc r then (envEntries r.env).flatMap Entry.bytes else [])))) := by
    unfold packedEntries
    cases haveBattery inc r <;> cases haveLocation inc r <;> cases haveMag inc r <;>
      cases haveEnv inc r <;> simp
  rw [hbytes]
  exact h

lemma packedEntries_decode (ht : (timeEntry raw now.toInt).Decodes)
    (hl : haveLocation inc r = true → r.fix.InRange) (he : Element Known last) :
    ∀ e ∈ packedEntries inc r now raw last, e.Decodes := by
  unfold packedEntries
  rw [List.forall_mem_cons, List.forall_mem_append, List.forall_mem_append,
    List.forall_mem_append]
  refine ⟨ht, forall_mem_ite fun _ => ?_, forall_mem_ite fun h => ?_, forall_mem_ite fun _ => ?_,
    forall_mem_ite fun _ => envEntries_decode⟩
  · exact List.forall_mem_singleton.mpr batteryEntry_decodes
  · exact List.forall_mem_singleton.mpr (locationEntry_decodes (hl h) he)
  · exact List.forall_mem_singleton.mpr magEntry_decodes

/-- A selection with a valid reading packs more than the time. -/
def HasReading (inc : Include) (r : Readings) : Prop :=
  haveBattery inc r = true ∨ haveLocation inc r = true ∨ haveEnv inc r = true ∨
    haveMag inc r = true

lemma entries_ne_one (h : HasReading inc r) : entries inc r ≠ 1 := by
  unfold entries
  rcases h with h | h | h | h
  all_goals
    rw [if_pos h]
    omega

lemma entries_le : entries inc r ≤ 7 := by
  unfold entries
  split <;> split <;> split <;> split <;> decide

/-- The header of a map of at most 7 entries. -/
lemma mapHeader_short {n : Nat} {body : Bytes} (hn : n ≤ 7) :
    mapHeader ((0x80 ||| UInt8.ofNat n) :: body) = .ok (some (n, 1)) := by
  have hmask : ∀ n ≤ 7, (0x80 ||| UInt8.ofNat n) &&& 0xF0 = 0x80 ∧
      ((0x80 ||| UInt8.ofNat n) &&& 0x0F).toNat = n := by decide
  obtain ⟨h1, h2⟩ := hmask n hn
  have h0 : byteAt ((0x80 ||| UInt8.ofNat n) :: body) 0 = .ok (0x80 ||| UInt8.ofNat n) := rfl
  rw [mapHeader, if_neg (by rw [List.length_cons]; omega), h0, ok_bind, if_pos h1, h2]

/-- `decode_into` on a map of entries. -/
lemma decodeInto_entries {es : List Entry} (hes : ∀ e ∈ es, e.Decodes) (hn : es.length ≤ 7)
    (hlen : (es.flatMap Entry.bytes).length ≤ 127) :
    decodeInto 129 ((0x80 ||| UInt8.ofNat es.length) :: es.flatMap Entry.bytes) =
      .ok (es.flatMap Entry.out) := by
  have hlies : Lies ((0x80 ||| UInt8.ofNat es.length) :: es.flatMap Entry.bytes) 1
      (es.flatMap Entry.bytes) := by
    refine ⟨⟨[], List.append_nil _⟩, ?_, ?_⟩
    · rw [List.length_cons, Nat.add_comm]
    · rw [List.length_cons]
      omega
  have hfuel : ((0x80 ||| UInt8.ofNat es.length) :: es.flatMap Entry.bytes).length < 129 := by
    rw [List.length_cons]
    omega
  rw [decodeInto, mapHeader_short hn, ok_bind]
  exact decodeLoop_entries hes hlies hfuel

/-- For every selection with a valid reading, and any two time stamps: `pack` into `MAX_PACKED`
bytes succeeds and stays inside them; what it writes is a map header and as many entries as that
declares; `decode_into` recovers the packed readings and no others; and the time it hands on is the
packed one whenever that is the integer part of a double. -/
theorem pack_decodes (hany : HasReading inc r)
    (hrange : haveLocation inc r = true → r.fix.InRange) :
    ∃ bs, pack MAX_PACKED inc r now = some bs ∧ bs.length ≤ MAX_PACKED ∧
      (∃ n, mapHeader bs = .ok (some (n, 1)) ∧ Elements Known (2 * n) (bs.drop 1)) ∧
      (∃ fuel, decodeInto fuel bs = .ok (packed inc r now)) ∧
      ∀ bits q, Binary64.value 11 52 bits = some q → Binary64.truncate q = some now.toInt →
        jsonTime now.toInt = some now.toInt := by
  obtain ⟨raw, last, hlast, ht, hemits⟩ := @packReadings_emits inc r now MAX_PACKED
  have hdec := packedEntries_decode ht hrange hlast
  have hcount := @length_packedEntries inc r now raw last
  have hle := @entries_le inc r
  have hout := @out_packedEntries inc r now raw last
  generalize packedEntries inc r now raw last = es at *
  have hroom : ([0x80 ||| UInt8.ofNat es.length] : Bytes).length + 127 ≤ MAX_PACKED := le_rfl
  have hhdr : emit MAX_PACKED (packMapHeader · es.length) [] =
      some [0x80 ||| UInt8.ofNat es.length] := by
    rw [emit, packMapHeader, if_pos (by omega), if_neg (by decide)]
    rfl
  refine ⟨(0x80 ||| UInt8.ofNat es.length) :: es.flatMap Entry.bytes, ?_, ?_,
    ⟨es.length, mapHeader_short (by omega), elements_of_entry_list hdec⟩,
    ⟨129, hout ▸ decodeInto_entries hdec (by omega) hemits.le⟩, fun bits q hq hq' => ?_⟩
  · rw [pack, if_neg (entries_ne_one hany), ← hcount, hhdr]
    exact hemits.some_ _ hroom
  · rw [List.length_cons]
    exact Nat.succ_le_succ hemits.le
  · -- an integer part is not rounded
    unfold jsonTime
    rw [Binary64.ofInt_truncate hq hq']
    exact Binary64.truncate_intCast now.le_toInt now.toInt_lt

theorem pack_decodes_battery :
    ∃ bs, pack MAX_PACKED {} ⟨⟨true, .charging, 50, 0x4049000000000000⟩,
        ⟨false, 0, 0, 0, 0, 0, 0, none⟩, ⟨false, false, 0, 0, 0⟩, ⟨false, 0, 0, 0⟩⟩ 1700000000 =
        some bs ∧ bs.length ≤ MAX_PACKED := by
  have h := @pack_decodes {} ⟨⟨true, .charging, 50, 0x4049000000000000⟩,
    ⟨false, 0, 0, 0, 0, 0, 0, none⟩, ⟨false, false, 0, 0, 0⟩, ⟨false, 0, 0, 0⟩⟩ 1700000000
    (.inl rfl) nofun
  obtain ⟨bs, hbs, hlen, -⟩ := h
  exact ⟨bs, hbs, hlen⟩

end whole

end URSupreme.Telemetry
