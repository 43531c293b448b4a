import Mathlib
import URSupreme.Lib.Bytes

/-!
# The MAX-M10 driver

The UBX side of the GNSS receiver, `Sensors/Position/MaxM10.h`: frames are built by `send_frame` and
taken out of the receiver's stream, byte by byte, by `consume_byte`; what is no frame is passed on
to the NMEA parser. A write behind the payload buffer has no result.
-/

namespace URSupreme.MaxM10
open Lib

def CLS_NAV : UInt8 := 0x01
def ID_NAV_PVT : UInt8 := 0x07
def CLS_MON : UInt8 := 0x0A
def ID_MON_VER : UInt8 := 0x04
def ID_MON_RF : UInt8 := 0x38
def CLS_CFG : UInt8 := 0x06
def ID_CFG_VALSET : UInt8 := 0x8A
def CLS_ACK : UInt8 := 0x05
def ID_ACK_NAK : UInt8 := 0x00
def ID_ACK_ACK : UInt8 := 0x01
def CLS_RXM : UInt8 := 0x02
def ID_RXM_PMREQ : UInt8 := 0x41

def KEY_MSGOUT_NAV_PVT_UART1 : Nat := 0x20910007
def KEY_MSGOUT_MON_RF_UART1 : Nat := 0x2091035a
def KEY_ITFM_ENABLE : Nat := 0x1041000d
def MON_RF_RATE : UInt8 := 5
def KEY_PM_OPERATEMODE : Nat := 0x20d00001
def KEY_PM_POSUPDATEPERIOD : Nat := 0x40d00002
def KEY_PM_ACQPERIOD : Nat := 0x40d00003
def PM_FULL : UInt8 := 0
def PM_PSMOO : UInt8 := 1
def VALSET_LAYERS : UInt8 := 0x03
def PSMOO_MIN_PERIOD_S : Nat := 5
def PSMOO_ACQ_PERIOD_S : Nat := 60
def PMREQ_FLAG_BACKUP : Nat := 2
def PMREQ_FLAG_FORCE : Nat := 4
def PMREQ_WAKEUP_UARTRX : Nat := 8

/-- The size of `payload`. -/
def PAYLOAD_SIZE : Nat := 96

/-- The state of the deframer. -/
inductive S where
  | sync1
  | sync2
  | cls
  | id
  | len1
  | len2
  | payload
  | skip
  | ckA
  | ckB
  deriving DecidableEq

/-- The payload buffer. -/
abbrev Buffer := { b : Bytes // b.length = PAYLOAD_SIZE }

/-- `payload[i] = b`. -/
def Buffer.write (p : Buffer) (i : Nat) (b : UInt8) : Option Buffer :=
  if i < PAYLOAD_SIZE then some ⟨p.1.set i b, (List.length_set ..).trans p.2⟩ else none

/-- `payload[i]`. -/
def Buffer.read (p : Buffer) (i : Nat) : UInt8 := p.1.getD i 0

/-- `Frame`. -/
structure Frame where
  st : S := .sync1
  cls : UInt8 := 0
  id : UInt8 := 0
  len : UInt16 := 0
  got : UInt16 := 0
  ckA : UInt8 := 0
  ckB : UInt8 := 0
  wantA : UInt8 := 0
  wantB : UInt8 := 0
  payload : Buffer := ⟨List.replicate PAYLOAD_SIZE 0, List.length_replicate⟩

/-- `ck`, on the two sums. -/
def ck (sums : UInt8 × UInt8) (b : UInt8) : UInt8 × UInt8 := (sums.1 + b, sums.2 + (sums.1 + b))

/-- `ck`. -/
def Frame.ck (f : Frame) (b : UInt8) : Frame :=
  { f with ckA := (MaxM10.ck (f.ckA, f.ckB) b).1, ckB := (MaxM10.ck (f.ckA, f.ckB) b).2 }

/-- The part of `Fix` that a NAV-PVT frame sets; the accuracies are in millimetres. -/
structure Accuracy where
  sats : UInt8 := 0
  haccMm : Nat := 0
  vaccMm : Nat := 0
  accValid : Bool := false
  deriving DecidableEq

/-- `RfStatus`. -/
structure RfStatus where
  valid : Bool := false
  jammingState : UInt8 := 0
  cwJam : UInt8 := 0
  antStatus : UInt8 := 0
  noisePerMs : Nat := 0
  agc : Nat := 0
  atMs : Nat := 0
  deriving DecidableEq

/-- What frames change: the fix, the RF status, the identification latch and the acknowledgement
counters. -/
structure Report where
  fix : Accuracy := {}
  rf : RfStatus := {}
  seenMonVer : Bool := false
  valsetAcks : Nat := 0
  valsetNaks : Nat := 0
  deriving DecidableEq

/-- The little-endian number of `n` bytes from an offset on. -/
def le (read : Nat → UInt8) (offset : Nat) : Nat → Nat
  | 0 => 0
  | n + 1 => (read offset).toNat + 256 * le read (offset + 1) n

/-- `_handle_mon_rf`. -/
def handleMonRf (read : Nat → UInt8) (len : Nat) (millis : Nat) (r : RfStatus) : RfStatus :=
  if len < 4 + 24 ∨ read 1 < 1 then r
  else
    { jammingState := read 5 &&& 0x03
      antStatus := read 6
      noisePerMs := le read 16 2
      agc := le read 18 2
      cwJam := read 20
      valid := true
      atMs := millis }

/-- `_handle_nav_pvt`. -/
def handleNavPvt (read : Nat → UInt8) (len : Nat) (f : Accuracy) : Accuracy :=
  if len < 92 then f
  else if read 20 ≥ 2 ∧ read 21 &&& 0x01 ≠ 0 then
    { sats := read 23, haccMm := le read 40 4, vaccMm := le read 44 4, accValid := true }
  else { f with accValid := false }

/-- What `consume_byte` does with a frame whose checksum is right. -/
def dispatch (cls id : UInt8) (len : Nat) (read : Nat → UInt8) (millis : Nat) (r : Report) :
    Report :=
  if cls = CLS_MON ∧ id = ID_MON_VER then { r with seenMonVer := true }
  else if cls = CLS_NAV ∧ id = ID_NAV_PVT ∧ len ≤ PAYLOAD_SIZE then
    { r with fix := handleNavPvt read len r.fix }
  else if cls = CLS_MON ∧ id = ID_MON_RF ∧ len ≤ PAYLOAD_SIZE then
    { r with rf := handleMonRf read len millis r.rf }
  else if cls = CLS_ACK ∧ len = 2 ∧ read 0 = CLS_CFG ∧ read 1 = ID_CFG_VALSET then
    if id = ID_ACK_ACK then { r with valsetAcks := (r.valsetAcks + 1) % 2 ^ 32 }
    else if id = ID_ACK_NAK then { r with valsetNaks := (r.valsetNaks + 1) % 2 ^ 32 }
    else r
  else r

/-- The deframer and what it reports. -/
structure Driver where
  frame : Frame := {}
  report : Report := {}

/-- The state behind the length. -/
def afterLen (len : UInt16) : S :=
  if len = 0 then .ckA else if len.toNat ≤ PAYLOAD_SIZE then .payload else .skip

/-- `consume_byte`: the driver, and whether the byte belongs to a frame. -/
def consumeByte (d : Driver) (millis : Nat) (b : UInt8) : Option (Driver × Bool) :=
  let f := d.frame
  match f.st with
  | .sync1 => if b = 0xB5 then some ({ d with frame := { f with st := .sync2 } }, true)
      else some (d, false)
  | .sync2 =>
    if b = 0x62 then some ({ d with frame := { f with st := .cls, ckA := 0, ckB := 0 } }, true)
    else some ({ d with frame := { f with st := .sync1 } }, false)
  | .cls => some ({ d with frame := { f.ck b with cls := b, st := .id } }, true)
  | .id => some ({ d with frame := { f.ck b with id := b, st := .len1 } }, true)
  | .len1 => some ({ d with frame := { f.ck b with len := b.toUInt16, st := .len2 } }, true)
  | .len2 =>
    let len := f.len ||| b.toUInt16 <<< 8
    some ({ d with frame := { f.ck b with len, got := 0, st := afterLen len } }, true)
  | .payload => do
    let payload ← f.payload.write f.got.toNat b
    some ({ d with frame := { f.ck b with
      payload
      got := f.got + 1
      st := if f.got + 1 ≥ f.len then .ckA else .payload } }, true)
  | .skip =>
    some ({ d with frame := { f.ck b with
      got := f.got + 1
      st := if f.got + 1 ≥ f.len then .ckA else .skip } }, true)
  | .ckA => some ({ d with frame := { f with wantA := b, st := .ckB } }, true)
  | .ckB =>
    some ({
      frame := { f with wantB := b, st := .sync1 }
      report :=
        if f.ckA = f.wantA ∧ f.ckB = b then
          dispatch f.cls f.id f.len.toNat f.payload.read millis d.report
        else d.report }, true)

/-- The bytes of a stream in turn, from the `n`-th on, each at its time; the bytes that belong to no
frame are passed on. -/
def feed (time : Nat → Nat) (n : Nat) : Bytes → Driver → Option (Driver × Bytes)
  | [], d => some (d, [])
  | b :: bs, d => do
    let (d, mine) ← consumeByte d (time n) b
    let (d, out) ← feed time (n + 1) bs d
    some (d, if mine then out else b :: out)

/-- A payload and its length. -/
abbrev Payload := { p : Bytes // p.length < 2 ^ 16 }

/-- `send_frame`. -/
def sendFrame (cls id : UInt8) (p : Payload) : Bytes :=
  let hdr : Bytes := [cls, id, UInt8.ofNat (p.1.length % 256), UInt8.ofNat (p.1.length / 256)]
  let sums := p.1.foldl ck (hdr.foldl ck (0, 0))
  [0xB5, 0x62] ++ hdr ++ p.1 ++ [sums.1, sums.2]

/-- The four bytes of a `uint32_t` in memory. -/
def u4 (n : Nat) : { b : Bytes // b.length = 4 } :=
  ⟨(beBytes 4 n).reverse, (List.length_reverse ..).trans (length_beBytes 4 n)⟩

/-- `poll_mon_ver`. -/
def pollMonVer : Bytes := sendFrame CLS_MON ID_MON_VER ⟨[], by decide⟩

/-- `wake`. -/
def wake : Bytes := [0xFF]

/-- `sleep_for`. -/
def sleepFor (durationMs : Nat) : Bytes :=
  sendFrame CLS_RXM ID_RXM_PMREQ
    ⟨[0, 0, 0, 0] ++ ((u4 durationMs).1 ++ ((u4 (PMREQ_FLAG_BACKUP ||| PMREQ_FLAG_FORCE)).1 ++
      (u4 PMREQ_WAKEUP_UARTRX).1)), by
      simp only [List.length_append, (u4 _).2]
      decide⟩

/-- `valset_u1`. -/
def valsetU1 (key : Nat) (value : UInt8) : Bytes :=
  sendFrame CLS_CFG ID_CFG_VALSET ⟨[0x00, VALSET_LAYERS, 0x00, 0x00] ++ ((u4 key).1 ++ [value]), by
    simp only [List.length_append, (u4 _).2, List.length_singleton]
    decide⟩

/-- `valset_u4`. -/
def valsetU4 (key value : Nat) : Bytes :=
  sendFrame CLS_CFG ID_CFG_VALSET
    ⟨[0x00, VALSET_LAYERS, 0x00, 0x00] ++ ((u4 key).1 ++ (u4 value).1), by
      simp only [List.length_append, (u4 _).2]
      decide⟩

/-- `on_identified`: the frames it writes. -/
def onIdentified : List Bytes :=
  [valsetU1 KEY_MSGOUT_NAV_PVT_UART1 1, valsetU1 KEY_MSGOUT_MON_RF_UART1 MON_RF_RATE,
    valsetU1 KEY_ITFM_ENABLE 1]

/-- `set_power`: the frames it writes. -/
def setPower (fullPower : Bool) (intervalS : Nat) : List Bytes :=
  if fullPower then [valsetU1 KEY_PM_OPERATEMODE PM_FULL]
  else
    [valsetU4 KEY_PM_POSUPDATEPERIOD
      (if intervalS < PSMOO_MIN_PERIOD_S then PSMOO_MIN_PERIOD_S else intervalS),
    valsetU4 KEY_PM_ACQPERIOD PSMOO_ACQ_PERIOD_S, valsetU1 KEY_PM_OPERATEMODE PM_PSMOO]

/-- A frame as it stands in a stream, with any checksum. -/
structure Ubx where
  cls : UInt8
  id : UInt8
  payload : Payload
  ckA : UInt8
  ckB : UInt8

/-- The bytes under the checksum: class, id, length and payload. -/
def Ubx.body (u : Ubx) : Bytes :=
  [u.cls, u.id, UInt8.ofNat (u.payload.1.length % 256), UInt8.ofNat (u.payload.1.length / 256)] ++
    u.payload.1

def Ubx.bytes (u : Ubx) : Bytes := [0xB5, 0x62] ++ u.body ++ [u.ckA, u.ckB]

/-- The Fletcher sums of a byte string: the sum of its bytes, and the sum of these sums. -/
def fletcher (bs : Bytes) : UInt8 × UInt8 := (bs.sum, (bs.inits.map List.sum).sum)

/-- The checksum is right. -/
def Ubx.Sound (u : Ubx) : Prop := (u.ckA, u.ckB) = fletcher u.body

instance (u : Ubx) : Decidable u.Sound := inferInstanceAs (Decidable (_ = _))

/-- A part of a stream: a frame, or a run of NMEA without the byte that starts a frame. -/
inductive Segment where
  | frame (u : Ubx)
  | nmea (bytes : { b : Bytes // 0xB5 ∉ b })

def Segment.bytes : Segment → Bytes
  | .frame u => u.bytes
  | .nmea bytes => bytes.1

/-- What of a segment is NMEA. -/
def Segment.passed : Segment → Bytes
  | .frame _ => []
  | .nmea bytes => bytes.1

/-- What a segment changes: a frame with a right checksum is read, at the time of its last byte. -/
def Segment.deliver (time : Nat → Nat) (n : Nat) (r : Report) : Segment → Report
  | .frame u =>
    if u.Sound then
      dispatch u.cls u.id u.payload.1.length (u.payload.1.getD · 0)
      (time (n + u.bytes.length - 1)) r
    else r
  | .nmea _ => r

/-- What the segments of a stream change, from the `n`-th byte on. -/
def deliverAll (time : Nat → Nat) (n : Nat) (r : Report) : List Segment → Report
  | [] => r
  | s :: segments => deliverAll time (n + s.bytes.length) (s.deliver time n r) segments

section
variable {time : Nat → Nat} {n i : Nat} {d : Driver} {f : Frame} {r : Report} {b : UInt8}
  {bs bs' : Bytes}

lemma feed_cons {mine : Bool} {d' : Driver} (h : consumeByte d (time n) b = some (d', mine)) :
    feed time n (b :: bs) d =
      (feed time (n + 1) bs d').map fun x => (x.1, if mine then x.2 else b :: x.2) := by
  rw [feed, h]
  dsimp only [Option.bind_eq_bind, Option.bind_some]
  cases feed time (n + 1) bs d' with
  | none => rfl
  | some x => rfl

/-- A stream in two parts. -/
lemma feed_append {out : Bytes} {d' : Driver} (h : feed time n bs d = some (d', out)) :
    feed time n (bs ++ bs') d =
      (feed time (n + bs.length) bs' d').map fun x => (x.1, out ++ x.2) := by
  induction bs generalizing n d out with
  | nil =>
    obtain ⟨rfl, rfl⟩ := Prod.mk.inj (Option.some.inj h)
    cases hf : feed time (n + 0) bs' d with
    | none =>
      rw [Nat.add_zero] at hf
      exact hf
    | some x =>
      rw [Nat.add_zero] at hf
      exact hf
  | cons b bs ih =>
    cases hc : consumeByte d (time n) b with
    | none =>
      rw [feed, hc] at h
      cases h
    | some x =>
      rw [feed_cons hc] at h
      obtain ⟨y, hy, he⟩ := Option.map_eq_some_iff.mp h
      obtain ⟨rfl, rfl⟩ := Prod.mk.inj he
      rw [List.cons_append, feed_cons hc, ih hy, List.length_cons, Nat.add_right_comm,
        Nat.add_assoc, Option.map_map]
      refine congrFun (congrArg Option.map (funext fun z => ?_)) _
      cases x.2 with
      | true => rfl
      | false => rfl

/-- The running checksum comes to the Fletcher sums. -/
lemma foldl_ck : bs.foldl ck (0, 0) = fletcher bs := by
  induction bs using List.reverseRecOn with
  | nil => rfl
  | append_singleton bs b ih =>
    have hinits : (bs ++ [b]).inits = bs.inits ++ [bs ++ [b]] := by
      rw [List.inits_append]
      rfl
    unfold fletcher at ih ⊢
    rw [List.foldl_append, ih, hinits, List.map_append, List.sum_append, List.sum_append]
    simp [ck]

/-- The two bytes of a length. -/
lemma len_bytes (hn : n < 2 ^ 16) :
    ((UInt8.ofNat (n % 256)).toUInt16 ||| (UInt8.ofNat (n / 256)).toUInt16 <<< 8).toNat = n := by
  have hlow : n % 256 < 256 := Nat.mod_lt n (by norm_num)
  have hhigh : n / 256 < 256 := by omega
  have h8 : (8 : UInt16).toNat % 16 = 8 := rfl
  have hshift : n / 256 * 2 ^ 8 % 2 ^ 16 = 2 ^ 8 * (n / 256) := by omega
  rw [UInt16.toNat_or, UInt16.toNat_shiftLeft, UInt8.toNat_toUInt16, UInt8.toNat_toUInt16,
    UInt8.toNat_ofNat_of_lt' hlow, UInt8.toNat_ofNat_of_lt' hhigh, h8, Nat.shiftLeft_eq, hshift,
    Nat.or_comm, ← Nat.two_pow_add_eq_or_of_lt hlow]
  omega

/-- The header of a frame. -/
lemma feed_header {c i l1 l2 : UInt8} (h : d.frame.st = .sync1) :
    feed time n [0xB5, 0x62, c, i, l1, l2] d =
      some ({ d with frame := { d.frame with
        st := afterLen (l1.toUInt16 ||| l2.toUInt16 <<< 8)
        cls := c
        id := i
        len := l1.toUInt16 ||| l2.toUInt16 <<< 8
        got := 0
        ckA := ([c, i, l1, l2].foldl ck (0, 0)).1
        ckB := ([c, i, l1, l2].foldl ck (0, 0)).2 } }, []) := by
  obtain ⟨⟨st, cls, id, len, got, ckA, ckB, wantA, wantB, payload⟩, report⟩ := d
  obtain rfl : st = .sync1 := h
  rfl

/-- A frame after some of its payload: the checksum has gone on, and what was buffered can be
read. -/
structure Grown (f f' : Frame) (bs : Bytes) : Prop where
  cls : f'.cls = f.cls
  id : f'.id = f.id
  len : f'.len = f.len
  sums : (f'.ckA, f'.ckB) = bs.foldl ck (f.ckA, f.ckB)

lemma read_write {p p' : Buffer} {k : Nat} (h : p.write k b = some p') :
    p'.read i = if i = k then b else p.read i := by
  unfold Buffer.write at h
  split at h
  next hk =>
    obtain rfl := Option.some.inj h
    unfold Buffer.read
    rw [List.getD_eq_getElem?_getD, List.getElem?_set]
    split
    next he =>
      subst he
      rw [if_pos (p.2.symm ▸ hk), if_pos rfl]
      rfl
    next hne => rw [if_neg (Ne.symm hne), List.getD_eq_getElem?_getD]
  next => cases h

lemma got_succ (h : f.got.toNat + (bs.length + 1) = f.len.toNat) :
    (f.got + 1).toNat = f.got.toNat + 1 := by
  have := f.len.toNat_lt
  rw [UInt16.toNat_add]
  have h1 : (1 : UInt16).toNat = 1 := rfl
  rw [h1]
  omega

/-- The state after a byte of the payload or of a part that is skipped. -/
lemma ge_len_iff (h : f.got.toNat + (bs.length + 1) = f.len.toNat) :
    f.got + 1 ≥ f.len ↔ bs = [] := by
  rw [ge_iff_le, UInt16.le_iff_toNat_le, got_succ h, ← List.length_eq_zero_iff]
  omega

lemma consume_payload {p : Buffer} {t : Nat} (hst : f.st = .payload)
    (hw : f.payload.write f.got.toNat b = some p) :
    consumeByte ⟨f, r⟩ t b = some (⟨{ f.ck b with
      payload := p
      got := f.got + 1
      st := if f.got + 1 ≥ f.len then .ckA else .payload }, r⟩, true) := by
  unfold consumeByte
  dsimp only
  rw [hst]
  dsimp only
  rw [hw]
  rfl

lemma consume_skip {t : Nat} (hst : f.st = .skip) :
    consumeByte ⟨f, r⟩ t b = some (⟨{ f.ck b with
      got := f.got + 1
      st := if f.got + 1 ≥ f.len then .ckA else .skip }, r⟩, true) := by
  unfold consumeByte
  dsimp only
  rw [hst]

variable (time n r) in
/-- A payload that fits is buffered. -/
lemma feed_payload (hne : bs ≠ []) (hst : f.st = .payload)
    (hlen : f.got.toNat + bs.length = f.len.toNat) (hfit : f.len.toNat ≤ PAYLOAD_SIZE) :
    ∃ f', feed time n bs ⟨f, r⟩ = some (⟨f', r⟩, []) ∧ f'.st = .ckA ∧ Grown f f' bs ∧
      ∀ i, f'.payload.read i = if f.got.toNat ≤ i ∧ i < f.len.toNat then bs.getD (i - f.got.toNat) 0
        else f.payload.read i := by
  induction bs generalizing n f with
  | nil => exact absurd rfl hne
  | cons b bs ih =>
    rw [List.length_cons] at hlen
    obtain ⟨p, hw⟩ : ∃ p, f.payload.write f.got.toNat b = some p := ⟨_, if_pos (by omega)⟩
    have hc := consume_payload (r := r) (t := time n) hst hw
    have hgot := got_succ hlen
    rw [feed_cons hc]
    by_cases hb : bs = []
    · subst hb
      rw [if_pos ((ge_len_iff hlen).mpr rfl)]
      refine ⟨_, rfl, rfl, ⟨rfl, rfl, rfl, rfl⟩, fun i => (read_write hw).trans ?_⟩
      rw [List.length_nil] at hlen
      by_cases hi : i = f.got.toNat
      · rw [if_pos hi, if_pos (by omega), hi, Nat.sub_self]
        rfl
      · rw [if_neg hi, if_neg (by omega)]
    · rw [if_neg fun h => hb ((ge_len_iff hlen).mp h)]
      generalize hf1 : ({ f.ck b with payload := p, got := f.got + 1, st := .payload } : Frame) = f1
      have hgot1 : f1.got.toNat = f.got.toNat + 1 := by
        rw [← hf1]
        exact hgot
      have hlen1 : f1.len = f.len := by rw [← hf1]; rfl
      have hread1 : ∀ i, f1.payload.read i = if i = f.got.toNat then b else f.payload.read i := by
        rw [← hf1]
        exact fun i => read_write hw
      obtain ⟨f', hf, hst', hgrown, hread⟩ := ih (n := n + 1) (f := f1) hb (by rw [← hf1])
        (by rw [hgot1, hlen1]; omega) (hlen1 ▸ hfit)
      refine ⟨f', ?_, hst', ⟨?_, ?_, hgrown.len.trans hlen1, ?_⟩, fun i => ?_⟩
      · rw [hf]
        rfl
      · rw [hgrown.cls, ← hf1]
        rfl
      · rw [hgrown.id, ← hf1]
        rfl
      · rw [hgrown.sums, List.foldl_cons, ← hf1]
        rfl
      · rw [hread, hgot1, hlen1, hread1]
        by_cases hi : i = f.got.toNat
        · rw [if_neg (by omega), if_pos hi, if_pos (by omega), hi, Nat.sub_self]
          rfl
        · by_cases hlt : f.got.toNat + 1 ≤ i ∧ i < f.len.toNat
          · obtain ⟨j, hj⟩ : ∃ j, i - f.got.toNat = j + 1 := ⟨i - f.got.toNat - 1, by omega⟩
            have hj' : i - (f.got.toNat + 1) = j := by omega
            rw [if_pos hlt, if_pos (by omega), hj, hj']
            rfl
          · rw [if_neg hlt, if_neg hi, if_neg (by omega)]

variable (time n r) in
/-- A payload that does not fit is skipped. -/
lemma feed_skip (hne : bs ≠ []) (hst : f.st = .skip)
    (hlen : f.got.toNat + bs.length = f.len.toNat) :
    ∃ f', feed time n bs ⟨f, r⟩ = some (⟨f', r⟩, []) ∧ f'.st = .ckA ∧ Grown f f' bs := by
  induction bs generalizing n f with
  | nil => exact absurd rfl hne
  | cons b bs ih =>
    rw [List.length_cons] at hlen
    have hc := consume_skip (r := r) (b := b) (t := time n) hst
    have hgot := got_succ hlen
    rw [feed_cons hc]
    by_cases hb : bs = []
    · subst hb
      rw [if_pos ((ge_len_iff hlen).mpr rfl)]
      exact ⟨_, rfl, rfl, rfl, rfl, rfl, rfl⟩
    · rw [if_neg fun h => hb ((ge_len_iff hlen).mp h)]
      generalize hf1 : ({ f.ck b with got := f.got + 1, st := .skip } : Frame) = f1
      have hgot1 : f1.got.toNat = f.got.toNat + 1 := by
        rw [← hf1]
        exact hgot
      have hlen1 : f1.len = f.len := by rw [← hf1]; rfl
      obtain ⟨f', hf, hst', hgrown⟩ := ih (n := n + 1) (f := f1) hb (by rw [← hf1])
        (by rw [hgot1, hlen1]; omega)
      refine ⟨f', ?_, hst', ⟨?_, ?_, hgrown.len.trans hlen1, ?_⟩⟩
      · rw [hf]
        rfl
      · rw [hgrown.cls, ← hf1]
        rfl
      · rw [hgrown.id, ← hf1]
        rfl
      · rw [hgrown.sums, List.foldl_cons, ← hf1]
        rfl

lemma le_congr {read read' : Nat → UInt8} {offset k len : Nat} (h : ∀ i < len, read i = read' i)
    (hk : offset + k ≤ len) : le read offset k = le read' offset k := by
  induction k generalizing offset with
  | zero => rfl
  | succ k ih =>
    rw [le, le, h offset (by omega), ih (by omega)]

lemma handleMonRf_congr {read read' : Nat → UInt8} {len t : Nat} {s : RfStatus}
    (h : ∀ i < len, read i = read' i) : handleMonRf read len t s = handleMonRf read' len t s := by
  unfold handleMonRf
  by_cases hlen : len < 4 + 24
  · rw [if_pos (Or.inl hlen), if_pos (Or.inl hlen)]
  · rw [h 1 (by omega), h 5 (by omega), h 6 (by omega), h 20 (by omega),
      le_congr (k := 2) h (by omega), le_congr (k := 2) h (by omega)]

lemma handleNavPvt_congr {read read' : Nat → UInt8} {len : Nat} {a : Accuracy}
    (h : ∀ i < len, read i = read' i) : handleNavPvt read len a = handleNavPvt read' len a := by
  unfold handleNavPvt
  by_cases hlen : len < 92
  · rw [if_pos hlen, if_pos hlen]
  · rw [h 20 (by omega), h 21 (by omega), h 23 (by omega), le_congr (k := 4) h (by omega),
      le_congr (k := 4) h (by omega)]

/-- A frame is read within its length only. -/
lemma dispatch_congr {read read' : Nat → UInt8} {cls id : UInt8} {len t : Nat}
    (h : len ≤ PAYLOAD_SIZE → ∀ i < len, read i = read' i) :
    dispatch cls id len read t r = dispatch cls id len read' t r := by
  by_cases hlen : len ≤ PAYLOAD_SIZE
  · have h' := h hlen
    unfold dispatch
    rw [handleNavPvt_congr h', handleMonRf_congr h']
    by_cases h2 : len = 2
    · rw [h' 0 (by omega), h' 1 (by omega)]
    · have hno : ∀ read : Nat → UInt8, ¬ (cls = CLS_ACK ∧ len = 2 ∧ read 0 = CLS_CFG ∧
          read 1 = ID_CFG_VALSET) := fun _ h => h2 h.2.1
      rw [if_neg (hno read), if_neg (hno read')]
  · have hno : ∀ read : Nat → UInt8, ¬ (cls = CLS_ACK ∧ len = 2 ∧ read 0 = CLS_CFG ∧
        read 1 = ID_CFG_VALSET) := fun _ h => hlen (h.2.1 ▸ by decide)
    have hnav : ¬ (cls = CLS_NAV ∧ id = ID_NAV_PVT ∧ len ≤ PAYLOAD_SIZE) := fun h => hlen h.2.2
    have hmon : ¬ (cls = CLS_MON ∧ id = ID_MON_RF ∧ len ≤ PAYLOAD_SIZE) := fun h => hlen h.2.2
    unfold dispatch
    rw [if_neg hnav, if_neg hnav, if_neg hmon, if_neg hmon, if_neg (hno read), if_neg (hno read')]

/-- The checksum bytes of a frame. -/
lemma feed_checksum {a : UInt8} (hst : f.st = .ckA) :
    feed time n [a, b] ⟨f, r⟩ = some (⟨{ f with wantA := a, wantB := b, st := .sync1 },
      if f.ckA = a ∧ f.ckB = b then
        dispatch f.cls f.id f.len.toNat f.payload.read (time (n + 1)) r
      else r⟩, []) := by
  obtain ⟨st, cls, id, len, got, ckA, ckB, wantA, wantB, payload⟩ := f
  obtain rfl : st = .ckA := hst
  rfl

variable (time n r) in
/-- The payload of a frame, from the state behind the length on. -/
lemma feed_body (hst : f.st = afterLen f.len) (hgot : f.got = 0) (hlen : bs.length = f.len.toNat) :
    ∃ f', feed time n bs ⟨f, r⟩ = some (⟨f', r⟩, []) ∧ f'.st = .ckA ∧ Grown f f' bs ∧
      (f.len.toNat ≤ PAYLOAD_SIZE → ∀ i < f.len.toNat, f'.payload.read i = bs.getD i 0) := by
  have h0 : f.got.toNat = 0 := by
    rw [hgot]
    rfl
  unfold afterLen at hst
  by_cases hne : bs = []
  · subst hne
    have hz : f.len = 0 := UInt16.toNat_inj.mp hlen.symm
    rw [if_pos hz] at hst
    refine ⟨f, rfl, hst, ⟨rfl, rfl, rfl, rfl⟩, fun _ i hi => ?_⟩
    rw [← hlen] at hi
    exact absurd hi (Nat.not_lt_zero i)
  · have hnz : f.len ≠ 0 := by
      intro hz
      rw [hz] at hlen
      exact hne (List.length_eq_zero_iff.mp hlen)
    rw [if_neg hnz] at hst
    by_cases hfit : f.len.toNat ≤ PAYLOAD_SIZE
    · rw [if_pos hfit] at hst
      obtain ⟨f', hf, hst', hgrown, hread⟩ :=
        feed_payload time n r hne hst (by omega) hfit
      refine ⟨f', hf, hst', hgrown, fun _ i hi => ?_⟩
      rw [hread, h0, if_pos ⟨Nat.zero_le i, hi⟩, Nat.sub_zero]
    · rw [if_neg hfit] at hst
      obtain ⟨f', hf, hst', hgrown⟩ := feed_skip time n r hne hst (by omega)
      exact ⟨f', hf, hst', hgrown, fun h => absurd h hfit⟩

lemma fletcher_body (u : Ubx) :
    u.payload.1.foldl ck ([u.cls, u.id, UInt8.ofNat (u.payload.1.length % 256),
      UInt8.ofNat (u.payload.1.length / 256)].foldl ck (0, 0)) = fletcher u.body := by
  rw [← List.foldl_append, ← foldl_ck]
  rfl

variable (time n) in
/-- A frame of a stream: nothing is passed on, and it is read when its checksum is right. -/
lemma feed_frame (u : Ubx) (h : d.frame.st = .sync1) :
    ∃ f', feed time n u.bytes d =
      some (⟨f', (Segment.frame u).deliver time n d.report⟩, []) ∧ f'.st = .sync1 := by
  have hlen := len_bytes u.payload.2
  obtain ⟨f', hf, hst', hgrown, hread⟩ := feed_body time (n + 6) d.report
    (f := { d.frame with
      st := afterLen ((UInt8.ofNat (u.payload.1.length % 256)).toUInt16 |||
        (UInt8.ofNat (u.payload.1.length / 256)).toUInt16 <<< 8)
      cls := u.cls
      id := u.id
      len := (UInt8.ofNat (u.payload.1.length % 256)).toUInt16 |||
        (UInt8.ofNat (u.payload.1.length / 256)).toUInt16 <<< 8
      got := 0
      ckA := ([u.cls, u.id, UInt8.ofNat (u.payload.1.length % 256),
        UInt8.ofNat (u.payload.1.length / 256)].foldl ck (0, 0)).1
      ckB := ([u.cls, u.id, UInt8.ofNat (u.payload.1.length % 256),
        UInt8.ofNat (u.payload.1.length / 256)].foldl ck (0, 0)).2 }) rfl rfl hlen.symm
  have hsums : (f'.ckA, f'.ckB) = fletcher u.body := hgrown.sums.trans (fletcher_body u)
  have hcls : f'.cls = u.cls := hgrown.cls
  have hid : f'.id = u.id := hgrown.id
  have hlen' : f'.len.toNat = u.payload.1.length := (congrArg UInt16.toNat hgrown.len).trans hlen
  have hbytes : u.bytes = [0xB5, 0x62, u.cls, u.id, UInt8.ofNat (u.payload.1.length % 256),
      UInt8.ofNat (u.payload.1.length / 256)] ++ (u.payload.1 ++ [u.ckA, u.ckB]) := by
    unfold Ubx.bytes Ubx.body
    rw [List.append_assoc, List.append_assoc]
    rfl
  have hend : n + u.bytes.length - 1 = n + 6 + u.payload.1.length + 1 := by
    rw [hbytes]
    simp only [List.length_append, List.length_cons, List.length_nil]
    omega
  have hsound : (f'.ckA = u.ckA ∧ f'.ckB = u.ckB) = u.Sound := by
    unfold Ubx.Sound
    rw [← hsums, Prod.mk.injEq, @eq_comm _ u.ckA, @eq_comm _ u.ckB]
  refine ⟨{ f' with wantA := u.ckA, wantB := u.ckB, st := .sync1 }, ?_, rfl⟩
  rw [hbytes, feed_append (feed_header h), List.length_cons, List.length_cons, List.length_cons,
    List.length_cons, List.length_cons, List.length_cons, List.length_nil, feed_append hf,
    feed_checksum hst']
  dsimp only [Option.map_some, List.nil_append, Segment.deliver]
  rw [hcls, hid, hlen', hend,
    dispatch_congr fun hfit i hi => hread (hlen.symm ▸ hfit) i (hlen.symm ▸ hi)]
  simp only [hsound]

/-- A run of NMEA is passed on. -/
lemma feed_nmea (hnot : 0xB5 ∉ bs) (h : d.frame.st = .sync1) : feed time n bs d = some (d, bs) := by
  induction bs generalizing n with
  | nil => rfl
  | cons b bs ih =>
    have hb : b ≠ 0xB5 := fun he => hnot (he ▸ List.mem_cons_self ..)
    have hc : consumeByte d (time n) b = some (d, false) := by
      unfold consumeByte
      dsimp only
      rw [h]
      dsimp only
      rw [if_neg hb]
    rw [feed_cons hc, ih fun hm => hnot (List.mem_cons_of_mem _ hm)]
    rfl

end

/-- Frames and NMEA in any order are taken apart: the NMEA is passed on, the deframer is back where
it started, no byte is written behind the payload buffer, and a frame is read exactly if its
checksum is right. -/
theorem feed_segments (time : Nat → Nat) (n : Nat) (segments : List Segment) (d : Driver)
    (h : d.frame.st = .sync1) :
    ∃ f, feed time n (segments.flatMap Segment.bytes) d =
      some (⟨f, deliverAll time n d.report segments⟩, segments.flatMap Segment.passed) ∧
      f.st = .sync1 := by
  induction segments generalizing n d with
  | nil => exact ⟨d.frame, rfl, h⟩
  | cons s segments ih =>
    have hone : ∃ f, feed time n s.bytes d = some (⟨f, s.deliver time n d.report⟩, s.passed) ∧
        f.st = .sync1 := by
      cases s with
      | frame u => exact feed_frame time n u h
      | nmea bytes => exact ⟨d.frame, feed_nmea bytes.2 h, h⟩
    obtain ⟨f, hf, hst⟩ := hone
    obtain ⟨f', hf', hst'⟩ := ih (n + s.bytes.length) ⟨f, s.deliver time n d.report⟩ hst
    refine ⟨f', ?_, hst'⟩
    rw [List.flatMap_cons, feed_append hf, hf']
    rfl

/-- What `send_frame` writes is a frame with a right checksum. -/
lemma sendFrame_eq (cls id : UInt8) (p : Payload) :
    ∃ u : Ubx, sendFrame cls id p = u.bytes ∧ u.Sound ∧ u.cls = cls ∧ u.id = id ∧
    u.payload = p := by
  let u : Ubx := ⟨cls, id, p, 0, 0⟩
  refine ⟨{ u with ckA := (fletcher u.body).1, ckB := (fletcher u.body).2 }, ?_, rfl, rfl, rfl, rfl⟩
  unfold sendFrame
  dsimp only
  rw [fletcher_body u]
  unfold Ubx.bytes Ubx.body
  rw [List.append_assoc]
  rfl

/-- **The demultiplexer.** From the initial state, any frames and runs of NMEA: the NMEA is passed
on in order, the deframer ends where it started, the payload buffer is never overrun, and only a
frame with a right checksum is read; what `send_frame` writes is such a frame. -/
theorem demultiplexes (time : Nat → Nat) (segments : List Segment) :
    (∃ f, feed time 0 (segments.flatMap Segment.bytes) {} =
        some (⟨f, deliverAll time 0 {} segments⟩, segments.flatMap Segment.passed) ∧
      f.st = .sync1) ∧
      (∀ u : Ubx, ∀ n d d' out, d.frame.st = .sync1 → feed time n u.bytes d = some (d', out) →
        d'.report ≠ d.report → (u.ckA, u.ckB) = fletcher u.body) ∧
      ∀ cls id p, ∃ u : Ubx, sendFrame cls id p = u.bytes ∧ u.Sound ∧ u.cls = cls ∧ u.id = id ∧
        u.payload = p :=
  ⟨feed_segments time 0 segments {} rfl,
    fun u n d d' out hst hfeed hne => by
      obtain ⟨f, hf, -⟩ := feed_frame time n u hst
      obtain ⟨rfl, -⟩ := Prod.mk.inj (Option.some.inj (hf.symm.trans hfeed))
      by_contra hs
      exact hne (if_neg hs),
    sendFrame_eq⟩

/-- A reply that identifies the receiver. -/
example : (Segment.frame ⟨CLS_MON, ID_MON_VER, ⟨[], by decide⟩, 0x0E, 0x34⟩).deliver (fun _ => 0) 0
    {} = { seenMonVer := true } := by
  decide

end URSupreme.MaxM10
