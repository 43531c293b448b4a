import URSupreme.Radio.TxRing

/-!
# LoRa frames

A packet goes on the air as one frame, or as two frames that share a sequence number, with a header
byte in front. This is `transmit` and `receive_callback` of `RNode_Firmware.ino`, with `endPacket`
succeeding. The receiver gets back what was sent from every state but those in which it takes the
first frame for something else, and for every size but the largest.
-/

namespace URSupreme.Radio
open Lib

def SINGLE_MTU : Nat := 255
def HEADER_L : Nat := 1
def FLAG_SPLIT : UInt8 := 0x01
def SEQ_UNSET : UInt8 := 0xFF

def isSplitPacket (header : UInt8) : Bool := header &&& FLAG_SPLIT ≠ 0

def packetSequence (header : UInt8) : UInt8 := header >>> 4

/-- The loop of `transmit`: the frame under way and its number of bytes. -/
def transmitLoop (header : UInt8) : Bytes → Bytes → Nat → List Bytes
  | [], frame, _ => [frame]
  | b :: tbuf, frame, written =>
    if written + 1 = 255 ∧ isSplitPacket header then
      (frame ++ [b]) :: transmitLoop header tbuf [header] 1
    else transmitLoop header tbuf (frame ++ [b]) (written + 1)

/-- The header of a packet, from a random byte. -/
def frameHeader (random : UInt8) (size : Nat) : UInt8 :=
  let header := random &&& 0xF0
  if size > SINGLE_MTU - HEADER_L then header ||| FLAG_SPLIT else header

/-- `transmit`: the frames for a packet. -/
def transmit (promisc : Bool) (random : UInt8) (tbuf : Bytes) : List Bytes :=
  if promisc then [tbuf.take SINGLE_MTU]
  else
    let header := frameHeader random tbuf.length
    transmitLoop header tbuf [header] 1

/-- The receiver: `pbuf` up to `read_len`, and the packets that went to the modem queue. -/
structure Receiver where
  seq : UInt8 := SEQ_UNSET
  pbuf : Bytes := []
  packetReady : Bool := false
  memoryLow : Bool := false
  delivered : List Bytes := []
  deriving DecidableEq, Repr

/-- `getPacketData`. -/
def Receiver.getPacketData (r : Receiver) (data : Bytes) : Receiver :=
  { r with pbuf := r.pbuf ++ data.take (MTU - r.pbuf.length) }

/-- The end of `receive_callback` for a packet that is complete. -/
def Receiver.ready (memory room : Bool) (r : Receiver) : Receiver :=
  if !memory then { r with memoryLow := true }
  else if room then { r with delivered := r.delivered ++ [r.pbuf], pbuf := [] }
  else { r with pbuf := [] }

/-- `receive_callback`; `memory` and `room` answer the allocation and the modem queue. -/
def receiveCallback (promisc memory room : Bool) (r : Receiver) : Bytes → Receiver
  | [] => r
  | header :: data =>
    if promisc then
      { { r with pbuf := [] }.getPacketData (header :: data) with packetReady := true }
    else if isSplitPacket header then
      if r.seq = SEQ_UNSET then
        { r with pbuf := [], seq := packetSequence header }.getPacketData data
      else if r.seq = packetSequence header then
        { r.getPacketData data with seq := SEQ_UNSET }.ready memory room
      else { r with pbuf := [], seq := packetSequence header }.getPacketData data
    else
      let r := if r.seq ≠ SEQ_UNSET then { r with pbuf := [], seq := SEQ_UNSET } else r
      (r.getPacketData data).ready memory room

/-- The frames of one packet come in, one after the other. -/
def Receiver.receive (r : Receiver) (frames : List Bytes) : Receiver :=
  frames.foldl (receiveCallback false true true) r

variable {r : Receiver} {random header : UInt8} {packet data frame : Bytes} {written : Nat}

/-- The low nibble of a header holds the flag alone. -/
lemma frameHeader_spec (random : UInt8) (size : Nat) :
    isSplitPacket (frameHeader random size) = decide (SINGLE_MTU - HEADER_L < size) ∧
      packetSequence (frameHeader random size) = packetSequence random := by
  have hbits : ∀ n : Fin 256, isSplitPacket (UInt8.ofNat n &&& 0xF0) = false ∧
      packetSequence (UInt8.ofNat n &&& 0xF0) = packetSequence (UInt8.ofNat n) ∧
      isSplitPacket (UInt8.ofNat n &&& 0xF0 ||| FLAG_SPLIT) = true ∧
      packetSequence (UInt8.ofNat n &&& 0xF0 ||| FLAG_SPLIT) =
        packetSequence (UInt8.ofNat n) := by decide +kernel
  obtain ⟨h1, h2, h3, h4⟩ := hbits ⟨random.toNat, random.toNat_lt⟩
  rw [UInt8.ofNat_toNat] at h1 h2 h3 h4
  unfold frameHeader
  dsimp only
  split
  next hs => exact ⟨h3.trans (decide_eq_true hs).symm, h4⟩
  next hs => exact ⟨h1.trans (decide_eq_false hs).symm, h2⟩

/-- A sequence number is never the mark for none. -/
lemma packetSequence_ne (header : UInt8) : packetSequence header ≠ SEQ_UNSET := by
  have hbits : ∀ n : Fin 256, packetSequence (UInt8.ofNat n) ≠ SEQ_UNSET := by decide +kernel
  have h := hbits ⟨header.toNat, header.toNat_lt⟩
  rwa [UInt8.ofNat_toNat] at h

/-- What still fits into the frame goes into it. -/
lemma transmitLoop_fits (h : isSplitPacket header = true → written + data.length < 255) :
    transmitLoop header data frame written = [frame ++ data] := by
  induction data generalizing frame written with
  | nil => rw [transmitLoop, List.append_nil]
  | cons b data ih =>
    rw [List.length_cons] at h
    have hb : ¬ (written + 1 = 255 ∧ isSplitPacket header = true) := fun ⟨e, hs⟩ => by
      have := h hs
      omega
    rw [transmitLoop, if_neg hb, ih fun hs => by have := h hs; omega]
    exact congrArg (fun l => [l]) (List.append_assoc frame [b] data)

/-- A split packet that does not fit fills the frame, and goes on with the next one. -/
lemma transmitLoop_full (hs : isSplitPacket header = true) (hw : written < 255)
    (h : 255 ≤ written + data.length) :
    transmitLoop header data frame written =
      (frame ++ data.take (255 - written)) ::
        transmitLoop header (data.drop (255 - written)) [header] 1 := by
  induction data generalizing frame written with
  | nil => exact absurd h (not_le.mpr hw)
  | cons b data ih =>
    rw [List.length_cons] at h
    by_cases e : written + 1 = 255
    · have e' : 255 - written = 1 := by omega
      rw [transmitLoop, if_pos ⟨e, hs⟩, e']
      rfl
    · have e' : 255 - written = 255 - (written + 1) + 1 := by omega
      rw [transmitLoop, if_neg fun h => e h.1, ih (by omega) (by omega), e', List.take_succ_cons,
        List.drop_succ_cons, List.append_assoc]
      rfl

/-- A short packet is one frame. -/
lemma transmit_short (h : packet.length ≤ SINGLE_MTU - HEADER_L) :
    transmit false random packet = [frameHeader random packet.length :: packet] := by
  refine transmitLoop_fits fun hs => ?_
  rw [(frameHeader_spec random packet.length).1] at hs
  exact absurd (of_decide_eq_true hs) (not_lt.mpr h)

/-- A longer packet fills one frame, and the rest goes into the next. -/
lemma transmit_long (h : SINGLE_MTU - HEADER_L < packet.length) (hmax : packet.length < MTU) :
    let header := frameHeader random packet.length
    transmit false random packet = [header :: packet.take 254, header :: packet.drop 254] := by
  have hs : isSplitPacket (frameHeader random packet.length) = true := by
    rw [(frameHeader_spec random packet.length).1]
    exact decide_eq_true h
  have h : 254 < packet.length := h
  have hmax : packet.length < 508 := hmax
  intro header
  show transmitLoop header packet [header] 1 = _
  rw [transmitLoop_full hs (by decide) (by omega), transmitLoop_fits]
  · rfl
  · intro _
    rw [List.length_drop]
    omega

/-- The largest packet fills two frames, and a header goes out in a third. -/
lemma transmit_max (h : packet.length = MTU) :
    let header := frameHeader random packet.length
    transmit false random packet =
      [header :: packet.take 254, header :: packet.drop 254, [header]] := by
  have hs : isSplitPacket (frameHeader random packet.length) = true := by
    rw [(frameHeader_spec random packet.length).1, h]
    rfl
  have hlen : (packet.drop 254).length = 254 := by
    rw [List.length_drop, h]
    rfl
  have hnil : (packet.drop 254).drop (255 - 1) = [] := List.drop_of_length_le hlen.le
  intro header
  show transmitLoop header packet [header] 1 = _
  rw [transmitLoop_full hs (by decide) (by rw [h]; decide),
    transmitLoop_full hs (by decide) (by rw [hlen]), transmitLoop_fits]
  · rw [List.take_of_length_le hlen.le, hnil]
    rfl
  · intro _
    rw [hnil]
    decide

/-- The receiver is not in the middle of a packet. -/
def Receiver.Idle (r : Receiver) : Prop := r.seq = SEQ_UNSET ∧ r.pbuf = []

/-- The frames for a packet fit into one transmission each and share a sequence number; they are one
for a short packet and two for a longer one. -/
structure WellFramed (packet : Bytes) (frames : List Bytes) : Prop where
  bounded : ∀ f ∈ frames, f.length ≤ 255
  count : frames.length = if packet.length ≤ 254 then 1 else 2
  sequence : ∃ n, ∀ f ∈ frames, ∃ header data, f = header :: data ∧ packetSequence header = n

/-- The frames for a packet bring it to a receiver once, and leave the receiver idle. -/
structure Delivers (r : Receiver) (random : UInt8) (packet : Bytes) : Prop where
  delivered : (r.receive (transmit false random packet)).delivered = r.delivered ++ [packet]
  idle : (r.receive (transmit false random packet)).Idle
  framed : WellFramed packet (transmit false random packet)

/-- The receiver takes the first frame for the start of the packet, and the frames end with it. -/
def Receives (r : Receiver) (random : UInt8) (packet : Bytes) : Prop :=
  if packet.length ≤ 254 then r.seq ≠ SEQ_UNSET ∨ r.pbuf = []
  else packet.length ≠ MTU ∧ r.seq ≠ packetSequence random

/-- A packet of one frame comes behind what is in the buffer, when no packet is half received. -/
lemma receiveCallback_single (h : isSplitPacket header = false) (hr : r.seq = SEQ_UNSET) :
    receiveCallback false true true r (header :: data) =
      { r with
        pbuf := [], delivered := r.delivered ++ [r.pbuf ++ data.take (MTU - r.pbuf.length)] } := by
  rw [receiveCallback, if_neg Bool.false_ne_true, if_neg (by rw [h]; exact Bool.false_ne_true)]
  dsimp only
  rw [if_neg (not_not.mpr hr)]
  rfl

/-- Half a packet is thrown away. -/
lemma receiveCallback_clear (h : isSplitPacket header = false) (hr : r.seq ≠ SEQ_UNSET) :
    receiveCallback false true true r (header :: data) =
      { r with seq := SEQ_UNSET, pbuf := [], delivered := r.delivered ++ [data.take MTU] } := by
  rw [receiveCallback, if_neg Bool.false_ne_true, if_neg (by rw [h]; exact Bool.false_ne_true)]
  dsimp only
  rw [if_pos hr]
  rfl

/-- The first frame of a packet with another sequence number. -/
lemma receiveCallback_first (h : isSplitPacket header = true) (hr : r.seq ≠ packetSequence header) :
    receiveCallback false true true r (header :: data) =
      { r with pbuf := data.take MTU, seq := packetSequence header } := by
  rw [receiveCallback, if_neg Bool.false_ne_true, if_pos h, if_neg hr]
  split <;> rfl

/-- The second frame of a packet. -/
lemma receiveCallback_second (h : isSplitPacket header = true)
    (hr : r.seq = packetSequence header) : receiveCallback false true true r (header :: data) =
      { r with
        seq := SEQ_UNSET, pbuf := []
        delivered := r.delivered ++ [r.pbuf ++ data.take (MTU - r.pbuf.length)] } := by
  have hne : r.seq ≠ SEQ_UNSET := fun e => packetSequence_ne header (hr.symm.trans e)
  rw [receiveCallback, if_neg Bool.false_ne_true, if_pos h, if_neg hne, if_pos hr]
  rfl

/-- A short packet arrives when there is nothing in front of it. -/
lemma delivers_short_iff (h : packet.length ≤ 254) :
    Delivers r random packet ↔ r.seq ≠ SEQ_UNSET ∨ r.pbuf = [] := by
  have hs : isSplitPacket (frameHeader random packet.length) = false := by
    rw [(frameHeader_spec random packet.length).1]
    exact decide_eq_false (not_lt.mpr h)
  have ht : transmit false random packet = _ := transmit_short h
  have hrec : r.receive (transmit false random packet) =
      receiveCallback false true true r (frameHeader random packet.length :: packet) := by
    rw [ht]
    rfl
  have hframed : WellFramed packet (transmit false random packet) := by
    rw [ht]
    refine ⟨fun f hf => ?_, (if_pos h).symm, packetSequence random, fun f hf => ?_⟩
    · rw [List.mem_singleton.mp hf]
      exact Nat.succ_le_succ h
    · exact ⟨_, _, List.mem_singleton.mp hf, (frameHeader_spec random packet.length).2⟩
  constructor
  · intro hd
    by_contra hn
    obtain ⟨hseq, hbuf⟩ := not_or.mp hn
    -- what was in the buffer makes the packet longer
    have e : r.delivered ++ [r.pbuf ++ packet.take (MTU - r.pbuf.length)] =
        r.delivered ++ [packet] := by
      rw [← hd.delivered, hrec, receiveCallback_single hs (not_not.mp hseq)]
    have e := congrArg List.length (List.singleton_inj.mp (List.append_cancel_left e))
    rw [List.length_append, List.length_take] at e
    have hpos := List.length_pos_iff.mpr hbuf
    have hmtu : MTU = 508 := rfl
    omega
  · intro hr
    have htake : packet.take MTU = packet := List.take_of_length_le (h.trans (by decide))
    suffices h' : r.receive (transmit false random packet) =
        { r with seq := SEQ_UNSET, pbuf := [], delivered := r.delivered ++ [packet] } by
      refine ⟨?_, ?_, hframed⟩
      · rw [h']
      · rw [h']
        exact ⟨rfl, rfl⟩
    rw [hrec]
    by_cases hseq : r.seq = SEQ_UNSET
    · have hbuf : r.pbuf = [] := hr.resolve_left (not_not.mpr hseq)
      have hnil : MTU - ([] : Bytes).length = MTU := rfl
      rw [receiveCallback_single hs hseq, hbuf, hnil, htake, hseq, List.nil_append]
    · rw [receiveCallback_clear hs hseq, htake]

/-- A longer packet arrives when no other packet with its sequence number is half received. -/
lemma delivers_long_iff (h : 254 < packet.length) (hmax : packet.length < MTU) :
    Delivers r random packet ↔ r.seq ≠ packetSequence random := by
  obtain ⟨hs, hseq⟩ := frameHeader_spec random packet.length
  rw [decide_eq_true (show SINGLE_MTU - HEADER_L < packet.length from h)] at hs
  have ht : transmit false random packet = _ := transmit_long h hmax
  have hframed : WellFramed packet (transmit false random packet) := by
    have hmtu : MTU = 508 := rfl
    rw [ht]
    refine ⟨fun f hf => ?_, (if_neg (not_le.mpr h)).symm, packetSequence random, fun f hf => ?_⟩
    · rcases List.mem_pair.mp hf with rfl | rfl
      · rw [List.length_cons, List.length_take]
        omega
      · rw [List.length_cons, List.length_drop]
        omega
    · rcases List.mem_pair.mp hf with rfl | rfl
      · exact ⟨_, _, rfl, hseq⟩
      · exact ⟨_, _, rfl, hseq⟩
  constructor
  · rintro hd hr
    -- the first frame ends the packet before, and the second one is left waiting
    have hidle := hd.idle.1
    rw [ht] at hidle
    unfold Receiver.receive at hidle
    rw [List.foldl_cons, List.foldl_cons, List.foldl_nil,
      receiveCallback_second hs (hr.trans hseq.symm),
      receiveCallback_first hs (packetSequence_ne _).symm] at hidle
    exact packetSequence_ne _ hidle
  · intro hr
    have hmtu : MTU = 508 := rfl
    have hfirst : (packet.take 254).take MTU = packet.take 254 := by
      rw [List.take_take]
      rfl
    have hlen : (packet.take 254).length = 254 := by
      rw [List.length_take]
      omega
    have hsecond : (packet.drop 254).take (MTU - 254) = packet.drop 254 := by
      refine List.take_of_length_le ?_
      rw [List.length_drop]
      omega
    suffices h' : r.receive (transmit false random packet) =
        { r with seq := SEQ_UNSET, pbuf := [], delivered := r.delivered ++ [packet] } by
      refine ⟨?_, ?_, hframed⟩
      · rw [h']
      · rw [h']
        exact ⟨rfl, rfl⟩
    rw [ht]
    unfold Receiver.receive
    rw [List.foldl_cons, List.foldl_cons, List.foldl_nil,
      receiveCallback_first (r := r) hs (hseq ▸ hr), receiveCallback_second hs (by rfl)]
    dsimp only
    rw [hfirst, hlen, hsecond, List.take_append_drop]

/-- Every packet arrives that the receiver can tell from the one before it, and that does not fill
its second frame. -/
theorem delivers_iff (hmax : packet.length ≤ MTU) :
    Delivers r random packet ↔ Receives r random packet := by
  unfold Receives
  split
  next h => exact delivers_short_iff h
  next h =>
    have h := not_le.mp h
    by_cases hm : packet.length = MTU
    · refine iff_of_false (fun hd => ?_) fun hr => hr.1 hm
      have hc := hd.framed.count
      rw [transmit_max hm, if_neg (not_le.mpr h)] at hc
      exact absurd (show 3 = 2 from hc) (by decide)
    · rw [delivers_long_iff h (lt_of_le_of_ne hmax hm)]
      exact (and_iff_right hm).symm

instance : Decidable (Receives r random packet) :=
  inferInstanceAs (Decidable (if packet.length ≤ 254 then r.seq ≠ SEQ_UNSET ∨ r.pbuf = []
    else packet.length ≠ MTU ∧ r.seq ≠ packetSequence random))

/-- A packet of 300 bytes, after one with another sequence number was half received. -/
theorem delivers_interrupted :
    List.length (List.replicate 300 (7 : UInt8)) ≤ MTU ∧
      Delivers (Receiver.receive {} [[0x31, 1, 2]]) 0x40 (List.replicate 300 7) :=
  ⟨by decide +kernel, (delivers_iff (by decide +kernel)).mpr (by decide +kernel)⟩

/-- The first half of a packet is taken for the second half of the one before, when that was
interrupted and the sequence numbers are the same. The largest packet leaves every receiver
waiting. -/
theorem not_delivers_interrupted :
    ¬ Delivers (Receiver.receive {} [[0x41, 1, 2]]) 0x40 (List.replicate 300 7) ∧
      ¬ Delivers {} 0x40 (List.replicate MTU 7) := by
  constructor
  · intro hd
    exact absurd hd.idle.1 (by decide +kernel)
  · intro hd
    exact absurd hd.idle.1 (by decide +kernel)

end URSupreme.Radio
