import URSupreme.Lib.Bytes
import URSupreme.Lib.Ring

/-!
# The LoRa transmit ring

The byte ring, its two FIFOs and their two producers, from `RNode_Firmware.ino` and `Utilities.h`:
`serial_callback` writes a host frame byte by byte and queues it at the closing `FEND`, while
`LoRaInterface::send_outgoing` writes whole frames with `lora_ring_enqueue`. `pop_queue` and
`flush_queue` take frames out and transmit them.

Beside the firmware's own state a `Trace` keeps what the two sources handed over.
-/

namespace URSupreme.Radio
open Lib

def FEND : UInt8 := 0xC0
def FESC : UInt8 := 0xDB
def TFEND : UInt8 := 0xDC
def TFESC : UInt8 := 0xDD
def CMD_UNKNOWN : UInt8 := 0xFE
def CMD_DATA : UInt8 := 0x00

def MIN_L : Nat := 1
def MTU : Nat := 508
def TX_HOLD_MAX_BYTES : Nat := 64 * 1024

/-- What a board's configuration fixes. -/
structure Board where
  CONFIG_QUEUE_SIZE : Nat
  CONFIG_QUEUE_MAX_LENGTH : Nat
  /-- `frame_len` and `ESCAPE` behind a byte of any command other than `CMD_DATA`, from the command,
  the byte and their values; none of these commands touches the ring. -/
  commandByte : UInt8 → UInt8 → Nat → Bool → Nat × Bool
  size_pos : 0 < CONFIG_QUEUE_SIZE
  size_lt : CONFIG_QUEUE_SIZE < 2 ^ 15
  length_lt : CONFIG_QUEUE_MAX_LENGTH < 2 ^ 8

/-- `FIFOBuffer16`: `buffer` holds the slots `0` to `last`, the pointers are slot numbers. -/
structure FIFOBuffer16 where
  buffer : Nat → Nat
  last : Nat
  head : Nat
  tail : Nat

namespace FIFOBuffer16

/-- `fifo16_init`. -/
def init (size : Nat) : FIFOBuffer16 := { buffer := fun _ => 0, last := size, head := 0, tail := 0 }

/-- `fifo16_isempty`. -/
def isEmpty (f : FIFOBuffer16) : Bool := f.head = f.tail

/-- `fifo16_isfull`. -/
def isFull (f : FIFOBuffer16) : Bool := f.head = 0 ∧ f.tail = f.last ∨ f.tail + 1 = f.head

/-- `fifo16_push`. -/
def push (f : FIFOBuffer16) (c : Nat) : FIFOBuffer16 :=
  { f with buffer := Function.update f.buffer f.tail c
           tail := if f.tail = f.last then 0 else f.tail + 1 }

/-- `fifo16_pop`. -/
def pop (f : FIFOBuffer16) : Nat × FIFOBuffer16 :=
  if f.head = f.last then (f.buffer f.last, { f with head := 0 })
  else (f.buffer f.head, { f with head := f.head + 1 })

end FIFOBuffer16

/-- Where a frame comes from. -/
inductive Source where
  | host
  | rns
  deriving DecidableEq, Repr

/-- What the two sources handed over. -/
structure Trace where
  /-- the data frame the host is sending, decoded on its own -/
  frame : Bytes := []
  /-- and whether its last byte was `FESC` -/
  frameEsc : Bool := false
  /-- nothing of an earlier frame lies in front of this one, and no byte of it was refused or
  changed by an `ESCAPE` left over from an earlier frame -/
  whole : Bool := true
  /-- the host bytes in the ring that no queued frame covers -/
  written : Bytes := []
  /-- the frames the ring took, in order -/
  accepted : List (Source × Bytes) := []
  /-- the frames `send_outgoing` took, in order -/
  outgoing : List Bytes := []
  deriving DecidableEq, Repr

/-- The transmit side of the modem. -/
structure Modem where
  packetStarts : FIFOBuffer16
  packetLengths : FIFOBuffer16
  packetQueue : Nat → UInt8 := fun _ => 0
  queueHeight : Nat := 0
  queuedBytes : Nat := 0
  queueCursor : Nat := 0
  currentPacketStart : Nat := 0
  IN_FRAME : Bool := false
  command : UInt8 := CMD_UNKNOWN
  frameLen : Nat := 0
  ESCAPE : Bool := false
  txHoldQueue : List Bytes := []
  txHoldBytes : Nat := 0
  /-- what `transmit` was called with, in order -/
  transmitted : List Bytes := []
  trace : Trace := {}

/-- The state `setup` leaves. -/
def Modem.setup (B : Board) : Modem :=
  { packetStarts := .init B.CONFIG_QUEUE_MAX_LENGTH
    packetLengths := .init B.CONFIG_QUEUE_MAX_LENGTH }

/-- `packet_queue[queue_cursor++] = b; if (queue_cursor == CONFIG_QUEUE_SIZE) queue_cursor = 0;` -/
def putByte (B : Board) (m : Modem) (b : UInt8) : Modem :=
  { m with
    packetQueue := Function.update m.packetQueue m.queueCursor b
    queueCursor := if m.queueCursor + 1 = B.CONFIG_QUEUE_SIZE then 0 else m.queueCursor + 1 }

/-- `lora_ring_has_space`. -/
def loraRingHasSpace (B : Board) (m : Modem) (len : Nat) : Bool :=
  !(m.packetStarts.isFull || decide (m.queueHeight ≥ B.CONFIG_QUEUE_MAX_LENGTH) ||
    decide (m.queuedBytes + len > B.CONFIG_QUEUE_SIZE))

/-- The frame goes into the ring; host bytes written so far are no longer covered by the next host
frame. -/
def Trace.enqueue (t : Trace) (data : Bytes) : Trace :=
  { t with whole := t.whole && t.written.isEmpty, written := []
           accepted := t.accepted ++ [(.rns, data)] }

/-- `lora_ring_enqueue`. -/
def loraRingEnqueue (B : Board) (m : Modem) (data : Bytes) : Modem :=
  let s := m.queueCursor
  let m := data.foldl (putByte B) m
  { m with
    queuedBytes := (m.queuedBytes + data.length) % 2 ^ 16
    queueHeight := (m.queueHeight + 1) % 2 ^ 8
    packetStarts := m.packetStarts.push s
    packetLengths := m.packetLengths.push (data.length % 2 ^ 16)
    currentPacketStart := m.queueCursor
    trace := m.trace.enqueue data }

/-- The loop of `drain_tx_hold_queue` over the held frames. -/
def drainLoop (B : Board) : List Bytes → Modem → Modem
  | [], m => m
  | front :: rest, m =>
    if loraRingHasSpace B m front.length then
      drainLoop B rest
        { loraRingEnqueue B m front with
          txHoldBytes := (m.txHoldBytes + 2 ^ 32 - front.length) % 2 ^ 32, txHoldQueue := rest }
    else m

/-- `drain_tx_hold_queue`. -/
def drainTxHoldQueue (B : Board) (m : Modem) : Modem := drainLoop B m.txHoldQueue m

/-- `LoRaInterface::send_outgoing`. -/
def sendOutgoing (B : Board) (m : Modem) (data : Bytes) : Modem :=
  let len := data.length
  if len < MIN_L ∨ len > MTU then m
  else
    let m := drainTxHoldQueue B m
    let took := { m.trace with outgoing := m.trace.outgoing ++ [data] }
    if m.txHoldQueue = [] ∧ loraRingHasSpace B m len then
      loraRingEnqueue B { m with trace := took } data
    else if m.txHoldBytes + len ≤ TX_HOLD_MAX_BYTES then
      { m with txHoldQueue := m.txHoldQueue ++ [data]
               txHoldBytes := (m.txHoldBytes + len) % 2 ^ 32, trace := took }
    else m

/-- The bytes from slot `start` on that `pop_queue` and `flush_queue` copy to `tbuf`. -/
def readRing (B : Board) (m : Modem) (start length : Nat) : Bytes :=
  (List.range length).map fun i => m.packetQueue ((start + i) % B.CONFIG_QUEUE_SIZE)

/-- The part `pop_queue` and `flush_queue` share: one frame leaves the FIFOs and is transmitted. -/
def popFrame (B : Board) (m : Modem) : Nat × Modem :=
  let (start, starts) := m.packetStarts.pop
  let (length, lengths) := m.packetLengths.pop
  let m := { m with packetStarts := starts, packetLengths := lengths }
  if length ≥ MIN_L ∧ length ≤ MTU then
    (length, { m with transmitted := m.transmitted ++ [readRing B m start length] })
  else (length, m)

/-- `pop_queue`. -/
def popQueue (B : Board) (m : Modem) : Modem :=
  if m.packetStarts.isEmpty then m
  else
    let (length, m) := popFrame B m
    { m with queueHeight := (m.queueHeight + 2 ^ 8 - 1) % 2 ^ 8
             queuedBytes := (m.queuedBytes + 2 ^ 16 - length) % 2 ^ 16 }

/-- The loop of `flush_queue`, at most `fuel` frames. -/
def flushLoop (B : Board) : Nat → Modem → Modem
  | 0, m => m
  | fuel + 1, m =>
    if m.packetStarts.isEmpty then m else flushLoop B fuel (popFrame B m).2

/-- `flush_queue`; the start FIFO never holds more than its slots. -/
def flushQueue (B : Board) (m : Modem) : Modem :=
  { flushLoop B (m.packetStarts.last + 1) m with queueHeight := 0, queuedBytes := 0 }

/-- The length `serial_callback` computes at the closing `FEND`. -/
def frameLength (B : Board) (m : Modem) : Nat :=
  let s := m.currentPacketStart
  let e := if m.queueCursor = 0 then B.CONFIG_QUEUE_SIZE - 1 else m.queueCursor - 1
  if s ≠ e then
    (if s < e then e - s + 1 else B.CONFIG_QUEUE_SIZE - s + e + 1) % 2 ^ 16
  else 1

/-- Whether the closing `FEND` queues the frame. -/
def closeAccepts (B : Board) (m : Modem) : Bool :=
  !m.packetStarts.isFull && decide (m.queuedBytes < B.CONFIG_QUEUE_SIZE) &&
    decide (frameLength B m ≥ MIN_L)

/-- The host frame ends, queued or refused. -/
def Trace.close (t : Trace) (queued : Bool) : Trace :=
  let written := if queued then [] else t.written
  { t with frame := [], frameEsc := false, whole := written.isEmpty, written
           accepted := if queued then t.accepted ++ [(.host, t.frame)] else t.accepted }

/-- The closing `FEND` of a data frame. -/
def closeFrame (B : Board) (m : Modem) : Modem :=
  let m := { m with IN_FRAME := false }
  if closeAccepts B m then
    { m with
      queueHeight := (m.queueHeight + 1) % 2 ^ 8
      packetStarts := m.packetStarts.push m.currentPacketStart
      packetLengths := m.packetLengths.push (frameLength B m)
      currentPacketStart := m.queueCursor
      trace := m.trace.close true }
  else { m with trace := m.trace.close false }

/-- The byte that an escaped byte stands for. -/
def unescape (esc : Bool) (b : UInt8) : UInt8 :=
  if esc then (if b = TFEND then FEND else if b = TFESC then FESC else b) else b

/-- A payload byte of a data frame. -/
def dataByte (B : Board) (m : Modem) (b : UInt8) : Modem :=
  if b = FESC then { m with ESCAPE := true, trace := { m.trace with frameEsc := true } }
  else
    let c := unescape m.ESCAPE b
    let sent := unescape m.trace.frameEsc b
    let m := { m with ESCAPE := false, trace :=
      { m.trace with frame := m.trace.frame ++ [sent], frameEsc := false } }
    if m.queueHeight < B.CONFIG_QUEUE_MAX_LENGTH ∧ m.queuedBytes < B.CONFIG_QUEUE_SIZE then
      let m := { m with queuedBytes := (m.queuedBytes + 1) % 2 ^ 16, trace :=
        { m.trace with whole := m.trace.whole && decide (c = sent)
                       written := m.trace.written ++ [c] } }
      putByte B m c
    else { m with trace := { m.trace with whole := false } }

/-- `serial_callback`. -/
def serialCallback (B : Board) (m : Modem) (sbyte : UInt8) : Modem :=
  if m.IN_FRAME ∧ sbyte = FEND ∧ m.command = CMD_DATA then closeFrame B m
  else if sbyte = FEND then
    { m with IN_FRAME := true, command := CMD_UNKNOWN, frameLen := 0, trace :=
      { m.trace with frame := [], frameEsc := false, whole := m.trace.written.isEmpty } }
  else if m.IN_FRAME ∧ m.frameLen < MTU then
    if m.frameLen = 0 ∧ m.command = CMD_UNKNOWN then { m with command := sbyte }
    else if m.command = CMD_DATA then dataByte B m sbyte
    else
      let (frameLen, esc) := B.commandByte m.command sbyte m.frameLen m.ESCAPE
      { m with frameLen, ESCAPE := esc }
  else m

/-- What happens to the ring. -/
inductive Event where
  | host (sbyte : UInt8)
  | send (data : Bytes)
  | drain
  | pop
  | flush
  deriving DecidableEq, Repr

/-- One event. -/
def Modem.step (B : Board) (m : Modem) : Event → Modem
  | .host sbyte => serialCallback B m sbyte
  | .send data => sendOutgoing B m data
  | .drain => drainTxHoldQueue B m
  | .pop => popQueue B m
  | .flush => flushQueue B m

end URSupreme.Radio
