import URSupreme.Lib.Run
import URSupreme.Radio.TxRing

/-!
# Runs of the LoRa transmit ring

What the ring holds in every state of a run: the FIFOs describe the queued frames, which stand in
the ring one behind the other with the half-written host frame behind them. Each step keeps this as
long as no frame is enqueued between the bytes of a host frame and no host frame is queued that
lost a byte, is empty, or has bytes of a refused frame in front of it.
-/

namespace URSupreme.Radio
open Lib

namespace FIFOBuffer16

/-- The FIFO holds `l`, oldest first. -/
structure Holds (f : FIFOBuffer16) (l : List Nat) : Prop where
  head : f.head ≤ f.last
  room : l.length ≤ f.last
  tail : f.tail = (f.head + l.length) % (f.last + 1)
  items : Spans (f.last + 1) f.buffer f.head l

variable {f : FIFOBuffer16} {l : List Nat} {c : Nat}

lemma holds_init {n : Nat} : (FIFOBuffer16.init n).Holds [] :=
  ⟨Nat.zero_le _, Nat.zero_le _, (Nat.zero_mod _).symm, spans_nil⟩

/-- The slot of the tail. -/
lemma Holds.tail_eq (h : f.Holds l) :
    f.tail = if f.head + l.length < f.last + 1 then f.head + l.length
      else f.head + l.length - (f.last + 1) := by
  have h1 := h.head
  have h2 := h.room
  rw [h.tail]
  exact add_mod_ring (by omega) (by omega)

lemma Holds.isEmpty_iff (h : f.Holds l) : f.isEmpty = true ↔ l = [] := by
  have h1 := h.head
  have h2 := h.room
  have ht := h.tail_eq
  rw [isEmpty, decide_eq_true_eq, ← List.length_eq_zero_iff]
  split at ht <;> omega

lemma Holds.isFull_iff (h : f.Holds l) : f.isFull = true ↔ l.length = f.last := by
  have h1 := h.head
  have h2 := h.room
  have ht := h.tail_eq
  rw [isFull, decide_eq_true_eq]
  split at ht <;> omega

/-- Pushing to a FIFO that is not full. -/
lemma Holds.push (h : f.Holds l) (hl : l.length < f.last) : (f.push c).Holds (l ++ [c]) := by
  have h1 := h.head
  have ht := h.tail_eq
  refine ⟨h.head, ?_, ?_, ?_⟩
  · rw [List.length_append]
    exact hl
  · have e := add_mod_ring (by omega : f.head < f.last + 1) (by omega : l.length + 1 ≤ f.last + 1)
    rw [List.length_append, List.length_singleton]
    show (if f.tail = f.last then 0 else f.tail + 1) = (f.head + (l.length + 1)) % (f.last + 1)
    rw [e]
    split at ht <;> split <;> split <;> omega
  · show Spans (f.last + 1) (Function.update f.buffer f.tail c) f.head (l ++ [c])
    rw [h.tail]
    exact h.items.snoc (by omega)

/-- Popping takes the oldest element. -/
lemma Holds.pop (h : f.Holds (c :: l)) :
    ∃ f', f.pop = (c, f') ∧ f'.Holds l ∧ f'.last = f.last := by
  have h1 := h.head
  have h2 := h.room
  have ht := h.tail
  have hc : f.buffer f.head = c := by
    have e := h.items.1
    rwa [Nat.mod_eq_of_lt (by omega)] at e
  rw [List.length_cons] at h2 ht
  unfold FIFOBuffer16.pop
  split
  next he =>
    refine ⟨{ f with head := 0 }, by rw [← he, hc], ⟨Nat.zero_le _, Nat.le_of_succ_le h2, ?_, ?_⟩,
      rfl⟩
    · show f.tail = (0 + l.length) % (f.last + 1)
      rw [ht, he, show f.last + (l.length + 1) = 0 + l.length + (f.last + 1) by omega,
        Nat.add_mod_right]
    · refine (spans_congr ?_).mp h.items.2
      rw [he, Nat.mod_self, Nat.zero_mod]
  next he =>
    refine ⟨{ f with head := f.head + 1 }, by rw [hc],
      ⟨Nat.lt_of_le_of_ne h1 he, Nat.le_of_succ_le h2, ?_, h.items.2⟩, rfl⟩
    show f.tail = (f.head + 1 + l.length) % (f.last + 1)
    rw [ht, Nat.add_assoc, Nat.add_comm 1]

end FIFOBuffer16

variable {B : Board} {m : Modem}

/-- The start slots of frames that stand one behind the other from position `s` on. -/
def startSlots (n : Nat) : Nat → List Bytes → List Nat
  | _, [] => []
  | s, f :: fs => s % n :: startSlots n (s + f.length) fs

lemma startSlots_snoc {n s fs f} :
    startSlots n s (fs ++ [f]) = startSlots n s fs ++ [(s + fs.flatten.length) % n] := by
  induction fs generalizing s with
  | nil => rfl
  | cons g fs ih =>
    rw [List.cons_append, startSlots, ih, startSlots, List.flatten_cons, List.length_append,
      Nat.add_assoc]
    rfl

lemma length_startSlots {n s fs} : (startSlots n s fs).length = fs.length := by
  induction fs generalizing s with
  | nil => rfl
  | cons f fs ih => exact congrArg (· + 1) ih

/-- The FIFOs hold `frames`, which stand in the ring from position `s` on, with the half-written
host frame behind them. -/
structure Queued (B : Board) (m : Modem) (s : Nat) (frames : List Bytes) : Prop where
  starts : m.packetStarts.Holds (startSlots B.CONFIG_QUEUE_SIZE s frames)
  lengths : m.packetLengths.Holds (frames.map (·.length))
  startsLast : m.packetStarts.last = B.CONFIG_QUEUE_MAX_LENGTH
  lengthsLast : m.packetLengths.last = B.CONFIG_QUEUE_MAX_LENGTH
  bytes : Spans B.CONFIG_QUEUE_SIZE m.packetQueue s (frames.flatten ++ m.trace.written)
  start : m.currentPacketStart = (s + frames.flatten.length) % B.CONFIG_QUEUE_SIZE
  cursor : m.queueCursor =
    (s + (frames.flatten ++ m.trace.written).length) % B.CONFIG_QUEUE_SIZE
  fits : (frames.flatten ++ m.trace.written).length ≤ B.CONFIG_QUEUE_SIZE

/-- The counters are those of `frames` and the half-written host frame. -/
structure Counted (m : Modem) (frames : List Bytes) : Prop where
  height : m.queueHeight = frames.length
  bytes : m.queuedBytes = (frames.flatten ++ m.trace.written).length

/-- `pop_queue` and `flush_queue` transmit a frame of this length. -/
def fitsAir (f : Bytes) : Bool := MIN_L ≤ f.length ∧ f.length ≤ MTU

/-- The ring gave back `gone` and holds `frames`; `waiting` are the frames of the interface that
are not in the ring yet. -/
structure Ordered (B : Board) (m : Modem) (s : Nat) (gone frames waiting : List Bytes) :
    Prop where
  whole : m.trace.whole = true → m.trace.written = m.trace.frame
  queued : Queued B m s frames
  counted : Counted m frames
  accepted : m.trace.accepted.map (·.2) = gone ++ frames
  transmitted : m.transmitted = gone.filter fitsAir
  outgoing : (m.trace.accepted.filter (·.1 = .rns)).map (·.2) ++ waiting = m.trace.outgoing

/-- What holds in every state of a run. -/
def Inv (B : Board) (m : Modem) : Prop :=
  ∃ s gone frames, Ordered B m s gone frames m.txHoldQueue

lemma inv_setup : Inv B (.setup B) := by
  refine ⟨0, [], [], fun _ => rfl, ⟨FIFOBuffer16.holds_init, FIFOBuffer16.holds_init, rfl, rfl,
    spans_nil, ?_, ?_, Nat.zero_le _⟩, ⟨rfl, rfl⟩, rfl, rfl, rfl⟩
  · exact (Nat.zero_mod _).symm
  · exact (Nat.zero_mod _).symm

/-- The bytes `l` stand in the ring from position `s` on, up to the cursor. -/
def Filled (B : Board) (m : Modem) (s : Nat) (l : Bytes) : Prop :=
  Spans B.CONFIG_QUEUE_SIZE m.packetQueue s l ∧
    m.queueCursor = (s + l.length) % B.CONFIG_QUEUE_SIZE

lemma Filled.putByte {s l b} (h : Filled B m s l) (hl : l.length < B.CONFIG_QUEUE_SIZE) :
    Filled B (putByte B m b) s (l ++ [b]) := by
  have hlt := Nat.mod_lt (s + l.length) B.size_pos
  constructor
  · show Spans _ (Function.update m.packetQueue m.queueCursor b) s (l ++ [b])
    rw [h.2]
    exact h.1.snoc hl
  · have e := add_mod_ring hlt (by omega : 1 ≤ B.CONFIG_QUEUE_SIZE)
    rw [Nat.mod_add_mod] at e
    show (if m.queueCursor + 1 = B.CONFIG_QUEUE_SIZE then 0 else m.queueCursor + 1) = _
    rw [List.length_append, List.length_singleton, ← Nat.add_assoc, e, h.2]
    split <;> split <;> omega

lemma Filled.putBytes {s l} {data : Bytes} (h : Filled B m s l)
    (hl : l.length + data.length ≤ B.CONFIG_QUEUE_SIZE) :
    Filled B (data.foldl (Radio.putByte B) m) s (l ++ data) := by
  induction data generalizing m l with
  | nil => rwa [List.append_nil]
  | cons b data ih =>
    rw [List.length_cons] at hl
    have h' := ih (h.putByte (b := b) (by omega)) (by rw [List.length_append]; simp; omega)
    rwa [List.append_assoc] at h'

/-- Writing a frame changes the ring's bytes and the cursor only. -/
lemma putBytes_eq (B : Board) (m : Modem) (data : Bytes) : data.foldl (putByte B) m =
    { m with packetQueue := (data.foldl (putByte B) m).packetQueue
             queueCursor := (data.foldl (putByte B) m).queueCursor } := by
  induction data generalizing m with
  | nil => rfl
  | cons b data ih =>
    rw [List.foldl_cons, ih]
    rfl

/-- `lora_ring_has_space` in terms of what is queued. -/
lemma hasSpace_iff {s frames len} (hq : Queued B m s frames) (hc : Counted m frames) :
    loraRingHasSpace B m len = true ↔ frames.length < B.CONFIG_QUEUE_MAX_LENGTH ∧
      (frames.flatten ++ m.trace.written).length + len ≤ B.CONFIG_QUEUE_SIZE := by
  have hfull := hq.starts.isFull_iff
  have hroom := hq.starts.room
  rw [length_startSlots, hq.startsLast] at hfull hroom
  rw [loraRingHasSpace, Bool.not_eq_true', Bool.or_eq_false_iff, Bool.or_eq_false_iff,
    decide_eq_false_iff_not, decide_eq_false_iff_not, Bool.eq_false_iff, Ne, hfull, hc.height,
    hc.bytes]
  omega

/-- One more frame in both FIFOs, with its bytes in the ring. -/
lemma Queued.push {s frames f m'} (hq : Queued B m s frames)
    (hlen : frames.length < B.CONFIG_QUEUE_MAX_LENGTH)
    (hs : m'.packetStarts = m.packetStarts.push ((s + frames.flatten.length) % B.CONFIG_QUEUE_SIZE))
    (hl : m'.packetLengths = m.packetLengths.push f.length)
    (hf : Filled B m' s (frames.flatten ++ f)) (hp : m'.currentPacketStart = m'.queueCursor)
    (hw : m'.trace.written = []) (hfits : (frames.flatten ++ f).length ≤ B.CONFIG_QUEUE_SIZE) :
    Queued B m' s (frames ++ [f]) := by
  have hflat : (frames ++ [f]).flatten = frames.flatten ++ f := by
    rw [List.flatten_append, List.flatten_singleton]
  have hstarts := hq.starts.push (c := (s + frames.flatten.length) % B.CONFIG_QUEUE_SIZE)
    (by rw [length_startSlots, hq.startsLast]; exact hlen)
  have hlengths := hq.lengths.push (c := f.length)
    (by rw [List.length_map, hq.lengthsLast]; exact hlen)
  refine ⟨?_, ?_, ?_, ?_, ?_, ?_, ?_, ?_⟩
  · rw [hs, startSlots_snoc]
    exact hstarts
  · rw [hl, List.map_append]
    exact hlengths
  · rw [hs]
    exact hq.startsLast
  · rw [hl]
    exact hq.lengthsLast
  · rw [hw, List.append_nil, hflat]
    exact hf.1
  · rw [hp, hf.2, hflat]
  · rw [hw, List.append_nil, hflat]
    exact hf.2
  · rw [hw, List.append_nil, hflat]
    exact hfits

lemma enqueue_trace {data : Bytes} :
    (loraRingEnqueue B m data).trace = m.trace.enqueue data := by
  unfold loraRingEnqueue
  rw [putBytes_eq]

lemma enqueue_transmitted {data : Bytes} :
    (loraRingEnqueue B m data).transmitted = m.transmitted := by
  unfold loraRingEnqueue
  rw [putBytes_eq]

lemma enqueue_txHoldQueue {data : Bytes} :
    (loraRingEnqueue B m data).txHoldQueue = m.txHoldQueue := by
  unfold loraRingEnqueue
  rw [putBytes_eq]

/-- Enqueuing a frame when no host bytes are in the way. -/
lemma Queued.enqueue {data : Bytes} {s frames} (hq : Queued B m s frames) (hc : Counted m frames)
    (hw : m.trace.written = []) (hsp : loraRingHasSpace B m data.length = true) :
    Queued B (loraRingEnqueue B m data) s (frames ++ [data]) ∧
      Counted (loraRingEnqueue B m data) (frames ++ [data]) := by
  obtain ⟨hlen, hroom⟩ := (hasSpace_iff hq hc).mp hsp
  have hsize := B.size_lt
  have hmax := B.length_lt
  rw [hw, List.append_nil] at hroom
  have hfill : Filled B m s frames.flatten := by
    have h1 := hq.bytes
    have h2 := hq.cursor
    rw [hw, List.append_nil] at h1 h2
    exact ⟨h1, h2⟩
  have hput := hfill.putBytes hroom
  have heq := putBytes_eq B m data
  have hbytes := hc.bytes
  rw [hw, List.append_nil] at hbytes
  unfold loraRingEnqueue
  dsimp only
  generalize data.foldl (putByte B) m = m1 at hput heq
  rw [hfill.2]
  refine ⟨hq.push hlen ?_ ?_ hput rfl rfl ?_, ⟨?_, ?_⟩⟩
  · rw [heq]
  · rw [Nat.mod_eq_of_lt (by omega : data.length < 2 ^ 16), heq]
  · rw [List.length_append]
    exact hroom
  · rw [heq]
    show (m.queueHeight + 1) % 2 ^ 8 = (frames ++ [data]).length
    rw [hc.height, List.length_append, List.length_singleton, Nat.mod_eq_of_lt (by omega)]
  · rw [heq]
    show (m.queuedBytes + data.length) % 2 ^ 16 = ((frames ++ [data]).flatten ++ []).length
    rw [hbytes, Nat.mod_eq_of_lt (by omega), List.append_nil, List.flatten_append,
      List.flatten_singleton, List.length_append]

lemma Ordered.enqueue {data : Bytes} {s gone frames waiting}
    (h : Ordered B m s gone frames (data :: waiting)) (hw : m.trace.written = [])
    (hsp : loraRingHasSpace B m data.length = true) :
    Ordered B (loraRingEnqueue B m data) s gone (frames ++ [data]) waiting ∧
      (loraRingEnqueue B m data).trace.written = [] := by
  obtain ⟨hq, hc⟩ := h.queued.enqueue h.counted hw hsp
  have ht : (loraRingEnqueue B m data).trace = m.trace.enqueue data := enqueue_trace
  refine ⟨⟨fun hwh => ?_, hq, hc, ?_, ?_, ?_⟩, by rw [ht]; rfl⟩
  · rw [ht] at hwh ⊢
    have e := h.whole (Bool.and_eq_true_iff.mp hwh).1
    rw [hw] at e
    exact e
  · rw [ht]
    show (m.trace.accepted ++ [(Source.rns, data)]).map (·.2) = gone ++ (frames ++ [data])
    rw [List.map_append, h.accepted, List.append_assoc]
    rfl
  · rw [enqueue_transmitted, h.transmitted]
  · rw [ht]
    show ((m.trace.accepted ++ [(Source.rns, data)]).filter (·.1 = .rns)).map (·.2) ++ waiting =
      m.trace.outgoing
    rw [List.filter_append, List.map_append, ← h.outgoing, List.append_assoc]
    rfl

/-- A step that leaves ring, FIFOs and counters alone keeps what is queued. -/
lemma Queued.keep {m' s frames} (hq : Queued B m s frames) (hc : Counted m frames)
    (hring : (m'.packetStarts, m'.packetLengths, m'.packetQueue, m'.currentPacketStart,
        m'.queueCursor, m'.queueHeight, m'.queuedBytes) =
      (m.packetStarts, m.packetLengths, m.packetQueue, m.currentPacketStart, m.queueCursor,
        m.queueHeight, m.queuedBytes))
    (hw : m'.trace.written = m.trace.written) : Queued B m' s frames ∧ Counted m' frames := by
  simp only [Prod.mk.injEq] at hring
  obtain ⟨h1, h2, h3, h4, h5, h6, h7⟩ := hring
  refine ⟨⟨?_, ?_, ?_, ?_, ?_, ?_, ?_, ?_⟩, ?_, ?_⟩
  · exact h1 ▸ hq.starts
  · exact h2 ▸ hq.lengths
  · exact h1 ▸ hq.startsLast
  · exact h2 ▸ hq.lengthsLast
  · exact h3 ▸ hw ▸ hq.bytes
  · exact h4 ▸ hq.start
  · exact h5 ▸ hw ▸ hq.cursor
  · exact hw ▸ hq.fits
  · exact h6 ▸ hc.height
  · exact h7 ▸ hw ▸ hc.bytes

/-- A step that leaves ring, FIFOs, counters and the trace's lists alone keeps the order. -/
lemma Ordered.keep {m' s gone frames waiting} (h : Ordered B m s gone frames waiting)
    (hring : (m'.packetStarts, m'.packetLengths, m'.packetQueue, m'.currentPacketStart,
        m'.queueCursor, m'.queueHeight, m'.queuedBytes) =
      (m.packetStarts, m.packetLengths, m.packetQueue, m.currentPacketStart, m.queueCursor,
        m.queueHeight, m.queuedBytes))
    (htrace : (m'.transmitted, m'.trace.written, m'.trace.accepted, m'.trace.outgoing) =
      (m.transmitted, m.trace.written, m.trace.accepted, m.trace.outgoing))
    (hwhole : m'.trace.whole = true → m'.trace.written = m'.trace.frame) :
    Ordered B m' s gone frames waiting := by
  simp only [Prod.mk.injEq] at htrace
  obtain ⟨h1, h2, h3, h4⟩ := htrace
  obtain ⟨hq, hc⟩ := h.queued.keep h.counted hring h2
  refine ⟨hwhole, hq, hc, ?_, ?_, ?_⟩
  · exact h3 ▸ h.accepted
  · exact h1 ▸ h.transmitted
  · exact h3 ▸ h4 ▸ h.outgoing

/-- Draining the hold queue when no host bytes are in the way. -/
lemma Ordered.drain {held : List Bytes} {s gone frames}
    (h : Ordered B m s gone frames held) (hh : m.txHoldQueue = held)
    (hw : m.trace.written = []) :
    Inv B (drainLoop B held m) ∧ (drainLoop B held m).trace.written = [] := by
  induction held generalizing m frames with
  | nil => exact ⟨⟨s, gone, frames, by rw [drainLoop, hh]; exact h⟩, hw⟩
  | cons front rest ih =>
    unfold drainLoop
    split
    next hsp =>
      obtain ⟨h', hw'⟩ := h.enqueue hw hsp
      exact ih (h'.keep rfl rfl h'.whole) rfl hw'
    next => exact ⟨⟨s, gone, frames, hh ▸ h⟩, hw⟩

/-- `drain_tx_hold_queue` moves a frame into the ring. -/
def drains (B : Board) (m : Modem) : Bool :=
  match m.txHoldQueue with
  | [] => false
  | front :: _ => loraRingHasSpace B m front.length

/-- The step moves a frame of the interface into the ring. -/
def enqueues (B : Board) (m : Modem) : Event → Bool
  | .send data => decide (MIN_L ≤ data.length ∧ data.length ≤ MTU) &&
      (drains B m || decide (m.txHoldQueue = []) && loraRingHasSpace B m data.length)
  | .drain => drains B m
  | _ => false

/-- The steps that mix no frames: a frame of the interface enters the ring, and the ring is flushed,
only when no host bytes lie in it uncovered, and a host frame is queued only when it is whole and
not empty. -/
def Clean (B : Board) (m : Modem) (e : Event) : Prop :=
  (enqueues B m e = true ∨ e = .flush → m.trace.written = []) ∧
    (e = .host FEND → m.IN_FRAME = true → m.command = CMD_DATA → closeAccepts B m = true →
      m.trace.whole = true ∧ m.trace.frame ≠ [])

instance (B : Board) (m : Modem) (e : Event) : Decidable (Clean B m e) :=
  inferInstanceAs (Decidable (_ ∧ _))

lemma drainLoop_of_not {held : List Bytes} (hh : m.txHoldQueue = held) (hd : drains B m = false) :
    drainLoop B held m = m := by
  subst hh
  unfold drains at hd
  generalize m.txHoldQueue = held at hd
  cases held with
  | nil => rfl
  | cons front rest =>
    unfold drainLoop
    rw [if_neg (by simpa using hd)]

/-- `drain_tx_hold_queue`. -/
lemma inv_drain (h : Inv B m) (hw : drains B m = true → m.trace.written = []) :
    Inv B (drainTxHoldQueue B m) := by
  obtain ⟨s, gone, frames, h⟩ := h
  cases hd : drains B m with
  | true => exact (h.drain rfl (hw hd)).1
  | false =>
    rw [drainTxHoldQueue, drainLoop_of_not rfl hd]
    exact ⟨s, gone, frames, h⟩

/-- `LoRaInterface::send_outgoing`. -/
lemma inv_send {data : Bytes} (h : Inv B m)
    (hw : enqueues B m (.send data) = true → m.trace.written = []) :
    Inv B (sendOutgoing B m data) := by
  unfold sendOutgoing
  dsimp only
  split
  next => exact h
  next hlen =>
    have hok : decide (MIN_L ≤ data.length ∧ data.length ≤ MTU) = true :=
      decide_eq_true (by omega)
    -- the held frames come first
    have hd := inv_drain h fun hd => hw (by rw [enqueues, hok, hd]; rfl)
    have hwd : (drainTxHoldQueue B m).txHoldQueue = [] →
        loraRingHasSpace B (drainTxHoldQueue B m) data.length = true →
        (drainTxHoldQueue B m).trace.written = [] := by
      intro h1 h2
      obtain ⟨s, gone, frames, h⟩ := h
      cases hdr : drains B m with
      | true => exact (h.drain rfl (hw (by rw [enqueues, hok, hdr]; rfl))).2
      | false =>
        rw [drainTxHoldQueue, drainLoop_of_not rfl hdr] at h1 h2 ⊢
        exact hw (by rw [enqueues, hok, hdr, h1, h2]; rfl)
    obtain ⟨s, gone, frames, hd⟩ := hd
    generalize drainTxHoldQueue B m = m1 at hd hwd
    have htook : Ordered B
        { m1 with trace := { m1.trace with outgoing := m1.trace.outgoing ++ [data] } } s gone frames
        (m1.txHoldQueue ++ [data]) :=
      ⟨hd.whole, And.left (hd.queued.keep hd.counted rfl rfl),
        And.right (hd.queued.keep hd.counted rfl rfl), hd.accepted, hd.transmitted, by
          show _ = m1.trace.outgoing ++ [data]
          rw [← hd.outgoing, List.append_assoc]⟩
    split
    next hs =>
      rw [hs.1, List.nil_append] at htook
      obtain ⟨h', _⟩ := htook.enqueue (hwd hs.1 hs.2) hs.2
      refine ⟨s, gone, frames ++ [data], ?_⟩
      rw [enqueue_txHoldQueue, hs.1]
      exact h'
    next =>
      split
      next => exact ⟨s, gone, frames, htook.keep rfl rfl htook.whole⟩
      next => exact ⟨s, gone, frames, hd⟩

/-- The oldest frame leaves the FIFOs and is read whole. -/
lemma popFrame_eq {s f frames} (hq : Queued B m s (f :: frames)) :
    ∃ f1 f2, popFrame B m = (f.length,
        { m with packetStarts := f1, packetLengths := f2
                 transmitted := m.transmitted ++ [f].filter fitsAir }) ∧
      Queued B { m with packetStarts := f1, packetLengths := f2
                        transmitted := m.transmitted ++ [f].filter fitsAir } (s + f.length)
        frames := by
  obtain ⟨f1, e1, h1, l1⟩ := hq.starts.pop
  obtain ⟨f2, e2, h2, l2⟩ := hq.lengths.pop
  have hbytes := hq.bytes
  have hstart := hq.start
  have hcursor := hq.cursor
  have hfits := hq.fits
  rw [List.flatten_cons, List.append_assoc] at hbytes hcursor hfits
  rw [spans_append] at hbytes
  rw [List.flatten_cons, List.length_append, ← Nat.add_assoc] at hstart
  rw [List.length_append] at hcursor hfits
  rw [← Nat.add_assoc] at hcursor
  refine ⟨f1, f2, ?_, h1, h2, l1.trans hq.startsLast, l2.trans hq.lengthsLast, hbytes.2, hstart,
    hcursor, (by omega : (frames.flatten ++ m.trace.written).length ≤ _)⟩
  have hread : readRing B { m with packetStarts := f1, packetLengths := f2 }
      (s % B.CONFIG_QUEUE_SIZE) f.length = f :=
      ((spans_congr (Nat.mod_mod s _).symm).mp hbytes.1).read
  have hair : fitsAir f = decide (f.length ≥ MIN_L ∧ f.length ≤ MTU) := rfl
  rw [popFrame, e1, e2]
  dsimp only
  split
  next h =>
    rw [List.filter_cons_of_pos (by rw [hair, decide_eq_true h]), List.filter_nil, hread]
  next h =>
    rw [List.filter_cons_of_neg (by rw [hair, decide_eq_false h]; decide), List.filter_nil,
      List.append_nil]

/-- `pop_queue` takes the oldest frame out of the FIFOs and off the counters. -/
lemma Queued.pop {s f frames} (hq : Queued B m s (f :: frames)) (hc : Counted m (f :: frames)) :
    ∃ f1 f2 height bytes, popQueue B m = { m with
        packetStarts := f1, packetLengths := f2, queueHeight := height, queuedBytes := bytes
        transmitted := m.transmitted ++ [f].filter fitsAir } ∧
      Queued B (popQueue B m) (s + f.length) frames ∧ Counted (popQueue B m) frames := by
  obtain ⟨f1, f2, e, hq'⟩ := popFrame_eq hq
  have hmax := B.length_lt
  have hsize := B.size_lt
  have hroom := hq.lengths.room
  rw [hq.lengthsLast, List.map_cons, List.length_cons, List.length_map] at hroom
  have hheight := hc.height
  have hcount := hc.bytes
  have hfits := hq.fits
  rw [List.flatten_cons, List.append_assoc, List.length_append] at hcount hfits
  rw [List.length_cons] at hheight
  have hpop : popQueue B m = { m with
      packetStarts := f1, packetLengths := f2
      transmitted := m.transmitted ++ [f].filter fitsAir
      queueHeight := (m.queueHeight + 2 ^ 8 - 1) % 2 ^ 8
      queuedBytes := (m.queuedBytes + 2 ^ 16 - f.length) % 2 ^ 16 } := by
    unfold popQueue
    rw [if_neg fun h => nomatch hq.starts.isEmpty_iff.mp h]
    rw [e]
  refine ⟨f1, f2, _, _, hpop, ?_, ?_, ?_⟩
  · rw [hpop]
    exact ⟨hq'.starts, hq'.lengths, hq'.startsLast, hq'.lengthsLast, hq'.bytes, hq'.start,
      hq'.cursor, hq'.fits⟩
  · rw [hpop]
    show (m.queueHeight + 2 ^ 8 - 1) % 2 ^ 8 = frames.length
    omega
  · rw [hpop]
    show (m.queuedBytes + 2 ^ 16 - f.length) % 2 ^ 16 = (frames.flatten ++ m.trace.written).length
    omega

lemma popQueue_nil {s} (hq : Queued B m s []) : popQueue B m = m := by
  rw [popQueue, if_pos (hq.starts.isEmpty_iff.mpr rfl)]

/-- `pop_queue`. -/
lemma inv_pop (h : Inv B m) : Inv B (popQueue B m) := by
  obtain ⟨s, gone, frames, h⟩ := h
  cases frames with
  | nil => exact ⟨s, gone, [], by rw [popQueue_nil h.queued]; exact h⟩
  | cons f frames =>
    obtain ⟨f1, f2, height, bytes, e, hq, hc⟩ := h.queued.pop h.counted
    rw [e] at hq hc ⊢
    refine ⟨s + f.length, gone ++ [f], frames, h.whole, hq, hc, ?_, ?_, h.outgoing⟩
    · rw [List.append_assoc]
      exact h.accepted
    · rw [List.filter_append]
      exact congrArg (· ++ _) h.transmitted

/-- The loop of `flush_queue` takes out every frame. -/
lemma flushLoop_eq {fuel s frames} (hq : Queued B m s frames) (hf : frames.length ≤ fuel) :
    ∃ f1 f2 s', flushLoop B fuel m = { m with
        packetStarts := f1, packetLengths := f2
        transmitted := m.transmitted ++ frames.filter fitsAir } ∧
      Queued B { m with packetStarts := f1, packetLengths := f2
                        transmitted := m.transmitted ++ frames.filter fitsAir } s' [] := by
  induction fuel generalizing m s frames with
  | zero =>
    obtain rfl := List.length_eq_zero_iff.mp (Nat.le_zero.mp hf)
    rw [List.filter_nil, List.append_nil]
    exact ⟨_, _, s, rfl, hq⟩
  | succ fuel ih =>
    unfold flushLoop
    cases frames with
    | nil =>
      rw [if_pos (hq.starts.isEmpty_iff.mpr rfl), List.filter_nil, List.append_nil]
      exact ⟨_, _, s, rfl, hq⟩
    | cons f frames =>
      rw [if_neg fun h => nomatch hq.starts.isEmpty_iff.mp h]
      obtain ⟨f1, f2, e, hq'⟩ := popFrame_eq hq
      obtain ⟨f3, f4, s', e', hq'⟩ := ih hq' (Nat.le_of_succ_le_succ hf)
      rw [e, e']
      have ht : m.transmitted ++ [f].filter fitsAir ++ frames.filter fitsAir =
          m.transmitted ++ (f :: frames).filter fitsAir := by
        rw [List.append_assoc, ← List.filter_append]
        rfl
      refine ⟨f3, f4, s', ?_, ?_⟩
      · exact congrArg (fun t => { m with packetStarts := f3, packetLengths := f4,
                                          transmitted := t }) ht
      · exact ⟨hq'.starts, hq'.lengths, hq'.startsLast, hq'.lengthsLast, hq'.bytes, hq'.start,
          hq'.cursor, hq'.fits⟩

/-- `flush_queue` takes out every frame; the counters are right when no host bytes lie in the
ring. -/
lemma Queued.flush {s frames} (hq : Queued B m s frames) (hw : m.trace.written = []) :
    ∃ f1 f2 s', flushQueue B m = { m with
        packetStarts := f1, packetLengths := f2, queueHeight := 0, queuedBytes := 0
        transmitted := m.transmitted ++ frames.filter fitsAir } ∧
      Queued B (flushQueue B m) s' [] ∧ Counted (flushQueue B m) [] := by
  have hroom := hq.starts.room
  rw [length_startSlots] at hroom
  obtain ⟨f1, f2, s', e, hq'⟩ := flushLoop_eq hq (Nat.le_succ_of_le hroom)
  have hflush : flushQueue B m = { m with
      packetStarts := f1, packetLengths := f2, queueHeight := 0, queuedBytes := 0
      transmitted := m.transmitted ++ frames.filter fitsAir } := by
    rw [flushQueue, e]
  refine ⟨f1, f2, s', hflush, ?_, ?_, ?_⟩
  · rw [hflush]
    exact ⟨hq'.starts, hq'.lengths, hq'.startsLast, hq'.lengthsLast, hq'.bytes, hq'.start,
      hq'.cursor, hq'.fits⟩
  · rw [hflush]
    rfl
  · rw [hflush]
    show 0 = ([] ++ m.trace.written).length
    rw [hw]
    rfl

/-- `flush_queue` when no host bytes lie in the ring. -/
lemma inv_flush (h : Inv B m) (hw : m.trace.written = []) : Inv B (flushQueue B m) := by
  obtain ⟨s, gone, frames, h⟩ := h
  obtain ⟨f1, f2, s', e, hq, hc⟩ := h.queued.flush hw
  rw [e] at hq hc ⊢
  refine ⟨s', gone ++ frames, [], h.whole, hq, hc, ?_, ?_, h.outgoing⟩
  · rw [List.append_nil]
    exact h.accepted
  · rw [List.filter_append]
    exact congrArg (· ++ _) h.transmitted

/-- The length computed at the closing `FEND` is that of the host bytes in the ring. -/
lemma frameLength_eq {s frames} (hq : Queued B m s frames) (hw : m.trace.written ≠ [])
    (hlt : m.trace.written.length < B.CONFIG_QUEUE_SIZE) :
    frameLength B m = m.trace.written.length := by
  have hpos := List.length_pos_iff.mpr hw
  have hsize := B.size_lt
  have hstart := Nat.mod_lt (s + frames.flatten.length) B.size_pos
  have hcursor := hq.cursor
  rw [List.length_append, ← Nat.add_assoc, ← Nat.mod_add_mod, ← hq.start] at hcursor
  rw [← hq.start] at hstart
  rw [add_mod_ring hstart (by omega)] at hcursor
  unfold frameLength
  dsimp only
  -- the cursor has wrapped or it has not
  split at hcursor <;> split <;> split <;> (try split) <;> omega

/-- A closing `FEND` that the ring takes queues the host bytes that lie in it. -/
lemma Queued.close {s frames} (hq : Queued B m s frames) (hc : Counted m frames)
    (ha : closeAccepts B m = true) (hw : m.trace.written ≠ []) :
    Queued B (closeFrame B m) s (frames ++ [m.trace.written]) ∧
      Counted (closeFrame B m) (frames ++ [m.trace.written]) := by
  have hacc : closeAccepts B { m with IN_FRAME := false } = true := ha
  have hmax := B.length_lt
  rw [closeAccepts, Bool.and_eq_true, Bool.and_eq_true, Bool.not_eq_true', decide_eq_true_eq,
    Bool.eq_false_iff, Ne, hq.starts.isFull_iff, length_startSlots, hq.startsLast,
    hc.bytes, List.length_append] at ha
  have hroom := hq.starts.room
  rw [length_startSlots, hq.startsLast] at hroom
  have hlen : frameLength B m = m.trace.written.length := frameLength_eq hq hw (by omega)
  have hcnt := hc.bytes
  rw [closeFrame, if_pos hacc]
  refine ⟨hq.push (by omega) ?_ ?_ ⟨hq.bytes, hq.cursor⟩ rfl rfl hq.fits, ⟨?_, ?_⟩⟩
  · exact congrArg m.packetStarts.push hq.start
  · exact congrArg m.packetLengths.push hlen
  · show (m.queueHeight + 1) % 2 ^ 8 = (frames ++ [m.trace.written]).length
    rw [hc.height, List.length_append, List.length_singleton, Nat.mod_eq_of_lt (by omega)]
  · show m.queuedBytes = ((frames ++ [m.trace.written]).flatten ++ []).length
    rw [hcnt, List.append_nil, List.flatten_append, List.flatten_singleton]

lemma closeFrame_of_refused (ha : closeAccepts B m = false) :
    closeFrame B m = { m with IN_FRAME := false, trace := m.trace.close false } := by
  have hacc : closeAccepts B { m with IN_FRAME := false } = false := ha
  rw [closeFrame, if_neg (by rw [hacc]; exact Bool.false_ne_true)]

/-- The closing `FEND`. -/
lemma inv_close (h : Inv B m) (hc : closeAccepts B m = true →
      m.trace.whole = true ∧ m.trace.frame ≠ []) : Inv B (closeFrame B m) := by
  obtain ⟨s, gone, frames, h⟩ := h
  cases ha : closeAccepts B m with
  | true =>
    obtain ⟨hwhole, hne⟩ := hc ha
    have hwf := h.whole hwhole
    obtain ⟨hq, hcnt⟩ := h.queued.close h.counted ha (by rw [hwf]; exact hne)
    have hacc : closeAccepts B { m with IN_FRAME := false } = true := ha
    rw [closeFrame, if_pos hacc] at hq hcnt ⊢
    refine ⟨s, gone, frames ++ [m.trace.written], fun _ => rfl, hq, hcnt, ?_, h.transmitted, ?_⟩
    · show (m.trace.accepted ++ [(Source.host, m.trace.frame)]).map (·.2) =
        gone ++ (frames ++ [m.trace.written])
      rw [List.map_append, h.accepted, hwf, List.append_assoc]
      rfl
    · show ((m.trace.accepted ++ [(Source.host, m.trace.frame)]).filter (·.1 = .rns)).map (·.2) ++
        m.txHoldQueue = m.trace.outgoing
      rw [← h.outgoing, List.filter_append, List.map_append, List.append_assoc]
      rfl
  | false =>
    rw [closeFrame_of_refused ha]
    exact ⟨s, gone, frames, h.keep rfl rfl fun hw => List.isEmpty_iff.mp hw⟩

/-- A payload byte that is written and counted. -/
lemma Queued.putByte {s frames} (m' : Modem) (c : UInt8) (hq : Queued B m s frames)
    (hc : Counted m frames) (hroom : m.queuedBytes < B.CONFIG_QUEUE_SIZE)
    (hring : (m'.packetStarts, m'.packetLengths, m'.packetQueue, m'.currentPacketStart,
        m'.queueCursor, m'.queueHeight) =
      (m.packetStarts, m.packetLengths, m.packetQueue, m.currentPacketStart, m.queueCursor,
        m.queueHeight))
    (hbytes : m'.queuedBytes = (m.queuedBytes + 1) % 2 ^ 16)
    (hw : m'.trace.written = m.trace.written ++ [c]) :
    Queued B (Radio.putByte B m' c) s frames ∧ Counted (Radio.putByte B m' c) frames := by
  simp only [Prod.mk.injEq] at hring
  obtain ⟨h1, h2, h3, h4, h5, h6⟩ := hring
  have hsize := B.size_lt
  have hcnt := hc.bytes
  have hfill : Filled B m' s (frames.flatten ++ m.trace.written) :=
    ⟨h3 ▸ hq.bytes, h5 ▸ hq.cursor⟩
  have hput := hfill.putByte (b := c) (by omega)
  rw [List.append_assoc, ← hw] at hput
  have hlen : (frames.flatten ++ m'.trace.written).length = m.queuedBytes + 1 := by
    rw [hw, ← List.append_assoc, List.length_append, ← hcnt, List.length_singleton]
  refine ⟨⟨h1 ▸ hq.starts, h2 ▸ hq.lengths, h1 ▸ hq.startsLast, h2 ▸ hq.lengthsLast, hput.1,
    h4 ▸ hq.start, hput.2, ?_⟩, h6 ▸ hc.height, ?_⟩
  · show (frames.flatten ++ m'.trace.written).length ≤ _
    rw [hlen]
    exact hroom
  · show m'.queuedBytes = (frames.flatten ++ m'.trace.written).length
    rw [hlen, hbytes, Nat.mod_eq_of_lt (by omega)]

/-- A payload byte. -/
lemma inv_dataByte {b : UInt8} (h : Inv B m) : Inv B (dataByte B m b) := by
  obtain ⟨s, gone, frames, h⟩ := h
  unfold dataByte
  split
  next => exact ⟨s, gone, frames, h.keep rfl rfl h.whole⟩
  next =>
    dsimp only
    split
    next hroom =>
      obtain ⟨hq, hc⟩ := Queued.putByte { m with
          ESCAPE := false, queuedBytes := (m.queuedBytes + 1) % 2 ^ 16
          trace := { m.trace with
            frame := m.trace.frame ++ [unescape m.trace.frameEsc b], frameEsc := false
            whole := m.trace.whole && decide (unescape m.ESCAPE b = unescape m.trace.frameEsc b)
            written := m.trace.written ++ [unescape m.ESCAPE b] } } (unescape m.ESCAPE b)
        h.queued h.counted hroom.2 rfl rfl rfl
      refine ⟨s, gone, frames, fun hw => ?_, hq, hc, h.accepted, h.transmitted, h.outgoing⟩
      obtain ⟨h1, h2⟩ := Bool.and_eq_true_iff.mp hw
      show m.trace.written ++ [_] = m.trace.frame ++ [_]
      rw [h.whole h1, of_decide_eq_true h2]
    next => exact ⟨s, gone, frames, h.keep rfl rfl (nomatch ·)⟩

/-- `serial_callback`. -/
lemma inv_host {b : UInt8} (h : Inv B m) (hc : b = FEND → m.IN_FRAME = true →
      m.command = CMD_DATA → closeAccepts B m = true →
      m.trace.whole = true ∧ m.trace.frame ≠ []) : Inv B (serialCallback B m b) := by
  unfold serialCallback
  split
  next hf => exact inv_close h (hc hf.2.1 hf.1 hf.2.2)
  next =>
    split
    next =>
      obtain ⟨s, gone, frames, h⟩ := h
      exact ⟨s, gone, frames, h.keep rfl rfl fun hw => List.isEmpty_iff.mp hw⟩
    next =>
      split
      next =>
        split
        next =>
          obtain ⟨s, gone, frames, h⟩ := h
          exact ⟨s, gone, frames, h.keep rfl rfl h.whole⟩
        next =>
          split
          next => exact inv_dataByte h
          next =>
            obtain ⟨s, gone, frames, h⟩ := h
            exact ⟨s, gone, frames, h.keep rfl rfl h.whole⟩
      next => exact h

/-- A clean step keeps the invariant. -/
lemma inv_step {e : Event} (hc : Clean B m e) (h : Inv B m) : Inv B (m.step B e) := by
  cases e with
  | host b => exact inv_host h fun hb => hc.2 (congrArg Event.host hb)
  | send data => exact inv_send h fun he => hc.1 (.inl he)
  | drain => exact inv_drain h fun he => hc.1 (.inl he)
  | pop => exact inv_pop h
  | flush => exact inv_flush h (hc.1 (.inr rfl))

/-- The frames the ring took come out whole and in order, or are still queued: `transmitted` are
those that `accepted` starts with, and those the interface handed over keep their order too. -/
structure InOrder (m : Modem) : Prop where
  frames : ∃ gone queued, m.trace.accepted.map (·.2) = gone ++ queued ∧
    queued.length = m.queueHeight ∧
    m.transmitted = gone.filter fun f => MIN_L ≤ f.length ∧ f.length ≤ MTU
  interface : (m.trace.accepted.filter (·.1 = .rns)).map (·.2) ++ m.txHoldQueue = m.trace.outgoing

/-- In a run of clean steps every state gives back the accepted frames whole and in order. -/
theorem inOrder_of_clean (h : Reach (Modem.step B) (Clean B) (.setup B) m) : InOrder m := by
  obtain ⟨s, gone, frames, h⟩ := h.invariant inv_setup inv_step
  exact ⟨⟨gone, frames, h.accepted, h.counted.height.symm, h.transmitted⟩, h.outgoing⟩

/-- The ESP32 boards. -/
def esp32 : Board :=
  { CONFIG_QUEUE_SIZE := 6144, CONFIG_QUEUE_MAX_LENGTH := 200
    commandByte := fun _ _ frameLen esc => (frameLen, esc)
    size_pos := by decide, size_lt := by decide, length_lt := by decide }

/-- The host frame `A` and the frame `B` of the interface, one after the other. -/
theorem inOrder_of_clean_two :
    let events : List Event := [.host FEND, .host CMD_DATA, .host 0x41, .host FEND, .send [0x42],
      .pop, .flush]
    InOrder (events.foldl (Modem.step esp32) (.setup esp32)) :=
  inOrder_of_clean (Reach.init.run (by decide +kernel))

/-- The frame `B` of the interface arrives between the bytes `A` and `C` of a host frame: the host
frame goes out without its `A`. -/
theorem not_inOrder_interleaved :
    let events : List Event := [.host FEND, .host CMD_DATA, .host 0x41, .send [0x42], .host 0x43,
      .host FEND, .flush]
    let m := events.foldl (Modem.step esp32) (.setup esp32)
    m.trace.accepted = [(.rns, [0x42]), (.host, [0x41, 0x43])] ∧
      m.transmitted = [[0x42], [0x43]] ∧ ¬ InOrder m := by
  intro events m
  have ha : m.trace.accepted = [(.rns, [0x42]), (.host, [0x41, 0x43])] := by decide +kernel
  have ht : m.transmitted = [[0x42], [0x43]] := by decide +kernel
  refine ⟨ha, ht, ?_⟩
  rintro ⟨⟨gone, queued, h1, _, h2⟩, _⟩
  have hm : [0x43] ∈ m.transmitted := by
    rw [ht]
    decide
  rw [h2] at hm
  have h3 : [0x43] ∈ m.trace.accepted.map (·.2) := by
    rw [h1]
    exact List.mem_append_left _ (List.mem_of_mem_filter hm)
  rw [ha] at h3
  exact absurd h3 (by decide)

end URSupreme.Radio
