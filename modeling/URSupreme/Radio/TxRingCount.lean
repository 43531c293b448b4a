import URSupreme.Radio.TxRingRuns

/-!
# The counters of the LoRa transmit ring

`queued_bytes` and `queue_height` against what the FIFOs and the ring hold, over runs of any host
frames, whole or not. A step keeps them right unless it queues a host frame with no byte in the
ring, or enqueues a frame of the interface or flushes behind the bytes of a half-written host frame.
-/

namespace URSupreme.Radio
open Lib

variable {B : Board} {m : Modem}

/-- The counters are those of what is queued, whatever the host frames lost on the way. -/
def Tallied (B : Board) (m : Modem) : Prop :=
  ∃ s frames, Queued B m s frames ∧ Counted m frames

/-- A step that leaves ring, FIFOs and counters alone keeps the tally. -/
lemma Tallied.keep {m'} (h : Tallied B m)
    (hring : (m'.packetStarts, m'.packetLengths, m'.packetQueue, m'.currentPacketStart,
        m'.queueCursor, m'.queueHeight, m'.queuedBytes) =
      (m.packetStarts, m.packetLengths, m.packetQueue, m.currentPacketStart, m.queueCursor,
        m.queueHeight, m.queuedBytes))
    (hw : m'.trace.written = m.trace.written) : Tallied B m' := by
  obtain ⟨s, frames, hq, hc⟩ := h
  exact ⟨s, frames, hq.keep hc hring hw⟩

lemma tallied_setup : Tallied B (.setup B) := by
  obtain ⟨s, gone, frames, h⟩ := inv_setup (B := B)
  exact ⟨s, frames, h.queued, h.counted⟩

/-- Enqueuing a frame when no host bytes are in the way. -/
lemma Tallied.enqueue {data : Bytes} (h : Tallied B m) (hw : m.trace.written = [])
    (hsp : loraRingHasSpace B m data.length = true) : Tallied B (loraRingEnqueue B m data) := by
  obtain ⟨s, frames, hq, hc⟩ := h
  exact ⟨s, frames ++ [data], hq.enqueue hc hw hsp⟩

/-- The loop of `drain_tx_hold_queue` when no host bytes are in the way. -/
lemma Tallied.drainLoop {held : List Bytes} (h : Tallied B m) (hw : m.trace.written = []) :
    Tallied B (drainLoop B held m) ∧ (Radio.drainLoop B held m).trace.written = [] := by
  induction held generalizing m with
  | nil => exact ⟨h, hw⟩
  | cons front rest ih =>
    unfold Radio.drainLoop
    split
    next hsp =>
      refine ih ((h.enqueue hw hsp).keep rfl rfl) ?_
      show (loraRingEnqueue B m front).trace.written = []
      rw [enqueue_trace]
      rfl
    next => exact ⟨h, hw⟩

/-- `drain_tx_hold_queue`. -/
lemma Tallied.drain (h : Tallied B m) (hw : drains B m = true → m.trace.written = []) :
    Tallied B (drainTxHoldQueue B m) := by
  cases hd : drains B m with
  | true => exact (h.drainLoop (hw hd)).1
  | false =>
    rw [drainTxHoldQueue, drainLoop_of_not rfl hd]
    exact h

/-- A frame that is enqueued after the held ones finds no host bytes in the way. -/
lemma written_of_enqueues {data : Bytes} (h : Tallied B m)
    (hlen : ¬ (data.length < MIN_L ∨ data.length > MTU))
    (hw : enqueues B m (.send data) = true → m.trace.written = [])
    (hh : (drainTxHoldQueue B m).txHoldQueue = [])
    (hsp : loraRingHasSpace B (drainTxHoldQueue B m) data.length = true) :
    (drainTxHoldQueue B m).trace.written = [] := by
  have hok : decide (MIN_L ≤ data.length ∧ data.length ≤ MTU) = true := decide_eq_true (by omega)
  cases hd : drains B m with
  | true => exact (h.drainLoop (hw (by rw [enqueues, hok, hd]; rfl))).2
  | false =>
    rw [drainTxHoldQueue, drainLoop_of_not rfl hd] at hh hsp ⊢
    exact hw (by rw [enqueues, hok, hd, hh, hsp]; rfl)

/-- `LoRaInterface::send_outgoing`. -/
lemma Tallied.send {data : Bytes} (h : Tallied B m)
    (hw : enqueues B m (.send data) = true → m.trace.written = []) :
    Tallied B (sendOutgoing B m data) := by
  unfold sendOutgoing
  dsimp only
  split
  next => exact h
  next hlen =>
    have hwd := written_of_enqueues h hlen hw
    have hd : Tallied B (drainTxHoldQueue B m) := by
      refine h.drain fun hd => hw ?_
      rw [enqueues, hd, decide_eq_true (by omega : MIN_L ≤ data.length ∧ data.length ≤ MTU)]
      rfl
    generalize drainTxHoldQueue B m = m1 at hd hwd
    split
    next hs =>
      have htook : Tallied B
          { m1 with trace := { m1.trace with outgoing := m1.trace.outgoing ++ [data] } } :=
        hd.keep rfl rfl
      exact htook.enqueue (hwd hs.1 hs.2) hs.2
    next =>
      split
      next => exact hd.keep rfl rfl
      next => exact hd

/-- `pop_queue`. -/
lemma Tallied.pop (h : Tallied B m) : Tallied B (popQueue B m) := by
  obtain ⟨s, frames, hq, hc⟩ := h
  cases frames with
  | nil => exact ⟨s, [], by rw [popQueue_nil hq]; exact ⟨hq, hc⟩⟩
  | cons f frames =>
    obtain ⟨_, _, _, _, _, hq, hc⟩ := hq.pop hc
    exact ⟨s + f.length, frames, hq, hc⟩

/-- `flush_queue` when no host bytes lie in the ring. -/
lemma Tallied.flush (h : Tallied B m) (hw : m.trace.written = []) : Tallied B (flushQueue B m) := by
  obtain ⟨s, frames, hq, hc⟩ := h
  obtain ⟨_, _, s', _, hq, hc⟩ := hq.flush hw
  exact ⟨s', [], hq, hc⟩

/-- The closing `FEND`. -/
lemma Tallied.close (h : Tallied B m) (hw : closeAccepts B m = true → m.trace.written ≠ []) :
    Tallied B (closeFrame B m) := by
  cases ha : closeAccepts B m with
  | true =>
    obtain ⟨s, frames, hq, hc⟩ := h
    exact ⟨s, frames ++ [m.trace.written], hq.close hc ha (hw ha)⟩
  | false =>
    rw [closeFrame_of_refused ha]
    exact h.keep rfl rfl

/-- A payload byte. -/
lemma Tallied.dataByte {b : UInt8} (h : Tallied B m) : Tallied B (dataByte B m b) := by
  unfold Radio.dataByte
  split
  next => exact h.keep rfl rfl
  next =>
    dsimp only
    split
    next hroom =>
      obtain ⟨s, frames, hq, hc⟩ := h
      exact ⟨s, frames, Queued.putByte _ _ hq hc hroom.2 rfl rfl rfl⟩
    next => exact h.keep rfl rfl

/-- `serial_callback`. -/
lemma Tallied.host {b : UInt8} (h : Tallied B m) (hw : b = FEND → m.IN_FRAME = true →
      m.command = CMD_DATA → closeAccepts B m = true → m.trace.written ≠ []) :
    Tallied B (serialCallback B m b) := by
  unfold serialCallback
  split
  next hf => exact h.close (hw hf.2.1 hf.1 hf.2.2)
  next =>
    split
    next => exact h.keep rfl rfl
    next =>
      split
      next =>
        split
        next => exact h.keep rfl rfl
        next =>
          split
          next => exact h.dataByte
          next => exact h.keep rfl rfl
      next => exact h

/-- The steps that leave no byte uncounted and count none twice: a frame of the interface enters the
ring, and the ring is flushed, only when no byte of a half-written host frame lies in it, and a host
frame is queued only when a byte of it does. -/
def Covers (B : Board) (m : Modem) (e : Event) : Prop :=
  (enqueues B m e = true ∨ e = .flush → m.trace.written = []) ∧
    (e = .host FEND → m.IN_FRAME = true → m.command = CMD_DATA → closeAccepts B m = true →
      m.trace.written ≠ [])

instance instDecidableCovers (B : Board) (m : Modem) (e : Event) : Decidable (Covers B m e) :=
  inferInstanceAs (Decidable (_ ∧ _))

/-- Such a step keeps the tally. -/
lemma Tallied.step {e : Event} (hc : Covers B m e) (h : Tallied B m) : Tallied B (m.step B e) := by
  cases e with
  | host b => exact h.host fun hb => hc.2 (congrArg Event.host hb)
  | send data => exact h.send fun he => hc.1 (.inl he)
  | drain => exact h.drain fun he => hc.1 (.inl he)
  | pop => exact h.pop
  | flush => exact h.flush (hc.1 (.inr rfl))

/-- `queued_bytes` and `queue_height` are those of the frames and of the partial frame the ring
holds, within its capacities, and an empty ring takes what it took after `setup`. -/
structure Accounted (B : Board) (m : Modem) : Prop where
  held : ∃ starts lengths, m.packetStarts.Holds starts ∧ m.packetLengths.Holds lengths ∧
    m.queueHeight = starts.length ∧ m.queueHeight = lengths.length ∧
    m.queuedBytes = lengths.sum + m.trace.written.length
  height_le : m.queueHeight ≤ B.CONFIG_QUEUE_MAX_LENGTH
  bytes_le : m.queuedBytes ≤ B.CONFIG_QUEUE_SIZE
  empty : m.queueHeight = 0 → ∀ len, loraRingHasSpace B m len =
    loraRingHasSpace B (.setup B) (m.trace.written.length + len)
  popped : ∀ len, loraRingHasSpace B ((popQueue B)^[m.queueHeight] m) len =
    loraRingHasSpace B (.setup B) (m.trace.written.length + len)
  flushed : m.trace.written = [] → ∀ len, loraRingHasSpace B (flushQueue B m) len =
    loraRingHasSpace B (.setup B) len

/-- With no frame queued, only the half-written host frame takes room. -/
lemma hasSpace_nil {s len} (hq : Queued B m s []) (hc : Counted m []) :
    loraRingHasSpace B m len = loraRingHasSpace B (.setup B) (m.trace.written.length + len) := by
  obtain ⟨s', gone, frames, h⟩ := inv_setup (B := B)
  obtain rfl : frames = [] := List.length_eq_zero_iff.mp h.counted.height.symm
  have h1 := @hasSpace_iff _ _ _ _ len hq hc
  have h2 := @hasSpace_iff _ _ _ _ (m.trace.written.length + len) h.queued h.counted
  have h3 : (Modem.setup B).trace.written = [] := rfl
  simp only [h3, List.flatten_nil, List.append_nil, List.length_nil, Nat.zero_add] at h2
  rw [List.flatten_nil, List.nil_append] at h1
  rw [Bool.eq_iff_iff, h1, h2, List.length_nil]

/-- Popping as often as frames are queued leaves none. -/
lemma pop_iterate {s frames} (hq : Queued B m s frames) (hc : Counted m frames) :
    ∃ s', Queued B ((popQueue B)^[frames.length] m) s' [] ∧
      Counted ((popQueue B)^[frames.length] m) [] ∧
      ((popQueue B)^[frames.length] m).trace.written = m.trace.written := by
  induction frames generalizing m s with
  | nil => exact ⟨s, hq, hc, rfl⟩
  | cons f frames ih =>
    obtain ⟨_, _, _, _, e, hq, hc⟩ := hq.pop hc
    obtain ⟨s', hq, hc, hw⟩ := ih hq hc
    refine ⟨s', hq, hc, hw.trans ?_⟩
    rw [e]

lemma Tallied.accounted (h : Tallied B m) : Accounted B m := by
  obtain ⟨s, frames, hq, hc⟩ := h
  have hroom := hq.starts.room
  rw [length_startSlots, hq.startsLast] at hroom
  refine ⟨⟨_, _, hq.starts, hq.lengths, ?_, ?_, ?_⟩, ?_, ?_, fun h0 len => ?_, fun len => ?_,
    fun hw len => ?_⟩
  · rw [length_startSlots, hc.height]
  · rw [List.length_map, hc.height]
  · rw [hc.bytes, List.length_append, List.length_flatten]
  · rw [hc.height]
    exact hroom
  · rw [hc.bytes]
    exact hq.fits
  · rw [hc.height] at h0
    obtain rfl := List.length_eq_zero_iff.mp h0
    exact hasSpace_nil hq hc
  · obtain ⟨s', hq', hc', hw⟩ := pop_iterate hq hc
    rw [hc.height, hasSpace_nil hq' hc', hw]
  · obtain ⟨_, _, s', e, hq', hc'⟩ := hq.flush hw
    rw [hasSpace_nil hq' hc', e]
    show loraRingHasSpace B (.setup B) (m.trace.written.length + len) = _
    rw [hw, List.length_nil, Nat.zero_add]

/-- In a run whose steps all cover the bytes they queue, the counters of every state are right. -/
theorem accounted_of_covers (h : Reach (Modem.step B) (Covers B) (.setup B) m) : Accounted B m :=
  (h.invariant tallied_setup fun hok h => h.step hok).accounted

/-- An oversize host frame, one that is refused a byte, and a frame of the interface, in turn. -/
theorem accounted_of_covers_frames :
    let events : List Event := [.host FEND, .host CMD_DATA, .host 0x41, .host FEND, .send [0x42],
      .host FEND, .host CMD_DATA, .host FESC, .host TFEND, .pop, .host FEND, .pop, .flush]
    Accounted esp32 (events.foldl (Modem.step esp32) (.setup esp32)) :=
  accounted_of_covers (Reach.init.run (by decide +kernel))

/-- An empty data frame is queued as `CONFIG_QUEUE_SIZE` bytes that were never counted, and popping
it takes them off `queued_bytes`: the ring is empty and never takes a frame again until a flush. -/
theorem not_accounted_empty :
    let queued := [Event.host FEND, .host CMD_DATA, .host FEND].foldl (Modem.step esp32)
      (.setup esp32)
    let popped := queued.step esp32 .pop
    queued.queuedBytes = 0 ∧ queued.packetLengths.pop.1 = 6144 ∧
      popped.queueHeight = 0 ∧ popped.queuedBytes = 59392 ∧
      loraRingHasSpace esp32 popped 1 = false ∧ ¬ Accounted esp32 popped := by
  intro queued popped
  have hb : popped.queuedBytes = 59392 := by decide +kernel
  refine ⟨by decide +kernel, by decide +kernel, by decide +kernel, hb, by decide +kernel,
    fun h => ?_⟩
  have hle := h.bytes_le
  rw [hb] at hle
  exact absurd hle (by decide)

end URSupreme.Radio
