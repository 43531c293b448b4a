import URSupreme.Radio.TxRingRuns

/-!
# The hold queue of the interface

Frames that find no room in the transmit ring wait in `tx_hold_queue`. Whatever happens to the ring,
`tx_hold_bytes` is the size of what waits, and the frames that `send_outgoing` took are those it has
enqueued, in order, followed by those that wait. Where only the interface uses the ring, what it has
enqueued is what was transmitted and what the ring holds.
-/

namespace URSupreme.Radio
open Lib

/-- The frames of the interface that were enqueued, in order. -/
def Trace.enqueued (t : Trace) : List Bytes := (t.accepted.filter (·.1 = .rns)).map (·.2)

/-- The account of the hold queue. -/
structure Metered (m : Modem) : Prop where
  bytes : m.txHoldBytes = (m.txHoldQueue.map List.length).sum
  limit : m.txHoldBytes ≤ TX_HOLD_MAX_BYTES
  order : m.trace.enqueued ++ m.txHoldQueue = m.trace.outgoing
  sized : ∀ f ∈ m.trace.outgoing, fitsAir f = true

variable {B : Board} {m m' : Modem} {data : Bytes}

lemma metered_setup : Metered (.setup B) := ⟨rfl, Nat.zero_le _, rfl, nofun⟩

/-- A step that leaves the hold queue and the frames of the interface alone. -/
lemma Metered.keep (h : Metered m) (hq : m'.txHoldQueue = m.txHoldQueue)
    (hb : m'.txHoldBytes = m.txHoldBytes) (he : m'.trace.enqueued = m.trace.enqueued)
    (ho : m'.trace.outgoing = m.trace.outgoing) : Metered m' := by
  refine ⟨?_, ?_, ?_, ?_⟩
  · rw [hb, hq]
    exact h.bytes
  · rw [hb]
    exact h.limit
  · rw [he, hq, ho]
    exact h.order
  · rw [ho]
    exact h.sized

/-- What `lora_ring_enqueue` does to the hold queue and the frames of the interface. -/
lemma loraRingEnqueue_spec : (loraRingEnqueue B m data).txHoldQueue = m.txHoldQueue ∧
    (loraRingEnqueue B m data).txHoldBytes = m.txHoldBytes ∧
      (loraRingEnqueue B m data).trace.enqueued = m.trace.enqueued ++ [data] ∧
        (loraRingEnqueue B m data).trace.outgoing = m.trace.outgoing := by
  have htrace : (loraRingEnqueue B m data).trace = m.trace.enqueue data := by
    unfold loraRingEnqueue
    rw [putBytes_eq]
  refine ⟨enqueue_txHoldQueue, ?_, ?_, ?_⟩
  · unfold loraRingEnqueue
    rw [putBytes_eq]
  · rw [htrace]
    unfold Trace.enqueued Trace.enqueue
    rw [List.filter_append, List.map_append]
    rfl
  · rw [htrace]
    rfl

/-- A held frame goes into the ring. -/
lemma Metered.release {front : Bytes} {rest : List Bytes} (h : Metered m)
    (hq : m.txHoldQueue = front :: rest) :
    Metered { loraRingEnqueue B m front with
      txHoldBytes := (m.txHoldBytes + 2 ^ 32 - front.length) % 2 ^ 32, txHoldQueue := rest } := by
  obtain ⟨-, -, he, ho⟩ := @loraRingEnqueue_spec B m front
  have hb := h.bytes
  have hl : m.txHoldBytes ≤ 64 * 1024 := h.limit
  rw [hq, List.map_cons, List.sum_cons] at hb
  have hlt : (m.txHoldBytes + 2 ^ 32 - front.length) % 2 ^ 32 = (rest.map List.length).sum :=
    by omega
  refine ⟨hlt, ?_, ?_, ?_⟩
  · show (m.txHoldBytes + 2 ^ 32 - front.length) % 2 ^ 32 ≤ 64 * 1024
    omega
  · show (loraRingEnqueue B m front).trace.enqueued ++ rest =
      (loraRingEnqueue B m front).trace.outgoing
    rw [he, ho, ← h.order, hq, List.append_assoc]
    rfl
  · show ∀ f ∈ (loraRingEnqueue B m front).trace.outgoing, fitsAir f = true
    rw [ho]
    exact h.sized

lemma Metered.drainLoop {held : List Bytes} (h : Metered m) (hq : m.txHoldQueue = held) :
    Metered (drainLoop B held m) := by
  induction held generalizing m with
  | nil => exact h
  | cons front rest ih =>
    unfold Radio.drainLoop
    split
    next => exact ih (h.release hq) rfl
    next => exact h

lemma Metered.send (h : Metered m) : Metered (sendOutgoing B m data) := by
  unfold sendOutgoing
  dsimp only
  split
  next => exact h
  next hlen =>
    have hd : Metered (drainTxHoldQueue B m) := h.drainLoop rfl
    have hfit : fitsAir data = true := decide_eq_true (by omega)
    generalize drainTxHoldQueue B m = m1 at hd
    have hsized : ∀ f ∈ m1.trace.outgoing ++ [data], fitsAir f = true := fun f hf => by
      rcases List.mem_append.mp hf with hf | hf
      · exact hd.sized f hf
      · exact List.mem_singleton.mp hf ▸ hfit
    split
    next hs =>
      obtain ⟨hq, hb, he, ho⟩ := @loraRingEnqueue_spec B
        { m1 with trace := { m1.trace with outgoing := m1.trace.outgoing ++ [data] } } data
      refine ⟨?_, ?_, ?_, ?_⟩
      · rw [hb, hq]
        exact hd.bytes
      · rw [hb]
        exact hd.limit
      · have horder := hd.order
        rw [hs.1, List.append_nil] at horder
        rw [he, hq, ho, hs.1, List.append_nil]
        exact congrArg (· ++ [data]) horder
      · rw [ho]
        exact hsized
    next =>
      split
      next hle =>
        have hle : m1.txHoldBytes + data.length ≤ 64 * 1024 := hle
        have hmod : (m1.txHoldBytes + data.length) % 2 ^ 32 = m1.txHoldBytes + data.length :=
          by omega
        refine ⟨?_, ?_, ?_, hsized⟩
        · show (m1.txHoldBytes + data.length) % 2 ^ 32 =
            ((m1.txHoldQueue ++ [data]).map List.length).sum
          rw [hmod, List.map_append, List.sum_append, hd.bytes]
          rfl
        · show (m1.txHoldBytes + data.length) % 2 ^ 32 ≤ 64 * 1024
          rw [hmod]
          exact hle
        · show m1.trace.enqueued ++ (m1.txHoldQueue ++ [data]) = m1.trace.outgoing ++ [data]
          rw [← hd.order, List.append_assoc]
      next => exact hd

/-- `pop_queue` takes frames out of the ring only. -/
lemma popFrame_keeps : (popFrame B m).2.txHoldQueue = m.txHoldQueue ∧
    (popFrame B m).2.txHoldBytes = m.txHoldBytes ∧ (popFrame B m).2.trace = m.trace := by
  unfold popFrame
  dsimp only
  split
  next => exact ⟨rfl, rfl, rfl⟩
  next => exact ⟨rfl, rfl, rfl⟩

lemma Metered.pop (h : Metered m) : Metered (popQueue B m) := by
  unfold popQueue
  split
  next => exact h
  next =>
    obtain ⟨hq, hb, ht⟩ := popFrame_keeps (B := B) (m := m)
    exact h.keep hq hb (congrArg Trace.enqueued ht) (congrArg Trace.outgoing ht)

lemma Metered.flushLoop {fuel : Nat} (h : Metered m) : Metered (flushLoop B fuel m) := by
  induction fuel generalizing m with
  | zero => exact h
  | succ fuel ih =>
    unfold Radio.flushLoop
    split
    next => exact h
    next =>
      obtain ⟨hq, hb, ht⟩ := popFrame_keeps (B := B) (m := m)
      exact ih (h.keep hq hb (congrArg Trace.enqueued ht) (congrArg Trace.outgoing ht))

lemma Metered.flush (h : Metered m) : Metered (flushQueue B m) := by
  have hl := @Metered.flushLoop B m (m.packetStarts.last + 1) h
  exact hl.keep rfl rfl rfl rfl

/-- A frame of the host is none of the interface's. -/
lemma enqueued_close {t : Trace} {queued : Bool} : (t.close queued).enqueued = t.enqueued := by
  cases queued with
  | true =>
    show ((t.accepted ++ [(Source.host, t.frame)]).filter (·.1 = .rns)).map (·.2) = t.enqueued
    rw [List.filter_append, List.map_append]
    exact List.append_nil _
  | false => rfl

lemma Metered.host {b : UInt8} (h : Metered m) : Metered (serialCallback B m b) := by
  unfold serialCallback
  split
  next =>
    unfold closeFrame
    dsimp only
    split
    next => exact h.keep rfl rfl enqueued_close rfl
    next => exact h.keep rfl rfl enqueued_close rfl
  next =>
    split
    next => exact h.keep rfl rfl rfl rfl
    next =>
      split
      next =>
        split
        next => exact h.keep rfl rfl rfl rfl
        next =>
          split
          next =>
            unfold dataByte
            split
            next => exact h.keep rfl rfl rfl rfl
            next =>
              dsimp only
              split
              next => exact h.keep rfl rfl rfl rfl
              next => exact h.keep rfl rfl rfl rfl
          next => exact h.keep rfl rfl rfl rfl
      next => exact h

/-- Whatever happens to the ring, the hold queue is accounted for and no frame of the interface is
lost, duplicated or overtaken. -/
theorem metered_run {ok : Modem → Event → Prop} (h : Reach (Modem.step B) ok (.setup B) m) :
    Metered m := by
  refine h.invariant metered_setup fun {m e} _ hm => ?_
  cases e with
  | host => exact hm.host
  | send => exact hm.send
  | drain => exact hm.drainLoop rfl
  | pop => exact hm.pop
  | flush => exact hm.flush

/-! ### The interface alone -/

/-- A step of the interface or of the radio. -/
def Event.ofInterface : Event → Bool
  | .send _ | .drain | .pop => true
  | .host _ | .flush => false

/-- Nothing of the host is in the ring, or ever was. -/
structure Alone (t : Trace) : Prop where
  written : t.written = []
  accepted : ∀ x ∈ t.accepted, x.1 = .rns

lemma Alone.enqueue (h : Alone m.trace) : Alone (loraRingEnqueue B m data).trace := by
  refine ⟨rfl, fun x hx => ?_⟩
  unfold loraRingEnqueue at hx
  rw [putBytes_eq] at hx
  rcases List.mem_append.mp hx with hx | hx
  · exact h.accepted x hx
  · rw [List.mem_singleton.mp hx]

lemma Alone.drainLoop {held : List Bytes} (h : Alone m.trace) :
    Alone (drainLoop B held m).trace := by
  induction held generalizing m with
  | nil => exact h
  | cons front rest ih =>
    unfold Radio.drainLoop
    split
    next => exact ih h.enqueue
    next => exact h

lemma Alone.step {e : Event} (he : e.ofInterface = true) (h : Alone m.trace) :
    Alone (m.step B e).trace := by
  cases e with
  | host => cases he
  | flush => cases he
  | drain => exact h.drainLoop
  | pop =>
    unfold Modem.step popQueue
    dsimp only
    split
    next => exact h
    next =>
      obtain ⟨-, -, ht⟩ := popFrame_keeps (B := B) (m := m)
      show Alone (popFrame B m).2.trace
      rw [ht]
      exact h
  | send data =>
    unfold Modem.step sendOutgoing
    dsimp only
    have hd : Alone (drainTxHoldQueue B m).trace := h.drainLoop
    split
    next => exact h
    next =>
      split
      next => exact Alone.enqueue ⟨hd.written, hd.accepted⟩
      next =>
        split
        next => exact ⟨hd.written, hd.accepted⟩
        next => exact hd

/-- In every run of `send_outgoing`, drains and pops, `tx_hold_bytes` is the size of what is held
and keeps to its limit, and the frames taken are, each once and in order, those transmitted, those
in the ring, and those held. -/
theorem held_in_order (h : Reach (Modem.step B) (fun _ e => e.ofInterface = true) (.setup B) m) :
    m.txHoldBytes = (m.txHoldQueue.map List.length).sum ∧ m.txHoldBytes ≤ TX_HOLD_MAX_BYTES ∧
      m.trace.enqueued ++ m.txHoldQueue = m.trace.outgoing ∧
      ∃ s frames, Queued B m s frames ∧ m.transmitted ++ frames = m.trace.enqueued := by
  have hm := metered_run h
  have hi : Inv B m ∧ Alone m.trace := by
    refine h.invariant (P := fun m => Inv B m ∧ Alone m.trace) ⟨inv_setup, rfl, nofun⟩
      fun he hi => ⟨inv_step ⟨fun _ => hi.2.written, fun hb => ?_⟩ hi.1, hi.2.step he⟩
    rw [hb] at he
    cases he
  obtain ⟨⟨s, gone, frames, ho⟩, halone⟩ := hi
  have hall : m.trace.enqueued = gone ++ frames := by
    rw [← ho.accepted]
    unfold Trace.enqueued
    rw [List.filter_eq_self.mpr fun x hx => decide_eq_true (halone.accepted x hx)]
  refine ⟨hm.bytes, hm.limit, hm.order, s, frames, ho.queued, ?_⟩
  rw [hall, ho.transmitted]
  congr 1
  refine List.filter_eq_self.mpr fun f hf => hm.sized f ?_
  rw [← hm.order, hall]
  exact List.mem_append_left _ (List.mem_append_left _ hf)

/-- In a ring of one byte the second of two frames waits, and goes out behind the first. -/
theorem held_in_order_two :
    let B : Board := { esp32 with
      CONFIG_QUEUE_SIZE := 1, size_pos := by decide, size_lt := by decide }
    let events : List Event := [.send [0x41], .send [0x42], .send [0x43], .pop, .drain, .pop]
    let m := events.foldl (Modem.step B) (.setup B)
    m.transmitted = [[0x41], [0x42]] ∧ m.txHoldQueue = [[0x43]] ∧
      m.trace.enqueued ++ m.txHoldQueue = m.trace.outgoing := by
  refine ⟨by decide +kernel, by decide +kernel, (held_in_order (Reach.init.run ?_)).2.2.1⟩
  decide +kernel

end URSupreme.Radio
