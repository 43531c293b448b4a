import URSupreme.Lib.Run
import URSupreme.Radio.KissIndicate

/-!
# Frames from the host

The commands of `serial_callback` in `RNode_Firmware.ino` whose value goes through `cmdbuf`, beside
the data frames: frequency, bandwidth and the two airtime limits. A frame that comes in behind
anything else is heard as it is, but not behind the `FEND` of a data frame that was cut off, which
it closes, not with an `ESCAPE` that was left over in front of its first byte, and not behind bytes
that the ring has kept of a frame which was refused.
-/

namespace URSupreme.Radio
open Lib Kiss

def CMD_L : ℕ := 64

/-- The modem, `cmdbuf`, the variables that are reported, and the reports. -/
structure Host where
  modem : Modem
  cmdbuf : ℕ → UInt8 := fun _ => 0
  vars : Vars := {}
  indicated : List Call := []

/-- The other commands: what they make of `cmdbuf`, the variables and the reports. -/
def Others : Type := UInt8 → UInt8 → Host → (ℕ → UInt8) × Vars × List Call

variable (B : Board) (others : Others)

/-- The number in the first bytes of `cmdbuf`. -/
def Host.value (h : Host) (len : ℕ) : ℕ := be ((List.range len).map h.cmdbuf)

/-- The end of `CMD_FREQUENCY`. -/
def Host.frequency (h : Host) : Host :=
  let freq := UInt32.ofNat (h.value 4)
  if freq = 0 then { h with indicated := h.indicated ++ [.frequency] }
  else
    { h with vars := { h.vars with lora_freq := freq }, indicated := h.indicated ++ [.frequency] }

/-- The end of `CMD_BANDWIDTH`. -/
def Host.bandwidth (h : Host) : Host :=
  let bw := UInt32.ofNat (h.value 4)
  if bw = 0 then { h with indicated := h.indicated ++ [.bandwidth] }
  else { h with vars := { h.vars with lora_bw := bw }, indicated := h.indicated ++ [.bandwidth] }

/-- An airtime limit, in hundredths of a percent; one of 100 percent and more is none. -/
def airtimeLimit (value : UInt16) : UInt16 := if value ≥ 10000 then 0 else value

/-- The end of `CMD_ST_ALOCK`. -/
def Host.stAlock (h : Host) : Host :=
  { h with
    vars := { h.vars with st_airtime_limit := airtimeLimit (UInt16.ofNat (h.value 2)) }
    indicated := h.indicated ++ [.st_alock] }

/-- The end of `CMD_LT_ALOCK`. -/
def Host.ltAlock (h : Host) : Host :=
  { h with
    vars := { h.vars with lt_airtime_limit := airtimeLimit (UInt16.ofNat (h.value 2)) }
    indicated := h.indicated ++ [.lt_alock] }

/-- A byte of a value of `len` bytes, and what is done when it is complete. -/
def Host.argument (len : ℕ) (apply : Host → Host) (sbyte : UInt8) (h : Host) : Host :=
  let m := h.modem
  let h :=
    if sbyte = FESC then { h with modem := { m with ESCAPE := true } }
    else
      let c := unescape m.ESCAPE sbyte
      if m.frameLen < CMD_L then
        { h with
          modem := { m with ESCAPE := false, frameLen := m.frameLen + 1 }
          cmdbuf := Function.update h.cmdbuf m.frameLen c }
      else { h with modem := { m with ESCAPE := false } }
  if h.modem.frameLen = len then apply h else h

/-- `serial_callback`. -/
def Host.serialCallback (h : Host) (sbyte : UInt8) : Host :=
  let m := h.modem
  if sbyte = FEND ∨ ¬ (m.IN_FRAME = true ∧ m.frameLen < MTU) ∨
      (m.frameLen = 0 ∧ m.command = CMD_UNKNOWN) ∨ m.command = CMD_DATA then
    { h with modem := Radio.serialCallback B m sbyte }
  else if m.command = CMD_FREQUENCY then h.argument 4 Host.frequency sbyte
  else if m.command = CMD_BANDWIDTH then h.argument 4 Host.bandwidth sbyte
  else if m.command = CMD_ST_ALOCK then h.argument 2 Host.stAlock sbyte
  else if m.command = CMD_LT_ALOCK then h.argument 2 Host.ltAlock sbyte
  else
    let (cmdbuf, vars, indicated) := others m.command sbyte h
    { modem := Radio.serialCallback B m sbyte, cmdbuf, vars, indicated }

/-- A byte comes in, or something else happens to the ring. -/
inductive HostEvent where
  | byte (sbyte : UInt8)
  | ring (e : Event)

def Host.step (h : Host) : HostEvent → Host
  | .byte sbyte => h.serialCallback B others sbyte
  | .ring e => { h with modem := h.modem.step B e }

/-- Bytes come in, one after the other. -/
def Host.hear (h : Host) (bytes : Bytes) : Host := bytes.foldl (Host.serialCallback B others) h

/-- A frame of the host: a packet, or a value. -/
inductive Sent where
  | data (payload : Bytes)
  | frequency (value : UInt32)
  | bandwidth (value : UInt32)
  | stAlock (value : UInt16)
  | ltAlock (value : UInt16)

def Sent.command : Sent → UInt8
  | .data _ => CMD_DATA
  | .frequency _ => CMD_FREQUENCY
  | .bandwidth _ => CMD_BANDWIDTH
  | .stAlock _ => CMD_ST_ALOCK
  | .ltAlock _ => CMD_LT_ALOCK

def Sent.payload : Sent → Bytes
  | .data payload => payload
  | .frequency value | .bandwidth value => be32 value
  | .stAlock value | .ltAlock value => be16 value

/-- The bytes of a frame. -/
def Sent.bytes (f : Sent) : Bytes := FEND :: f.command :: escape f.payload ++ [FEND]

/-- Where a frame is to have an effect: a packet is neither empty nor too long, and the ring has
room for it. -/
def Host.Room (h : Host) : Sent → Prop
  | .data payload => MIN_L ≤ payload.length ∧ payload.length ≤ MTU ∧
      loraRingHasSpace B h.modem payload.length = true
  | _ => True

/-- The packet is queued, as one and as it is. -/
structure Enqueued (m m' : Modem) (payload : Bytes) : Prop where
  bytes : m'.queuedBytes = m.queuedBytes + payload.length
  height : m'.queueHeight = m.queueHeight + 1
  lengths : m'.packetLengths = m.packetLengths.push payload.length
  packet : ∃ start, m'.packetStarts = m.packetStarts.push start ∧
    readRing B m' start payload.length = payload

/-- What a frame is to do. -/
def Effect (h h' : Host) : Sent → Prop
  | .data payload => Enqueued B h.modem h'.modem payload
  | .frequency value => h'.vars.lora_freq = (if value = 0 then h.vars.lora_freq else value) ∧
      h'.indicated = h.indicated ++ [.frequency]
  | .bandwidth value => h'.vars.lora_bw = (if value = 0 then h.vars.lora_bw else value) ∧
      h'.indicated = h.indicated ++ [.bandwidth]
  | .stAlock value => h'.vars.st_airtime_limit = airtimeLimit value ∧
      h'.indicated = h.indicated ++ [.st_alock]
  | .ltAlock value => h'.vars.lt_airtime_limit = airtimeLimit value ∧
      h'.indicated = h.indicated ++ [.lt_alock]

/-- A left over `ESCAPE` does not touch the first byte. -/
def Untouched (m : Modem) (payload : Bytes) : Prop :=
  m.ESCAPE = true → payload.head? ≠ some TFEND ∧ payload.head? ≠ some TFESC

/-- The condition: no data frame is open; the first byte is not one that a left over `ESCAPE`
changes; and for a packet, nothing of an earlier one is in front of it, and it does not fill the
ring to its last byte. -/
def Host.Clean (h : Host) (f : Sent) : Prop :=
  ¬ (h.modem.IN_FRAME = true ∧ h.modem.command = CMD_DATA) ∧
    match f with
    | .data payload => Untouched h.modem payload ∧
        h.modem.currentPacketStart = h.modem.queueCursor ∧
        h.modem.queuedBytes + payload.length < B.CONFIG_QUEUE_SIZE
    | .frequency value | .bandwidth value => Untouched h.modem (be32 value)
    | .stAlock _ | .ltAlock _ => True

variable {B others} {h h' : Host} {m m' : Modem} {b c : UInt8} {bytes payload l : Bytes} {e : Event}
  {esc : Bool} {f : Sent}

/-! ### The places in the ring -/

/-- The cursor and the start of the packet are slots of the ring. -/
structure Within (B : Board) (m : Modem) : Prop where
  cursor : m.queueCursor < B.CONFIG_QUEUE_SIZE
  start : m.currentPacketStart < B.CONFIG_QUEUE_SIZE

lemma putByte_cursor : (putByte B m b).queueCursor < B.CONFIG_QUEUE_SIZE ∨
    B.CONFIG_QUEUE_SIZE ≤ m.queueCursor := by
  have hpos := B.size_pos
  unfold putByte
  dsimp only
  split
  next => exact .inl hpos
  next => omega

lemma Within.putByte (h : Within B m) : Within B (putByte B m b) :=
  ⟨putByte_cursor.resolve_right (not_le.mpr h.cursor), h.start⟩

lemma Within.putBytes (h : Within B m) : Within B (bytes.foldl (Radio.putByte B) m) := by
  induction bytes generalizing m with
  | nil => exact h
  | cons b bytes ih => exact ih h.putByte

lemma Within.enqueue (h : Within B m) : Within B (loraRingEnqueue B m bytes) :=
  ⟨h.putBytes.cursor, h.putBytes.cursor⟩

lemma Within.drainLoop {held : List Bytes} (h : Within B m) : Within B (drainLoop B held m) := by
  induction held generalizing m with
  | nil => exact h
  | cons front rest ih =>
    rw [Radio.drainLoop]
    split
    next =>
      apply ih
      exact ⟨h.enqueue.cursor, h.enqueue.start⟩
    next => exact h

lemma Within.send (h : Within B m) : Within B (sendOutgoing B m bytes) := by
  have hd : Within B (drainTxHoldQueue B m) := h.drainLoop
  unfold sendOutgoing
  dsimp only
  split
  next => exact h
  next =>
    split
    next =>
      apply Within.enqueue
      exact ⟨hd.cursor, hd.start⟩
    next =>
      split
      next => exact ⟨hd.cursor, hd.start⟩
      next => exact hd

lemma Within.popFrame (h : Within B m) : Within B (popFrame B m).2 := by
  unfold Radio.popFrame
  dsimp only
  split
  all_goals exact ⟨h.cursor, h.start⟩

lemma Within.pop (h : Within B m) : Within B (popQueue B m) := by
  unfold popQueue
  split
  next => exact h
  next => exact ⟨h.popFrame.cursor, h.popFrame.start⟩

lemma Within.flushLoop {fuel : ℕ} (h : Within B m) : Within B (flushLoop B fuel m) := by
  induction fuel generalizing m with
  | zero => exact h
  | succ fuel ih =>
    rw [Radio.flushLoop]
    split
    next => exact h
    next => exact ih h.popFrame

lemma Within.close (h : Within B m) : Within B (closeFrame B m) := by
  unfold closeFrame
  dsimp only
  split
  next => exact ⟨h.cursor, h.cursor⟩
  next => exact ⟨h.cursor, h.start⟩

lemma Within.dataByte (h : Within B m) : Within B (dataByte B m b) := by
  unfold Radio.dataByte
  dsimp only
  split
  next => exact ⟨h.cursor, h.start⟩
  next =>
    split
    next =>
      apply Within.putByte
      exact ⟨h.cursor, h.start⟩
    next => exact ⟨h.cursor, h.start⟩

lemma Within.callback (h : Within B m) : Within B (Radio.serialCallback B m b) := by
  unfold Radio.serialCallback
  split
  next => exact h.close
  next =>
    split
    next => exact ⟨h.cursor, h.start⟩
    next =>
      split
      next =>
        split
        next => exact ⟨h.cursor, h.start⟩
        next =>
          split
          next => exact h.dataByte
          next => exact ⟨h.cursor, h.start⟩
      next => exact h

lemma Within.argument {len : ℕ} {apply : Host → Host} (ha : ∀ h, (apply h).modem = h.modem)
    (h' : Within B h.modem) : Within B (h.argument len apply b).modem := by
  unfold Host.argument
  dsimp only
  repeat' split
  all_goals
    try rw [ha]
    exact ⟨h'.cursor, h'.start⟩

lemma frequency_modem (h : Host) : h.frequency.modem = h.modem := by
  simp only [Host.frequency, apply_ite Host.modem, ite_self]

lemma bandwidth_modem (h : Host) : h.bandwidth.modem = h.modem := by
  simp only [Host.bandwidth, apply_ite Host.modem, ite_self]

lemma frequency_indicated (h : Host) : h.frequency.indicated = h.indicated ++ [.frequency] := by
  simp only [Host.frequency, apply_ite Host.indicated, ite_self]

lemma bandwidth_indicated (h : Host) : h.bandwidth.indicated = h.indicated ++ [.bandwidth] := by
  simp only [Host.bandwidth, apply_ite Host.indicated, ite_self]

lemma frequency_vars (h : Host) : h.frequency.vars.lora_freq =
    if UInt32.ofNat (h.value 4) = 0 then h.vars.lora_freq else UInt32.ofNat (h.value 4) := by
  simp only [Host.frequency, apply_ite Host.vars, apply_ite Vars.lora_freq]

lemma bandwidth_vars (h : Host) : h.bandwidth.vars.lora_bw =
    if UInt32.ofNat (h.value 4) = 0 then h.vars.lora_bw else UInt32.ofNat (h.value 4) := by
  simp only [Host.bandwidth, apply_ite Host.vars, apply_ite Vars.lora_bw]

lemma stAlock_indicated (h : Host) : h.stAlock.indicated = h.indicated ++ [.st_alock] := rfl

lemma ltAlock_indicated (h : Host) : h.ltAlock.indicated = h.indicated ++ [.lt_alock] := rfl

lemma stAlock_vars (h : Host) :
    h.stAlock.vars.st_airtime_limit = airtimeLimit (UInt16.ofNat (h.value 2)) := rfl

lemma ltAlock_vars (h : Host) :
    h.ltAlock.vars.lt_airtime_limit = airtimeLimit (UInt16.ofNat (h.value 2)) := rfl

lemma Within.step {e : HostEvent} (hw : Within B h.modem) :
    Within B (h.step B others e).modem := by
  cases e with
  | byte sbyte =>
    change Within B (h.serialCallback B others sbyte).modem
    unfold Host.serialCallback
    dsimp only
    split
    next => exact hw.callback
    next =>
      split
      next => exact hw.argument frequency_modem
      next =>
        split
        next => exact hw.argument bandwidth_modem
        next =>
          split
          next => exact hw.argument fun _ => rfl
          next =>
            split
            next => exact hw.argument fun _ => rfl
            next => exact hw.callback
  | ring e =>
    cases e with
    | host sbyte => exact hw.callback
    | send data => exact hw.send
    | drain => exact hw.drainLoop
    | pop => exact hw.pop
    | flush => exact ⟨hw.flushLoop.cursor, hw.flushLoop.start⟩

lemma within_of_reach (h : Reach (Host.step B others) (fun _ _ => True) { modem := .setup B } h') :
    Within B h'.modem :=
  h.invariant (P := fun h => Within B h.modem) ⟨B.size_pos, B.size_pos⟩ fun _ hw => hw.step

/-- The length of the packet, from its start to the cursor. -/
lemma Within.frameLength (h : Within B m) : Radio.frameLength B m =
    if m.currentPacketStart < m.queueCursor then m.queueCursor - m.currentPacketStart
    else B.CONFIG_QUEUE_SIZE - m.currentPacketStart + m.queueCursor := by
  have hlt := B.size_lt
  have hs := h.start
  have hc := h.cursor
  unfold Radio.frameLength
  dsimp only
  split_ifs
  all_goals omega

/-! ### What is heard of an escaped payload -/

/-- The byte that is heard where `b` was escaped. -/
def heard (esc : Bool) (b : UInt8) : UInt8 := if b = FEND ∨ b = FESC then b else unescape esc b

/-- The bytes that are heard where `payload` was escaped. -/
def heardAll (esc : Bool) : Bytes → Bytes
  | [] => []
  | b :: payload => heard esc b :: payload

@[simp] lemma length_heardAll : (heardAll esc payload).length = payload.length := by
  cases payload <;> rfl

@[simp] lemma heardAll_false : heardAll false payload = payload := by
  cases payload with
  | nil => rfl
  | cons b payload => simp [heardAll, heard, unescape]

lemma heard_true : heard true b = if b = TFEND then FEND else if b = TFESC then FESC else b := by
  unfold heard unescape
  rw [if_pos rfl]
  split
  next hb =>
    cases hb with
    | inl hb =>
      subst hb
      rfl
    | inr hb =>
      subst hb
      rfl
  next => rfl

/-- What was sent is heard when the first byte is untouched. -/
lemma heardAll_iff : heardAll m.ESCAPE payload = payload ↔ Untouched m payload := by
  unfold Untouched
  cases m.ESCAPE with
  | false => simp
  | true =>
    cases payload with
    | nil => simp [heardAll]
    | cons b payload =>
      simp only [heardAll, heard_true, List.cons.injEq, and_true, List.head?_cons, ne_eq,
        Option.some.injEq, forall_const]
      by_cases hb : b = TFEND
      · subst hb
        decide
      · by_cases hb' : b = TFESC
        · subst hb'
          decide
        · simp [hb, hb']

lemma be_heardAll : be (heardAll esc payload) = be payload ↔ heardAll esc payload = payload := by
  cases payload with
  | nil => simp [heardAll]
  | cons b payload =>
    simp [heardAll, UInt8.toNat_inj]

lemma fend_not_mem_escape : FEND ∉ escape payload := by
  have hesc : FEND ≠ FESC := by decide
  have htfend : FEND ≠ TFEND := by decide
  have htfesc : FEND ≠ TFESC := by decide
  induction payload with
  | nil => simp [escape]
  | cons b payload ih =>
    unfold escape
    split
    next => simp [ih, hesc, htfend]
    next hb =>
      split
      next => simp [ih, hesc, htfesc]
      next => simp [ih, Ne.symm hb]

/-! ### The bytes of a packet -/

/-- Between the command and the end of a packet: `l` of it is in the ring, behind the cursor. -/
structure Writing (B : Board) (m m' : Modem) (l : Bytes) : Prop where
  inFrame : m'.IN_FRAME = true
  command : m'.command = CMD_DATA
  frameLen : m'.frameLen = 0
  starts : m'.packetStarts = m.packetStarts
  lengths : m'.packetLengths = m.packetLengths
  start : m'.currentPacketStart = m.currentPacketStart
  height : m'.queueHeight = m.queueHeight
  bytes : m'.queuedBytes = m.queuedBytes + l.length
  filled : Filled B m' m.queueCursor l

lemma Writing.callback (h : Writing B m m' l) (hb : b ≠ FEND) :
    Radio.serialCallback B m' b = dataByte B m' b := by
  have hmtu : m'.frameLen < MTU := by
    rw [h.frameLen]
    decide
  have hcmd : ¬ (m'.frameLen = 0 ∧ m'.command = CMD_UNKNOWN) := by
    rw [h.command]
    exact fun hc => absurd hc.2 (by decide)
  unfold Radio.serialCallback
  rw [if_neg (fun hc => hb hc.2.1), if_neg hb, if_pos ⟨h.inFrame, hmtu⟩, if_neg hcmd,
    if_pos h.command]

/-- `FESC` writes nothing. -/
lemma Writing.fesc (h : Writing B m m' l) :
    Writing B m (Radio.serialCallback B m' FESC) l ∧
      (Radio.serialCallback B m' FESC).ESCAPE = true := by
  rw [h.callback (by decide), Radio.dataByte, if_pos rfl]
  exact ⟨⟨h.inFrame, h.command, h.frameLen, h.starts, h.lengths, h.start, h.height, h.bytes,
    h.filled⟩, rfl⟩

/-- Another byte is written as it is, or as the one that it is escaped to. -/
lemma Writing.byte (h : Writing B m m' l) (hb : b ≠ FEND) (hb' : b ≠ FESC)
    (hheight : m.queueHeight < B.CONFIG_QUEUE_MAX_LENGTH)
    (hbytes : m.queuedBytes + l.length < B.CONFIG_QUEUE_SIZE) :
    Writing B m (Radio.serialCallback B m' b) (l ++ [unescape m'.ESCAPE b]) ∧
      (Radio.serialCallback B m' b).ESCAPE = false := by
  have hsize := B.size_lt
  have hroom : m'.queueHeight < B.CONFIG_QUEUE_MAX_LENGTH ∧
      m'.queuedBytes < B.CONFIG_QUEUE_SIZE := by
    rw [h.height, h.bytes]
    exact ⟨hheight, hbytes⟩
  have hput := h.filled.putByte (b := unescape m'.ESCAPE b) (by omega)
  rw [h.callback hb, Radio.dataByte, if_neg hb']
  dsimp only
  rw [if_pos hroom]
  refine ⟨⟨h.inFrame, h.command, h.frameLen, h.starts, h.lengths, h.start, h.height, ?_, hput⟩,
    rfl⟩
  show (m'.queuedBytes + 1) % 2 ^ 16 = _
  rw [h.bytes, List.length_append, List.length_singleton, Nat.mod_eq_of_lt (by omega), add_assoc]

/-- The bytes of an escaped payload are written as they are heard. -/
lemma Writing.escaped (h : Writing B m m' l)
    (hheight : m.queueHeight < B.CONFIG_QUEUE_MAX_LENGTH)
    (hbytes : m.queuedBytes + l.length + payload.length ≤ B.CONFIG_QUEUE_SIZE) :
    Writing B m ((escape payload).foldl (Radio.serialCallback B) m')
      (l ++ heardAll m'.ESCAPE payload) := by
  induction payload generalizing m' l with
  | nil =>
    rw [heardAll, List.append_nil]
    exact h
  | cons b payload ih =>
    rw [List.length_cons] at hbytes
    -- behind the first byte no `ESCAPE` is left
    have hnext : ∀ {m'' : Modem} {c : UInt8}, Writing B m m'' (l ++ [c]) ∧ m''.ESCAPE = false →
        Writing B m ((escape payload).foldl (Radio.serialCallback B) m'') (l ++ c :: payload) := by
      intro m'' c ⟨hw, he⟩
      have hrest := ih hw (by
        rw [List.length_append, List.length_singleton]
        omega)
      rwa [he, heardAll_false, List.append_assoc] at hrest
    unfold escape
    split
    next hb =>
      subst hb
      obtain ⟨hw, he⟩ := h.fesc
      have hbyte := hw.byte (b := TFEND) (by decide) (by decide) hheight (by omega)
      rw [he] at hbyte
      exact hnext hbyte
    next hb =>
      split
      next hb' =>
        subst hb'
        obtain ⟨hw, he⟩ := h.fesc
        have hbyte := hw.byte (b := TFESC) (by decide) (by decide) hheight (by omega)
        rw [he] at hbyte
        exact hnext hbyte
      next hb' =>
        have hbyte := h.byte hb hb' hheight (by omega)
        have hheard : heard m'.ESCAPE b = unescape m'.ESCAPE b :=
          if_neg (not_or.mpr ⟨hb, hb'⟩)
        rw [← hheard] at hbyte
        exact hnext hbyte

namespace FIFOBuffer16

lemma push_inj {q : FIFOBuffer16} {a b : ℕ} : q.push a = q.push b ↔ a = b := by
  refine ⟨fun h => ?_, fun h => h ▸ rfl⟩
  have hbuf : Function.update q.buffer q.tail a = Function.update q.buffer q.tail b :=
    congrArg FIFOBuffer16.buffer h
  exact Function.update_injective _ _ hbuf

end FIFOBuffer16

lemma Writing.within (h : Writing B m m' l) (hw : Within B m) : Within B m' where
  cursor := by
    rw [h.filled.2]
    exact Nat.mod_lt _ B.size_pos
  start := by
    rw [h.start]
    exact hw.start

/-- The ring takes the packet unless its last byte was the last that is free. -/
lemma Writing.accepts_iff (h : Writing B m m' l) (hw : Within B m)
    (hfull : m.packetStarts.isFull = false) :
    closeAccepts B m' = true ↔ m.queuedBytes + l.length < B.CONFIG_QUEUE_SIZE := by
  have hw' := h.within hw
  have hlen : frameLength B m' ≥ MIN_L := by
    have hcursor := hw'.cursor
    have hstart := hw'.start
    rw [hw'.frameLength]
    unfold MIN_L
    split
    next => omega
    next => omega
  rw [closeAccepts, h.starts, hfull, h.bytes]
  simp [hlen]

/-- Its length is right when it begins where the cursor was. -/
lemma Writing.length_iff (h : Writing B m m' l) (hw : Within B m) (hpos : 0 < l.length)
    (hlt : l.length < B.CONFIG_QUEUE_SIZE) :
    frameLength B m' = l.length ↔ m.currentPacketStart = m.queueCursor := by
  have hs := hw.start
  have hc := hw.cursor
  have hcursor := h.filled.2
  rw [add_mod_ring hc (by omega)] at hcursor
  rw [(h.within hw).frameLength, h.start]
  split at hcursor
  next =>
    split
    next => omega
    next => omega
  next =>
    split
    next => omega
    next => omega

/-- The end of a packet. -/
lemma Writing.close_iff (h : Writing B m m' l) (hw : Within B m) (hpos : MIN_L ≤ payload.length)
    (hspace : loraRingHasSpace B m payload.length = true) (hl : l.length = payload.length) :
    Enqueued B m (closeFrame B m') payload ↔ l = payload ∧
      m.currentPacketStart = m.queueCursor ∧
      m.queuedBytes + payload.length < B.CONFIG_QUEUE_SIZE := by
  have hmax := B.length_lt
  have hmin : 1 ≤ payload.length := hpos
  obtain ⟨⟨hfull, hheight⟩, hbytes⟩ : (m.packetStarts.isFull = false ∧
      m.queueHeight < B.CONFIG_QUEUE_MAX_LENGTH) ∧
      m.queuedBytes + payload.length ≤ B.CONFIG_QUEUE_SIZE := by
    simpa [loraRingHasSpace] using hspace
  have hacc := h.accepts_iff hw hfull
  rw [hl] at hacc
  cases ha : closeAccepts B m' with
  | false =>
    rw [closeFrame_of_refused ha]
    constructor
    · intro he
      have hh : m'.queueHeight = m.queueHeight + 1 := he.height
      rw [h.height] at hh
      omega
    · intro hr
      rw [hacc.mpr hr.2.2] at ha
      exact absurd ha (by decide)
  | true =>
    have hlt := hacc.mp ha
    have hlen := h.length_iff hw (by omega) (by omega)
    rw [hl] at hlen
    have hread : readRing B m' m.queueCursor payload.length = l := by
      rw [← hl]
      exact h.filled.1.read
    have hclose : closeAccepts B { m' with IN_FRAME := false } = true := ha
    rw [closeFrame, if_pos hclose]
    constructor
    · intro he
      have hlengths : m'.packetLengths.push (frameLength B m') =
          m.packetLengths.push payload.length := he.lengths
      rw [h.lengths, FIFOBuffer16.push_inj, hlen] at hlengths
      obtain ⟨start, hstart, hpacket⟩ := he.packet
      have hstarts : m'.packetStarts.push m'.currentPacketStart = m.packetStarts.push start :=
        hstart
      rw [h.starts, FIFOBuffer16.push_inj, h.start, hlengths] at hstarts
      subst hstarts
      exact ⟨hread.symm.trans hpacket, hlengths, hlt⟩
    · intro hr
      obtain ⟨hlp, hstart, -⟩ := hr
      refine ⟨?_, ?_, ?_, m.queueCursor, ?_, hread.trans hlp⟩
      · exact h.bytes.trans (by rw [hl])
      · show (m'.queueHeight + 1) % 2 ^ 8 = m.queueHeight + 1
        rw [h.height, Nat.mod_eq_of_lt (by omega)]
      · show m'.packetLengths.push (frameLength B m') = _
        rw [h.lengths, hlen.mpr hstart]
      · show m'.packetStarts.push m'.currentPacketStart = _
        rw [h.starts, h.start, hstart]

/-! ### The beginning of a frame -/

lemma hear_append {bytes' : Bytes} :
    h.hear B others (bytes ++ bytes') = (h.hear B others bytes).hear B others bytes' :=
  List.foldl_append

lemma hear_frame : h.hear B others f.bytes =
    (((h.serialCallback B others FEND).serialCallback B others f.command).hear B others
      (escape f.payload)).serialCallback B others FEND := by
  show h.hear B others ((FEND :: f.command :: escape f.payload) ++ [FEND]) = _
  rw [hear_append]
  rfl

lemma command_ne_fend : f.command ≠ FEND := by
  unfold Sent.command
  split
  all_goals decide

lemma callback_fend :
    h.serialCallback B others FEND = { h with modem := Radio.serialCallback B h.modem FEND } := by
  unfold Host.serialCallback
  dsimp only
  exact if_pos (.inl rfl)

lemma callback_data (hc : h.modem.command = CMD_DATA) :
    h.serialCallback B others b = { h with modem := Radio.serialCallback B h.modem b } := by
  unfold Host.serialCallback
  dsimp only
  exact if_pos (.inr (.inr (.inr hc)))

/-- The bytes of a packet leave the command. -/
lemma command_callback (hb : b ≠ FEND) (hc : m.command = CMD_DATA) :
    (Radio.serialCallback B m b).command = CMD_DATA := by
  unfold Radio.serialCallback
  rw [if_neg fun h => hb h.2.1, if_neg hb]
  split
  next =>
    have hcmd : ¬ (m.frameLen = 0 ∧ m.command = CMD_UNKNOWN) := by
      rw [hc]
      exact fun h => absurd h.2 (by decide)
    rw [if_neg hcmd]
    unfold Radio.dataByte
    dsimp only
    split
    next => exact hc
    next =>
      split
      next => exact hc
      next => exact hc
  next => exact hc

/-- Where no packet is open, the first two bytes open a frame. -/
lemma open_frame (ho : ¬ (h.modem.IN_FRAME = true ∧ h.modem.command = CMD_DATA)) (hc : c ≠ FEND) :
    (h.serialCallback B others FEND).serialCallback B others c =
      { h with modem := { h.modem with
          IN_FRAME := true, command := c, frameLen := 0
          trace := { h.modem.trace with
            frame := [], frameEsc := false, whole := h.modem.trace.written.isEmpty } } } := by
  have hopen : Radio.serialCallback B h.modem FEND =
      { h.modem with
        IN_FRAME := true, command := CMD_UNKNOWN, frameLen := 0
        trace := { h.modem.trace with
          frame := [], frameEsc := false, whole := h.modem.trace.written.isEmpty } } := by
    unfold Radio.serialCallback
    rw [if_neg fun hc => ho ⟨hc.1, hc.2.2⟩, if_pos rfl]
  have hmtu : 0 < MTU := by decide
  rw [callback_fend, hopen, Host.serialCallback, if_pos (.inr (.inr (.inl ⟨rfl, rfl⟩))),
    Radio.serialCallback]
  dsimp only
  rw [if_neg fun hf => hc hf.2.1, if_neg hc, if_pos ⟨rfl, hmtu⟩, if_pos ⟨rfl, rfl⟩]

/-- Where one was open it is closed, and the bytes that follow are not heard. -/
lemma hear_closed (hf : h.modem.IN_FRAME = false) (hc : h.modem.command = CMD_DATA)
    (hb : FEND ∉ bytes) : h.hear B others bytes = h := by
  induction bytes with
  | nil => rfl
  | cons b bytes ih =>
    rw [List.mem_cons, not_or] at hb
    obtain ⟨hne, hb⟩ := hb
    have hcall : h.serialCallback B others b = h := by
      have hframe : ¬ h.modem.IN_FRAME = true := by
        rw [hf]
        decide
      rw [callback_data hc, Radio.serialCallback, if_neg fun hc => hframe hc.1,
        if_neg (Ne.symm hne), if_neg fun hc => hframe hc.1]
    show (h.serialCallback B others b).hear B others bytes = h
    rw [hcall]
    exact ih hb

lemma closeFrame_eq : closeFrame B m = { m with
    IN_FRAME := false, queueHeight := (closeFrame B m).queueHeight
    packetStarts := (closeFrame B m).packetStarts, packetLengths := (closeFrame B m).packetLengths
    currentPacketStart := (closeFrame B m).currentPacketStart,
      trace := (closeFrame B m).trace } := by
  unfold closeFrame
  dsimp only
  split
  next => rfl
  next => rfl

/-- The frame behind a packet that was cut off does nothing. -/
lemma hear_behind_open (ho : h.modem.IN_FRAME = true ∧ h.modem.command = CMD_DATA) :
    ∃ m', h.hear B others f.bytes = { h with modem := m' } ∧
      m'.queuedBytes = h.modem.queuedBytes := by
  have hclose : h.serialCallback B others FEND = { h with modem := closeFrame B h.modem } := by
    rw [callback_fend, Radio.serialCallback, if_pos ⟨ho.1, rfl, ho.2⟩]
  have hframe : (closeFrame B h.modem).IN_FRAME = false := by
    rw [closeFrame_eq]
  have hcommand : (closeFrame B h.modem).command = CMD_DATA := by
    rw [closeFrame_eq]
    exact ho.2
  have hrest : FEND ∉ f.command :: escape f.payload := by
    rw [List.mem_cons, not_or]
    exact ⟨command_ne_fend.symm, fend_not_mem_escape⟩
  have hheard : Host.hear B others { h with modem := closeFrame B h.modem }
      (f.command :: escape f.payload) = { h with modem := closeFrame B h.modem } :=
    hear_closed hframe hcommand hrest
  refine ⟨Radio.serialCallback B (closeFrame B h.modem) FEND, ?_, ?_⟩
  · rw [hear_frame, hclose]
    show ((Host.hear B others _ (f.command :: escape f.payload)).serialCallback B others FEND) = _
    rw [hheard, callback_fend]
  · unfold Radio.serialCallback
    rw [if_neg (fun hc => Bool.false_ne_true (hframe.symm.trans hc.1)), if_pos rfl, closeFrame_eq]

lemma not_effect_behind_open (hroom : h.Room B f)
    (ho : h.modem.IN_FRAME = true ∧ h.modem.command = CMD_DATA) :
    ¬ Effect B h (h.hear B others f.bytes) f := by
  intro he
  obtain ⟨m', hheard, hbytes⟩ : ∃ m', h.hear B others f.bytes = { h with modem := m' } ∧
      m'.queuedBytes = h.modem.queuedBytes := hear_behind_open ho
  rw [hheard] at he
  cases f with
  | data payload =>
    have hlen : m'.queuedBytes = h.modem.queuedBytes + payload.length := he.bytes
    have hmin : 1 ≤ payload.length := hroom.1
    omega
  | frequency value => simpa using he.2
  | bandwidth value => simpa using he.2
  | stAlock value => simpa using he.2
  | ltAlock value => simpa using he.2

/-! ### The bytes of a value -/

/-- The bytes of this command's values go to `cmdbuf`, and `apply` is done behind `len` of them. -/
def Takes (B : Board) (others : Others) (command : UInt8) (len : ℕ) (apply : Host → Host) : Prop :=
  ∀ {h : Host} {b : UInt8}, b ≠ FEND → h.modem.IN_FRAME = true → h.modem.frameLen < MTU →
    h.modem.command = command → h.serialCallback B others b = h.argument len apply b

/-- Between the command and the end of a value: `l` of it is in `cmdbuf`. -/
structure Receiving (h h' : Host) (command : UInt8) (l : Bytes) : Prop where
  inFrame : h'.modem.IN_FRAME = true
  command : h'.modem.command = command
  frameLen : h'.modem.frameLen = l.length
  cmdbuf : (List.range l.length).map h'.cmdbuf = l
  vars : h'.vars = h.vars
  indicated : h'.indicated = h.indicated

variable {command : UInt8} {len : ℕ} {apply : Host → Host}

lemma takes_of_ne (hu : command ≠ CMD_UNKNOWN) (hd : command ≠ CMD_DATA)
    (hc : ∀ {h : Host} {b : UInt8}, h.modem.command = command →
      (if h.modem.command = CMD_FREQUENCY then h.argument 4 Host.frequency b
      else if h.modem.command = CMD_BANDWIDTH then h.argument 4 Host.bandwidth b
      else if h.modem.command = CMD_ST_ALOCK then h.argument 2 Host.stAlock b
      else if h.modem.command = CMD_LT_ALOCK then h.argument 2 Host.ltAlock b
      else
        let (cmdbuf, vars, indicated) := others h.modem.command b h
        { modem := Radio.serialCallback B h.modem b, cmdbuf, vars, indicated }) =
      h.argument len apply b) : Takes B others command len apply := by
  intro h b hb hf hl hcmd
  have hcond : ¬ (b = FEND ∨ ¬ (h.modem.IN_FRAME = true ∧ h.modem.frameLen < MTU) ∨
      (h.modem.frameLen = 0 ∧ h.modem.command = CMD_UNKNOWN) ∨ h.modem.command = CMD_DATA) := by
    rw [hcmd]
    simp [hb, hf, hl, hu, hd]
  unfold Host.serialCallback
  dsimp only
  rw [if_neg hcond]
  exact hc hcmd

lemma takes_frequency : Takes B others CMD_FREQUENCY 4 Host.frequency :=
  takes_of_ne (by decide) (by decide) fun hc => if_pos hc

lemma takes_bandwidth : Takes B others CMD_BANDWIDTH 4 Host.bandwidth :=
  takes_of_ne (by decide) (by decide) fun hc => by
    rw [hc, if_neg (by decide), if_pos rfl]

lemma takes_stAlock : Takes B others CMD_ST_ALOCK 2 Host.stAlock :=
  takes_of_ne (by decide) (by decide) fun hc => by
    rw [hc, if_neg (by decide), if_neg (by decide), if_pos rfl]

lemma takes_ltAlock : Takes B others CMD_LT_ALOCK 2 Host.ltAlock :=
  takes_of_ne (by decide) (by decide) fun hc => by
    rw [hc, if_neg (by decide), if_neg (by decide), if_neg (by decide), if_pos rfl]

lemma Receiving.callback (hr : Receiving h h' command l) (ht : Takes B others command len apply)
    (hlen : l.length < len) (hle : len ≤ CMD_L) (hb : b ≠ FEND) :
    h'.serialCallback B others b = h'.argument len apply b := by
  have hmtu : CMD_L < MTU := by decide
  refine ht hb hr.inFrame ?_ hr.command
  rw [hr.frameLen]
  omega

/-- `FESC` is not a byte of the value. -/
lemma Receiving.fesc (hr : Receiving h h' command l) (ht : Takes B others command len apply)
    (hlen : l.length < len) (hle : len ≤ CMD_L) :
    Receiving h (h'.serialCallback B others FESC) command l ∧
      (h'.serialCallback B others FESC).modem.ESCAPE = true := by
  have hne : ¬ h'.modem.frameLen = len := by
    rw [hr.frameLen]
    omega
  rw [hr.callback ht hlen hle (by decide), Host.argument]
  dsimp only
  rw [if_pos rfl, if_neg hne]
  exact ⟨⟨hr.inFrame, hr.command, hr.frameLen, hr.cmdbuf, hr.vars, hr.indicated⟩, rfl⟩

/-- Another byte goes to `cmdbuf`, and the last one is followed by what is done with the value. -/
lemma Receiving.byte (hr : Receiving h h' command l) (ht : Takes B others command len apply)
    (hlen : l.length < len) (hle : len ≤ CMD_L) (hb : b ≠ FEND) (hb' : b ≠ FESC) :
    ∃ h'', Receiving h h'' command (l ++ [unescape h'.modem.ESCAPE b]) ∧
      h''.modem.ESCAPE = false ∧
      h'.serialCallback B others b = if l.length + 1 = len then apply h'' else h'' := by
  have hroom : h'.modem.frameLen < CMD_L := by
    rw [hr.frameLen]
    omega
  have hbuf : (List.range (l.length + 1)).map
      (Function.update h'.cmdbuf l.length (unescape h'.modem.ESCAPE b)) =
      l ++ [unescape h'.modem.ESCAPE b] := by
    rw [List.range_succ, List.map_append, List.map_singleton, Function.update_self]
    refine congrArg (· ++ _) ?_
    calc (List.range l.length).map
          (Function.update h'.cmdbuf l.length (unescape h'.modem.ESCAPE b))
        = (List.range l.length).map h'.cmdbuf := by
          apply List.map_congr_left
          intro i hi
          exact Function.update_of_ne (List.mem_range.mp hi).ne _ _
      _ = l := hr.cmdbuf
  refine ⟨{ h' with
    modem := { h'.modem with ESCAPE := false, frameLen := h'.modem.frameLen + 1 }
    cmdbuf := Function.update h'.cmdbuf h'.modem.frameLen (unescape h'.modem.ESCAPE b) },
    ⟨hr.inFrame, hr.command, ?_, ?_, hr.vars, hr.indicated⟩, rfl, ?_⟩
  · show h'.modem.frameLen + 1 = _
    rw [hr.frameLen, List.length_append, List.length_singleton]
  · rw [List.length_append, List.length_singleton, ← hbuf, hr.frameLen]
  · rw [hr.callback ht hlen hle hb, Host.argument]
    dsimp only
    rw [if_neg hb', if_pos hroom, hr.frameLen]

/-- The bytes of an escaped value go to `cmdbuf` as they are heard. -/
lemma Receiving.escaped (hr : Receiving h h' command l) (ht : Takes B others command len apply)
    (hle : len ≤ CMD_L) (hlen : l.length + payload.length = len) (hpos : payload ≠ []) :
    ∃ h'', Receiving h h'' command (l ++ heardAll h'.modem.ESCAPE payload) ∧
      h'.hear B others (escape payload) = apply h'' := by
  induction payload generalizing h' l with
  | nil => exact absurd rfl hpos
  | cons b payload ih =>
    rw [List.length_cons] at hlen
    -- one byte is heard, and the others follow, if there are any
    have hnext : ∀ {next : Host} {c : UInt8} {h₁ : Host},
        Receiving h h₁ command (l ++ [c]) → h₁.modem.ESCAPE = false →
        next = (if l.length + 1 = len then apply h₁ else h₁) →
        ∃ h'', Receiving h h'' command (l ++ c :: payload) ∧
          next.hear B others (escape payload) = apply h'' := by
      intro next c h₁ hr₁ he hn
      cases payload with
      | nil =>
        rw [if_pos (by simpa using hlen)] at hn
        exact ⟨h₁, hr₁, hn⟩
      | cons b' payload =>
        rw [List.length_cons] at hlen
        rw [if_neg (by omega)] at hn
        obtain ⟨h'', hr'', hheard⟩ := ih hr₁ (by
          rw [List.length_append, List.length_singleton, List.length_cons]
          omega) (List.cons_ne_nil _ _)
        rw [he, heardAll_false, List.append_assoc] at hr''
        exact ⟨h'', hr'', hn ▸ hheard⟩
    unfold escape
    split
    next hb =>
      subst hb
      obtain ⟨hf, he⟩ := hr.fesc ht (by omega) hle
      obtain ⟨h₁, hr₁, he₁, hn⟩ := hf.byte (b := TFEND) ht (by omega) hle (by decide) (by decide)
      rw [he] at hr₁
      exact hnext hr₁ he₁ hn
    next hb =>
      split
      next hb' =>
        subst hb'
        obtain ⟨hf, he⟩ := hr.fesc ht (by omega) hle
        obtain ⟨h₁, hr₁, he₁, hn⟩ := hf.byte (b := TFESC) ht (by omega) hle (by decide) (by decide)
        rw [he] at hr₁
        exact hnext hr₁ he₁ hn
      next hb' =>
        obtain ⟨h₁, hr₁, he₁, hn⟩ := hr.byte ht (by omega) hle hb hb'
        have hheard : heard h'.modem.ESCAPE b = unescape h'.modem.ESCAPE b :=
          if_neg (not_or.mpr ⟨hb, hb'⟩)
        rw [← hheard] at hr₁
        exact hnext hr₁ he₁ hn

/-- The frame of a value: what is done behind its bytes, as they are heard. -/
lemma hear_value (ho : ¬ (h.modem.IN_FRAME = true ∧ h.modem.command = CMD_DATA))
    (ht : Takes B others f.command len apply) (hle : len ≤ CMD_L) (hlen : f.payload.length = len)
    (hpos : f.payload ≠ []) :
    ∃ h'', h''.vars = h.vars ∧ h''.indicated = h.indicated ∧
      h''.value len = be (heardAll h.modem.ESCAPE f.payload) ∧
      (h.hear B others f.bytes).vars = (apply h'').vars ∧
      (h.hear B others f.bytes).indicated = (apply h'').indicated := by
  rw [hear_frame, open_frame ho command_ne_fend]
  generalize hopened : ({ h with modem := _ } : Host) = opened
  have hesc : opened.modem.ESCAPE = h.modem.ESCAPE := by rw [← hopened]
  have hr : Receiving h opened f.command [] := by
    rw [← hopened]
    exact ⟨rfl, rfl, rfl, rfl, rfl, rfl⟩
  obtain ⟨h'', hr'', hheard⟩ := hr.escaped ht hle ((Nat.zero_add _).trans hlen) hpos
  have hbuf := hr''.cmdbuf
  rw [List.nil_append, length_heardAll, hlen, hesc] at hbuf
  rw [hheard, callback_fend]
  exact ⟨h'', hr''.vars, hr''.indicated, congrArg be hbuf, rfl, rfl⟩

/-- A first byte that is changed is a large one, before and after. -/
lemma first_of_touched (ht : heardAll esc payload ≠ payload) :
    192 * 256 ^ (payload.length - 1) ≤ be payload ∧
      192 * 256 ^ (payload.length - 1) ≤ be (heardAll esc payload) := by
  cases payload with
  | nil => exact absurd rfl ht
  | cons b payload =>
    have hb : 192 ≤ b.toNat ∧ 192 ≤ (heard esc b).toNat := by
      cases esc with
      | false => exact absurd heardAll_false ht
      | true =>
        rw [heard_true]
        by_cases hb : b = TFEND
        · subst hb
          decide
        · by_cases hb' : b = TFESC
          · subst hb'
            decide
          · refine absurd ?_ ht
            rw [heardAll, heard_true, if_neg hb, if_neg hb']
    rw [heardAll, be_cons, be_cons, List.length_cons, Nat.add_sub_cancel]
    exact ⟨le_add_right (Nat.mul_le_mul_right _ hb.1), le_add_right (Nat.mul_le_mul_right _ hb.2)⟩

lemma length_be32 {value : UInt32} : (be32 value).length = 4 := rfl

lemma length_be16 {value : UInt16} : (be16 value).length = 2 := rfl

lemma be_be32 {value : UInt32} : be (be32 value) = value.toNat := by
  rw [be32_eq, be_beBytes value.toNat_lt]

lemma be_be16 {value : UInt16} : be (be16 value) = value.toNat := by
  rw [be16_eq, be_beBytes value.toNat_lt]

/-- A value of four bytes that is set unless it is zero: right when it is heard as it is. -/
lemma value_iff {value old : UInt32} :
    (if UInt32.ofNat (be (heardAll esc (be32 value))) = 0 then old
      else UInt32.ofNat (be (heardAll esc (be32 value)))) = (if value = 0 then old else value) ↔
    heardAll esc (be32 value) = be32 value := by
  constructor
  · intro he
    by_contra ht
    have hlt := be_lt (heardAll esc (be32 value))
    obtain ⟨hbig, hbig'⟩ := first_of_touched ht
    rw [length_be32, be_be32] at hbig
    rw [length_be32] at hbig'
    rw [length_heardAll, length_be32] at hlt
    have hnat : (UInt32.ofNat (be (heardAll esc (be32 value)))).toNat =
        be (heardAll esc (be32 value)) := by
      rw [UInt32.toNat_ofNat']
      exact Nat.mod_eq_of_lt hlt
    have hne : value ≠ 0 := by
      rintro rfl
      exact absurd hbig (by decide)
    have hne' : UInt32.ofNat (be (heardAll esc (be32 value))) ≠ 0 := by
      intro hz
      rw [hz] at hnat
      rw [← hnat] at hbig'
      exact absurd hbig' (by decide)
    rw [if_neg hne', if_neg hne] at he
    rw [he, ← be_be32] at hnat
    exact ht (be_heardAll.mp hnat.symm)
  · intro ht
    rw [ht, be_be32, UInt32.ofNat_toNat]

/-- A limit is not changed where its first byte is: both are none. -/
lemma limit_eq {value : UInt16} :
    airtimeLimit (UInt16.ofNat (be (heardAll esc (be16 value)))) = airtimeLimit value := by
  by_cases ht : heardAll esc (be16 value) = be16 value
  · rw [ht, be_be16, UInt16.ofNat_toNat]
  · have hlt := be_lt (heardAll esc (be16 value))
    obtain ⟨hbig, hbig'⟩ := first_of_touched ht
    rw [length_be16, be_be16] at hbig
    rw [length_be16] at hbig'
    rw [length_heardAll, length_be16] at hlt
    have hnat : (UInt16.ofNat (be (heardAll esc (be16 value)))).toNat =
        be (heardAll esc (be16 value)) := by
      rw [UInt16.toNat_ofNat']
      exact Nat.mod_eq_of_lt hlt
    unfold airtimeLimit
    rw [if_pos, if_pos]
    · rw [ge_iff_le, UInt16.le_iff_toNat_le]
      exact le_trans (by decide) hbig
    · rw [ge_iff_le, UInt16.le_iff_toNat_le, hnat]
      exact le_trans (by decide) hbig'

/-! ### The effect of a frame -/

lemma hear_packet (ho : ¬ (h.modem.IN_FRAME = true ∧ h.modem.command = CMD_DATA))
    (hw : Within B h.modem) (hroom : h.Room B (.data payload)) :
    ∃ m', (h.hear B others (Sent.data payload).bytes).modem = closeFrame B m' ∧
      Writing B h.modem m' (heardAll h.modem.ESCAPE payload) := by
  obtain ⟨-, -, hspace⟩ := hroom
  obtain ⟨⟨-, hheight⟩, hbytes⟩ : (h.modem.packetStarts.isFull = false ∧
      h.modem.queueHeight < B.CONFIG_QUEUE_MAX_LENGTH) ∧
      h.modem.queuedBytes + payload.length ≤ B.CONFIG_QUEUE_SIZE := by
    simpa [loraRingHasSpace] using hspace
  rw [hear_frame, open_frame ho command_ne_fend]
  generalize hopened : ({ h with modem := _ } : Host) = opened
  have hesc : opened.modem.ESCAPE = h.modem.ESCAPE := by rw [← hopened]
  have hwriting : Writing B h.modem opened.modem [] := by
    rw [← hopened]
    exact ⟨rfl, rfl, rfl, rfl, rfl, rfl, rfl, rfl, spans_nil, (Nat.mod_eq_of_lt hw.cursor).symm⟩
  have hfits : h.modem.queuedBytes + ([] : Bytes).length + payload.length ≤
      B.CONFIG_QUEUE_SIZE := by
    simpa using hbytes
  have hall := hwriting.escaped hheight hfits
  rw [hesc, List.nil_append] at hall
  -- every byte of it goes to the modem
  have hmodem : ∀ {bytes : Bytes} {h : Host}, FEND ∉ bytes → h.modem.command = CMD_DATA →
      (h.hear B others bytes).modem = bytes.foldl (Radio.serialCallback B) h.modem := by
    intro bytes
    induction bytes with
    | nil => exact fun _ _ => rfl
    | cons b bytes ih =>
      intro h hb hc
      rw [List.mem_cons, not_or] at hb
      have hcall : h.serialCallback B others b =
          { h with modem := Radio.serialCallback B h.modem b } := callback_data hc
      show ((h.serialCallback B others b).hear B others bytes).modem = _
      rw [hcall]
      exact ih hb.2 (command_callback (Ne.symm hb.1) hc)
  have hcommand : opened.modem.command = CMD_DATA := hwriting.command
  refine ⟨_, ?_, hall⟩
  rw [callback_fend]
  show Radio.serialCallback B (opened.hear B others (escape payload)).modem FEND = _
  rw [hmodem fend_not_mem_escape hcommand, Radio.serialCallback,
    if_pos ⟨hall.inFrame, rfl, hall.command⟩]

lemma packet_iff (ho : ¬ (h.modem.IN_FRAME = true ∧ h.modem.command = CMD_DATA))
    (hw : Within B h.modem) (hroom : h.Room B (.data payload)) :
    Effect B h (h.hear B others (Sent.data payload).bytes) (.data payload) ↔
      Untouched h.modem payload ∧ h.modem.currentPacketStart = h.modem.queueCursor ∧
        h.modem.queuedBytes + payload.length < B.CONFIG_QUEUE_SIZE := by
  obtain ⟨m', hm, hwriting⟩ : ∃ m', (h.hear B others (Sent.data payload).bytes).modem =
      closeFrame B m' ∧ Writing B h.modem m' (heardAll h.modem.ESCAPE payload) :=
    hear_packet ho hw hroom
  dsimp only [Effect]
  rw [hm, hwriting.close_iff hw hroom.1 hroom.2.2 length_heardAll, heardAll_iff]

lemma frequency_iff {value : UInt32}
    (ho : ¬ (h.modem.IN_FRAME = true ∧ h.modem.command = CMD_DATA)) :
    Effect B h (h.hear B others (Sent.frequency value).bytes) (.frequency value) ↔
      Untouched h.modem (be32 value) := by
  obtain ⟨h', hvars, hind, hvalue, heq, heq'⟩ :=
    hear_value (f := .frequency value) ho (takes_frequency : Takes B others _ _ _) (by decide)
      length_be32 (List.cons_ne_nil _ _)
  have hbe : h'.value 4 = be (heardAll h.modem.ESCAPE (be32 value)) := hvalue
  dsimp only [Effect]
  rw [heq, heq', frequency_vars, frequency_indicated, hvars, hind, hbe, and_iff_left rfl]
  exact value_iff.trans heardAll_iff

lemma bandwidth_iff {value : UInt32}
    (ho : ¬ (h.modem.IN_FRAME = true ∧ h.modem.command = CMD_DATA)) :
    Effect B h (h.hear B others (Sent.bandwidth value).bytes) (.bandwidth value) ↔
      Untouched h.modem (be32 value) := by
  obtain ⟨h', hvars, hind, hvalue, heq, heq'⟩ :=
    hear_value (f := .bandwidth value) ho (takes_bandwidth : Takes B others _ _ _) (by decide)
      length_be32 (List.cons_ne_nil _ _)
  have hbe : h'.value 4 = be (heardAll h.modem.ESCAPE (be32 value)) := hvalue
  dsimp only [Effect]
  rw [heq, heq', bandwidth_vars, bandwidth_indicated, hvars, hind, hbe, and_iff_left rfl]
  exact value_iff.trans heardAll_iff

lemma stAlock_effect {value : UInt16}
    (ho : ¬ (h.modem.IN_FRAME = true ∧ h.modem.command = CMD_DATA)) :
    Effect B h (h.hear B others (Sent.stAlock value).bytes) (.stAlock value) := by
  obtain ⟨h', hvars, hind, hvalue, heq, heq'⟩ :=
    hear_value (f := .stAlock value) ho (takes_stAlock : Takes B others _ _ _) (by decide)
      length_be16 (List.cons_ne_nil _ _)
  dsimp only [Effect]
  rw [heq, heq', stAlock_vars, stAlock_indicated, hvalue, hind]
  exact ⟨limit_eq, rfl⟩

lemma ltAlock_effect {value : UInt16}
    (ho : ¬ (h.modem.IN_FRAME = true ∧ h.modem.command = CMD_DATA)) :
    Effect B h (h.hear B others (Sent.ltAlock value).bytes) (.ltAlock value) := by
  obtain ⟨h', hvars, hind, hvalue, heq, heq'⟩ :=
    hear_value (f := .ltAlock value) ho (takes_ltAlock : Takes B others _ _ _) (by decide)
      length_be16 (List.cons_ne_nil _ _)
  dsimp only [Effect]
  rw [heq, heq', ltAlock_vars, ltAlock_indicated, hvalue, hind]
  exact ⟨limit_eq, rfl⟩

/-- **A well formed frame has its effect exactly when no packet was cut off in front of it, no left
over `ESCAPE` changes its first byte, and, for a packet, nothing of a refused one is in front of it
and it does not fill the ring.** -/
theorem effect_iff {h : Host} {f : Sent}
    (hr : Reach (Host.step B others) (fun _ _ => True) { modem := .setup B } h)
    (hroom : h.Room B f) : Effect B h (h.hear B others f.bytes) f ↔ h.Clean B f := by
  have hw := within_of_reach hr
  by_cases ho : h.modem.IN_FRAME = true ∧ h.modem.command = CMD_DATA
  · exact ⟨fun he => absurd he (not_effect_behind_open hroom ho), fun hc => absurd ho hc.1⟩
  · unfold Host.Clean
    rw [and_iff_right ho]
    cases f with
    | data payload => exact packet_iff ho hw hroom
    | frequency value => exact frequency_iff ho
    | bandwidth value => exact bandwidth_iff ho
    | stAlock value => exact iff_of_true (stAlock_effect ho) trivial
    | ltAlock value => exact iff_of_true (ltAlock_effect ho) trivial

/-- The other commands do nothing. -/
def noOthers : Others := fun _ _ h => (h.cmdbuf, h.vars, h.indicated)

/-- Behind a frequency that was cut off, a packet is queued. -/
theorem effect_iff_cut :
    let h := [HostEvent.byte FEND, .byte CMD_FREQUENCY, .byte 0x01].foldl
      (Host.step esp32 noOthers) { modem := .setup esp32 }
    Effect esp32 h (h.hear esp32 noOthers (Sent.data [FEND, 0x41]).bytes)
      (.data [FEND, 0x41]) := by
  intro h
  have hr : Reach (Host.step esp32 noOthers) (fun _ _ => True) { modem := .setup esp32 } h :=
    Reach.init.run (allowed_of_forall fun _ _ => trivial)
  have hroom : h.Room esp32 (.data [FEND, 0x41]) :=
    ⟨by decide, by decide, by decide +kernel⟩
  exact (effect_iff hr hroom).mpr ⟨by decide +kernel, fun _ => by decide, by decide +kernel,
    by decide +kernel⟩

/-- Behind a packet that was cut off, a frequency is not heard. -/
theorem not_effect_cut : ¬ ∀ (bytes : Bytes) (f : Sent),
    (Host.hear esp32 noOthers { modem := .setup esp32 } bytes).Room esp32 f →
    Effect esp32 (Host.hear esp32 noOthers { modem := .setup esp32 } bytes)
      (Host.hear esp32 noOthers { modem := .setup esp32 } (bytes ++ f.bytes)) f := by
  intro hall
  let h := Host.hear esp32 noOthers { modem := .setup esp32 } [FEND, CMD_DATA, 0x41]
  have hroom : h.Room esp32 (.frequency 868000000) := trivial
  have he := hall [FEND, CMD_DATA, 0x41] (.frequency 868000000) hroom
  rw [hear_append] at he
  have ho : h.modem.IN_FRAME = true ∧ h.modem.command = CMD_DATA := by decide +kernel
  exact not_effect_behind_open hroom ho he

end URSupreme.Radio
