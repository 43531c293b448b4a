import URSupreme.Radio.Improv
import URSupreme.Radio.TxRingRuns

/-!
# Bytes from the USB port

`buffer_serial` and `serial_poll` of `RNode_Firmware.ino` for the USB port, and their place in the
main loop: up to `MAX_CYCLES` bytes go through the Improv tap into `serialFIFO`, the FIFO is emptied
into `serial_callback`, and the tap is reset when it is stuck. The same port without a tap is the
`#else` branch of `buffer_serial`.

The tap is transparent in the runs in which no byte comes right behind the letters `IMPROV`. In a
stream of KISS frames these letters come from the command and the payload of one frame.
-/

namespace URSupreme.Radio
open Lib Improv

def MAX_CYCLES : Nat := 10
def CONFIG_UART_BUFFER_SIZE : Nat := 6144

/-- The port: the bytes that wait in it, `serialFIFO`, the tap and the modem, the bytes that were
given to `serial_callback`, and the replies of the tap. -/
structure Port where
  available : Bytes := []
  serialFIFO : Bytes := []
  parser : Parser := {}
  modem : Modem
  given : Bytes := []
  replies : List Reply := []

variable (B : Board)

/-- One byte of the loop of `buffer_serial`. -/
def Port.bufferByte (tap : Bool) (now : Nat) (s : Port) : Port :=
  match s.available with
  | [] => s
  | sb :: available =>
    if tap then
      let (parser, consumed, replies) := s.parser.onByte now sb
      let s := { s with available, parser, replies := s.replies ++ replies }
      if consumed then s
      else if s.serialFIFO.length < CONFIG_UART_BUFFER_SIZE then
        { s with serialFIFO := s.serialFIFO ++ [sb] }
      else s
    else if s.serialFIFO.length < CONFIG_UART_BUFFER_SIZE then
      { s with available, serialFIFO := s.serialFIFO ++ [sb] }
    else s

/-- `buffer_serial`, with what `millis` reads for each byte. -/
def Port.bufferSerial (tap : Bool) (millis : List Nat) (s : Port) : Port :=
  (millis.take MAX_CYCLES).foldl (fun s now => s.bufferByte tap now) s

/-- `serial_poll`. -/
def Port.serialPoll (s : Port) : Port :=
  { s with
    modem := s.serialFIFO.foldl (serialCallback B) s.modem
    given := s.given ++ s.serialFIFO, serialFIFO := [] }

/-- Bytes come in from the host, the main loop goes round, or something else happens to the ring. -/
inductive PortEvent where
  | host (bytes : Bytes)
  | pass (millis : List Nat) (now : Nat)
  | ring (e : Event)

def Port.step (tap : Bool) (s : Port) : PortEvent → Port
  | .host bytes => { s with available := s.available ++ bytes }
  | .pass millis now =>
    let s := (s.bufferSerial tap millis).serialPoll B
    if tap then { s with parser := s.parser.idle now } else s
  | .ring e => { s with modem := s.modem.step B e }

def Port.run (tap : Bool) (es : List PortEvent) : Port :=
  es.foldl (Port.step B tap) { modem := .setup B }

/-- With the tap the port comes to the same as without. -/
structure Transparent (es : List PortEvent) : Prop where
  available : (Port.run B true es).available = (Port.run B false es).available
  given : (Port.run B true es).given = (Port.run B false es).given
  modem : (Port.run B true es).modem = (Port.run B false es).modem

/-- The reads of a pass of the loop. -/
def passReads : List Nat → Bytes → List Tick
  | now :: millis, b :: bytes => .read now b :: passReads millis bytes
  | _, _ => []

/-- What the tap hears in a run, from the bytes that wait. -/
def ticks : List PortEvent → Bytes → List Tick
  | [], _ => []
  | .host bytes :: es, available => ticks es (available ++ bytes)
  | .pass millis now :: es, available =>
    passReads (millis.take MAX_CYCLES) available ++ .loop now ::
      ticks es (available.drop (millis.take MAX_CYCLES).length)
  | .ring _ :: es, available => ticks es available

variable {B} {s s' : Port} {es : List PortEvent} {millis : List Nat} {now : Nat} {bytes : Bytes}

/-! ### A pass of the loop -/

lemma passReads_nil : passReads millis [] = [] := by
  cases millis with
  | nil => rfl
  | cons now millis => rfl

/-- With room in the FIFO, the bytes that the tap lets through go there. -/
lemma bufferByte_tap (hroom : s.serialFIFO.length + millis.length ≤ CONFIG_UART_BUFFER_SIZE) :
    ∃ replies, millis.foldl (fun s now => s.bufferByte true now) s =
      { s with
        available := s.available.drop millis.length
        parser := (s.parser.hear (passReads millis s.available)).1
        serialFIFO := s.serialFIFO ++ (s.parser.hear (passReads millis s.available)).2
        replies } := by
  induction millis generalizing s with
  | nil => exact ⟨s.replies, by rw [show passReads [] s.available = [] from rfl]; simp
      [Parser.hear]⟩
  | cons now millis ih =>
    rw [List.length_cons] at hroom
    rw [List.foldl_cons]
    cases ha : s.available with
    | nil =>
      have hs : s.bufferByte true now = s := by
        unfold Port.bufferByte
        rw [ha]
      obtain ⟨replies, hr⟩ := ih (s := s) (by omega)
      refine ⟨replies, ?_⟩
      rw [hs, hr, ha, passReads_nil, passReads_nil, List.drop_nil, List.drop_nil]
    | cons sb rest =>
      let r := s.parser.onByte now sb
      let s1 : Port := { s with
        available := rest, parser := r.1, replies := s.replies ++ r.2.2
        serialFIFO := s.serialFIFO ++ if r.2.1 then [] else [sb] }
      have hs : s.bufferByte true now = s1 := by
        unfold Port.bufferByte
        rw [ha]
        dsimp only
        rw [if_pos rfl]
        cases hc : r.2.1 with
        | true => simp [s1, r, hc]
        | false =>
          have hlt : s.serialFIFO.length < CONFIG_UART_BUFFER_SIZE := by omega
          simp [s1, r, hc, hlt]
      have hlen : s1.serialFIFO.length + millis.length ≤ CONFIG_UART_BUFFER_SIZE := by
        have : (if r.2.1 then [] else [sb]).length ≤ 1 := by
          split
          next => exact Nat.zero_le 1
          next => exact le_rfl
        dsimp only [s1]
        rw [List.length_append]
        omega
      obtain ⟨replies, hr⟩ := ih hlen
      refine ⟨replies, ?_⟩
      rw [hs, hr]
      have hpass : passReads (now :: millis) (sb :: rest) = .read now sb :: passReads millis rest :=
        rfl
      rw [hpass, hear_read]
      dsimp only [s1]
      rw [List.append_assoc]
      cases hc : r.2.1 with
      | true => simp [r]
      | false => simp [r]

/-- Without a tap every byte goes to the FIFO. -/
lemma bufferByte_plain (hroom : s.serialFIFO.length + millis.length ≤ CONFIG_UART_BUFFER_SIZE) :
    millis.foldl (fun s now => s.bufferByte false now) s =
      { s with
        available := s.available.drop millis.length
        serialFIFO := s.serialFIFO ++ reads (passReads millis s.available) } := by
  induction millis generalizing s with
  | nil => simp [passReads, reads]
  | cons now millis ih =>
    rw [List.length_cons] at hroom
    rw [List.foldl_cons]
    cases ha : s.available with
    | nil =>
      have hs : s.bufferByte false now = s := by
        unfold Port.bufferByte
        rw [ha]
      rw [hs, ih (by omega), ha, passReads_nil, passReads_nil, List.drop_nil, List.drop_nil]
    | cons sb rest =>
      have hs : s.bufferByte false now =
          { s with available := rest, serialFIFO := s.serialFIFO ++ [sb] } := by
        unfold Port.bufferByte
        rw [ha]
        dsimp only
        rw [if_neg Bool.false_ne_true, if_pos (by omega)]
      rw [hs, ih (by rw [List.length_append, List.length_singleton]; omega)]
      dsimp only
      rw [List.append_assoc]
      rfl

/-- The number of reads fits into the FIFO. -/
lemma room (hf : s.serialFIFO = []) :
    s.serialFIFO.length + (millis.take MAX_CYCLES).length ≤ CONFIG_UART_BUFFER_SIZE := by
  have hlen := List.length_take_le MAX_CYCLES millis
  have hsize : MAX_CYCLES ≤ CONFIG_UART_BUFFER_SIZE := by decide
  rw [hf, List.length_nil, Nat.zero_add]
  exact hlen.trans hsize

lemma pass_tap (millis : List Nat) (now : Nat) (hf : s.serialFIFO = []) :
    ∃ replies, s.step B true (.pass millis now) =
      (let r := s.parser.hear (passReads (millis.take MAX_CYCLES) s.available)
       { s with
         available := s.available.drop (millis.take MAX_CYCLES).length
         parser := r.1.idle now
         modem := r.2.foldl (serialCallback B) s.modem
         given := s.given ++ r.2
         replies }) := by
  obtain ⟨replies, hr⟩ := bufferByte_tap (room hf)
  refine ⟨replies, ?_⟩
  dsimp only [Port.step, Port.bufferSerial]
  rw [hr, hf]
  simp [Port.serialPoll]

lemma pass_plain (hf : s.serialFIFO = []) :
    s.step B false (.pass millis now) =
      (let bytes := reads (passReads (millis.take MAX_CYCLES) s.available)
       { s with
         available := s.available.drop (millis.take MAX_CYCLES).length
         modem := bytes.foldl (serialCallback B) s.modem
         given := s.given ++ bytes }) := by
  dsimp only [Port.step, Port.bufferSerial]
  rw [bufferByte_plain (room hf), hf]
  simp [Port.serialPoll]

/-! ### Runs -/

lemma ticks_pass : ticks (.pass millis now :: es) bytes =
    passReads (millis.take MAX_CYCLES) bytes ++ .loop now ::
      ticks es (bytes.drop (millis.take MAX_CYCLES).length) := rfl

/-- The two ports are at the same point. -/
structure Agree (s s' : Port) : Prop where
  fifo : s.serialFIFO = []
  fifo' : s'.serialFIFO = []
  available : s.available = s'.available
  given : s.given = s'.given
  modem : s.modem = s'.modem

/-- What the tap has let through is given to `serial_callback`. -/
lemma run_tap (hf : s.serialFIFO = []) :
    (es.foldl (Port.step B true) s).given =
      s.given ++ (s.parser.hear (ticks es s.available)).2 := by
  induction es generalizing s with
  | nil => exact (List.append_nil _).symm
  | cons e es ih =>
    rw [List.foldl_cons]
    cases e with
    | host bytes => exact ih (s := { s with available := s.available ++ bytes }) hf
    | ring e => exact ih (s := { s with modem := s.modem.step B e }) hf
    | pass millis now =>
      obtain ⟨replies, hr⟩ := pass_tap (B := B) millis now hf
      rw [hr]
      refine (ih (by exact hf)).trans ?_
      rw [ticks_pass, hear_append]
      exact List.append_assoc _ _ _

/-- Without a tap everything that is read is given to `serial_callback`. -/
lemma run_plain (hf : s.serialFIFO = []) :
    (es.foldl (Port.step B false) s).given = s.given ++ reads (ticks es s.available) := by
  induction es generalizing s with
  | nil => exact (List.append_nil _).symm
  | cons e es ih =>
    rw [List.foldl_cons]
    cases e with
    | host bytes => exact ih (s := { s with available := s.available ++ bytes }) hf
    | ring e => exact ih (s := { s with modem := s.modem.step B e }) hf
    | pass millis now =>
      rw [pass_plain hf]
      refine (ih (by exact hf)).trans ?_
      rw [ticks_pass, reads_append]
      exact List.append_assoc _ _ _

/-- When every byte goes through, every one of two parts does. -/
lemma hear_append_eq {p : Parser} {ts ts' : List Tick}
    (h : (p.hear (ts ++ ts')).2 = reads (ts ++ ts')) :
    (p.hear ts).2 = reads ts ∧ ((p.hear ts).1.hear ts').2 = reads ts' := by
  rw [hear_append, reads_append] at h
  have hlen := congrArg List.length h
  rw [List.length_append, List.length_append] at hlen
  have h1 : (p.hear ts).2.length ≤ (reads ts).length := hear_length_le
  have h2 : ((p.hear ts).1.hear ts').2.length ≤ (reads ts').length := hear_length_le
  exact List.append_inj h (by omega)

/-- While every byte goes through the two ports stay together. -/
lemma Agree.run (h : Agree s s') (hall : (s.parser.hear (ticks es s.available)).2 =
    reads (ticks es s.available)) :
    Agree (es.foldl (Port.step B true) s) (es.foldl (Port.step B false) s') := by
  induction es generalizing s s' with
  | nil => exact h
  | cons e es ih =>
    rw [List.foldl_cons, List.foldl_cons]
    cases e with
    | host bytes =>
      exact ih ⟨h.fifo, h.fifo', congrArg (· ++ bytes) h.available, h.given, h.modem⟩ hall
    | ring e =>
      exact ih ⟨h.fifo, h.fifo', h.available, h.given, congrArg (Modem.step B · e) h.modem⟩ hall
    | pass millis now =>
      rw [ticks_pass] at hall
      obtain ⟨hpass, hrest⟩ := hear_append_eq hall
      obtain ⟨replies, hr⟩ := pass_tap (B := B) millis now h.fifo
      rw [hr, pass_plain h.fifo']
      refine ih ⟨h.fifo, h.fifo', ?_, ?_, ?_⟩ hrest
      · dsimp only
        rw [h.available]
      · dsimp only
        rw [hpass, h.given, h.available]
      · dsimp only
        rw [hpass, h.modem, h.available]

/-- The tap changes nothing of what `serial_callback` gets just in the runs in which no byte comes
right behind the letters `IMPROV`. -/
theorem transparent_iff : Transparent B es ↔ Undisturbed (ticks es []) := by
  rw [← hear_iff]
  constructor
  · intro h
    have hg := h.given
    unfold Port.run at hg
    rw [run_tap rfl, run_plain rfl] at hg
    exact hg
  · intro h
    have hrun : Agree (es.foldl (Port.step B true) { modem := .setup B })
        (es.foldl (Port.step B false) { modem := .setup B }) := Agree.run
      ⟨rfl, rfl, rfl, rfl, rfl⟩ h
    exact ⟨hrun.available, hrun.given, hrun.modem⟩

/-! ### Streams of frames -/

/-- A KISS frame. -/
structure Frame where
  command : UInt8
  payload : Bytes
  command_ne : command ≠ FEND
  deriving DecidableEq, Repr

/-- The KISS escaping of a payload. -/
def escape : Bytes → Bytes
  | [] => []
  | b :: payload =>
    if b = FEND then FESC :: TFEND :: escape payload
    else if b = FESC then FESC :: TFESC :: escape payload
    else b :: escape payload

def Frame.encode (f : Frame) : Bytes := FEND :: f.command :: escape f.payload ++ [FEND]

def stream (frames : List Frame) : Bytes := frames.flatMap Frame.encode

/-- A byte that KISS framing does not use. -/
def Plain (b : UInt8) : Prop := b ≠ FEND ∧ b ≠ FESC ∧ b ≠ TFEND ∧ b ≠ TFESC

/-- Escaping does not begin with a plain word where the payload does not. -/
lemma prefix_escape {w payload : Bytes} (hw : ∀ b ∈ w, Plain b) :
    w <+: escape payload ↔ w <+: payload := by
  induction payload generalizing w with
  | nil => exact Iff.rfl
  | cons b payload ih =>
    cases w with
    | nil => exact iff_of_true List.nil_prefix List.nil_prefix
    | cons c w =>
      obtain ⟨h1, h2, -, -⟩ := hw c List.mem_cons_self
      unfold escape
      split
      next hb =>
        refine iff_of_false (fun h => h2 (List.cons_prefix_cons.mp h).1) fun h => h1 ?_
        exact (List.cons_prefix_cons.mp h).1.trans hb
      next =>
        split
        next hb =>
          refine iff_of_false (fun h => h2 (List.cons_prefix_cons.mp h).1) fun h => h2 ?_
          exact (List.cons_prefix_cons.mp h).1.trans hb
        next =>
          rw [List.cons_prefix_cons, List.cons_prefix_cons,
            ih fun x hx => hw x (List.mem_cons_of_mem c hx)]

/-- A plain word is found in an escaped payload when it is found in the payload. -/
lemma infix_escape {w payload : Bytes} (hne : w ≠ []) (hw : ∀ b ∈ w, Plain b) :
    w <:+: escape payload ↔ w <:+: payload := by
  have hno : ∀ {c : UInt8} {l}, ¬ Plain c → ¬ w <+: c :: l := fun {c l} hc h => by
    cases w with
    | nil => exact hne rfl
    | cons x w => exact hc ((List.cons_prefix_cons.mp h).1 ▸ hw x List.mem_cons_self)
  induction payload with
  | nil => exact Iff.rfl
  | cons b payload ih =>
    have hpre : w <+: escape (b :: payload) ↔ w <+: b :: payload := prefix_escape hw
    unfold escape at hpre ⊢
    split at hpre
    next hb =>
      rw [if_pos hb, List.infix_cons_iff, List.infix_cons_iff, List.infix_cons_iff, ← hpre,
        or_iff_right (hno fun h => h.2.2.1 rfl)]
      exact or_congr_right ih
    next hb =>
      rw [if_neg hb]
      split at hpre
      next hb =>
        rw [if_pos hb, List.infix_cons_iff, List.infix_cons_iff, List.infix_cons_iff, ← hpre,
          or_iff_right (hno fun h => h.2.2.2 rfl)]
        exact or_congr_right ih
      next hb =>
        rw [if_neg hb, List.infix_cons_iff, List.infix_cons_iff, ← hpre]
        exact or_congr_right ih

/-- The letters `IMPROV` are plain. -/
lemma magic_plain : ∀ b ∈ MAGIC_BYTES, Plain b := by
  unfold Plain MAGIC_BYTES
  simp [FEND, FESC, TFEND, TFESC]

/-- The letters are found in a stream when they are found in a frame. -/
lemma magic_stream {frames : List Frame} : MAGIC_BYTES <:+: stream frames ↔
    ∃ f ∈ frames, MAGIC_BYTES <:+: f.command :: f.payload := by
  have hne : MAGIC_BYTES ≠ [] := by decide
  have hs : FEND ∉ MAGIC_BYTES := by decide
  induction frames with
  | nil => exact iff_of_false (fun h => hne (List.infix_nil.mp h)) fun ⟨f, hf, _⟩ => by cases hf
  | cons f frames ih =>
    have hcmd : MAGIC_BYTES <:+: f.command :: escape f.payload ↔
        MAGIC_BYTES <:+: f.command :: f.payload := by
      rw [List.infix_cons_iff, List.infix_cons_iff, infix_escape hne magic_plain]
      refine or_congr_left ?_
      show 0x49 :: [0x4D, 0x50, 0x52, 0x4F, 0x56] <+: _ ↔
        0x49 :: [0x4D, 0x50, 0x52, 0x4F, 0x56] <+: _
      rw [List.cons_prefix_cons, List.cons_prefix_cons,
        prefix_escape fun b hb => magic_plain b (List.mem_cons_of_mem _ hb)]
    have hstream : stream (f :: frames) =
        [] ++ FEND :: (f.command :: escape f.payload ++ FEND :: stream frames) := by
      unfold stream
      rw [List.flatMap_cons]
      unfold Frame.encode
      simp
    rw [hstream, infix_split hne hs, infix_split hne hs, hcmd, List.infix_nil, or_iff_right hne,
      List.exists_mem_cons_iff]
    exact or_congr_right ih

/-- What the host has sent. -/
def hostBytes : List PortEvent → Bytes
  | [] => []
  | .host bytes :: es => bytes ++ hostBytes es
  | _ :: es => hostBytes es

lemma reads_passReads : reads (passReads millis bytes) = bytes.take millis.length := by
  induction millis generalizing bytes with
  | nil => exact List.take_zero.symm
  | cons now millis ih =>
    cases bytes with
    | nil => rfl
    | cons b bytes => exact congrArg (b :: ·) ih

/-- The bytes are read in the order in which the host sent them. -/
lemma reads_ticks : reads (ticks es bytes) <+: bytes ++ hostBytes es := by
  induction es generalizing bytes with
  | nil => exact List.nil_prefix
  | cons e es ih =>
    cases e with
    | host more =>
      have h : reads (ticks es (bytes ++ more)) <+: bytes ++ more ++ hostBytes es := ih
      rw [List.append_assoc] at h
      exact h
    | ring e => exact ih
    | pass millis now =>
      have h : reads (ticks es (bytes.drop (millis.take MAX_CYCLES).length)) <+:
          bytes.drop (millis.take MAX_CYCLES).length ++ hostBytes es := ih
      rw [ticks_pass, reads_append, reads_passReads]
      have htake := List.take_append_drop (millis.take MAX_CYCLES).length bytes
      rw [← List.prefix_append_right_inj (bytes.take (millis.take MAX_CYCLES).length),
        ← List.append_assoc, htake] at h
      exact h

/-- The tap changes nothing when no frame contains the letters `IMPROV`. -/
theorem transparent_of_frames {frames : List Frame} (h : hostBytes es = stream frames)
    (hf : ∀ f ∈ frames, ¬ MAGIC_BYTES <:+: f.command :: f.payload) : Transparent B es := by
  rw [transparent_iff]
  intro pre now b post e hm
  have hreads : reads pre <:+: stream frames := by
    have hpre : reads pre <+: reads (ticks es []) := by
      rw [e, reads_append]
      exact List.prefix_append _ _
    rw [← h]
    exact (hpre.trans reads_ticks).isInfix
  obtain ⟨f, hmem, hin⟩ := magic_stream.mp ((hm.trans heard_suffix).isInfix.trans hreads)
  exact hf f hmem hin

/-- A data frame with the payload `IMPROV!`. -/
def improvFrame : Frame := ⟨CMD_DATA, MAGIC_BYTES ++ [0x21], by decide⟩

/-- The tap takes the byte behind the letters out of the frame. -/
theorem not_transparent : ∃ es, hostBytes es = stream [improvFrame] ∧ ¬ Transparent esp32 es := by
  let es : List PortEvent := [.host (stream [improvFrame]), .pass (List.replicate 10 5) 5]
  have hticks : ticks es [] =
      [.read 5 FEND, .read 5 CMD_DATA, .read 5 0x49, .read 5 0x4D, .read 5 0x50, .read 5 0x52,
        .read 5 0x4F, .read 5 0x56] ++ .read 5 0x21 :: [.read 5 FEND, .loop 5] := by decide
  refine ⟨es, rfl, fun h => ?_⟩
  exact transparent_iff.mp h _ _ _ _ hticks (by decide)

end URSupreme.Radio
