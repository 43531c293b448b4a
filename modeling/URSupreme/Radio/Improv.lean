import URSupreme.Lib.Bytes
import URSupreme.Lib.Matcher

/-!
# The Improv tap

`Improv.h`: the parser that every byte from the USB port goes through before it may go to the modem,
and the reset of a parser that is stuck. Of a packet that is complete the parser tells what
`dispatch_packet` does with it.

As long as no byte is consumed the parser is at the end of the longest beginning of the magic bytes
with which the bytes heard end.
-/

namespace URSupreme.Improv
open Lib

/-- The letters `IMPROV`. -/
def MAGIC_BYTES : Bytes := [0x49, 0x4D, 0x50, 0x52, 0x4F, 0x56]
def PROTO_VERSION : UInt8 := 1
def TYPE_RPC_COMMAND : UInt8 := 0x03
def ERR_INVALID_RPC_PACKET : UInt8 := 0x01
def ERR_UNKNOWN_RPC_COMMAND : UInt8 := 0x02
def CMD_WIFI_SETTINGS : UInt8 := 0x01
def CMD_IDENTIFY : UInt8 := 0x02
def CMD_GET_STATE : UInt8 := 0x03
def CMD_GET_DEVICE_INFO : UInt8 := 0x04
def CMD_GET_WIFI_NETWORKS : UInt8 := 0x05
def PARSER_IDLE_RESET_MS : Nat := 1000

/-- `ParseState`. -/
inductive ParseState where
  | waitMagic
  | waitVersion
  | waitType
  | waitLength
  | waitData
  | waitChecksum
  deriving DecidableEq, Repr

/-- `Parser`; `data` up to `data_received`. -/
structure Parser where
  state : ParseState := .waitMagic
  magicIdx : Nat := 0
  packetType : UInt8 := 0
  length : Nat := 0
  data : Bytes := []
  checksum : Nat := 0
  lastByteMs : Nat := 0
  deriving DecidableEq, Repr

/-- What is sent or done in answer to a packet. -/
inductive Reply where
  | errorState (err : UInt8)
  | rpc (cmdId : UInt8) (cmdData : Bytes)
  deriving DecidableEq, Repr

/-- `reset_parser`. -/
def Parser.reset (p : Parser) : Parser :=
  { p with state := .waitMagic, magicIdx := 0, checksum := 0, data := [] }

/-- `dispatch_packet`. -/
def Parser.dispatchPacket (p : Parser) : List Reply :=
  if p.packetType ≠ TYPE_RPC_COMMAND then []
  else
    match p.data with
    | cmdId :: cmdLen :: rest =>
      if 2 + cmdLen.toNat > p.length then [.errorState ERR_INVALID_RPC_PACKET]
      else if cmdId ∈ [CMD_WIFI_SETTINGS, CMD_IDENTIFY, CMD_GET_STATE, CMD_GET_DEVICE_INFO,
          CMD_GET_WIFI_NETWORKS] then [.rpc cmdId (rest.take cmdLen.toNat)]
      else [.errorState ERR_UNKNOWN_RPC_COMMAND]
    | _ => [.errorState ERR_INVALID_RPC_PACKET]

/-- `on_byte`: the parser behind the byte, whether it consumed the byte, and its replies. -/
def Parser.onByte (now : Nat) (b : UInt8) (p : Parser) : Parser × Bool × List Reply :=
  let p := { p with lastByteMs := now }
  match p.state with
  | .waitMagic =>
    if MAGIC_BYTES[p.magicIdx]? = some b then
      let checksum := (if p.magicIdx = 0 then 0 else p.checksum) + b.toNat
      let magicIdx := p.magicIdx + 1
      let state := if magicIdx = 6 then .waitVersion else .waitMagic
      ({ p with checksum, magicIdx, state }, false, [])
    else if MAGIC_BYTES.head? = some b then
      ({ p with magicIdx := 1, checksum := b.toNat }, false, [])
    else ({ p with magicIdx := 0, checksum := 0 }, false, [])
  | .waitVersion =>
    if b ≠ PROTO_VERSION then (p.reset, true, [])
    else ({ p with checksum := p.checksum + b.toNat, state := .waitType }, true, [])
  | .waitType =>
    ({ p with checksum := p.checksum + b.toNat, packetType := b, state := .waitLength }, true, [])
  | .waitLength =>
    let state := if b = 0 then .waitChecksum else .waitData
    ({ p with checksum := p.checksum + b.toNat, length := b.toNat, data := [], state }, true, [])
  | .waitData =>
    let data := p.data ++ [b]
    let state := if data.length ≥ p.length then .waitChecksum else .waitData
    ({ p with data, checksum := p.checksum + b.toNat, state }, true, [])
  | .waitChecksum =>
    let replies := if b.toNat = p.checksum % 256 then p.dispatchPacket
      else [.errorState ERR_INVALID_RPC_PACKET]
    (p.reset, true, replies)

/-- The time between two readings of `millis`. -/
def elapsed (since now : Nat) : Nat := (now + 2 ^ 32 - since) % 2 ^ 32

/-- Whether the byte read at `last` counts as long ago. -/
def Stale (last now : Nat) : Prop := last ≠ 0 ∧ elapsed last now > PARSER_IDLE_RESET_MS

instance {last now : Nat} : Decidable (Stale last now) := inferInstanceAs (Decidable (_ ∧ _))

/-- The reset at the start of `loop`. -/
def Parser.idle (now : Nat) (p : Parser) : Parser :=
  if p.state ≠ .waitMagic ∧ Stale p.lastByteMs now then p.reset else p

/-! ### What the parser hears -/

/-- A byte from the port, with the reading of `millis`, or a call of `loop`. -/
inductive Tick where
  | read (now : Nat) (b : UInt8)
  | loop (now : Nat)
  deriving DecidableEq, Repr

/-- The bytes read. -/
def reads : List Tick → Bytes
  | [] => []
  | .read _ b :: ts => b :: reads ts
  | .loop _ :: ts => reads ts

/-- The parser, and the bytes that it lets through. -/
def Parser.hear (p : Parser) : List Tick → Parser × Bytes
  | [] => (p, [])
  | .read now b :: ts =>
    let (p, consumed, _) := p.onByte now b
    let (p, passed) := p.hear ts
    (p, if consumed then passed else b :: passed)
  | .loop now :: ts => (p.idle now).hear ts

/-- The bytes heard since the magic bytes were last followed by a pause, and when the last one
was. -/
structure Heard where
  bytes : Bytes := []
  last : Nat := 0
  deriving DecidableEq, Repr

def Heard.tick (h : Heard) : Tick → Heard
  | .read now b => { bytes := h.bytes ++ [b], last := now }
  | .loop now => if MAGIC_BYTES <:+ h.bytes ∧ Stale h.last now then { h with bytes := [] } else h

def heard (ts : List Tick) : Heard := ts.foldl Heard.tick {}

/-- No byte comes behind the magic bytes without a pause. -/
def Undisturbed (ts : List Tick) : Prop :=
  ∀ pre now b post, ts = pre ++ .read now b :: post → ¬ MAGIC_BYTES <:+ (heard pre).bytes

variable {p : Parser} {ts : List Tick} {h : Heard} {now : Nat} {b : UInt8}

/-- The parser has consumed nothing of what was heard. -/
structure Listening (h : Heard) (p : Parser) : Prop where
  last : p.lastByteMs = h.last
  magic : Matches MAGIC_BYTES h.bytes p.magicIdx
  state : p.state = if p.magicIdx = 6 then .waitVersion else .waitMagic

lemma Listening.init : Listening {} {} := ⟨rfl, .nil, rfl⟩

/-- The letter `I` stands at the front of the magic bytes alone. -/
lemma Listening.advance (hl : Listening h p) (hi : p.magicIdx < 6) :
    Matches MAGIC_BYTES (h.bytes ++ [b]) (advance MAGIC_BYTES p.magicIdx b) :=
  Matches.advance (Q := [0x4D, 0x50, 0x52, 0x4F, 0x56]) (by decide) hl.magic hi

/-- A byte that does not come behind the magic bytes goes through. -/
lemma Listening.read (now : Nat) (b : UInt8) (hl : Listening h p) (hm : ¬ MAGIC_BYTES <:+ h.bytes) :
    ∃ p', p.onByte now b = (p', false, []) ∧ Listening (h.tick (.read now b)) p' := by
  have hne : p.magicIdx ≠ 6 := fun e => hm (hl.magic.full.mpr e)
  have hlt : p.magicIdx < 6 := lt_of_le_of_ne hl.magic.le hne
  have hst : p.state = .waitMagic := hl.state.trans (if_neg hne)
  have hadv := hl.advance (b := b) hlt
  unfold Lib.advance at hadv
  unfold Parser.onByte
  dsimp only
  rw [hst]
  dsimp only
  by_cases hb : MAGIC_BYTES[p.magicIdx]? = some b
  · rw [if_pos hb] at hadv ⊢
    exact ⟨_, rfl, rfl, hadv, rfl⟩
  · rw [if_neg hb] at hadv ⊢
    by_cases hi : MAGIC_BYTES.head? = some b
    · rw [if_pos hi] at hadv ⊢
      exact ⟨_, rfl, rfl, hadv, rfl⟩
    · rw [if_neg hi] at hadv ⊢
      exact ⟨_, rfl, rfl, hadv, rfl⟩

/-- A byte behind the magic bytes is consumed. -/
lemma Listening.consumed (now : Nat) (b : UInt8) (hl : Listening h p)
    (hm : MAGIC_BYTES <:+ h.bytes) : ∃ p' replies, p.onByte now b = (p', true, replies) := by
  have hst : p.state = .waitVersion := hl.state.trans (if_pos (hl.magic.full.mp hm))
  unfold Parser.onByte
  dsimp only
  rw [hst]
  dsimp only
  split
  next => exact ⟨_, _, rfl⟩
  next => exact ⟨_, _, rfl⟩

/-- The parser is reset in a pause behind the magic bytes. -/
lemma Listening.idle (hl : Listening h p) : Listening (h.tick (.loop now)) (p.idle now) := by
  have hiff : (p.state ≠ .waitMagic ∧ Stale p.lastByteMs now) ↔
      (MAGIC_BYTES <:+ h.bytes ∧ Stale h.last now) := by
    rw [hl.last, hl.magic.full, hl.state]
    refine and_congr_left fun _ => ?_
    by_cases e : p.magicIdx = 6
    · rw [if_pos e]
      exact iff_of_true nofun e
    · rw [if_neg e]
      exact iff_of_false (fun hn => hn rfl) e
  unfold Parser.idle Heard.tick
  dsimp only
  by_cases hs : MAGIC_BYTES <:+ h.bytes ∧ Stale h.last now
  · rw [if_pos hs, if_pos (hiff.mpr hs)]
    exact ⟨hl.last, .nil, rfl⟩
  · rw [if_neg hs, if_neg fun hp => hs (hiff.mp hp)]
    exact hl

lemma reads_append {ts' : List Tick} : reads (ts ++ ts') = reads ts ++ reads ts' := by
  induction ts with
  | nil => rfl
  | cons t ts ih =>
    cases t with
    | read now b => exact congrArg (b :: ·) ih
    | loop now => exact ih

/-- What was heard is the end of what was read. -/
lemma heard_suffix : (heard ts).bytes <:+ reads ts := by
  unfold heard
  induction ts using List.reverseRecOn with
  | nil => exact List.nil_suffix
  | append_singleton ts t ih =>
    rw [List.foldl_append, reads_append]
    cases t with
    | read now b =>
      obtain ⟨x, hx⟩ := ih
      refine ⟨x, ?_⟩
      rw [← hx]
      exact (List.append_assoc _ _ _).symm
    | loop now =>
      rw [List.foldl_cons, List.foldl_nil, show reads [.loop now] = [] from rfl, List.append_nil]
      unfold Heard.tick
      dsimp only
      split
      next => exact List.nil_suffix
      next => exact ih

lemma hear_read : p.hear (.read now b :: ts) =
    (((p.onByte now b).1.hear ts).1,
      if (p.onByte now b).2.1 then ((p.onByte now b).1.hear ts).2
      else b :: ((p.onByte now b).1.hear ts).2) := rfl

lemma hear_append {ts' : List Tick} : p.hear (ts ++ ts') =
    (((p.hear ts).1.hear ts').1, (p.hear ts).2 ++ ((p.hear ts).1.hear ts').2) := by
  induction ts generalizing p with
  | nil => rfl
  | cons t ts ih =>
    cases t with
    | read now b =>
      rw [List.cons_append, hear_read, hear_read, ih]
      dsimp only
      split
      next => rfl
      next => rfl
    | loop now => exact ih

/-- No more bytes go through than are read. -/
lemma hear_length_le : (p.hear ts).2.length ≤ (reads ts).length := by
  induction ts generalizing p with
  | nil => exact le_rfl
  | cons t ts ih =>
    cases t with
    | read now b =>
      rw [hear_read]
      dsimp only
      split
      next => exact ih.trans (Nat.le_succ _)
      next => exact Nat.succ_le_succ ih
    | loop now => exact ih

/-- Every byte goes through when none comes behind the magic bytes, and only then. -/
lemma Listening.hear_iff (hl : Listening h p) :
    (p.hear ts).2 = reads ts ↔
      ∀ pre now b post, ts = pre ++ .read now b :: post →
        ¬ MAGIC_BYTES <:+ (pre.foldl Heard.tick h).bytes := by
  induction ts generalizing p h with
  | nil => exact iff_of_true rfl fun pre now b post e => by simp at e
  | cons t ts ih =>
    -- the condition is that on the first tick and that on the others
    have hcons : (∀ pre now b post, t :: ts = pre ++ .read now b :: post →
          ¬ MAGIC_BYTES <:+ (pre.foldl Heard.tick h).bytes) ↔
        (∀ now b, t = .read now b → ¬ MAGIC_BYTES <:+ h.bytes) ∧
          ∀ pre now b post, ts = pre ++ .read now b :: post →
            ¬ MAGIC_BYTES <:+ (pre.foldl Heard.tick (h.tick t)).bytes := by
      constructor
      · refine fun hd => ⟨fun now b e => hd [] now b ts (by rw [e]; rfl),
          fun pre now b post e => ?_⟩
        exact hd (t :: pre) now b post (by rw [e]; rfl)
      · rintro ⟨h1, h2⟩ pre now b post e
        cases pre with
        | nil => exact h1 now b (List.cons.inj e).1
        | cons t' pre =>
          obtain ⟨rfl, e'⟩ := List.cons.inj e
          exact h2 pre now b post e'
    rw [hcons]
    cases t with
    | loop now =>
      rw [and_iff_right (fun now b (e : Tick.loop _ = Tick.read now b) => by cases e)]
      exact ih hl.idle
    | read now b =>
      rw [hear_read]
      unfold reads
      by_cases hm : MAGIC_BYTES <:+ h.bytes
      · obtain ⟨p', replies, hp⟩ := hl.consumed now b hm
        rw [hp]
        refine iff_of_false (fun e => ?_) fun hd => hd.1 now b rfl hm
        have hlen : (p'.hear ts).2.length = (b :: reads ts).length := congrArg List.length e
        exact absurd (hear_length_le.trans_lt (Nat.lt_succ_self _)) hlen.not_lt
      · obtain ⟨p', hp, hl'⟩ := hl.read now b hm
        rw [hp, and_iff_right fun _ _ _ => hm, ← ih hl']
        exact ⟨fun e => (List.cons.inj e).2, fun e => congrArg (b :: ·) e⟩

/-- The tap lets every byte through just in the undisturbed runs. -/
theorem hear_iff : (Parser.hear {} ts).2 = reads ts ↔ Undisturbed ts := Listening.init.hear_iff

end URSupreme.Improv
