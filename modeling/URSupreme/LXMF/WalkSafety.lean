import URSupreme.Common.MsgPackSafety
import URSupreme.LXMF.Payload
import URSupreme.Telemetry.Parsers

/-!
# The walks over received buffers

The field and attachment walks of `_parse_lxmf_payload` and the walks of the telemetry parsers end
whenever `skip_element` does: each loop counts up to a number read from the buffer, and everything
between two turns of a loop is `skip_element` or a bounded number of reads.
-/

namespace URSupreme
open Lib MsgPack

/-- A computation that does not run forever. -/
def Ends {α : Type} (x : Except Fault α) : Prop := x ≠ .error .fuel

namespace Ends

@[simp] lemma ok {α : Type} {a : α} : Ends (.ok a : Except Fault α) := fun h => by cases h

@[simp] lemma overread {α : Type} : Ends (.error .overread : Except Fault α) :=
  fun h => by cases h

@[simp] lemma bind {α β : Type} {x : Except Fault α} {f : α → Except Fault β} :
    Ends (x >>= f) ↔ Ends x ∧ ∀ a, x = .ok a → Ends (f a) := by
  cases x with
  | error e =>
    refine ⟨fun h => ⟨fun he => h (by cases he; rfl), fun a ha => by cases ha⟩, fun h he => ?_⟩
    exact h.1 (by cases he; rfl)
  | ok a => exact ⟨fun h => ⟨ok, fun b hb => by cases hb; exact h⟩, fun h => h.2 a rfl⟩

@[simp] lemma ite {α : Type} {c : Prop} [Decidable c] {x y : Except Fault α} :
    Ends (if c then x else y) ↔ (c → Ends x) ∧ (¬ c → Ends y) := by
  split <;> simp [*]

@[simp] lemma byteAt {data i} : Ends (byteAt data i) := by
  unfold MsgPack.byteAt
  split <;> simp

@[simp] lemma u16 {data i} : Ends (u16 data i) := by simp [MsgPack.u16]

@[simp] lemma u32 {data i} : Ends (u32 data i) := by simp [MsgPack.u32]

@[simp] lemma readBinOrStr {data o} : Ends (readBinOrStr data o) := by
  simp [MsgPack.readBinOrStr, readBody]

end Ends

section Payload
open LXMF
variable {fuel : Nat} {data : Bytes}

@[simp] lemma Ends.pairName {ve tag p} : Ends (pairName data ve tag p) := by
  simp [LXMF.pairName]

@[simp] lemma Ends.binHeader {ve p} : Ends (binHeader data ve p) := by
  simp [LXMF.binHeader]

@[simp] lemma Ends.emitPair {ve tag p} : Ends (emitPair data ve tag p) := by
  simp only [LXMF.emitPair, ite, ok, bind, pairName, imp_true_iff, true_and]
  intro _ r _
  split
  · exact ok
  · simp only [ite, ok, bind, binHeader, imp_true_iff, true_and]
    intro _ h _
    split <;> simp

@[simp] lemma Ends.pairHeader {ve p} : Ends (pairHeader data ve p) := by
  simp [LXMF.pairHeader]

@[simp] lemma Ends.filePairs {ve n p} : Ends (filePairs data ve n p) := by
  induction n generalizing p with
  | zero => exact ok
  | succ n ih =>
    simp only [LXMF.filePairs, ite, ok, bind, pairHeader, imp_true_iff, true_and, and_true]
    intro _ q _
    split <;> simp [ih]

@[simp] lemma Ends.valueHeader {vs ve} : Ends (valueHeader data vs ve) := by
  simp [LXMF.valueHeader]

@[simp] lemma Ends.bareHeader {vs ve} : Ends (bareHeader data vs ve) := by
  simp [LXMF.bareHeader]

@[simp] lemma Ends.attachmentValue {key vs ve} : Ends (attachmentValue data key vs ve) := by
  simp only [LXMF.attachmentValue, ite, bind, byteAt, valueHeader, bareHeader, true_and]
  intro vt _
  constructor
  · intro _ h _
    split <;> simp
  · intro _ h _
    split <;> simp

@[simp] lemma Ends.fieldValue {key vs ve acc} : Ends (fieldValue data key vs ve acc) := by
  simp [LXMF.fieldValue, copyBytes]

@[simp] lemma Ends.fieldKey {off} : Ends (fieldKey data off) := by
  simp [LXMF.fieldKey]

@[simp] lemma Ends.mapHeader {off} : Ends (LXMF.mapHeader data off) := by
  simp [LXMF.mapHeader]

@[simp] lemma Ends.timestamp {off} : Ends (timestamp data off) := by
  simp [LXMF.timestamp]

@[simp] lemma Ends.arrayHeader : Ends (LXMF.arrayHeader data) := by
  simp [LXMF.arrayHeader]

variable (hskip : ∀ off, Ends (skipElement fuel data off))
include hskip

lemma Ends.fieldLoop {n off acc} : Ends (fieldLoop fuel data n off acc) := by
  induction n generalizing off acc with
  | zero => exact ok
  | succ n ih =>
    simp only [LXMF.fieldLoop, ite, ok, bind, fieldKey, imp_true_iff, true_and, and_true]
    intro _ k _
    split <;> simp [hskip, ih]

/-- The field and attachment walks end whenever `skip_element` does. -/
lemma Ends.parseLxmfPayload : Ends (parseLxmfPayload fuel data) := by
  have hfields : ∀ {n off}, Ends (parseFields fuel data n off) := by
    intro n off
    simp only [parseFields, ite, ok, bind, mapHeader, imp_true_iff, true_and, and_true]
    intro _ h _
    split
    · exact ok
    · exact Ends.fieldLoop hskip
  simp only [LXMF.parseLxmfPayload, ite, ok, bind, arrayHeader, imp_true_iff, true_and]
  intro _ h _
  split
  · exact ok
  · simp [hskip, hfields]

/-- The walk of `_split_payload_stamp` ends whenever `skip_element` does. -/
lemma Ends.splitPayloadStamp : Ends (splitPayloadStamp fuel data) := by
  have many : ∀ {n off}, Ends (skipMany (skipElement fuel data) n off) := by
    intro n
    induction n with
    | zero => exact ok
    | succ n ih => simp [skipMany, hskip, ih]
  simp only [LXMF.splitPayloadStamp, ite, ok, bind, arrayHeader, imp_true_iff, true_and]
  intro _ h _
  split
  · exact ok
  · simp [many]

end Payload

section Telemetry
open Telemetry
variable {fuel : Nat} {data : Bytes}

@[simp] lemma Ends.beAt {n o v} : Ends (beAt data n o v) := by
  induction n generalizing o v with
  | zero => exact ok
  | succ n ih => simp [Telemetry.beAt, ih]

@[simp] lemma Ends.readNumber {off} : Ends (readNumber data off) := by
  simp [Telemetry.readNumber]

@[simp] lemma Ends.readBeBin {off want} : Ends (readBeBin data off want) := by
  simp [Telemetry.readBeBin]

@[simp] lemma Ends.telemetryArrayHeader {off} : Ends (Telemetry.arrayHeader data off) := by
  simp [Telemetry.arrayHeader]

@[simp] lemma Ends.telemetryMapHeader : Ends (Telemetry.mapHeader data) := by
  simp [Telemetry.mapHeader]

@[simp] lemma Ends.sensorKey {off} : Ends (sensorKey data off) := by
  simp [Telemetry.sensorKey]

@[simp] lemma Ends.locationReading {off} : Ends (locationReading data off) := by
  unfold Telemetry.locationReading
  repeat' first
    | simp only [bind, readBeBin, true_and]
      intro r _
    | split
  all_goals simp

@[simp] lemma Ends.sensorCase {sid off} : Ends (sensorCase data sid off) := by
  unfold Telemetry.sensorCase numberReading
  repeat' first
    | exact ok
    | simp only [bind, readNumber, telemetryArrayHeader, locationReading, byteAt, true_and]
      intro r _
    | split

variable (hskip : ∀ off, Ends (skipElement fuel data off))
include hskip

lemma Ends.decodeInto : Ends (decodeInto fuel data) := by
  have loop : ∀ {n off out}, Ends (decodeLoop fuel data n off out) := by
    intro n
    induction n with
    | zero => exact ok
    | succ n ih =>
      intro off out
      simp only [decodeLoop, ite, ok, bind, sensorKey, imp_true_iff, true_and, and_true]
      intro _ k _
      split
      · exact ok
      · simp only [bind, sensorCase, true_and]
        intro e _
        split <;> simp [hskip, ih]
  simp only [Telemetry.decodeInto, bind, telemetryMapHeader, true_and]
  intro h _
  split
  · exact ok
  · exact loop

lemma Ends.metaMarksMessage : Ends (metaMarksMessage fuel data) := by
  have loop : ∀ {n off}, Ends (marksLoop fuel data n off) := by
    intro n
    induction n with
    | zero => exact ok
    | succ n ih => simp [marksLoop, hskip, ih]
  simp only [Telemetry.metaMarksMessage, bind, telemetryMapHeader, true_and]
  intro h _
  split
  · exact ok
  · exact loop

lemma Ends.commandsRequest : Ends (commandsRequest fuel data) := by
  have entries : ∀ {n off r}, Ends (commandEntries fuel data n off r) := by
    intro n
    induction n with
    | zero => exact ok
    | succ n ih => simp [commandEntries, hskip, ih]
  have loop : ∀ {n off r}, Ends (commandLoop fuel data n off r) := by
    intro n
    induction n with
    | zero => exact ok
    | succ n ih =>
      intro off r
      simp only [commandLoop, ite, ok, bind, byteAt, entries, imp_true_iff, true_and, and_true]
      intro _ mt _ _ e _
      split
      · exact ok
      · exact ih
  simp only [Telemetry.commandsRequest, bind, telemetryArrayHeader, true_and]
  intro h _
  split
  · exact ok
  · exact loop

lemma Ends.onLiveOffer : Ends (onLiveOffer fuel data) := by
  have offer : ∀ {off}, Ends (liveOffer data off) := by
    intro off
    have uint : ∀ {o}, Ends (readUint data o) := by simp [readUint]
    simp only [liveOffer, ite, ok, bind, byteAt, uint, imp_true_iff, true_and]
    intro _ t _ _ r _
    split
    · simp only [bind, uint, true_and]
      intro q _
      split <;> exact ok
    · exact ok
  have loop : ∀ {n off}, Ends (offerLoop fuel data n off) := by
    intro n
    induction n with
    | zero => exact ok
    | succ n ih => simp [offerLoop, hskip, ih, offer]
  simp only [Telemetry.onLiveOffer, bind, telemetryMapHeader, true_and]
  intro h _
  split
  · exact ok
  · exact loop

end Telemetry

/-- What is asked of the decoders on one buffer: from every offset inside it both are safe, and
the walks built on them end. -/
structure DecodersSafe (data : Bytes) : Prop where
  skip : ∀ offset < data.length, SkipSafe data offset
  read : ∀ offset < data.length, ReadSafe data offset
  walks : ∃ fuel, Ends (LXMF.parseLxmfPayload fuel data) ∧
    Ends (LXMF.splitPayloadStamp fuel data) ∧ Ends (Telemetry.decodeInto fuel data) ∧
    Ends (Telemetry.metaMarksMessage fuel data) ∧ Ends (Telemetry.commandsRequest fuel data) ∧
    Ends (Telemetry.onLiveOffer fuel data)

/-- The decoders are safe on exactly the buffers in which no announced end passes `2 ^ 32`. -/
theorem decodersSafe_iff_fits {data : Bytes} (hl : data.length < 2 ^ 32) :
    DecodersSafe data ↔ Fits data := by
  constructor
  · intro h
    exact fits_of_safe hl fun offset ho => ⟨h.skip offset ho, h.read offset ho⟩
  · intro hf
    have hskip : ∀ off, Ends (skipElement (data.length + 1) data off) := by
      intro off
      by_cases ho : off ≤ data.length
      · obtain ⟨r, e, _⟩ := skipElement_total hf hl ho
          (by omega : data.length < off + (data.length + 1))
        rw [e]
        exact .ok
      · rw [skipElement, if_pos (by omega)]
        exact .ok
    exact {
      skip := fun offset ho => (safe_of_fits hl hf offset ho).1
      read := fun offset ho => (safe_of_fits hl hf offset ho).2
      walks := ⟨data.length + 1, .parseLxmfPayload hskip, .splitPayloadStamp hskip,
        .decodeInto hskip, .metaMarksMessage hskip, .commandsRequest hskip, .onLiveOffer hskip⟩ }

/-- A telemetry request has no length that could pass the bound. -/
theorem decodersSafe_iff_fits_request :
    [0x91, 0x81, 0x01, 0xC0].length < 2 ^ 32 ∧
      (DecodersSafe [0x91, 0x81, 0x01, 0xC0] ↔ Fits [0x91, 0x81, 0x01, 0xC0]) :=
  ⟨by decide, decodersSafe_iff_fits (by decide)⟩

/-- A payload whose timestamp is an array of two, its first element a `bin32` that announces an end
of `2 ^ 32 + 1`: the second element is the array again. -/
def nestedWrap : Bytes := [0x93, 0x92, 0xC6, 0xFF, 0xFF, 0xFF, 0xFA]

lemma skipElement_nestedWrap {fuel} : skipElement fuel nestedWrap 1 = .error .fuel := by
  induction fuel with
  | zero => rfl
  | succ fuel ih =>
    cases fuel with
    | zero => rfl
    | succ fuel =>
      have inner : skipElement (fuel + 1) nestedWrap 2 = .ok (true, 1) := by
        rw [skipElement]
        rfl
      rw [skipElement]
      change skipMany (skipElement (fuel + 1) nestedWrap) 2 2 = _
      rw [skipMany_succ, inner, ok_bind]
      simp [skipMany, ih]

/-- The decoders are not safe on `nestedWrap`: the parse recurses forever. -/
theorem not_decodersSafe_nestedWrap : ¬ DecodersSafe nestedWrap := by
  intro h
  obtain ⟨fuel, hp, _⟩ := h.walks
  have hh : LXMF.arrayHeader nestedWrap = .ok (some (3, 1)) := rfl
  have hts : LXMF.timestamp nestedWrap 1 = .ok none := rfl
  refine hp ?_
  rw [LXMF.parseLxmfPayload, if_neg (by decide), hh, ok_bind]
  simp only
  rw [if_neg (by decide), hts, ok_bind, skipElement_nestedWrap, error_bind]

end URSupreme
