import URSupreme.Lib.Bytes
import Mathlib.Tactic

/-!
# HDLC framing

`HDLC.h`: a frame goes between two flags, with its flags and escapes escaped. The decoder is fed
byte by byte, in whatever chunks the socket gives, and hands on what it has between two flags. A
flag that ends one frame starts the next, so a decoder that starts in the middle hands on at most
what it has already.
-/

namespace URSupreme.HDLC
open Lib

def FLAG : UInt8 := 0x7E
def ESC : UInt8 := 0x7D
def ESC_MASK : UInt8 := 0x20

/-- One turn of the loop of `encode`. -/
def encodeByte (out : Bytes) (b : UInt8) : Bytes :=
  if b = FLAG ∨ b = ESC then out ++ [ESC] ++ [b ^^^ ESC_MASK] else out ++ [b]

/-- `encode`, which appends to `out`. -/
def encode (data out : Bytes) : Bytes := data.foldl encodeByte (out ++ [FLAG]) ++ [FLAG]

/-- `Decoder`. -/
structure Decoder where
  buf : Bytes := []
  inFrame : Bool := false
  escape : Bool := false
  deriving DecidableEq, Repr

/-- `feed`, with the frame it hands on. -/
def Decoder.feed (d : Decoder) (b : UInt8) : Decoder × Option Bytes :=
  if b = FLAG then
    ({ buf := [], inFrame := true, escape := false },
      if d.inFrame = true ∧ d.buf.length > 0 then some d.buf else none)
  else if d.inFrame = false then (d, none)
  else if d.escape = true then ({ d with buf := d.buf ++ [b ^^^ ESC_MASK], escape := false }, none)
  else if b = ESC then ({ d with escape := true }, none)
  else ({ d with buf := d.buf ++ [b] }, none)

/-- The bytes of one chunk, one after the other. -/
def Decoder.feedChunk (d : Decoder) : Bytes → Decoder × List Bytes
  | [] => (d, [])
  | b :: chunk =>
    let (d, frame) := d.feed b
    let (d, frames) := d.feedChunk chunk
    (d, frame.toList ++ frames)

/-- The chunks of a stream. -/
def Decoder.feedChunks (d : Decoder) : List Bytes → Decoder × List Bytes
  | [] => (d, [])
  | chunk :: chunks =>
    let (d, frames) := d.feedChunk chunk
    let (d, rest) := d.feedChunks chunks
    (d, frames ++ rest)

/-- What the decoder hands on at the next flag. -/
def Decoder.leftover (d : Decoder) : List Bytes :=
  if d.inFrame = true ∧ d.buf.length > 0 then [d.buf] else []

section

variable {d : Decoder} {b : UInt8} {data out : Bytes} {l l' frames : List Bytes}
  {chunk chunk' : Bytes}

/-- What `encode` puts between the flags. -/
def escaped (data : Bytes) : Bytes := data.flatMap (encodeByte [])

lemma encodeByte_append : encodeByte out b = out ++ encodeByte [] b := by
  unfold encodeByte
  split
  next => rw [List.append_assoc]; rfl
  next => rfl

lemma encode_eq : encode data out = out ++ (FLAG :: escaped data ++ [FLAG]) := by
  have h : ∀ out, data.foldl encodeByte out = out ++ escaped data := by
    induction data with
    | nil => exact fun out => (List.append_nil out).symm
    | cons b data ih =>
      intro out
      rw [List.foldl_cons, ih, encodeByte_append, List.append_assoc]
      rfl
  rw [encode, h, List.append_assoc, List.append_assoc]
  rfl

/-- The chunks are fed one byte after the other. -/
lemma feedChunk_append : d.feedChunk (chunk ++ chunk') =
    (((d.feedChunk chunk).1.feedChunk chunk').1,
      (d.feedChunk chunk).2 ++ ((d.feedChunk chunk).1.feedChunk chunk').2) := by
  induction chunk generalizing d with
  | nil => rfl
  | cons b chunk ih => simp only [List.cons_append, Decoder.feedChunk, ih, List.append_assoc]

lemma feedChunks_eq : d.feedChunks l = d.feedChunk l.flatten := by
  induction l generalizing d with
  | nil => rfl
  | cons chunk l ih =>
    rw [List.flatten_cons, feedChunk_append, Decoder.feedChunks]
    simp only [ih]

/-- A flag, whatever the decoder was in. -/
lemma feedChunk_flag :
    d.feedChunk [FLAG] = ({ buf := [], inFrame := true, escape := false }, d.leftover) := by
  simp only [Decoder.feedChunk, Decoder.feed, if_true, List.append_nil, Decoder.leftover]
  split <;> rfl

/-- A byte of a frame, escaped or not. -/
lemma feedChunk_encodeByte (h : d.inFrame = true) (he : d.escape = false) :
    d.feedChunk (encodeByte [] b) = ({ d with buf := d.buf ++ [b] }, []) := by
  obtain ⟨buf, inFrame, escape⟩ := d
  cases h
  cases he
  unfold encodeByte
  split
  next hb =>
    have hne : ¬ b ^^^ ESC_MASK = FLAG := by
      rcases hb with rfl | rfl <;> decide
    have hxor : b ^^^ ESC_MASK ^^^ ESC_MASK = b := by
      rw [UInt8.xor_assoc, UInt8.xor_self, UInt8.xor_zero]
    have hesc : (({ buf, inFrame := true, escape := false } : Decoder).feed ESC) =
        ({ buf, inFrame := true, escape := true }, none) := rfl
    simp only [List.nil_append, List.cons_append, Decoder.feedChunk, hesc]
    simp only [Decoder.feed, if_neg hne, hxor, Bool.true_eq_false, if_false, if_true]
    rfl
  next hb =>
    rw [not_or] at hb
    simp only [List.nil_append, Decoder.feedChunk, Decoder.feed, if_neg hb.1, if_neg hb.2,
      Bool.true_eq_false, Bool.false_eq_true, if_false]
    rfl

lemma feedChunk_escaped (h : d.inFrame = true) (he : d.escape = false) :
    d.feedChunk (escaped data) = ({ d with buf := d.buf ++ data }, []) := by
  induction data generalizing d with
  | nil => rw [escaped, List.flatMap_nil, List.append_nil]; rfl
  | cons b data ih =>
    have hcons : escaped (b :: data) = encodeByte [] b ++ escaped data := rfl
    have hnext := ih (d := { d with buf := d.buf ++ [b] }) h he
    rw [hcons, feedChunk_append, feedChunk_encodeByte h he, hnext, List.append_assoc]
    rfl

/-- A whole frame is handed on at its last flag, and the decoder is left between two frames. -/
lemma feedChunk_encode (hne : data ≠ []) :
    d.feedChunk (encode data []) =
      ({ buf := [], inFrame := true, escape := false }, d.leftover ++ [data]) := by
  have hopen : (FLAG :: escaped data ++ [FLAG]) = [FLAG] ++ (escaped data ++ [FLAG]) := rfl
  have hl : (⟨data, true, false⟩ : Decoder).leftover = [data] :=
    if_pos ⟨rfl, List.length_pos_iff.mpr hne⟩
  rw [encode_eq, List.nil_append, hopen, feedChunk_append, feedChunk_flag, feedChunk_append,
    feedChunk_escaped rfl rfl, feedChunk_flag, List.nil_append, hl]
  rfl

/-- **The frames come out as they went in**, however their stream is cut into chunks, behind at most
what the decoder already had. -/
theorem feedChunks_encode {chunks : List Bytes} (hne : ∀ f ∈ frames, f ≠ [])
    (h : chunks.flatten = (frames.map (encode · [])).flatten) :
    ∃ spurious, spurious <+: d.leftover ∧ spurious.length ≤ 1 ∧
      (d.feedChunks chunks).2 = spurious ++ frames := by
  have hle : d.leftover.length ≤ 1 := by
    unfold Decoder.leftover
    split
    next => exact le_rfl
    next => exact Nat.zero_le _
  rw [feedChunks_eq, h]
  clear h
  cases frames with
  | nil => exact ⟨[], List.nil_prefix, Nat.zero_le _, rfl⟩
  | cons f frames =>
    refine ⟨d.leftover, List.prefix_refl _, hle, ?_⟩
    clear hle
    induction frames generalizing f d with
    | nil =>
      rw [List.map_singleton, List.flatten_singleton, feedChunk_encode (hne f List.mem_cons_self)]
    | cons g frames ih =>
      -- between two frames the decoder has nothing to hand on
      rw [List.map_cons, List.flatten_cons, feedChunk_append,
        feedChunk_encode (hne f List.mem_cons_self),
        ih g fun x hx => hne x (List.mem_cons_of_mem f hx), List.append_assoc]
      rfl

/-- A decoder in the middle of an escape, and a flag in the frame that comes in single bytes. -/
theorem feedChunks_encode_escape :
    let d : Decoder := { buf := [1, 2], inFrame := true, escape := true }
    ∃ spurious, spurious <+: d.leftover ∧ spurious.length ≤ 1 ∧
      (d.feedChunks [[FLAG], [ESC], [0x5E], [FLAG]]).2 = spurious ++ [[FLAG]] :=
  feedChunks_encode (by decide) (by decide)

end

end URSupreme.HDLC
