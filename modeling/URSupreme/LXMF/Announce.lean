import URSupreme.Common.MsgPackSafety
import URSupreme.Common.MsgPackTree

/-!
# The announce of a delivery destination

`announce` and `peer_stamp_cost` of `LXMF/LXMFMinimal.h`, with what `Web/WebUI/identity.h` accepts
as a display name and as a stamp cost. The writer fills a buffer of 128 bytes; a byte stored behind
it is the fault `overrun`.
-/

namespace URSupreme.Announce
open Lib Lib.Wire MsgPack

/-- `sizeof(buf)`. -/
def BUF_SIZE : Nat := 128

inductive Overrun where
  | overrun
  deriving DecidableEq, Repr

/-- `buf[pos++] = b`. -/
def put (buf : Bytes) (b : UInt8) : Except Overrun Bytes :=
  if buf.length < BUF_SIZE then .ok (buf ++ [b]) else .error .overrun

/-- `announce` up to its `app_data`, `none` where it gives up. -/
def announce (displayName : Bytes) (stampCost : UInt8) : Except Overrun (Option Bytes) := do
  let buf ← put [] 0x93
  match packBin (BUF_SIZE - buf.length) displayName with
  | none => .ok none
  | some n =>
    let buf := buf ++ n
    if stampCost ≥ 1 then
      match packUint8 (BUF_SIZE - buf.length) stampCost with
      | none => .ok none
      | some n =>
        let buf ← put (buf ++ n) 0x90
        .ok (some buf)
    else
      let buf ← put buf 0xC0
      let buf ← put buf 0x90
      .ok (some buf)

/-- The array header: the number of elements and the offset behind it. -/
def arrayStart (d : Bytes) : Except Fault (Option (Nat × Nat)) := do
  let t ← byteAt d 0
  if t ≥ 0x90 ∧ t ≤ 0x9F then .ok (some ((t &&& 0x0F).toNat, 1))
  else if t = 0xDC ∧ d.length ≥ 3 then .ok (some (← u16 d 1, 3))
  else .ok none

/-- `(v >= 1 && v <= 254) ? (uint8_t)v : 0`. -/
def validCost (v : Nat) : UInt8 := if v ≥ 1 ∧ v ≤ 254 then UInt8.ofNat v else 0

/-- The end of `peer_stamp_cost`, at the second element. -/
def costAt (d : Bytes) (off : Nat) : Except Fault UInt8 := do
  let len := d.length
  if off ≥ len then .ok 0
  else
    let t ← byteAt d off
    if t ≤ 0x7F then .ok (validCost t.toNat)
    else if t = 0xCC ∧ sz (off + 1) < len then
      .ok (validCost (← byteAt d (sz (off + 1))).toNat)
    else if t = 0xCD ∧ sz (off + 2) < len then .ok (validCost (← u16 d (sz (off + 1))))
    else .ok 0

/-- `peer_stamp_cost` of the recalled `app_data`, its recursion at most `fuel` deep. -/
def peerStampCost (fuel : Nat) (d : Bytes) : Except Fault UInt8 := do
  if d.length < 2 then .ok 0
  else
    match ← arrayStart d with
    | none => .ok 0
    | some (n, off) =>
      if n < 2 then .ok 0
      else
        let (ok, off) ← skipElement fuel d off
        if ok then costAt d off else .ok 0

/-! ## What configuration accepts -/

/-- The `const char*` of a JSON string. -/
def cString (json : Bytes) : Bytes := json.takeWhile (· ≠ 0)

def isBlank (c : UInt8) : Bool := c = 0x20 ∨ c = 0x09 ∨ c = 0x0D ∨ c = 0x0A

/-- The display name that `handle_create_identity` hands on. -/
def createName (json : Bytes) : Option Bytes :=
  let name := cString json
  if name = [] then none else some name

/-- The display name that the settings handler hands on. -/
def settingsName (json : Bytes) : Option Bytes :=
  let n := (((cString json).dropWhile isBlank).reverse.dropWhile isBlank).reverse
  if n = [] then none else some (n.take 96)

/-- `set_stamp_cost`. -/
def setStampCost (cost : UInt8) : UInt8 := if cost ≥ 1 ∧ cost ≤ 254 then cost else 0

/-- The stamp cost that the settings handler hands on. -/
def settingsCost (cost : Int) : Option UInt8 :=
  if cost < 0 ∨ cost > 254 then none else some (setStampCost (UInt8.ofNat cost.toNat))

/-- A display name that creating or renaming an identity sets. -/
def AcceptsName (name : Bytes) : Prop :=
  ∃ json, createName json = some name ∨ settingsName json = some name

/-- A stamp cost that the settings set; 0 is also the cost of a new identity. -/
def AcceptsCost (cost : UInt8) : Prop := ∃ v, settingsCost v = some cost

/-! ## What an announce says -/

/-- The header of an array of `n` elements. -/
inductive ArrayHeader : Bytes → Nat → Prop where
  | short {t} : 0x90 ≤ t → t ≤ 0x9F → ArrayHeader [t] (t &&& 0x0F).toNat
  | array16 {a b} : ArrayHeader [0xDC, a, b] (be [a, b])

/-- An unsigned integer of at most 16 bits. -/
inductive Uint : Bytes → Nat → Prop where
  | fixint {t} : t ≤ 0x7F → Uint [t] t.toNat
  | uint8 {b} : Uint [0xCC, b] b.toNat
  | uint16 {a b} : Uint [0xCD, a, b] (be [a, b])

/-- The second element of the array in `d` is the cost `c`. -/
def SecondCost (d : Bytes) (c : UInt8) : Prop :=
  ∃ hdr n e u rest, d = hdr ++ (e ++ (u ++ rest)) ∧ ArrayHeader hdr n ∧ 2 ≤ n ∧
    Element (fun _ => True) e ∧ Uint u c.toNat

/-- `peer_stamp_cost` ends inside the buffer with the cost of the second element, or with none. -/
def Reads (d : Bytes) : Prop :=
  ∃ fuel c, peerStampCost fuel d = .ok c ∧ (c = 0 ∨ SecondCost d c)

/-- The announce of a name and a cost and the reading of a peer's `app_data`. -/
structure Sound (name : Bytes) (cost : UInt8) (d : Bytes) : Prop where
  inside : ∃ r, announce name cost = .ok r
  returned : ∀ data, announce name cost = .ok (some data) →
    ∃ fuel, peerStampCost fuel data = .ok cost
  reads : Reads d

/-- The name and the cost do not end one byte before the end of the buffer. -/
def Room (name : Bytes) (cost : UInt8) : Prop :=
  if cost = 0 then name.length ≠ 124 ∧ name.length ≠ 125
  else if cost ≤ 0x7F then name.length ≠ 124
  else name.length ≠ 123

/-- The first element is complete, or the walk over it ends and no cost stands where it ends. -/
def Plain (d : Bytes) : Prop :=
  ∀ n off, arrayStart d = .ok (some (n, off)) → 2 ≤ n →
    (∃ e, Element Known e ∧ At d off e) ∨
      ∃ fuel ok o, skipElement fuel d off = .ok (ok, o) ∧ (ok = true → costAt d o = .ok 0)

variable {name data d : Bytes} {cost c : UInt8} {n off : Nat}

/-! ## The writer -/

lemma packBin_short (h : name.length ≤ 125) :
    packBin 127 name = some (0xC4 :: beBytes 1 name.length ++ name) := by
  have hh : packBinHeader 127 name.length = some (0xC4 :: beBytes 1 name.length) := by
    rw [packBinHeader, if_pos (by omega), if_neg (by decide)]
  have hl : ¬ (0xC4 :: beBytes 1 name.length).length + name.length > 127 := by
    rw [List.length_cons, length_beBytes]
    omega
  rw [packBin, hh]
  exact if_neg hl

lemma packBin_long (h : 125 < name.length) : packBin 127 name = none := by
  unfold packBin
  cases hh : packBinHeader 127 name.length with
  | none => rfl
  | some hdr =>
    have hl : 2 ≤ hdr.length := by
      unfold packBinHeader at hh
      repeat' split at hh
      all_goals
        cases hh
        try rw [List.length_cons, length_beBytes]
        try decide
    exact if_pos (show hdr.length + name.length > 127 by omega)

/-- What `announce` has written up to the cost. -/
def named (name : Bytes) : Bytes := 0x93 :: (0xC4 :: beBytes 1 name.length ++ name)

lemma length_named : (named name).length = 3 + name.length := by
  rw [named, List.length_cons, List.length_append, List.length_cons, length_beBytes]
  omega

lemma announce_long (h : 125 < name.length) : announce name cost = .ok none := by
  have hp := packBin_long h
  unfold announce
  rw [show put [] 0x93 = .ok [0x93] from rfl, ok_bind]
  simp only [show BUF_SIZE - ([0x93] : Bytes).length = 127 from rfl, hp]

lemma announce_short (h : name.length ≤ 125) :
    announce name cost =
      (if cost ≥ 1 then
        match packUint8 (125 - name.length) cost with
        | none => .ok none
        | some n => (do .ok (some (← put (named name ++ n) 0x90)))
      else (do .ok (some (← put (← put (named name) 0xC0) 0x90)))) := by
  have hp := packBin_short h
  have hl : BUF_SIZE - (named name).length = 125 - name.length := by
    rw [length_named, BUF_SIZE]
    omega
  unfold announce
  rw [show put [] 0x93 = .ok [0x93] from rfl, ok_bind]
  simp only [show BUF_SIZE - ([0x93] : Bytes).length = 127 from rfl, hp]
  rw [show [0x93] ++ (0xC4 :: beBytes 1 name.length ++ name) = named name from rfl, hl]

lemma put_of_lt {buf : Bytes} {b : UInt8} (h : buf.length < 128) : put buf b = .ok (buf ++ [b]) :=
  if_pos h

lemma put_of_le {buf : Bytes} {b : UInt8} (h : 128 ≤ buf.length) : put buf b = .error .overrun :=
  if_neg (not_lt.mpr h)

/-- The bytes of the announced cost. -/
inductive CostField : UInt8 → Bytes → Prop where
  | none : CostField 0 [0xC0]
  | cost {c u} : 1 ≤ c → SmallUint u c → CostField c u

/-- `announce` overruns its buffer, gives up, or has written name and cost. -/
lemma announce_cases :
    (Room name cost ∧ (announce name cost = .ok none ∨
      ∃ u, CostField cost u ∧ name.length ≤ 125 ∧
        announce name cost = .ok (some (named name ++ u ++ [0x90])))) ∨
      (¬ Room name cost ∧ announce name cost = .error .overrun) := by
  have hn := @length_named name
  by_cases hlong : 125 < name.length
  · refine .inl ⟨?_, .inl (announce_long hlong)⟩
    unfold Room
    split
    · omega
    · split <;> omega
  have hle : name.length ≤ 125 := by omega
  rw [announce_short hle]
  by_cases h0 : cost = 0
  · subst h0
    have hroom : Room name 0 ↔ name.length ≠ 124 ∧ name.length ≠ 125 := Iff.rfl
    rw [if_neg (by decide), hroom]
    by_cases h5 : name.length = 125
    · have h128 : 128 ≤ (named name).length := by omega
      rw [put_of_le h128]
      exact .inr ⟨by omega, rfl⟩
    have h128 : (named name).length < 128 := by omega
    rw [put_of_lt h128, ok_bind]
    by_cases h4 : name.length = 124
    · rw [put_of_le (by rw [List.length_append, List.length_singleton]; omega)]
      exact .inr ⟨by omega, rfl⟩
    rw [put_of_lt (by rw [List.length_append, List.length_singleton]; omega), ok_bind]
    exact .inl ⟨⟨h4, h5⟩, .inr ⟨_, .none, hle, rfl⟩⟩
  have hpos : cost ≥ 1 := by
    rw [ge_iff_le, UInt8.le_iff_toNat_le]
    exact Nat.one_le_iff_ne_zero.mpr fun h => h0 (UInt8.toNat_inj.mp h)
  rw [if_pos hpos, packUint8]
  by_cases h5 : name.length = 125
  · rw [if_pos (by omega)]
    refine .inl ⟨?_, .inl rfl⟩
    rw [Room, if_neg h0]
    split <;> omega
  rw [if_neg (by omega)]
  by_cases h7 : cost ≤ 0x7F
  · have hroom : Room name cost ↔ name.length ≠ 124 := by rw [Room, if_neg h0, if_pos h7]
    rw [if_pos h7, hroom]
    dsimp only
    by_cases h4 : name.length = 124
    · rw [put_of_le (by rw [List.length_append, List.length_singleton]; omega)]
      exact .inr ⟨by omega, rfl⟩
    rw [put_of_lt (by rw [List.length_append, List.length_singleton]; omega), ok_bind]
    exact .inl ⟨h4, .inr ⟨_, .cost hpos (.fixint h7), hle, rfl⟩⟩
  · have hroom : Room name cost ↔ name.length ≠ 123 := by rw [Room, if_neg h0, if_neg h7]
    rw [if_neg h7, hroom]
    by_cases h4 : name.length = 124
    · rw [if_pos (by omega)]
      exact .inl ⟨by omega, .inl rfl⟩
    rw [if_neg (by omega)]
    dsimp only
    have h2 : (named name ++ [0xCC, cost]).length = 5 + name.length := by
      rw [List.length_append, hn]
      exact Nat.add_right_comm 3 name.length 2
    by_cases h3 : name.length = 123
    · rw [put_of_le (by omega)]
      exact .inr ⟨by omega, rfl⟩
    rw [put_of_lt (by omega), ok_bind]
    exact .inl ⟨h3, .inr ⟨_, .cost hpos .uint8, hle, rfl⟩⟩

lemma inside_iff : (∃ r, announce name cost = .ok r) ↔ Room name cost := by
  rcases @announce_cases name cost with ⟨h, h1 | ⟨u, -, -, h1⟩⟩ | ⟨h, h1⟩
  · exact ⟨fun _ => h, fun _ => ⟨_, h1⟩⟩
  · exact ⟨fun _ => h, fun _ => ⟨_, h1⟩⟩
  · refine ⟨fun ⟨r, hr⟩ => ?_, fun hr => absurd hr h⟩
    rw [h1] at hr
    cases hr

/-- A name set in the settings is cut so that its announce has room. -/
lemma room_of_settings {json : Bytes} (h : settingsName json = some name) : Room name cost := by
  have hle : name.length ≤ 96 := by
    unfold settingsName at h
    dsimp only at h
    split at h
    next => cases h
    next =>
      cases h
      exact List.length_take_le _ _
  unfold Room
  split
  · omega
  · split <;> omega

/-! ## The reader -/

lemma validCost_toNat (h : c ≤ 254) : validCost c.toNat = c := by
  unfold validCost
  split
  next => exact UInt8.ofNat_toNat
  next hn =>
    have h2 := UInt8.le_iff_toNat_le.mp h
    have h3 : (254 : UInt8).toNat = 254 := rfl
    refine UInt8.toNat_inj.mp ?_
    change 0 = c.toNat
    omega

/-- A cost that is written and followed by another byte is read back. -/
lemma costAt_field {u : Bytes} (hu : CostField c u) (hc : c ≤ 254) (hat : At d off u)
    (hlt : off + u.length < d.length) (hl : d.length < 2 ^ 32) : costAt d off = .ok c := by
  have hoff : ¬ off ≥ d.length := by omega
  unfold costAt
  rw [if_neg hoff]
  cases hu with
  | none =>
    rw [byteAt_of_some (at_cons.mp hat).1]
    rfl
  | cost _ hs =>
    cases hs with
    | fixint h7 =>
      rw [byteAt_of_some (at_cons.mp hat).1, ok_bind, if_pos h7, validCost_toNat hc]
    | uint8 =>
      obtain ⟨h1, h2⟩ := at_cons.mp hat
      have hlen : off + 2 < d.length := hlt
      have hsz : sz (off + 1) = off + 1 := sz_of_lt (by omega)
      rw [byteAt_of_some h1, ok_bind, if_neg (by decide), hsz, if_pos ⟨rfl, by omega⟩,
        byteAt_of_some (at_cons.mp h2).1, ok_bind, validCost_toNat hc]

/-- The announce of this firmware is read back. -/
lemma peerStampCost_announced {u : Bytes} (hu : CostField cost u) (hc : cost ≤ 254)
    (hn : name.length ≤ 125) :
    ∃ fuel, peerStampCost fuel (named name ++ u ++ [0x90]) = .ok cost := by
  have hul : u.length ≤ 2 := by
    cases hu with
    | none => decide
    | cost _ hs => cases hs <;> simp
  have hraw : Text (0xC4 :: beBytes 1 name.length ++ name) name :=
    text_of_packBin (by omega) (packBin_short hn)
  generalize hr : 0xC4 :: beBytes 1 name.length ++ name = raw at hraw
  have hnamed : named name = 0x93 :: raw := by rw [named, hr]
  have hlen := @length_named name
  rw [hnamed] at hlen ⊢
  generalize hd : 0x93 :: raw ++ u ++ [0x90] = d
  have hdl : d.length = raw.length + u.length + 2 := by
    rw [← hd]
    simp only [List.cons_append, List.length_cons, List.length_append, List.length_nil]
  rw [List.length_cons] at hlen
  have hat0 : At d 0 ([0x93] ++ (raw ++ (u ++ [0x90]))) := ⟨[], by simp [← hd]⟩
  obtain ⟨h1, h2⟩ := at_append.mp hat0
  obtain ⟨h2, h3⟩ := at_append.mp h2
  obtain ⟨h3, h4⟩ := at_append.mp h3
  have hskip := skipElement_of_element (by omega) (element_of_text hraw) h2
    (by rw [List.length_singleton]; omega) (Nat.lt_succ_self _)
  refine ⟨raw.length + 1, ?_⟩
  unfold peerStampCost arrayStart
  rw [if_neg (by omega), byteAt_of_some (at_cons.mp h1).1, ok_bind, if_pos (by decide), ok_bind]
  dsimp only
  rw [if_neg (by decide)]
  rw [show 0 + ([0x93] : Bytes).length = 1 from rfl] at hskip h3
  rw [hskip, ok_bind]
  exact costAt_field hu hc h3 (by omega) (by omega)

/-- The two forms of an array header that `peer_stamp_cost` knows. -/
lemma arrayStart_some (h : arrayStart d = .ok (some (n, off))) :
    ∃ hdr, ArrayHeader hdr n ∧ At d 0 hdr ∧ off = hdr.length ∧ off ≤ d.length := by
  unfold arrayStart at h
  obtain ⟨t, ht, h⟩ := bind_ok h
  have ht0 := some_of_byteAt ht
  have hpos := lt_of_some ht0
  split at h
  next hr =>
    cases h
    exact ⟨[t], .short hr.1 hr.2, at_cons.mpr ⟨ht0, at_nil⟩, rfl, hpos⟩
  next =>
    split at h
    next hr =>
      obtain ⟨v, hv, h⟩ := bind_ok h
      cases h
      obtain ⟨rfl, hlen⟩ := hr
      obtain ⟨a, ha, hv⟩ := bind_ok hv
      obtain ⟨b, hb, hv⟩ := bind_ok hv
      cases hv
      have hab : At d 1 [a, b] :=
        at_cons.mpr ⟨some_of_byteAt ha, at_cons.mpr ⟨some_of_byteAt hb, at_nil⟩⟩
      have hat : At d 0 [0xDC, a, b] := at_cons.mpr ⟨ht0, hab⟩
      have hv : a.toNat <<< 8 ||| b.toNat = be [a, b] := by
        rw [shl_or b.toNat_lt]
        simp
      rw [hv]
      exact ⟨_, .array16, hat, rfl, hlen⟩
    next => cases h

/-- The header of an array is read as such. -/
lemma arrayStart_of_header {hdr : Bytes} (h : ArrayHeader hdr n) (hat : At d 0 hdr)
    (hle : hdr.length ≤ d.length) : arrayStart d = .ok (some (n, hdr.length)) := by
  unfold arrayStart
  cases h with
  | short h1 h2 => 
    rw [byteAt_of_some (at_cons.mp hat).1, ok_bind, if_pos ⟨h1, h2⟩]
    rfl
  | @array16 a b =>
    obtain ⟨h0, hat⟩ := at_cons.mp hat
    obtain ⟨h1, hat⟩ := at_cons.mp hat
    have h2 := (at_cons.mp hat).1
    have hv : u16 d 1 = .ok (be [a, b]) := by
      have e1 : byteAt d (sz 1) = .ok a := byteAt_of_some h1
      have e2 : byteAt d (sz (1 + 1)) = .ok b := byteAt_of_some h2
      rw [u16, e1, ok_bind, e2, ok_bind, shl_or b.toNat_lt]
      simp
    rw [byteAt_of_some h0, ok_bind, if_neg (by decide), if_pos ⟨rfl, hle⟩, hv]
    rfl

lemma validCost_eq {v : Nat} (h : validCost v ≠ 0) : (validCost v).toNat = v := by
  unfold validCost at h ⊢
  split at h
  next hv =>
    rw [if_pos hv, UInt8.toNat_ofNat']
    exact Nat.mod_eq_of_lt (by omega)
  next => exact absurd rfl h

/-- Inside the buffer the second element is read, and as the cost it encodes. -/
lemma costAt_total (hl : d.length < 2 ^ 31) :
    ∃ c, costAt d off = .ok c ∧ (c ≠ 0 → ∃ u, Uint u c.toNat ∧ At d off u) := by
  unfold costAt
  dsimp only
  split
  next => exact ⟨0, rfl, fun h => absurd rfl h⟩
  next hge =>
    obtain ⟨t, ht⟩ : ∃ t, d[off]? = some t := ⟨_, List.getElem?_eq_getElem (by omega)⟩
    rw [byteAt_of_some ht, ok_bind]
    split
    next h7 =>
      refine ⟨_, rfl, fun h => ?_⟩
      rw [validCost_eq h]
      exact ⟨[t], .fixint h7, at_cons.mpr ⟨ht, at_nil⟩⟩
    next =>
      split
      next h8 =>
        obtain ⟨rfl, hlt⟩ := h8
        rw [sz_of_lt (by omega)] at hlt ⊢
        obtain ⟨b, hb⟩ : ∃ b, d[off + 1]? = some b := ⟨_, List.getElem?_eq_getElem hlt⟩
        rw [byteAt_of_some hb, ok_bind]
        refine ⟨_, rfl, fun h => ?_⟩
        rw [validCost_eq h]
        exact ⟨[0xCC, b], .uint8, at_cons.mpr ⟨ht, at_cons.mpr ⟨hb, at_nil⟩⟩⟩
      next =>
        split
        next h16 =>
          obtain ⟨rfl, hlt⟩ := h16
          rw [sz_of_lt (by omega)] at hlt
          have h1 : off + 1 < d.length := by omega
          have hat : At d (off + 1) [d[off + 1], d[off + 2]] :=
            at_cons.mpr ⟨List.getElem?_eq_getElem h1,
              at_cons.mpr ⟨List.getElem?_eq_getElem hlt, at_nil⟩⟩
          have hv : u16 d (sz (off + 1)) = .ok (be [d[off + 1], d[off + 2]]) := by
            rw [sz_of_lt (by omega)]
            exact sizeAt_of_at (.inr (.inl rfl)) rfl hat (by omega) (by omega)
          rw [hv, ok_bind]
          refine ⟨_, rfl, fun h => ?_⟩
          rw [validCost_eq h]
          exact ⟨_, .uint16, at_cons.mpr ⟨ht, hat⟩⟩
        next => exact ⟨0, rfl, fun h => absurd rfl h⟩

/-- `peer_stamp_cost` on an array of two or more elements. -/
lemma peerStampCost_array (h : arrayStart d = .ok (some (n, off))) (hn : 2 ≤ n)
    (hl : 2 ≤ d.length) (fuel : Nat) :
    peerStampCost fuel d = (do
      let (ok, off) ← skipElement fuel d off
      if ok then costAt d off else .ok 0) := by
  unfold peerStampCost
  rw [if_neg (by omega), h, ok_bind]
  dsimp only
  rw [if_neg (by omega)]

/-- Without an array of two elements there is no cost. -/
lemma reads_of_none (h : d.length < 2 ∨ ∀ n off, arrayStart d = .ok (some (n, off)) → n < 2) :
    Reads d := by
  refine ⟨0, 0, ?_, .inl rfl⟩
  unfold peerStampCost
  by_cases hl : d.length < 2
  · rw [if_pos hl]
  rw [if_neg hl]
  obtain ⟨r, hr⟩ : ∃ r, arrayStart d = .ok r := by
    obtain ⟨t, ht⟩ : ∃ t, d[0]? = some t := ⟨_, List.getElem?_eq_getElem (by omega)⟩
    unfold arrayStart
    rw [byteAt_of_some ht, ok_bind]
    split
    next => exact ⟨_, rfl⟩
    next =>
      split
      next h3 =>
        have e1 : byteAt d (sz 1) = .ok d[1] :=
          byteAt_of_some (List.getElem?_eq_getElem (show 1 < d.length by omega))
        have e2 : byteAt d (sz (1 + 1)) = .ok d[2] :=
          byteAt_of_some (List.getElem?_eq_getElem (show 2 < d.length by omega))
        rw [u16, e1, ok_bind, e2, ok_bind, ok_bind]
        exact ⟨_, rfl⟩
      next => exact ⟨_, rfl⟩
  rw [hr, ok_bind]
  cases r with
  | none => rfl
  | some start =>
    dsimp only
    rw [if_pos ((h.resolve_left hl) start.1 start.2 hr)]

/-- `peer_stamp_cost` reads a peer's cost as it stands exactly where the walk over the first element
is not led back to a byte that looks like a cost. -/
lemma reads_iff (hl : d.length < 2 ^ 31) : Reads d ↔ Plain d := by
  by_cases hnone : d.length < 2 ∨ ∀ n off, arrayStart d = .ok (some (n, off)) → n < 2
  · refine ⟨fun _ n off ha hn => ?_, fun _ => reads_of_none hnone⟩
    obtain hshort | hno := hnone
    · -- one byte: nothing stands behind the header
      obtain ⟨hdr, hh, hat, rfl, hle⟩ := arrayStart_some ha
      have hge : d.length ≤ hdr.length := by
        cases hh with
        | short => rw [List.length_singleton]; omega
        | array16 => simp only [List.length_cons, List.length_nil]; omega
      exact .inr ⟨1, false, hdr.length, if_pos hge, nofun⟩
    · exact absurd (hno n off ha) (by omega)
  push Not at hnone
  obtain ⟨hlen, n, off, ha, hn⟩ := hnone
  obtain ⟨hdr, hh, hat, rfl, hle⟩ := arrayStart_some ha
  constructor
  · rintro ⟨fuel, c, hp, hc⟩ n' off' ha' hn'
    rw [ha] at ha'
    cases ha'
    rw [peerStampCost_array ha hn hlen] at hp
    obtain ⟨⟨ok, o⟩, hs, hp⟩ := bind_ok hp
    by_cases h0 : c = 0
    · refine .inr ⟨fuel, ok, o, hs, fun hok => ?_⟩
      rw [hok] at hp
      exact h0 ▸ hp
    obtain ⟨hdr', n', e, u, rest, hd, hh', -, he, hu⟩ := hc.resolve_left h0
    cases ok with
    | false =>
      cases hp
      exact absurd rfl h0
    | true =>
      have hat' : At d 0 (hdr' ++ (e ++ (u ++ rest))) := ⟨[], by simp [← hd]⟩
      obtain ⟨h1, h2⟩ := at_append.mp hat'
      have hle' : hdr'.length ≤ d.length := by
        rw [hd, List.length_append]
        omega
      have hsame := arrayStart_of_header hh' h1 hle'
      rw [ha] at hsame
      injection hsame with hsame
      injection hsame with hsame
      injection hsame with _ hsame
      rw [Nat.zero_add, ← hsame] at h2
      have hel := (at_append.mp h2).1
      exact .inl ⟨e, (skipElement_exact (by omega) he hel hle hs).1, hel⟩
  · intro hplain
    rcases hplain n hdr.length ha hn with ⟨e, he, hel⟩ | ⟨fuel, ok, o, hs, hz⟩
    · have hs := skipElement_of_element (by omega) he hel hle (Nat.lt_succ_self _)
      obtain ⟨c, hcost, hu⟩ := @costAt_total d (hdr.length + e.length) hl
      refine ⟨e.length + 1, c, ?_, ?_⟩
      · rw [peerStampCost_array ha hn hlen, hs, ok_bind]
        exact hcost
      · by_cases h0 : c = 0
        · exact .inl h0
        obtain ⟨u, hu, hut⟩ := hu h0
        have hall : At d 0 (hdr ++ (e ++ u)) := by
          rw [at_append, at_append, Nat.zero_add]
          exact ⟨hat, hel, hut⟩
        obtain ⟨rest, hrest⟩ := hall
        refine .inr ⟨hdr, n, e, u, rest, ?_, hh, hn, he.mono fun _ _ => trivial, hu⟩
        rw [List.drop_zero] at hrest
        rw [← hrest, List.append_assoc, List.append_assoc]
    · refine ⟨fuel, 0, ?_, .inl rfl⟩
      rw [peerStampCost_array ha hn hlen, hs, ok_bind]
      cases ok with
      | false => rfl
      | true => exact hz rfl

/-- Only a payload announced to end at or past `2 ^ 32` leads the walk back. -/
lemma plain_of_fits (hf : Fits d) (hl : d.length < 2 ^ 32) : Plain d := by
  intro n off ha _
  obtain ⟨hdr, -, -, rfl, hle⟩ := arrayStart_some ha
  obtain ⟨⟨ok, o⟩, hs, hskip⟩ := skipElement_total hf hl hle
    (by omega : d.length < hdr.length + (d.length + 1))
  cases ok with
  | false => exact .inr ⟨_, false, o, hs, nofun⟩
  | true =>
    obtain ⟨e, he, hat, -⟩ := hskip rfl
    exact .inl ⟨e, he, hat⟩

/-! ## Announces and their readers -/

lemma acceptsCost_le (h : AcceptsCost cost) : cost ≤ 254 := by
  obtain ⟨v, hv⟩ := h
  unfold settingsCost at hv
  split at hv
  next => cases hv
  next =>
    cases hv
    unfold setStampCost
    split
    next hc => exact hc.2
    next => decide

/-- For every name, every cost that configuration accepts and every `app_data` of a peer: the
announce stays in its buffer and is read back, and the peer's cost is read as it stands, exactly
when the name leaves room for what follows it and no payload length leads the walk astray. -/
theorem sound_iff (hc : AcceptsCost cost) (hl : d.length < 2 ^ 31) :
    Sound name cost d ↔ Room name cost ∧ Plain d := by
  constructor
  · intro h
    exact ⟨inside_iff.mp h.inside, (reads_iff hl).mp h.reads⟩
  · rintro ⟨hroom, hplain⟩
    refine ⟨inside_iff.mpr hroom, fun data hdata => ?_, (reads_iff hl).mpr hplain⟩
    rcases @announce_cases name cost with ⟨-, h1 | ⟨u, hu, hle, h1⟩⟩ | ⟨h, -⟩
    · rw [h1] at hdata
      cases hdata
    · rw [h1] at hdata
      cases hdata
      exact peerStampCost_announced hu (acceptsCost_le hc) hle
    · exact absurd hroom h

theorem sound_iff_abc : Sound [0x61, 0x62, 0x63] 200 [0x92, 0xC0, 0x05] ↔
    Room [0x61, 0x62, 0x63] 200 ∧ Plain [0x92, 0xC0, 0x05] :=
  sound_iff ⟨200, rfl⟩ (by decide)

/-- A name of 124 bytes is accepted, and its announce is written past the buffer; and a peer's
`app_data` without a second element is read as a cost of 5. -/
theorem not_sound_full :
    (AcceptsName (List.replicate 124 0x41) ∧ AcceptsCost 0 ∧
      ¬ Sound (List.replicate 124 0x41) 0 []) ∧
      ¬ Reads [0x93, 0x92, 0x05, 0xC6, 0xFF, 0xFF, 0xFF, 0xFA] := by
  have hname : createName (List.replicate 124 0x41) = some (List.replicate 124 0x41) := by
    decide +kernel
  have hfull : ¬ Sound (List.replicate 124 0x41) 0 [] := fun h => (inside_iff.mp h.inside).1 rfl
  refine ⟨⟨⟨_, .inl hname⟩, ⟨0, rfl⟩, hfull⟩, fun h => ?_⟩
  have hwalk : ∀ fuel, skipElement (fuel + 2) [0x93, 0x92, 0x05, 0xC6, 0xFF, 0xFF, 0xFF, 0xFA] 1 =
      .ok (true, 2) := fun _ => rfl
  have hstop : skipElement 1 [0x93, 0x92, 0x05, 0xC6, 0xFF, 0xFF, 0xFF, 0xFA] 1 =
      .error .fuel := rfl
  rcases (reads_iff (by decide)).mp h 3 1 rfl (by decide) with
    ⟨e, he, hat⟩ | ⟨fuel, ok, o, hs, hz⟩
  · -- the walk would have to stop behind the element
    have hlen := (skipElement_exact (by decide) (he.mono fun _ _ => trivial) hat (by decide)
      (hwalk 0)).2
    obtain ⟨b, rfl⟩ : ∃ b, e = [b] := List.length_eq_one_iff.mp (by omega)
    obtain rfl : b = 0x92 := by
      have hb := (at_cons.mp hat).1
      exact (Option.some.inj hb).symm
    have hnone : Elements Known 2 [] := Elements.of_items he (by decide)
    obtain ⟨_, _, hnil⟩ := hnone.exists_cons
    cases hnil
  · obtain _ | _ | fuel := fuel
    · cases hs
    · have hs := hstop.symm.trans hs
      cases hs
    · rw [hwalk] at hs
      cases hs
      cases hz rfl

end URSupreme.Announce
