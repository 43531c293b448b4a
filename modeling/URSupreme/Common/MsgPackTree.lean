import URSupreme.Common.MsgPackExact
import URSupreme.Common.MsgPackWrite

/-!
# Trees of msgpack values

Trees of the values that the encoders write, and the decoders on what is written of them. The
encoders write counts from `2 ^ 16` on behind the tags `0xDD` and `0xDF`, which `skip_element` does
not know.
-/

namespace URSupreme.MsgPack
open Lib Lib.Wire

/-- What can be packed. -/
inductive Tree where
  | uint8 (v : UInt8)
  | int (v : Int64)
  | str (s : Bytes)
  | bin (data : Bytes)
  | array (items : List Tree)
  | map (entries : List (Tree × Tree))

mutual
/-- The calls that pack a tree: a container's header first, then its elements in what room is
left. -/
def Tree.pack (buflen : Nat) : Tree → Option Bytes
  | .uint8 v => packUint8 buflen v
  | .int v => packInt buflen v
  | .str s => packStr buflen s
  | .bin data => packBin buflen data
  | .array items => do
    let hdr ← packArrayHeader buflen items.length
    let inner ← packItems (buflen - hdr.length) items
    some (hdr ++ inner)
  | .map entries => do
    let hdr ← packMapHeader buflen entries.length
    let inner ← packEntries (buflen - hdr.length) entries
    some (hdr ++ inner)

def packItems (buflen : Nat) : List Tree → Option Bytes
  | [] => some []
  | v :: vs => do
    let a ← v.pack buflen
    let b ← packItems (buflen - a.length) vs
    some (a ++ b)

def packEntries (buflen : Nat) : List (Tree × Tree) → Option Bytes
  | [] => some []
  | (k, v) :: es => do
    let a ← k.pack buflen
    let b ← v.pack (buflen - a.length)
    let c ← packEntries (buflen - a.length - b.length) es
    some (a ++ (b ++ c))
end

mutual
/-- No array and no map of the tree has `2 ^ 16` elements or entries. -/
def Tree.Narrow : Tree → Prop
  | .uint8 _ | .int _ | .str _ | .bin _ => True
  | .array items => items.length < 2 ^ 16 ∧ NarrowItems items
  | .map entries => entries.length < 2 ^ 16 ∧ NarrowEntries entries

def NarrowItems : List Tree → Prop
  | [] => True
  | v :: vs => v.Narrow ∧ NarrowItems vs

def NarrowEntries : List (Tree × Tree) → Prop
  | [] => True
  | (k, v) :: es => k.Narrow ∧ v.Narrow ∧ NarrowEntries es
end

variable {K : UInt8 → Prop} {k n buflen : Nat} {hdr inner bs raw s : Bytes}

/-- The header of a container of `n` times `k` elements. -/
inductive Header (k : Nat) : Bytes → Nat → Prop where
  | items {t n} : n < 2 ^ 16 → classify t = .items (k * n) → Header k [t] n
  | sized {t len} : be len < 2 ^ 16 → classify t = .sizedItems 2 k → len.length = 2 →
      Header k (t :: len) (be len)
  | wide {t len} : 2 ^ 16 ≤ be len → classify t = .sizedItems 4 k → len.length = 4 →
      Header k (t :: len) (be len)

lemma header_of_pack {buflen n t16 t32 : _} {short : UInt8} (hn : n < 2 ^ 32)
    (h : (if n ≤ 15 then if buflen < 1 then none else some [short]
      else if n ≤ 0xFFFF then if buflen < 3 then none else some (t16 :: beBytes 2 n)
      else if buflen < 5 then none else some (t32 :: beBytes 4 n)) = some hdr)
    (h15 : n ≤ 15 → classify short = .items (k * n)) (h16 : classify t16 = .sizedItems 2 k)
    (h32 : classify t32 = .sizedItems 4 k) : Header k hdr n := by
  split at h
  next hle =>
    split at h
    next => cases h
    next =>
      cases h
      exact .items (by omega) (h15 hle)
  next =>
    split at h
    next hle =>
      split at h
      next => cases h
      next =>
        cases h
        have hbe : be (beBytes 2 n) = n := be_beBytes (by omega)
        have h1 := Header.sized (by omega) h16 (length_beBytes 2 n)
        rwa [hbe] at h1
    next hgt =>
      split at h
      next => cases h
      next =>
        cases h
        have hbe : be (beBytes 4 n) = n := be_beBytes (by omega)
        have h1 := Header.wide (by omega) h32 (length_beBytes 4 n)
        rwa [hbe] at h1

lemma header_of_packArray (hn : n < 2 ^ 32) (h : packArrayHeader buflen n = some hdr) :
    Header 1 hdr n := by
  have h15 : ∀ n ≤ 15, classify (0x90 ||| UInt8.ofNat n) = .items (1 * n) := by decide +kernel
  exact header_of_pack hn h (h15 n) rfl rfl

lemma header_of_packMap (hn : n < 2 ^ 32) (h : packMapHeader buflen n = some hdr) :
    Header 2 hdr n := by
  have h15 : ∀ n ≤ 15, classify (0x80 ||| UInt8.ofNat n) = .items (2 * n) := by decide +kernel
  exact header_of_pack hn h (h15 n) rfl rfl

/-- A header with the elements it counts is a complete element; one that is not too wide is
known. -/
lemma Header.element (h : Header k hdr n) (hK : ∀ t, Known t → K t) (hn : n < 2 ^ 16 ∨ ∀ t, K t)
    (hi : Elements K (k * n) inner) : Element K (hdr ++ inner) := by
  rw [← List.append_nil (hdr ++ inner)]
  cases h with
  | items _ hc => exact .items (hK _ (by rw [Known, skippable, hc])) hc hi .nil
  | sized _ hc hl =>
    rw [List.cons_append, List.cons_append, List.append_assoc]
    exact .sizedItems (hK _ (by rw [Known, skippable, hc]; rfl)) hc hl hi .nil
  | wide hle hc hl =>
    obtain hn | hn := hn
    · exact absurd hn (not_lt.mpr hle)
    · rw [List.cons_append, List.cons_append, List.append_assoc]
      exact .sizedItems (hn _) hc hl hi .nil

/-- The header of a known container is not too wide. -/
lemma Header.of_known (h : Header k hdr n) (he : Element Known (hdr ++ inner)) :
    n < 2 ^ 16 ∧ Elements Known (k * n) inner := by
  cases h with
  | items hn hc => exact ⟨hn, he.of_items hc⟩
  | @sized t len hn hc hl =>
    obtain ⟨len', inner', e, hl', hi⟩ := Elements.of_sizedItems he hc
    obtain ⟨rfl, rfl⟩ := List.append_inj e (hl.trans hl'.symm)
    exact ⟨hn, hi⟩
  | wide _ hc =>
    exfalso
    have hk : ∀ t tl, classify t = .sizedItems 4 k → ¬ Element Known (t :: tl) := by
      intro t tl hc he
      have h1 : Known t := by
        cases he <;> assumption
      rw [Known, skippable, hc] at h1
      cases h1
    exact hk _ _ hc he

lemma le_length_of_packStr (h : packStr buflen s = some raw) : s.length ≤ raw.length := by
  unfold packStr at h
  dsimp only at h
  repeat' split at h
  all_goals
    cases h
    try simp only [List.length_cons, List.length_append]
    try omega

lemma le_length_of_packBin (h : packBin buflen s = some raw) : s.length ≤ raw.length := by
  unfold packBin at h
  obtain ⟨pos, -, h⟩ := bind_some h
  split at h
  next => cases h
  next =>
    cases h
    rw [List.length_append]
    exact Nat.le_add_left _ _

mutual
/-- A packed tree is a complete element, with known headers only if the tree is narrow. -/
lemma Tree.element (hK : ∀ t, Known t → K t) : ∀ (v : Tree) {buflen : Nat} {bs : Bytes},
    v.pack buflen = some bs → bs.length < 2 ^ 32 → (v.Narrow ∨ ∀ t, K t) → Element K bs
  | .uint8 v, _, _, h, _, _ => (smallUint_of_packUint8 h).element.mono hK
  | .int v, _, _, h, _, _ => (element_of_packInt h).mono hK
  | .str s, _, _, h, hlen, _ =>
    (element_of_text (text_of_packStr ((le_length_of_packStr h).trans_lt hlen) h)).mono hK
  | .bin data, _, _, h, hlen, _ =>
    (element_of_text (text_of_packBin ((le_length_of_packBin h).trans_lt hlen) h)).mono hK
  | .array items, _, bs, h, hlen, hn => by
    rw [Tree.pack] at h
    obtain ⟨hdr, hh, h⟩ := bind_some h
    obtain ⟨inner, hi, h⟩ := bind_some h
    cases h
    rw [List.length_append] at hlen
    have h1 := elements_of_items hK items hi (by omega) (hn.imp_left And.right)
    rw [← Nat.one_mul items.length] at h1
    have hcount := h1.le_length
    have hhdr := header_of_packArray (by omega) hh
    exact hhdr.element hK (hn.imp_left And.left) h1
  | .map entries, _, bs, h, hlen, hn => by
    rw [Tree.pack] at h
    obtain ⟨hdr, hh, h⟩ := bind_some h
    obtain ⟨inner, hi, h⟩ := bind_some h
    cases h
    rw [List.length_append] at hlen
    have h1 := elements_of_entries hK entries hi (by omega) (hn.imp_left And.right)
    have hcount := h1.le_length
    have hhdr := header_of_packMap (by omega) hh
    exact hhdr.element hK (hn.imp_left And.left) h1

lemma elements_of_items (hK : ∀ t, Known t → K t) : ∀ (vs : List Tree) {buflen : Nat} {bs : Bytes},
    packItems buflen vs = some bs → bs.length < 2 ^ 32 → (NarrowItems vs ∨ ∀ t, K t) →
      Elements K vs.length bs
  | [], _, _, h, _, _ => by
    cases h
    exact .nil
  | v :: vs, _, bs, h, hlen, hn => by
    rw [packItems] at h
    obtain ⟨a, ha, h⟩ := bind_some h
    obtain ⟨b, hb, h⟩ := bind_some h
    cases h
    rw [List.length_append] at hlen
    have h1 := Tree.element hK v ha (by omega) (hn.imp_left And.left)
    have h2 := elements_of_items hK vs hb (by omega) (hn.imp_left And.right)
    rw [List.length_cons, Nat.add_comm]
    exact h1.append h2

lemma elements_of_entries (hK : ∀ t, Known t → K t) : ∀ (es : List (Tree × Tree)) {buflen : Nat}
    {bs : Bytes}, packEntries buflen es = some bs → bs.length < 2 ^ 32 →
      (NarrowEntries es ∨ ∀ t, K t) → Elements K (2 * es.length) bs
  | [], _, _, h, _, _ => by
    cases h
    exact .nil
  | (k, v) :: es, _, bs, h, hlen, hn => by
    rw [packEntries] at h
    obtain ⟨a, ha, h⟩ := bind_some h
    obtain ⟨b, hb, h⟩ := bind_some h
    obtain ⟨c, hc, h⟩ := bind_some h
    cases h
    rw [List.length_append, List.length_append] at hlen
    have h1 := Tree.element hK k ha (by omega) (hn.imp_left And.left)
    have h2 := Tree.element hK v hb (by omega) (hn.imp_left fun h => h.2.1)
    have h3 := elements_of_entries hK es hc (by omega) (hn.imp_left fun h => h.2.2)
    have h4 := h1.append (h2.append h3)
    rwa [show 1 + (1 + 2 * es.length) = 2 * ((k, v) :: es).length by
      rw [List.length_cons]; omega] at h4
end

lemma element_of_pack {v : Tree} (h : v.pack buflen = some bs) (hlen : bs.length < 2 ^ 32) :
    Element (fun _ => True) bs :=
  Tree.element (fun _ _ => trivial) v h hlen (.inr fun _ => trivial)

/-- The first of several known elements, when it is a complete element. -/
lemma known_split {a b : Bytes} (h : Elements Known (n + 1) (a ++ b))
    (ha : Element (fun _ => True) a) (hlen : (a ++ b).length < 2 ^ 32) :
    Element Known a ∧ Elements Known n b := by
  obtain ⟨a', b', ha', hb', e⟩ := h.split
  have hat : At (a ++ b) 0 a := (List.prefix_append a b : a <+: a ++ b)
  have hat' : At (a ++ b) 0 a' := e ▸ (List.prefix_append a' b' : a' <+: a' ++ b')
  -- the decoder stops behind both
  have h1 := skipElement_of_element hlen ha' hat' (Nat.zero_le _) (Nat.lt_succ_self _)
  obtain ⟨hk, hl⟩ := skipElement_exact hlen ha hat (Nat.zero_le _) h1
  obtain ⟨rfl, rfl⟩ := List.append_inj e (by omega)
  exact ⟨hk, hb'⟩

mutual
/-- A packed tree whose headers are known is narrow. -/
lemma Tree.narrow : ∀ (v : Tree) {buflen : Nat} {bs : Bytes}, v.pack buflen = some bs →
    bs.length < 2 ^ 32 → Element Known bs → v.Narrow
  | .uint8 _, _, _, _, _, _ | .int _, _, _, _, _, _ | .str _, _, _, _, _, _
  | .bin _, _, _, _, _, _ => trivial
  | .array items, _, bs, h, hlen, he => by
    rw [Tree.pack] at h
    obtain ⟨hdr, hh, h⟩ := bind_some h
    obtain ⟨inner, hi, h⟩ := bind_some h
    cases h
    rw [List.length_append] at hlen
    have h1 := elements_of_items (fun _ _ => trivial) items hi (by omega)
      (.inr fun _ => trivial)
    have hcount := h1.le_length
    obtain ⟨hn, h2⟩ := (header_of_packArray (by omega) hh).of_known he
    rw [Nat.one_mul] at h2
    exact ⟨hn, narrow_of_items items hi (by omega) h2⟩
  | .map entries, _, bs, h, hlen, he => by
    rw [Tree.pack] at h
    obtain ⟨hdr, hh, h⟩ := bind_some h
    obtain ⟨inner, hi, h⟩ := bind_some h
    cases h
    rw [List.length_append] at hlen
    have h1 := elements_of_entries (fun _ _ => trivial) entries hi (by omega)
      (.inr fun _ => trivial)
    have hcount := h1.le_length
    obtain ⟨hn, h2⟩ := (header_of_packMap (by omega) hh).of_known he
    exact ⟨hn, narrow_of_entries entries hi (by omega) h2⟩

lemma narrow_of_items : ∀ (vs : List Tree) {buflen : Nat} {bs : Bytes},
    packItems buflen vs = some bs → bs.length < 2 ^ 32 → Elements Known vs.length bs →
      NarrowItems vs
  | [], _, _, _, _, _ => trivial
  | v :: vs, _, bs, h, hlen, he => by
    rw [packItems] at h
    obtain ⟨a, ha, h⟩ := bind_some h
    obtain ⟨b, hb, h⟩ := bind_some h
    cases h
    have hlen' := hlen
    rw [List.length_append] at hlen'
    have h1 := element_of_pack ha (by omega)
    obtain ⟨h2, h3⟩ := known_split he h1 hlen
    exact ⟨Tree.narrow v ha (by omega) h2, narrow_of_items vs hb (by omega) h3⟩

lemma narrow_of_entries : ∀ (es : List (Tree × Tree)) {buflen : Nat} {bs : Bytes},
    packEntries buflen es = some bs → bs.length < 2 ^ 32 → Elements Known (2 * es.length) bs →
      NarrowEntries es
  | [], _, _, _, _, _ => trivial
  | (k, v) :: es, _, bs, h, hlen, he => by
    rw [packEntries] at h
    obtain ⟨a, ha, h⟩ := bind_some h
    obtain ⟨b, hb, h⟩ := bind_some h
    obtain ⟨c, hc, h⟩ := bind_some h
    cases h
    have hlen' := hlen
    rw [List.length_append, List.length_append] at hlen'
    have h1 := element_of_pack ha (by omega)
    have h2 := element_of_pack hb (by omega)
    obtain ⟨h3, h4⟩ := known_split he h1 hlen
    obtain ⟨h5, h6⟩ := known_split h4 h2 (by rw [List.length_append]; omega)
    exact ⟨Tree.narrow k ha (by omega) h3, Tree.narrow v hb (by omega) h5,
      narrow_of_entries es hc (by omega) h6⟩
end

/-- On what is packed of a tree `skip_element` stops right behind it exactly when the tree is
narrow, and a string or binary is read as itself. -/
theorem skip_packed {v : Tree} {data : Bytes} {offset : Nat} (hl : data.length < 2 ^ 32)
    (h : v.pack buflen = some bs) (hat : At data offset bs) (ho : offset ≤ data.length) :
    ((∃ fuel, skipElement fuel data offset = .ok (true, offset + bs.length)) ↔ v.Narrow) ∧
      ∀ s, (v = .str s ∨ v = .bin s) → readBinOrStr data offset = .ok (s, offset + bs.length) := by
  have hle := hat.length_le ho
  have hlen : bs.length < 2 ^ 32 := by omega
  refine ⟨⟨fun ⟨fuel, hs⟩ => ?_, fun hn => ⟨bs.length + 1, ?_⟩⟩, fun s hv => ?_⟩
  · exact v.narrow h hlen (skipElement_exact hl (element_of_pack h hlen) hat ho hs).1
  · exact skipElement_of_element hl (v.element (fun _ ht => ht) h hlen (.inl hn)) hat ho
      (Nat.lt_succ_self _)
  · obtain rfl | rfl := hv
    · have hs := (le_length_of_packStr h).trans_lt hlen
      exact readBinOrStr_of_text hl (text_of_packStr hs h) hat ho
    · have hs := (le_length_of_packBin h).trans_lt hlen
      exact readBinOrStr_of_text hl (text_of_packBin hs h) hat ho

theorem skip_packed_pair :
    (∃ fuel, skipElement fuel [7, 0x92, 1, 0xA1, 0x61, 0xFF] 1 = .ok (true, 1 + 4)) ↔
      (Tree.array [.uint8 1, .str [0x61]]).Narrow := by
  have h : (Tree.array [.uint8 1, .str [0x61]]).pack 8 = some [0x92, 1, 0xA1, 0x61] := rfl
  have hat : At [7, 0x92, 1, 0xA1, 0x61, 0xFF] 1 [0x92, 1, 0xA1, 0x61] := ⟨[0xFF], rfl⟩
  exact (skip_packed (by decide) h hat (by decide)).1

lemma packItems_replicate (h : n ≤ buflen) :
    packItems buflen (List.replicate n (.uint8 0)) = some (List.replicate n 0) := by
  induction n generalizing buflen with
  | zero => rfl
  | succ n ih =>
    have h0 : (Tree.uint8 0).pack buflen = some [0] := by
      rw [Tree.pack, packUint8, if_neg (by omega)]
      rfl
    rw [List.replicate_succ, packItems, h0]
    dsimp only [Option.bind_eq_bind, Option.bind_some]
    rw [List.length_singleton, ih (Nat.le_sub_one_of_lt h)]
    rfl

lemma wide_stops (h16 : 2 ^ 16 ≤ n) (h32 : n + 5 < 2 ^ 32) (hroom : n + 5 ≤ buflen) :
    ∃ bs, (Tree.array (List.replicate n (.uint8 0))).pack buflen = some bs ∧
      ∀ fuel o, skipElement fuel bs 0 ≠ .ok (true, o) := by
  refine ⟨0xDD :: beBytes 4 n ++ List.replicate n 0, ?_, fun fuel o hs => ?_⟩
  · have hh : packArrayHeader buflen n = some (0xDD :: beBytes 4 n) := by
      rw [packArrayHeader, if_neg (by omega), if_neg (by omega), if_neg (by omega)]
    have hi : packItems (buflen - (0xDD :: beBytes 4 n).length) (List.replicate n (.uint8 0)) =
        some (List.replicate n 0) := packItems_replicate (by
      rw [List.length_cons, length_beBytes]
      omega)
    rw [Tree.pack, List.length_replicate, hh]
    dsimp only [Option.bind_eq_bind, Option.bind_some]
    rw [hi]
    rfl
  · cases fuel with
    | zero => cases hs
    | succ fuel =>
      have hlen : (0xDD :: beBytes 4 n ++ List.replicate n 0).length < 2 ^ 32 := by
        rw [List.length_append, List.length_replicate, List.length_cons, length_beBytes]
        omega
      have hk : ¬ Known 0xDD := by decide
      rw [skipElement_unknown hlen hk rfl] at hs
      cases hs

/-- An array of `2 ^ 16` zeros is packed, and not skipped. -/
theorem wide_array_stops :
    ∃ bs, (Tree.array (List.replicate (2 ^ 16) (.uint8 0))).pack 100000 = some bs ∧
      ∀ fuel o, skipElement fuel bs 0 ≠ .ok (true, o) :=
  wide_stops le_rfl (by decide) (by decide)

end URSupreme.MsgPack
