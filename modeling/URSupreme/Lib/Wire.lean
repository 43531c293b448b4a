import URSupreme.Lib.Bytes

/-!
# The msgpack wire grammar

`classify` reads the first byte of a msgpack element, and `Elements K n bs` says that `bs` is the
concatenation of `n` complete elements all of whose header bytes (at every nesting depth) satisfy
`K`. A `str` or `bin` element and its content are related by `Text`.
-/

namespace Lib.Wire

/-- What the first byte of an element announces. -/
inductive HeaderClass where
  /-- `n` payload bytes follow -/
  | fixed (n : Nat)
  /-- a `w`-byte length follows, then that many payload bytes -/
  | sized (w : Nat)
  /-- a `w`-byte length follows, then a type byte and that many payload bytes -/
  | ext (w : Nat)
  /-- `n` elements follow -/
  | items (n : Nat)
  /-- a `w`-byte count follows, then `k` elements for each entry -/
  | sizedItems (w k : Nat)
  /-- the byte starts no element -/
  | unused
  deriving DecidableEq, Repr

/-- The class of a first byte, by the ranges of the msgpack specification. -/
def classify (t : UInt8) : HeaderClass :=
  let n := t.toNat
  if n ≤ 0x7F then .fixed 0
  else if n ≤ 0x8F then .items (2 * (n - 0x80))
  else if n ≤ 0x9F then .items (n - 0x90)
  else if n ≤ 0xBF then .fixed (n - 0xA0)
  else if n = 0xC0 then .fixed 0
  else if n = 0xC1 then .unused
  else if n ≤ 0xC3 then .fixed 0
  else if n = 0xC4 then .sized 1
  else if n = 0xC5 then .sized 2
  else if n = 0xC6 then .sized 4
  else if n = 0xC7 then .ext 1
  else if n = 0xC8 then .ext 2
  else if n = 0xC9 then .ext 4
  else if n = 0xCA then .fixed 4
  else if n = 0xCB then .fixed 8
  else if n = 0xCC then .fixed 1
  else if n = 0xCD then .fixed 2
  else if n = 0xCE then .fixed 4
  else if n = 0xCF then .fixed 8
  else if n = 0xD0 then .fixed 1
  else if n = 0xD1 then .fixed 2
  else if n = 0xD2 then .fixed 4
  else if n = 0xD3 then .fixed 8
  else if n = 0xD4 then .fixed 2
  else if n = 0xD5 then .fixed 3
  else if n = 0xD6 then .fixed 5
  else if n = 0xD7 then .fixed 9
  else if n = 0xD8 then .fixed 17
  else if n = 0xD9 then .sized 1
  else if n = 0xDA then .sized 2
  else if n = 0xDB then .sized 4
  else if n = 0xDC then .sizedItems 2 1
  else if n = 0xDD then .sizedItems 4 1
  else if n = 0xDE then .sizedItems 2 2
  else if n = 0xDF then .sizedItems 4 2
  else .fixed 0

/-- `bs` is `n` complete elements in a row, with every header byte in `K`. -/
inductive Elements (K : UInt8 → Prop) : Nat → Bytes → Prop where
  | nil : Elements K 0 []
  | fixed {t k body n rest} :
    K t → classify t = .fixed k → body.length = k →
    Elements K n rest →
    Elements K (n + 1) (t :: (body ++ rest))
  | sized {t w len body n rest} :
    K t → classify t = .sized w → len.length = w → body.length = be len →
    Elements K n rest →
    Elements K (n + 1) (t :: (len ++ (body ++ rest)))
  | ext {t w len body n rest} :
    K t → classify t = .ext w → len.length = w → body.length = be len + 1 →
    Elements K n rest →
    Elements K (n + 1) (t :: (len ++ (body ++ rest)))
  | items {t k inner n rest} :
    K t → classify t = .items k →
    Elements K k inner → Elements K n rest →
    Elements K (n + 1) (t :: (inner ++ rest))
  | sizedItems {t w k len inner n rest} :
    K t → classify t = .sizedItems w k → len.length = w →
    Elements K (k * be len) inner → Elements K n rest →
    Elements K (n + 1) (t :: (len ++ (inner ++ rest)))

/-- One complete element. -/
abbrev Element (K : UInt8 → Prop) (bs : Bytes) : Prop := Elements K 1 bs

/-- Elements in a row can be put after one another. -/
lemma Elements.append {K n m a b} (ha : Elements K n a) (hb : Elements K m b) :
    Elements K (n + m) (a ++ b) := by
  induction ha with
  | nil => simpa using hb
  | @fixed t k body n rest ht hc hl _ ih =>
    rw [Nat.add_right_comm, List.cons_append, List.append_assoc]
    exact .fixed ht hc hl ih
  | @sized t w len body n rest ht hc hw hl _ ih =>
    rw [Nat.add_right_comm, List.cons_append, List.append_assoc, List.append_assoc]
    exact .sized ht hc hw hl ih
  | @ext t w len body n rest ht hc hw hl _ ih =>
    rw [Nat.add_right_comm, List.cons_append, List.append_assoc, List.append_assoc]
    exact .ext ht hc hw hl ih
  | @items t k inner n rest ht hc hi _ _ ih =>
    rw [Nat.add_right_comm, List.cons_append, List.append_assoc]
    exact .items ht hc hi ih
  | @sizedItems t w k len inner n rest ht hc hw hi _ _ ih =>
    rw [Nat.add_right_comm, List.cons_append, List.append_assoc, List.append_assoc]
    exact .sizedItems ht hc hw hi ih

/-- The first of several elements in a row. -/
lemma Elements.split {K n bs} (h : Elements K (n + 1) bs) :
    ∃ a b, Element K a ∧ Elements K n b ∧ bs = a ++ b := by
  cases h with
  | @fixed t k body _ rest ht hc hl hr =>
    exact ⟨t :: (body ++ []), rest, .fixed ht hc hl .nil, hr, by simp⟩
  | @sized t w len body _ rest ht hc hw hl hr =>
    exact ⟨t :: (len ++ (body ++ [])), rest, .sized ht hc hw hl .nil, hr, by simp⟩
  | @ext t w len body _ rest ht hc hw hl hr =>
    exact ⟨t :: (len ++ (body ++ [])), rest, .ext ht hc hw hl .nil, hr, by simp⟩
  | @items t k inner _ rest ht hc hi hr =>
    exact ⟨t :: (inner ++ []), rest, .items ht hc hi .nil, hr, by simp⟩
  | @sizedItems t w k len inner _ rest ht hc hw hi hr =>
    exact ⟨t :: (len ++ (inner ++ [])), rest, .sizedItems ht hc hw hi .nil, hr, by simp⟩

lemma Elements.eq_nil {K bs} (h : Elements K 0 bs) : bs = [] := by
  cases h
  rfl

/-- An element starts with its header byte. -/
lemma Elements.exists_cons {K n bs} (h : Elements K (n + 1) bs) : ∃ t tl, bs = t :: tl := by
  cases h <;> exact ⟨_, _, rfl⟩

/-- More header bytes may be allowed. -/
lemma Elements.mono {K K' : UInt8 → Prop} {n bs} (hok : ∀ t, K t → K' t)
    (h : Elements K n bs) : Elements K' n bs := by
  induction h with
  | nil => exact .nil
  | fixed ht hc hl _ ih => exact .fixed (hok _ ht) hc hl ih
  | sized ht hc hw hl _ ih => exact .sized (hok _ ht) hc hw hl ih
  | ext ht hc hw hl _ ih => exact .ext (hok _ ht) hc hw hl ih
  | items ht hc _ _ ihi ih => exact .items (hok _ ht) hc ihi ih
  | sizedItems ht hc hw _ _ ihi ih => exact .sizedItems (hok _ ht) hc hw ihi ih

/-- An element that starts with a fixed-size header. -/
lemma Elements.of_fixed {K t k bs} (h : Element K (t :: bs)) (hc : classify t = .fixed k) :
    bs.length = k := by
  cases h with
  | fixed _ hc' hl hr =>
    rw [hc] at hc'
    cases hc'
    rw [hr.eq_nil, List.append_nil, hl]
  | sized _ hc' => rw [hc] at hc'; cases hc'
  | ext _ hc' => rw [hc] at hc'; cases hc'
  | items _ hc' => rw [hc] at hc'; cases hc'
  | sizedItems _ hc' => rw [hc] at hc'; cases hc'

/-- An element that starts with a container header. -/
lemma Elements.of_items {K t k bs} (h : Element K (t :: bs)) (hc : classify t = .items k) :
    Elements K k bs := by
  cases h with
  | items _ hc' hi hr =>
    rw [hc] at hc'
    cases hc'
    rwa [hr.eq_nil, List.append_nil]
  | fixed _ hc' => rw [hc] at hc'; cases hc'
  | sized _ hc' => rw [hc] at hc'; cases hc'
  | ext _ hc' => rw [hc] at hc'; cases hc'
  | sizedItems _ hc' => rw [hc] at hc'; cases hc'

/-- An element that starts with a container header and a count field. -/
lemma Elements.of_sizedItems {K t w k bs} (h : Element K (t :: bs))
    (hc : classify t = .sizedItems w k) :
    ∃ len inner, bs = len ++ inner ∧ len.length = w ∧ Elements K (k * be len) inner := by
  cases h with
  | @sizedItems _ _ _ len inner _ _ _ hc' hw hi hr =>
    rw [hc] at hc'
    cases hc'
    exact ⟨len, inner, by rw [hr.eq_nil, List.append_nil], hw, hi⟩
  | fixed _ hc' => rw [hc] at hc'; cases hc'
  | sized _ hc' => rw [hc] at hc'; cases hc'
  | ext _ hc' => rw [hc] at hc'; cases hc'
  | items _ hc' => rw [hc] at hc'; cases hc'

/-- An element takes at least one byte. -/
lemma Elements.le_length {K n bs} (h : Elements K n bs) : n ≤ bs.length := by
  induction h with
  | nil => simp
  | fixed _ _ _ _ ih => simp; omega
  | sized _ _ _ _ _ ih => simp; omega
  | ext _ _ _ _ _ ih => simp; omega
  | items _ _ _ _ _ ih => simp; omega
  | sizedItems _ _ _ _ _ _ ih => simp; omega

/-- `raw` is one `str` or `bin` element and `content` is what it carries. -/
inductive Text : Bytes → Bytes → Prop where
  | short {t content} :
    0xA0 ≤ t.toNat → t.toNat ≤ 0xBF → content.length = t.toNat - 0xA0 →
    Text (t :: content) content
  | sized {t w len content} :
    classify t = .sized w → len.length = w → content.length = be len →
    Text (t :: (len ++ content)) content

lemma classify_short {t : UInt8} (h1 : 0xA0 ≤ t.toNat) (h2 : t.toNat ≤ 0xBF) :
    classify t = .fixed (t.toNat - 0xA0) := by
  unfold classify
  simp only [show ¬ t.toNat ≤ 0x7F by omega, show ¬ t.toNat ≤ 0x8F by omega,
    show ¬ t.toNat ≤ 0x9F by omega, h2, if_true, if_false]

/-- A `str` or `bin` element is an element. -/
lemma Text.element {K : UInt8 → Prop} {raw content}
    (hok : ∀ t k, (classify t = .sized k ∨ 0xA0 ≤ t.toNat ∧ t.toNat ≤ 0xBF) → K t)
    (h : Text raw content) : Element K raw := by
  cases h with
  | @short t content h1 h2 hl =>
    have e := Elements.fixed (hok t 0 (.inr ⟨h1, h2⟩)) (classify_short h1 h2) hl
      (.nil : Elements K 0 [])
    rwa [List.append_nil] at e
  | @sized t w len content hc hw hl =>
    have e := Elements.sized (hok t w (.inl hc)) hc hw hl (.nil : Elements K 0 [])
    rwa [List.append_nil] at e

end Lib.Wire
