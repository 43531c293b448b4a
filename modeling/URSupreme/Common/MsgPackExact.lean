import URSupreme.Common.MsgPackTags

/-!
# The msgpack decoders on complete elements

On a complete element both decoders do what the grammar says: `read_bin_or_str` returns the content
and `skip_element` stops right behind the element if it knows all its headers.
-/

namespace URSupreme.MsgPack
open Lib Lib.Wire

section Complete
variable {data : Bytes} (hl : data.length < 2 ^ 32)
include hl

/-- A complete element is read as what it carries. -/
lemma readBinOrStr_of_text {raw content offset} (h : Text raw content) (hat : At data offset raw)
    (ho : offset ≤ data.length) :
    readBinOrStr data offset = .ok (content, offset + raw.length) := by
  have hle := hat.length_le ho
  have body : ∀ {o}, At data o content → o + content.length = offset + raw.length →
      readBody data content.length o = .ok (content, offset + raw.length) := by
    intro o h1 h2
    rw [readBody, h2, sz_of_lt (by omega), if_neg (by omega), if_neg (by omega), h1.window_eq]
  cases h with
  | @short t _ h1 h2 hn =>
    have e := at_cons.mp hat
    rw [readBinOrStr_eq e.1 hl, readClass, if_pos ⟨h1, h2⟩, ← hn]
    exact body e.2 (by simp only [List.length_cons]; omega)
  | @sized t w len _ hc hw hn =>
    rw [at_cons, at_append] at hat
    simp only [List.length_cons, List.length_append] at hle
    have hwid := width_sized hc
    have hns : ¬ (0xA0 ≤ t.toNat ∧ t.toNat ≤ 0xBF) := fun hs => by
      rw [classify_short hs.1 hs.2] at hc
      cases hc
    rw [readBinOrStr_eq hat.1 hl, readClass, if_neg hns]
    simp only [hc]
    rw [sz_of_lt (by omega), if_pos (by omega), sizeAt_of_at hwid hw hat.2.1 (by omega) hl,
      ok_bind, ← hn, sz_of_lt (by omega), ← hw]
    exact body hat.2.2 (by simp only [List.length_cons, List.length_append]; omega)

/-- `skip_element` on the header of an element: the tests by its class. -/
lemma skipElement_class {fuel offset t} (h : data[offset]? = some t) :
    skipElement (fuel + 1) data offset = (do
      match ← skipClass data (offset + 1) (classify t) with
      | .leaf ok offset => .ok (ok, offset)
      | .items n offset => skipMany (skipElement fuel data) n offset) := by
  have ho : offset < data.length := lt_of_some h
  rw [skipElement, if_neg (by omega), byteAt_of_some h, ok_bind, sz_of_lt (by omega)]
  exact congrArg (· >>= _) (skipTag_eq (by omega) hl)

lemma skipElement_fixed {fuel offset t k body} (hc : classify t = .fixed k)
    (hb : body.length = k) (hat : At data offset (t :: body)) (ho : offset ≤ data.length) :
    skipElement (fuel + 1) data offset = .ok (true, offset + (t :: body).length) := by
  have hle := hat.length_le ho
  rw [at_cons] at hat
  rw [List.length_cons] at hle ⊢
  rw [skipElement_class hl hat.1, hc, skipClass, ok_bind, advance, sz_of_lt (by omega),
    decide_eq_true (by omega), hb, Nat.add_assoc, Nat.add_comm 1]

lemma skipElement_sized {fuel offset t w len body} (hc : classify t = .sized w)
    (hw : len.length = w) (hb : body.length = be len) (hat : At data offset (t :: (len ++ body)))
    (ho : offset ≤ data.length) :
    skipElement (fuel + 1) data offset = .ok (true, offset + (t :: (len ++ body)).length) := by
  have hle := hat.length_le ho
  have hwid := width_sized hc
  rw [at_cons, at_append] at hat
  rw [List.length_cons, List.length_append] at hle ⊢
  rw [skipElement_class hl hat.1, hc, skipClass, sz_of_lt (by omega), if_pos (by omega),
    sizeAt_of_at hwid hw hat.2.1 (by omega) hl, ok_bind, ok_bind, advance, sz_of_lt (by omega),
    decide_eq_true (by omega)]
  simp only [Except.ok.injEq, Prod.mk.injEq, true_and]
  omega

lemma skipElement_items {fuel offset t k} (hc : classify t = .items k)
    (h : data[offset]? = some t) :
    skipElement (fuel + 1) data offset = skipMany (skipElement fuel data) k (offset + 1) := by
  rw [skipElement_class hl h, hc, skipClass, ok_bind]

lemma skipElement_sizedItems {fuel offset t k len} (hc : classify t = .sizedItems 2 k)
    (hw : len.length = 2) (hat : At data offset (t :: len)) (ho : offset ≤ data.length) :
    skipElement (fuel + 1) data offset =
      skipMany (skipElement fuel data) (k * be len) (offset + 3) := by
  have hle := hat.length_le ho
  rw [at_cons] at hat
  rw [List.length_cons] at hle
  rw [skipElement_class hl hat.1, hc]
  simp only [skipClass]
  rw [sz_of_lt (by omega), if_pos (by omega), sizeAt_of_at (.inr (.inl rfl)) hw hat.2 (by omega) hl,
    ok_bind, ok_bind, sz_of_lt (by omega), Nat.mul_comm]

/-- `skip_element` stops at a header it does not know. -/
lemma skipElement_unknown {fuel offset t} (hk : ¬ Known t) (h : data[offset]? = some t) :
    skipElement (fuel + 1) data offset = .ok (false, offset + 1) := by
  rw [skipElement_class hl h]
  unfold Known skippable at hk
  cases hc : classify t with
  | sizedItems w k =>
    rw [hc] at hk
    rcases width_sizedItems hc with rfl | rfl
    · exact absurd rfl hk
    · rfl
  | ext => rfl
  | unused => rfl
  | _ => exact absurd (by rw [hc]) hk

/-- `skip_element` steps over complete elements whose headers it knows. -/
lemma skipMany_of_elements {n bs fuel offset} (h : Elements Known n bs)
    (hat : At data offset bs) (ho : offset ≤ data.length) (hfuel : bs.length < fuel) :
    skipMany (skipElement fuel data) n offset = .ok (true, offset + bs.length) := by
  induction h generalizing fuel offset with
  | nil => rfl
  | @fixed t k body n rest _ hc hb _ ih =>
    obtain ⟨fuel, rfl⟩ : ∃ f, fuel = f + 1 := ⟨fuel - 1, by omega⟩
    rw [← List.cons_append, at_append] at hat
    rw [← List.cons_append, List.length_append] at hfuel ⊢
    rw [skipMany_succ, skipElement_fixed hl hc hb hat.1 ho, ok_bind]
    simp only [if_true]
    rw [ih hat.2 (hat.1.length_le ho) (by omega), Nat.add_assoc]
  | @sized t w len body n rest _ hc hw hb _ ih =>
    obtain ⟨fuel, rfl⟩ : ∃ f, fuel = f + 1 := ⟨fuel - 1, by omega⟩
    rw [← List.append_assoc, ← List.cons_append, at_append] at hat
    rw [← List.append_assoc, ← List.cons_append, List.length_append] at hfuel ⊢
    rw [skipMany_succ, skipElement_sized hl hc hw hb hat.1 ho, ok_bind]
    simp only [if_true]
    rw [ih hat.2 (hat.1.length_le ho) (by omega), Nat.add_assoc]
  | @ext t w len body n rest hk hc =>
    rw [Known, skippable, hc] at hk
    cases hk
  | @items t k inner n rest _ hc hi _ ihi ih =>
    obtain ⟨fuel, rfl⟩ : ∃ f, fuel = f + 1 := ⟨fuel - 1, by omega⟩
    have hle := hat.length_le ho
    rw [at_cons, at_append] at hat
    simp only [List.length_cons, List.length_append] at hle hfuel ⊢
    rw [skipMany_succ, skipElement_items hl hc hat.1, ihi hat.2.1 (by omega) (by omega), ok_bind]
    simp only [if_true]
    rw [ih hat.2.2 (by omega) (by omega)]
    congr 2
    omega
  | @sizedItems t w k len inner n rest hk hc hw hi _ ihi ih =>
    obtain ⟨fuel, rfl⟩ : ∃ f, fuel = f + 1 := ⟨fuel - 1, by omega⟩
    have hle := hat.length_le ho
    rw [Known, skippable, hc, decide_eq_true_eq] at hk
    subst hk
    rw [← List.cons_append, at_append, List.length_cons, hw, at_append] at hat
    simp only [List.length_cons, List.length_append] at hle hfuel ⊢
    rw [skipMany_succ, skipElement_sizedItems hl hc hw hat.1 ho, ihi hat.2.1 (by omega) (by omega),
      ok_bind]
    simp only [if_true]
    rw [ih hat.2.2 (by omega) (by omega)]
    congr 2
    omega

/-- A successful skip over complete elements has known all their headers and stops right behind
them. -/
lemma skipMany_exact {n bs fuel offset o} (h : Elements (fun _ => True) n bs)
    (hat : At data offset bs) (ho : offset ≤ data.length)
    (hs : skipMany (skipElement fuel data) n offset = .ok (true, o)) :
    Elements Known n bs ∧ o = offset + bs.length := by
  have step : ∀ {n fuel offset o}, skipMany (skipElement fuel data) (n + 1) offset = .ok (true, o) →
      ∃ f o', fuel = f + 1 ∧ skipElement (f + 1) data offset = .ok (true, o') ∧
        skipMany (skipElement (f + 1) data) n o' = .ok (true, o) := by
    intro n fuel offset o e
    rw [skipMany_succ] at e
    obtain ⟨⟨ok, o'⟩, e1, e2⟩ := bind_ok e
    cases fuel with
    | zero => cases e1
    | succ f =>
      cases ok with
      | false => cases e2
      | true => exact ⟨f, o', rfl, e1, e2⟩
  have known : ∀ {t offset f o'}, data[offset]? = some t →
      skipElement (f + 1) data offset = .ok (true, o') → Known t := by
    intro t offset f o' ht e
    by_contra hk
    rw [skipElement_unknown hl hk ht] at e
    cases e
  induction h generalizing fuel offset o with
  | nil =>
    cases hs
    exact ⟨.nil, rfl⟩
  | @fixed t k body n rest _ hc hb _ ih =>
    obtain ⟨f, o', rfl, e1, e2⟩ := step hs
    rw [← List.cons_append, at_append] at hat
    have hk := known (at_cons.mp hat.1).1 e1
    rw [skipElement_fixed hl hc hb hat.1 ho] at e1
    cases e1
    obtain ⟨hr, rfl⟩ := ih hat.2 (hat.1.length_le ho) e2
    refine ⟨.fixed hk hc hb hr, ?_⟩
    rw [← List.cons_append, List.length_append, Nat.add_assoc]
  | @sized t w len body n rest _ hc hw hb _ ih =>
    obtain ⟨f, o', rfl, e1, e2⟩ := step hs
    rw [← List.append_assoc, ← List.cons_append, at_append] at hat
    have hk := known (at_cons.mp hat.1).1 e1
    rw [skipElement_sized hl hc hw hb hat.1 ho] at e1
    cases e1
    obtain ⟨hr, rfl⟩ := ih hat.2 (hat.1.length_le ho) e2
    refine ⟨.sized hk hc hw hb hr, ?_⟩
    simp only [List.length_cons, List.length_append]
    omega
  | @ext t w len body n rest _ hc =>
    obtain ⟨f, o', rfl, e1, _⟩ := step hs
    have hk := known (at_cons.mp hat).1 e1
    rw [Known, skippable, hc] at hk
    cases hk
  | @items t k inner n rest _ hc hi _ ihi ih =>
    obtain ⟨f, o', rfl, e1, e2⟩ := step hs
    have hle := hat.length_le ho
    rw [at_cons, at_append] at hat
    simp only [List.length_cons, List.length_append] at hle ⊢
    have hk := known hat.1 e1
    rw [skipElement_items hl hc hat.1] at e1
    obtain ⟨hin, rfl⟩ := ihi hat.2.1 (by omega) e1
    obtain ⟨hr, rfl⟩ := ih hat.2.2 (by omega) e2
    exact ⟨.items hk hc hin hr, by omega⟩
  | @sizedItems t w k len inner n rest _ hc hw hi _ ihi ih =>
    obtain ⟨f, o', rfl, e1, e2⟩ := step hs
    have hle := hat.length_le ho
    have hk := known (at_cons.mp hat).1 e1
    have hw2 := hk
    rw [Known, skippable, hc, decide_eq_true_eq] at hw2
    subst hw2
    rw [← List.cons_append, at_append, List.length_cons, hw, at_append] at hat
    simp only [List.length_cons, List.length_append] at hle ⊢
    rw [skipElement_sizedItems hl hc hw hat.1 ho] at e1
    obtain ⟨hin, rfl⟩ := ihi hat.2.1 (by omega) e1
    obtain ⟨hr, rfl⟩ := ih hat.2.2 (by omega) e2
    exact ⟨.sizedItems hk hc hw hin hr, by omega⟩

omit hl in
/-- Skipping `n` and then `m` elements. -/
lemma skipMany_add {skip : Nat → Except Fault (Bool × Nat)} {n m o o'}
    (h : skipMany skip n o = .ok (true, o')) : skipMany skip (n + m) o = skipMany skip m o' := by
  induction n generalizing o with
  | zero =>
    cases h
    rw [Nat.zero_add]
  | succ n ih =>
    rw [skipMany_succ] at h
    obtain ⟨⟨ok, o1⟩, e1, e2⟩ := bind_ok h
    cases ok with
    | false => cases e2
    | true =>
      rw [Nat.add_right_comm, skipMany_succ, e1, ok_bind]
      exact ih e2

omit hl in
lemma skipMany_one {skip : Nat → Except Fault (Bool × Nat)} {o} : skipMany skip 1 o = skip o := by
  rw [skipMany_succ]
  cases skip o with
  | error e => rfl
  | ok r =>
    obtain ⟨ok, o⟩ := r
    cases ok <;> rfl

/-- `skip_element` steps over a complete element. -/
lemma skipElement_of_element {bs fuel offset} (h : Element Known bs) (hat : At data offset bs)
    (ho : offset ≤ data.length) (hfuel : bs.length < fuel) :
    skipElement fuel data offset = .ok (true, offset + bs.length) := by
  have e := skipMany_of_elements hl h hat ho hfuel
  rwa [skipMany_one] at e

/-- A successful skip over a complete element has known all its headers and stops right behind
it. -/
lemma skipElement_exact {bs fuel offset o} (h : Element (fun _ => True) bs)
    (hat : At data offset bs) (ho : offset ≤ data.length)
    (hs : skipElement fuel data offset = .ok (true, o)) :
    Element Known bs ∧ o = offset + bs.length := by
  exact skipMany_exact (n := 1) hl h hat ho (by rwa [skipMany_one])

end Complete

end URSupreme.MsgPack
