import URSupreme.Common.MsgPackExact
import URSupreme.Lib.Recursion

/-!
# Where skipping ends

`skip_element` reads inside the buffer from every offset, and what it returns does not depend on
its fuel. It ends exactly where no container that it goes through lies inside itself, as one can
once the 32-bit offset has passed `2 ^ 32`.
-/

namespace URSupreme.MsgPack
open Lib Lib.Wire Lib.Recursion Relation

/-! ### Fuel -/

section fuel
variable {data : Bytes} {skip skip' : Nat → Except Fault (Bool × Nat)} {fuel fuel' n m o o' : Nat}
  {r : Bool × Nat}

lemma skipMany_mono (h : ∀ {o r}, skip o = .ok r → skip' o = .ok r)
    (hs : skipMany skip n o = .ok r) : skipMany skip' n o = .ok r := by
  induction n generalizing o with
  | zero => exact hs
  | succ n ih =>
    rw [skipMany_succ] at hs ⊢
    obtain ⟨⟨ok, o'⟩, e1, e2⟩ := bind_ok hs
    rw [h e1, ok_bind]
    cases ok with
    | false => exact e2
    | true => exact ih e2

/-- More fuel does not change a result. -/
lemma skipElement_mono (h : skipElement fuel data o = .ok r) (hle : fuel ≤ fuel') :
    skipElement fuel' data o = .ok r := by
  induction fuel generalizing fuel' o r with
  | zero => cases h
  | succ fuel ih =>
    obtain ⟨fuel', rfl⟩ : ∃ f, fuel' = f + 1 := ⟨fuel' - 1, by omega⟩
    rw [skipElement] at h ⊢
    split at h
    next ho =>
      rw [if_pos ho]
      exact h
    next ho =>
      rw [if_neg ho]
      obtain ⟨t, e1, h⟩ := bind_ok h
      obtain ⟨hd, e2, h⟩ := bind_ok h
      rw [e1, ok_bind, e2, ok_bind]
      cases hd with
      | leaf => exact h
      | items n base => exact skipMany_mono (fun h => ih h (by omega)) h

lemma skipElement_agree {r' : Bool × Nat} (h : skipElement fuel data o = .ok r)
    (h' : skipElement fuel' data o = .ok r') : r = r' := by
  have h1 := skipElement_mono h (le_max_left fuel fuel')
  have h2 := skipElement_mono h' (le_max_right fuel fuel')
  rw [h1] at h2
  exact Except.ok.inj h2

/-- The first items of several are skipped before the others. -/
lemma skipMany_first (h : skipMany skip (n + m) o = .ok r) : ∃ r, skipMany skip n o = .ok r := by
  induction n generalizing o with
  | zero => exact ⟨_, rfl⟩
  | succ n ih =>
    rw [Nat.add_right_comm, skipMany_succ] at h
    obtain ⟨⟨ok, o'⟩, e1, e2⟩ := bind_ok h
    rw [skipMany_succ, e1, ok_bind]
    cases ok with
    | false => exact ⟨_, rfl⟩
    | true => exact ih e2

lemma skipMany_stop (h : skipMany skip n o = .ok (false, o')) :
    skipMany skip (n + m) o = .ok (false, o') := by
  induction n generalizing o with
  | zero => cases h
  | succ n ih =>
    rw [skipMany_succ] at h
    obtain ⟨⟨ok, o1⟩, e1, e2⟩ := bind_ok h
    rw [Nat.add_right_comm, skipMany_succ, e1, ok_bind]
    cases ok with
    | false => exact e2
    | true => exact ih e2

end fuel

/-! ### Inside the buffer -/

/-- A computation reads inside the buffer, and a success leaves an offset inside it. -/
def Inside (data : Bytes) (x : Except Fault (Bool × Nat)) : Prop :=
  x = .error .fuel ∨ ∃ r, x = .ok r ∧ (r.1 = true → r.2 ≤ data.length)

section inside
variable {data : Bytes} {skip : Nat → Except Fault (Bool × Nat)} {fuel n o o' base : Nat}
  {t : UInt8}

lemma advance_le (h : advance data o n = .leaf true o') : o' ≤ data.length := by
  rw [advance, Head.leaf.injEq] at h
  rw [← h.2]
  exact of_decide_eq_true h.1

/-- What the tests on a tag leave to do lies inside the buffer. -/
lemma skipTag_inside (hl : data.length < 2 ^ 31) (ho : o ≤ data.length) :
    ∃ hd, skipTag data t o = .ok hd ∧ (∀ o', hd = .leaf true o' → o' ≤ data.length) ∧
      ∀ n base, hd = .items n base → base ≤ data.length := by
  have leaf : ∀ {n}, (∀ o', advance data o n = .leaf true o' → o' ≤ data.length) ∧
      ∀ k base, advance data o n = .items k base → base ≤ data.length :=
    ⟨fun o' h => advance_le h, fun k base h => by cases h⟩
  have stop : (∀ o', Head.leaf false o = .leaf true o' → o' ≤ data.length) ∧
      ∀ k base, Head.leaf false o = .items k base → base ≤ data.length :=
    ⟨(fun o' h => by cases h), fun k base h => by cases h⟩
  rw [skipTag_eq ho (by omega)]
  cases hc : classify t with
  | fixed n => exact ⟨_, rfl, leaf⟩
  | sized w =>
    have hw := width_sized hc
    rw [skipClass]
    split
    next hlt =>
      rw [sz_of_lt (by omega)] at hlt
      have hlen : (window data o w).length = w := length_window (by omega)
      rw [sizeAt_of_at hw hlen at_window (by omega) (by omega), ok_bind]
      exact ⟨_, rfl, leaf⟩
    next => exact ⟨_, rfl, stop⟩
  | items n =>
    refine ⟨_, rfl, (fun o' h => by cases h), fun k base h => ?_⟩
    cases h
    exact ho
  | sizedItems w k =>
    rcases width_sizedItems hc with rfl | rfl
    · simp only [skipClass]
      split
      next hlt =>
        rw [sz_of_lt (by omega)] at hlt
        have hlen : (window data o 2).length = 2 := length_window (by omega)
        rw [sizeAt_of_at (.inr (.inl rfl)) hlen at_window (by omega) (by omega), ok_bind,
          sz_of_lt (by omega)]
        refine ⟨_, rfl, (fun o' h => by cases h), fun k base h => ?_⟩
        cases h
        omega
      next => exact ⟨_, rfl, stop⟩
    · exact ⟨_, rfl, stop⟩
  | ext w => exact ⟨_, rfl, stop⟩
  | unused => exact ⟨_, rfl, stop⟩

lemma skipMany_inside (h : ∀ o, Inside data (skip o)) (ho : o ≤ data.length) :
    Inside data (skipMany skip n o) := by
  induction n generalizing o with
  | zero => exact .inr ⟨_, rfl, fun _ => ho⟩
  | succ n ih =>
    rw [skipMany_succ]
    cases h o with
    | inl e =>
      rw [e, error_bind]
      exact .inl rfl
    | inr hr =>
      obtain ⟨⟨ok, o'⟩, e, hle⟩ := hr
      rw [e, ok_bind]
      cases ok with
      | false => exact .inr ⟨_, rfl, fun h => by cases h⟩
      | true => exact ih (hle rfl)

/-- `skip_element` reads inside the buffer from every offset. -/
lemma skipElement_inside (hl : data.length < 2 ^ 31) :
    Inside data (skipElement fuel data o) := by
  induction fuel generalizing o with
  | zero => exact .inl rfl
  | succ fuel ih =>
    rw [skipElement]
    split
    next => exact .inr ⟨_, rfl, fun h => by cases h⟩
    next hlt =>
      have ht : data[o]? = some data[o] := List.getElem?_eq_getElem (by omega)
      rw [byteAt_of_some ht, ok_bind, sz_of_lt (by omega)]
      obtain ⟨hd, e, hleaf, hitems⟩ := @skipTag_inside data (o + 1) data[o] hl (by omega)
      rw [e, ok_bind]
      cases hd with
      | leaf ok o' =>
        refine .inr ⟨_, rfl, fun hok => ?_⟩
        have hok : ok = true := hok
        exact hleaf o' (by rw [hok])
      | items n base => exact skipMany_inside (fun o => ih) (hitems n base rfl)

/-! ### Containers -/

/-- `skip_element` finds a container of `n` items at `o`, the first of them at `base`. -/
def Container (data : Bytes) (o n base : Nat) : Prop :=
  ∃ t, data[o]? = some t ∧ skipTag data t (sz (o + 1)) = .ok (.items n base)

/-- `skip_element` comes to the item at `o'` of the container at `o`. -/
def Holds (data : Bytes) (o o' : Nat) : Prop :=
  ∃ n base k fuel, Container data o n base ∧ k < n ∧
    skipMany (skipElement fuel data) k base = .ok (true, o')

lemma skipElement_container (h : Container data o n base) :
    skipElement (fuel + 1) data o = skipMany (skipElement fuel data) n base := by
  obtain ⟨t, ht, e⟩ := h
  have hlt := lt_of_some ht
  rw [skipElement, if_neg (by omega), byteAt_of_some ht, ok_bind, e, ok_bind]

lemma Container.base_le (hl : data.length < 2 ^ 31) (h : Container data o n base) :
    base ≤ data.length := by
  obtain ⟨t, ht, e⟩ := h
  have hlt := lt_of_some ht
  obtain ⟨hd, e', -, hitems⟩ := @skipTag_inside data (o + 1) t hl (by omega)
  rw [sz_of_lt (by omega), e', Except.ok.injEq] at e
  exact hitems n base e

lemma Holds.le (hl : data.length < 2 ^ 31) (h : Holds data o o') : o' ≤ data.length := by
  obtain ⟨n, base, k, fuel, hc, -, hs⟩ := h
  cases @skipMany_inside data (skipElement fuel data) k base (fun o => skipElement_inside hl)
    (hc.base_le hl) with
  | inl e =>
    rw [e] at hs
    cases hs
  | inr hr =>
    obtain ⟨r, e, hle⟩ := hr
    rw [e, Except.ok.injEq] at hs
    rw [hs] at hle
    exact hle rfl

lemma finite_holds (hl : data.length < 2 ^ 31) :
    {o' | ReflTransGen (Holds data) o o'}.Finite := by
  refine ((Set.finite_Iic data.length).insert o).subset fun o' h => ?_
  cases h with
  | refl => exact Set.mem_insert _ _
  | tail _ h => exact Set.mem_insert_of_mem _ (h.le hl)

/-- `skip_element` calls itself on the items of a container, one after the other. -/
lemma recurses (hl : data.length < 2 ^ 31) :
    Recurses (Holds data) fun n o => ∃ r, skipElement n data o = .ok r where
  zero := by
    rintro o ⟨r, h⟩
    cases h
  call := by
    rintro f o o' ⟨r, hr⟩ ⟨n, base, k, f', hc, hk, hs⟩
    obtain ⟨m, rfl⟩ := Nat.exists_eq_add_of_lt hk
    rw [skipElement_container hc, Nat.add_assoc] at hr
    have hfirst : skipMany (skipElement f data) k base = .ok (true, o') := by
      -- both fuels give the same result
      obtain ⟨r', hr'⟩ := skipMany_first hr
      have h1 : skipMany (skipElement (max f f') data) k base = .ok r' :=
        skipMany_mono (fun h => skipElement_mono h (le_max_left _ _)) hr'
      have h2 : skipMany (skipElement (max f f') data) k base = .ok (true, o') :=
        skipMany_mono (fun h => skipElement_mono h (le_max_right _ _)) hs
      rw [h1, Except.ok.injEq] at h2
      rw [hr', h2]
    rw [skipMany_add hfirst, skipMany_succ] at hr
    obtain ⟨r', hr', -⟩ := bind_ok hr
    exact ⟨r', hr'⟩
  ret := by
    intro o h
    by_cases hc : ∃ n base, Container data o n base
    · obtain ⟨n, base, hc⟩ := hc
      have many : ∀ k ≤ n, ∃ f r, skipMany (skipElement f data) k base = .ok r := by
        intro k hk
        induction k with
        | zero => exact ⟨0, _, rfl⟩
        | succ k ih =>
          obtain ⟨f, ⟨ok, o'⟩, e⟩ := ih (by omega)
          cases ok with
          | false => exact ⟨f, _, skipMany_stop e⟩
          | true =>
            obtain ⟨f', r, hr⟩ := h o' ⟨n, base, k, f, hc, hk, e⟩
            have e' := skipMany_mono (fun h => skipElement_mono h (le_max_left f f')) e
            refine ⟨max f f', r, ?_⟩
            rw [skipMany_add e', skipMany_one]
            exact skipElement_mono hr (le_max_right f f')
      obtain ⟨f, r, e⟩ := many n le_rfl
      exact ⟨f + 1, r, by rw [skipElement_container hc, e]⟩
    · refine ⟨1, ?_⟩
      rw [skipElement]
      split
      next => exact ⟨_, rfl⟩
      next hlt =>
        have ht : data[o]? = some data[o] := List.getElem?_eq_getElem (by omega)
        obtain ⟨hd, e, -⟩ := @skipTag_inside data (o + 1) data[o] hl (by omega)
        rw [byteAt_of_some ht, ok_bind, sz_of_lt (by omega), e, ok_bind]
        cases hd with
        | leaf ok o' => exact ⟨_, rfl⟩
        | items n base =>
          rw [← sz_of_lt (show o + 1 < 2 ^ 32 by omega)] at e
          exact absurd ⟨n, base, _, ht, e⟩ hc

/-- `skip_element` ends exactly where no container that it goes through lies inside itself. -/
theorem skipElement_ends_iff (hl : data.length < 2 ^ 31) :
    (∃ fuel r, skipElement fuel data o = .ok r) ↔ Acyclic (Holds data) o :=
  (recurses hl).ends_iff (finite_holds hl)

end inside

/-! ### Complete elements -/

section complete
variable {data bs : Bytes} {fuel n o : Nat} {t : UInt8}

lemma skipMany_unknown (hl : data.length < 2 ^ 32) (hk : ¬ Known t) (ht : data[o]? = some t) :
    skipMany (skipElement (fuel + 1) data) (n + 1) o = .ok (false, o + 1) := by
  rw [skipMany_succ, skipElement_unknown hl hk ht, ok_bind]
  rfl

/-- `skip_element` ends on complete elements, whatever their headers. -/
lemma skipMany_ends (hl : data.length < 2 ^ 32) (h : Elements (fun _ => True) n bs)
    (hat : At data o bs) (ho : o ≤ data.length) (hfuel : bs.length < fuel) :
    ∃ r, skipMany (skipElement fuel data) n o = .ok r := by
  induction h generalizing fuel o with
  | nil => exact ⟨_, rfl⟩
  | @fixed t k body n rest _ hc hb _ ih =>
    obtain ⟨fuel, rfl⟩ : ∃ f, fuel = f + 1 := ⟨fuel - 1, by omega⟩
    rw [← List.cons_append, at_append] at hat
    rw [← List.cons_append, List.length_append] at hfuel
    rw [skipMany_succ, skipElement_fixed hl hc hb hat.1 ho, ok_bind]
    exact ih hat.2 (hat.1.length_le ho) (by omega)
  | @sized t w len body n rest _ hc hw hb _ ih =>
    obtain ⟨fuel, rfl⟩ : ∃ f, fuel = f + 1 := ⟨fuel - 1, by omega⟩
    rw [← List.append_assoc, ← List.cons_append, at_append] at hat
    rw [← List.append_assoc, ← List.cons_append, List.length_append] at hfuel
    rw [skipMany_succ, skipElement_sized hl hc hw hb hat.1 ho, ok_bind]
    exact ih hat.2 (hat.1.length_le ho) (by omega)
  | @ext t w len body n rest _ hc =>
    obtain ⟨fuel, rfl⟩ : ∃ f, fuel = f + 1 := ⟨fuel - 1, by omega⟩
    have hk : ¬ Known t := by simp [Known, skippable, hc]
    exact ⟨_, skipMany_unknown hl hk (at_cons.mp hat).1⟩
  | @items t k inner n rest _ hc hi _ ihi ih =>
    obtain ⟨fuel, rfl⟩ : ∃ f, fuel = f + 1 := ⟨fuel - 1, by omega⟩
    have hle := hat.length_le ho
    rw [at_cons, at_append] at hat
    simp only [List.length_cons, List.length_append] at hle hfuel
    obtain ⟨⟨ok, o'⟩, e⟩ := @ihi fuel (o + 1) hat.2.1 (by omega) (by omega)
    rw [skipMany_succ, skipElement_items hl hc hat.1, e, ok_bind]
    cases ok with
    | false => exact ⟨_, rfl⟩
    | true =>
      obtain ⟨-, rfl⟩ := skipMany_exact hl hi hat.2.1 (by omega) e
      exact ih hat.2.2 (by omega) (by omega)
  | @sizedItems t w k len inner n rest _ hc hw hi _ ihi ih =>
    obtain ⟨fuel, rfl⟩ : ∃ f, fuel = f + 1 := ⟨fuel - 1, by omega⟩
    have hle := hat.length_le ho
    rcases width_sizedItems hc with rfl | rfl
    · rw [← List.cons_append, at_append, List.length_cons, hw, at_append] at hat
      simp only [List.length_cons, List.length_append] at hle hfuel
      obtain ⟨⟨ok, o'⟩, e⟩ := @ihi fuel (o + 3) hat.2.1 (by omega) (by omega)
      rw [skipMany_succ, skipElement_sizedItems hl hc hw hat.1 ho, e, ok_bind]
      cases ok with
      | false => exact ⟨_, rfl⟩
      | true =>
        obtain ⟨-, rfl⟩ := skipMany_exact hl hi hat.2.1 (by omega) e
        exact ih hat.2.2 (by omega) (by omega)
    · have hk : ¬ Known t := by simp [Known, skippable, hc]
      exact ⟨_, skipMany_unknown hl hk (at_cons.mp hat).1⟩

/-- A complete element with a header that `skip_element` does not know is not skipped. -/
lemma skipElement_refuses (hl : data.length < 2 ^ 32) (h : Element (fun _ => True) bs)
    (hk : ¬ Element Known bs) (hat : At data o bs) (ho : o ≤ data.length)
    (hfuel : bs.length < fuel) : ∃ o', skipElement fuel data o = .ok (false, o') := by
  obtain ⟨⟨ok, o'⟩, e⟩ := skipMany_ends hl h hat ho hfuel
  rw [skipMany_one] at e
  cases ok with
  | false => exact ⟨o', e⟩
  | true => exact absurd (skipElement_exact hl h hat ho e).1 hk

end complete

end URSupreme.MsgPack
