import URSupreme.Common.MsgPackEnds
import URSupreme.Telemetry.TelemeterReads

/-!
# The walk of the telemeter decoder

`decode_into` reads inside the buffer, and it ends exactly where `skip_element` ends on every value
that it skips.
-/

namespace URSupreme.Telemetry
open Lib Lib.Recursion MsgPack

/-! ### The readers -/

/-- A reader that reads inside the buffer and stays inside it. -/
def Within {α : Type} (data : Bytes) (x : Except Fault (α × Nat)) : Prop :=
  ∃ r, x = .ok r ∧ r.2 ≤ data.length

/-- The sensor that a reading is of. -/
def Reading.sid : Reading → UInt8
  | .time _ => SID_TIME
  | .battery _ _ => SID_BATTERY
  | .location _ _ _ _ _ _ => SID_LOCATION
  | .magnetic _ _ _ => SID_MAGNETIC_FIELD
  | .pressure _ => SID_PRESSURE
  | .temperature _ => SID_TEMPERATURE
  | .humidity _ => SID_HUMIDITY

/-- What a case of the sensor switch has written. -/
def Ending.readings : Ending → List Reading
  | .abort => []
  | .next out _ => out
  | .skip out => out

/-- How a case of the sensor switch can end: it writes readings of its sensor only, it leaves the
walk for the time and the battery alone, and for the time it never gets to the skip. -/
structure Ending.Of (sid : UInt8) (e : Ending) : Prop where
  readings : ∀ r ∈ e.readings, r.sid = sid
  abort : e = .abort → sid = SID_TIME ∨ sid = SID_BATTERY
  next : ∀ rs o, e = .next rs o → sid = SID_TIME
  skip : ∀ rs, e = .skip rs → sid ≠ SID_TIME

section within
variable {data : Bytes} {off o n w : Nat} {sid : UInt8}

lemma beAt_total {v : Nat} (hl : data.length < 2 ^ 31) (h : o + n ≤ data.length) :
    ∃ v', beAt data n o v = .ok v' := by
  induction n generalizing o v with
  | zero => exact ⟨_, rfl⟩
  | succ n ih =>
    have hb : data[o]? = some data[o] := List.getElem?_eq_getElem (by omega)
    rw [beAt, sz_of_lt (by omega), byteAt_of_some hb, ok_bind]
    exact ih (by omega)

lemma within_ite {α : Type} {c : Prop} [Decidable c] {x y : Except Fault (α × Nat)}
    (hx : Within data x) (hy : Within data y) : Within data (if c then x else y) := by
  split
  · exact hx
  · exact hy

lemma readNumber_within (hl : data.length < 2 ^ 31) (ho : off ≤ data.length) :
    Within data (readNumber data off) := by
  by_cases hlt : off ≥ data.length
  · rw [readNumber, if_pos hlt]
    exact ⟨_, rfl, ho⟩
  · have hb : data[off]? = some data[off] := List.getElem?_eq_getElem (by omega)
    have one : ∀ v : Number, Within data (.ok (some v, sz (off + 1))) := by
      intro v
      refine ⟨_, rfl, ?_⟩
      rw [sz_of_lt (by omega)]
      omega
    have wide : ∀ n (f : Nat → Number), n ≤ 8 → Within data (do
        if sz (off + (n + 1)) > data.length then .ok (none, off)
        else .ok (some (f (← beAt data n (off + 1) 0)), sz (off + (n + 1)))) := by
      intro n f hn
      split
      next => exact ⟨_, rfl, ho⟩
      next hle =>
        rw [sz_of_lt (by omega)] at hle ⊢
        obtain ⟨v, e⟩ := @beAt_total data (off + 1) n 0 hl (by omega)
        rw [e, ok_bind]
        exact ⟨_, rfl, by omega⟩
    rw [readNumber, if_neg hlt, byteAt_of_some hb, ok_bind]
    apply within_ite (one _)
    apply within_ite (one _)
    apply within_ite (wide 1 _ (by decide))
    apply within_ite (wide 2 _ (by decide))
    apply within_ite (wide 4 _ (by decide))
    apply within_ite (wide 8 _ (by decide))
    apply within_ite (wide 1 _ (by decide))
    apply within_ite (wide 2 _ (by decide))
    apply within_ite (wide 4 _ (by decide))
    apply within_ite (wide 8 _ (by decide))
    apply within_ite (wide 4 _ (by decide))
    apply within_ite (wide 8 _ (by decide))
    exact ⟨_, rfl, ho⟩

lemma readBeBin_within (hl : data.length < 2 ^ 31) (ho : off ≤ data.length) (hw : w ≤ 4) :
    Within data (readBeBin data off w) := by
  unfold readBeBin
  rw [sz_of_lt (by omega), sz_of_lt (by omega)]
  split
  next => exact ⟨_, rfl, ho⟩
  next hlt =>
    have h0 : data[off]? = some data[off] := List.getElem?_eq_getElem (by omega)
    have h1 : data[off + 1]? = some data[off + 1] := List.getElem?_eq_getElem (by omega)
    rw [byteAt_of_some h0, ok_bind, byteAt_of_some h1, ok_bind]
    dsimp only
    split
    next => exact ⟨_, rfl, ho⟩
    next =>
      split
      next => exact ⟨_, rfl, ho⟩
      next =>
        rw [sz_of_lt (show off + 2 + w < 2 ^ 32 by omega)]
        split
        next =>
          refine ⟨_, rfl, ?_⟩
          dsimp only
          omega
        next hle =>
          obtain ⟨v, e⟩ := @beAt_total data (off + 2) w 0 hl (by omega)
          rw [e, ok_bind]
          exact ⟨_, rfl, by omega⟩

lemma u16_total (hl : data.length < 2 ^ 31) (h : o + 2 ≤ data.length) :
    ∃ v, u16 data o = .ok v := by
  have h0 : data[o]? = some data[o] := List.getElem?_eq_getElem (by omega)
  have h1 : data[o + 1]? = some data[o + 1] := List.getElem?_eq_getElem (by omega)
  rw [u16, sz_of_lt (by omega), sz_of_lt (by omega), byteAt_of_some h0, ok_bind,
    byteAt_of_some h1, ok_bind]
  exact ⟨_, rfl⟩

lemma arrayHeader_within (hl : data.length < 2 ^ 31) (ho : off ≤ data.length) :
    Within data (arrayHeader data off) := by
  unfold arrayHeader
  split
  next => exact ⟨_, rfl, ho⟩
  next hlt =>
    have hb : data[off]? = some data[off] := List.getElem?_eq_getElem (by omega)
    rw [byteAt_of_some hb, ok_bind, sz_of_lt (show off + 1 < 2 ^ 32 by omega),
      sz_of_lt (show off + 2 < 2 ^ 32 by omega), sz_of_lt (show off + 3 < 2 ^ 32 by omega)]
    split
    next => exact ⟨_, rfl, by omega⟩
    next =>
      split
      next h =>
        obtain ⟨v, e⟩ := @u16_total data (off + 1) hl (by omega)
        rw [e, ok_bind]
        exact ⟨_, rfl, by omega⟩
      next => exact ⟨_, rfl, ho⟩

lemma mapHeader_total (hl : data.length < 2 ^ 31) : ∃ r, mapHeader data = .ok r := by
  unfold mapHeader
  split
  next => exact ⟨_, rfl⟩
  next hlt =>
    have hb : data[0]? = some data[0] := List.getElem?_eq_getElem (by omega)
    rw [byteAt_of_some hb, ok_bind, sz_of_lt (by omega)]
    split
    next => exact ⟨_, rfl⟩
    next =>
      split
      next h =>
        obtain ⟨v, e⟩ := @u16_total data 1 hl (by omega)
        rw [e, ok_bind]
        exact ⟨_, rfl⟩
      next => exact ⟨_, rfl⟩

lemma sensorKey_total (hl : data.length < 2 ^ 31) (ho : off < data.length) :
    ∃ k, sensorKey data off = .ok k ∧ ∀ sid o, k = some (sid, o) → o ≤ data.length := by
  have hb : data[off]? = some data[off] := List.getElem?_eq_getElem ho
  rw [sensorKey, byteAt_of_some hb, ok_bind, sz_of_lt (by omega)]
  dsimp only
  split
  next =>
    refine ⟨_, rfl, fun sid o h => ?_⟩
    cases h
    omega
  next =>
    split
    next h =>
      have h1 : data[off + 1]? = some data[off + 1] := List.getElem?_eq_getElem h.2
      rw [byteAt_of_some h1, ok_bind, sz_of_lt (by omega)]
      refine ⟨_, rfl, fun sid o h => ?_⟩
      cases h
      omega
    next => exact ⟨_, rfl, nofun⟩

/-- A location is read inside the buffer. -/
lemma locationReading_total (hl : data.length < 2 ^ 31) (ho : off ≤ data.length) :
    ∃ rs, locationReading data off = .ok rs ∧ ∀ r ∈ rs, r.sid = SID_LOCATION := by
  have none_ : ∃ rs, (.ok [] : Except Fault (List Reading)) = .ok rs ∧
      ∀ r ∈ rs, r.sid = SID_LOCATION := ⟨_, rfl, nofun⟩
  unfold locationReading
  obtain ⟨⟨_ | la, o1⟩, e, h1⟩ := @readBeBin_within data off 4 hl ho le_rfl <;> rw [e, ok_bind]
  · exact none_
  obtain ⟨⟨_ | lo, o2⟩, e, h2⟩ := @readBeBin_within data o1 4 hl h1 le_rfl <;>
    dsimp only <;> rw [e, ok_bind]
  · exact none_
  obtain ⟨⟨_ | alt, o3⟩, e, h3⟩ := @readBeBin_within data o2 4 hl h2 le_rfl <;>
    dsimp only <;> rw [e, ok_bind]
  · exact none_
  obtain ⟨⟨_ | spd, o4⟩, e, h4⟩ := @readBeBin_within data o3 4 hl h3 le_rfl <;>
    dsimp only <;> rw [e, ok_bind]
  · exact none_
  obtain ⟨⟨_ | brg, o5⟩, e, h5⟩ := @readBeBin_within data o4 4 hl h4 le_rfl <;>
    dsimp only <;> rw [e, ok_bind]
  · exact none_
  obtain ⟨⟨_ | acc, o6⟩, e, -⟩ := @readBeBin_within data o5 2 hl h5 (by decide) <;>
    dsimp only <;> rw [e, ok_bind]
  · exact none_
  dsimp only
  split
  next => exact ⟨_, rfl, fun r hr => by rw [List.mem_singleton.mp hr]; rfl⟩
  next => exact none_

/-- A case of the sensor switch reads inside the buffer. -/
lemma sensorCase_total (hl : data.length < 2 ^ 31) (ho : off ≤ data.length) :
    ∃ e, sensorCase data sid off = .ok e ∧ e.Of sid := by
  by_cases htime : sid = SID_TIME
  · subst htime
    rw [sensorCase, if_pos rfl]
    obtain ⟨⟨_ | v, o1⟩, e, -⟩ := readNumber_within hl ho <;> rw [e, ok_bind]
    · exact ⟨_, rfl, nofun, fun _ => .inl rfl, nofun, nofun⟩
    · refine ⟨_, rfl, fun r hr => ?_, nofun, fun _ _ _ => rfl, nofun⟩
      rw [List.mem_singleton.mp hr]
      rfl
  have skip : ∀ {rs : List Reading}, (∀ r ∈ rs, r.sid = sid) →
      ∃ e, (.ok (.skip rs) : Except Fault Ending) = .ok e ∧ e.Of sid :=
    fun h => ⟨_, rfl, h, nofun, nofun, fun _ _ => htime⟩
  have one : ∀ {r : Reading}, r.sid = sid →
      ∃ e, (.ok (.skip [r]) : Except Fault Ending) = .ok e ∧ e.Of sid := by
    intro r h
    refine skip fun r' hr => ?_
    rw [List.mem_singleton.mp hr, h]
  have number : ∀ f : Number → Reading, (∀ v, (f v).sid = sid) →
      ∃ e, numberReading data off f = .ok e ∧ e.Of sid := by
    intro f hf
    obtain ⟨⟨v, o1⟩, e, -⟩ := readNumber_within hl ho
    rw [numberReading, e, ok_bind]
    refine skip fun r hr => ?_
    obtain ⟨v, -, rfl⟩ := List.mem_map.mp hr
    exact hf v
  rw [sensorCase, if_neg htime]
  split
  next hsid =>
    obtain ⟨⟨_ | n, o1⟩, e, h1⟩ := arrayHeader_within hl ho <;> rw [e, ok_bind]
    · exact skip nofun
    dsimp only
    split
    next => exact skip nofun
    obtain ⟨⟨_ | pct, o2⟩, e, -⟩ := readNumber_within hl h1 <;> rw [e, ok_bind]
    · exact ⟨_, rfl, nofun, fun _ => .inr hsid, nofun, nofun⟩
    dsimp only
    split
    next hlt =>
      have hb : data[o2]? = some data[o2] := List.getElem?_eq_getElem hlt
      rw [byteAt_of_some hb, ok_bind]
      exact one hsid.symm
    next => exact one hsid.symm
  split
  next hsid =>
    obtain ⟨⟨_ | n, o1⟩, e, h1⟩ := arrayHeader_within hl ho <;> rw [e, ok_bind]
    · exact skip nofun
    dsimp only
    split
    next => exact skip nofun
    obtain ⟨rs, e, hrs⟩ := locationReading_total hl h1
    rw [e, ok_bind]
    exact skip fun r hr => by rw [hrs r hr, hsid]
  split
  next hsid =>
    obtain ⟨⟨_ | n, o1⟩, e, h1⟩ := arrayHeader_within hl ho <;> rw [e, ok_bind]
    · exact skip nofun
    dsimp only
    split
    next => exact skip nofun
    obtain ⟨⟨_ | x, o2⟩, e, h2⟩ := readNumber_within hl h1 <;> rw [e, ok_bind]
    · exact skip nofun
    obtain ⟨⟨_ | y, o3⟩, e, h3⟩ := readNumber_within hl h2 <;> dsimp only <;> rw [e, ok_bind]
    · exact skip nofun
    obtain ⟨⟨_ | z, o4⟩, e, -⟩ := readNumber_within hl h3 <;> dsimp only <;> rw [e, ok_bind]
    · exact skip nofun
    exact one hsid.symm
  split
  next hsid => exact number _ fun v => hsid.symm
  split
  next hsid => exact number _ fun v => hsid.symm
  split
  next hsid => exact number _ fun v => hsid.symm
  next => exact skip nofun

end within

/-! ### The walk -/

section walk
variable {data : Bytes} {fuel fuel' n off vs : Nat} {out out' : List Reading}

/-- The walk comes from an entry at `off`, `n` of them being left, to a value at `vs` that it
skips. -/
inductive Visits (data : Bytes) : Nat → Nat → Nat → Prop where
  | here {n off sid vs rs} : off < data.length → sensorKey data off = .ok (some (sid, vs)) →
      sensorCase data sid vs = .ok (.skip rs) → Visits data (n + 1) off vs
  | next {n off sid vs rs off' vs'} : off < data.length →
      sensorKey data off = .ok (some (sid, vs)) → sensorCase data sid vs = .ok (.next rs off') →
      Visits data n off' vs' → Visits data (n + 1) off vs'
  | skip {n off sid vs rs fuel off' vs'} : off < data.length →
      sensorKey data off = .ok (some (sid, vs)) → sensorCase data sid vs = .ok (.skip rs) →
      skipElement fuel data vs = .ok (true, off') → Visits data n off' vs' →
      Visits data (n + 1) off vs'

/-- More fuel does not change what is decoded. -/
lemma decodeLoop_mono (h : decodeLoop fuel data n off out = .ok out') (hle : fuel ≤ fuel') :
    decodeLoop fuel' data n off out = .ok out' := by
  induction n generalizing off out with
  | zero => exact h
  | succ n ih =>
    rw [decodeLoop] at h ⊢
    split at h
    next hlt =>
      rw [if_pos hlt]
      obtain ⟨k, e, h⟩ := bind_ok h
      rw [e, ok_bind]
      cases k with
      | none => exact h
      | some k =>
        obtain ⟨sid, vs⟩ := k
        dsimp only at h ⊢
        obtain ⟨ending, e, h⟩ := bind_ok h
        rw [e, ok_bind]
        cases ending with
        | abort => exact h
        | next rs o => exact ih h
        | skip rs =>
          dsimp only at h ⊢
          obtain ⟨⟨ok, o⟩, e, h⟩ := bind_ok h
          rw [skipElement_mono e hle, ok_bind]
          cases ok with
          | false => exact h
          | true => exact ih h
    next hlt =>
      rw [if_neg hlt]
      exact h

lemma decodeInto_mono (h : decodeInto fuel data = .ok out) (hle : fuel ≤ fuel') :
    decodeInto fuel' data = .ok out := by
  rw [decodeInto] at h ⊢
  obtain ⟨hd, e, h⟩ := bind_ok h
  rw [e, ok_bind]
  cases hd with
  | none => exact h
  | some hd => exact decodeLoop_mono h hle

/-- The loop ends exactly where each value that it skips is one that `skip_element` ends on. -/
lemma decodeLoop_ends_iff (hl : data.length < 2 ^ 31) :
    (∃ fuel out', decodeLoop fuel data n off out = .ok out') ↔
      ∀ vs, Visits data n off vs → Acyclic (Holds data) vs := by
  induction n generalizing off out with
  | zero => exact iff_of_true ⟨0, out, rfl⟩ fun vs h => by cases h
  | succ n ih =>
    by_cases hlt : off < data.length
    · obtain ⟨k, hk, hvs⟩ := sensorKey_total hl hlt
      cases k with
      | none =>
        refine iff_of_true ⟨0, out, ?_⟩ ?_
        · rw [decodeLoop, if_pos hlt, hk, ok_bind]
        · intro vs h
          cases h <;> simp_all
      | some k =>
        obtain ⟨sid, vs⟩ := k
        obtain ⟨ending, he, -⟩ := @sensorCase_total data vs sid hl (hvs sid vs rfl)
        cases ending with
        | abort =>
          refine iff_of_true ⟨0, out, ?_⟩ ?_
          · rw [decodeLoop, if_pos hlt, hk, ok_bind]
            dsimp only
            rw [he, ok_bind]
          · intro vs' h
            cases h <;> simp_all
        | next rs o =>
          have step : ∀ fuel, decodeLoop fuel data (n + 1) off out =
              decodeLoop fuel data n o (out ++ rs) := by
            intro fuel
            rw [decodeLoop, if_pos hlt, hk, ok_bind]
            dsimp only
            rw [he, ok_bind]
          constructor
          · rintro ⟨fuel, out', h⟩ v hv
            rw [step] at h
            cases hv with
            | here _ hk' he' => simp_all
            | next _ hk' he' hv =>
              rw [hk, Except.ok.injEq, Option.some.injEq, Prod.mk.injEq] at hk'
              obtain ⟨rfl, rfl⟩ := hk'
              rw [he, Except.ok.injEq, Ending.next.injEq] at he'
              obtain ⟨rfl, rfl⟩ := he'
              exact ih.mp ⟨fuel, out', h⟩ v hv
            | skip _ hk' he' => simp_all
          · intro h
            obtain ⟨fuel, out', e⟩ := ih.mpr fun v hv => h v (.next hlt hk he hv)
            exact ⟨fuel, out', (step fuel).trans e⟩
        | skip rs =>
          have step : ∀ fuel, decodeLoop fuel data (n + 1) off out =
              skipElement fuel data vs >>= fun r =>
                if r.1 then decodeLoop fuel data n r.2 (out ++ rs) else .ok (out ++ rs) := by
            intro fuel
            rw [decodeLoop, if_pos hlt, hk, ok_bind]
            dsimp only
            rw [he, ok_bind]
          constructor
          · rintro ⟨fuel, out', h⟩ v hv
            rw [step] at h
            obtain ⟨⟨ok, o⟩, e, h⟩ := bind_ok h
            cases hv with
            | here _ hk' _ =>
              rw [hk, Except.ok.injEq, Option.some.injEq, Prod.mk.injEq] at hk'
              rw [← hk'.2]
              exact (skipElement_ends_iff hl).mp ⟨fuel, _, e⟩
            | next _ hk' he' => simp_all
            | skip _ hk' _ hs hv =>
              rw [hk, Except.ok.injEq, Option.some.injEq, Prod.mk.injEq] at hk'
              obtain ⟨rfl, rfl⟩ := hk'
              cases skipElement_agree e hs
              exact ih.mp ⟨fuel, out', h⟩ v hv
          · intro h
            obtain ⟨f, ⟨ok, o⟩, e⟩ := (skipElement_ends_iff hl).mpr (h vs (.here hlt hk he))
            cases ok with
            | false =>
              refine ⟨f, out ++ rs, ?_⟩
              rw [step, e, ok_bind]
              rfl
            | true =>
              obtain ⟨f', out', e'⟩ := ih.mpr fun v hv => h v (.skip hlt hk he e hv)
              refine ⟨max f f', out', ?_⟩
              rw [step, skipElement_mono e (le_max_left f f'), ok_bind]
              exact decodeLoop_mono e' (le_max_right f f')
    · refine iff_of_true ⟨0, out, ?_⟩ ?_
      · rw [decodeLoop, if_neg hlt]
      · intro vs h
        cases h <;> contradiction

/-- No container in a value that the walk skips lies inside itself. -/
def Unwound (data : Bytes) : Prop :=
  ∀ n off vs, mapHeader data = .ok (some (n, off)) → Visits data n off vs →
    Acyclic (Holds data) vs

/-- `decode_into` ends, and reads inside the buffer, exactly where no container in a value that it
skips lies inside itself. -/
theorem decodeInto_ends_iff (hl : data.length < 2 ^ 31) :
    (∃ fuel out, decodeInto fuel data = .ok out) ↔ Unwound data := by
  obtain ⟨hd, e⟩ := mapHeader_total hl
  unfold decodeInto Unwound
  rw [e]
  cases hd with
  | none => exact iff_of_true ⟨0, [], rfl⟩ nofun
  | some hd =>
    obtain ⟨n, off⟩ := hd
    refine (decodeLoop_ends_iff hl).trans ⟨?_, fun h vs => h n off vs rfl⟩
    intro h n' off' vs hd
    cases hd
    exact h vs

end walk

end URSupreme.Telemetry
