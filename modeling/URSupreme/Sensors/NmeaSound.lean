import URSupreme.Sensors.NmeaLine

/-!
# What a line may do to the fix

Any line that the pump passes on. The sum is tried with the byte in front of the sentence, which for
a line without a dollar sign is not in the buffer, and a coordinate that is missing or malformed is
zero, in a fix that is valid all the same.
-/

namespace URSupreme.Nmea
open Lib

/-- A field of degrees and minutes, with its number of degrees. -/
def Coordinate (degree_digits : ℕ) (s : Bytes) (q : ℚ) : Prop :=
  ∃ (deg : List (Fin 10)) (m1 m2 : Fin 10) (frac : List (Fin 10)), deg.length = degree_digits ∧
    s = text deg ++ (text [m1, m2] ++ fraction frac) ∧ value [m1, m2] < 60 ∧
    q = value deg + ((value [m1, m2] : ℚ) + value frac / 10 ^ frac.length) / 60

/-- A coordinate with its side. -/
def Position (degree_digits : ℕ) (limit : ℚ) (plus minus : UInt8) (s side : Bytes) (q : ℚ) : Prop :=
  ∃ m, Coordinate degree_digits s m ∧ m ≤ limit ∧
    (side = [plus] ∧ q = m ∨ side = [minus] ∧ q = -m)

/-- The fields of an RMC sentence of status A and a position. -/
structure Located (fields : List Bytes) (lat lon : ℚ) : Prop where
  status : fields.getD 1 [] = ['A'.toUInt8]
  lat : Position 2 90 'N'.toUInt8 'S'.toUInt8 (fields.getD 2 []) (fields.getD 3 []) lat
  lon : Position 3 180 'E'.toUInt8 'W'.toUInt8 (fields.getD 4 []) (fields.getD 5 []) lon

/-- An asterisk is followed by the sum of the bytes before it. -/
def Checked (s : Bytes) : Prop :=
  ∃ pre h l post, s = pre ++ STAR :: h :: l :: post ∧ digitsOk (sum (strip pre)) h l = true

/-- The kind and the fields of a sentence that is accepted. -/
def sentenceOf (u : Bytes) : Option (Kind × List Bytes) :=
  if ¬ (accepts (DOLLAR :: u) ∨ accepts u) ∨ u.length < 5 then none
  else
    match kindOf (u.getD 2 0) (u.getD 3 0) (u.getD 4 0), fieldsOf u with
    | some kind, some fields => some (kind, fields)
    | _, _ => none

/-- The sentence has something for the fix. -/
def Writes (kind : Kind) (fields : List Bytes) : Prop :=
  match kind with
  | .gsv => 3 ≤ fields.length
  | .txt => False
  | .gga => 10 ≤ fields.length ∧ (atoi (fields.getD 5 []) ≤ 0 ∨ fields.getD 6 [] ≠ [] ∨
      fields.getD 7 [] ≠ [] ∨ fields.getD 8 [] ≠ [])
  | .rmc => 10 ≤ fields.length

/-- The line that the pump passes on, without its zero. -/
def LineBuf.content (l : LineBuf) : Bytes := l.buf.take l.blen

/-- What a line may do: it is parsed inside the buffer; it changes the fix only if it is checked,
and the position only if it is an RMC sentence with one, which it becomes. -/
def Sound (l : LineBuf) : Prop :=
  ∀ (mktime : Tm → ℤ) (now : UInt32) (f : Fix) (g : GsvState), ∃ r,
    parseLine mktime l.passed.1 l.passed.2 now f g = some r ∧
    (r.fix ≠ f → Checked l.content) ∧
    (r.sentence = .rmcValid → ∃ fields lat lon,
      sentenceOf (trim l.content.tail) = some (.rmc, fields) ∧ Located fields lat lon ∧
      r.fix.valid = true ∧ r.fix.latitude_deg = .finite lat ∧ r.fix.longitude_deg = .finite lon) ∧
    (r.sentence ≠ .rmcValid → r.fix.latitude_deg = f.latitude_deg ∧
      r.fix.longitude_deg = f.longitude_deg ∧ (r.fix.valid = true → f.valid = true))

/-- The condition: the line has its dollar sign; where it has two, it is checked or has nothing for
the fix; and an RMC sentence whose status begins with A is one with a position. -/
structure Fine (s : Bytes) : Prop where
  dollar : s.head? = some DOLLAR
  once : (trim s.tail).head? = some DOLLAR → ∀ kind fields,
    sentenceOf (trim s.tail) = some (kind, fields) → Writes kind fields → Checked s
  located : ∀ fields, sentenceOf (trim s.tail) = some (.rmc, fields) → 10 ≤ fields.length →
    (fields.getD 1 []).head? = some 'A'.toUInt8 → ∃ lat lon, Located fields lat lon

variable {mktime : Tm → ℤ} {talker : UInt8 × UInt8} {u s t side : Bytes} {now : UInt32} {f : Fix}
  {g : GsvState} {kind : Kind} {fields : List Bytes} {l : LineBuf} {n : ℕ} {q limit lat lon : ℚ}
  {plus minus : UInt8}

/-! ### Coordinates -/

lemma coord_digit {d : Fin 10} :
    (decide ('0'.toUInt8 ≤ digit d ∧ digit d ≤ '9'.toUInt8)) = true ∧
      (digit d).toNat - 48 = d.val := by
  revert d
  decide

lemma coord_degrees {deg : List (Fin 10)} :
    (text deg).foldl (fun d c => d * 10 + (c.toNat - 48)) 0 = value deg := by
  unfold text value numeral
  rw [List.foldl_map, List.foldl_map]
  congr 1
  funext n d
  rw [coord_digit.2, Nat.mul_comm]

/-- A coordinate is read as it is. -/
lemma Coordinate.parse (h : Coordinate n s q) : parseCoord s n = .finite q := by
  obtain ⟨deg, m1, m2, frac, rfl, rfl, -, rfl⟩ := h
  have hlen : (text deg).length = deg.length := List.length_map _
  have htake : (text deg ++ (text [m1, m2] ++ fraction frac)).take deg.length = text deg := by
    rw [← hlen, List.take_left]
  have hdrop : (text deg ++ (text [m1, m2] ++ fraction frac)).drop deg.length =
      text [m1, m2] ++ fraction frac := by
    rw [← hlen, List.drop_left]
  have hall : (text deg).all (fun c => '0'.toUInt8 ≤ c ∧ c ≤ '9'.toUInt8) = true := by
    rw [List.all_eq_true]
    intro c hc
    obtain ⟨d, -, rfl⟩ := List.mem_map.mp hc
    exact coord_digit.1
  have htwo : (text [m1, m2]).length = 2 := rfl
  unfold parseCoord
  rw [if_neg (by
    intro he
    have hzero := congrArg List.length he
    rw [List.length_append, List.length_append, htwo, List.length_nil] at hzero
    omega), if_neg (by
    rw [List.length_append, List.length_append, htwo, hlen]
    omega)]
  dsimp only
  rw [htake, hdrop, if_pos hall, coord_degrees, atof_text]
  rfl

/-- And with its side. -/
lemma Position.parse (h : Position n limit plus minus s side q) (hne : plus ≠ minus) :
    (if side.head? = some minus then (parseCoord s n).neg else parseCoord s n) = .finite q := by
  obtain ⟨m, hm, -, hside⟩ := h
  rw [hm.parse]
  cases hside with
  | inl hp =>
    obtain ⟨rfl, rfl⟩ := hp
    rw [if_neg (by simpa using hne)]
  | inr hs =>
    obtain ⟨rfl, rfl⟩ := hs
    rw [List.head?_cons, if_pos rfl]
    rfl

/-! ### Sentences -/

lemma parsed_some (h : sentenceOf u = some (kind, fields)) :
    parsed mktime talker u now f g = parseFields mktime kind talker fields now f g := by
  unfold sentenceOf at h
  unfold parsed
  split at h
  next => exact nomatch h
  next hnot =>
    rw [if_neg hnot]
    cases hk : kindOf (u.getD 2 0) (u.getD 3 0) (u.getD 4 0) with
    | none =>
      rw [hk] at h
      exact nomatch h
    | some k =>
      cases hf : fieldsOf u with
      | none =>
        rw [hk, hf] at h
        exact nomatch h
      | some fs =>
        rw [hk, hf, Option.some.injEq, Prod.mk.injEq] at h
        rw [← h.1, ← h.2]

lemma parsed_none (h : sentenceOf u = none) : (parsed mktime talker u now f g).fix = f ∧
    (parsed mktime talker u now f g).sentence ≠ .rmcValid := by
  unfold sentenceOf at h
  unfold parsed
  split at h
  next hnot =>
    rw [if_pos hnot]
    exact ⟨rfl, nofun⟩
  next hnot =>
    rw [if_neg hnot]
    cases hk : kindOf (u.getD 2 0) (u.getD 3 0) (u.getD 4 0) with
    | none => exact ⟨rfl, nofun⟩
    | some k =>
      cases hf : fieldsOf u with
      | none => exact ⟨rfl, nofun⟩
      | some fs =>
        rw [hk, hf] at h
        exact nomatch h

/-- Only an RMC sentence of ten fields and a status that begins with A is a valid one. -/
lemma parseFields_rmcValid :
    (parseFields mktime kind talker fields now f g).sentence = .rmcValid ↔
      kind = .rmc ∧ 10 ≤ fields.length ∧ (fields.getD 1 []).head? = some 'A'.toUInt8 := by
  cases kind with
  | gsv => simp [parseFields]
  | txt => simp [parseFields]
  | gga => simp [parseFields]
  | rmc =>
    unfold parseFields parseRmc
    dsimp only
    by_cases hlen : fields.length < 10
    · rw [if_pos hlen]
      simp
      omega
    · rw [if_neg hlen]
      by_cases hA : (fields.getD 1 []).head? = some 'A'.toUInt8
      · rw [if_neg (not_not.mpr hA)]
        simp only [true_and, true_iff]
        exact ⟨by omega, hA⟩
      · rw [if_pos hA]
        exact iff_of_false nofun fun h => hA h.2.2

/-- Any other leaves the position. -/
lemma parseFields_keeps (h : (parseFields mktime kind talker fields now f g).sentence ≠ .rmcValid) :
    (parseFields mktime kind talker fields now f g).fix.latitude_deg = f.latitude_deg ∧
      (parseFields mktime kind talker fields now f g).fix.longitude_deg = f.longitude_deg ∧
      ((parseFields mktime kind talker fields now f g).fix.valid = true → f.valid = true) := by
  cases kind with
  | gsv =>
    unfold parseFields parseGsv
    dsimp only
    split
    next => exact ⟨rfl, rfl, id⟩
    next => exact ⟨rfl, rfl, id⟩
  | txt => exact ⟨rfl, rfl, id⟩
  | gga =>
    unfold parseFields parseGga
    dsimp only
    split_ifs
    all_goals exact ⟨rfl, rfl, id⟩
  | rmc =>
    rw [ne_eq, parseFields_rmcValid] at h
    unfold parseFields parseRmc
    dsimp only
    split
    next => exact ⟨rfl, rfl, id⟩
    next hlen =>
      rw [if_pos fun hA => h ⟨rfl, by omega, hA⟩]
      exact ⟨rfl, rfl, fun hv => Bool.noConfusion hv⟩

/-- A valid one with a position has that position. -/
lemma Located.parse (h : Located fields lat lon) (hlen : 10 ≤ fields.length) :
    (parseFields mktime .rmc talker fields now f g).fix.valid = true ∧
      (parseFields mktime .rmc talker fields now f g).fix.latitude_deg = .finite lat ∧
      (parseFields mktime .rmc talker fields now f g).fix.longitude_deg = .finite lon := by
  have hA : (fields.getD 1 []).head? = some 'A'.toUInt8 := by
    rw [h.status]
    rfl
  unfold parseFields parseRmc
  dsimp only
  rw [if_neg (by omega), if_neg (not_not.mpr hA)]
  exact ⟨rfl, h.lat.parse (by decide), h.lon.parse (by decide)⟩

/-! ### Changes -/

lemma parseFields_of_not_writes (h : ¬ Writes kind fields) :
    (parseFields mktime kind talker fields now f g).fix = f := by
  cases kind with
  | gsv =>
    have hlen : fields.length < 3 := not_le.mp h
    unfold parseFields parseGsv
    dsimp only
    rw [if_pos hlen]
  | txt => rfl
  | gga =>
    unfold parseFields parseGga
    dsimp only
    split
    next => rfl
    next hlen =>
      have hno := fun hw => h ⟨not_lt.mp hlen, hw⟩
      rw [if_neg fun h5 => hno (.inl h5), if_neg fun h8 => hno (.inr (.inr (.inr h8))),
        if_neg fun h7 => hno (.inr (.inr (.inl h7))), if_neg fun h6 => hno (.inr (.inl h6))]
  | rmc =>
    have hlen : fields.length < 10 := not_le.mp h
    unfold parseFields parseRmc
    dsimp only
    rw [if_pos hlen]

lemma byte_succ_ne {b : UInt8} : b ≠ b + 1 := by
  intro h
  have hlt := b.toNat_lt
  have hnat := congrArg UInt8.toNat h
  rw [UInt8.toNat_add] at hnat
  simp at hnat
  omega

/-- A sentence that has something for the fix changes some fix. -/
lemma exists_changed (h : Writes kind fields) : ∃ f : Fix, ∀ (mktime : Tm → ℤ) talker,
    (parseFields mktime kind talker fields 0 f {}).fix ≠ f := by
  cases kind with
  | gsv =>
    have hlen : ¬ fields.length < 3 := not_lt.mpr h
    generalize hbest : (signals (fields.drop 3)).foldl (fun best n => max best (toByte n)) 0 = best
    refine ⟨{ best_snr_db := best + 1 }, fun mktime talker he => ?_⟩
    have hsame := congrArg Fix.best_snr_db he
    unfold parseFields parseGsv at hsame
    dsimp only at hsame
    rw [if_neg hlen] at hsame
    dsimp only at hsame
    rw [ite_self] at hsame
    exact byte_succ_ne (hbest.symm.trans hsame)
  | txt => exact nomatch h
  | gga =>
    obtain ⟨hlen, hw⟩ := h
    by_cases h5 : atoi (fields.getD 5 []) ≤ 0
    · refine ⟨{ altitude_valid := true }, fun mktime talker he => ?_⟩
      have hsame := congrArg Fix.altitude_valid he
      unfold parseFields parseGga at hsame
      dsimp only at hsame
      rw [if_neg (by omega), if_pos h5] at hsame
      exact Bool.noConfusion hsame
    · by_cases h8 : fields.getD 8 [] ≠ []
      · refine ⟨{}, fun mktime talker he => ?_⟩
        have hsame := congrArg Fix.altitude_valid he
        unfold parseFields parseGga at hsame
        dsimp only at hsame
        rw [if_neg (by omega), if_neg h5, if_pos h8] at hsame
        exact Bool.noConfusion hsame
      · by_cases h7 : fields.getD 7 [] ≠ []
        · refine ⟨{}, fun mktime talker he => ?_⟩
          have hsame := congrArg Fix.hdop_valid he
          unfold parseFields parseGga at hsame
          dsimp only at hsame
          rw [if_neg (by omega), if_neg h5, if_neg h8, if_pos h7] at hsame
          exact Bool.noConfusion hsame
        · have h6 : fields.getD 6 [] ≠ [] := by
            rcases hw with h | h | h | h
            · exact absurd h h5
            · exact h
            · exact absurd h h7
            · exact absurd h h8
          refine ⟨{ sats := toByte (atoi (fields.getD 6 [])) + 1 }, fun mktime talker he => ?_⟩
          have hsame := congrArg Fix.sats he
          unfold parseFields parseGga at hsame
          dsimp only at hsame
          rw [if_neg (by omega), if_neg h5, if_neg h8, if_neg h7, if_pos h6] at hsame
          exact byte_succ_ne hsame
  | rmc =>
    have hlen : ¬ fields.length < 10 := not_lt.mpr h
    refine ⟨{ fix_received_ms := 1 }, fun mktime talker he => ?_⟩
    have hsame := congrArg Fix.fix_received_ms he
    unfold parseFields parseRmc at hsame
    dsimp only at hsame
    rw [if_neg hlen] at hsame
    split at hsame
    next =>
      dsimp only at hsame
      exact absurd hsame (by decide)
    next =>
      dsimp only at hsame
      exact absurd hsame (by decide)

/-! ### The sums -/

/-- Bytes that are accepted have the sum behind their first asterisk. -/
lemma checked_of_accepts {w : Bytes} (h : accepts w = true) (s : Bytes) : Checked (w ++ s) := by
  obtain ⟨pre, post, rfl, hn⟩ := exists_first (mem_of_accepts h)
  unfold accepts at h
  rw [behind_append hn, before_append hn] at h
  match post, h with
  | x :: y :: post, h => exact ⟨pre, x, y, post ++ s, by simp, h⟩

/-- Without a second dollar sign the two windows have the same sum. -/
lemma accepts_cons (hd : u.head? ≠ some DOLLAR) : accepts (DOLLAR :: u) = accepts u := by
  have hne : DOLLAR ≠ STAR := by decide
  have hbehind : behind STAR (DOLLAR :: u) = behind STAR u := by
    unfold behind
    rw [List.dropWhile_cons_of_pos (by simpa using hne)]
  have hbefore : before STAR (DOLLAR :: u) = DOLLAR :: before STAR u := by
    unfold before
    rw [List.takeWhile_cons_of_pos (by simpa using hne)]
  have hstrip : strip (before STAR u) = before STAR u := by
    refine if_neg fun hc => hd ?_
    cases u with
    | nil => exact hc
    | cons x u =>
      unfold before at hc
      rw [List.takeWhile_cons] at hc
      split at hc
      next => exact hc
      next => exact nomatch hc
  unfold accepts
  rw [hbehind, hbefore, hstrip]
  rfl

/-- A sentence is checked, unless there is a second dollar sign. -/
lemma checked_of_sentence (h : sentenceOf (trim t) = some (kind, fields))
    (hd : (trim t).head? ≠ some DOLLAR) : Checked (DOLLAR :: t) := by
  obtain ⟨e, he⟩ : trim t <+: t := List.rdropWhile_prefix _ _
  have hacc : accepts (DOLLAR :: trim t) = true := by
    unfold sentenceOf at h
    split at h
    next => exact nomatch h
    next hnot =>
      rw [not_or, not_not] at hnot
      cases hnot.1 with
      | inl h => exact h
      | inr h =>
        rw [accepts_cons hd]
        exact h
  have hchecked := checked_of_accepts hacc e
  rwa [List.cons_append, he] at hchecked

/-! ### Lines -/

lemma LineBuf.passed_eq (l : LineBuf) :
    l.passed = (l.content ++ 0 :: l.buf.drop (l.blen + 1), l.content.length) := by
  have hlt : l.blen < l.buf.length := by
    rw [l.length]
    exact l.blen_lt
  have hset : l.buf.set l.blen 0 = l.content ++ 0 :: l.buf.drop (l.blen + 1) :=
    List.set_eq_take_append_cons_drop.trans (if_pos hlt)
  have hlen : l.content.length = l.blen := by
    rw [LineBuf.content, List.length_take]
    omega
  rw [LineBuf.passed, hset, hlen]

/-- A line with its dollar sign. -/
lemma LineBuf.parse (ht : l.content = DOLLAR :: t) : ∃ talker,
    parseLine mktime l.passed.1 l.passed.2 now f g =
      some (parsed mktime talker (trim t) now f g) := by
  rw [l.passed_eq, ht, List.length_cons]
  exact parseLine_dollar

/-- What a line with its dollar sign comes to, of the fix in front of it. -/
lemma Sound.parsed (hs : Sound l) (ht : l.content = DOLLAR :: t) (mktime : Tm → ℤ) (now : UInt32)
    (f : Fix) (g : GsvState) : ∃ talker,
    ((parsed mktime talker (trim t) now f g).fix ≠ f → Checked l.content) ∧
    ((parsed mktime talker (trim t) now f g).sentence = .rmcValid → ∃ fields lat lon,
      sentenceOf (trim t) = some (.rmc, fields) ∧ Located fields lat lon) := by
  obtain ⟨r, hr, hcheck, hvalid, -⟩ := hs mktime now f g
  obtain ⟨talker, hp⟩ := LineBuf.parse (t := t) ht
  rw [hp, Option.some.injEq] at hr
  refine ⟨talker, hr ▸ hcheck, fun hsent => ?_⟩
  rw [hr] at hsent
  obtain ⟨fields, lat, lon, hfields, hloc, -⟩ := hvalid hsent
  rw [ht, List.tail_cons] at hfields
  exact ⟨fields, lat, lon, hfields, hloc⟩

lemma Sound.fine (hs : Sound l) (ht : l.content = DOLLAR :: t) : Fine l.content := by
  have htail : l.content.tail = t := by rw [ht, List.tail_cons]
  refine ⟨by rw [ht]; rfl, fun _ kind fields hsent hw => ?_, fun fields hsent hlen hA => ?_⟩
  · rw [htail] at hsent
    obtain ⟨f, hchanged⟩ := exists_changed hw
    obtain ⟨talker, hcheck, -⟩ := hs.parsed ht (fun _ => 0) 0 f {}
    apply hcheck
    rw [parsed_some hsent]
    exact hchanged _ talker
  · rw [htail] at hsent
    obtain ⟨talker, -, hvalid⟩ := hs.parsed ht (fun _ => 0) 0 {} {}
    rw [parsed_some hsent] at hvalid
    obtain ⟨fields', lat, lon, hsent', hloc⟩ := hvalid (parseFields_rmcValid.mpr ⟨rfl, hlen, hA⟩)
    rw [hsent, Option.some.injEq, Prod.mk.injEq] at hsent'
    rw [hsent'.2]
    exact ⟨lat, lon, hloc⟩

lemma Fine.sound (hf : Fine l.content) (ht : l.content = DOLLAR :: t) : Sound l := by
  intro mktime now f g
  have htail : l.content.tail = t := by rw [ht, List.tail_cons]
  obtain ⟨-, honce, hlocated⟩ := hf
  rw [htail] at honce hlocated ⊢
  obtain ⟨talker, hp⟩ := LineBuf.parse (t := t) ht
  refine ⟨_, hp, ?_⟩
  cases hsent : sentenceOf (trim t) with
  | none =>
    obtain ⟨hfix, hno⟩ := parsed_none hsent
    rw [hfix]
    exact ⟨fun hc => absurd rfl hc, fun hv => absurd hv hno, fun _ => ⟨rfl, rfl, id⟩⟩
  | some sentence =>
    obtain ⟨kind, fields⟩ := sentence
    rw [parsed_some hsent]
    refine ⟨fun hc => ?_, fun hv => ?_, parseFields_keeps⟩
    · have hw : Writes kind fields := by
        by_contra hn
        exact hc (parseFields_of_not_writes hn)
      by_cases hd : (trim t).head? = some DOLLAR
      · exact honce hd kind fields hsent hw
      · rw [ht]
        exact checked_of_sentence hsent hd
    · obtain ⟨rfl, hlen, hA⟩ := parseFields_rmcValid.mp hv
      obtain ⟨lat, lon, hloc⟩ := hlocated fields hsent hlen hA
      exact ⟨fields, lat, lon, rfl, hloc, hloc.parse hlen⟩

/-- **A line may do what it does exactly when it has its dollar sign, is checked where it has two
and something for the fix, and has a position where it is a valid RMC sentence.** -/
theorem line_sound_iff (l : LineBuf) : Sound l ↔ Fine l.content := by
  by_cases hd : l.content.head? = some DOLLAR
  · obtain ⟨t, ht⟩ : ∃ t, l.content = DOLLAR :: t := by
      cases hc : l.content with
      | nil =>
        rw [hc] at hd
        exact nomatch hd
      | cons x t =>
        rw [hc, List.head?_cons, Option.some.injEq] at hd
        exact ⟨t, by rw [hd]⟩
    exact ⟨fun hs => hs.fine ht, fun hf => hf.sound ht⟩
  · refine iff_of_false (fun hs => ?_) fun hf => hd hf.dollar
    obtain ⟨r, hr, -⟩ := hs (fun _ => 0) 0 {} {}
    have hnone : parseLine (fun _ => 0) l.passed.1 l.passed.2 0 {} {} = none := by
      rw [l.passed_eq]
      exact parseLine_none hd
    rw [hnone] at hr
    exact nomatch hr

lemma not_coordinate_nil : ¬ Coordinate n [] q := by
  rintro ⟨deg, m1, m2, frac, -, hs, -⟩
  have hlen := congrArg List.length hs
  have htwo : (text [m1, m2]).length = 2 := rfl
  rw [List.length_append, List.length_append, htwo, List.length_nil] at hlen
  omega

/-- A line of the buffer. -/
def lineOf (s : Bytes) (h : s.length < LINE_SIZE) : LineBuf where
  buf := s ++ List.replicate (LINE_SIZE - s.length) 0
  blen := s.length
  length := by
    rw [List.length_append, List.length_replicate]
    omega
  blen_lt := h

/-- An RMC sentence of status A, without a latitude. -/
def noLatitude : Bytes := "$GPRMC,1,A,,N,00000.0,E,,,,,*32".toList.map Char.toUInt8

/-- A line without a dollar sign is read in front of the buffer, and an RMC sentence without a
latitude is valid at zero degrees. -/
theorem not_sound_lines : ¬ Sound {} ∧ ¬ Sound (lineOf noLatitude (by decide)) := by
  constructor
  · intro hs
    obtain ⟨r, hr, -⟩ := hs (fun _ => 0) 0 {} {}
    exact nomatch hr
  · intro hs
    have hcontent : (lineOf noLatitude (by decide)).content = DOLLAR :: noLatitude.tail := by
      decide +kernel
    have hf := hs.fine hcontent
    obtain ⟨fields, hsent, hlen, hA, hnil⟩ : ∃ fields,
        sentenceOf (trim (lineOf noLatitude (by decide)).content.tail) = some (.rmc, fields) ∧
        10 ≤ fields.length ∧ (fields.getD 1 []).head? = some 'A'.toUInt8 ∧
        fields.getD 2 [] = [] := by
      refine ⟨[['1'.toUInt8], ['A'.toUInt8], [], ['N'.toUInt8],
        "00000.0".toList.map Char.toUInt8, ['E'.toUInt8], [], [], [], [], []], ?_, ?_, ?_, ?_⟩
      · decide +kernel
      · decide
      · decide
      · decide
    obtain ⟨lat, lon, hloc⟩ := hf.located fields hsent hlen hA
    obtain ⟨m, hm, -⟩ := hloc.lat
    rw [hnil] at hm
    exact not_coordinate_nil hm

end URSupreme.Nmea
