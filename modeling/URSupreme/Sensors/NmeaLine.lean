import Mathlib.Data.List.DropRight
import URSupreme.Sensors.Nmea

/-!
# The line as a list

What `parse_line` makes of a line, without its buffer: the sentence behind the dollar sign, the two
sums, and the fields up to the asterisk. Each function on the buffer is one on the bytes of a part
of it, where that part has something in front of it and something behind it.
-/

namespace URSupreme.Nmea
open Lib

/-- The bytes up to the first `c`. -/
def before (c : UInt8) (s : Bytes) : Bytes := s.takeWhile (· ≠ c)

/-- The first `c` and what follows. -/
def behind (c : UInt8) (s : Bytes) : Bytes := s.dropWhile (· ≠ c)

/-- Without the line end. -/
def trim (s : Bytes) : Bytes := s.rdropWhile fun c => c = '\r'.toUInt8 ∨ c = '\n'.toUInt8

/-- Without a leading dollar sign. -/
def strip (s : Bytes) : Bytes := if s.head? = some DOLLAR then s.tail else s

/-- The exclusive or of some bytes. -/
def sum (s : Bytes) : UInt8 := s.foldl (· ^^^ ·) 0

/-- The sum of a window is right. -/
def accepts (w : Bytes) : Bool :=
  match behind STAR w with
  | _ :: h :: l :: _ => digitsOk (sum (strip (before STAR w))) h l
  | _ => false

/-- A sentence in up to `more + 1` parts. -/
def split : ℕ → Bytes → List Bytes
  | 0, s => [s]
  | _ + 1, [] => [[]]
  | more + 1, c :: s =>
    if c = COMMA then [] :: split more s
    else
      match split (more + 1) s with
      | [] => [[c]]
      | part :: parts => (c :: part) :: parts

/-- The fields between the first comma and the asterisk, each up to a zero. -/
def fieldsOf (u : Bytes) : Option (List Bytes) :=
  match behind COMMA (before STAR u) with
  | [] => none
  | _ :: body => some ((split 19 body).map (before 0))

/-- What a sentence behind its dollar sign comes to. -/
def parsed (mktime : Tm → ℤ) (talker : UInt8 × UInt8) (u : Bytes) (now : UInt32) (f : Fix)
    (g : GsvState) : Parsed :=
  if ¬ (accepts (DOLLAR :: u) ∨ accepts u) ∨ u.length < 5 then
    { sentence := .none, fix := f, gsv := g }
  else
    match kindOf (u.getD 2 0) (u.getD 3 0) (u.getD 4 0), fieldsOf u with
    | some kind, some fields => parseFields mktime kind talker fields now f g
    | _, _ => { sentence := .other, fix := f, gsv := g }

variable {a w s u l : Bytes} {b : Bytes} {c x : UInt8} {n k more : ℕ} {cs : UInt8}

/-! ### Parts of the buffer -/

@[simp] lemma peek_append : peek (a ++ x :: s) a.length = some x := by
  simp [peek]

lemma peek_of_lt (h : i < b.length) : ∃ x, peek b i = some x := by
  refine ⟨b[i], ?_⟩
  simp [peek, h]

lemma poke_append : poke (a ++ x :: s) a.length c = some (a ++ c :: s) := by
  simp [poke]

lemma peek_head (hx : w.head? = some x) : peek (a ++ w ++ s) a.length = some x := by
  cases w with
  | nil => exact nomatch hx
  | cons y w =>
    rw [List.head?_cons, Option.some.injEq] at hx
    rw [hx, List.append_assoc, List.cons_append]
    exact peek_append

/-- The next byte of a part is the first of a smaller one. -/
lemma shift : a ++ (x :: w) ++ s = (a ++ [x]) ++ w ++ s := by simp

lemma shift_length : ((a ++ [x]).length : ℤ) = a.length + 1 := by simp

lemma before_append (h : c ∉ w) : before c (w ++ c :: s) = w := by
  unfold before
  rw [List.takeWhile_append_of_pos (by
    intro y hy
    have hne : y ≠ c := fun hc => h (hc ▸ hy)
    simpa using hne)]
  simp

lemma behind_append (h : c ∉ w) : behind c (w ++ c :: s) = c :: s := by
  unfold behind
  rw [List.dropWhile_append_of_pos (by
    intro y hy
    have hne : y ≠ c := fun hc => h (hc ▸ hy)
    simpa using hne)]
  simp

lemma behind_of_not_mem (h : c ∉ w) : behind c w = [] := by
  unfold behind
  rw [List.dropWhile_eq_nil_iff]
  intro y hy
  have hne : y ≠ c := fun hc => h (hc ▸ hy)
  simpa using hne

/-- A byte that is there splits the part where it is first. -/
lemma exists_first (h : c ∈ w) : ∃ pre post, w = pre ++ c :: post ∧ c ∉ pre := by
  induction w with
  | nil => exact nomatch h
  | cons y w ih =>
    by_cases hy : y = c
    · exact ⟨[], w, by rw [hy]; rfl, List.not_mem_nil⟩
    · obtain ⟨pre, post, rfl, hn⟩ := ih ((List.mem_cons.mp h).resolve_left (Ne.symm hy))
      refine ⟨y :: pre, post, rfl, ?_⟩
      rw [List.mem_cons, not_or]
      exact ⟨Ne.symm hy, hn⟩

/-! ### The functions on the buffer -/

lemma memchr_none (h : c ∉ w) : memchr (a ++ w ++ s) a.length c w.length = some none := by
  induction w generalizing a with
  | nil => rfl
  | cons x w ih =>
    rw [List.mem_cons, not_or] at h
    have hpeek : peek (a ++ x :: w ++ s) a.length = some x := peek_head rfl
    have hrest := ih (a := a ++ [x]) h.2
    rw [← shift, shift_length] at hrest
    rw [List.length_cons, memchr, hpeek]
    show (if x = c then _ else _) = _
    rw [if_neg (Ne.symm h.1)]
    exact hrest

lemma memchr_first {pre post : Bytes} (h : c ∉ pre) :
    memchr (a ++ (pre ++ c :: post) ++ s) a.length c (pre ++ c :: post).length =
      some (some (a.length + pre.length : ℤ)) := by
  induction pre generalizing a with
  | nil =>
    have hpeek : peek (a ++ (c :: post) ++ s) a.length = some c := peek_head rfl
    rw [List.nil_append, List.length_cons, memchr, hpeek]
    show (if c = c then _ else _) = _
    rw [if_pos rfl]
    simp
  | cons x pre ih =>
    rw [List.mem_cons, not_or] at h
    have hpeek : peek (a ++ (x :: pre ++ c :: post) ++ s) a.length = some x := peek_head rfl
    have hrest := ih (a := a ++ [x]) h.2
    rw [← shift, shift_length] at hrest
    rw [List.cons_append] at hpeek ⊢
    rw [List.length_cons, memchr, hpeek]
    show (if x = c then _ else _) = _
    rw [if_neg (Ne.symm h.1), hrest, List.length_cons]
    push_cast
    ring_nf

lemma xorAt_append : xorAt (a ++ w ++ s) a.length w.length cs =
    some (w.foldl (· ^^^ ·) cs) := by
  induction w generalizing a cs with
  | nil => rfl
  | cons x w ih =>
    have hpeek : peek (a ++ x :: w ++ s) a.length = some x := peek_head rfl
    have hrest : xorAt (a ++ [x] ++ w ++ s) (a ++ [x]).length w.length (cs ^^^ x) =
        some (w.foldl (· ^^^ ·) (cs ^^^ x)) := ih
    rw [← shift, shift_length] at hrest
    rw [List.length_cons, xorAt, hpeek]
    exact hrest

lemma trimEnd_append : trimEnd (a ++ w ++ s) a.length w.length = some (trim w).length := by
  induction w using List.reverseRecOn generalizing s with
  | nil => rfl
  | append_singleton w x ih =>
    have hpeek : peek (a ++ (w ++ [x]) ++ s) (a.length + w.length) = some x := by
      have h := peek_append (a := a ++ w) (x := x) (s := s)
      rw [List.length_append, Nat.cast_add] at h
      rw [← h]
      congr 1
      simp
    have hrest := ih (s := x :: s)
    rw [List.length_append, List.length_singleton, trimEnd, hpeek, trim, List.rdropWhile_concat]
    have hsame : a ++ (w ++ [x]) ++ s = a ++ w ++ x :: s := by simp
    rw [hsame]
    show (if x = '\r'.toUInt8 ∨ x = '\n'.toUInt8 then _ else _) = _
    by_cases hx : x = '\r'.toUInt8 ∨ x = '\n'.toUInt8
    · rw [if_pos hx, if_pos (by simpa using hx)]
      exact hrest
    · rw [if_neg hx, if_neg (by simpa using hx)]
      simp

lemma peek_add {pre post : Bytes} : peek (a ++ (pre ++ x :: post) ++ s) (a.length + pre.length) =
    some x := by
  have h := peek_append (a := a ++ pre) (x := x) (s := post ++ s)
  rw [List.length_append, Nat.cast_add] at h
  rw [← h]
  congr 1
  simp

/-- The sum of the bytes in front of the asterisk. -/
lemma xorAt_strip {pre post : Bytes} (hx : (pre ++ STAR :: post).head? = some x) :
    xorAt (a ++ (pre ++ STAR :: post) ++ s) (if x = DOLLAR then (a.length : ℤ) + 1 else a.length)
      ((a.length + pre.length : ℤ) - if x = DOLLAR then (a.length : ℤ) + 1 else a.length).toNat 0 =
    some (sum (strip pre)) := by
  have hstar : STAR ≠ DOLLAR := by decide
  by_cases hd : x = DOLLAR
  · cases pre with
    | nil =>
      rw [List.nil_append, List.head?_cons, Option.some.injEq] at hx
      exact absurd (hx.trans hd) hstar
    | cons y pre =>
      rw [List.cons_append, List.head?_cons, Option.some.injEq] at hx
      have hlen : ((a.length + (y :: pre).length : ℤ) - ((a.length : ℤ) + 1)).toNat =
          pre.length := by
        rw [List.length_cons]
        push_cast
        omega
      have hxor : xorAt (a ++ [y] ++ pre ++ (STAR :: post ++ s)) (a ++ [y]).length pre.length 0 =
          some (pre.foldl (· ^^^ ·) 0) := xorAt_append
      rw [shift_length] at hxor
      rw [if_pos hd, hlen]
      have hbuf : a ++ (y :: pre ++ STAR :: post) ++ s = a ++ [y] ++ pre ++
        (STAR :: post ++ s) := by
        simp
      rw [hbuf, hxor, strip, if_pos (by rw [List.head?_cons, hx, hd])]
      rfl
  · have hlen : ((a.length + pre.length : ℤ) - a.length).toNat = pre.length := by omega
    have hbuf : a ++ (pre ++ STAR :: post) ++ s = a ++ pre ++ (STAR :: post ++ s) := by simp
    rw [if_neg hd, hlen, hbuf, xorAt_append, strip, if_neg]
    · rfl
    · intro hc
      cases pre with
      | nil => exact nomatch hc
      | cons y pre =>
        rw [List.cons_append, List.head?_cons, Option.some.injEq] at hx
        rw [List.head?_cons, Option.some.injEq] at hc
        exact hd (hx.symm.trans hc)

/-- A window is accepted when its sum is right. -/
lemma checksumOk_append : checksumOk (a ++ w ++ s) a.length w.length = some (accepts w) := by
  by_cases hm : STAR ∈ w
  · obtain ⟨pre, post, rfl, hn⟩ := exists_first hm
    unfold checksumOk accepts
    rw [memchr_first hn, behind_append hn, before_append hn]
    dsimp only [Option.bind_eq_bind, Option.bind_some]
    match post with
    | [] =>
      rw [if_pos (by simp; omega)]
    | [h] =>
      rw [if_pos (by simp; omega)]
    | h :: l :: post =>
      obtain ⟨x, hx⟩ : ∃ x, (pre ++ STAR :: h :: l :: post).head? = some x := by
        cases pre with
        | nil => exact ⟨STAR, rfl⟩
        | cons y pre => exact ⟨y, rfl⟩
      have hh : peek (a ++ (pre ++ STAR :: h :: l :: post) ++ s)
          (a.length + pre.length + 1 : ℤ) = some h := by
        have hadd : peek (a ++ ((pre ++ [STAR]) ++ h :: l :: post) ++ s)
          (a.length + (pre ++ [STAR]).length) = some h := peek_add
        simpa [add_assoc] using hadd
      have hl : peek (a ++ (pre ++ STAR :: h :: l :: post) ++ s)
          (a.length + pre.length + 2 : ℤ) = some l := by
        have hadd : peek (a ++ ((pre ++ [STAR, h]) ++ l :: post) ++ s)
          (a.length + (pre ++ [STAR, h]).length) = some l := peek_add
        simpa [add_assoc] using hadd
      have hlen : ¬ ((a.length + pre.length : ℤ) + 3 >
          a.length + (pre ++ STAR :: h :: l :: post).length) := by
        simp
        omega
      rw [if_neg hlen, peek_head hx]
      dsimp only [Option.bind_some]
      rw [xorAt_strip hx, hh, hl]
      rfl
  · unfold checksumOk accepts
    rw [memchr_none hm, behind_of_not_mem hm]
    rfl

/-! ### The fields -/

lemma cstr_append : cstr (a ++ w ++ 0 :: s) a.length = some (before 0 (w ++ 0 :: s)) := by
  have hdrop : (a ++ w ++ 0 :: s).drop a.length = w ++ 0 :: s := by simp
  unfold cstr
  rw [Int.toNat_natCast, hdrop, if_pos ⟨by omega, by simp⟩]
  rfl

lemma before_zero : before 0 (w ++ 0 :: s) = before 0 w := by
  induction w with
  | nil => rfl
  | cons x w ih =>
    unfold before at ih ⊢
    rw [List.cons_append, List.takeWhile_cons, List.takeWhile_cons, ih]

/-- The loop overwrites the commas and keeps where the parts begin: each of them is read up to its
zero, and so is the rest of the part that the loop is in. -/
lemma splitLoop_append {max_fields : ℕ} {fields : List ℤ}
    (hmax : fields.length + more = max_fields) :
    ∃ w' starts part parts,
      splitLoop max_fields w.length a.length (a ++ w ++ 0 :: s) fields =
        some (a ++ w' ++ 0 :: s, fields ++ starts) ∧
      w'.length = w.length ∧ split more w = part :: parts ∧
      before 0 (w' ++ 0 :: s) = before 0 part ∧
      starts.mapM (cstr (a ++ w' ++ 0 :: s)) = some (parts.map (before 0)) := by
  induction w generalizing a fields more with
  | nil =>
    refine ⟨[], [], [], [], ?_, rfl, ?_, ?_, rfl⟩
    · simp [splitLoop]
    · cases more with
      | zero => rfl
      | succ more => rfl
    · rfl
  | cons x w ih =>
    rw [List.length_cons, splitLoop]
    cases more with
    | zero =>
      refine ⟨x :: w, [], x :: w, [], ?_, List.length_cons, rfl, before_zero, rfl⟩
      rw [if_neg (by omega), List.append_nil]
    | succ more =>
      have hpeek : peek (a ++ x :: w ++ 0 :: s) a.length = some x := peek_head rfl
      rw [if_pos (by omega), hpeek]
      dsimp only [Option.bind_eq_bind, Option.bind_some]
      by_cases hx : x = COMMA
      · have hpoke : poke (a ++ x :: w ++ 0 :: s) a.length 0 = some (a ++ [0] ++ w ++ 0 :: s) := by
          rw [List.append_assoc, List.cons_append, poke_append]
          simp
        obtain ⟨w', starts, part, parts, hloop, hlen, hsplit, hpart, hparts⟩ :=
          @ih (a ++ [0]) more (fields ++ [(a.length : ℤ) + 1]) (by
            rw [List.length_append, List.length_singleton]
            omega)
        refine ⟨0 :: w', ((a.length : ℤ) + 1) :: starts, [], part :: parts, ?_, ?_, ?_, ?_, ?_⟩
        · rw [if_pos hx, hpoke]
          dsimp only [Option.bind_some]
          rw [shift_length] at hloop
          rw [hloop]
          simp
        · rw [List.length_cons, hlen]
        · rw [split, if_pos hx, hsplit]
        · rfl
        · have hcstr := cstr_append (a := a ++ [0]) (w := w') (s := s)
          rw [shift_length, hpart] at hcstr
          have hbuf : a ++ 0 :: w' ++ 0 :: s = a ++ [0] ++ w' ++ 0 :: s := by simp
          rw [hbuf, List.mapM_cons, hcstr, hparts]
          rfl
      · obtain ⟨w', starts, part, parts, hloop, hlen, hsplit, hpart, hparts⟩ :=
          @ih (a ++ [x]) (more + 1) fields hmax
        have hbuf : a ++ x :: w' ++ 0 :: s = a ++ [x] ++ w' ++ 0 :: s := by simp
        refine ⟨x :: w', starts, x :: part, parts, ?_, ?_, ?_, ?_, ?_⟩
        · rw [if_neg hx, hbuf, shift]
          rw [shift_length] at hloop
          exact hloop
        · rw [List.length_cons, hlen]
        · rw [split, if_neg hx, hsplit]
        · rw [List.cons_append]
          unfold before at hpart ⊢
          rw [List.takeWhile_cons, List.takeWhile_cons, hpart]
        · rw [hbuf]
          exact hparts

/-- The fields of a part, as strings. -/
lemma splitFields_append : ∃ b starts,
    splitFields (a ++ w ++ 0 :: s) a.length w.length 20 = some (b, starts) ∧
      b.length = (a ++ w ++ 0 :: s).length ∧
      starts.mapM (cstr b) = some ((split 19 w).map (before 0)) := by
  obtain ⟨w', starts, part, parts, hloop, hlen, hsplit, hpart, hparts⟩ :=
    splitLoop_append (a := a) (w := w) (s := s) (show [(a.length : ℤ)].length + 19 = 20 from rfl)
  refine ⟨_, _, hloop, ?_, ?_⟩
  · simp [hlen]
  · rw [List.singleton_append, List.mapM_cons, cstr_append, hpart, hparts, hsplit]
    rfl

/-! ### The line -/

lemma mem_of_accepts (h : accepts w = true) : STAR ∈ w := by
  by_contra hn
  unfold accepts at h
  rw [behind_of_not_mem hn] at h
  exact Bool.noConfusion h

lemma peek_getD (h : k < w.length) :
    peek (a ++ w ++ s) (a.length + k) = some (w.getD k 0) := by
  have hdrop : w = w.take k ++ w[k] :: w.drop (k + 1) := by
    rw [← List.drop_eq_getElem_cons h, List.take_append_drop]
  have hadd : peek (a ++ (w.take k ++ w[k] :: w.drop (k + 1)) ++ s)
      (a.length + (w.take k).length) = some w[k] := peek_add
  rw [← hdrop, List.length_take, min_eq_left (by omega)] at hadd
  rw [hadd]
  simp [h]

/-- Behind the sums: the fields of the sentence, and what they come to. -/
lemma parseBody_dollar {mktime : Tm → ℤ} {now : UInt32} {f : Fix} {g : GsvState} {kind : Kind}
    {pre post : Bytes} (hn : STAR ∉ pre) : ∃ talker,
    parseBody mktime kind (DOLLAR :: (pre ++ STAR :: post) ++ s) 1 (pre ++ STAR :: post).length now
      f g = some (match fieldsOf (pre ++ STAR :: post) with
        | some fields => parseFields mktime kind talker fields now f g
        | none => { sentence := .other, fix := f, gsv := g }) := by
  have hstar : memchr (DOLLAR :: (pre ++ STAR :: post) ++ s) 1 STAR (pre ++ STAR :: post).length =
      some (some (1 + pre.length : ℤ)) := memchr_first (a := [DOLLAR]) hn
  have hpoke : poke (DOLLAR :: (pre ++ STAR :: post) ++ s) (1 + pre.length : ℤ) 0 =
      some ([DOLLAR] ++ pre ++ 0 :: (post ++ s)) := by
    have h := poke_append (a := [DOLLAR] ++ pre) (x := STAR) (s := post ++ s) (c := 0)
    rw [List.length_append, Nat.cast_add] at h
    rw [← h]
    simp [poke]
  have hcut : cutStar (DOLLAR :: (pre ++ STAR :: post) ++ s) 1 (pre ++ STAR :: post).length =
      some ([DOLLAR] ++ pre ++ 0 :: (post ++ s), pre.length) := by
    have hlen : (1 + pre.length - 1 : ℤ).toNat = pre.length := by omega
    rw [cutStar, hstar]
    dsimp only [Option.bind_some]
    rw [hpoke, hlen]
    rfl
  unfold parseBody fieldsOf
  rw [hcut, before_append hn]
  dsimp only [Option.bind_eq_bind, Option.bind_some]
  by_cases hm : COMMA ∈ pre
  · obtain ⟨q, body, rfl, hq⟩ := exists_first hm
    have hcomma : memchr ([DOLLAR] ++ (q ++ COMMA :: body) ++ 0 :: (post ++ s)) 1 COMMA
        (q ++ COMMA :: body).length = some (some (1 + q.length : ℤ)) :=
      memchr_first (a := [DOLLAR]) hq
    have hbuf : [DOLLAR] ++ (q ++ COMMA :: body) ++ 0 :: (post ++ s) =
        (DOLLAR :: q ++ [COMMA]) ++ body ++ 0 :: (post ++ s) := by simp
    have hptr : (1 + q.length + 1 : ℤ) = ((DOLLAR :: q ++ [COMMA]).length : ℤ) := by
      simp
      ring
    have hrest : (q ++ COMMA :: body).length -
      ((1 + q.length + 1 : ℤ) - 1).toNat = body.length := by
      simp
      omega
    obtain ⟨b, starts, hsplit, hblen, hfields⟩ :=
      splitFields_append (a := DOLLAR :: q ++ [COMMA]) (w := body) (s := post ++ s)
    have htwo : 2 < b.length := by
      rw [hblen]
      simp
      omega
    obtain ⟨t0, ht0⟩ := peek_of_lt (show 1 < b.length by omega)
    obtain ⟨t1, ht1⟩ := peek_of_lt htwo
    have ht0 : peek b 1 = some t0 := ht0
    have ht1 : peek b (1 + 1) = some t1 := ht1
    refine ⟨(t0, t1), ?_⟩
    rw [hcomma, behind_append hq]
    dsimp only [Option.bind_some]
    rw [hrest, hbuf, hptr, hsplit]
    dsimp only [Option.bind_some]
    rw [hfields, ht0, ht1]
    rfl
  · have hcomma : memchr ([DOLLAR] ++ pre ++ 0 :: (post ++ s)) 1 COMMA pre.length = some none :=
      memchr_none (a := [DOLLAR]) hm
    rw [hcomma, behind_of_not_mem hm]
    exact ⟨(0, 0), rfl⟩

/-- **A line with a dollar sign is parsed inside its buffer, as the list that it is.** -/
lemma parseLine_dollar {mktime : Tm → ℤ} {now : UInt32} {f : Fix} {g : GsvState} {t : Bytes} :
    ∃ talker, parseLine mktime (DOLLAR :: t ++ s) (t.length + 1) now f g =
      some (parsed mktime talker (trim t) now f g) := by
  obtain ⟨e, he⟩ : trim t <+: t := List.rdropWhile_prefix _ _
  have htrim : trimEnd (DOLLAR :: t ++ s) 1 t.length = some (trim t).length :=
    trimEnd_append (a := [DOLLAR])
  generalize hu : trim t = u at he htrim
  have hbuf : DOLLAR :: t ++ s = DOLLAR :: u ++ (e ++ s) := by
    rw [← he]
    simp
  have hfirst : checksumOk (DOLLAR :: u ++ (e ++ s)) (1 - 1) (u.length + 1) =
      some (accepts (DOLLAR :: u)) := checksumOk_append (a := [])
  have hsecond : checksumOk (DOLLAR :: u ++ (e ++ s)) 1 u.length = some (accepts u) :=
    checksumOk_append (a := [DOLLAR])
  have hok : eitherOk (DOLLAR :: u ++ (e ++ s)) 1 u.length =
      some (accepts (DOLLAR :: u) || accepts u) := by
    rw [eitherOk, hfirst, hsecond]
    cases accepts (DOLLAR :: u) with
    | true => rfl
    | false => rfl
  have hdollar : hasDollar (DOLLAR :: t ++ s) (t.length + 1) = some true := rfl
  unfold parseLine
  rw [hdollar]
  dsimp only [Option.bind_eq_bind, Option.bind_some]
  rw [if_pos rfl, if_pos rfl, Nat.add_sub_cancel, htrim]
  dsimp only [Option.bind_some]
  rw [hbuf, hok]
  dsimp only [Option.bind_some]
  unfold parsed
  by_cases hnot : ¬ (accepts (DOLLAR :: u) ∨ accepts u) ∨ u.length < 5
  · rw [if_pos (by simpa using hnot)]
    exact ⟨(0, 0), congrArg some (if_pos hnot).symm⟩
  · rw [if_neg (by simpa using hnot)]
    have hyes := hnot
    rw [not_or, not_not, not_lt] at hyes
    obtain ⟨hacc, hlen⟩ := hyes
    have hpeek : ∀ k : ℕ, k < 5 → peek (DOLLAR :: u ++ (e ++ s)) (1 + k) = some (u.getD k 0) :=
      fun k hk => peek_getD (a := [DOLLAR]) (by omega)
    rw [show (1 + 2 : ℤ) = 1 + (2 : ℕ) from rfl, show (1 + 3 : ℤ) = 1 + (3 : ℕ) from rfl,
      show (1 + 4 : ℤ) = 1 + (4 : ℕ) from rfl, hpeek 2 (by omega), hpeek 3 (by omega),
      hpeek 4 (by omega)]
    dsimp only [Option.bind_some]
    have hmem : STAR ∈ u := by
      cases hacc with
      | inl h => exact (List.mem_cons.mp (mem_of_accepts h)).resolve_left (by decide)
      | inr h => exact mem_of_accepts h
    obtain ⟨pre, post, rfl, hn⟩ := exists_first hmem
    cases hkind : kindOf ((pre ++ STAR :: post).getD 2 0) ((pre ++ STAR :: post).getD 3 0)
        ((pre ++ STAR :: post).getD 4 0) with
    | none =>
      refine ⟨(0, 0), congrArg some ?_⟩
      rw [if_neg hnot]
    | some kind =>
      obtain ⟨talker, hbody⟩ : ∃ talker, parseBody mktime kind
          (DOLLAR :: (pre ++ STAR :: post) ++ (e ++ s)) 1 (pre ++ STAR :: post).length now f g =
          some (match fieldsOf (pre ++ STAR :: post) with
            | some fields => parseFields mktime kind talker fields now f g
            | none => { sentence := .other, fix := f, gsv := g }) := parseBody_dollar hn
      refine ⟨talker, hbody.trans (congrArg some ?_)⟩
      rw [if_neg hnot]
      cases fieldsOf (pre ++ STAR :: post) with
      | none => rfl
      | some fields => rfl

/-- A line without one is read in front of its buffer. -/
lemma parseLine_none {mktime : Tm → ℤ} {now : UInt32} {f : Fix} {g : GsvState}
    (h : w.head? ≠ some DOLLAR) : parseLine mktime (w ++ s) w.length now f g = none := by
  have hdollar : hasDollar (w ++ s) w.length = some false := by
    unfold hasDollar
    split
    next => rfl
    next hne =>
      obtain ⟨x, hx⟩ : ∃ x, w.head? = some x := by
        cases w with
        | nil => exact absurd rfl hne
        | cons x w => exact ⟨x, rfl⟩
      have hpeek : peek (w ++ s) 0 = some x := peek_head (a := []) hx
      rw [hpeek]
      rw [hx, ne_eq, Option.some.injEq] at h
      simp [h]
  have htrim : trimEnd (w ++ s) 0 w.length = some (trim w).length := trimEnd_append (a := [])
  have hout : ∀ len, checksumOk (w ++ s) (0 - 1) (len + 1) = none := fun _ => rfl
  unfold parseLine
  rw [hdollar]
  dsimp only [Option.bind_eq_bind, Option.bind_some]
  rw [if_neg Bool.false_ne_true, if_neg Bool.false_ne_true, htrim]
  dsimp only [Option.bind_some]
  rw [eitherOk, hout]
  rfl

end URSupreme.Nmea
