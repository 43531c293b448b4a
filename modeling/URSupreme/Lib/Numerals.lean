import URSupreme.Lib.Bytes

/-!
# Numbers in texts

`atoi` and `atof` as the C library has them, on byte strings: leading blanks, a sign and what digits
follow; what stands behind is ignored. `atoi` stops at the bounds of 32 bits, and `atof` gives the
exact number, in decimal or hexadecimal, with an exponent, or an infinity or no number.
-/

namespace Lib

/-- The value of a digit. -/
def digitOf (base : ℕ) (c : UInt8) : Option ℕ :=
  let v :=
    if '0'.toUInt8 ≤ c ∧ c ≤ '9'.toUInt8 then c.toNat - 48
    else if 'A'.toUInt8 ≤ c ∧ c ≤ 'F'.toUInt8 then c.toNat - 55
    else if 'a'.toUInt8 ≤ c ∧ c ≤ 'f'.toUInt8 then c.toNat - 87
    else base
  if v < base then some v else none

/-- The digits in front, and what follows. -/
def digits (base : ℕ) : Bytes → List ℕ × Bytes
  | [] => ([], [])
  | c :: s =>
    match digitOf base c with
    | some d => (d :: (digits base s).1, (digits base s).2)
    | none => ([], c :: s)

/-- The number of some digits. -/
def numeral (base : ℕ) (ds : List ℕ) : ℕ := ds.foldl (fun n d => base * n + d) 0

/-- `isspace`. -/
def isSpace (c : UInt8) : Bool := c = ' '.toUInt8 || (9 ≤ c && c ≤ 13)

/-- A sign in front, and what follows. -/
def sign : Bytes → Bool × Bytes
  | [] => (false, [])
  | c :: s =>
    if c = '-'.toUInt8 then (true, s) else if c = '+'.toUInt8 then (false, s) else (false, c :: s)

/-- `atoi`. -/
def atoi (s : Bytes) : ℤ :=
  let (neg, s) := sign (s.dropWhile isSpace)
  let n := numeral 10 (digits 10 s).1
  if neg then -(min n (2 ^ 31) : ℕ) else (min n (2 ^ 31 - 1) : ℕ)

/-- What a floating point number stands for. -/
inductive Number where
  | finite (q : ℚ)
  | inf (neg : Bool)
  | nan
  deriving DecidableEq

/-- The negative of a number. -/
def Number.neg : Number → Number
  | .finite q => .finite (-q)
  | .inf neg => .inf !neg
  | .nan => .nan

/-- The lower case of a letter. -/
def lower (c : UInt8) : UInt8 := if 'A'.toUInt8 ≤ c ∧ c ≤ 'Z'.toUInt8 then c + 32 else c

/-- The digits behind a point, and what follows. -/
def pointDigits (base : ℕ) : Bytes → List ℕ × Bytes
  | [] => ([], [])
  | c :: s => if c = '.'.toUInt8 then digits base s else ([], c :: s)

/-- Digits with a point, and what follows. -/
def mantissa (base : ℕ) (s : Bytes) : Option (ℚ × Bytes) :=
  let (whole, r) := digits base s
  let (frac, r) := pointDigits base r
  if (whole ++ frac).isEmpty then none
  else some ((numeral base (whole ++ frac) : ℚ) / (base : ℚ) ^ frac.length, r)

/-- An exponent behind its mark. -/
def exponent (mark : UInt8) : Bytes → ℤ
  | [] => 0
  | c :: s =>
    if lower c = mark then
      let (neg, s) := sign s
      let n := numeral 10 (digits 10 s).1
      if neg then -n else n
    else 0

/-- Digits behind `0x`. -/
def hexMantissa : Bytes → Option (ℚ × Bytes)
  | c :: x :: s => if c = '0'.toUInt8 ∧ lower x = 'x'.toUInt8 then mantissa 16 s else none
  | _ => none

/-- `atof`. -/
def atof (s : Bytes) : Number :=
  let (neg, s) := sign (s.dropWhile isSpace)
  let signed (q : ℚ) : Number := .finite (if neg then -q else q)
  let word := (s.take 3).map lower
  if word = ['i'.toUInt8, 'n'.toUInt8, 'f'.toUInt8] then .inf neg
  else if word = ['n'.toUInt8, 'a'.toUInt8, 'n'.toUInt8] then .nan
  else
    match hexMantissa s, mantissa 10 s with
    | some (q, r), _ => signed (q * 2 ^ exponent 'p'.toUInt8 r)
    | none, some (q, r) => signed (q * 10 ^ exponent 'e'.toUInt8 r)
    | none, none => .finite 0

/-! ### Plain digits -/

def digit (d : Fin 10) : UInt8 := UInt8.ofNat (48 + d)

/-- A text of decimal digits. -/
def text (ds : List (Fin 10)) : Bytes := ds.map digit

/-- Its number. -/
def value (ds : List (Fin 10)) : ℕ := numeral 10 (ds.map (·.val))

variable {ds : List (Fin 10)} {d : Fin 10} {s : Bytes} {c : UInt8}

lemma text_cons : text (d :: ds) = digit d :: text ds := rfl

lemma digitOf_digit : digitOf 10 (digit d) = some d.val := by
  revert d
  decide

lemma digits_text (hs : ∀ c ∈ s.head?, digitOf 10 c = none) :
    digits 10 (text ds ++ s) = (ds.map (·.val), s) := by
  induction ds with
  | nil =>
    cases s with
    | nil => rfl
    | cons c s => simp [text, digits, hs c rfl]
  | cons d ds ih => simp [text_cons, digits, digitOf_digit, ih]

lemma digits_text_nil : digits 10 (text ds) = (ds.map (·.val), []) := by
  simpa using digits_text (show ∀ c ∈ ([] : Bytes).head?, digitOf 10 c = none by simp)

/-- No blanks stand in front of a digit. -/
lemma dropWhile_digit : (text (d :: ds) ++ s).dropWhile isSpace = text (d :: ds) ++ s := by
  have hd : isSpace (digit d) = false := by
    revert d
    decide
  simp [text_cons, hd]

/-- And no sign. -/
lemma sign_digit : sign (text (d :: ds) ++ s) = (false, text (d :: ds) ++ s) := by
  have hd : digit d ≠ '-'.toUInt8 ∧ digit d ≠ '+'.toUInt8 := by
    revert d
    decide
  rw [text_cons, List.cons_append, sign, if_neg hd.1, if_neg hd.2]

/-- Digits are read as their number. -/
lemma atoi_text : atoi (text ds) = (min (value ds) (2 ^ 31 - 1) : ℕ) := by
  cases ds with
  | nil => rfl
  | cons d ds =>
    have hdrop : (text (d :: ds)).dropWhile isSpace = text (d :: ds) := by
      simpa using dropWhile_digit (s := [])
    have hsign : sign (text (d :: ds)) = (false, text (d :: ds)) := by
      simpa using sign_digit (s := [])
    unfold atoi
    rw [hdrop, hsign]
    dsimp only
    rw [digits_text_nil]
    rfl

/-! ### Decimal fractions -/

/-- A point and digits, or nothing. -/
def fraction (ds : List (Fin 10)) : Bytes := if ds = [] then [] else '.'.toUInt8 :: text ds

variable {base : ℕ} {ns ms : List ℕ} {frac : List (Fin 10)}

lemma numeral_append : numeral base (ns ++ ms) = numeral base ns * base ^ ms.length +
    numeral base ms := by
  have hfold : ∀ n : ℕ, ms.foldl (fun n d => base * n + d) n = n * base ^ ms.length +
      numeral base ms := by
    unfold numeral
    induction ms with
    | nil => simp
    | cons m ms ih =>
      intro n
      rw [List.foldl_cons, List.foldl_cons, ih, ih (base * 0 + m), List.length_cons, pow_succ]
      ring
  rw [numeral, List.foldl_append]
  exact hfold _

lemma pointDigits_fraction : pointDigits 10 (fraction frac) = (frac.map (·.val), []) := by
  unfold fraction
  split
  next h =>
    rw [h]
    rfl
  next => rw [pointDigits, if_pos rfl, digits_text_nil]

lemma mantissa_text : mantissa 10 (text (d :: ds) ++ fraction frac) =
    some ((value (d :: ds) : ℚ) + value frac / 10 ^ frac.length, []) := by
  have hpoint : digitOf 10 '.'.toUInt8 = none := by decide
  have hhead : ∀ c ∈ (fraction frac).head?, digitOf 10 c = none := by
    unfold fraction
    split
    next => simp
    next => simp [hpoint]
  have hpow : (10 : ℚ) ^ frac.length ≠ 0 := by positivity
  have hdiv : ((numeral 10 ((d :: ds).map (·.val) ++ frac.map (·.val)) : ℕ) : ℚ) /
      (10 : ℕ) ^ (frac.map (·.val)).length =
      (value (d :: ds) : ℚ) + value frac / 10 ^ frac.length := by
    rw [numeral_append, List.length_map]
    push_cast
    rw [add_div, mul_div_cancel_right₀ _ hpow]
    rfl
  unfold mantissa
  rw [digits_text hhead]
  dsimp only
  rw [pointDigits_fraction]
  dsimp only
  rw [if_neg (by simp), hdiv]

/-- A digit is no letter. -/
lemma lower_digit : lower (digit d) ≠ 'i'.toUInt8 ∧ lower (digit d) ≠ 'n'.toUInt8 ∧
    lower (digit d) ≠ 'x'.toUInt8 := by
  revert d
  decide

/-- A decimal fraction is read as its number. -/
lemma atof_text : atof (text (d :: ds) ++ fraction frac) =
    .finite ((value (d :: ds) : ℚ) + value frac / 10 ^ frac.length) := by
  have hinf : ((text (d :: ds) ++ fraction frac).take 3).map lower ≠
      ['i'.toUInt8, 'n'.toUInt8, 'f'.toUInt8] := fun h =>
    lower_digit.1 (List.cons.inj h).1
  have hnan : ((text (d :: ds) ++ fraction frac).take 3).map lower ≠
      ['n'.toUInt8, 'a'.toUInt8, 'n'.toUInt8] := fun h =>
    lower_digit.2.1 (List.cons.inj h).1
  have hhex : hexMantissa (text (d :: ds) ++ fraction frac) = none := by
    cases ds with
    | cons e ds =>
      refine if_neg ?_
      rintro ⟨-, hx⟩
      exact lower_digit.2.2 hx
    | nil =>
      unfold fraction
      split
      next => rfl
      next =>
        refine if_neg ?_
        rintro ⟨-, hx⟩
        exact absurd hx (by decide)
  unfold atof
  rw [dropWhile_digit, sign_digit]
  dsimp only
  rw [if_neg hinf, if_neg hnan, hhex, mantissa_text]
  simp [exponent]

end Lib
