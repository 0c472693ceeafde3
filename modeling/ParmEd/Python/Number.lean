import Mathlib.Data.Rat.Floor
import Mathlib.Data.Nat.Digits
import ParmEd.Python.Text
import ParmEd.Python.Exceptions

/-!
# Python floats: conversion and formatting

The parameter files hold decimal numbers, and `FLOATRE` accepts only those. A Python
`float` is modelled by the rational number it was read from: conversion is exact, and the
arithmetic the module does on parsed values (`k / divisor`, `abs`, `rmin1 + rmin2`, the C4
combination) is exact rational arithmetic. Where the code's result turns on the rounding to a
double (`math.sqrt`, a comparison near its bound) the model rounds as the doubles do
(`ParmEd.Python.Double`).

`toFloat?` reads the decimal literals of Python's `float()`. `float()` also reads `inf`,
`infinity` and `nan` in any case, digits with underscores between them and non-ASCII decimal
digits, and returns `inf` for a literal beyond the largest double; `toFloat?` refuses the first
three. A statement that a word is not a float is made for words without them
(`PlainFloatWord`).

The writer's formats are modelled on the exact value: `f'{x:w.pf}'` rounds half to even at
`p` decimals and keeps the sign of a negative value that rounds to zero (Python rounds the
double, so a decimal halfway at `p` decimals, such as `1.0645` at three, can come out the other
way), and `f'{n:wd}'` pads an integer. `str(x)` (`reprFloat`) prints the digits of `x` rounded
to 17 significant digits and stripped of trailing zeros, in exponent form below `1e-4` and from
`1e16` on. Python's `repr` prints the shortest digits that read back to the same double: the
same text for a value of at most 15 significant digits, and fewer digits for some others
(`2 ** 55` is `3.602879701896397e+16`, where `reprFloat` prints seventeen digits).

* `toFloat?_formatFixed`: `float(f'{x:w.pf}')` is `x` again for every `x` with at most `p`
  decimals, so that a field `write` prints at that precision is read back exactly.
-/

namespace ParmEd.Python

/-! ## `float(s)` -/

/-- The number a list of decimal digits spells. -/
def digitsValue (ds : List Char) : Nat := ds.foldl (fun n d => 10 * n + (d.toNat - '0'.toNat)) 0

/-- `10 ^ e` for an integer exponent. -/
def pow10 (e : Int) : ℚ := if 0 ≤ e then (10 : ℚ) ^ e.toNat else 1 / (10 : ℚ) ^ (-e).toNat

/-- The exponent of a float literal after its `e`. -/
def parseExponent : List Char → Option Int
  | '-' :: ds => if !ds.isEmpty && ds.all isDigit then some (-(digitsValue ds : Int)) else none
  | '+' :: ds => if !ds.isEmpty && ds.all isDigit then some (digitsValue ds) else none
  | ds => if !ds.isEmpty && ds.all isDigit then some (digitsValue ds) else none

/-- A mantissa's digits, the number of them after the point, then an optional exponent. -/
def withExponent (mant : List Char) (scale : Nat) : List Char → Option ℚ
  | [] => some (digitsValue mant / 10 ^ scale)
  | e :: es =>
    if e = 'e' || e = 'E' then (parseExponent es).map (digitsValue mant / 10 ^ scale * pow10 ·)
    else none

/-- An unsigned decimal literal: `digits[.digits*]` or `.digits`, then an exponent. -/
def parseUnsigned (l : List Char) : Option ℚ :=
  let ip := l.takeWhile isDigit
  match l.dropWhile isDigit with
  | '.' :: r =>
    let fp := r.takeWhile isDigit
    if ip.isEmpty && fp.isEmpty then none
    else withExponent (ip ++ fp) fp.length (r.dropWhile isDigit)
  | r => if ip.isEmpty then none else withExponent ip 0 r

/-- `float(s)`: `none` stands for the `ValueError` of a string that is not a float. -/
def toFloat? (s : String) : Option ℚ :=
  match (strip s).data with
  | '-' :: r => (parseUnsigned r).map (- ·)
  | '+' :: r => parseUnsigned r
  | r => parseUnsigned r

/-- A word that `float()` reads as `toFloat?` does: ASCII, no underscore, and no letter but the
`e` or `E` of an exponent, so none of `inf`, `nan`, `1_0` or a non-ASCII digit. -/
def PlainFloatWord (w : String) : Prop :=
  ∀ c ∈ w.data, c.toNat < 128 ∧ c ≠ '_' ∧ (c.isAlpha = true → c = 'e' ∨ c = 'E')

instance (w : String) : Decidable (PlainFloatWord w) :=
  inferInstanceAs (Decidable (∀ c ∈ w.data, _))

/-! ## Arithmetic that can raise -/

/-- `x / y` on floats. -/
def floatDiv (x y : ℚ) : Except PyError ℚ :=
  if y = 0 then .error (.zeroDivisionError "float division by zero") else .ok (x / y)

/-- `int(x)`: truncation towards zero. -/
def truncate (x : ℚ) : Int := if x < 0 then -⌊-x⌋ else ⌊x⌋

/-! ## Formatting -/

/-- Rounding half to even of a nonnegative rational. -/
def roundHalfEven (q : ℚ) : Nat :=
  let f := ⌊q⌋
  let r := q - f
  if r < 1 / 2 then f.toNat
  else if 1 / 2 < r then f.toNat + 1
  else if f % 2 = 0 then f.toNat else f.toNat + 1

/-- The decimal digits of a natural number. -/
def decimal (n : Nat) : List Char := Nat.toDigits 10 n

/-- `f'{x:.pf}'` without a width. -/
def fixedDigits (p : Nat) (x : ℚ) : List Char :=
  let ds := decimal (roundHalfEven (|x| * 10 ^ p))
  let ds := List.replicate (p + 1 - ds.length) '0' ++ ds
  let sign := if x < 0 then ['-'] else []
  if p = 0 then sign ++ ds
  else sign ++ ds.take (ds.length - p) ++ '.' :: ds.drop (ds.length - p)

/-- `f'{x:w.pf}'`. -/
def formatFixed (w p : Nat) (x : ℚ) : String := rjust w ⟨fixedDigits p x⟩

/-- `f'{n:wd}'`. -/
def formatInt (w : Nat) (n : Int) : String := rjust w (toString n)

/-- The position of the decimal point of a positive `a`: `10 ^ (k - 1) ≤ a < 10 ^ k`. -/
def decimalPoint (a : ℚ) : Int :=
  if 1 ≤ a then (decimal ⌊a⌋.toNat).length
  else 1 - ((decimal (⌈1 / a⌉.toNat - 1)).length : Int)

/-- The significant digits of a positive `a`, rounded to 17 and without trailing zeros, and the
position of its decimal point. -/
def reprDigits (a : ℚ) : List Char × Int :=
  let k := decimalPoint a
  let n := roundHalfEven (a * pow10 (17 - k))
  if n = 10 ^ 17 then (['1'], k + 1)
  else (((decimal n).reverse.dropWhile (· = '0')).reverse, k)

/-- The two-digit (at least) exponent of Python's `repr`. -/
def reprExponent (e : Int) : List Char :=
  let ds := decimal e.natAbs
  (if e < 0 then '-' else '+') :: (List.replicate (2 - ds.length) '0' ++ ds)

/-- `str(x)` (equal to `repr(x)`) for a float. -/
def reprFloat (x : ℚ) : String :=
  if x = 0 then "0.0" else
  let (ds, k) := reprDigits |x|
  let sign := if x < 0 then ['-'] else []
  if -4 < k ∧ k ≤ 16 then
    if k ≤ 0 then ⟨sign ++ '0' :: '.' :: List.replicate (-k).toNat '0' ++ ds⟩
    else if ds.length ≤ k.toNat then
      ⟨sign ++ ds ++ List.replicate (k.toNat - ds.length) '0' ++ ['.', '0']⟩
    else ⟨sign ++ ds.take k.toNat ++ '.' :: ds.drop k.toNat⟩
  else
    let mant := match ds with
      | d :: [] => [d]
      | d :: rest => d :: '.' :: rest
      | [] => []
    ⟨sign ++ mant ++ 'e' :: reprExponent (k - 1)⟩

/-! ## Reading a printed number back

The digits `f'{x:.pf}'` prints are those of `|x| * 10 ^ p`, padded to `p + 1` digits at least
and cut by the point before the last `p`; `float` reads them back at that scale. -/

theorem digitChar_value : ∀ m < 10, (Nat.digitChar m).toNat - '0'.toNat = m := by decide

theorem isDigit_digitChar : ∀ m < 10, isDigit (Nat.digitChar m) = true := by decide

theorem digitsValue_append_digit (ds : List Char) (d : Char) :
    digitsValue (ds ++ [d]) = 10 * digitsValue ds + (d.toNat - '0'.toNat) := by
  simp [digitsValue, List.foldl_append]

theorem digitsValue_zeros_append (k : Nat) (ds : List Char) :
    digitsValue (List.replicate k '0' ++ ds) = digitsValue ds := by
  have zeros : (List.replicate k '0').foldl (fun n d => 10 * n + (d.toNat - '0'.toNat)) 0 = 0 := by
    induction k with
    | zero => rfl
    | succ k ih => simpa [List.replicate_succ] using ih
  unfold digitsValue
  rw [List.foldl_append, zeros]

theorem toDigitsCore_acc (f n : Nat) (ds : List Char) :
    Nat.toDigitsCore 10 f n ds = Nat.toDigitsCore 10 f n [] ++ ds := by
  induction f generalizing n ds with
  | zero => rfl
  | succ f ih =>
    simp only [Nat.toDigitsCore]
    split
    · rfl
    · rw [ih _ (_ :: ds), ih _ [_]]
      simp

/-- With fuel above `n`, `toDigitsCore` spells `n` in decimal digits. -/
theorem toDigitsCore_spec (f n : Nat) (h : n < f) :
    digitsValue (Nat.toDigitsCore 10 f n []) = n ∧
      ∀ c ∈ Nat.toDigitsCore 10 f n [], isDigit c = true := by
  induction f generalizing n with
  | zero => omega
  | succ f ih =>
    have hm := Nat.mod_lt n (by decide : 10 > 0)
    simp only [Nat.toDigitsCore]
    split
    · refine ⟨?_, by simpa using isDigit_digitChar _ hm⟩
      simp only [digitsValue, List.foldl_cons, List.foldl_nil, digitChar_value _ hm]
      omega
    · obtain ⟨hv, hd⟩ := ih (n / 10) (by omega)
      rw [toDigitsCore_acc, digitsValue_append_digit, hv, digitChar_value _ hm]
      refine ⟨by omega, ?_⟩
      simp only [List.mem_append, List.mem_singleton]
      rintro c (hc | rfl)
      exacts [hd c hc, isDigit_digitChar _ hm]

theorem decimal_spec (n : Nat) :
    digitsValue (decimal n) = n ∧ ∀ c ∈ decimal n, isDigit c = true :=
  toDigitsCore_spec (n + 1) n (Nat.lt_succ_self n)

theorem padded_isDigit (k n : Nat) : ∀ c ∈ List.replicate k '0' ++ decimal n, isDigit c = true := by
  intro c hc
  rcases List.mem_append.1 hc with hc | hc
  · rw [List.eq_of_mem_replicate hc]; rfl
  · exact (decimal_spec n).2 c hc

theorem roundHalfEven_natCast (m : Nat) : roundHalfEven m = m := by
  simp [roundHalfEven]

/-- The text `f'{x:.pf}'`: the sign, then the padded digits of `|x| * 10 ^ p` with the point
before the last `p`. -/
theorem fixedDigits_eq (p : Nat) (x : ℚ) :
    fixedDigits p x = (if x < 0 then ['-'] else []) ++
      let n := roundHalfEven (|x| * 10 ^ p)
      let D := List.replicate (p + 1 - (decimal n).length) '0' ++ decimal n
      if p = 0 then D else D.take (D.length - p) ++ '.' :: D.drop (D.length - p) := by
  unfold fixedDigits
  by_cases hp : p = 0 <;> simp [hp]

section Point

variable (p : Nat) {D : List Char} (hD : ∀ c ∈ D, isDigit c = true)
include hD

theorem point_noSpace :
    ∀ c ∈ (if p = 0 then D else D.take (D.length - p) ++ '.' :: D.drop (D.length - p)),
      isSpace c = false := by
  split
  · exact fun c hc => isSpace_of_isDigit (hD c hc)
  · intro c hc
    simp only [List.mem_append, List.mem_cons] at hc
    rcases hc with hc | rfl | hc
    · exact isSpace_of_isDigit (hD c (List.mem_of_mem_take hc))
    · decide
    · exact isSpace_of_isDigit (hD c (List.mem_of_mem_drop hc))

variable (hlen : p < D.length)
include hlen

theorem point_head :
    ∀ c ∈ (if p = 0 then D else D.take (D.length - p) ++ '.' :: D.drop (D.length - p)).head?,
      isDigit c = true := by
  obtain ⟨d, D', rfl⟩ : ∃ d D', D = d :: D' := List.exists_cons_of_length_pos (by omega)
  have hk : (d :: D').length - p = (D'.length - p) + 1 := by
    simp only [List.length_cons] at hlen ⊢
    omega
  rw [hk]
  intro c hc
  have hc : c = d := by split at hc <;> simpa using hc.symm
  exact hc ▸ hD d (List.mem_cons_self d D')

/-- `float` of digits cut by a point before the last `p`. -/
theorem parseUnsigned_point :
    parseUnsigned (if p = 0 then D else D.take (D.length - p) ++ '.' :: D.drop (D.length - p)) =
      some ((digitsValue D : ℚ) / 10 ^ p) := by
  have hdot : isDigit '.' = false := by decide
  split
  · next hp =>
    subst hp
    have hne : D.isEmpty = false := by cases D <;> simp_all
    simp [parseUnsigned, List.takeWhile_eq_self_iff.2 hD, List.dropWhile_eq_nil_iff.2 hD, hne,
      withExponent]
  · have htake : ∀ c ∈ D.take (D.length - p), isDigit c = true :=
      fun c hc => hD c (List.mem_of_mem_take hc)
    have hdrop : ∀ c ∈ D.drop (D.length - p), isDigit c = true :=
      fun c hc => hD c (List.mem_of_mem_drop hc)
    have hne : (D.take (D.length - p)).isEmpty = false := by
      have hpos : 0 < (D.take (D.length - p)).length := by rw [List.length_take]; omega
      cases ht : D.take (D.length - p) with
      | nil => simp [ht] at hpos
      | cons => rfl
    unfold parseUnsigned
    rw [List.takeWhile_append_of_pos htake, List.takeWhile_cons_of_neg (by simp [hdot]),
      List.append_nil, List.dropWhile_append_of_pos htake,
      List.dropWhile_cons_of_neg (by simp [hdot])]
    simp only [List.takeWhile_eq_self_iff.2 hdrop, List.dropWhile_eq_nil_iff.2 hdrop, hne,
      List.take_append_drop, List.length_drop, Bool.false_and]
    simp [withExponent, Nat.sub_sub_self hlen.le]

end Point

theorem fixedDigits_noSpace (p : Nat) (x : ℚ) : ∀ c ∈ fixedDigits p x, isSpace c = false := by
  rw [fixedDigits_eq]
  intro c hc
  rcases List.mem_append.1 hc with hc | hc
  · split at hc
    · rw [List.mem_singleton.1 hc]; rfl
    · cases hc
  · exact point_noSpace p (padded_isDigit _ _) c hc

theorem fixedDigits_ne_nil (p : Nat) (x : ℚ) : fixedDigits p x ≠ [] := by
  rw [fixedDigits_eq]
  dsimp only
  generalize roundHalfEven (|x| * 10 ^ p) = n
  generalize hD : List.replicate (p + 1 - (decimal n).length) '0' ++ decimal n = D
  have hlen : p < D.length := by rw [← hD, List.length_append, List.length_replicate]; omega
  refine List.append_ne_nil_of_right_ne_nil _ ?_
  split
  · exact List.ne_nil_of_length_pos (by omega)
  · simp

/-- `f'{x:.pf}'` is one word. -/
theorem fixedDigits_word (p : Nat) (x : ℚ) :
    (⟨fixedDigits p x⟩ : String).data ≠ [] ∧
      ∀ c ∈ (⟨fixedDigits p x⟩ : String).data, isSpace c = false :=
  ⟨fixedDigits_ne_nil p x, fixedDigits_noSpace p x⟩

/-- `float(s)` of a text without whitespace that starts with a digit. -/
theorem toFloat?_of_digit_head {l : List Char} (hs : ∀ c ∈ l, isSpace c = false)
    (hh : ∀ c ∈ l.head?, isDigit c = true) : toFloat? ⟨l⟩ = parseUnsigned l := by
  unfold toFloat?
  rw [strip_eq_self hs]
  split
  · next r h =>
    have h : l = '-' :: r := h
    exact absurd (hh '-' (by rw [h]; rfl)) (by decide)
  · next r h =>
    have h : l = '+' :: r := h
    exact absurd (hh '+' (by rw [h]; rfl)) (by decide)
  · rfl

theorem toFloat?_fixedDigits (p : Nat) {x : ℚ} (hx : ∃ n : ℤ, x * 10 ^ p = n) :
    toFloat? ⟨fixedDigits p x⟩ = some x := by
  obtain ⟨n, hn⟩ := hx
  have hm : |x| * 10 ^ p = (n.natAbs : ℚ) := by
    rw [Nat.cast_natAbs, Int.cast_abs, ← hn, abs_mul, abs_of_pos (by positivity : (0 : ℚ) < 10 ^ p)]
  have hs := fixedDigits_noSpace p x
  rw [fixedDigits_eq, hm, roundHalfEven_natCast] at hs ⊢
  dsimp only at hs ⊢
  generalize hD : List.replicate (p + 1 - (decimal n.natAbs).length) '0' ++ decimal n.natAbs = D
    at hs ⊢
  have hdig : ∀ c ∈ D, isDigit c = true := hD ▸ padded_isDigit _ _
  have hlen : p < D.length := by rw [← hD, List.length_append, List.length_replicate]; omega
  have hval : (digitsValue D : ℚ) / 10 ^ p = |x| := by
    rw [← hD, digitsValue_zeros_append, (decimal_spec _).1, ← hm,
      mul_div_cancel_right₀ _ (by positivity)]
  by_cases hx : x < 0
  · rw [if_pos hx, List.singleton_append] at hs ⊢
    unfold toFloat?
    rw [strip_eq_self hs]
    simp only [parseUnsigned_point p hdig hlen, hval, Option.map_some', abs_of_neg hx, neg_neg]
  · rw [if_neg hx, List.nil_append] at hs ⊢
    rw [toFloat?_of_digit_head hs (point_head p hdig hlen), parseUnsigned_point p hdig hlen, hval,
      abs_of_nonneg (not_lt.1 hx)]

theorem toFloat?_rjust (w : Nat) (s : String) : toFloat? (rjust w s) = toFloat? s := by
  unfold toFloat?
  rw [strip_rjust]

/-- **`float(f'{x:w.pf}')` is `x`** for every `x` with at most `p` decimals. -/
theorem toFloat?_formatFixed (w p : Nat) {x : ℚ} (hx : ∃ n : ℤ, x * 10 ^ p = n) :
    toFloat? (formatFixed w p x) = some x := by
  rw [formatFixed, toFloat?_rjust, toFloat?_fixedDigits p hx]

/-- A negative value of three decimals, printed in a field of eight. -/
theorem toFloat?_formatFixed_negative :
    (∃ n : ℤ, (-0.125 : ℚ) * 10 ^ 3 = n) ∧ toFloat? (formatFixed 8 3 (-0.125)) = some (-0.125) :=
  have hx : ∃ n : ℤ, (-0.125 : ℚ) * 10 ^ 3 = n := ⟨-125, by norm_num⟩
  ⟨hx, toFloat?_formatFixed 8 3 hx⟩

end ParmEd.Python
