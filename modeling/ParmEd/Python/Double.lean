import Mathlib.Data.Nat.Sqrt
import ParmEd.Python.Repr

/-!
# Doubles

A Python `float` is an IEEE 754 double. The model reads and computes with floats as the exact
rationals they are written as (`ParmEd.Python.Number`); where the code's result turns on the
rounding to a double, the model rounds as the double arithmetic does.

* `roundDouble x` is the double nearest to `x`, ties to even, for magnitudes below `2 ^ 1024`
  (above, Python has `inf`): it is within `|x| / 2 ^ 53` of `x`, or within `2 ^ -1075` among
  the subnormals (`abs_roundDouble_sub_le`).
* `sqrtDouble x` is the double nearest to `√x`: an integer `n` of 53 bits (or `2 ^ 53`) times
  `2 ^ e` with `√x` within `2 ^ e / 2` of it (`sqrtDouble_spec`). That is what `math.sqrt`
  returns, IEEE 754 asking for the square root correctly rounded.

Both find the binary exponent of a rational (`binade_spec`) from the lengths of its numerator
and denominator (`bitLength_bounds`), by recursions that `rfl` and `decide` evaluate.

* `reprFloat_shortest`: a value of at most fifteen significant digits is the only such decimal
  with its double, so that Python's `repr`, which prints the shortest decimal of a double,
  prints its digits, as `reprFloat` does. Two such decimals lie a step of their grid apart,
  more than the rounding error of both (`roundDouble_ne_of_grid`).
-/

namespace ParmEd.Python

/-! ## Powers of two and the binary exponent -/

/-- `2 ^ e` for an integer exponent. -/
def pow2 (e : Int) : ℚ := if 0 ≤ e then (2 : ℚ) ^ e.toNat else 1 / (2 : ℚ) ^ (-e).toNat

theorem pow2_eq_zpow (e : Int) : pow2 e = (2 : ℚ) ^ e := by
  unfold pow2
  split
  · next h => rw [← zpow_natCast, Int.toNat_of_nonneg h]
  · next h => rw [one_div, ← zpow_natCast, ← zpow_neg, Int.toNat_of_nonneg (by omega), neg_neg]

theorem pow2_pos (e : Int) : 0 < pow2 e := pow2_eq_zpow e ▸ zpow_pos two_pos e

theorem pow2_add (a b : Int) : pow2 (a + b) = pow2 a * pow2 b := by
  simp only [pow2_eq_zpow, zpow_add₀ (two_ne_zero : (2 : ℚ) ≠ 0)]

theorem pow2_neg_one : pow2 (-1) = 1 / 2 := by norm_num [pow2]

theorem pow2_neg (n : Nat) : pow2 (-n) = 1 / 2 ^ n := by
  rw [pow2_eq_zpow, zpow_neg, zpow_natCast, one_div]

theorem pow2_sub_one (e : Int) : pow2 (e - 1) = pow2 e / 2 := by
  rw [sub_eq_add_neg, pow2_add, pow2_neg_one, mul_one_div]

theorem pow2_le_pow2 {a b : Int} (h : a ≤ b) : pow2 a ≤ pow2 b := by
  simp only [pow2_eq_zpow]
  exact zpow_le_zpow_right₀ one_le_two h

theorem pow2_natCast (n : Nat) : pow2 n = 2 ^ n := by
  rw [pow2_eq_zpow, zpow_natCast]

/-- The number of binary digits of `n`, by halving it (`fuel` bounds the halvings). -/
def bitLengthGo : Nat → Nat → Nat
  | 0, _ => 0
  | fuel + 1, n => if n = 0 then 0 else bitLengthGo fuel (n / 2) + 1

/-- The number of binary digits of `n`. -/
def bitLength (n : Nat) : Nat := bitLengthGo n n

theorem bitLengthGo_zero (fuel : Nat) : bitLengthGo fuel 0 = 0 := by
  cases fuel <;> rfl

theorem bitLengthGo_bounds {fuel n : Nat} (h : n ≤ fuel) :
    n < 2 ^ bitLengthGo fuel n ∧ (0 < n → 2 ^ bitLengthGo fuel n ≤ 2 * n) := by
  induction fuel generalizing n with
  | zero =>
    obtain rfl : n = 0 := by omega
    simp [bitLengthGo]
  | succ fuel ih =>
    rcases Nat.eq_zero_or_pos n with rfl | hn
    · simp [bitLengthGo]
    · obtain ⟨h₁, h₂⟩ := ih (n := n / 2) (by omega)
      rw [bitLengthGo, if_neg hn.ne', pow_succ]
      refine ⟨by omega, fun _ => ?_⟩
      rcases Nat.eq_zero_or_pos (n / 2) with h0 | h0
      · rw [h0, bitLengthGo_zero]
        omega
      · have := h₂ h0
        omega

/-- A positive `n` lies in `[2 ^ (b - 1), 2 ^ b)` for `b` its number of binary digits. -/
theorem bitLength_bounds {n : Nat} (hn : 0 < n) : n < 2 ^ bitLength n ∧ 2 ^ bitLength n ≤ 2 * n :=
  ⟨(bitLengthGo_bounds le_rfl).1, (bitLengthGo_bounds le_rfl).2 hn⟩

/-- The binary exponent `b` of a positive `a`, `2 ^ b ≤ a < 2 ^ (b + 1)`: from the lengths of
its numerator and denominator, `a` lies strictly between `2 ^ (L - 1)` and `2 ^ (L + 1)`. -/
def binade (a : ℚ) : Int :=
  let L : Int := (bitLength a.num.toNat : Int) - bitLength a.den
  if pow2 L ≤ a then L else L - 1

theorem binade_spec {a : ℚ} (ha : 0 < a) : pow2 (binade a) ≤ a ∧ a < pow2 (binade a + 1) := by
  have hnum : 0 < a.num := Rat.num_pos.2 ha
  have hp : 0 < a.num.toNat := by omega
  have ha' : a = (a.num.toNat : ℚ) / a.den := by
    have hc : ((a.num.toNat : ℕ) : ℚ) = (a.num : ℚ) := by
      exact_mod_cast Int.toNat_of_nonneg hnum.le
    rw [hc]
    exact (Rat.num_div_den a).symm
  obtain ⟨hp₁, hp₂⟩ := bitLength_bounds hp
  obtain ⟨hd₁, hd₂⟩ := bitLength_bounds a.den_pos
  set p := a.num.toNat
  set d := a.den
  set lp := bitLength p
  set ld := bitLength d
  have hpow : ∀ k : Int, pow2 ((lp : Int) - ld + k) = 2 ^ lp * pow2 k / 2 ^ ld := fun k => by
    rw [pow2_add, sub_eq_add_neg, pow2_add, ← pow2_natCast, ← pow2_natCast, pow2_eq_zpow (-_),
      zpow_neg, pow2_eq_zpow ld, mul_assoc, mul_comm (_⁻¹), ← mul_assoc, div_eq_mul_inv]
  have hd : (0 : ℚ) < d := by exact_mod_cast a.den_pos
  have hup : a < pow2 ((lp : Int) - ld + 1) := by
    rw [hpow, ha', div_lt_div_iff₀ hd (by positivity), show pow2 1 = 2 by norm_num [pow2]]
    have : p * 2 ^ ld < 2 ^ lp * 2 * d := calc
      p * 2 ^ ld ≤ p * (2 * d) := Nat.mul_le_mul_left _ hd₂
      _ < 2 ^ lp * (2 * d) := Nat.mul_lt_mul_of_pos_right hp₁ (by omega)
      _ = 2 ^ lp * 2 * d := by ring
    exact_mod_cast this
  have hlow : pow2 ((lp : Int) - ld + -1) < a := by
    rw [hpow, ha', div_lt_div_iff₀ (by positivity) hd, pow2_neg_one]
    have : 2 ^ lp * d < p * (2 * 2 ^ ld) := calc
      2 ^ lp * d ≤ 2 * p * d := Nat.mul_le_mul_right _ hp₂
      _ < 2 * p * 2 ^ ld := Nat.mul_lt_mul_of_pos_left hd₁ (by omega)
      _ = p * (2 * 2 ^ ld) := by ring
    have hq : (2 : ℚ) ^ lp * d < p * (2 * 2 ^ ld) := by exact_mod_cast this
    linarith
  unfold binade
  dsimp only
  split
  · next h => exact ⟨h, hup⟩
  · next h => exact ⟨le_of_lt hlow, by rw [sub_add_cancel]; exact lt_of_not_le h⟩

/-! ## Rounding to a double -/

theorem abs_roundHalfEven_sub_le {q : ℚ} (hq : 0 ≤ q) : |(roundHalfEven q : ℚ) - q| ≤ 1 / 2 := by
  have hf : (0 : ℤ) ≤ ⌊q⌋ := Int.floor_nonneg.2 hq
  have hlo := Int.floor_le q
  have hhi := Int.lt_floor_add_one q
  have hcast : ((⌊q⌋.toNat : Nat) : ℚ) = ⌊q⌋ := by exact_mod_cast Int.toNat_of_nonneg hf
  unfold roundHalfEven
  dsimp only
  split_ifs <;> push_cast [hcast] <;> rw [abs_le] <;> constructor <;> linarith

/-- The exponent of the last significand bit of a double near a positive `a`: 52 places below
its leading bit, and not below that of the smallest subnormal, `-1074`. -/
def lsbExponent (a : ℚ) : Int := max (binade a - 52) (-1074)

/-- `x` rounded to the nearest double, ties to even, for a magnitude below `2 ^ 1024`. -/
def roundDouble (x : ℚ) : ℚ :=
  let e := lsbExponent |x|
  let r := (roundHalfEven (|x| / pow2 e) : ℚ) * pow2 e
  if x < 0 then -r else r

/-- Half the spacing of the doubles near a positive `a` is at most `a / 2 ^ 53`, or
`2 ^ -1075` among the subnormals. -/
theorem pow2_lsbExponent_le {a : ℚ} (ha : 0 < a) :
    pow2 (lsbExponent a) / 2 ≤ a / 2 ^ 53 + pow2 (-1075) := by
  have h₀ := pow2_pos (-1075)
  unfold lsbExponent
  rcases le_total (binade a - 52) (-1074) with h | h
  · rw [max_eq_right h, ← pow2_sub_one]
    norm_num
    linarith [div_pos ha (by norm_num : (0 : ℚ) < 2 ^ 53)]
  · rw [max_eq_left h, sub_eq_add_neg, pow2_add, show pow2 (-52) = 1 / 2 ^ 52 from pow2_neg 52]
    have := (binade_spec ha).1
    have h2 : pow2 (binade a) * (1 / 2 ^ 52) / 2 = pow2 (binade a) / 2 ^ 53 := by ring
    rw [h2]
    linarith [div_le_div_of_nonneg_right this (by norm_num : (0 : ℚ) ≤ 2 ^ 53)]

/-- A magnitude `r` given the sign of `x` is as far from `x` as `r` from `|x|`. -/
theorem abs_sign_sub (r x : ℚ) : |(if x < 0 then -r else r) - x| = |r - abs x| := by
  split
  · next h => rw [abs_of_neg h, ← abs_neg]; ring_nf
  · next h => rw [abs_of_nonneg (not_lt.1 h)]

/-- **The rounding error of a double**: at most `|x| / 2 ^ 53`, or `2 ^ -1075` among the
subnormals. -/
theorem abs_roundDouble_sub_le (x : ℚ) : |roundDouble x - x| ≤ |x| / 2 ^ 53 + pow2 (-1075) := by
  rcases eq_or_ne x 0 with rfl | hx
  · simp [roundDouble, roundHalfEven, (pow2_pos _).le]
  have ha : 0 < |x| := abs_pos.2 hx
  set e := lsbExponent |x|
  have hP := pow2_pos e
  have hr : |(roundHalfEven (|x| / pow2 e) : ℚ) * pow2 e - abs x| ≤ pow2 e / 2 := by
    have h := abs_roundHalfEven_sub_le (div_nonneg ha.le hP.le)
    have : (roundHalfEven (|x| / pow2 e) : ℚ) * pow2 e - abs x =
        ((roundHalfEven (|x| / pow2 e) : ℚ) - |x| / pow2 e) * pow2 e := by field_simp
    rw [this, abs_mul, abs_of_pos hP]
    linarith [mul_le_mul_of_nonneg_right h hP.le]
  calc |roundDouble x - x| = |(roundHalfEven (|x| / pow2 e) : ℚ) * pow2 e - abs x| :=
        abs_sign_sub _ x
    _ ≤ pow2 e / 2 := hr
    _ ≤ |x| / 2 ^ 53 + pow2 (-1075) := pow2_lsbExponent_le ha

/-! ## The square root -/

/-- Newton's iteration for the integer square root from a guess above it, as `Nat.sqrt`
computes it, with fuel in place of its well-founded recursion. -/
def isqrtIter : Nat → Nat → Nat → Nat
  | 0, _, g => g
  | fuel + 1, n, g =>
    let next := (g + n / g) / 2
    if next < g then isqrtIter fuel n next else g

/-- `⌊√n⌋`. -/
def isqrt (n : Nat) : Nat := if n ≤ 1 then n else isqrtIter n n (n / 2)

theorem isqrtIter_eq {fuel g : Nat} (n : Nat) (h : g ≤ fuel) :
    isqrtIter fuel n g = Nat.sqrt.iter n g := by
  induction fuel generalizing g with
  | zero =>
    obtain rfl : g = 0 := by omega
    unfold Nat.sqrt.iter
    simp [isqrtIter]
  | succ fuel ih =>
    unfold Nat.sqrt.iter
    by_cases hlt : (g + n / g) / 2 < g
    · simp [isqrtIter, hlt, ih (show (g + n / g) / 2 ≤ fuel by omega)]
    · simp [isqrtIter, hlt]

theorem isqrt_eq (n : Nat) : isqrt n = Nat.sqrt n := by
  unfold isqrt Nat.sqrt
  split
  · rfl
  · exact isqrtIter_eq n (Nat.div_le_self n 2)

/-- `√x` rounded to the nearest double, ties to even, for `x ≥ 0` whose root is a normal double:
`x / 4 ^ e` lies in `[2 ^ 104, 2 ^ 106)`, so the integer nearest to its root has 53 bits (or is
`2 ^ 53`), and the double is that integer times `2 ^ e`. -/
def sqrtDouble (x : ℚ) : ℚ :=
  let e := (binade x - 104) / 2
  let y := x / pow2 (2 * e)
  let m := isqrt ⌊y⌋.toNat
  let h : ℚ := m + 1 / 2
  let n := if y < h * h then m else if h * h < y then m + 1 else if m % 2 = 0 then m else m + 1
  n * pow2 e

/-- Of the integers `m` and `m + 1` around `√y`, the one the rounding picks (the nearer, or the
even one in a tie) is within a half of `√y`. -/
theorem nearest_of_between {m : Nat} {y : ℚ} (hm : (1 : ℚ) ≤ m) (h₁ : (m : ℚ) * m ≤ y)
    (h₂ : y < ((m : ℚ) + 1) * (m + 1)) (n : Nat)
    (hn : n = if y < (m + 1 / 2) * (m + 1 / 2) then m
      else if (m + 1 / 2) * (m + 1 / 2) < y then m + 1 else if m % 2 = 0 then m else m + 1) :
    ((n : ℚ) - 1 / 2) ^ 2 ≤ y ∧ y ≤ ((n : ℚ) + 1 / 2) ^ 2 := by
  subst hn
  split_ifs <;> push_cast <;> constructor <;> linarith

/-- `x / 4 ^ e` lies in `[2 ^ 104, 2 ^ 106)`. -/
theorem sqrtDouble_range {x : ℚ} (hx : 0 < x) :
    pow2 104 ≤ x / pow2 (2 * ((binade x - 104) / 2)) ∧
      x / pow2 (2 * ((binade x - 104) / 2)) < pow2 106 := by
  obtain ⟨h₁, h₂⟩ := binade_spec hx
  set b := binade x
  have hP := pow2_pos (2 * ((b - 104) / 2))
  have e₁ : pow2 b = pow2 104 * pow2 (b - 104 - 2 * ((b - 104) / 2)) * pow2 (2 * ((b - 104) / 2)) := by
    rw [← pow2_add, ← pow2_add]; congr 1; ring
  have e₂ : pow2 (b + 1) = pow2 106 * pow2 (b - 105 - 2 * ((b - 104) / 2)) *
      pow2 (2 * ((b - 104) / 2)) := by
    rw [← pow2_add, ← pow2_add]; congr 1; ring
  have lo : 1 ≤ pow2 (b - 104 - 2 * ((b - 104) / 2)) :=
    (show pow2 0 = 1 from rfl) ▸ pow2_le_pow2 (by omega)
  have hi : pow2 (b - 105 - 2 * ((b - 104) / 2)) ≤ 1 :=
    (show pow2 0 = 1 from rfl) ▸ pow2_le_pow2 (by omega)
  rw [le_div_iff₀ hP, div_lt_iff₀ hP]
  constructor
  · calc pow2 104 * pow2 (2 * ((b - 104) / 2))
        ≤ pow2 104 * pow2 (b - 104 - 2 * ((b - 104) / 2)) * pow2 (2 * ((b - 104) / 2)) :=
          mul_le_mul_of_nonneg_right (le_mul_of_one_le_right (pow2_pos _).le lo) hP.le
      _ = pow2 b := e₁.symm
      _ ≤ x := h₁
  · calc x < pow2 (b + 1) := h₂
      _ = pow2 106 * pow2 (b - 105 - 2 * ((b - 104) / 2)) * pow2 (2 * ((b - 104) / 2)) := e₂
      _ ≤ pow2 106 * pow2 (2 * ((b - 104) / 2)) :=
          mul_le_mul_of_nonneg_right (mul_le_of_le_one_right (pow2_pos _).le hi) hP.le

/-- **`math.sqrt` is correctly rounded.** For `x > 0` the result is an integer `n` of 53 bits
(or `2 ^ 53`, the first of the next binade) times `2 ^ e`, and `√x` is within half of `2 ^ e`,
the spacing of the doubles there, of it. -/
theorem sqrtDouble_spec {x : ℚ} (hx : 0 < x) :
    ∃ (n : Nat) (e : Int), sqrtDouble x = n * pow2 e ∧ 2 ^ 52 ≤ n ∧ n ≤ 2 ^ 53 ∧
      (n - 1 / 2 : ℚ) ^ 2 ≤ x / pow2 (2 * e) ∧ x / pow2 (2 * e) ≤ (n + 1 / 2 : ℚ) ^ 2 := by
  obtain ⟨hlo, hhi⟩ := sqrtDouble_range hx
  set e := (binade x - 104) / 2
  set y := x / pow2 (2 * e)
  have hy : 0 ≤ y := by linarith [pow2_pos 104]
  set F := ⌊y⌋.toNat
  have hF : (F : ℚ) ≤ y ∧ y < F + 1 := by
    have hc : ((⌊y⌋.toNat : Nat) : ℚ) = ⌊y⌋ := by
      exact_mod_cast Int.toNat_of_nonneg (Int.floor_nonneg.2 hy)
    exact ⟨hc ▸ Int.floor_le y, hc ▸ Int.lt_floor_add_one y⟩
  have h104 : pow2 104 = 2 ^ 104 := pow2_natCast 104
  have h106 : pow2 106 = 2 ^ 106 := pow2_natCast 106
  have hF₁ : 2 ^ 104 ≤ F := by
    have : ((2 ^ 104 : Nat) : ℚ) < F + 1 := by push_cast; linarith [hF.2]
    exact Nat.lt_succ_iff.1 (by exact_mod_cast this)
  have hF₂ : F < 2 ^ 106 := by
    have : (F : ℚ) < ((2 ^ 106 : Nat) : ℚ) := by push_cast; linarith [hF.1]
    exact_mod_cast this
  set m := isqrt F
  have hs : m = Nat.sqrt F := isqrt_eq F
  have hm : m * m ≤ F ∧ F < (m + 1) * (m + 1) := hs ▸ ⟨Nat.sqrt_le F, Nat.lt_succ_sqrt F⟩
  have hm₁ : 2 ^ 52 ≤ m := hs ▸ Nat.le_sqrt.2 (by rw [← pow_add]; exact hF₁)
  have hm₂ : m < 2 ^ 53 := hs ▸ Nat.sqrt_lt.2 (by rw [← pow_add]; exact hF₂)
  have hmq : (m : ℚ) * m ≤ y ∧ y < ((m : ℚ) + 1) * (m + 1) := by
    have h₁ : ((m * m : Nat) : ℚ) ≤ F := by exact_mod_cast hm.1
    have h₂ : ((F + 1 : Nat) : ℚ) ≤ ((m + 1) * (m + 1) : Nat) := by exact_mod_cast hm.2
    push_cast at h₁ h₂
    constructor <;> linarith [hF.1, hF.2]
  have hm0 : (1 : ℚ) ≤ m := by exact_mod_cast Nat.one_le_two_pow.trans hm₁
  set n : Nat := if y < (m + 1 / 2) * (m + 1 / 2) then m
    else if (m + 1 / 2) * (m + 1 / 2) < y then m + 1 else if m % 2 = 0 then m else m + 1
  have hn : n = m ∨ n = m + 1 := by
    simp only [n]
    split_ifs <;> simp
  obtain ⟨lo, hi⟩ := nearest_of_between hm0 hmq.1 hmq.2 n rfl
  refine ⟨n, e, rfl, ?_, ?_, lo, hi⟩ <;> rcases hn with h | h <;> rw [h]
  exacts [hm₁, hm₁.trans (Nat.le_succ m), hm₂.le, hm₂]

/-- `math.sqrt(x)`: the `ValueError` of a negative `x`, and otherwise the double nearest to `√x`
(`sqrtDouble_spec`). -/
def mathSqrt (x : ℚ) : Except PyError ℚ :=
  if x < 0 then .error (.valueError "math domain error") else .ok (sqrtDouble x)

/-! ## Python's `repr` -/

/-- Two values with one double are closer than the rounding errors of both. -/
theorem abs_sub_le_of_roundDouble_eq {y z : ℚ} (h : roundDouble y = roundDouble z) :
    |y - z| ≤ (|y| + |z|) / 2 ^ 53 + 2 * pow2 (-1075) := by
  have hy := abs_roundDouble_sub_le y
  have hz := abs_roundDouble_sub_le z
  calc |y - z| = |(roundDouble z - z) - (roundDouble y - y)| := by rw [h]; ring_nf
    _ ≤ |roundDouble z - z| + |roundDouble y - y| := abs_sub _ _
    _ ≤ _ := by linarith

/-- A decimal `m * 10 ^ e` and a different one on the coarser grid of `10 ^ f` are a step of the
finer grid apart. -/
theorem le_abs_sub_of_grid {m n e f : ℤ} (hef : e ≤ f) (hne : (m : ℚ) * 10 ^ e ≠ n * 10 ^ f) :
    (10 : ℚ) ^ e ≤ |(m : ℚ) * 10 ^ e - n * 10 ^ f| := by
  obtain ⟨k, rfl⟩ : ∃ k : ℕ, f = e + k := ⟨(f - e).toNat, by omega⟩
  have hsplit : (m : ℚ) * 10 ^ e - n * 10 ^ (e + k) = ((m - n * 10 ^ k : ℤ) : ℚ) * 10 ^ e := by
    rw [zpow_add₀ (by norm_num : (10 : ℚ) ≠ 0), zpow_natCast]
    push_cast
    ring
  have hk : m - n * 10 ^ k ≠ 0 := fun h => hne (sub_eq_zero.1 (by rw [hsplit, h]; simp))
  have hu : (0 : ℚ) < 10 ^ e := zpow_pos (by norm_num) e
  rw [hsplit, abs_mul, abs_of_pos hu]
  exact le_mul_of_one_le_left hu.le (by exact_mod_cast Int.one_le_abs hk)

/-- A decimal of at most fifteen digits is below `10 ^ 15` steps of its grid. -/
theorem abs_digits_lt {m e : ℤ} (hm : |m| < 10 ^ 15) :
    |(m : ℚ) * 10 ^ e| < 10 ^ 15 * 10 ^ e := by
  have hu : (0 : ℚ) < 10 ^ e := zpow_pos (by norm_num) e
  rw [abs_mul, abs_of_pos hu]
  exact mul_lt_mul_of_pos_right (by exact_mod_cast hm) hu

/-- **Decimals of fifteen digits have different doubles.** A decimal of at most fifteen
significant digits on a grid not finer than `10 ^ -315`, and a different decimal on a coarser
grid, round to different doubles. -/
theorem roundDouble_ne_of_grid {m n e f : ℤ} (hm : |m| < 10 ^ 15) (he : -315 ≤ e) (hef : e ≤ f)
    (hne : (m : ℚ) * 10 ^ e ≠ n * 10 ^ f) :
    roundDouble (m * 10 ^ e) ≠ roundDouble (n * 10 ^ f) := fun h => by
  have hu : (10 : ℚ) ^ (-315 : ℤ) ≤ 10 ^ e := zpow_le_zpow_right₀ (by norm_num) he
  have hδ : 3 * pow2 (-1075) < (10 : ℚ) ^ (-315 : ℤ) := by
    rw [show pow2 (-1075) = 1 / 2 ^ 1075 from pow2_neg 1075]
    norm_num
  have hy := abs_digits_lt (e := e) hm
  have hD := le_abs_sub_of_grid hef hne
  have hclose := abs_sub_le_of_roundDouble_eq h
  have hz := abs_sub_abs_le_abs_sub ((n : ℚ) * 10 ^ f) (m * 10 ^ e)
  rw [abs_sub_comm ((n : ℚ) * 10 ^ f)] at hz
  linarith [pow2_pos (-1075)]

/-- A value of at most `n` significant decimal digits. -/
def SignificantDigits (n : Nat) (x : ℚ) : Prop := ∃ m e : ℤ, x = m * (10 : ℚ) ^ e ∧ |m| < 10 ^ n

theorem SignificantDigits.shortDecimal {x : ℚ} (h : SignificantDigits 15 x) : ShortDecimal x :=
  let ⟨m, e, hx, hm⟩ := h
  ⟨m, e, hx, hm.trans (by norm_num)⟩

/-- A magnitude well inside the normal doubles, where `float` of a decimal is `roundDouble` of it
(Python's `float` gives `inf` from about `1.8e308` on, which `roundDouble` does not model). -/
def InDoubleRange (x : ℚ) : Prop := (10 : ℚ) ^ (-300 : ℤ) ≤ |x| ∧ |x| < 10 ^ 300

/-- The grid of a decimal of at most fifteen digits not below `10 ^ -300` is not finer than
`10 ^ -315`. -/
theorem neg_315_le_of_digits {m e : ℤ} (hm : |m| < 10 ^ 15)
    (h : (10 : ℚ) ^ (-300 : ℤ) ≤ |(m : ℚ) * 10 ^ e|) : -315 ≤ e := by
  have hlt : (10 : ℚ) ^ (-300 : ℤ) < 10 ^ (15 + e) := by
    calc (10 : ℚ) ^ (-300 : ℤ) ≤ |(m : ℚ) * 10 ^ e| := h
      _ < 10 ^ 15 * 10 ^ e := abs_digits_lt hm
      _ = 10 ^ (15 + e) := by rw [zpow_add₀ (by norm_num : (10 : ℚ) ≠ 0)]; norm_num
  have := (zpow_lt_zpow_iff_right₀ (by norm_num : (1 : ℚ) < 10)).1 hlt
  omega

/-- **`str(x)` of a value of at most fifteen significant digits.** `float` reads the text back
as `x`, and no other decimal of at most fifteen significant digits has the double of `x`: `x` is
the decimal of fewest digits that Python's `repr` prints for that double. -/
theorem reprFloat_shortest {x : ℚ} (hx : SignificantDigits 15 x) (hr : InDoubleRange x) :
    toFloat? (reprFloat x) = some x ∧
      ∀ y, SignificantDigits 15 y → roundDouble y = roundDouble x → y = x := by
  refine ⟨toFloat?_reprFloat hx.shortDecimal, fun y hy h => ?_⟩
  obtain ⟨m, e, rfl, hm⟩ := hx
  obtain ⟨n, f, rfl, hn⟩ := hy
  by_contra hne
  rcases le_total e f with hef | hfe
  · exact roundDouble_ne_of_grid hm (neg_315_le_of_digits hm hr.1) hef (Ne.symm hne) h.symm
  by_cases hf : -315 ≤ f
  · exact roundDouble_ne_of_grid hn hf hfe hne h
  -- `y` is below `10 ^ -301`, too far below `x` to share its double
  have hy : |(n : ℚ) * 10 ^ f| < 10 ^ (-300 : ℤ) / 10 := by
    calc |(n : ℚ) * 10 ^ f| < 10 ^ 15 * 10 ^ f := abs_digits_lt hn
      _ ≤ 10 ^ 15 * 10 ^ (-316 : ℤ) :=
        mul_le_mul_of_nonneg_left (zpow_le_zpow_right₀ (by norm_num) (by omega)) (by norm_num)
      _ = 10 ^ (-300 : ℤ) / 10 := by norm_num
  have hδ : 3 * pow2 (-1075) < (10 : ℚ) ^ (-300 : ℤ) / 10 := by
    rw [show pow2 (-1075) = 1 / 2 ^ 1075 from pow2_neg 1075]
    norm_num
  have hclose := abs_sub_le_of_roundDouble_eq h
  have hz := abs_sub_abs_le_abs_sub ((m : ℚ) * 10 ^ e) (n * 10 ^ f)
  rw [abs_sub_comm] at hz
  have hx : (10 : ℚ) ^ (-300 : ℤ) ≤ |(m : ℚ) * 10 ^ e| := hr.1
  generalize (10 : ℚ) ^ (-300 : ℤ) = a at hy hδ hx
  linarith [abs_nonneg ((n : ℚ) * 10 ^ f)]

/-- `0.1`, which no double holds: `str` prints `0.1`, the one decimal of at most fifteen digits
with its double. -/
theorem reprFloat_shortest_tenth :
    SignificantDigits 15 (1 / 10) ∧ InDoubleRange (1 / 10) ∧ toFloat? (reprFloat (1 / 10)) =
      some (1 / 10) ∧ ∀ y, SignificantDigits 15 y → roundDouble y = roundDouble (1 / 10) →
        y = 1 / 10 :=
  have hx : SignificantDigits 15 (1 / 10) := ⟨1, -1, by norm_num, by norm_num⟩
  have hr : InDoubleRange (1 / 10) := ⟨by norm_num [abs_of_pos], by norm_num [abs_of_pos]⟩
  ⟨hx, hr, reprFloat_shortest hx hr⟩

end ParmEd.Python
