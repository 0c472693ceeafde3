import ParmEd.Python.Number

/-!
# `float(repr(x))`

`reprFloat` prints the significant digits of a value rounded to 17 and stripped of trailing
zeros, with the point placed by `decimalPoint`, in fixed form from `1e-4` to below `1e16` and in
exponent form outside, the layout of Python's `repr`. For a value of at most 17 significant
digits the rounding is exact, and `float` reads either form back to the value
(`toFloat?_reprFloat`). Python's `repr` prints the shortest digits that read back to the same
double; those are the value's own digits for a value of at most 15 significant digits
(`reprFloat_shortest`), not always for more (`2 ** 55` is `3.602879701896397e+16`).

* `decimalPoint_bounds`: the point `repr` places lies between the powers of ten around the
  value.
* `reprDigits_exact`: for a value of at most 17 significant digits, the rounded digits are the
  value's own digits.
* `parseUnsigned_reprBody`: `float` reads the unsigned text of either form as the digits times
  the power of ten they stand for.
-/

namespace ParmEd.Python

/-! ## Digits and powers of ten -/

theorem toDigitsCore_bounds (f n : Nat) (h : n < f) :
    n < 10 ^ (Nat.toDigitsCore 10 f n []).length ∧
      (0 < n → 10 ^ ((Nat.toDigitsCore 10 f n []).length - 1) ≤ n) := by
  induction f generalizing n with
  | zero => omega
  | succ f ih =>
    simp only [Nat.toDigitsCore]
    split
    · simp only [List.length_singleton, pow_one, Nat.sub_self, pow_zero]
      omega
    · obtain ⟨hlt, hge⟩ := ih (n / 10) (by omega)
      rw [toDigitsCore_acc, List.length_append, List.length_singleton]
      generalize (Nat.toDigitsCore 10 f (n / 10) []).length = L at hlt hge
      obtain ⟨L, rfl⟩ : ∃ L', L = L' + 1 := ⟨L - 1, by
        rcases L with _ | L
        · simp only [pow_zero] at hlt; omega
        · omega⟩
      have hge := hge (by omega)
      simp only [Nat.add_sub_cancel, pow_succ] at hlt hge ⊢
      omega

theorem decimal_bounds (n : Nat) :
    n < 10 ^ (decimal n).length ∧ (0 < n → 10 ^ ((decimal n).length - 1) ≤ n) :=
  toDigitsCore_bounds (n + 1) n (Nat.lt_succ_self n)

/-- A number between `10 ^ (L - 1)` and `10 ^ L` has `L` decimal digits. -/
theorem decimal_length_eq {n L : Nat} (hL : 0 < L) (h₁ : 10 ^ (L - 1) ≤ n) (h₂ : n < 10 ^ L) :
    (decimal n).length = L := by
  obtain ⟨hlt, hge⟩ := decimal_bounds n
  have hn : 0 < n := lt_of_lt_of_le (Nat.pos_pow_of_pos _ (by decide)) h₁
  have hge := hge hn
  rcases Nat.lt_trichotomy (decimal n).length L with h | h | h
  · have := Nat.pow_le_pow_right (by decide : 10 > 0) (show (decimal n).length ≤ L - 1 by omega)
    omega
  · exact h
  · have := Nat.pow_le_pow_right (by decide : 10 > 0) (show L ≤ (decimal n).length - 1 by omega)
    omega

theorem pow10_eq_zpow (e : Int) : pow10 e = (10 : ℚ) ^ e := by
  unfold pow10
  split
  · rw [← zpow_natCast, Int.toNat_of_nonneg ‹_›]
  · rw [one_div, ← zpow_natCast, ← zpow_neg, Int.toNat_of_nonneg (by omega), neg_neg]

/-- `decimalPoint a` is the position of the point of a positive `a`. -/
theorem decimalPoint_bounds {a : ℚ} (ha : 0 < a) :
    (10 : ℚ) ^ (decimalPoint a - 1) ≤ a ∧ a < (10 : ℚ) ^ decimalPoint a := by
  unfold decimalPoint
  split
  · next h1 =>
    have hfl : (1 : ℤ) ≤ ⌊a⌋ := Int.le_floor.2 (by exact_mod_cast h1)
    have hm : ((⌊a⌋.toNat : ℕ) : ℚ) = ⌊a⌋ := by exact_mod_cast Int.toNat_of_nonneg (by omega)
    obtain ⟨hlt, hge⟩ := decimal_bounds ⌊a⌋.toNat
    have hge := hge (by omega)
    generalize (decimal ⌊a⌋.toNat).length = L at hlt hge ⊢
    obtain ⟨L, rfl⟩ : ∃ L', L = L' + 1 := ⟨L - 1, by
      rcases L with _ | L
      · simp only [pow_zero] at hlt; omega
      · omega⟩
    simp only [Nat.add_sub_cancel] at hge
    rw [show ((L + 1 : ℕ) : ℤ) - 1 = ((L : ℕ) : ℤ) by push_cast; ring, zpow_natCast, zpow_natCast]
    constructor
    · calc (10 : ℚ) ^ L = ((10 ^ L : ℕ) : ℚ) := by push_cast; rfl
        _ ≤ ⌊a⌋.toNat := by exact_mod_cast hge
        _ ≤ a := by rw [hm]; exact Int.floor_le a
    · calc a < ⌊a⌋ + 1 := Int.lt_floor_add_one a
        _ = ((⌊a⌋.toNat + 1 : ℕ) : ℚ) := by push_cast; rw [hm]
        _ ≤ ((10 ^ (L + 1) : ℕ) : ℚ) := by exact_mod_cast hlt
        _ = (10 : ℚ) ^ (L + 1) := by push_cast; rfl
  · next h1 =>
    have hinv : 1 < 1 / a := by rw [lt_div_iff₀ ha]; linarith [not_le.1 h1]
    have hce : (2 : ℤ) ≤ ⌈1 / a⌉ := Int.lt_ceil.2 (by exact_mod_cast hinv)
    have hc : (((⌈1 / a⌉.toNat - 1 : ℕ) : ℚ)) + 1 = ⌈1 / a⌉ := by
      have : ((⌈1 / a⌉.toNat : ℕ) : ℤ) = ⌈1 / a⌉ := Int.toNat_of_nonneg (by omega)
      rw [Nat.cast_sub (by omega), Nat.cast_one, sub_add_cancel]
      exact_mod_cast this
    obtain ⟨hlt, hge⟩ := decimal_bounds (⌈1 / a⌉.toNat - 1)
    have hge := hge (by omega)
    generalize (decimal (⌈1 / a⌉.toNat - 1)).length = L at hlt hge hc ⊢
    obtain ⟨L, rfl⟩ : ∃ L', L = L' + 1 := ⟨L - 1, by
      rcases L with _ | L
      · simp only [pow_zero] at hlt; omega
      · omega⟩
    simp only [Nat.add_sub_cancel] at hge
    generalize ⌈1 / a⌉.toNat - 1 = m at hlt hge hc
    have hceil := Int.ceil_lt_add_one (1 / a)
    have hceil' := Int.le_ceil (1 / a)
    rw [← hc] at hceil hceil'
    have hmL : (10 : ℚ) ^ L ≤ m := by exact_mod_cast hge
    have hmU : (m : ℚ) + 1 ≤ 10 ^ (L + 1) := by exact_mod_cast hlt
    rw [show (1 : ℤ) - ((L + 1 : ℕ) : ℤ) - 1 = -((L + 1 : ℕ) : ℤ) by push_cast; ring,
      show (1 : ℤ) - ((L + 1 : ℕ) : ℤ) = -(L : ℤ) by push_cast; ring, zpow_neg, zpow_neg,
      zpow_natCast, zpow_natCast]
    constructor
    · exact inv_le_of_inv_le₀ ha (by rw [← one_div]; linarith)
    · exact (lt_inv_comm₀ ha (by positivity)).2 (by rw [← one_div]; linarith)

/-! ## Reading digits back -/

theorem digitsValue_append_zeros (ds : List Char) (z : Nat) :
    digitsValue (ds ++ List.replicate z '0') = digitsValue ds * 10 ^ z := by
  induction z with
  | zero => simp
  | succ z ih =>
    rw [List.replicate_succ', ← List.append_assoc, digitsValue_append_digit, ih, Nat.sub_self,
      pow_succ]
    ring

/-- A text is what stripping its trailing zeros keeps, followed by the zeros. -/
theorem eq_stripZeros_append (l : List Char) :
    ∃ z, l = (l.reverse.dropWhile (· = '0')).reverse ++ List.replicate z '0' := by
  refine ⟨(l.reverse.takeWhile (· = '0')).length, ?_⟩
  conv_lhs => rw [← List.reverse_reverse l, ← List.takeWhile_append_dropWhile (· = '0') l.reverse]
  rw [List.reverse_append]
  congr 1
  rw [List.eq_replicate_iff]
  exact ⟨List.length_reverse _, fun c hc => by
    simpa using List.mem_takeWhile_imp (List.mem_reverse.1 hc)⟩

/-- `float` of digits with a point. -/
theorem parseUnsigned_pointed {D₁ D₂ : List Char} (h₁ : D₁ ≠ [])
    (hd₁ : ∀ c ∈ D₁, isDigit c = true) (hd₂ : ∀ c ∈ D₂, isDigit c = true) :
    parseUnsigned (D₁ ++ '.' :: D₂) = some ((digitsValue (D₁ ++ D₂) : ℚ) / 10 ^ D₂.length) := by
  have hdot : isDigit '.' = false := by decide
  have hne : D₁.isEmpty = false := by cases D₁ <;> simp_all
  unfold parseUnsigned
  rw [List.takeWhile_append_of_pos hd₁, List.takeWhile_cons_of_neg (by simp [hdot]),
    List.append_nil, List.dropWhile_append_of_pos hd₁, List.dropWhile_cons_of_neg (by simp [hdot])]
  simp [List.takeWhile_eq_self_iff.2 hd₂, List.dropWhile_eq_nil_iff.2 hd₂, hne, withExponent]

/-- `float` of digits. -/
theorem parseUnsigned_digits {D : List Char} (h : D ≠ []) (hd : ∀ c ∈ D, isDigit c = true) :
    parseUnsigned D = some (digitsValue D : ℚ) := by
  have hne : D.isEmpty = false := by cases D <;> simp_all
  unfold parseUnsigned
  simp [List.takeWhile_eq_self_iff.2 hd, List.dropWhile_eq_nil_iff.2 hd, hne, withExponent]

/-- `float` of digits with a point and an exponent. -/
theorem parseUnsigned_pointed_exponent {D₁ D₂ E : List Char} (h₁ : D₁ ≠ [])
    (hd₁ : ∀ c ∈ D₁, isDigit c = true) (hd₂ : ∀ c ∈ D₂, isDigit c = true) :
    parseUnsigned (D₁ ++ '.' :: (D₂ ++ 'e' :: E)) =
      (parseExponent E).map ((digitsValue (D₁ ++ D₂) : ℚ) / 10 ^ D₂.length * pow10 ·) := by
  have hdot : isDigit '.' = false := by decide
  have hne : D₁.isEmpty = false := by cases D₁ <;> simp_all
  have htake : List.takeWhile isDigit ('e' :: E) = [] :=
    List.takeWhile_cons_of_neg (by simp [show isDigit 'e' = false by decide])
  have hdrop : List.dropWhile isDigit ('e' :: E) = 'e' :: E :=
    List.dropWhile_cons_of_neg (by simp [show isDigit 'e' = false by decide])
  unfold parseUnsigned
  rw [List.takeWhile_append_of_pos hd₁, List.takeWhile_cons_of_neg (by simp [hdot]),
    List.append_nil, List.dropWhile_append_of_pos hd₁, List.dropWhile_cons_of_neg (by simp [hdot])]
  simp [List.takeWhile_append_of_pos hd₂, List.dropWhile_append_of_pos hd₂, htake, hdrop, hne,
    withExponent]

/-- `float` of digits and an exponent. -/
theorem parseUnsigned_exponent {D E : List Char} (h : D ≠ []) (hd : ∀ c ∈ D, isDigit c = true) :
    parseUnsigned (D ++ 'e' :: E) = (parseExponent E).map ((digitsValue D : ℚ) * pow10 ·) := by
  have he : isDigit 'e' = false := by decide
  have hne : D.isEmpty = false := by cases D <;> simp_all
  unfold parseUnsigned
  rw [List.takeWhile_append_of_pos hd, List.takeWhile_cons_of_neg (by simp [he]),
    List.append_nil, List.dropWhile_append_of_pos hd, List.dropWhile_cons_of_neg (by simp [he])]
  simp [hne, withExponent]

theorem parseExponent_reprExponent (e : Int) : parseExponent (reprExponent e) = some e := by
  have hd := padded_isDigit (2 - (decimal e.natAbs).length) e.natAbs
  have hne : (List.replicate (2 - (decimal e.natAbs).length) '0' ++ decimal e.natAbs).isEmpty =
      false := by
    cases h : decimal e.natAbs with
    | nil => simp [h]
    | cons => simp
  have hval := digitsValue_zeros_append (2 - (decimal e.natAbs).length) (decimal e.natAbs)
  rw [(decimal_spec _).1] at hval
  unfold reprExponent
  dsimp only
  split
  · next h => simp [parseExponent, hne, List.all_eq_true.2 hd, hval, abs_of_neg h]
  · next h => simp [parseExponent, hne, List.all_eq_true.2 hd, hval, abs_of_nonneg (not_lt.1 h)]

/-- `float` of a text with a sign, or none, before its digits. -/
theorem toFloat?_signed (neg : Prop) [Decidable neg] {U : List Char}
    (hs : ∀ c ∈ U, isSpace c = false) (hh : ∀ c ∈ U.head?, isDigit c = true) :
    toFloat? ⟨(if neg then ['-'] else []) ++ U⟩ =
      (parseUnsigned U).map fun v => if neg then -v else v := by
  by_cases hneg : neg
  · rw [if_pos hneg]
    unfold toFloat?
    rw [strip_eq_self (by simpa using ⟨rfl, hs⟩)]
    simp [hneg]
  · rw [if_neg hneg, List.nil_append, toFloat?_of_digit_head hs hh]
    simp [hneg]

/-! ## The digits `repr` prints -/

/-- For a positive value that 17 significant digits hold exactly, `repr` finds the value's
point and its digits without trailing zeros, which shifted to the point spell the value. -/
theorem reprDigits_exact {a : ℚ} (ha : 0 < a) {N : ℕ}
    (hN : a * (10 : ℚ) ^ (17 - decimalPoint a) = N) :
    (reprDigits a).2 = decimalPoint a ∧ (reprDigits a).1 ≠ [] ∧
      (∀ c ∈ (reprDigits a).1, isDigit c = true) ∧ (reprDigits a).1.length ≤ 17 ∧
      a = digitsValue (reprDigits a).1 * (10 : ℚ) ^ (decimalPoint a - (reprDigits a).1.length) := by
  obtain ⟨hlo, hhi⟩ := decimalPoint_bounds ha
  have h10 : (10 : ℚ) ≠ 0 := by norm_num
  have hNlo : ((10 ^ 16 : ℕ) : ℚ) ≤ N := by
    rw [← hN]
    calc ((10 ^ 16 : ℕ) : ℚ) = 10 ^ (decimalPoint a - 1) * 10 ^ (17 - decimalPoint a) := by
          rw [← zpow_add₀ h10]; norm_num
      _ ≤ a * 10 ^ (17 - decimalPoint a) := mul_le_mul_of_nonneg_right hlo (zpow_pos (by norm_num) _).le
  have hNhi : (N : ℚ) < ((10 ^ 17 : ℕ) : ℚ) := by
    rw [← hN]
    calc a * 10 ^ (17 - decimalPoint a) < 10 ^ decimalPoint a * 10 ^ (17 - decimalPoint a) :=
          mul_lt_mul_of_pos_right hhi (zpow_pos (by norm_num) _)
      _ = ((10 ^ 17 : ℕ) : ℚ) := by rw [← zpow_add₀ h10]; norm_num
  have hNlo : 10 ^ 16 ≤ N := by exact_mod_cast hNlo
  have hNhi : N < 10 ^ 17 := by exact_mod_cast hNhi
  have hlen : (decimal N).length = 17 := decimal_length_eq (by norm_num) hNlo hNhi
  have hround : roundHalfEven (a * pow10 (17 - decimalPoint a)) = N := by
    rw [pow10_eq_zpow, hN, roundHalfEven_natCast]
  obtain ⟨z, hz⟩ := eq_stripZeros_append (decimal N)
  unfold reprDigits
  simp only [hround, if_neg (Nat.ne_of_lt hNhi)]
  generalize ((decimal N).reverse.dropWhile (· = '0')).reverse = ds at hz ⊢
  have hdig : ∀ c ∈ ds, isDigit c = true :=
    fun c hc => (decimal_spec N).2 c (hz ▸ List.mem_append_left _ hc)
  have hval : digitsValue ds * 10 ^ z = N := by
    rw [← digitsValue_append_zeros, ← hz, (decimal_spec N).1]
  have hdl : ds.length + z = 17 := by rw [← hlen, hz, List.length_append, List.length_replicate]
  refine ⟨trivial, ?_, hdig, by omega, ?_⟩
  · rintro rfl
    simp only [digitsValue, List.foldl_nil, zero_mul] at hval
    omega
  · have hshift : a = N * (10 : ℚ) ^ (decimalPoint a - 17) := by
      rw [← hN, mul_assoc, ← zpow_add₀ h10]
      simp
    rw [show decimalPoint a - (ds.length : ℤ) = (z : ℤ) + (decimalPoint a - 17) by omega,
      zpow_add₀ h10, zpow_natCast]
    conv_lhs => rw [hshift, ← hval]
    push_cast
    ring

/-! ## The text `repr` prints -/

/-- The text `repr` prints for a positive value of digits `ds` and point `k`. -/
def reprBody (ds : List Char) (k : Int) : List Char :=
  if -4 < k ∧ k ≤ 16 then
    if k ≤ 0 then '0' :: '.' :: (List.replicate (-k).toNat '0' ++ ds)
    else if ds.length ≤ k.toNat then (ds ++ List.replicate (k.toNat - ds.length) '0') ++ ['.', '0']
    else ds.take k.toNat ++ '.' :: ds.drop k.toNat
  else
    (match ds with
      | d :: [] => [d]
      | d :: rest => d :: '.' :: rest
      | [] => []) ++ 'e' :: reprExponent (k - 1)

theorem reprFloat_eq {x : ℚ} (h : x ≠ 0) :
    reprFloat x = ⟨(if x < 0 then ['-'] else []) ++
      reprBody (reprDigits |x|).1 (reprDigits |x|).2⟩ := by
  unfold reprFloat reprBody
  rw [if_neg h]
  generalize reprDigits |x| = p
  obtain ⟨ds, k⟩ := p
  dsimp only
  split_ifs <;> rfl

/-- In the fixed range the text is digits with a point. -/
theorem reprBody_pointed {ds : List Char} {k : Int} (hne : ds ≠ [])
    (hdig : ∀ c ∈ ds, isDigit c = true) (hk : -4 < k ∧ k ≤ 16) :
    ∃ D₁ D₂, reprBody ds k = D₁ ++ '.' :: D₂ ∧ D₁ ≠ [] ∧ (∀ c ∈ D₁, isDigit c = true) ∧
      (∀ c ∈ D₂, isDigit c = true) ∧
      (digitsValue (D₁ ++ D₂) : ℚ) / 10 ^ D₂.length = digitsValue ds * (10 : ℚ) ^ (k - ds.length) := by
  have h10 : (10 : ℚ) ≠ 0 := by norm_num
  have zeros : ∀ n, ∀ c ∈ List.replicate n '0', isDigit c = true := fun n c hc => by
    rw [List.eq_of_mem_replicate hc]; rfl
  unfold reprBody
  rw [if_pos hk]
  split_ifs with h₀ h₁
  · refine ⟨['0'], List.replicate (-k).toNat '0' ++ ds, rfl, by simp, by simp; rfl,
      fun c hc => (List.mem_append.1 hc).elim (zeros _ c) (hdig c), ?_⟩
    rw [List.singleton_append, ← List.cons_append, ← List.replicate_succ, digitsValue_zeros_append,
      List.length_append,
      List.length_replicate, div_eq_mul_inv, ← zpow_natCast, ← zpow_neg]
    congr 2
    omega
  · refine ⟨ds ++ List.replicate (k.toNat - ds.length) '0', ['0'], rfl,
      List.append_ne_nil_of_left_ne_nil hne _,
      fun c hc => (List.mem_append.1 hc).elim (hdig c) (zeros _ c), by simp; rfl, ?_⟩
    rw [List.append_assoc, ← List.replicate_succ', digitsValue_append_zeros]
    push_cast
    rw [List.length_singleton, pow_one, pow_succ, ← zpow_natCast,
      show ((k.toNat - ds.length : ℕ) : ℤ) = k - ds.length by omega]
    field_simp
    ring
  · refine ⟨ds.take k.toNat, ds.drop k.toNat, rfl,
      List.ne_nil_of_length_pos (by rw [List.length_take]; omega),
      fun c hc => hdig c (List.mem_of_mem_take hc), fun c hc => hdig c (List.mem_of_mem_drop hc), ?_⟩
    rw [List.take_append_drop, List.length_drop, div_eq_mul_inv, ← zpow_natCast, ← zpow_neg]
    congr 2
    omega

theorem reprExponent_noSpace (e : Int) : ∀ c ∈ reprExponent e, isSpace c = false := by
  intro c hc
  unfold reprExponent at hc
  rcases List.mem_cons.1 hc with rfl | hc
  · split <;> rfl
  · exact isSpace_of_isDigit (padded_isDigit _ _ c hc)

/-- `float` of the text `repr` prints for a positive value reads the value its digits spell at
its point. -/
theorem parseUnsigned_reprBody {ds : List Char} {k : Int} (hne : ds ≠ [])
    (hdig : ∀ c ∈ ds, isDigit c = true) :
    parseUnsigned (reprBody ds k) = some (digitsValue ds * (10 : ℚ) ^ (k - ds.length)) ∧
      (∀ c ∈ reprBody ds k, isSpace c = false) ∧ ∀ c ∈ (reprBody ds k).head?, isDigit c = true := by
  have h10 : (10 : ℚ) ≠ 0 := by norm_num
  by_cases hk : -4 < k ∧ k ≤ 16
  · obtain ⟨D₁, D₂, hb, h₁, hd₁, hd₂, hv⟩ := reprBody_pointed hne hdig hk
    rw [hb, parseUnsigned_pointed h₁ hd₁ hd₂, hv]
    refine ⟨rfl, fun c hc => ?_, fun c hc => ?_⟩
    · simp only [List.mem_append, List.mem_cons] at hc
      rcases hc with hc | rfl | hc
      exacts [isSpace_of_isDigit (hd₁ c hc), rfl, isSpace_of_isDigit (hd₂ c hc)]
    · obtain ⟨d, D, rfl⟩ := List.exists_cons_of_ne_nil h₁
      cases Option.mem_def.1 hc
      exact hd₁ _ (List.mem_cons_self _ _)
  · unfold reprBody
    rw [if_neg hk]
    obtain ⟨d, rest, rfl⟩ := List.exists_cons_of_ne_nil hne
    have hd : isDigit d = true := hdig d (List.mem_cons_self d rest)
    have hrest : ∀ c ∈ rest, isDigit c = true := fun c hc => hdig c (List.mem_cons_of_mem d hc)
    have hE := reprExponent_noSpace (k - 1)
    cases rest with
    | nil =>
      refine ⟨?_, fun c hc => ?_, fun c hc => by cases Option.mem_def.1 hc; exact hd⟩
      · rw [parseUnsigned_exponent (List.cons_ne_nil _ _) hdig, parseExponent_reprExponent,
          Option.map_some', pow10_eq_zpow, List.length_singleton, Nat.cast_one]
      · simp only [List.singleton_append, List.mem_cons] at hc
        rcases hc with rfl | rfl | hc
        exacts [isSpace_of_isDigit hd, rfl, hE c hc]
    | cons r rs =>
      refine ⟨?_, fun c hc => ?_, fun c hc => by cases Option.mem_def.1 hc; exact hd⟩
      · rw [show (d :: '.' :: r :: rs) ++ 'e' :: reprExponent (k - 1) =
            [d] ++ '.' :: ((r :: rs) ++ 'e' :: reprExponent (k - 1)) from rfl,
          parseUnsigned_pointed_exponent (List.cons_ne_nil _ _) (by simpa using hd) hrest,
          parseExponent_reprExponent, Option.map_some', pow10_eq_zpow]
        simp only [List.singleton_append, List.length_cons]
        rw [div_eq_mul_inv, ← zpow_natCast, ← zpow_neg, mul_assoc, ← zpow_add₀ h10]
        congr 3
        push_cast
        ring
      · simp only [List.cons_append, List.mem_cons, List.mem_append] at hc
        rcases hc with rfl | rfl | rfl | hc | rfl | hc
        exacts [isSpace_of_isDigit hd, rfl, isSpace_of_isDigit (hrest _ (List.mem_cons_self _ _)),
          isSpace_of_isDigit (hrest c (List.mem_cons_of_mem _ hc)), rfl, hE c hc]

/-! ## Reading `repr` back -/

/-- A value of at most 17 significant digits, which `reprFloat` prints without rounding. -/
def ShortDecimal (x : ℚ) : Prop := ∃ m : ℤ, ∃ e : ℤ, x = m * (10 : ℚ) ^ e ∧ |m| < 10 ^ 17

/-- The digits of a short value at the scale `repr` reads them are a whole number. -/
theorem ShortDecimal.scaled {x : ℚ} (hx : ShortDecimal x) (h0 : x ≠ 0) :
    ∃ N : ℕ, |x| * (10 : ℚ) ^ (17 - decimalPoint |x|) = N := by
  obtain ⟨m, e, rfl, hm⟩ := hx
  have h10 : (10 : ℚ) ≠ 0 := by norm_num
  have habs : |(m : ℚ) * 10 ^ e| = (m.natAbs : ℚ) * 10 ^ e := by
    rw [abs_mul, abs_of_pos (zpow_pos (by norm_num : (0 : ℚ) < 10) e), Nat.cast_natAbs,
      Int.cast_abs]
  obtain ⟨hlo, -⟩ := decimalPoint_bounds (abs_pos.2 h0)
  generalize decimalPoint |(m : ℚ) * 10 ^ e| = k at hlo ⊢
  have hk : k - 1 < 17 + e := by
    rw [← zpow_lt_zpow_iff_right₀ (by norm_num : (1 : ℚ) < 10)]
    calc (10 : ℚ) ^ (k - 1) ≤ m.natAbs * 10 ^ e := habs ▸ hlo
      _ < 10 ^ 17 * 10 ^ e := by
        have : (m.natAbs : ℚ) < 10 ^ 17 := by
          rw [Nat.cast_natAbs]
          exact_mod_cast hm
        exact mul_lt_mul_of_pos_right this (zpow_pos (by norm_num) e)
      _ = 10 ^ (17 + e) := by rw [zpow_add₀ h10]; norm_num
  refine ⟨m.natAbs * 10 ^ (e + (17 - k)).toNat, ?_⟩
  rw [habs, mul_assoc, ← zpow_add₀ h10]
  push_cast
  rw [← zpow_natCast, Int.toNat_of_nonneg (by omega)]

/-- **`float(repr(x))` is `x`** for every value of at most 17 significant digits. -/
theorem toFloat?_reprFloat {x : ℚ} (hx : ShortDecimal x) : toFloat? (reprFloat x) = some x := by
  by_cases h0 : x = 0
  · subst h0
    rw [reprFloat, if_pos rfl, show "0.0" = (⟨(if False then ['-'] else []) ++
        (['0'] ++ '.' :: ['0'])⟩ : String) from rfl,
      toFloat?_signed False (by decide) fun c hc => by cases Option.mem_def.1 hc; rfl,
      parseUnsigned_pointed (List.cons_ne_nil _ _) (by decide) (by decide)]
    simp [digitsValue]
  · obtain ⟨N, hN⟩ := hx.scaled h0
    obtain ⟨hk, hne, hdig, -, hval⟩ := reprDigits_exact (abs_pos.2 h0) hN
    obtain ⟨hparse, hs, hh⟩ := parseUnsigned_reprBody (k := (reprDigits |x|).2) hne hdig
    rw [reprFloat_eq h0, toFloat?_signed _ hs hh, hparse, hk, ← hval]
    split_ifs with hneg
    · simp [abs_of_neg hneg]
    · simp [abs_of_nonneg (not_lt.1 hneg)]

end ParmEd.Python
