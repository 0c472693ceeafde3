import ParmEd.Amber.Write
import ParmEd.Python.Repr

/-!
# What the line patterns read of a printed line

The handlers of the parameter sections read a line by `re.match` with the module's patterns.
On a line laid out as `write` prints it, each part of a pattern takes exactly the field printed
for it (`Pat.Takes`): a type name of at most two characters padded to two (`typeField_takes`),
the whitespace between fields, and a number printed by `f'{x:.pf}'` or by `str(x)` in fixed
form (`NumberText.fixed`, `NumberText.repr`). So `_bondre` and `_anglere` give back the fields
of the `BOND` and `ANGLE` lines (`bondre_reMatch_written`, `anglere_reMatch_written`), and
`_dihedre` those of the term line `write_dtype` prints (`dihedre_reMatch_written`), whose
periodicity `cont * per` is printed `-0.0` for a continued term of periodicity zero.

The scale factors of a term line are read by `re.findall`, which finds the one match of
`_sceere` and of `_scnbre`: no other position of the line starts their word
(`avoids_dtypeFields`, `scaleFactors_dtypeLine`). So the term a line reads as is the term
printed, with the periodicity `|cont * per|` (`readTerm_dtypeLine`).
-/

namespace ParmEd.Amber

open ParmEd.Python Pat

/-- A property of every character of a nonempty text holds of the first character of any
text it begins. -/
theorem forall_head?_append {P : Char → Prop} {l : List Char} (hne : l ≠ []) (h : ∀ c ∈ l, P c)
    (rest : List Char) : ∀ c ∈ (l ++ rest).head?, P c := fun c hc =>
  h c (List.mem_of_mem_head? (by rwa [List.head?_append_of_ne_nil _ hne] at hc))

theorem isDigit_of_isSpace {c : Char} (h : isSpace c = true) : isDigit c = false :=
  Bool.eq_false_iff.2 fun hd => by simp [isSpace_of_isDigit hd] at h

theorem ljust_two_length {a : String} (ha : a.length ≤ 2) : (ljust 2 a).data.length = 2 := by
  simp only [ljust, List.length_append, List.length_replicate]
  exact Nat.add_sub_of_le ha

theorem ljust_two_eq {a : String} (ha : a.length ≤ 2) : ∃ x y, (ljust 2 a).data = [x, y] :=
  match (ljust 2 a).data, ljust_two_length ha with
  | [x, y], _ => ⟨x, y, rfl⟩

/-- A type name of at most two characters, printed in a field of two, is read by `(..?)`. -/
theorem typeField_takes (i : Nat) {a : String}
    (ha : a.length ≤ 2 ∧ ∀ c ∈ a.data, isSpace c = false) :
    Takes (typeField i) (ljust 2 a).data (fun _ => True)
      (fun cs => (i, (ljust 2 a).data) :: cs) := by
  have hany : ∀ c ∈ (ljust 2 a).data, anyChar c = true := by
    intro c hc
    rcases List.mem_append.1 hc with hc | hc
    · simp only [anyChar, bne_iff_ne, ne_eq]
      rintro rfl
      exact absurd (ha.2 _ hc) (by decide)
    · rw [List.eq_of_mem_replicate hc]
      rfl
  obtain ⟨x, y, hxy⟩ := ljust_two_eq ha.1
  rw [hxy] at hany ⊢
  exact Takes.group i (Takes.cat (Takes.cls (hany x (by simp)) fun _ => True)
    (Takes.opt (Takes.cls (hany y (by simp)) _)) fun _ _ => trivial)

/-- `\d+(?:\.\d*)?` takes a run of digits before whitespace. -/
theorem digits_takes {D : List Char} (hne : D ≠ []) (hD : ∀ c ∈ D, isDigit c = true) :
    Takes (.cat (plus isDigit) (.opt (.cat (lit '.') (.star isDigit)))) D
      (fun rest => ∀ c ∈ rest.head?, isSpace c = true) id := by
  rw [← List.append_nil D]
  refine Takes.cat (Takes.plus hne hD)
    (Takes.skip fun rest hs => Fails.cat (Fails.cls fun c hc => ?_))
    fun rest hs c hc => isDigit_of_isSpace (hs c hc)
  exact beq_eq_false_iff_ne.2 fun h => absurd (h ▸ hs c hc) (by decide)

/-- `\d+(?:\.\d*)?` takes digits, a point and digits before whitespace. -/
theorem pointed_takes {D₁ D₂ : List Char} (h₁ : D₁ ≠ []) (hd₁ : ∀ c ∈ D₁, isDigit c = true)
    (hd₂ : ∀ c ∈ D₂, isDigit c = true) :
    Takes (.cat (plus isDigit) (.opt (.cat (lit '.') (.star isDigit)))) (D₁ ++ '.' :: D₂)
      (fun rest => ∀ c ∈ rest.head?, isSpace c = true) id :=
  Takes.cat (Takes.plus h₁ hd₁)
    (Takes.opt (Takes.cat (Takes.cls rfl fun _ => True)
      ((Takes.star hd₂).mono fun rest hs c hc => isDigit_of_isSpace (hs c hc)) fun _ _ => trivial))
    fun _ _ c hc => by
      cases Option.mem_def.1 hc
      rfl

/-- `FLOATRE` takes a number, with a minus sign or none, before whitespace. -/
theorem floatre_signed_takes (i : Nat) (neg : Prop) [Decidable neg] {U : List Char}
    (hU : Takes (.cat (plus isDigit) (.opt (.cat (lit '.') (.star isDigit)))) U
      (fun rest => ∀ c ∈ rest.head?, isSpace c = true) id)
    (hne : U ≠ []) (hh : ∀ c ∈ U.head?, isDigit c = true) :
    Takes (floatre i) ((if neg then ['-'] else []) ++ U)
      (fun rest => ∀ c ∈ rest.head?, isSpace c = true)
      (fun cs => (i, (if neg then ['-'] else []) ++ U) :: cs) := by
  refine Takes.group i ?_
  by_cases hneg : neg
  · rw [if_pos hneg]
    exact Takes.cat (Takes.opt (Takes.cls rfl fun _ => True)) (Takes.alt hU) fun _ _ => trivial
  · rw [if_neg hneg]
    refine Takes.cat (Takes.skip fun rest hs => hs) (Takes.alt hU)
      fun rest _ => Fails.cls fun c hc => ?_
    have hc := hh c (by rwa [List.head?_append_of_ne_nil _ hne] at hc)
    simp only [Bool.or_eq_false_iff, beq_eq_false_iff_ne, ne_eq]
    constructor <;> rintro rfl <;> exact absurd hc (by decide)

/-- **`FLOATRE` takes all of `f'{x:.pf}'`** when whitespace follows it. -/
theorem floatre_takes (i p : Nat) (x : ℚ) :
    Takes (floatre i) (fixedDigits p x) (fun rest => ∀ c ∈ rest.head?, isSpace c = true)
      (fun cs => (i, fixedDigits p x) :: cs) := by
  rw [fixedDigits_eq]
  dsimp only
  generalize hD : List.replicate (p + 1 - _) '0' ++ _ = D
  have hdig : ∀ c ∈ D, isDigit c = true := hD ▸ padded_isDigit _ _
  have hlen : p < D.length := by rw [← hD, List.length_append, List.length_replicate]; omega
  refine floatre_signed_takes i _ ?_ ?_ (point_head p hdig hlen)
  · split
    · exact digits_takes (List.ne_nil_of_length_pos (by omega)) hdig
    · exact pointed_takes (List.ne_nil_of_length_pos (by rw [List.length_take]; omega))
        (fun c hc => hdig c (List.mem_of_mem_take hc)) fun c hc => hdig c (List.mem_of_mem_drop hc)
  · split
    · exact List.ne_nil_of_length_pos (by omega)
    · simp

theorem fixedDigits_chars (p : Nat) (x : ℚ) :
    ∀ c ∈ fixedDigits p x, isDigit c = true ∨ c = '.' ∨ c = '-' := by
  rw [fixedDigits_eq]
  intro c hc
  rcases List.mem_append.1 hc with hc | hc
  · split at hc
    · exact .inr (.inr (List.mem_singleton.1 hc))
    · cases hc
  · dsimp only at hc
    have hd := padded_isDigit (p + 1 - (decimal (roundHalfEven (|x| * 10 ^ p))).length)
      (roundHalfEven (|x| * 10 ^ p))
    split at hc
    · exact .inl (hd c hc)
    · simp only [List.mem_append, List.mem_cons] at hc
      rcases hc with hc | rfl | hc
      exacts [.inl (hd c (List.mem_of_mem_take hc)), .inr (.inl rfl),
        .inl (hd c (List.mem_of_mem_drop hc))]

/-- A number printed as a field of a line: a text of digits, a point and a minus sign, which
`FLOATRE` takes whole before whitespace and `float` reads as `v`. -/
structure NumberText (F : List Char) (v : ℚ) : Prop where
  ne_nil : F ≠ []
  chars : ∀ c ∈ F, isDigit c = true ∨ c = '.' ∨ c = '-'
  takes : ∀ i, Takes (floatre i) F (fun rest => ∀ c ∈ rest.head?, isSpace c = true)
    (fun cs => (i, F) :: cs)
  value : toFloat? ⟨F⟩ = some v

namespace NumberText

variable {F : List Char} {v : ℚ}

theorem noSpace (h : NumberText F v) : ∀ c ∈ F, isSpace c = false := fun c hc => by
  rcases h.chars c hc with hd | rfl | rfl
  exacts [isSpace_of_isDigit hd, rfl, rfl]

/-- A signed text of digits with a point. -/
theorem pointed (neg : Prop) [Decidable neg] {D₁ D₂ : List Char} (h₁ : D₁ ≠ [])
    (hd₁ : ∀ c ∈ D₁, isDigit c = true) (hd₂ : ∀ c ∈ D₂, isDigit c = true)
    (hv : toFloat? ⟨(if neg then ['-'] else []) ++ (D₁ ++ '.' :: D₂)⟩ = some v) :
    NumberText ((if neg then ['-'] else []) ++ (D₁ ++ '.' :: D₂)) v := by
  obtain ⟨d, D, rfl⟩ := List.exists_cons_of_ne_nil h₁
  refine ⟨by simp, fun c hc => ?_, fun i => floatre_signed_takes i neg (pointed_takes h₁ hd₁ hd₂)
    (by simp) fun c hc => ?_, hv⟩
  · simp only [List.mem_append, List.mem_cons] at hc
    rcases hc with hc | hc | rfl | hc
    · split at hc
      · exact .inr (.inr (List.mem_singleton.1 hc))
      · cases hc
    · exact .inl (hd₁ c (hc.elim (fun h => h ▸ List.mem_cons_self _ _) (List.mem_cons_of_mem _)))
    · exact .inr (.inl rfl)
    · exact .inl (hd₂ c hc)
  · cases Option.mem_def.1 hc
    exact hd₁ _ (List.mem_cons_self _ _)

theorem fixed (p : Nat) {x : ℚ} (hx : ∃ n : ℤ, x * 10 ^ p = n) : NumberText (fixedDigits p x) x :=
  ⟨fixedDigits_ne_nil p x, fixedDigits_chars p x, fun i => floatre_takes i p x,
    toFloat?_fixedDigits p hx⟩

/-- **`str(x)` as a field**, for a value `reprFloat` prints in fixed form without rounding. -/
theorem repr {x : ℚ} (hx : ShortDecimal x)
    (hr : x = 0 ∨ ((10 : ℚ) ^ (-4 : ℤ) ≤ |x| ∧ |x| < 10 ^ 16)) : NumberText (reprFloat x).data x := by
  by_cases h0 : x = 0
  · subst h0
    have hd : (reprFloat 0).data = (if False then ['-'] else []) ++ (['0'] ++ '.' :: ['0']) := by
      rw [reprFloat, if_pos rfl]
      rfl
    rw [hd]
    exact pointed False (List.cons_ne_nil _ _) (by decide) (by decide)
      (hd ▸ toFloat?_reprFloat hx)
  · obtain ⟨N, hN⟩ := hx.scaled h0
    obtain ⟨hk, hne, hdig, -, -⟩ := reprDigits_exact (abs_pos.2 h0) hN
    obtain ⟨hlo, hhi⟩ := decimalPoint_bounds (abs_pos.2 h0)
    obtain ⟨hr₁, hr₂⟩ := hr.resolve_left h0
    have hrange : -4 < (reprDigits |x|).2 ∧ (reprDigits |x|).2 ≤ 16 := by
      rw [hk]
      constructor
      · by_contra h
        have := zpow_le_zpow_right₀ (by norm_num : (1 : ℚ) ≤ 10) (not_lt.1 h)
        linarith
      · by_contra h
        have := zpow_le_zpow_right₀ (by norm_num : (1 : ℚ) ≤ 10)
          (show (16 : ℤ) ≤ decimalPoint |x| - 1 by omega)
        norm_num at this
        linarith
    obtain ⟨D₁, D₂, hb, h₁, hd₁, hd₂, -⟩ := reprBody_pointed hne hdig hrange
    have hd : (reprFloat x).data = (if x < 0 then ['-'] else []) ++ (D₁ ++ '.' :: D₂) := by
      rw [reprFloat_eq h0, ← hb]
    rw [hd]
    exact pointed _ h₁ hd₁ hd₂ (hd ▸ toFloat?_reprFloat hx)

theorem one : NumberText ['1'] 1 := by
  have hv : toFloat? ⟨['1']⟩ = some 1 := by
    rw [toFloat?_of_digit_head (by decide) (fun c hc => by cases Option.mem_def.1 hc; rfl),
      parseUnsigned_digits (List.cons_ne_nil _ _) (by decide)]
    rfl
  refine ⟨List.cons_ne_nil _ _, by decide, fun i => ?_, hv⟩
  have h := floatre_signed_takes i False (digits_takes (List.cons_ne_nil '1' []) (by decide))
    (List.cons_ne_nil _ _) fun c hc => by cases Option.mem_def.1 hc; rfl
  exact h

end NumberText

/-- Whitespace and a number, before the rest of a pattern. -/
theorem spacedFloat_takes (i : Nat) {S F W : List Char} {v : ℚ} {tail : Pat}
    {stop : List Char → Prop} {caps : Caps → Caps}
    (hS : S ≠ [] ∧ ∀ c ∈ S, isSpace c = true) (hF : NumberText F v) (hW : Takes tail W stop caps)
    (hWs : ∀ rest, stop rest → ∀ c ∈ (W ++ rest).head?, isSpace c = true) :
    Takes (.cat spaces (.cat (floatre i) tail)) (S ++ (F ++ W)) stop
      (fun cs => caps ((i, F) :: cs)) := by
  have h₁ := Takes.cat (hF.takes i) hW hWs
  have h₂ := Takes.cat (Takes.plus hS.1 hS.2) h₁ fun rest _ => by
    rw [List.append_assoc]
    exact forall_head?_append hF.ne_nil hF.noSpace _
  exact h₂

/-- Whitespace and a number, at the end of a pattern. -/
theorem lastFloat_takes (i : Nat) {S F : List Char} {v : ℚ}
    (hS : S ≠ [] ∧ ∀ c ∈ S, isSpace c = true) (hF : NumberText F v) :
    Takes (.cat spaces (floatre i)) (S ++ F) (fun rest => ∀ c ∈ rest.head?, isSpace c = true)
      (fun cs => (i, F) :: cs) := by
  have h := Takes.cat (Takes.plus hS.1 hS.2) (hF.takes i)
    fun rest _ => forall_head?_append hF.ne_nil hF.noSpace rest
  exact h

/-- Whitespace, a number, whitespace and a number: the tail of `_bondre` and `_anglere`. -/
theorem floatFields_takes (i j p q : Nat) (x y : ℚ) {S1 S2 : List Char}
    (hS1 : S1 ≠ [] ∧ ∀ c ∈ S1, isSpace c = true) (hS2 : S2 ≠ [] ∧ ∀ c ∈ S2, isSpace c = true) :
    Takes (.cat spaces (.cat (floatre i) (.cat spaces (floatre j))))
      (S1 ++ (fixedDigits p x ++ (S2 ++ fixedDigits q y)))
      (fun rest => ∀ c ∈ rest.head?, isSpace c = true)
      (fun cs => (j, fixedDigits q y) :: (i, fixedDigits p x) :: cs) := by
  have tail := Takes.cat (Takes.plus hS2.1 hS2.2) (floatre_takes j q y) fun rest _ =>
    forall_head?_append (fixedDigits_ne_nil q y) (fixedDigits_noSpace q y) rest
  have fields := Takes.cat (floatre_takes i p x) tail fun rest _ => by
    rw [List.append_assoc]
    exact forall_head?_append hS2.1 hS2.2 _
  have line := Takes.cat (Takes.plus hS1.1 hS1.2) fields fun rest _ => by
    rw [List.append_assoc]
    exact forall_head?_append (fixedDigits_ne_nil p x) (fixedDigits_noSpace p x) _
  exact line

theorem padding_spaces (n m : Nat) (hn : 0 < n) :
    List.replicate n ' ' ++ List.replicate m ' ' ≠ [] ∧
      ∀ c ∈ List.replicate n ' ' ++ List.replicate m ' ', isSpace c = true :=
  ⟨List.append_ne_nil_of_left_ne_nil (List.ne_nil_of_length_pos (by simpa using hn)) _,
    fun c hc => replicate_isSpace (n + m) c (List.replicate_add n m ' ' ▸ hc)⟩

/-- The end of a line, which `rstrip()` leaves after the last field. -/
theorem endOfLine_stop : ∀ c ∈ ([] : List Char).head?, isSpace c = true := fun _ hc => nomatch hc

/-- The `BOND` line `write` prints for types of at most two characters: `_bondre` finds the two
type fields and the two numbers. -/
theorem bondre_reMatch_written {a1 a2 : String}
    (h1 : a1.length ≤ 2 ∧ ∀ c ∈ a1.data, isSpace c = false)
    (h2 : a2.length ≤ 2 ∧ ∀ c ∈ a2.data, isSpace c = false) (k req : ℚ) :
    bondre.reMatch (ljust 2 a1 ++ "-" ++ ljust 2 a2 ++ "   " ++ formatFixed 8 3 k ++ "  " ++
        formatFixed 6 3 req) =
      some [ljust 2 a1, ljust 2 a2, ⟨fixedDigits 3 k⟩, ⟨fixedDigits 3 req⟩] := by
  have fields := floatFields_takes 3 4 3 3 k req (padding_spaces 3 (8 - (fixedDigits 3 k).length)
    (by decide)) (padding_spaces 2 (6 - (fixedDigits 3 req).length) (by decide))
  have types := Takes.cat (typeField_takes 1 h1) (Takes.cat (@Takes.cls (· == '-') '-' rfl
    fun _ => True) (Takes.cat (typeField_takes 2 h2) fields fun _ _ => trivial)
      fun _ _ => trivial) fun _ _ => trivial
  refine (congrArg bondre.reMatch (String.ext ?_)).trans
    (Regex.reMatch_of_takes (r := bondre) types endOfLine_stop)
  simp only [String.data_append, formatFixed, rjust, List.append_assoc, List.append_nil]
  rfl

/-- The `ANGLE` line `write` prints for types of at most two characters: `_anglere` finds the
three type fields and the two numbers. -/
theorem anglere_reMatch_written {a1 a2 a3 : String}
    (h1 : a1.length ≤ 2 ∧ ∀ c ∈ a1.data, isSpace c = false)
    (h2 : a2.length ≤ 2 ∧ ∀ c ∈ a2.data, isSpace c = false)
    (h3 : a3.length ≤ 2 ∧ ∀ c ∈ a3.data, isSpace c = false) (k theteq : ℚ) :
    anglere.reMatch (ljust 2 a1 ++ "-" ++ ljust 2 a2 ++ "-" ++ ljust 2 a3 ++ "   " ++
        formatFixed 8 3 k ++ "  " ++ formatFixed 6 3 theteq) =
      some [ljust 2 a1, ljust 2 a2, ljust 2 a3, ⟨fixedDigits 3 k⟩, ⟨fixedDigits 3 theteq⟩] := by
  have fields := floatFields_takes 4 5 3 3 k theteq
    (padding_spaces 3 (8 - (fixedDigits 3 k).length) (by decide))
    (padding_spaces 2 (6 - (fixedDigits 3 theteq).length) (by decide))
  have last := Takes.cat (typeField_takes 3 h3) fields fun _ _ => trivial
  have mid := Takes.cat (typeField_takes 2 h2) (Takes.cat (@Takes.cls (· == '-') '-' rfl
    fun _ => True) last fun _ _ => trivial) fun _ _ => trivial
  have types := Takes.cat (typeField_takes 1 h1) (Takes.cat (@Takes.cls (· == '-') '-' rfl
    fun _ => True) mid fun _ _ => trivial) fun _ _ => trivial
  refine (congrArg anglere.reMatch (String.ext ?_)).trans
    (Regex.reMatch_of_takes (r := anglere) types endOfLine_stop)
  simp only [String.data_append, formatFixed, rjust, List.append_assoc, List.append_nil]
  rfl

/-! ## A term of a torsion -/

/-- The periodicity `write_dtype` prints, without its padding. -/
def continuedDigits (cont : Int) (per : ℚ) : List Char :=
  if cont < 0 ∧ per = 0 then "-0.0".data else fixedDigits 1 (cont * per)

theorem formatContinued_eq (cont : Int) (per : ℚ) :
    formatContinued cont per = rjust 5 ⟨continuedDigits cont per⟩ := by
  unfold formatContinued continuedDigits
  split <;> rfl

/-- The periodicity field reads as `cont * per`; `-0.0`, printed for a continued term of
periodicity zero, reads as zero. -/
theorem continuedDigits_number (cont : Int) {per : ℚ} (hper : ∃ n : ℤ, per * 10 ^ 1 = n) :
    NumberText (continuedDigits cont per) (cont * per) := by
  unfold continuedDigits
  split
  · next h =>
    have hd : "-0.0".data = (if True then ['-'] else []) ++ (['0'] ++ '.' :: ['0']) := rfl
    rw [hd]
    refine NumberText.pointed True (List.cons_ne_nil _ _) (by decide) (by decide) ?_
    rw [toFloat?_signed True (by decide) fun c hc => by cases Option.mem_def.1 hc; rfl,
      parseUnsigned_pointed (List.cons_ne_nil _ _) (by decide) (by decide), h.2]
    simp [digitsValue]
  · obtain ⟨n, hn⟩ := hper
    exact NumberText.fixed 1 ⟨cont * n, by push_cast; rw [mul_assoc, hn]⟩

/-- The line `write_dtype` prints for a term of a torsion, before its newline. -/
def dtypeLine (a1 a2 a3 a4 : String) (cont : Int) (t : DihedralType) : String :=
  ljust 2 a1 ++ "-" ++ ljust 2 a2 ++ "-" ++ ljust 2 a3 ++ "-" ++ ljust 2 a4 ++ " " ++
    formatInt 4 1 ++ " " ++ formatFixed 14 8 t.phiK ++ " " ++ formatFixed 8 3 t.phase ++ " " ++
    formatContinued cont t.per ++ "    SCEE=" ++ reprFloat t.scee ++ " SCNB=" ++
    reprFloat t.scnb

theorem writeDtype_eq (a1 a2 a3 a4 : String) (cont : Int) (t : DihedralType) :
    writeDtype a1 a2 a3 a4 cont t = out (dtypeLine a1 a2 a3 a4 cont t ++ "\n") := rfl

/-- A term whose fields `write_dtype` prints without rounding: a barrier of at most eight
decimals, a phase of at most three, a periodicity of at most one, and scale factors that
`reprFloat` prints in fixed form. -/
structure PrintsExactly (t : DihedralType) : Prop where
  phiK : ∃ n : ℤ, t.phiK * 10 ^ 8 = n
  phase : ∃ n : ℤ, t.phase * 10 ^ 3 = n
  per : ∃ n : ℤ, t.per * 10 ^ 1 = n
  scee : ShortDecimal t.scee ∧ (t.scee = 0 ∨ ((10 : ℚ) ^ (-4 : ℤ) ≤ |t.scee| ∧ |t.scee| < 10 ^ 16))
  scnb : ShortDecimal t.scnb ∧ (t.scnb = 0 ∨ ((10 : ℚ) ^ (-4 : ℤ) ≤ |t.scnb| ∧ |t.scnb| < 10 ^ 16))

theorem lead_spaces (n : Nat) :
    ' ' :: List.replicate n ' ' ≠ [] ∧ ∀ c ∈ ' ' :: List.replicate n ' ', isSpace c = true :=
  ⟨List.cons_ne_nil _ _, replicate_isSpace (n + 1)⟩

/-- The term line `write_dtype` prints for types of at most two characters: `_dihedre` finds
the four type fields, the divisor `1`, the barrier, the phase and the periodicity. -/
theorem dihedre_reMatch_written {a1 a2 a3 a4 : String}
    (h1 : a1.length ≤ 2 ∧ ∀ c ∈ a1.data, isSpace c = false)
    (h2 : a2.length ≤ 2 ∧ ∀ c ∈ a2.data, isSpace c = false)
    (h3 : a3.length ≤ 2 ∧ ∀ c ∈ a3.data, isSpace c = false)
    (h4 : a4.length ≤ 2 ∧ ∀ c ∈ a4.data, isSpace c = false) (cont : Int) {t : DihedralType}
    (ht : PrintsExactly t) :
    dihedre.reMatch (dtypeLine a1 a2 a3 a4 cont t) =
      some [ljust 2 a1, ljust 2 a2, ljust 2 a3, ljust 2 a4, "1", ⟨fixedDigits 8 t.phiK⟩,
        ⟨fixedDigits 3 t.phase⟩, ⟨continuedDigits cont t.per⟩] := by
  have per := lastFloat_takes 8 (lead_spaces (5 - (continuedDigits cont t.per).length))
    (continuedDigits_number cont ht.per)
  have phase := spacedFloat_takes 7 (lead_spaces (8 - (fixedDigits 3 t.phase).length))
    (NumberText.fixed 3 ht.phase) per fun _ _ c hc => by cases Option.mem_def.1 hc; rfl
  have phiK := spacedFloat_takes 6 (lead_spaces (14 - (fixedDigits 8 t.phiK).length))
    (NumberText.fixed 8 ht.phiK) phase fun _ _ c hc => by cases Option.mem_def.1 hc; rfl
  have div := spacedFloat_takes 5 (lead_spaces 3) NumberText.one phiK
    fun _ _ c hc => by cases Option.mem_def.1 hc; rfl
  have dash := @Takes.cls (· == '-') '-' rfl fun _ => True
  have t4 := Takes.cat (typeField_takes 4 h4) div fun _ _ => trivial
  have t3 := Takes.cat (typeField_takes 3 h3) (Takes.cat dash t4 fun _ _ => trivial)
    fun _ _ => trivial
  have t2 := Takes.cat (typeField_takes 2 h2) (Takes.cat dash t3 fun _ _ => trivial)
    fun _ _ => trivial
  have t1 := Takes.cat (typeField_takes 1 h1) (Takes.cat dash t2 fun _ _ => trivial)
    fun _ _ => trivial
  refine (congrArg dihedre.reMatch (String.ext ?_)).trans
    (Regex.reMatch_of_takes (r := dihedre) t1 (show ∀ c ∈ ("    SCEE=".data ++
      ((reprFloat t.scee).data ++ (" SCNB=".data ++ (reprFloat t.scnb).data))).head?,
        isSpace c = true from fun c hc => by cases Option.mem_def.1 hc; rfl))
  have hone : toString (1 : Int) = ⟨['1']⟩ := rfl
  simp only [dtypeLine, String.data_append, formatFixed, formatInt, formatContinued_eq, rjust, hone,
    String.length_mk, List.length_singleton, List.append_assoc, List.singleton_append,
    List.cons_append, List.nil_append]

/-! ## The scale factors of a term -/

theorem ne_S_of_chars {c : Char} (h : isDigit c = true ∨ c = '.' ∨ c = '-') : c ≠ 'S' := by
  rintro rfl
  revert h
  decide

/-- The numbers of a term line, with the spaces between them. -/
def dtypeNumbers (cont : Int) (t : DihedralType) : String :=
  formatInt 4 1 ++ " " ++ formatFixed 14 8 t.phiK ++ " " ++ formatFixed 8 3 t.phase ++ " " ++
    formatContinued cont t.per ++ "    "

/-- The fields of a term line before its scale factors. -/
def dtypeFields (a1 a2 a3 a4 : String) (cont : Int) (t : DihedralType) : String :=
  ljust 2 a1 ++ "-" ++ ljust 2 a2 ++ "-" ++ ljust 2 a3 ++ "-" ++ ljust 2 a4 ++ " " ++
    dtypeNumbers cont t

theorem dtypeLine_data (a1 a2 a3 a4 : String) (cont : Int) (t : DihedralType) :
    (dtypeLine a1 a2 a3 a4 cont t).data = (dtypeFields a1 a2 a3 a4 cont t).data ++
      ("SCEE=".data ++ ((reprFloat t.scee).data ++ (" SCNB=".data ++ (reprFloat t.scnb).data))) := by
  simp only [dtypeLine, dtypeFields, dtypeNumbers, String.data_append, List.append_assoc]
  rfl

theorem dtypeFields_data (a1 a2 a3 a4 : String) (cont : Int) (t : DihedralType) :
    (dtypeFields a1 a2 a3 a4 cont t).data = (ljust 2 a1).data ++ '-' :: ((ljust 2 a2).data ++
      '-' :: ((ljust 2 a3).data ++ '-' :: ((ljust 2 a4).data ++ ' ' :: (dtypeNumbers cont t).data))) := by
  simp only [dtypeFields, String.data_append, List.append_assoc]
  rfl

/-- Every character of the numbers of a term line is a space, a digit, a point or a minus sign. -/
theorem dtypeNumbers_chars {P : Char → Prop} (hsp : P ' ')
    (hnum : ∀ c, isDigit c = true ∨ c = '.' ∨ c = '-' → P c) (cont : Int) (t : DihedralType) :
    ∀ c ∈ (dtypeNumbers cont t).data, P c := by
  have hF : ∀ w p x, ∀ c ∈ (formatFixed w p x).data, P c := fun w p x =>
    forall_rjust w hsp fun c hc => hnum c (fixedDigits_chars p x c hc)
  have hC : ∀ c ∈ (formatContinued cont t.per).data, P c := by
    rw [formatContinued_eq]
    refine forall_rjust 5 hsp fun c hc => ?_
    unfold continuedDigits at hc
    split at hc
    · exact hnum c (by revert c; decide)
    · exact hnum c (fixedDigits_chars 1 _ c hc)
  have hI : ∀ c ∈ (formatInt 4 1).data, P c :=
    forall_rjust 4 hsp fun c hc => hnum c (by revert c; decide)
  have hS : ∀ c ∈ "    ".data, P c := fun c hc => by
    obtain rfl : c = ' ' := by revert c; decide
    exact hsp
  simp only [dtypeNumbers, String.data_append, List.forall_mem_append]
  have h1 : ∀ c ∈ " ".data, P c := fun c hc => List.mem_singleton.1 hc ▸ hsp
  exact ⟨⟨⟨⟨⟨⟨⟨hI, h1⟩, hF _ _ _⟩, h1⟩, hF _ _ _⟩, h1⟩, hC⟩, hS⟩

/-- No word that starts with `S` and holds neither `-` nor a space begins in the fields of a
term line. -/
theorem avoids_dtypeFields {l X : List Char} (hS : l.head? = some 'S') (hl : 2 < l.length)
    (hdash : '-' ∉ l) (hsp : ' ' ∉ l) {a1 a2 a3 a4 : String} (h1 : a1.length ≤ 2)
    (h2 : a2.length ≤ 2) (h3 : a3.length ≤ 2) (h4 : a4.length ≤ 2) (cont : Int)
    (t : DihedralType) : Avoids l (dtypeFields a1 a2 a3 a4 cont t).data X := by
  have hl0 : l ≠ [] := fun h => by rw [h] at hS; cases hS
  have hne : ∀ {c}, c ≠ 'S' → l.head? ≠ some c := fun h e => h (Option.some_inj.1 (hS ▸ e)).symm
  have hB : ∀ {a : String}, a.length ≤ 2 → (ljust 2 a).data.length < l.length := fun ha => by
    rw [ljust_two_length ha]; exact hl
  have hnum : ∀ c ∈ ' ' :: (dtypeNumbers cont t).data, c ≠ 'S' :=
    List.forall_mem_cons.2 ⟨by decide, dtypeNumbers_chars (by decide) (fun _ => ne_S_of_chars) _ _⟩
  rw [dtypeFields_data]
  refine Avoids.sep_block hl0 (hB h1) hdash (hne (by decide)) ?_
  refine Avoids.sep_block hl0 (hB h2) hdash (hne (by decide)) ?_
  refine Avoids.sep_block hl0 (hB h3) hdash (hne (by decide)) ?_
  exact (Avoids.block (hB h4) hsp).append (Avoids.of_ne_head hS hnum)

/-- `SCEE=\s*FLOAT` and `SCNB=\s*FLOAT` take their word and a number. -/
theorem scaleRe_takes (L : String) (hL : L.data ≠ []) {F : List Char} {v : ℚ}
    (hF : NumberText F v) :
    Takes (cats [str L, .star isSpace, floatre 1]) (L.data ++ ([] ++ F))
      (fun rest => ∀ c ∈ rest.head?, isSpace c = true) (fun cs => (1, F) :: cs) := by
  have num := Takes.cat (Takes.star (w := []) fun _ h => nomatch h) (hF.takes 1)
    fun rest _ => forall_head?_append hF.ne_nil hF.noSpace rest
  have h := Takes.cat (Takes.lits hL) num fun _ _ => trivial
  exact h

theorem scaleRe_findAll {L s : String} {pre post F : List Char} {v : ℚ} (hL : L.data ≠ [])
    (hs : s.data = pre ++ ((L.data ++ F) ++ post)) (hF : NumberText F v)
    (hsp : ∀ c ∈ post.head?, isSpace c = true) (hpre : Avoids L.data pre ((L.data ++ F) ++ post))
    (hpost : Avoids L.data post []) :
    (Regex.mk (cats [str L, .star isSpace, floatre 1]) 1).findAll s = [[⟨F⟩]] := by
  have hr : ∀ s, ¬ L.data <+: s → Fails (cats [str L, .star isSpace, floatre 1]) s :=
    fun _ h => Fails.cat (Fails.lits hL h)
  refine (Regex.findAll_single (r := ⟨cats [str L, .star isSpace, floatre 1], 1⟩) hs (Regex.noMatchIn_of_avoids hr hpre)
    (List.append_ne_nil_of_left_ne_nil hL _)
    (Regex.matchPrefix_of_takes (scaleRe_takes L hL hF) hsp) (Regex.noMatchIn_of_avoids hr hpost)
    ((hr [] fun h => hL (List.prefix_nil.1 h)) _ [] _)).trans ?_
  rfl

theorem scaleFactor_of_findAll {re : Regex} {d : ℚ} {s : String} {F : List Char} {v : ℚ}
    (h : re.findAll s = [[⟨F⟩]]) (hF : NumberText F v) : scaleFactor re d s = .ok v := by
  simp only [scaleFactor, h, List.mapM_cons, List.mapM_nil, List.headD_cons, floatE, hF.value]
  rfl


/-- The scale factors of a term line: `_sceere` and `_scnbre` each find the one value printed
after their word. -/
theorem scaleFactors_dtypeLine {a1 a2 a3 a4 : String} (h1 : a1.length ≤ 2) (h2 : a2.length ≤ 2)
    (h3 : a3.length ≤ 2) (h4 : a4.length ≤ 2) (cont : Int) {t : DihedralType}
    (hscee : NumberText (reprFloat t.scee).data t.scee)
    (hscnb : NumberText (reprFloat t.scnb).data t.scnb) :
    scaleFactor sceere 1.2 (dtypeLine a1 a2 a3 a4 cont t) = .ok t.scee ∧
      scaleFactor scnbre 2.0 (dtypeLine a1 a2 a3 a4 cont t) = .ok t.scnb := by
  have hS : ∀ {c}, c ≠ 'S' → ∀ {X}, Avoids "SCEE=".data [c] X ∧ Avoids "SCNB=".data [c] X :=
    fun h => ⟨Avoids.of_ne_head rfl fun _ hc => List.mem_singleton.1 hc ▸ h,
      Avoids.of_ne_head rfl fun _ hc => List.mem_singleton.1 hc ▸ h⟩
  have scee : sceere.findAll (dtypeLine a1 a2 a3 a4 cont t) = [[⟨(reprFloat t.scee).data⟩]] := by
    have hpre : Avoids "SCEE=".data (dtypeFields a1 a2 a3 a4 cont t).data
        (("SCEE=".data ++ (reprFloat t.scee).data) ++ (" SCNB=".data ++ (reprFloat t.scnb).data)) :=
      avoids_dtypeFields (by rfl) (by decide) (by decide) (by decide) h1 h2 h3 h4 cont t
    have hword : Avoids "SCEE=".data ['S'] ("CNB=".data ++ (reprFloat t.scnb).data ++ []) :=
      Avoids.single fun h => absurd (List.cons_prefix_cons.1 (List.cons_prefix_cons.1
        (List.cons_prefix_cons.1 h).2).2).1 (by decide)
    have hrest : Avoids "SCEE=".data ("CNB=".data ++ (reprFloat t.scnb).data) [] :=
      Avoids.of_ne_head rfl
        (List.forall_mem_append.2 ⟨by decide, fun c hc => ne_S_of_chars (hscnb.chars c hc)⟩)
    exact scaleRe_findAll (by decide) (by rw [dtypeLine_data]; rfl) hscee
      (fun c hc => by cases Option.mem_def.1 hc; rfl) hpre
      ((hS (by decide)).1.append (hword.append hrest))
  have scnb : scnbre.findAll (dtypeLine a1 a2 a3 a4 cont t) = [[⟨(reprFloat t.scnb).data⟩]] := by
    have hfields : Avoids "SCNB=".data (dtypeFields a1 a2 a3 a4 cont t).data
        (("SCEE=".data ++ ((reprFloat t.scee).data ++ [' '])) ++
          (("SCNB=".data ++ (reprFloat t.scnb).data) ++ [])) :=
      avoids_dtypeFields (by rfl) (by decide) (by decide) (by decide) h1 h2 h3 h4 cont t
    have hword : Avoids "SCNB=".data ['S'] (("CEE=".data ++ ((reprFloat t.scee).data ++ [' '])) ++
        (("SCNB=".data ++ (reprFloat t.scnb).data) ++ [])) :=
      Avoids.single fun h => absurd (List.cons_prefix_cons.1 (List.cons_prefix_cons.1
        (List.cons_prefix_cons.1 h).2).2).1 (by decide)
    have hrest : Avoids "SCNB=".data ("CEE=".data ++ ((reprFloat t.scee).data ++ [' ']))
        (("SCNB=".data ++ (reprFloat t.scnb).data) ++ []) :=
      Avoids.of_ne_head rfl (List.forall_mem_append.2 ⟨by decide, List.forall_mem_append.2
        ⟨fun c hc => ne_S_of_chars (hscee.chars c hc), by decide⟩⟩)
    have hnone : Avoids "SCNB=".data [] [] := fun j hj => absurd hj (Nat.not_lt_zero j)
    exact scaleRe_findAll (by decide)
      (by rw [dtypeLine_data, List.append_nil]; simp only [List.append_assoc]; rfl) hscnb
      (fun _ hc => by cases Option.mem_def.1 hc) (hfields.append (hword.append hrest)) hnone
  exact ⟨scaleFactor_of_findAll scee hscee, scaleFactor_of_findAll scnb hscnb⟩

/-- The term a printed term line reads as: its barrier over the divisor `1`, the periodicity
`cont * per` and its absolute value, the phase and the scale factors. -/
theorem readTerm_dtypeLine {a1 a2 a3 a4 : String} (h1 : a1.length ≤ 2) (h2 : a2.length ≤ 2)
    (h3 : a3.length ≤ 2) (h4 : a4.length ≤ 2) (cont : Int) {t : DihedralType}
    (ht : PrintsExactly t) :
    readTerm ["1", ⟨fixedDigits 8 t.phiK⟩, ⟨fixedDigits 3 t.phase⟩, ⟨continuedDigits cont t.per⟩]
        (dtypeLine a1 a2 a3 a4 cont t) =
      .ok (⟨t.phiK, |cont * t.per|, t.phase, t.scee, t.scnb⟩, cont * t.per) := by
  obtain ⟨scee, scnb⟩ := scaleFactors_dtypeLine h1 h2 h3 h4 cont
    (NumberText.repr ht.scee.1 ht.scee.2) (NumberText.repr ht.scnb.1 ht.scnb.2)
  have hper := (continuedDigits_number cont ht.per).value
  have hk := (NumberText.fixed 8 ht.phiK).value
  have hphase := (NumberText.fixed 3 ht.phase).value
  have hone : toFloat? "1" = some 1 := NumberText.one.value
  simp only [readTerm, scee, scnb, List.getD, List.get?, Option.getD, floatE, hper, hk, hphase,
    hone, floatDiv, bind, Except.bind, one_ne_zero, if_false, div_one]
  rfl

/-! ## An improper -/

/-- The line `write` prints for an improper, before its newline. -/
def improperLine (a1 a2 a3 a4 : String) (t : DihedralType) : String :=
  ljust 2 a1 ++ "-" ++ ljust 2 a2 ++ "-" ++ ljust 2 a3 ++ "-" ++ ljust 2 a4 ++ " " ++
    formatFixed 14 8 t.phiK ++ " " ++ formatFixed 8 3 t.phase ++ " " ++ formatFixed 5 1 t.per

/-- The improper line `write` prints for types of at most two characters: `_impropre` finds the
four type fields, the barrier, the phase and the periodicity. -/
theorem impropre_reMatch_written {a1 a2 a3 a4 : String}
    (h1 : a1.length ≤ 2 ∧ ∀ c ∈ a1.data, isSpace c = false)
    (h2 : a2.length ≤ 2 ∧ ∀ c ∈ a2.data, isSpace c = false)
    (h3 : a3.length ≤ 2 ∧ ∀ c ∈ a3.data, isSpace c = false)
    (h4 : a4.length ≤ 2 ∧ ∀ c ∈ a4.data, isSpace c = false) (t : DihedralType) :
    impropre.reMatch (improperLine a1 a2 a3 a4 t) =
      some [ljust 2 a1, ljust 2 a2, ljust 2 a3, ljust 2 a4, ⟨fixedDigits 8 t.phiK⟩,
        ⟨fixedDigits 3 t.phase⟩, ⟨fixedDigits 1 t.per⟩] := by
  have fields := floatFields_takes 6 7 3 1 t.phase t.per
    (lead_spaces (8 - (fixedDigits 3 t.phase).length))
    (lead_spaces (5 - (fixedDigits 1 t.per).length))
  have S := lead_spaces (14 - (fixedDigits 8 t.phiK).length)
  have phiK := Takes.cat (Takes.plus S.1 S.2) (Takes.cat (floatre_takes 5 8 t.phiK) fields
    fun _ _ c hc => by cases Option.mem_def.1 hc; rfl) fun rest _ => by
      rw [List.append_assoc]
      exact forall_head?_append (fixedDigits_ne_nil 8 t.phiK) (fixedDigits_noSpace 8 t.phiK) _
  have dash := @Takes.cls (· == '-') '-' rfl fun _ => True
  have t4 := Takes.cat (typeField_takes 4 h4) phiK fun _ _ => trivial
  have t3 := Takes.cat (typeField_takes 3 h3) (Takes.cat dash t4 fun _ _ => trivial)
    fun _ _ => trivial
  have t2 := Takes.cat (typeField_takes 2 h2) (Takes.cat dash t3 fun _ _ => trivial)
    fun _ _ => trivial
  have t1 := Takes.cat (typeField_takes 1 h1) (Takes.cat dash t2 fun _ _ => trivial)
    fun _ _ => trivial
  refine (congrArg impropre.reMatch (String.ext ?_)).trans
    (Regex.reMatch_of_takes (r := impropre) t1 endOfLine_stop)
  simp only [improperLine, String.data_append, formatFixed, rjust, List.append_assoc,
    List.singleton_append, List.cons_append, List.nil_append, List.append_nil]
  rfl

end ParmEd.Amber
