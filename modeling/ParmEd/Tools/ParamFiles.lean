import ParmEd.Tools.Add1264

/-!
# The parameter files of `add1264`

`_get_params(fname)` reads a file of lines `atomtype param ...` into a dictionary. A type met
twice keeps the value of its last line, and a line whose value is more than `0.0001` from the
value its type held before issues a `DuplicateParamWarning`. The code compares doubles
(`exceedsTolerance`); for values whose distance is not within the rounding error of `0.0001`,
that is the comparison of the values written (`exceedsTolerance_iff`), while `0.001` and
`0.0011` do differ by more than `0.0001` as doubles.

* `paramLine_run`: one line, as the update of the dictionary and the warning it issues.
* `getParams_spec`: on a file all of whose lines are read, the dictionary holds the value of
  the last line of each type, and the warnings are one for each line that differs from the
  last earlier line of its type.
* `getParams_raises`: a line on which `_get_params` raises `ValueError` (`ValueErrorLine`) does
  so, after the warnings of the lines before it.
-/

namespace ParmEd.Tools

open ParmEd.Python ParmEd.Amber

/-- The atom type and the value of one line of a parameter file, `none` for a line on which
`_get_params` raises `ValueError`. -/
def paramEntry (line : String) : Option (String × ℚ) :=
  match split line with
  | atomtype :: param :: _ => (toFloat? param).map (atomtype, ·)
  | _ => none

/-- A line on which `_get_params` raises `ValueError`: no entry is read from it, and its value
word, if it has one, is a `PlainFloatWord`, which `float()` refuses as `toFloat?` does. -/
def ValueErrorLine (line : String) : Prop :=
  paramEntry line = none ∧ ∀ w ∈ (split line)[1]?, PlainFloatWord w

/-- The value of the last of the lines `es` of type `t`. -/
def lastValue (es : List (String × ℚ)) (t : String) : Option ℚ :=
  (es.reverse.find? (·.1 = t)).map Prod.snd

theorem lastValue_append (es : List (String × ℚ)) (t t' : String) (v : ℚ) :
    lastValue (es ++ [(t, v)]) t' = if t = t' then some v else lastValue es t' := by
  by_cases h : t = t' <;> simp [lastValue, h]

/-- The empty dictionary holds the last values of no lines. -/
theorem get?_empty (t : String) : ({} : Dict String ℚ).get? t = lastValue [] t := rfl

/-- Two values whose distance differs from `0.0001` by more than `(|v| + |old| + 1) / 10 ^ 15`,
more than the rounding to doubles can move it. -/
def ClearOfTolerance (v old : ℚ) : Prop :=
  (|v| + |old| + 1) / 10 ^ 15 < abs (|v - old| - 1 / 10000)

/-- **The code's test away from the tolerance.** For values clear of it, the comparison the code
makes on doubles is that of the values written. -/
theorem exceedsTolerance_iff {v old : ℚ} (h : ClearOfTolerance v old) :
    exceedsTolerance v old ↔ 1 / 10000 < |v - old| := by
  have hδ : pow2 (-1075) ≤ 1 / 10 ^ 20 := by
    rw [show pow2 (-1075) = 1 / 2 ^ 1075 from pow2_neg 1075]
    norm_num
  have hA := abs_roundDouble_sub_le v
  have hB := abs_roundDouble_sub_le old
  have hZ := abs_roundDouble_sub_le (roundDouble v - roundDouble old)
  have hT := abs_le.1 (abs_roundDouble_sub_le (1 / 10000))
  rw [abs_of_pos (by norm_num : (0 : ℚ) < 1 / 10000)] at hT
  unfold exceedsTolerance ClearOfTolerance at *
  generalize roundDouble v = a at *
  generalize roundDouble old = b at *
  generalize roundDouble (a - b) = z at *
  -- the error of the computed distance, by the triangle inequality
  have hab : |a - b| ≤ |v| + |old| + |a - v| + |b - old| := by
    calc |a - b| = |(v - old) + (a - v) - (b - old)| := by ring_nf
      _ ≤ |v - old| + |a - v| + |b - old| := (abs_sub _ _).trans (by gcongr; exact abs_add _ _)
      _ ≤ _ := by gcongr; exact abs_sub _ _
  have hzv : |z - (v - old)| ≤ |z - (a - b)| + |a - v| + |b - old| := by
    calc |z - (v - old)| = |(z - (a - b)) + (a - v) - (b - old)| := by ring_nf
      _ ≤ _ := (abs_sub _ _).trans (by gcongr; exact abs_add _ _)
  have hgap := abs_le.1 ((abs_abs_sub_abs_le_abs_sub z (v - old)).trans hzv)
  have := abs_nonneg v
  have := abs_nonneg old
  rcases lt_abs.1 h with hc | hc <;> constructor <;> intro <;> linarith

/-- The warning of a line of type `t` and value `v` after the lines `earlier`. -/
def duplicateWarning (fname : String) (earlier : List (String × ℚ)) (t : String) (v : ℚ) :
    List Output :=
  match lastValue earlier t with
  | some old =>
    if exceedsTolerance v old then
      [.warned "DuplicateParamWarning" s!"Atom type {t} has multiple parameters in {fname}."]
    else []
  | none => []

/-- The warnings of the lines `es` after the lines `earlier`. -/
def duplicateWarnings (fname : String) (earlier : List (String × ℚ)) :
    List (String × ℚ) → List Output
  | [] => []
  | (t, v) :: es =>
    duplicateWarning fname earlier t v ++ duplicateWarnings fname (earlier ++ [(t, v)]) es

/-- **Step lemma.** A line that is read stores its value and issues its warning. -/
theorem paramLine_run (fname : String) {earlier : List (String × ℚ)} {d : Dict String ℚ}
    (hd : ∀ t, d.get? t = lastValue earlier t) {line t : String} {v : ℚ}
    (hl : paramEntry line = some (t, v)) (out : List Output) :
    (paramLine fname d line).run out =
      .ok (d.insert t v) (out ++ duplicateWarning fname earlier t v) := by
  unfold paramEntry at hl
  unfold paramLine
  rcases hs : split line with _ | ⟨atomtype, _ | ⟨param, _⟩⟩ <;> rw [hs] at hl
  · cases hl
  · cases hl
  · obtain ⟨v', hv', hp⟩ := Option.map_eq_some'.1 hl
    cases hp
    have hf : floatE param = .ok v := by simp [floatE, hv']
    simp only [hf, MonadExcept.ofExcept, hd, duplicateWarning]
    cases lastValue earlier t with
    | none => simp
    | some old =>
      by_cases hw : exceedsTolerance v old
      · simp only [pure_bind, hw, if_true]
        rfl
      · simp only [pure_bind, hw, if_false, List.append_nil]
        rfl

/-- A line that is not read raises `ValueError` and issues nothing. -/
theorem paramLine_error (fname : String) (d : Dict String ℚ) {line : String}
    (hl : paramEntry line = none) (out : List Output) :
    ∃ msg, (paramLine fname d line).run out = .error (.valueError msg) out := by
  unfold paramEntry at hl
  unfold paramLine
  rcases hs : split line with _ | ⟨atomtype, _ | ⟨param, _⟩⟩
  · exact ⟨_, rfl⟩
  · exact ⟨_, rfl⟩
  · rw [hs] at hl
    have hv : toFloat? param = none := Option.map_eq_none'.1 hl
    simp only [floatE, hv, MonadExcept.ofExcept]
    exact ⟨_, rfl⟩

/-- **Run lemma.** The lines `lines`, all of them read, after lines `earlier` whose last
values `d` holds. -/
theorem foldlM_paramLine_run (fname : String) {lines : List String} {es : List (String × ℚ)}
    (hes : lines.map paramEntry = es.map some) {earlier : List (String × ℚ)}
    {d : Dict String ℚ} (hd : ∀ t, d.get? t = lastValue earlier t) (out : List Output) :
    ∃ d', (lines.foldlM (paramLine fname) d).run out =
        .ok d' (out ++ duplicateWarnings fname earlier es) ∧
      ∀ t, d'.get? t = lastValue (earlier ++ es) t := by
  induction lines generalizing es earlier d out with
  | nil =>
    cases es with
    | nil => exact ⟨d, by simp [duplicateWarnings], by simpa using hd⟩
    | cons => cases hes
  | cons line lines ih =>
    cases es with
    | nil => cases hes
    | cons e es =>
      obtain ⟨t, v⟩ := e
      simp only [List.map_cons, List.cons.injEq] at hes
      have hd' : ∀ t', (d.insert t v).get? t' = lastValue (earlier ++ [(t, v)]) t' := by
        intro t'
        rw [Dict.get?_insert, lastValue_append, hd]
        by_cases h : t = t'
        · simp [h]
        · simp [h, Ne.symm h]
      obtain ⟨d', h', hlast⟩ := ih hes.2 hd' _
      refine ⟨d', ?_, by simpa using hlast⟩
      rw [List.foldlM_cons, run_bind_of_ok (paramLine_run fname hd hes.1 out), h']
      simp [duplicateWarnings]

/-- **`_get_params` on a file all of whose lines are read**: the value of the last line of
each type, and a warning for each line that differs from the last earlier line of its
type. -/
theorem getParams_spec (fname : String) (lines : List String) (es : List (String × ℚ))
    (hes : lines.map paramEntry = es.map some) (out : List Output) :
    ∃ d, (getParams fname lines).run out = .ok d (out ++ duplicateWarnings fname [] es) ∧
      ∀ t, d.get? t = lastValue es t := by
  simpa using foldlM_paramLine_run fname hes get?_empty out

/-- **`_get_params` on a file with a line that raises** raises `ValueError` there, after the
warnings of the lines before it. -/
theorem getParams_raises (fname : String) {read : List String} {es : List (String × ℚ)}
    (hes : read.map paramEntry = es.map some) {line : String} (hl : ValueErrorLine line)
    (rest : List String) (out : List Output) :
    ∃ msg, (getParams fname (read ++ line :: rest)).run out =
      .error (.valueError msg) (out ++ duplicateWarnings fname [] es) := by
  obtain ⟨d, h, _⟩ := foldlM_paramLine_run fname hes get?_empty out
  obtain ⟨msg, he⟩ := paramLine_error fname d hl.1 (out ++ duplicateWarnings fname [] es)
  refine ⟨msg, ?_⟩
  rw [getParams, List.foldlM_append, run_bind_of_ok h, List.foldlM_cons, run_bind_of_error he]
section Evaluation

attribute [local semireducible] Rat.ofScientific Rat.mul Rat.inv Rat.add Rat.sub

/-- Zinc given twice, with values `0.001` and `0.0011`, whose doubles differ by more than
`0.0001`: the second value is kept, with a warning. -/
theorem getParams_zinc_twice :
    ["ZN 0.001\n", "ZN 0.0011\n"].map paramEntry = [("ZN", 0.001), ("ZN", 0.0011)].map some ∧
      ∃ d, (getParams "pol.dat" ["ZN 0.001\n", "ZN 0.0011\n"]).run [] =
          .ok d ([] ++ duplicateWarnings "pol.dat" [] [("ZN", 0.001), ("ZN", 0.0011)]) ∧
        ∀ t, d.get? t = lastValue [("ZN", 0.001), ("ZN", 0.0011)] t :=
  have h : ["ZN 0.001\n", "ZN 0.0011\n"].map paramEntry =
      [("ZN", 0.001), ("ZN", 0.0011)].map some := rfl
  ⟨h, getParams_spec "pol.dat" _ _ h []⟩

set_option maxRecDepth 4000 in
example : duplicateWarnings "pol.dat" [] [("ZN", 0.001), ("ZN", 0.0011)] =
    [.warned "DuplicateParamWarning" "Atom type ZN has multiple parameters in pol.dat."] := by
  decide

/-- A line whose value has two points, after a line that is read. -/
theorem getParams_value_two_points :
    ["ZN 0.5\n"].map paramEntry = [("ZN", 0.5)].map some ∧ ValueErrorLine "ZN 0.5.1\n" ∧
      ∃ msg, (getParams "pol.dat" (["ZN 0.5\n"] ++ ["ZN 0.5.1\n"])).run [] =
        .error (.valueError msg) ([] ++ duplicateWarnings "pol.dat" [] [("ZN", 0.5)]) :=
  have h : ["ZN 0.5\n"].map paramEntry = [("ZN", 0.5)].map some := rfl
  have hl : ValueErrorLine "ZN 0.5.1\n" := ⟨rfl, by decide⟩
  ⟨h, hl, getParams_raises "pol.dat" h hl [] []⟩

end Evaluation

end ParmEd.Tools
