import ParmEd.Amber.Parse
import ParmEd.Amber.Write

/-!
# `AmberParameterSet.id_format`

`id_format` tells an Amber parameter file from other files by the line after the title: a
section header of the frcmod layout, possibly after blank lines, or the first atom line of
the parm.dat layout. An atom line has a type name of at most two characters that is not a
number, then a mass; without a polarizability column the mass must fit, within 1 amu, the
element the type name suggests. `load_parameters` makes its own test of the same line to
choose the layout it reads.

* `frcmodLayout_of_idFormat`: on every file `id_format` accepts, `load_parameters` reads the
  frcmod layout exactly when the line after the title is blank or a section header, which are
  the files `id_format` accepted as frcmod files, and the parm.dat layout otherwise.
* `idFormat_written_file`: a file `write` leaves, whether it returned or raised part way, is
  accepted by `id_format`, and `load_parameters` records its title and reads it in the frcmod
  layout from the `MASS` header on, provided the title is one line.
-/

namespace ParmEd.Amber

open ParmEd.Python

/-! ## The model -/

/-- `key in Mass and abs(Mass[key] - mass) <= 1`. -/
def massNear (pt : PeriodicTable) (key : String) (mass : ℚ) : Bool :=
  match pt.mass key with
  | some m => decide (|m - mass| ≤ 1)
  | none => false

/-- The mass test of an atom line without a polarizability, on its type name `w0` and mass:
the element of the name's two letters, or of its first or only letter, must have the mass.
A name of two letters that is no element fails, and one starting with `C` may be carbon
(`Mass['C']`, a `KeyError` for a table without carbon). -/
def massFits (pt : PeriodicTable) (w0 : String) (mass : ℚ) : Except PyError Bool :=
  match w0.data with
  | [c0, c1] =>
    if c0.isAlpha then
      if c1.isAlpha then
        let key := upper ⟨[c0]⟩ ++ lower ⟨[c1]⟩
        match pt.mass key with
        | none => pure false
        | some m =>
          if |m - mass| ≤ 1 then pure true
          else if key.data.head? = some 'C' then
            match pt.mass "C" with
            | some mc => pure (decide (|mc - mass| ≤ 1))
            | none => throw (.keyError "C")
          else pure false
      else pure (massNear pt (upper ⟨[c0]⟩) mass)
    else pure (massNear pt (upper ⟨[c1]⟩) mass)
  | c0 :: _ => pure (massNear pt (upper ⟨[c0]⟩) mass)
  | [] => pure false

/-- The test of `id_format` on the first atom line of a parm.dat file. -/
def atomLine (pt : PeriodicTable) (line : String) : Except PyError Bool :=
  match split line with
  | w0 :: w1 :: ws =>
    if 2 < w0.length then pure false
    else if (toFloat? w0).isSome then pure false
    else match toFloat? w1 with
      | none => pure false
      | some mass => do
        let fits ← if (ws.head?.bind toFloat?).isSome then pure true else massFits pt w0 mass
        if !fits then return false
        match ws with
        | _ :: w3 :: _ => pure (toFloat? w3).isNone
        | _ => pure true
  | _ => pure false

/-- `AmberParameterSet.id_format(filename)` on the lines of the file; `f.readline()` gives
`""` at the end of the file, and only there. -/
def idFormat (pt : PeriodicTable) : List String → Except PyError Bool
  | [] | [_] => pure false
  | _ :: line :: rest =>
    if (strip line).isEmpty then
      pure (match (line :: rest).dropWhile (fun l => !l.isEmpty && (strip l).isEmpty) with
        | l :: _ => !l.isEmpty && headerWords.contains (rstrip l)
        | [] => false)
    else if headerWords.contains (rstrip line) then pure true
    else atomLine pt line

/-! ## The layout `load_parameters` reads -/

theorem headerWords_head {w : String} (h : headerWords.contains w) :
    w.data.head?.map isSpace = some false := by
  have : ∀ w ∈ headerWords, w.data.head?.map isSpace = some false := by decide
  exact this w (List.elem_iff.1 h)

theorem headerWords_noSpace {w : String} (h : headerWords.contains w) :
    ∀ c ∈ w.data, isSpace c = false := by
  have : ∀ w ∈ headerWords, ∀ c ∈ w.data, isSpace c = false := by decide
  exact this w (List.elem_iff.1 h)

/-- An atom line has two words at least. -/
theorem two_le_length_split {pt : PeriodicTable} {line : String}
    (h : atomLine pt line = .ok true) : 2 ≤ (split line).length := by
  unfold atomLine at h
  split at h
  · next w0 w1 ws hs => simp [hs]
  · exact absurd h (by simp [pure, Except.pure])

/-- **`id_format` and `load_parameters` agree on the layout.** On every file `id_format`
accepts, `load_parameters` reads the frcmod layout exactly when the line after the title is
blank or a section header, and the parm.dat layout otherwise. -/
theorem frcmodLayout_of_idFormat {pt : PeriodicTable} {title line : String}
    {rest : List String} (h : idFormat pt (title :: line :: rest) = .ok true) :
    frcmodLayout line = ((strip line).isEmpty || headerWords.contains (rstrip line)) := by
  simp only [idFormat] at h
  by_cases hb : (strip line).isEmpty
  · simp [frcmodLayout, hb]
  · rw [if_neg hb] at h
    by_cases hh : headerWords.contains (rstrip line)
    · simp [frcmodLayout, strip_eq_rstrip (headerWords_head hh), hh]
    · rw [if_neg hh] at h
      have two := two_le_length_split h
      simp only [frcmodLayout, hb, hh, Bool.false_or, Bool.or_false]
      cases hs : headerWords.contains (strip line)
      · rfl
      · have := length_split_le_one (headerWords_noSpace hs)
        omega

/-! ## Files written by `write` -/

/-- **`write` writes a file `id_format` accepts.** -/
theorem idFormat_written_file (pt : PeriodicTable) (s : AmberParameterSet) {title style : String}
    (hstyle : style = "frcmod" ∨ style = "parm")
    (hnl : NoLineBreak (rstripSet ['\r', '\n'] title)) :
    idFormat pt (readLines (stateOf ((write s title style).run ""))) = .ok true ∧
      ∃ more, readLines (stateOf ((write s title style).run "")) =
          (rstripSet ['\r', '\n'] title ++ "\n") :: "MASS\n" :: more ∧
        ∀ st, (loadParameters pt (readLines (stateOf ((write s title style).run "")))).run st =
          (parseFrcmod pt "MASS\n" more).run
            { st with titles := st.titles ++ [strip (rstripSet ['\r', '\n'] title ++ "\n")] } := by
  obtain ⟨u, hu⟩ := write_begins s title style hstyle
  have mass : readLines ("MASS\n" ++ u) = "MASS\n" :: readLines u :=
    readLines_line (l := "MASS") (by decide) u
  rw [hu, String.append_assoc, readLines_line hnl, mass]
  exact ⟨rfl, _, rfl, fun _ => rfl⟩

/-- The default title, on a new parameter set. -/
theorem written_default_title_read_back :
    ("frcmod" = "frcmod" ∨ "frcmod" = "parm") ∧
      NoLineBreak (rstripSet ['\r', '\n'] "Created by ParmEd") ∧
      idFormat carbonTable
          (readLines (stateOf ((write .new "Created by ParmEd" "frcmod").run ""))) = .ok true ∧
      ∃ more, readLines (stateOf ((write .new "Created by ParmEd" "frcmod").run "")) =
          (rstripSet ['\r', '\n'] "Created by ParmEd" ++ "\n") :: "MASS\n" :: more ∧
        ∀ st, (loadParameters carbonTable
            (readLines (stateOf ((write .new "Created by ParmEd" "frcmod").run "")))).run st =
          (parseFrcmod carbonTable "MASS\n" more).run { st with
            titles := st.titles ++ [strip (rstripSet ['\r', '\n'] "Created by ParmEd" ++ "\n")] } :=
  ⟨Or.inl rfl, by decide, idFormat_written_file carbonTable .new (Or.inl rfl) (by decide)⟩

/-- A title broken by a carriage return puts its second line where `id_format` expects the
header. -/
example : idFormat carbonTable (readLines (stateOf ((write .new "a\rb" "frcmod").run ""))) =
    .ok false := rfl

section Evaluation

attribute [local semireducible] Rat.ofScientific Rat.mul Rat.inv Rat.add Rat.sub

/-- A parm.dat file whose first atom line has no polarizability is accepted by the mass of
carbon, and `load_parameters` reads it in the parm.dat layout. -/
theorem idFormat_carbon_parmDat :
    idFormat carbonTable ["t\n", "C   12.01\n"] = .ok true ∧
      frcmodLayout "C   12.01\n" =
        ((strip "C   12.01\n").isEmpty || headerWords.contains (rstrip "C   12.01\n")) :=
  have h : idFormat carbonTable ["t\n", "C   12.01\n"] = .ok true := rfl
  ⟨h, frcmodLayout_of_idFormat h⟩

/-- Without a polarizability, a two-letter type whose name is no element is refused, even
when its first letter is an element of that mass. -/
example : idFormat carbonTable ["t\n", "CT  12.01\n"] = .ok false := rfl

end Evaluation

end ParmEd.Amber
