import Mathlib.Data.List.Sort
import ParmEd.Python.Regex
import ParmEd.Amber.ParameterSet

/-!
# The line handlers of `AmberParameterSet`

The module-level patterns of `parameters.py` and the `_process_*_line` methods, each reading
one line of a section into the parameter set. A handler that raises does so before it
changes the tables; only `_process_dihedral_line` may warn first.

`_process_dihedral_line` carries the continuation protocol of multi-term torsions: the
`finished_diheds` table of the file being read (a `defaultdict` whose missing keys read as
finished) and the key of the previous term while it announced, by a negative periodicity,
that more terms follow.
-/

namespace ParmEd.Amber

open ParmEd.Python Pat

/-! ## Patterns -/

/-- `FLOATRE` as group `i`: `([+-]?(?:\d+(?:\.\d*)?|\.\d+))`. -/
def floatre (i : Nat) : Pat :=
  .group i <| .cat (.opt (.cls fun c => c == '+' || c == '-'))
    (.alt (.cat (plus isDigit) (.opt (.cat (lit '.') (.star isDigit))))
      (.cat (lit '.') (plus isDigit)))

/-- An atom-type field `(..?)` as group `i`. -/
def typeField (i : Nat) : Pat := .group i (.cat (.cls anyChar) (.opt (.cls anyChar)))

/-- `\s+`. -/
def spaces : Pat := plus isSpace

/-- `_bondre`: `(..?)-(..?)\s+FLOAT\s+FLOAT`. -/
def bondre : Regex :=
  ⟨cats [typeField 1, lit '-', typeField 2, spaces, floatre 3, spaces, floatre 4], 4⟩

/-- `_anglere`: `(..?)-(..?)-(..?)\s+FLOAT\s+FLOAT`. -/
def anglere : Regex :=
  ⟨cats [typeField 1, lit '-', typeField 2, lit '-', typeField 3, spaces, floatre 4, spaces,
    floatre 5], 5⟩

/-- `_dihedre`: four atom types and four floats. -/
def dihedre : Regex :=
  ⟨cats [typeField 1, lit '-', typeField 2, lit '-', typeField 3, lit '-', typeField 4, spaces,
    floatre 5, spaces, floatre 6, spaces, floatre 7, spaces, floatre 8], 8⟩

/-- `_dihed2re`: `\s*FLOAT\s+FLOAT\s+FLOAT\s+FLOAT`, a term without atom types. -/
def dihed2re : Regex :=
  ⟨cats [.star isSpace, floatre 1, spaces, floatre 2, spaces, floatre 3, spaces, floatre 4], 4⟩

/-- `_sceere`: `SCEE=\s*FLOAT`. -/
def sceere : Regex := ⟨cats [str "SCEE=", .star isSpace, floatre 1], 1⟩

/-- `_scnbre`: `SCNB=\s*FLOAT`. -/
def scnbre : Regex := ⟨cats [str "SCNB=", .star isSpace, floatre 1], 1⟩

/-- `_impropre`: four atom types and three floats. -/
def impropre : Regex :=
  ⟨cats [typeField 1, lit '-', typeField 2, lit '-', typeField 3, lit '-', typeField 4, spaces,
    floatre 5, spaces, floatre 6, spaces, floatre 7], 7⟩

/-! ## Handlers -/

/-- `a < b` on `str`: code points compared lexicographically (core's `List.lt` on the
characters, named with its instances so that no other order on lists is picked up). -/
def strLt (a b : String) : Prop := @List.lt Char Char.instLT a.data b.data

instance : DecidableRel strLt := fun a b =>
  @List.hasDecidableLt Char Char.instLT Char.instDecidableLt a.data b.data

/-- `a <= b` on `str`. -/
def strLe (a b : String) : Prop := ¬ strLt b a

instance : DecidableRel strLe := fun a b => inferInstanceAs (Decidable (¬ strLt b a))

/-- `sorted(names)` on `str`. -/
def sorted (names : List String) : List String := names.insertionSort strLe

/-- `min(a, b)` on `str`. -/
def strMin (a b : String) : String := if strLt b a then b else a

/-- `max(a, b)` on `str`. -/
def strMax (a b : String) : String := if strLt a b then b else a

variable (pt : PeriodicTable)

/-- `_process_mass_line`: the mass of a known type, or a new atom type whose atomic number
is guessed from its mass (`0` for the extra-point types `EP` and `LP`). -/
def processMassLine (line : String) : ParmM Unit := do
  let words := split line
  let some w := words[1]? | throw (.parameterError "Error parsing MASS line. Not enough tokens")
  let some mass := toFloat? w | throw (.parameterError s!"Could not convert mass to float [{w}]")
  let name := words.headD ""
  let s ← get
  if s.atomTypes.contains name then modify (·.updateAtomType name ({ · with mass := mass }))
  else if name = "EP" ∨ name = "LP" then
    modify (·.addAtomType ⟨name, s.atomTypes.entries.length + 1, mass, 0, none, none⟩)
  else
    let symbol := pt.elementByMass mass
    let some z := pt.atomicNum symbol | throw (.keyError symbol)
    modify (·.addAtomType ⟨name, s.atomTypes.entries.length + 1, mass, z, none, none⟩)

/-- `_process_bond_line`. -/
def processBondLine (line : String) : ParmM Unit := do
  let some [a1, a2, k, eq] := bondre.reMatch line
    | throw (.parameterError s!"Could not understand BOND line [{line}]")
  let t : BondType := ⟨← float k, ← float eq⟩
  modify (·.setBond (strip a1) (strip a2) t)

/-- `_process_angle_line`. -/
def processAngleLine (line : String) : ParmM Unit := do
  let some [a1, a2, a3, k, eq] := anglere.reMatch line
    | throw (.parameterError s!"Could not understand ANGLE line [{line}]")
  let t : AngleType := ⟨← float k, ← float eq⟩
  modify (·.setAngle (strip a1) (strip a2) (strip a3) t)

/-- Whether a torsion's last term has been read in the current file: `finished_diheds`, a
`defaultdict(lambda: True)`. -/
def isFinished (finished : Dict TorsionKey Bool) (key : TorsionKey) : Bool :=
  (finished.get? key).getD true

/-- `[float(x) for x in re.findall(line)] or [default]`, and its first element: the first
`SCEE=` (or `SCNB=`) value of a line, or the default. -/
def scaleFactor (re : Regex) (default : ℚ) (line : String) : Except PyError ℚ := do
  let xs ← (re.findAll line).mapM fun g => floatE (g.headD "")
  pure (xs.headD default)

/-- The term a dihedral line with fields `div, k, phi, per` defines, and its periodicity with
its sign: `DihedralType(float(k) / float(div), abs(per), float(phi), scee[0], scnb[0])`. -/
def readTerm (fields : List String) (line : String) : Except PyError (DihedralType × ℚ) := do
  let scee ← scaleFactor sceere 1.2 line
  let scnb ← scaleFactor scnbre 2.0 line
  let per ← floatE (fields.getD 3 "")
  let k ← floatE (fields.getD 1 "")
  let div ← floatE (fields.getD 0 "")
  let phiK ← floatDiv k div
  let phase ← floatE (fields.getD 2 "")
  pure (⟨phiK, |per|, phase, scee, scnb⟩, per)

/-- `x` is the first value the pattern `re` finds on the line, or `default` when it finds
none. -/
def FirstValue (re : Regex) (default : ℚ) (line : String) (x : ℚ) : Prop :=
  match re.findAll line with
  | [] => x = default
  | g :: _ => toFloat? (g.headD "") = some x

theorem firstValue_of_scaleFactor {re : Regex} {d x : ℚ} {line : String}
    (h : scaleFactor re d line = .ok x) : FirstValue re d line x := by
  unfold scaleFactor at h
  obtain ⟨xs, hxs, hx⟩ := ok_of_bind_eq_ok h
  cases hx
  unfold FirstValue
  cases hf : re.findAll line with
  | nil => rw [hf] at hxs; cases hxs; rfl
  | cons g gs =>
    rw [hf, List.mapM_cons] at hxs
    obtain ⟨v, hv, hrest⟩ := ok_of_bind_eq_ok hxs
    obtain ⟨vs, -, hvs⟩ := ok_of_bind_eq_ok hrest
    cases hvs
    exact toFloat?_of_floatE hv

/-- **The term of a dihedral line, from its fields**: `k / div` for a nonzero `div`, `|per|`,
`phi`, and the line's first `SCEE=` and `SCNB=` values, or `1.2` and `2.0`. -/
theorem readTerm_spec {div k phi per line : String} {t : DihedralType} {p : ℚ}
    (h : readTerm [div, k, phi, per] line = .ok (t, p)) :
    ∃ vdiv vk : ℚ, toFloat? div = some vdiv ∧ toFloat? k = some vk ∧ vdiv ≠ 0 ∧
      t.phiK = vk / vdiv ∧ toFloat? per = some p ∧ t.per = |p| ∧ toFloat? phi = some t.phase ∧
      FirstValue sceere 1.2 line t.scee ∧ FirstValue scnbre 2.0 line t.scnb := by
  unfold readTerm at h
  obtain ⟨scee, hscee, h⟩ := ok_of_bind_eq_ok h
  obtain ⟨scnb, hscnb, h⟩ := ok_of_bind_eq_ok h
  obtain ⟨vper, hper, h⟩ := ok_of_bind_eq_ok h
  obtain ⟨vk, hk, h⟩ := ok_of_bind_eq_ok h
  obtain ⟨vdiv, hdiv, h⟩ := ok_of_bind_eq_ok h
  obtain ⟨phiK, hphiK, h⟩ := ok_of_bind_eq_ok h
  obtain ⟨phase, hphase, h⟩ := ok_of_bind_eq_ok h
  cases h
  unfold floatDiv at hphiK
  split at hphiK
  · cases hphiK
  · cases hphiK
    exact ⟨vdiv, vk, toFloat?_of_floatE hdiv, toFloat?_of_floatE hk, ‹_›, rfl,
      toFloat?_of_floatE hper, rfl, toFloat?_of_floatE hphase, firstValue_of_scaleFactor hscee,
      firstValue_of_scaleFactor hscnb⟩

/-- A torsion key as Python prints a tuple of strings. -/
def reprKey : TorsionKey → String
  | (a, b, c, d) => "('" ++ a ++ "', '" ++ b ++ "', '" ++ c ++ "', '" ++ d ++ "')"

/-- The key a dihedral line adds its term to: its own atom types, or for a line without
them the key of the previous term, which must have announced a continuation. -/
def dihedralKey (line : String) (finished : Dict TorsionKey Bool) (lastKey : Option TorsionKey) :
    ParmM (TorsionKey × List String) := do
  match dihedre.reMatch line, lastKey with
  | none, none => throw (.parameterError s!"Could not understand DIHEDRAL line [{line}]")
  | none, some key =>
    let some [div, k, phi, per] := dihed2re.reMatch line
      | throw (.parameterError s!"Could not understand DIHEDRAL line [{line}]")
    if !finished.contains key then throw (.assertionError "")
    if isFinished finished key then
      throw (.assertionError "Cannot have an implied torsion that has already finished!")
    pure (key, [div, k, phi, per])
  | some [a1, a2, a3, a4, div, k, phi, per], lastKey =>
    let key := (strip a1, strip a2, strip a3, strip a4)
    if let some last := lastKey then
      if last ≠ key ∧ last ≠ TorsionKey.reverse key then
        warn .parameterWarning
          ("Expecting next term in dihedral " ++ reprKey last ++ ", got dihedral " ++ reprKey key)
    pure (key, [div, k, phi, per])
  | some _, _ => throw (.parameterError s!"Could not understand DIHEDRAL line [{line}]")

/-- `_process_dihedral_line`: a term `k / divisor, |per|, phase, scee, scnb`, which starts a
new `DihedralTypeList` for both orientations of its key when the key's torsion is finished,
and is appended to the shared list otherwise. Returns the updated `finished_diheds` and the
key when the periodicity is negative, announcing another term. -/
def processDihedralLine (line : String) (finished : Dict TorsionKey Bool)
    (lastKey : Option TorsionKey) : ParmM (Dict TorsionKey Bool × Option TorsionKey) := do
  let (key, fields) ← dihedralKey line finished lastKey
  let rkey := TorsionKey.reverse key
  let (typ, per) ← ofExcept (readTerm fields line)
  if isFinished finished key then modify (·.setDihedral key rkey typ)
  else
    let some h := (← get).dihedralTypes.get? key | throw (.keyError (reprKey key))
    modify (·.appendDihedral h typ)
  let finished := (finished.insert key (0 ≤ per)).insert rkey (0 ≤ per)
  pure (finished, if per < 0 then some key else none)

/-- The key of an improper: the three outer atom types sorted, the central one kept third. -/
def improperKey (a1 a2 a3 a4 : String) : TorsionKey :=
  match sorted [a1, a2, a4] with
  | [b1, b2, b4] => (b1, b2, a3, b4)
  | _ => (a1, a2, a3, a4)

/-- `_process_improper_line`. -/
def processImproperLine (line : String) : ParmM Unit := do
  let some [a1, a2, a3, a4, k, phi, per] := impropre.reMatch line
    | throw (.parameterError s!"Could not understand IMPROPER line [{line}]")
  let key := improperKey (strip a1) (strip a2) (strip a3) (strip a4)
  let t : DihedralType := ⟨← float k, ← float per, ← float phi, 1, 1⟩
  modify (·.setImproper key t)

/-- `_process_nonbond_line`: the Lennard-Jones radius and well depth of a known type. -/
def processNonbondLine (line : String) : ParmM Unit := do
  let atyp :: rmin :: eps :: _ := split line
    | throw (.parameterError s!"Could not understand nonbond parameter line [{line}]")
  let s ← get
  let some _ := s.atomTypes.get? atyp
    | throw (.parameterError s!"Atom type {atyp} not present in the database.")
  let (some e, some r) := (toFloat? eps, toFloat? rmin)
    | throw (.parameterError s!"Could not convert nonbond parameters to floats [{rmin}, {eps}]")
  modify (·.updateAtomType atyp (·.setLjParams (some e) (some r)))

/-- `_process_nbfix_line`: the pair's combined `(sqrt(eps1 * eps2), rmin1 + rmin2)`, also for
the types equivalenced to either atom type when an equivalencing table is given. -/
def processNbfixLine (line : String) (equivalents : Option (Dict String (List String))) :
    ParmM Unit := do
  let a1 :: a2 :: rmin1 :: eps1 :: rmin2 :: eps2 :: _ := split line
    | throw (.parameterError s!"Could not understand LJEDIT line [{line}]")
  let (some r1, some e1, some r2, some e2) :=
      (toFloat? rmin1, toFloat? eps1, toFloat? rmin2, toFloat? eps2)
    | throw (.parameterError "Could not convert LJEDIT parameters to floats.")
  let eps ← ofExcept (mathSqrt (e1 * e2))
  let v := (eps, r1 + r2)
  let pairKey (x y : String) : BondKey := (strMin x y, strMax x y)
  modify (·.setNbfix (pairKey a1 a2) v)
  if let some eq := equivalents then
    let eq1 := (eq.get? a1).getD []
    let eq2 := (eq.get? a2).getD []
    for oa1 in eq1 do modify (·.setNbfix (pairKey oa1 a2) v)
    for oa2 in eq2 do modify (·.setNbfix (pairKey a1 oa2) v)
    for oa1 in eq1 do
      for oa2 in eq2 do modify (·.setNbfix (pairKey oa1 oa2) v)

end ParmEd.Amber
