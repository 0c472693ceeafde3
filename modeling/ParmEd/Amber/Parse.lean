import ParmEd.Amber.LineHandlers

/-!
# Reading parameter files

`load_parameters` reads a title and dispatches on the next line: a blank line or a section
header starts the frcmod layout, anything else the parm.dat layout.

* `_parse_frcmod` is a loop over lines (`frcmodLine`) with three local variables: the current
  section, switched by any line that starts with a header word, the file's `finished_diheds`
  and the key of a torsion whose next term is expected. The key survives other sections, so a
  continuation may follow a `DIHE` section that starts again later.
* `_parse_parm_dat` reads its sections in a fixed order from a stream that yields the file's
  lines, then `''` once, then raises `StopIteration`. Each section runs until a blank line or
  that `''`. After the nonbonded terms the equivalenced types take their canonical type's
  Lennard-Jones parameters, unless they have their own and these differ by more than `TINY`;
  such a type is then dropped from the lists the `LJEDIT` section propagates exceptions to.
-/

namespace ParmEd.Amber

open ParmEd.Python

/-- The section headers `load_parameters` recognises after the title. -/
def headerWords : List String :=
  ["MASS", "BOND", "ANGLE", "ANGL", "DIHE", "DIHED", "DIHEDRAL", "IMPR", "IMPROP", "IMPROPER",
    "NONB", "NONBON", "NONBOND", "NONBONDED"]

/-! ## The frcmod layout -/

/-- The sections of an frcmod file. -/
inductive Section
  | mass | bond | angle | dihedral | improper | nonbond | nbfix
  deriving DecidableEq, Repr

/-- The section a line opens, by the `startswith` tests of `_parse_frcmod` in their order. -/
def frcmodHeader (line : String) : Option Section :=
  if startswith line "MASS" then some .mass
  else if startswith line "BOND" then some .bond
  else if startswith line "ANGL" then some .angle
  else if startswith line "DIHE" then some .dihedral
  else if startswith line "IMPR" then some .improper
  else if startswith line "NONB" then some .nonbond
  else if startswith line "LJEDIT" then some .nbfix
  else none

/-- The local variables of `_parse_frcmod`'s loop. -/
structure FrcmodLoop where
  sec : Option Section
  finished : Dict TorsionKey Bool
  key : Option TorsionKey

/-- The loop's variables before the first line. -/
def FrcmodLoop.init : FrcmodLoop := ⟨none, {}, none⟩

variable (pt : PeriodicTable)

/-- One line of `_parse_frcmod`: blank lines are skipped, header lines switch the section,
other lines go to the current section's handler (and are ignored before any header). -/
def frcmodLine (loop : FrcmodLoop) (raw : String) : ParmM FrcmodLoop := do
  let line := rstrip raw
  if line.isEmpty then return loop
  if let some sec := frcmodHeader line then return { loop with sec := some sec }
  match loop.sec with
  | some .mass => processMassLine pt line; pure loop
  | some .bond => processBondLine line; pure loop
  | some .angle => processAngleLine line; pure loop
  | some .dihedral =>
    let (finished, key) ← processDihedralLine line loop.finished loop.key
    pure { loop with finished := finished, key := key }
  | some .improper => processImproperLine line; pure loop
  | some .nonbond => processNonbondLine line; pure loop
  | some .nbfix => processNbfixLine line none; pure loop
  | none => pure loop

/-- `_parse_frcmod(f, line)`: the first line, then the rest of the file. -/
def parseFrcmod (line : String) (f : List String) : ParmM Unit := do
  let _ ← (line :: f).foldlM (frcmodLine pt) FrcmodLoop.init

/-! ## The parm.dat layout -/

/-- `next(fiter)`. -/
def next : List String → ParmM (String × List String)
  | [] => throw .stopIteration
  | l :: ls => pure (l, ls)

/-- The test that ends a parm.dat section: `while rawline: line = rawline.strip(); if not line:
break`. -/
def sectionEnd (raw : String) : Bool := raw.isEmpty || (strip raw).isEmpty

/-- The loop of one parm.dat section, with a state of its own:
`while rawline: line = rawline.strip(); if not line: break; ...; rawline = next(fiter)`. -/
def sectionLoop {σ : Type} (handle : σ → String → ParmM σ) :
    σ → String → List String → ParmM (σ × List String)
  | acc, raw, [] =>
    if sectionEnd raw then pure (acc, [])
    else do
      let _ ← handle acc (strip raw)
      throw .stopIteration
  | acc, raw, r :: rest =>
    if sectionEnd raw then pure (acc, r :: rest)
    else do
      let acc ← handle acc (strip raw)
      sectionLoop handle acc r rest

/-- A section whose handler keeps no state of its own. -/
def simpleSection (handle : String → ParmM Unit) (raw : String) (rest : List String) :
    ParmM (List String) := do
  let (_, rest) ← sectionLoop (fun _ line => handle line) () raw rest
  pure rest

/-- One line of the 10-12 section: the file is refused unless both coefficients are zero. -/
def processTenTwelveLine (line : String) : ParmM Unit := do
  let _ :: _ :: acoef :: bcoef :: _ := split line
    | throw (.parameterError "Trouble parsing 10-12 terms")
  let (some a, some b) := (toFloat? acoef, toFloat? bcoef)
    | throw (.parameterError "Trouble parsing 10-12 terms")
  if a ≠ 0 ∨ b ≠ 0 then
    throw (.parameterError "10-12 potential not supported in AmberParameterSet currently")

/-- The equivalencing tables: `equivalent_ljtypes` (type to canonical type) and
`equivalent_types` (canonical type to its list of types, a `defaultdict(list)`). -/
abbrev Equivalences := Dict String String × Dict String (List String)

/-- One line of the equivalencing section: `canonical type type ...`. -/
def equivalenceLine (eq : Equivalences) (line : String) : Equivalences :=
  match split line with
  | [] => eq
  | c :: typs =>
    typs.foldl (fun (lj, ty) t => (lj.insert t c, ty.insert c ((ty.get? c).getD [] ++ [t]))) eq

/-- `TINY` of `parmed.constants`. Modelled from the spec: the tolerance of the equivalencing
check is `1e-8`. -/
def tiny : ℚ := 1 / 10 ^ 8

/-- `list.remove(x)`: the first occurrence of `x` removed, `none` for the `ValueError` of a
list without one. -/
def removeFirst (x : String) : List String → Option (List String)
  | [] => none
  | y :: ys => if y = x then some ys else (removeFirst x ys).map (y :: ·)

/-- `abs(otyp.epsilon - eps) > TINY or abs(otyp.rmin - rmin) > TINY`: whether an equivalenced
type's own parameters differ from its canonical type's, a `TypeError` when one of those the
test reads is unset. -/
def ljDiffers (o : AtomType) (rmin eps : ℚ) : Except PyError Bool :=
  let unset := PyError.typeError "unsupported operand type(s) for -: 'NoneType' and 'float'"
  match o.epsilon with
  | none => .error unset
  | some oe =>
    if tiny < |oe - eps| then .ok true
    else match o.rmin with
      | none => .error unset
      | some orm => .ok (decide (tiny < |orm - rmin|))

/-- One equivalenced type `atyp` of canonical type `otyp`: it takes `otyp`'s Lennard-Jones
parameters, unless it has its own and they differ, when it is dropped from `otyp`'s list. -/
def assignEquivalence (types : Dict String (List String)) (atyp otyp : String) :
    ParmM (Dict String (List String)) := do
  let s ← get
  let some o := s.atomTypes.get? otyp | throw (.keyError otyp)
  let some a := s.atomTypes.get? atyp | return types
  if let (some ar, some ae) := (a.rmin, a.epsilon) then
    if ← ofExcept (ljDiffers o ar ae) then
      warn .amberWarning (o.name ++ " and " ++ atyp ++ " expected to be equal but are not")
      let some rest := removeFirst atyp ((types.get? o.name).getD [])
        | throw (.valueError "list.remove(x): x not in list")
      return types.insert o.name rest
  modify (·.updateAtomType atyp (·.setLjParams o.epsilon o.rmin))
  pure types

/-- The loop over `equivalent_ljtypes.items()`. -/
def assignEquivalences (ljtypes : Dict String String) (types : Dict String (List String)) :
    ParmM (Dict String (List String)) :=
  ljtypes.entries.foldlM (fun types (atyp, otyp) => assignEquivalence types atyp otyp) types

/-- The part of `_parse_parm_dat(f, line)` before the torsions: the masses, the line of
hydrophilic types, the bonds and the angles. Returns the stream at the torsion section. -/
def parmDatUpToDihedrals (line : String) (f : List String) : ParmM (String × List String) := do
  let (raw, rest) ← next (line :: (f ++ [""]))
  let rest ← simpleSection (processMassLine pt) raw rest
  let (_, rest) ← next rest
  let (raw, rest) ← next rest
  let rest ← simpleSection processBondLine raw rest
  let (raw, rest) ← next rest
  let rest ← simpleSection processAngleLine raw rest
  next rest

/-- The torsion section of `_parse_parm_dat`, with the file's `finished_diheds` and the key
returned by the previous line. -/
def parmDatDihedrals (raw : String) (rest : List String) : ParmM (List String) := do
  let (_, rest) ← sectionLoop (fun loop l => processDihedralLine l loop.1 loop.2)
    (({} : Dict TorsionKey Bool), (none : Option TorsionKey)) raw rest
  pure rest

/-- The part of `_parse_parm_dat` after the torsions: the impropers, the 10-12 terms, the
equivalencing table, the nonbonded terms, the equivalenced types' parameters and `LJEDIT`. -/
def parmDatFromImpropers (rest : List String) : ParmM Unit := do
  let (raw, rest) ← next rest
  let rest ← simpleSection processImproperLine raw rest
  let (raw, rest) ← next rest
  let rest ← simpleSection processTenTwelveLine raw rest
  let (raw, rest) ← next rest
  let ((ljtypes, types), rest) ← sectionLoop (fun eq l => pure (equivalenceLine eq l))
    (({}, {}) : Equivalences) raw rest
  let (kind, rest) ← next rest
  let words := split kind
  let some w := words[1]?
    | throw (.parameterError
        "Could not parse the kind of nonbonded parameters in Amber parameter file")
  if upper w ≠ "RE" then throw (.parameterError "Only RE nonbonded parameters supported")
  let (raw, rest) ← next rest
  let rest ← simpleSection processNonbondLine raw rest
  let types ← assignEquivalences ljtypes types
  let (l, rest) ← next rest
  if strip l = "LJEDIT" then
    let (raw, rest) ← next rest
    let _ ← simpleSection (processNbfixLine · (some types)) raw rest

/-- `_parse_parm_dat(f, line)`. -/
def parseParmDat (line : String) (f : List String) : ParmM Unit := do
  let (raw, rest) ← parmDatUpToDihedrals pt line f
  let rest ← parmDatDihedrals raw rest
  parmDatFromImpropers rest

/-! ## `load_parameters` -/

/-- The test `load_parameters` makes on the line after the title: a blank line or a section
header means the frcmod layout. -/
def frcmodLayout (line : String) : Bool := (strip line).isEmpty || headerWords.contains (strip line)

/-- `load_parameters(f)` for an open file given as its lines. -/
def loadParameters (f : List String) : ParmM Unit := do
  match f with
  | [] => modify fun s => { s with titles := s.titles ++ [""] }
  | title :: rest =>
    modify fun s => { s with titles := s.titles ++ [strip title] }
    match rest with
    | [] => pure ()
    | line :: more =>
      if frcmodLayout line then parseFrcmod pt line more else parseParmDat pt line more

/-- The state after `load_parameters(f)`, whether it returned or raised. -/
def loadState (f : List String) (s : AmberParameterSet) : AmberParameterSet :=
  stateOf ((loadParameters pt f).run s)

/-- Loading files one after another, each from the state the previous one left, whether or
not it raised. -/
def loadAll (fs : List (List String)) (s : AmberParameterSet) : AmberParameterSet :=
  fs.foldl (fun s f => loadState pt f s) s

end ParmEd.Amber
