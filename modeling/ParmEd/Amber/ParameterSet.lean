import ParmEd.Python.Dict
import ParmEd.Python.Double

/-!
# The Amber parameter set

The state of an `AmberParameterSet`: its tables of atom types, bonded terms, impropers and
Lennard-Jones exceptions, the titles of the files it read and the `__is_parm_loaded` flags
of `from_leaprc`.

`BondType`, `AngleType` and `DihedralTypeList` objects are shared: `_process_bond_line`
stores one object under `(a1, a2)` and `(a2, a1)`, `_process_dihedral_line` appends to the
list both orientations of a torsion hold, and `write` skips an object it has written. Those
tables therefore map keys to handles into the list of objects created so far, and an object
is its handle. Atom types, impropers and NBFIX pairs are never shared, and are stored by
value.

Python's `warnings.warn` and the files the module opens are effects on the world outside
the object; `log` records them in order, so that what a run does, and not only the state it
leaves, can be stated.
-/

namespace ParmEd.Amber

open ParmEd.Python

/-- `AtomType` of `parmed.topologyobjects`, with the fields this module reads and sets. -/
structure AtomType where
  name : String
  number : Nat
  mass : ℚ
  atomicNumber : Nat
  rmin : Option ℚ
  epsilon : Option ℚ
  deriving DecidableEq, Repr

/-- `AtomType.set_lj_params(eps, rmin)`. -/
def AtomType.setLjParams (t : AtomType) (eps rmin : Option ℚ) : AtomType :=
  { t with epsilon := eps, rmin := rmin }

/-- `BondType(k, req)`. -/
structure BondType where
  k : ℚ
  req : ℚ
  deriving DecidableEq, Repr

/-- `AngleType(k, theteq)`. -/
structure AngleType where
  k : ℚ
  theteq : ℚ
  deriving DecidableEq, Repr

/-- `DihedralType(phi_k, per, phase, scee, scnb)`, with the values the code passes it. The class
(`parmed.topologyobjects`, outside `src/`) stores `int(per)`; the model keeps `per` as read. -/
structure DihedralType where
  phiK : ℚ
  per : ℚ
  phase : ℚ
  scee : ℚ
  scnb : ℚ
  deriving DecidableEq, Repr

/-- Keys of the bond and NBFIX tables. -/
abbrev BondKey := String × String

/-- Keys of the angle table. -/
abbrev AngleKey := String × String × String

/-- Keys of the dihedral and improper tables. -/
abbrev TorsionKey := String × String × String × String

/-- The other orientation of an angle. -/
def AngleKey.reverse : AngleKey → AngleKey
  | (a, b, c) => (c, b, a)

@[simp] theorem AngleKey.reverse_reverse (k : AngleKey) : AngleKey.reverse k.reverse = k := by
  obtain ⟨a, b, c⟩ := k
  rfl

/-- `tuple(reversed(key))` for a torsion. -/
def TorsionKey.reverse : TorsionKey → TorsionKey
  | (a, b, c, d) => (d, c, b, a)

@[simp] theorem TorsionKey.reverse_reverse (k : TorsionKey) : k.reverse.reverse = k := by
  obtain ⟨a, b, c, d⟩ := k
  rfl

/-- A residue template, as the residue-library readers (outside `src/`) return it. -/
structure ResidueTemplate where
  name : String
  deriving DecidableEq, Repr

/-- The categories of the warnings the module issues. -/
inductive WarningCategory
  | userWarning
  | parameterWarning
  | amberWarning
  deriving DecidableEq, Repr

/-- What a run does to the world: a warning, a parameter file opened by `load_parameters`,
a residue library read. -/
inductive Event
  | warn (category : WarningCategory) (message : String)
  | opened (path : String)
  | library (path : String)
  deriving DecidableEq, Repr

/-- `parmed.periodic_table` (outside `src/`), taken as a parameter. -/
structure PeriodicTable where
  /-- `AtomicNum[symbol]`. -/
  atomicNum : String → Option Nat
  /-- `Mass[symbol]`. -/
  mass : String → Option ℚ
  /-- `element_by_mass(mass)`. -/
  elementByMass : ℚ → String
  /-- `Element[atomic_number]`. -/
  element : Nat → Option String

/-- A periodic table that knows carbon only, to evaluate the model on. -/
def carbonTable : PeriodicTable where
  atomicNum _ := none
  mass s := if s = "C" then some 12.01 else none
  elementByMass _ := ""
  element _ := none

/-- The state of an `AmberParameterSet`. -/
structure AmberParameterSet where
  atomTypes : Dict String AtomType
  bondTypes : Dict BondKey Nat
  bondObjects : List BondType
  angleTypes : Dict AngleKey Nat
  angleObjects : List AngleType
  dihedralTypes : Dict TorsionKey Nat
  dihedralObjects : List (List DihedralType)
  improperPeriodicTypes : Dict TorsionKey DihedralType
  nbfixTypes : Dict BondKey (ℚ × ℚ)
  residues : Dict String ResidueTemplate
  titles : List String
  /-- `__is_parm_loaded`. -/
  parmLoaded : Dict String Bool
  /-- Warnings issued and files opened, in order. -/
  log : List Event

namespace AmberParameterSet

/-- `AmberParameterSet()`: empty tables and the three core parameter files not yet loaded. -/
def new : AmberParameterSet where
  atomTypes := {}
  bondTypes := {}
  bondObjects := []
  angleTypes := {}
  angleObjects := []
  dihedralTypes := {}
  dihedralObjects := []
  improperPeriodicTypes := {}
  nbfixTypes := {}
  residues := {}
  titles := []
  parmLoaded :=
    (((∅ : Dict String Bool).insert "parm10.dat" false).insert "parm99.dat" false).insert
      "parm15" false
  log := []

/-- A new `BondType` object stored under `(a1, a2)` and then `(a2, a1)`. -/
def setBond (s : AmberParameterSet) (a1 a2 : String) (t : BondType) : AmberParameterSet :=
  { s with
    bondObjects := s.bondObjects ++ [t]
    bondTypes := (s.bondTypes.insert (a1, a2) s.bondObjects.length).insert (a2, a1)
      s.bondObjects.length }

/-- A new `AngleType` object stored under `(a1, a2, a3)` and then `(a3, a2, a1)`. -/
def setAngle (s : AmberParameterSet) (a1 a2 a3 : String) (t : AngleType) : AmberParameterSet :=
  { s with
    angleObjects := s.angleObjects ++ [t]
    angleTypes := (s.angleTypes.insert (a1, a2, a3) s.angleObjects.length).insert (a3, a2, a1)
      s.angleObjects.length }

/-- A new one-term `DihedralTypeList` stored under `key` and then `rkey`. -/
def setDihedral (s : AmberParameterSet) (key rkey : TorsionKey) (t : DihedralType) :
    AmberParameterSet :=
  { s with
    dihedralObjects := s.dihedralObjects ++ [[t]]
    dihedralTypes := (s.dihedralTypes.insert key s.dihedralObjects.length).insert rkey
      s.dihedralObjects.length }

/-- `typs.append(t)` on the `DihedralTypeList` object `h`. -/
def appendDihedral (s : AmberParameterSet) (h : Nat) (t : DihedralType) : AmberParameterSet :=
  { s with dihedralObjects := s.dihedralObjects.modify (· ++ [t]) h }

/-- A new atom type, appended to `atom_types`. -/
def addAtomType (s : AmberParameterSet) (t : AtomType) : AmberParameterSet :=
  { s with atomTypes := s.atomTypes.insert t.name t }

/-- `self.atom_types[name] = f(self.atom_types[name])` in place. -/
def updateAtomType (s : AmberParameterSet) (name : String) (f : AtomType → AtomType) :
    AmberParameterSet :=
  { s with atomTypes := s.atomTypes.modify name f }

/-- `self.improper_periodic_types[key] = t`. -/
def setImproper (s : AmberParameterSet) (key : TorsionKey) (t : DihedralType) :
    AmberParameterSet :=
  { s with improperPeriodicTypes := s.improperPeriodicTypes.insert key t }

/-- `self.nbfix_types[key] = v`. -/
def setNbfix (s : AmberParameterSet) (key : BondKey) (v : ℚ × ℚ) : AmberParameterSet :=
  { s with nbfixTypes := s.nbfixTypes.insert key v }

/-- An event of the outside world, appended to the log. -/
def record (s : AmberParameterSet) (e : Event) : AmberParameterSet :=
  { s with log := s.log ++ [e] }

@[simp] theorem setBond_bondTypes (s : AmberParameterSet) (a1 a2 : String) (t : BondType) :
    (s.setBond a1 a2 t).bondTypes =
      (s.bondTypes.insert (a1, a2) s.bondObjects.length).insert (a2, a1) s.bondObjects.length :=
  rfl

@[simp] theorem setBond_bondObjects (s : AmberParameterSet) (a1 a2 : String) (t : BondType) :
    (s.setBond a1 a2 t).bondObjects = s.bondObjects ++ [t] := rfl

@[simp] theorem setAngle_angleTypes (s : AmberParameterSet) (a1 a2 a3 : String) (t : AngleType) :
    (s.setAngle a1 a2 a3 t).angleTypes =
      (s.angleTypes.insert (a1, a2, a3) s.angleObjects.length).insert (a3, a2, a1)
        s.angleObjects.length := rfl

@[simp] theorem setAngle_angleObjects (s : AmberParameterSet) (a1 a2 a3 : String)
    (t : AngleType) : (s.setAngle a1 a2 a3 t).angleObjects = s.angleObjects ++ [t] := rfl

@[simp] theorem setDihedral_dihedralTypes (s : AmberParameterSet) (key rkey : TorsionKey)
    (t : DihedralType) :
    (s.setDihedral key rkey t).dihedralTypes =
      (s.dihedralTypes.insert key s.dihedralObjects.length).insert rkey
        s.dihedralObjects.length := rfl

@[simp] theorem setDihedral_dihedralObjects (s : AmberParameterSet) (key rkey : TorsionKey)
    (t : DihedralType) : (s.setDihedral key rkey t).dihedralObjects = s.dihedralObjects ++ [[t]] :=
  rfl

@[simp] theorem appendDihedral_dihedralTypes (s : AmberParameterSet) (h : Nat)
    (t : DihedralType) : (s.appendDihedral h t).dihedralTypes = s.dihedralTypes := rfl

@[simp] theorem appendDihedral_dihedralObjects (s : AmberParameterSet) (h : Nat)
    (t : DihedralType) :
    (s.appendDihedral h t).dihedralObjects = s.dihedralObjects.modify (· ++ [t]) h := rfl

@[simp] theorem record_log (s : AmberParameterSet) (e : Event) :
    (s.record e).log = s.log ++ [e] := rfl

@[simp] theorem record_parmLoaded (s : AmberParameterSet) (e : Event) :
    (s.record e).parmLoaded = s.parmLoaded := rfl

end AmberParameterSet

/-- Code that reads and updates a parameter set and may raise. -/
abbrev ParmM := EStateM PyError AmberParameterSet

/-- `warnings.warn(message, category)`. -/
def warn (category : WarningCategory) (message : String) : ParmM Unit :=
  modify (·.record (.warn category message))

/-- `float(s)` in code that has already checked `s` against `FLOATRE`. -/
def floatE (s : String) : Except PyError ℚ :=
  match toFloat? s with
  | some x => .ok x
  | none => .error (.valueError s!"could not convert string to float: {s}")

theorem toFloat?_of_floatE {s : String} {x : ℚ} (h : floatE s = .ok x) : toFloat? s = some x := by
  unfold floatE at h
  split at h <;> cases h
  assumption

/-- `float(s)` in a method. -/
def float (s : String) : ParmM ℚ := MonadExcept.ofExcept (floatE s)

end ParmEd.Amber
