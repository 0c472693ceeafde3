import Mathlib.Data.List.Sort
import ParmEd.Amber.ParameterSet

/-!
# `add1264`: the C4 coefficients of the 12-6-4 potential

`params1264` returns a list parallel to `LENNARD_JONES_ACOEF`: for every pair of atom types
that involves a type of a selected metal ion, the C4 coefficient of the pair, and `0` for
the others. A metal type's C4 value comes from a table by element and charge; with water
oxygen (`OW`) the pair takes it as it is, with any other type it is scaled by the type's
polarizability, `C4 / WATER_POL * pol * tunfactor`, and a pair of two metal types adds up the
terms of both. A type index that carries labels of different polarizabilities is refused.

The model reads the parts of the topology file that the function reads (`Prmtop`, whose
per-atom arrays have one entry per atom), the selection of the atom mask, and the files of
parameters through `readLines`. The text the function prints and the warnings it issues are
its output (`Output`), which an exception does not take back.
-/

namespace ParmEd.Tools

open ParmEd.Python ParmEd.Amber

/-! ## Output and Python indexing -/

/-- What `params1264` writes: a `print` line or a `warnings.warn`. -/
inductive Output
  | printed (text : String)
  | warned (category text : String)
  deriving DecidableEq, Repr

/-- Code that writes output and may raise. -/
abbrev ToolM := EStateM PyError (List Output)

/-- `print(text)` or `warnings.warn(text, category)`. -/
def emit (o : Output) : ToolM Unit := modify (· ++ [o])

/-- `int(x)` of a float: truncation towards zero. -/
def pyInt (x : ℚ) : Int := x.num.tdiv x.den

/-- The position `l[i]` refers to in a list of length `len`, counting a negative `i` from the
end, or `none` for an `IndexError`. -/
def pyIndex (len : Nat) (i : Int) : Option Nat :=
  let j := if i < 0 then i + len else i
  if 0 ≤ j ∧ j < len then some j.toNat else none

/-- `l[i]`. -/
def pyGet {α : Type} (l : List α) (i : Int) : Option α :=
  (pyIndex l.length i).bind fun n => l[n]?

/-- `l[i] = f(l[i])`, or `none` for an `IndexError`. -/
def pyModify {α : Type} (l : List α) (i : Int) (f : α → α) : Option (List α) :=
  (pyIndex l.length i).map fun n => l.modify f n

/-- `l[i] = x`. -/
def pySet {α : Type} (l : List α) (i : Int) (x : α) : Option (List α) := pyModify l i fun _ => x

/-- A dictionary display `{k: v, ...}`. -/
def dictOf (l : List (String × ℚ)) : Dict String ℚ :=
  l.foldl (fun d e => d.insert e.1 e.2) {}

/-! ## The tables -/

/-- `WATER_POL`: the polarizability of water. -/
def waterPol : ℚ := 1.444

/-- `DEFAULT_C4_PARAMS`: the C4 values of each water model, by element and charge. -/
def defaultC4Params : List (String × List (String × ℚ)) := [
  ("TIP3P", [
    ("Li1", 27.0), ("Na1", 0.0), ("K1", 8.0), ("Rb1", 0.0), ("Cs1", 2.0), ("Tl1", 50.0),
    ("Cu1", 7.0), ("Ag1", 83.0), ("F-1", -27.0), ("Cl-1", -38.0), ("Br-1", -39.0), ("I-1", -45.0),
    ("Be2", 186.5), ("Cu2", 290.9), ("Ni2", 212.8), ("Zn2", 231.6), ("Co2", 209.7), ("Cr2", 136.8),
    ("Fe2", 163.0), ("Mg2", 132.9), ("V2", 195.7), ("Mn2", 146.1), ("Hg2", 288.8), ("Cd2", 185.6),
    ("Ca2", 87.3), ("Sn2", 187.9), ("Sr2", 82.7), ("Ba2", 71.9), ("Al3", 399.0), ("Fe3", 428.0),
    ("Cr3", 258.0), ("In3", 347.0), ("Tl3", 456.0), ("Y3", 216.0), ("La3", 152.0), ("Ce3", 230.0),
    ("Pr3", 264.0), ("Nd3", 213.0), ("Sm3", 230.0), ("Eu3", 259.0), ("Gd3", 198.0), ("Tb3", 235.0),
    ("Dy3", 207.0), ("Er3", 251.0), ("Tm3", 282.0), ("Lu3", 249.0), ("Hf4", 827.0), ("Zr4", 761.0),
    ("Ce4", 706.0), ("U4", 1034.0), ("Pu4", 828.0), ("Th4", 512.0)]),
  ("TIP4PEW", [
    ("Li1", 36.0), ("Na1", 9.0), ("K1", 24.0), ("Rb1", 13.0), ("Cs1", 16.0), ("Tl1", 65.0),
    ("Cu1", 21.0), ("Ag1", 94.0), ("F-1", -67.0), ("Cl-1", -66.0), ("Br-1", -68.0), ("I-1", -62.0),
    ("Be2", 228.5), ("Cu2", 339.2), ("Ni2", 259.2), ("Zn2", 272.3), ("Co2", 252.8), ("Cr2", 177.4),
    ("Fe2", 201.1), ("Mg2", 180.5), ("V2", 244.8), ("Mn2", 192.3), ("Hg2", 335.2), ("Cd2", 233.7),
    ("Ca2", 128.0), ("Sn2", 231.4), ("Sr2", 118.9), ("Ba2", 112.5), ("Al3", 488.0), ("Fe3", 519.0),
    ("Cr3", 322.0), ("In3", 425.0), ("Tl3", 535.0), ("Y3", 294.0), ("La3", 243.0), ("Ce3", 315.0),
    ("Pr3", 348.0), ("Nd3", 297.0), ("Sm3", 314.0), ("Eu3", 345.0), ("Gd3", 280.0), ("Tb3", 313.0),
    ("Dy3", 298.0), ("Er3", 328.0), ("Tm3", 356.0), ("Lu3", 331.0), ("Hf4", 956.0), ("Zr4", 895.0),
    ("Ce4", 835.0), ("U4", 1183.0), ("Pu4", 972.0), ("Th4", 625.0)]),
  ("SPCE", [
    ("Li1", 33.0), ("Na1", 6.0), ("K1", 19.0), ("Rb1", 7.0), ("Cs1", 12.0), ("Tl1", 61.0),
    ("Cu1", 9.0), ("Ag1", 92.0), ("F-1", -53.0), ("Cl-1", -55.0), ("Br-1", -51.0), ("I-1", -51.0),
    ("Be2", 188.1), ("Cu2", 304.4), ("Ni2", 205.2), ("Zn2", 231.2), ("Co2", 209.2), ("Cr2", 131.2),
    ("Fe2", 155.4), ("Mg2", 122.2), ("V2", 206.6), ("Mn2", 154.9), ("Hg2", 300.2), ("Cd2", 198.8),
    ("Ca2", 89.0), ("Sn2", 201.1), ("Sr2", 96.3), ("Ba2", 85.8), ("Al3", 406.0), ("Fe3", 442.0),
    ("Cr3", 254.0), ("In3", 349.0), ("Tl3", 455.0), ("Y3", 209.0), ("La3", 165.0), ("Ce3", 242.0),
    ("Pr3", 272.0), ("Nd3", 235.0), ("Sm3", 224.0), ("Eu3", 273.0), ("Gd3", 186.0), ("Tb3", 227.0),
    ("Dy3", 206.0), ("Er3", 247.0), ("Tm3", 262.0), ("Lu3", 247.0), ("Hf4", 810.0), ("Zr4", 760.0),
    ("Ce4", 694.0), ("U4", 1043.0), ("Pu4", 828.0), ("Th4", 513.0)]),
  ("OPC3", [
    ("Li1", 29.0), ("Na1", 2.0), ("K1", 16.0), ("Rb1", 8.0), ("Cs1", 6.0), ("Tl1", 63.0),
    ("Cu1", 12.0), ("Ag1", 83.0), ("F-1", -40.0), ("Cl-1", -47.0), ("Br-1", -43.0), ("I-1", -45.0),
    ("Be2", 186.0), ("Cu2", 269.0), ("Ni2", 207.0), ("Zn2", 199.0), ("Co2", 182.0), ("Cr2", 109.0),
    ("Fe2", 131.0), ("Mg2", 117.0), ("V2", 201.0), ("Mn2", 137.0), ("Hg2", 276.0), ("Cd2", 200.0),
    ("Ca2", 76.0), ("Sn2", 188.0), ("Sr2", 85.0), ("Ba2", 77.0), ("Al3", 363.0), ("Fe3", 429.0),
    ("Cr3", 209.0), ("In3", 330.0), ("Tl3", 437.0), ("Y3", 192.0), ("La3", 131.0), ("Ce3", 215.0),
    ("Pr3", 255.0), ("Nd3", 184.0), ("Sm3", 188.0), ("Eu3", 233.0), ("Gd3", 164.0), ("Tb3", 199.0),
    ("Dy3", 183.0), ("Er3", 228.0), ("Tm3", 246.0), ("Lu3", 222.0), ("Hf4", 718.0), ("Zr4", 707.0),
    ("Ce4", 653.0), ("U4", 980.0), ("Pu4", 817.0), ("Th4", 452.0)]),
  ("OPC", [
    ("Li1", 29.0), ("Na1", 0.0), ("K1", 20.0), ("Rb1", 6.0), ("Cs1", 13.0), ("Tl1", 60.0),
    ("Cu1", 16.0), ("Ag1", 83.0), ("F-1", -67.0), ("Cl-1", -69.0), ("Br-1", -60.0), ("I-1", -60.0),
    ("Be2", 214.0), ("Cu2", 291.0), ("Ni2", 212.0), ("Zn2", 225.0), ("Co2", 204.0), ("Cr2", 132.0),
    ("Fe2", 154.0), ("Mg2", 127.0), ("V2", 239.0), ("Mn2", 175.0), ("Hg2", 289.0), ("Cd2", 219.0),
    ("Ca2", 86.0), ("Sn2", 199.0), ("Sr2", 87.0), ("Ba2", 78.0), ("Al3", 399.0), ("Fe3", 531.0),
    ("Cr3", 243.0), ("In3", 413.0), ("Tl3", 479.0), ("Y3", 260.0), ("La3", 165.0), ("Ce3", 289.0),
    ("Pr3", 311.0), ("Nd3", 243.0), ("Sm3", 236.0), ("Eu3", 279.0), ("Gd3", 222.0), ("Tb3", 256.0),
    ("Dy3", 243.0), ("Er3", 298.0), ("Tm3", 314.0), ("Lu3", 289.0), ("Hf4", 847.0), ("Zr4", 804.0),
    ("Ce4", 789.0), ("U4", 1123.0), ("Pu4", 941.0), ("Th4", 598.0)]),
  ("FB3", [
    ("Li1", 30.0), ("Na1", 2.0), ("K1", 15.0), ("Rb1", 7.0), ("Cs1", 17.0), ("Tl1", 65.0),
    ("Cu1", 17.0), ("Ag1", 85.0), ("F-1", -45.0), ("Cl-1", -49.0), ("Br-1", -40.0), ("I-1", -52.0),
    ("Be2", 193.0), ("Cu2", 279.0), ("Ni2", 223.0), ("Zn2", 217.0), ("Co2", 192.0), ("Cr2", 138.0),
    ("Fe2", 157.0), ("Mg2", 128.0), ("V2", 212.0), ("Mn2", 149.0), ("Hg2", 289.0), ("Cd2", 201.0),
    ("Ca2", 92.0), ("Sn2", 205.0), ("Sr2", 91.0), ("Ba2", 78.0), ("Al3", 387.0), ("Fe3", 446.0),
    ("Cr3", 232.0), ("In3", 343.0), ("Tl3", 464.0), ("Y3", 218.0), ("La3", 155.0), ("Ce3", 251.0),
    ("Pr3", 291.0), ("Nd3", 211.0), ("Sm3", 218.0), ("Eu3", 261.0), ("Gd3", 191.0), ("Tb3", 226.0),
    ("Dy3", 219.0), ("Er3", 256.0), ("Tm3", 285.0), ("Lu3", 250.0), ("Hf4", 787.0), ("Zr4", 769.0),
    ("Ce4", 701.0), ("U4", 1044.0), ("Pu4", 817.0), ("Th4", 507.0)]),
  ("FB4", [
    ("Li1", 33.0), ("Na1", 8.0), ("K1", 25.0), ("Rb1", 9.0), ("Cs1", 13.0), ("Tl1", 68.0),
    ("Cu1", 25.0), ("Ag1", 90.0), ("F-1", -57.0), ("Cl-1", -55.0), ("Br-1", -51.0), ("I-1", -53.0),
    ("Be2", 227.0), ("Cu2", 313.0), ("Ni2", 218.0), ("Zn2", 239.0), ("Co2", 206.0), ("Cr2", 159.0),
    ("Fe2", 187.0), ("Mg2", 133.0), ("V2", 234.0), ("Mn2", 181.0), ("Hg2", 331.0), ("Cd2", 227.0),
    ("Ca2", 109.0), ("Sn2", 215.0), ("Sr2", 103.0), ("Ba2", 95.0), ("Al3", 427.0), ("Fe3", 502.0),
    ("Cr3", 286.0), ("In3", 403.0), ("Tl3", 514.0), ("Y3", 268.0), ("La3", 211.0), ("Ce3", 294.0),
    ("Pr3", 326.0), ("Nd3", 256.0), ("Sm3", 257.0), ("Eu3", 302.0), ("Gd3", 238.0), ("Tb3", 270.0),
    ("Dy3", 253.0), ("Er3", 304.0), ("Tm3", 320.0), ("Lu3", 303.0), ("Hf4", 837.0), ("Zr4", 845.0),
    ("Ce4", 771.0), ("U4", 1140.0), ("Pu4", 919.0), ("Th4", 601.0)])]

/-- `abs(param - params[atomtype]) > 0.0001` as the code computes it: on the doubles `float()`
gives, their difference rounded to a double, against the double `0.0001`. -/
def exceedsTolerance (param old : ℚ) : Prop :=
  roundDouble (1 / 10000) < |roundDouble (roundDouble param - roundDouble old)|

instance (param old : ℚ) : Decidable (exceedsTolerance param old) :=
  inferInstanceAs (Decidable (_ < _))

/-- One line `atomtype param` of `_get_params(fname)`: the value stored, with a
`DuplicateParamWarning` when it is more than `0.0001` from the type's earlier one. -/
def paramLine (fname : String) (params : Dict String ℚ) (line : String) :
    ToolM (Dict String ℚ) := do
  let atomtype :: param :: _ := split line
    | let got := (split line).length
      throw (.valueError s!"not enough values to unpack (expected 2, got {got})")
  let param ← MonadExcept.ofExcept (floatE param)
  if let some old := params.get? atomtype then
    if exceedsTolerance param old then
      emit (.warned "DuplicateParamWarning"
        s!"Atom type {atomtype} has multiple parameters in {fname}.")
  pure (params.insert atomtype param)

/-- `_get_params(fname)` on the file's lines: the last value of each type kept. -/
def getParams (fname : String) (lines : List String) : ToolM (Dict String ℚ) :=
  lines.foldlM (paramLine fname) {}

/-- `_get_params(fname)`: the file opened, then read. -/
def readParams (readLines : String → Option (List String)) (fname : String) :
    ToolM (Dict String ℚ) := do
  let some lines := readLines fname
    | throw (.fileNotFoundError s!"[Errno 2] No such file or directory: '{fname}'")
  getParams fname lines

/-- `except ValueError as err: raise LJ12_6_4Error(message) from err`. -/
def raiseOnValueError {α : Type} (message : String) : PyError → ToolM α
  | .valueError _ => throw (.lj1264Error message)
  | e => throw e

/-- The polarizability table and the C4 table, the default one of the water model unless a
file is given. -/
def params1264Tables (readLines : String → Option (List String)) (c4file : Option String)
    (watermodel polfile : String) : ToolM (Dict String ℚ × Dict String ℚ) := do
  let pollist ← tryCatch (readParams readLines polfile) (raiseOnValueError
    (s!"Bad polarizability file {polfile}. Expected a file with " ++
      "2 columns: <Amber Atom Type> <Polarizability>"))
  let c4list ← match c4file with
    | none =>
      match defaultC4Params.lookup watermodel with
      | some t => pure (dictOf t)
      | none => throw (.keyError watermodel)
    | some c4file => tryCatch (readParams readLines c4file) (raiseOnValueError
        (s!"Bad C4 parameter file {c4file}. Expected a file with 2 columns: " ++
          "<Atom Element> <C4 Parameter>"))
  pure (pollist, c4list)

/-! ## The topology -/

/-- The parts of an `AmberParm` that `params1264` reads. -/
structure Prmtop where
  natom : Nat
  /-- `pointers['NTYPES']`. -/
  ntypes : Nat
  /-- `parm_data['ATOM_TYPE_INDEX']`. -/
  atomTypeIndex : List Int
  /-- `parm_data['CHARGE']`. -/
  charge : List ℚ
  /-- `atoms[i].atomic_number`. -/
  atomicNumber : List Nat
  /-- `parm_data['AMBER_ATOM_TYPE']`. -/
  amberAtomType : List String
  /-- `parm_data['LENNARD_JONES_ACOEF']`, of which only the length is read. -/
  ljACoef : List ℚ
  /-- `parm_data['NONBONDED_PARM_INDEX']`. -/
  nonbondedParmIndex : List Int
  atomTypeIndex_length : atomTypeIndex.length = natom
  charge_length : charge.length = natom
  atomicNumber_length : atomicNumber.length = natom
  amberAtomType_length : amberAtomType.length = natom

namespace Prmtop

variable (p : Prmtop)

/-- `parm_data['ATOM_TYPE_INDEX'][i]`. -/
def typeIndex (i : Fin p.natom) : Int := p.atomTypeIndex.get (i.cast p.atomTypeIndex_length.symm)

/-- `parm_data['CHARGE'][i]`. -/
def chargeOf (i : Fin p.natom) : ℚ := p.charge.get (i.cast p.charge_length.symm)

/-- `atoms[i].atomic_number`. -/
def atomicNumberOf (i : Fin p.natom) : Nat :=
  p.atomicNumber.get (i.cast p.atomicNumber_length.symm)

/-- `zip(typs, typinds)`: each atom's label with its type index. -/
def labelled : List (String × Int) := p.amberAtomType.zip p.atomTypeIndex

end Prmtop

/-- `mask.Selected()`: the indices of the selected atoms, in order. -/
def selected (p : Prmtop) (mask : Fin p.natom → Bool) : List (Fin p.natom) :=
  (List.finRange p.natom).filter mask

/-! ## `params1264` -/

/-- One selected atom of the loop that builds `mettypdict`: the first atom of a type index
records it, with its atomic number and `int` charge, and prints its element. -/
def metalType (pt : PeriodicTable) (p : Prmtop) (d : Dict Int (Nat × Int)) (i : Fin p.natom) :
    ToolM (Dict Int (Nat × Int)) := do
  if d.contains (p.typeIndex i) then return d
  let d := d.insert (p.typeIndex i) (p.atomicNumberOf i, pyInt (p.chargeOf i))
  let some el := pt.element (p.atomicNumberOf i) | throw (.indexError "list index out of range")
  emit (.printed s!"The selected metal ion is {el}")
  pure d

/-- `mettypdict`: each type index of a selected atom, with the first such atom's data. -/
def metalTypes (pt : PeriodicTable) (p : Prmtop) (mask : Fin p.natom → Bool) :
    ToolM (Dict Int (Nat × Int)) :=
  (selected p mask).foldlM (metalType pt p) {}

/-- The first loop of `typdict`: the labels of each type index in order of first appearance. -/
def labelsOfAtoms (p : Prmtop) : Dict Int (List String) :=
  p.labelled.foldl (fun d (e : String × Int) =>
    match d.get? e.2 with
    | none => d.insert e.2 [e.1]
    | some tys => if e.1 ∈ tys then d else d.insert e.2 (tys ++ [e.1])) {}

/-- `typdict`: and no label for a type index of `1..NTYPES` that no atom has. -/
def typeLabels (p : Prmtop) : Dict Int (List String) :=
  (List.range' 1 p.ntypes).foldl (fun d (i : Nat) =>
    if (i : Int) ∈ p.atomTypeIndex then d else d.insert i []) (labelsOfAtoms p)

/-- `c4list[key]`. -/
def lookupParam (table : Dict String ℚ) (key : String) : ToolM ℚ :=
  match table.get? key with
  | some v => pure v
  | none => throw (.keyError key)

/-- `pollist[typjs]`, an `LJ12_6_4Error` for a label the table lacks. -/
def polarizabilityOf (pollist : Dict String ℚ) (typjs : String) : ToolM ℚ :=
  match pollist.get? typjs with
  | some v => pure v
  | none => throw (.lj1264Error s!"Could not find parameters for ATOM_TYPE {typjs}")

/-- A further label `typjs` of a type index whose first label `t0` has polarizability `pol`. -/
def checkPolarizability (pollist : Dict String ℚ) (t0 : String) (pol : ℚ) (typjs : String) :
    ToolM Unit := do
  let anthpol ← polarizabilityOf pollist typjs
  if anthpol ≠ pol then
    throw (.lj1264Error (s!"Polarizability parameter of AMBER_ATOM_TYPE {t0} is " ++
      s!"not the same as that of AMBER_ATOM_TYPE {typjs}, but " ++
      "their VDW parameters are the same. "))

/-- The polarizability of the first label of a type index, which every other label of it must
share. -/
def typePolarizability (pollist : Dict String ℚ) (t0 : String) (rest : List String) :
    ToolM ℚ := do
  let pol ← polarizabilityOf pollist t0
  rest.forM (checkPolarizability pollist t0 pol)
  pure pol

/-- `NONBONDED_PARM_INDEX[...] - 1` for the type indices `i + 1` and `jj + 1`, read from the
half of the matrix with the smaller index first. -/
def pairIndex (p : Prmtop) (i jj : Int) : ToolM Int := do
  let k := if jj < i then p.ntypes * jj + i else p.ntypes * i + jj
  let some v := pyGet p.nonbondedParmIndex k | throw (.indexError "list index out of range")
  pure (v - 1)

/-- One type `j` of the loop of a metal type `i + 1` with C4 value `c4`: the pair's entry set
to `c4` for water oxygen, and increased by `c4 / WATER_POL * pol * tunfactor` otherwise. -/
def c4Entry (p : Prmtop) (pollist : Dict String ℚ) (typdict : Dict Int (List String))
    (c4 tunfactor : ℚ) (i : Int) (result : List ℚ) (j : Nat) : ToolM (List ℚ) := do
  let jj : Int := j - 1
  let some attypjs := typdict.get? j | throw (.keyError (toString j))
  match attypjs with
  | [] => pure result
  | t0 :: rest =>
    let pol ← typePolarizability pollist t0 rest
    let idx ← pairIndex p i jj
    let updated := if t0 :: rest = ["OW"] then pySet result idx c4
      else pyModify result idx (· + c4 / waterPol * pol * tunfactor)
    let some result := updated | throw (.indexError "list index out of range")
    pure result

/-- The loop over the types `j` for one metal type. -/
def metalRow (pt : PeriodicTable) (p : Prmtop) (pollist c4list : Dict String ℚ)
    (metals : Dict Int (Nat × Int)) (typdict : Dict Int (List String)) (tunfactor : ℚ)
    (result : List ℚ) (mettypind : Int) : ToolM (List ℚ) := do
  let some (an, chg) := metals.get? mettypind | throw (.keyError (toString mettypind))
  let some el := pt.element an | throw (.indexError "list index out of range")
  let c4 ← lookupParam c4list (el ++ toString chg)
  (List.range' 1 p.ntypes).foldlM (c4Entry p pollist typdict c4 tunfactor (mettypind - 1)) result

/-- `params1264(parm, mask, c4file, watermodel, polfile, tunfactor)`. -/
def params1264 (readLines : String → Option (List String)) (pt : PeriodicTable) (p : Prmtop)
    (mask : Fin p.natom → Bool) (c4file : Option String) (watermodel polfile : String)
    (tunfactor : ℚ) : ToolM (List ℚ) := do
  let (pollist, c4list) ← params1264Tables readLines c4file watermodel polfile
  let metals ← metalTypes pt p mask
  let mettypinds := metals.keys.insertionSort (· ≤ ·)
  let typdict := typeLabels p
  mettypinds.foldlM (metalRow pt p pollist c4list metals typdict tunfactor)
    (List.replicate p.ljACoef.length 0)

end ParmEd.Tools
