import ParmEd.Amber.Parse

/-!
# `AmberParameterSet.from_leaprc` and the constructor

A leaprc script is read for four directives, each taken from one line after comments are cut
at `#` and backslash-continued lines are joined: `loadAmberParams file`, `loadOff file`,
`name = loadMol2 file` (or `loadMol3`), and one `addAtomTypes { ... }` block read from the
whole text after every file has been loaded. File names may be quoted, and a space in a file
name may be escaped; `_find_amber_file` looks a name up in the working directory and then
in the `dat/leap` directories of `AMBERHOME`.

Of the core parameter files `parm10.dat`, `parm99.dat` and any `parm15*`, only the first
directive naming one is loaded; a later one is skipped with a warning (the
`__is_parm_loaded` flags).

* `join_joinlines`: joining continued lines keeps the text, less the backslash and newline of
  each continued line.
* `init_eq_loadAll`: `AmberParameterSet(*filenames)` on parameter files, when it returns, holds
  the state of loading them one after another (`loadAll`).
-/

namespace ParmEd.Amber

open ParmEd.Python Pat

/-- What a residue-library reader returns for a mol2 file. -/
inductive Mol2Contents
  | residue (r : ResidueTemplate)
  | container (rs : List ResidueTemplate)

/-- The world `from_leaprc` reads: the working directory, `AMBERHOME`, which paths exist and
what they hold, and the residue-library readers `AmberOFFLibrary.parse` and
`Mol2File.parse` (outside `src/`). -/
structure LeapEnv where
  cwd : String
  amberhome : String
  pathExists : String → Bool
  readLines : String → List String
  offLibrary : String → Except PyError (List (String × ResidueTemplate))
  mol2 : String → Except PyError Mol2Contents

/-! ## Patterns -/

/-- `FILENAMERE` as group `i`: `(".+?"|'.+?'|[\S]*)`. -/
def filenamere (i : Nat) : Pat :=
  .group i <| .alt (cats [lit '"', .lazyPlus anyChar, lit '"'])
    (.alt (cats [lit '\'', .lazyPlus anyChar, lit '\'']) (.star fun c => !isSpace c))

/-- `_loadparamsre`: `loadamberparams\s+FILENAME`, ignoring case. -/
def loadparamsre : Regex := ⟨cats [strI "loadamberparams", plus isSpace, filenamere 1], 1⟩

/-- `_loadoffre`: `loadoff\s+FILENAME`, ignoring case. -/
def loadoffre : Regex := ⟨cats [strI "loadoff", plus isSpace, filenamere 1], 1⟩

/-- `_loadmol2re`: `(\S+)\s*=\s*loadmol[23]\s*FILENAME`, ignoring case. -/
def loadmol2re : Regex :=
  ⟨cats [.group 1 (plus fun c => !isSpace c), .star isSpace, lit '=', .star isSpace,
    strI "loadmol", .cls (fun c => c == '2' || c == '3'), .star isSpace, filenamere 2], 2⟩

/-- `_atomtypere`: `({\s*["']([\w\+\-]+)["']\s*["'](\w+)["']\s*["'](\w+)["']\s*})`. -/
def atomtypere : Regex :=
  let quote := Pat.cls fun c => c == '"' || c == '\''
  ⟨.group 1 (cats [lit '{', .star isSpace, quote,
    .group 2 (plus fun c => wordChar c || c == '+' || c == '-'), quote, .star isSpace, quote,
    .group 3 (plus wordChar), quote, .star isSpace, quote, .group 4 (plus wordChar), quote,
    .star isSpace, lit '}']), 4⟩

/-! ## Files -/

/-- `os.path.join(a, b)`. -/
def pathJoin (a b : String) : String :=
  if startswith b "/" then b
  else if a.isEmpty || endswith a "/" then a ++ b
  else a ++ "/" ++ b

/-- The quotes `_find_amber_file` strips: a name of two characters or more that starts and
ends with the same quote character. -/
def stripQuotes (fname : String) : String :=
  match fname.data with
  | c :: rest =>
    if (c = '"' ∨ c = '\'') ∧ rest.getLast? = some c then ⟨rest.dropLast⟩ else fname
  | [] => fname

/-- The directories `_find_amber_file` searches, in order. -/
def searchPaths (env : LeapEnv) (searchOldff : Bool) : List String :=
  let leapdir := pathJoin (pathJoin env.amberhome "dat") "leap"
  [env.cwd, pathJoin leapdir "lib", pathJoin leapdir "parm"] ++
    if searchOldff then [pathJoin (pathJoin leapdir "lib") "oldff"] else []

/-- `_find_amber_file(fname, search_oldff)`: the first search directory holding the file. -/
def findAmberFile (env : LeapEnv) (fname : String) (searchOldff : Bool) : Except PyError String :=
  let fname := stripQuotes fname
  let paths := searchPaths env searchOldff
  match paths.find? fun p => env.pathExists (pathJoin p fname) with
  | some p => .ok (pathJoin p fname)
  | none => .error (.fileNotFoundError ("Cannot find Amber file [" ++ fname ++ "] in paths [" ++
      ", ".intercalate (paths.map fun p => "'" ++ p ++ "'") ++ "]"))

/-! ## The directives -/

/-- `line if '#' not in line else line[:line.index('#')]`. -/
def stripComment (line : String) : String :=
  match index? line "#" with
  | some i => prefixOf line i
  | none => line

/-- The loop of `joinlines`, with the pieces of the line being continued. -/
def joinlinesGo : List String → List String → List String
  | composite, [] => if composite.isEmpty then [] else [join composite]
  | composite, line :: rest =>
    if endswith line "\\\n" then joinlinesGo (composite ++ [prefixOf line (line.length - 2)]) rest
    else join (composite ++ [line]) :: joinlinesGo [] rest

/-- `joinlines`: a line ending in a backslash and a newline is joined to the next. -/
def joinlines (lines : List String) : List String := joinlinesGo [] lines

theorem join_joinlinesGo (composite lines : List String) :
    join (joinlinesGo composite lines) = join composite ++
      join (lines.map fun line =>
        if endswith line "\\\n" then prefixOf line (line.length - 2) else line) := by
  induction lines generalizing composite with
  | nil =>
    unfold joinlinesGo
    split
    · next h => simp [List.isEmpty_iff.1 h]
    · simp
  | cons line lines ih =>
    unfold joinlinesGo
    split
    · next h => simp [ih, h, String.append_assoc]
    · next h => simp [ih, h, String.append_assoc]

/-- **`joinlines` keeps the text.** The joined lines spell the lines read, each with the
backslash and newline that continue it removed. -/
theorem join_joinlines (lines : List String) :
    join (joinlines lines) = join (lines.map fun line =>
      if endswith line "\\\n" then prefixOf line (line.length - 2) else line) := by
  simp [joinlines, join_joinlinesGo]

/-- `process_fname`: strip one pair of quotes, then turn escaped spaces into spaces. -/
def processFname (fname : String) : Except PyError String :=
  match fname.data with
  | [] => .error (.indexError "string index out of range")
  | c :: _ =>
    let f : String := if c = '"' ∨ c = '\'' then ⟨(fname.data.drop 1).dropLast⟩ else fname
    .ok (replace (replace f "_BSTOKEN_" "\\ ") "\\ " " ")

/-- The key under which `__is_parm_loaded` tracks a parameter file. -/
def parmLoadedKey (fname : String) : String :=
  if startswith fname "parm15" then "parm15" else fname

variable (env : LeapEnv) (pt : PeriodicTable) (searchOldff : Bool)

/-- `load_parameters(path)` for a file name: `genopen` it and read it. -/
def loadParametersPath (path : String) : ParmM Unit := do
  modify (·.record (.opened path))
  loadParameters pt (env.readLines path)

/-- The warning of a `loadAmberParams` directive skipped by the single-load rule. -/
def skipWarning (fname : String) : String := "Skipping " ++ fname ++ ": already loaded"

/-- `params.load_parameters(_find_amber_file(fname, search_oldff))`. -/
def loadFound (fname : String) : ParmM Unit := do
  let path ← MonadExcept.ofExcept (findAmberFile env fname searchOldff)
  loadParametersPath env pt path

/-- A `loadAmberParams` directive, after the single-load rule for the core files. -/
def loadAmberParams (fname : String) : ParmM Unit := do
  let key := parmLoadedKey fname
  match (← get).parmLoaded.get? key with
  | some true => warn .userWarning (skipWarning fname)
  | some false =>
    modify fun s => { s with parmLoaded := s.parmLoaded.insert key true }
    loadFound env pt searchOldff fname
  | none => loadFound env pt searchOldff fname

/-- A `loadOff` directive. -/
def loadOff (fname : String) : ParmM Unit := do
  let path ← MonadExcept.ofExcept (findAmberFile env fname searchOldff)
  let lib ← MonadExcept.ofExcept (env.offLibrary path)
  modify (·.record (.library path))
  for (name, r) in lib do modify fun s => { s with residues := s.residues.insert name r }

/-- A `loadMol2` directive: the file's residue under the directive's name, or every residue of
a multi-residue file under its own name. -/
def loadMol2 (resname fname : String) : ParmM Unit := do
  let path ← MonadExcept.ofExcept (findAmberFile env fname searchOldff)
  let contents ← MonadExcept.ofExcept (env.mol2 path)
  modify (·.record (.library path))
  match contents with
  | .container rs =>
    warn .amberWarning
      "Multi-residue mol2 files not supported by tleap. Loading anyway using names in mol2"
    for r in rs do modify fun s => { s with residues := s.residues.insert r.name r }
  | .residue r => modify fun s => { s with residues := s.residues.insert resname r }

/-- One line of the directive loop: escaped spaces are protected, then the first directive
form that matches is carried out. -/
def leaprcLine (line : String) : ParmM Unit := do
  let line := replace line "\\ " "_BSTOKEN_"
  match loadparamsre.findAll line with
  | (m :: _) :: _ => loadAmberParams env pt searchOldff (← MonadExcept.ofExcept (processFname m))
  | _ =>
    match loadoffre.findAll line with
    | (m :: _) :: _ => loadOff env searchOldff (← MonadExcept.ofExcept (processFname m))
    | _ =>
      match loadmol2re.findAll line with
      | [] => pure ()
      | [[resname, fname]] => loadMol2 env searchOldff resname fname
      | _ => throw (.valueError "too many values to unpack (expected 1)")

/-! ## `addAtomTypes` -/

/-- The characters between `addAtomTypes` and its opening brace must be blanks; the text
after the brace. -/
def skipToBrace : List Char → Except PyError (List Char)
  | [] => .error (.parameterError "Unsupported addAtomTypes syntax in leaprc file")
  | c :: cs =>
    if c = '{' then .ok cs
    else if c ∈ ['\r', '\n', '\t', ' '] then skipToBrace cs
    else .error (.parameterError "Unsupported addAtomTypes syntax in leaprc file")

/-- The text up to the brace closing the one before it, found by counting braces, with
newlines turned into spaces. -/
def braceBody : Nat → List Char → List Char
  | _, [] => []
  | n, c :: cs =>
    if c = '{' then c :: braceBody (n + 1) cs
    else if c = '}' then (if n - 1 = 0 then [] else c :: braceBody (n - 1) cs)
    else if c = '\n' then ' ' :: braceBody n cs
    else c :: braceBody n cs

/-- `atom_types_str`: the body of the `addAtomTypes` block. The keyword is found in the
lowercased text and its position used in the text itself. -/
def atomTypesBlock (text : String) : Except PyError String :=
  match findSub "addatomtypes".data (lower text).data with
  | none => .ok ""
  | some idx =>
    let i := idx + 12
    if text.length < i then .ok ""
    else (skipToBrace (text.data.drop i)).map fun rest => strip ⟨braceBody 1 rest⟩

/-- One `{ "name" "element" "hybridization" }` group: an unknown element is an error, and a
known atom type takes the element's atomic number. -/
def addAtomType (group : List String) : ParmM Unit := do
  let [_, name, symb, _] := group | pure ()
  let some z := pt.atomicNum symb | throw (.parameterError (symb ++ " is not a recognized element"))
  modify (·.updateAtomType name ({ · with atomicNumber := z }))

/-- The lines `from_leaprc` reads directives from: comments cut, continued lines joined. -/
def leaprcLines (f : List String) : List String := joinlines (f.map stripComment)

/-- The body of `from_leaprc`, run on a new `AmberParameterSet`. -/
def fromLeaprcBody (f : List String) : ParmM Unit := do
  let lines := leaprcLines f
  let text := join lines
  for line in lines do leaprcLine env pt searchOldff line
  let block ← MonadExcept.ofExcept (atomTypesBlock text)
  for group in atomtypere.findAll block do addAtomType pt group

/-- `AmberParameterSet.from_leaprc(f, search_oldff)` for a leaprc file given as its lines. -/
def fromLeaprc (f : List String) : EStateM.Result PyError AmberParameterSet Unit :=
  (fromLeaprcBody env pt searchOldff f).run AmberParameterSet.new

/-! ## `AmberParameterSet(*filenames)` -/

/-- An argument of the constructor: a file name, a sequence of file names, or an open file,
given as its lines. -/
inductive InitArg
  | name (fname : String)
  | names (fnames : List String)
  | file (lines : List String)

/-- One file name given to the constructor: a residue library (by `AmberOFFLibrary.id_format`,
outside `src/`, a parameter here) has its residues added, any other file is loaded. -/
def initName (isOffLibrary : String → Bool) (fname : String) : ParmM Unit :=
  if isOffLibrary fname then do
    let lib ← MonadExcept.ofExcept (env.offLibrary fname)
    for (name, r) in lib do modify fun s => { s with residues := s.residues.insert name r }
  else loadParameters pt (env.readLines fname)

/-- The body of `AmberParameterSet(*filenames)`, run on a new parameter set. -/
def init (isOffLibrary : String → Bool) (args : List InitArg) : ParmM Unit :=
  args.forM fun
    | .name fname => initName env pt isOffLibrary fname
    | .names fnames => fnames.forM (initName env pt isOffLibrary)
    | .file lines => loadParameters pt lines

/-- The constructor loads its files in order: `AmberParameterSet(*filenames)` on parameter files,
when it returns, holds the state of loading the files one after another. -/
theorem init_eq_loadAll (isOffLibrary : String → Bool) {fnames : List String}
    (hparm : ∀ f ∈ fnames, isOffLibrary f = false) {s s' : AmberParameterSet}
    (h : (init env pt isOffLibrary (fnames.map .name)).run s = .ok () s') :
    s' = loadAll pt (fnames.map env.readLines) s := by
  induction fnames generalizing s with
  | nil => cases h; rfl
  | cons f fnames ih =>
    rw [init, List.map_cons, List.forM_cons'] at h
    obtain ⟨_, s₁, h₁, h₂⟩ := run_bind_eq_ok h
    simp only [initName, hparm f (List.mem_cons_self f fnames), Bool.false_eq_true,
      if_false] at h₁
    have hs₁ : loadState pt (env.readLines f) s = s₁ := by rw [loadState, h₁]; rfl
    rw [List.map_cons, loadAll, List.foldl_cons, ← loadAll, hs₁]
    exact ih (fun g hg => hparm g (List.mem_cons_of_mem f hg)) h₂

/-! ## Two directives read differently than intended -/

/-- A `loadMol2` file name is taken from the line after escaped spaces became `_BSTOKEN_` and is
never decoded, so `x = loadmol2 a\ b` looks for `a_BSTOKEN_b`, while `loadoff a\ b` looks for
`a b`. With only `a b` present, the first raises `FileNotFoundError` and the second reads it. -/
theorem loadMol2_escaped_space_kept (env : LeapEnv) (pt : PeriodicTable) (searchOldff : Bool) :
    leaprcLine env pt searchOldff "x = loadmol2 a\\ b" =
      loadMol2 env searchOldff "x" "a_BSTOKEN_b" ∧
    leaprcLine env pt searchOldff "loadoff a\\ b" = loadOff env searchOldff "a b" ∧
    let env₁ : LeapEnv := ⟨"/w", "/amber", fun p => p = "/w/a b", fun _ => [], fun _ => .ok [],
      fun _ => .ok (.residue ⟨"R"⟩)⟩
    fromLeaprc env₁ pt false ["x = loadmol2 a\\ b"] =
      .error (.fileNotFoundError ("Cannot find Amber file [a_BSTOKEN_b] in paths " ++
        "['/w', '/amber/dat/leap/lib', '/amber/dat/leap/parm']")) AmberParameterSet.new ∧
    fromLeaprc env₁ pt false ["loadoff a\\ b"] =
      .ok () { AmberParameterSet.new with log := [.library "/w/a b"] } :=
  ⟨rfl, rfl, rfl, rfl⟩

/-- `"İ".lower()` is two characters long, so the position of `addatomtypes` found in the
lowercased text is one past its position in the text: the scan then starts inside the block,
takes the first group's braces for the block's and finds no group, and an unknown element
`Qq` goes unreported, while the same text without the `İ` raises. -/
theorem fromLeaprc_dotted_capital_I_hides_group (env : LeapEnv) (searchOldff : Bool) :
    let pt : PeriodicTable := ⟨fun s => if s = "C" then some 6 else none, fun _ => none,
      fun _ => "C", fun _ => none⟩
    pt.atomicNum "Qq" = none ∧
    fromLeaprc env pt searchOldff ["İaddatomtypes\x7b \x7b \"A\" \"Qq\" \"sp3\" \x7d \x7d"] =
      .ok () AmberParameterSet.new ∧
    fromLeaprc env pt searchOldff ["addatomtypes\x7b \x7b \"A\" \"Qq\" \"sp3\" \x7d \x7d"] =
      .error (.parameterError "Qq is not a recognized element") AmberParameterSet.new :=
  ⟨rfl, rfl, rfl⟩

end ParmEd.Amber
