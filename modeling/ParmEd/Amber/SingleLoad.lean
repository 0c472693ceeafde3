import Mathlib.Data.List.Forall2
import ParmEd.Amber.Effects
import ParmEd.Amber.Leaprc

/-!
# The single-load rule of `from_leaprc`

`tleap` loads each of the core parameter files `parm10.dat`, `parm99.dat` and `parm15*` at
most once, and `from_leaprc` follows it with the `__is_parm_loaded` flags. Stated on the
`loadAmberParams` directives of a leaprc text, in order: a directive is skipped, with one
warning, exactly when its core file was named by an earlier directive, and every other
directive's file is found by `_find_amber_file` and read by `load_parameters`.

* `keptDirectives` and `skippedDirectives` state the rule on a list of file names, each
  directive judged against all directives before it.
* `Sim` relates the directives read so far to a parameter set: its flags, and the files opened
  and the skip warnings of its log. `leaprcLine_sim` is the step lemma, `lines_sim` the run.
* `fromLeaprc_single_load`: on a text `from_leaprc` reads without raising, the files opened are
  the kept directives' files and the skip warnings name the skipped directives.
-/

namespace ParmEd.Amber

open ParmEd.Python

/-! ## The rule on a list of directives -/

/-- The core parameter file a file name counts as. -/
def coreKey (name : String) : Option String :=
  if name = "parm10.dat" ∨ name = "parm99.dat" then some name
  else if startswith name "parm15" then some "parm15" else none

/-- Whether the core file of `n` is that of one of the directives `earlier`. -/
def coreRepeated (earlier : List String) (n : String) : Bool :=
  match coreKey n with
  | some k => earlier.any fun m => coreKey m == some k
  | none => false

/-- The directives loaded: each one whose core file no earlier directive named. -/
def keptDirectives : List String → List String → List String
  | _, [] => []
  | earlier, n :: ns =>
    if coreRepeated earlier n then keptDirectives (earlier ++ [n]) ns
    else n :: keptDirectives (earlier ++ [n]) ns

/-- The directives skipped: each one whose core file an earlier directive named. -/
def skippedDirectives : List String → List String → List String
  | _, [] => []
  | earlier, n :: ns =>
    if coreRepeated earlier n then n :: skippedDirectives (earlier ++ [n]) ns
    else skippedDirectives (earlier ++ [n]) ns

theorem keptDirectives_append (earlier ds : List String) (n : String) :
    keptDirectives earlier (ds ++ [n]) =
      keptDirectives earlier ds ++ if coreRepeated (earlier ++ ds) n then [] else [n] := by
  induction ds generalizing earlier with
  | nil => by_cases h : coreRepeated earlier n <;> simp [keptDirectives, h]
  | cons d ds ih =>
    by_cases h : coreRepeated earlier d <;> simp [keptDirectives, h, ih]

theorem skippedDirectives_append (earlier ds : List String) (n : String) :
    skippedDirectives earlier (ds ++ [n]) =
      skippedDirectives earlier ds ++ if coreRepeated (earlier ++ ds) n then [n] else [] := by
  induction ds generalizing earlier with
  | nil => by_cases h : coreRepeated earlier n <;> simp [skippedDirectives, h]
  | cons d ds ih =>
    by_cases h : coreRepeated earlier d <;> simp [skippedDirectives, h, ih]

/-- Only a directive naming a core file is ever skipped. -/
theorem coreKey_of_mem_skippedDirectives {earlier ds : List String} {n : String}
    (h : n ∈ skippedDirectives earlier ds) : (coreKey n).isSome := by
  induction ds generalizing earlier with
  | nil => cases h
  | cons d ds ih =>
    unfold skippedDirectives at h
    split at h
    · next hr =>
      rcases List.mem_cons.1 h with rfl | h
      · unfold coreRepeated at hr
        split at hr <;> simp_all
      · exact ih h
    · exact ih h

/-! ## The directives of a text -/

/-- The file a line's `loadAmberParams` directive names, decoded by `process_fname`. -/
def paramsDirective (line : String) : Option String :=
  match loadparamsre.findAll (replace line "\\ " "_BSTOKEN_") with
  | (m :: _) :: _ => (processFname m).toOption
  | _ => none

/-- A file `load_parameters` opened. -/
def Event.openedPath : Event → Option String
  | .opened p => some p
  | _ => none

/-- The message of a `UserWarning`. -/
def Event.skipMessage : Event → Option String
  | .warn .userWarning m => some m
  | _ => none

/-- `__is_parm_loaded` after the directives `earlier`: a core file's flag is set once a
directive named it, and no other file has a flag. -/
def LoadedFlags (earlier : List String) (d : Dict String Bool) : Prop :=
  ∀ k, d.get? k = if k = "parm10.dat" ∨ k = "parm99.dat" ∨ k = "parm15" then
    some (earlier.any fun m => coreKey m == some k) else none

/-- A parameter set after the `loadAmberParams` directives `earlier`: its flags, the files its
log shows opened, each found by `_find_amber_file` for a kept directive, and its skip
warnings, one per skipped directive. -/
structure Sim (env : LeapEnv) (searchOldff : Bool) (earlier : List String)
    (s : AmberParameterSet) : Prop where
  flags : LoadedFlags earlier s.parmLoaded
  opened : List.Forall₂ (fun n p => findAmberFile env n searchOldff = .ok p)
    (keptDirectives [] earlier) (s.log.filterMap Event.openedPath)
  skips : s.log.filterMap Event.skipMessage = (skippedDirectives [] earlier).map skipWarning

/-! ## Flags -/

theorem coreKey_parmLoadedKey {name k : String} (h : coreKey name = some k) :
    parmLoadedKey name = k ∧ (k = "parm10.dat" ∨ k = "parm99.dat" ∨ k = "parm15") := by
  unfold coreKey at h
  unfold parmLoadedKey
  split_ifs at h with h₁ h₂ <;> cases h
  · rcases h₁ with rfl | rfl <;> simp [startswith]
  · simp [h₂]

theorem parmLoadedKey_of_coreKey_none {name : String} (h : coreKey name = none) :
    ¬ (parmLoadedKey name = "parm10.dat" ∨ parmLoadedKey name = "parm99.dat" ∨
      parmLoadedKey name = "parm15") := by
  unfold coreKey at h
  unfold parmLoadedKey
  split_ifs at h ⊢
  simp_all
  rintro rfl
  exact absurd ‹startswith "parm15" "parm15" = false› (by decide)

theorem loadedFlags_new : LoadedFlags [] AmberParameterSet.new.parmLoaded := by
  intro k
  simp only [AmberParameterSet.new, Dict.get?_insert, Dict.get?_emptyCollection, List.any_nil]
  split_ifs <;> simp_all

/-- The flags after one more directive: set for its core file, if it has one. -/
theorem LoadedFlags.append {earlier : List String} {d d' : Dict String Bool} (name : String)
    (h : LoadedFlags earlier d)
    (hd' : ∀ k, d'.get? k = if coreKey name = some k then some true else d.get? k) :
    LoadedFlags (earlier ++ [name]) d' := by
  intro k
  rw [hd', h, List.any_append]
  by_cases hk : coreKey name = some k
  · simp [hk, (coreKey_parmLoadedKey hk).2]
  · have : (coreKey name == some k) = false := by simpa using hk
    simp [hk, this]

/-! ## What loading a file leaves alone -/

/-- The flags, the files opened and the skip warnings of a parameter set. -/
def Observed (d : Dict String Bool) (o u : List String) (s : AmberParameterSet) : Prop :=
  s.parmLoaded = d ∧ s.log.filterMap Event.openedPath = o ∧ s.log.filterMap Event.skipMessage = u

theorem observed_stable (d : Dict String Bool) (o u : List String) : Stable (Observed d o u) where
  atomTypes _ _ h := h
  bond _ _ _ _ h := h
  angle _ _ _ _ _ h := h
  dihedral _ _ _ h := h
  append _ _ _ h := h
  improper _ _ _ _ _ _ h := h
  nbfix _ _ _ h := h
  titles _ _ h := h
  warn s c m hc h := by
    obtain ⟨h₁, h₂, h₃⟩ := h
    refine ⟨h₁, ?_, ?_⟩ <;> cases c <;> simp_all [AmberParameterSet.record, Event.openedPath,
      Event.skipMessage]

/-- `load_parameters` changes no flag, opens no file of its own and issues no `UserWarning`. -/
theorem loadParameters_observed (pt : PeriodicTable) (f : List String)
    {s s' : AmberParameterSet} (h : (loadParameters pt f).run s = .ok () s') :
    Observed s.parmLoaded (s.log.filterMap Event.openedPath)
      (s.log.filterMap Event.skipMessage) s' := by
  exact (Triple.of_run_ok (loadParameters_triple (observed_stable _ _ _) pt f) ⟨rfl, rfl, rfl⟩ h).2

/-! ## One directive -/

variable {env : LeapEnv} {pt : PeriodicTable} {searchOldff : Bool}

/-- A file found and read: one more file opened, flags and skip warnings unchanged. -/
theorem loadFound_run {name : String} {s s' : AmberParameterSet}
    (h : (loadFound env pt searchOldff name).run s = .ok () s') :
    ∃ p, findAmberFile env name searchOldff = .ok p ∧ s'.parmLoaded = s.parmLoaded ∧
      s'.log.filterMap Event.openedPath = s.log.filterMap Event.openedPath ++ [p] ∧
      s'.log.filterMap Event.skipMessage = s.log.filterMap Event.skipMessage := by
  obtain ⟨p, s₁, h₁, h₂⟩ := run_bind_eq_ok h
  obtain ⟨hp, rfl⟩ := run_ofExcept_eq_ok h₁
  obtain ⟨_, s₂, h₃, h₄⟩ := run_bind_eq_ok h₂
  cases h₃
  obtain ⟨hd, ho, hu⟩ := loadParameters_observed pt _ h₄
  refine ⟨p, hp, hd, ?_, ?_⟩
  · simpa [AmberParameterSet.record, Event.openedPath] using ho
  · simpa [AmberParameterSet.record, Event.skipMessage] using hu

/-- A `loadAmberParams` directive that returned: its file loaded unless an earlier directive
named its core file, when it is skipped with a warning. -/
theorem loadAmberParams_sim {earlier : List String} {name : String} {s s' : AmberParameterSet}
    (hs : Sim env searchOldff earlier s)
    (h : (loadAmberParams env pt searchOldff name).run s = .ok () s') :
    Sim env searchOldff (earlier ++ [name]) s' := by
  obtain ⟨_, _, h₁, h₂⟩ := run_bind_eq_ok h
  cases h₁
  have hkept := keptDirectives_append [] earlier name
  have hskip := skippedDirectives_append [] earlier name
  rw [List.nil_append] at hkept hskip
  /- A directive whose file is read: the flags as `d`, one more file opened. -/
  have loaded : ∀ {s₁ : AmberParameterSet} (d : Dict String Bool),
      (loadFound env pt searchOldff name).run s₁ = .ok () s' →
      coreRepeated earlier name = false → s₁.log = s.log →
      (∀ k, d.get? k = if coreKey name = some k then some true else s.parmLoaded.get? k) →
      s₁.parmLoaded = d → Sim env searchOldff (earlier ++ [name]) s' := by
    intro s₁ d hrun hr hl hd hs₁
    obtain ⟨p, hp, hd', ho, hu⟩ := loadFound_run hrun
    refine ⟨hs.flags.append name (by rw [hd', hs₁]; exact hd), ?_, ?_⟩
    · rw [hkept, hr, ho, hl]
      exact List.rel_append hs.opened (List.Forall₂.cons hp .nil)
    · rw [hskip, hr, hu, hl, hs.skips]
      simp
  cases hc : coreKey name with
  | none =>
    have hget : s.parmLoaded.get? (parmLoadedKey name) = none := by
      rw [hs.flags, if_neg (parmLoadedKey_of_coreKey_none hc)]
    simp only [hget] at h₂
    exact loaded s.parmLoaded h₂ (by simp [coreRepeated, hc]) rfl (by simp [hc]) rfl
  | some k =>
    obtain ⟨hk, hcore⟩ := coreKey_parmLoadedKey hc
    have hget : s.parmLoaded.get? (parmLoadedKey name) = some (coreRepeated earlier name) := by
      rw [hs.flags, hk, if_pos hcore]
      simp [coreRepeated, hc]
    simp only [hget] at h₂
    cases hr : coreRepeated earlier name
    · simp only [hr] at h₂
      obtain ⟨_, _, h₃, h₄⟩ := run_bind_eq_ok h₂
      cases h₃
      refine loaded _ h₄ hr rfl (fun k' => ?_) rfl
      by_cases e : k = k'
      · subst e
        simp [hk, hc]
      · simp [hk, hc, e, Ne.symm e]
    · simp only [hr] at h₂
      cases h₂
      refine ⟨hs.flags.append name fun k' => ?_, ?_, ?_⟩
      · by_cases e : k' = k
        · subst e
          simp [hc, ← hk, hget, hr]
        · simp [hc, Ne.symm e]
      · rw [hkept, hr]
        simpa [AmberParameterSet.record, Event.openedPath] using hs.opened
      · rw [hskip, hr]
        simp [AmberParameterSet.record, Event.skipMessage, hs.skips]

theorem observed_library {d : Dict String Bool} {o u : List String} (p : String) :
    ∀ s, Observed d o u s → Observed d o u (s.record (.library p)) := by
  rintro s ⟨h₁, h₂, h₃⟩
  exact ⟨h₁, by simpa [Event.openedPath] using h₂, by simpa [Event.skipMessage] using h₃⟩

theorem observed_residues {d : Dict String Bool} {o u : List String} (s : AmberParameterSet)
    (r : Dict String ResidueTemplate) (h : Observed d o u s) :
    Observed d o u { s with residues := r } := h

/-- A line without a `loadAmberParams` directive changes no flag, opens no file with
`load_parameters` and issues no `UserWarning`. -/
theorem leaprcLine_observed {d : Dict String Bool} {o u : List String} {line : String}
    (hne : paramsDirective line = none) :
    Triple (Observed d o u) (leaprcLine env pt searchOldff line) (fun _ => True)
      (fun _ => True) := by
  unfold paramsDirective at hne
  unfold leaprcLine
  dsimp only
  split
  · next m _ _ heq =>
    rw [heq] at hne
    have hx : Triple (Observed d o u) (MonadExcept.ofExcept (processFname m) : ParmM String)
        (fun _ => False) (fun _ => True) :=
      Triple.ofExcept (fun n hn => by simp [hn, Except.toOption] at hne) fun _ _ => trivial
    exact Triple.bind hx fun _ h => h.elim
  split
  · refine Triple.bind (Triple.ofExcept (fun _ _ => trivial) fun _ _ => trivial) fun _ _ => ?_
    unfold loadOff
    refine Triple.bind (Triple.ofExcept (fun _ _ => trivial) fun _ _ => trivial) fun _ _ => ?_
    refine Triple.bind (Triple.ofExcept (fun _ _ => trivial) fun _ _ => trivial) fun _ _ => ?_
    refine Triple.bind (Triple.modify (observed_library _)) fun _ _ => ?_
    exact Triple.bind (Triple.forIn fun ⟨_, _⟩ _ =>
      Triple.bind (Triple.modify fun s h => observed_residues s _ h) fun _ _ => Triple.skip)
      fun _ _ => Triple.skip
  split
  · exact Triple.skip
  · unfold loadMol2
    refine Triple.bind (Triple.ofExcept (fun _ _ => trivial) fun _ _ => trivial) fun _ _ => ?_
    refine Triple.bind (Triple.ofExcept (fun _ _ => trivial) fun _ _ => trivial) fun _ _ => ?_
    refine Triple.bind (Triple.modify (observed_library _)) fun _ _ => ?_
    split
    · refine Triple.bind (Triple.modify fun s h =>
        (observed_stable _ _ _).warn s _ _ (by decide) h) fun _ _ => ?_
      exact Triple.bind (Triple.forIn fun _ _ =>
        Triple.bind (Triple.modify fun s h => observed_residues s _ h) fun _ _ => Triple.skip)
        fun _ _ => Triple.skip
    · exact Triple.modify fun s h => observed_residues s _ h
  · exact Triple.throw trivial

/-! ## The directive loop -/

/-- **Step lemma.** A line that returned moves the relation on by its directive, if any. -/
theorem leaprcLine_sim {earlier : List String} {line : String} {s s' : AmberParameterSet}
    (hs : Sim env searchOldff earlier s)
    (h : (leaprcLine env pt searchOldff line).run s = .ok () s') :
    Sim env searchOldff (earlier ++ (paramsDirective line).toList) s' := by
  cases hd : paramsDirective line with
  | none =>
    obtain ⟨h₁, h₂, h₃⟩ := (Triple.of_run_ok (leaprcLine_observed hd) ⟨rfl, rfl, rfl⟩ h).2
    simp only [Option.toList, List.append_nil]
    exact ⟨h₁ ▸ hs.flags, h₂ ▸ hs.opened, h₃ ▸ hs.skips⟩
  | some name =>
    unfold paramsDirective at hd
    unfold leaprcLine at h
    split at hd
    · next m _ _ heq =>
      simp only [heq] at h
      obtain ⟨n, _, h₁, h₂⟩ := run_bind_eq_ok h
      obtain ⟨hn, rfl⟩ := run_ofExcept_eq_ok h₁
      rw [hn] at hd
      cases hd
      exact loadAmberParams_sim hs h₂
    · cases hd

/-- **Run lemma.** The directive loop, when it returns, moves the relation on by the
`loadAmberParams` directives of its lines. -/
theorem lines_sim (lines earlier : List String) {s s' : AmberParameterSet}
    (hs : Sim env searchOldff earlier s)
    (h : (forIn lines ⟨⟩ fun line _ => do
      leaprcLine env pt searchOldff line; pure (ForInStep.yield ⟨⟩) : ParmM PUnit).run s =
        .ok ⟨⟩ s') :
    Sim env searchOldff (earlier ++ lines.filterMap paramsDirective) s' := by
  induction lines generalizing earlier s with
  | nil =>
    cases h
    simpa using hs
  | cons line lines ih =>
    simp only [List.forIn_cons] at h
    obtain ⟨_, s₁, h₁, h₂⟩ := run_bind_eq_ok h
    obtain ⟨_, _, h₃, h₄⟩ := run_bind_eq_ok h₁
    cases h₄
    have := ih _ (leaprcLine_sim hs h₃) h₂
    cases hd : paramsDirective line <;> simpa [hd, List.filterMap_cons] using this

theorem addAtomType_observed (pt : PeriodicTable) {d : Dict String Bool} {o u : List String}
    (group : List String) :
    Triple (Observed d o u) (addAtomType pt group) (fun _ => True) (fun _ => True) := by
  unfold addAtomType
  split
  · split
    · exact Triple.modify fun _ h => (observed_stable d o u).atomTypes _ _ h
    · exact Triple.throw trivial
  · exact Triple.skip

/-- **The single-load rule.** On a leaprc text that `from_leaprc` reads without raising, the
files `load_parameters` opens are, in order, those `_find_amber_file` resolves for the
`loadAmberParams` directives whose core file no earlier directive named; the `UserWarning`s
are one skip warning for each other directive, and each of those names a core file. -/
theorem fromLeaprc_single_load (env : LeapEnv) (pt : PeriodicTable) (searchOldff : Bool)
    (f : List String) {s : AmberParameterSet} (h : fromLeaprc env pt searchOldff f = .ok () s) :
    let ds := (leaprcLines f).filterMap paramsDirective
    List.Forall₂ (fun n p => findAmberFile env n searchOldff = .ok p) (keptDirectives [] ds)
        (s.log.filterMap Event.openedPath) ∧
      s.log.filterMap Event.skipMessage = (skippedDirectives [] ds).map skipWarning ∧
      ∀ n ∈ skippedDirectives [] ds, (coreKey n).isSome := by
  obtain ⟨_, s₁, h₁, h₂⟩ := run_bind_eq_ok h
  have hs := lines_sim _ [] ⟨loadedFlags_new, .nil, rfl⟩ h₁
  rw [List.nil_append] at hs
  obtain ⟨_, s₂, h₃, h₄⟩ := run_bind_eq_ok h₂
  obtain ⟨-, hs₂⟩ := run_ofExcept_eq_ok h₃
  rw [hs₂] at h₄
  have hobs : Observed s₁.parmLoaded (s₁.log.filterMap Event.openedPath)
      (s₁.log.filterMap Event.skipMessage) s :=
    (Triple.of_run_ok (Triple.bind (Triple.forIn fun g _ =>
      Triple.bind (addAtomType_observed pt g) fun _ _ => Triple.skip) fun _ _ => Triple.skip)
      ⟨rfl, rfl, rfl⟩ h₄).2
  exact ⟨hobs.2.1 ▸ hs.opened, hobs.2.2 ▸ hs.skips, fun _ => coreKey_of_mem_skippedDirectives⟩

/-- `parm10.dat` named twice: read once, then skipped with a warning. -/
theorem fromLeaprc_single_load_parm10_twice :
    let env : LeapEnv := ⟨"/w", "/amber", fun _ => true, fun _ => [], fun _ => .ok [],
      fun _ => .ok (.residue ⟨"R"⟩)⟩
    let pt : PeriodicTable := ⟨fun _ => none, fun _ => none, fun _ => "", fun _ => none⟩
    let f := ["loadamberparams parm10.dat", "loadAmberParams parm10.dat # again"]
    let r := fromLeaprc env pt false f
    let ds := (leaprcLines f).filterMap paramsDirective
    r = .ok () (stateOf r) ∧
      List.Forall₂ (fun n p => findAmberFile env n false = .ok p) (keptDirectives [] ds)
        ((stateOf r).log.filterMap Event.openedPath) ∧
      (stateOf r).log.filterMap Event.skipMessage = (skippedDirectives [] ds).map skipWarning ∧
      ∀ n ∈ skippedDirectives [] ds, (coreKey n).isSome := by
  intro env pt f r _
  exact ⟨rfl, fromLeaprc_single_load env pt false f rfl⟩

end ParmEd.Amber
