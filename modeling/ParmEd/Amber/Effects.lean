import ParmEd.Amber.Parse

/-!
# What reading a file does to a parameter set

Every change `load_parameters` makes to a parameter set is one of a few updates: an atom-type
table rewritten, a bond, angle or torsion object stored under both orientations of its key,
a term appended to a torsion object, an improper stored under its sorted key, an NBFIX entry
set, a title appended, or a `ParameterWarning` or `AmberWarning` issued. `Stable P` says that a
property `P` survives each of them; `loadState_stable` then gives `P` after any load from a
state satisfying it, returned or raised, and `loadAll_stable` after any sequence of loads.

The same triples show that no handler raises `AssertionError` when the key of a pending
torsion is one the file has not finished (`Pending`), and that the parsers keep that true of
the loop's variables: the defensive checks of `_process_dihedral_line` never fire
(`loadParameters_not_assertion`).
-/

namespace ParmEd.Amber

open ParmEd.Python

/-- A property of parameter sets that every update the parsers make outside the torsion table
keeps. -/
structure OtherStable (P : AmberParameterSet → Prop) : Prop where
  atomTypes : ∀ s d, P s → P { s with atomTypes := d }
  bond : ∀ s a b t, P s → P (s.setBond a b t)
  angle : ∀ s a b c t, P s → P (s.setAngle a b c t)
  improper : ∀ s a1 a2 a3 a4 t, P s → P (s.setImproper (improperKey a1 a2 a3 a4) t)
  nbfix : ∀ s k v, P s → P (s.setNbfix k v)
  titles : ∀ s l, P s → P { s with titles := l }
  warn : ∀ s c m, c ≠ .userWarning → P s → P (s.record (.warn c m))

/-- A property of parameter sets that every update made by the parsers keeps. -/
structure Stable (P : AmberParameterSet → Prop) extends OtherStable P : Prop where
  dihedral : ∀ s k t, P s → P (s.setDihedral k (TorsionKey.reverse k) t)
  append : ∀ s h t, P s → P (s.appendDihedral h t)

/-- Any exception but `AssertionError`. -/
def NotAssertion (e : PyError) : Prop := ¬ e.IsAssertion

/-- A torsion key the previous dihedral line left pending belongs to a torsion the file has
started and not finished. -/
def Pending (finished : Dict TorsionKey Bool) (key : Option TorsionKey) : Prop :=
  ∀ k, key = some k → finished.contains k = true ∧ isFinished finished k = false

variable {P : AmberParameterSet → Prop}

/-- An `Except` computation none of whose exceptions is an `AssertionError`. -/
def NoAssert {α : Type} (x : Except PyError α) : Prop := ∀ e, x = .error e → NotAssertion e

theorem NoAssert.bind {α β : Type} {x : Except PyError α} {f : α → Except PyError β}
    (hx : NoAssert x) (hf : ∀ a, NoAssert (f a)) : NoAssert (x >>= f) := by
  intro e h
  cases hx' : x with
  | ok a => rw [hx'] at h; exact hf a e h
  | error e' => rw [hx'] at h; cases h; exact hx _ hx'

theorem NoAssert.pure {α : Type} (a : α) : NoAssert (Pure.pure a : Except PyError α) :=
  fun _ h => nomatch h

theorem NoAssert.mapM {α β : Type} {f : α → Except PyError β} (hf : ∀ a, NoAssert (f a)) :
    ∀ l : List α, NoAssert (l.mapM f)
  | [] => NoAssert.pure _
  | a :: l => by
    rw [List.mapM_cons]
    exact (hf a).bind fun _ => (NoAssert.mapM hf l).bind fun _ => NoAssert.pure _

theorem noAssert_floatE (x : String) : NoAssert (floatE x) := by
  intro e h
  unfold floatE at h
  split at h <;> cases h
  exact id

theorem noAssert_floatDiv (x y : ℚ) : NoAssert (floatDiv x y) := by
  intro e h
  unfold floatDiv at h
  split at h <;> cases h
  exact id

theorem noAssert_readTerm (fields : List String) (line : String) :
    NoAssert (readTerm fields line) := by
  have scale : ∀ re d, NoAssert (scaleFactor re d line) := fun _ _ =>
    (NoAssert.mapM (fun _ => noAssert_floatE _) _).bind fun _ => NoAssert.pure _
  exact (scale _ _).bind fun _ => (scale _ _).bind fun _ => (noAssert_floatE _).bind fun _ =>
    (noAssert_floatE _).bind fun _ => (noAssert_floatE _).bind fun _ =>
    (noAssert_floatDiv _ _).bind fun _ => (noAssert_floatE _).bind fun _ => NoAssert.pure _

theorem Triple.ofExcept_noAssert {α : Type} {P : AmberParameterSet → Prop}
    {x : Except PyError α} (hx : NoAssert x) :
    Triple P (MonadExcept.ofExcept x : ParmM α) (fun _ => True) NotAssertion :=
  Triple.ofExcept (fun _ _ => trivial) hx

theorem float_triple (x : String) : Triple P (float x) (fun _ => True) NotAssertion :=
  Triple.ofExcept_noAssert (noAssert_floatE x)

theorem pending_empty : Pending {} none := fun _ h => nomatch h

/-- The loop variables `_process_dihedral_line` returns leave a pending key only for a term
of negative periodicity, and then record its torsion as started and unfinished. -/
theorem pending_processed (finished : Dict TorsionKey Bool) (key : TorsionKey) (per : ℚ) :
    Pending ((finished.insert key (decide (0 ≤ per))).insert key.reverse (decide (0 ≤ per)))
      (if per < 0 then some key else none) := by
  intro k hk
  split at hk
  · cases hk
    simp [isFinished, Dict.contains, not_le.2 ‹per < 0›]
  · cases hk

theorem next_triple (l : List String) : Triple P (next l) (fun _ => True) NotAssertion := by
  cases l with
  | nil => exact Triple.throw id
  | cons l ls => exact Triple.skip

/-- A parm.dat section loop keeps what its handler keeps of the loop's own state. -/
theorem sectionLoop_triple {σ : Type} {I : σ → Prop} {handle : σ → String → ParmM σ}
    (hh : ∀ a line, I a → Triple P (handle a line) I NotAssertion) (acc : σ) (raw : String)
    (rest : List String) (ha : I acc) :
    Triple P (sectionLoop handle acc raw rest) (fun r => I r.1) NotAssertion := by
  induction rest generalizing acc raw with
  | nil =>
    unfold sectionLoop
    split
    · exact Triple.pure ha
    · exact Triple.bind (hh _ _ ha) fun _ _ => Triple.throw id
  | cons r rest ih =>
    unfold sectionLoop
    split
    · exact Triple.pure ha
    · exact Triple.bind (hh _ _ ha) fun acc' ha' => ih acc' r ha'

theorem simpleSection_triple {handle : String → ParmM Unit}
    (hh : ∀ line, Triple P (handle line) (fun _ => True) NotAssertion) (raw : String)
    (rest : List String) : Triple P (simpleSection handle raw rest) (fun _ => True) NotAssertion :=
  Triple.bind (sectionLoop_triple (fun _ l (_ : True) => hh l) () raw rest trivial)
    fun _ _ => Triple.skip

theorem processTenTwelveLine_triple (line : String) :
    Triple P (processTenTwelveLine line) (fun _ => True) NotAssertion := by
  unfold processTenTwelveLine
  split
  · split
    · split
      · exact Triple.throw id
      · exact Triple.skip
    · exact Triple.throw id
  · exact Triple.throw id

section Other

variable (hP : OtherStable P) (pt : PeriodicTable)
include hP

/-! ## Line handlers -/

theorem warn_triple {c : WarningCategory} (hc : c ≠ .userWarning) (m : String) :
    Triple P (warn c m) (fun _ => True) NotAssertion :=
  Triple.modify fun _ h => hP.warn _ _ _ hc h

theorem processMassLine_triple (line : String) :
    Triple P (processMassLine pt line) (fun _ => True) NotAssertion := by
  unfold processMassLine
  dsimp only
  split
  · split
    · refine Triple.bind Triple.get fun s _ => ?_
      split
      · exact Triple.modify fun _ h => hP.atomTypes _ _ h
      split
      · exact Triple.modify fun _ h => hP.atomTypes _ _ h
      split
      · exact Triple.modify fun _ h => hP.atomTypes _ _ h
      · exact Triple.throw id
    · exact Triple.throw id
  · exact Triple.throw id

theorem processBondLine_triple (line : String) :
    Triple P (processBondLine line) (fun _ => True) NotAssertion := by
  unfold processBondLine
  split
  · exact Triple.bind (float_triple _) fun _ _ => Triple.bind (float_triple _) fun _ _ =>
      Triple.modify fun _ h => hP.bond _ _ _ _ h
  · exact Triple.throw id

theorem processAngleLine_triple (line : String) :
    Triple P (processAngleLine line) (fun _ => True) NotAssertion := by
  unfold processAngleLine
  split
  · exact Triple.bind (float_triple _) fun _ _ => Triple.bind (float_triple _) fun _ _ =>
      Triple.modify fun _ h => hP.angle _ _ _ _ _ h
  · exact Triple.throw id

theorem processImproperLine_triple (line : String) :
    Triple P (processImproperLine line) (fun _ => True) NotAssertion := by
  unfold processImproperLine
  split
  · exact Triple.bind (float_triple _) fun _ _ => Triple.bind (float_triple _) fun _ _ =>
      Triple.bind (float_triple _) fun _ _ => Triple.modify fun _ h => hP.improper _ _ _ _ _ _ h
  · exact Triple.throw id

theorem processNonbondLine_triple (line : String) :
    Triple P (processNonbondLine line) (fun _ => True) NotAssertion := by
  unfold processNonbondLine
  split
  · refine Triple.bind Triple.get fun s _ => ?_
    split
    · split
      · exact Triple.modify fun _ h => hP.atomTypes _ _ h
      · exact Triple.throw id
    · exact Triple.throw id
  · exact Triple.throw id

theorem processNbfixLine_triple (line : String) (eq : Option (Dict String (List String))) :
    Triple P (processNbfixLine line eq) (fun _ => True) NotAssertion := by
  unfold processNbfixLine
  split
  · split
    · refine Triple.bind (Triple.ofExcept (fun _ _ => trivial) fun e h => ?_) fun _ _ => ?_
      · unfold mathSqrt at h
        split at h <;> cases h
        exact id
      · refine Triple.bind (Triple.modify fun _ h => hP.nbfix _ _ _ h) fun _ _ => ?_
        split
        · have hset : ∀ k v, Triple P (do modify (·.setNbfix k v); pure (ForInStep.yield ⟨⟩) :
              ParmM (ForInStep PUnit)) (fun _ => True) NotAssertion := fun k v =>
            Triple.bind (Triple.modify fun _ h => hP.nbfix _ k v h) fun _ _ => Triple.pure trivial
          exact Triple.bind (Triple.forIn fun _ _ => hset _ _) fun _ _ =>
            Triple.bind (Triple.forIn fun _ _ => hset _ _) fun _ _ =>
            Triple.bind (Triple.forIn fun _ _ => Triple.bind (Triple.forIn fun _ _ => hset _ _)
              fun _ _ => Triple.pure trivial) fun _ _ => Triple.pure trivial
        · exact Triple.pure trivial
    · exact Triple.throw id
  · exact Triple.throw id

theorem dihedralKey_triple (line : String) (finished : Dict TorsionKey Bool)
    (key : Option TorsionKey) (hk : Pending finished key) :
    Triple P (dihedralKey line finished key) (fun _ => True) NotAssertion := by
  unfold dihedralKey
  split
  · exact Triple.throw id
  · next k _ =>
    obtain ⟨hc, hf⟩ := hk k rfl
    split
    · simp only [hc, hf, Bool.not_true, Bool.false_eq_true, ↓reduceIte, pure_bind]
      exact Triple.pure trivial
    · exact Triple.throw id
  · dsimp only
    split
    · split
      · exact Triple.bind (warn_triple hP (by decide) _) fun _ _ => Triple.pure trivial
      · exact Triple.bind Triple.skip fun _ _ => Triple.pure trivial
    · exact Triple.bind Triple.skip fun _ _ => Triple.pure trivial
  · exact Triple.throw id

theorem assignEquivalence_triple (types : Dict String (List String)) (atyp otyp : String) :
    Triple P (assignEquivalence types atyp otyp) (fun _ => True) NotAssertion := by
  unfold assignEquivalence
  refine Triple.bind Triple.get fun s _ => ?_
  split
  · split
    · next _ o _ _ _ _ =>
      have assign : Triple P (modify (·.updateAtomType atyp (·.setLjParams o.epsilon o.rmin)) >>=
          fun _ => pure types) (fun _ => True) NotAssertion :=
        Triple.bind (Triple.modify fun _ h => hP.atomTypes _ _ h) fun _ _ => Triple.skip
      dsimp only
      split
      · refine Triple.bind (Triple.ofExcept (fun _ _ => trivial) fun e h => ?_) fun d _ => ?_
        · unfold ljDiffers at h
          repeat' split at h
          all_goals cases h <;> exact id
        · split
          · refine Triple.bind (warn_triple hP (by decide) _) fun _ _ => ?_
            split
            · exact Triple.skip
            · exact Triple.throw_bind id
          · exact Triple.bind Triple.skip fun _ _ => assign
      · exact Triple.bind Triple.skip fun _ _ => assign
    · exact Triple.skip
  · exact Triple.throw id

theorem assignEquivalences_triple (ljtypes : Dict String String)
    (types : Dict String (List String)) :
    Triple P (assignEquivalences ljtypes types) (fun _ => True) NotAssertion :=
  Triple.foldlM (fun t e _ _ => assignEquivalence_triple hP t e.1 e.2) trivial

/-! ## The parm.dat sections around the torsions -/

theorem parmDatUpToDihedrals_triple (line : String) (f : List String) :
    Triple P (parmDatUpToDihedrals pt line f) (fun _ => True) NotAssertion := by
  unfold parmDatUpToDihedrals
  refine Triple.bind (next_triple _) fun ⟨raw, rest⟩ _ => ?_
  refine Triple.bind (simpleSection_triple (processMassLine_triple hP pt) raw rest) fun rest _ => ?_
  refine Triple.bind (next_triple _) fun ⟨_, rest⟩ _ => ?_
  refine Triple.bind (next_triple _) fun ⟨raw, rest⟩ _ => ?_
  refine Triple.bind (simpleSection_triple (processBondLine_triple hP) raw rest) fun rest _ => ?_
  refine Triple.bind (next_triple _) fun ⟨raw, rest⟩ _ => ?_
  exact Triple.bind (simpleSection_triple (processAngleLine_triple hP) raw rest) fun rest _ =>
    next_triple _

theorem parmDatFromImpropers_triple (rest : List String) :
    Triple P (parmDatFromImpropers rest) (fun _ => True) NotAssertion := by
  unfold parmDatFromImpropers
  refine Triple.bind (next_triple _) fun ⟨raw, rest⟩ _ => ?_
  refine Triple.bind (simpleSection_triple (processImproperLine_triple hP) raw rest)
    fun rest _ => ?_
  refine Triple.bind (next_triple _) fun ⟨raw, rest⟩ _ => ?_
  refine Triple.bind (simpleSection_triple processTenTwelveLine_triple raw rest) fun rest _ => ?_
  refine Triple.bind (next_triple _) fun ⟨raw, rest⟩ _ => ?_
  refine Triple.bind (sectionLoop_triple (fun _ _ (_ : True) => Triple.skip) _ raw rest trivial)
    fun ⟨⟨ljtypes, types⟩, rest⟩ _ => ?_
  refine Triple.bind (next_triple _) fun ⟨kind, rest⟩ _ => ?_
  dsimp only
  split
  · split
    · exact Triple.throw_bind id
    refine Triple.bind Triple.skip fun _ _ => ?_
    refine Triple.bind (next_triple _) fun ⟨raw, rest⟩ _ => ?_
    refine Triple.bind (simpleSection_triple (processNonbondLine_triple hP) raw rest)
      fun rest _ => ?_
    refine Triple.bind (assignEquivalences_triple hP ljtypes types) fun types _ => ?_
    refine Triple.bind (next_triple _) fun ⟨l, rest⟩ _ => ?_
    split
    · refine Triple.bind (next_triple _) fun ⟨raw, rest⟩ _ => ?_
      exact Triple.bind (simpleSection_triple (fun l => processNbfixLine_triple hP l _) raw rest)
        fun _ _ => Triple.skip
    · exact Triple.skip
  · exact Triple.throw id

end Other

section Stable

variable (hP : Stable P) (pt : PeriodicTable)
include hP

theorem processDihedralLine_triple (line : String) (finished : Dict TorsionKey Bool)
    (key : Option TorsionKey) (hk : Pending finished key) :
    Triple P (processDihedralLine line finished key) (fun r => Pending r.1 r.2) NotAssertion := by
  unfold processDihedralLine
  refine Triple.bind (dihedralKey_triple hP.1 line finished key hk) fun ⟨key, fields⟩ _ => ?_
  refine Triple.bind (Triple.ofExcept_noAssert (noAssert_readTerm _ _)) fun ⟨typ, per⟩ _ => ?_
  have done : Triple P (pure (_, _)) (fun r : Dict TorsionKey Bool × Option TorsionKey =>
      Pending r.1 r.2) NotAssertion :=
    Triple.pure (pending_processed finished key per)
  dsimp only
  split
  · exact Triple.bind (Triple.modify fun _ h => hP.dihedral _ _ _ h) fun _ _ => done
  · refine Triple.bind Triple.get fun s _ => ?_
    split
    · exact Triple.bind (Triple.modify fun _ h => hP.append _ _ _ h) fun _ _ => done
    · exact Triple.throw_bind id

/-! ## Parsers -/

/-- The frcmod loop keeps its pending key one of the file's unfinished torsions. -/
theorem frcmodLine_triple (loop : FrcmodLoop) (raw : String) (h : Pending loop.finished loop.key) :
    Triple P (frcmodLine pt loop raw) (fun l => Pending l.finished l.key) NotAssertion := by
  unfold frcmodLine
  dsimp only
  split
  · exact Triple.pure h
  split
  · exact Triple.pure h
  refine Triple.bind Triple.skip fun _ _ => Triple.bind Triple.skip fun _ _ => ?_
  split
  · exact Triple.bind (processMassLine_triple hP.1 pt _) fun _ _ => Triple.pure h
  · exact Triple.bind (processBondLine_triple hP.1 _) fun _ _ => Triple.pure h
  · exact Triple.bind (processAngleLine_triple hP.1 _) fun _ _ => Triple.pure h
  · exact Triple.bind (processDihedralLine_triple hP _ _ _ h) fun _ h' => Triple.pure h'
  · exact Triple.bind (processImproperLine_triple hP.1 _) fun _ _ => Triple.pure h
  · exact Triple.bind (processNonbondLine_triple hP.1 _) fun _ _ => Triple.pure h
  · exact Triple.bind (processNbfixLine_triple hP.1 _ _) fun _ _ => Triple.pure h
  · exact Triple.pure h

theorem parseFrcmod_triple (line : String) (f : List String) :
    Triple P (parseFrcmod pt line f) (fun _ => True) NotAssertion :=
  Triple.bind (Triple.foldlM (fun l raw _ h => frcmodLine_triple hP pt l raw h) pending_empty)
    fun _ _ => Triple.skip

theorem parmDatDihedrals_triple (raw : String) (rest : List String) :
    Triple P (parmDatDihedrals raw rest) (fun _ => True) NotAssertion :=
  Triple.bind (sectionLoop_triple (fun a l h => processDihedralLine_triple hP l a.1 a.2 h)
    _ raw rest pending_empty) fun _ _ => Triple.skip

theorem parseParmDat_triple (line : String) (f : List String) :
    Triple P (parseParmDat pt line f) (fun _ => True) NotAssertion :=
  Triple.bind (parmDatUpToDihedrals_triple hP.1 pt line f) fun ⟨raw, rest⟩ _ =>
    Triple.bind (parmDatDihedrals_triple hP raw rest) fun rest _ =>
    parmDatFromImpropers_triple hP.1 rest

theorem loadParameters_triple (f : List String) :
    Triple P (loadParameters pt f) (fun _ => True) NotAssertion := by
  unfold loadParameters
  split
  · exact Triple.modify fun _ h => hP.titles _ _ h
  · refine Triple.bind (Triple.modify fun _ h => hP.titles _ _ h) fun _ _ => ?_
    split
    · exact Triple.skip
    · split
      · exact parseFrcmod_triple hP pt _ _
      · exact parseParmDat_triple hP pt _ _

/-- A stable property holds after a load from a state that has it, whether the load returned
or raised. -/
theorem loadState_stable {s : AmberParameterSet} (f : List String) (hs : P s) :
    P (loadState pt f s) := by
  unfold loadState
  have := loadParameters_triple hP pt f s hs
  revert this
  cases (loadParameters pt f).run s <;> exact And.right

/-- A stable property holds after any sequence of loads from a state that has it. -/
theorem loadAll_stable (fs : List (List String)) {s : AmberParameterSet} (hs : P s) :
    P (loadAll pt fs s) := by
  induction fs generalizing s with
  | nil => exact hs
  | cons f fs ih => exact ih (loadState_stable hP pt f hs)

end Stable

/-- `load_parameters` raises no `AssertionError`, from any parameter set and on any text. -/
theorem loadParameters_notAssertion (pt : PeriodicTable) (f : List String)
    {s s' : AmberParameterSet} {e : PyError} (h : (loadParameters pt f).run s = .error e s') :
    NotAssertion e :=
  have holds : Stable fun _ => True := ⟨⟨fun _ _ h => h, fun _ _ _ _ h => h, fun _ _ _ _ _ h => h,
    fun _ _ _ _ _ _ h => h, fun _ _ _ h => h, fun _ _ h => h, fun _ _ _ _ h => h⟩,
    fun _ _ _ h => h, fun _ _ _ h => h⟩
  by simpa [h] using loadParameters_triple holds pt f s trivial

section Evaluation

attribute [local semireducible] Rat.ofScientific Rat.mul Rat.inv Rat.add Rat.sub

/-- A torsion term with divisor `0` raises `ZeroDivisionError`, and an `LJEDIT` pair whose well
depths have a negative product raises `ValueError`; neither is a `ParameterError`. -/
theorem loadParameters_raises_non_parameter_errors (pt : PeriodicTable) :
    (loadParameters pt ["t", "DIHE", "A -B -C -D   0   1.0   0.0   2.0"]).run
        AmberParameterSet.new =
      .error (.zeroDivisionError "float division by zero")
        { AmberParameterSet.new with titles := ["t"] } ∧
    (loadParameters pt ["t", "", "LJEDIT", "A B 1.0 -1.0 1.0 1.0"]).run AmberParameterSet.new =
      .error (.valueError "math domain error") { AmberParameterSet.new with titles := ["t"] } :=
  ⟨rfl, rfl⟩

end Evaluation

end ParmEd.Amber