import ParmEd.Amber.Leaprc
import ParmEd.Amber.RoundTrip
import ParmEd.Amber.Continuation

/-!
# The parameter set `AmberParameterSet(*filenames)` builds

The constructor loads its parameter files one after another into a new parameter set
(`init_eq_loadAll`), so every property that loading keeps (`Stable`) and that a new set has
holds of the sets it builds (`init_stable`).

* `init_invariants`: the improper keys of a constructed set have their outer atom types sorted,
  each torsion key shares its term list with its reverse and no other key class, and `write`
  raises on it only the assertion on a generic improper or the `TypeError` of an atom type
  without Lennard-Jones parameters.
-/

namespace ParmEd.Amber

open ParmEd.Python

variable (env : LeapEnv) (pt : PeriodicTable) (isOffLibrary : String → Bool)

/-- A property that loading keeps and a new parameter set has holds of the set the constructor
builds from parameter files. -/
theorem init_stable {P : AmberParameterSet → Prop} (hP : Stable P) (hnew : P .new)
    {fnames : List String} (hparm : ∀ f ∈ fnames, isOffLibrary f = false) {s' : AmberParameterSet}
    (h : (init env pt isOffLibrary (fnames.map .name)).run .new = .ok () s') : P s' := by
  rw [init_eq_loadAll env pt isOffLibrary hparm h]
  exact loadAll_stable hP pt _ hnew

/-- **The constructed parameter set.** `AmberParameterSet(*filenames)` on parameter files, when
it returns, holds improper keys with sorted outer types and torsion term lists shared by exactly
the two orientations of a key, and `write` (for either style) raises on it only the assertion on
a generic improper or the `TypeError` of an atom type without Lennard-Jones parameters. -/
theorem init_invariants {fnames : List String} (hparm : ∀ f ∈ fnames, isOffLibrary f = false)
    {s' : AmberParameterSet}
    (h : (init env pt isOffLibrary (fnames.map .name)).run .new = .ok () s') :
    ImpropersSorted s' ∧ TorsionHandles s' ∧
      ∀ title style, style = "frcmod" ∨ style = "parm" → ∀ e text,
        (write s' title style).run "" = .error e text →
          e = .assertionError "Malformed generic improper!" ∨
            e = .typeError "unsupported format string passed to NoneType.__format__" := by
  have hsorted := init_stable env pt isOffLibrary impropersSorted_stable
    (fun _ _ h => nomatch h) hparm h
  refine ⟨hsorted, init_stable env pt isOffLibrary torsionHandles_stable
    ⟨paired_empty _ _, fun _ _ _ h => nomatch h⟩ hparm h, fun _ _ hstyle _ _ hw => ?_⟩
  exact write_raises_of_sorted
    (init_stable env pt isOffLibrary handlesValid_stable handlesValid_new hparm h) hsorted hstyle hw

section Evaluation

attribute [local semireducible] Rat.ofScientific Rat.mul Rat.inv Rat.add Rat.sub

/-- One frcmod file given by name. -/
theorem init_one_frcmod_invariants :
    let env : LeapEnv := ⟨"/w", "/amber", fun _ => true, fun _ => ["t", "MASS", "EP  1.0"],
      fun _ => .ok [], fun _ => .ok (.residue ⟨"R"⟩)⟩
    (∀ f ∈ ["a.frcmod"], (fun _ => false : String → Bool) f = false) ∧
      (init env carbonTable (fun _ => false) (["a.frcmod"].map .name)).run .new =
        .ok () (loadState carbonTable ["t", "MASS", "EP  1.0"] .new) ∧
      ImpropersSorted (loadState carbonTable ["t", "MASS", "EP  1.0"] .new) ∧
      TorsionHandles (loadState carbonTable ["t", "MASS", "EP  1.0"] .new) ∧
      ∀ title style, style = "frcmod" ∨ style = "parm" → ∀ e text,
        (write (loadState carbonTable ["t", "MASS", "EP  1.0"] .new) title style).run "" =
            .error e text →
          e = .assertionError "Malformed generic improper!" ∨
            e = .typeError "unsupported format string passed to NoneType.__format__" := by
  intro env
  have hparm : ∀ f ∈ ["a.frcmod"], (fun _ => false : String → Bool) f = false := fun _ _ => rfl
  have h : (init env carbonTable (fun _ => false) (["a.frcmod"].map .name)).run .new =
      .ok () (loadState carbonTable ["t", "MASS", "EP  1.0"] .new) := rfl
  exact ⟨hparm, h, init_invariants env carbonTable _ hparm h⟩

end Evaluation

end ParmEd.Amber
