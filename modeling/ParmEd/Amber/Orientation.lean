import ParmEd.Amber.Effects

/-!
# Both orientations of a key share one object

`_process_bond_line`, `_process_angle_line` and `_process_dihedral_line` create one object and
store it under a key and under the reversed key, so that a later change made through either
key is seen through the other. In the model objects are handles into the lists of objects of
the parameter set, and the property is that a key and its reverse hold the same handle.

* `Paired.insert_pair`: storing a new object under a key and its reverse keeps the property
  of a table, whatever the table held under either orientation before.
* `shared_stable`: every update made by the parsers keeps it, for the three tables at once.
* `loadAll_shared`: after any sequence of loads from a new parameter set, on any texts and
  whether or not a load raised part way, each table has it.
-/

namespace ParmEd.Amber

open ParmEd.Python

variable {κ : Type} [DecidableEq κ]

/-- Every key of a table of handles and its reverse under `r` hold the same handle, which
indexes a list of `n` objects. -/
structure Paired (r : κ → κ) (d : Dict κ Nat) (n : Nat) : Prop where
  reverse : ∀ k h, d.get? k = some h → d.get? (r k) = some h
  lt : ∀ k h, d.get? k = some h → h < n

theorem paired_empty (r : κ → κ) (n : Nat) : Paired r {} n :=
  ⟨fun _ _ h => (nomatch h), fun _ _ h => (nomatch h)⟩

/-- A new object, appended to the list of objects and stored under `k` and then under its
reverse. -/
theorem Paired.insert_pair {α : Type} {r : κ → κ} (hr : ∀ k, r (r k) = k) {d : Dict κ Nat}
    {objs : List α} (hd : Paired r d objs.length) (k : κ) (t : α) :
    Paired r ((d.insert k objs.length).insert (r k) objs.length) (objs ++ [t]).length := by
  rw [List.length_append, List.length_singleton]
  generalize objs.length = n at hd ⊢
  have inj : ∀ a b, r a = r b ↔ a = b := fun a b => ⟨fun h => by rw [← hr a, h, hr], congrArg r⟩
  constructor
  · intro k' h hk'
    simp only [Dict.get?_insert] at hk' ⊢
    by_cases h₁ : k' = r k
    · subst h₁
      simp only [if_pos rfl] at hk'
      cases hk'
      simp only [hr]
      split <;> simp
    · by_cases h₂ : k' = k
      · subst h₂
        simp only [h₁, if_false, if_pos rfl] at hk' ⊢
        exact hk'
      · simp only [h₁, h₂, if_false] at hk'
        rw [if_neg (mt (inj _ _).1 h₂), if_neg (fun h => h₁ (by rw [← h, hr]))]
        exact hd.reverse _ _ hk'
  · intro k' h hk'
    simp only [Dict.get?_insert] at hk'
    split_ifs at hk' with h₁ h₂
    all_goals first | (cases hk'; omega) | exact Nat.lt_succ_of_lt (hd.lt _ _ hk')

/-- The orientation property of the bond, angle and torsion tables. -/
structure Shared (s : AmberParameterSet) : Prop where
  bonds : Paired Prod.swap s.bondTypes s.bondObjects.length
  angles : Paired AngleKey.reverse s.angleTypes s.angleObjects.length
  dihedrals : Paired TorsionKey.reverse s.dihedralTypes s.dihedralObjects.length

theorem shared_new : Shared AmberParameterSet.new :=
  ⟨paired_empty _ _, paired_empty _ _, paired_empty _ _⟩

theorem shared_stable : Stable Shared where
  atomTypes _ _ h := ⟨h.1, h.2, h.3⟩
  bond _ a b _ h := ⟨h.1.insert_pair Prod.swap_swap (a, b) _, h.2, h.3⟩
  angle _ a b c _ h := ⟨h.1, h.2.insert_pair AngleKey.reverse_reverse (a, b, c) _, h.3⟩
  dihedral _ _ _ h := ⟨h.1, h.2, h.3.insert_pair TorsionKey.reverse_reverse _ _⟩
  append s _ _ h := ⟨h.1, h.2, by simpa using h.3⟩
  improper _ _ _ _ _ _ h := ⟨h.1, h.2, h.3⟩
  nbfix _ _ _ h := ⟨h.1, h.2, h.3⟩
  titles _ _ h := ⟨h.1, h.2, h.3⟩
  warn _ _ _ _ h := ⟨h.1, h.2, h.3⟩

/-- **Orientations share one object.** After any sequence of loads from a new parameter set,
each bond, angle and torsion key and its reverse hold the same object. -/
theorem loadAll_shared (pt : PeriodicTable) (fs : List (List String)) :
    Shared (loadAll pt fs AmberParameterSet.new) :=
  loadAll_stable shared_stable pt fs shared_new

end ParmEd.Amber
