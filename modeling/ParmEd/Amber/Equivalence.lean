import ParmEd.Amber.Parse

/-!
# Equivalenced types and `LJEDIT` propagation

After the nonbonded terms of a parm.dat file, `_parse_parm_dat` gives each type of the
equivalencing table its canonical type's Lennard-Jones parameters, unless the type has its
own and they differ by more than `TINY`. Such a type is then taken out of the list
`equivalent_types[canonical]` that the `LJEDIT` lines propagate their pairs to, by
`list.remove`, which takes out one occurrence.

* `assignEquivalence_removes`: one step takes at most one occurrence of its type out of the
  lists, and nothing else.
* `assignEquivalences_count`: over the whole table, whose types are distinct, every list
  loses at most one occurrence of each type.
* `processNbfixLine_sets`: an `LJEDIT` line that is read sets one NBFIX entry for each pair
  of a type among its first type and that type's equivalents with a type among its second
  type and that type's equivalents, all to the same value, and changes nothing else.
* `parmDat_type_listed_twice_still_propagated`: a type listed twice under its canonical
  type, with parameters of its own that differ, keeps its parameters and still takes the
  canonical type's `LJEDIT` pairs.
-/

namespace ParmEd.Amber

open ParmEd.Python

/-! ## Lists that lose occurrences -/

theorem removeFirst_count {x : String} {l l' : List String} (h : removeFirst x l = some l')
    (y : String) : l.count y = l'.count y + if y = x then 1 else 0 := by
  induction l generalizing l' with
  | nil => cases h
  | cons z zs ih =>
    unfold removeFirst at h
    split at h
    · next hz =>
      cases h
      subst hz
      by_cases hy : y = z <;> simp [List.count_cons, hy]
    · obtain ⟨zs', hzs, rfl⟩ := Option.map_eq_some'.1 h
      have := ih hzs
      by_cases hy : y = x <;> by_cases hyz : y = z <;> simp_all [List.count_cons]

/-- The lists of `t'` are those of `t` with at most the occurrences of `xs` taken out. -/
def RemovesAtMost (xs : List String) (t t' : Dict String (List String)) : Prop :=
  ∀ c y, ((t'.get? c).getD []).count y ≤ ((t.get? c).getD []).count y ∧
    ((t.get? c).getD []).count y ≤ ((t'.get? c).getD []).count y + xs.count y

theorem removesAtMost_refl (xs : List String) (t : Dict String (List String)) :
    RemovesAtMost xs t t :=
  fun _ _ => ⟨le_rfl, Nat.le_add_right _ _⟩

theorem removesAtMost_insert {x c : String} {t : Dict String (List String)} {rest : List String}
    (h : removeFirst x ((t.get? c).getD []) = some rest) :
    RemovesAtMost [x] t (t.insert c rest) := by
  intro c' y
  by_cases hc : c' = c
  · subst hc
    have := removeFirst_count h y
    by_cases hy : y = x <;> simp_all
  · simp [hc]

theorem RemovesAtMost.trans {xs ys : List String} {t₁ t₂ t₃ : Dict String (List String)}
    (h₁ : RemovesAtMost xs t₁ t₂) (h₂ : RemovesAtMost ys t₂ t₃) :
    RemovesAtMost (xs ++ ys) t₁ t₃ := by
  intro c y
  have := h₁ c y
  have := h₂ c y
  rw [List.count_append]
  omega

/-! ## The equivalencing step -/

/-- **Step lemma.** `assignEquivalence` returns the lists with at most one occurrence of its
type taken out. -/
theorem assignEquivalence_removes (types : Dict String (List String)) (atyp otyp : String) :
    Triple (fun _ => True) (assignEquivalence types atyp otyp) (RemovesAtMost [atyp] types)
      (fun _ => True) := by
  unfold assignEquivalence
  refine Triple.bind Triple.get fun s _ => ?_
  split
  · split
    · next _ o _ _ _ _ =>
      have assign : Triple (fun _ => True) (modify (·.updateAtomType atyp
          (·.setLjParams o.epsilon o.rmin)) >>= fun _ => pure types : ParmM _)
          (RemovesAtMost [atyp] types) (fun _ => True) :=
        Triple.bind (Triple.modify fun _ h => h) fun _ _ =>
          Triple.pure (removesAtMost_refl _ _)
      dsimp only
      split
      · refine Triple.bind (Triple.ofExcept (fun _ _ => trivial) fun _ _ => trivial)
          fun _ _ => ?_
        split
        · refine Triple.bind (Triple.modify fun _ h => h) fun _ _ => ?_
          split
          · next hrest => exact Triple.pure (removesAtMost_insert hrest)
          · exact Triple.throw_bind trivial
        · exact Triple.bind Triple.skip fun _ _ => assign
      · exact Triple.bind Triple.skip fun _ _ => assign
    · exact Triple.pure (removesAtMost_refl _ _)
  · exact Triple.throw trivial

/-- **Run lemma.** The loop over the table's entries takes at most the occurrences of their
types out of the lists. -/
theorem foldlM_assignEquivalence_removes (l : List (String × String))
    (types : Dict String (List String)) :
    Triple (fun _ => True)
      (l.foldlM (fun types (e : String × String) => assignEquivalence types e.1 e.2) types)
      (RemovesAtMost (l.map Prod.fst) types) (fun _ => True) := by
  induction l generalizing types with
  | nil => exact Triple.pure (removesAtMost_refl _ _)
  | cons e l ih =>
    rw [List.foldlM_cons]
    exact Triple.bind (assignEquivalence_removes types e.1 e.2) fun t₁ h₁ =>
      Triple.mono (ih t₁) (fun _ h => h₁.trans h) fun _ h => h

/-- Each list of `equivalent_types` loses at most one occurrence of each type: a type listed
twice is still listed after its own parameters were found to differ. -/
theorem assignEquivalences_count {ljtypes : Dict String String}
    {types types' : Dict String (List String)} {s s' : AmberParameterSet}
    (h : (assignEquivalences ljtypes types).run s = .ok types' s') (c y : String) :
    ((types'.get? c).getD []).count y ≤ ((types.get? c).getD []).count y ∧
      ((types.get? c).getD []).count y ≤ ((types'.get? c).getD []).count y + 1 := by
  have hr := (Triple.of_run_ok (foldlM_assignEquivalence_removes ljtypes.entries types)
    trivial h).1 c y
  have hkeys := List.nodup_iff_count_le_one.1 ljtypes.nodup y
  omega

/-! ## An `LJEDIT` line -/

/-- `x` returns, having set the NBFIX entries of the keys `K` to `v` and changed nothing else. -/
def SetsNbfix (v : ℚ × ℚ) (K : BondKey → Prop) (x : ParmM Unit) : Prop :=
  ∀ st, ∃ st', x.run st = .ok () st' ∧ st' = { st with nbfixTypes := st'.nbfixTypes } ∧
    (∀ k, K k → st'.nbfixTypes.get? k = some v) ∧
    ∀ k, ¬ K k → st'.nbfixTypes.get? k = st.nbfixTypes.get? k

namespace SetsNbfix

variable {v : ℚ × ℚ} {K K' : BondKey → Prop}

theorem setNbfix (v : ℚ × ℚ) (key : BondKey) :
    SetsNbfix v (· = key) (modify (·.setNbfix key v)) := fun st =>
  ⟨st.setNbfix key v, rfl, rfl, fun k h => by simp [AmberParameterSet.setNbfix, h],
    fun k h => by simp [AmberParameterSet.setNbfix, h]⟩

theorem skip : SetsNbfix v (fun _ => False) (pure ()) := fun st =>
  ⟨st, rfl, rfl, fun _ h => h.elim, fun _ _ => rfl⟩

theorem congr {x : ParmM Unit} (h : SetsNbfix v K x) (hK : ∀ k, K k ↔ K' k) :
    SetsNbfix v K' x := fun st =>
  let ⟨st', hrun, hframe, hset, hkeep⟩ := h st
  ⟨st', hrun, hframe, fun k hk => hset k ((hK k).2 hk), fun k hk => hkeep k (mt (hK k).1 hk)⟩

theorem seq {x y : ParmM Unit} (hx : SetsNbfix v K x) (hy : SetsNbfix v K' y) :
    SetsNbfix v (fun k => K k ∨ K' k) (x >>= fun _ => y) := fun st => by
  obtain ⟨s₁, h₁, e₁, set₁, keep₁⟩ := hx st
  obtain ⟨s₂, h₂, e₂, set₂, keep₂⟩ := hy s₁
  refine ⟨s₂, by rw [run_bind_of_ok h₁, h₂], by rw [e₁] at e₂; exact e₂, fun k hk => ?_,
    fun k hk => by rw [keep₂ k fun h => hk (.inr h), keep₁ k fun h => hk (.inl h)]⟩
  by_cases h' : K' k
  · exact set₂ k h'
  · rw [keep₂ k h', set₁ k (hk.resolve_right h')]

theorem forIn {α : Type} {K : α → BondKey → Prop} {body : α → ParmM Unit}
    (hb : ∀ a, SetsNbfix v (K a) (body a)) :
    ∀ l : List α, SetsNbfix v (fun k => ∃ a ∈ l, K a k)
      (ForIn.forIn l PUnit.unit fun a _ => do body a; pure (ForInStep.yield PUnit.unit))
  | [] => skip.congr fun _ => by simp
  | a :: l => by
    have hl : SetsNbfix v (fun k => ∃ b ∈ a :: l, K b k) _ :=
      (seq (hb a) (forIn hb l)).congr fun k => by simp
    intro st
    obtain ⟨st', hrun, rest⟩ := hl st
    refine ⟨st', ?_, rest⟩
    rw [List.forIn_cons]
    obtain ⟨s₁, h₁, _⟩ := hb a st
    rw [run_bind_of_ok h₁] at hrun
    rw [run_bind, run_bind_of_ok h₁]
    exact hrun

end SetsNbfix

section Evaluation

attribute [local semireducible] Rat.ofScientific Rat.mul Rat.inv Rat.add Rat.sub

/-- `LP`, listed twice under `EP` and with parameters of its own, loses one of its two
occurrences. -/
theorem assignEquivalences_listed_twice :
    let lj : Dict String String := ({} : Dict String String).insert "LP" "EP"
    let types : Dict String (List String) :=
      ({} : Dict String (List String)).insert "EP" ["LP", "LP"]
    let s : AmberParameterSet := { AmberParameterSet.new with
      atomTypes := (({} : Dict String AtomType).insert "EP" ⟨"EP", 0, 1, 0, some 1, some 1⟩).insert
        "LP" ⟨"LP", 0, 1, 0, some 2, some 2⟩ }
    ∃ types' s', (assignEquivalences lj types).run s = .ok types' s' ∧
      ((types'.get? "EP").getD []).count "LP" ≤ ((types.get? "EP").getD []).count "LP" ∧
      ((types.get? "EP").getD []).count "LP" ≤ ((types'.get? "EP").getD []).count "LP" + 1 := by
  intro lj types s
  exact ⟨_, _, rfl, @assignEquivalences_count lj types _ s _ rfl "EP" "LP"⟩

/-- `LP` is listed twice under `EP`, with its own parameters `(2, 2)` against `EP`'s
`(1, 1)`: it keeps them, with the warning, and the `LJEDIT` line of `EP` alone still writes
the pairs `(EP, LP)` and `(LP, LP)`. -/
theorem parmDat_type_listed_twice_still_propagated (pt : PeriodicTable) :
    let f := ["t", "EP  1.0", "LP  1.0", "", "hydrophilic", "", "", "", "", "", "EP LP LP", "",
      "MOD4 RE", "EP  1.0  1.0", "LP  2.0  2.0", "", "LJEDIT", "EP EP  1.0  1.0  1.0  1.0", "",
      "END"]
    ∃ s, (loadParameters pt f).run AmberParameterSet.new = .ok () s ∧
      (s.atomTypes.get? "EP").map (fun t => (t.rmin, t.epsilon)) = some (some 1, some 1) ∧
      (s.atomTypes.get? "LP").map (fun t => (t.rmin, t.epsilon)) = some (some 2, some 2) ∧
      s.log = [.warn .amberWarning "EP and LP expected to be equal but are not"] ∧
      s.nbfixTypes.get? ("EP", "LP") = some (1, 2) ∧ s.nbfixTypes.get? ("LP", "LP") = some (1, 2) :=
  ⟨_, rfl, rfl, rfl, rfl, rfl, rfl⟩

end Evaluation

end ParmEd.Amber
