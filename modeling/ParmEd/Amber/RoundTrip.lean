import Mathlib.Data.Char
import Mathlib.Data.List.Lex
import ParmEd.Amber.Effects
import ParmEd.Amber.Write
import ParmEd.Amber.PrintedLines

/-!
# Writing a parameter set and reading it back

`write` lays its tables out in the frcmod format that `_parse_frcmod` reads.

* Impropers. `_process_improper_line` stores an improper under its flanking types in sorted
  order (`improperKey_flanksSorted`), so every improper key of a loaded parameter set is sorted
  (`loadAll_impropersSorted`). `write` moves wildcards `X` to the front and asserts that a
  wildcard second is also fourth; on a sorted key that assertion fails exactly when the second
  flanking type is `X` and the third sorts after it (`improperOrder_of_flanksSorted`), which a
  lowercase type name does.
* What `write` raises. Every handle of a loaded set names an object and every torsion object
  has a term (`handlesValid_stable`), and on sorted keys `write` prints no two impropers under
  the same atom types (`orderInjective_of_impropersSorted`). So on any loaded set `write` raises
  only the assertion on a generic improper or the `TypeError` of a type without Lennard-Jones
  parameters (`loadAll_write_raises`).
* Masses and Lennard-Jones parameters. The `MASS` and `NONB` lines `write` prints for an atom
  type are read back by `_process_mass_line` and `_process_nonbond_line` into exactly the
  values written, for values of at most as many decimals as the format prints
  (`processMassLine_written`, `processNonbondLine_written`). The mass needs a type name of at
  most five characters: the name is printed in a field of six with no space after it.
* Bonds and angles. `_bondre` and `_anglere` take exactly the fields of the `BOND` and `ANGLE`
  lines `write` prints (`bondre_reMatch_written`, `anglere_reMatch_written`, from the first-match
  rules `Pat.Takes` of the matcher), so for type names of at most two characters without
  whitespace and values of at most three decimals the line stores the same bond or angle type
  again (`processBondLine_written`, `processAngleLine_written`).
* `LJEDIT`. `write` prints an NBFIX entry `(eps, rmin)` as `eps rmin/2 eps rmin/2`, while the
  parser reads the columns as `rmin1 eps1 rmin2 eps2`.
-/

namespace ParmEd.Amber

open ParmEd.Python

/-! ## The order of `str` -/

theorem strLe_iff (a b : String) : strLe a b ↔ a.data ≤ b.data := by
  unfold strLe strLt
  rw [List.lt_iff_lex_lt, ← not_lt]
  rfl

instance : IsTrans String strLe where
  trans a b c h₁ h₂ := by
    rw [strLe_iff] at *
    exact le_trans h₁ h₂

instance : IsTotal String strLe where
  total a b := by
    rw [strLe_iff, strLe_iff]
    exact le_total _ _

instance : IsAntisymm String strLe where
  antisymm _ _ h₁ h₂ := String.ext (le_antisymm ((strLe_iff _ _).1 h₁) ((strLe_iff _ _).1 h₂))

/-! ## Impropers -/

/-- The flanking types of an improper key in `sorted` order. -/
def FlanksSorted : TorsionKey → Prop
  | (s1, s2, _, s3) => strLe s1 s2 ∧ strLe s2 s3

theorem improperKey_flanksSorted (a1 a2 a3 a4 : String) :
    FlanksSorted (improperKey a1 a2 a3 a4) := by
  have hs := List.sorted_insertionSort strLe [a1, a2, a4]
  have hl := (List.perm_insertionSort strLe [a1, a2, a4]).length_eq
  unfold improperKey sorted
  split
  · next b1 b2 b4 h =>
    rw [h] at hs
    simp only [List.sorted_cons, List.mem_cons, List.mem_singleton] at hs
    exact ⟨hs.1 b2 (by simp), hs.2.1 b4 (by simp)⟩
  · next h =>
    match hm : List.insertionSort strLe [a1, a2, a4], hl with
    | [_, _, _], _ => exact absurd hm (h _ _ _)

/-- Every improper key of the table has sorted flanking types. -/
def ImpropersSorted (s : AmberParameterSet) : Prop :=
  ∀ k t, s.improperPeriodicTypes.get? k = some t → FlanksSorted k

theorem impropersSorted_stable : Stable ImpropersSorted where
  atomTypes _ _ h := h
  bond _ _ _ _ h := h
  angle _ _ _ _ _ h := h
  dihedral _ _ _ h := h
  append _ _ _ h := h
  improper s a1 a2 a3 a4 t h k t' hk := by
    simp only [AmberParameterSet.setImproper, Dict.get?_insert] at hk
    split at hk
    · next heq => exact heq ▸ improperKey_flanksSorted a1 a2 a3 a4
    · exact h k t' hk
  nbfix _ _ _ h := h
  titles _ _ h := h
  warn _ _ _ _ h := h

/-- After any sequence of loads from a new parameter set, every improper key is sorted. -/
theorem loadAll_impropersSorted (pt : PeriodicTable) (fs : List (List String)) :
    ImpropersSorted (loadAll pt fs AmberParameterSet.new) :=
  loadAll_stable impropersSorted_stable pt fs fun _ _ h => nomatch h

/-- **The writer's order on a sorted improper key.** It raises exactly when the second flanking
type is a wildcard and the third is not; otherwise it keeps the central type third, permutes
the flanking types and puts every wildcard before every other flanking type. -/
theorem improperOrder_of_flanksSorted {s1 s2 a3 s3 : String} (h : FlanksSorted (s1, s2, a3, s3)) :
    (s2 = "X" ∧ s3 ≠ "X" →
      improperOrder (s1, s2, a3, s3) = .error (.assertionError "Malformed generic improper!")) ∧
    (¬ (s2 = "X" ∧ s3 ≠ "X") → ∃ b1 b2 b4, improperOrder (s1, s2, a3, s3) = .ok (b1, b2, a3, b4) ∧
      [b1, b2, b4].Perm [s1, s2, s3] ∧ (b2 = "X" → b1 = "X") ∧ (b4 = "X" → b2 = "X")) := by
  obtain ⟨h12, h23⟩ := h
  have two : sorted [s1, s2] = [s1, s2] := List.Sorted.insertionSort_eq (by simpa using h12)
  have three : sorted [s1, s2, s3] = [s1, s2, s3] :=
    List.Sorted.insertionSort_eq (by simpa using ⟨⟨h12, IsTrans.trans _ _ _ h12 h23⟩, h23⟩)
  constructor
  · rintro ⟨rfl, h3⟩
    simp [improperOrder, h3]
  · intro hn
    by_cases hs2 : s2 = "X"
    · have hs3 : s3 = "X" := by tauto
      subst hs2 hs3
      exact ⟨"X", "X", s1, by simp [improperOrder],
        (List.perm_append_comm : List.Perm (["X", "X"] ++ [s1]) ([s1] ++ ["X", "X"])), fun _ => rfl,
        fun _ => rfl⟩
    · by_cases hs3 : s3 = "X"
      · subst hs3
        refine ⟨"X", s1, s2, by simp [improperOrder, hs2, two], ?_, fun h => ?_,
          fun h => absurd h hs2⟩
        · exact (List.perm_append_comm : List.Perm (["X"] ++ [s1, s2]) ([s1, s2] ++ ["X"]))
        · subst h
          exact absurd (congrArg String.mk
            (le_antisymm ((strLe_iff _ _).1 h12) ((strLe_iff _ _).1 h23))).symm hs2
      · exact ⟨s1, s2, s3, by simp [improperOrder, hs2, hs3, three], List.Perm.refl _,
          fun h => absurd h hs2, fun h => absurd h hs3⟩

/-- The key `(X, X, c, o)` is sorted, and `write` raises on it. -/
theorem improperOrder_generic_gaff :
    FlanksSorted ("X", "X", "c", "o") ∧
      ("X" = "X" ∧ "o" ≠ "X" → improperOrder ("X", "X", "c", "o") =
        .error (.assertionError "Malformed generic improper!")) ∧
      (¬ ("X" = "X" ∧ "o" ≠ "X") → ∃ b1 b2 b4, improperOrder ("X", "X", "c", "o") =
        .ok (b1, b2, "c", b4) ∧ [b1, b2, b4].Perm ["X", "X", "o"] ∧ (b2 = "X" → b1 = "X") ∧
          (b4 = "X" → b2 = "X")) :=
  have h : FlanksSorted ("X", "X", "c", "o") := by simp [FlanksSorted, strLe_iff]; decide
  ⟨h, improperOrder_of_flanksSorted h⟩

/-- `X -X -c -o`, a generic improper of GAFF types, is stored as `(X, X, c, o)`, and `write`
then fails its assertion. -/
theorem write_asserts_on_lowercase_generic_improper (pt : PeriodicTable) :
    let f := ["t", "IMPROPER", "X -X -c -o   1.1  180.0  2.0"]
    returned ((loadParameters pt f).run AmberParameterSet.new) = true ∧
      (loadState pt f AmberParameterSet.new).improperPeriodicTypes.keys = [("X", "X", "c", "o")] ∧
      writeText (loadState pt f AmberParameterSet.new) "t" "frcmod" =
        .error (.assertionError "Malformed generic improper!") :=
  ⟨rfl, rfl, rfl⟩

/-! ## What `write` can raise on a loaded parameter set -/

theorem lt_of_get?_insert_insert {κ : Type} [DecidableEq κ] {d : Dict κ Nat} {n : Nat}
    (hd : ∀ k h, d.get? k = some h → h < n) {k₁ k₂ k : κ} {h : Nat}
    (hk : ((d.insert k₁ n).insert k₂ n).get? k = some h) : h < n + 1 := by
  simp only [Dict.get?_insert] at hk
  split_ifs at hk
  · cases hk; omega
  · cases hk; omega
  · exact Nat.lt_succ_of_lt (hd k h hk)

theorem handlesValid_new : HandlesValid AmberParameterSet.new where
  bond _ _ h := nomatch h
  angle _ _ h := nomatch h
  dihedral _ _ h := nomatch h
  terms _ h := nomatch h

theorem handlesValid_stable : Stable HandlesValid where
  atomTypes _ _ h := ⟨h.1, h.2, h.3, h.4⟩
  bond s _ _ _ h := { h with
    bond := fun _ _ hk => by simpa using lt_of_get?_insert_insert h.bond hk }
  angle s _ _ _ _ h := { h with
    angle := fun _ _ hk => by simpa using lt_of_get?_insert_insert h.angle hk }
  improper _ _ _ _ _ _ h := ⟨h.1, h.2, h.3, h.4⟩
  nbfix _ _ _ h := ⟨h.1, h.2, h.3, h.4⟩
  titles _ _ h := ⟨h.1, h.2, h.3, h.4⟩
  warn _ _ _ _ h := ⟨h.1, h.2, h.3, h.4⟩
  dihedral s _ _ h :=
    { h with
      dihedral := fun _ _ hk => by simpa using lt_of_get?_insert_insert h.dihedral hk
      terms := fun ts hts => by
        rcases List.mem_append.1 hts with hts | hts
        · exact h.terms ts hts
        · rw [List.mem_singleton.1 hts]; exact List.cons_ne_nil _ _ }
  append s n t h :=
    { h with
      dihedral := fun k m hk => by
        simpa [AmberParameterSet.appendDihedral] using h.dihedral k m hk
      terms := fun ts hts => by
        obtain ⟨i, hi⟩ := List.mem_iff_getElem?.1 hts
        simp only [AmberParameterSet.appendDihedral_dihedralObjects, List.getElem?_modify] at hi
        obtain ⟨ts₀, h₀, rfl⟩ := Option.map_eq_some'.1 hi
        have := h.terms ts₀ (List.mem_iff_getElem?.2 ⟨i, h₀⟩)
        split
        · exact List.append_ne_nil_of_left_ne_nil this _
        · exact this }

theorem sorted_perm (names : List String) : (sorted names).Perm names :=
  List.perm_insertionSort strLe names

theorem exists_sorted_two (x y : String) : ∃ c d, sorted [x, y] = [c, d] := by
  match sorted [x, y], (sorted_perm [x, y]).length_eq with
  | [c, d], _ => exact ⟨c, d, rfl⟩

theorem exists_sorted_three (x y z : String) : ∃ c d f, sorted [x, y, z] = [c, d, f] := by
  match sorted [x, y, z], (sorted_perm [x, y, z]).length_eq with
  | [c, d, f], _ => exact ⟨c, d, f, rfl⟩

/-- `write` prints an improper under its own atom types, the central one third. -/
theorem improperOrder_perm {a1 a2 a3 a4 b1 b2 b3 b4 : String}
    (h : improperOrder (a1, a2, a3, a4) = .ok (b1, b2, b3, b4)) :
    b3 = a3 ∧ [b1, b2, b4].Perm [a1, a2, a4] := by
  unfold improperOrder at h
  dsimp only at h
  split_ifs at h
  · cases h
    exact ⟨rfl, (List.perm_append_comm : ([a2, a4] ++ [a1]).Perm ([a1] ++ [a2, a4]))⟩
  · obtain ⟨c2, c4, hs⟩ := exists_sorted_two a1 a2
    rw [hs] at h
    cases h
    exact ⟨rfl, ((hs ▸ sorted_perm [a1, a2]).cons a4).trans
      (List.perm_append_comm : ([a4] ++ [a1, a2]).Perm ([a1, a2] ++ [a4]))⟩
  · obtain ⟨c1, c2, c4, hs⟩ := exists_sorted_three a1 a2 a4
    rw [hs] at h
    cases h
    exact ⟨rfl, hs ▸ sorted_perm [a1, a2, a4]⟩

theorem sorted_of_flanksSorted {s1 s2 a3 s3 : String} (h : FlanksSorted (s1, s2, a3, s3)) :
    List.Sorted strLe [s1, s2, s3] := by
  simpa using ⟨⟨h.1, IsTrans.trans _ _ _ h.1 h.2⟩, h.2⟩

/-- On sorted keys the writer's order is one to one. -/
theorem improperOrder_injective {k k' o : TorsionKey} (hk : FlanksSorted k)
    (hk' : FlanksSorted k') (ho : improperOrder k = .ok o) (ho' : improperOrder k' = .ok o) :
    k = k' := by
  obtain ⟨s1, s2, a3, s3⟩ := k
  obtain ⟨s1', s2', a3', s3'⟩ := k'
  obtain ⟨b1, b2, b3, b4⟩ := o
  obtain ⟨h3, hp⟩ := improperOrder_perm ho
  obtain ⟨h3', hp'⟩ := improperOrder_perm ho'
  have heq := List.eq_of_perm_of_sorted (hp.symm.trans hp') (sorted_of_flanksSorted hk)
    (sorted_of_flanksSorted hk')
  simp only [List.cons.injEq, and_true] at heq
  obtain ⟨rfl, rfl, rfl⟩ := heq
  rw [← h3, ← h3']

/-- Two impropers of a table with sorted keys are never printed under the same atom types. -/
theorem orderInjective_of_impropersSorted {s : AmberParameterSet} (h : ImpropersSorted s) :
    OrderInjective s := fun _ _ _ _ _ hk hk' ho ho' =>
  improperOrder_injective (h _ _ hk) (h _ _ hk') ho ho'

/-- `write` on a parameter set whose handles name objects and whose improper keys are sorted
raises only the assertion on a generic improper or the `TypeError` of an atom type without
Lennard-Jones parameters. -/
theorem write_raises_of_sorted {s : AmberParameterSet} (hv : HandlesValid s)
    (hs : ImpropersSorted s) {title style : String} (hstyle : style = "frcmod" ∨ style = "parm")
    {e : PyError} {text : String} (h : (write s title style).run "" = .error e text) :
    e = .assertionError "Malformed generic improper!" ∨
      e = .typeError "unsupported format string passed to NoneType.__format__" := by
  have he := (write_spec _ (P := fun _ => True) (fun _ _ _ => trivial) title style hstyle
    trivial).2 e text h
  unfold WriteError at he
  rcases he with h | h | ⟨_, h⟩ | ⟨_, h⟩
  · exact .inl h
  · exact .inr h
  · exact absurd hv h
  · exact absurd (orderInjective_of_impropersSorted hs) h

/-- **`write` on a loaded parameter set.** After any sequence of loads into a new parameter set,
`write` (for either `style`) raises only the assertion on a generic improper or the `TypeError`
of an atom type without Lennard-Jones parameters: never an `IndexError` of a table lookup and
never the `ValueError` of two impropers printed under the same atom types. -/
theorem loadAll_write_raises (pt : PeriodicTable) (fs : List (List String)) {title style : String}
    (hstyle : style = "frcmod" ∨ style = "parm") {e : PyError} {text : String}
    (h : (write (loadAll pt fs AmberParameterSet.new) title style).run "" = .error e text) :
    e = .assertionError "Malformed generic improper!" ∨
      e = .typeError "unsupported format string passed to NoneType.__format__" :=
  write_raises_of_sorted (loadAll_stable handlesValid_stable pt fs handlesValid_new)
    (loadAll_stable impropersSorted_stable pt fs fun _ _ h => nomatch h) hstyle h

/-! ## Masses and Lennard-Jones parameters -/

/-- **A `NONB` line is read back.** The line `write` prints for an atom type with radius `rmin`
and well depth `eps`, each of at most eight decimals, gives the type exactly these parameters
again. -/
theorem processNonbondLine_written {atom : String}
    (hatom : atom.data ≠ [] ∧ ∀ c ∈ atom.data, isSpace c = false) {rmin eps : ℚ}
    (hr : ∃ n : ℤ, rmin * 10 ^ 8 = n) (he : ∃ n : ℤ, eps * 10 ^ 8 = n)
    {st : AmberParameterSet} (hst : st.atomTypes.contains atom = true) :
    (processNonbondLine (ljust 2 atom ++ "  " ++ formatFixed 12 8 rmin ++ " " ++
        formatFixed 12 8 eps ++ "\n")).run st =
      .ok () (st.updateAtomType atom (·.setLjParams (some eps) (some rmin))) := by
  have hsplit : split (ljust 2 atom ++ "  " ++ formatFixed 12 8 rmin ++ " " ++
      formatFixed 12 8 eps ++ "\n") = [atom, ⟨fixedDigits 8 rmin⟩, ⟨fixedDigits 8 eps⟩] := by
    rw [split_append_spaces _ (by decide), split_append_sep _ ⟨by decide, by decide⟩,
      split_append_sep _ ⟨by decide, by decide⟩, ljust_eq, split_append_spaces _ (replicate_isSpace _),
      formatFixed, formatFixed, rjust_eq, rjust_eq, split_spaces_append (replicate_isSpace _),
      split_spaces_append (replicate_isSpace _), split_word hatom, split_word (fixedDigits_word _ _),
      split_word (fixedDigits_word _ _)]
    rfl
  obtain ⟨t, ht⟩ := Option.isSome_iff_exists.1 hst
  unfold processNonbondLine
  simp only [hsplit, run_bind, run_get, ht, toFloat?_fixedDigits 8 hr, toFloat?_fixedDigits 8 he]
  rfl

/-- The TIP3P oxygen's `NONB` line, read back into a set that has the type. -/
theorem water_oxygen_nonb_read_back :
    let st := AmberParameterSet.new.addAtomType ⟨"OW", 1, 16, 8, none, none⟩
    ("OW".data ≠ [] ∧ ∀ c ∈ "OW".data, isSpace c = false) ∧
      (∃ n : ℤ, (1.7683 : ℚ) * 10 ^ 8 = n) ∧ (∃ n : ℤ, (0.152 : ℚ) * 10 ^ 8 = n) ∧
      st.atomTypes.contains "OW" = true ∧
      (processNonbondLine (ljust 2 "OW" ++ "  " ++ formatFixed 12 8 1.7683 ++ " " ++
          formatFixed 12 8 0.152 ++ "\n")).run st =
        .ok () (st.updateAtomType "OW" (·.setLjParams (some 0.152) (some 1.7683))) := by
  intro st
  have hatom : "OW".data ≠ [] ∧ ∀ c ∈ "OW".data, isSpace c = false := by decide
  have hr : ∃ n : ℤ, (1.7683 : ℚ) * 10 ^ 8 = n := ⟨176830000, by norm_num⟩
  have he : ∃ n : ℤ, (0.152 : ℚ) * 10 ^ 8 = n := ⟨15200000, by norm_num⟩
  have hst : st.atomTypes.contains "OW" = true := rfl
  exact ⟨hatom, hr, he, hst, processNonbondLine_written hatom hr he hst⟩

/-- **A `MASS` line is read back.** The line `write` prints for an atom type of a name of at most
five characters, with a mass of at most three decimals, gives the type this mass again. -/
theorem processMassLine_written (pt : PeriodicTable) {atom : String}
    (hatom : atom.data ≠ [] ∧ ∀ c ∈ atom.data, isSpace c = false) (hshort : atom.length < 6)
    {mass : ℚ} (hm : ∃ n : ℤ, mass * 10 ^ 3 = n)
    {st : AmberParameterSet} (hst : st.atomTypes.contains atom = true) :
    (processMassLine pt (ljust 6 atom ++ formatFixed 6 3 mass ++ "\n")).run st =
      .ok () (st.updateAtomType atom ({ · with mass := mass })) := by
  have hpad : (⟨List.replicate (6 - atom.length) ' '⟩ : String).data ≠ [] :=
    List.ne_nil_of_length_pos (by rw [List.length_replicate]; omega)
  have hsplit : split (ljust 6 atom ++ formatFixed 6 3 mass ++ "\n") =
      [atom, ⟨fixedDigits 3 mass⟩] := by
    rw [split_append_spaces _ (by decide), ljust_eq, split_append_sep _ ⟨hpad, replicate_isSpace _⟩,
      formatFixed, rjust_eq, split_spaces_append (replicate_isSpace _), split_word hatom,
      split_word (fixedDigits_word _ _)]
    rfl
  unfold processMassLine
  simp only [hsplit, List.getElem?_cons_succ, List.getElem?_cons_zero, List.headD_cons,
    toFloat?_fixedDigits 3 hm, run_bind, run_get, hst, if_true]
  rfl

/-- The oxygen's `MASS` line, read back into a set that has the type. -/
theorem water_oxygen_mass_read_back :
    let st := AmberParameterSet.new.addAtomType ⟨"OW", 1, 16, 8, none, none⟩
    ("OW".data ≠ [] ∧ ∀ c ∈ "OW".data, isSpace c = false) ∧ "OW".length < 6 ∧
      (∃ n : ℤ, (16 : ℚ) * 10 ^ 3 = n) ∧ st.atomTypes.contains "OW" = true ∧
      (processMassLine carbonTable (ljust 6 "OW" ++ formatFixed 6 3 16 ++ "\n")).run st =
        .ok () (st.updateAtomType "OW" ({ · with mass := 16 })) := by
  intro st
  have hatom : "OW".data ≠ [] ∧ ∀ c ∈ "OW".data, isSpace c = false := by decide
  have hshort : "OW".length < 6 := by decide
  have hm : ∃ n : ℤ, (16 : ℚ) * 10 ^ 3 = n := ⟨16000, by norm_num⟩
  have hst : st.atomTypes.contains "OW" = true := rfl
  exact ⟨hatom, hshort, hm, hst, processMassLine_written carbonTable hatom hshort hm hst⟩

/-! ## Bonds and angles

`_process_bond_line` and `_process_angle_line` read a line by `re.match` with `_bondre` and
`_anglere`, which take exactly the fields `write` prints (`PrintedLines`). -/

/-- **A `BOND` line is read back.** The line `write` prints for a bond type between types of at
most two characters, with values of at most three decimals, as `_parse_frcmod` passes it on
(`rstrip()`ped of its newline), stores that bond type under the two types again. -/
theorem processBondLine_written {a1 a2 : String}
    (h1 : a1.length ≤ 2 ∧ ∀ c ∈ a1.data, isSpace c = false)
    (h2 : a2.length ≤ 2 ∧ ∀ c ∈ a2.data, isSpace c = false) {t : BondType}
    (hk : ∃ n : ℤ, t.k * 10 ^ 3 = n) (hreq : ∃ n : ℤ, t.req * 10 ^ 3 = n)
    (st : AmberParameterSet) :
    (processBondLine (ljust 2 a1 ++ "-" ++ ljust 2 a2 ++ "   " ++ formatFixed 8 3 t.k ++ "  " ++
        formatFixed 6 3 t.req)).run st = .ok () (st.setBond a1 a2 t) := by
  unfold processBondLine
  simp only [bondre_reMatch_written h1 h2, float, floatE, toFloat?_fixedDigits 3 hk,
    toFloat?_fixedDigits 3 hreq, strip_ljust 2 h1.2, strip_ljust 2 h2.2]
  rfl

/-- The amide `C-N` bond, whose one-letter types are padded in the line, read back. -/
theorem amide_bond_read_back :
    ("C".length ≤ 2 ∧ ∀ c ∈ "C".data, isSpace c = false) ∧
      ("N".length ≤ 2 ∧ ∀ c ∈ "N".data, isSpace c = false) ∧
      (∃ n : ℤ, (490 : ℚ) * 10 ^ 3 = n) ∧ (∃ n : ℤ, (1.335 : ℚ) * 10 ^ 3 = n) ∧
      (processBondLine (ljust 2 "C" ++ "-" ++ ljust 2 "N" ++ "   " ++ formatFixed 8 3 490 ++ "  " ++
          formatFixed 6 3 1.335)).run AmberParameterSet.new =
        .ok () (AmberParameterSet.new.setBond "C" "N" ⟨490, 1.335⟩) := by
  have hc : "C".length ≤ 2 ∧ ∀ c ∈ "C".data, isSpace c = false := by decide
  have hn : "N".length ≤ 2 ∧ ∀ c ∈ "N".data, isSpace c = false := by decide
  have hk : ∃ n : ℤ, (490 : ℚ) * 10 ^ 3 = n := ⟨490000, by norm_num⟩
  have hreq : ∃ n : ℤ, (1.335 : ℚ) * 10 ^ 3 = n := ⟨1335, by norm_num⟩
  exact ⟨hc, hn, hk, hreq, processBondLine_written (t := ⟨490, 1.335⟩) hc hn hk hreq _⟩

/-- **An `ANGLE` line is read back.** The line `write` prints for an angle type between types of
at most two characters, with values of at most three decimals, as `_parse_frcmod` passes it on,
stores that angle type under the three types again. -/
theorem processAngleLine_written {a1 a2 a3 : String}
    (h1 : a1.length ≤ 2 ∧ ∀ c ∈ a1.data, isSpace c = false)
    (h2 : a2.length ≤ 2 ∧ ∀ c ∈ a2.data, isSpace c = false)
    (h3 : a3.length ≤ 2 ∧ ∀ c ∈ a3.data, isSpace c = false) {t : AngleType}
    (hk : ∃ n : ℤ, t.k * 10 ^ 3 = n) (hteq : ∃ n : ℤ, t.theteq * 10 ^ 3 = n)
    (st : AmberParameterSet) :
    (processAngleLine (ljust 2 a1 ++ "-" ++ ljust 2 a2 ++ "-" ++ ljust 2 a3 ++ "   " ++
        formatFixed 8 3 t.k ++ "  " ++ formatFixed 6 3 t.theteq)).run st =
      .ok () (st.setAngle a1 a2 a3 t) := by
  unfold processAngleLine
  simp only [anglere_reMatch_written h1 h2 h3, float, floatE, toFloat?_fixedDigits 3 hk,
    toFloat?_fixedDigits 3 hteq, strip_ljust 2 h1.2, strip_ljust 2 h2.2, strip_ljust 2 h3.2]
  rfl

/-- The amide `H-N-C` angle read back. -/
theorem amide_angle_read_back :
    ("H".length ≤ 2 ∧ ∀ c ∈ "H".data, isSpace c = false) ∧
      ("N".length ≤ 2 ∧ ∀ c ∈ "N".data, isSpace c = false) ∧
      ("C".length ≤ 2 ∧ ∀ c ∈ "C".data, isSpace c = false) ∧
      (∃ n : ℤ, (50 : ℚ) * 10 ^ 3 = n) ∧ (∃ n : ℤ, (120 : ℚ) * 10 ^ 3 = n) ∧
      (processAngleLine (ljust 2 "H" ++ "-" ++ ljust 2 "N" ++ "-" ++ ljust 2 "C" ++ "   " ++
          formatFixed 8 3 50 ++ "  " ++ formatFixed 6 3 120)).run AmberParameterSet.new =
        .ok () (AmberParameterSet.new.setAngle "H" "N" "C" ⟨50, 120⟩) := by
  have hh : "H".length ≤ 2 ∧ ∀ c ∈ "H".data, isSpace c = false := by decide
  have hn : "N".length ≤ 2 ∧ ∀ c ∈ "N".data, isSpace c = false := by decide
  have hc : "C".length ≤ 2 ∧ ∀ c ∈ "C".data, isSpace c = false := by decide
  have hk : ∃ n : ℤ, (50 : ℚ) * 10 ^ 3 = n := ⟨50000, by norm_num⟩
  have hteq : ∃ n : ℤ, (120 : ℚ) * 10 ^ 3 = n := ⟨120000, by norm_num⟩
  exact ⟨hh, hn, hc, hk, hteq, processAngleLine_written (t := ⟨50, 120⟩) hh hn hc hk hteq _⟩

/-! ## `LJEDIT` -/

section Evaluation

attribute [local semireducible] Rat.ofScientific Rat.mul Rat.inv Rat.add Rat.sub

/-- A type given a mass and no Lennard-Jones parameters: `write` stops at `NONB` with the
`TypeError`. -/
theorem write_raises_on_type_without_lj :
    ("frcmod" = "frcmod" ∨ "frcmod" = "parm") ∧
      (write (loadAll carbonTable [["t", "MASS", "EP  1.0"]] AmberParameterSet.new) "t"
          "frcmod").run "" =
        .error (.typeError "unsupported format string passed to NoneType.__format__")
          "t\nMASS\nEP     1.000\n\nBOND\n\nANGLE\n\nDIHE\n\nIMPROPER\n\nNONB\n" ∧
      (PyError.typeError "unsupported format string passed to NoneType.__format__" =
          .assertionError "Malformed generic improper!" ∨
        PyError.typeError "unsupported format string passed to NoneType.__format__" =
          .typeError "unsupported format string passed to NoneType.__format__") :=
  have h : (write (loadAll carbonTable [["t", "MASS", "EP  1.0"]] AmberParameterSet.new) "t"
      "frcmod").run "" =
      .error (.typeError "unsupported format string passed to NoneType.__format__")
        "t\nMASS\nEP     1.000\n\nBOND\n\nANGLE\n\nDIHE\n\nIMPROPER\n\nNONB\n" := rfl
  ⟨Or.inl rfl, h, loadAll_write_raises carbonTable _ (Or.inl rfl) h⟩

/-- A six-character type name with a mass of two integer digits fills its field: the name and
the mass are printed as one word, and the line is refused. -/
example (pt : PeriodicTable) (st : AmberParameterSet) :
    (processMassLine pt (ljust 6 "CG2R61" ++ formatFixed 6 3 12.011 ++ "\n")).run st =
      .error (.parameterError "Error parsing MASS line. Not enough tokens") st := rfl

/-- An NBFIX entry `(1, 4)` is written as `1 2 1 2` and read back as `(2, 2)`. -/
theorem write_ljedit_reads_back_swapped (pt : PeriodicTable) :
    let f := ["t", "MASS", "EP  1.0", "LP  1.0", "", "NONB", "EP  1.0  1.0", "LP  1.0  1.0", "",
      "LJEDIT", "EP LP 2.0 1.0 2.0 1.0"]
    let text := "t\nMASS\nEP     1.000\nLP     1.000\n\nBOND\n\nANGLE\n\nDIHE\n\nIMPROPER\n\n" ++
      "NONB\nEP    1.00000000   1.00000000\nLP    1.00000000   1.00000000\n\nLJEDIT\n" ++
      "EP LP   1.00000000   2.00000000   1.00000000   2.00000000\n"
    returned ((loadParameters pt f).run AmberParameterSet.new) = true ∧
      (loadState pt f AmberParameterSet.new).nbfixTypes.get? ("EP", "LP") = some (1, 4) ∧
      writeText (loadState pt f AmberParameterSet.new) "t" "frcmod" = .ok text ∧
      returned ((loadParameters pt (readLines text)).run AmberParameterSet.new) = true ∧
      (loadState pt (readLines text) AmberParameterSet.new).nbfixTypes.get? ("EP", "LP") =
        some (2, 2) :=
  ⟨rfl, rfl, rfl, rfl, rfl⟩

end Evaluation

end ParmEd.Amber
