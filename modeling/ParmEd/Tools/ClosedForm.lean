import Mathlib.Algebra.BigOperators.Group.List
import Mathlib.Data.List.FinRange
import Mathlib.Data.List.ProdSigma
import Mathlib.Data.List.Perm.Basic
import ParmEd.Tools.Add1264

/-!
# The closed form of the C4 table

Under the conditions a well-formed topology and complete tables meet, `params1264` either
raises `LJ12_6_4Error` for a type index whose labels have different polarizabilities, or
returns a list whose entry for the pair of type indices `{a, b}` is the sum, over the metal
types among `a` and `b`, of the C4 term of the metal with the other type (`c4Pair`).

* `c4Entry_ok`, `c4Entry_conflict`: one type of a metal's loop, as an update of the list or
  the exception.
* `params1264_eq_fold`, `params1264_conflict`: the whole run, as a fold of the updates over
  the pairs (metal type, type), or the exception.
* `foldl_update_entry`: the fold, entry by entry, is a sum of the terms of the pairs that
  share the entry. The one write that is an assignment, for water oxygen, meets an entry no
  other pair shares, so it adds as the others do.
* `params1264_closed_form`: the two together.
-/

namespace ParmEd.Tools

open ParmEd.Python ParmEd.Amber

/-! ## Python indexing -/

theorem pyIndex_of_lt {len : Nat} {i : Int} (h₀ : 0 ≤ i) (h : i < len) :
    pyIndex len i = some i.toNat := by
  simp [pyIndex, not_lt.2 h₀, h₀, h]

theorem pyGet_of_lt {α : Type} {l : List α} {i : Int} (h₀ : 0 ≤ i) (h : i < l.length) :
    pyGet l i = l[i.toNat]? := by
  simp [pyGet, pyIndex_of_lt h₀ h]

theorem pyModify_of_lt {α : Type} {l : List α} {i : Int} (f : α → α) (h₀ : 0 ≤ i)
    (h : i < l.length) : pyModify l i f = some (l.modify f i.toNat) := by
  simp [pyModify, pyIndex_of_lt h₀ h]

/-! ## The labels of a type index -/

/-- The labels `typdict` gives a type index, none for one it lacks. -/
def labelsOf (p : Prmtop) (j : Int) : List String := ((typeLabels p).get? j).getD []

/-- What the first loop of `typdict` keeps: the labels met so far of each type index met, each
once. -/
structure LabelsOfSeen (seen : List (String × Int)) (d : Dict Int (List String)) : Prop where
  mem : ∀ j l, d.get? j = some l → ∀ t, t ∈ l ↔ (t, j) ∈ seen
  present : ∀ j, j ∈ seen.map Prod.snd → (d.get? j).isSome
  nodup : ∀ j l, d.get? j = some l → l.Nodup

theorem labelsOfSeen_step {seen : List (String × Int)} {d : Dict Int (List String)}
    (h : LabelsOfSeen seen d) (e : String × Int) :
    LabelsOfSeen (seen ++ [e]) (match d.get? e.2 with
      | none => d.insert e.2 [e.1]
      | some tys => if e.1 ∈ tys then d else d.insert e.2 (tys ++ [e.1])) := by
  obtain ⟨t₀, j₀⟩ := e
  have hseen : ∀ t j, (t, j) ∈ seen ++ [(t₀, j₀)] ↔ (t, j) ∈ seen ∨ (t = t₀ ∧ j = j₀) := by
    simp
  cases hd : d.get? j₀ with
  | none =>
    refine ⟨fun j l hl t => ?_, fun j hj => ?_, fun j l hl => ?_⟩
    · simp only [Dict.get?_insert] at hl
      split_ifs at hl with hj
      · cases hl
        subst j
        have : ∀ t', (t', j₀) ∉ seen := fun t' ht' => by
          simpa [hd] using h.present j₀ (List.mem_map.2 ⟨_, ht', rfl⟩)
        simp [hseen, this]
      · rw [h.mem j l hl, hseen]
        simp [hj]
    · by_cases hj₀ : j = j₀
      · simp [hj₀]
      · simp only [List.map_append, List.mem_append, List.map_cons, List.mem_singleton,
          hj₀, or_false, List.map_nil] at hj
        simpa [hj₀] using h.present j hj
    · simp only [Dict.get?_insert] at hl
      split_ifs at hl
      · cases hl
        exact List.nodup_singleton _
      · exact h.nodup j l hl
  | some tys =>
    have htys := h.mem j₀ tys hd
    have keep : ∀ j, j ∈ (seen ++ [(t₀, j₀)]).map Prod.snd → (d.get? j).isSome := fun j hj => by
      by_cases hj₀ : j = j₀
      · simp [hj₀, hd]
      · simp only [List.map_append, List.mem_append, List.map_cons, List.mem_singleton,
          hj₀, or_false, List.map_nil] at hj
        exact h.present j hj
    dsimp only
    split_ifs with hmem
    · refine ⟨fun j l hl t => ?_, keep, h.nodup⟩
      rw [h.mem j l hl, hseen]
      by_cases hj : j = j₀
      · subst j
        rw [hd] at hl
        cases hl
        constructor
        · exact .inl
        · rintro (h' | ⟨rfl, -⟩)
          exacts [h', (htys _).1 hmem]
      · simp [hj]
    · refine ⟨fun j l hl t => ?_, fun j hj => ?_, fun j l hl => ?_⟩
      · simp only [Dict.get?_insert] at hl
        split_ifs at hl with hj
        · cases hl
          subst j
          simp [hseen, htys]
        · rw [h.mem j l hl, hseen]
          simp [hj]
      · by_cases hj₀ : j = j₀
        · simp [hj₀]
        · simpa [hj₀] using keep j hj
      · simp only [Dict.get?_insert] at hl
        split_ifs at hl
        · cases hl
          simpa using (h.nodup j₀ tys hd).concat hmem
        · exact h.nodup j l hl

theorem labelsOfSeen_foldl (l : List (String × Int)) :
    ∀ seen d, LabelsOfSeen seen d → LabelsOfSeen (seen ++ l) (l.foldl (fun d e =>
      match d.get? e.2 with
      | none => d.insert e.2 [e.1]
      | some tys => if e.1 ∈ tys then d else d.insert e.2 (tys ++ [e.1])) d) := by
  induction l with
  | nil => intro seen d h; simpa using h
  | cons e l ih =>
    intro seen d h
    simpa using ih _ _ (labelsOfSeen_step h e)

/-- The second loop of `typdict` gives no label to the type indices of `1..NTYPES` no atom has. -/
theorem get?_foldl_fill (S : List Int) (js : List Nat) (d : Dict Int (List String)) (j : Int) :
    (js.foldl (fun d (i : Nat) => if (i : Int) ∈ S then d else d.insert i []) d).get? j =
      if j ∉ S ∧ j ∈ js.map ((↑) : Nat → Int) then some [] else d.get? j := by
  induction js generalizing d with
  | nil => simp
  | cons i js ih =>
    rw [List.foldl_cons, ih]
    by_cases hS : (i : Int) ∈ S <;> by_cases hj : j = i <;> simp_all

theorem labelsOfAtoms_seen (p : Prmtop) : LabelsOfSeen p.labelled (labelsOfAtoms p) :=
  labelsOfSeen_foldl p.labelled [] {}
    ⟨fun _ _ h => (nomatch h), fun _ h => (nomatch h), fun _ _ h => (nomatch h)⟩

theorem labelled_snd (p : Prmtop) : p.labelled.map Prod.snd = p.atomTypeIndex :=
  List.map_snd_zip _ _ (by rw [p.amberAtomType_length, p.atomTypeIndex_length])

/-- The labels of a type index are those of its atoms. -/
theorem mem_labelsOf (p : Prmtop) (j : Int) (t : String) :
    t ∈ labelsOf p j ↔ (t, j) ∈ p.labelled := by
  have h₁ := labelsOfAtoms_seen p
  unfold labelsOf typeLabels
  rw [get?_foldl_fill]
  split_ifs with hj
  · simp only [Option.getD_some, List.not_mem_nil, false_iff]
    exact fun ht => hj.1 (labelled_snd p ▸ List.mem_map.2 ⟨_, ht, rfl⟩)
  · cases hd : (labelsOfAtoms p).get? j with
    | none =>
      simp only [Option.getD_none, List.not_mem_nil, false_iff]
      intro ht
      simpa [hd] using h₁.present j (List.mem_map.2 ⟨_, ht, rfl⟩)
    | some l => simpa using h₁.mem j l hd t

/-- A type index's labels are each listed once. -/
theorem labelsOf_nodup (p : Prmtop) (j : Int) : (labelsOf p j).Nodup := by
  unfold labelsOf typeLabels
  rw [get?_foldl_fill]
  split_ifs
  · exact List.nodup_nil
  · cases hd : (labelsOfAtoms p).get? j with
    | none => exact List.nodup_nil
    | some l => exact (labelsOfAtoms_seen p).nodup j l hd

/-- **A type index of one label**: `typdict` lists only `t` for it exactly when its atoms, of
which there is one at least, are all labelled `t`. So the test of a type's labels against
`["OW"]` is a test of its atoms. -/
theorem labelsOf_eq_singleton_iff (p : Prmtop) (j : Int) (t : String) :
    labelsOf p j = [t] ↔ ∀ t', (t', j) ∈ p.labelled ↔ t' = t := by
  simp only [← mem_labelsOf]
  constructor
  · intro h t'
    simp [h]
  · intro h
    have hn := labelsOf_nodup p j
    cases hl : labelsOf p j with
    | nil => simpa [hl] using h t
    | cons a rest =>
      rw [hl] at h hn
      obtain rfl : a = t := (h a).1 (List.mem_cons_self _ _)
      have hrest : rest = [] := List.eq_nil_iff_forall_not_mem.2 fun b hb =>
        (List.nodup_cons.1 hn).1 (((h b).1 (List.mem_cons_of_mem _ hb)) ▸ hb)
      rw [hrest]

/-- Every type index of `1..NTYPES` has an entry in `typdict`. -/
theorem typeLabels_get? (p : Prmtop) {j : Nat} (hj : j ∈ List.range' 1 p.ntypes) :
    (typeLabels p).get? j = some (labelsOf p j) := by
  have h₁ := labelsOfAtoms_seen p
  have present : ((typeLabels p).get? j).isSome := by
    unfold typeLabels
    rw [get?_foldl_fill]
    split_ifs with h
    · rfl
    · have : (j : Int) ∈ p.atomTypeIndex := by
        by_contra hn
        exact h ⟨hn, List.mem_map.2 ⟨j, hj, rfl⟩⟩
      rw [← labelled_snd] at this
      simpa using h₁.present j this
  unfold labelsOf
  obtain ⟨l, hl⟩ := Option.isSome_iff_exists.1 present
  rw [hl]
  rfl

/-! ## The metal types -/

/-- `mettypdict` as a run that returned builds it. -/
def metalDict (p : Prmtop) (mask : Fin p.natom → Bool) : Dict Int (Nat × Int) :=
  (selected p mask).foldl (fun d i => if d.contains (p.typeIndex i) then d
    else d.insert (p.typeIndex i) (p.atomicNumberOf i, pyInt (p.chargeOf i))) {}

/-- A dictionary filled by first occurrences holds, under each key, the first element of
that key. -/
theorem get?_foldl_first {α ν : Type} (l : List α) (κ : α → Int) (v : α → ν) (d : Dict Int ν)
    (m : Int) :
    (l.foldl (fun d x => if d.contains (κ x) then d else d.insert (κ x) (v x)) d).get? m =
      (d.get? m).orElse fun _ => (l.find? fun x => κ x = m).map v := by
  induction l generalizing d with
  | nil => rw [List.foldl_nil]; cases d.get? m <;> rfl
  | cons x l ih =>
    rw [List.foldl_cons, ih, List.find?_cons]
    by_cases hc : d.contains (κ x) <;> by_cases hm : κ x = m
    · subst hm
      obtain ⟨w, hw⟩ := Option.isSome_iff_exists.1 hc
      simp [hc, hw]
    · simp [hc, hm]
    · subst hm
      have : d.get? (κ x) = none := by simpa [Dict.contains] using hc
      simp [hc, this]
    · simp [hc, hm, Ne.symm hm]

theorem metalDict_get? (p : Prmtop) (mask : Fin p.natom → Bool) (m : Int) :
    (metalDict p mask).get? m = ((selected p mask).find? fun i => p.typeIndex i = m).map
      fun i => (p.atomicNumberOf i, pyInt (p.chargeOf i)) := by
  simpa using get?_foldl_first (selected p mask) p.typeIndex _ {} m

/-- The metal types are the type indices of the selected atoms. -/
theorem mem_metalDict_keys (p : Prmtop) (mask : Fin p.natom → Bool) (m : Int) :
    m ∈ (metalDict p mask).keys ↔ m ∈ (selected p mask).map p.typeIndex := by
  rw [Dict.mem_keys, metalDict_get?]
  simp [List.find?_isSome]

/-- One atom of `mettypdict`'s loop, with an element for its atomic number. -/
theorem metalType_run (pt : PeriodicTable) (p : Prmtop) (d : Dict Int (Nat × Int))
    {i : Fin p.natom} (hel : (pt.element (p.atomicNumberOf i)).isSome) (out : List Output) :
    ∃ out', (metalType pt p d i).run out = .ok (if d.contains (p.typeIndex i) then d
      else d.insert (p.typeIndex i) (p.atomicNumberOf i, pyInt (p.chargeOf i))) out' := by
  unfold metalType
  by_cases hc : d.contains (p.typeIndex i)
  · exact ⟨out, by simp [hc]⟩
  · obtain ⟨el, hel⟩ := Option.isSome_iff_exists.1 hel
    refine ⟨out ++ [.printed s!"The selected metal ion is {el}"], ?_⟩
    simp only [hc, hel, Bool.false_eq_true, ↓reduceIte]
    rfl

/-- With an element for every selected atom, `mettypdict` is built. -/
theorem metalTypes_run (pt : PeriodicTable) (p : Prmtop) (mask : Fin p.natom → Bool)
    (hel : ∀ i ∈ selected p mask, (pt.element (p.atomicNumberOf i)).isSome) (out : List Output) :
    ∃ out', (metalTypes pt p mask).run out = .ok (metalDict p mask) out' := by
  unfold metalTypes metalDict
  generalize ({} : Dict Int (Nat × Int)) = d
  generalize selected p mask = l at hel ⊢
  induction l generalizing d out with
  | nil => exact ⟨out, rfl⟩
  | cons i l ih =>
    obtain ⟨out₁, h₁⟩ := metalType_run pt p d (hel i (List.mem_cons_self i l)) out
    obtain ⟨out', h'⟩ := ih out₁ _ fun i hi => hel i (List.mem_cons_of_mem _ hi)
    exact ⟨out', by rw [List.foldlM_cons, run_bind, h₁]; exact h'⟩

/-! ## Loops that write no output -/

section Loops

variable {ε σ α β : Type} {s : σ}

theorem forM_run_ok {l : List α} {f : α → EStateM ε σ PUnit}
    (h : ∀ x ∈ l, (f x).run s = .ok ⟨⟩ s) : (l.forM f).run s = .ok ⟨⟩ s := by
  induction l with
  | nil => rfl
  | cons x l ih =>
    rw [List.forM_cons', run_bind_of_ok (h x (List.mem_cons_self x l))]
    exact ih fun y hy => h y (List.mem_cons_of_mem x hy)

theorem forM_run_error {l : List α} {f : α → EStateM ε σ PUnit} {E : ε → Prop}
    (h : ∀ x ∈ l, (f x).run s = .ok ⟨⟩ s ∨ ∃ e, E e ∧ (f x).run s = .error e s)
    (hx : ∃ x ∈ l, ∃ e, E e ∧ (f x).run s = .error e s) :
    ∃ e, E e ∧ (l.forM f).run s = .error e s := by
  induction l with
  | nil => simp at hx
  | cons x l ih =>
    rw [List.forM_cons']
    rcases h x (List.mem_cons_self x l) with hok | ⟨e, he, herr⟩
    · rw [run_bind_of_ok hok]
      obtain ⟨y, hy, hey⟩ := hx
      rcases List.mem_cons.1 hy with rfl | hy
      · obtain ⟨e, he, herr⟩ := hey
        rw [herr] at hok
        cases hok
      · exact ih (fun z hz => h z (List.mem_cons_of_mem x hz)) ⟨y, hy, hey⟩
    · exact ⟨e, he, run_bind_of_error herr⟩

/-- A loop whose steps return an update and keep an invariant returns the fold of the
updates. -/
theorem foldlM_run_ok {l : List α} {f : β → α → EStateM ε σ β} {g : β → α → β} {I : β → Prop}
    (hf : ∀ b x, x ∈ l → I b → (f b x).run s = .ok (g b x) s ∧ I (g b x)) {b : β}
    (hb : I b) : (l.foldlM f b).run s = .ok (l.foldl g b) s ∧ I (l.foldl g b) := by
  induction l generalizing b with
  | nil => exact ⟨rfl, hb⟩
  | cons x l ih =>
    obtain ⟨h₁, hI⟩ := hf b x (List.mem_cons_self x l) hb
    rw [List.foldlM_cons, run_bind_of_ok h₁, List.foldl_cons]
    exact ih (fun b y hy => hf b y (List.mem_cons_of_mem x hy)) hI

/-- A loop whose steps return an update or raise, and one of whose steps raises from every
accumulator, raises. -/
theorem foldlM_run_error {l : List α} {f : β → α → EStateM ε σ β} {g : β → α → β}
    {I : β → Prop} {E : ε → Prop}
    (hf : ∀ b x, x ∈ l → I b →
      ((f b x).run s = .ok (g b x) s ∧ I (g b x)) ∨ ∃ e, E e ∧ (f b x).run s = .error e s)
    (hx : ∃ x ∈ l, ∀ b, I b → ∃ e, E e ∧ (f b x).run s = .error e s) {b : β} (hb : I b) :
    ∃ e, E e ∧ (l.foldlM f b).run s = .error e s := by
  induction l generalizing b with
  | nil => simp at hx
  | cons x l ih =>
    rw [List.foldlM_cons]
    obtain ⟨y, hy, hey⟩ := hx
    rcases List.mem_cons.1 hy with rfl | hy
    · obtain ⟨e, he, herr⟩ := hey b hb
      exact ⟨e, he, run_bind_of_error herr⟩
    · rcases hf b x (List.mem_cons_self x l) hb with ⟨hok, hI⟩ | ⟨e, he, herr⟩
      · rw [run_bind_of_ok hok]
        exact ih (fun b z hz => hf b z (List.mem_cons_of_mem x hz)) ⟨y, hy, hey⟩ hI
      · exact ⟨e, he, run_bind_of_error herr⟩

end Loops

/-! ## Polarizabilities -/

/-- `LJ12_6_4Error`. -/
def IsLj1264Error : PyError → Prop
  | .lj1264Error _ => True
  | _ => False

/-- The polarizability the table gives a label. -/
def polOf (pollist : Dict String ℚ) (t : String) : ℚ := (pollist.get? t).getD 0

theorem polarizabilityOf_run {pollist : Dict String ℚ} {t : String} {v : ℚ}
    (h : pollist.get? t = some v) (out : List Output) :
    (polarizabilityOf pollist t).run out = .ok v out := by
  simp [polarizabilityOf, h]

/-- A further label of a type index passes the check, or raises `LJ12_6_4Error` when its
polarizability differs. -/
theorem checkPolarizability_run {pollist : Dict String ℚ} {t0 t : String} {pol v : ℚ}
    (h : pollist.get? t = some v) (out : List Output) :
    (v = pol → (checkPolarizability pollist t0 pol t).run out = .ok ⟨⟩ out) ∧
    (v ≠ pol → ∃ e, IsLj1264Error e ∧
      (checkPolarizability pollist t0 pol t).run out = .error e out) := by
  unfold checkPolarizability
  rw [run_bind_of_ok (polarizabilityOf_run h out)]
  exact ⟨fun hv => by simp [hv], fun hv => by simp [hv, IsLj1264Error]⟩

theorem typePolarizability_ok {pollist : Dict String ℚ} {t0 : String} {rest : List String}
    (hin : ∀ t ∈ t0 :: rest, (pollist.get? t).isSome)
    (hagree : ∀ t ∈ t0 :: rest, pollist.get? t = pollist.get? t0) (out : List Output) :
    (typePolarizability pollist t0 rest).run out = .ok (polOf pollist t0) out := by
  obtain ⟨v, hv⟩ := Option.isSome_iff_exists.1 (hin t0 (List.mem_cons_self t0 rest))
  unfold typePolarizability
  rw [run_bind_of_ok (polarizabilityOf_run hv out), run_bind_of_ok (forM_run_ok fun t ht =>
    (checkPolarizability_run ((hagree t (List.mem_cons_of_mem t0 ht)).trans hv) out).1 rfl)]
  simp [polOf, hv]

theorem typePolarizability_conflict {pollist : Dict String ℚ} {t0 : String}
    {rest : List String} (hin : ∀ t ∈ t0 :: rest, (pollist.get? t).isSome)
    (hconflict : ∃ t ∈ t0 :: rest, pollist.get? t ≠ pollist.get? t0) (out : List Output) :
    ∃ e, IsLj1264Error e ∧ (typePolarizability pollist t0 rest).run out = .error e out := by
  obtain ⟨v, hv⟩ := Option.isSome_iff_exists.1 (hin t0 (List.mem_cons_self t0 rest))
  have check : ∀ t ∈ rest, ∃ v', pollist.get? t = some v' ∧
      (v' = v → (checkPolarizability pollist t0 v t).run out = .ok ⟨⟩ out) ∧
      (v' ≠ v → ∃ e, IsLj1264Error e ∧
        (checkPolarizability pollist t0 v t).run out = .error e out) := fun t ht => by
    obtain ⟨v', hv'⟩ := Option.isSome_iff_exists.1 (hin t (List.mem_cons_of_mem t0 ht))
    exact ⟨v', hv', checkPolarizability_run hv' out⟩
  obtain ⟨t, ht, hne⟩ := hconflict
  have ht : t ∈ rest := (List.mem_cons.1 ht).resolve_left fun h => hne (h ▸ rfl)
  unfold typePolarizability
  rw [run_bind_of_ok (polarizabilityOf_run hv out)]
  obtain ⟨e, he, herr⟩ := forM_run_error (fun t ht => by
      obtain ⟨v', _, hok, herr⟩ := check t ht
      by_cases h : v' = v
      exacts [.inl (hok h), .inr (herr h)])
    (by
      obtain ⟨v', hv', -, herr⟩ := check t ht
      exact ⟨t, ht, herr fun h => hne (by rw [hv', hv, h])⟩)
  exact ⟨e, he, run_bind_of_error herr⟩

/-- Two labels of one type index with different polarizabilities. -/
def PolConflict (p : Prmtop) (pollist : Dict String ℚ) : Prop :=
  ∃ t₁ t₂ j, (t₁, j) ∈ p.labelled ∧ (t₂, j) ∈ p.labelled ∧ pollist.get? t₁ ≠ pollist.get? t₂

/-- Every label of the type index `j` has the polarizability of its first. -/
def Agrees (p : Prmtop) (pollist : Dict String ℚ) (j : Int) : Prop :=
  ∀ t ∈ labelsOf p j, pollist.get? t = pollist.get? ((labelsOf p j).headD "")

theorem agrees_of_not_polConflict {p : Prmtop} {pollist : Dict String ℚ}
    (h : ¬ PolConflict p pollist) (j : Int) : Agrees p pollist j := by
  intro t ht
  cases hl : labelsOf p j with
  | nil => rw [hl] at ht; cases ht
  | cons t0 rest =>
    have h0 : t0 ∈ labelsOf p j := hl ▸ List.mem_cons_self t0 rest
    exact not_not.1 fun hne =>
      h ⟨t, t0, j, (mem_labelsOf p j t).1 ht, (mem_labelsOf p j t0).1 h0, hne⟩

/-! ## Pair indices -/

/-- `NONBONDED_PARM_INDEX[n*(a-1) + b-1]`, the entry of the type indices `a` and `b`. -/
def npi (p : Prmtop) (a b : Int) : Int :=
  (pyGet p.nonbondedParmIndex (p.ntypes * (a - 1) + (b - 1))).getD 0

/-- What `params1264` needs of a topology: type indices in `1..NTYPES`, and a
`NONBONDED_PARM_INDEX` that is an `NTYPES × NTYPES` symmetric matrix mapping distinct
unordered pairs of type indices to distinct entries of `LENNARD_JONES_ACOEF`. -/
structure WellIndexed (p : Prmtop) : Prop where
  typeIndex_mem : ∀ t ∈ p.atomTypeIndex, 1 ≤ t ∧ t ≤ p.ntypes
  npi_length : p.nonbondedParmIndex.length = p.ntypes * p.ntypes
  npi_symm : ∀ a ∈ List.range' 1 p.ntypes, ∀ b ∈ List.range' 1 p.ntypes,
    npi p a b = npi p b a
  npi_range : ∀ a ∈ List.range' 1 p.ntypes, ∀ b ∈ List.range' 1 p.ntypes,
    1 ≤ npi p a b ∧ npi p a b ≤ p.ljACoef.length
  npi_distinct : ∀ a ∈ List.range' 1 p.ntypes, ∀ b ∈ List.range' 1 p.ntypes,
    ∀ a' ∈ List.range' 1 p.ntypes, ∀ b' ∈ List.range' 1 p.ntypes,
    npi p a b = npi p a' b' → (a = a' ∧ b = b') ∨ (a = b' ∧ b = a')

section Indices

variable {p : Prmtop} (hp : WellIndexed p)
include hp

theorem WellIndexed.typeIndex_range {t : Int} (ht : t ∈ p.atomTypeIndex) :
    ∃ a ∈ List.range' 1 p.ntypes, t = a := by
  have := hp.typeIndex_mem t ht
  exact ⟨t.toNat, List.mem_range'_1.2 ⟨by omega, by omega⟩, by omega⟩

theorem WellIndexed.pyGet_npi {a b : Nat} (ha : a ∈ List.range' 1 p.ntypes)
    (hb : b ∈ List.range' 1 p.ntypes) :
    pyGet p.nonbondedParmIndex (p.ntypes * ((a : Int) - 1) + (b - 1)) = some (npi p a b) := by
  rw [List.mem_range'_1] at ha hb
  have hlt : (p.ntypes : Int) * (a - 1) + (b - 1) < p.ntypes * p.ntypes := by
    have : (a : Int) - 1 + 1 ≤ p.ntypes := by omega
    nlinarith
  have h₀ : 0 ≤ (p.ntypes : Int) * (a - 1) + (b - 1) := by
    have : (0 : Int) ≤ a - 1 := by omega
    have : (0 : Int) ≤ b - 1 := by omega
    positivity
  rw [npi, pyGet_of_lt h₀ (by rw [hp.npi_length]; push_cast; exact hlt),
    List.getElem?_eq_getElem (by rw [hp.npi_length]; zify; omega)]
  rfl

/-- The index `pairIndex` reads, from whichever half of the matrix, is the pair's entry. -/
theorem pairIndex_run {a b : Nat} (ha : a ∈ List.range' 1 p.ntypes)
    (hb : b ∈ List.range' 1 p.ntypes) (out : List Output) :
    (pairIndex p ((a : Int) - 1) ((b : Int) - 1)).run out = .ok (npi p a b - 1) out := by
  unfold pairIndex
  by_cases h : (b : Int) - 1 < a - 1
  · simp only [h, if_true, hp.pyGet_npi hb ha, hp.npi_symm a ha b hb]
    rfl
  · simp only [h, if_false, hp.pyGet_npi ha hb]
    rfl

end Indices

/-! ## One type of a metal's loop -/

/-- The C4 term of a metal with C4 value `c4` against a type with labels `labels`: none for a
type no atom has, `c4` for water oxygen (a type whose atoms are all `OW`,
`labelsOf_eq_singleton_iff`), and `c4 / WATER_POL * pol * tunfactor` otherwise. -/
def c4Term (pollist : Dict String ℚ) (tunfactor c4 : ℚ) : List String → ℚ
  | [] => 0
  | t0 :: rest => if t0 :: rest = ["OW"] then c4 else c4 / waterPol * polOf pollist t0 * tunfactor

/-- A write to the C4 table: an assignment of `w.2` when `w.1`, an increment by it otherwise. -/
def applyWrite (w : Bool × ℚ) (x : ℚ) : ℚ := if w.1 then w.2 else x + w.2

/-- The write of a metal's loop for a type with labels `labels`. -/
def c4Write (pollist : Dict String ℚ) (tunfactor c4 : ℚ) (labels : List String) : Bool × ℚ :=
  (labels = ["OW"], c4Term pollist tunfactor c4 labels)

/-- The position in the C4 table of the pair of type indices `m` and `j`. -/
def entryOf (p : Prmtop) (m j : Int) : Nat := (npi p m j - 1).toNat

/-- `c4Entry` as the update it makes. -/
def c4Step (p : Prmtop) (pollist : Dict String ℚ) (tunfactor c4 : ℚ) (m : Int) (r : List ℚ)
    (j : Nat) : List ℚ :=
  r.modify (applyWrite (c4Write pollist tunfactor c4 (labelsOf p j))) (entryOf p m j)

theorem length_c4Step (p : Prmtop) (pollist : Dict String ℚ) (tunfactor c4 : ℚ) (m : Int)
    (r : List ℚ) (j : Nat) : (c4Step p pollist tunfactor c4 m r j).length = r.length :=
  List.length_modify _ _ _

section Entry

variable {p : Prmtop} (hp : WellIndexed p) {pollist : Dict String ℚ} {tunfactor c4 : ℚ}
  {m j : Nat} (hm : m ∈ List.range' 1 p.ntypes) (hj : j ∈ List.range' 1 p.ntypes)
  (hin : ∀ t ∈ labelsOf p j, (pollist.get? t).isSome)
include hp hm hj hin

/-- A type whose labels agree: the entry of the pair written. -/
theorem c4Entry_ok (hagree : Agrees p pollist j) {r : List ℚ} (hr : r.length = p.ljACoef.length)
    (out : List Output) :
    (c4Entry p pollist (typeLabels p) c4 tunfactor ((m : Int) - 1) r j).run out =
      .ok (c4Step p pollist tunfactor c4 m r j) out := by
  have hrange := hp.npi_range m hm j hj
  unfold c4Entry c4Step
  rw [typeLabels_get? p hj]
  unfold Agrees at hagree
  revert hin hagree
  cases labelsOf p j with
  | nil =>
    intro _ _
    have : applyWrite (c4Write pollist tunfactor c4 []) = id := funext fun x => by
      simp [applyWrite, c4Write, c4Term]
    rw [this, List.modify_id]
    rfl
  | cons t0 rest =>
    intro hin hagree
    dsimp only
    rw [run_bind_of_ok (typePolarizability_ok hin hagree out),
      run_bind_of_ok (pairIndex_run hp hm hj out)]
    have h₀ : (0 : Int) ≤ npi p m j - 1 := by omega
    have hlt : npi p m j - 1 < r.length := by omega
    by_cases hOW : t0 :: rest = ["OW"]
    · simp [hOW, pySet, pyModify_of_lt _ h₀ hlt, c4Write, c4Term, entryOf]
      rfl
    · simp [hOW, pyModify_of_lt _ h₀ hlt, c4Write, c4Term, entryOf]
      rfl

omit hp hm in
/-- A type two of whose labels disagree: `LJ12_6_4Error`. -/
theorem c4Entry_conflict (hconflict : ¬ Agrees p pollist j) (r : List ℚ) (out : List Output) :
    ∃ e, IsLj1264Error e ∧
      (c4Entry p pollist (typeLabels p) c4 tunfactor ((m : Int) - 1) r j).run out =
        .error e out := by
  unfold c4Entry
  rw [typeLabels_get? p hj]
  unfold Agrees at hconflict
  revert hin hconflict
  cases labelsOf p j with
  | nil => exact fun _ h => absurd (fun t ht => (nomatch ht)) h
  | cons t0 rest =>
    intro hin hconflict
    push_neg at hconflict
    obtain ⟨e, he, herr⟩ := typePolarizability_conflict hin hconflict out
    exact ⟨e, he, run_bind_of_error herr⟩

end Entry

/-! ## The loop over the metal types -/

/-- The type indices of the selected atoms: the metal types. -/
def metalsOf (p : Prmtop) (mask : Fin p.natom → Bool) : List Int :=
  (selected p mask).map p.typeIndex

/-- What `params1264` needs of its tables: a polarizability for every label, and a C4 value
for the element and charge of every selected atom, none of which is water oxygen. -/
structure TablesComplete (pt : PeriodicTable) (p : Prmtop) (mask : Fin p.natom → Bool)
    (pollist c4list : Dict String ℚ) : Prop where
  pol : ∀ t ∈ p.amberAtomType, (pollist.get? t).isSome
  c4 : ∀ i ∈ selected p mask, ∃ el, pt.element (p.atomicNumberOf i) = some el ∧
    (c4list.get? (el ++ toString (pyInt (p.chargeOf i)))).isSome
  notWater : ∀ i ∈ selected p mask, labelsOf p (p.typeIndex i) ≠ ["OW"]

/-- The C4 value of a metal type: that of the element and charge of its first selected atom. -/
def metalC4 (pt : PeriodicTable) (p : Prmtop) (mask : Fin p.natom → Bool)
    (c4list : Dict String ℚ) (m : Int) : ℚ :=
  match (metalDict p mask).get? m with
  | some (an, chg) => ((pt.element an).bind fun el => c4list.get? (el ++ toString chg)).getD 0
  | none => 0

section Rows

variable {pt : PeriodicTable} {p : Prmtop} {mask : Fin p.natom → Bool}
  {pollist c4list : Dict String ℚ} (hT : TablesComplete pt p mask pollist c4list)
  {tunfactor : ℚ}
include hT

theorem TablesComplete.pol_labelsOf (j : Int) : ∀ t ∈ labelsOf p j, (pollist.get? t).isSome :=
  fun t ht => hT.pol t (List.of_mem_zip ((mem_labelsOf p j t).1 ht)).1

/-- The row of a metal type runs the loop over the types with the metal's C4 value. -/
theorem metalRow_eq {m : Int} (hm : m ∈ metalsOf p mask) (r : List ℚ) (out : List Output) :
    (metalRow pt p pollist c4list (metalDict p mask) (typeLabels p) tunfactor r m).run out =
      ((List.range' 1 p.ntypes).foldlM (c4Entry p pollist (typeLabels p)
        (metalC4 pt p mask c4list m) tunfactor (m - 1)) r).run out := by
  obtain ⟨i, hi, rfl⟩ := List.mem_map.1 hm
  obtain ⟨i₀, hfind⟩ := Option.isSome_iff_exists.1
    (List.find?_isSome.2 ⟨i, hi, by simp⟩ : ((selected p mask).find? fun k =>
      p.typeIndex k = p.typeIndex i).isSome)
  obtain ⟨el, hel, hc⟩ := hT.c4 i₀ (List.mem_of_find?_eq_some hfind)
  obtain ⟨c4, hc4⟩ := Option.isSome_iff_exists.1 hc
  have hget : (metalDict p mask).get? (p.typeIndex i) =
      some (p.atomicNumberOf i₀, pyInt (p.chargeOf i₀)) := by
    rw [metalDict_get?, hfind]
    rfl
  have hmc4 : metalC4 pt p mask c4list (p.typeIndex i) = c4 := by simp [metalC4, hget, hel, hc4]
  unfold metalRow
  simp only [hget, hel, lookupParam, hc4, hmc4]
  rfl

variable (hp : WellIndexed p)
include hp

omit hT in
theorem WellIndexed.metal_range {m : Int} (hm : m ∈ metalsOf p mask) :
    ∃ a ∈ List.range' 1 p.ntypes, m = a := by
  obtain ⟨i, -, rfl⟩ := List.mem_map.1 hm
  exact hp.typeIndex_range (List.getElem_mem _)

/-- A metal's row over types that all agree: the fold of the writes. -/
theorem metalRow_ok {m : Int} (hm : m ∈ metalsOf p mask)
    (hagree : ∀ j ∈ List.range' 1 p.ntypes, Agrees p pollist j) {r : List ℚ}
    (hr : r.length = p.ljACoef.length) (out : List Output) :
    (metalRow pt p pollist c4list (metalDict p mask) (typeLabels p) tunfactor r m).run out =
      .ok ((List.range' 1 p.ntypes).foldl
        (c4Step p pollist tunfactor (metalC4 pt p mask c4list m) m) r) out ∧
    ((List.range' 1 p.ntypes).foldl
      (c4Step p pollist tunfactor (metalC4 pt p mask c4list m) m) r).length = p.ljACoef.length := by
  obtain ⟨a, ha, rfl⟩ := hp.metal_range hm
  rw [metalRow_eq hT hm]
  exact foldlM_run_ok (g := c4Step p pollist tunfactor (metalC4 pt p mask c4list a) a)
    (I := fun r => r.length = p.ljACoef.length) (fun r j hj hr =>
      ⟨c4Entry_ok hp ha hj (hT.pol_labelsOf j) (hagree j hj) hr out,
        (length_c4Step _ _ _ _ _ r j).trans hr⟩) hr

/-- A metal's row over a type two of whose labels disagree: `LJ12_6_4Error`. -/
theorem metalRow_conflict {m : Int} (hm : m ∈ metalsOf p mask)
    (hconflict : ∃ j ∈ List.range' 1 p.ntypes, ¬ Agrees p pollist j) {r : List ℚ}
    (hr : r.length = p.ljACoef.length) (out : List Output) :
    ∃ e, IsLj1264Error e ∧
      (metalRow pt p pollist c4list (metalDict p mask) (typeLabels p) tunfactor r m).run out =
        .error e out := by
  obtain ⟨a, ha, rfl⟩ := hp.metal_range hm
  rw [metalRow_eq hT hm]
  obtain ⟨j₀, hj₀, hne⟩ := hconflict
  refine foldlM_run_error (g := c4Step p pollist tunfactor (metalC4 pt p mask c4list a) a)
    (I := fun r => r.length = p.ljACoef.length) (fun r j hj hr => ?_)
    ⟨j₀, hj₀, fun r _ => c4Entry_conflict hj₀ (hT.pol_labelsOf j₀) hne r out⟩ hr
  by_cases hag : Agrees p pollist j
  · exact .inl ⟨c4Entry_ok hp ha hj (hT.pol_labelsOf j) hag hr out,
      (length_c4Step _ _ _ _ _ r j).trans hr⟩
  · exact .inr (c4Entry_conflict hj (hT.pol_labelsOf j) hag r out)

omit hT in
theorem WellIndexed.exists_not_agrees (h : PolConflict p pollist) :
    ∃ j ∈ List.range' 1 p.ntypes, ¬ Agrees p pollist j := by
  obtain ⟨t₁, t₂, j, h₁, h₂, hne⟩ := h
  obtain ⟨a, ha, rfl⟩ := hp.typeIndex_range (labelled_snd p ▸ List.mem_map_of_mem Prod.snd h₁)
  refine ⟨a, ha, fun hag => hne ?_⟩
  rw [hag t₁ ((mem_labelsOf p a t₁).2 h₁), hag t₂ ((mem_labelsOf p a t₂).2 h₂)]

end Rows

/-! ## The whole run -/

/-- `sorted(mettypdict.keys())`. -/
def sortedMetals (p : Prmtop) (mask : Fin p.natom → Bool) : List Int :=
  (metalDict p mask).keys.insertionSort (· ≤ ·)

theorem mem_sortedMetals (p : Prmtop) (mask : Fin p.natom → Bool) (m : Int) :
    m ∈ sortedMetals p mask ↔ m ∈ metalsOf p mask :=
  ((List.perm_insertionSort _ _).mem_iff).trans (mem_metalDict_keys p mask m)

theorem nodup_sortedMetals (p : Prmtop) (mask : Fin p.natom → Bool) :
    (sortedMetals p mask).Nodup :=
  (List.perm_insertionSort _ _).nodup_iff.2 (metalDict p mask).nodup

/-- The C4 table: the writes of every type, in every metal type's row. -/
def c4Table (pt : PeriodicTable) (p : Prmtop) (mask : Fin p.natom → Bool)
    (pollist c4list : Dict String ℚ) (tunfactor : ℚ) : List ℚ :=
  (sortedMetals p mask).foldl (fun r m => (List.range' 1 p.ntypes).foldl
    (c4Step p pollist tunfactor (metalC4 pt p mask c4list m) m) r)
    (List.replicate p.ljACoef.length 0)

section Run

variable {readLines : String → Option (List String)} {pt : PeriodicTable} {p : Prmtop}
  {mask : Fin p.natom → Bool} {c4file : Option String} {watermodel polfile : String}
  {tunfactor : ℚ} {out out₁ : List Output} {pollist c4list : Dict String ℚ}
  (hp : WellIndexed p) (hT : TablesComplete pt p mask pollist c4list)
  (htables : (params1264Tables readLines c4file watermodel polfile).run out =
    .ok (pollist, c4list) out₁)
include hT htables

omit hp in
/-- After the tables and `mettypdict`, the run is the loop over the sorted metal types. -/
theorem params1264_eq_fold : ∃ out₂,
    (params1264 readLines pt p mask c4file watermodel polfile tunfactor).run out =
      ((sortedMetals p mask).foldlM
        (metalRow pt p pollist c4list (metalDict p mask) (typeLabels p) tunfactor)
        (List.replicate p.ljACoef.length 0)).run out₂ := by
  obtain ⟨out₂, hmetals⟩ := metalTypes_run pt p mask (fun i hi => by
    obtain ⟨el, hel, -⟩ := hT.c4 i hi
    simp [hel]) out₁
  unfold params1264
  rw [run_bind_of_ok htables]
  exact ⟨out₂, run_bind_of_ok hmetals⟩

include hp

/-- Without a selected atom or without a conflict, the run returns the C4 table. -/
theorem params1264_ok (hok : ¬ ((∃ i, mask i) ∧ PolConflict p pollist)) : ∃ out',
    (params1264 readLines pt p mask c4file watermodel polfile tunfactor).run out =
      .ok (c4Table pt p mask pollist c4list tunfactor) out' ∧
    (c4Table pt p mask pollist c4list tunfactor).length = p.ljACoef.length := by
  obtain ⟨out₂, h⟩ := params1264_eq_fold hT htables
  rw [h]
  refine ⟨out₂, foldlM_run_ok (g := fun r m => (List.range' 1 p.ntypes).foldl
    (c4Step p pollist tunfactor (metalC4 pt p mask c4list m) m) r)
    (I := fun r => r.length = p.ljACoef.length)
    (fun r m hm hr => ?_) (List.length_replicate _ _)⟩
  have hm := (mem_sortedMetals p mask m).1 hm
  obtain ⟨i, hi, -⟩ := List.mem_map.1 hm
  have hsel : ∃ i, mask i := ⟨i, (List.mem_filter.1 hi).2⟩
  exact metalRow_ok hT hp hm (fun j _ => agrees_of_not_polConflict (fun h => hok ⟨hsel, h⟩) j)
    hr out₂

/-- With a selected atom and a conflict, the run raises `LJ12_6_4Error`. -/
theorem params1264_conflict (hsel : ∃ i, mask i) (hconflict : PolConflict p pollist) :
    ∃ e out', IsLj1264Error e ∧
      (params1264 readLines pt p mask c4file watermodel polfile tunfactor).run out =
        .error e out' := by
  obtain ⟨out₂, h⟩ := params1264_eq_fold hT htables
  obtain ⟨i, hi⟩ := hsel
  have hm : p.typeIndex i ∈ sortedMetals p mask := (mem_sortedMetals p mask _).2
    (List.mem_map_of_mem _ (List.mem_filter.2 ⟨List.mem_finRange i, hi⟩))
  have row : ∀ m ∈ sortedMetals p mask, ∀ r : List ℚ, r.length = p.ljACoef.length →
      ∃ e, IsLj1264Error e ∧ (metalRow pt p pollist c4list (metalDict p mask) (typeLabels p)
        tunfactor r m).run out₂ = .error e out₂ := fun m hm r hr =>
    metalRow_conflict hT hp ((mem_sortedMetals p mask m).1 hm)
      (hp.exists_not_agrees hconflict) hr out₂
  obtain ⟨e, he, herr⟩ := foldlM_run_error (g := fun r _ => r)
    (I := fun r => r.length = p.ljACoef.length) (fun r m hm hr => .inr (row m hm r hr))
    ⟨_, hm, fun r hr => row _ hm r hr⟩ (List.length_replicate _ _)
  exact ⟨e, out₂, he, h ▸ herr⟩

end Run

/-! ## The table entry by entry -/

/-- Each entry of a list written by a sequence of updates is the composition of the updates
at that entry. -/
theorem getElem?_foldl_modify {α : Type} (ws : List (Nat × (α → α))) (r : List α) (e : Nat) :
    (ws.foldl (fun r w => r.modify w.2 w.1) r)[e]? =
      r[e]?.map fun x => (ws.filter fun w => w.1 = e).foldl (fun x w => w.2 x) x := by
  induction ws generalizing r with
  | nil => simp
  | cons w ws ih =>
    rw [List.foldl_cons, ih, List.getElem?_modify]
    by_cases h : w.1 = e
    · simp [h, List.filter_cons, Option.map_map, Function.comp_def]
    · simp [h, List.filter_cons]

/-- Increments add up, and an assignment to a zero entry that is its only write is one. -/
theorem foldl_applyWrite {ι : Type} (qs : List ι) (w : ι → Bool × ℚ) (x : ℚ)
    (h : ∀ q ∈ qs, (w q).1 = true → qs = [q] ∧ x = 0) :
    qs.foldl (fun x q => applyWrite (w q) x) x = x + (qs.map fun q => (w q).2).sum := by
  induction qs generalizing x with
  | nil => simp
  | cons q qs ih =>
    cases hw : (w q).1
    · rw [List.foldl_cons, ih]
      · simp [applyWrite, hw, add_assoc]
      · intro q' hq' h'
        obtain ⟨-, rfl⟩ := List.cons_eq_cons.1 (h q' (List.mem_cons_of_mem q hq') h').1
        cases hq'
    · obtain ⟨hqs, rfl⟩ := h q (List.mem_cons_self q qs) hw
      obtain ⟨-, rfl⟩ := List.cons_eq_cons.1 hqs
      simp [applyWrite, hw]

/-- The nested loops write as one loop over the pairs of the two lists. -/
theorem foldl_rows {α β : Type} (ms : List Int) (js : List β) (W : Int → β → α → α)
    (E : Int → β → Nat) (r : List α) :
    ms.foldl (fun r m => js.foldl (fun r j => r.modify (W m j) (E m j)) r) r =
      ((ms ×ˢ js).map fun q => (E q.1 q.2, W q.1 q.2)).foldl (fun r w => r.modify w.2 w.1) r := by
  induction ms generalizing r with
  | nil => rfl
  | cons m ms ih =>
    simp only [List.foldl_cons, ih, List.product_cons, List.map_append, List.foldl_append,
      List.map_map, List.foldl_map, Function.comp_def]

/-- The iterations (metal type, type) of the loops that write the entry of `{a, b}`: `(a, b)`
if `a` is a metal type, and `(b, a)` if `b` is another. -/
def pairWriters (p : Prmtop) (mask : Fin p.natom → Bool) (a b : Nat) : List (Int × Nat) :=
  (if (a : Int) ∈ metalsOf p mask then [((a : Int), b)] else []) ++
    (if (b : Int) ∈ metalsOf p mask ∧ b ≠ a then [((b : Int), a)] else [])

theorem mem_pairWriters {p : Prmtop} {mask : Fin p.natom → Bool} {a b : Nat} {q : Int × Nat} :
    q ∈ pairWriters p mask a b ↔ ((a : Int) ∈ metalsOf p mask ∧ q = ((a : Int), b)) ∨
      (((b : Int) ∈ metalsOf p mask ∧ b ≠ a) ∧ q = ((b : Int), a)) := by
  unfold pairWriters
  split_ifs <;> simp [*]

theorem nodup_pairWriters (p : Prmtop) (mask : Fin p.natom → Bool) (a b : Nat) :
    (pairWriters p mask a b).Nodup := by
  unfold pairWriters
  split_ifs <;> simp_all

/-- The closed form of the entry of the pair of type indices `{a, b}`: the C4 term of `a` with
`b` if `a` is a metal type, and that of `b` with `a` if `b` is another. -/
def c4Pair (pt : PeriodicTable) (p : Prmtop) (mask : Fin p.natom → Bool)
    (pollist c4list : Dict String ℚ) (tunfactor : ℚ) (a b : Int) : ℚ :=
  (if a ∈ metalsOf p mask then
    c4Term pollist tunfactor (metalC4 pt p mask c4list a) (labelsOf p b) else 0) +
  (if b ∈ metalsOf p mask ∧ b ≠ a then
    c4Term pollist tunfactor (metalC4 pt p mask c4list b) (labelsOf p a) else 0)

theorem sum_pairWriters (pt : PeriodicTable) (p : Prmtop) (mask : Fin p.natom → Bool)
    (pollist c4list : Dict String ℚ) (tunfactor : ℚ) (a b : Nat) :
    ((pairWriters p mask a b).map fun q =>
      (c4Write pollist tunfactor (metalC4 pt p mask c4list q.1) (labelsOf p q.2)).2).sum =
      c4Pair pt p mask pollist c4list tunfactor a b := by
  unfold pairWriters c4Pair c4Write
  split_ifs <;> simp_all

section Entries

variable {pt : PeriodicTable} {p : Prmtop} {mask : Fin p.natom → Bool}
  {pollist c4list : Dict String ℚ} {tunfactor : ℚ} (hp : WellIndexed p)
  {a b : Nat} (ha : a ∈ List.range' 1 p.ntypes) (hb : b ∈ List.range' 1 p.ntypes)
include hp ha hb

omit ha hb in
theorem WellIndexed.entryOf_eq_iff {a b a' b' : Nat} (ha : a ∈ List.range' 1 p.ntypes)
    (hb : b ∈ List.range' 1 p.ntypes) (ha' : a' ∈ List.range' 1 p.ntypes)
    (hb' : b' ∈ List.range' 1 p.ntypes) :
    entryOf p a b = entryOf p a' b' ↔ (a = a' ∧ b = b') ∨ (a = b' ∧ b = a') := by
  have h₁ := hp.npi_range a ha b hb
  have h₂ := hp.npi_range a' ha' b' hb'
  constructor
  · intro h
    exact hp.npi_distinct a ha b hb a' ha' b' hb' (by unfold entryOf at h; omega)
  · rintro (⟨rfl, rfl⟩ | ⟨rfl, rfl⟩)
    · rfl
    · unfold entryOf
      rw [hp.npi_symm a ha b hb]

variable (mask) in
/-- The iterations that write the entry of `{a, b}` are its writers. -/
theorem perm_pairWriters :
    ((sortedMetals p mask ×ˢ List.range' 1 p.ntypes).filter fun q =>
      entryOf p q.1 q.2 = entryOf p a b).Perm (pairWriters p mask a b) := by
  refine (List.perm_ext_iff_of_nodup (((nodup_sortedMetals p mask).product
    (List.nodup_range' _ _)).filter _) (nodup_pairWriters p mask a b)).2 fun ⟨m, j⟩ => ?_
  simp only [List.mem_filter, List.mem_product, mem_sortedMetals, decide_eq_true_eq,
    mem_pairWriters, Prod.mk.injEq]
  constructor
  · rintro ⟨⟨hm, hj⟩, he⟩
    obtain ⟨c, hc, rfl⟩ := hp.metal_range hm
    rcases (hp.entryOf_eq_iff hc hj ha hb).1 he with ⟨rfl, rfl⟩ | ⟨rfl, rfl⟩
    · exact .inl ⟨hm, rfl, rfl⟩
    · by_cases hca : c = j
      · subst hca
        exact .inl ⟨hm, rfl, rfl⟩
      · exact .inr ⟨⟨hm, hca⟩, rfl, rfl⟩
  · rintro (⟨hm, rfl, rfl⟩ | ⟨⟨hm, -⟩, rfl, rfl⟩)
    · exact ⟨⟨hm, hb⟩, rfl⟩
    · exact ⟨⟨hm, ha⟩, (hp.entryOf_eq_iff hb ha ha hb).2 (.inr ⟨rfl, rfl⟩)⟩

variable (hT : TablesComplete pt p mask pollist c4list)
include hT

/-- Each entry of the C4 table is the closed form of its pair. -/
theorem c4Table_entry :
    (c4Table pt p mask pollist c4list tunfactor)[entryOf p a b]? =
      some (c4Pair pt p mask pollist c4list tunfactor a b) := by
  have hlt : entryOf p a b < p.ljACoef.length := by
    have := hp.npi_range a ha b hb
    unfold entryOf
    omega
  have notWater : ∀ m ∈ metalsOf p mask, labelsOf p m ≠ ["OW"] := fun m hm => by
    obtain ⟨i, hi, rfl⟩ := List.mem_map.1 hm
    exact hT.notWater i hi
  have hperm := perm_pairWriters mask hp ha hb
  unfold c4Table c4Step
  rw [foldl_rows, getElem?_foldl_modify, List.getElem?_replicate, if_pos hlt]
  simp only [Option.map_some', List.filter_map, List.foldl_map, Function.comp_def]
  rw [foldl_applyWrite, zero_add, (hperm.map _).sum_eq, sum_pairWriters]
  intro q hq hOW
  refine ⟨List.perm_singleton.1 (hperm.trans ?_), rfl⟩
  have hOW : labelsOf p q.2 = ["OW"] := by simpa [c4Write] using hOW
  rcases mem_pairWriters.1 (hperm.mem_iff.1 hq) with ⟨hm, rfl⟩ | ⟨⟨hm, hne⟩, rfl⟩
  · have : (b : Int) ∉ metalsOf p mask := fun h => notWater _ h hOW
    simp [pairWriters, hm, this]
  · have : (a : Int) ∉ metalsOf p mask := fun h => notWater _ h hOW
    simp [pairWriters, hm, hne, this]

end Entries

/-! ## The closed form -/

/-- **The C4 table of `params1264`.** For a well-indexed topology and tables complete for it,
a run that selects an atom and meets two labels of one type index with different
polarizabilities raises `LJ12_6_4Error`; any other run returns a list as long as
`LENNARD_JONES_ACOEF` whose entry for every pair of type indices `{a, b}` is `c4Pair`. -/
theorem params1264_closed_form {readLines : String → Option (List String)}
    {pt : PeriodicTable} {p : Prmtop} {mask : Fin p.natom → Bool} {c4file : Option String}
    {watermodel polfile : String} {tunfactor : ℚ} {out out₁ : List Output}
    {pollist c4list : Dict String ℚ} (hp : WellIndexed p)
    (hT : TablesComplete pt p mask pollist c4list)
    (htables : (params1264Tables readLines c4file watermodel polfile).run out =
      .ok (pollist, c4list) out₁) :
    ((∃ i, mask i) → PolConflict p pollist → ∃ e out', IsLj1264Error e ∧
      (params1264 readLines pt p mask c4file watermodel polfile tunfactor).run out =
        .error e out') ∧
    (¬ ((∃ i, mask i) ∧ PolConflict p pollist) → ∃ r out',
      (params1264 readLines pt p mask c4file watermodel polfile tunfactor).run out =
        .ok r out' ∧ r.length = p.ljACoef.length ∧
      ∀ a ∈ List.range' 1 p.ntypes, ∀ b ∈ List.range' 1 p.ntypes,
        pyGet r (npi p a b - 1) = some (c4Pair pt p mask pollist c4list tunfactor a b)) := by
  refine ⟨params1264_conflict hp hT htables, fun hok => ?_⟩
  obtain ⟨out', hrun, hlen⟩ := params1264_ok hp hT htables hok
  refine ⟨_, out', hrun, hlen, fun a ha b hb => ?_⟩
  have := hp.npi_range a ha b hb
  rw [pyGet_of_lt (by omega) (by rw [hlen]; omega)]
  exact c4Table_entry hp ha hb hT

section Evaluation

attribute [local semireducible] Rat.ofScientific Rat.mul Rat.inv Rat.add Rat.sub

/-- A zinc ion and a water oxygen, of type indices `1` and `2`. -/
def zincWater : Prmtop where
  natom := 2
  ntypes := 2
  atomTypeIndex := [1, 2]
  charge := [2, -0.834]
  atomicNumber := [30, 8]
  amberAtomType := ["ZN", "OW"]
  ljACoef := [0, 0, 0]
  nonbondedParmIndex := [1, 2, 2, 3]
  atomTypeIndex_length := rfl
  charge_length := rfl
  atomicNumber_length := rfl
  amberAtomType_length := rfl

/-- The two elements of `zincWater`. -/
def zincWaterElements : PeriodicTable where
  atomicNum _ := none
  mass _ := none
  elementByMass _ := ""
  element n := if n = 30 then some "Zn" else if n = 8 then some "O" else none

/-- A polarizability file and a C4 file for `zincWater`. -/
def zincWaterFiles (fname : String) : Option (List String) :=
  if fname = "pol.txt" then some ["ZN 0.5", "OW 1.444"]
  else if fname = "c4.txt" then some ["Zn2 231.6"] else none

/-- The mask `@1`: the zinc ion. -/
def zincMask (i : Fin zincWater.natom) : Bool := i.val = 0

theorem zinc_water_c4_table : ∃ pollist c4list out₁,
    (params1264Tables zincWaterFiles (some "c4.txt") "TIP3P" "pol.txt").run [] =
      .ok (pollist, c4list) out₁ ∧ WellIndexed zincWater ∧
    TablesComplete zincWaterElements zincWater zincMask pollist c4list ∧
    (((∃ i, zincMask i) → PolConflict zincWater pollist → ∃ e out', IsLj1264Error e ∧
      (params1264 zincWaterFiles zincWaterElements zincWater zincMask (some "c4.txt") "TIP3P"
        "pol.txt" 1).run [] = .error e out') ∧
    (¬ ((∃ i, zincMask i) ∧ PolConflict zincWater pollist) → ∃ r out',
      (params1264 zincWaterFiles zincWaterElements zincWater zincMask (some "c4.txt") "TIP3P"
        "pol.txt" 1).run [] = .ok r out' ∧ r.length = zincWater.ljACoef.length ∧
      ∀ a ∈ List.range' 1 zincWater.ntypes, ∀ b ∈ List.range' 1 zincWater.ntypes,
        pyGet r (npi zincWater a b - 1) =
          some (c4Pair zincWaterElements zincWater zincMask pollist c4list 1 a b))) :=
  have hp : WellIndexed zincWater := ⟨by decide, rfl, by decide, by decide, by decide⟩
  ⟨_, _, _, rfl, hp, ⟨by decide, by decide, by decide⟩, params1264_closed_form hp
    ⟨by decide, by decide, by decide⟩ rfl⟩

/-- The zinc-zinc entry is an increment; the zinc-water entry is the C4 value itself. -/
example : (params1264 zincWaterFiles zincWaterElements zincWater zincMask (some "c4.txt")
    "TIP3P" "pol.txt" 1).run [] =
      .ok [231.6 / 1.444 * 0.5, 231.6, 0] [.printed "The selected metal ion is Zn"] := rfl

end Evaluation

end ParmEd.Tools
