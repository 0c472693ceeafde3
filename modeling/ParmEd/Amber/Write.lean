import ParmEd.Amber.ParameterSet
import ParmEd.Amber.LineHandlers

/-!
# Writing a parameter set

`AmberParameterSet.write` prints every table in the frcmod layout (for either `style`): one
line per atom type, then one line per bond, angle and dihedral object (an object stored
under both orientations is written once, under the key met first), one line per improper
after moving wildcards `X` to the front, the Lennard-Jones parameters, and the `LJEDIT`
pairs. The output written so far is the state of the computation, so that a write that
raises leaves what it had written, as a file would.

* `write_spec`: after its test of `style` and its title, every statement of `write` appends to
  the file, and it raises only the exceptions of `WriteError`: the assertion on a generic
  improper, the `TypeError` of an atom type without Lennard-Jones parameters, an `IndexError`
  only when a handle names no object or a torsion object has no term, and the `ValueError` of
  two impropers only when two keys are printed under the same atom types.
* `write_begins`: so the file `write` leaves, whether it returned or raised part way, starts
  with the title line and the `MASS` header.
-/

namespace ParmEd.Amber

open ParmEd.Python

/-- Code that writes to an output file and may raise. -/
abbrev WriteM := EStateM PyError String

/-- `outfile.write(text)`. -/
def out (text : String) : WriteM Unit := modify (· ++ text)

/-- `f'{x:w.pf}'` of a float attribute that may be `None`. -/
def formatOptional (w p : Nat) : Option ℚ → WriteM String
  | some x => pure (formatFixed w p x)
  | none => throw (.typeError "unsupported format string passed to NoneType.__format__")

/-- `f'{cont * per:5.1f}'`: the product of `cont = ±1` with a periodicity, which is `-0.0`,
printed with its sign, when `cont = -1` and the periodicity is zero. -/
def formatContinued (cont : Int) (per : ℚ) : String :=
  if cont < 0 ∧ per = 0 then rjust 5 "-0.0" else formatFixed 5 1 (cont * per)

/-- `write_dtype`: one term of a torsion. -/
def writeDtype (a1 a2 a3 a4 : String) (cont : Int) (t : DihedralType) : WriteM Unit :=
  out (ljust 2 a1 ++ "-" ++ ljust 2 a2 ++ "-" ++ ljust 2 a3 ++ "-" ++ ljust 2 a4 ++ " " ++
    formatInt 4 1 ++ " " ++ formatFixed 14 8 t.phiK ++ " " ++ formatFixed 8 3 t.phase ++ " " ++
    formatContinued cont t.per ++ "    SCEE=" ++ reprFloat t.scee ++ " SCNB=" ++
    reprFloat t.scnb ++ "\n")

/-- The terms of one `DihedralTypeList`: every term but the last marked as continued. -/
def writeDihedralList (a1 a2 a3 a4 : String) : List DihedralType → WriteM Unit
  | [t] => writeDtype a1 a2 a3 a4 1 t
  | [] => throw (.indexError "list index out of range")
  | ts => do
    for t in ts.dropLast do writeDtype a1 a2 a3 a4 (-1) t
    writeDtype a1 a2 a3 a4 1 (ts.getLastD ⟨0, 0, 0, 0, 0⟩)

/-- The order `write` prints an improper's atom types in: a wildcard `X` second (asserted to
be fourth as well) or fourth is moved to the front. -/
def improperOrder : TorsionKey → Except PyError TorsionKey
  | (a1, a2, a3, a4) =>
    if a2 = "X" then
      if a4 = "X" then .ok (a2, a4, a3, a1)
      else .error (.assertionError "Malformed generic improper!")
    else if a4 = "X" then
      match sorted [a1, a2] with
      | [b2, b4] => .ok (a4, b2, a3, b4)
      | _ => .ok (a4, a1, a3, a2)
    else
      match sorted [a1, a2, a4] with
      | [b1, b2, b4] => .ok (b1, b2, a3, b4)
      | _ => .ok (a1, a2, a3, a4)

/-- One improper line of `write`, given the impropers already written. -/
def writeImproper (written : Dict TorsionKey DihedralType) (key : TorsionKey) (t : DihedralType) :
    WriteM (Dict TorsionKey DihedralType) := do
  let (a1, a2, a3, a4) ← ofExcept (improperOrder key)
  match written.get? (a1, a2, a3, a4) with
  | some t' =>
    if t' ≠ t then throw (.valueError "Multiple impropers with the same atom set not allowed")
    pure written
  | none =>
    out (ljust 2 a1 ++ "-" ++ ljust 2 a2 ++ "-" ++ ljust 2 a3 ++ "-" ++ ljust 2 a4 ++ " " ++
      formatFixed 14 8 t.phiK ++ " " ++ formatFixed 8 3 t.phase ++ " " ++ formatFixed 5 1 t.per ++
      "\n")
    pure (written.insert (a1, a2, a3, a4) t)

/-- Objects of a table in order of their first key, each once: the `done` set of `write`. -/
def firstKeys {κ : Type} [DecidableEq κ] : List Nat → List (κ × Nat) → List (κ × Nat)
  | _, [] => []
  | done, (k, h) :: es => if h ∈ done then firstKeys done es else (k, h) :: firstKeys (h :: done) es

variable (s : AmberParameterSet)

/-- The body of `AmberParameterSet.write(dest, title, style)`. -/
def write (title style : String) : WriteM Unit := do
  if style ≠ "frcmod" ∧ style ≠ "parm" then
    throw (.valueError ("style must be either frcmod or parm, not " ++ style))
  out (rstripSet ['\r', '\n'] title)
  out "\n"
  out "MASS\n"
  for (atom, t) in s.atomTypes.entries do
    out (ljust 6 atom ++ formatFixed 6 3 t.mass ++ "\n")
  out "\n"
  out "BOND\n"
  for ((a1, a2), h) in firstKeys [] s.bondTypes.entries do
    let some t := s.bondObjects[h]? | throw (.indexError "list index out of range")
    out (ljust 2 a1 ++ "-" ++ ljust 2 a2 ++ "   " ++ formatFixed 8 3 t.k ++ "  " ++
      formatFixed 6 3 t.req ++ "\n")
  out "\n"
  out "ANGLE\n"
  for ((a1, a2, a3), h) in firstKeys [] s.angleTypes.entries do
    let some t := s.angleObjects[h]? | throw (.indexError "list index out of range")
    out (ljust 2 a1 ++ "-" ++ ljust 2 a2 ++ "-" ++ ljust 2 a3 ++ "   " ++ formatFixed 8 3 t.k ++
      "  " ++ formatFixed 6 3 t.theteq ++ "\n")
  out "\n"
  out "DIHE\n"
  for ((a1, a2, a3, a4), h) in firstKeys [] s.dihedralTypes.entries do
    let some ts := s.dihedralObjects[h]? | throw (.indexError "list index out of range")
    writeDihedralList a1 a2 a3 a4 ts
  out "\n"
  out "IMPROPER\n"
  let _ ← s.improperPeriodicTypes.entries.foldlM (fun w (k, t) => writeImproper w k t) {}
  out "\n"
  out "NONB\n"
  for (atom, t) in s.atomTypes.entries do
    let r ← formatOptional 12 8 t.rmin
    let e ← formatOptional 12 8 t.epsilon
    out (ljust 2 atom ++ "  " ++ r ++ " " ++ e ++ "\n")
  out "\n"
  if !s.nbfixTypes.entries.isEmpty then
    out "LJEDIT\n"
    for ((a1, a2), (eps, rmin)) in s.nbfixTypes.entries do
      out (ljust 2 a1 ++ " " ++ ljust 2 a2 ++ " " ++ formatFixed 12 8 eps ++ " " ++
        formatFixed 12 8 (rmin / 2) ++ " " ++ formatFixed 12 8 eps ++ " " ++
        formatFixed 12 8 (rmin / 2) ++ "\n")

/-! ## What `write` does to the file

After its test of `style` and its title, every statement of `write` appends to the file, and
it raises only the assertion on a generic improper, the `TypeError` of an atom type without
Lennard-Jones parameters, an `IndexError` on a table whose handles are out of range or whose
torsion has no term, and the `ValueError` of two impropers on two keys printed under the same
atom types. -/

/-- Every key of a table names an object of its list, and every torsion object has a term. -/
structure HandlesValid (s : AmberParameterSet) : Prop where
  bond : ∀ k h, s.bondTypes.get? k = some h → h < s.bondObjects.length
  angle : ∀ k h, s.angleTypes.get? k = some h → h < s.angleObjects.length
  dihedral : ∀ k h, s.dihedralTypes.get? k = some h → h < s.dihedralObjects.length
  terms : ∀ ts ∈ s.dihedralObjects, ts ≠ []

/-- No two improper keys of the table are printed under the same atom types. -/
def OrderInjective (s : AmberParameterSet) : Prop :=
  ∀ k k' t t' o, s.improperPeriodicTypes.get? k = some t →
    s.improperPeriodicTypes.get? k' = some t' →
    improperOrder k = .ok o → improperOrder k' = .ok o → k = k'

/-- The exceptions `write` may raise on `s` after its test of `style`. -/
def WriteError (s : AmberParameterSet) (e : PyError) : Prop :=
  e = .assertionError "Malformed generic improper!" ∨
    e = .typeError "unsupported format string passed to NoneType.__format__" ∨
    (e = .indexError "list index out of range" ∧ ¬ HandlesValid s) ∨
    (e = .valueError "Multiple impropers with the same atom set not allowed" ∧ ¬ OrderInjective s)

theorem improperOrder_error {key : TorsionKey} {e : PyError} (h : improperOrder key = .error e) :
    e = .assertionError "Malformed generic improper!" := by
  obtain ⟨a1, a2, a3, a4⟩ := key
  unfold improperOrder at h
  dsimp only at h
  split_ifs at h <;> (try split at h) <;> cases h
  rfl

theorem mem_firstKeys {κ : Type} [DecidableEq κ] {e : κ × Nat} :
    ∀ {done : List Nat} {es : List (κ × Nat)}, e ∈ firstKeys done es → e ∈ es
  | _, [] => fun h => nomatch h
  | done, (k, h) :: es => by
    unfold firstKeys
    split
    · exact fun he => List.mem_cons_of_mem _ (mem_firstKeys he)
    · intro he
      rcases List.mem_cons.1 he with rfl | he
      · exact List.mem_cons_self _ _
      · exact List.mem_cons_of_mem _ (mem_firstKeys he)

/-- A handle that names no object of its list: the table's handles are not valid. -/
theorem indexError_of_lookup {α : Type} {l : List α} {n : Nat} (hl : ∀ t, l[n]? = some t → False)
    (hvalid : HandlesValid s → n < l.length) :
    WriteError s (.indexError "list index out of range") :=
  .inr (.inr (.inl ⟨rfl, fun hv => hl _ (List.getElem?_eq_getElem (hvalid hv))⟩))

theorem run_out_bind {α : Type} (text : String) (f : PUnit → WriteM α) (t : String) :
    (out text >>= f).run t = (f ⟨⟩).run (t ++ text) := rfl

section Appends

variable {P : String → Prop}

theorem formatOptional_triple (w p : Nat) (x : Option ℚ) :
    Triple P (formatOptional w p x) (fun _ => True) (WriteError s) := by
  cases x
  · exact Triple.throw (.inr (.inl rfl))
  · exact Triple.skip

variable (hP : ∀ t more, P t → P (t ++ more))
include hP

theorem out_triple {E : PyError → Prop} (text : String) : Triple P (out text) (fun _ => True) E :=
  Triple.modify fun t h => hP t text h

theorem writeDihedralList_triple {E : PyError → Prop} (a1 a2 a3 a4 : String)
    (ts : List DihedralType) (hts : ts = [] → E (.indexError "list index out of range")) :
    Triple P (writeDihedralList a1 a2 a3 a4 ts) (fun _ => True) E := by
  unfold writeDihedralList
  split
  · exact out_triple hP _
  · exact Triple.throw (hts rfl)
  · exact Triple.bind (Triple.forIn fun _ _ =>
      Triple.bind (out_triple hP _) fun _ _ => Triple.skip) fun _ _ => out_triple hP _

/-- One improper line: the impropers written gain at most the printed key of this one, and the
`ValueError` needs that key written before. -/
theorem writeImproper_triple {E : PyError → Prop} (written : Dict TorsionKey DihedralType)
    (key : TorsionKey) (t : DihedralType) (hassert : E (.assertionError "Malformed generic improper!"))
    (hvalue : (∀ o, improperOrder key = .ok o → written.get? o = none) ∨
      E (.valueError "Multiple impropers with the same atom set not allowed")) :
    Triple P (writeImproper written key t)
      (fun w => ∀ o t', w.get? o = some t' → written.get? o = some t' ∨ improperOrder key = .ok o)
      E := by
  unfold writeImproper
  refine Triple.bind (Triple.ofExcept (Q := fun o => improperOrder key = .ok o) (fun _ h => h)
    fun _ h => improperOrder_error h ▸ hassert) fun ⟨a1, a2, a3, a4⟩ ho => ?_
  dsimp only
  split
  · next t' hw =>
    rcases hvalue with hnone | hE
    · exact absurd (hnone _ ho ▸ hw) (by simp)
    · split
      · exact Triple.throw_bind hE
      · exact Triple.bind Triple.skip fun _ _ => Triple.pure fun _ _ h => .inl h
  · refine Triple.bind (out_triple hP _) fun _ _ => Triple.pure fun o t' h => ?_
    rw [Dict.get?_insert] at h
    split at h
    · next heq => exact .inr (heq ▸ ho)
    · exact .inl h

/-- The `IMPROPER` section: on keys printed under distinct atom types, every printed key is new
when it comes, and the `ValueError` does not fire. -/
theorem foldlM_writeImproper_triple (s : AmberParameterSet) :
    Triple P (s.improperPeriodicTypes.entries.foldlM (fun w (k, t) => writeImproper w k t) {})
      (fun _ => True) (WriteError s) := by
  by_cases hinj : OrderInjective s
  · suffices run : ∀ rest done (written : Dict TorsionKey DihedralType),
        done ++ rest = s.improperPeriodicTypes.entries →
        (∀ o t', written.get? o = some t' → ∃ e ∈ done, improperOrder e.1 = .ok o) →
        Triple P (rest.foldlM (fun w (k, t) => writeImproper w k t) written) (fun _ => True)
          (WriteError s) from
      run _ [] {} rfl fun _ _ h => nomatch h
    intro rest
    induction rest with
    | nil => exact fun _ _ _ _ => Triple.skip
    | cons e rest ih =>
      intro done written hsplit hw
      obtain ⟨k, t⟩ := e
      have hmem : (k, t) ∈ s.improperPeriodicTypes.entries := hsplit ▸ by simp
      have fresh : ∀ o, improperOrder k = .ok o → written.get? o = none := by
        intro o ho
        cases hget : written.get? o with
        | none => rfl
        | some t' =>
          obtain ⟨⟨k', t''⟩, hk', ho'⟩ := hw o t' hget
          have hmem' : (k', t'') ∈ s.improperPeriodicTypes.entries :=
            hsplit ▸ List.mem_append_left _ hk'
          have heq := hinj k' k t'' t o (Dict.get?_of_mem hmem') (Dict.get?_of_mem hmem) ho' ho
          have nd := s.improperPeriodicTypes.nodup
          rw [← hsplit, List.map_append, List.nodup_append] at nd
          exact absurd (nd.2.2 (List.mem_map_of_mem Prod.fst hk') (by simp [heq])) id
      rw [List.foldlM_cons]
      refine Triple.bind (writeImproper_triple hP written k t (.inl rfl) (.inl fresh))
        fun w hw' => ih (done ++ [(k, t)]) w (by simp [← hsplit]) fun o t' h => ?_
      rcases hw' o t' h with h | h
      · obtain ⟨e, he, heo⟩ := hw o t' h
        exact ⟨e, List.mem_append_left _ he, heo⟩
      · exact ⟨(k, t), by simp, h⟩
  · exact Triple.foldlM (I := fun _ => True) (fun w ⟨k, t⟩ _ _ =>
      Triple.mono (writeImproper_triple hP w k t (.inl rfl) (.inr (.inr (.inr (.inr ⟨rfl, hinj⟩)))))
        (fun _ _ => trivial) fun _ h => h) trivial

/-- **What `write` does to the file.** For either `style`, from a file that holds a text
satisfying `P` once the title and the `MASS` header are appended, `write` leaves a file still
satisfying `P`, and any exception it raises is one of `WriteError`. -/
theorem write_spec (title style : String) (hstyle : style = "frcmod" ∨ style = "parm")
    {t : String} (ht : P (t ++ rstripSet ['\r', '\n'] title ++ "\n" ++ "MASS\n")) :
    P (stateOf ((write s title style).run t)) ∧
      ∀ e t', (write s title style).run t = .error e t' → WriteError s e := by
  have hvalid : ¬(style ≠ "frcmod" ∧ style ≠ "parm") := by tauto
  have of_triple : ∀ {x : WriteM Unit} {u : String},
      Triple P x (fun _ => True) (WriteError s) → P u →
      P (stateOf (x.run u)) ∧ ∀ e t', x.run u = .error e t' → WriteError s e :=
    fun hx hu => ⟨Triple.stateOf_run hx hu, fun _ _ he => (Triple.of_run_error hx hu he).1⟩
  unfold write
  rw [if_neg hvalid, run_pure_bind]
  dsimp only
  rw [run_out_bind, run_out_bind, run_out_bind]
  refine of_triple ?_ ht
  -- `MASS`
  refine Triple.bind (Triple.forIn fun _ _ => Triple.bind (out_triple hP _) fun _ _ =>
    Triple.skip) fun _ _ => ?_
  refine Triple.bind (out_triple hP _) fun _ _ => Triple.bind (out_triple hP _) fun _ _ => ?_
  -- `BOND`
  refine Triple.bind (Triple.forIn fun c hc => ?_) fun _ _ => ?_
  · dsimp only
    split
    · exact Triple.bind (out_triple hP _) fun _ _ => Triple.skip
    · next hl => exact Triple.throw_bind (indexError_of_lookup s hl fun hv =>
        hv.bond _ _ (Dict.get?_of_mem (mem_firstKeys hc)))
  refine Triple.bind (out_triple hP _) fun _ _ => Triple.bind (out_triple hP _) fun _ _ => ?_
  -- `ANGLE`
  refine Triple.bind (Triple.forIn fun c hc => ?_) fun _ _ => ?_
  · dsimp only
    split
    · exact Triple.bind (out_triple hP _) fun _ _ => Triple.skip
    · next hl => exact Triple.throw_bind (indexError_of_lookup s hl fun hv =>
        hv.angle _ _ (Dict.get?_of_mem (mem_firstKeys hc)))
  refine Triple.bind (out_triple hP _) fun _ _ => Triple.bind (out_triple hP _) fun _ _ => ?_
  -- `DIHE`
  refine Triple.bind (Triple.forIn fun c hc => ?_) fun _ _ => ?_
  · dsimp only
    split
    · next ts hts =>
      refine Triple.bind (writeDihedralList_triple hP _ _ _ _ ts fun h => ?_) fun _ _ => Triple.skip
      exact .inr (.inr (.inl ⟨rfl, fun hv => hv.terms ts (List.mem_iff_getElem?.2 ⟨_, hts⟩) h⟩))
    · next hl => exact Triple.throw_bind (indexError_of_lookup s hl fun hv =>
        hv.dihedral _ _ (Dict.get?_of_mem (mem_firstKeys hc)))
  refine Triple.bind (out_triple hP _) fun _ _ => Triple.bind (out_triple hP _) fun _ _ => ?_
  -- `IMPROPER`
  refine Triple.bind (foldlM_writeImproper_triple hP s) fun _ _ => ?_
  refine Triple.bind (out_triple hP _) fun _ _ => Triple.bind (out_triple hP _) fun _ _ => ?_
  -- `NONB`
  refine Triple.bind (Triple.forIn fun _ _ => ?_) fun _ _ => ?_
  · exact Triple.bind (formatOptional_triple s _ _ _) fun _ _ =>
      Triple.bind (formatOptional_triple s _ _ _) fun _ _ =>
        Triple.bind (out_triple hP _) fun _ _ => Triple.skip
  refine Triple.bind (out_triple hP _) fun _ _ => ?_
  -- `LJEDIT`
  split
  · exact Triple.bind (out_triple hP _) fun _ _ => Triple.bind (Triple.forIn fun _ _ =>
      Triple.bind (out_triple hP _) fun _ _ => Triple.skip) fun _ _ => Triple.skip
  · exact Triple.skip

end Appends

/-- The file's text starts with `pre`. -/
def Begins (pre text : String) : Prop := ∃ u, text = pre ++ u

theorem Begins.append {pre text : String} (h : Begins pre text) (more : String) :
    Begins pre (text ++ more) :=
  let ⟨u, hu⟩ := h
  ⟨u ++ more, by rw [hu, String.append_assoc]⟩

/-- **What `write` leaves in the file.** For either `style`, the file starts with the title
and the `MASS` header, whether `write` returned or raised. -/
theorem write_begins (title style : String) (hstyle : style = "frcmod" ∨ style = "parm") :
    Begins (rstripSet ['\r', '\n'] title ++ "\n" ++ "MASS\n")
      (stateOf ((write s title style).run "")) :=
  (write_spec s (fun _ _ h => h.append _) title style hstyle ⟨"", by simp⟩).1

/-- The text `write` produces, or the exception it raises. -/
def writeText (title style : String) : Except PyError String :=
  match (write s title style).run "" with
  | .ok _ text => .ok text
  | .error e _ => .error e

end ParmEd.Amber
