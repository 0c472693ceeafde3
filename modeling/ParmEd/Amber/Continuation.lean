import ParmEd.Amber.Orientation

/-!
# The continuation protocol of multi-term torsions

A torsion of several terms is written as several dihedral lines, all but the last with a
negative periodicity; a line after the first may leave out the atom types. The protocol,
stated on the dihedral lines of one file in order (`specLine`): a line without atom types
belongs to the key of the line before it, which must have had a negative periodicity; a line
starts a fresh term list for both orientations of its key when no earlier line of the file
has that key class, or when the latest such line had a periodicity `≥ 0`, and is appended
otherwise.

`_process_dihedral_line` implements it with the `finished_diheds` table of the file, the key
returned by the previous line, and term lists shared by both orientations of a key. The
simulation `TorsionSim` ties these to the protocol's history of the file's lines. The step
lemma `processDihedralLine_sim` says that a line the code accepts is one the protocol accepts,
and `processDihedralLine_returns` the converse, so that the code returns on a line exactly when
the protocol accepts it (`processDihedralLine_returns_iff`); `frcmodLines_sim` and
`frcmodLines_returns` carry both over the lines of an frcmod file.
-/

namespace ParmEd.Amber

open ParmEd.Python

/-! ## The protocol -/

/-- The fields of a dihedral line: its atom types when it matches `_dihedre`, none for a term
without them (`_dihed2re`), and `div, k, phi, per`. -/
def dihedralFields (line : String) : Option (Option TorsionKey × List String) :=
  match dihedre.reMatch line with
  | some [a1, a2, a3, a4, div, k, phi, per] =>
    some (some (strip a1, strip a2, strip a3, strip a4), [div, k, phi, per])
  | some _ => none
  | none =>
    match dihed2re.reMatch line with
    | some [div, k, phi, per] => some (none, [div, k, phi, per])
    | _ => none

/-- A dihedral line as the protocol reads it: its own key, if it has atom types, its term and
its periodicity with the sign. -/
structure TorsionLine where
  key : Option TorsionKey
  term : DihedralType
  per : ℚ

/-- A dihedral line read, or `none` for a line that is neither form, or whose term does not
read. -/
def readTorsionLine (line : String) : Option TorsionLine := do
  let (key, fields) ← dihedralFields line
  let (term, per) ← (readTerm fields line).toOption
  pure ⟨key, term, per⟩

/-- A line of the file with the key it was read under. -/
structure TorsionEntry where
  key : TorsionKey
  term : DihedralType
  per : ℚ

/-- `k'` is `k` in one of its two orientations. -/
def sameClass (k k' : TorsionKey) : Prop := k' = k ∨ k' = k.reverse

instance (k k' : TorsionKey) : Decidable (sameClass k k') :=
  inferInstanceAs (Decidable (k' = k ∨ k' = k.reverse))

theorem sameClass_refl (k : TorsionKey) : sameClass k k := Or.inl rfl

/-- The latest line of the file's history in the key class of `k`. -/
def latestOfClass (hist : List TorsionEntry) (k : TorsionKey) : Option TorsionEntry :=
  (hist.filter fun e => sameClass e.key k).getLast?

/-- A line of key `k` starts a fresh term list: no earlier line of its class in the file, or
the latest one had a periodicity `≥ 0`. -/
def startsFresh (hist : List TorsionEntry) (k : TorsionKey) : Bool :=
  match latestOfClass hist k with
  | none => true
  | some e => decide (0 ≤ e.per)

/-- The key left pending after the file's lines `hist`: that of the last line, if it announced
another term. -/
def pendingKey (hist : List TorsionEntry) : Option TorsionKey :=
  match hist.getLast? with
  | some e => if e.per < 0 then some e.key else none
  | none => none

theorem dihedralFields_four {line : String} {key : Option TorsionKey} {fields : List String}
    (h : dihedralFields line = some (key, fields)) :
    ∃ div k phi per, fields = [div, k, phi, per] := by
  unfold dihedralFields at h
  split at h
  · cases h
    exact ⟨_, _, _, _, rfl⟩
  · cases h
  · split at h
    · cases h
      exact ⟨_, _, _, _, rfl⟩
    · cases h

/-- **A dihedral line read**: its key and its fields `div, k, phi, per` are what `_dihedre` or
`_dihed2re` captures, and its term is `k / div`, `|per|`, `phi` and the line's first `SCEE=` and
`SCNB=` values, or `1.2` and `2.0`. -/
theorem readTorsionLine_spec {line : String} {l : TorsionLine}
    (h : readTorsionLine line = some l) :
    ∃ div k phi per, dihedralFields line = some (l.key, [div, k, phi, per]) ∧
      ∃ vdiv vk : ℚ, toFloat? div = some vdiv ∧ toFloat? k = some vk ∧ vdiv ≠ 0 ∧
        l.term.phiK = vk / vdiv ∧ toFloat? per = some l.per ∧ l.term.per = |l.per| ∧
        toFloat? phi = some l.term.phase ∧ FirstValue sceere 1.2 line l.term.scee ∧
        FirstValue scnbre 2.0 line l.term.scnb := by
  unfold readTorsionLine at h
  cases hf : dihedralFields line with
  | none => simp [hf] at h
  | some r =>
    obtain ⟨key, fields⟩ := r
    obtain ⟨div, k, phi, per, rfl⟩ := dihedralFields_four hf
    cases ht : readTerm [div, k, phi, per] line with
    | error e => simp [hf, ht, Except.toOption] at h
    | ok r =>
      obtain ⟨t, p⟩ := r
      simp only [hf, ht, Except.toOption, Option.bind_eq_bind, Option.some_bind,
        Option.pure_def, Option.some.injEq] at h
      subst h
      exact ⟨div, k, phi, per, rfl, readTerm_spec ht⟩

/-- The key a line belongs to: its own, or for a line without atom types the pending one. -/
def lineKey (hist : List TorsionEntry) (l : TorsionLine) : Option TorsionKey :=
  l.key <|> pendingKey hist

/-- The term list of each key. -/
abbrev TorsionTable := TorsionKey → Option (List DihedralType)

/-- One dihedral line of a file after the file's lines `hist`: its term (`readTorsionLine_spec`)
starts a fresh list for both orientations of its key, or is appended to the list of its class. -/
def specLine (T : TorsionTable) (hist : List TorsionEntry) (line : String) :
    Option (TorsionTable × List TorsionEntry) := do
  let l ← readTorsionLine line
  let key ← lineKey hist l
  let terms := if startsFresh hist key then [l.term] else (T key).getD [] ++ [l.term]
  pure (fun k => if sameClass key k then some terms else T k, hist ++ [⟨key, l.term, l.per⟩])

/-- The dihedral lines of a file, one after another. -/
def specLines (T : TorsionTable) (hist : List TorsionEntry) (lines : List String) :
    Option (TorsionTable × List TorsionEntry) :=
  lines.foldlM (fun acc line => specLine acc.1 acc.2 line) (T, hist)

@[simp] theorem latestOfClass_nil (k : TorsionKey) : latestOfClass [] k = none := rfl

theorem latestOfClass_append (hist : List TorsionEntry) (e : TorsionEntry) (k : TorsionKey) :
    latestOfClass (hist ++ [e]) k = if sameClass e.key k then some e else latestOfClass hist k := by
  unfold latestOfClass
  by_cases h : sameClass e.key k <;> simp [h, List.filter_append]

theorem pendingKey_append (hist : List TorsionEntry) (e : TorsionEntry) :
    pendingKey (hist ++ [e]) = if e.per < 0 then some e.key else none := by
  simp [pendingKey]

/-! ## The torsion table of a parameter set -/

/-- The term list a parameter set holds under a key. -/
def torsionList (s : AmberParameterSet) (k : TorsionKey) : Option (List DihedralType) :=
  (s.dihedralTypes.get? k).bind fun h => s.dihedralObjects[h]?

/-- No object is held by keys of two key classes. -/
def UniqueHandles (d : Dict TorsionKey Nat) : Prop :=
  ∀ k k' h, d.get? k = some h → d.get? k' = some h → sameClass k k'

/-- The torsion table's handles: both orientations of a key share one object, which no key of
another class holds. -/
structure TorsionHandles (s : AmberParameterSet) : Prop where
  paired : Paired TorsionKey.reverse s.dihedralTypes s.dihedralObjects.length
  unique : UniqueHandles s.dihedralTypes

theorem sameClass_of_sameClass {k k₁ k₂ : TorsionKey} (h₁ : sameClass k k₁)
    (h₂ : sameClass k k₂) : sameClass k₁ k₂ := by
  rcases h₁ with rfl | rfl <;> rcases h₂ with rfl | rfl <;> simp [sameClass]

/-- A fresh term list is held by the keys of its class. -/
theorem setDihedral_handle (s : AmberParameterSet) (k k' : TorsionKey) (t : DihedralType) :
    (s.setDihedral k k.reverse t).dihedralTypes.get? k' =
      if sameClass k k' then some s.dihedralObjects.length else s.dihedralTypes.get? k' := by
  simp only [AmberParameterSet.setDihedral_dihedralTypes, Dict.get?_insert, sameClass]
  by_cases h₁ : k' = k.reverse <;> by_cases h₂ : k' = k <;> simp [h₁, h₂]

theorem TorsionHandles.fresh {s : AmberParameterSet} (hs : TorsionHandles s) (k : TorsionKey) :
    s.dihedralTypes.get? k ≠ some s.dihedralObjects.length :=
  fun h => Nat.lt_irrefl _ (hs.paired.lt k _ h)

theorem TorsionHandles.setDihedral {s : AmberParameterSet} (hs : TorsionHandles s)
    (k : TorsionKey) (t : DihedralType) : TorsionHandles (s.setDihedral k k.reverse t) := by
  refine ⟨hs.paired.insert_pair TorsionKey.reverse_reverse k [t], fun k₁ k₂ h h₁ h₂ => ?_⟩
  rw [setDihedral_handle] at h₁ h₂
  split_ifs at h₁ h₂ with c₁ c₂ c₂
  · exact sameClass_of_sameClass c₁ c₂
  · cases h₁; exact absurd h₂ (hs.fresh k₂)
  · cases h₂; exact absurd h₁ (hs.fresh k₁)
  · exact hs.unique k₁ k₂ h h₁ h₂

theorem TorsionHandles.appendDihedral {s : AmberParameterSet} (hs : TorsionHandles s) (h : Nat)
    (t : DihedralType) : TorsionHandles (s.appendDihedral h t) :=
  ⟨by simpa using hs.paired, hs.unique⟩

theorem torsionHandles_stable : Stable TorsionHandles where
  atomTypes _ _ h := ⟨h.1, h.2⟩
  bond _ _ _ _ h := ⟨h.1, h.2⟩
  angle _ _ _ _ _ h := ⟨h.1, h.2⟩
  improper _ _ _ _ _ _ h := ⟨h.1, h.2⟩
  nbfix _ _ _ h := ⟨h.1, h.2⟩
  titles _ _ h := ⟨h.1, h.2⟩
  warn _ _ _ _ h := ⟨h.1, h.2⟩
  dihedral _ k t h := h.setDihedral k t
  append _ h' t h := h.appendDihedral h' t

/-- After any sequence of loads from a new parameter set, whether or not a load raised part
way, both orientations of a torsion key hold one term list and keys of different classes
never share one, so that appending a term through one key changes no other class. -/
theorem loadAll_torsionHandles (pt : PeriodicTable) (fs : List (List String)) :
    TorsionHandles (loadAll pt fs AmberParameterSet.new) :=
  loadAll_stable torsionHandles_stable pt fs ⟨paired_empty _ _, fun _ _ _ h => nomatch h⟩

/-- A fresh term list replaces the lists of its class. -/
theorem torsionList_setDihedral {s : AmberParameterSet} (hs : TorsionHandles s)
    (k : TorsionKey) (t : DihedralType) (k' : TorsionKey) :
    torsionList (s.setDihedral k k.reverse t) k' =
      if sameClass k k' then some [t] else torsionList s k' := by
  unfold torsionList
  rw [setDihedral_handle, AmberParameterSet.setDihedral_dihedralObjects]
  split_ifs
  · simp
  · cases hk : s.dihedralTypes.get? k' with
    | none => rfl
    | some h => simp [List.getElem?_append_left (hs.paired.lt k' h hk)]

/-- A term appended to the object of `k` extends the lists of `k`'s class, and only those. -/
theorem torsionList_appendDihedral {s : AmberParameterSet} (hs : TorsionHandles s)
    {k : TorsionKey} {h : Nat} (hk : s.dihedralTypes.get? k = some h) (t : DihedralType)
    (k' : TorsionKey) :
    torsionList (s.appendDihedral h t) k' =
      if sameClass k k' then (torsionList s k).map (· ++ [t]) else torsionList s k' := by
  unfold torsionList
  simp only [AmberParameterSet.appendDihedral_dihedralTypes,
    AmberParameterSet.appendDihedral_dihedralObjects]
  split_ifs with c
  · have hk' : s.dihedralTypes.get? k' = some h := by
      rcases c with rfl | rfl
      exacts [hk, hs.paired.reverse k h hk]
    simp [hk, hk']
  · cases hk' : s.dihedralTypes.get? k' with
    | none => rfl
    | some h' =>
      have hne : h ≠ h' := fun e => c (hs.unique k k' h hk (e ▸ hk'))
      simpa using List.getElem?_modify_ne _ _ hne

/-! ## The simulation -/

/-- What the torsion table of a parameter set is made of. -/
def torsionPart (s : AmberParameterSet) : Dict TorsionKey Nat × List (List DihedralType) :=
  (s.dihedralTypes, s.dihedralObjects)

/-- Every update but a torsion's leaves the torsion table alone. -/
theorem otherStable_torsionPart (c : Dict TorsionKey Nat × List (List DihedralType)) :
    OtherStable fun s => torsionPart s = c where
  atomTypes _ _ h := h
  bond _ _ _ _ h := h
  angle _ _ _ _ _ h := h
  improper _ _ _ _ _ _ h := h
  nbfix _ _ _ h := h
  titles _ _ h := h
  warn _ _ _ _ h := h

/-- The parameter set holds the protocol's table `T`, in term lists shared by both
orientations. -/
structure TableSim (T : TorsionTable) (s : AmberParameterSet) : Prop where
  table : ∀ k, torsionList s k = T k
  handles : TorsionHandles s

/-- Part way through a file whose dihedral lines so far are `hist`: the table,
`finished_diheds` as the latest line of each class left it, the pending key, and a term list for
every class the file has touched. -/
structure TorsionSim (T : TorsionTable) (hist : List TorsionEntry) (s : AmberParameterSet)
    (fin : Dict TorsionKey Bool) (key : Option TorsionKey) extends TableSim T s : Prop where
  finished : ∀ k, fin.get? k = (latestOfClass hist k).map fun e => decide (0 ≤ e.per)
  pending : key = pendingKey hist
  touched : ∀ k, (latestOfClass hist k).isSome → (T k).isSome

variable {T : TorsionTable} {hist : List TorsionEntry} {s s' : AmberParameterSet}
  {fin : Dict TorsionKey Bool} {key : Option TorsionKey}

theorem TableSim.congr (h : TableSim T s) (hs : torsionPart s' = torsionPart s) :
    TableSim T s' := by
  obtain ⟨h₁, h₂⟩ := Prod.mk.inj hs
  refine ⟨fun k => ?_, ?_, ?_⟩
  · rw [← h.table k]
    simp only [torsionList, h₁, h₂]
  · rw [h₁, h₂]; exact h.handles.paired
  · rw [h₁]; exact h.handles.unique

theorem TorsionSim.congr (h : TorsionSim T hist s fin key) (hs : torsionPart s' = torsionPart s) :
    TorsionSim T hist s' fin key :=
  ⟨h.toTableSim.congr hs, h.finished, h.pending, h.touched⟩

theorem tableSim_new : TableSim (fun _ => none) AmberParameterSet.new :=
  ⟨fun _ => rfl, paired_empty _ _, fun _ _ _ h => nomatch h⟩

/-- A file starts with an empty `finished_diheds`, no pending key and no lines. -/
theorem TableSim.start (h : TableSim T s) : TorsionSim T [] s {} none :=
  ⟨h, fun _ => rfl, rfl, fun _ h => by simp at h⟩

theorem TorsionSim.isFinished_eq (h : TorsionSim T hist s fin key) (k : TorsionKey) :
    isFinished fin k = startsFresh hist k := by
  rw [isFinished, h.finished k, startsFresh]
  cases latestOfClass hist k <;> rfl

/-! ## One dihedral line -/

/-- The key `_process_dihedral_line` adds a term to: the line's own atom types or the pending
key. Only a warning is recorded. -/
theorem dihedralKey_spec (line : String) (fin : Dict TorsionKey Bool) (key : Option TorsionKey)
    (c : Dict TorsionKey Nat × List (List DihedralType)) :
    Triple (fun s => torsionPart s = c) (dihedralKey line fin key)
      (fun r => ∃ own, dihedralFields line = some (own, r.2) ∧ (own <|> key) = some r.1)
      (fun _ => True) := by
  unfold dihedralKey
  split
  · exact Triple.throw trivial
  · next _ k hre =>
    split
    · next div kk phi per h2 =>
      have hf : dihedralFields line = some (none, [div, kk, phi, per]) := by
        simp [dihedralFields, hre, h2]
      dsimp only
      split
      · exact Triple.throw_bind trivial
      refine Triple.bind Triple.skip fun _ _ => ?_
      split
      · exact Triple.throw_bind trivial
      · exact Triple.bind Triple.skip fun _ _ => Triple.pure ⟨none, hf, rfl⟩
    · exact Triple.throw trivial
  · rename_i a1 a2 a3 a4 div kk phi per hre
    have hf : dihedralFields line =
        some (some (strip a1, strip a2, strip a3, strip a4), [div, kk, phi, per]) := by
      simp [dihedralFields, hre]
    dsimp only
    split
    · split
      · exact Triple.bind (Triple.modify fun _ h => h) fun _ _ => Triple.pure ⟨_, hf, rfl⟩
      · exact Triple.bind Triple.skip fun _ _ => Triple.pure ⟨_, hf, rfl⟩
    · exact Triple.bind Triple.skip fun _ _ => Triple.pure ⟨_, hf, rfl⟩
  · exact Triple.throw trivial

/-- What a `_process_dihedral_line` that returned did: found the key and read the term, then
started a fresh list or appended to the key's object, and recorded the class as finished or
not. -/
theorem processDihedralLine_ok {line : String} {fin' : Dict TorsionKey Bool}
    {key' : Option TorsionKey}
    (h : (processDihedralLine line fin key).run s = .ok (fin', key') s') :
    ∃ k fields s₁ typ per, (dihedralKey line fin key).run s = .ok (k, fields) s₁ ∧
      readTerm fields line = .ok (typ, per) ∧
      (if isFinished fin k then s' = s₁.setDihedral k k.reverse typ
        else ∃ h, s₁.dihedralTypes.get? k = some h ∧ s' = s₁.appendDihedral h typ) ∧
      fin' = (fin.insert k (decide (0 ≤ per))).insert k.reverse (decide (0 ≤ per)) ∧
      key' = if per < 0 then some k else none := by
  unfold processDihedralLine at h
  obtain ⟨⟨k, fields⟩, s₁, h₁, h⟩ := run_bind_eq_ok h
  dsimp only at h
  obtain ⟨⟨typ, per⟩, s₂, h₂, h⟩ := run_bind_eq_ok h
  obtain ⟨h₂, hs₂⟩ := run_ofExcept_eq_ok h₂
  rw [hs₂] at h
  refine ⟨k, fields, s₁, typ, per, h₁, h₂, ?_⟩
  split at h
  · next hfin =>
    cases h
    exact ⟨by rw [if_pos hfin], rfl, rfl⟩
  · next hfin =>
    obtain ⟨_, _, hget, h⟩ := run_bind_eq_ok h
    cases hget
    split at h
    · next hh hk =>
      cases h
      exact ⟨by rw [if_neg hfin]; exact ⟨hh, hk, rfl⟩, rfl, rfl⟩
    · cases h

/-- The terms a line leaves on its key: a fresh list, or the old one extended. -/
theorem torsionList_processed (hsim : TorsionSim T hist s fin key) {k : TorsionKey}
    {typ : DihedralType}
    (hupd : if isFinished fin k then s' = s.setDihedral k k.reverse typ
      else ∃ h, s.dihedralTypes.get? k = some h ∧ s' = s.appendDihedral h typ) (k' : TorsionKey) :
    torsionList s' k' = if sameClass k k' then
      some (if startsFresh hist k then [typ] else (T k).getD [] ++ [typ]) else T k' := by
  rw [← hsim.isFinished_eq]
  by_cases hfin : isFinished fin k = true
  · rw [if_pos hfin] at hupd
    rw [hupd, torsionList_setDihedral hsim.handles, hsim.table, if_pos hfin]
  · rw [if_neg hfin] at hupd
    obtain ⟨h, hk, rfl⟩ := hupd
    have : (latestOfClass hist k).isSome := by
      rw [hsim.isFinished_eq, startsFresh] at hfin
      split at hfin <;> simp_all
    obtain ⟨ts, hts⟩ := Option.isSome_iff_exists.1 (hsim.touched k this)
    simp only [torsionList_appendDihedral hsim.handles hk, hsim.table, hts, hfin]
    rfl

/-- **Step lemma.** A dihedral line that `_process_dihedral_line` accepts is one the protocol
accepts, and the simulation moves on by it. -/
theorem processDihedralLine_sim {line : String} {fin' : Dict TorsionKey Bool}
    {key' : Option TorsionKey} (hsim : TorsionSim T hist s fin key)
    (h : (processDihedralLine line fin key).run s = .ok (fin', key') s') :
    ∃ T' hist', specLine T hist line = some (T', hist') ∧ TorsionSim T' hist' s' fin' key' := by
  obtain ⟨k, fields, s₁, typ, per, h₁, h₂, hupd, rfl, rfl⟩ := processDihedralLine_ok h
  obtain ⟨⟨own, hf, hown⟩, hs₁⟩ :=
    Triple.of_run_ok (dihedralKey_spec line fin key (torsionPart s)) rfl h₁
  have hsim₁ := hsim.congr hs₁
  have hread : readTorsionLine line = some ⟨own, typ, per⟩ := by
    simp [readTorsionLine, hf, h₂, Except.toOption]
  have hkey : lineKey hist ⟨own, typ, per⟩ = some k := by
    rw [lineKey, ← hsim.pending]
    exact hown
  refine ⟨fun k' => if sameClass k k' then
      some (if startsFresh hist k then [typ] else (T k).getD [] ++ [typ]) else T k',
    hist ++ [⟨k, typ, per⟩], by simp [specLine, hread, hkey], ?_⟩
  refine ⟨⟨torsionList_processed hsim₁ hupd, ?_⟩, fun k' => ?_,
    (pendingKey_append hist ⟨k, typ, per⟩).symm, fun k' hk' => ?_⟩
  · split_ifs at hupd
    · exact hupd ▸ hsim₁.handles.setDihedral _ _
    · obtain ⟨h, _, rfl⟩ := hupd
      exact hsim₁.handles.appendDihedral _ _
  · rw [latestOfClass_append, Dict.get?_insert, Dict.get?_insert, hsim.finished]
    by_cases h₁ : k' = k.reverse <;> by_cases h₂ : k' = k <;> simp [sameClass, h₁, h₂]
  · rw [latestOfClass_append] at hk'
    by_cases hc : sameClass k k'
    · simp [hc]
    · simp only [hc, if_false] at hk' ⊢
      exact hsim.touched k' hk'

theorem readTorsionLine_fields {line : String} {l : TorsionLine}
    (hl : readTorsionLine line = some l) :
    ∃ fields, dihedralFields line = some (l.key, fields) :=
  let ⟨_, _, _, _, hf, _⟩ := readTorsionLine_spec hl
  ⟨_, hf⟩

/-- A line without atom types leaves `dihedre` unmatched. -/
theorem dihedre_of_fields {line : String} {fields : List String}
    (h : dihedralFields line = some (none, fields)) : dihedre.reMatch line = none := by
  unfold dihedralFields at h
  split at h
  · cases h
  · cases h
  · assumption

/-- The key a term announced is recorded as unfinished. -/
theorem TorsionSim.pending_unfinished (hsim : TorsionSim T hist s fin key) {k : TorsionKey}
    (hk : pendingKey hist = some k) : fin.get? k = some false := by
  cases hl : hist.getLast? with
  | none => simp [pendingKey, hl] at hk
  | some e =>
    by_cases hneg : e.per < 0
    · simp only [pendingKey, hl, hneg, if_true, Option.some.injEq] at hk
      subst hk
      rw [hsim.finished, ← List.dropLast_append_getLast? e hl, latestOfClass_append]
      simp [sameClass, hneg]
    · simp [pendingKey, hl, hneg] at hk

/-- `_process_dihedral_line` finds the key of every line the protocol gives a key. -/
theorem dihedralKey_returns (hsim : TorsionSim T hist s fin key) {line : String}
    {l : TorsionLine} (hl : readTorsionLine line = some l) {k : TorsionKey}
    (hk : lineKey hist l = some k) : ∃ fields s₁, (dihedralKey line fin key).run s = .ok (k, fields) s₁ := by
  obtain ⟨fields, hf⟩ := readTorsionLine_fields hl
  unfold dihedralKey
  unfold dihedralFields at hf
  cases hre : dihedre.reMatch line with
  | some gs =>
    rw [hre] at hf
    match gs, hf with
    | [a1, a2, a3, a4, div, kk, phi, per], hf =>
      simp only [Option.some.injEq, Prod.mk.injEq] at hf
      obtain ⟨hkey, rfl⟩ := hf
      rw [lineKey, ← hkey] at hk
      cases hk
      dsimp only
      cases key with
      | none => exact ⟨_, _, rfl⟩
      | some last =>
        dsimp only
        split
        · exact ⟨_, _, rfl⟩
        · exact ⟨_, _, rfl⟩
  | none =>
    rw [hre] at hf
    dsimp only at hf
    split at hf
    · next div kk phi per h2 =>
      simp only [Option.some.injEq, Prod.mk.injEq] at hf
      obtain ⟨hkey, rfl⟩ := hf
      rw [lineKey, ← hkey] at hk
      have hfin := hsim.pending_unfinished hk
      rw [← hsim.pending] at hk
      subst hk
      simp only [h2, Dict.contains, hfin, isFinished]
      exact ⟨_, _, rfl⟩
    · cases hf

/-- An unfinished key has a term list to append to. -/
theorem TorsionSim.handle_of_unfinished (hsim : TorsionSim T hist s fin key) {k : TorsionKey}
    (hfin : isFinished fin k = false) : ∃ h, s.dihedralTypes.get? k = some h := by
  have hlatest : (latestOfClass hist k).isSome := by
    rw [hsim.isFinished_eq, startsFresh] at hfin
    split at hfin <;> simp_all
  have ht := hsim.touched k hlatest
  rw [← hsim.table k, torsionList] at ht
  cases hh : s.dihedralTypes.get? k with
  | none => simp [hh] at ht
  | some h => exact ⟨h, rfl⟩

/-- **Progress.** `_process_dihedral_line` returns on every line the protocol accepts, and the
simulation moves on by it: with `processDihedralLine_sim`, the code accepts exactly the lines
the protocol accepts. -/
theorem processDihedralLine_returns {line : String} {T' : TorsionTable}
    {hist' : List TorsionEntry} (hsim : TorsionSim T hist s fin key)
    (h : specLine T hist line = some (T', hist')) :
    ∃ fin' key' s', (processDihedralLine line fin key).run s = .ok (fin', key') s' ∧
      TorsionSim T' hist' s' fin' key' := by
  obtain ⟨l, hl, k, hk⟩ : ∃ l, readTorsionLine line = some l ∧ ∃ k, lineKey hist l = some k := by
    cases hl : readTorsionLine line with
    | none => simp [specLine, hl] at h
    | some l =>
      cases hk : lineKey hist l with
      | none => simp [specLine, hl, hk] at h
      | some k => exact ⟨l, rfl, k, hk⟩
  obtain ⟨fields, s₁, h₁⟩ := dihedralKey_returns hsim hl hk
  obtain ⟨⟨own, hf, -⟩, hs₁⟩ :=
    Triple.of_run_ok (dihedralKey_spec line fin key (torsionPart s)) rfl h₁
  have hterm : readTerm fields line = .ok (l.term, l.per) := by
    cases ht : readTerm fields line with
    | error e => simp [readTorsionLine, hf, ht, Except.toOption] at hl
    | ok r => simp [readTorsionLine, hf, ht, Except.toOption] at hl; rw [← hl]
  obtain ⟨fin', key', s', hrun⟩ : ∃ fin' key' s',
      (processDihedralLine line fin key).run s = .ok (fin', key') s' := by
    unfold processDihedralLine
    rw [run_bind_of_ok h₁]
    dsimp only
    rw [hterm, run_bind_of_ok (run_ofExcept_ok _ _)]
    dsimp only
    by_cases hfin : isFinished fin k = true
    · simp only [hfin, if_true]
      exact ⟨_, _, _, rfl⟩
    · obtain ⟨hh, hget⟩ := (hsim.congr hs₁).handle_of_unfinished (Bool.eq_false_iff.2 hfin)
      simp only [Bool.eq_false_iff.2 hfin, Bool.false_eq_true, if_false]
      rw [run_bind_of_ok (rfl : (get : ParmM AmberParameterSet).run s₁ = .ok s₁ s₁), hget]
      exact ⟨_, _, _, rfl⟩
  obtain ⟨T'', hist'', hspec, hsim'⟩ := processDihedralLine_sim hsim hrun
  obtain ⟨rfl, rfl⟩ := Prod.mk.inj (Option.some.inj (h.symm.trans hspec))
  exact ⟨fin', key', s', hrun, hsim'⟩

/-- **The code accepts the lines the protocol accepts.** From any state the simulation ties to
the protocol, `_process_dihedral_line` returns on a line exactly when the protocol accepts it. -/
theorem processDihedralLine_returns_iff {line : String} (hsim : TorsionSim T hist s fin key) :
    (∃ r s', (processDihedralLine line fin key).run s = .ok r s') ↔
      (specLine T hist line).isSome := by
  constructor
  · rintro ⟨⟨fin', key'⟩, s', h⟩
    obtain ⟨T', hist', hspec, -⟩ := processDihedralLine_sim hsim h
    simp [hspec]
  · intro h
    obtain ⟨⟨T', hist'⟩, hspec⟩ := Option.isSome_iff_exists.1 h
    obtain ⟨fin', key', s', hrun, -⟩ := processDihedralLine_returns hsim hspec
    exact ⟨_, _, hrun⟩

section Evaluation

attribute [local semireducible] Rat.ofScientific Rat.mul Rat.inv Rat.add Rat.sub

/-- The first line of a file, on a new parameter set; and a term without atom types after a
first line that announced another term. -/
theorem first_dihedral_line_accepted_iff :
    TorsionSim (fun _ => none) [] AmberParameterSet.new {} none ∧
      ((∃ r s', (processDihedralLine "A -B -C -D   1   1.0   0.0   2.0" {} none).run
          AmberParameterSet.new = .ok r s') ↔
        (specLine (fun _ => none) [] "A -B -C -D   1   1.0   0.0   2.0").isSome) ∧
      ∃ fin key s, (processDihedralLine "A -B -C -D   1   1.0   0.0  -2.0" {} none).run
          AmberParameterSet.new = .ok (fin, key) s ∧ key = some ("A", "B", "C", "D") ∧
        ∃ T hist, TorsionSim T hist s fin key ∧
          ((∃ r s', (processDihedralLine "   1   0.5   180.0   1.0" fin key).run s = .ok r s') ↔
            (specLine T hist "   1   0.5   180.0   1.0").isSome) := by
  obtain ⟨fin, key, s, hrun, hkey⟩ : ∃ fin key s,
      (processDihedralLine "A -B -C -D   1   1.0   0.0  -2.0" {} none).run
        AmberParameterSet.new = .ok (fin, key) s ∧ key = some ("A", "B", "C", "D") :=
    ⟨_, _, _, rfl, rfl⟩
  obtain ⟨T, hist, -, hsim⟩ := processDihedralLine_sim tableSim_new.start hrun
  exact ⟨tableSim_new.start, processDihedralLine_returns_iff tableSim_new.start,
    fin, key, s, hrun, hkey, T, hist, hsim, processDihedralLine_returns_iff hsim⟩

end Evaluation

/-! ## The frcmod layout -/

/-- The section `_parse_frcmod` is in after a line: a header line switches it. -/
def frcmodSection (sec : Option Section) (raw : String) : Option Section :=
  if (rstrip raw).isEmpty then sec
  else match frcmodHeader (rstrip raw) with
    | some sec' => some sec'
    | none => sec

/-- A line of an frcmod file in section `sec`, as a dihedral line of the file if it is one. -/
def frcmodDihedralLine (sec : Option Section) (raw : String) : List String :=
  if !(rstrip raw).isEmpty ∧ frcmodHeader (rstrip raw) = none ∧ sec = some .dihedral then
    [rstrip raw]
  else []

/-- The dihedral lines of an frcmod file from section `sec` on: the lines of all its `DIHE`
sections in order. -/
def frcmodDihedralLines : Option Section → List String → List String
  | _, [] => []
  | sec, raw :: rest =>
    frcmodDihedralLine sec raw ++ frcmodDihedralLines (frcmodSection sec raw) rest

/-- A handler that keeps the torsion table, whatever the table is. -/
def KeepsTorsions {α : Type} (x : ParmM α) : Prop :=
  ∀ c, Triple (fun s => torsionPart s = c) x (fun _ => True) NotAssertion

theorem KeepsTorsions.sim {α : Type} {x : ParmM α} {a : α} (hx : KeepsTorsions x)
    (hsim : TorsionSim T hist s fin key) (h : x.run s = .ok a s') : TorsionSim T hist s' fin key :=
  hsim.congr (Triple.of_run_ok (hx _) rfl h).2

@[simp] theorem specLines_nil (T : TorsionTable) (hist : List TorsionEntry) :
    specLines T hist [] = some (T, hist) := rfl

theorem specLines_append (T : TorsionTable) (hist : List TorsionEntry) (l₁ l₂ : List String) :
    specLines T hist (l₁ ++ l₂) = (specLines T hist l₁).bind fun r => specLines r.1 r.2 l₂ := by
  simp [specLines, List.foldlM_append]

theorem specLines_cons (T : TorsionTable) (hist : List TorsionEntry) (l : String)
    (ls : List String) :
    specLines T hist (l :: ls) = (specLine T hist l).bind fun r => specLines r.1 r.2 ls := rfl

theorem specLines_singleton (T : TorsionTable) (hist : List TorsionEntry) (l : String) :
    specLines T hist [l] = specLine T hist l := by
  simp [specLines]

/-- **Step lemma.** One line of `_parse_frcmod` that returned: the section it leaves, and the
simulation moved on by the line if it is a dihedral line. -/
theorem frcmodLine_sim (pt : PeriodicTable) {loop loop' : FrcmodLoop} {raw : String}
    (hsim : TorsionSim T hist s loop.finished loop.key)
    (h : (frcmodLine pt loop raw).run s = .ok loop' s') :
    loop'.sec = frcmodSection loop.sec raw ∧ ∃ T' hist',
      specLines T hist (frcmodDihedralLine loop.sec raw) = some (T', hist') ∧
      TorsionSim T' hist' s' loop'.finished loop'.key := by
  unfold frcmodLine at h
  dsimp only at h
  split at h
  · next he =>
    cases h
    exact ⟨by simp [frcmodSection, he], T, hist, by simp [frcmodDihedralLine, he], hsim⟩
  next he =>
  split at h
  · next sec' hhd =>
    cases h
    exact ⟨by simp [frcmodSection, he, hhd], T, hist, by simp [frcmodDihedralLine, hhd], hsim⟩
  next hhd =>
  have hhd' : frcmodHeader (rstrip raw) = none := Option.eq_none_iff_forall_not_mem.2 hhd
  rw [show frcmodSection loop.sec raw = loop.sec by simp [frcmodSection, he, hhd'],
    show frcmodDihedralLine loop.sec raw =
      if loop.sec = some .dihedral then [rstrip raw] else [] by simp [frcmodDihedralLine, he, hhd']]
  simp only [run_pure_bind] at h
  have other : ∀ {x : ParmM Unit}, KeepsTorsions x → loop.sec ≠ some .dihedral →
      (x >>= fun _ => pure loop).run s = .ok loop' s' → loop'.sec = loop.sec ∧ ∃ T' hist',
        specLines T hist (if loop.sec = some .dihedral then [rstrip raw] else []) =
          some (T', hist') ∧ TorsionSim T' hist' s' loop'.finished loop'.key := by
    intro x hx hne h
    obtain ⟨_, s₁, h₁, h⟩ := run_bind_eq_ok h
    cases h
    exact ⟨rfl, T, hist, by simp [hne], hx.sim hsim h₁⟩
  split at h
  · next hs =>
    exact other (fun _ => processMassLine_triple (otherStable_torsionPart _) pt _) (by simp [hs]) h
  · next hs =>
    exact other (fun _ => processBondLine_triple (otherStable_torsionPart _) _) (by simp [hs]) h
  · next hs =>
    exact other (fun _ => processAngleLine_triple (otherStable_torsionPart _) _) (by simp [hs]) h
  · next hs =>
    obtain ⟨⟨fin', key'⟩, s₁, h₁, h⟩ := run_bind_eq_ok h
    cases h
    obtain ⟨T', hist', hspec, hsim'⟩ := processDihedralLine_sim hsim h₁
    exact ⟨rfl, T', hist', by rw [if_pos hs, specLines_singleton, hspec], hsim'⟩
  · next hs =>
    exact other (fun _ => processImproperLine_triple (otherStable_torsionPart _) _) (by simp [hs]) h
  · next hs =>
    exact other (fun _ => processNonbondLine_triple (otherStable_torsionPart _) _) (by simp [hs]) h
  · next hs =>
    exact other (fun _ => processNbfixLine_triple (otherStable_torsionPart _) _ _) (by simp [hs]) h
  · next hs =>
    cases h
    exact ⟨rfl, T, hist, by simp [hs], hsim⟩

/-- **Run lemma.** The frcmod loop, when it returns, moves the simulation on by the dihedral
lines of the lines it read. -/
theorem frcmodLines_sim (pt : PeriodicTable) (lines : List String) {loop loop' : FrcmodLoop}
    (hsim : TorsionSim T hist s loop.finished loop.key)
    (h : (lines.foldlM (frcmodLine pt) loop).run s = .ok loop' s') :
    ∃ T' hist', specLines T hist (frcmodDihedralLines loop.sec lines) = some (T', hist') ∧
      TorsionSim T' hist' s' loop'.finished loop'.key := by
  induction lines generalizing T hist s loop with
  | nil => cases h; exact ⟨T, hist, rfl, hsim⟩
  | cons raw rest ih =>
    rw [List.foldlM_cons] at h
    obtain ⟨loop₁, s₁, h₁, h⟩ := run_bind_eq_ok h
    obtain ⟨hsec, T₁, hist₁, hspec₁, hsim₁⟩ := frcmodLine_sim pt hsim h₁
    obtain ⟨T', hist', hspec, hsim'⟩ := ih hsim₁ h
    refine ⟨T', hist', ?_, hsim'⟩
    rw [frcmodDihedralLines, specLines_append, hspec₁, ← hsec]
    exact hspec

/-- A dihedral line in the `DIHE` section of an frcmod file: not blank once `rstrip()`ed, and no
section header. -/
def DihedralRaw (raw : String) : Prop :=
  (rstrip raw).isEmpty = false ∧ frcmodHeader (rstrip raw) = none

/-- **Progress** of `_parse_frcmod` in its `DIHE` section. -/
theorem frcmodLine_returns (pt : PeriodicTable) {loop : FrcmodLoop} {raw : String}
    {T' : TorsionTable} {hist' : List TorsionEntry} (hsec : loop.sec = some .dihedral)
    (hraw : DihedralRaw raw) (hsim : TorsionSim T hist s loop.finished loop.key)
    (h : specLine T hist (rstrip raw) = some (T', hist')) :
    ∃ loop' s', (frcmodLine pt loop raw).run s = .ok loop' s' ∧ loop'.sec = some .dihedral ∧
      TorsionSim T' hist' s' loop'.finished loop'.key := by
  obtain ⟨fin', key', s', hrun, hsim'⟩ := processDihedralLine_returns hsim h
  refine ⟨{ loop with finished := fin', key := key' }, s', ?_, hsec, hsim'⟩
  simp only [frcmodLine, hraw.1, hraw.2, hsec, Bool.false_eq_true, if_false, run_pure_bind]
  rw [run_bind_of_ok hrun]
  rfl

/-- **Run lemma.** The frcmod loop returns on dihedral lines of its `DIHE` section that the
protocol accepts, and the simulation moves on by them. -/
theorem frcmodLines_returns (pt : PeriodicTable) {lines : List String} {loop : FrcmodLoop}
    {T' : TorsionTable} {hist' : List TorsionEntry} (hsec : loop.sec = some .dihedral)
    (hraw : ∀ raw ∈ lines, DihedralRaw raw) (hsim : TorsionSim T hist s loop.finished loop.key)
    (h : specLines T hist (lines.map rstrip) = some (T', hist')) :
    ∃ loop' s', (lines.foldlM (frcmodLine pt) loop).run s = .ok loop' s' ∧
      loop'.sec = some .dihedral ∧ TorsionSim T' hist' s' loop'.finished loop'.key := by
  induction lines generalizing T hist s loop with
  | nil => cases h; exact ⟨loop, s, rfl, hsec, hsim⟩
  | cons raw rest ih =>
    rw [List.map_cons, specLines_cons, Option.bind_eq_some] at h
    obtain ⟨⟨T₁, hist₁⟩, h₁, h⟩ := h
    obtain ⟨loop₁, s₁, hrun₁, hsec₁, hsim₁⟩ :=
      frcmodLine_returns pt hsec (hraw raw (List.mem_cons_self _ _)) hsim h₁
    obtain ⟨loop', s', hrun, hsec', hsim'⟩ :=
      ih hsec₁ (fun r hr => hraw r (List.mem_cons_of_mem _ hr)) hsim₁ h
    exact ⟨loop', s', by rw [List.foldlM_cons, run_bind_of_ok hrun₁]; exact hrun, hsec', hsim'⟩

theorem parseFrcmod_sim (pt : PeriodicTable) {line : String} {f : List String}
    (hsim : TableSim T s) (h : (parseFrcmod pt line f).run s = .ok () s') :
    ∃ T' hist', specLines T [] (frcmodDihedralLines none (line :: f)) = some (T', hist') ∧
      TableSim T' s' := by
  obtain ⟨_, s₁, h₁, h⟩ := run_bind_eq_ok h
  cases h
  obtain ⟨T', hist', hspec, hsim'⟩ := frcmodLines_sim pt _ hsim.start h₁
  exact ⟨T', hist', hspec, hsim'.toTableSim⟩

/-! ## The parm.dat layout -/

/-- The lines of a parm.dat section that starts the stream: up to the blank line that ends it,
stripped. -/
def sectionLines (ls : List String) : List String :=
  (ls.takeWhile fun raw => !sectionEnd raw).map strip

/-- The stream after the section that starts it and the blank line that ends it. -/
def afterSection (ls : List String) : List String :=
  (ls.dropWhile fun raw => !sectionEnd raw).drop 1

/-- The stream of a parm.dat file at its torsion section: after the masses, the line of
hydrophilic types, the bonds and the angles. -/
def parmDatDihedralStream (line : String) (f : List String) : List String :=
  afterSection (afterSection ((afterSection (line :: (f ++ [""]))).drop 1))

theorem next_ok {l rest : List String} {x : String}
    (h : (next l).run s = .ok (x, rest) s') : l = x :: rest ∧ s' = s := by
  cases l with
  | nil => cases h
  | cons y ys => cases h; exact ⟨rfl, rfl⟩

/-- A section loop that returned stopped at the blank line that ends its section. -/
theorem sectionLoop_rest {σ : Type} {handle : σ → String → ParmM σ} {acc acc' : σ}
    {raw : String} {rest rest' : List String}
    (h : (sectionLoop handle acc raw rest).run s = .ok (acc', rest') s') :
    rest' = afterSection (raw :: rest) := by
  induction rest generalizing acc raw s with
  | nil =>
    unfold sectionLoop at h
    split at h
    · cases h; simp [afterSection, *]
    · obtain ⟨_, _, _, h⟩ := run_bind_eq_ok h
      cases h
  | cons r rest ih =>
    unfold sectionLoop at h
    split at h
    · cases h; simp [afterSection, *]
    · next hend =>
      obtain ⟨_, _, _, h⟩ := run_bind_eq_ok h
      rw [ih h]
      simp [afterSection, List.dropWhile_cons, hend]

theorem simpleSection_rest {handle : String → ParmM Unit} {raw : String}
    {rest rest' : List String} (h : (simpleSection handle raw rest).run s = .ok rest' s') :
    rest' = afterSection (raw :: rest) := by
  obtain ⟨⟨_, rest₁⟩, _, h₁, h⟩ := run_bind_eq_ok h
  cases h
  exact sectionLoop_rest h₁

/-- The sections before the torsions end at the torsion section of the text. -/
theorem parmDatUpToDihedrals_stream (pt : PeriodicTable) {line raw : String}
    {f rest : List String} (h : (parmDatUpToDihedrals pt line f).run s = .ok (raw, rest) s') :
    raw :: rest = parmDatDihedralStream line f := by
  unfold parmDatUpToDihedrals at h
  obtain ⟨⟨raw₀, rest₀⟩, _, h₀, h⟩ := run_bind_eq_ok h
  obtain ⟨rest₁, _, h₁, h⟩ := run_bind_eq_ok h
  obtain ⟨⟨_, rest₂⟩, _, h₂, h⟩ := run_bind_eq_ok h
  obtain ⟨⟨raw₃, rest₃⟩, _, h₃, h⟩ := run_bind_eq_ok h
  obtain ⟨rest₄, _, h₄, h⟩ := run_bind_eq_ok h
  obtain ⟨⟨raw₅, rest₅⟩, _, h₅, h⟩ := run_bind_eq_ok h
  obtain ⟨rest₆, _, h₆, h⟩ := run_bind_eq_ok h
  dsimp only at *
  rw [parmDatDihedralStream, (next_ok h₀).1, ← simpleSection_rest h₁, (next_ok h₂).1, List.drop_one,
    List.tail_cons, (next_ok h₃).1, ← simpleSection_rest h₄, (next_ok h₅).1,
    ← simpleSection_rest h₆, (next_ok h).1]

/-- **Run lemma.** The torsion section of a parm.dat file, when it returns, moves the
simulation on by the section's lines. -/
theorem dihedralSection_sim {raw : String} {rest rest' : List String}
    {fin' : Dict TorsionKey Bool} {key' : Option TorsionKey} (hsim : TorsionSim T hist s fin key)
    (h : (sectionLoop (fun loop l => processDihedralLine l loop.1 loop.2) (fin, key) raw rest).run
      s = .ok ((fin', key'), rest') s') :
    ∃ T' hist', specLines T hist (sectionLines (raw :: rest)) = some (T', hist') ∧
      TorsionSim T' hist' s' fin' key' := by
  induction rest generalizing T hist s fin key raw with
  | nil =>
    unfold sectionLoop at h
    split at h
    · cases h; exact ⟨T, hist, by simp [sectionLines, *], hsim⟩
    · obtain ⟨_, _, _, h⟩ := run_bind_eq_ok h
      cases h
  | cons r rest ih =>
    unfold sectionLoop at h
    split at h
    · cases h; exact ⟨T, hist, by simp [sectionLines, *], hsim⟩
    · next hend =>
      obtain ⟨⟨fin₁, key₁⟩, s₁, h₁, h⟩ := run_bind_eq_ok h
      obtain ⟨T₁, hist₁, hspec₁, hsim₁⟩ := processDihedralLine_sim hsim h₁
      obtain ⟨T', hist', hspec, hsim'⟩ := ih hsim₁ h
      refine ⟨T', hist', ?_, hsim'⟩
      rw [show sectionLines (raw :: r :: rest) = strip raw :: sectionLines (r :: rest) by
        simp [sectionLines, hend], specLines_cons, hspec₁]
      exact hspec

theorem parseParmDat_sim (pt : PeriodicTable) {line : String} {f : List String}
    (hsim : TableSim T s) (h : (parseParmDat pt line f).run s = .ok () s') :
    ∃ T' hist', specLines T [] (sectionLines (parmDatDihedralStream line f)) = some (T', hist') ∧
      TableSim T' s' := by
  unfold parseParmDat at h
  obtain ⟨⟨raw, rest⟩, s₁, h₁, h⟩ := run_bind_eq_ok h
  obtain ⟨_, s₂, h₂, h₃⟩ := run_bind_eq_ok h
  obtain ⟨⟨⟨fin', key'⟩, _⟩, _, h₄, h₅⟩ := run_bind_eq_ok h₂
  cases h₅
  have before : KeepsTorsions (parmDatUpToDihedrals pt line f) := fun c =>
    parmDatUpToDihedrals_triple (otherStable_torsionPart c) pt line f
  have after : ∀ rest, KeepsTorsions (parmDatFromImpropers rest) := fun _ c =>
    parmDatFromImpropers_triple (otherStable_torsionPart c) _
  obtain ⟨T', hist', hspec, hsim'⟩ := dihedralSection_sim (before.sim hsim.start h₁) h₄
  refine ⟨T', hist', by rw [← parmDatUpToDihedrals_stream pt h₁]; exact hspec, ?_⟩
  exact ((after _).sim hsim' h₃).toTableSim

/-! ## Files -/

/-- The dihedral lines of a file, in the layout `load_parameters` reads it in. -/
def dihedralLines : List String → List String
  | _ :: line :: more =>
    if frcmodLayout line then frcmodDihedralLines none (line :: more)
    else sectionLines (parmDatDihedralStream line more)
  | _ => []

/-- The protocol on one file: its dihedral lines, from an empty history. -/
def specFile (T : TorsionTable) (f : List String) : Option TorsionTable :=
  (specLines T [] (dihedralLines f)).map Prod.fst

/-- The protocol on files read one after another. -/
def specFiles (T : TorsionTable) (fs : List (List String)) : Option TorsionTable :=
  fs.foldlM specFile T

theorem loadParameters_sim (pt : PeriodicTable) {f : List String} (hsim : TableSim T s)
    (h : (loadParameters pt f).run s = .ok () s') :
    ∃ T', specFile T f = some T' ∧ TableSim T' s' := by
  unfold loadParameters at h
  split at h
  · cases h; exact ⟨T, rfl, hsim.congr rfl⟩
  · obtain ⟨_, _, h₁, h⟩ := run_bind_eq_ok h
    cases h₁
    split at h
    · cases h; exact ⟨T, rfl, hsim.congr rfl⟩
    · split at h
      · next hl =>
        obtain ⟨T', hist', hspec, hsim'⟩ := parseFrcmod_sim pt (by exact hsim.congr rfl) h
        exact ⟨T', by simp [specFile, dihedralLines, hl, hspec], hsim'⟩
      · next hl =>
        obtain ⟨T', hist', hspec, hsim'⟩ := parseParmDat_sim pt (by exact hsim.congr rfl) h
        exact ⟨T', by simp [specFile, dihedralLines, hl, hspec], hsim'⟩

/-- **Run lemma.** Files loaded one after another, each returning, hold the protocol's table
on their dihedral lines. -/
theorem loadFiles_sim (pt : PeriodicTable) (fs : List (List String)) (hsim : TableSim T s)
    (h : (fs.forM (loadParameters pt)).run s = .ok () s') :
    ∃ T', specFiles T fs = some T' ∧ TableSim T' s' := by
  induction fs generalizing T s with
  | nil => cases h; exact ⟨T, rfl, hsim⟩
  | cons f fs ih =>
    obtain ⟨_, s₁, h₁, h⟩ := run_bind_eq_ok h
    obtain ⟨T₁, hspec₁, hsim₁⟩ := loadParameters_sim pt hsim h₁
    obtain ⟨T', hspec, hsim'⟩ := ih hsim₁ h
    exact ⟨T', by simp [specFiles, hspec₁]; exact hspec, hsim'⟩

/-- A line the protocol refuses, a term without atom types when none is pending, raises
`ParameterError`. -/
theorem processDihedralLine_rejects {line : String} {l : TorsionLine}
    (hsim : TorsionSim T hist s fin key) (hl : readTorsionLine line = some l)
    (hk : lineKey hist l = none) :
    (processDihedralLine line fin key).run s =
      .error (.parameterError s!"Could not understand DIHEDRAL line [{line}]") s := by
  rw [lineKey, Option.orElse_eq_none] at hk
  obtain ⟨fields, hf⟩ := readTorsionLine_fields hl
  rw [hk.1] at hf
  unfold processDihedralLine dihedralKey
  rw [dihedre_of_fields hf, hsim.pending, hk.2]
  rfl

/-! ## The protocol of `load_parameters` -/

/-- **The dihedral continuation protocol.** `load_parameters` never raises `AssertionError`; a
term without atom types when no term is pending raises `ParameterError`; and files loaded one
after another from a new parameter set, each returning, hold under every key the term list
the protocol gives their dihedral lines. -/
theorem loadParameters_dihedral_continuation (pt : PeriodicTable) :
    (∀ f s e s', (loadParameters pt f).run s = .error e s' → ¬ e.IsAssertion) ∧
    (∀ T hist s fin key line l, TorsionSim T hist s fin key → readTorsionLine line = some l →
      lineKey hist l = none → (processDihedralLine line fin key).run s =
        .error (.parameterError s!"Could not understand DIHEDRAL line [{line}]") s) ∧
    ∀ fs s, (fs.forM (loadParameters pt)).run AmberParameterSet.new = .ok () s →
      ∃ T, specFiles (fun _ => none) fs = some T ∧ ∀ k, torsionList s k = T k :=
  ⟨fun f _ _ _ h => loadParameters_notAssertion pt f h,
    fun _ _ _ _ _ _ _ hsim hl hk => processDihedralLine_rejects hsim hl hk,
    fun fs _ h =>
      let ⟨T, hT, hsim⟩ := loadFiles_sim pt fs tableSim_new h
      ⟨T, hT, hsim.table⟩⟩

section Evaluation

attribute [local semireducible] Rat.ofScientific Rat.mul Rat.inv Rat.add Rat.sub

/-- A torsion of three terms, the last with its key reversed, read from one frcmod file. -/
theorem three_term_torsion_follows_protocol (pt : PeriodicTable) :
    let f := ["t", "DIHE", "A -B -C -D   1   1.0   0.0  -3.0",
      "D -C -B -A   1   2.0   0.0  -2.0", "A -B -C -D   1   3.0   0.0   1.0"]
    ∃ s, ([f].forM (loadParameters pt)).run AmberParameterSet.new = .ok () s ∧
      ∃ T, specFiles (fun _ => none) [f] = some T ∧ ∀ k, torsionList s k = T k :=
  ⟨_, rfl, (loadParameters_dihedral_continuation pt).2.2 _ _ rfl⟩

end Evaluation

end ParmEd.Amber
