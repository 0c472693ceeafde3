import ParmEd.Amber.PrintedLines
import ParmEd.Amber.Continuation

/-!
# Reading back the torsions `write` prints

`write` prints each term of a torsion with `write_dtype`, every term but the last with its
periodicity negated to announce another term (`cont = -1`), and `_parse_frcmod` reads the lines
of its `DIHE` section with `_process_dihedral_line`.

* One line. For type names of at most two characters without whitespace (`ShortType`) and a
  term whose fields are printed without rounding (`PrintsExactly`), `_dihedre`, `_sceere` and
  `_scnbre` give back the four types, the term and the periodicity `cont * per`
  (`readTorsionLine_dtypeLine`), and `rstrip()` gives back the printed line
  (`dihedralRaw_dtypeLine`).
* The protocol. From a state in which the torsion's class starts fresh, the lines of its terms
  leave the class holding `readBackTerms [] ts.dropLast` and the last term
  (`specLines_dihedralListLines`, from the step lemma `specLine_dtypeLine`). A continued term of
  periodicity zero is printed as `-0.0`, which reads as a periodicity `≥ 0`: it announces no
  further term, and the term after it starts a new list.
* The code. `_parse_frcmod` returns on those lines and stores that list
  (`frcmodLines_written_torsion`, through `frcmodLines_returns`), which is the torsion written
  exactly when no term but the last has periodicity zero (`frcmod_reads_written_torsion`).
-/

namespace ParmEd.Amber

open ParmEd.Python

/-! ## The lines of a torsion -/

/-- A type name `write` prints so that `_dihedre` reads it back: at most two characters, none of
them whitespace. -/
def ShortType (a : String) : Prop := a.length ≤ 2 ∧ ∀ c ∈ a.data, isSpace c = false

/-- The term a line printed with the continuation sign `cont` reads as. -/
def printedTerm (cont : Int) (t : DihedralType) : DihedralType :=
  ⟨t.phiK, |cont * t.per|, t.phase, t.scee, t.scnb⟩

theorem printedTerm_eq {t : DihedralType} (hper : 0 ≤ t.per) {cont : Int}
    (hc : cont = 1 ∨ cont = -1) : printedTerm cont t = t := by
  rcases hc with rfl | rfl <;> simp [printedTerm, abs_of_nonneg hper]

/-- The lines `write` prints for the terms `ts` of one torsion, without their newlines: every
term but the last with its periodicity negated. -/
def dihedralListLines (a1 a2 a3 a4 : String) (ts : List DihedralType) : List String :=
  ts.dropLast.map (dtypeLine a1 a2 a3 a4 (-1)) ++ [dtypeLine a1 a2 a3 a4 1 (ts.getLastD ⟨0, 0, 0, 0, 0⟩)]

theorem run_forIn_out {α : Type} (f : α → String) (l : List α) (text : String) :
    (forIn l PUnit.unit fun a _ => do out (f a); pure (ForInStep.yield PUnit.unit) :
      WriteM PUnit).run text = .ok PUnit.unit (text ++ join (l.map f)) := by
  induction l generalizing text with
  | nil => simp [join]
  | cons a l ih =>
    have hstep : (do out (f a); pure (ForInStep.yield PUnit.unit) : WriteM _).run text =
        .ok (ForInStep.yield PUnit.unit) (text ++ f a) := rfl
    rw [List.forIn_cons, run_bind_of_ok hstep]
    dsimp only
    rw [ih, List.map_cons, join_cons, String.append_assoc]

/-- `write` prints the lines of a torsion's terms one after another. -/
theorem writeDihedralList_run (a1 a2 a3 a4 : String) {ts : List DihedralType} (hts : ts ≠ [])
    (text : String) :
    (writeDihedralList a1 a2 a3 a4 ts).run text =
      .ok () (text ++ join ((dihedralListLines a1 a2 a3 a4 ts).map (· ++ "\n"))) := by
  have hlast : (writeDtype a1 a2 a3 a4 1 (ts.getLastD ⟨0, 0, 0, 0, 0⟩)).run
      (text ++ join (ts.dropLast.map fun t => dtypeLine a1 a2 a3 a4 (-1) t ++ "\n")) =
        .ok () (text ++ join ((dihedralListLines a1 a2 a3 a4 ts).map (· ++ "\n"))) := by
    rw [writeDtype_eq, dihedralListLines, List.map_append, List.map_map, join_append,
      List.map_singleton, join_singleton, ← String.append_assoc]
    rfl
  match ts, hts with
  | [t], _ => simpa [join] using hlast
  | t₁ :: t₂ :: ts, _ =>
    exact (run_bind_of_ok (run_forIn_out (fun t => dtypeLine a1 a2 a3 a4 (-1) t ++ "\n") _
      text)).trans hlast

/-- A header word whose third character is not `-` does not begin a term line. -/
theorem startswith_eq_false {s p : String} {x y : Char} {rest : List Char}
    (hs : s.data = x :: y :: '-' :: rest) (hp : 2 < p.data.length ∧ p.data.get? 2 ≠ some '-') :
    startswith s p = false := by
  obtain ⟨a, b, c, w, hw⟩ : ∃ a b c w, p.data = a :: b :: c :: w :=
    match p.data, hp.1 with
    | a :: b :: c :: w, _ => ⟨a, b, c, w, rfl⟩
  have hc : c ≠ '-' := fun e => hp.2 (by rw [hw, e]; rfl)
  simp [startswith, hs, hw, List.isPrefixOf, hc]

/-- A line that starts with a field of two characters and a `-` is no section header. -/
theorem frcmodHeader_eq_none {line : String} {x y : Char} {rest : List Char}
    (h : line.data = x :: y :: '-' :: rest) : frcmodHeader line = none := by
  simp (disch := decide) only [frcmodHeader, startswith_eq_false h, Bool.false_eq_true, if_false]

/-- `_parse_frcmod` gives `_process_dihedral_line` a printed term line as it was printed, and the
line is a dihedral line of the section. -/
theorem dihedralRaw_dtypeLine {a1 : String} (h1 : a1.length ≤ 2) (a2 a3 a4 : String)
    (cont : Int) {t : DihedralType} (ht : PrintsExactly t) :
    rstrip (dtypeLine a1 a2 a3 a4 cont t ++ "\n") = dtypeLine a1 a2 a3 a4 cont t ∧
      DihedralRaw (dtypeLine a1 a2 a3 a4 cont t ++ "\n") := by
  have hscnb := NumberText.repr ht.scnb.1 ht.scnb.2
  have hlast : (dtypeLine a1 a2 a3 a4 cont t).data.getLast? = (reprFloat t.scnb).data.getLast? := by
    rw [dtypeLine_data]
    repeat rw [List.getLast?_append_of_ne_nil _ (by simp [hscnb.ne_nil])]
  have hr : rstrip (dtypeLine a1 a2 a3 a4 cont t ++ "\n") = dtypeLine a1 a2 a3 a4 cont t :=
    rstrip_append_newline fun c hc =>
      hscnb.noSpace c (List.mem_of_mem_getLast? (hlast ▸ hc))
  obtain ⟨x, y, hxy⟩ := ljust_two_eq h1
  obtain ⟨rest, hrest⟩ : ∃ rest, (dtypeLine a1 a2 a3 a4 cont t).data = x :: y :: '-' :: rest :=
    ⟨_, by rw [dtypeLine_data, dtypeFields_data, hxy]; rfl⟩
  refine ⟨hr, ?_⟩
  rw [DihedralRaw, hr]
  exact ⟨isEmpty_eq_false hrest, frcmodHeader_eq_none hrest⟩

section Line

variable {a1 a2 a3 a4 : String} (h1 : ShortType a1) (h2 : ShortType a2) (h3 : ShortType a3)
  (h4 : ShortType a4)
include h1 h2 h3 h4

theorem readTorsionLine_dtypeLine (cont : Int) {t : DihedralType} (ht : PrintsExactly t) :
    readTorsionLine (dtypeLine a1 a2 a3 a4 cont t) =
      some ⟨some (a1, a2, a3, a4), printedTerm cont t, cont * t.per⟩ := by
  simp only [readTorsionLine, dihedralFields, dihedre_reMatch_written h1 h2 h3 h4 cont ht,
    strip_ljust 2 h1.2, strip_ljust 2 h2.2, strip_ljust 2 h3.2, strip_ljust 2 h4.2,
    Option.bind_eq_bind, Option.some_bind, readTerm_dtypeLine h1.1 h2.1 h3.1 h4.1 cont ht]
  rfl

/-- A printed term line holds no line break. -/
theorem noLineBreak_dtypeLine (cont : Int) {t : DihedralType} (ht : PrintsExactly t) :
    NoLineBreak (dtypeLine a1 a2 a3 a4 cont t) := by
  have hnum : ∀ c, isDigit c = true ∨ c = '.' ∨ c = '-' → c = ' ' ∨ isSpace c = false := by
    rintro c (h | rfl | rfl)
    · exact Or.inr (isSpace_of_isDigit h)
    all_goals decide
  have htype : ∀ {a}, ShortType a → ∀ c ∈ (ljust 2 a).data, c = ' ' ∨ isSpace c = false :=
    fun ha => forall_ljust 2 (Or.inl rfl) fun c hc => Or.inr (ha.2 c hc)
  have hscee := (NumberText.repr ht.scee.1 ht.scee.2).chars
  have hscnb := (NumberText.repr ht.scnb.1 ht.scnb.2).chars
  have hfields : ∀ c ∈ (dtypeFields a1 a2 a3 a4 cont t).data, c = ' ' ∨ isSpace c = false := by
    rw [dtypeFields_data]
    simp only [List.forall_mem_append, List.forall_mem_cons]
    exact ⟨htype h1, by decide, htype h2, by decide, htype h3, by decide, htype h4, by decide,
      dtypeNumbers_chars (Or.inl rfl) hnum _ _⟩
  apply noLineBreak_of_forall
  rw [dtypeLine_data]
  exact List.forall_mem_append.2 ⟨hfields, List.forall_mem_append.2 ⟨by decide,
    List.forall_mem_append.2 ⟨fun c hc => hnum c (hscee c hc), List.forall_mem_append.2
      ⟨by decide, fun c hc => hnum c (hscnb c hc)⟩⟩⟩⟩

end Line

/-! ## The protocol on a written torsion -/

/-- The terms a class holds once the continued terms `us` of a written torsion are read, from
the list `G` they continue: a term of periodicity zero is printed `-0.0`, which reads as a
periodicity `≥ 0` and announces no further term, so the list after it starts again. -/
def readBackTerms (G : List DihedralType) : List DihedralType → List DihedralType
  | [] => G
  | u :: us => readBackTerms (if u.per = 0 then [] else G ++ [u]) us

/-- The list the next term of class `k` is appended to: none when the class starts fresh, and
the class's list otherwise. -/
def Continues (T : TorsionTable) (hist : List TorsionEntry) (k : TorsionKey)
    (G : List DihedralType) : Prop :=
  if startsFresh hist k then G = [] else T k = some G

theorem Continues.terms {T : TorsionTable} {hist : List TorsionEntry} {k : TorsionKey}
    {G : List DihedralType} (h : Continues T hist k G) (t : DihedralType) :
    (if startsFresh hist k then [t] else (T k).getD [] ++ [t]) = G ++ [t] := by
  unfold Continues at h
  split at h
  · next hf => rw [if_pos hf, h]; rfl
  · next hf => rw [if_neg hf, h]; rfl

theorem startsFresh_append_self (hist : List TorsionEntry) (k : TorsionKey) (t : DihedralType)
    (per : ℚ) : startsFresh (hist ++ [⟨k, t, per⟩]) k = decide (0 ≤ per) := by
  simp [startsFresh, latestOfClass_append, sameClass]

theorem readBackTerms_of_ne_zero {G us : List DihedralType} (h : ∀ u ∈ us, u.per ≠ 0) :
    readBackTerms G us = G ++ us := by
  induction us generalizing G with
  | nil => simp [readBackTerms]
  | cons u us ih =>
    rw [readBackTerms, if_neg (h u (List.mem_cons_self _ _)),
      ih fun v hv => h v (List.mem_cons_of_mem _ hv)]
    simp

theorem length_readBackTerms_le (G us : List DihedralType) :
    (readBackTerms G us).length ≤ G.length + us.length := by
  induction us generalizing G with
  | nil => simp [readBackTerms]
  | cons u us ih =>
    rw [readBackTerms]
    refine (ih _).trans ?_
    split <;> simp <;> omega

/-- The continued terms are read back as written exactly when none has periodicity zero. -/
theorem readBackTerms_eq_iff (G us : List DihedralType) :
    readBackTerms G us = G ++ us ↔ ∀ u ∈ us, u.per ≠ 0 := by
  refine ⟨fun h => ?_, readBackTerms_of_ne_zero⟩
  induction us generalizing G with
  | nil => simp
  | cons u us ih =>
    rw [readBackTerms] at h
    by_cases h0 : u.per = 0
    · rw [if_pos h0] at h
      have := length_readBackTerms_le [] us
      rw [h] at this
      simp at this
      omega
    · rw [if_neg h0] at h
      exact List.forall_mem_cons.2 ⟨h0, ih _ (h.trans (by simp))⟩

theorem mem_dihedralListLines {a1 a2 a3 a4 : String} {ts : List DihedralType} (hts : ts ≠ [])
    {l : String} (hl : l ∈ dihedralListLines a1 a2 a3 a4 ts) :
    ∃ cont t, t ∈ ts ∧ l = dtypeLine a1 a2 a3 a4 cont t := by
  rw [dihedralListLines, List.mem_append, List.mem_map, List.mem_singleton,
    List.getLastD_eq_getLast?, List.getLast?_eq_getLast _ hts, Option.getD_some] at hl
  rcases hl with ⟨t, ht, rfl⟩ | rfl
  · exact ⟨-1, t, List.mem_of_mem_dropLast ht, rfl⟩
  · exact ⟨1, _, List.getLast_mem hts, rfl⟩

section Protocol

variable {a1 a2 a3 a4 : String} (h1 : ShortType a1) (h2 : ShortType a2) (h3 : ShortType a3)
  (h4 : ShortType a4)
include h1 h2 h3 h4

/-- **Step lemma.** One printed term line on the protocol. -/
theorem specLine_dtypeLine (T : TorsionTable) (hist : List TorsionEntry) (cont : Int)
    {t : DihedralType} (ht : PrintsExactly t) :
    specLine T hist (dtypeLine a1 a2 a3 a4 cont t) =
      some (fun k => if sameClass (a1, a2, a3, a4) k then
          some (if startsFresh hist (a1, a2, a3, a4) then [printedTerm cont t]
            else (T (a1, a2, a3, a4)).getD [] ++ [printedTerm cont t]) else T k,
        hist ++ [⟨(a1, a2, a3, a4), printedTerm cont t, cont * t.per⟩]) := by
  simp only [specLine, readTorsionLine_dtypeLine h1 h2 h3 h4 cont ht, lineKey]
  rfl

/-- **Run lemma.** The continued terms `us` and the last term `z` of a torsion, printed and read
on the protocol, leave the class holding `readBackTerms G us ++ [z]`. -/
theorem specLines_continued {T : TorsionTable} {hist : List TorsionEntry}
    {G : List DihedralType} (hG : Continues T hist (a1, a2, a3, a4) G) {us : List DihedralType}
    (hus : ∀ u ∈ us, 0 ≤ u.per ∧ PrintsExactly u) {z : DihedralType}
    (hz : 0 ≤ z.per ∧ PrintsExactly z) :
    specLines T hist (us.map (dtypeLine a1 a2 a3 a4 (-1)) ++ [dtypeLine a1 a2 a3 a4 1 z]) =
      some (fun k => if sameClass (a1, a2, a3, a4) k then some (readBackTerms G us ++ [z])
          else T k,
        hist ++ us.map (fun u => ⟨(a1, a2, a3, a4), u, -u.per⟩) ++
          [⟨(a1, a2, a3, a4), z, z.per⟩]) := by
  induction us generalizing T hist G with
  | nil =>
    rw [List.map_nil, List.nil_append, specLines_singleton,
      specLine_dtypeLine h1 h2 h3 h4 T hist 1 hz.2, printedTerm_eq hz.1 (.inl rfl), hG.terms]
    simp [readBackTerms]
  | cons u us ih =>
    obtain ⟨hu, hp⟩ := hus u (List.mem_cons_self _ _)
    rw [List.map_cons, List.cons_append, specLines_cons,
      specLine_dtypeLine h1 h2 h3 h4 T hist (-1) hp, printedTerm_eq hu (.inr rfl), hG.terms,
      Option.some_bind]
    have hG' : Continues (fun k => if sameClass (a1, a2, a3, a4) k then some (G ++ [u]) else T k)
        (hist ++ [⟨(a1, a2, a3, a4), u, (-1 : Int) * u.per⟩]) (a1, a2, a3, a4)
        (if u.per = 0 then [] else G ++ [u]) := by
      unfold Continues
      rw [startsFresh_append_self]
      by_cases h0 : u.per = 0
      · simp [h0]
      · simp [h0, sameClass, lt_of_le_of_ne hu (Ne.symm h0)]
    rw [ih hG' fun v hv => hus v (List.mem_cons_of_mem _ hv)]
    congr 1
    refine Prod.ext (funext fun k => ?_) (by simp)
    by_cases hk : sameClass (a1, a2, a3, a4) k <;> simp [hk, readBackTerms]

/-- The lines of a torsion whose class starts fresh, on the protocol. -/
theorem specLines_dihedralListLines {T : TorsionTable} {hist : List TorsionEntry}
    (hfresh : startsFresh hist (a1, a2, a3, a4) = true) {ts : List DihedralType} (hts : ts ≠ [])
    (hprint : ∀ t ∈ ts, 0 ≤ t.per ∧ PrintsExactly t) :
    specLines T hist (dihedralListLines a1 a2 a3 a4 ts) =
      some (fun k => if sameClass (a1, a2, a3, a4) k then
          some (readBackTerms [] ts.dropLast ++ [ts.getLast hts]) else T k,
        hist ++ ts.dropLast.map (fun u => ⟨(a1, a2, a3, a4), u, -u.per⟩) ++
          [⟨(a1, a2, a3, a4), ts.getLast hts, (ts.getLast hts).per⟩]) := by
  rw [dihedralListLines, List.getLastD_eq_getLast?, List.getLast?_eq_getLast _ hts, Option.getD_some]
  exact specLines_continued h1 h2 h3 h4 (by simp [Continues, hfresh])
    (fun u hu => hprint u (List.mem_of_mem_dropLast hu)) (hprint _ (List.getLast_mem hts))

/-- **`_parse_frcmod` on a written torsion.** In the `DIHE` section, from any state the
protocol describes in which the torsion's class starts fresh, the loop returns on the lines
`write` prints for the terms `ts` and the class holds `readBackTerms [] ts.dropLast` followed by
the last term. -/
theorem frcmodLines_written_torsion (pt : PeriodicTable) {T : TorsionTable}
    {hist : List TorsionEntry} {s : AmberParameterSet} {loop : FrcmodLoop}
    (hsec : loop.sec = some .dihedral) (hsim : TorsionSim T hist s loop.finished loop.key)
    (hfresh : startsFresh hist (a1, a2, a3, a4) = true) {ts : List DihedralType} (hts : ts ≠ [])
    (hprint : ∀ t ∈ ts, 0 ≤ t.per ∧ PrintsExactly t) :
    ∃ loop' s', ((readLines (stateOf ((writeDihedralList a1 a2 a3 a4 ts).run ""))).foldlM
        (frcmodLine pt) loop).run s = .ok loop' s' ∧ loop'.sec = some .dihedral ∧
      TorsionSim (fun k => if sameClass (a1, a2, a3, a4) k then
          some (readBackTerms [] ts.dropLast ++ [ts.getLast hts]) else T k)
        (hist ++ ts.dropLast.map (fun u => ⟨(a1, a2, a3, a4), u, -u.per⟩) ++
          [⟨(a1, a2, a3, a4), ts.getLast hts, (ts.getLast hts).per⟩]) s' loop'.finished loop'.key := by
  have hline : ∀ l ∈ dihedralListLines a1 a2 a3 a4 ts, NoLineBreak l ∧
      rstrip (l ++ "\n") = l ∧ DihedralRaw (l ++ "\n") := fun l hl => by
    obtain ⟨cont, t, ht, rfl⟩ := mem_dihedralListLines hts hl
    exact ⟨noLineBreak_dtypeLine h1 h2 h3 h4 cont (hprint t ht).2,
      dihedralRaw_dtypeLine h1.1 a2 a3 a4 cont (hprint t ht).2⟩
  have hlines : readLines (stateOf ((writeDihedralList a1 a2 a3 a4 ts).run "")) =
      (dihedralListLines a1 a2 a3 a4 ts).map (· ++ "\n") := by
    rw [writeDihedralList_run a1 a2 a3 a4 hts, stateOf_ok, String.empty_append]
    exact readLines_join fun l hl => (hline l hl).1
  have hstrip : ((dihedralListLines a1 a2 a3 a4 ts).map (· ++ "\n")).map rstrip =
      dihedralListLines a1 a2 a3 a4 ts := by
    rw [List.map_map]
    exact (List.map_congr_left fun l hl => (hline l hl).2.1).trans (List.map_id _)
  rw [hlines]
  refine frcmodLines_returns pt hsec (fun raw hr => ?_) hsim ?_
  · obtain ⟨l, hl, rfl⟩ := List.mem_map.1 hr
    exact (hline l hl).2.2
  · rw [hstrip]
    exact specLines_dihedralListLines h1 h2 h3 h4 hfresh hts hprint

/-- **A written torsion read back.** In the `DIHE` section of an frcmod file, from any state the
protocol describes in which the torsion's class starts fresh, `_parse_frcmod` returns on the
lines `write` prints for the terms `ts`, changes the term lists of that class only, and gives it
back the list `ts` exactly when no term but the last has periodicity zero. -/
theorem frcmod_reads_written_torsion (pt : PeriodicTable) {T : TorsionTable}
    {hist : List TorsionEntry} {s : AmberParameterSet} {loop : FrcmodLoop}
    (hsec : loop.sec = some .dihedral) (hsim : TorsionSim T hist s loop.finished loop.key)
    (hfresh : startsFresh hist (a1, a2, a3, a4) = true) {ts : List DihedralType} (hts : ts ≠ [])
    (hprint : ∀ t ∈ ts, 0 ≤ t.per ∧ PrintsExactly t) :
    ∃ loop' s', ((readLines (stateOf ((writeDihedralList a1 a2 a3 a4 ts).run ""))).foldlM
        (frcmodLine pt) loop).run s = .ok loop' s' ∧
      (∀ k, torsionList s' k = if sameClass (a1, a2, a3, a4) k then
          some (readBackTerms [] ts.dropLast ++ [ts.getLast hts]) else torsionList s k) ∧
      (torsionList s' (a1, a2, a3, a4) = some ts ↔ ∀ t ∈ ts.dropLast, t.per ≠ 0) := by
  obtain ⟨loop', s', hrun, -, hsim'⟩ :=
    frcmodLines_written_torsion h1 h2 h3 h4 pt hsec hsim hfresh hts hprint
  have hlist : ∀ k, torsionList s' k = if sameClass (a1, a2, a3, a4) k then
      some (readBackTerms [] ts.dropLast ++ [ts.getLast hts]) else torsionList s k := fun k => by
    rw [hsim'.table, hsim.table]
  refine ⟨loop', s', hrun, hlist, ?_⟩
  have e := List.dropLast_append_getLast hts
  rw [hlist, if_pos (sameClass_refl _), Option.some_inj, ← readBackTerms_eq_iff, List.nil_append]
  exact ⟨fun h => List.append_cancel_right (h.trans e.symm),
    fun h => (congrArg (· ++ [ts.getLast hts]) h).trans e⟩

end Protocol

/-- A torsion of two terms whose first has periodicity zero, written and read back from a new
parameter set: the class keeps only the second term. -/
theorem zero_periodicity_term_splits_torsion :
    ∃ loop' s', ((readLines (stateOf ((writeDihedralList "CT" "CT" "OS" "CT"
        [⟨1, 0, 0, 1.2, 2⟩, ⟨2, 3, 180, 1.2, 2⟩]).run ""))).foldlM (frcmodLine carbonTable)
          ⟨some .dihedral, {}, none⟩).run AmberParameterSet.new = .ok loop' s' ∧
      torsionList s' ("CT", "CT", "OS", "CT") = some [⟨2, 3, 180, 1.2, 2⟩] := by
  have hscale : ∀ x : ℚ, (x = 1.2 ∨ x = 2) →
      ShortDecimal x ∧ (x = 0 ∨ ((10 : ℚ) ^ (-4 : ℤ) ≤ |x| ∧ |x| < 10 ^ 16)) := by
    rintro x (rfl | rfl) <;> rw [abs_of_pos (by norm_num)]
    · exact ⟨⟨12, -1, by norm_num, by norm_num⟩, .inr ⟨by norm_num, by norm_num⟩⟩
    · exact ⟨⟨2, 0, by norm_num, by norm_num⟩, .inr ⟨by norm_num, by norm_num⟩⟩
  have hprint : ∀ t ∈ ([⟨1, 0, 0, 1.2, 2⟩, ⟨2, 3, 180, 1.2, 2⟩] : List DihedralType),
      0 ≤ t.per ∧ PrintsExactly t := by
    simp only [List.mem_cons, List.mem_singleton, List.not_mem_nil, or_false]
    rintro t (rfl | rfl)
    · exact ⟨le_refl _, ⟨10 ^ 8, by norm_num⟩, ⟨0, by norm_num⟩, ⟨0, by norm_num⟩,
        hscale _ (.inl rfl), hscale _ (.inr rfl)⟩
    · exact ⟨by norm_num, ⟨2 * 10 ^ 8, by norm_num⟩, ⟨180000, by norm_num⟩, ⟨30, by norm_num⟩,
        hscale _ (.inl rfl), hscale _ (.inr rfl)⟩
  have hCT : ShortType "CT" := ⟨by decide, by decide⟩
  have hOS : ShortType "OS" := ⟨by decide, by decide⟩
  obtain ⟨loop', s', hrun, hlist, -⟩ := frcmod_reads_written_torsion hCT hCT hOS hCT carbonTable
    (show (⟨some .dihedral, {}, none⟩ : FrcmodLoop).sec = some .dihedral from rfl)
    tableSim_new.start (by rfl) (List.cons_ne_nil _ _) hprint
  refine ⟨loop', s', hrun, ?_⟩
  rw [hlist, if_pos (sameClass_refl _)]
  simp [readBackTerms]

end ParmEd.Amber
