import ParmEd.Amber.RoundTrip
import ParmEd.Amber.TorsionReadBack

/-!
# Reading back the impropers `write` prints

`write` prints an improper with its atom types in the order `improperOrder` gives, and
`_parse_frcmod` reads the lines of its `IMPROPER` section with `_process_improper_line`, which
sorts the flanking types again.

* One line. For type names of at most two characters without whitespace, `_impropre` gives back
  the four types and the three numbers (`impropre_reMatch_written`), so `_process_improper_line`
  stores the printed term, with scale factors `1`, under the key `improperKey` makes of the
  printed types (`processImproperLine_written`). From a sorted key that is the key the improper
  was printed from (`improperKey_of_improperOrder`).
* The section. On sorted keys `write` prints each improper once, on a line of its own
  (`foldlM_writeImproper_run`), and the frcmod loop stores each such line in its `IMPROPER`
  section (`frcmodLines_improperLines`). So every improper of a set whose keys are sorted, as in
  every loaded set, and whose values print without rounding is read back under its own key with
  its scale factors reset to `1`, and nothing else changes (`frcmod_reads_written_impropers`).
-/

namespace ParmEd.Amber

open ParmEd.Python

/-- An improper `write` prints so that `_parse_frcmod` reads it back: a sorted key whose order
`write` does not assert against, type names `_impropre` reads back, and a barrier, a phase and
a periodicity of at most as many decimals as the line prints. -/
structure ImproperPrintable (a1 a2 a3 a4 : String) (t : DihedralType) : Prop where
  sorted : FlanksSorted (a1, a2, a3, a4)
  generic : ¬ (a2 = "X" ∧ a4 ≠ "X")
  type1 : ShortType a1
  type2 : ShortType a2
  type3 : ShortType a3
  type4 : ShortType a4
  phiK : ∃ n : ℤ, t.phiK * 10 ^ 8 = n
  phase : ∃ n : ℤ, t.phase * 10 ^ 3 = n
  per : ∃ n : ℤ, t.per * 10 ^ 1 = n

/-- The lines `write` prints for the impropers `es`, before their newlines: the atom types in
the order `improperOrder` gives them (nothing for an improper it raises on). -/
def improperLines (es : List (TorsionKey × DihedralType)) : List String :=
  es.filterMap fun (k, t) => match improperOrder k with
    | .ok (a1, a2, a3, a4) => some (improperLine a1 a2 a3 a4 t)
    | .error _ => none

/-! ## One line -/

/-- `_process_improper_line` stores an improper printed from a sorted key under that key. -/
theorem improperKey_of_improperOrder {k : TorsionKey} (hk : FlanksSorted k)
    {b1 b2 b3 b4 : String} (ho : improperOrder k = .ok (b1, b2, b3, b4)) :
    improperKey b1 b2 b3 b4 = k := by
  obtain ⟨s1, s2, a3, s3⟩ := k
  obtain ⟨rfl, hp⟩ := improperOrder_perm ho
  have hs : sorted [b1, b2, b4] = [s1, s2, s3] := List.eq_of_perm_of_sorted
    ((sorted_perm _).trans hp) (List.sorted_insertionSort _ _) (sorted_of_flanksSorted hk)
  simp [improperKey, hs]

/-- The order `write` prints a printable improper in: types `_impropre` reads back, from which
`_process_improper_line` makes the improper's key again. -/
theorem ImproperPrintable.order {a1 a2 a3 a4 : String} {t : DihedralType}
    (h : ImproperPrintable a1 a2 a3 a4 t) :
    ∃ b1 b2 b4, improperOrder (a1, a2, a3, a4) = .ok (b1, b2, a3, b4) ∧ ShortType b1 ∧
      ShortType b2 ∧ ShortType b4 ∧ improperKey b1 b2 a3 b4 = (a1, a2, a3, a4) := by
  obtain ⟨b1, b2, b4, ho, hp, -, -⟩ := (improperOrder_of_flanksSorted h.sorted).2 h.generic
  have hshort : ∀ b ∈ [b1, b2, b4], ShortType b := fun b hb => by
    have hb' := hp.subset hb
    simp only [List.mem_cons, List.mem_singleton, List.not_mem_nil, or_false] at hb'
    rcases hb' with rfl | rfl | rfl
    exacts [h.type1, h.type2, h.type4]
  exact ⟨b1, b2, b4, ho, hshort _ (by simp), hshort _ (by simp), hshort _ (by simp),
    improperKey_of_improperOrder h.sorted ho⟩

/-- `write` prints an improper whose atom types are not yet written on a line of its own. -/
theorem writeImproper_run_fresh {written : Dict TorsionKey DihedralType} {key : TorsionKey}
    {b1 b2 b3 b4 : String} (ho : improperOrder key = .ok (b1, b2, b3, b4))
    (hw : written.get? (b1, b2, b3, b4) = none) (t : DihedralType) (text : String) :
    (writeImproper written key t).run text =
      .ok (written.insert (b1, b2, b3, b4) t) (text ++ (improperLine b1 b2 b3 b4 t ++ "\n")) := by
  simp only [writeImproper, ho, hw, run_bind, run_ofExcept_ok]
  rfl

section Line

variable {a1 a2 a3 a4 : String} (h1 : ShortType a1) (h2 : ShortType a2) (h3 : ShortType a3)
  (h4 : ShortType a4)
include h1 h2 h3 h4

/-- **An `IMPROPER` line is read back.** The line `write` prints for an improper of types of at
most two characters, with values of at most as many decimals as it prints, as `_parse_frcmod`
passes it on, stores the improper with scale factors `1` under the key `improperKey` makes of
its types. -/
theorem processImproperLine_written {t : DihedralType} (hk : ∃ n : ℤ, t.phiK * 10 ^ 8 = n)
    (hphase : ∃ n : ℤ, t.phase * 10 ^ 3 = n) (hper : ∃ n : ℤ, t.per * 10 ^ 1 = n)
    (st : AmberParameterSet) :
    (processImproperLine (improperLine a1 a2 a3 a4 t)).run st =
      .ok () (st.setImproper (improperKey a1 a2 a3 a4) { t with scee := 1, scnb := 1 }) := by
  unfold processImproperLine
  simp only [impropre_reMatch_written h1 h2 h3 h4, float, floatE, toFloat?_fixedDigits 8 hk,
    toFloat?_fixedDigits 3 hphase, toFloat?_fixedDigits 1 hper, strip_ljust 2 h1.2,
    strip_ljust 2 h2.2, strip_ljust 2 h3.2, strip_ljust 2 h4.2]
  rfl

/-- A printed improper line holds no line break, and `rstrip()` gives it back whole. -/
theorem improperLine_raw (t : DihedralType) :
    NoLineBreak (improperLine a1 a2 a3 a4 t) ∧
      rstrip (improperLine a1 a2 a3 a4 t ++ "\n") = improperLine a1 a2 a3 a4 t := by
  have hfixed : ∀ w p x, ∀ c ∈ (formatFixed w p x).data, c = ' ' ∨ isSpace c = false :=
    fun w p x => forall_rjust w (Or.inl rfl) fun c hc => Or.inr (fixedDigits_noSpace p x c hc)
  have htype : ∀ {a}, ShortType a → ∀ c ∈ (ljust 2 a).data, c = ' ' ∨ isSpace c = false :=
    fun ha => forall_ljust 2 (Or.inl rfl) fun c hc => Or.inr (ha.2 c hc)
  have hlast : (improperLine a1 a2 a3 a4 t).data.getLast? = (fixedDigits 1 t.per).getLast? := by
    rw [improperLine, String.data_append, List.getLast?_append_of_ne_nil _
      (by exact List.append_ne_nil_of_right_ne_nil _ (fixedDigits_ne_nil 1 t.per))]
    exact List.getLast?_append_of_ne_nil _ (fixedDigits_ne_nil 1 t.per)
  refine ⟨noLineBreak_of_forall ?_, rstrip_append_newline fun c hc =>
    fixedDigits_noSpace 1 t.per c (List.mem_of_mem_getLast? (hlast ▸ hc))⟩
  simp only [improperLine, String.data_append, List.forall_mem_append, and_assoc]
  exact ⟨htype h1, by decide, htype h2, by decide, htype h3, by decide, htype h4, by decide,
    hfixed _ _ _, by decide, hfixed _ _ _, by decide, hfixed _ _ _⟩

/-- **Step lemma.** In its `IMPROPER` section the frcmod loop hands a printed improper line to
`_process_improper_line`. -/
theorem frcmodLine_improperLine (pt : PeriodicTable) {loop : FrcmodLoop}
    (hsec : loop.sec = some .improper) {t : DihedralType} (hk : ∃ n : ℤ, t.phiK * 10 ^ 8 = n)
    (hphase : ∃ n : ℤ, t.phase * 10 ^ 3 = n) (hper : ∃ n : ℤ, t.per * 10 ^ 1 = n)
    (st : AmberParameterSet) :
    (frcmodLine pt loop (improperLine a1 a2 a3 a4 t ++ "\n")).run st =
      .ok loop (st.setImproper (improperKey a1 a2 a3 a4) { t with scee := 1, scnb := 1 }) := by
  obtain ⟨x, y, hxy⟩ := ljust_two_eq h1.1
  obtain ⟨rest, hrest⟩ : ∃ rest, (improperLine a1 a2 a3 a4 t).data = x :: y :: '-' :: rest :=
    ⟨_, by simp only [improperLine, String.data_append, List.append_assoc, hxy]; rfl⟩
  have hr := (improperLine_raw h1 h2 h3 h4 t).2
  have hline : (rstrip (improperLine a1 a2 a3 a4 t ++ "\n")).isEmpty = false ∧
      frcmodHeader (rstrip (improperLine a1 a2 a3 a4 t ++ "\n")) = none := by
    rw [hr]
    exact ⟨isEmpty_eq_false hrest, frcmodHeader_eq_none hrest⟩
  generalize improperLine a1 a2 a3 a4 t ++ "\n" = raw at hr hline
  simp only [frcmodLine, hline.1, hline.2, hsec, Bool.false_eq_true, if_false, run_pure_bind]
  rw [hr, run_bind_of_ok (processImproperLine_written h1 h2 h3 h4 hk hphase hper st)]
  rfl

end Line

/-! ## The section -/

/-- **Run lemma.** On sorted keys, none of whose printed orders is written yet, `write` prints
every improper of `es` on a line of its own. -/
theorem foldlM_writeImproper_run {es : List (TorsionKey × DihedralType)}
    (hp : ∀ a1 a2 a3 a4 t, ((a1, a2, a3, a4), t) ∈ es → ImproperPrintable a1 a2 a3 a4 t)
    (hnodup : (es.map Prod.fst).Nodup) {written : Dict TorsionKey DihedralType}
    (hfresh : ∀ k t o, (k, t) ∈ es → improperOrder k = .ok o → written.get? o = none)
    (text : String) :
    ∃ w, (es.foldlM (fun w (k, t) => writeImproper w k t) written).run text =
      .ok w (text ++ join ((improperLines es).map (· ++ "\n"))) := by
  induction es generalizing written text with
  | nil => exact ⟨written, by simp [improperLines, join]⟩
  | cons e rest ih =>
    obtain ⟨⟨a1, a2, a3, a4⟩, t⟩ := e
    have hpe := hp a1 a2 a3 a4 t (List.mem_cons_self _ _)
    obtain ⟨b1, b2, b4, ho, -⟩ := hpe.order
    simp only [List.map_cons, List.nodup_cons] at hnodup
    have hw := hfresh _ _ _ (List.mem_cons_self _ _) ho
    have hfresh' : ∀ k t' o, (k, t') ∈ rest → improperOrder k = .ok o →
        (written.insert (b1, b2, a3, b4) t).get? o = none := fun k t' o hk hko => by
      rw [Dict.get?_insert, if_neg, hfresh k t' o (List.mem_cons_of_mem _ hk) hko]
      rintro rfl
      obtain ⟨c1, c2, c3, c4⟩ := k
      have hk' := List.mem_cons_of_mem ((a1, a2, a3, a4), t) hk
      have heq := improperOrder_injective (hp c1 c2 c3 c4 t' hk').sorted hpe.sorted hko ho
      exact hnodup.1 (heq ▸ List.mem_map_of_mem Prod.fst hk)
    obtain ⟨w, hw'⟩ := ih (fun a1 a2 a3 a4 t h => hp a1 a2 a3 a4 t (List.mem_cons_of_mem _ h))
      hnodup.2 hfresh' (text ++ (improperLine b1 b2 a3 b4 t ++ "\n"))
    refine ⟨w, ?_⟩
    rw [List.foldlM_cons, run_bind_of_ok (writeImproper_run_fresh ho hw t text), hw']
    simp [improperLines, ho, String.append_assoc]

/-- **Run lemma.** In its `IMPROPER` section the frcmod loop stores the printed impropers `es`
one after another, each with scale factors `1`. -/
theorem frcmodLines_improperLines (pt : PeriodicTable) {loop : FrcmodLoop}
    (hsec : loop.sec = some .improper) {es : List (TorsionKey × DihedralType)}
    (hp : ∀ a1 a2 a3 a4 t, ((a1, a2, a3, a4), t) ∈ es → ImproperPrintable a1 a2 a3 a4 t)
    (st : AmberParameterSet) :
    (((improperLines es).map (· ++ "\n")).foldlM (frcmodLine pt) loop).run st =
      .ok loop { st with improperPeriodicTypes := (es.foldl
        (fun d e => d.insert e.1 { e.2 with scee := 1, scnb := 1 }) st.improperPeriodicTypes) } := by
  induction es generalizing st with
  | nil => rfl
  | cons e rest ih =>
    obtain ⟨⟨a1, a2, a3, a4⟩, t⟩ := e
    have hpe := hp a1 a2 a3 a4 t (List.mem_cons_self _ _)
    obtain ⟨b1, b2, b4, ho, hb1, hb2, hb4, hkey⟩ := hpe.order
    have hlines : improperLines (((a1, a2, a3, a4), t) :: rest) =
        improperLine b1 b2 a3 b4 t :: improperLines rest := by
      simp [improperLines, ho]
    rw [hlines, List.map_cons, List.foldlM_cons, run_bind_of_ok (frcmodLine_improperLine hb1 hb2
      hpe.type3 hb4 pt hsec hpe.phiK hpe.phase hpe.per st), hkey,
      ih fun a1 a2 a3 a4 t h => hp a1 a2 a3 a4 t (List.mem_cons_of_mem _ h)]
    rfl

/-- **The impropers `write` prints, read back.** For a parameter set all of whose impropers are
printable (sorted keys, as in every loaded set, no generic improper `write` asserts against,
short type names, values printed without rounding), the `IMPROPER` section of `write` returns,
and `_parse_frcmod`, in its `IMPROPER` section and from any state, reads it into every improper
under its own key with its scale factors reset to `1`, changing nothing else. -/
theorem frcmod_reads_written_impropers (pt : PeriodicTable) {s : AmberParameterSet}
    (hp : ∀ a1 a2 a3 a4 t, s.improperPeriodicTypes.get? (a1, a2, a3, a4) = some t →
      ImproperPrintable a1 a2 a3 a4 t)
    {loop : FrcmodLoop} (hsec : loop.sec = some .improper) (st : AmberParameterSet) :
    ∃ w text, (s.improperPeriodicTypes.entries.foldlM (fun w (k, t) => writeImproper w k t)
        {}).run "" = .ok w text ∧
      ∃ st', ((readLines text).foldlM (frcmodLine pt) loop).run st = .ok loop st' ∧
        (∀ k, st'.improperPeriodicTypes.get? k =
          ((s.improperPeriodicTypes.get? k).map fun t => { t with scee := 1, scnb := 1 }).or
            (st.improperPeriodicTypes.get? k)) ∧
        { st' with improperPeriodicTypes := st.improperPeriodicTypes } = st := by
  have hpe : ∀ a1 a2 a3 a4 t, ((a1, a2, a3, a4), t) ∈ s.improperPeriodicTypes.entries →
      ImproperPrintable a1 a2 a3 a4 t := fun a1 a2 a3 a4 t h =>
    hp a1 a2 a3 a4 t (Dict.get?_of_mem h)
  obtain ⟨w, hw⟩ := foldlM_writeImproper_run hpe s.improperPeriodicTypes.nodup
    (fun _ _ _ _ _ => Dict.get?_emptyCollection _) ""
  have hnl : ∀ l ∈ improperLines s.improperPeriodicTypes.entries, NoLineBreak l := fun l hl => by
    obtain ⟨⟨⟨a1, a2, a3, a4⟩, t⟩, he, hl⟩ := List.mem_filterMap.1 hl
    obtain ⟨b1, b2, b4, ho, hb1, hb2, hb4, -⟩ := (hpe a1 a2 a3 a4 t he).order
    simp only [ho, Option.some.injEq] at hl
    exact hl ▸ (improperLine_raw hb1 hb2 (hpe a1 a2 a3 a4 t he).type3 hb4 t).1
  refine ⟨w, _, hw, ?_⟩
  rw [String.empty_append, readLines_join hnl, frcmodLines_improperLines pt hsec hpe st]
  exact ⟨_, rfl, Dict.get?_foldl_insert (fun t : DihedralType => { t with scee := 1, scnb := 1 }) _ _,
    rfl⟩

/-- The carbonyl improper `X -X -C -O`, which a loaded set holds under `(O, X, C, X)`, written
and read back into a new parameter set: the key comes back, and the scale factors `1.2` and
`2.0`, which the line does not print, come back as `1`. -/
theorem carbonyl_improper_read_back :
    ∃ w text, ((AmberParameterSet.new.setImproper ("O", "X", "C", "X")
        ⟨10.5, 2, 180, 1.2, 2⟩).improperPeriodicTypes.entries.foldlM
          (fun w (k, t) => writeImproper w k t) {}).run "" = .ok w text ∧
      ∃ st', ((readLines text).foldlM (frcmodLine carbonTable) ⟨some .improper, {}, none⟩).run
          AmberParameterSet.new = .ok ⟨some .improper, {}, none⟩ st' ∧
        st'.improperPeriodicTypes.get? ("O", "X", "C", "X") = some ⟨10.5, 2, 180, 1, 1⟩ := by
  have hp : ∀ a1 a2 a3 a4 t, (AmberParameterSet.new.setImproper ("O", "X", "C", "X")
      ⟨10.5, 2, 180, 1.2, 2⟩).improperPeriodicTypes.get? (a1, a2, a3, a4) = some t →
        ImproperPrintable a1 a2 a3 a4 t := by
    intro a1 a2 a3 a4 t h
    simp only [AmberParameterSet.setImproper, Dict.get?_insert] at h
    split at h
    · next he =>
      simp only [Prod.mk.injEq] at he
      obtain ⟨rfl, rfl, rfl, rfl⟩ := he
      cases h
      exact ⟨⟨by decide, by decide⟩, by decide, ⟨by decide, by decide⟩, ⟨by decide, by decide⟩,
        ⟨by decide, by decide⟩, ⟨by decide, by decide⟩, ⟨1050000000, by norm_num⟩,
        ⟨180000, by norm_num⟩, ⟨20, by norm_num⟩⟩
    · cases h
  obtain ⟨w, text, hw, st', hrun, hget, -⟩ := frcmod_reads_written_impropers carbonTable hp
    (show (⟨some .improper, {}, none⟩ : FrcmodLoop).sec = some .improper from rfl)
    AmberParameterSet.new
  refine ⟨w, text, hw, st', hrun, ?_⟩
  rw [hget]
  rfl

end ParmEd.Amber
