import Mathlib.Data.List.Basic

/-!
# Python's `str` operations

The parameter parsers of `parmed/amber/parameters.py` are written against Python's string
methods. This module gives each one used there its Python meaning, on `String` through the
character list `String.data`: `strip`, `rstrip` and `split` with no argument use Python's
whitespace (`str.isspace`, not Lean's `Char.isWhitespace`), `replace` rewrites leftmost
non-overlapping occurrences, and `lower` follows `str.lower` on every character whose
lowercase is not a single character of its own, which changes the length of the text.

Files are read as Python iterates over a text file: `readLines` cuts a text after every
newline and keeps it.
-/

namespace ParmEd.Python

/-- `str.isspace` for one character: the Unicode whitespace of Python's `str` methods and of
`\s` in a `re` pattern. -/
def isSpace (c : Char) : Bool :=
  let n := c.toNat
  n == 32 || (9 ≤ n && n ≤ 13) || (28 ≤ n && n ≤ 31) || n == 133 || n == 160 || n == 5760 ||
    (8192 ≤ n && n ≤ 8202) || n == 8232 || n == 8233 || n == 8239 || n == 8287 || n == 12288

/-- ASCII decimal digits (Python's `\d` and `float` also take the other Unicode decimal
digits). -/
def isDigit (c : Char) : Bool := '0' ≤ c && c ≤ '9'

theorem isSpace_of_isDigit {c : Char} (h : isDigit c = true) : isSpace c = false := by
  have hc : 48 ≤ c.toNat ∧ c.toNat ≤ 57 := by
    simp only [isDigit, Bool.and_eq_true, decide_eq_true_eq] at h
    exact ⟨h.1, h.2⟩
  simp only [isSpace, Bool.or_eq_false_iff, Bool.and_eq_false_iff, beq_eq_false_iff_ne,
    decide_eq_false_iff_not]
  omega

/-! ## Stripping and splitting -/

/-- `lstrip()` on characters. -/
def lstripChars (l : List Char) : List Char := l.dropWhile isSpace

/-- `rstrip()` on characters. -/
def rstripChars (l : List Char) : List Char := (l.reverse.dropWhile isSpace).reverse

/-- `str.strip()`. -/
def strip (s : String) : String := ⟨rstripChars (lstripChars s.data)⟩

/-- `str.rstrip()`. -/
def rstrip (s : String) : String := ⟨rstripChars s.data⟩

/-- `str.split()`: the maximal runs of non-whitespace characters. -/
def split (s : String) : List String :=
  ((s.data.splitOnP isSpace).filter (fun w => !w.isEmpty)).map String.mk

/-- A line is what `rstrip()` keeps of it followed by the whitespace it drops. -/
theorem rstripChars_append (l : List Char) :
    rstripChars l ++ (l.reverse.takeWhile isSpace).reverse = l := by
  rw [rstripChars, ← List.reverse_append, List.takeWhile_append_dropWhile, List.reverse_reverse]

/-- A line whose `rstrip()` starts with a character that is not whitespace has nothing for
`lstrip()` to drop. -/
theorem strip_eq_rstrip {s : String} (h : (rstrip s).data.head?.map isSpace = some false) :
    strip s = rstrip s := by
  obtain ⟨c, t, hct, hc⟩ : ∃ c t, rstripChars s.data = c :: t ∧ isSpace c = false := by
    cases hr : rstripChars s.data with
    | nil => simp [rstrip, hr] at h
    | cons c t => exact ⟨c, t, rfl, by simpa [rstrip, hr] using h⟩
  have hs := rstripChars_append s.data
  rw [hct] at hs
  have : lstripChars s.data = s.data := by
    rw [← hs, lstripChars, List.cons_append, List.dropWhile_cons_of_neg (by simp [hc])]
  rw [strip, rstrip, this]

/-- Leading whitespace adds no word. -/
theorem filter_splitOnP_spaces_append {lead : List Char} (l : List Char)
    (h : ∀ c ∈ lead, isSpace c = true) :
    ((lead ++ l).splitOnP (isSpace ·)).filter (fun w => !w.isEmpty) =
      (l.splitOnP (isSpace ·)).filter (fun w => !w.isEmpty) := by
  induction lead with
  | nil => rfl
  | cons c lead ih =>
    rw [List.cons_append, List.splitOnP_cons, if_pos (h c (List.mem_cons_self c lead)),
      List.filter_cons_of_neg (by simp), ih fun c hc => h c (List.mem_cons_of_mem _ hc)]

/-- A text of whitespace has no word. -/
theorem filter_splitOnP_spaces {l : List Char} (h : ∀ c ∈ l, isSpace c = true) :
    (l.splitOnP (isSpace ·)).filter (fun w => !w.isEmpty) = [] := by
  simpa using filter_splitOnP_spaces_append [] h

/-- A line whose stripped text has no whitespace has at most one word. -/
theorem length_split_le_one {s : String} (h : ∀ c ∈ (strip s).data, isSpace c = false) :
    (split s).length ≤ 1 := by
  have trailing : ∀ c ∈ ((s.data.dropWhile isSpace).reverse.takeWhile isSpace).reverse,
      isSpace c = true := fun c hc =>
    List.mem_takeWhile_imp (List.mem_reverse.1 hc)
  have hs : s.data = s.data.takeWhile isSpace ++ ((strip s).data ++
      ((s.data.dropWhile isSpace).reverse.takeWhile isSpace).reverse) := by
    rw [strip, lstripChars, rstripChars_append, List.takeWhile_append_dropWhile]
  unfold split
  rw [List.length_map, hs, filter_splitOnP_spaces_append _ fun c hc => List.mem_takeWhile_imp hc]
  generalize ((s.data.dropWhile isSpace).reverse.takeWhile isSpace).reverse = t at trailing
  generalize (strip s).data = m at h
  cases m with
  | nil => simp [filter_splitOnP_spaces trailing]
  | cons c m =>
    have nosep : ∀ x ∈ c :: m, ¬ isSpace x = true := fun x hx => by simp [h x hx]
    cases t with
    | nil => simp [List.splitOnP_eq_single _ _ nosep]
    | cons d t =>
      rw [List.splitOnP_first _ _ nosep d (trailing d (List.mem_cons_self d t)),
        List.filter_cons_of_pos (by simp),
        filter_splitOnP_spaces fun x hx => trailing x (List.mem_cons_of_mem d hx)]
      rfl

theorem dropWhile_eq_self {p : Char → Bool} {l : List Char} (h : ∀ c ∈ l.head?, p c = false) :
    l.dropWhile p = l := by
  cases l with
  | nil => rfl
  | cons c l => exact List.dropWhile_cons_of_neg (by simp [h c rfl])

/-- A text without whitespace is its own `strip()`. -/
theorem strip_eq_self {l : List Char} (h : ∀ c ∈ l, isSpace c = false) : strip ⟨l⟩ = ⟨l⟩ := by
  have hl : lstripChars l = l := dropWhile_eq_self fun c hc => h c (List.mem_of_mem_head? hc)
  have hr : l.reverse.dropWhile isSpace = l.reverse := dropWhile_eq_self fun c hc =>
    h c (List.mem_reverse.1 (List.mem_of_mem_head? hc))
  simp only [strip, hl, rstripChars, hr, List.reverse_reverse]

theorem splitOnP_append_cons {p : Char → Bool} (xs : List Char) {sep : Char} (h : p sep = true)
    (ys : List Char) : (xs ++ sep :: ys).splitOnP p = xs.splitOnP p ++ ys.splitOnP p := by
  induction xs with
  | nil => simp [h]
  | cons x xs ih =>
    rw [List.cons_append, List.splitOnP_cons, List.splitOnP_cons, ih]
    split
    · rfl
    · obtain ⟨w, ws, hw⟩ := List.exists_cons_of_ne_nil (List.splitOnP_ne_nil p xs)
      rw [hw]
      rfl

/-- Whitespace between two texts: the words of the whole are those of each. -/
theorem split_append_sep (a : String) {sp : String}
    (hsp : sp.data ≠ [] ∧ ∀ c ∈ sp.data, isSpace c = true) (b : String) :
    split (a ++ sp ++ b) = split a ++ split b := by
  obtain ⟨c, sp', hc⟩ := List.exists_cons_of_ne_nil hsp.1
  have tail : ∀ x ∈ sp', isSpace x = true := fun x hx => hsp.2 x (hc ▸ List.mem_cons_of_mem c hx)
  unfold split
  rw [String.data_append, String.data_append, hc, List.append_assoc, List.cons_append,
    splitOnP_append_cons _ (hsp.2 c (hc ▸ List.mem_cons_self c sp')), List.filter_append,
    List.map_append, filter_splitOnP_spaces_append _ tail]

/-- Leading whitespace adds no word. -/
theorem split_spaces_append {sp : String} (h : ∀ c ∈ sp.data, isSpace c = true) (s : String) :
    split (sp ++ s) = split s := by
  unfold split
  rw [String.data_append, filter_splitOnP_spaces_append _ h]

/-- Trailing whitespace adds no word. -/
theorem split_append_spaces (s : String) {sp : String} (h : ∀ c ∈ sp.data, isSpace c = true) :
    split (s ++ sp) = split s := by
  cases hsp : sp.data with
  | nil => rw [show sp = "" from String.ext hsp, String.append_empty]
  | cons c sp' =>
    have hs := split_append_sep s ⟨hsp ▸ List.cons_ne_nil c sp', h⟩ ""
    rwa [String.append_empty, show split "" = [] from rfl, List.append_nil] at hs

/-- A text without whitespace is one word. -/
theorem split_word {s : String} (h : s.data ≠ [] ∧ ∀ c ∈ s.data, isSpace c = false) :
    split s = [s] := by
  unfold split
  rw [List.splitOnP_eq_single _ _ fun x hx => by simp [h.2 x hx]]
  simp [h.1]

/-- `str.rstrip(chars)` with an explicit set of characters. -/
def rstripSet (set : List Char) (s : String) : String :=
  ⟨(s.data.reverse.dropWhile (· ∈ set)).reverse⟩

/-- `str.startswith(prefix)`. -/
def startswith (s p : String) : Bool := p.data.isPrefixOf s.data

/-- `str.endswith(suffix)`. -/
def endswith (s p : String) : Bool := p.data.isSuffixOf s.data

/-- `s[:n]`. -/
def prefixOf (s : String) (n : Nat) : String := ⟨s.data.take n⟩

/-! ## Searching and rewriting -/

/-- The position of the first occurrence of `sub` in a character list. -/
def findSub (sub : List Char) : List Char → Option Nat
  | [] => if sub.isEmpty then some 0 else none
  | c :: cs => if sub.isPrefixOf (c :: cs) then some 0 else (findSub sub cs).map (· + 1)

/-- `str.index(sub)`, with `none` for the `ValueError` of a missing substring. -/
def index? (s sub : String) : Option Nat := findSub sub.data s.data

/-- The rewriting loop of `str.replace`: `skip` characters of the occurrence just replaced
are still to be passed over. -/
def replaceGo (old new : List Char) : Nat → List Char → List Char
  | _, [] => []
  | k + 1, _ :: cs => replaceGo old new k cs
  | 0, c :: cs =>
    if old.isPrefixOf (c :: cs) then new ++ replaceGo old new (old.length - 1) cs
    else c :: replaceGo old new 0 cs

/-- `str.replace(old, new)` for a nonempty `old`: leftmost non-overlapping occurrences. -/
def replace (s old new : String) : String := ⟨replaceGo old.data new.data 0 s.data⟩

/-- The lowercase of one character under `str.lower`. ASCII letters are lowered; U+0130
(capital I with dot) lowers to two characters, `i` and U+0307, and U+212A (Kelvin sign) to
`k`. Other characters are kept: their lowercase is one character and no ASCII letter. -/
def lowerChar (c : Char) : List Char :=
  if c.toNat == 304 then ['i', Char.ofNat 775]
  else if c.toNat == 8490 then ['k']
  else [c.toLower]

/-- `str.lower()`. -/
def lower (s : String) : String := ⟨s.data.flatMap lowerChar⟩

/-- `str.upper()` on ASCII letters, the only ones the module compares after `upper()`. -/
def upper (s : String) : String := ⟨s.data.map Char.toUpper⟩

/-- `''.join(parts)`. -/
def join (parts : List String) : String := ⟨parts.flatMap String.data⟩

@[simp] theorem join_nil : join [] = "" := rfl

@[simp] theorem join_cons (p : String) (ps : List String) : join (p :: ps) = p ++ join ps := rfl

@[simp] theorem join_append (ps qs : List String) : join (ps ++ qs) = join ps ++ join qs :=
  String.ext (by simp [join])

@[simp] theorem join_singleton (p : String) : join [p] = p :=
  String.ext (by simp [join])

/-- `f'{s:<w}'`: left-justified in a field of width `w`. -/
def ljust (w : Nat) (s : String) : String := ⟨s.data ++ List.replicate (w - s.length) ' '⟩

/-- `f'{s:>w}'`: right-justified in a field of width `w`. -/
def rjust (w : Nat) (s : String) : String := ⟨List.replicate (w - s.length) ' ' ++ s.data⟩

theorem ljust_eq (w : Nat) (s : String) :
    ljust w s = s ++ ⟨List.replicate (w - s.length) ' '⟩ := rfl

theorem rjust_eq (w : Nat) (s : String) :
    rjust w s = ⟨List.replicate (w - s.length) ' '⟩ ++ s := rfl

theorem forall_ljust {P : Char → Prop} (w : Nat) {s : String} (hsp : P ' ')
    (h : ∀ c ∈ s.data, P c) : ∀ c ∈ (ljust w s).data, P c := fun c hc => by
  rcases List.mem_append.1 hc with hc | hc
  · exact h c hc
  · exact List.eq_of_mem_replicate hc ▸ hsp

theorem forall_rjust {P : Char → Prop} (w : Nat) {s : String} (hsp : P ' ')
    (h : ∀ c ∈ s.data, P c) : ∀ c ∈ (rjust w s).data, P c := fun c hc => by
  rcases List.mem_append.1 hc with hc | hc
  · exact List.eq_of_mem_replicate hc ▸ hsp
  · exact h c hc

theorem replicate_isSpace (k : Nat) : ∀ c ∈ List.replicate k ' ', isSpace c = true :=
  fun c hc => by rw [List.eq_of_mem_replicate hc]; rfl

/-- The padding of `f'{s:>w}'` is dropped by `strip()`. -/
theorem strip_rjust (w : Nat) (s : String) : strip (rjust w s) = strip s := by
  simp only [strip, rjust, lstripChars]
  rw [List.dropWhile_append_of_pos (replicate_isSpace _)]

/-- The padding of `f'{s:<w}'` is dropped by `strip()`, and so is nothing else of a text
without whitespace. -/
theorem strip_ljust (w : Nat) {s : String} (h : ∀ c ∈ s.data, isSpace c = false) :
    strip (ljust w s) = s := by
  obtain ⟨l⟩ := s
  have pad := replicate_isSpace (w - l.length)
  have hr : rstripChars (l ++ List.replicate (w - l.length) ' ') = l := by
    rw [rstripChars, List.reverse_append, List.reverse_replicate, List.dropWhile_append_of_pos pad,
      dropWhile_eq_self fun c hc => h c (List.mem_reverse.1 (List.mem_of_mem_head? hc)),
      List.reverse_reverse]
  apply String.ext
  show rstripChars ((l ++ List.replicate (w - l.length) ' ').dropWhile isSpace) = l
  cases l with
  | nil => rw [List.nil_append, List.dropWhile_eq_nil_iff.2 pad]; rfl
  | cons c l => rw [dropWhile_eq_self (by simpa using h c (List.mem_cons_self c l)), hr]

theorem isEmpty_eq_false {s : String} {c : Char} {l : List Char} (h : s.data = c :: l) :
    s.isEmpty = false := by
  obtain ⟨d⟩ := s
  cases h
  refine beq_eq_false_iff_ne.2 fun he => ?_
  have h0 : String.utf8ByteSize.go l + c.utf8Size = 0 := congrArg String.Pos.byteIdx he
  have := c.utf8Size_pos
  omega

/-- `rstrip()` of a printed line gives back the line when it does not end in whitespace. -/
theorem rstrip_append_newline {s : String} (h : ∀ c ∈ s.data.getLast?, isSpace c = false) :
    rstrip (s ++ "\n") = s := by
  apply String.ext
  show ((s.data ++ ['\n']).reverse.dropWhile isSpace).reverse = s.data
  rw [List.reverse_append, List.reverse_singleton, List.singleton_append,
    List.dropWhile_cons_of_pos (by decide), dropWhile_eq_self (by rwa [List.head?_reverse]),
    List.reverse_reverse]

/-! ## Files -/

/-- The lines of a text as iterating over a Python text file yields them. The file is opened
with universal newlines: `\n`, `\r\n` and `\r` each end a line and are read as `\n`, and the
last line may have none. -/
def readLinesGo : List Char → List Char → List String
  | acc, [] => if acc.isEmpty then [] else [⟨acc.reverse⟩]
  | acc, '\n' :: cs => ⟨('\n' :: acc).reverse⟩ :: readLinesGo [] cs
  | acc, '\r' :: '\n' :: cs => ⟨('\n' :: acc).reverse⟩ :: readLinesGo [] cs
  | acc, '\r' :: cs => ⟨('\n' :: acc).reverse⟩ :: readLinesGo [] cs
  | acc, c :: cs => readLinesGo (c :: acc) cs

/-- Lines of a text file. -/
def readLines (text : String) : List String := readLinesGo [] text.data

/-- A text without the characters that end a line of a file read with universal newlines. -/
def NoLineBreak (s : String) : Prop := '\n' ∉ s.data ∧ '\r' ∉ s.data

instance (s : String) : Decidable (NoLineBreak s) := inferInstanceAs (Decidable (_ ∧ _))

/-- A text of blanks and characters that are not whitespace has no line break. -/
theorem noLineBreak_of_forall {s : String} (h : ∀ c ∈ s.data, c = ' ' ∨ isSpace c = false) :
    NoLineBreak s :=
  ⟨fun hc => by rcases h _ hc with h | h <;> revert h <;> decide,
    fun hc => by rcases h _ hc with h | h <;> revert h <;> decide⟩

theorem readLinesGo_line (acc : List Char) {l : List Char} (hl : '\n' ∉ l ∧ '\r' ∉ l)
    (r : List Char) :
    readLinesGo acc (l ++ '\n' :: r) = ⟨acc.reverse ++ l ++ ['\n']⟩ :: readLinesGo [] r := by
  induction l generalizing acc with
  | nil => simp [readLinesGo]
  | cons c l ih =>
    simp only [List.mem_cons, not_or] at hl
    simp [readLinesGo, Ne.symm hl.1.1, Ne.symm hl.2.1, ih _ ⟨hl.1.2, hl.2.2⟩]

/-- A text that starts with a line `l` has `l` for its first line. -/
theorem readLines_line {l : String} (hl : NoLineBreak l) (r : String) :
    readLines (l ++ "\n" ++ r) = (l ++ "\n") :: readLines r := by
  rw [readLines, String.append_assoc, String.data_append]
  exact readLinesGo_line [] hl r.data

/-- The lines of a text printed line by line. -/
theorem readLines_join {ls : List String} (h : ∀ l ∈ ls, NoLineBreak l) :
    readLines (join (ls.map (· ++ "\n"))) = ls.map (· ++ "\n") := by
  induction ls with
  | nil => rfl
  | cons l ls ih =>
    rw [List.map_cons, join_cons, readLines_line (h l (List.mem_cons_self _ _)),
      ih fun l' hl' => h l' (List.mem_cons_of_mem _ hl')]

end ParmEd.Python
