import ParmEd.Python.Text

/-!
# The `re` patterns of the parameter module

A backtracking matcher for the regular expressions `parameters.py` compiles: character
classes, concatenation, alternation tried left first, the greedy `?`, `*` and `+` and the
lazy `+?` over a character class, and numbered capturing groups. `Pat.run` passes each way
of matching a pattern, in the order Python's `re` engine tries them, to a continuation and
returns the first success, so `reMatch` is `re.match` (anchored at the start of the string,
not at its end) and `findAll` is `re.findall` for patterns that never match the empty
string, which all of the module's do.

Classes: `.` is any character but a newline, `\s` and `\S` are Python's whitespace and its
complement, `\d` is an ASCII digit and `\w` an ASCII letter, digit or underscore. Python's
`\d` and `\w` also take the other Unicode digits and letters, so a line with such a digit
where a pattern has `\d` (a `DIHE` line with Arabic-Indic digits) is matched by `re` and not
by `reMatch`: the model follows `re` on lines whose digits and letters are ASCII.
Case-insensitive literals (`re.I`) follow `sre`: a letter matches both its ASCII cases and,
for `i`, `s` and `k`, the non-ASCII characters that fold to them (U+0130, U+0131, U+017F,
U+212A).

`Pat.Takes a w stop caps` says that on a text beginning with `w`, followed by a rest that
`stop` accepts, the first success of `a` reads exactly `w`; its rules, one per constructor,
give what `re.match` returns on a line of known layout (`Regex.reMatch_of_takes`).
-/

namespace ParmEd.Python

/-- Regular expressions, as far as the module's patterns use them. -/
inductive Pat
  /-- One character of a class. -/
  | cls (p : Char → Bool)
  /-- `ab`. -/
  | cat (a b : Pat)
  /-- `a|b`, `a` tried first. -/
  | alt (a b : Pat)
  /-- `a?`, greedy. -/
  | opt (a : Pat)
  /-- `[p]*`, greedy. -/
  | star (p : Char → Bool)
  /-- `[p]+?`, lazy. -/
  | lazyPlus (p : Char → Bool)
  /-- A capturing group with its number. -/
  | group (i : Nat) (a : Pat)

/-- Captured groups, the latest capture of a group first. -/
abbrev Caps := List (Nat × List Char)

/-- Greedy repetition of a class: the longest run first, then shorter ones. -/
def starRun {β : Type} (p : Char → Bool) :
    List Char → Caps → (List Char → Caps → Option β) → Option β
  | [], cs, k => k [] cs
  | c :: s, cs, k =>
    if p c then (starRun p s cs k).orElse fun _ => k (c :: s) cs else k (c :: s) cs

/-- Lazy repetition of a class after its first character: the shortest run first. -/
def lazyRun {β : Type} (p : Char → Bool) :
    List Char → Caps → (List Char → Caps → Option β) → Option β
  | [], cs, k => k [] cs
  | c :: s, cs, k => (k (c :: s) cs).orElse fun _ => if p c then lazyRun p s cs k else none

/-- Run a pattern on a string with a continuation for the rest of the match: the first
success, in the order `re` tries the ways of matching. -/
def Pat.run {β : Type} : Pat → List Char → Caps → (List Char → Caps → Option β) → Option β
  | .cls p, c :: s, cs, k => if p c then k s cs else none
  | .cls _, [], _, _ => none
  | .cat a b, s, cs, k => a.run s cs fun s' cs' => b.run s' cs' k
  | .alt a b, s, cs, k => (a.run s cs k).orElse fun _ => b.run s cs k
  | .opt a, s, cs, k => (a.run s cs k).orElse fun _ => k s cs
  | .star p, s, cs, k => starRun p s cs k
  | .lazyPlus p, c :: s, cs, k => if p c then lazyRun p s cs k else none
  | .lazyPlus _, [], _, _ => none
  | .group i a, s, cs, k =>
    a.run s cs fun s' cs' => k s' ((i, s.take (s.length - s'.length)) :: cs')

/-- A compiled pattern: its expression and its number of groups. -/
structure Regex where
  pat : Pat
  groups : Nat

/-- The text a group captured (`''` for a group that took no part). -/
def Caps.group (cs : Caps) (i : Nat) : String := ⟨(cs.lookup i).getD []⟩

/-- Groups `1 .. n` of a match. -/
def Regex.groupsOf (r : Regex) (cs : Caps) : List String :=
  (List.range r.groups).map fun i => cs.group (i + 1)

/-- A match at the start of a string: the captures and the unmatched rest. -/
def Regex.matchPrefix (r : Regex) (s : List Char) : Option (Caps × List Char) :=
  r.pat.run s [] fun rest cs => some (cs, rest)

/-- `re.match(pattern, s).groups()`, `none` when there is no match. -/
def Regex.reMatch (r : Regex) (s : String) : Option (List String) :=
  (r.matchPrefix s.data).map fun m => r.groupsOf m.1

/-- The scanning loop of `findall`, with fuel for its length. -/
def Regex.findAllGo (r : Regex) : Nat → List Char → List (List String)
  | 0, _ => []
  | n + 1, s =>
    match r.matchPrefix s with
    | some (cs, rest) =>
      if rest.length < s.length then r.groupsOf cs :: r.findAllGo n rest
      else r.groupsOf cs :: r.findAllGo n s.tail
    | none => if s.isEmpty then [] else r.findAllGo n s.tail

/-- `re.findall(pattern, s)`, each match as the list of its groups. -/
def Regex.findAll (r : Regex) (s : String) : List (List String) :=
  r.findAllGo (s.length + 1) s.data

/-! ## The first match on a text a writer produced

`Takes a w stop caps`: on a text that starts with `w` and goes on with a rest that `stop`
accepts, the first success of `a` is the one that reads exactly `w` and records `caps` over
the captures before it. The rules follow the constructors of `Pat`, and with `Fails` (a
pattern that cannot start on a text) they give the groups `re.match` returns on a line of
known layout. -/

namespace Pat

/-- On `w ++ rest`, for any `rest` that `stop` accepts, the first success of `a` reads `w` and
records `caps`. -/
def Takes (a : Pat) (w : List Char) (stop : List Char → Prop) (caps : Caps → Caps) : Prop :=
  ∀ (β : Type) (rest : List Char) (cs : Caps) (k : List Char → Caps → Option β) (y : β),
    stop rest → k rest (caps cs) = some y → a.run (w ++ rest) cs k = some y

/-- `a` has no match at the start of `s`. -/
def Fails (a : Pat) (s : List Char) : Prop :=
  ∀ (β : Type) (cs : Caps) (k : List Char → Caps → Option β), a.run s cs k = none

theorem Fails.cls {p : Char → Bool} {s : List Char} (h : ∀ c ∈ s.head?, p c = false) :
    Fails (.cls p) s := fun _ _ _ => by
  cases s with
  | nil => rfl
  | cons c s => simp [Pat.run, h c rfl]

theorem Fails.cat {a b : Pat} {s : List Char} (h : Fails a s) : Fails (.cat a b) s :=
  fun β cs _ => h β cs _

/-- The longest run of a class is tried first, and it stops where the class does. -/
theorem starRun_append {β : Type} {p : Char → Bool} {w rest : List Char}
    (hw : ∀ c ∈ w, p c = true) (hrest : ∀ c ∈ rest.head?, p c = false) {cs : Caps}
    {k : List Char → Caps → Option β} {y : β} (hk : k rest cs = some y) :
    starRun p (w ++ rest) cs k = some y := by
  induction w with
  | nil =>
    cases rest with
    | nil => exact hk
    | cons c rest => simp only [List.nil_append, starRun, hrest c rfl]; exact hk
  | cons c w ih =>
    rw [List.cons_append, starRun, if_pos (hw c (List.mem_cons_self c w)),
      ih fun d hd => hw d (List.mem_cons_of_mem c hd)]
    rfl

namespace Takes

variable {a b : Pat} {w : List Char} {stop : List Char → Prop} {caps : Caps → Caps}

theorem cls {p : Char → Bool} {c : Char} (h : p c = true) (stop : List Char → Prop) :
    Takes (.cls p) [c] stop id := fun _ _ _ _ _ _ hk => by
  rw [List.singleton_append, Pat.run, if_pos h]
  exact hk

theorem cat {u v : List Char} {stopA : List Char → Prop} {capsA capsB : Caps → Caps}
    (ha : Takes a u stopA capsA) (hb : Takes b v stop capsB)
    (hstop : ∀ rest, stop rest → stopA (v ++ rest)) :
    Takes (.cat a b) (u ++ v) stop (fun cs => capsB (capsA cs)) := fun β rest cs k y hs hk => by
  rw [List.append_assoc, Pat.run]
  exact ha β _ cs _ y (hstop rest hs) (hb β rest _ k y hs hk)

theorem alt (h : Takes a w stop caps) : Takes (.alt a b) w stop caps :=
  fun β rest cs k y hs hk => by
    rw [Pat.run, h β rest cs k y hs hk]
    rfl

/-- `a?` takes `a`'s match when there is one. -/
theorem opt (h : Takes a w stop caps) : Takes (.opt a) w stop caps :=
  fun β rest cs k y hs hk => by
    rw [Pat.run, h β rest cs k y hs hk]
    rfl

/-- `a?` takes nothing where `a` cannot start. -/
theorem skip (h : ∀ rest, stop rest → Fails a rest) : Takes (.opt a) [] stop id :=
  fun β rest cs k _ hs hk => by
    rw [List.nil_append, Pat.run, h rest hs β cs k]
    exact hk

theorem star {p : Char → Bool} (hw : ∀ c ∈ w, p c = true) :
    Takes (.star p) w (fun rest => ∀ c ∈ rest.head?, p c = false) id :=
  fun _ _ _ _ _ hs hk => starRun_append hw hs hk

theorem group (i : Nat) (h : Takes a w stop caps) :
    Takes (.group i a) w stop (fun cs => (i, w) :: caps cs) := fun β rest cs k y hs hk => by
  rw [Pat.run]
  refine h β rest cs _ y hs ?_
  simpa using hk

theorem mono {stop' : List Char → Prop} (h : Takes a w stop caps)
    (hs : ∀ rest, stop' rest → stop rest) : Takes a w stop' caps :=
  fun β rest cs k y h' hk => h β rest cs k y (hs rest h') hk

end Takes

end Pat

/-- `re.match` on a text that a pattern takes up to a rest its last part accepts. -/
theorem Regex.reMatch_of_takes {r : Regex} {w rest : List Char} {stop : List Char → Prop}
    {caps : Caps → Caps} (h : Pat.Takes r.pat w stop caps) (hs : stop rest) :
    r.reMatch ⟨w ++ rest⟩ = some (r.groupsOf (caps [])) := by
  unfold reMatch matchPrefix
  rw [h _ rest [] _ (caps [], rest) hs rfl]
  rfl

/-! ## `findall` on a text a writer produced

`findall` scans for matches left to right; on a line whose text is known, it finds one match
when the pattern matches nowhere before it and nowhere after it. -/

namespace Regex

/-- `r` matches at no position of `pre` followed by `X`. -/
def NoMatchIn (r : Regex) (pre X : List Char) : Prop :=
  ∀ j < pre.length, r.matchPrefix (pre.drop j ++ X) = none

theorem matchPrefix_of_takes {r : Regex} {w X : List Char} {stop : List Char → Prop}
    {caps : Caps → Caps} (h : Pat.Takes r.pat w stop caps) (hs : stop X) :
    r.matchPrefix (w ++ X) = some (caps [], X) :=
  h _ X [] _ _ hs rfl

theorem findAllGo_skip {r : Regex} {pre X : List Char} (h : r.NoMatchIn pre X) (n : Nat) :
    r.findAllGo (n + pre.length) (pre ++ X) = r.findAllGo n X := by
  induction pre with
  | nil => rfl
  | cons c pre ih =>
    have h₀ : r.matchPrefix (c :: (pre ++ X)) = none := h 0 (Nat.succ_pos _)
    rw [List.length_cons, ← Nat.add_assoc, List.cons_append, findAllGo, h₀]
    exact ih fun j hj => h (j + 1) (Nat.succ_lt_succ hj)

/-- **One match.** `findall` on a text with one match of `r`, and none before or after it. -/
theorem findAll_single {r : Regex} {s : String} {pre w post : List Char} {cs : Caps}
    (hs : s.data = pre ++ (w ++ post)) (hpre : r.NoMatchIn pre (w ++ post)) (hw : w ≠ [])
    (hm : r.matchPrefix (w ++ post) = some (cs, post)) (hpost : r.NoMatchIn post [])
    (hnil : r.matchPrefix [] = none) :
    r.findAll s = [r.groupsOf cs] := by
  have hlen : s.length = s.data.length := rfl
  have hfuel : s.length + 1 = (w.length + post.length) + 1 + pre.length := by
    rw [hlen, hs]
    simp only [List.length_append]
    omega
  unfold findAll
  rw [hfuel, hs, findAllGo_skip hpre, findAllGo, hm]
  dsimp only
  rw [if_pos (by simp only [List.length_append]; have := List.length_pos.2 hw; omega)]
  congr 1
  have hrest := findAllGo_skip hpost w.length
  rw [List.append_nil] at hrest
  rw [hrest]
  cases w.length with
  | zero => rfl
  | succ n => simp [findAllGo, hnil]

end Regex

/-- No position of `pre` starts the text `l` in `pre ++ X`. -/
def Avoids (l pre X : List Char) : Prop := ∀ j < pre.length, ¬ l <+: pre.drop j ++ X

namespace Avoids

variable {l pre X : List Char}

theorem append {pre₂ : List Char} (h₁ : Avoids l pre (pre₂ ++ X)) (h₂ : Avoids l pre₂ X) :
    Avoids l (pre ++ pre₂) X := fun j hj => by
  rw [List.drop_append_eq_append_drop, List.append_assoc]
  by_cases hj₁ : j < pre.length
  · rw [Nat.sub_eq_zero_of_le hj₁.le, List.drop_zero]
    exact h₁ j hj₁
  · rw [List.drop_eq_nil_of_le (not_lt.1 hj₁), List.nil_append]
    exact h₂ (j - pre.length) (by rw [List.length_append] at hj; omega)

/-- A text none of whose characters starts `l`. -/
theorem of_head (hl : l ≠ []) (h : ∀ c ∈ pre, l.head? ≠ some c) : Avoids l pre X :=
  fun j hj hp => by
    obtain ⟨c, t, hct⟩ := List.exists_cons_of_length_pos (show 0 < (pre.drop j).length by
      rw [List.length_drop]; omega)
    have hc : c ∈ pre := List.mem_of_mem_drop (hct ▸ List.mem_cons_self c t)
    rw [hct, List.cons_append] at hp
    obtain ⟨d, l', rfl⟩ := List.exists_cons_of_ne_nil hl
    exact h c hc (by rw [(List.cons_prefix_cons.1 hp).1]; rfl)

theorem of_ne_head {s : Char} (hl : l.head? = some s) (h : ∀ c ∈ pre, c ≠ s) : Avoids l pre X :=
  of_head (fun e => by rw [e] at hl; cases hl) fun c hc e => h c hc (Option.some_inj.1 (hl ▸ e)).symm

/-- A block shorter than `l` followed by a character that `l` does not hold. -/
theorem block {s : Char} (hB : pre.length < l.length) (hs : s ∉ l) : Avoids l pre (s :: X) :=
  fun j _ ⟨u, hu⟩ => by
    rcases List.append_eq_append_iff.1 hu with ⟨a', ha, -⟩ | ⟨c', hl, hc⟩
    · have := congrArg List.length ha
      rw [List.length_append, List.length_drop] at this
      omega
    · cases c' with
      | nil =>
        rw [List.append_nil] at hl
        have := congrArg List.length hl
        rw [List.length_drop] at this
        omega
      | cons c c' =>
        rw [List.cons_append, List.cons.injEq] at hc
        exact hs (hl ▸ hc.1 ▸ List.mem_append_right _ (List.mem_cons_self _ _))

theorem single {c : Char} (h : ¬ l <+: c :: X) : Avoids l [c] X := fun j hj => by
  obtain rfl : j = 0 := by simpa using hj
  exact h

/-- A block shorter than `l`, then a separator that `l` neither holds nor starts with. -/
theorem sep_block {B R : List Char} {s : Char} (hl : l ≠ []) (hB : B.length < l.length)
    (hs : s ∉ l) (hsl : l.head? ≠ some s) (h : Avoids l R X) : Avoids l (B ++ s :: R) X :=
  (block (X := R ++ X) hB hs).append
    ((show Avoids l [s] (R ++ X) from
      of_head hl fun _ hc => List.mem_singleton.1 hc ▸ hsl).append h)

end Avoids

/-- A pattern that starts with the literal `l` matches nowhere in a text avoiding `l`. -/
theorem Regex.noMatchIn_of_avoids {r : Regex} {l pre X : List Char}
    (hr : ∀ s, ¬ l <+: s → Pat.Fails r.pat s) (h : Avoids l pre X) : r.NoMatchIn pre X :=
  fun j hj => hr _ (h j hj) _ [] _

/-! ## Building patterns -/

namespace Pat

/-- A sequence of patterns. -/
def cats : List Pat → Pat
  | [] => .star fun _ => false
  | [a] => a
  | a :: as => .cat a (cats as)

/-- A literal character. -/
def lit (c : Char) : Pat := .cls (· == c)

/-- A literal string. -/
def str (s : String) : Pat := cats (s.data.map lit)

/-- One letter under `re.I`. -/
def litIChar (c : Char) : Char → Bool := fun d =>
  d.toLower == c.toLower ||
    (c.toLower == 'i' && (d.toNat == 304 || d.toNat == 305)) ||
    (c.toLower == 's' && d.toNat == 383) || (c.toLower == 'k' && d.toNat == 8490)

/-- A literal string under `re.I`. -/
def strI (s : String) : Pat := cats (s.data.map fun c => .cls (litIChar c))

/-- `[p]+`, greedy. -/
def plus (p : Char → Bool) : Pat := .cat (.cls p) (.star p)

theorem Takes.plus {p : Char → Bool} {w : List Char} (hne : w ≠ []) (hw : ∀ c ∈ w, p c = true) :
    Takes (plus p) w (fun rest => ∀ c ∈ rest.head?, p c = false) id := by
  obtain ⟨c, w, rfl⟩ := List.exists_cons_of_ne_nil hne
  exact Takes.cat (Takes.cls (hw c (List.mem_cons_self c w)) fun _ => True)
    (Takes.star fun d hd => hw d (List.mem_cons_of_mem c hd)) fun _ _ => trivial

/-- `.`: any character but a newline. -/
def anyChar (c : Char) : Bool := c != '\n'

/-- `\w`. -/
def wordChar (c : Char) : Bool := c.isAlphanum || c == '_'

/-- A literal text takes itself. -/
theorem Takes.lits {l : List Char} (hl : l ≠ []) : Takes (cats (l.map lit)) l (fun _ => True) id := by
  induction l with
  | nil => exact absurd rfl hl
  | cons c l ih =>
    cases l with
    | nil => exact Takes.cls (beq_self_eq_true c) _
    | cons d l =>
      have h := Takes.cat (Takes.cls (beq_self_eq_true c) fun _ => True) (ih (List.cons_ne_nil _ _))
        fun _ _ => trivial
      exact h

/-- A literal text fails where the text does not begin with it. -/
theorem Fails.lits {l : List Char} (hl : l ≠ []) {s : List Char} (h : ¬ l <+: s) :
    Fails (cats (l.map lit)) s := by
  induction l generalizing s with
  | nil => exact absurd rfl hl
  | cons c l ih =>
    have hhead : ∀ t, ¬ c :: l <+: s → s = c :: t → ¬ l <+: t := fun t h hs ht =>
      h (hs ▸ List.cons_prefix_cons.2 ⟨rfl, ht⟩)
    cases s with
    | nil =>
      cases l with
      | nil => exact Fails.cls fun _ hd => nomatch hd
      | cons => exact Fails.cat (Fails.cls fun _ hd => nomatch hd)
    | cons d s =>
      by_cases hd : d = c
      · subst hd
        cases l with
        | nil => exact absurd (List.cons_prefix_cons.2 ⟨rfl, List.nil_prefix⟩) h
        | cons e l =>
          intro β cs k
          show (if (d == d) = true then _ else none) = none
          rw [if_pos (beq_self_eq_true d)]
          exact ih (List.cons_ne_nil _ _) (hhead s h rfl) β cs k
      · have hc : ∀ x ∈ (d :: s).head?, (x == c) = false := fun x hx => by
          cases Option.mem_def.1 hx
          exact beq_false_of_ne hd
        cases l with
        | nil => exact Fails.cls hc
        | cons => exact Fails.cat (Fails.cls hc)

end Pat

end ParmEd.Python
