import Mathlib.Data.List.Infix
import NoiseFilter.Extended.Compile
import NoiseFilter.Proofs.Text.Trim

/-!
# What the scanners pass over

The scanners behind extended selectors carry the place of what remains, but tell it in errors only.
`TestRead`, `ArgumentRead`, `Strips` and `Walks` say what they answer wherever the text stands, and
there is one lemma for each thing that they can meet: a plain character, a quoted text, a text test,
a `:has(…)` without tests and one with tests.
-/

namespace NoiseFilter.Extended

open Text (Read byteSize)

/-! ## Quoted texts -/

section

variable {q c d : Char} {s t body r value : List Char}

theorem scanDelimited_escape : scanDelimited q ('\\' :: d :: s) =
    (scanDelimited q s).map fun found => ('\\' :: d :: found.1, found.2) := by
  rw [scanDelimited.eq_def]
  rfl

theorem scanDelimited_close (notEscape : q ≠ '\\') : scanDelimited q (q :: s) = some ([], s) := by
  rw [scanDelimited.eq_def]
  simp [notEscape]

theorem scanDelimited_char (notEscape : c ≠ '\\') (notQuote : c ≠ q) : scanDelimited q (c :: s) =
    (scanDelimited q s).map fun found => (c :: found.1, found.2) := by
  rw [scanDelimited.eq_def]
  simp [notEscape, notQuote]

/-- A quoted text is its body, the quote, and what follows; and whatever follows does not change where
it ends. -/
theorem scanDelimited_halves (scan : scanDelimited q s = some (body, r)) :
    s = body ++ q :: r ∧ ∀ t, scanDelimited q (body ++ q :: t) = some (body, t) := by
  fun_induction scanDelimited q s generalizing body r with
  | case1 => cases scan
  | case2 => cases scan
  | case3 d rest ih =>
    obtain ⟨⟨inner, u⟩, found, same⟩ := Option.map_eq_some_iff.mp scan
    cases same
    obtain ⟨rfl, again⟩ := ih found
    refine ⟨rfl, fun t => ?_⟩
    rw [List.cons_append, List.cons_append, scanDelimited_escape, again]
    rfl
  | case4 rest notEscape =>
    cases scan
    exact ⟨rfl, fun t => scanDelimited_close notEscape⟩
  | case5 c rest notEscape notQuote ih =>
    obtain ⟨⟨inner, u⟩, found, same⟩ := Option.map_eq_some_iff.mp scan
    cases same
    obtain ⟨rfl, again⟩ := ih found
    refine ⟨rfl, fun t => ?_⟩
    rw [List.cons_append, scanDelimited_char notEscape notQuote, again]
    rfl

theorem eq_of_scanDelimited (scan : scanDelimited q s = some (body, r)) : s = body ++ q :: r :=
  (scanDelimited_halves scan).1

theorem scanDelimited_append (scan : scanDelimited q s = some (body, r)) (t : List Char) :
    scanDelimited q (s ++ t) = some (body, r ++ t) := by
  obtain ⟨rfl, again⟩ := scanDelimited_halves scan
  rw [List.append_assoc, List.cons_append, again]

/-- The body of a quoted text and its closing quote are a quoted text by themselves. -/
theorem scanDelimited_body (scan : scanDelimited q s = some (body, r)) :
    scanDelimited q (body ++ [q]) = some (body, []) :=
  (scanDelimited_halves scan).2 []

/-- What a selector reads as a quoted value, the scanners pass over as a quoted text; what stands behind
it makes no difference. -/
theorem scanDelimited_of_scanQuoted (scan : Selector.scanQuoted q s = some (value, r)) :
    ∃ body, scanDelimited q s = some (body, r) ∧
      ∀ t, Selector.scanQuoted q (body ++ q :: t) = some (value, t) := by
  fun_induction Selector.scanQuoted q s generalizing value r with
  | case1 => cases scan
  | case2 => cases scan
  | case3 d rest ih =>
    obtain ⟨⟨inner, u⟩, found, same⟩ := Option.map_eq_some_iff.mp scan
    cases same
    obtain ⟨body, passed, read⟩ := ih found
    refine ⟨_, scanDelimited_escape.trans (by rw [passed]; rfl), fun t => ?_⟩
    rw [List.cons_append, List.cons_append, Selector.scanQuoted.eq_def]
    simp [read]
  | case4 rest notEscape =>
    cases scan
    refine ⟨[], scanDelimited_close notEscape, fun t => ?_⟩
    rw [List.nil_append, Selector.scanQuoted.eq_def]
    simp [notEscape]
  | case5 c rest notEscape notQuote ih =>
    obtain ⟨⟨inner, u⟩, found, same⟩ := Option.map_eq_some_iff.mp scan
    cases same
    obtain ⟨body, passed, read⟩ := ih found
    refine ⟨_, (scanDelimited_char notEscape notQuote).trans (by rw [passed]; rfl), fun t => ?_⟩
    rw [List.cons_append, Selector.scanQuoted.eq_def]
    simp [notEscape, notQuote, read]

end

theorem skipQuoted_eq {q : Char} {s body r : List Char}
    (scan : scanDelimited q s = some (body, r)) : skipQuoted q s = r := by
  rw [skipQuoted, scan]

theorem passed_append (front r : List Char) : passed (front ++ r) r = front := by
  simp [passed]

/-! ## Openings -/

theorem occursIn_eq_true_iff {w s : List Char} : Text.occursIn w s = true ↔ w <:+: s := by
  induction s with
  | nil => simp [Text.occursIn, List.isEmpty_iff]
  | cons c s ih =>
    rw [Text.occursIn, Bool.or_eq_true, List.isPrefixOf_iff_prefix, ih, List.infix_cons_iff]

theorem occursIn_eq_false_of_infix {w s t : List Char} (inside : s <:+: t)
    (absent : Text.occursIn w t = false) : Text.occursIn w s = false := by
  refine Bool.eq_false_iff.mpr fun present => ?_
  rw [occursIn_eq_true_iff.mpr ((occursIn_eq_true_iff.mp present).trans inside)] at absent
  cases absent

theorem afterContains_eq_some_iff {s t : List Char} :
    afterContains s = some t ↔ s = containsToken ++ t := by
  rw [afterContains, Option.ite_none_right_eq_some, List.isPrefixOf_iff_prefix, Option.some.injEq]
  constructor
  · rintro ⟨front, rfl⟩
    exact List.prefix_append_drop front
  · rintro rfl
    exact ⟨List.prefix_append _ _, List.drop_left⟩

theorem afterContains_append (t : List Char) : afterContains (containsToken ++ t) = some t :=
  afterContains_eq_some_iff.mpr rfl

theorem afterContains_of_absent {s : List Char} (absent : Text.occursIn containsToken s = false) :
    afterContains s = none := by
  refine Option.eq_none_iff_forall_ne_some.mpr fun t opened => ?_
  rw [afterContains_eq_some_iff] at opened
  rw [occursIn_eq_true_iff.mpr ⟨[], t, by simp [opened]⟩] at absent
  cases absent

theorem afterContains_of_suffix {s t : List Char} (suffix : t <:+ s)
    (absent : Text.occursIn containsToken s = false) : afterContains t = none := by
  have absent' := occursIn_eq_false_of_infix suffix.isInfix absent
  exact afterContains_of_absent absent'

theorem afterContains_of_ne {c : Char} (other : c ≠ ':') (s : List Char) :
    afterContains (c :: s) = none := by
  refine Option.eq_none_iff_forall_ne_some.mpr fun t found => ?_
  rw [afterContains_eq_some_iff] at found
  exact other (List.cons.inj found).1

theorem afterHas_eq_some_iff {s t : List Char} :
    afterHas s = some t ↔ ∃ w, s = w ++ t ∧ w.map Char.toLower = hasToken := by
  rw [afterHas, Option.ite_none_right_eq_some, Option.some.injEq]
  constructor
  · rintro ⟨lowered, rfl⟩
    exact ⟨_, (List.take_append_drop _ _).symm, lowered⟩
  · rintro ⟨w, rfl, lowered⟩
    have length : hasToken.length = w.length := by rw [← lowered, List.length_map]
    exact ⟨by rw [length, List.take_left, lowered], by rw [length, List.drop_left]⟩

theorem afterHas_append (t : List Char) : afterHas (hasToken ++ t) = some t :=
  afterHas_eq_some_iff.mpr ⟨hasToken, rfl, by decide⟩

/-- Only a colon is a colon in lower case. -/
theorem eq_of_toLower_eq {c d : Char} (small : d.toNat < 97) (lowered : c.toLower = d) : c = d := by
  rcases Text.toNat_toLower c with ⟨number, low, -⟩ | unchanged
  · rw [lowered] at number
    omega
  · rw [← unchanged, lowered]

theorem afterHas_of_ne {c : Char} (other : c ≠ ':') (s : List Char) : afterHas (c :: s) = none := by
  refine Option.eq_none_iff_forall_ne_some.mpr fun t found => ?_
  obtain ⟨w, there, lowered⟩ := afterHas_eq_some_iff.mp found
  cases w with
  | nil => cases lowered
  | cons d w =>
    obtain ⟨rfl, -⟩ := List.cons.inj there
    exact other (eq_of_toLower_eq (by decide) (List.cons.inj lowered).1)

/-! ## Answers wherever the text stands -/

/-- Behind `:contains(` stands this test. -/
def TestRead (s : List Char) (test : TextTest) (r : List Char) : Prop :=
  ∀ offset, ∃ short, readTest offset s = .ok ⟨test, r, short⟩

/-- Behind `:has(` stands this argument, where `depth` parentheses are still open in it. -/
def ArgumentRead (depth : Nat) (s argument r : List Char) : Prop :=
  ∀ start offset, ∃ short, readArgument start offset depth s = .ok ⟨argument, r, short⟩

/-- Of an argument this is kept, and these tests are taken out. -/
def Strips (kept s out : List Char) (tests : HasClause) : Prop :=
  ∀ offset, strip offset kept s = .ok (out, tests)

/-- A walk over the text finds this. -/
def Walks (s : List Char) (found : Found) : Prop := ∀ offset, walk offset s = .ok found

@[simp] theorem Found.keep_nil (f : Found) : f.keep [] = f := rfl

@[simp] theorem Found.keep_keep (u v : List Char) (f : Found) :
    (f.keep v).keep u = f.keep (u ++ v) := by
  simp [Found.keep]

section

variable {c q : Char} {s t r body argument out : List Char} {test : TextTest} {found : Found}
  {tests : HasClause} {depth : Nat}

/-! ### Walking -/

theorem walks_nil : Walks [] {} := fun _ => by rw [walk]

theorem walks_quoted (quote : isQuote q = true) (scan : scanDelimited q s = some (body, r))
    (rest : Walks r found) : Walks (q :: s) (found.keep (q :: body ++ [q])) := by
  intro offset
  have front : q :: s = (q :: body ++ [q]) ++ r := by simp [eq_of_scanDelimited scan]
  rw [walk, if_pos quote]
  simp only [skipQuoted_eq scan]
  rw [front, passed_append, rest]
  rfl

theorem walks_char (plain : isQuote c = false) (noHas : afterHas (c :: s) = none)
    (noTest : afterContains (c :: s) = none) (rest : Walks s found) :
    Walks (c :: s) (found.keep [c]) := by
  intro offset
  rw [walk, if_neg (by simp [plain])]
  split
  · next opened => rw [noHas] at opened; cases opened
  · split
    · next opened => rw [noTest] at opened; cases opened
    · rw [rest]
      rfl

theorem walks_has (opened : afterHas (':' :: s) = some t) (read : ArgumentRead 0 t argument r)
    (none : Text.occursIn containsToken argument = false) (rest : Walks r found) :
    Walks (':' :: s) (found.keep (passed (':' :: s) r)) := by
  intro offset
  rw [walk, if_neg (by decide)]
  split
  · next inner opened' =>
    obtain rfl : t = inner := Option.some.inj (opened.symm.trans opened')
    obtain ⟨_, ok⟩ := read offset (offset + byteSize hasToken)
    simp only [ok, bind, Except.bind, none, Bool.false_eq_true, if_false, rest _]
    rfl
  · next closed => rw [opened] at closed; cases closed

theorem walks_has_tests (opened : afterHas (':' :: s) = some t) (read : ArgumentRead 0 t argument r)
    (some : Text.occursIn containsToken argument = true) (strips : Strips [] argument out tests)
    (rest : Walks r found) :
    Walks (':' :: s) (({ found with has := tests :: found.has } : Found).keep
      (hasToken ++ orAny (Text.trimChars out) ++ [')'])) := by
  intro offset
  rw [walk, if_neg (by decide)]
  split
  · next inner opened' =>
    obtain rfl : t = inner := Option.some.inj (opened.symm.trans opened')
    obtain ⟨_, ok⟩ := read offset (offset + byteSize hasToken)
    simp only [ok, bind, Except.bind, some, if_true, strips _, rest _]
    rfl
  · next closed => rw [opened] at closed; cases closed

theorem walks_test (read : TestRead t test r) (rest : Walks r found) :
    Walks (containsToken ++ t) { found with contains := test :: found.contains } := by
  intro offset
  rw [show containsToken ++ t = ':' :: ("contains(".toList ++ t) from rfl, walk,
    if_neg (by decide)]
  have noHas : afterHas (':' :: ("contains(".toList ++ t)) = none := by
    simp [afterHas, hasToken]
  split
  · next opened => rw [noHas] at opened; cases opened
  · split
    · next inner opened' =>
      obtain rfl : t = inner := Option.some.inj ((afterContains_append t).symm.trans opened')
      obtain ⟨_, ok⟩ := read offset
      simp only [ok, bind, Except.bind, rest _]
      rfl
    · next closed =>
      have opened := afterContains_append t
      rw [show containsToken ++ t = ':' :: ("contains(".toList ++ t) from rfl, closed] at opened
      cases opened

/-! ### Arguments -/

theorem argumentRead_close : ArgumentRead 0 (')' :: r) [] r := by
  intro start offset
  rw [readArgument]
  exact ⟨_, rfl⟩

theorem argumentRead_open (more : ArgumentRead (depth + 1) s argument r) :
    ArgumentRead depth ('(' :: s) ('(' :: argument) r := by
  intro start offset
  rw [readArgument, if_neg (by decide)]
  split
  · next opened => rw [afterContains_of_ne (by decide)] at opened; cases opened
  · obtain ⟨short, ok⟩ := more start (offset + byteSize (passed ('(' :: s) s))
    rw [passed] at ok
    simp only [if_true, ok, bind, Except.bind]
    exact ⟨Nat.lt_succ_of_lt short, by simp [pure, Except.pure]⟩

theorem argumentRead_closing (more : ArgumentRead depth s argument r) :
    ArgumentRead (depth + 1) (')' :: s) (')' :: argument) r := by
  intro start offset
  rw [readArgument, if_neg (by decide)]
  split
  · next opened => rw [afterContains_of_ne (by decide)] at opened; cases opened
  · obtain ⟨short, ok⟩ := more start (offset + byteSize (passed (')' :: s) s))
    rw [passed] at ok
    simp only [if_neg (show ¬ (')' = '(') by decide), if_true, Nat.add_sub_cancel, ok, bind,
      Except.bind, if_neg (Nat.succ_ne_zero depth)]
    exact ⟨Nat.lt_succ_of_lt short, by simp [pure, Except.pure]⟩

theorem argumentRead_char (plain : isQuote c = false) (notOpen : c ≠ '(') (notClose : c ≠ ')')
    (noTest : afterContains (c :: s) = none) (more : ArgumentRead depth s argument r) :
    ArgumentRead depth (c :: s) (c :: argument) r := by
  intro start offset
  rw [readArgument, if_neg (by simp [plain])]
  split
  · next opened => rw [noTest] at opened; cases opened
  · obtain ⟨short, ok⟩ := more start (offset + byteSize (passed (c :: s) s))
    rw [passed] at ok
    simp only [if_neg notOpen, if_neg notClose, ok, bind, Except.bind]
    exact ⟨Nat.lt_succ_of_lt short, by simp [pure, Except.pure]⟩

theorem argumentRead_quoted (quote : isQuote q = true) (scan : scanDelimited q s = some (body, t))
    (more : ArgumentRead depth t argument r) :
    ArgumentRead depth (q :: s) (q :: body ++ q :: argument) r := by
  intro start offset
  have shorter := length_lt_of_scanDelimited scan
  have front : passed (q :: s) t = q :: body ++ [q] := by
    rw [eq_of_scanDelimited scan, show q :: (body ++ q :: t) = (q :: body ++ [q]) ++ t by simp,
      passed_append]
  rw [readArgument, if_pos quote]
  split
  · next open_ => rw [scan] at open_; cases open_
  · next scan' =>
    cases scan.symm.trans scan'
    obtain ⟨short, ok⟩ := more start (offset + byteSize (passed (q :: s) t))
    rw [passed] at ok front
    simp only [ok, bind, Except.bind]
    refine ⟨Nat.lt_succ_of_lt (Nat.lt_trans short shorter), ?_⟩
    simp only [front, pure, Except.pure]
    simp

theorem argumentRead_test (test : TestRead s test t) (more : ArgumentRead depth t argument r) :
    ArgumentRead depth (containsToken ++ s) (passed (containsToken ++ s) t ++ argument) r := by
  intro start offset
  obtain ⟨shorter, read⟩ := test offset
  obtain ⟨short, ok⟩ := more start (offset + byteSize (passed (containsToken ++ s) t))
  have longer : r.length < (containsToken ++ s).length := by
    rw [List.length_append]
    omega
  have opened := afterContains_append s
  rw [show containsToken ++ s = ':' :: ("contains(".toList ++ s) from rfl] at *
  rw [readArgument, if_neg (by decide)]
  split
  · next inner opened' =>
    obtain rfl : s = inner := Option.some.inj (opened.symm.trans opened')
    rw [passed] at ok
    simp only [read, ok, bind, Except.bind]
    exact ⟨longer, rfl⟩
  · next closed => rw [opened] at closed; cases closed

/-! ### Stripping an argument -/

variable {kept : List Char}

theorem strips_nil : Strips kept [] kept [] := fun _ => by rw [strip]

theorem strips_char (plain : isQuote c = false) (noTest : afterContains (c :: s) = none)
    (rest : Strips (kept ++ [c]) s out tests) : Strips kept (c :: s) out tests := by
  intro offset
  rw [strip, if_neg (by simp [plain])]
  split
  · exact rest _
  · next opened => rw [noTest] at opened; cases opened

theorem strips_quoted (quote : isQuote q = true) (scan : scanDelimited q s = some (body, r))
    (rest : Strips (kept ++ (q :: body ++ [q])) r out tests) : Strips kept (q :: s) out tests := by
  intro offset
  have front : q :: s = (q :: body ++ [q]) ++ r := by simp [eq_of_scanDelimited scan]
  rw [strip, if_pos quote]
  simp only [skipQuoted_eq scan]
  rw [front, passed_append, rest]

theorem strips_test (read : TestRead s test t) (rest : Strips kept t out tests) :
    Strips kept (containsToken ++ s) out
      ({ sub := String.ofList (orAny (Text.trimChars kept)), test } :: tests) := by
  intro offset
  have opened := afterContains_append s
  rw [show containsToken ++ s = ':' :: ("contains(".toList ++ s) from rfl] at *
  rw [strip, if_neg (by decide)]
  split
  · next closed => rw [opened] at closed; cases closed
  · next inner opened' =>
    obtain rfl : s = inner := Option.some.inj (opened.symm.trans opened')
    obtain ⟨_, ok⟩ := read offset
    simp only [ok, bind, Except.bind, rest _]
    rfl

end

end NoiseFilter.Extended
