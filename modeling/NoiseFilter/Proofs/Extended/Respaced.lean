import NoiseFilter.Proofs.Extended.Orderly

/-!
# Blanks between the parts of a selector

How many blanks stand between two parts of a selector, and whether any stand around a comma, makes no
difference. `Respaced s s'` says that `s'` is `s` with every run of blanks outside quotes made one
space, or dropped in front of a comma and at the end. Whatever can be read from `s`, where no name
holds a blank, a quote or a comma, can be read from `s'` (`Respaced.reads`).
-/

namespace NoiseFilter.Extended

open Selector (Item Reads Yields isNameChar isNameStart scanName readAttribute combinatorOf startsSimple
  readLead)
open Text (isBlank skipBlanks)

/-- The same text with other blanks. -/
inductive Respaced : List Char → List Char → Prop
  | finish {b : List Char} (blank : ∀ c ∈ b, isBlank c = true) : Respaced b []
  | char {c : Char} {s s' : List Char} (filled : isBlank c = false) (plain : isQuote c = false)
    (more : Respaced s s') : Respaced (c :: s) (c :: s')
  | quoted {q : Char} {body s s' : List Char} (quote : isQuote q = true)
    (scan : scanDelimited q (body ++ [q]) = some (body, [])) (more : Respaced s s') :
    Respaced (q :: body ++ q :: s) (q :: body ++ q :: s')
  | blanks {c : Char} {b s s' : List Char} (first : isBlank c = true)
    (blank : ∀ c ∈ b, isBlank c = true) (more : Respaced s s') : Respaced (c :: b ++ s) (' ' :: s')
  | comma {b b' s s' : List Char} (blank : ∀ c ∈ b, isBlank c = true)
    (blank' : ∀ c ∈ b', isBlank c = true) (more : Respaced s s') :
    Respaced (b ++ ',' :: (b' ++ s)) (',' :: ' ' :: s')

theorem isBlank_of_isQuote {c : Char} (quote : isQuote c = true) : isBlank c = false := by
  cases blank : isBlank c with
  | false => rfl
  | true =>
    rw [isQuote_eq_false (isMark_of_isBlank blank)] at quote
    cases quote

theorem skipBlanks_append {b : List Char} (blank : ∀ c ∈ b, isBlank c = true) (s : List Char) :
    skipBlanks (b ++ s) = skipBlanks s := List.dropWhile_append_of_pos blank

theorem skipBlanks_of_head? {s : List Char} (filled : ∀ c ∈ s.head?, isBlank c = false) :
    skipBlanks s = s := by
  cases s with
  | nil => rfl
  | cons c s => exact List.dropWhile_cons_of_neg (by simp [filled c rfl])

theorem isBlank_head?_skipBlanks (s : List Char) : ∀ c ∈ (skipBlanks s).head?, isBlank c = false := by
  intro c first
  obtain ⟨t, there⟩ := List.head?_eq_some_iff.mp first
  have there : s.dropWhile isBlank = c :: t := there
  have := List.head_dropWhile_not (p := isBlank) (l := s) (by simp [there])
  simpa [there] using this

namespace Respaced

variable {bad : Char → Bool} {c q : Char} {s s' t r body name : List Char}

/-- Blanks in front make no difference. -/
theorem skipBlanks (same : Respaced s s') : Respaced (skipBlanks s) (skipBlanks s') := by
  induction same with
  | @finish b blank =>
    have nothing : Text.skipBlanks b = [] := List.dropWhile_eq_nil_iff.mpr blank
    rw [nothing]
    exact .finish (by simp)
  | @char c s s' filled plain more _ =>
    rw [skipBlanks_of_head? (by simpa using filled), skipBlanks_of_head? (by simpa using filled)]
    exact .char filled plain more
  | @quoted q body s s' quote scan more _ =>
    rw [skipBlanks_of_head? (by simpa using isBlank_of_isQuote quote),
      skipBlanks_of_head? (by simpa using isBlank_of_isQuote quote)]
    exact .quoted quote scan more
  | @blanks c b s s' first blank _ ih =>
    rw [skipBlanks_append (List.forall_mem_cons.mpr ⟨first, blank⟩)]
    exact ih
  | @comma b b' s s' blank blank' more _ =>
    rw [skipBlanks_append blank]
    exact .comma (b := []) (by simp) blank' more

/-- A text that does not begin with a blank keeps its first character. -/
theorem head?_eq (same : Respaced s s') (filled : ∀ c ∈ s.head?, isBlank c = false) :
    s'.head? = s.head? := by
  cases same with
  | finish blank =>
    match s with
    | [] => rfl
    | c :: s =>
      have filled := filled c rfl
      rw [blank c (by simp)] at filled
      cases filled
  | char => rfl
  | quoted => rfl
  | @blanks c _ _ _ first =>
    have filled := filled c rfl
    rw [first] at filled
    cases filled
  | @comma b _ _ _ blank =>
    match b with
    | [] => rfl
    | c :: b =>
      have filled := filled c rfl
      rw [blank c (by simp)] at filled
      cases filled

/-- No other characters come first than those that did, a space and a comma. -/
theorem mem_head? (same : Respaced s s') : ∀ c ∈ s'.head?, c ∈ s.head? ∨ c = ' ' ∨ c = ',' := by
  intro c first
  cases same with
  | finish => cases first
  | char => exact .inl first
  | quoted => exact .inl first
  | blanks => exact .inr (.inl (Option.some.inj first).symm)
  | comma => exact .inr (.inr (Option.some.inj first).symm)

theorem of_cons (same : Respaced (c :: s) t) (filled : isBlank c = false) (plain : isQuote c = false) :
    ∃ s', t = c :: s' ∧ (Respaced s s' ∨ c = ',' ∧ Respaced (Text.skipBlanks s) (Text.skipBlanks s')) := by
  generalize there : c :: s = u at same
  cases same with
  | finish blank =>
    rw [← there] at blank
    rw [blank c (by simp)] at filled
    cases filled
  | char _ _ more =>
    cases there
    exact ⟨_, rfl, .inl more⟩
  | quoted quote =>
    cases there
    rw [quote] at plain
    cases plain
  | blanks first =>
    cases there
    rw [first] at filled
    cases filled
  | @comma b b' s s' blank blank' more =>
    match b with
    | [] =>
      cases there
      refine ⟨_, rfl, .inr ⟨rfl, ?_⟩⟩
      rw [skipBlanks_append blank']
      exact more.skipBlanks
    | d :: b =>
      cases there
      rw [blank c (by simp)] at filled
      cases filled

/-- A character that is neither blank nor quote nor comma stays. -/
theorem of_char (same : Respaced (c :: s) t) (filled : isBlank c = false) (plain : isQuote c = false)
    (notComma : c ≠ ',') : ∃ s', t = c :: s' ∧ Respaced s s' := by
  obtain ⟨s', rfl, more | ⟨comma, -⟩⟩ := same.of_cons filled plain
  · exact ⟨s', rfl, more⟩
  · exact absurd comma notComma

/-- A comma stays. -/
theorem of_comma (same : Respaced (',' :: s) t) :
    ∃ s', t = ',' :: s' ∧ Respaced (Text.skipBlanks s) (Text.skipBlanks s') := by
  obtain ⟨s', rfl, more | ⟨-, more⟩⟩ := same.of_cons rfl rfl
  · exact ⟨s', rfl, more.skipBlanks⟩
  · exact ⟨s', rfl, more⟩

/-- A quoted text stays as it is. -/
theorem of_quoted (same : Respaced (q :: s) t) (quote : isQuote q = true)
    (scan : scanDelimited q s = some (body, r)) :
    ∃ r', t = q :: body ++ q :: r' ∧ Respaced r r' := by
  generalize there : q :: s = u at same
  cases same with
  | finish blank =>
    rw [← there] at blank
    have filled := isBlank_of_isQuote quote
    rw [blank q (by simp)] at filled
    cases filled
  | char _ plain =>
    cases there
    rw [quote] at plain
    cases plain
  | @quoted _ body' s s' _ scan' more =>
    cases there
    have whole := scanDelimited_append scan' s
    rw [List.append_assoc] at whole
    cases scan.symm.trans whole
    exact ⟨s', rfl, more⟩
  | blanks first =>
    cases there
    have filled := isBlank_of_isQuote quote
    rw [first] at filled
    cases filled
  | @comma b _ _ _ blank =>
    match b with
    | [] =>
      cases there
      cases quote
    | d :: b =>
      cases there
      have filled := isBlank_of_isQuote quote
      rw [blank q (by simp)] at filled
      cases filled

/-- Blanks in front of a character that is no comma leave one space. -/
theorem of_blank (same : Respaced s t) (blank : (Text.skipBlanks s).length < s.length)
    (filled : Text.skipBlanks s ≠ []) (notComma : (Text.skipBlanks s).head? ≠ some ',') :
    (Text.skipBlanks t).length < t.length := by
  cases same with
  | finish blank => exact absurd (List.dropWhile_eq_nil_iff.mpr blank) filled
  | @char c s _ first =>
    rw [skipBlanks_of_head? (by simpa using first)] at blank
    exact absurd blank (Nat.lt_irrefl _)
  | @quoted q body s _ quote =>
    rw [skipBlanks_of_head? (by simpa using isBlank_of_isQuote quote)] at blank
    exact absurd blank (Nat.lt_irrefl _)
  | @blanks c b s s' =>
    show (Text.skipBlanks s').length < s'.length + 1
    exact Nat.lt_succ_of_le (Text.length_skipBlanks_le s')
  | comma before =>
    rw [skipBlanks_append before] at notComma
    exact absurd rfl notComma

end Respaced

/-! ## Names, brackets and index expressions -/

/-- The characters that make a difference to the layout: blanks and combinators, next to the marks. -/
def isStructural (c : Char) : Bool := isMark c || isBlank c || isCombinatorChar c

section

variable {c : Char} {s s' t r name : List Char}

theorem isMark_of_isStructural {c : Char} (good : isStructural c = false) :
    isMark c = false ∧ isBlank c = false ∧ isCombinatorChar c = false := by
  simpa [isStructural, and_assoc] using good

theorem structural_of_isMark : ∀ c, isMark c = true → isStructural c = true := by
  intro c mark
  simp [isStructural, mark]

theorem isStructural_of_isAlpha {c : Char} (alpha : c.isAlpha = true) : isStructural c = false := by
  have other {d : Char} (notAlpha : d.isAlpha = false) : c ≠ d := by
    rintro rfl
    rw [alpha] at notAlpha
    cases notAlpha
  have unmarked := isMark_eq_false Char.isAlpha alpha (by decide)
  have filled : isBlank c = false := by
    refine Bool.eq_false_iff.mpr fun blank => ?_
    have range := Text.isAlpha_iff.mp alpha
    rw [Text.isUpper_iff, Text.isLower_iff] at range
    simp only [isBlank, Bool.or_eq_true, Bool.and_eq_true, decide_eq_true_eq, beq_iff_eq] at blank
    omega
  simp [isStructural, unmarked, filled, isCombinatorChar, other (show '>'.isAlpha = false from rfl),
    other (show '+'.isAlpha = false from rfl), other (show '~'.isAlpha = false from rfl)]

/-- Whether a character makes no difference to the layout, unless it stands outside names; it is no
quote and no backslash. -/
def isOrdinary (c : Char) : Bool := c != '\\' && !isQuote c && (!isNameChar c || !isStructural c)

theorem isOrdinary_iff {c : Char} : isOrdinary c = true ↔
    c ≠ '\\' ∧ isQuote c = false ∧ (isNameChar c = true → isStructural c = false) := by
  simp [isOrdinary, and_assoc, imp_iff_not_or]

/-- A text of such characters. -/
def Ordinary (s : List Char) : Prop := ∀ c ∈ s, isOrdinary c = true

instance (s : List Char) : Decidable (Ordinary s) :=
  decidable_of_iff (s.all isOrdinary = true) List.all_eq_true

theorem isOrdinary_of_isAlpha {c : Char} (alpha : c.isAlpha = true) : isOrdinary c = true := by
  have good := isStructural_of_isAlpha alpha
  refine isOrdinary_iff.mpr ⟨?_, isQuote_eq_false (isMark_of_isStructural good).1, fun _ => good⟩
  rintro rfl
  cases alpha

theorem Respaced.of_good (same : Respaced (c :: s) t) (good : isStructural c = false) :
    ∃ s', t = c :: s' ∧ Respaced s s' := by
  obtain ⟨unmarked, filled, -⟩ := isMark_of_isStructural good
  refine same.of_char filled (isQuote_eq_false unmarked) ?_
  rintro rfl
  cases unmarked

theorem Avoids.good_of_isNameChar (avoids : Avoids isStructural (c :: s))
    (name : isNameChar c = true) (notEscape : c ≠ '\\') : isStructural c = false :=
  ((Avoids.char_iff notEscape (isQuote_eq_false (isMark_of_isNameChar name))).mp avoids).1 name

theorem scanName_stop (stop : ∀ c ∈ s.head?, isNameChar c = false) : scanName s = some ([], s) :=
  scanName_append (List.forall_mem_nil _) stop

/-- A name is read as it was. -/
theorem Respaced.scanName (same : Respaced s s') (avoids : Avoids isStructural s)
    (scan : scanName s = some (name, r)) :
    ∃ r', scanName s' = some (name, r') ∧ Respaced r r' := by
  fun_induction Selector.scanName s generalizing s' name r with
  | case1 =>
    cases scan
    refine ⟨s', scanName_stop fun c first => ?_, same⟩
    rcases same.mem_head? c first with first | rfl | rfl
    · cases first
    · rfl
    · rfl
  | case2 => cases scan
  | case3 d rest ih =>
    obtain ⟨⟨inner, u⟩, found, whole⟩ := Option.map_eq_some_iff.mp scan
    cases whole
    obtain ⟨t, rfl, behind⟩ := same.of_char rfl rfl (by decide)
    obtain ⟨good, avoids⟩ := Avoids.escape_iff.mp avoids
    obtain ⟨t, rfl, more⟩ := behind.of_good good
    obtain ⟨r', scan', left⟩ := ih more avoids found
    refine ⟨r', ?_, left⟩
    rw [Selector.scanName.eq_def]
    simp [scan']
  | case4 c rest notEscape char ih =>
    obtain ⟨⟨inner, u⟩, found, whole⟩ := Option.map_eq_some_iff.mp scan
    cases whole
    obtain ⟨t, rfl, more⟩ := same.of_good (avoids.good_of_isNameChar char notEscape)
    obtain ⟨r', scan', left⟩ :=
      ih more (avoids.of_sign notEscape (isQuote_eq_false (isMark_of_isNameChar char))) found
    refine ⟨r', ?_, left⟩
    rw [Selector.scanName.eq_def]
    simp [notEscape, char, scan']
  | case5 c rest notEscape notChar =>
    cases scan
    refine ⟨s', scanName_stop fun d first => ?_, same⟩
    rcases same.mem_head? d first with first | rfl | rfl
    · cases first
      simpa using notChar
    · rfl
    · rfl

/-- Characters that make no difference to the layout stay. -/
theorem Respaced.of_append {w : List Char} (good : ∀ c ∈ w, isStructural c = false)
    (same : Respaced (w ++ s) t) : ∃ s', t = w ++ s' ∧ Respaced s s' := by
  induction w generalizing t with
  | nil => exact ⟨t, rfl, same⟩
  | cons c w ih =>
    rw [List.forall_mem_cons] at good
    obtain ⟨u, rfl, more⟩ := same.of_good good.1
    obtain ⟨s', rfl, left⟩ := ih good.2 more
    exact ⟨s', rfl, left⟩

/-- No character of a name comes first where none did. -/
theorem Respaced.stop (same : Respaced s s') (stop : ∀ c ∈ s.head?, isNameChar c = false) :
    ∀ c ∈ s'.head?, isNameChar c = false := by
  intro c first
  rcases same.mem_head? c first with first | rfl | rfl
  · exact stop c first
  · rfl
  · rfl

/-- A run of characters for names is the same run. -/
theorem Respaced.run (same : Respaced s s') (avoids : Avoids isStructural s) :
    s'.takeWhile isNameChar = s.takeWhile isNameChar ∧
      Respaced (s.dropWhile isNameChar) (s'.dropWhile isNameChar) := by
  have good : ∀ c ∈ s.takeWhile isNameChar, isStructural c = false := by
    intro c member
    by_cases escape : c = '\\'
    · rw [escape]
      rfl
    · exact (avoids.run structural_of_isMark s).1 c member escape
  have names : ∀ c ∈ s.takeWhile isNameChar, isNameChar c = true := fun _ => List.mem_takeWhile_imp
  rw [← List.takeWhile_append_dropWhile (p := isNameChar) (l := s)] at same
  obtain ⟨r, rfl, more⟩ := same.of_append good
  have stopped : r.takeWhile isNameChar = [] ∧ r.dropWhile isNameChar = r := by
    have stop := more.stop (s := s.dropWhile isNameChar) fun c first => by
      simpa [Option.mem_def.mp first] using List.head?_dropWhile_not isNameChar s
    cases r with
    | nil => exact ⟨rfl, rfl⟩
    | cons c r =>
      have notName := stop c rfl
      simp [notName]
  rw [List.takeWhile_append_of_pos names, List.dropWhile_append_of_pos names, stopped.1, stopped.2,
    List.append_nil]
  exact ⟨rfl, more⟩

theorem Respaced.value {value : List Char} (same : Respaced s s') (avoids : Avoids isStructural s)
    (read : Yields (Selector.readValue s) value r) :
    ∃ r', Yields (Selector.readValue s') value r' ∧ Respaced r r' := by
  rcases Selector.yields_readValue.mp read with ⟨q, t, quote, rfl, scan⟩ | ⟨filled, rfl, rfl⟩
  · have quoted : isQuote q = true := by rcases quote with rfl | rfl <;> rfl
    obtain ⟨body, passed, again⟩ := scanDelimited_of_scanQuoted scan
    obtain ⟨r', rfl, more⟩ := same.of_quoted quoted passed
    exact ⟨r', Selector.yields_readValue.mpr (.inl ⟨q, _, quote, rfl, again r'⟩), more⟩
  · obtain ⟨run, more⟩ := same.run avoids
    exact ⟨_, Selector.yields_readValue.mpr (.inr ⟨filled, run.symm, rfl⟩), more⟩

theorem facts_of_operatorOf {op : AttributeOperator} (means : Selector.operatorOf c = some op) :
    isBlank c = false ∧ isQuote c = false ∧ c ≠ ',' := by
  unfold Selector.operatorOf at means
  split at means <;> first | decide | cases means

theorem Respaced.operator {op : AttributeOperator} (same : Respaced s s')
    (read : Yields (Selector.readOperator s) op r) :
    ∃ r', Yields (Selector.readOperator s') op r' ∧ Respaced r r' := by
  rcases Selector.yields_readOperator.mp read with ⟨rfl, exact_⟩ | ⟨c, other, means, rfl⟩
  · obtain ⟨r', rfl, more⟩ := same.of_good rfl
    exact ⟨r', Selector.yields_readOperator.mpr (.inl ⟨rfl, exact_⟩), more⟩
  · obtain ⟨filled, plain, notComma⟩ := facts_of_operatorOf means
    obtain ⟨t, rfl, behind⟩ := same.of_char filled plain notComma
    obtain ⟨r', rfl, more⟩ := behind.of_good rfl
    exact ⟨r', Selector.yields_readOperator.mpr (.inr ⟨c, other, means, rfl⟩), more⟩

/-- A flag in front of a closing bracket is read as it was. -/
theorem Respaced.flag {ignore : Bool} (same : Respaced s s')
    (read : Selector.readFlag s = (ignore, ']' :: r)) :
    ∃ r', Selector.readFlag s' = (ignore, ']' :: r') ∧ Respaced r r' := by
  have letter {c : Char} {s t : List Char} (flag : c ∈ "iIsS".toList) (same : Respaced (c :: s) t)
      (there : Text.skipBlanks s = ']' :: r) :
      ∃ s' r', t = c :: s' ∧ Text.skipBlanks s' = ']' :: r' ∧ Respaced r r' := by
    obtain ⟨s', rfl, behind⟩ :=
      same.of_good ((List.all_iff_forall_prop (p := fun c => isStructural c = false)).mp
        (by decide) c flag)
    have behind := behind.skipBlanks
    rw [there] at behind
    obtain ⟨r', there', more⟩ := behind.of_char rfl rfl (by decide)
    exact ⟨s', r', rfl, there', more⟩
  unfold Selector.readFlag at read
  split at read
  · cases read
  · next c rest =>
    split at read
    · next upper =>
      obtain ⟨rfl, there⟩ := Prod.mk.inj read
      obtain ⟨t, r', rfl, there', more⟩ := letter (by rcases upper with rfl | rfl <;> decide) same there
      exact ⟨r', by simp [Selector.readFlag, upper, there'], more⟩
    · next notIgnore =>
      split at read
      · next lower =>
        obtain ⟨rfl, there⟩ := Prod.mk.inj read
        obtain ⟨t, r', rfl, there', more⟩ :=
          letter (by rcases lower with rfl | rfl <;> decide) same there
        exact ⟨r', by simp [Selector.readFlag, notIgnore, lower, there'], more⟩
      · obtain ⟨rfl, there⟩ := Prod.mk.inj read
        obtain ⟨rfl, rfl⟩ := List.cons.inj there
        obtain ⟨r', rfl, more⟩ := same.of_char rfl rfl (by decide)
        exact ⟨r', rfl, more⟩

theorem Respaced.attribute {a : AttributeSelector} (same : Respaced s s')
    (avoids : Avoids isStructural s) (read : Yields (readAttribute s) a r) :
    ∃ r', Yields (readAttribute s') a r' ∧ Respaced r r' := by
  obtain ⟨name, t, scan, filled, lowered, rest⟩ := Selector.yields_readAttribute.mp read
  obtain ⟨t', scan', named⟩ := same.skipBlanks.scanName avoids.skipBlanks scan
  have left := (avoids.skipBlanks.of_scanName scan).skipBlanks
  have behind := named.skipBlanks
  rcases rest with ⟨closed, none⟩ | ⟨test, open_, read, some⟩
  · rw [closed] at behind
    obtain ⟨r', closed', more⟩ := behind.of_char rfl rfl (by decide)
    exact ⟨r', Selector.yields_readAttribute.mpr
      ⟨name, t', scan', filled, lowered, .inl ⟨closed', none⟩⟩, more⟩
  · obtain ⟨op, u, value, v, readOp, readValue, flag, parts⟩ := Selector.yields_readTest.mp read
    obtain ⟨u', readOp', behindOp⟩ := behind.operator readOp
    have left := ((passes_operator readOp left).2).skipBlanks
    obtain ⟨v', readValue', behindValue⟩ := behindOp.skipBlanks.value left readValue
    obtain ⟨r', flag', more⟩ := behindValue.skipBlanks.flag flag
    refine ⟨r', Selector.yields_readAttribute.mpr ⟨name, t', scan', filled, lowered, .inr ⟨test, ?_,
      Selector.yields_readTest.mpr ⟨op, u', value, v', readOp', readValue', flag', parts⟩, some⟩⟩, more⟩
    rw [behind.head?_eq (isBlank_head?_skipBlanks t)]
    exact open_

/-- Blanks in front of a text stand in front of its first parenthesis. -/
theorem eq_append_of_blank {b front : List Char} (blank : ∀ c ∈ b, isBlank c = true)
    (same : b ++ s = front ++ ')' :: r) : ∃ inner, front = b ++ inner ∧ s = inner ++ ')' :: r := by
  rcases List.append_eq_append_iff.mp same with ⟨x, rfl, rest⟩ | ⟨x, rfl, rest⟩
  · exact ⟨x, rfl, rest⟩
  · match x with
    | [] => exact ⟨[], by simp, by simpa using rest.symm⟩
    | c :: x =>
      obtain ⟨rfl, -⟩ := List.cons.inj rest
      have closes := blank ')' (by simp)
      cases closes

/-- An index expression keeps its characters, blanks apart. -/
theorem Respaced.nth {front : List Char} (same : Respaced (front ++ ')' :: r) t)
    (plain : ∀ c ∈ front, isBlank c = true ∨ isMark c = false) :
    ∃ front' r', t = front' ++ ')' :: r' ∧ ')' ∉ front' ∧ Respaced r r' ∧
      front'.filter (!isBlank ·) = front.filter (!isBlank ·) := by
  generalize there : front ++ ')' :: r = u at same
  induction same generalizing front with
  | finish blank =>
    rw [← there] at blank
    have closes := blank ')' (by simp)
    cases closes
  | @char c s s' filled notQuote more ih =>
    match front with
    | [] =>
      obtain ⟨rfl, rfl⟩ := List.cons.inj there
      exact ⟨[], s', rfl, List.not_mem_nil, more, rfl⟩
    | d :: front =>
      rw [List.forall_mem_cons] at plain
      obtain ⟨rfl, rest⟩ := List.cons.inj there
      obtain ⟨front', r', rfl, closed, left, kept⟩ := ih plain.2 rest
      refine ⟨d :: front', r', rfl, ?_, left, by simp [filled, kept]⟩
      rw [List.mem_cons, not_or]
      refine ⟨?_, closed⟩
      rintro rfl
      rcases plain.1 with blank | unmarked
      · cases blank
      · cases unmarked
  | @quoted q body s s' quote scan more _ =>
    match front with
    | [] =>
      obtain ⟨rfl, -⟩ := List.cons.inj there
      cases quote
    | d :: front =>
      obtain ⟨rfl, -⟩ := List.cons.inj there
      rcases plain d (by simp) with blank | unmarked
      · rw [isBlank_of_isQuote quote] at blank
        cases blank
      · rw [isQuote_eq_false unmarked] at quote
        cases quote
  | @blanks c b s s' first blank more ih =>
    have blank : ∀ d ∈ c :: b, isBlank d = true := List.forall_mem_cons.mpr ⟨first, blank⟩
    obtain ⟨inner, rfl, rfl⟩ := eq_append_of_blank blank there.symm
    obtain ⟨front', r', rfl, closed, left, kept⟩ :=
      ih (fun c member => plain c (List.mem_append_right _ member)) rfl
    refine ⟨' ' :: front', r', rfl, by simpa using closed, left, ?_⟩
    have none : (c :: b).filter (!isBlank ·) = [] := by simpa using blank
    rw [List.filter_append, none, List.filter_cons_of_neg (by decide), kept]
    rfl
  | @comma b b' s s' blank blank' more ih =>
    obtain ⟨inner, rfl, rest⟩ := eq_append_of_blank blank there.symm
    match inner with
    | [] => cases rest
    | d :: inner =>
      obtain ⟨rfl, -⟩ := List.cons.inj rest
      rcases plain ',' (by simp) with blank | unmarked
      · cases blank
      · cases unmarked

end

/-! ## Selectors -/

/-- The relation between a text in front of which a reader skips blanks and another. -/
def RespacedFor (s s' : List Char) : Item → Prop
  | .list _ | .complex _ | .relatives _ => Respaced (skipBlanks s) (skipBlanks s')
  | .joins _ _ | .compound _ | .simples _ | .simple _ | .pseudo _ => Respaced s s'

theorem readLead_of_respaced {s s' : List Char} (same : Respaced (skipBlanks s) (skipBlanks s')) :
    (readLead (skipBlanks s')).1 = (readLead (skipBlanks s)).1 ∧
      Respaced (skipBlanks (readLead (skipBlanks s)).2) (skipBlanks (readLead (skipBlanks s')).2) := by
  have heads := same.head?_eq (isBlank_head?_skipBlanks s)
  cases there : skipBlanks s with
  | nil =>
    rw [there] at heads
    rw [List.head?_eq_none_iff.mp heads]
    exact ⟨rfl, Respaced.finish (b := []) (by simp)⟩
  | cons c t =>
    rw [there] at same heads
    obtain ⟨t', there'⟩ := List.head?_eq_some_iff.mp heads
    rw [there'] at same ⊢
    unfold readLead
    dsimp only
    cases means : combinatorOf c with
    | none => exact ⟨rfl, same.skipBlanks⟩
    | some k =>
      have filled : isBlank c = false ∧ c ≠ ',' := by
        rcases Selector.combinatorOf_eq_some means with rfl | rfl | rfl <;> decide
      obtain ⟨u, whole, more⟩ := same.of_char filled.1
        (isQuote_eq_false (facts_of_combinatorOf means).2.1) filled.2
      obtain ⟨-, rfl⟩ := List.cons.inj whole
      exact ⟨rfl, more.skipBlanks⟩

/-- Where no comma comes next, none comes next with other blanks either. -/
theorem Respaced.not_comma {s s' : List Char}
    (same : Respaced (Text.skipBlanks s) (Text.skipBlanks s'))
    (last : ∀ u, Text.skipBlanks s ≠ ',' :: u) (u : List Char) : Text.skipBlanks s' ≠ ',' :: u := by
  intro comma
  have heads := same.head?_eq (isBlank_head?_skipBlanks s)
  rw [comma] at heads
  obtain ⟨v, there⟩ := List.head?_eq_some_iff.mp heads.symm
  exact last v there

/-- A name and the parenthesis behind it, in front of an argument. -/
theorem Respaced.opened {s s' t name : List Char} (same : Respaced s s')
    (avoids : Avoids isStructural s) (scan : Selector.scanName s = some (name, '(' :: t)) :
    ∃ t', Selector.scanName s' = some (name, '(' :: t') ∧ Avoids isStructural t ∧ Respaced t t' := by
  obtain ⟨v, scan', more⟩ := same.scanName avoids scan
  obtain ⟨t', rfl, inside⟩ := more.of_char rfl rfl (by decide)
  exact ⟨t', scan', (avoids.of_scanName scan).of_sign (by decide) rfl, inside⟩

/-- The parenthesis behind an argument. -/
theorem Respaced.closed {s s' r : List Char} (same : Respaced s s')
    (close : Text.skipBlanks s = ')' :: r) :
    ∃ r', Text.skipBlanks s' = ')' :: r' ∧ Respaced r r' := by
  have behind := same.skipBlanks
  rw [close] at behind
  exact behind.of_char rfl rfl (by decide)

/-- Whatever can be read from a text can be read from the text with other blanks. -/
theorem Respaced.reads {item : Item} {s s' r : List Char} (reads : Reads item s r)
    (avoids : Avoids isStructural s) (same : RespacedFor s s' item) :
    ∃ r', Reads item s' r' ∧ Respaced r r' := by
  have left {item : Item} {s r : List Char} (reads : Reads item s r) (avoids : Avoids isStructural s) :
      Avoids isStructural r := (passed_of_reads structural_of_isMark reads avoids).2
  induction reads generalizing s' with
  | @listOne s t c first last ih =>
    obtain ⟨t', first', more⟩ := ih avoids same
    have behind := more.skipBlanks
    exact ⟨_, .listOne first' (behind.not_comma last), behind⟩
  | @listMore s t u r c cs first comma _ ih ihMore =>
    obtain ⟨t', first', more⟩ := ih avoids same
    have behind := more.skipBlanks
    have avoids := (left first avoids).skipBlanks
    rw [comma] at behind avoids
    obtain ⟨u', comma', behind⟩ := behind.of_comma
    obtain ⟨r', more', left⟩ := ihMore (avoids.of_sign (by decide) rfl) behind
    exact ⟨r', .listMore first' comma' more', left⟩
  | @complex s t r parts c first joined ih ihJoined =>
    obtain ⟨t', first', more⟩ := ih avoids.skipBlanks same
    obtain ⟨r', joined', more⟩ := ihJoined (left first avoids.skipBlanks) more
    exact ⟨r', .complex first' joined', more⟩
  | @joinsEnd s c ends =>
    have behind := same.skipBlanks
    refine ⟨_, .joinsEnd ?_, behind⟩
    rwa [Selector.Ends, behind.head?_eq (isBlank_head?_skipBlanks s)]
  | @joinsSign s t u r lhs c sign k parts there means right joined ih ihJoined =>
    have behind := same.skipBlanks
    have avoids := avoids.skipBlanks
    rw [there] at behind avoids
    obtain ⟨notEscape, unmarked, -⟩ := facts_of_combinatorOf means
    have filled : isBlank sign = false ∧ sign ≠ ',' := by
      rcases Selector.combinatorOf_eq_some means with rfl | rfl | rfl <;> decide
    obtain ⟨t', there', behind⟩ := behind.of_char filled.1 (isQuote_eq_false unmarked) filled.2
    have avoids := (avoids.of_sign notEscape (isQuote_eq_false unmarked)).skipBlanks
    obtain ⟨u', right', more⟩ := ih avoids behind.skipBlanks
    obtain ⟨r', joined', more⟩ := ihJoined (left right avoids) more
    exact ⟨r', .joinsSign there' means right' joined', more⟩
  | @joinsBlank s u r lhs c parts blank right joined ih ihJoined =>
    obtain ⟨first, v, there, notEnd, -⟩ := right.starts
    have behind := same.skipBlanks
    obtain ⟨u', right', more⟩ := ih avoids.skipBlanks behind
    obtain ⟨r', joined', more⟩ := ihJoined (left right avoids.skipBlanks) more
    refine ⟨r', .joinsBlank (same.of_blank blank ?_ ?_) right' joined', more⟩
    · rw [there]
      exact List.cons_ne_nil _ _
    · rw [there]
      intro comma
      exact notEnd (.inl (Option.some.inj comma))
  | @compoundAny s r parts more ih =>
    obtain ⟨t, rfl, behind⟩ := same.of_good rfl
    obtain ⟨r', more', behind⟩ := ih (avoids.of_sign (by decide) rfl) behind
    exact ⟨r', .compoundAny more', behind⟩
  | @compoundType s t r name c parts start tag more ih =>
    obtain ⟨t', tag', behind⟩ := same.scanName avoids tag
    obtain ⟨r', more', behind⟩ := ih (avoids.of_scanName tag) behind
    have good : isStructural c = false := by
      by_cases escape : c = '\\'
      · rw [escape]
        rfl
      · exact avoids.good_of_isNameChar (by simp [isNameChar, start]) escape
    obtain ⟨u, rfl, -⟩ := same.of_good good
    exact ⟨r', .compoundType start tag' more', behind⟩
  | compoundSimple first more ih ihMore =>
    obtain ⟨t', first', behind⟩ := ih avoids same
    obtain ⟨r', more', behind⟩ := ihMore (left first avoids) behind
    exact ⟨r', .compoundSimple first' more', behind⟩
  | @simplesEnd s stop =>
    refine ⟨s', .simplesEnd ?_, same⟩
    cases s' with
    | nil => rfl
    | cons c s' =>
      rcases same.mem_head? c rfl with first | rfl | rfl
      · obtain ⟨u, rfl⟩ := List.head?_eq_some_iff.mp first
        exact stop
      · rfl
      · rfl
  | simplesMore first more ih ihMore =>
    obtain ⟨t', first', behind⟩ := ih avoids same
    obtain ⟨r', more', behind⟩ := ihMore (left first avoids) behind
    exact ⟨r', .simplesMore first' more', behind⟩
  | simpleId scan filled =>
    obtain ⟨t, rfl, behind⟩ := same.of_good rfl
    obtain ⟨r', scan', more⟩ := behind.scanName (avoids.of_sign (by decide) rfl) scan
    exact ⟨r', .simpleId scan' filled, more⟩
  | simpleClass scan filled =>
    obtain ⟨t, rfl, behind⟩ := same.of_good rfl
    obtain ⟨r', scan', more⟩ := behind.scanName (avoids.of_sign (by decide) rfl) scan
    exact ⟨r', .simpleClass scan' filled, more⟩
  | simpleAttribute read =>
    obtain ⟨t, rfl, behind⟩ := same.of_char rfl rfl (by decide)
    obtain ⟨r', read', more⟩ := behind.attribute (avoids.of_sign (by decide) rfl) read
    exact ⟨r', .simpleAttribute read', more⟩
  | simplePseudo _ ih =>
    obtain ⟨t, rfl, behind⟩ := same.of_good rfl
    obtain ⟨r', read', more⟩ := ih (avoids.of_sign (by decide) rfl) behind
    exact ⟨r', .simplePseudo read', more⟩
  | @pseudoPlain s r name p scan closed known =>
    obtain ⟨r', scan', more⟩ := same.scanName avoids scan
    refine ⟨r', .pseudoPlain scan' (fun t opens => ?_) known, more⟩
    rcases more.mem_head? '(' (by rw [opens]; rfl) with first | blank | comma
    · obtain ⟨u, opened⟩ := List.head?_eq_some_iff.mp first
      exact closed u opened
    · cases blank
    · cases comma
  | @pseudoLogical s t u r name f cs scan known argument close ih =>
    obtain ⟨t', scan', avoids, inside⟩ := same.opened avoids scan
    obtain ⟨u', argument', more⟩ := ih avoids inside.skipBlanks
    obtain ⟨r', close', left⟩ := more.closed close
    exact ⟨r', .pseudoLogical scan' known argument' close', left⟩
  | @pseudoNth s t r name f e scan known argument close =>
    obtain ⟨t', scan', -, behind⟩ := same.opened avoids scan
    have halves := List.takeWhile_append_dropWhile (p := (· != ')')) (l := t)
    rw [close] at halves
    rw [← halves] at behind
    obtain ⟨front, r', rfl, closed, left, kept⟩ := behind.nth fun c member =>
      (Selector.isNthChar_of_ofChars argument c member).imp_right fun nth =>
        isMark_eq_false (Selector.isNthChar ·.toLower) nth (by decide)
    have inside : ∀ c ∈ front, (c != ')') = true := by
      intro c member
      rw [bne_iff_ne]
      rintro rfl
      exact closed member
    refine ⟨r', .pseudoNth scan' known ?_ ?_, left⟩
    · rw [List.takeWhile_append_of_pos inside, List.takeWhile_cons_of_neg (by decide),
        List.append_nil, Nth.ofChars, kept]
      exact argument
    · rw [List.dropWhile_append_of_pos inside, List.dropWhile_cons_of_neg (by decide)]
  | @pseudoHas s t u r name rs scan known argument close ih =>
    obtain ⟨t', scan', avoids, inside⟩ := same.opened avoids scan
    obtain ⟨u', argument', more⟩ := ih avoids inside.skipBlanks
    obtain ⟨r', close', left⟩ := more.closed close
    exact ⟨r', .pseudoHas scan' known argument' close', left⟩
  | @relativesOne s t c first last ih =>
    obtain ⟨lead, behind⟩ := readLead_of_respaced same
    obtain ⟨t', first', more⟩ := ih (passes_lead avoids.skipBlanks).2 behind
    have behind := more.skipBlanks
    rw [← lead]
    exact ⟨_, .relativesOne first' (behind.not_comma last), behind⟩
  | @relativesMore s t u r c rs first comma _ ih ihMore =>
    obtain ⟨lead, behind⟩ := readLead_of_respaced same
    have avoids := (passes_lead avoids.skipBlanks).2
    obtain ⟨t', first', more⟩ := ih avoids behind
    have behind := more.skipBlanks
    have avoids := (left first avoids).skipBlanks
    rw [comma] at behind avoids
    obtain ⟨u', comma', behind⟩ := behind.of_comma
    obtain ⟨r', more', left⟩ := ihMore (avoids.of_sign (by decide) rfl) behind
    rw [← lead]
    exact ⟨r', .relativesMore first' comma' more', left⟩

end NoiseFilter.Extended
