import NoiseFilter.Proofs.Extended.Names
import NoiseFilter.Proofs.Selector.Arguments

/-!
# Orderly text

A text in which parentheses and brackets are balanced, quotes are closed and no text test begins.
The scanners pass over it as a whole. Every text that can be read as a part of a selector is orderly,
if no name in it holds a mark (`Reads.orderly`).
-/

namespace NoiseFilter.Extended

open Selector (Item Reads Yields isNameChar isNameStart scanName readAttribute combinatorOf)
open Text (isBlank skipBlanks)

/-- `Orderly commas s r`: the text `s`, behind which `r` stands, is orderly. Parentheses are not empty,
and commas outside parentheses and brackets are only allowed where `commas` says so. -/
inductive Orderly : Bool → List Char → List Char → Prop
  | done {k : Bool} {r : List Char} : Orderly k [] r
  | plain {k : Bool} {c : Char} {s r : List Char} (unmarked : isMark c = false) (notColon : c ≠ ':')
    (more : Orderly k s r) : Orderly k (c :: s) r
  | quoted {k : Bool} {q : Char} {body s r : List Char} (quote : isQuote q = true)
    (scan : scanDelimited q (body ++ [q]) = some (body, [])) (more : Orderly k s r) :
    Orderly k (q :: body ++ q :: s) r
  | colon {k : Bool} {s r : List Char} (noTest : afterContains (':' :: s ++ r) = none)
    (noHas : afterHas (':' :: s ++ r) = none) (more : Orderly k s r) : Orderly k (':' :: s) r
  | has {k : Bool} {word argument s r : List Char} (has : word.map Char.toLower = "has".toList)
    (filled : skipBlanks argument ≠ []) (inside : Orderly true argument (')' :: s ++ r)) (more : Orderly k s r) :
    Orderly k (':' :: word ++ '(' :: argument ++ ')' :: s) r
  | parens {k : Bool} {argument s r : List Char} (filled : skipBlanks argument ≠ [])
    (inside : Orderly true argument (')' :: s ++ r)) (more : Orderly k s r) :
    Orderly k ('(' :: argument ++ ')' :: s) r
  | brackets {k : Bool} {argument s r : List Char} (inside : Orderly true argument (']' :: s ++ r))
    (more : Orderly k s r) : Orderly k ('[' :: argument ++ ']' :: s) r
  | comma {s r : List Char} (more : Orderly true s r) : Orderly true (',' :: s) r

namespace Orderly

variable {k : Bool} {s t r u : List Char}

theorem trans (front : Orderly k s (t ++ r)) (back : Orderly k t r) : Orderly k (s ++ t) r := by
  generalize there : t ++ r = rest at front
  induction front with
  | done => exact back
  | plain unmarked notColon _ ih => exact .plain unmarked notColon (ih back there)
  | @quoted _ q body s r quote scan _ ih =>
    rw [show q :: body ++ q :: s ++ t = q :: body ++ q :: (s ++ t) by simp]
    exact .quoted quote scan (ih back there)
  | colon noTest noHas _ ih =>
    subst there
    exact .colon (by simpa using noTest) (by simpa using noHas) (ih back rfl)
  | @has _ word argument s r has filled inside _ _ ih =>
    subst there
    rw [show ':' :: word ++ '(' :: argument ++ ')' :: s ++ t =
      ':' :: word ++ '(' :: argument ++ ')' :: (s ++ t) by simp]
    exact .has has filled (by simpa using inside) (ih back rfl)
  | @parens _ argument s r filled inside _ _ ih =>
    subst there
    rw [show '(' :: argument ++ ')' :: s ++ t = '(' :: argument ++ ')' :: (s ++ t) by simp]
    exact .parens filled (by simpa using inside) (ih back rfl)
  | @brackets _ argument s r inside _ _ ih =>
    subst there
    rw [show '[' :: argument ++ ']' :: s ++ t = '[' :: argument ++ ']' :: (s ++ t) by simp]
    exact .brackets (by simpa using inside) (ih back rfl)
  | comma _ ih => exact .comma (ih back there)

/-- Where commas are not allowed they may be. -/
theorem allow (orderly : Orderly k s r) : Orderly true s r := by
  induction orderly with
  | done => exact .done
  | plain unmarked notColon _ ih => exact .plain unmarked notColon ih
  | quoted quote scan _ ih => exact .quoted quote scan ih
  | colon noTest noHas _ ih => exact .colon noTest noHas ih
  | has has filled inside _ _ ih => exact .has has filled inside ih
  | parens filled inside _ _ ih => exact .parens filled inside ih
  | brackets inside _ _ ih => exact .brackets inside ih
  | comma _ ih => exact .comma ih

theorem of_plain (plain : ∀ c ∈ s, isMark c = false ∧ c ≠ ':') : Orderly k s r := by
  induction s with
  | nil => exact .done
  | cons c s ih =>
    rw [List.forall_mem_cons] at plain
    exact .plain plain.1.1 plain.1.2 (ih plain.2)

theorem of_blank (blank : ∀ c ∈ s, isBlank c = true) : Orderly k s r :=
  of_plain fun c member =>
    ⟨isMark_of_isBlank (blank c member), ne_of_isBlank (blank c member) rfl⟩

end Orderly

/-! ## Openings in front of a name -/

section

variable {front word s t r name : List Char}

/-- Two texts with the same first parenthesis have the same text in front of it. -/
theorem eq_of_append_open (noOpen : '(' ∉ front) (noOpen' : '(' ∉ word)
    (same : front ++ '(' :: s = word ++ '(' :: t) : front = word := by
  induction front generalizing word with
  | nil =>
    cases word with
    | nil => rfl
    | cons c word =>
      obtain ⟨rfl, -⟩ := List.cons.inj same
      exact absurd (List.mem_cons_self ..) noOpen'
  | cons c front ih =>
    cases word with
    | nil =>
      obtain ⟨rfl, -⟩ := List.cons.inj same
      exact absurd (List.mem_cons_self ..) noOpen
    | cons d word =>
      rw [List.mem_cons, not_or] at noOpen noOpen'
      obtain ⟨rfl, rest⟩ := List.cons.inj same
      rw [ih noOpen.2 noOpen'.2 rest]

/-- A word and a parenthesis do not begin in front of a text that neither goes on with a name nor
opens a parenthesis. -/
theorem ne_append_open (noOpen : '(' ∉ front) (notOpen : r.head? ≠ some '(')
    (stop : ∀ c ∈ r.head?, isNameChar c = false) (letters : ∀ c ∈ word, isNameChar c = true) :
    front ++ r ≠ word ++ '(' :: t := by
  intro same
  rcases List.append_eq_append_iff.mp same with ⟨x, rfl, rest⟩ | ⟨x, rfl, rest⟩
  · cases x with
    | nil => exact notOpen (by rw [rest]; rfl)
    | cons c x =>
      have notName := stop c (by rw [rest]; rfl)
      rw [letters c (by simp)] at notName
      cases notName
  · cases x with
    | nil => exact notOpen (by rw [← List.nil_append r, ← rest]; rfl)
    | cons c x => exact noOpen (by simp [← (List.cons.inj rest).1])

theorem isAlpha_of_toLower {c : Char} (lowered : c.toLower.isAlpha = true) : c.isAlpha = true := by
  rcases Text.toNat_toLower c with ⟨-, low, high⟩ | same
  · exact Text.isAlpha_iff.mpr (.inl (Text.isUpper_iff.mpr ⟨low, high⟩))
  · rwa [same] at lowered

/-- The word of a `:has(` is made of letters, however they are written. -/
theorem isAlpha_of_has (has : word.map Char.toLower = "has".toList) : ∀ c ∈ word, c.isAlpha = true := by
  intro c member
  have letter : c.toLower ∈ "has".toList := has ▸ List.mem_map_of_mem member
  exact isAlpha_of_toLower
    (List.all_eq_true.mp (show "has".toList.all Char.isAlpha = true by decide) _ letter)

theorem isNameChar_of_has (has : word.map Char.toLower = "has".toList) :
    ∀ c ∈ word, isNameChar c = true ∧ c ≠ '\\' := by
  intro c member
  have alpha := isAlpha_of_has has c member
  refine ⟨by simp [isNameChar, isNameStart, alpha], ?_⟩
  rintro rfl
  cases alpha

theorem afterHas_colon_iff : afterHas (':' :: s) = some t ↔
    ∃ word, s = word ++ '(' :: t ∧ word.map Char.toLower = "has".toList := by
  rw [afterHas_eq_some_iff, show hasToken = ':' :: ("has".toList ++ ['(']) by decide]
  constructor
  · rintro ⟨w, there, lowered⟩
    obtain ⟨c, w, rfl, -, whole⟩ := List.map_eq_cons_iff.mp lowered
    obtain ⟨word, paren, rfl, has, last⟩ := List.map_eq_append_iff.mp whole
    obtain ⟨d, nothing, rfl, opens, empty⟩ := List.map_eq_cons_iff.mp last
    obtain rfl := List.map_eq_nil_iff.mp empty
    obtain rfl : d = '(' := eq_of_toLower_eq (by decide) opens
    exact ⟨word, by simpa using (List.cons.inj there).2, has⟩
  · rintro ⟨word, rfl, has⟩
    exact ⟨':' :: word ++ ['('], by simp, by simp [has]⟩

/-- Neither opening begins in front of a name that opens no parenthesis. -/
theorem noOpenings (noOpen : '(' ∉ front) (notOpen : r.head? ≠ some '(')
    (stop : ∀ c ∈ r.head?, isNameChar c = false) :
    afterContains (':' :: front ++ r) = none ∧ afterHas (':' :: front ++ r) = none := by
  refine ⟨Option.eq_none_iff_forall_ne_some.mpr fun t found => ?_,
    Option.eq_none_iff_forall_ne_some.mpr fun t found => ?_⟩
  · rw [afterContains_eq_some_iff,
      show containsToken = ':' :: ("contains".toList ++ ['(']) by decide] at found
    have same : front ++ r = "contains".toList ++ '(' :: t := by
      simpa using (List.cons.inj found).2
    exact ne_append_open noOpen notOpen stop (List.all_eq_true.mp (by decide)) same
  · obtain ⟨word, same, has⟩ := afterHas_colon_iff.mp found
    exact ne_append_open noOpen notOpen stop (fun c member => (isNameChar_of_has has c member).1) same

/-- A text test does not begin in front of the name of a function, unless that is its name. -/
theorem noTest_of_scanName (scan : scanName (front ++ '(' :: s) = some (name, '(' :: s))
    (noOpen : '(' ∉ front) (other : name ≠ "contains".toList) :
    afterContains (':' :: front ++ '(' :: s) = none := by
  refine Option.eq_none_iff_forall_ne_some.mpr fun t found => ?_
  rw [afterContains_eq_some_iff,
    show containsToken = ':' :: ("contains".toList ++ ['(']) by decide] at found
  obtain rfl := eq_of_append_open noOpen (by decide)
    (show front ++ '(' :: s = "contains".toList ++ '(' :: t by simpa using (List.cons.inj found).2)
  rw [scanName_append (List.all_iff_forall_prop.mp (by decide)) (by simp; decide)] at scan
  exact other (Prod.mk.inj (Option.some.inj scan)).1.symm

/-- The word of a `:has(` is its name. -/
theorem has_of_scanName (scan : scanName (front ++ '(' :: s) = some (name, '(' :: s))
    (noOpen : '(' ∉ front) (opened : afterHas (':' :: front ++ '(' :: s) = some t) :
    front.map Char.toLower = "has".toList ∧ name.map Char.toLower = "has".toList := by
  obtain ⟨word, same, has⟩ := afterHas_colon_iff.mp opened
  have letters := isNameChar_of_has has
  have noOpen' : '(' ∉ word := fun member => absurd (letters _ member).1 (by decide)
  obtain rfl := eq_of_append_open noOpen noOpen' same
  rw [scanName_append letters (by simp; decide)] at scan
  exact ⟨has, (Prod.mk.inj (Option.some.inj scan)).1 ▸ has⟩

end

/-! ## Passing over text -/

/-- What stands in front of `r` is orderly. -/
def Passes (commas : Bool) (s r : List Char) : Prop := ∃ front, s = front ++ r ∧ Orderly commas front r

namespace Passes

variable {k : Bool} {c q : Char} {s t r u : List Char}

theorem refl : Passes k s s := ⟨[], rfl, .done⟩

theorem trans (front : Passes k s t) (back : Passes k t r) : Passes k s r := by
  obtain ⟨u, rfl, orderly⟩ := front
  obtain ⟨v, rfl, orderly'⟩ := back
  exact ⟨u ++ v, (List.append_assoc ..).symm, orderly.trans orderly'⟩

theorem allow (passes : Passes k s r) : Passes true s r := by
  obtain ⟨front, same, orderly⟩ := passes
  exact ⟨front, same, orderly.allow⟩

theorem plain (unmarked : isMark c = false) (notColon : c ≠ ':') (more : Passes k s r) :
    Passes k (c :: s) r := by
  obtain ⟨front, rfl, orderly⟩ := more
  exact ⟨c :: front, rfl, .plain unmarked notColon orderly⟩

theorem skipBlanks (more : Passes k (skipBlanks s) r) : Passes k s r := by
  obtain ⟨b, blank, halves⟩ := exists_skipBlanks s
  exact trans ⟨b, halves, .of_blank blank⟩ more

theorem comma (more : Passes true s r) : Passes true (',' :: s) r := by
  obtain ⟨front, rfl, orderly⟩ := more
  exact ⟨',' :: front, rfl, .comma orderly⟩

theorem suffix (passes : Passes k s r) : r <:+ s := by
  obtain ⟨front, rfl, -⟩ := passes
  exact List.suffix_append _ _

theorem quoted (quote : isQuote q = true) {body : List Char}
    (scan : scanDelimited q s = some (body, r)) : Passes k (q :: s) r :=
  ⟨q :: body ++ [q], by simp [eq_of_scanDelimited scan], .quoted quote (scanDelimited_body scan) .done⟩

theorem brackets (inside : Passes true s (']' :: r)) : Passes k ('[' :: s) r := by
  obtain ⟨front, rfl, orderly⟩ := inside
  exact ⟨'[' :: front ++ [']'], by simp, .brackets orderly .done⟩

end Passes

/-! ## Parts of selectors -/

section

variable {bad : Char → Bool} {c : Char} {s t r name : List Char}
  (marks : ∀ c, isMark c = true → bad c = true)

include marks

theorem isMark_of_good (good : bad c = false) : isMark c = false :=
  Bool.eq_false_iff.mpr fun mark => by rw [marks c mark] at good; cases good

/-- A name is orderly, if nothing in it that looks like a pseudo-class can be one. -/
theorem orderly_name (scan : scanName s = some (name, r)) (avoids : Avoids bad s)
    (alone : r.head? ≠ some '(' ∨ ':' ∉ name) :
    ∃ front, s = front ++ r ∧ '(' ∉ front ∧ Orderly false front r := by
  have unmarked {c : Char} := isMark_of_good (c := c) marks
  have stop := isNameChar_of_scanName scan
  fun_induction scanName s generalizing name r with
  | case1 =>
    cases scan
    exact ⟨[], rfl, List.not_mem_nil, .done⟩
  | case2 => cases scan
  | case3 d rest ih =>
    obtain ⟨⟨inner, u⟩, found, same⟩ := Option.map_eq_some_iff.mp scan
    cases same
    obtain ⟨good, avoids⟩ := Avoids.escape_iff.mp avoids
    obtain ⟨front, rfl, noOpen, orderly⟩ :=
      ih found avoids (alone.imp_right List.not_mem_of_not_mem_cons) stop
    have notOpen : d ≠ '(' := by rintro rfl; cases unmarked good
    refine ⟨'\\' :: d :: front, rfl, by simp [noOpen, Ne.symm notOpen],
      .plain rfl (by decide) ?_⟩
    by_cases colon : d = ':'
    · subst colon
      have none := noOpenings noOpen (alone.resolve_right (by simp)) stop
      exact .colon none.1 none.2 orderly
    · exact .plain (unmarked good) colon orderly
  | case4 c rest notEscape char ih =>
    obtain ⟨⟨inner, u⟩, found, same⟩ := Option.map_eq_some_iff.mp scan
    cases same
    have plain := isMark_of_isNameChar char
    obtain ⟨-, avoids⟩ := (Avoids.char_iff notEscape (isQuote_eq_false plain)).mp avoids
    obtain ⟨front, rfl, noOpen, orderly⟩ :=
      ih found avoids (alone.imp_right List.not_mem_of_not_mem_cons) stop
    refine ⟨c :: front, rfl, ?_, .plain plain (ne_of_isNameChar char rfl) orderly⟩
    simp [noOpen, Ne.symm (ne_of_isNameChar char (rfl : isNameChar '(' = false))]
  | case5 c rest notEscape notChar =>
    cases scan
    exact ⟨[], rfl, List.not_mem_nil, .done⟩

/-- The name of a function opens its argument, which is not empty. -/
theorem passes_call (scan : scanName s = some (name, '(' :: t)) (avoids : Avoids bad s)
    (noColon : ':' ∉ name) (notTest : name ≠ "contains".toList)
    (open_ : (skipBlanks t).head? ≠ some ')') (inside : Passes true t (')' :: r)) :
    Passes false (':' :: s) r := by
  obtain ⟨front, rfl, noOpen, orderly⟩ := orderly_name marks scan avoids (.inr noColon)
  obtain ⟨argument, rfl, inside⟩ := inside
  have filled : skipBlanks argument ≠ [] := by
    intro nothing
    refine open_ ?_
    rw [skipBlanks, List.dropWhile_append_of_pos (List.dropWhile_eq_nil_iff.mp nothing)]
    rfl
  refine ⟨':' :: front ++ '(' :: argument ++ [')'], by simp, ?_⟩
  cases opened : afterHas (':' :: front ++ '(' :: (argument ++ ')' :: r)) with
  | some t => exact .has (has_of_scanName scan noOpen opened).1 filled inside .done
  | none =>
    have whole : Orderly false (front ++ '(' :: argument ++ [')']) r := by
      rw [List.append_assoc]
      exact .trans (by simpa using orderly) (.parens filled inside .done)
    exact .colon (by simpa using noTest_of_scanName scan noOpen notTest) (by simpa using opened)
      (by simpa using whole)

/-- The characters of a run that is taken as it is are no bad ones, and the text goes on behind it. A
backslash does not end a run, so it may be taken together with what stands behind it. -/
theorem Avoids.run : ∀ s, Avoids bad s →
    (∀ c ∈ s.takeWhile isNameChar, c ≠ '\\' → bad c = false) ∧ Avoids bad (s.dropWhile isNameChar)
  | [], avoids => ⟨by simp, avoids⟩
  | c :: s, avoids => by
    by_cases name : isNameChar c = true
    · rw [List.dropWhile_cons_of_pos name, List.takeWhile_cons_of_pos name, List.forall_mem_cons]
      by_cases escape : c = '\\'
      · subst escape
        match s with
        | [] => exact ⟨⟨fun other => absurd rfl other, by simp⟩, rfl⟩
        | d :: s =>
          obtain ⟨good, avoids⟩ := Avoids.escape_iff.mp avoids
          by_cases name' : isNameChar d = true
          · rw [List.dropWhile_cons_of_pos name', List.takeWhile_cons_of_pos name',
              List.forall_mem_cons]
            obtain ⟨inside, left⟩ := Avoids.run s avoids
            exact ⟨⟨fun other => absurd rfl other, fun _ => good, inside⟩, left⟩
          · rw [List.dropWhile_cons_of_neg name', List.takeWhile_cons_of_neg name']
            have notEscape : d ≠ '\\' := by rintro rfl; exact name' rfl
            have plain := isQuote_eq_false (isMark_of_good marks good)
            exact ⟨⟨fun other => absurd rfl other, by simp⟩,
              (Avoids.char_iff notEscape plain).mpr ⟨fun _ => good, avoids⟩⟩
      · obtain ⟨good, avoids⟩ :=
          (Avoids.char_iff escape (isQuote_eq_false (isMark_of_isNameChar name))).mp avoids
        obtain ⟨inside, left⟩ := Avoids.run s avoids
        exact ⟨⟨fun _ => good name, inside⟩, left⟩
    · rw [List.dropWhile_cons_of_neg name, List.takeWhile_cons_of_neg name]
      exact ⟨by simp, avoids⟩

omit marks in
theorem passes_run (s : List Char) : Passes false s (s.dropWhile isNameChar) := by
  refine ⟨_, List.takeWhile_append_dropWhile.symm, .of_plain fun c member => ?_⟩
  have name := List.mem_takeWhile_imp member
  exact ⟨isMark_of_isNameChar name, ne_of_isNameChar name rfl⟩

omit marks in
/-- Nothing but a character that is none of a name, no backslash and no quote. -/
theorem Avoids.of_sign (avoids : Avoids bad (c :: s)) (notEscape : c ≠ '\\')
    (plain : isQuote c = false) : Avoids bad s :=
  ((Avoids.char_iff notEscape plain).mp avoids).2

omit marks in
theorem passes_flag (avoids : Avoids bad s) :
    Passes false s (Selector.readFlag s).2 ∧ Avoids bad (Selector.readFlag s).2 := by
  have letter {c : Char} {s : List Char} (flag : c ∈ "iIsS".toList) (avoids : Avoids bad (c :: s)) :
      Passes false (c :: s) (skipBlanks s) ∧ Avoids bad (skipBlanks s) := by
    have facts := (List.all_iff_forall_prop
      (p := fun c => c ≠ '\\' ∧ isMark c = false ∧ c ≠ ':')).mp (by decide) c flag
    exact ⟨.plain facts.2.1 facts.2.2 (.skipBlanks .refl),
      (avoids.of_sign facts.1 (isQuote_eq_false facts.2.1)).skipBlanks⟩
  unfold Selector.readFlag
  split
  · exact ⟨.refl, avoids⟩
  · next c rest =>
    split
    · next ignore => exact letter (by rcases ignore with rfl | rfl <;> decide) avoids
    · split
      · next respect => exact letter (by rcases respect with rfl | rfl <;> decide) avoids
      · exact ⟨.refl, avoids⟩

theorem passes_value {value : List Char} (read : Yields (Selector.readValue s) value r)
    (avoids : Avoids bad s) : Passes false s r ∧ Avoids bad r := by
  rcases Selector.yields_readValue.mp read with ⟨q, t, quote, rfl, scan⟩ | ⟨-, -, rfl⟩
  · have quote : isQuote q = true := by rcases quote with rfl | rfl <;> rfl
    obtain ⟨body, scan, -⟩ := scanDelimited_of_scanQuoted scan
    exact ⟨.quoted quote scan, .of_quoted quote avoids scan⟩
  · exact ⟨passes_run s, (avoids.run marks s).2⟩

omit marks in
theorem passes_operator {op : AttributeOperator} (read : Yields (Selector.readOperator s) op r)
    (avoids : Avoids bad s) : Passes false s r ∧ Avoids bad r := by
  have equals {s : List Char} (avoids : Avoids bad ('=' :: s)) :
      Passes false ('=' :: s) s ∧ Avoids bad s :=
    ⟨.plain rfl (by decide) .refl, avoids.of_sign (by decide) rfl⟩
  rcases Selector.yields_readOperator.mp read with ⟨rfl, -⟩ | ⟨c, -, means, rfl⟩
  · exact equals avoids
  · have facts : c ≠ '\\' ∧ isMark c = false ∧ c ≠ ':' := by
      unfold Selector.operatorOf at means
      split at means <;> first | decide | cases means
    obtain ⟨passes, left⟩ := equals (avoids.of_sign facts.1 (isQuote_eq_false facts.2.1))
    exact ⟨.plain facts.2.1 facts.2.2 passes, left⟩

/-- What stands between brackets is orderly. -/
theorem passes_inside {a : AttributeSelector} (read : Yields (readAttribute s) a r)
    (avoids : Avoids bad s) : Passes true s (']' :: r) ∧ Avoids bad (']' :: r) := by
  obtain ⟨name, t, scan, -, -, rest⟩ := Selector.yields_readAttribute.mp read
  have alone : t.head? ≠ some '(' := by
    intro opens
    obtain ⟨u, rfl⟩ := List.head?_eq_some_iff.mp opens
    rw [show skipBlanks ('(' :: u) = '(' :: u from rfl] at rest
    rcases rest with ⟨closed, -⟩ | ⟨test, -, read, -⟩
    · cases closed
    · obtain ⟨op, _, _, _, readOp, -⟩ := Selector.yields_readTest.mp read
      rcases Selector.yields_readOperator.mp readOp with ⟨same, -⟩ | ⟨c, -, means, same⟩
      · cases same
      · obtain ⟨rfl, -⟩ := List.cons.inj same
        cases means
  obtain ⟨front, halves, -, orderly⟩ := orderly_name marks scan avoids.skipBlanks (.inl alone)
  have left := avoids.skipBlanks.of_scanName scan
  have named : Passes true s t := .skipBlanks ⟨front, halves, orderly.allow⟩
  rcases rest with ⟨closed, -⟩ | ⟨test, -, read, -⟩
  · exact ⟨named.trans (.skipBlanks (closed ▸ .refl)), closed ▸ left.skipBlanks⟩
  · obtain ⟨op, u, value, v, readOp, readValue, flag, -⟩ := Selector.yields_readTest.mp read
    obtain ⟨passesOp, left⟩ := passes_operator readOp left.skipBlanks
    obtain ⟨passesValue, left⟩ := passes_value marks readValue left.skipBlanks
    obtain ⟨passesFlag, left⟩ := passes_flag left.skipBlanks
    rw [flag] at passesFlag left
    exact ⟨named.trans (.skipBlanks (passesOp.allow.trans (.skipBlanks
      (passesValue.allow.trans (.skipBlanks passesFlag.allow))))), left⟩

theorem passes_attribute {a : AttributeSelector} (read : Yields (readAttribute s) a r)
    (avoids : Avoids bad s) : Passes false ('[' :: s) r ∧ Avoids bad r := by
  have inside := passes_inside marks read avoids
  exact ⟨.brackets inside.1, inside.2.of_sign (by decide) rfl⟩

end

/-! ## Selectors -/

section

variable {bad : Char → Bool} {s t r : List Char}

/-- The argument of an `nth` pseudo-class is orderly. -/
theorem passes_nth {e : Nth} (read : Nth.ofChars (s.takeWhile (· != ')')) = some e)
    (avoids : Avoids bad s) : Passes true s (s.dropWhile (· != ')')) ∧
      Avoids bad (s.dropWhile (· != ')')) := by
  have plain : ∀ c ∈ s.takeWhile (· != ')'), isMark c = false ∧ c ≠ ':' ∧ c ≠ '\\' := by
    intro c member
    rcases Selector.isNthChar_of_ofChars read c member with blank | nth
    · exact ⟨isMark_of_isBlank blank, ne_of_isBlank blank rfl, ne_of_isBlank blank rfl⟩
    · refine ⟨isMark_eq_false (Selector.isNthChar ·.toLower) nth (by decide), ?_, ?_⟩ <;>
        (rintro rfl; cases nth)
  have halves : s.takeWhile (· != ')') ++ s.dropWhile (· != ')') = s :=
    List.takeWhile_append_dropWhile
  refine ⟨⟨_, halves.symm, .of_plain fun c member => ⟨(plain c member).1, (plain c member).2.1⟩⟩, ?_⟩
  rw [← halves] at avoids
  generalize s.takeWhile (· != ')') = front at plain avoids
  induction front with
  | nil => exact avoids
  | cons c front ih =>
    rw [List.forall_mem_cons] at plain
    exact ih plain.2 (avoids.of_sign plain.1.2.2 (isQuote_eq_false plain.1.1))

/-- A combinator is no character of a name, no mark and no colon. -/
theorem facts_of_combinatorOf {c : Char} {k : Combinator} (means : combinatorOf c = some k) :
    c ≠ '\\' ∧ isMark c = false ∧ c ≠ ':' := by
  rcases Selector.combinatorOf_eq_some means with same | same | same <;> rw [same] <;> decide

theorem passes_lead (avoids : Avoids bad s) :
    Passes false s (Selector.readLead s).2 ∧ Avoids bad (Selector.readLead s).2 := by
  unfold Selector.readLead
  split
  · exact ⟨.refl, avoids⟩
  · split
    · next means =>
      have facts := facts_of_combinatorOf means
      exact ⟨.plain facts.2.1 facts.2.2 .refl, avoids.of_sign facts.1 (isQuote_eq_false facts.2.1)⟩
    · exact ⟨.refl, avoids⟩

theorem passes_name {name : List Char} (marks : ∀ c, isMark c = true → bad c = true)
    (scan : scanName s = some (name, r)) (avoids : Avoids bad s) (closed : r.head? ≠ some '(') :
    Passes false s r := by
  obtain ⟨front, halves, -, orderly⟩ := orderly_name marks scan avoids (.inl closed)
  exact ⟨front, halves, orderly⟩

/-- What follows a compound does not open a parenthesis. -/
theorem head?_joins {left c : Complex} (reads : Reads (.joins left c) s r) :
    s.head? ≠ some '(' := by
  intro opens
  obtain ⟨u, rfl⟩ := List.head?_eq_some_iff.mp opens
  have same : skipBlanks ('(' :: u) = '(' :: u := rfl
  cases reads with
  | joinsEnd ends =>
    rw [same] at ends
    exact absurd (ends '(' rfl) (by decide)
  | joinsSign there means =>
    obtain ⟨rfl, -⟩ := List.cons.inj (same.symm.trans there)
    cases means
  | joinsBlank blank => exact absurd blank (by rw [same]; exact Nat.lt_irrefl _)

theorem head?_simples {parts : List Simple} (reads : Reads (.simples parts) s r)
    (closed : r.head? ≠ some '(') : s.head? ≠ some '(' := by
  cases reads with
  | simplesEnd => exact closed
  | simplesMore first =>
    obtain ⟨c, t, rfl, start⟩ := first.startsSimple
    rcases start with rfl | rfl | rfl | rfl <;> simp

/-- What is said of each part of a selector that stands in front of `r`. A pseudo-class is passed over
together with its colon, and names must not be taken for the names of functions. -/
def Passed (s r : List Char) : Item → Prop
  | .list _ | .relatives _ => Passes true s r
  | .complex _ | .joins _ _ => Passes false s r
  | .compound _ | .simples _ | .simple _ => r.head? ≠ some '(' → Passes false s r
  | .pseudo _ => Passes false (':' :: s) r

/-- A name that is known after lowering holds no colon and is not that of a text test. -/
theorem plain_of_lower {name : List Char} {word : String}
    (known : Text.lower (String.ofList name) = word) (noColon : ':' ∉ word.toList)
    (notTest : word ≠ "contains") : ':' ∉ name ∧ name ≠ "contains".toList := by
  constructor
  · intro member
    refine noColon ?_
    rw [← known, Text.lower, String.toList_ofList, String.toList_ofList]
    exact List.mem_map.mpr ⟨':', member, rfl⟩
  · intro same
    refine notTest ?_
    rw [← known, same]
    decide

theorem plain_of_logicalPseudo {name : List Char} {f : List Complex → Pseudo}
    (known : Selector.logicalPseudo (Text.lower (String.ofList name)) = some f) :
    ':' ∉ name ∧ name ≠ "contains".toList := by
  unfold Selector.logicalPseudo at known
  split at known
  · next same => exact plain_of_lower same (by decide) (by decide)
  · next same => exact plain_of_lower same (by decide) (by decide)
  · next same => exact plain_of_lower same (by decide) (by decide)
  · next same => exact plain_of_lower same (by decide) (by decide)
  · cases known

theorem plain_of_nthPseudo {name : List Char} {f : Nth → Pseudo}
    (known : Selector.nthPseudo (Text.lower (String.ofList name)) = some f) :
    ':' ∉ name ∧ name ≠ "contains".toList := by
  unfold Selector.nthPseudo at known
  split at known
  · next same => exact plain_of_lower same (by decide) (by decide)
  · next same => exact plain_of_lower same (by decide) (by decide)
  · next same => exact plain_of_lower same (by decide) (by decide)
  · next same => exact plain_of_lower same (by decide) (by decide)
  · cases known

/-- What can be read as a part of a selector is orderly, if no name in it holds a mark. -/
theorem passed_of_reads (marks : ∀ c, isMark c = true → bad c = true) {item : Item}
    (reads : Reads item s r) (avoids : Avoids bad s) : Passed s r item ∧ Avoids bad r := by
  induction reads with
  | @listOne s t c first last ih =>
    obtain ⟨passes, left⟩ := ih avoids
    exact ⟨passes.allow.trans (.skipBlanks .refl), left.skipBlanks⟩
  | @listMore s t u r c cs first comma more ih ihMore =>
    obtain ⟨passes, left⟩ := ih avoids
    have left := left.skipBlanks
    rw [comma] at left
    obtain ⟨passesMore, left⟩ := ihMore (left.of_sign (by decide) rfl)
    refine ⟨passes.allow.trans (.skipBlanks ?_), left⟩
    rw [comma]
    exact .comma passesMore
  | @complex s t r parts c first joined ih ihJoined =>
    obtain ⟨passes, left⟩ := ih avoids.skipBlanks
    obtain ⟨passesJoined, left⟩ := ihJoined left
    exact ⟨.skipBlanks ((passes (head?_joins joined)).trans passesJoined), left⟩
  | joinsEnd => exact ⟨.skipBlanks .refl, avoids.skipBlanks⟩
  | @joinsSign s t u r left c sign k parts there means right joined ih ihJoined =>
    have avoids := avoids.skipBlanks
    rw [there] at avoids
    have facts := facts_of_combinatorOf means
    obtain ⟨passes, left⟩ := ih (avoids.of_sign facts.1 (isQuote_eq_false facts.2.1)).skipBlanks
    obtain ⟨passesJoined, left⟩ := ihJoined left
    refine ⟨.skipBlanks ?_, left⟩
    rw [there]
    exact .plain facts.2.1 facts.2.2
      (.skipBlanks ((passes (head?_joins joined)).trans passesJoined))
  | @joinsBlank s u r left c parts blank right joined ih ihJoined =>
    obtain ⟨passes, left⟩ := ih avoids.skipBlanks
    obtain ⟨passesJoined, left⟩ := ihJoined left
    exact ⟨.skipBlanks ((passes (head?_joins joined)).trans passesJoined), left⟩
  | compoundAny more ih =>
    obtain ⟨passes, left⟩ := ih (avoids.of_sign (by decide) rfl)
    exact ⟨fun closed => .plain rfl (by decide) (passes closed), left⟩
  | compoundType start tag more ih =>
    obtain ⟨passes, left⟩ := ih (avoids.of_scanName tag)
    refine ⟨fun closed => ?_, left⟩
    exact (passes_name marks tag avoids (head?_simples more closed)).trans (passes closed)
  | compoundSimple first more ih ihMore =>
    obtain ⟨passes, left⟩ := ih avoids
    obtain ⟨passesMore, left⟩ := ihMore left
    exact ⟨fun closed => (passes (head?_simples more closed)).trans (passesMore closed), left⟩
  | simplesEnd => exact ⟨fun _ => .refl, avoids⟩
  | simplesMore first more ih ihMore =>
    obtain ⟨passes, left⟩ := ih avoids
    obtain ⟨passesMore, left⟩ := ihMore left
    exact ⟨fun closed => (passes (head?_simples more closed)).trans (passesMore closed), left⟩
  | simpleId scan =>
    have avoids := avoids.of_sign (by decide) rfl
    exact ⟨fun closed => .plain rfl (by decide) (passes_name marks scan avoids closed),
      avoids.of_scanName scan⟩
  | simpleClass scan =>
    have avoids := avoids.of_sign (by decide) rfl
    exact ⟨fun closed => .plain rfl (by decide) (passes_name marks scan avoids closed),
      avoids.of_scanName scan⟩
  | simpleAttribute read =>
    obtain ⟨passes, left⟩ := passes_attribute marks read (avoids.of_sign (by decide) rfl)
    exact ⟨fun _ => passes, left⟩
  | simplePseudo _ ih =>
    obtain ⟨passes, left⟩ := ih (avoids.of_sign (by decide) rfl)
    exact ⟨fun _ => passes, left⟩
  | @pseudoPlain s r name p scan closed known =>
    have notOpen : r.head? ≠ some '(' := fun opens =>
      (List.head?_eq_some_iff.mp opens).elim fun t same => closed t same
    obtain ⟨front, rfl, noOpen, orderly⟩ := orderly_name marks scan avoids (.inl notOpen)
    have none := noOpenings noOpen notOpen (isNameChar_of_scanName scan)
    exact ⟨⟨':' :: front, rfl, .colon none.1 none.2 orderly⟩, avoids.of_scanName scan⟩
  | @pseudoLogical s t u r name f cs scan known argument close ih =>
    obtain ⟨noColon, notTest⟩ := plain_of_logicalPseudo known
    obtain ⟨passes, left⟩ := ih ((avoids.of_scanName scan).of_sign (by decide) rfl)
    have left := left.skipBlanks
    rw [close] at left
    exact ⟨passes_call marks scan avoids noColon notTest argument.head?_list
      (passes.trans (.skipBlanks (close ▸ .refl))), left.of_sign (by decide) rfl⟩
  | @pseudoNth s t r name f e scan known argument close =>
    obtain ⟨noColon, notTest⟩ := plain_of_nthPseudo known
    obtain ⟨passes, left⟩ :=
      passes_nth argument ((avoids.of_scanName scan).of_sign (by decide) rfl)
    rw [close] at passes left
    exact ⟨passes_call marks scan avoids noColon notTest (Selector.head?_of_nth argument) passes,
      left.of_sign (by decide) rfl⟩
  | @pseudoHas s t u r name rs scan known argument close ih =>
    obtain ⟨noColon, notTest⟩ := plain_of_lower known (by decide) (by decide)
    obtain ⟨passes, left⟩ := ih ((avoids.of_scanName scan).of_sign (by decide) rfl)
    have left := left.skipBlanks
    rw [close] at left
    exact ⟨passes_call marks scan avoids noColon notTest argument.head?_relatives
      (passes.trans (.skipBlanks (close ▸ .refl))), left.of_sign (by decide) rfl⟩
  | @relativesOne s t c first last ih =>
    obtain ⟨lead, avoids⟩ := passes_lead avoids.skipBlanks
    obtain ⟨passes, left⟩ := ih avoids
    exact ⟨.skipBlanks (lead.allow.trans (passes.allow.trans (.skipBlanks .refl))), left.skipBlanks⟩
  | @relativesMore s t u r c rs first comma more ih ihMore =>
    obtain ⟨lead, avoids⟩ := passes_lead avoids.skipBlanks
    obtain ⟨passes, left⟩ := ih avoids
    have left := left.skipBlanks
    rw [comma] at left
    obtain ⟨passesMore, left⟩ := ihMore (left.of_sign (by decide) rfl)
    refine ⟨.skipBlanks (lead.allow.trans (passes.allow.trans (.skipBlanks ?_))), left⟩
    rw [comma]
    exact .comma passesMore

end

end NoiseFilter.Extended
