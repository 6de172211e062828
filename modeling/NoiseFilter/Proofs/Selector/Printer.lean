import NoiseFilter.Proofs.Extended.Escape
import NoiseFilter.Proofs.Selector.WellFormed

/-!
# The canonical text of a selector

Each character of a name is written behind a backslash, and values stand in double quotes. An argument
of `:has` is written without the subject at its front. Index expressions are shown to be read from their
text here (`Nth.ofChars_text`); what is written of a selector as a whole is read in a module of its own.
-/

namespace NoiseFilter

/-! ## Coefficients -/

namespace Nth

/-- The digits of a coefficient. -/
def digits (n : Int) : List Char := Nat.toDigits 10 n.natAbs

/-- The text of an index expression: the step has a sign if it is negative, the offset in any case. -/
def text (e : Nth) : List Char :=
  (if e.step < 0 then '-' :: digits e.step else digits e.step) ++
    'n' :: (if e.offset < 0 then '-' else '+') :: digits e.offset

section

variable {n : Int} {c : Char} {cs : List Char} {e : Nth}

theorem isDigit_of_mem_digits (member : c ∈ digits n) : c.isDigit = true :=
  Nat.isDigit_of_mem_toDigits (by decide) (by decide) member

theorem exists_digits (n : Int) : ∃ c rest, digits n = c :: rest ∧ c.isDigit = true := by
  obtain ⟨c, rest, there⟩ := List.exists_cons_of_ne_nil (Nat.toDigits_ne_nil : digits n ≠ [])
  have member : c ∈ digits n := by
    rw [digits, there]
    exact List.mem_cons_self ..
  exact ⟨c, rest, there, isDigit_of_mem_digits member⟩

theorem readDigits_digits (n : Int) : readDigits (digits n) = some n.natAbs := by
  have number : (digits n).foldl (fun n c => n * 10 + (c.toNat - 48)) 0 = n.natAbs :=
    Text.foldl_toDigits n.natAbs
  have filled : digits n ≠ [] := Nat.toDigits_ne_nil
  rw [readDigits, if_neg (by simpa [filled] using fun c => isDigit_of_mem_digits), number]

theorem readDigits_eq_none (member : c ∈ cs) (other : c.isDigit = false) : readDigits cs = none := by
  rw [readDigits, if_pos]
  rw [Bool.or_eq_true, Bool.not_eq_true', List.all_eq_false]
  exact .inr ⟨c, member, by simp [other]⟩

theorem readInt_minus (negative : n < 0) (low : -2147483648 ≤ n) :
    readInt ('-' :: digits n) = some n := by
  have same : -(n.natAbs : Int) = n := by omega
  simp only [readInt, readDigits_digits, Option.map_some, Option.bind_eq_bind, Option.bind_some,
    Int.ofNat_eq_natCast, same]
  exact if_pos ⟨low, by omega⟩

theorem readInt_plus (positive : 0 ≤ n) (high : n ≤ 2147483647) :
    readInt ('+' :: digits n) = some n := by
  have same : (n.natAbs : Int) = n := by omega
  simp only [readInt, readDigits_digits, Option.map_some, Option.bind_eq_bind, Option.bind_some,
    Int.ofNat_eq_natCast, same]
  exact if_pos ⟨by omega, high⟩

theorem readInt_digits (positive : 0 ≤ n) (high : n ≤ 2147483647) : readInt (digits n) = some n := by
  have same : (n.natAbs : Int) = n := by omega
  obtain ⟨c, rest, there, digit⟩ := exists_digits n
  have read : readDigits (c :: rest) = some n.natAbs := there ▸ readDigits_digits n
  rw [there, readInt]
  · simp only [read, Option.map_some, Option.bind_eq_bind, Option.bind_some,
      Int.ofNat_eq_natCast, same]
    exact if_pos ⟨by omega, high⟩
  · rintro _ ⟨rfl, -⟩
    cases digit
  · rintro _ ⟨rfl, -⟩
    cases digit

/-- A number has no letter in it. -/
theorem readInt_eq_none (member : 'n' ∈ cs) : readInt cs = none := by
  unfold readInt
  dsimp only
  split
  · next rest =>
    rw [readDigits_eq_none (by simpa using member) rfl]
    rfl
  · next rest =>
    rw [readDigits_eq_none (by simpa using member) rfl]
    rfl
  · rw [readDigits_eq_none member rfl]
    rfl

/-- The characters of an expression are no blanks, no capitals and no parentheses. -/
theorem plain_of_mem_text (member : c ∈ e.text) :
    Text.isBlank c = false ∧ c.toLower = c ∧ c ≠ ')' := by
  have digit (digit : c.isDigit = true) : Text.isBlank c = false ∧ c.toLower = c ∧ c ≠ ')' := by
    have range := Text.isDigit_iff.mp digit
    refine ⟨Bool.eq_false_iff.mpr fun blank => ?_, Text.toLower_eq_self_iff.mpr ?_, ?_⟩
    · simp only [Text.isBlank, Bool.or_eq_true, Bool.and_eq_true, decide_eq_true_eq,
        beq_iff_eq] at blank
      omega
    · rw [Bool.eq_false_iff, ne_eq, Text.isUpper_iff]
      omega
    · rintro rfl
      cases digit
  have sign (negative : Prop) [Decidable negative] (same : c = if negative then '-' else '+') :
      Text.isBlank c = false ∧ c.toLower = c ∧ c ≠ ')' := by
    split at same <;> subst same <;> decide
  rw [text, List.mem_append, List.mem_cons, List.mem_cons] at member
  rcases member with step | rfl | offset | member
  · split at step
    · rcases List.mem_cons.mp step with rfl | member
      · decide
      · exact digit (isDigit_of_mem_digits member)
    · exact digit (isDigit_of_mem_digits step)
  · decide
  · exact sign _ offset
  · exact digit (isDigit_of_mem_digits member)

theorem readStep_text (fits : e.Fits) :
    readStep (if e.step < 0 then '-' :: digits e.step else digits e.step) = some e.step := by
  obtain ⟨c, rest, there, digit⟩ := exists_digits e.step
  split
  · next negative =>
    rw [there, readStep, ← there, readInt_minus negative fits.step.1] <;> simp
  · next positive =>
    rw [there, readStep, ← there, readInt_digits (Int.not_lt.mp positive) fits.step.2]
    · simp
    · rintro ⟨rfl, -⟩
      cases digit
    · rintro ⟨rfl, -⟩
      cases digit

theorem readOffset_text (fits : e.Fits) :
    readOffset ((if e.offset < 0 then '-' else '+') :: digits e.offset) = some e.offset := by
  split
  · next negative => exact readInt_minus negative fits.offset.1
  · next positive => exact readInt_plus (Int.not_lt.mp positive) fits.offset.2

/-- The step ends in front of its letter. -/
theorem span_text : e.text.span (· != 'n') =
    (if e.step < 0 then '-' :: digits e.step else digits e.step,
      'n' :: (if e.offset < 0 then '-' else '+') :: digits e.offset) := by
  have front : ∀ c ∈ (if e.step < 0 then '-' :: digits e.step else digits e.step),
      (c != 'n') = true := by
    intro c member
    rw [bne_iff_ne]
    rintro rfl
    split at member
    · cases isDigit_of_mem_digits (List.mem_of_ne_of_mem (by decide) member)
    · cases isDigit_of_mem_digits member
  rw [List.span_eq_takeWhile_dropWhile, text, List.takeWhile_append_of_pos front,
    List.dropWhile_append_of_pos front, List.takeWhile_cons_of_neg (by decide),
    List.dropWhile_cons_of_neg (by decide), List.append_nil]

/-- An expression begins with a digit or a sign, so it is none of the words. -/
theorem text_ne {word : List Char} (letter : word.head?.all (fun c => c != '-' && !c.isDigit) = true) :
    e.text ≠ word := by
  rintro rfl
  obtain ⟨c, rest, there, digit⟩ := exists_digits e.step
  rw [text] at letter
  split at letter
  · cases letter
  · simp [there, digit] at letter

/-- An expression is read from its text. -/
theorem ofChars_text (fits : e.Fits) : ofChars e.text = some e := by
  have kept : e.text.filter (!Text.isBlank ·) = e.text :=
    List.filter_eq_self.mpr fun c member => by rw [(plain_of_mem_text member).1]; rfl
  have lowered : e.text.map Char.toLower = e.text :=
    (List.map_congr_left fun c member => (plain_of_mem_text member).2.1).trans (List.map_id _)
  rw [ofChars, kept, lowered, readPlain, if_neg (text_ne rfl), if_neg (text_ne rfl),
    readInt_eq_none (by simp [text]), span_text]
  simp [readStep_text fits, readOffset_text fits]

end

end Nth

/-! ## The text of a selector -/

open Extended (escape)

/-- A name with a backslash in front of each character. -/
def Selector.escapeName (name : String) : List Char := name.toList.flatMap fun c => ['\\', c]

open Selector (escapeName)

/-- The sign of an operator. -/
def AttributeOperator.text : AttributeOperator → List Char
  | exact => ['=']
  | word => ['~', '=']
  | dash => ['|', '=']
  | start => ['^', '=']
  | finish => ['$', '=']
  | part => ['*', '=']

def AttributeTest.text (t : AttributeTest) : List Char :=
  t.operator.text ++ '"' :: escape '"' t.value.toList ++
    '"' :: if t.ignoreCase then [' ', 'i'] else []

/-- What stands between the brackets. -/
def AttributeSelector.text (a : AttributeSelector) : List Char :=
  escapeName a.name ++ a.test.elim [] AttributeTest.text

/-- A combinator at the front of a relative selector. -/
def Combinator.lead : Combinator → List Char
  | descendant => []
  | child => ['>', ' ']
  | next => ['+', ' ']
  | subsequent => ['~', ' ']

/-- A combinator between compounds. -/
def Combinator.text (k : Combinator) : List Char := ' ' :: k.lead

/-- A pseudo-class with its argument. -/
def callText (word : String) (argument : List Char) : List Char :=
  word.toList ++ '(' :: argument ++ [')']

mutual

def Simple.text : Simple → List Char
  | .universal => ['*']
  | .type name => escapeName name
  | .id name => '#' :: escapeName name
  | .cls name => '.' :: escapeName name
  | .attribute a => '[' :: a.text ++ [']']
  | .pseudo p => ':' :: p.text

def Pseudo.text : Pseudo → List Char
  | .root => "root".toList
  | .scope => "scope".toList
  | .empty => "empty".toList
  | .firstChild => "first-child".toList
  | .lastChild => "last-child".toList
  | .onlyChild => "only-child".toList
  | .firstOfType => "first-of-type".toList
  | .lastOfType => "last-of-type".toList
  | .onlyOfType => "only-of-type".toList
  | .nthChild e => callText "nth-child" e.text
  | .nthLastChild e => callText "nth-last-child" e.text
  | .nthOfType e => callText "nth-of-type" e.text
  | .nthLastOfType e => callText "nth-last-of-type" e.text
  | .negation alternatives => callText "not" (listText alternatives)
  | .oneOf alternatives => callText "is" (listText alternatives)
  | .whereOneOf alternatives => callText "where" (listText alternatives)
  | .has alternatives => callText "has" (relativesText alternatives)

def Complex.text : Complex → List Char
  | .compound parts => partsText parts
  | .join left k parts => left.text ++ k.text ++ partsText parts

/-- The text behind the first compound. -/
def Complex.textBehind : Complex → List Char
  | .compound _ => []
  | .join left k parts => left.textBehind ++ k.text ++ partsText parts

/-- The subject in front is not written, nor the blank behind it. -/
def Relative.text : Relative → List Char
  | .mk _ c => c.textBehind.tail

def partsText : List Simple → List Char
  | [] => []
  | x :: rest => x.text ++ partsText rest

def listText : List Complex → List Char
  | [] => []
  | [c] => c.text
  | c :: c' :: rest => c.text ++ ',' :: ' ' :: listText (c' :: rest)

def relativesText : List Relative → List Char
  | [] => []
  | [r] => r.text
  | r :: r' :: rest => r.text ++ ',' :: ' ' :: relativesText (r' :: rest)

end

/-- The canonical text of a selector. -/
def Selector.text (x : Selector) : String := String.ofList (listText x.alternatives)

theorem Complex.textBehind_fromScope (k : Combinator) :
    ∀ c : Complex, (c.fromScope k).textBehind = k.text ++ c.text
  | .compound _ => rfl
  | .join left k' parts => by
    rw [fromScope, textBehind, textBehind_fromScope k left, text]
    simp only [List.append_assoc]

/-- A relative selector is written as its combinator and what is looked for. -/
theorem Relative.text_ofComplex (k : Combinator) (c : Complex) :
    (Relative.ofComplex k c).text = k.lead ++ c.text := by
  rw [ofComplex, text, c.textBehind_fromScope]
  rfl

/-- A relative selector that is well-formed continues the subject. -/
theorem Complex.exists_fromScope {k : Combinator} : ∀ {c : Complex},
    c.compounds.head? = some [.pseudo .scope] → c.combinators.head? = some k →
    ∃ c' : Complex, c = c'.fromScope k
  | .compound _, _, lead => by cases lead
  | .join (.compound subject) k' parts, first, lead => by
    cases first
    cases lead
    exact ⟨.compound parts, rfl⟩
  | .join (.join left k' middle) k'' parts, first, lead => by
    rw [compounds, List.head?_append_of_ne_nil _ (by simp [compounds])] at first
    rw [combinators, List.head?_append_of_ne_nil _ (by simp [combinators])] at lead
    obtain ⟨c', there⟩ := exists_fromScope first lead
    exact ⟨.join c' k'' parts, by rw [there, fromScope]⟩

theorem Complex.sizeOf_fromScope (k : Combinator) : ∀ c : Complex, sizeOf c < sizeOf (c.fromScope k)
  | .compound parts => by
    rw [fromScope]
    simp
    omega
  | .join left k' parts => by
    have inner := sizeOf_fromScope k left
    rw [fromScope]
    simp
    omega

theorem Complex.WellFormed.of_fromScope {k : Combinator} :
    ∀ {c : Complex}, (c.fromScope k).WellFormed → c.WellFormed
  | .compound _, formed => formed.2
  | .join _ _ _, formed => ⟨formed.1.of_fromScope, formed.2⟩

end NoiseFilter
