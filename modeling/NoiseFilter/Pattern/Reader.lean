import NoiseFilter.Pattern.Form
import NoiseFilter.Text.Property
import NoiseFilter.Text.RangeTable
import NoiseFilter.Text.Reading

/-!
# Reading patterns

The syntax of regular expressions without look-around and back-references. A reader answers `none`
where the text is no pattern. In the extended layout blanks and comments may stand between the
parts, also inside brackets and escapes; `extended` says whether it is on.
-/

namespace NoiseFilter.Pattern

open Text (Read isBlank length_lt_of_eq_cons)

/-! ## Layout -/

/-- Drop blanks and comments; a comment runs from `#` to the end of the line. -/
def dropLayout (inComment : Bool) : List Char → List Char
  | [] => []
  | c :: rest =>
    if inComment then dropLayout (c != '\n') rest
    else if isBlank c then dropLayout false rest
    else if c = '#' then dropLayout true rest
    else c :: rest

theorem length_dropLayout_le (inComment : Bool) (s : List Char) :
    (dropLayout inComment s).length ≤ s.length := by
  fun_induction dropLayout inComment s <;> simp_all <;> omega

/-- Drop what the layout allows between parts. -/
def skip (extended : Bool) (s : List Char) : List Char :=
  if extended then dropLayout false s else s

theorem length_skip_le (extended : Bool) (s : List Char) : (skip extended s).length ≤ s.length := by
  unfold skip
  split
  · exact length_dropLayout_le false s
  · simp

/-- The character that comes next when blanks are passed over, and the first `#`. -/
def peekPast (inComment : Bool) : List Char → Option Char
  | [] => none
  | c :: rest =>
    if isBlank c then peekPast inComment rest
    else if !inComment && c == '#' then peekPast true rest
    else some c

/-- The character behind a hyphen. -/
def peekAfter (extended : Bool) (s : List Char) : Option Char :=
  if extended then peekPast false s else s.head?

/-! ## Numbers -/

/-- Decimal digits, between which the layout may put blanks and comments. -/
def scanDigits (extended : Bool) (s : List Char) : List Char × List Char :=
  match s with
  | [] => ([], [])
  | c :: rest =>
    if c.isDigit then
      have := length_skip_le extended rest
      let more := scanDigits extended (skip extended rest)
      (c :: more.1, more.2)
    else ([], c :: rest)
termination_by s.length

theorem length_scanDigits_le (extended : Bool) (s : List Char) :
    (scanDigits extended s).2.length ≤ s.length := by
  fun_induction scanDigits extended s with
  | case1 => simp
  | case2 c rest _ le more ih =>
    change more.2.length ≤ _ at ih
    simp only [List.length_cons]
    omega
  | case3 => simp

theorem length_afterDecimal_lt (extended : Bool) (s : List Char) :
    ((scanDigits extended (s.dropWhile isBlank)).2.dropWhile isBlank).length < s.length + 1 := by
  have := (List.dropWhile_suffix isBlank (l := s)).length_le
  have := length_scanDigits_le extended (s.dropWhile isBlank)
  have := (List.dropWhile_suffix isBlank
    (l := (scanDigits extended (s.dropWhile isBlank)).2)).length_le
  omega

/-- A number below 2^32 with blanks around it. -/
def readDecimal (extended : Bool) (s : List Char) : Option (Read (s.length + 1) Nat) :=
  let scan := scanDigits extended (s.dropWhile isBlank)
  let n := scan.1.foldl (fun n c => n * 10 + (c.toNat - 48)) 0
  if scan.1.isEmpty || 4294967296 ≤ n then none
  else some ⟨n, scan.2.dropWhile isBlank, length_afterDecimal_lt extended s⟩

/-- The bounds of a counted repetition behind its brace: `n}`, `n,}` or `n,m}`. -/
def readBounds (extended : Bool) (s : List Char) :
    Option (Read (s.length + 1) (Nat × Option Nat)) := do
  let least ← readDecimal extended s
  match h : least.rest with
  | '}' :: rest =>
    return ⟨(least.value, some least.value), rest,
      length_lt_of_eq_cons h (Nat.le_of_lt least.short)⟩
  | ',' :: rest =>
    have front : rest.length < s.length + 1 :=
      length_lt_of_eq_cons h (Nat.le_of_lt least.short)
    have layout := length_skip_le extended rest
    match h : skip extended rest with
    | '}' :: rest =>
      return ⟨(least.value, none), rest,
        length_lt_of_eq_cons h (Nat.le_of_lt (Nat.lt_of_le_of_lt layout front))⟩
    | other =>
      let most ← readDecimal extended other
      have inside : most.rest.length < s.length + 1 :=
        Nat.lt_of_le_of_lt (Nat.le_trans (Nat.le_of_lt_succ most.short) (h ▸ layout)) front
      match h : most.rest with
      | '}' :: rest =>
        if most.value < least.value then none
        else
          return ⟨(least.value, some most.value), rest,
            length_lt_of_eq_cons h (Nat.le_of_lt inside)⟩
      | _ => none
  | _ => none

/-! ## Escapes -/

/-- Characters with a meaning of their own, which a backslash takes away. -/
def isMeta (c : Char) : Bool := "\\.+*?()|[]\x7b\x7d^$#&-~".toList.contains c

/-- Characters that may stand behind a backslash without meaning anything new. -/
def isEscapable (c : Char) : Bool :=
  isMeta c || (c.toNat < 0x80 && !c.isAlphanum && c != '<' && c != '>')

/-- The character with a code point, if there is one. -/
def charOf (n : Nat) : Option Char := if n.isValidChar then some (Char.ofNat n) else none

def isHexDigit (c : Char) : Bool := Text.Property.isAsciiHexDigit c

/-- As many hexadecimal digits as asked for, between which the layout may put something. -/
def readHexDigits (extended : Bool) : Nat → (s : List Char) →
    Option (Read (s.length + 1) (List Char))
  | 0, s => some ⟨[], s, by omega⟩
  | _ + 1, [] => none
  | count + 1, c :: rest =>
    if isHexDigit c then do
      have := length_skip_le extended rest
      let more ← readHexDigits extended count (skip extended rest)
      return ⟨c :: more.value, more.rest, by
        have := more.short; simp only [List.length_cons]; omega⟩
    else none

/-- Hexadecimal digits up to the closing brace. -/
def readHexBraced (extended : Bool) (s : List Char) : Option (Read (s.length + 1) (List Char)) :=
  match s with
  | [] => none
  | c :: rest =>
    if c = '}' then some (Read.past [] c rest).loosen
    else if isHexDigit c then do
      have := length_skip_le extended rest
      let more ← readHexBraced extended (skip extended rest)
      return ⟨c :: more.value, more.rest, by
        have := more.short; simp only [List.length_cons]; omega⟩
    else none
termination_by s.length

/-- A code point behind `\x`, `\u` or `\U`: so many digits, or any number in braces. -/
def readCodePoint (extended : Bool) (digits : Nat) (s : List Char) :
    Option (Read (s.length + 1) Literal) := do
  have := length_skip_le extended s
  match h : skip extended s with
  | '{' :: rest =>
    have : rest.length < s.length := length_lt_of_eq_cons h this
    have := length_skip_le extended rest
    let hex ← readHexBraced extended (skip extended rest)
    if hex.value.isEmpty then none
    else
      let c ← charOf (Text.readHex hex.value)
      return ⟨{ char := c }, hex.rest, by have := hex.short; omega⟩
  | other =>
    let hex ← readHexDigits extended digits other
    let c ← charOf (Text.readHex hex.value)
    return ⟨{ char := c, byte := digits == 2 }, hex.rest, by
      have := hex.short
      have : other.length ≤ s.length := by rw [← h]; exact length_skip_le extended s
      omega⟩

/-- Characters up to the closing brace, without the layout. -/
def readBraced (extended : Bool) (s : List Char) : Option (Read (s.length + 1) (List Char)) :=
  match s with
  | [] => none
  | c :: rest =>
    if c = '}' then some (Read.past [] c rest).loosen
    else do
      have := length_skip_le extended rest
      let more ← readBraced extended (skip extended rest)
      return ⟨c :: more.value, more.rest, by
        have := more.short; simp only [List.length_cons]; omega⟩
termination_by s.length

/-- The two sides of the first `!=`. -/
def splitUnequal : List Char → Option (List Char × List Char)
  | '!' :: '=' :: rest => some ([], rest)
  | c :: rest => (splitUnequal rest).map fun (name, value) => (c :: name, value)
  | [] => none

/-- The two sides of the first occurrence of a character. -/
def splitAtChar (at_ : Char) (s : List Char) : Option (List Char × List Char) :=
  match s.span (· != at_) with
  | (name, _ :: value) => some (name, value)
  | _ => none

/-- The query in braces: `name`, `name=value`, `name:value`, or `name!=value` for the opposite. -/
def queryOf (text : List Char) (negated : Bool) : SetForm :=
  match splitUnequal text with
  | some (name, value) => .property ⟨name, some value⟩ (!negated)
  | none =>
    match splitAtChar ':' text with
    | some (name, value) => .property ⟨name, some value⟩ negated
    | none =>
      match splitAtChar '=' text with
      | some (name, value) => .property ⟨name, some value⟩ negated
      | none => .property ⟨text, none⟩ negated

/-- A property behind `\p` or `\P`: one letter, or a query in braces. -/
def readProperty (extended negated : Bool) (s : List Char) :
    Option (Read (s.length + 1) SetForm) := do
  have := length_skip_le extended s
  match h : skip extended s with
  | '{' :: rest =>
    have : rest.length < s.length := length_lt_of_eq_cons h this
    have := length_skip_le extended rest
    let text ← readBraced extended (skip extended rest)
    return ⟨queryOf text.value negated, text.rest, by have := text.short; omega⟩
  | c :: rest =>
    if c = '\\' then none
    else return ⟨.property ⟨[c], none⟩ negated, rest, length_lt_of_eq_cons h (by omega)⟩
  | [] => none

/-- The word boundary that a name in braces stands for. -/
def boundaryNamed (name : List Char) : Option Assertion :=
  match String.ofList name with
  | "start" => some .wordStart
  | "end" => some .wordEnd
  | "start-half" => some .wordStartHalf
  | "end-half" => some .wordEndHalf
  | _ => none

def isBoundaryChar (c : Char) : Bool := c.isAlpha || c == '-'

/-- The letters and hyphens of a boundary's name and its closing brace. -/
def readBoundaryName (extended : Bool) (s : List Char) :
    Option (Read (s.length + 1) (List Char)) :=
  match s with
  | [] => none
  | c :: rest =>
    if isBoundaryChar c then do
      have := length_skip_le extended rest
      let more ← readBoundaryName extended (skip extended rest)
      return ⟨c :: more.value, more.rest, by
        have := more.short; simp only [List.length_cons]; omega⟩
    else if c = '}' then some (Read.past [] c rest).loosen
    else none
termination_by s.length

/-- What follows `\b`: the name of a special boundary in braces, unless the braces hold no name and
so count repetitions. -/
def readBoundary (extended : Bool) (s : List Char) : Option (Read (s.length + 1) Assertion) :=
  match s with
  | '{' :: rest => do
    have := length_skip_le extended rest
    match h : skip extended rest with
    | [] => none
    | c :: more =>
      if isBoundaryChar c then do
        let name ← readBoundaryName extended (c :: more)
        let a ← boundaryNamed name.value
        return ⟨a, name.rest, Nat.lt_succ_of_lt
          (Nat.lt_of_lt_of_le name.short (Nat.succ_le_succ (h ▸ this)))⟩
      else return .stay .wordBoundary ('{' :: rest)
  | other => some ⟨.wordBoundary, other, by omega⟩

/-- The control character that a letter behind a backslash stands for. -/
def controlOf : Char → Option Char
  | 'a' => some '\x07'
  | 'f' => some '\x0c'
  | 't' => some '\t'
  | 'n' => some '\n'
  | 'r' => some '\r'
  | 'v' => some '\x0b'
  | _ => none

/-- The class that a letter behind a backslash stands for; a capital is its opposite. -/
def letterClassOf : Char → Option (LetterClass × Bool)
  | 'd' => some (.digit, false)
  | 'D' => some (.digit, true)
  | 's' => some (.space, false)
  | 'S' => some (.space, true)
  | 'w' => some (.word, false)
  | 'W' => some (.word, true)
  | _ => none

/-- The assertion that a character behind a backslash stands for. -/
def assertionOf : Char → Option Assertion
  | 'A' => some .textStart
  | 'z' => some .textEnd
  | 'B' => some .noWordBoundary
  | '<' => some .wordStart
  | '>' => some .wordEnd
  | _ => none

/-- How many digits a code point has behind this letter. -/
def codePointDigits : Char → Option Nat
  | 'x' => some 2
  | 'u' => some 4
  | 'U' => some 8
  | _ => none

/-- What stands behind a backslash. -/
def readEscape (extended : Bool) (s : List Char) : Option (Read s.length Form) :=
  match s with
  | [] => none
  | c :: rest =>
    match codePointDigits c, letterClassOf c, controlOf c, assertionOf c with
    | some digits, _, _, _ => do
      let l ← readCodePoint extended digits rest
      return l.map .literal
    | _, some (k, negated), _, _ => some (.past (.set (.letter k negated)) c rest)
    | _, _, some d, _ => some (.past (.literal { char := d }) c rest)
    | _, _, _, some a => some (.past (.assertion a) c rest)
    | none, none, none, none =>
      if c = 'p' ∨ c = 'P' then do
        let p ← readProperty extended (c == 'P') rest
        return p.map .set
      else if c = 'b' then do
        let a ← readBoundary extended rest
        return a.map .assertion
      else if isEscapable c then some (.past (.literal { char := c }) c rest)
      else none

/-! ## Brackets -/

/-- The class of a name between colons. -/
def namedClassOf (name : List Char) : Option NamedClass :=
  match String.ofList name with
  | "alnum" => some .alnum
  | "alpha" => some .alpha
  | "ascii" => some .ascii
  | "blank" => some .blank
  | "cntrl" => some .cntrl
  | "digit" => some .digit
  | "graph" => some .graph
  | "lower" => some .lower
  | "print" => some .print
  | "punct" => some .punct
  | "space" => some .space
  | "upper" => some .upper
  | "word" => some .word
  | "xdigit" => some .xdigit
  | _ => none

/-- A named class behind its opening bracket: `:name:]` or `:^name:]`. -/
def readNamedClass (s : List Char) : Option (Read (s.length + 1) SetForm) :=
  match s with
  | ':' :: rest =>
    let negated := rest.head? == some '^'
    let body := if negated then rest.tail else rest
    match h : body.dropWhile (· != ':') with
    | ':' :: ']' :: after =>
      (namedClassOf (body.takeWhile (· != ':'))).map fun k => ⟨.named k negated, after, by
        have size := (List.dropWhile_suffix (· != ':') (l := body)).length_le
        have : body.length ≤ rest.length := by
          simp only [body]; split <;> simp
        rw [h] at size; simp only [List.length_cons] at size ⊢; omega⟩
    | _ => none
  | _ => none

/-- Hyphens in front of a set stand for themselves. -/
def readLeadingHyphens (extended : Bool) (s : List Char) : Nat × List Char :=
  match s with
  | '-' :: rest =>
    have := length_skip_le extended rest
    let more := readLeadingHyphens extended (skip extended rest)
    (more.1 + 1, more.2)
  | other => (0, other)
termination_by s.length

theorem length_readLeadingHyphens_le (extended : Bool) (s : List Char) :
    (readLeadingHyphens extended s).2.length ≤ s.length := by
  fun_induction readLeadingHyphens extended s with
  | case1 rest le more ih =>
    change more.2.length ≤ _ at ih
    simp only [List.length_cons]
    omega
  | case2 => simp

/-- A caret at the start of a set negates it. -/
def readCaret (extended : Bool) (s : List Char) : Bool × List Char :=
  match s with
  | '^' :: rest => (true, skip extended rest)
  | other => (false, other)

theorem length_readCaret_le (extended : Bool) (s : List Char) :
    (readCaret extended s).2.length ≤ s.length := by
  unfold readCaret
  split
  · next rest =>
    have := length_skip_le extended rest
    simp; omega
  · simp

/-- What a set opens with behind its bracket: whether it is negated, and the characters that stand
for themselves only here, hyphens and a closing bracket. -/
def readSetStart (extended : Bool) (s : List Char) :
    Option (Read (s.length + 1) (Bool × List SetForm)) :=
  let caret := readCaret extended (skip extended s)
  let hyphens := readLeadingHyphens extended caret.2
  have size : hyphens.2.length ≤ s.length :=
    Nat.le_trans (length_readLeadingHyphens_le extended caret.2)
      (Nat.le_trans (length_readCaret_le extended (skip extended s)) (length_skip_le extended s))
  match h : hyphens.2 with
  | [] => none
  | c :: rest =>
    if hyphens.1 = 0 ∧ c = ']' then
      some ⟨(caret.1, [.literal { char := ']' }]), skip extended rest, by
        have := length_skip_le extended rest
        rw [h] at size; simp only [List.length_cons] at size; omega⟩
    else
      some ⟨(caret.1, List.replicate hyphens.1 (.literal { char := '-' })), c :: rest, by
        rw [h] at size; omega⟩

/-- One character or class of a set. -/
def readSetItem (extended : Bool) (s : List Char) : Option (Read s.length Form) :=
  match s with
  | [] => none
  | c :: rest =>
    if c = '\\' then do
      let e ← readEscape extended rest
      return e.loosen
    else some (.past (.literal { char := c }) c rest)

/-- One item of a set: a character, a class, or a range of characters. -/
def readSetRange (extended : Bool) (s : List Char) : Option (Read s.length SetForm) := do
  let first ← readSetItem extended s
  let after := skip extended first.rest
  have size : after.length < s.length := by
    have := first.short
    have := length_skip_le extended first.rest
    simp only [after]; omega
  let lone : Option (Read s.length SetForm) :=
    match first.value with
    | .literal l => some ⟨.literal l, after, size⟩
    | .set k => some ⟨k, after, size⟩
    | _ => none
  match h : after with
  | [] => none
  | c :: rest =>
    let next := peekAfter extended rest
    if c != '-' || next == some ']' || next == some '-' then lone
    else
      let last ← readSetItem extended (skip extended rest)
      match first.value, last.value with
      | .literal a, .literal b =>
        if a.char ≤ b.char then
          return ⟨.range a b, last.rest, by
            have := last.short
            have := length_skip_le extended rest
            simp only [h] at size
            simp only [List.length_cons] at size
            omega⟩
        else none
      | _, _ => none

/-- The operation that a doubled character stands for. -/
def operationOf : Char → Option SetOperation
  | '&' => some .intersection
  | '-' => some .difference
  | '~' => some .symmetricDifference
  | _ => none

/-- An operation, written as a doubled character, and what follows. -/
def operationAt (s : List Char) : Option (SetOperation × List Char) :=
  match s with
  | c :: d :: rest => if c = d then (operationOf c).map fun k => (k, rest) else none
  | _ => none

theorem length_lt_of_operationAt {s rest : List Char} {k : SetOperation}
    (h : operationAt s = some (k, rest)) : rest.length < s.length := by
  unfold operationAt at h
  split at h
  · split at h
    · obtain ⟨_, _, heq⟩ := Option.map_eq_some_iff.1 h
      simp only [Prod.mk.injEq] at heq
      obtain ⟨_, rfl⟩ := heq
      simp only [List.length_cons]; omega
    · simp at h
  · simp at h

/-- Put the items read so far on the right of the operation that waits for them. -/
def closeOperation (pending : Option (SetForm × SetOperation)) (items : List SetForm) : SetForm :=
  let right := SetForm.ofItems items
  match pending with
  | none => right
  | some (left, k) => .operation k left right

mutual

/-- A set behind its opening bracket. -/
def readBracket (extended : Bool) (s : List Char) : Option (Read s.length SetForm) := do
  let start ← readSetStart extended s
  have := start.short
  let body ← readSetBody extended none start.value.2 start.rest
  return ⟨.bracket start.value.1 body.value, body.rest, by have := body.short; omega⟩
termination_by s.length * 2 + 1

/-- The items of a set up to its closing bracket. Operations have one rank and group to the
left. -/
def readSetBody (extended : Bool) (pending : Option (SetForm × SetOperation))
    (items : List SetForm) (s : List Char) : Option (Read s.length SetForm) :=
  have layout := length_skip_le extended s
  match h : skip extended s with
  | [] => none
  | c :: rest =>
    have size : rest.length < s.length := length_lt_of_eq_cons h layout
    if c = ']' then some ⟨closeOperation pending items, rest, size⟩
    else if c = '[' then
      match readNamedClass rest with
      | some k => do
        have := k.short
        if hk : k.rest.length < s.length then
          let body ← readSetBody extended pending (items ++ [k.value]) k.rest
          return ⟨body.value, body.rest, by have := body.short; omega⟩
        else none
      | none => do
        let inner ← readBracket extended rest
        have := inner.short
        let body ← readSetBody extended pending (items ++ [inner.value]) inner.rest
        return ⟨body.value, body.rest, by have := body.short; omega⟩
    else
      match ho : operationAt (c :: rest) with
      | some (k, more) => do
        have : more.length < s.length := by
          have := length_lt_of_operationAt ho
          simp only [List.length_cons] at this; omega
        let body ← readSetBody extended (some (closeOperation pending items, k)) [] more
        return ⟨body.value, body.rest, by have := body.short; omega⟩
      | none => do
        let item ← readSetRange extended (c :: rest)
        have short : item.rest.length < rest.length + 1 := item.short
        let body ← readSetBody extended pending (items ++ [item.value]) item.rest
        return ⟨body.value, body.rest, by have := body.short; omega⟩
termination_by s.length * 2

end

/-! ## Groups -/

/-- The flag of a letter. -/
def flagOf : Char → Option Flag
  | 'i' => some .ignoreCase
  | 'm' => some .multiLine
  | 's' => some .dotAll
  | 'U' => some .swapGreed
  | 'u' => some .unicode
  | 'R' => some .crlf
  | 'x' => some .extended
  | _ => none

/-- The letters of flags as a list; no flag twice, one minus sign at most, none at the end. -/
def flagListOf (letters : List Char) (on : Bool) (seen : FlagList) : Option FlagList :=
  match letters with
  | [] => if !on && (seen.all (·.2)) then none else some seen
  | c :: rest =>
    if c = '-' then if on then flagListOf rest false seen else none
    else do
      let f ← flagOf c
      if seen.any (·.1 == f) then none else flagListOf rest on (seen ++ [(f, on)])

/-- What opens a group behind its parenthesis. -/
inductive Opening where
  /-- A group that is numbered, or named. -/
  | capture (name : Option (List Char))
  /-- A group with flags of its own. -/
  | scoped (fs : FlagList)
  /-- Flags for what follows. -/
  | flags (fs : FlagList)

def isNameStart (c : Char) : Bool := c == '_' || Text.Property.isAlphabetic c

def isNameChar (c : Char) : Bool :=
  c == '_' || c == '.' || c == '[' || c == ']' || Text.Property.isAlphabetic c
    || Text.Category.anyHas Text.Category.numbers c

/-- The name of a group and the closing angle bracket. -/
def readGroupName (s : List Char) : Option (Read (s.length + 1) (List Char)) :=
  let name := s.takeWhile (· != '>')
  match h : s.dropWhile (· != '>') with
  | [] => none
  | _ :: rest =>
    match name with
    | [] => none
    | c :: more =>
      if isNameStart c && more.all isNameChar then
        some ⟨name, rest, by
          have size := (List.dropWhile_suffix (· != '>') (l := s)).length_le
          rw [h] at size; simp only [List.length_cons] at size; omega⟩
      else none

/-- Flags up to the colon or the closing parenthesis. -/
def readFlags (s : List Char) : Option (Read (s.length + 1) Opening) :=
  let letters := s.takeWhile fun c => c != ':' && c != ')'
  match h : s.dropWhile fun c => c != ':' && c != ')' with
  | [] => none
  | c :: rest => do
    let fs ← flagListOf letters true []
    if c = ')' ∧ fs = [] then none
    else
      return ⟨if c = ':' then .scoped fs else .flags fs, rest, by
        have size := (List.dropWhile_suffix (fun c => c != ':' && c != ')') (l := s)).length_le
        rw [h] at size; simp only [List.length_cons] at size; omega⟩

/-- What stands between the parenthesis and the body of a group. Look-around is refused. -/
def readOpening (extended : Bool) (s : List Char) : Option (Read (s.length + 1) Opening) :=
  have layout := length_skip_le extended s
  match h : skip extended s with
  | '?' :: rest =>
    have size : rest.length < s.length := length_lt_of_eq_cons h layout
    match rest with
    | '=' :: _ | '!' :: _ | '<' :: '=' :: _ | '<' :: '!' :: _ => none
    | 'P' :: '<' :: more => do
      let name ← readGroupName more
      return ⟨.capture (some name.value), name.rest, by
        have := name.short; simp only [List.length_cons] at size; omega⟩
    | '<' :: more => do
      let name ← readGroupName more
      return ⟨.capture (some name.value), name.rest, by
        have := name.short; simp only [List.length_cons] at size; omega⟩
    | other => do
      let fs ← readFlags other
      return ⟨fs.value, fs.rest, by have := fs.short; omega⟩
  | other => some ⟨.capture none, other, by rw [← h]; omega⟩

/-! ## Patterns -/

/-- What a flag list says about the extended layout. -/
def extendedAfter (fs : FlagList) (extended : Bool) : Bool :=
  ((fs.find? (·.1 == .extended)).map (·.2)).getD extended

/-- Whether a part can be repeated. -/
def isRepeatable : Form → Bool
  | .empty | .flags _ => false
  | _ => true

/-- Repeat the last part; there has to be one. -/
def repeatLast (parts : List Form) (least : Nat) (most : Option Nat) : Option (List Form) :=
  match parts.reverse with
  | [] => none
  | last :: front =>
    if isRepeatable last then some (front.reverse ++ [.repetition last least most]) else none

/-- A question mark behind a repetition makes it lazy, which changes no answer. -/
def dropLazy : List Char → List Char
  | '?' :: rest => rest
  | other => other

theorem length_dropLazy_le (s : List Char) : (dropLazy s).length ≤ s.length := by
  unfold dropLazy; split <;> simp

/-- How often a mark repeats. -/
def repetitionOf : Char → Option (Nat × Option Nat)
  | '?' => some (0, some 1)
  | '*' => some (0, none)
  | '+' => some (1, none)
  | _ => none

/-- A part that is one character, a dot, a line anchor or an escape. -/
def readAtom (extended : Bool) (s : List Char) : Option (Read s.length Form) :=
  match s with
  | [] => none
  | c :: rest =>
    if c = '\\' then do
      let e ← readEscape extended rest
      return e.loosen
    else if c = '.' then some (.past .dot c rest)
    else if c = '^' then some (.past (.assertion .lineStart) c rest)
    else if c = '$' then some (.past (.assertion .lineEnd) c rest)
    else some (.past (.literal { char := c }) c rest)

/-- What reading a body leaves: its form, and the names of groups so far. -/
structure Body where
  form : Form
  names : List (List Char)

/-- The name of a group among those seen; no name may occur twice. -/
def addName (names : List (List Char)) : Option (List Char) → Option (List (List Char))
  | none => some names
  | some name => if names.contains name then none else some (name :: names)

/-- Branches up to a closing parenthesis or the end. `branches` and `parts` hold what was read. -/
def readBody (extended : Bool) (names : List (List Char)) (branches parts : List Form)
    (s : List Char) : Option (Read (s.length + 1) Body) :=
  have layout := length_skip_le extended s
  match h : skip extended s with
  | [] => some (.atEnd ⟨.ofBranches (branches ++ [.ofParts parts]), names⟩ _)
  | c :: rest =>
    have size : rest.length < s.length := length_lt_of_eq_cons h layout
    if c = ')' then
      some ⟨⟨.ofBranches (branches ++ [.ofParts parts]), names⟩, c :: rest,
        Nat.succ_lt_succ size⟩
    else if c = '|' then do
      let body ← readBody extended names (branches ++ [.ofParts parts]) [] rest
      return ⟨body.value, body.rest, by have := body.short; omega⟩
    else if c = '(' then do
      let opening ← readOpening extended rest
      have := opening.short
      match opening.value with
      | .flags fs =>
        let body ← readBody (extendedAfter fs extended) names branches (parts ++ [.flags fs])
          opening.rest
        return ⟨body.value, body.rest, by have := body.short; omega⟩
      | .scoped fs =>
        let inner ← readBody (extendedAfter fs extended) names [] [] opening.rest
        have short := inner.short
        match h : inner.rest with
        | [] => none
        | _ :: after =>
          have : after.length < s.length := length_lt_of_eq_cons h (by omega)
          let body ← readBody extended inner.value.names branches
            (parts ++ [.group fs inner.value.form]) after
          return ⟨body.value, body.rest, by have := body.short; omega⟩
      | .capture name =>
        let names ← addName names name
        let inner ← readBody extended names [] [] opening.rest
        have short := inner.short
        match h : inner.rest with
        | [] => none
        | _ :: after =>
          have : after.length < s.length := length_lt_of_eq_cons h (by omega)
          let body ← readBody extended inner.value.names branches
            (parts ++ [.group [] inner.value.form]) after
          return ⟨body.value, body.rest, by have := body.short; omega⟩
    else if c = '[' then do
      let set ← readBracket extended rest
      have := set.short
      let body ← readBody extended names branches (parts ++ [.set set.value]) set.rest
      return ⟨body.value, body.rest, by have := body.short; omega⟩
    else if c = '{' then do
      have := length_skip_le extended rest
      let bounds ← readBounds extended (skip extended rest)
      let parts ← repeatLast parts bounds.value.1 bounds.value.2
      have := bounds.short
      have := length_skip_le extended bounds.rest
      have := length_dropLazy_le (skip extended bounds.rest)
      let body ← readBody extended names branches parts (dropLazy (skip extended bounds.rest))
      return ⟨body.value, body.rest, by have := body.short; omega⟩
    else
      match repetitionOf c with
      | some (least, most) => do
        let parts ← repeatLast parts least most
        have := length_dropLazy_le rest
        let body ← readBody extended names branches parts (dropLazy rest)
        return ⟨body.value, body.rest, by have := body.short; omega⟩
      | none => do
        let atom ← readAtom extended (c :: rest)
        have short : atom.rest.length < rest.length + 1 := atom.short
        let body ← readBody extended names branches (parts ++ [atom.value]) atom.rest
        return ⟨body.value, body.rest, by have := body.short; omega⟩
termination_by s.length

/-- Deeper patterns are refused. -/
def nestingLimit : Nat := 250

/-- Read a whole text as a pattern. -/
def Form.ofChars (s : List Char) : Option Form := do
  let body ← readBody false [] [] [] s
  if body.rest.isEmpty && body.value.form.depth ≤ nestingLimit then some body.value.form else none

end NoiseFilter.Pattern
