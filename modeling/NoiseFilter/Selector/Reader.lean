import NoiseFilter.Selector.Basic
import NoiseFilter.Text.Ascii
import NoiseFilter.Text.Reading

/-!
# Reading selectors

The readers for the parts of a selector call each other and always leave a shorter rest. A failure
remembers the rest at which it arose, and becomes an error with an offset in bytes at the very end.
-/

namespace NoiseFilter

/-- Why a text is no selector. -/
inductive SelectorError where
  | empty
  | unexpectedEnd
  | unexpectedChar (ch : Char) (offset : Nat)
  | unsupportedPseudo (name : String)
  | pseudoElement
  | invalidNth (expression : String)
  deriving DecidableEq

def SelectorError.message : SelectorError → String
  | empty => "empty selector"
  | unexpectedEnd => "unexpected end of selector"
  | unexpectedChar ch offset =>
    "unexpected '" ++ ch.toString ++ "' at offset " ++ Text.digits offset
  | unsupportedPseudo name => "unsupported pseudo-class ':" ++ name ++ "'"
  | pseudoElement => "pseudo-elements are not supported"
  | invalidNth expression => "invalid An+B expression '" ++ expression ++ "'"

namespace Selector

/-- A failure, before its place is turned into an offset. -/
inductive Failure where
  /-- What remains starts with a character that does not fit, or is empty. -/
  | unexpected (rest : List Char)
  | unsupported (name : List Char)
  | pseudoElement
  | badNth (expression : List Char)

/-- The error behind a failure in a text of `size` bytes. -/
def Failure.toError (size : Nat) : Failure → SelectorError
  | unexpected [] => .unexpectedEnd
  | unexpected (c :: rest) =>
    .unexpectedChar c (size - Text.byteSize (c :: rest))
  | unsupported name => .unsupportedPseudo (String.ofList name)
  | pseudoElement => .pseudoElement
  | badNth expression => .invalidNth (Text.trim (String.ofList expression))

open Text (Read skipBlanks length_skipBlanks_le length_lt_of_eq_cons)

/-- Take one character that has to be there. -/
def expect (want : Char) (s : List Char) : Except Failure (Read s.length Unit) :=
  match s with
  | [] => .error (.unexpected [])
  | c :: rest => if c = want then .ok (.past () c rest) else .error (.unexpected (c :: rest))

/-! ## Names and values -/

def isNameStart (c : Char) : Bool :=
  c.isAlpha || c == '_' || c == '-' || c == '\\' || c.toNat ≥ 0x80

def isNameChar (c : Char) : Bool := isNameStart c || c.isDigit

/-- The characters of a name; a backslash makes the next character part of it. `none` if the text
ends behind a backslash. -/
def scanName : List Char → Option (List Char × List Char)
  | [] => some ([], [])
  | c :: rest =>
    if c = '\\' then
      match rest with
      | [] => none
      | d :: rest => (scanName rest).map fun (name, rest) => (d :: name, rest)
    else if isNameChar c then (scanName rest).map fun (name, rest) => (c :: name, rest)
    else some ([], c :: rest)

theorem length_le_of_scanName {s name rest : List Char} (h : scanName s = some (name, rest)) :
    rest.length + name.length ≤ s.length := by
  fun_induction scanName s generalizing name rest with
  | case1 => simp_all
  | case2 => simp at h
  | case3 d r ih =>
    obtain ⟨⟨n, r'⟩, hn, heq⟩ := Option.map_eq_some_iff.1 h
    have := ih hn
    simp only [Prod.mk.injEq] at heq
    obtain ⟨rfl, rfl⟩ := heq
    simp only [List.length_cons]
    omega
  | case4 c r _ _ ih =>
    obtain ⟨⟨n, r'⟩, hn, heq⟩ := Option.map_eq_some_iff.1 h
    have := ih hn
    simp only [Prod.mk.injEq] at heq
    obtain ⟨rfl, rfl⟩ := heq
    simp only [List.length_cons]
    omega
  | case5 c r _ _ =>
    simp only [Option.some.injEq, Prod.mk.injEq] at h
    obtain ⟨rfl, rfl⟩ := h
    simp

/-- A name of one character at least. -/
def readName (s : List Char) : Except Failure (Read s.length (List Char)) :=
  match h : scanName s with
  | none => .error (.unexpected [])
  | some ([], _) => .error (.unexpected s)
  | some (c :: name, rest) =>
    .ok ⟨c :: name, rest, by
      have := length_le_of_scanName h; simp only [List.length_cons] at this; omega⟩

/-- The characters up to the closing quote; a backslash keeps the next character as it is. `none`
if the text ends first. -/
def scanQuoted (quote : Char) : List Char → Option (List Char × List Char)
  | [] => none
  | c :: rest =>
    if c = '\\' then
      match rest with
      | [] => none
      | d :: rest => (scanQuoted quote rest).map fun (value, rest) => (d :: value, rest)
    else if c = quote then some ([], rest)
    else (scanQuoted quote rest).map fun (value, rest) => (c :: value, rest)

theorem length_lt_of_scanQuoted {quote : Char} {s value rest : List Char}
    (h : scanQuoted quote s = some (value, rest)) : rest.length < s.length := by
  fun_induction scanQuoted quote s generalizing value rest with
  | case1 => simp at h
  | case2 => simp at h
  | case3 d r ih =>
    obtain ⟨⟨n, r'⟩, hn, heq⟩ := Option.map_eq_some_iff.1 h
    have := ih hn
    simp only [Prod.mk.injEq] at heq
    obtain ⟨rfl, rfl⟩ := heq
    simp only [List.length_cons]
    omega
  | case4 r _ =>
    simp only [Option.some.injEq, Prod.mk.injEq] at h
    obtain ⟨rfl, rfl⟩ := h
    simp
  | case5 c r _ _ ih =>
    obtain ⟨⟨n, r'⟩, hn, heq⟩ := Option.map_eq_some_iff.1 h
    have := ih hn
    simp only [Prod.mk.injEq] at heq
    obtain ⟨rfl, rfl⟩ := heq
    simp only [List.length_cons]
    omega

/-- The value of an attribute: quoted, or a run of name characters that are taken as they are. -/
def readValue (s : List Char) : Except Failure (Read s.length (List Char)) :=
  match s with
  | [] => .error (.unexpected [])
  | c :: rest =>
    if c = '"' ∨ c = '\'' then
      match h : scanQuoted c rest with
      | none => .error (.unexpected [])
      | some (value, after) =>
        .ok ⟨value, after, Nat.lt_succ_of_lt (length_lt_of_scanQuoted h)⟩
    else if isNameChar c then
      .ok ⟨c :: rest.takeWhile isNameChar, rest.dropWhile isNameChar,
        Nat.lt_succ_of_le (List.dropWhile_suffix _).length_le⟩
    else .error (.unexpected (c :: rest))

/-! ## Attribute selectors -/

/-- The operator that a character in front of `=` stands for. -/
def operatorOf : Char → Option AttributeOperator
  | '~' => some .word
  | '|' => some .dash
  | '^' => some .start
  | '$' => some .finish
  | '*' => some .part
  | _ => none

/-- The operator of an attribute selector. -/
def readOperator (s : List Char) : Except Failure (Read s.length AttributeOperator) :=
  match s with
  | [] => .error (.unexpected [])
  | c :: rest =>
    if c = '=' then .ok (.past .exact c rest)
    else
      match operatorOf c with
      | none => .error (.unexpected (c :: rest))
      | some op => do
        let r ← expect '=' rest
        return (r.map fun _ => op).loosen

/-- The flag behind a value: `i` ignores case, `s` does not. -/
def readFlag (s : List Char) : Bool × List Char :=
  match s with
  | [] => (false, [])
  | c :: rest =>
    if c = 'i' ∨ c = 'I' then (true, skipBlanks rest)
    else if c = 's' ∨ c = 'S' then (false, skipBlanks rest)
    else (false, c :: rest)

theorem length_readFlag_le (s : List Char) : (readFlag s).2.length ≤ s.length := by
  unfold readFlag
  split
  · simp
  · next c rest =>
    have := length_skipBlanks_le rest
    split
    · simp; omega
    · split <;> simp; omega

/-- What stands between the name and the closing bracket. -/
def readTest (s : List Char) : Except Failure (Read s.length AttributeTest) := do
  let op ← readOperator s
  let value ← readValue (skipBlanks op.rest)
  let flag := readFlag (skipBlanks value.rest)
  return ⟨⟨op.value, String.ofList value.value, flag.1⟩, flag.2, by
    have := op.short
    have := length_skipBlanks_le op.rest
    have := value.short
    have := length_skipBlanks_le value.rest
    have := length_readFlag_le (skipBlanks value.rest)
    simp only [flag]
    omega⟩

/-- An attribute selector behind its opening bracket. -/
def readAttribute (s : List Char) : Except Failure (Read s.length AttributeSelector) := do
  let name ← readName (skipBlanks s)
  let after := skipBlanks name.rest
  have := length_skipBlanks_le s
  have := name.short
  have : after.length ≤ name.rest.length := length_skipBlanks_le name.rest
  let lowered := Text.lower (String.ofList name.value)
  if after.head? = some ']' then
    return ⟨⟨lowered, none⟩, after.tail, by
      simp only [List.length_tail]; omega⟩
  else
    let test ← readTest after
    let close ← expect ']' test.rest
    return ⟨⟨lowered, some test.value⟩, close.rest, by
      have := test.short
      have := close.short
      omega⟩

/-! ## Selectors -/

def combinatorOf : Char → Option Combinator
  | '>' => some .child
  | '+' => some .next
  | '~' => some .subsequent
  | _ => none

/-- A pseudo-class without argument. -/
def plainPseudo (name : String) : Option Pseudo :=
  match name with
  | "root" => some .root
  | "scope" => some .scope
  | "empty" => some .empty
  | "first-child" => some .firstChild
  | "last-child" => some .lastChild
  | "only-child" => some .onlyChild
  | "first-of-type" => some .firstOfType
  | "last-of-type" => some .lastOfType
  | "only-of-type" => some .onlyOfType
  | _ => none

/-- Pseudo-elements that may be written with one colon. -/
def isPseudoElement (name : String) : Bool :=
  ["before", "after", "first-line", "first-letter"].contains name

/-- A pseudo-class with an index expression. -/
def nthPseudo (name : String) : Option (Nth → Pseudo) :=
  match name with
  | "nth-child" => some .nthChild
  | "nth-last-child" => some .nthLastChild
  | "nth-of-type" => some .nthOfType
  | "nth-last-of-type" => some .nthLastOfType
  | _ => none

/-- A pseudo-class with a selector list. -/
def logicalPseudo (name : String) : Option (List Complex → Pseudo) :=
  match name with
  | "not" => some .negation
  | "is" | "matches" => some .oneOf
  | "where" => some .whereOneOf
  | _ => none

/-- The index expression up to the closing parenthesis. -/
def readNth (s : List Char) : Except Failure (Read (s.length + 1) Nth) :=
  let raw := s.takeWhile (· != ')')
  match Nth.ofChars raw with
  | none => .error (.badNth raw)
  | some e =>
    .ok ⟨e, s.dropWhile (· != ')'), by
      have := (List.dropWhile_suffix (· != ')') (l := s)).length_le
      omega⟩

/-- Whether a simple selector other than a tag starts here. -/
def startsSimple (s : List Char) : Bool :=
  match s with
  | c :: _ => c == '#' || c == '.' || c == '[' || c == ':'
  | [] => false

/-- The leading combinator of a relative selector; nothing stands for a descendant. -/
def readLead (s : List Char) : Combinator × List Char :=
  match s with
  | [] => (.descendant, [])
  | c :: rest =>
    match combinatorOf c with
    | some k => (k, rest)
    | none => (.descendant, c :: rest)

theorem length_readLead_le (s : List Char) : (readLead s).2.length ≤ s.length := by
  unfold readLead
  split
  · simp
  · split <;> simp

mutual

/-- Alternatives separated by commas. -/
def readList (s : List Char) : Except Failure (Read s.length (List Complex)) := do
  let first ← readComplex s
  have behind : (skipBlanks first.rest).length < s.length :=
    Nat.lt_of_le_of_lt (length_skipBlanks_le first.rest) first.short
  match h : skipBlanks first.rest with
  | ',' :: rest =>
    have inside : rest.length < s.length := length_lt_of_eq_cons h (Nat.le_of_lt behind)
    let more ← readList rest
    return ⟨first.value :: more.value, more.rest, Nat.lt_trans more.short inside⟩
  | other => return ⟨[first.value], other, h ▸ behind⟩
termination_by s.length * 5 + 4

/-- Compounds joined by combinators, after blanks. -/
def readComplex (s : List Char) : Except Failure (Read s.length Complex) := do
  have := length_skipBlanks_le s
  let first ← readCompound (skipBlanks s)
  have := first.short
  let joined ← readJoins (.compound first.value) first.rest
  return ⟨joined.value, joined.rest, by have := joined.short; omega⟩
termination_by s.length * 5 + 3

/-- The combinators and compounds that follow `left`. -/
def readJoins (left : Complex) (s : List Char) : Except Failure (Read (s.length + 1) Complex) :=
  have blanks := length_skipBlanks_le s
  match h : skipBlanks s with
  | [] => .ok (.atEnd left _)
  | c :: rest =>
    have size : rest.length + 1 ≤ s.length := length_lt_of_eq_cons h blanks
    if c = ',' ∨ c = ')' then .ok ⟨left, c :: rest, Nat.lt_succ_of_le size⟩
    else
      match combinatorOf c with
      | some k => do
        have blanks := length_skipBlanks_le rest
        let right ← readCompound (skipBlanks rest)
        have inside : right.rest.length < s.length :=
          Nat.lt_of_lt_of_le right.short (Nat.le_trans blanks (Nat.le_of_succ_le size))
        let joined ← readJoins (.join left k right.value) right.rest
        return ⟨joined.value, joined.rest,
          Nat.lt_of_lt_of_le joined.short (Nat.succ_le_succ (Nat.le_of_lt inside))⟩
      | none =>
        if rest.length + 1 < s.length then do
          let right ← readCompound (c :: rest)
          have inside : right.rest.length < s.length := Nat.lt_of_lt_of_le right.short size
          let joined ← readJoins (.join left .descendant right.value) right.rest
          return ⟨joined.value, joined.rest,
            Nat.lt_of_lt_of_le joined.short (Nat.succ_le_succ (Nat.le_of_lt inside))⟩
        else .error (.unexpected (c :: rest))
termination_by s.length * 5 + 2
decreasing_by all_goals first | omega | (simp only [List.length_cons]; omega)

/-- The simple selectors of one element: at most one tag, in front. -/
def readCompound (s : List Char) : Except Failure (Read s.length (List Simple)) :=
  match s with
  | [] => .error (.unexpected [])
  | c :: rest =>
    if c = '*' then do
      let more ← readSimples rest
      return ⟨.universal :: more.value, more.rest, more.short⟩
    else if isNameStart c then do
      let name ← readName (c :: rest)
      have : name.rest.length < rest.length + 1 := name.short
      let more ← readSimples name.rest
      return ⟨.type (Text.lower (String.ofList name.value)) :: more.value, more.rest, by
        have := more.short; simp only [List.length_cons]; omega⟩
    else do
      let first ← readSimple (c :: rest)
      have : first.rest.length < rest.length + 1 := first.short
      let more ← readSimples first.rest
      return ⟨first.value :: more.value, more.rest, by
        have := more.short; simp only [List.length_cons]; omega⟩
termination_by s.length * 5 + 1

/-- Simple selectors other than tags, as many as there are. -/
def readSimples (s : List Char) : Except Failure (Read (s.length + 1) (List Simple)) := do
  if startsSimple s then
    let first ← readSimple s
    have inside := first.short
    let more ← readSimples first.rest
    return ⟨first.value :: more.value, more.rest,
      Nat.lt_of_lt_of_le more.short (Nat.succ_le_succ (Nat.le_of_lt inside))⟩
  else return .stay [] s
termination_by s.length * 5 + 1

/-- One simple selector other than a tag. -/
def readSimple (s : List Char) : Except Failure (Read s.length Simple) :=
  match s with
  | '#' :: rest => do
    let name ← readName rest
    return (name.map fun cs => .id (String.ofList cs)).loosen
  | '.' :: rest => do
    let name ← readName rest
    return (name.map fun cs => .cls (String.ofList cs)).loosen
  | '[' :: rest => do
    let a ← readAttribute rest
    return (a.map .attribute).loosen
  | ':' :: rest => do
    let p ← readPseudo rest
    return (p.map .pseudo).loosen
  | other => .error (.unexpected other)
termination_by s.length * 5 + 0

/-- A pseudo-class behind its colon. -/
def readPseudo (s : List Char) : Except Failure (Read s.length Pseudo) := do
  if s.head? = some ':' then throw .pseudoElement
  let read ← readName s
  have short := read.short
  let name := Text.lower (String.ofList read.value)
  match h : read.rest with
  | '(' :: rest =>
    have : rest.length + 1 < s.length := by
      rw [h, List.length_cons] at short
      exact short
    let argument : Read (rest.length + 1) Pseudo ←
      match logicalPseudo name, nthPseudo name with
      | some pseudo, _ => do
        let list ← readList rest
        pure ⟨pseudo list.value, list.rest, by have := list.short; omega⟩
      | none, some pseudo => do
        let e ← readNth rest
        pure ⟨pseudo e.value, e.rest, e.short⟩
      | none, none =>
        if name = "has" then do
          let list ← readRelatives rest
          pure ⟨.has list.value, list.rest, by have := list.short; omega⟩
        else throw (.unsupported name.toList)
    let close ← expect ')' (skipBlanks argument.rest)
    return ⟨argument.value, close.rest, by
      have := argument.short
      have := length_skipBlanks_le argument.rest
      have := close.short
      omega⟩
  | other =>
    match plainPseudo name with
    | some p => return ⟨p, other, by rw [← h]; exact short⟩
    | none => throw (if isPseudoElement name then .pseudoElement else .unsupported name.toList)
termination_by s.length * 5 + 0

/-- The arguments of `:has`, separated by commas. -/
def readRelatives (s : List Char) : Except Failure (Read s.length (List Relative)) := do
  have := length_skipBlanks_le s
  have := length_readLead_le (skipBlanks s)
  let first ← readComplex (readLead (skipBlanks s)).2
  have := first.short
  have behind : (skipBlanks first.rest).length < s.length := by
    have := length_skipBlanks_le first.rest
    omega
  let value := Relative.ofComplex (readLead (skipBlanks s)).1 first.value
  match h : skipBlanks first.rest with
  | ',' :: rest =>
    have inside : rest.length < s.length := length_lt_of_eq_cons h (Nat.le_of_lt behind)
    let more ← readRelatives rest
    return ⟨value :: more.value, more.rest, Nat.lt_trans more.short inside⟩
  | other => return ⟨[value], other, h ▸ behind⟩
termination_by s.length * 5 + 4

end

/-- Read a whole text as a selector list. -/
def ofChars (s : List Char) : Except SelectorError Selector :=
  if s.all Text.isBlank then .error .empty
  else
    let size := Text.byteSize s
    match readList s with
    | .error failure => .error (failure.toError size)
    | .ok list =>
      match skipBlanks list.rest with
      | [] => .ok ⟨list.value⟩
      | rest => .error ((Failure.unexpected rest).toError size)

def ofString (s : String) : Except SelectorError Selector := ofChars s.toList

end Selector

end NoiseFilter
