import NoiseFilter.Extended.Compile
import NoiseFilter.Proofs.Text.Bytes

/-!
# Compiling over bytes

The compiler as loops over the bytes of a text. A cursor counts bytes, goes two of them at a time behind a
backslash, and text is cut out between two places of the cursor. All of this is checked: a byte that is not
there, a place inside a character, a counter below zero, and a turn of a loop after which there is not less
left than before give no answer at all.
-/

namespace NoiseFilter.Extended.Cursor

open Text (bytesOf byteOf byteSize dropBytes slice)

/-- A run that answers, with a value or an error, or does not. -/
abbrev Run (α : Type) := ExceptT CompileError Option α

/-- No answer. -/
def Run.stuck {α : Type} : Run α := ExceptT.mk none

/-- The run that answers so. -/
def answer {α : Type} (e : Except CompileError α) : Run α := ExceptT.mk (some e)

/-- A number less another that is not greater. -/
def lower (n m : Nat) : Option Nat := if m ≤ n then some (n - m) else none

def isQuoteByte (b : UInt8) : Bool := b == byteOf '"' || b == byteOf '\''

def isBlankByte (b : UInt8) : Bool :=
  b == byteOf ' ' || b == byteOf '\t' || b == byteOf '\n' || b == byteOf '\x0c' || b == byteOf '\r'

/-- The small letter of a capital of ASCII. -/
def lowerByte (b : UInt8) : UInt8 := if byteOf 'A' ≤ b ∧ b ≤ byteOf 'Z' then b + 32 else b

/-- The place of a closing delimiter. -/
def seek (bytes : List UInt8) (delimiter : UInt8) (i : Nat) : Option (Option Nat) :=
  if i < bytes.length then do
    let b ← bytes[i]?
    if b = byteOf '\\' then seek bytes delimiter (i + 2)
    else if b = delimiter then return some i
    else seek bytes delimiter (i + 1)
  else some none
termination_by bytes.length - i

/-- The place behind a quoted text, if it ends. -/
def skipQuoted (bytes : List UInt8) (i : Nat) : Option (Option Nat) := do
  let quote ← bytes[i]?
  let close ← seek bytes quote (i + 1)
  return close.map (· + 1)

/-- The place behind a quoted text, which is the end if it does not end. -/
def passQuoted (bytes : List UInt8) (i : Nat) : Option Nat := do
  let next ← skipQuoted bytes i
  return next.getD bytes.length

/-- The place behind blanks. -/
def skipBlanks (bytes : List UInt8) (i : Nat) : Option Nat :=
  if i < bytes.length then do
    let b ← bytes[i]?
    if isBlankByte b then skipBlanks bytes (i + 1) else return i
  else some i
termination_by bytes.length - i

/-- Whether a token stands at a place of a text. -/
def standsAt (source token : List Char) (i : Nat) : Option Bool := do
  let rest ← dropBytes i source
  return token.isPrefixOf rest

/-- The place behind a closing parenthesis, which may stand behind blanks. -/
def close (bytes : List UInt8) (i offset : Nat) : Run Nat := do
  let last ← skipBlanks bytes i
  if bytes[last]? = some (byteOf ')') then return last + 1
  else throw (.unbalancedParens offset)

/-- The test that a pattern stands for whose delimiter is at a place, and the place behind the closing
parenthesis. Errors point at `offset`. -/
def readPattern (source : List Char) (first offset : Nat) : Run (Nat × TextTest) := do
  let bytes := bytesOf source
  match bytes[first]? with
  | none => throw (.unbalancedParens offset)
  | some delimiter =>
    if isQuoteByte delimiter || delimiter == byteOf '/' then
      match ← seek bytes delimiter (first + 1) with
      | none => throw (.unterminatedLiteral offset)
      | some last =>
        let body ← slice source (first + 1) last
        let next ← close bytes (last + 1) offset
        let test ← answer (TextTest.ofDelimited (Char.ofNat delimiter.toNat) body)
        return (next, test)
    else throw (.unquotedPattern offset)

/-- The test of the `:contains(` at a place, and the place behind it. -/
def readTest (source : List Char) (i origin : Nat) : Run (Nat × TextTest) := do
  let first ← skipBlanks (bytesOf source) (i + byteSize containsToken)
  readPattern source first (origin + i)

/-- A text test, with the place where it begins and the place behind it. -/
structure Token where
  first : Nat
  last : Nat
  test : TextTest

/-- The place where the argument of a `:has(` ends that stands at `start`, and the text tests in it. -/
def argumentEnd (source : List Char) (start i depth : Nat) : Run (Nat × List Token) :=
  if i < (bytesOf source).length then do
    let b ← ((bytesOf source)[i]? : Option UInt8)
    if isQuoteByte b then
      match ← skipQuoted (bytesOf source) i with
      | none => throw (.unterminatedLiteral i)
      | some next => if i < next then argumentEnd source start next depth else .stuck
    else if b = byteOf ':' then
      if ← standsAt source containsToken i then
        let (next, test) ← readTest source i 0
        if i < next then
          let (close, tokens) ← argumentEnd source start next depth
          return (close, ⟨i, next, test⟩ :: tokens)
        else .stuck
      else argumentEnd source start (i + 1) depth
    else if b = byteOf '(' then argumentEnd source start (i + 1) (depth + 1)
    else if b = byteOf ')' then
      if depth = 0 then return (i, [])
      else
        let depth ← lower depth 1
        argumentEnd source start (i + 1) depth
    else argumentEnd source start (i + 1) depth
  else throw (.unbalancedParens start)
termination_by (bytesOf source).length - i

/-- Whether `:has(` stands at a place, in any case of letters. -/
def hasAt (bytes : List UInt8) (i : Nat) : Bool :=
  ((bytes.drop i).take (byteSize hasToken)).map lowerByte == bytesOf hasToken

/-- An argument of `:has(` less its text tests, its pairs, and the tests. Of the text in front of `copied`
is kept what has been `kept`; `origin` is the place of the argument. -/
def stripFrom (argument : List Char) (origin : Nat) (kept : List Char) (copied i : Nat) :
    Run (List Char × HasClause × List Token) :=
  if i < (bytesOf argument).length then do
    let b ← ((bytesOf argument)[i]? : Option UInt8)
    if isQuoteByte b then
      let next ← passQuoted (bytesOf argument) i
      if i < next then stripFrom argument origin kept copied next else .stuck
    else if b = byteOf ':' then
      if ← standsAt argument containsToken i then
        let text ← slice argument copied i
        let (next, test) ← readTest argument i origin
        let sub := String.ofList (orAny (Text.trimChars (kept ++ text)))
        if i < next then
          let (out, pairs, tokens) ← stripFrom argument origin (kept ++ text) next next
          return (out, { sub, test } :: pairs, ⟨i, next, test⟩ :: tokens)
        else .stuck
      else stripFrom argument origin kept copied (i + 1)
    else stripFrom argument origin kept copied (i + 1)
  else do
    let rest ← dropBytes copied argument
    return (Text.trimChars (kept ++ rest), [], [])
termination_by (bytesOf argument).length - i

/-- What is found in a selector from a place on. Of the text in front of `copied` the `base` holds what it
should. -/
def walkFrom (source base : List Char) (copied i : Nat) : Run Found :=
  if i < (bytesOf source).length then do
    let b ← ((bytesOf source)[i]? : Option UInt8)
    if isQuoteByte b then
      let next ← passQuoted (bytesOf source) i
      if i < next then walkFrom source base copied next else .stuck
    else if b = byteOf ':' then
      if hasAt (bytesOf source) i then
        let first := i + byteSize hasToken
        let (close, _) ← argumentEnd source i first 0
        let argument ← slice source first close
        if i < close + 1 then
          if Text.occursIn containsToken argument then
            let text ← slice source copied i
            let (out, pairs, _) ← stripFrom argument first [] 0 0
            let base := base ++ text ++ hasToken ++ orAny out ++ [')']
            let found ← walkFrom source base (close + 1) (close + 1)
            return { found with has := pairs :: found.has }
          else walkFrom source base copied (close + 1)
        else .stuck
      else if ← standsAt source containsToken i then
        let text ← slice source copied i
        let (next, test) ← readTest source i 0
        if i < next then
          let found ← walkFrom source (base ++ text) next next
          return { found with contains := test :: found.contains }
        else .stuck
      else walkFrom source base copied (i + 1)
    else walkFrom source base copied (i + 1)
  else do
    let rest ← dropBytes copied source
    return { base := base ++ rest }
termination_by (bytesOf source).length - i

/-- Take logic without argument out until nothing changes. -/
def clean (text : List Char) : Option (List Char) :=
  let next := dropEmptyLogic text
  if next = text then some text
  else if next.length < text.length then clean next
  else none
termination_by text.length

/-- The parts between commas outside parentheses, brackets and quotes; the first begins at `start`. -/
def splitFrom (text : List Char) (start i depth : Nat) : Option (List (List Char)) :=
  if i < (bytesOf text).length then do
    let b ← (bytesOf text)[i]?
    if isQuoteByte b then
      let next ← passQuoted (bytesOf text) i
      if i < next then splitFrom text start next depth else none
    else if b = byteOf '(' ∨ b = byteOf '[' then splitFrom text start (i + 1) (depth + 1)
    else if b = byteOf ')' ∨ b = byteOf ']' then splitFrom text start (i + 1) (depth - 1)
    else if b = byteOf ',' ∧ depth = 0 then
      let part ← slice text start i
      let others ← splitFrom text (i + 1) (i + 1) depth
      return part :: others
    else splitFrom text start (i + 1) depth
  else do
    let part ← dropBytes start text
    return [part]
termination_by (bytesOf text).length - i

/-- Tidy what is left of a selector. -/
def tidy (base : List Char) : Option (List Char) := do
  let text ← clean base
  let parts ← splitFrom text 0 0 0
  return [',', ' '].intercalate (parts.map tidyPart)

/-- Compile a selector. -/
def compile (source : String) : Run ExtendedSelector := do
  if Text.occursIn containsToken source.toList then
    let found ← walkFrom source.toList [] 0 0
    let base ← tidy found.base
    return { source, base := String.ofList base, has := found.has, contains := found.contains }
  else return { source, base := source }

end NoiseFilter.Extended.Cursor
