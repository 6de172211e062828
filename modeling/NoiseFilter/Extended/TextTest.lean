import NoiseFilter.Pattern.Compile
import NoiseFilter.Text.Ascii
import NoiseFilter.Text.Quoted

/-!
# Tests on text

The argument of `:contains`: a literal that has to occur in a text, case and all, or a regular
expression that has to match somewhere in it.
-/

namespace NoiseFilter

/-- Why an extended selector does not compile. Offsets count bytes. -/
inductive CompileError where
  | unterminatedLiteral (offset : Nat)
  | unbalancedParens (offset : Nat)
  | unquotedPattern (offset : Nat)
  | invalidRegex (pattern : String)
  deriving DecidableEq

/-- The message of an error; the reason why a pattern is no regular expression is not kept. -/
def CompileError.message : CompileError → String
  | unterminatedLiteral offset =>
    "unterminated pattern literal in :contains() at offset " ++ Text.digits offset
  | unbalancedParens offset => "unbalanced parentheses at offset " ++ Text.digits offset
  | unquotedPattern offset =>
    ":contains() at offset " ++ Text.digits offset ++ " needs a quoted or /regex/ pattern"
  | invalidRegex pattern => "invalid regular expression /" ++ pattern ++ "/"

/-- A test on text. -/
inductive TextTest where
  | literal (text : String)
  | regex (source : String) (pattern : Pattern)

namespace TextTest

/-- A test by regular expression. -/
def ofRegex (source : String) : Except CompileError TextTest :=
  match Pattern.ofString? source with
  | some pattern => .ok (.regex source pattern)
  | none => .error (.invalidRegex source)

/-- The pattern as written, less the escapes of the delimiters around it. -/
def source : TextTest → String
  | literal text => text
  | regex source _ => source

def isRegex : TextTest → Bool
  | literal _ => false
  | regex _ _ => true

/-- Whether a text passes. -/
def accepts (t : TextTest) (text : String) : Bool :=
  match t with
  | literal part => Text.occursIn part.toList text.toList
  | regex _ pattern => pattern.occursIn text

/-- Two tests are the same if they are written the same. -/
def same (a b : TextTest) : Bool := a.isRegex == b.isRegex && a.source == b.source

/-- How a test is shown. -/
def render : TextTest → String
  | literal text => Text.quote text
  | regex source _ => "/" ++ source ++ "/"

/-- What a body between delimiters stands for. Quotes take every backslash away; slashes only the
one in front of a slash, so that the others reach the regular expression. -/
def unescape (delimiter : Char) : List Char → List Char
  | [] => []
  | c :: rest =>
    if c = '\\' then
      match rest with
      | [] => ['\\']
      | d :: rest =>
        if delimiter = '/' ∧ d ≠ '/' then '\\' :: d :: unescape delimiter rest
        else d :: unescape delimiter rest
    else c :: unescape delimiter rest

/-- The test that a body between delimiters stands for. -/
def ofDelimited (delimiter : Char) (body : List Char) : Except CompileError TextTest :=
  let text := String.ofList (unescape delimiter body)
  if delimiter = '/' then ofRegex text else .ok (.literal text)

end TextTest

end NoiseFilter
