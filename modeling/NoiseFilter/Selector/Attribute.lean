import NoiseFilter.Text.LowerCase

/-!
# Attribute selectors

A selector such as `[name^=value i]` asks for an attribute and may compare its value. With the
flag `i` both sides are lowered by the full mapping before they are compared.
-/

namespace NoiseFilter

/-- How a value is compared. -/
inductive AttributeOperator where
  /-- `=`: the whole value. -/
  | exact
  /-- `~=`: one of the words of the value. -/
  | word
  /-- `|=`: the value, or its part in front of a hyphen. -/
  | dash
  /-- `^=`: the start of the value. -/
  | start
  /-- `$=`: the end of the value. -/
  | finish
  /-- `*=`: some part of the value. -/
  | part
  deriving DecidableEq, Inhabited

/-- A comparison with a value. -/
structure AttributeTest where
  operator : AttributeOperator
  value : String
  ignoreCase : Bool := false
  deriving DecidableEq, Inhabited

/-- An attribute selector; without a test, any value will do. -/
structure AttributeSelector where
  name : String
  test : Option AttributeTest := none
  deriving DecidableEq, Inhabited

namespace AttributeOperator

/-- The comparison itself. The empty value is the start, end, part or word of nothing. -/
def compare (op : AttributeOperator) (expected actual : List Char) : Bool :=
  match op with
  | exact => actual == expected
  | word =>
    !expected.isEmpty && !expected.any Text.isBlank && (Text.wordsOf actual).contains expected
  | dash => actual == expected || (expected ++ ['-']).isPrefixOf actual
  | start => !expected.isEmpty && expected.isPrefixOf actual
  | finish => !expected.isEmpty && expected.isSuffixOf actual
  | part => !expected.isEmpty && Text.occursIn expected actual

end AttributeOperator

namespace AttributeTest

/-- Both sides of a comparison pass through this. -/
def fold (t : AttributeTest) (s : String) : List Char :=
  if t.ignoreCase then Text.lowercaseChars s.toList else s.toList

def accepts (t : AttributeTest) (actual : String) : Bool :=
  t.operator.compare (t.fold t.value) (t.fold actual)

end AttributeTest

/-- Whether the value of an attribute, or its absence, passes. -/
def AttributeSelector.accepts (a : AttributeSelector) (actual : Option String) : Bool :=
  match a.test, actual with
  | none, actual => actual.isSome
  | some _, none => false
  | some t, some v => t.accepts v

end NoiseFilter
