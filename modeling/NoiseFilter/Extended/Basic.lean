import NoiseFilter.Extended.TextTest
import NoiseFilter.Selector.Reader

/-!
# Extended selectors

A selector whose text tests have been taken out. What is left, the base, is an ordinary selector.
The tests that stood outside `:has(…)` are its `contains`; each `:has(…)` that held tests gives one
clause, in which every test comes with the selector that stood in front of it.
-/

namespace NoiseFilter

/-- A text test inside `:has(…)`: some element that `sub` finds from the candidate passes it. -/
structure HasTest where
  sub : String
  test : TextTest

namespace HasTest

/-- How the sub-selector reaches out from the candidate. -/
def reach (h : HasTest) : Combinator :=
  match h.sub.toList with
  | '>' :: _ => .child
  | '+' :: _ => .next
  | '~' :: _ => .subsequent
  | _ => .descendant

/-- The selector that is asked. A leading combinator starts at the candidate itself. -/
def query (h : HasTest) : String :=
  if h.reach = .descendant then h.sub else ":scope " ++ h.sub

end HasTest

/-- The tests of one `:has(…)`, which have to hold together. -/
abbrev HasClause := List HasTest

/-- A selector with text tests. Of the clauses one has to hold, and of the tests in `contains`. -/
structure ExtendedSelector where
  source : String
  base : String
  has : List HasClause := []
  contains : List TextTest := []

/-- Why an extended selector cannot be evaluated: the base or a sub-selector is no selector. -/
structure EvaluationError where
  selector : String
  cause : SelectorError

def EvaluationError.message (e : EvaluationError) : String :=
  "cannot evaluate selector '" ++ e.selector ++ "': " ++ e.cause.message

/-- Read a selector, and name it if that fails. -/
def readNamed (name text : String) : Except EvaluationError Selector :=
  (Selector.ofString text).mapError fun cause => { selector := name, cause }

/-- The selector that a test inside `:has(…)` asks. -/
def HasTest.selector (h : HasTest) : Except EvaluationError Selector := readNamed h.sub h.query

namespace ExtendedSelector

/-- The base, read. -/
def structural (s : ExtendedSelector) : Except EvaluationError Selector := readNamed s.base s.base

/-- Whether there is no text test at all. -/
def isStructuralOnly (s : ExtendedSelector) : Bool := s.has.isEmpty && s.contains.isEmpty

end ExtendedSelector

end NoiseFilter
