import NoiseFilter.Extended.Basic
import NoiseFilter.Selector.Match
import NoiseFilter.Tree.Text

/-!
# Selecting with extended selectors

An element is selected if the base matches it, its rendered text passes one of the tests of
`contains`, and one of the clauses holds; where there are no tests, or no clauses, nothing is asked
of them. Errors show at once, whether or not a candidate would have reached them.
-/

namespace NoiseFilter

/-- A test inside `:has(…)` whose selector has been read. -/
structure Probe where
  reach : Combinator
  selector : Selector
  test : TextTest

namespace Probe

def ofHasTest (h : HasTest) : Except EvaluationError Probe := do
  return { reach := h.reach, selector := ← h.selector, test := h.test }

/-- Whether some element found from the candidate passes the test. -/
def holds (p : Probe) (t : Tree) (e : NodeId) : Bool :=
  (p.selector.queryRelative t e p.reach).any fun d => p.test.accepts (t.renderedText d)

end Probe

/-- An extended selector of which all parts have been read. -/
structure Query where
  base : Selector
  contains : List TextTest
  clauses : List (List Probe)

namespace Query

/-- Whether the text of an element passes one of the tests, if there are any. -/
def passesContains (q : Query) (t : Tree) (e : NodeId) : Bool :=
  q.contains.isEmpty ||
    let text := t.renderedText e
    q.contains.any (·.accepts text)

/-- Whether one of the clauses holds, if there are any. -/
def passesClauses (q : Query) (t : Tree) (e : NodeId) : Bool :=
  q.clauses.isEmpty || q.clauses.any fun probes => probes.all (·.holds t e)

/-- Whether a node is an element that the selector matches. -/
def accepts (q : Query) (t : Tree) (e : NodeId) : Bool :=
  q.base.accepts t none e && q.passesContains t e && q.passesClauses t e

end Query

namespace ExtendedSelector

/-- Read the base and all selectors of clauses. -/
def read (s : ExtendedSelector) : Except EvaluationError Query := do
  return {
    base := ← s.structural
    contains := s.contains
    clauses := ← s.has.mapM fun clause => clause.mapM Probe.ofHasTest }

/-- Keep the candidates that the selector matches, in their order. -/
def select (s : ExtendedSelector) (t : Tree) (candidates : List NodeId) :
    Except EvaluationError (List NodeId) := do
  return candidates.filter ((← s.read).accepts t)

/-- The matching elements strictly inside `root`, in document order. -/
def queryAll (s : ExtendedSelector) (t : Tree) (root : NodeId) :
    Except EvaluationError (List NodeId) :=
  s.select t (t.descendantElements root)

end ExtendedSelector

end NoiseFilter
