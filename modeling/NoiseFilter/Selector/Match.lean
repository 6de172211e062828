import NoiseFilter.Selector.Basic
import NoiseFilter.Tree.Basic

/-!
# Matching selectors

A complex selector matches an element if its last compound does and the rest matches some element
that the combinator reaches from there. `:scope` is the element of the surrounding query, or the
root of the page where there is none.
-/

namespace NoiseFilter

/-- The elements that may stand on the left of a combinator, for the element on its right. -/
def Combinator.origins (t : Tree) (e : NodeId) : Combinator → List NodeId
  | descendant => (t.ancestors e).filter t.isElement
  | child => (t.parentElement? e).toList
  | next => (t.elementsBefore e).take 1
  | subsequent => t.elementsBefore e

/-- The elements that a relative selector with this leading combinator can land on. -/
def Combinator.candidates (t : Tree) (anchor : NodeId) : Combinator → List NodeId
  | descendant | child => t.descendantElements anchor
  | next | subsequent =>
    (t.elementsAfter anchor).flatMap fun s => s :: t.descendantElements s

/-- The place of an element among its element siblings, counted from 1, and their number. Only
those of its own type count if `sameType`. An element without parent is alone. -/
def siblingPlace (t : Tree) (e : NodeId) (sameType : Bool) : Nat × Nat :=
  match t.parent? e with
  | none => (1, 1)
  | some p =>
    let peers := (t.elementChildren p).filter fun s => !sameType || t.tag? s == t.tag? e
    (((peers.findIdx? (· == e)).map (· + 1)).getD 0, peers.length)

/-- The place of an element counted from the last of its siblings. -/
def siblingPlaceFromEnd (t : Tree) (e : NodeId) (sameType : Bool) : Nat :=
  let (index, count) := siblingPlace t e sameType
  count - index + 1

/-- Whether an element hangs directly below the document. -/
def isPageRoot (t : Tree) (e : NodeId) : Bool := t.parent? e == some .root

/-- Whether an element holds nothing but comments and texts without characters. -/
def isVacant (t : Tree) (e : NodeId) : Bool :=
  (t.children e).all fun c =>
    match t.data? c with
    | some (.text s) => s.isEmpty
    | some (.comment _) => true
    | _ => false

mutual

def Simple.holds (t : Tree) : Simple → Option NodeId → NodeId → Bool
  | .universal, _, _ => true
  | .type name, _, e => t.tag? e == some name
  | .id name, _, e => t.attribute? e "id" == some name
  | .cls name, _, e => t.hasClass e name
  | .attribute a, _, e => a.accepts (t.attribute? e a.name)
  | .pseudo p, scope, e => p.holds t scope e

def Pseudo.holds (t : Tree) : Pseudo → Option NodeId → NodeId → Bool
  | .root, _, e => isPageRoot t e
  | .scope, some scope, e => scope == e
  | .scope, none, e => isPageRoot t e
  | .empty, _, e => isVacant t e
  | .firstChild, _, e => (siblingPlace t e false).1 == 1
  | .lastChild, _, e => (siblingPlace t e false).1 == (siblingPlace t e false).2
  | .onlyChild, _, e => (siblingPlace t e false).2 == 1
  | .firstOfType, _, e => (siblingPlace t e true).1 == 1
  | .lastOfType, _, e => (siblingPlace t e true).1 == (siblingPlace t e true).2
  | .onlyOfType, _, e => (siblingPlace t e true).2 == 1
  | .nthChild n, _, e => n.accepts (siblingPlace t e false).1
  | .nthLastChild n, _, e => n.accepts (siblingPlaceFromEnd t e false)
  | .nthOfType n, _, e => n.accepts (siblingPlace t e true).1
  | .nthLastOfType n, _, e => n.accepts (siblingPlaceFromEnd t e true)
  | .negation alternatives, scope, e => !holdsAny t alternatives scope e
  | .oneOf alternatives, scope, e => holdsAny t alternatives scope e
  | .whereOneOf alternatives, scope, e => holdsAny t alternatives scope e
  | .has alternatives, _, e => landsAny t alternatives e

def Complex.holds (t : Tree) : Complex → Option NodeId → NodeId → Bool
  | .compound parts, scope, e => holdsAll t parts scope e
  | .join left k parts, scope, e =>
    holdsAll t parts scope e && (k.origins t e).any fun o => left.holds t scope o

/-- Whether a relative selector, anchored at an element, lands somewhere. -/
def Relative.lands (t : Tree) : Relative → NodeId → Bool
  | .mk k selector, anchor =>
    (k.candidates t anchor).any fun c => selector.holds t (some anchor) c

def holdsAll (t : Tree) : List Simple → Option NodeId → NodeId → Bool
  | [], _, _ => true
  | s :: rest, scope, e => s.holds t scope e && holdsAll t rest scope e

def holdsAny (t : Tree) : List Complex → Option NodeId → NodeId → Bool
  | [], _, _ => false
  | c :: rest, scope, e => c.holds t scope e || holdsAny t rest scope e

def landsAny (t : Tree) : List Relative → NodeId → Bool
  | [], _ => false
  | r :: rest, anchor => r.lands t anchor || landsAny t rest anchor

end

namespace Selector

/-- Whether a node is an element that some alternative matches. -/
def accepts (s : Selector) (t : Tree) (scope : Option NodeId) (id : NodeId) : Bool :=
  t.isElement id && holdsAny t s.alternatives scope id

/-- The scope of a query from `root`: `root` itself if it is an element. -/
def scopeOf (t : Tree) (root : NodeId) : Option NodeId :=
  if t.isElement root then some root else none

/-- The matching elements strictly inside `root`, in document order. -/
def queryAll (s : Selector) (t : Tree) (root : NodeId) : List NodeId :=
  (t.descendantElements root).filter (s.accepts t (scopeOf t root))

/-- The first matching element strictly inside `root`. -/
def queryFirst (s : Selector) (t : Tree) (root : NodeId) : Option NodeId :=
  (t.descendantElements root).find? (s.accepts t (scopeOf t root))

/-- The matching elements that a relative query reaches from `anchor`, which is the scope. -/
def queryRelative (s : Selector) (t : Tree) (anchor : NodeId) (k : Combinator) : List NodeId :=
  (k.candidates t anchor).filter (s.accepts t (some anchor))

end Selector

end NoiseFilter
