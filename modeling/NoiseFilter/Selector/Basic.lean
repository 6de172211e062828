import NoiseFilter.Selector.Attribute
import NoiseFilter.Selector.Nth

/-!
# Selectors

A selector list holds alternatives. Each is a complex selector: compounds joined by combinators,
built from the left, so that the compound for the element itself is the outermost. A compound is a
list of simple selectors that all apply to one element.

A relative selector, the argument of `:has`, is stored as a complex selector that starts with
`:scope`: matching it is ordinary matching with the subject as the scope.
-/

namespace NoiseFilter

/-- What two neighbouring compounds have to do with each other. -/
inductive Combinator where
  | descendant
  | child
  | next
  | subsequent
  deriving DecidableEq, Inhabited

mutual

/-- A condition on one element. -/
inductive Simple where
  | universal
  | type (name : String)
  | id (name : String)
  | cls (name : String)
  | attribute (a : AttributeSelector)
  | pseudo (p : Pseudo)

/-- Pseudo-classes: places among the siblings, and logic on selectors. -/
inductive Pseudo where
  | root
  | scope
  | empty
  | firstChild
  | lastChild
  | onlyChild
  | firstOfType
  | lastOfType
  | onlyOfType
  | nthChild (e : Nth)
  | nthLastChild (e : Nth)
  | nthOfType (e : Nth)
  | nthLastOfType (e : Nth)
  | negation (alternatives : List Complex)
  | oneOf (alternatives : List Complex)
  | whereOneOf (alternatives : List Complex)
  | has (alternatives : List Relative)

/-- Compounds joined by combinators. -/
inductive Complex where
  | compound (parts : List Simple)
  | join (left : Complex) (combinator : Combinator) (parts : List Simple)

/-- An argument of `:has`. -/
inductive Relative where
  | mk (combinator : Combinator) (selector : Complex)

end

/-- A selector: its alternatives in the order written. -/
structure Selector where
  alternatives : List Complex

/-- A complex selector that continues `:scope` by a combinator. -/
def Complex.fromScope (k : Combinator) : Complex → Complex
  | .compound parts => .join (.compound [.pseudo .scope]) k parts
  | .join left k' parts => .join (left.fromScope k) k' parts

/-- The relative selector with this leading combinator. -/
def Relative.ofComplex (k : Combinator) (c : Complex) : Relative := .mk k (c.fromScope k)

end NoiseFilter
