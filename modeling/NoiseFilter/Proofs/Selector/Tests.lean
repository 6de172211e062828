import NoiseFilter.Extended.Select

/-!
# What a selector tests

The classes and attributes that a selector asks for, at every depth. What kind of thing an element is,
what its id is, where it stands among the others and what its text is, a selector may ask as well;
this is not listed.
-/

namespace NoiseFilter

/-- A mark on an element that a selector can ask for. -/
inductive Test where
  | cls (name : String)
  | attribute (name : String)
  deriving DecidableEq

mutual

def Simple.tests : Simple → List Test
  | .cls name => [.cls name]
  | .attribute a => [.attribute a.name]
  | .pseudo p => p.tests
  | .universal | .type _ | .id _ => []

def Pseudo.tests : Pseudo → List Test
  | .negation alternatives | .oneOf alternatives | .whereOneOf alternatives =>
    alternativesTests alternatives
  | .has alternatives => relativesTests alternatives
  | .root | .scope | .empty | .firstChild | .lastChild | .onlyChild | .firstOfType | .lastOfType
  | .onlyOfType | .nthChild _ | .nthLastChild _ | .nthOfType _ | .nthLastOfType _ => []

def Complex.tests : Complex → List Test
  | .compound parts => partsTests parts
  | .join left _ parts => left.tests ++ partsTests parts

def Relative.tests : Relative → List Test
  | .mk _ selector => selector.tests

def partsTests : List Simple → List Test
  | [] => []
  | s :: rest => s.tests ++ partsTests rest

def alternativesTests : List Complex → List Test
  | [] => []
  | c :: rest => c.tests ++ alternativesTests rest

def relativesTests : List Relative → List Test
  | [] => []
  | r :: rest => r.tests ++ relativesTests rest

end

def Selector.tests (s : Selector) : List Test := alternativesTests s.alternatives

/-- All tests of the base and of the selectors in clauses. -/
def Query.tests (q : Query) : List Test :=
  q.base.tests ++ q.clauses.flatten.flatMap (·.selector.tests)

/-! ## Likeness -/

/-- Two elements that a selector with these tests cannot tell apart. -/
structure Element.Like (tests : List Test) (e e' : Element) : Prop where
  name : e'.name = e.name
  id : e'.get? "id" = e.get? "id"
  classes : ∀ c, .cls c ∈ tests → (c ∈ e'.classes.tokens ↔ c ∈ e.classes.tokens)
  attributes : ∀ a, .attribute a ∈ tests → e'.get? a = e.get? a

namespace Element.Like

variable {tests : List Test} {e e' e'' : Element}

theorem refl (e : Element) : Like tests e e :=
  ⟨rfl, rfl, fun _ _ => Iff.rfl, fun _ _ => rfl⟩

theorem trans (left : Like tests e e') (right : Like tests e' e'') : Like tests e e'' where
  name := right.name.trans left.name
  id := right.id.trans left.id
  classes c tested := (right.classes c tested).trans (left.classes c tested)
  attributes a tested := (right.attributes a tested).trans (left.attributes a tested)

end Element.Like

end NoiseFilter
