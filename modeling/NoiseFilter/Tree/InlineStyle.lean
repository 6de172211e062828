import NoiseFilter.Text.Blank
import NoiseFilter.Tree.NamedValues

/-!
# Inline styles

The declarations of a `style` attribute, in the order in which their properties were first set.
A later declaration of a property replaces the value and keeps the place.
-/

namespace NoiseFilter

/-- Declarations `property: value`. -/
structure InlineStyle where
  declarations : NamedValues := {}
  deriving DecidableEq, Inhabited

namespace InlineStyle

/-- The value of a property, whatever the case of its name. -/
def get? (s : InlineStyle) (property : String) : Option String := s.declarations.get? property

/-- Set a property; its name is lowered. -/
def set (s : InlineStyle) (property value : String) : InlineStyle :=
  ⟨s.declarations.set property value⟩

/-- Take out the declaration of a property. -/
def erase (s : InlineStyle) (property : String) : InlineStyle := ⟨s.declarations.erase property⟩

/-- The trimmed property and value of one declaration; both must be there. -/
def readDeclaration (text : String) : Option (String × String) := do
  let (property, value) ← Text.splitOnce text ':'
  let property := Text.trim property
  let value := Text.trim value
  if property.isEmpty || value.isEmpty then none else some (property, value)

/-- The style that the value of a `style` attribute stands for. What is not a declaration is
skipped. -/
def ofString (css : String) : InlineStyle :=
  ((Text.splitOn css ';').filterMap readDeclaration).foldl (fun s d => s.set d.1 d.2) {}

/-- Every declaration as `property: value;`, joined by single spaces. -/
def render (s : InlineStyle) : String :=
  " ".intercalate (s.declarations.entries.map fun d => d.name ++ ": " ++ d.value ++ ";")

def size (s : InlineStyle) : Nat := s.declarations.size

def isEmpty (s : InlineStyle) : Bool := s.declarations.isEmpty

/-- The text of the attribute that holds the style; a style without declarations has no
attribute. -/
def text? (s : InlineStyle) : Option String := if s.isEmpty then none else some s.render

end InlineStyle

end NoiseFilter
