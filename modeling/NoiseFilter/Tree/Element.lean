import NoiseFilter.Tree.ClassList
import NoiseFilter.Tree.InlineStyle

/-!
# Elements

A tag name and attributes. The attributes `class` and `style` are kept twice: as raw text, which
attribute selectors see, and in parsed form. A write to either form is carried to the other; a
class list or a style that becomes empty drops its attribute.
-/

namespace NoiseFilter

/-- An element without its place in a tree. -/
structure Element where
  name : String
  /-- The raw text of the attributes. -/
  raw : NamedValues := {}
  classes : ClassList := {}
  style : InlineStyle := {}
  deriving DecidableEq, Inhabited

namespace Element

/-- An element without attributes; its name is lowered. -/
def ofName (name : String) : Element := { name := Text.lower name }

/-- The attributes in the order in which they were first set. -/
def attributes (e : Element) : List NamedValue := e.raw.entries

/-- The value of an attribute, whatever the case of its name. -/
def get? (e : Element) (name : String) : Option String := e.raw.get? name

def has (e : Element) (name : String) : Bool := (e.get? name).isSome

def id? (e : Element) : Option String := e.get? "id"

def hasClass (e : Element) (token : String) : Bool := e.classes.contains token

/-- Store the raw text of an attribute, or drop the attribute. -/
def store (e : Element) (name : String) : Option String → Element
  | some value => { e with raw := e.raw.set name value }
  | none => { e with raw := e.raw.erase name }

/-- Read the class list or the style anew from a text, if the attribute `name` holds it. -/
def reread (e : Element) (name text : String) : Element :=
  if Text.lower name = "class" then { e with classes := .ofString text }
  else if Text.lower name = "style" then { e with style := .ofString text }
  else e

/-- Set an attribute, and read `class` and `style` anew. -/
def set (e : Element) (name value : String) : Element := (e.reread name value).store name (some value)

/-- Remove an attribute if it is there, and with `class` or `style` what was read from it. -/
def erase (e : Element) (name : String) : Element :=
  if e.has name then (e.reread name "").store name none else e

/-- Write the class list back to its attribute. -/
def storeClasses (e : Element) : Element := e.store "class" e.classes.text?

/-- Write the style back to its attribute. -/
def storeStyle (e : Element) : Element := e.store "style" e.style.text?

def addClass (e : Element) (token : String) : Element :=
  { e with classes := e.classes.insert token }.storeClasses

def removeClass (e : Element) (token : String) : Element :=
  { e with classes := e.classes.erase token }.storeClasses

def setStyle (e : Element) (property value : String) : Element :=
  { e with style := e.style.set property value }.storeStyle

def removeStyle (e : Element) (property : String) : Element :=
  { e with style := e.style.erase property }.storeStyle

/-- An element with attributes set in order. -/
def ofAttributes (name : String) (attributes : List (String × String)) : Element :=
  attributes.foldl (fun e a => e.set a.1 a.2) (ofName name)

end Element

end NoiseFilter
