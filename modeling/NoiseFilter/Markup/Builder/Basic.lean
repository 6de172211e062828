import NoiseFilter.Markup.Label
import NoiseFilter.Markup.RawText
import NoiseFilter.Tree.Forest

/-!
# The state of reading a page

A page is built while its tokens are read: a forest of items, the stack of elements still open,
and what the rules for misplaced tags have to remember. The innermost open element stands first
in the stack, and the newest entry first in the list of formatting elements.
-/

namespace NoiseFilter.Markup

/-- A node of a page under construction. -/
inductive Item where
  | document
  | doctype (name : String)
  /-- An element; the content of a template is kept apart, below a node of its own. -/
  | element (label : Label) (attributes : List (String × String)) (content : Option NodeId)
  | text (s : String)
  | comment (s : String)
  /-- The top of the content of a template. -/
  | fragment
  deriving Inhabited

/-- Which part of the page is being read. -/
inductive Mode where
  | initial
  | beforeHtml
  | beforeHead
  | inHead
  | afterHead
  | inBody
  | inTable
  | inTableText
  | inCaption
  | inColumnGroup
  | inTableBody
  | inRow
  | inCell
  | inTemplate
  | afterBody
  | inFrameset
  | afterFrameset
  | afterAfterBody
  | afterAfterFrameset
  deriving DecidableEq, Inhabited

/-- An entry of the list of formatting elements. -/
inductive FormattingEntry where
  /-- The bound of a cell, a caption or an embedded object. -/
  | marker
  | element (id : NodeId) (tag : Tag)

/-- A page under construction. -/
structure Builder where
  forest : Forest Item := .single .document
  mode : Mode := .initial
  /-- The modes of the open templates, the innermost first. -/
  templates : List Mode := []
  stack : List NodeId := []
  formatting : List FormattingEntry := []
  head : Option NodeId := none
  form : Option NodeId := none
  framesetAllowed : Bool := true
  /-- Whether misplaced content goes in front of the table. -/
  fostering : Bool := false
  /-- Whether the document type was odd or missing. -/
  odd : Bool := false
  /-- Text of a table not yet placed, and the mode to go on with. -/
  pending : List Char := []
  resume : Mode := .inTable
  /-- Whether a line feed that comes next is dropped. -/
  skipNewline : Bool := false
  /-- How the content of the element just opened is read, if it is no markup. -/
  raw : Option RawKind := none
  /-- Whether all that follows is text. -/
  plaintext : Bool := false

namespace Builder

/-! ## Looking -/

def label? (b : Builder) (id : NodeId) : Option Label :=
  match b.forest.data? id with
  | some (.element label _ _) => some label
  | _ => none

/-- Whether a node is an element whose label satisfies a condition. -/
def is (b : Builder) (p : Label → Bool) (id : NodeId) : Bool := (b.label? id).any p

def isNamed (b : Builder) (name : String) (id : NodeId) : Bool := b.is (·.isNamed name) id

def current? (b : Builder) : Option NodeId := b.stack.head?

def currentIs (b : Builder) (p : Label → Bool) : Bool := b.current?.any (b.is p)

/-- Whether an open element satisfies `wanted` and none further in is a bound. -/
def reaches (b : Builder) (bound wanted : NodeId → Bool) : List NodeId → Bool
  | [] => false
  | id :: rest => wanted id || (!bound id && b.reaches bound wanted rest)

def hasInScope (b : Builder) (bound : Label → Bool) (wanted : Label → Bool) : Bool :=
  b.reaches (b.is bound) (b.is wanted) b.stack

def hasNamed (b : Builder) (bound : Label → Bool) (name : String) : Bool :=
  b.hasInScope bound (·.isNamed name)

def hasTemplate (b : Builder) : Bool := b.stack.any (b.isNamed "template")

/-- The outermost open element. -/
def top? (b : Builder) : Option NodeId := b.stack.getLast?

/-- The second outermost open element, if it is the body. -/
def body? (b : Builder) : Option NodeId :=
  (b.stack.reverse[1]?).filter (b.isNamed "body")

/-! ## Placing -/

/-- A place for a new node. -/
inductive Place where
  | inside (parent : NodeId)
  | before (sibling : NodeId)

/-- Inside a node; for a template, inside its content. -/
def placeInside (b : Builder) (id : NodeId) : Place :=
  match b.forest.data? id with
  | some (.element _ _ (some content)) => .inside content
  | _ => .inside id

/-- The place for misplaced content: in front of the innermost table, or in the innermost template
if that is further in. -/
def fosterPlace (b : Builder) : List NodeId → Place
  | [] => .inside .root
  | [id] => b.placeInside id
  | id :: outer :: rest =>
    if b.isNamed "template" id then b.placeInside id
    else if b.isNamed "table" id then
      if (b.forest.parent? id).isSome then .before id else .inside outer
    else b.fosterPlace (outer :: rest)

/-- Where a node that belongs into `target` goes. -/
def placeFor (b : Builder) (target : NodeId) : Place :=
  if b.fostering && b.is (·.isTablePart) target then b.fosterPlace b.stack
  else b.placeInside target

/-- Where the next node goes. -/
def place (b : Builder) : Place := b.placeFor (b.current?.getD .root)

/-- Put a node in a place, taking it from where it was. -/
def put (b : Builder) (id : NodeId) : Place → Builder
  | .inside parent => { b with forest := b.forest.append parent id }
  | .before sibling => { b with forest := b.forest.insertBefore sibling id }

def create (b : Builder) (item : Item) : NodeId × Builder :=
  let (id, forest) := b.forest.create item
  (id, { b with forest })

/-- The node that stands right in front of a place. -/
def neighbour? (b : Builder) : Place → Option NodeId
  | .inside parent => (b.forest.children parent).getLast?
  | .before sibling => (b.forest.siblingsBefore sibling).head?

/-- Add a character; it joins a text that stands right in front of it. -/
def insertChar (b : Builder) (c : Char) : Builder :=
  let place := b.place
  let joined := (b.neighbour? place).filter fun id =>
    match b.forest.data? id with
    | some (.text _) => true
    | _ => false
  match joined with
  | some id =>
    { b with
      forest := b.forest.modifyData id fun
        | .text s => .text (s.push c)
        | item => item }
  | none =>
    let (id, b) := b.create (.text (String.singleton c))
    b.put id place

def insertComment (b : Builder) (s : String) : Builder :=
  let place := b.place
  let (id, b) := b.create (.comment s)
  b.put id place

/-- Add a comment as the last child of a node. -/
def insertCommentIn (b : Builder) (parent : NodeId) (s : String) : Builder :=
  let (id, b) := b.create (.comment s)
  b.put id (.inside parent)

/-- Make an element that hangs nowhere yet. -/
def createElement (b : Builder) (label : Label) (attributes : List (String × String)) :
    NodeId × Builder :=
  if label.isNamed "template" then
    let (content, b) := b.create .fragment
    b.create (.element label attributes (some content))
  else b.create (.element label attributes none)

/-- Make an element for a tag and put it in its place. -/
def insertElement (b : Builder) (label : Label) (attributes : List (String × String)) :
    NodeId × Builder :=
  let place := b.place
  let (id, b) := b.createElement label attributes
  (id, b.put id place)

def push (b : Builder) (id : NodeId) : Builder := { b with stack := id :: b.stack }

/-- Add an element for a tag and open it. -/
def open_ (b : Builder) (t : Tag) : Builder :=
  let (id, b) := b.insertElement { name := t.name } t.attributes
  b.push id

/-- Add an element for a tag that has no content. -/
def insertVoid (b : Builder) (t : Tag) : Builder :=
  (b.insertElement { name := t.name } t.attributes).2

/-- Add an element that holds raw text, which is read next. -/
def openRaw (b : Builder) (kind : RawKind) (t : Tag) : Builder :=
  { b.open_ t with raw := some kind }

/-- Add the attributes of a tag that an element does not have yet. -/
def addMissing (b : Builder) (id : NodeId) (t : Tag) : Builder :=
  { b with
    forest := b.forest.modifyData id fun
      | .element label attributes content =>
        .element label
          (attributes ++ t.attributes.filter fun a => !(attributes.any fun o => o.1 == a.1)) content
      | item => item }

/-! ## Closing -/

def pop (b : Builder) : Builder := { b with stack := b.stack.drop 1 }

/-- Close elements up to and with the first that satisfies a condition. -/
def popThrough (b : Builder) (p : Label → Bool) : Builder :=
  { b with stack := (b.stack.dropWhile fun id => !b.is p id).drop 1 }

def popThroughNamed (b : Builder) (name : String) : Builder := b.popThrough (·.isNamed name)

/-- Close elements down to, and without, the first that satisfies a condition. -/
def popTo (b : Builder) (p : Label → Bool) : Builder :=
  { b with stack := b.stack.dropWhile fun id => !b.is p id }

/-- Close the elements that close by themselves, but none that is named `but`. -/
def closeImplied (b : Builder) (but : String) : Builder :=
  { b with stack := b.stack.dropWhile (b.is fun l => l.closesItself && l.name != but) }

def closeAllImplied (b : Builder) : Builder := b.closeImplied ""

/-- Close an open paragraph and what is open in it. -/
def closeParagraph (b : Builder) : Builder :=
  if b.hasNamed (·.boundsButtonScope) "p" then b.popThroughNamed "p" else b

/-- Drop formatting entries up to and with the newest marker. -/
def clearFormatting (b : Builder) : Builder :=
  let isMarker : FormattingEntry → Bool
    | .marker => true
    | _ => false
  { b with formatting := (b.formatting.dropWhile fun e => !isMarker e).drop 1 }

def pushMarker (b : Builder) : Builder := { b with formatting := .marker :: b.formatting }

def forbidFrameset (b : Builder) : Builder := { b with framesetAllowed := false }

def goTo (b : Builder) (mode : Mode) : Builder := { b with mode }

/-- The mode that the innermost open elements ask for. -/
def modeFor (b : Builder) : List NodeId → Mode
  | [] => .inBody
  | id :: rest =>
    let named := b.isNamed
    let last := rest.isEmpty
    if !last && (named "td" id || named "th" id) then .inCell
    else if named "tr" id then .inRow
    else if named "tbody" id || named "thead" id || named "tfoot" id then .inTableBody
    else if named "caption" id then .inCaption
    else if named "colgroup" id then .inColumnGroup
    else if named "table" id then .inTable
    else if named "template" id then b.templates.headD .inTemplate
    else if named "head" id && !last then .inHead
    else if named "body" id then .inBody
    else if named "frameset" id then .inFrameset
    else if named "html" id then if b.head.isNone then .beforeHead else .afterHead
    else b.modeFor rest

/-- Go on with the mode that the open elements ask for. -/
def resetMode (b : Builder) : Builder := b.goTo (b.modeFor b.stack)

end Builder

/-- What became of a token. -/
inductive Step where
  | done (b : Builder)
  /-- The token has to be looked at again, in the new state. -/
  | again (b : Builder)

end NoiseFilter.Markup
