import NoiseFilter.Tree.Element
import NoiseFilter.Tree.Forest

/-!
# The document tree

A forest whose node 0 is the document, with a counter of writes and a journal. Every write that a
live page would report moves the counter, whether or not it changed a value: linking, unlinking,
and each write of an attribute, a class or a style. Creating a node does not. While the tree is
observed, each linking and unlinking also leaves a record in the journal.
-/

namespace NoiseFilter

/-- What a node is. -/
inductive NodeData where
  | document
  | doctype (name : String)
  | element (e : Element)
  | text (t : String)
  | comment (t : String)
  deriving DecidableEq, Inhabited

namespace NodeData

def element? : NodeData → Option Element
  | element e => some e
  | _ => none

def text? : NodeData → Option String
  | text t => some t
  | _ => none

end NodeData

/-- Why a write to the tree was refused. -/
inductive TreeError where
  | noSuchNode (id : NodeId)
  | notAnElement (id : NodeId)
  | cycle (parent child : NodeId)
  deriving DecidableEq

def TreeError.message : TreeError → String
  | noSuchNode id => "node " ++ id.text ++ " does not exist"
  | notAnElement id => "node " ++ id.text ++ " is not an element"
  | cycle parent child =>
    "cannot insert " ++ child.text ++ " under " ++ parent.text ++ ": " ++ child.text
      ++ " is an inclusive ancestor"

/-- One entry of the journal: the nodes that entered or left the child list of `target`. -/
structure Mutation where
  target : NodeId
  added : List NodeId := []
  removed : List NodeId := []
  deriving DecidableEq

/-- A document tree. -/
structure Tree where
  forest : Forest NodeData
  /-- Number of writes so far. -/
  generation : Nat := 0
  observing : Bool := false
  /-- Records not yet taken, the oldest first. -/
  journal : List Mutation := []

namespace Tree

/-- The tree that holds the document node alone. -/
def empty : Tree := { forest := .single .document }

instance : Inhabited Tree := ⟨empty⟩

def size (t : Tree) : Nat := t.forest.size

def data? (t : Tree) (id : NodeId) : Option NodeData := t.forest.data? id

def children (t : Tree) (id : NodeId) : List NodeId := t.forest.children id

def parent? (t : Tree) (id : NodeId) : Option NodeId := t.forest.parent? id

def ancestors (t : Tree) (id : NodeId) : List NodeId := t.forest.ancestors id

def descendants (t : Tree) (id : NodeId) : List NodeId := t.forest.descendants id

def position (t : Tree) (id : NodeId) : List Nat := t.forest.position id

/-- Whether one node comes before another in document order; a node comes before its
descendants. -/
def isBefore (t : Tree) (a b : NodeId) : Bool := List.lex (t.position a) (t.position b) Nat.blt

def isInclusiveAncestor (t : Tree) (ancestor id : NodeId) : Bool :=
  t.forest.isInclusiveAncestor ancestor id

/-- Whether a node hangs below the document node or is it. -/
def isConnected (t : Tree) (id : NodeId) : Bool :=
  id == .root || (t.ancestors id).contains .root

/-! ## Elements among the nodes -/

def element? (t : Tree) (id : NodeId) : Option Element := (t.data? id).bind (·.element?)

def text? (t : Tree) (id : NodeId) : Option String := (t.data? id).bind (·.text?)

def isElement (t : Tree) (id : NodeId) : Bool := (t.element? id).isSome

def tag? (t : Tree) (id : NodeId) : Option String := (t.element? id).map (·.name)

def attribute? (t : Tree) (id : NodeId) (name : String) : Option String :=
  (t.element? id).bind (·.get? name)

def hasClass (t : Tree) (id : NodeId) (token : String) : Bool :=
  ((t.element? id).map (·.hasClass token)).getD false

def style? (t : Tree) (id : NodeId) (property : String) : Option String :=
  (t.element? id).bind (·.style.get? property)

def elementChildren (t : Tree) (id : NodeId) : List NodeId := (t.children id).filter t.isElement

def parentElement? (t : Tree) (id : NodeId) : Option NodeId := (t.parent? id).filter t.isElement

/-- The proper descendants that are elements, in document order. -/
def descendantElements (t : Tree) (id : NodeId) : List NodeId :=
  (t.descendants id).filter t.isElement

/-- The connected elements in document order. -/
def elements (t : Tree) : List NodeId := t.descendantElements .root

/-- The element siblings in front of a node, the nearest first. -/
def elementsBefore (t : Tree) (id : NodeId) : List NodeId :=
  (t.forest.siblingsBefore id).filter t.isElement

/-- The element siblings behind a node, the nearest first. -/
def elementsAfter (t : Tree) (id : NodeId) : List NodeId :=
  (t.forest.siblingsAfter id).filter t.isElement

/-! ## Structure -/

/-- Add a node that hangs nowhere. -/
def create (t : Tree) (data : NodeData) : NodeId × Tree :=
  let (id, forest) := t.forest.create data
  (id, { t with forest })

/-- Count a write and, while observed, keep its record. -/
def record (t : Tree) (m : Mutation) : Tree :=
  { t with
    generation := t.generation + 1
    journal := if t.observing then t.journal ++ [m] else t.journal }

/-- Make `child` the last child of `parent`, wherever it was before. -/
def append (t : Tree) (parent child : NodeId) : Except TreeError Tree :=
  if !t.forest.has parent then .error (.noSuchNode parent)
  else if !t.forest.has child then .error (.noSuchNode child)
  else if t.isInclusiveAncestor child parent then .error (.cycle parent child)
  else
    .ok ({ t with forest := t.forest.append parent child }.record
      { target := parent, added := [child] })

/-- Take a node with what is below it out of its child list. A node without parent stays as it
is, and this counts as no write. -/
def detach (t : Tree) (id : NodeId) : Except TreeError Tree :=
  if !t.forest.has id then .error (.noSuchNode id)
  else
    match t.parent? id with
    | none => .ok t
    | some parent =>
      .ok ({ t with forest := t.forest.unlink id }.record { target := parent, removed := [id] })

/-! ## Journal -/

/-- Start or stop keeping records; stopping drops those not yet taken. -/
def observe (t : Tree) (enabled : Bool) : Tree :=
  { t with observing := enabled, journal := if enabled then t.journal else [] }

/-- Take the records out of the journal. -/
def takeJournal (t : Tree) : List Mutation × Tree := (t.journal, { t with journal := [] })

/-! ## Writes to elements -/

/-- Write to an element. -/
def write (t : Tree) (id : NodeId) (f : Element → Element) : Except TreeError Tree :=
  match t.data? id with
  | none => .error (.noSuchNode id)
  | some (.element e) =>
    .ok
      { t with
        forest := t.forest.modifyData id fun _ => .element (f e)
        generation := t.generation + 1 }
  | some _ => .error (.notAnElement id)

def setAttribute (t : Tree) (id : NodeId) (name value : String) : Except TreeError Tree :=
  t.write id (·.set name value)

def removeAttribute (t : Tree) (id : NodeId) (name : String) : Except TreeError Tree :=
  t.write id (·.erase name)

def addClass (t : Tree) (id : NodeId) (token : String) : Except TreeError Tree :=
  t.write id (·.addClass token)

def removeClass (t : Tree) (id : NodeId) (token : String) : Except TreeError Tree :=
  t.write id (·.removeClass token)

def setStyle (t : Tree) (id : NodeId) (property value : String) : Except TreeError Tree :=
  t.write id (·.setStyle property value)

def removeStyle (t : Tree) (id : NodeId) (property : String) : Except TreeError Tree :=
  t.write id (·.removeStyle property)

end Tree

end NoiseFilter
