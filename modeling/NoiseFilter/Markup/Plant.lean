import NoiseFilter.Markup.Page
import NoiseFilter.Tree.Document

/-!
# Planting pages

A page becomes part of a tree node by node: each is created and linked before what is below it, so
that indexes are handed out in document order. Processing instructions are left out. Linking asks the
tree, which may refuse; then planting stops, and the tree stays as it is by then.
-/

namespace NoiseFilter

namespace Markup

/-- An activity that changes a tree and may be refused on the way. -/
abbrev Planting := ExceptT TreeError (StateM Tree)

namespace Planting

/-- What comes of planting in a tree, and the tree as it is then. -/
def start {α : Type} (p : Planting α) (t : Tree) : Except TreeError α × Tree := p.run.run t

/-- Make `child` the last child of `parent`. -/
def link (parent child : NodeId) : Planting Unit := do
  match (← get).append parent child with
  | .ok t => set t
  | .error e => throw e

/-- Create a node and link it. -/
def grow (parent : NodeId) (data : NodeData) : Planting NodeId := do
  let id ← modifyGet (·.create data)
  link parent id
  return id

end Planting

open Planting (grow)

mutual

/-- Add a node with what is below it to a tree, as the last child of `parent`. -/
def Node.plant (parent : NodeId) : Node → Planting (Option NodeId)
  | .doctype name => return some (← grow parent (.doctype name))
  | .text s => return some (← grow parent (.text s))
  | .comment s => return some (← grow parent (.comment s))
  | .instruction _ _ => return none
  | .element name attributes children => do
    let id ← grow parent (.element (.ofAttributes name attributes))
    let _ ← plantAll id children
    return some id

/-- Add several nodes, one after the other. The answer names those that now hang below `parent`. -/
def plantAll (parent : NodeId) : List Node → Planting (List NodeId)
  | [] => return []
  | n :: rest => do
    let id ← n.plant parent
    let ids ← plantAll parent rest
    return id.toList ++ ids

end

/-- Why markup is not added to a tree. -/
inductive FragmentError where
  /-- Markup can only be added below an element. -/
  | notAnElement (parent : NodeId)
  | refused (cause : TreeError)

def FragmentError.message : FragmentError → String
  | notAnElement parent => "fragment parent " ++ parent.text ++ " is not an element in this tree"
  | refused cause => cause.message

end Markup

/-- Add what the body of a page holds behind the children of an element. The answer names the nodes
that now hang below `parent`. -/
def Tree.plantBody (t : Tree) (parent : NodeId) (page : Markup.Page) :
    Except Markup.FragmentError (List NodeId × Tree) :=
  if t.isElement parent then
    match (Markup.plantAll parent page.body).start t with
    | (.ok ids, t) => .ok (ids, t)
    | (.error e, _) => .error (.refused e)
  else .error (.notAnElement parent)

/-- Read markup as the content of a body, and add it behind the children of an element. -/
def Tree.plantFragment (t : Tree) (parent : NodeId) (text : String) :
    Except Markup.FragmentError (List NodeId × Tree) :=
  t.plantBody parent (.ofString text)

/-- Plant nodes below the document. One that is refused is given up, and the next follows. -/
def Tree.plantNodes (t : Tree) (nodes : List Markup.Node) : Tree :=
  nodes.foldl (fun t n => ((n.plant .root).start t).2) t

/-- The document that a page stands for. -/
def Document.ofPage (page : Markup.Page) (url : String) : Document :=
  let d := empty url
  { d with tree := d.tree.plantNodes page.nodes }.locate

/-- The document that a text in markup stands for. -/
def Document.ofMarkup (text url : String) : Document := ofPage (.ofString text) url

end NoiseFilter
