import NoiseFilter.Tree.Text

/-!
# Documents

A tree with an address and three handles: the `html` element, its head and its body. The handles
are located on demand and keep their values until they are located again.
-/

namespace NoiseFilter

/-- A page. -/
structure Document where
  tree : Tree
  url : String
  html : Option NodeId := none
  head : Option NodeId := none
  body : Option NodeId := none
  deriving Inhabited

namespace Document

/-- The document node alone, to be filled. -/
def empty (url : String) : Document := { tree := .empty, url }

/-- A page with an empty head and body. -/
def skeleton (url : String) : Document :=
  let (html, tree) := Tree.empty.create (.element (.ofName "html"))
  let (head, tree) := tree.create (.element (.ofName "head"))
  let (body, tree) := tree.create (.element (.ofName "body"))
  let link (parent child : NodeId) (t : Tree) : Tree := (t.append parent child).toOption.getD t
  let tree := tree |> link .root html |> link html head |> link html body
  { tree, url, html := some html, head := some head, body := some body }

/-- The first child of a node that is an element with this tag. -/
def childNamed (t : Tree) (parent : NodeId) (tag : String) : Option NodeId :=
  (t.elementChildren parent).find? fun c => t.tag? c == some tag

/-- Locate the handles. Where there is no `html` element, head and body stay what they were. -/
def locate (d : Document) : Document :=
  match childNamed d.tree .root "html" with
  | none => { d with html := none }
  | some html =>
    { d with
      html := some html
      head := childNamed d.tree html "head"
      body := childNamed d.tree html "body" }

/-- The trimmed text of the first title in the head. -/
def title (d : Document) : String :=
  match d.head.bind fun head => childNamed d.tree head "title" with
  | none => ""
  | some title => Text.trim (d.tree.textContent title)

/-- The first element in document order with this id. -/
def elementById (d : Document) (id : String) : Option NodeId :=
  d.tree.elements.find? fun e => d.tree.attribute? e "id" == some id

end Document

end NoiseFilter
