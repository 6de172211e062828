import NoiseFilter.Text.Ascii

/-!
# Ordered forests

An arena of nodes that hold data and five links: to the parent, to the first and the last child, and
to the siblings on both sides. A node is named by its index, and indexes are handed out in the order
of creation; nodes are never freed. The children of a node are found by going from its first child
from sibling to sibling. Every node is in at most one child list, and no node lies inside itself,
because only `append` and `insertBefore` link nodes and callers ask `isInclusiveAncestor` first.

The walks below are bounded by the number of nodes: a path without repetition is no longer, and the
walk to all that lies below a node passes each node at most twice.
-/

namespace NoiseFilter

/-- The index of a node. -/
structure NodeId where
  index : Nat
  deriving DecidableEq, Inhabited

namespace NodeId

/-- The document node, which is created first. -/
def root : NodeId := ⟨0⟩

/-- The index that stands for "no node"; no arena grows that far. -/
def absent : NodeId := ⟨4294967295⟩

instance : LT NodeId := ⟨fun a b => a.index < b.index⟩

instance : DecidableLT NodeId := fun a b => inferInstanceAs (Decidable (a.index < b.index))

instance : Trans (α := NodeId) (· < ·) (· < ·) (· < ·) := ⟨Nat.lt_trans⟩

instance : Std.Irrefl (α := NodeId) (· < ·) := ⟨fun a => Nat.lt_irrefl a.index⟩

instance : Std.Trichotomous (α := NodeId) (· < ·) where
  trichotomous a b below above := by
    cases a; cases b
    exact congrArg mk (Nat.le_antisymm (Nat.not_lt.mp above) (Nat.not_lt.mp below))

/-- How a node is named in messages. -/
def text (id : NodeId) : String := if id = absent then "#none" else "#" ++ Text.digits id.index

end NodeId

namespace Forest

/-- The five ways from one node to another. -/
inductive Link where
  | parent
  | firstChild
  | lastChild
  | previous
  | next
  deriving DecidableEq

/-- A node with its place among the others. -/
structure Node (α : Type) where
  parent : Option NodeId := none
  firstChild : Option NodeId := none
  lastChild : Option NodeId := none
  previous : Option NodeId := none
  next : Option NodeId := none
  data : α

namespace Node

variable {α : Type}

/-- The node that a link leads to. -/
def target (n : Node α) : Link → Option NodeId
  | .parent => n.parent
  | .firstChild => n.firstChild
  | .lastChild => n.lastChild
  | .previous => n.previous
  | .next => n.next

/-- Let a link lead to `target`. -/
def point (n : Node α) (target : Option NodeId) : Link → Node α
  | .parent => { n with parent := target }
  | .firstChild => { n with firstChild := target }
  | .lastChild => { n with lastChild := target }
  | .previous => { n with previous := target }
  | .next => { n with next := target }

end Node

end Forest

/-- An arena of nodes. -/
structure Forest (α : Type) where
  nodes : Array (Forest.Node α)

namespace Forest

variable {α : Type}

def size (f : Forest α) : Nat := f.nodes.size

def get? (f : Forest α) (id : NodeId) : Option (Node α) := f.nodes[id.index]?

def has (f : Forest α) (id : NodeId) : Bool := id.index < f.size

def data? (f : Forest α) (id : NodeId) : Option α := (f.get? id).map (·.data)

/-- The node that a link of a node leads to. -/
def target? (f : Forest α) (link : Link) (id : NodeId) : Option NodeId :=
  (f.get? id).bind (·.target link)

def parent? (f : Forest α) (id : NodeId) : Option NodeId := f.target? .parent id

def firstChild? (f : Forest α) (id : NodeId) : Option NodeId := f.target? .firstChild id

def lastChild? (f : Forest α) (id : NodeId) : Option NodeId := f.target? .lastChild id

def previous? (f : Forest α) (id : NodeId) : Option NodeId := f.target? .previous id

def next? (f : Forest α) (id : NodeId) : Option NodeId := f.target? .next id

/-! ## Writes -/

/-- A forest of one node. -/
def single (data : α) : Forest α := ⟨#[{ data }]⟩

/-- Add a node without links. -/
def create (f : Forest α) (data : α) : NodeId × Forest α :=
  (⟨f.size⟩, ⟨f.nodes.push { data }⟩)

/-- Change one node. -/
def modify (f : Forest α) (id : NodeId) (g : Node α → Node α) : Forest α :=
  ⟨f.nodes.modify id.index g⟩

def modifyData (f : Forest α) (id : NodeId) (g : α → α) : Forest α :=
  f.modify id fun n => { n with data := g n.data }

/-- Let a link of a node lead to `target`. -/
def point (f : Forest α) (link : Link) (id : NodeId) (target : Option NodeId) : Forest α :=
  f.modify id (·.point target link)

/-- Let `behind` follow `before` among the children of `parent`; at the front if there is nothing
before it. -/
def leadOn (f : Forest α) (parent : NodeId) (before behind : Option NodeId) : Forest α :=
  match before with
  | some id => f.point .next id behind
  | none => f.point .firstChild parent behind

/-- Let `before` precede `behind` among the children of `parent`; at the end if there is nothing
behind it. -/
def leadBack (f : Forest α) (parent : NodeId) (before behind : Option NodeId) : Forest α :=
  match behind with
  | some id => f.point .previous id before
  | none => f.point .lastChild parent before

/-- Let two places among the children of `parent` be next to each other, in both directions. -/
def join (f : Forest α) (parent : NodeId) (before behind : Option NodeId) : Forest α :=
  (f.leadOn parent before behind).leadBack parent before behind

/-- Forget where a node hangs. -/
def cut (f : Forest α) (id : NodeId) : Forest α :=
  ((f.point .parent id none).point .previous id none).point .next id none

/-- Take a node out of the child list it is in, if any, and join its siblings. -/
def unlink (f : Forest α) (id : NodeId) : Forest α :=
  match f.parent? id with
  | none => f
  | some p => (f.join p (f.previous? id) (f.next? id)).cut id

/-- Put a node that is in no child list between two neighbours in that of `parent`. -/
def insert (f : Forest α) (parent : NodeId) (before : Option NodeId) (child : NodeId)
    (behind : Option NodeId) : Forest α :=
  ((f.point .parent child (some parent)).join parent before (some child)).join parent (some child)
    behind

/-- Make a node the last child of `parent`, taking it out of its old place. -/
def append (f : Forest α) (parent child : NodeId) : Forest α :=
  let f := f.unlink child
  f.insert parent (f.lastChild? parent) child none

/-- Put a node in front of its new sibling, taking it out of its old place. A sibling without
parent has no place in front of it, and nothing happens. -/
def insertBefore (f : Forest α) (sibling child : NodeId) : Forest α :=
  let f := f.unlink child
  match f.parent? sibling with
  | none => f
  | some p => f.insert p (f.previous? sibling) child (some sibling)

/-! ## Walks -/

/-- The nodes on the way that a link shows, `start` and those that follow; at most `bound` of
them. -/
def walk (f : Forest α) (link : Link) : Nat → Option NodeId → List NodeId
  | 0, _ => []
  | _, none => []
  | bound + 1, some id => id :: f.walk link bound (f.target? link id)

/-- The children of a node in order; none if there is no such node. -/
def children (f : Forest α) (id : NodeId) : List NodeId := f.walk .next f.size (f.firstChild? id)

/-- The proper ancestors of a node, its parent first. -/
def ancestors (f : Forest α) (id : NodeId) : List NodeId := f.walk .parent f.size (f.parent? id)

/-- The siblings in front of a node, the nearest first. -/
def siblingsBefore (f : Forest α) (id : NodeId) : List NodeId :=
  f.walk .previous f.size (f.previous? id)

/-- The siblings behind a node, the nearest first. -/
def siblingsAfter (f : Forest α) (id : NodeId) : List NodeId := f.walk .next f.size (f.next? id)

/-- Whether two nodes are the same or the first contains the second. -/
def isInclusiveAncestor (f : Forest α) (ancestor id : NodeId) : Bool :=
  ancestor == id || (f.ancestors id).contains ancestor

/-! ## The walk below a node -/

/-- The walk below a node keeps no more than a cursor: the node that it visits next, or one that it
leaves, since all that lies below has been visited. -/
inductive Cursor where
  | visit (id : NodeId)
  | leave (id : NodeId)
  deriving DecidableEq

/-- The node that is visited at a cursor. -/
def Cursor.visited : Cursor → List NodeId
  | visit id => [id]
  | leave _ => []

/-- One step of the walk below `top`. It goes down to the first child; where there is none, it goes
on to the next sibling, or else up, until it is back at `top`. -/
def step (f : Forest α) (top : NodeId) : Cursor → Option Cursor
  | .visit id =>
    match f.firstChild? id with
    | some child => some (.visit child)
    | none => some (.leave id)
  | .leave id =>
    if id = top then none
    else
      match f.next? id with
      | some sibling => some (.visit sibling)
      | none => (f.parent? id).map .leave

/-- The nodes that the walk below `top` visits in some steps, and its cursor after them; there is
none when the walk is over. -/
def tour (f : Forest α) (top : NodeId) : Nat → Option Cursor → List NodeId × Option Cursor
  | 0, cursor => ([], cursor)
  | _ + 1, none => ([], none)
  | steps + 1, some cursor =>
    let (later, last) := f.tour top steps (f.step top cursor)
    (cursor.visited ++ later, last)

/-- Where the walk below a node begins. -/
def entry (f : Forest α) (id : NodeId) : Option Cursor := (f.firstChild? id).map .visit

/-- The proper descendants of a node in document order. The walk comes to each of them once and
leaves it once. -/
def descendants (f : Forest α) (id : NodeId) : List NodeId :=
  (f.tour id (2 * f.size) (f.entry id)).1

/-! ## Places -/

/-- The place of a node in the child list of its parent. -/
def indexIn (f : Forest α) (parent id : NodeId) : Nat :=
  ((f.children parent).findIdx? (· == id)).getD 0

/-- The indexes on the way from the top of a tree down to a node. -/
def position (f : Forest α) (id : NodeId) : List Nat :=
  let line := id :: f.ancestors id
  ((line.zip line.tail).map fun p => f.indexIn p.2 p.1).reverse

end Forest

end NoiseFilter
