import NoiseFilter.SortedMap
import NoiseFilter.Tree.Basic

/-!
# The record of classifications

For each classified element, what it looked like before and which rules classify it, in the order
of rules. The marks on the element follow from this: the classes of its entries on top of those it
had, the colour of the last entry that has one, and an attribute that names the last rule. Writes
go to the tree only where a mark differs from what it should be. An element without entries gets
back the raw text of its attributes.
-/

namespace NoiseFilter

/-- What makes a rule write an entry. -/
inductive EntryKind where
  | toggle
  | style
  | ai
  deriving DecidableEq, Inhabited

/-- The effect of one rule on one element. -/
structure Classification where
  ruleId : String
  /-- The place of the rule among the rules. -/
  rank : Nat
  kind : EntryKind
  cls : String
  color : Option String := none
  deriving DecidableEq, Inhabited

/-- What an element looked like before its first classification. -/
structure Baseline where
  classes : List String := []
  color : Option String := none
  /-- The raw text of the attribute that names rules. -/
  marker : Option String := none
  classText : Option String := none
  styleText : Option String := none
  deriving DecidableEq, Inhabited

/-- The record of one element. -/
structure NodeRecord where
  baseline : Baseline
  /-- By rank; the last one names the element. -/
  entries : List Classification := []
  /-- The classes written on top of the baseline. -/
  added : List String := []
  deriving DecidableEq, Inhabited

/-- The records of all classified elements. -/
structure Record where
  /-- The attribute that names rules. -/
  marker : String
  nodes : SortedMap NodeId NodeRecord := {}

/-- The style property that colours an element. -/
def colorProperty : String := "color"

/-- What an element looks like. -/
def Baseline.ofElement (e : Element) (marker : String) : Baseline where
  classes := e.classes.tokens
  color := e.style.get? colorProperty
  marker := e.get? marker
  classText := e.get? "class"
  styleText := e.get? "style"

/-- What a node looks like; nothing, if it is no element. -/
def Baseline.capture (t : Tree) (id : NodeId) (marker : String) : Baseline :=
  ((t.element? id).map (ofElement · marker)).getD {}

namespace NodeRecord

def entryFor? (r : NodeRecord) (ruleId : String) : Option Classification :=
  r.entries.find? (·.ruleId == ruleId)

/-- The classes that the entries ask for and the baseline does not have, each once. -/
def wantedClasses (r : NodeRecord) : List String :=
  r.entries.foldl (fun wanted e =>
    if r.baseline.classes.contains e.cls || wanted.contains e.cls then wanted
    else wanted ++ [e.cls]) []

/-- The colour of the last entry that has one, or that of the baseline. -/
def wantedColor (r : NodeRecord) : Option String :=
  (r.entries.reverse.findSome? (·.color)).or r.baseline.color

/-- Entries in the order of ranks; those of one rank keep their order. -/
def sorted (entries : List Classification) : List Classification :=
  entries.mergeSort fun a b => a.rank ≤ b.rank

/-- Add an entry behind those of its rank and lower ones. -/
def place (e : Classification) (entries : List Classification) : List Classification :=
  entries.takeWhile (·.rank ≤ e.rank) ++ e :: entries.dropWhile (·.rank ≤ e.rank)

/-- Let an entry take the place of the one of its rule. -/
def replace (e : Classification) (entries : List Classification) : List Classification :=
  sorted (entries.map fun old => if old.ruleId = e.ruleId then e else old)

/-- Let an entry in: for the one of its rule, if there is one. -/
def letIn (e : Classification) (entries : List Classification) : List Classification :=
  if entries.any (·.ruleId == e.ruleId) then replace e entries else place e entries

/-- Give the entries of a kind another class. -/
def retarget (kind : EntryKind) (cls : String) (entries : List Classification) :
    List Classification :=
  entries.map fun e => if e.kind = kind then { e with cls } else e

/-- Give the entries the ranks of their rules; an entry whose rule has none keeps its own. -/
def rerank (rank? : String → Option Nat) (entries : List Classification) : List Classification :=
  let ranked := entries.map fun e => { e with rank := (rank? e.ruleId).getD e.rank }
  if ranked = entries then entries else sorted ranked

end NodeRecord

/-! ## Marks -/

/-- Give an attribute its raw text back. -/
def Tree.restoreAttribute (t : Tree) (id : NodeId) (name : String) (value : Option String) :
    Except TreeError Tree :=
  if t.attribute? id name = value then .ok t
  else
    match value with
    | some value => t.setAttribute id name value
    | none => t.removeAttribute id name

/-- Make an element look as it did. -/
def Tree.restore (t : Tree) (id : NodeId) (marker : String) (b : Baseline) :
    Except TreeError Tree := do
  let t ← t.restoreAttribute id "class" b.classText
  let t ← t.restoreAttribute id "style" b.styleText
  t.restoreAttribute id marker b.marker

/-- Take a class away if it is there. -/
def Tree.withoutClass (t : Tree) (id : NodeId) (cls : String) : Except TreeError Tree :=
  if t.hasClass id cls then t.removeClass id cls else .ok t

/-- Add a class if it is not there. -/
def Tree.withClass (t : Tree) (id : NodeId) (cls : String) : Except TreeError Tree :=
  if t.hasClass id cls then .ok t else t.addClass id cls

/-- Give an element a colour, or none. -/
def Tree.withColor (t : Tree) (id : NodeId) (color : Option String) : Except TreeError Tree :=
  if t.style? id colorProperty = color then .ok t
  else
    match color with
    | some color => t.setStyle id colorProperty color
    | none => t.removeStyle id colorProperty

/-- Name the rule that an element is classified by. -/
def Tree.withMarker (t : Tree) (id : NodeId) (marker value : String) : Except TreeError Tree :=
  if t.attribute? id marker = some value then .ok t else t.setAttribute id marker value

/-- Make the marks on an element those that its record asks for. -/
def Tree.reconcile (t : Tree) (marker : String) (id : NodeId) (r : NodeRecord) :
    Except TreeError (NodeRecord × Tree) :=
  match r.entries.getLast? with
  | none => do
    let t ← t.restore id marker r.baseline
    return ({ r with added := [] }, t)
  | some last => do
    let wanted := r.wantedClasses
    let t ← (r.added.filter (!wanted.contains ·)).foldlM (·.withoutClass id ·) t
    let t ← wanted.foldlM (·.withClass id ·) t
    let t ← t.withColor id r.wantedColor
    let t ← t.withMarker id marker last.ruleId
    return ({ r with added := wanted }, t)

/-! ## Records -/

namespace Record

def get? (r : Record) (id : NodeId) : Option NodeRecord := r.nodes.get? id

def entryFor? (r : Record) (id : NodeId) (ruleId : String) : Option Classification :=
  (r.get? id).bind (·.entryFor? ruleId)

/-- The classified elements that an entry of a rule names. -/
def nodesFor (r : Record) (ruleId : String) : List NodeId :=
  (r.nodes.entries.filter fun e => (e.2.entryFor? ruleId).isSome).map (·.1)

def size (r : Record) : Nat := r.nodes.size

def isEmpty (r : Record) : Bool := r.nodes.isEmpty

def store (r : Record) (id : NodeId) (n : NodeRecord) : Record :=
  { r with nodes := r.nodes.insert id n }

/-- Record an entry on an element, and mark it. The answer says whether anything changed. Where
the marks cannot be written the entry stays. -/
def classify (r : Record) (t : Tree) (id : NodeId) (e : Classification) :
    Except TreeError Bool × Record × Tree :=
  let n := (r.get? id).getD { baseline := .capture t id r.marker }
  if n.entryFor? e.ruleId = some e then (.ok false, r, t)
  else
    let n := { n with entries := NodeRecord.letIn e n.entries }
    match t.reconcile r.marker id n with
    | .ok (n, t) => (.ok true, r.store id n, t)
    | .error err => (.error err, r.store id n, t)

/-- Drop the entry of a rule from an element. -/
def unclassify (r : Record) (t : Tree) (id : NodeId) (ruleId : String) :
    Except TreeError Bool × Record × Tree :=
  match r.get? id with
  | none => (.ok false, r, t)
  | some n =>
    if (n.entryFor? ruleId).isNone then (.ok false, r, t)
    else
      let n := { n with entries := n.entries.filter (·.ruleId != ruleId) }
      match t.reconcile r.marker id n with
      | .ok (n, t) =>
        let r := if n.entries.isEmpty then { r with nodes := r.nodes.erase id } else r.store id n
        (.ok true, r, t)
      | .error err => (.error err, r.store id n, t)

/-- What came of a pass over all records. -/
structure Sweep where
  changed : Nat := 0
  /-- Elements that could not be written. -/
  failed : Nat := 0
  deriving DecidableEq, Inhabited

namespace Sweep

def add (s : Sweep) (t : Sweep) : Sweep := ⟨s.changed + t.changed, s.failed + t.failed⟩

end Sweep

/-- Visit the records in order, carrying the tree along. -/
def visit (step : Tree → NodeId → NodeRecord → Sweep × NodeRecord × Tree) :
    Tree → List (NodeId × NodeRecord) → Sweep × List (NodeId × NodeRecord) × Tree
  | t, [] => ({}, [], t)
  | t, (id, n) :: rest =>
    let (s, n, t) := step t id n
    let (s', rest, t) := visit step t rest
    (s.add s', (id, n) :: rest, t)

theorem keys_visit (step : Tree → NodeId → NodeRecord → Sweep × NodeRecord × Tree) (t : Tree)
    (entries : List (NodeId × NodeRecord)) :
    (visit step t entries).2.1.map (·.1) = entries.map (·.1) := by
  induction entries generalizing t with
  | nil => rfl
  | cons e rest ih => simp [visit, ih]

def sweep (r : Record) (t : Tree)
    (step : Tree → NodeId → NodeRecord → Sweep × NodeRecord × Tree) : Sweep × Record × Tree :=
  let visited := visit step t r.nodes.entries
  (visited.1, { r with nodes := r.nodes.withValues visited.2.1 (keys_visit ..) }, visited.2.2)

/-- Drop the entries of one element that satisfy a condition; all stay if it cannot be written. -/
def revertNode (marker : String) (p : Classification → Bool) (t : Tree) (id : NodeId)
    (n : NodeRecord) : Sweep × NodeRecord × Tree :=
  let dropped := n.entries.filter p
  if dropped.isEmpty then ({}, n, t)
  else
    let kept := n.entries.filter (!p ·)
    match t.reconcile marker id { n with entries := kept } with
    | .ok (n, t) => ({ changed := dropped.length }, n, t)
    | .error _ => ({ failed := 1 }, { n with entries := NodeRecord.sorted (kept ++ dropped) }, t)

/-- Drop all entries that satisfy a condition; elements without entries are forgotten. -/
def revertWhere (r : Record) (t : Tree) (p : Classification → Bool) : Sweep × Record × Tree :=
  let (s, r, t) := r.sweep t (revertNode r.marker p)
  (s, { r with nodes := r.nodes.filter fun e => !e.2.entries.isEmpty }, t)

def revertAll (r : Record) (t : Tree) : Sweep × Record × Tree := r.revertWhere t fun _ => true

/-- Change the entries of one element, and mark it if any has changed. -/
def updateNode (marker : String) (f : List Classification → List Classification) (t : Tree)
    (id : NodeId) (n : NodeRecord) : Sweep × NodeRecord × Tree :=
  let n' := { n with entries := f n.entries }
  if n'.entries = n.entries then ({}, n, t)
  else
    match t.reconcile marker id n' with
    | .ok (n, t) => ({ changed := 1 }, n, t)
    | .error _ => ({ failed := 1 }, n', t)

/-- Give all entries of a kind another class. -/
def retarget (r : Record) (t : Tree) (kind : EntryKind) (cls : String) : Sweep × Record × Tree :=
  r.sweep t (updateNode r.marker (NodeRecord.retarget kind cls))

/-- Give the entries the new ranks of their rules; an entry whose rule has none keeps its own. -/
def rerank (r : Record) (t : Tree) (rank? : String → Option Nat) : Sweep × Record × Tree :=
  r.sweep t (updateNode r.marker (NodeRecord.rerank rank?))

/-- Forget the elements that are no longer part of the page; the answer counts them. -/
def prune (r : Record) (t : Tree) : Nat × Record :=
  let kept := r.nodes.filter fun e => t.isConnected e.1
  (r.nodes.size - kept.size, { r with nodes := kept })

end Record

end NoiseFilter
