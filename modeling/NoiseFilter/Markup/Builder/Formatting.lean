import NoiseFilter.Markup.Builder.Basic

/-!
# Formatting elements

An element such as `b` goes on behind a block that cut it short: it is opened again where text
follows. Its end tag, met inside a block that it does not contain, splits it in two.
-/

namespace NoiseFilter.Markup.Builder

/-- The entries newer than the last marker. -/
def recent (b : Builder) : List (NodeId × Tag) :=
  let rec upTo : List FormattingEntry → List (NodeId × Tag)
    | .element id tag :: rest => (id, tag) :: upTo rest
    | _ => []
  upTo b.formatting

def entryIs (id : NodeId) : FormattingEntry → Bool
  | .element id' _ => id' == id
  | .marker => false

/-- The tag that a formatting element was made for. -/
def formattingTag? (b : Builder) (id : NodeId) : Option Tag :=
  match b.formatting.find? (entryIs id) with
  | some (.element _ tag) => some tag
  | _ => none

def dropFormatting (b : Builder) (id : NodeId) : Builder :=
  { b with formatting := b.formatting.eraseP (entryIs id) }

def dropOpen (b : Builder) (id : NodeId) : Builder := { b with stack := b.stack.erase id }

/-- Let another element stand for a formatting element. -/
def replaceFormatting (b : Builder) (old new : NodeId) (tag : Tag) : Builder :=
  { b with
    formatting := b.formatting.map fun e => if entryIs old e then .element new tag else e }

/-- Whether two tags ask for the same formatting; the order of attributes does not matter. -/
def sameFormatting (s t : Tag) : Bool :=
  s.name == t.name && s.attributes.length == t.attributes.length
    && s.attributes.all fun a => t.attributes.contains a

/-- Remember a formatting element; of the same formatting, three at most are kept. -/
def pushFormatting (b : Builder) (id : NodeId) (tag : Tag) : Builder :=
  let same := b.recent.filter fun e => sameFormatting e.2 tag
  let b :=
    match same[2]? with
    | some (oldest, _) => b.dropFormatting oldest
    | none => b
  { b with formatting := .element id tag :: b.formatting }

/-- Add a formatting element for a tag and open it. -/
def openFormatting (b : Builder) (t : Tag) : Builder :=
  let (id, b) := b.insertElement { name := t.name } t.attributes
  (b.push id).pushFormatting id t

/-- Open the formatting elements again that a block has cut short, the oldest first. -/
def reconstruct (b : Builder) : Builder :=
  let closed := (b.recent.takeWhile fun e => !b.stack.contains e.1).reverse
  closed.foldl (fun b e =>
    let (id, b) := b.insertElement { name := e.2.name } e.2.attributes
    (b.push id).replaceFormatting e.1 id e.2) b

/-- Put a formatting entry in front of, that is to say newer than, another one. -/
def insertFormattingAfter (mark : NodeId) (new : FormattingEntry) :
    List FormattingEntry → List FormattingEntry
  | [] => [new]
  | e :: rest =>
    if entryIs mark e then new :: e :: rest else e :: insertFormattingAfter mark new rest

/-- The element that stands right outside another one in the stack. -/
def outer? (b : Builder) (id : NodeId) : Option NodeId :=
  ((b.stack.dropWhile (· != id)).drop 1).head?

/-- A pass over the elements between a block and a formatting element around it. -/
structure SplitPass where
  builder : Builder
  /-- The node that the next copy takes in. -/
  last : NodeId
  /-- The copy behind which the new formatting entry belongs, if there is one. -/
  mark : Option NodeId := none

/-- Copy the formatting elements between a block and the formatting element around it, from the
inside. Others are closed, and so are those further out than the third. -/
def splitBetween (p : SplitPass) (count : Nat) : List NodeId → SplitPass
  | [] => p
  | id :: outward =>
    let b := if 3 < count then p.builder.dropFormatting id else p.builder
    match b.formattingTag? id with
    | none => splitBetween { p with builder := b.dropOpen id } (count + 1) outward
    | some tag =>
      let (copy, b) := b.createElement { name := tag.name } tag.attributes
      let b := b.replaceFormatting id copy tag
      let b := { b with stack := b.stack.map fun e => if e == id then copy else e }
      let b := b.put p.last (.inside copy)
      splitBetween { builder := b, last := copy, mark := p.mark.or (some copy) } (count + 1) outward

/-- Split a formatting element at a block inside it: the block goes outside, and what it holds
goes into a copy of the formatting element. `between` are the open elements between the two, from
the inside, and `around` is the element right outside the formatting element. -/
def split (b : Builder) (id : NodeId) (tag : Tag) (block around : NodeId)
    (between : List NodeId) : Builder :=
  let pass := splitBetween { builder := b, last := block } 1 between
  let b := pass.builder
  let b := b.put pass.last (b.placeFor around)
  let (copy, b) := b.createElement { name := tag.name } tag.attributes
  let b := (b.forest.children block).foldl (fun b c => b.put c (.inside copy)) b
  let b := b.put copy (.inside block)
  let entry := FormattingEntry.element copy tag
  let formatting :=
    match pass.mark with
    | none => b.formatting.map fun e => if entryIs id e then entry else e
    | some mark => (insertFormattingAfter mark entry b.formatting).eraseP (entryIs id)
  let stack := b.stack.erase id
  { b with
    formatting
    stack := stack.takeWhile (· != block) ++ [copy] ++ stack.dropWhile (· != block) }

/-- Close an open element by an end tag that has no rule of its own. A special element further in
keeps it open. -/
def closeOther (b : Builder) (name : String) : Builder :=
  let rec search : List NodeId → Option (List NodeId)
    | [] => none
    | id :: rest =>
      if b.isNamed name id then some rest
      else if b.is (·.isSpecial) id then none
      else search rest
  match search b.stack with
  | some stack => { b with stack }
  | none => b

/-- Close a formatting element, splitting it as often as blocks inside it ask for, `rounds` times
at most. -/
def closeFormattingWithin (name : String) : Nat → Builder → Builder
  | 0, b => b
  | rounds + 1, b =>
    match b.recent.find? fun e => e.2.name == name with
    | none => b.closeOther name
    | some (id, tag) =>
      if !b.stack.contains id then b.dropFormatting id
      else if !b.reaches (b.is (·.boundsScope)) (· == id) b.stack then b
      else
        let inner := b.stack.takeWhile (· != id)
        match inner.reverse.find? (b.is (·.isSpecial)), b.outer? id with
        | some block, some around =>
          let between := (inner.dropWhile (· != block)).drop 1
          closeFormattingWithin name rounds (b.split id tag block around between)
        | _, _ =>
          let b := { b with stack := (b.stack.dropWhile (· != id)).drop 1 }
          b.dropFormatting id

/-- Close a formatting element by its end tag. -/
def closeFormatting (b : Builder) (name : String) : Builder :=
  match b.current? with
  | none => b
  | some id =>
    if b.isNamed name id && (b.formattingTag? id).isNone then b.pop
    else closeFormattingWithin name 8 b

end NoiseFilter.Markup.Builder
