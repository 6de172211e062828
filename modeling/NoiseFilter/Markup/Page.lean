import NoiseFilter.Markup.Builder.Feed

/-!
# Pages

The tree that a text in markup stands for. Every text stands for one: the front of a page, its
head and its body are put in where they are missing.
-/

namespace NoiseFilter.Markup

/-- A node of a page. -/
inductive Node where
  | doctype (name : String)
  | element (name : String) (attributes : List (String × String)) (children : List Node)
  | text (s : String)
  | comment (s : String)
  /-- A processing instruction. Reading markup makes a comment of it, and planting leaves it out. -/
  | instruction (target data : String)
  deriving Inhabited

/-- A page: what hangs below the document. -/
structure Page where
  nodes : List Node

namespace Builder

/-- The nodes below a node of a page under construction, `bound` levels deep. The content of a
template hangs elsewhere and is not among them. -/
def nodesBelow (b : Builder) : Nat → NodeId → List Node
  | 0, _ => []
  | bound + 1, id =>
    (b.forest.children id).filterMap fun c =>
      match b.forest.data? c with
      | some (.doctype name) => some (.doctype name)
      | some (.element label attributes _) =>
        some (.element label.name attributes (b.nodesBelow bound c))
      | some (.text s) => some (.text s)
      | some (.comment s) => some (.comment s)
      | _ => none

def page (b : Builder) : Page := ⟨b.nodesBelow b.forest.size .root⟩

/-- The name of the innermost open element. -/
def currentName (b : Builder) : String :=
  ((b.current?.bind b.label?).map (·.name)).getD ""

/-- Whether the innermost open element belongs to another language. -/
def currentForeign (b : Builder) : Bool := b.currentIs (·.language != .html)

/-- Add the content of an element that holds raw text, and close it. A text area drops a line feed
in front. -/
def insertRaw (b : Builder) (text : List Char) : Builder :=
  let text :=
    match text with
    | '\n' :: rest => if b.currentName = "textarea" then rest else text
    | _ => text
  { (text.foldl insertChar b).pop with raw := none }

/-- What follows the end tag in front. -/
def dropEndTag (s : List Char) : List Char :=
  match readTag (s.drop 2) with
  | some r => r.rest
  | none => []

theorem length_dropEndTag_le (s : List Char) : (dropEndTag s).length ≤ s.length := by
  unfold dropEndTag
  split
  · next r _ => have := r.short; simp at this; omega
  · simp

/-- Read the tokens that the text `c :: rest` starts with, and raw text that follows. -/
def advance (b : Builder) (c : Char) (rest : List Char) : Builder × List Char :=
  let (tokens, next) := readTokens b.currentForeign c rest
  let b := tokens.foldl feed b
  match b.raw with
  | none => (b, next)
  | some kind =>
    let (text, next) := readRaw kind b.currentName next
    (b.insertRaw text, dropEndTag next)

theorem length_advance_le (b : Builder) (c : Char) (rest : List Char) :
    (b.advance c rest).2.length ≤ rest.length := by
  have tokens := length_readTokens_le b.currentForeign c rest
  unfold advance
  dsimp only
  split
  · exact tokens
  · exact Nat.le_trans (length_dropEndTag_le _) (Nat.le_trans (length_readRaw_le ..) tokens)

/-- Read a text to its end. -/
def read (b : Builder) (s : List Char) : Builder :=
  match s with
  | [] => b.feed .finish
  | c :: rest =>
    if b.plaintext then
      ((c :: rest).foldl (fun b c => b.feed (.char (replaceNull c))) b).feed .finish
    else
      have := length_advance_le b c rest
      match h : b.advance c rest with
      | (b, next) =>
        have : next.length ≤ rest.length := by rwa [h] at this
        b.read next
termination_by s.length

end Builder

/-- A text with single line feeds, and without the mark that says how it is encoded. -/
def normalize : List Char → List Char
  | '\r' :: '\n' :: rest => '\n' :: normalize rest
  | '\r' :: rest => '\n' :: normalize rest
  | c :: rest => c :: normalize rest
  | [] => []

def dropByteOrderMark : List Char → List Char
  | '\uFEFF' :: rest => rest
  | s => s

namespace Page

/-- The page that a text stands for. -/
def ofString (text : String) : Page :=
  (({} : Builder).read (normalize (dropByteOrderMark text.toList))).page

/-- The children of the first element with a name among some nodes. -/
def childrenOf (name : String) (nodes : List Node) : Option (List Node) :=
  nodes.findSome? fun
    | .element name' _ children => if name' = name then some children else none
    | _ => none

/-- What the body holds; nothing if there is no body. -/
def body (p : Page) : List Node :=
  (do childrenOf "body" (← childrenOf "html" p.nodes)).getD []

end Page

end NoiseFilter.Markup
