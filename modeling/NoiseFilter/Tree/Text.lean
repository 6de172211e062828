import NoiseFilter.Tree.Basic

/-!
# The text of a node

`textContent` is all text below a node as it stands. `renderedText` is what a reader sees:
containers that are never shown are skipped, blocks and line breaks start a new line, and inside
a line every run of blanks is one space.
-/

namespace NoiseFilter

/-- Elements whose content is never shown. -/
def isHidden (tag : String) : Bool :=
  ["head", "noscript", "script", "style", "template", "title"].contains tag

/-- Elements that start a line and end it. -/
def isBlock (tag : String) : Bool :=
  ["address", "article", "aside", "blockquote", "caption", "dd", "details", "dialog", "div", "dl",
    "dt", "fieldset", "figcaption", "figure", "footer", "form", "h1", "h2", "h3", "h4", "h5", "h6",
    "header", "hgroup", "hr", "li", "main", "nav", "ol", "p", "pre", "section", "summary",
    "table", "tbody", "tfoot", "thead", "tr", "ul"].contains tag

/-- Table cells, which are set apart by a space. -/
def isCell (tag : String) : Bool := tag == "td" || tag == "th"

namespace Tree

/-- The text nodes at and below a node, joined. -/
def textContent (t : Tree) (id : NodeId) : String :=
  String.join ((id :: t.descendants id).filterMap t.text?)

/-- A blank shows as a space. -/
def showChar (c : Char) : Char := if Text.isBlank c then ' ' else c

/-- The characters that a node shows, line breaks included, before blanks are collapsed. The
bound is on the depth. -/
def shown (t : Tree) : Nat → NodeId → List Char
  | 0, _ => []
  | bound + 1, id =>
    match t.data? id with
    | some (.text s) => s.toList.map showChar
    | some (.element e) =>
      if isHidden e.name then []
      else if e.name = "br" then ['\n']
      else
        let inner := (t.children id).flatMap (t.shown bound)
        if isBlock e.name then '\n' :: inner ++ ['\n']
        else if isCell e.name then inner ++ [' ']
        else inner
    | some .document => (t.children id).flatMap (t.shown bound)
    | _ => []

/-- Lines that hold words, each with single spaces between its words. -/
def tidyLines (cs : List Char) : String :=
  let lines := (cs.splitOn '\n').map fun line =>
    " ".intercalate ((Text.wordsOf line).map String.ofList)
  "\n".intercalate (lines.filter (!·.isEmpty))

/-- What a reader sees of a node. -/
def renderedText (t : Tree) (id : NodeId) : String := tidyLines (t.shown t.size id)

end Tree

end NoiseFilter
