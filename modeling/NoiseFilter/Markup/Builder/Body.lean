import NoiseFilter.Markup.Builder.Head

/-!
# The body of a page

The rules for text, start tags and end tags in the body. Most of them say what a tag closes before
it opens its own element; the rest concern formatting, forms, lists and choices.
-/

namespace NoiseFilter.Markup.Builder

/-- Blocks, which close an open paragraph. -/
def isBlockTag (name : String) : Bool :=
  ["address", "article", "aside", "blockquote", "center", "details", "dialog", "dir", "div", "dl",
    "fieldset", "figcaption", "figure", "footer", "header", "hgroup", "main", "menu", "nav", "ol",
    "p", "search", "section", "summary", "ul"].contains name

/-- Blocks, other than paragraphs, whose end tag closes what is open inside them. -/
def isBlockEnd (name : String) : Bool :=
  (isBlockTag name && name != "p") || ["button", "listing", "pre", "select"].contains name

def isHeadingTag (name : String) : Bool := ["h1", "h2", "h3", "h4", "h5", "h6"].contains name

/-- Formatting elements other than `a` and `nobr`. -/
def isFormattingTag (name : String) : Bool :=
  ["b", "big", "code", "em", "font", "i", "s", "small", "strike", "strong", "tt", "u"].contains name

/-- Elements that hold a page of their own, as far as formatting goes. -/
def isEmbedding (name : String) : Bool := ["applet", "marquee", "object"].contains name

/-- Elements that make sense in a table or a frame set only. -/
def isOutOfPlace (name : String) : Bool :=
  ["caption", "col", "colgroup", "frame", "head", "tbody", "td", "tfoot", "th", "thead",
    "tr"].contains name

/-- Whether an input is not shown. -/
def isHiddenInput (t : Tag) : Bool :=
  t.attributes.any fun a => a.1 == "type" && Text.lower a.2 == "hidden"

/-- Close an item that is still open when the next one starts: the innermost one named so, unless a
special element that is no simple container comes first. -/
def closeItem (b : Builder) (names : List String) : Builder :=
  let rec search : List NodeId → Option (List NodeId)
    | [] => none
    | id :: rest =>
      if b.is (·.isOneOf names) id then some rest
      else if b.is (fun l => l.isSpecial && !l.isOneOf ["address", "div", "p"]) id then none
      else search rest
  match search b.stack with
  | some stack => { b with stack }
  | none => b

/-- Attributes with a language in front of the name lose it. -/
def foreignName (name : String) : String :=
  match Text.splitOnce name ':' with
  | some ("xlink", rest) =>
    if ["actuate", "arcrole", "href", "role", "show", "title", "type"].contains rest then rest
    else name
  | some ("xml", rest) => if ["lang", "space"].contains rest then rest else name
  | some ("xmlns", rest) => if rest = "xlink" then rest else name
  | _ => name

/-- Add an element of another language; a tag may close it at once. -/
def insertForeign (b : Builder) (language : Language) (t : Tag) : Builder :=
  let (id, b) :=
    b.insertElement { language, name := t.name }
      (t.attributes.map fun a => (foreignName a.1, a.2))
  if t.selfClosing then b else b.push id

def hasSelect (b : Builder) : Bool := b.hasNamed (·.boundsScope) "select"

/-- Close what an option or a rule ends: inside a choice all that closes by itself but `but`,
elsewhere an option. -/
def closeOption (b : Builder) (but : String) : Builder :=
  if b.hasSelect then b.closeImplied but
  else if b.currentIs (·.isNamed "option") then b.pop
  else b

/-- The end of a text, inside a template: the template is closed. -/
def finishTemplate (b : Builder) : Step :=
  if b.hasTemplate then .again b.closeTemplate else .done b

/-- A start tag in the body. -/
def openInBody (b : Builder) (t : Tag) : Builder :=
  let name := t.name
  if name = "html" then b.mergeHtml t
  else if name = "body" then
    match b.body? with
    | some body => if b.hasTemplate then b else (b.addMissing body t).forbidFrameset
    | none => b
  else if name = "frameset" then
    match b.body? with
    | some body =>
      if !b.framesetAllowed then b
      else
        let b :=
          { b with
            forest := b.forest.unlink body
            stack := b.stack.drop (b.stack.length - 1) }
        (b.open_ t).goTo .inFrameset
    | none => b
  else if isBlockTag name then b.closeParagraph.open_ t
  else if isHeadingTag name then
    let b := b.closeParagraph
    (if b.currentIs (·.isHeading) then b.pop else b).open_ t
  else if name = "pre" ∨ name = "listing" then
    { (b.closeParagraph.open_ t).forbidFrameset with skipNewline := true }
  else if name = "form" then
    if b.form.isSome && !b.hasTemplate then b
    else
      let b := b.closeParagraph.open_ t
      if b.hasTemplate then b else { b with form := b.current? }
  else if name = "li" then ((b.forbidFrameset.closeItem ["li"]).closeParagraph).open_ t
  else if name = "dd" ∨ name = "dt" then
    ((b.forbidFrameset.closeItem ["dd", "dt"]).closeParagraph).open_ t
  else if name = "plaintext" then { b.closeParagraph.open_ t with plaintext := true }
  else if name = "button" then
    let b := if b.hasNamed (·.boundsScope) "button" then b.popThroughNamed "button" else b
    (b.reconstruct.open_ t).forbidFrameset
  else if name = "a" then
    let b :=
      match b.recent.find? fun e => e.2.name == "a" with
      | none => b
      | some (id, _) => ((b.closeFormatting "a").dropFormatting id).dropOpen id
    b.reconstruct.openFormatting t
  else if isFormattingTag name then b.reconstruct.openFormatting t
  else if name = "nobr" then
    let b := b.reconstruct
    let b :=
      if b.hasNamed (·.boundsScope) "nobr" then (b.closeFormatting "nobr").reconstruct else b
    b.openFormatting t
  else if isEmbedding name then (b.reconstruct.open_ t).pushMarker.forbidFrameset
  else if name = "table" then
    let b := if b.odd then b else b.closeParagraph
    (b.open_ t).forbidFrameset.goTo .inTable
  else if ["area", "br", "embed", "image", "img", "keygen", "wbr"].contains name then
    let t := if name = "image" then { t with name := "img" } else t
    (b.reconstruct.insertVoid t).forbidFrameset
  else if name = "input" then
    let b := if b.hasSelect then b.popThroughNamed "select" else b
    let b := b.reconstruct.insertVoid t
    if isHiddenInput t then b else b.forbidFrameset
  else if ["param", "source", "track"].contains name then b.insertVoid t
  else if name = "hr" then
    let b := b.closeParagraph
    ((if b.hasSelect then b.closeAllImplied else b).insertVoid t).forbidFrameset
  else if name = "textarea" then (b.openRaw .escapable t).forbidFrameset
  else if name = "xmp" then (b.closeParagraph.reconstruct.openRaw .plain t).forbidFrameset
  else if name = "iframe" then (b.openRaw .plain t).forbidFrameset
  else if name = "noembed" ∨ name = "noscript" then b.openRaw .plain t
  else if name = "select" then
    if b.hasSelect then b.popThroughNamed "select" else (b.reconstruct.open_ t).forbidFrameset
  else if name = "option" then ((b.closeOption "optgroup").reconstruct).open_ t
  else if name = "optgroup" then ((b.closeOption "").reconstruct).open_ t
  else if name = "rb" ∨ name = "rtc" then
    (if b.hasNamed (·.boundsScope) "ruby" then b.closeAllImplied else b).open_ t
  else if name = "rp" ∨ name = "rt" then
    (if b.hasNamed (·.boundsScope) "ruby" then b.closeImplied "rtc" else b).open_ t
  else if name = "math" then b.reconstruct.insertForeign .mathml t
  else if name = "svg" then b.reconstruct.insertForeign .svg t
  else if isOutOfPlace name then b
  else
    match b.insertHeadElement? t with
    | some b => b
    | none => b.reconstruct.open_ t

/-- Close the form that is open. -/
def closeForm (b : Builder) : Builder :=
  if b.hasTemplate then
    if b.hasNamed (·.boundsScope) "form" then b.popThroughNamed "form" else b
  else
    match b.form with
    | none => b
    | some form =>
      let b := { b with form := none }
      if b.reaches (b.is (·.boundsScope)) (· == form) b.stack then b.closeAllImplied.dropOpen form
      else b

/-- An end tag in the body. -/
def closeInBody (b : Builder) (name : String) : Step :=
  /- Close what is open up to an element of this name, if there is one in scope. -/
  let close (bound : Label → Bool) : Builder :=
    if b.hasNamed bound name then b.popThroughNamed name else b
  if name = "template" then .done b.closeTemplate
  else if name = "body" then
    .done (if b.hasNamed (·.boundsScope) "body" then b.goTo .afterBody else b)
  else if name = "html" then
    if b.hasNamed (·.boundsScope) "body" then .again (b.goTo .afterBody) else .done b
  else if isBlockEnd name then .done (close (·.boundsScope))
  else if name = "form" then .done b.closeForm
  else if name = "p" then
    let b := if b.hasNamed (·.boundsButtonScope) "p" then b else b.open_ { name := "p" }
    .done b.closeParagraph
  else if name = "li" then .done (close (·.boundsListScope))
  else if name = "dd" ∨ name = "dt" then .done (close (·.boundsScope))
  else if isHeadingTag name then
    .done (if b.hasInScope (·.boundsScope) (·.isHeading) then b.popThrough (·.isHeading) else b)
  else if isFormattingTag name || name == "a" || name == "nobr" then .done (b.closeFormatting name)
  else if isEmbedding name then
    .done (if b.hasNamed (·.boundsScope) name then (b.popThroughNamed name).clearFormatting else b)
  else if name = "br" then .done ((b.reconstruct.insertVoid { name := "br" }).forbidFrameset)
  else .done (b.closeOther name)

/-- In the body. -/
def inBody (b : Builder) : Token → Step
  | .char c =>
    if c = '\x00' then .done b
    else
      let b := b.reconstruct.insertChar c
      .done (if Text.isAsciiBlank c then b else b.forbidFrameset)
  | .comment s => .done (b.insertComment s)
  | .opening t => .done (b.openInBody t)
  | .closing name => b.closeInBody name
  | .finish => if b.templates.isEmpty then .done b else b.finishTemplate
  | .doctype _ _ => .done b

end NoiseFilter.Markup.Builder
