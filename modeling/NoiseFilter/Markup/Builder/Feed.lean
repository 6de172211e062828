import NoiseFilter.Markup.Builder.Table

/-!
# Feeding tokens

The rules for templates, frame sets, the end of the page and elements of other languages, and the
choice of the rule for a token. A token that a rule hands on is looked at again until some rule is
done with it.
-/

namespace NoiseFilter.Markup.Builder

/-- In a template: the first tag decides which part of a page the template holds. -/
def inTemplate (b : Builder) (token : Token) : Step :=
  let switch (mode : Mode) : Step :=
    .again { b.goTo mode with templates := mode :: b.templates.drop 1 }
  match token with
  | .opening t =>
    match b.insertHeadElement? t with
    | some b => .done b
    | none =>
      if ["caption", "colgroup", "tbody", "tfoot", "thead"].contains t.name then switch .inTable
      else if t.name = "col" then switch .inColumnGroup
      else if t.name = "tr" then switch .inTableBody
      else if isCellTag t.name then switch .inRow
      else switch .inBody
  | .closing name => .done (if name = "template" then b.closeTemplate else b)
  | .finish => b.finishTemplate
  | _ => b.inBody token

/-- Behind the body. -/
def afterBody (b : Builder) (token : Token) : Step :=
  let back : Step := .again (b.goTo .inBody)
  match token with
  | .char c => if Text.isAsciiBlank c then b.inBody token else back
  | .comment s => .done (b.insertCommentIn (b.top?.getD .root) s)
  | .opening t => if t.name = "html" then b.inBody token else back
  | .closing name => if name = "html" then .done (b.goTo .afterAfterBody) else back
  | _ => .done b

/-- In a set of frames. -/
def inFrameset (b : Builder) (token : Token) : Step :=
  match token with
  | .char c => .done (if Text.isAsciiBlank c then b.insertChar c else b)
  | .comment s => .done (b.insertComment s)
  | .opening t =>
    if t.name = "html" then .done (b.mergeHtml t)
    else if t.name = "frameset" then .done (b.open_ t)
    else if t.name = "frame" then .done (b.insertVoid t)
    else if t.name = "noframes" then .done (b.openRaw .plain t)
    else .done b
  | .closing name =>
    if name = "frameset" && b.stack.length != 1 then
      let b := b.pop
      .done (if b.currentIs (·.isNamed "frameset") then b else b.goTo .afterFrameset)
    else .done b
  | _ => .done b

/-- Behind a set of frames. -/
def afterFrameset (b : Builder) (token : Token) : Step :=
  match token with
  | .char c => .done (if Text.isAsciiBlank c then b.insertChar c else b)
  | .comment s => .done (b.insertComment s)
  | .opening t =>
    if t.name = "html" then .done (b.mergeHtml t)
    else if t.name = "noframes" then .done (b.openRaw .plain t)
    else .done b
  | .closing name => .done (if name = "html" then b.goTo .afterAfterFrameset else b)
  | _ => .done b

/-- Behind the end of the page. -/
def afterAfterBody (b : Builder) (token : Token) : Step :=
  let back : Step := .again (b.goTo .inBody)
  match token with
  | .char c => if Text.isAsciiBlank c then b.inBody token else back
  | .comment s => .done (b.insertCommentIn .root s)
  | .opening t => if t.name = "html" then b.inBody token else back
  | .closing _ => back
  | _ => .done b

/-- Behind the end of a page of frames. -/
def afterAfterFrameset (b : Builder) (token : Token) : Step :=
  match token with
  | .char c => if Text.isAsciiBlank c then b.inBody token else .done b
  | .comment s => .done (b.insertCommentIn .root s)
  | .opening t =>
    if t.name = "html" then b.inBody token
    else if t.name = "noframes" then .done (b.openRaw .plain t)
    else .done b
  | _ => .done b

/-- Read a token by the rules of the part of the page that is being read. -/
def byMode (b : Builder) (token : Token) : Step :=
  match b.mode with
  | .initial => b.initial token
  | .beforeHtml => b.beforeHtml token
  | .beforeHead => b.beforeHead token
  | .inHead => b.inHead token
  | .afterHead => b.afterHead token
  | .inBody => b.inBody token
  | .inTable => b.inTable token
  | .inTableText => b.inTableText token
  | .inCaption => b.inCaption token
  | .inColumnGroup => b.inColumnGroup token
  | .inTableBody => b.inTableBody token
  | .inRow => b.inRow token
  | .inCell => b.inCell token
  | .inTemplate => b.inTemplate token
  | .afterBody => b.afterBody token
  | .inFrameset => b.inFrameset token
  | .afterFrameset => b.afterFrameset token
  | .afterAfterBody => b.afterAfterBody token
  | .afterAfterFrameset => b.afterAfterFrameset token

/-! ## Other languages -/

/-- Start tags that leave an element of another language. -/
def leavesForeign (t : Tag) : Bool :=
  ["b", "big", "blockquote", "body", "br", "center", "code", "dd", "div", "dl", "dt", "em",
    "embed", "h1", "h2", "h3", "h4", "h5", "h6", "head", "hr", "i", "img", "li", "listing", "menu",
    "meta", "nobr", "ol", "p", "pre", "ruby", "s", "small", "span", "strong", "strike", "sub",
    "sup", "table", "tt", "u", "ul", "var"].contains t.name
    || (t.name == "font" && t.attributes.any fun a => ["color", "face", "size"].contains a.1)

/-- Whether an element of mathematics says that it holds markup. -/
def declaresMarkup (b : Builder) (id : NodeId) : Bool :=
  match b.forest.data? id with
  | some (.element ⟨.mathml, "annotation-xml"⟩ attributes _) =>
    attributes.any fun a => a.1 == "encoding"
      && ["text/html", "application/xhtml+xml"].contains (Text.lower a.2)
  | _ => false

/-- Whether a token is read by the rules for other languages. -/
def isForeign (b : Builder) (token : Token) : Bool :=
  match b.current?, b.current?.bind b.label? with
  | some id, some label =>
    label.language != .html &&
      match token with
      | .finish => false
      | .char _ => !label.holdsMathText && !label.holdsMarkup && !b.declaresMarkup id
      | .opening t =>
        !(label.holdsMathText && t.name != "mglyph" && t.name != "malignmark")
          && !label.holdsMarkup
          && !(label == ⟨.mathml, "annotation-xml"⟩ && (t.name == "svg" || b.declaresMarkup id))
      | _ => true
  | _, _ => false

/-- Leave elements of other languages and read a token by the rules of the page. -/
def leaveForeign (b : Builder) (token : Token) : Step :=
  (b.popTo fun l => l.language == .html || l.holdsMathText || l.holdsMarkup).byMode token

/-- Find the element that an end tag closes among elements of other languages; the rules of the
page take over at the first element of the page. -/
def closeForeign (b : Builder) (name : String) (first : Bool) : List NodeId → Step
  | [] | [_] => .done b
  | id :: rest =>
    if !first && b.is (·.language == .html) id then b.byMode (.closing name)
    else if b.is (·.name == name) id then .done { b with stack := rest }
    else b.closeForeign name false rest

/-- A token inside an element of another language. -/
def foreign (b : Builder) (token : Token) : Step :=
  match token with
  | .char c =>
    let b := b.insertChar (replaceNull c)
    .done (if Text.isAsciiBlank c || c == '\x00' then b else b.forbidFrameset)
  | .comment s => .done (b.insertComment s)
  | .opening t =>
    if leavesForeign t then b.leaveForeign token
    else
      let language := ((b.current?.bind b.label?).map (·.language)).getD .html
      .done (b.insertForeign language t)
  | .closing name =>
    if name = "br" ∨ name = "p" then b.leaveForeign token else b.closeForeign name true b.stack
  | _ => .done b

/-! ## Feeding -/

/-- Read a token. A rule hands it on only after closing an element or moving along the page, and
that bounds how often it is looked at. -/
def feedWithin : Nat → Token → Builder → Builder
  | 0, _, b => b
  | bound + 1, token, b =>
    match if b.isForeign token then b.foreign token else b.byMode token with
    | .done b => b
    | .again b => feedWithin bound token b

/-- Read a token, unless it is a line feed to be dropped or a document type that comes late. -/
def feed (b : Builder) (token : Token) : Builder :=
  let skip := b.skipNewline
  let b := { b with skipNewline := false }
  match token with
  | .doctype _ _ =>
    if b.mode = .initial then feedWithin 1 token b else b
  | .char '\n' => if skip then b else feedWithin (2 * b.stack.length + 40) token b
  | _ => feedWithin (2 * b.stack.length + 40) token b

end NoiseFilter.Markup.Builder
