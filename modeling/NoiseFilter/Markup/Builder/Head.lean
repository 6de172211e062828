import NoiseFilter.Markup.Builder.Formatting

/-!
# The front of a page

The rules up to the body: the document type, the `html` element, the head and what it holds. What a
page leaves out is put in: any other token makes the missing element and is then looked at again.
-/

namespace NoiseFilter.Markup.Builder

/-- Elements of the head that have no content. -/
def isHeadVoid (name : String) : Bool :=
  ["base", "basefont", "bgsound", "link", "meta"].contains name

/-- End tags that make a missing element like any other token; further ones are dropped. -/
def endsMissing (name : String) : Bool := ["body", "br", "head", "html"].contains name

/-- Open a template. -/
def openTemplate (b : Builder) (t : Tag) : Builder :=
  let b := ((b.open_ t).pushMarker.forbidFrameset).goTo .inTemplate
  { b with templates := .inTemplate :: b.templates }

/-- Close a template. -/
def closeTemplate (b : Builder) : Builder :=
  if !b.hasTemplate then b
  else
    let b := (b.popThroughNamed "template").clearFormatting
    { b with templates := b.templates.drop 1 }.resetMode

/-- The elements that belong into the head, wherever they are met. -/
def insertHeadElement? (b : Builder) (t : Tag) : Option Builder :=
  if isHeadVoid t.name then some (b.insertVoid t)
  else if t.name = "title" then some (b.openRaw .escapable t)
  else if t.name = "script" then some (b.openRaw .script t)
  else if t.name = "style" ∨ t.name = "noframes" then some (b.openRaw .plain t)
  else if t.name = "template" then some (b.openTemplate t)
  else none

/-- A second `html` tag adds its attributes to the first, though not inside a template. -/
def mergeHtml (b : Builder) (t : Tag) : Builder :=
  match b.top? with
  | some html => if b.hasTemplate then b else b.addMissing html t
  | none => b

/-- Before anything else. -/
def initial (b : Builder) : Token → Step
  | .comment s => .done (b.insertCommentIn .root s)
  | .doctype name odd =>
    let (id, b) := b.create (.doctype name)
    .done { (b.put id (.inside .root)).goTo .beforeHtml with odd }
  | .char c =>
    if Text.isAsciiBlank c then .done b else .again { b.goTo .beforeHtml with odd := true }
  | _ => .again { b.goTo .beforeHtml with odd := true }

/-- Before the `html` element. -/
def beforeHtml (b : Builder) (token : Token) : Step :=
  let make (t : Tag) : Builder := (b.open_ t).goTo .beforeHead
  match token with
  | .comment s => .done (b.insertCommentIn .root s)
  | .char c => if Text.isAsciiBlank c then .done b else .again (make { name := "html" })
  | .opening t => if t.name = "html" then .done (make t) else .again (make { name := "html" })
  | .closing name => if endsMissing name then .again (make { name := "html" }) else .done b
  | _ => .again (make { name := "html" })

/-- Before the head. -/
def beforeHead (b : Builder) (token : Token) : Step :=
  let make (t : Tag) : Builder :=
    let b := b.open_ t
    { b.goTo .inHead with head := b.current? }
  let missing : Step := .again (make { name := "head" })
  match token with
  | .comment s => .done (b.insertComment s)
  | .char c => if Text.isAsciiBlank c then .done b else missing
  | .opening t =>
    if t.name = "html" then .done (b.mergeHtml t)
    else if t.name = "head" then .done (make t)
    else missing
  | .closing name => if endsMissing name then missing else .done b
  | _ => missing

/-- In the head. -/
def inHead (b : Builder) (token : Token) : Step :=
  let leave : Builder := b.pop.goTo .afterHead
  match token with
  | .comment s => .done (b.insertComment s)
  | .char c => if Text.isAsciiBlank c then .done (b.insertChar c) else .again leave
  | .opening t =>
    if t.name = "html" then .done (b.mergeHtml t)
    else if t.name = "head" then .done b
    else if t.name = "noscript" then .done (b.openRaw .plain t)
    else
      match b.insertHeadElement? t with
      | some b => .done b
      | none => .again leave
  | .closing name =>
    if name = "head" then .done leave
    else if name = "template" then .done b.closeTemplate
    else if endsMissing name then .again leave
    else .done b
  | _ => .again leave

/-- Behind the head. A late element of the head still goes into it. -/
def afterHead (b : Builder) (token : Token) : Step :=
  let missing : Step := .again ((b.open_ { name := "body" }).goTo .inBody)
  match token with
  | .comment s => .done (b.insertComment s)
  | .char c => if Text.isAsciiBlank c then .done (b.insertChar c) else missing
  | .opening t =>
    if t.name = "html" then .done (b.mergeHtml t)
    else if t.name = "body" then .done ((b.open_ t).forbidFrameset.goTo .inBody)
    else if t.name = "frameset" then .done ((b.open_ t).goTo .inFrameset)
    else if t.name = "head" then .done b
    else
      match b.head with
      | none => missing
      | some head =>
        match (b.push head).insertHeadElement? t with
        | some b => .done (b.dropOpen head)
        | none => missing
  | .closing name =>
    if name = "template" then .done b.closeTemplate
    else if ["body", "br", "html"].contains name then missing
    else .done b
  | _ => missing

end NoiseFilter.Markup.Builder
