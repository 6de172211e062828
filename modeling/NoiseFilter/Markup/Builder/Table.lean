import NoiseFilter.Markup.Builder.Body

/-!
# Tables

A table holds captions, groups of columns, and groups of rows that hold cells. Missing parts are
put in; what does not belong into a table goes in front of it, and there the rules of the body hold.
-/

namespace NoiseFilter.Markup.Builder

/-- Tags that end a caption, a cell or a group of rows. -/
def isTableTag (name : String) : Bool :=
  ["caption", "col", "colgroup", "tbody", "td", "tfoot", "th", "thead", "tr"].contains name

def isRowGroup (name : String) : Bool := ["tbody", "tfoot", "thead"].contains name

def isCellTag (name : String) : Bool := name == "td" || name == "th"

def hasInTable (b : Builder) (name : String) : Bool := b.hasNamed (·.boundsTableScope) name

/-- Read a token by the rules of the body, with misplaced content in front of the table. -/
def foster (b : Builder) (token : Token) : Step :=
  match { b with fostering := true }.inBody token with
  | .done b => .done { b with fostering := false }
  | .again b => .again { b with fostering := false }

/-- In a table. -/
def inTable (b : Builder) (token : Token) : Step :=
  let b' := b.popTo (·.boundsTableScope)
  match token with
  | .char _ =>
    if b.currentIs (·.isOneOf ["table", "tbody", "template", "tfoot", "thead", "tr"]) then
      .again { b.goTo .inTableText with pending := [], resume := b.mode }
    else b.foster token
  | .comment s => .done (b.insertComment s)
  | .opening t =>
    let name := t.name
    if name = "caption" then .done ((b'.pushMarker.open_ t).goTo .inCaption)
    else if name = "colgroup" then .done ((b'.open_ t).goTo .inColumnGroup)
    else if name = "col" then .again ((b'.open_ { name := "colgroup" }).goTo .inColumnGroup)
    else if isRowGroup name then .done ((b'.open_ t).goTo .inTableBody)
    else if isCellTag name || name == "tr" then
      .again ((b'.open_ { name := "tbody" }).goTo .inTableBody)
    else if name = "table" then
      if b.hasInTable "table" then .again (b.popThroughNamed "table").resetMode else .done b
    else if ["script", "style", "template"].contains name then
      match b.insertHeadElement? t with
      | some b => .done b
      | none => .done b
    else if name == "input" && isHiddenInput t then .done (b.insertVoid t)
    else if name = "form" then
      if b.hasTemplate || b.form.isSome then .done b
      else
        let b := b.open_ t
        .done { b.pop with form := b.current? }
    else b.foster token
  | .closing name =>
    if name = "table" then
      .done (if b.hasInTable "table" then (b.popThroughNamed "table").resetMode else b)
    else if name = "template" then .done b.closeTemplate
    else if isTableTag name || name == "body" || name == "html" then .done b
    else b.foster token
  | .finish => b.inBody token
  | .doctype _ _ => .done b

/-- Text in a table: blanks stay, and a text with anything else goes in front of the table. -/
def inTableText (b : Builder) (token : Token) : Step :=
  match token with
  | .char c => .done (if c = '\x00' then b else { b with pending := c :: b.pending })
  | _ =>
    let text := b.pending.reverse
    let b := { b.goTo b.resume with pending := [] }
    if text.all Text.isAsciiBlank then .again (text.foldl insertChar b)
    else
      .again (text.foldl (fun b c =>
        match b.foster (.char c) with
        | .done b | .again b => b) b)

/-- Close an open caption. -/
def closeCaption (b : Builder) : Builder :=
  ((b.popThroughNamed "caption").clearFormatting).goTo .inTable

/-- In a caption. -/
def inCaption (b : Builder) (token : Token) : Step :=
  let leave : Step := if b.hasInTable "caption" then .again b.closeCaption else .done b
  match token with
  | .opening t => if isTableTag t.name then leave else b.inBody token
  | .closing name =>
    if name = "caption" then .done (if b.hasInTable "caption" then b.closeCaption else b)
    else if name = "table" then leave
    else if isTableTag name || name == "body" || name == "html" then .done b
    else b.inBody token
  | _ => b.inBody token

/-- In a group of columns. -/
def inColumnGroup (b : Builder) (token : Token) : Step :=
  let isOpen := b.currentIs (·.isNamed "colgroup")
  let leave : Step := if isOpen then .again (b.pop.goTo .inTable) else .done b
  match token with
  | .char c => if Text.isAsciiBlank c then .done (b.insertChar c) else leave
  | .comment s => .done (b.insertComment s)
  | .opening t =>
    if t.name = "html" then .done (b.mergeHtml t)
    else if t.name = "col" then .done (b.insertVoid t)
    else if t.name = "template" then .done (b.openTemplate t)
    else leave
  | .closing name =>
    if name = "colgroup" then .done (if isOpen then b.pop.goTo .inTable else b)
    else if name = "col" then .done b
    else if name = "template" then .done b.closeTemplate
    else leave
  | .finish => b.inBody token
  | .doctype _ _ => .done b

/-- Close elements down to a group of rows. -/
def popToRowGroup (b : Builder) : Builder :=
  b.popTo (·.isOneOf ["tbody", "tfoot", "thead", "html", "template"])

/-- In a group of rows. -/
def inTableBody (b : Builder) (token : Token) : Step :=
  let close : Builder := b.popToRowGroup.pop.goTo .inTable
  let leave : Step :=
    if b.hasInScope (·.boundsTableScope) (·.isOneOf ["tbody", "tfoot", "thead"]) then .again close
    else .done b
  match token with
  | .opening t =>
    if t.name = "tr" then .done ((b.popToRowGroup.open_ t).goTo .inRow)
    else if isCellTag t.name then .again ((b.popToRowGroup.open_ { name := "tr" }).goTo .inRow)
    else if isTableTag t.name then leave
    else b.inTable token
  | .closing name =>
    if isRowGroup name then .done (if b.hasInTable name then close else b)
    else if name = "table" then leave
    else if isTableTag name || name == "body" || name == "html" then .done b
    else b.inTable token
  | _ => b.inTable token

/-- Close elements down to a row. -/
def popToRow (b : Builder) : Builder := b.popTo (·.isOneOf ["tr", "html", "template"])

/-- In a row. -/
def inRow (b : Builder) (token : Token) : Step :=
  let close : Builder := b.popToRow.pop.goTo .inTableBody
  let leave : Step := if b.hasInTable "tr" then .again close else .done b
  match token with
  | .opening t =>
    if isCellTag t.name then .done (((b.popToRow.open_ t).goTo .inCell).pushMarker)
    else if isTableTag t.name then leave
    else b.inTable token
  | .closing name =>
    if name = "tr" then .done (if b.hasInTable "tr" then close else b)
    else if name = "table" then leave
    else if isRowGroup name then if b.hasInTable name then leave else .done b
    else if isTableTag name || name == "body" || name == "html" then .done b
    else b.inTable token
  | _ => b.inTable token

/-- Close an open cell. -/
def closeCell (b : Builder) : Builder :=
  ((b.popThrough (·.isOneOf ["td", "th"])).clearFormatting).goTo .inRow

/-- In a cell. -/
def inCell (b : Builder) (token : Token) : Step :=
  match token with
  | .opening t =>
    if isTableTag t.name then
      if b.hasInTable "td" || b.hasInTable "th" then .again b.closeCell else .done b
    else b.inBody token
  | .closing name =>
    if isCellTag name then
      .done
        (if b.hasInTable name then ((b.popThroughNamed name).clearFormatting).goTo .inRow else b)
    else if ["body", "caption", "col", "colgroup", "html"].contains name then .done b
    else if isRowGroup name || name == "table" || name == "tr" then
      if b.hasInTable name then .again b.closeCell else .done b
    else b.inBody token
  | _ => b.inBody token

end NoiseFilter.Markup.Builder
