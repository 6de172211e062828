/-!
# Names of elements

An element is known by its name and the language it belongs to. What the name decides about how
pages are read stands here: which elements close by themselves, which bound the search for an open
element, and which count as blocks of the page.
-/

namespace NoiseFilter.Markup

/-- The language that an element belongs to. -/
inductive Language where
  | html
  | mathml
  | svg
  deriving DecidableEq, Inhabited

/-- The full name of an element, in lower case. -/
structure Label where
  language : Language := .html
  name : String
  deriving DecidableEq, Inhabited

namespace Label

/-- Whether this is the HTML element with one of these names. -/
def isOneOf (l : Label) (names : List String) : Bool :=
  l.language == .html && names.contains l.name

def isNamed (l : Label) (name : String) : Bool := l.language == .html && l.name == name

/-- Elements of mathematics that hold text. -/
def holdsMathText (l : Label) : Bool :=
  l.language == .mathml && ["mi", "mo", "mn", "ms", "mtext"].contains l.name

/-- Elements of drawings that hold markup. -/
def holdsMarkup (l : Label) : Bool :=
  l.language == .svg && ["foreignobject", "desc", "title"].contains l.name

/-- Elements that a tag inside them does not reach out of. -/
def boundsScope (l : Label) : Bool :=
  l.isOneOf ["applet", "caption", "html", "marquee", "object", "select", "table", "td", "template",
    "th"] || l.holdsMathText || l.holdsMarkup

def boundsListScope (l : Label) : Bool := l.boundsScope || l.isOneOf ["ol", "ul"]

def boundsButtonScope (l : Label) : Bool := l.boundsScope || l.isNamed "button"

def boundsTableScope (l : Label) : Bool := l.isOneOf ["html", "table", "template"]

def isHeading (l : Label) : Bool := l.isOneOf ["h1", "h2", "h3", "h4", "h5", "h6"]

/-- Elements whose end tag may be left out. -/
def closesItself (l : Label) : Bool :=
  l.isOneOf ["dd", "dt", "li", "optgroup", "option", "p", "rb", "rp", "rt", "rtc"]

/-- Elements that are not closed by the end tag of one around them. -/
def isSpecial (l : Label) : Bool :=
  l.isOneOf ["address", "applet", "area", "article", "aside", "base", "basefont", "bgsound",
    "blockquote", "body", "br", "button", "caption", "center", "col", "colgroup", "dd", "details",
    "dir", "div", "dl", "dt", "embed", "fieldset", "figcaption", "figure", "footer", "form",
    "frame", "frameset", "h1", "h2", "h3", "h4", "h5", "h6", "head", "header", "hgroup", "hr",
    "html", "iframe", "img", "input", "isindex", "keygen", "li", "link", "listing", "main",
    "marquee", "menu", "meta", "nav", "noembed", "noframes", "noscript", "object", "ol", "p",
    "param", "plaintext", "pre", "script", "search", "section", "select", "source", "style",
    "summary", "table", "tbody", "td", "template", "textarea", "tfoot", "th", "thead", "title",
    "tr", "track", "ul", "wbr", "xmp"]

/-- Elements in front of which misplaced content of a table goes. -/
def isTablePart (l : Label) : Bool := l.isOneOf ["table", "tbody", "tfoot", "thead", "tr"]

end Label

end NoiseFilter.Markup
