/-!
# Written patterns

The form of a regular expression as it is written, before flags are applied. Forms keep what
matters for the limit on nesting: groups, repetitions, brackets, and lists of two or more parts.
-/

namespace NoiseFilter.Pattern

/-- What a flag in `(?…)` switches. -/
inductive Flag where
  | ignoreCase
  | multiLine
  | dotAll
  | swapGreed
  | unicode
  | crlf
  | extended
  deriving DecidableEq

/-- The classes with a letter: `\d`, `\s`, `\w`. -/
inductive LetterClass where
  | digit
  | space
  | word
  deriving DecidableEq

/-- The classes of ASCII characters with a name between colons. -/
inductive NamedClass where
  | alnum
  | alpha
  | ascii
  | blank
  | cntrl
  | digit
  | graph
  | lower
  | print
  | punct
  | space
  | upper
  | word
  | xdigit
  deriving DecidableEq

/-- A character as written. `byte` says that it was written as `\x` with two digits, which names a
byte where Unicode is off. -/
structure Literal where
  char : Char
  byte : Bool := false
  deriving DecidableEq

/-- What stands behind `\p`: a name, or a name with a value. -/
structure PropertyQuery where
  name : List Char
  value : Option (List Char) := none
  deriving DecidableEq

/-- Operations on sets inside brackets. -/
inductive SetOperation where
  | intersection
  | difference
  | symmetricDifference
  deriving DecidableEq

/-- The written form of a set of characters. -/
inductive SetForm where
  | empty
  | literal (l : Literal)
  | range (first last : Literal)
  | letter (k : LetterClass) (negated : Bool)
  | named (k : NamedClass) (negated : Bool)
  | property (q : PropertyQuery) (negated : Bool)
  | bracket (negated : Bool) (body : SetForm)
  | union (items : List SetForm)
  | operation (k : SetOperation) (left right : SetForm)

/-- A condition on a place in the text. -/
inductive Assertion where
  | lineStart
  | lineEnd
  | textStart
  | textEnd
  | wordBoundary
  | noWordBoundary
  | wordStart
  | wordEnd
  | wordStartHalf
  | wordEndHalf
  deriving DecidableEq

/-- The flags of a group or of a lone `(?…)`, with what each is set to. -/
abbrev FlagList := List (Flag × Bool)

/-- The written form of a pattern. -/
inductive Form where
  | empty
  | flags (fs : FlagList)
  | literal (l : Literal)
  | dot
  | assertion (a : Assertion)
  | set (s : SetForm)
  | repetition (body : Form) (least : Nat) (most : Option Nat)
  | group (fs : FlagList) (body : Form)
  | alternation (branches : List Form)
  | sequence (parts : List Form)

mutual

/-- How deep a set is nested. -/
def SetForm.depth : SetForm → Nat
  | .bracket _ body => body.depth + 1
  | .union items => depthOfItems items + 1
  | .operation _ left right => max left.depth right.depth + 1
  | _ => 0

def depthOfItems : List SetForm → Nat
  | [] => 0
  | s :: rest => max s.depth (depthOfItems rest)

end

mutual

/-- How deep a pattern is nested. -/
def Form.depth : Form → Nat
  | .set s => s.depth
  | .repetition body _ _ => body.depth + 1
  | .group _ body => body.depth + 1
  | .alternation branches => depthOfParts branches + 1
  | .sequence parts => depthOfParts parts + 1
  | _ => 0

def depthOfParts : List Form → Nat
  | [] => 0
  | f :: rest => max f.depth (depthOfParts rest)

end

/-- Parts one after the other; a lone part stands for itself. -/
def Form.ofParts : List Form → Form
  | [] => .empty
  | [f] => f
  | parts => .sequence parts

/-- Branches to choose from; a lone branch stands for itself. -/
def Form.ofBranches : List Form → Form
  | [f] => f
  | branches => .alternation branches

/-- Items of a set together; a lone item stands for itself. -/
def SetForm.ofItems : List SetForm → SetForm
  | [] => .empty
  | [s] => s
  | items => .union items

end NoiseFilter.Pattern
