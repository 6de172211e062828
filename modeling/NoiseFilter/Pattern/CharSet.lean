import NoiseFilter.Pattern.Form
import NoiseFilter.Text.CaseFold
import NoiseFilter.Text.Property

/-!
# Sets of characters

The sets that patterns are made of. A set also knows roughly how many ranges it is made of, which
is what it costs in an automaton.
-/

namespace NoiseFilter.Pattern

/-- A set of characters. -/
structure CharSet where
  has : Char → Bool
  /-- About how many ranges the set takes. -/
  ranges : Nat := 1

namespace CharSet

def empty : CharSet := ⟨fun _ => false, 0⟩

def singleton (c : Char) : CharSet := ⟨(· == c), 1⟩

def range (first last : Char) : CharSet := ⟨fun c => first ≤ c && c ≤ last, 1⟩

def ofList (cs : List Char) : CharSet := ⟨cs.contains, cs.length⟩

def ofTable (t : Text.RangeTable) : CharSet := ⟨t.contains, t.ranges.size⟩

def union (a b : CharSet) : CharSet := ⟨fun c => a.has c || b.has c, a.ranges + b.ranges⟩

def inter (a b : CharSet) : CharSet := ⟨fun c => a.has c && b.has c, a.ranges + b.ranges⟩

def diff (a b : CharSet) : CharSet := ⟨fun c => a.has c && !b.has c, a.ranges + b.ranges⟩

def symmDiff (a b : CharSet) : CharSet := ⟨fun c => a.has c != b.has c, a.ranges + b.ranges⟩

def compl (a : CharSet) : CharSet := ⟨fun c => !a.has c, a.ranges + 1⟩

/-- All characters that differ from a member at most in case. -/
def foldCase (a : CharSet) : CharSet :=
  ⟨fun c => (Text.caseVariants c).any a.has, a.ranges * 2⟩

/-- All characters that differ from a member at most in the case of an ASCII letter. -/
def foldAsciiCase (a : CharSet) : CharSet :=
  ⟨fun c => a.has c || a.has c.toLower || a.has c.toUpper, a.ranges * 2⟩

/-- A set made of ranges of ASCII characters. -/
def ofAsciiRanges (rs : List (Char × Char)) : CharSet :=
  ⟨fun c => rs.any fun r => r.1 ≤ c && c ≤ r.2, rs.length⟩

end CharSet

/-- The members of a named class, all of them ASCII. -/
def NamedClass.set : NamedClass → CharSet
  | alnum => .ofAsciiRanges [('0', '9'), ('A', 'Z'), ('a', 'z')]
  | alpha => .ofAsciiRanges [('A', 'Z'), ('a', 'z')]
  | ascii => .ofAsciiRanges [('\x00', '\x7f')]
  | blank => .ofAsciiRanges [('\t', '\t'), (' ', ' ')]
  | cntrl => .ofAsciiRanges [('\x00', '\x1f'), ('\x7f', '\x7f')]
  | digit => .ofAsciiRanges [('0', '9')]
  | graph => .ofAsciiRanges [('!', '~')]
  | lower => .ofAsciiRanges [('a', 'z')]
  | print => .ofAsciiRanges [(' ', '~')]
  | punct => .ofAsciiRanges [('!', '/'), (':', '@'), ('\x5b', '\x60'), ('\x7b', '~')]
  | space => .ofAsciiRanges [('\t', '\r'), (' ', ' ')]
  | upper => .ofAsciiRanges [('A', 'Z')]
  | word => .ofAsciiRanges [('0', '9'), ('A', 'Z'), ('_', '_'), ('a', 'z')]
  | xdigit => .ofAsciiRanges [('0', '9'), ('A', 'F'), ('a', 'f')]

/-- The members of a class with a letter. -/
def LetterClass.set : LetterClass → CharSet
  | digit => .ofTable Text.Category.ndTable
  | space => ⟨Text.isBlank, 10⟩
  | word => ⟨Text.Property.isWord, 770⟩

/-- The ASCII members of a class with a letter. -/
def LetterClass.asciiSet : LetterClass → CharSet
  | digit => NamedClass.set .digit
  | space => NamedClass.set .space
  | word => NamedClass.set .word

end NoiseFilter.Pattern
