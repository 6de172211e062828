import NoiseFilter.Pattern.CharSet

/-!
# Patterns

What a written pattern means once its flags are applied, and whether a text holds a match. A match
is a stretch between two places of the text; since only its existence is asked for, matching works
with sets of places: `ends` takes the places where a match may begin to those where it may end.
Sets of places are ascending lists.
-/

namespace NoiseFilter

namespace Pattern

/-- Which side of a word a boundary looks at. -/
inductive Boundary where
  | any
  | inside
  | start
  | finish
  | startHalf
  | finishHalf
  deriving DecidableEq

/-- A condition on a place: the character in front of it and the one behind it. -/
inductive Anchor where
  | textStart
  | textEnd
  /-- The start of a line; with `crlf` a carriage return ends a line too. -/
  | lineStart (crlf : Bool)
  | lineEnd (crlf : Bool)
  /-- A boundary of words, of any script or of ASCII. -/
  | boundary (k : Boundary) (unicode : Bool)
  deriving DecidableEq

/-- Whether a character, if there is one, belongs to a word. -/
def isWordAt (unicode : Bool) : Option Char → Bool
  | none => false
  | some c => if unicode then LetterClass.word.set.has c else LetterClass.word.asciiSet.has c

/-- Whether an anchor holds between two characters. -/
def Anchor.holds (before after : Option Char) : Anchor → Bool
  | textStart => before.isNone
  | textEnd => after.isNone
  | lineStart false => before.isNone || before == some '\n'
  | lineStart true =>
    before.isNone || before == some '\n' || (before == some '\r' && after != some '\n')
  | lineEnd false => after.isNone || after == some '\n'
  | lineEnd true =>
    after.isNone || after == some '\r' || (after == some '\n' && before != some '\r')
  | boundary k unicode =>
    let left := isWordAt unicode before
    let right := isWordAt unicode after
    match k with
    | .any => left != right
    | .inside => left == right
    | .start => !left && right
    | .finish => left && !right
    | .startHalf => !left
    | .finishHalf => !right

end Pattern

/-- A regular expression over characters. -/
inductive Pattern where
  | empty
  | char (c : Char)
  | set (s : Pattern.CharSet)
  | anchor (a : Pattern.Anchor)
  | sequence (first second : Pattern)
  | choice (left right : Pattern)
  /-- At least `least` and at most `most` times, without limit if there is none. -/
  | many (body : Pattern) (least : Nat) (most : Option Nat)

namespace Pattern

/-! ## Sets of places -/

/-- The union of two ascending lists. -/
def union : List Nat → List Nat → List Nat
  | [], b => b
  | a, [] => a
  | x :: a, y :: b =>
    if x < y then x :: union a (y :: b)
    else if y < x then y :: union (x :: a) b
    else x :: union a b
termination_by a b => a.length + b.length

/-- The members of an ascending list that are not in another. -/
def without : List Nat → List Nat → List Nat
  | [], _ => []
  | a, [] => a
  | x :: a, y :: b =>
    if x < y then x :: without a (y :: b)
    else if y < x then without (x :: a) b
    else without a b
termination_by a b => a.length + b.length

/-- Apply a step so many times. Once nothing changes any more, nothing will. -/
def iterate (step : List Nat → List Nat) : Nat → List Nat → List Nat
  | 0, places => places
  | count + 1, places =>
    let next := step places
    if next = places then places else iterate step count next

/-- What at most so many steps reach from the places just found, together with all found before. -/
def reach (step : List Nat → List Nat) : Nat → List Nat → List Nat → List Nat
  | 0, found, _ => found
  | count + 1, found, recent =>
    match without (step recent) found with
    | [] => found
    | fresh => reach step count (union found fresh) fresh

/-! ## Matching -/

/-- The character in front of a place. -/
def charBefore (text : Array Char) : Nat → Option Char
  | 0 => none
  | i + 1 => text[i]?

/-- The places that one character of a set takes us to. -/
def stepOver (text : Array Char) (has : Char → Bool) (places : List Nat) : List Nat :=
  places.filterMap fun i =>
    match text[i]? with
    | some c => if has c then some (i + 1) else none
    | none => none

/-- The places where a match that begins at one of `places` may end. Without a limit, as many
repetitions as the text has places reach all that can be reached. -/
def ends (text : Array Char) : Pattern → List Nat → List Nat
  | empty, places => places
  | char d, places => stepOver text (· == d) places
  | set s, places => stepOver text s.has places
  | anchor a, places => places.filter fun i => a.holds (charBefore text i) text[i]?
  | sequence first second, places => second.ends text (first.ends text places)
  | choice left right, places => union (left.ends text places) (right.ends text places)
  | many body least most, places =>
    let start := iterate (body.ends text) least places
    let more :=
      match most with
      | none => text.size + 1
      | some most => most - least
    reach (body.ends text) more start start

/-- Whether a match lies anywhere in a text. -/
def occursIn (p : Pattern) (text : String) : Bool :=
  let chars := text.toList.toArray
  !(p.ends chars (List.range (chars.size + 1))).isEmpty

/-! ## Size -/

/-- About how many bytes the automaton of a pattern takes: repetitions are unfolded, and a state
takes 32 bytes. -/
def weight : Pattern → Nat
  | empty => 32
  | char c => 32 * c.utf8Size
  | set s => 64 + 56 * s.ranges
  | anchor _ => 32
  | sequence first second => first.weight + second.weight
  | choice left right => left.weight + right.weight + 8
  | many body least most =>
    match most with
    | none => body.weight * (least + 1) + 40
    | some most => body.weight * most + 40 * (most - least)

/-- Patterns with a larger automaton are refused. -/
def weightLimit : Nat := 10485760

end Pattern

end NoiseFilter
