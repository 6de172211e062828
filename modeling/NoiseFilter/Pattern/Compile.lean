import NoiseFilter.Pattern.Basic
import NoiseFilter.Pattern.PropertyName
import NoiseFilter.Pattern.Reader

/-!
# From form to pattern

Flags are applied: a flag holds from where it stands to the end of its group. Where Unicode is
switched off, a set may hold ASCII characters alone, so negations and the dot are refused.
-/

namespace NoiseFilter.Pattern

/-- The flags in force. -/
structure Modes where
  ignoreCase : Bool := false
  multiLine : Bool := false
  dotAll : Bool := false
  crlf : Bool := false
  unicode : Bool := true

/-- Set one flag. Greed and layout change no meaning. -/
def Modes.set (m : Modes) (f : Flag × Bool) : Modes :=
  match f.1 with
  | .ignoreCase => { m with ignoreCase := f.2 }
  | .multiLine => { m with multiLine := f.2 }
  | .dotAll => { m with dotAll := f.2 }
  | .crlf => { m with crlf := f.2 }
  | .unicode => { m with unicode := f.2 }
  | .swapGreed | .extended => m

def Modes.setAll (m : Modes) (fs : FlagList) : Modes := fs.foldl Modes.set m

/-! ## Sets -/

/-- Add the other case where case is ignored. -/
def CharSet.foldIn (m : Modes) (s : CharSet) : CharSet :=
  if !m.ignoreCase then s else if m.unicode then s.foldCase else s.foldAsciiCase

/-- Fold, then negate. -/
def CharSet.finish (m : Modes) (negated : Bool) (s : CharSet) : Option CharSet :=
  if !negated then some (s.foldIn m) else if m.unicode then some (s.foldIn m).compl else none

/-- A character that may be a member of a set. -/
def Literal.member? (m : Modes) (l : Literal) : Option Char :=
  if m.unicode || l.char.toNat < 0x80 then some l.char else none

mutual

/-- The set that a form stands for. -/
def SetForm.toSet? (m : Modes) : SetForm → Option CharSet
  | .empty => some .empty
  | .literal l => (l.member? m).map .singleton
  | .range a b => do return .range (← a.member? m) (← b.member? m)
  | .letter k negated =>
    if m.unicode then some (if negated then k.set.compl else k.set)
    else if negated then none
    else some k.asciiSet
  | .named k negated => k.set.finish m negated
  | .property q negated => if m.unicode then q.set? >>= CharSet.finish m negated else none
  | .bracket negated body => body.toSet? m >>= CharSet.finish m negated
  | .union items => toSets? m items
  | .operation k left right => do
    let a := (← left.toSet? m).foldIn m
    let b := (← right.toSet? m).foldIn m
    match k with
    | .intersection => return a.inter b
    | .difference => return a.diff b
    | .symmetricDifference => return a.symmDiff b

/-- The union of several sets. -/
def toSets? (m : Modes) : List SetForm → Option CharSet
  | [] => some .empty
  | s :: rest => do return (← s.toSet? m).union (← toSets? m rest)

end

/-! ## Patterns -/

/-- A character of the text. A byte of its own is refused, since texts are made of characters. -/
def Literal.toPattern? (m : Modes) (l : Literal) : Option Pattern :=
  if !m.unicode && l.byte && l.char.toNat ≥ 0x80 then none
  else if !m.ignoreCase then some (.char l.char)
  else if m.unicode then
    match Text.caseVariants l.char with
    | [_] => some (.char l.char)
    | variants => some (.set (.ofList variants))
  else if l.char.isAlpha then some (.set (.ofList [l.char.toUpper, l.char.toLower]))
  else some (.char l.char)

/-- What a dot stands for: any character, or any but those that end a line. -/
def dotSet (m : Modes) : CharSet :=
  if m.dotAll then CharSet.empty.compl
  else if m.crlf then (CharSet.ofList ['\r', '\n']).compl
  else (CharSet.singleton '\n').compl

/-- The anchor that an assertion stands for. -/
def Assertion.anchor (m : Modes) : Assertion → Anchor
  | lineStart => if m.multiLine then .lineStart m.crlf else .textStart
  | lineEnd => if m.multiLine then .lineEnd m.crlf else .textEnd
  | textStart => .textStart
  | textEnd => .textEnd
  | wordBoundary => .boundary .any m.unicode
  | noWordBoundary => .boundary .inside m.unicode
  | wordStart => .boundary .start m.unicode
  | wordEnd => .boundary .finish m.unicode
  | wordStartHalf => .boundary .startHalf m.unicode
  | wordEndHalf => .boundary .finishHalf m.unicode

mutual

/-- The pattern that a form stands for, and the flags in force behind it. -/
def Form.toPattern? : Form → Modes → Option (Pattern × Modes)
  | .empty, m => some (.empty, m)
  | .flags fs, m => some (.empty, m.setAll fs)
  | .literal l, m => (l.toPattern? m).map (·, m)
  | .dot, m => if m.unicode then some (.set (dotSet m), m) else none
  | .assertion a, m => some (.anchor (a.anchor m), m)
  | .set s, m => (s.toSet? m).map fun s => (.set s, m)
  | .repetition body least most, m => do
    let (p, m) ← body.toPattern? m
    return (.many p least most, m)
  | .group fs body, m => do
    let (p, _) ← body.toPattern? (m.setAll fs)
    return (p, m)
  | .alternation branches, m => toChoice? branches m
  | .sequence parts, m => toSequence? parts m

/-- Parts one after the other. -/
def toSequence? : List Form → Modes → Option (Pattern × Modes)
  | [], m => some (.empty, m)
  | f :: rest, m => do
    let (first, m) ← f.toPattern? m
    let (second, m) ← toSequence? rest m
    return (.sequence first second, m)

/-- Branches to choose from. -/
def toChoice? : List Form → Modes → Option (Pattern × Modes)
  | [], m => some (.set .empty, m)
  | f :: rest, m => do
    let (left, m) ← f.toPattern? m
    let (right, m) ← toChoice? rest m
    return (.choice left right, m)

end

/-- Read a regular expression; `none` if the text is none, or its automaton grows too large. -/
def ofString? (s : String) : Option Pattern := do
  let form ← Form.ofChars s.toList
  let (p, _) ← form.toPattern? {}
  if p.weight ≤ weightLimit then some p else none

end NoiseFilter.Pattern
