import NoiseFilter.Markup.Cut

/-!
# Document types

What follows the name of a document type: a keyword and identifiers in quotes. A page whose document
type is out of order, or names an old definition of the language, is odd; its tables do not end the
paragraph in which they stand.
-/

namespace NoiseFilter.Markup

/-- The identifiers of a document type. -/
structure Identifiers where
  publicText : Option (List Char) := none
  hasSystem : Bool := false

/-- A text in quotes, and what follows it. -/
def cutQuoted : List Char → Option (List Char × List Char)
  | q :: rest => if q = '"' ∨ q = '\'' then cutAt q rest else none
  | [] => none

/-- Read what follows the name: a keyword, then quoted identifiers, two at most behind `public` and
one behind `system`. What follows the last of them does not count. -/
def Identifiers.ofChars? (s : List Char) : Option Identifiers :=
  let skip (s : List Char) : List Char := s.dropWhile isTagBlank
  match skip s with
  | [] => some {}
  | s =>
    match afterKeyword "public" s, afterKeyword "system" s with
    | some s, _ => do
      let (text, s) ← cutQuoted (skip s)
      if (skip s).isEmpty then some { publicText := some text }
      else
        let _ ← cutQuoted (skip s)
        some { publicText := some text, hasSystem := true }
    | _, some s => (cutQuoted (skip s)).map fun _ => { hasSystem := true }
    | _, _ => none

/-- The parts of a public identifier, which two slashes separate. -/
def identifierParts : List Char → List (List Char)
  | [] => [[]]
  | '/' :: '/' :: rest => [] :: identifierParts rest
  | c :: rest =>
    match identifierParts rest with
    | [] => [[c]]
    | part :: parts => (c :: part) :: parts

/-- The titles of old definitions of the language. -/
def oldTitles : List String :=
  ["dtd html", "dtd html 2.0", "dtd html 2.0 extended", "dtd html 2.0 level 1",
    "dtd html 2.0 level 2", "dtd html 2.0 strict", "dtd html 2.0 strict level 1",
    "dtd html 2.0 strict level 2", "dtd html 2.1e", "dtd html 3", "dtd html 3 1995-03-24",
    "dtd html 3.0", "dtd html 3.2", "dtd html 3.2 draft", "dtd html 3.2 final",
    "dtd html 3.2s draft", "dtd html 4.0 frameset", "dtd html 4.0 transitional",
    "dtd html experimental 19960712", "dtd html experimental 970421", "dtd html extended 1.0",
    "dtd html extended relaxed 1.0", "dtd html level 0", "dtd html level 1", "dtd html level 2",
    "dtd html level 3", "dtd html pro v0r11 19970101", "dtd html strict",
    "dtd html strict level 0", "dtd html strict level 1", "dtd html strict level 2",
    "dtd html strict level 3", "dtd strict html", "dtd w3 html", "dtd w3 html 3.0",
    "dtd w3 html strict 3.0"]

/-- The titles that are old only where no system identifier is given. -/
def transitionalTitles : List String := ["dtd html 4.01 frameset", "dtd html 4.01 transitional"]

/-- Whether a document type names an old definition of the language. A public identifier gives a
sign, an owner, a title and a language; its title tells, in any case of letters. -/
def Identifiers.isOld (ids : Identifiers) : Bool :=
  match ids.publicText with
  | none => false
  | some text =>
    match identifierParts (text.map Char.toLower) with
    | [part] => part == "html".toList
    | _ :: _ :: title :: _ :: _ =>
      let title := String.ofList title
      oldTitles.contains title || (!ids.hasSystem && transitionalTitles.contains title)
    | _ => false

/-- Whether what follows the name of a document type makes a page odd. -/
def isOddBehindName (s : List Char) : Bool := ((Identifiers.ofChars? s).map (·.isOld)).getD true

end NoiseFilter.Markup
