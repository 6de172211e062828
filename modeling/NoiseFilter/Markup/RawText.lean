import NoiseFilter.Markup.Token

/-!
# Raw text

Some elements hold text that is no markup: it runs up to the end tag of the element, and only
there do tags count again. A script may hide its end tag, and start tags that look like its own,
inside a comment.
-/

namespace NoiseFilter.Markup

/-- How the content of an element is read. -/
inductive RawKind where
  /-- Text as it stands. -/
  | plain
  /-- Text with character references. -/
  | escapable
  | script
  deriving DecidableEq

/-- Whether the text starts with this tag: `opening` is `<` or `</`, and something that ends a tag
name follows the name. -/
def startsWithTag (opening name : String) (s : List Char) : Bool :=
  match afterKeyword (opening ++ name) s with
  | some (c :: _) => endsTagName c
  | _ => false

/-- Where a script's text stands: outside comments, inside one, or inside one behind a start tag
`<script>`. The number counts dashes in a row, up to two. -/
inductive ScriptPlace where
  | outside
  | comment (dashes : Nat)
  | nested (dashes : Nat)

/-- The step over the front of a script's text: where it leads, and how many more characters it
takes; `none` at the end tag. -/
def scriptStep (place : ScriptPlace) (s : List Char) : Option (ScriptPlace × Nat) :=
  let c := s.headD ' '
  match place with
  | .outside =>
    if startsWithTag "</" "script" s then none
    else if (afterMarker "<!--" s).isSome then some (.comment 2, 3)
    else some (.outside, 0)
  | .comment dashes =>
    if startsWithTag "</" "script" s then none
    else if startsWithTag "<" "script" s then some (.nested 0, 7)
    else if c = '-' then some (.comment (min 2 (dashes + 1)), 0)
    else if c = '>' ∧ dashes = 2 then some (.outside, 0)
    else some (.comment 0, 0)
  | .nested dashes =>
    if startsWithTag "</" "script" s then some (.comment 0, 8)
    else if c = '-' then some (.nested (min 2 (dashes + 1)), 0)
    else if c = '>' ∧ dashes = 2 then some (.outside, 0)
    else some (.nested 0, 0)

/-- The text of a script and what follows it; `taken` characters are not looked at. -/
def readScript (place : ScriptPlace) (taken : Nat) : List Char → List Char × List Char
  | [] => ([], [])
  | c :: rest =>
    match taken with
    | taken + 1 =>
      let (text, after) := readScript place taken rest
      (c :: text, after)
    | 0 =>
      match scriptStep place (c :: rest) with
      | none => ([], c :: rest)
      | some (place, taken) =>
        let (text, after) := readScript place taken rest
        (c :: text, after)

/-- The text up to the end tag of an element, and what follows from there. -/
def readUpTo (name : String) : List Char → List Char × List Char
  | [] => ([], [])
  | c :: rest =>
    if startsWithTag "</" name (c :: rest) then ([], c :: rest)
    else
      let (text, after) := readUpTo name rest
      (c :: text, after)

/-- The text of an element that holds raw text, and what follows from its end tag on. -/
def readRaw (kind : RawKind) (name : String) (s : List Char) : List Char × List Char :=
  let (text, rest) := if kind = .script then readScript .outside 0 s else readUpTo name s
  let text := if kind = .escapable then decode false text else text
  (text.map replaceNull, rest)

theorem length_readScript_le (place : ScriptPlace) (taken : Nat) (s : List Char) :
    (readScript place taken s).2.length ≤ s.length := by
  induction s generalizing place taken with
  | nil => simp [readScript]
  | cons c rest ih =>
    unfold readScript
    split
    · next taken => have := ih place taken; simp; omega
    · split
      · simp
      · next place taken _ => have := ih place taken; simp; omega

theorem length_readUpTo_le (name : String) (s : List Char) :
    (readUpTo name s).2.length ≤ s.length := by
  induction s with
  | nil => simp [readUpTo]
  | cons c rest ih =>
    unfold readUpTo
    split
    · simp
    · simp; omega

theorem length_readRaw_le (kind : RawKind) (name : String) (s : List Char) :
    (readRaw kind name s).2.length ≤ s.length := by
  unfold readRaw
  dsimp only
  split
  · exact length_readScript_le ..
  · exact length_readUpTo_le ..

end NoiseFilter.Markup
