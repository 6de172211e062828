import NoiseFilter.Markup.DocumentType
import NoiseFilter.Text.Reading

/-!
# Tokens of markup

Tags, comments, document types and characters. Every text is a sequence of tokens: what is not
well formed is read as something else, a stray `<` as itself, an odd declaration as a comment. Only
a tag that never ends is dropped.
-/

namespace NoiseFilter.Markup

open Text (Read)

/-- A tag with its attributes; no name occurs twice. -/
structure Tag where
  name : String
  attributes : List (String × String) := []
  selfClosing : Bool := false
  deriving DecidableEq, Inhabited

inductive Token where
  /-- A document type; `odd` says that the page cannot be trusted to follow the rules. -/
  | doctype (name : String) (odd : Bool)
  | opening (tag : Tag)
  | closing (name : String)
  | comment (text : String)
  | char (c : Char)
  /-- The end of the text. -/
  | finish

def endsTagName (c : Char) : Bool := isTagBlank c || c == '/' || c == '>'

def endsAttributeName (c : Char) : Bool := endsTagName c || c == '='

def endsValue (c : Char) : Bool := isTagBlank c || c == '>'

/-- The null character is not shown. -/
def replaceNull (c : Char) : Char := if c = '\x00' then replacement else c

/-- A name as markup keeps it, in lower case. -/
def nameOf (cs : List Char) : String := Text.lower (String.ofList (cs.map replaceNull))

def valueOf (cs : List Char) : String := String.ofList ((decode true cs).map replaceNull)

/-! ## Tags -/

/-- The attributes up to the end of a tag, and whether the tag closes itself; `none` if the tag
does not end. -/
def readAttributes (s : List Char) :
    Option (Read (s.length + 1) (List (String × String) × Bool)) :=
  have skipped := Reference.length_dropWhile_le isTagBlank s
  match h : s.dropWhile isTagBlank with
  | [] => none
  | '>' :: rest =>
    some ⟨([], false), rest, Nat.lt_succ_of_lt (Text.length_lt_of_eq_cons h skipped)⟩
  | '/' :: '>' :: rest =>
    some ⟨([], true), rest,
      Nat.lt_succ_of_lt (Nat.lt_of_succ_lt (Text.length_lt_of_eq_cons h skipped))⟩
  | c :: rest =>
    have front : rest.length < s.length := Text.length_lt_of_eq_cons h skipped
    if c = '/' then
      (readAttributes rest).map fun r =>
        ⟨r.value, r.rest, Nat.lt_of_lt_of_le r.short (Nat.succ_le_succ (Nat.le_of_lt front))⟩
    else
      let name := nameOf (c :: rest.takeWhile (!endsAttributeName ·))
      let behind := rest.dropWhile (!endsAttributeName ·)
      have le₁ : behind.length ≤ rest.length := Reference.length_dropWhile_le ..
      have le₂ := Reference.length_dropWhile_le isTagBlank behind
      let more (value : String) (next : List Char) (le : next.length ≤ rest.length) :
          Option (Read (s.length + 1) (List (String × String) × Bool)) :=
        (readAttributes next).map fun r =>
          ⟨((name, value) :: r.value.1, r.value.2), r.rest,
            Nat.lt_of_lt_of_le r.short (Nat.succ_le_succ (Nat.le_trans le (Nat.le_of_lt front)))⟩
      match hb : behind.dropWhile isTagBlank with
      | '=' :: value =>
        have le₃ : value.length < behind.length := Text.length_lt_of_eq_cons hb le₂
        have le₄ := Reference.length_dropWhile_le isTagBlank value
        match hv : value.dropWhile isTagBlank with
        | [] => none
        | q :: inside =>
          have le₅ : inside.length < value.length := Text.length_lt_of_eq_cons hv le₄
          have le₆ : inside.length + 1 ≤ rest.length :=
            Nat.le_trans le₅ (Nat.le_trans (Nat.le_of_lt le₃) le₁)
          if q = '"' ∨ q = '\'' then
            match hq : cutAt q inside with
            | none => none
            | some (v, next) =>
              more (valueOf v) next
                (Nat.le_trans (Nat.le_of_lt (length_lt_of_cutAt hq)) (Nat.le_of_succ_le le₆))
          else
            more (valueOf ((q :: inside).takeWhile (!endsValue ·)))
              ((q :: inside).dropWhile (!endsValue ·))
              (Nat.le_trans (Reference.length_dropWhile_le (!endsValue ·) (q :: inside)) le₆)
      | _ => more "" behind le₁
termination_by s.length
decreasing_by
  · exact front
  · exact Nat.lt_of_le_of_lt le front

/-- Keep the first attribute of every name. -/
def keepFirst : List (String × String) → List (String × String)
  | [] => []
  | a :: rest => a :: (keepFirst rest).filter fun b => b.1 != a.1

/-- Read a tag whose name stands in front; `none` if it does not end. -/
def readTag (s : List Char) : Option (Read (s.length + 1) Tag) :=
  let name := nameOf (s.takeWhile (!endsTagName ·))
  have le := Reference.length_dropWhile_le (!endsTagName ·) s
  (readAttributes (s.dropWhile (!endsTagName ·))).map fun r =>
    ⟨⟨name, keepFirst r.value.1, r.value.2⟩, r.rest, by have := r.short; omega⟩

/-! ## Comments -/

/-- How much of a comment's beginning or end has been read. -/
inductive CommentPlace where
  | start
  | startDash
  | inside
  | dash
  | dashes
  | bang

/-- What one character adds to a comment, and where it leads; `none` if it ends the comment. -/
def commentStep (place : CommentPlace) (c : Char) : Option (List Char × CommentPlace) :=
  let plain (before : List Char) : Option (List Char × CommentPlace) :=
    if c = '-' then some (before, .dash) else some (before ++ [replaceNull c], .inside)
  match place with
  | .start =>
    if c = '>' then none else if c = '-' then some ([], .startDash) else plain []
  | .startDash =>
    if c = '>' then none else if c = '-' then some ([], .dashes) else plain ['-']
  | .inside => plain []
  | .dash => if c = '-' then some ([], .dashes) else plain ['-']
  | .dashes =>
    if c = '>' then none
    else if c = '!' then some ([], .bang)
    else if c = '-' then some (['-'], .dashes)
    else plain ['-', '-']
  | .bang => if c = '>' then none else plain ['-', '-', '!']

/-- The text of a comment and what follows it. -/
def readComment (place : CommentPlace) : List Char → List Char × List Char
  | [] => ([], [])
  | c :: rest =>
    match commentStep place c with
    | none => ([], rest)
    | some (text, place) =>
      let (more, rest) := readComment place rest
      (text ++ more, rest)

theorem length_readComment_le (place : CommentPlace) (s : List Char) :
    (readComment place s).2.length ≤ s.length := by
  induction s generalizing place with
  | nil => simp [readComment]
  | cons c rest ih =>
    unfold readComment
    split
    · simp
    · next place _ => have := ih place; simp; omega

/-! ## Document types -/

/-- Read a document type behind its keyword. One without name, without end, or with something odd
behind the name, or that is not the current one, is odd. -/
def readDoctype (s : List Char) : Token × List Char :=
  let (body, rest) := cutAtClose s
  let body := body.dropWhile isTagBlank
  let name := nameOf (body.takeWhile (!isTagBlank ·))
  let behind := body.dropWhile (!isTagBlank ·)
  (.doctype name (name != "html" || (cutAt '>' s).isNone || isOddBehindName behind), rest)

theorem length_readDoctype_le (s : List Char) : (readDoctype s).2.length ≤ s.length :=
  length_cutAtClose_le s

/-! ## Tokens -/

/-- Everything up to `]]>` and what follows it. -/
def cutAtSectionEnd : List Char → List Char × List Char
  | [] => ([], [])
  | c :: rest =>
    match afterMarker "]]>" (c :: rest) with
    | some rest => ([], rest)
    | none =>
      let (text, rest) := cutAtSectionEnd rest
      (c :: text, rest)

/-- Read what starts with `<!`. A section of plain characters counts only among the elements of
another language, which `foreign` says. -/
def readDeclaration (foreign : Bool) (s : List Char) : List Token × List Char :=
  match afterMarker "--" s, afterKeyword "doctype" s, afterMarker "[CDATA[" s with
  | some inside, _, _ =>
    let (text, rest) := readComment .start inside
    ([.comment (String.ofList text)], rest)
  | _, some body, _ =>
    let (token, rest) := readDoctype body
    ([token], rest)
  | _, _, some inside =>
    if foreign then
      let (text, rest) := cutAtSectionEnd inside
      (text.map .char, rest)
    else
      let (text, rest) := cutAtClose s
      ([.comment (String.ofList (text.map replaceNull))], rest)
  | _, _, _ =>
    let (text, rest) := cutAtClose s
    ([.comment (String.ofList (text.map replaceNull))], rest)

/-- An odd declaration, kept as a comment. -/
def readOddComment (s : List Char) : List Token × List Char :=
  let (text, rest) := cutAtClose s
  ([.comment (String.ofList (text.map replaceNull))], rest)

/-- Read what starts with `<`. -/
def readAngle (foreign : Bool) (s : List Char) : List Token × List Char :=
  match s with
  | '!' :: rest => readDeclaration foreign rest
  | '/' :: rest =>
    match rest with
    | [] => ([.char '<', .char '/'], [])
    | '>' :: rest => ([], rest)
    | c :: _ =>
      if c.isAlpha then
        match readTag rest with
        | none => ([], [])
        | some r => ([.closing r.value.name], r.rest)
      else readOddComment rest
  | '?' :: _ => readOddComment s
  | c :: _ =>
    if c.isAlpha then
      match readTag s with
      | none => ([], [])
      | some r => ([.opening r.value], r.rest)
    else ([.char '<'], s)
  | [] => ([.char '<'], [])

/-- Read the tokens that the text `c :: rest` starts with, at most one of them a tag. -/
def readTokens (foreign : Bool) (c : Char) (rest : List Char) : List Token × List Char :=
  if c = '<' then readAngle foreign rest
  else if c = '&' then
    let r := Reference.ofChars false rest
    (r.chars.map .char, r.rest)
  else ([.char c], rest)

theorem length_cutAtSectionEnd_le (s : List Char) :
    (cutAtSectionEnd s).2.length ≤ s.length := by
  induction s with
  | nil => simp [cutAtSectionEnd]
  | cons c rest ih =>
    unfold cutAtSectionEnd
    split
    · next h => exact length_afterMarker_le h
    · simp; omega

theorem length_readOddComment_le (s : List Char) : (readOddComment s).2.length ≤ s.length :=
  length_cutAtClose_le s

theorem length_readDeclaration_le (foreign : Bool) (s : List Char) :
    (readDeclaration foreign s).2.length ≤ s.length := by
  unfold readDeclaration
  split
  · next h => exact Nat.le_trans (length_readComment_le ..) (length_afterMarker_le h)
  · next h _ => exact Nat.le_trans (length_readDoctype_le ..) (length_afterKeyword_le h)
  · next h _ _ =>
    split
    · exact Nat.le_trans (length_cutAtSectionEnd_le ..) (length_afterMarker_le h)
    · exact length_cutAtClose_le s
  · exact length_cutAtClose_le s

theorem length_readAngle_le (foreign : Bool) (s : List Char) :
    (readAngle foreign s).2.length ≤ s.length := by
  unfold readAngle
  split
  · next rest => have := length_readDeclaration_le foreign rest; simp; omega
  · split
    · simp
    · simp; omega
    · split
      · split
        · simp
        · next r _ => have := r.short; simp at this ⊢; omega
      · exact Nat.le_trans (length_readOddComment_le _) (Nat.le_succ _)
  · exact length_readOddComment_le _
  · split
    · split
      · simp
      · next r _ => have := r.short; simp at this ⊢; omega
    · simp
  · simp

/-- Reading takes at least the first character. -/
theorem length_readTokens_le (foreign : Bool) (c : Char) (rest : List Char) :
    (readTokens foreign c rest).2.length ≤ rest.length := by
  unfold readTokens
  split
  · exact length_readAngle_le ..
  · split
    · exact Reference.length_rest_le ..
    · simp

end NoiseFilter.Markup
