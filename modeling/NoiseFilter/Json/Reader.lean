import NoiseFilter.Json.Value
import NoiseFilter.Text.RangeTable
import NoiseFilter.Text.Reading

/-!
# Reading JSON

Readers for the grammar as the standard has it: no trailing commas, no comments, no leading zeros,
and no control characters in texts.
-/

namespace NoiseFilter.Json

open Text (Read)

def isBlank (c : Char) : Bool := c == ' ' || c == '\t' || c == '\n' || c == '\r'

def skipBlanks (s : List Char) : List Char := s.dropWhile isBlank

theorem length_skipBlanks_le (s : List Char) : (skipBlanks s).length ≤ s.length :=
  (List.dropWhile_suffix _).length_le

/-! ## Texts -/

/-- A piece of a text: a character, or half of a surrogate pair, which only an escape can give. -/
inductive Piece where
  | char (c : Char)
  | half (n : Nat)

/-- Join surrogate halves that stand side by side; `none` if one stands alone. -/
def joinPieces : List Piece → Option (List Char)
  | [] => some []
  | .char c :: rest => (joinPieces rest).map (c :: ·)
  | .half high :: .half low :: rest =>
    if high < 0xDC00 ∧ 0xDC00 ≤ low then
      (joinPieces rest).map (Char.ofNat (0x10000 + (high - 0xD800) * 0x400 + (low - 0xDC00)) :: ·)
    else none
  | .half _ :: _ => none

/-- The piece that a number of four hexadecimal digits stands for. -/
def pieceOf (n : Nat) : Piece :=
  if 0xD800 ≤ n ∧ n ≤ 0xDFFF then .half n else .char (Char.ofNat n)

def isHexDigit (c : Char) : Bool :=
  c.isDigit || ('a' ≤ c && c ≤ 'f') || ('A' ≤ c && c ≤ 'F')

/-- The character that a letter behind a backslash stands for. -/
def escaped? (c : Char) : Option Char :=
  match c with
  | '"' => some '"'
  | '\\' => some '\\'
  | '/' => some '/'
  | 'b' => some '\x08'
  | 'f' => some '\x0c'
  | 'n' => some '\n'
  | 'r' => some '\r'
  | 't' => some '\t'
  | _ => none

/-- Read what follows a backslash. -/
def readEscape (s : List Char) : Option (Read s.length Piece) :=
  match s with
  | [] => none
  | c :: rest =>
    if c = 'u' then
      let digits := rest.take 4
      if digits.length = 4 ∧ digits.all isHexDigit then
        some ⟨pieceOf (Text.readHex digits), rest.drop 4,
          Nat.lt_succ_of_le (List.drop_suffix 4 rest).length_le⟩
      else none
    else (escaped? c).map fun d => .past (.char d) c rest

/-- Read the pieces of a text up to its closing quote. -/
def readPieces (s : List Char) : Option (Read s.length (List Piece)) :=
  match s with
  | [] => none
  | c :: rest =>
    if c = '"' then some (.past [] c rest)
    else if c = '\\' then
      match readEscape rest with
      | none => none
      | some piece =>
        have := piece.short
        (readPieces piece.rest).map fun more =>
          ⟨piece.value :: more.value, more.rest, by
            have := more.short; simp only [List.length_cons]; omega⟩
    else if c.toNat < 0x20 then none
    else
      (readPieces rest).map fun more => (more.map (.char c :: ·)).loosen
termination_by s.length

/-- Read a text behind its opening quote. -/
def readText (s : List Char) : Option (Read s.length (Option String)) :=
  (readPieces s).map fun r => ⟨(joinPieces r.value).map String.ofList, r.rest, r.short⟩

/-! ## Numbers -/

theorem length_afterDigits_lt {s digits : List Char} {d : Char}
    (h : s.takeWhile Char.isDigit = d :: digits) :
    (s.drop (digits.length + 1)).length < s.length := by
  have le : (s.takeWhile Char.isDigit).length ≤ s.length := (List.takeWhile_prefix _).length_le
  rw [h] at le
  simp only [List.length_cons, List.length_drop] at *
  omega

/-- Read digits; at least one. -/
def readDigitRun (s : List Char) : Option (Read s.length (List Char)) :=
  match h : s.takeWhile Char.isDigit with
  | [] => none
  | d :: digits => some ⟨d :: digits, s.drop (digits.length + 1), length_afterDigits_lt h⟩

/-- Read the digits behind a point, if there is one. -/
def readFraction (s : List Char) : Option (Read (s.length + 1) (List Char)) :=
  if s.head? = some '.' then
    (readDigitRun s.tail).map fun r =>
      ⟨r.value, r.rest, by have := r.short; simp only [List.length_tail] at this; omega⟩
  else some (.stay [] s)

/-- Read an exponent, if there is one. -/
def readExponent (s : List Char) : Option (Read (s.length + 1) (Option (Bool × List Char))) :=
  match s with
  | c :: rest =>
    if c = 'e' ∨ c = 'E' then
      match rest with
      | sign :: digits =>
        if sign = '+' ∨ sign = '-' then
          (readDigitRun digits).map fun r =>
            (r.map fun ds => some (sign == '-', ds)).loosen.loosen.loosen
        else
          (readDigitRun (sign :: digits)).map fun r =>
            (r.map fun ds => some (false, ds)).loosen.loosen
      | [] => none
    else some (.stay none (c :: rest))
  | [] => some (.atEnd none _)

/-- Read a number without its sign. -/
def readUnsigned (s : List Char) : Option (Read s.length Number) :=
  match readDigitRun s with
  | none => none
  | some whole =>
    if whole.value.head? = some '0' ∧ whole.value.length ≠ 1 then none
    else
      match readFraction whole.rest with
      | none => none
      | some fraction =>
        (readExponent fraction.rest).map fun exponent =>
          ⟨{ whole := whole.value, fraction := fraction.value, exponent := exponent.value },
            exponent.rest, by
              have := whole.short
              have := fraction.short
              have := exponent.short
              omega⟩

/-! ## Values -/

/-- What follows a word at the start of a text. -/
def afterWord (word : String) (s : List Char) : Option (List Char) :=
  if word.toList.isPrefixOf s then some (s.drop word.length) else none

/-- Read a literal, a number or a text; `c` is its first character. -/
def readScalar (c : Char) (rest : List Char) : Option (Read (rest.length + 1) Value) :=
  let word (word : String) (v : Value) : Option (Read (rest.length + 1) Value) :=
    (afterWord word rest).attach.map fun ⟨after, h⟩ => ⟨v, after, by
      unfold afterWord at h
      split at h <;> simp at h
      subst h
      simp only [List.length_drop]
      omega⟩
  if c = '"' then
    (readText rest).map fun r => ⟨.string r.value, r.rest, by have := r.short; omega⟩
  else if c = 'n' then word "ull" .null
  else if c = 't' then word "rue" (.bool true)
  else if c = 'f' then word "alse" (.bool false)
  else if c = '-' then
    (readUnsigned rest).map fun r =>
      ⟨.number { r.value with negative := true }, r.rest, by have := r.short; omega⟩
  else
    (readUnsigned (c :: rest)).map fun r => r.map .number

/-- Read the key of a member and its colon. -/
def readKey (s : List Char) : Option (Read s.length (Option String)) :=
  have blanks := length_skipBlanks_le s
  match h : skipBlanks s with
  | '"' :: inner =>
    match readText inner with
    | none => none
    | some key =>
      have colon := length_skipBlanks_le key.rest
      match hc : skipBlanks key.rest with
      | ':' :: rest => some ⟨key.value, rest, by
          have := key.short
          rw [h] at blanks
          rw [hc] at colon
          simp only [List.length_cons] at blanks colon
          omega⟩
      | _ => none
  | _ => none

/-- The comma or the closing bracket behind an element; `true` for the comma. -/
def readSeparator (close : Char) (s : List Char) : Option (Read s.length Bool) :=
  have blanks := length_skipBlanks_le s
  match h : skipBlanks s with
  | c :: rest =>
    have short : rest.length < s.length := by
      rw [h] at blanks
      simp only [List.length_cons] at blanks
      omega
    if c = ',' then some ⟨true, rest, short⟩
    else if c = close then some ⟨false, rest, short⟩
    else none
  | [] => none

/-- The closing bracket of something empty. -/
def readEmpty (close : Char) (s : List Char) : Option (Read s.length Unit) :=
  have blanks := length_skipBlanks_le s
  match h : skipBlanks s with
  | c :: rest =>
    if c = close then some ⟨(), rest, by
      rw [h] at blanks
      simp only [List.length_cons] at blanks
      omega⟩
    else none
  | [] => none

mutual

/-- Read a value. -/
def readValue (s : List Char) : Option (Read s.length Value) :=
  have blanks := length_skipBlanks_le s
  match h : skipBlanks s with
  | [] => none
  | c :: rest =>
    have short : rest.length < s.length := by
      rw [h] at blanks
      simp only [List.length_cons] at blanks
      omega
    if c = '[' then
      match readEmpty ']' rest with
      | some r => some ⟨.array [], r.rest, by have := r.short; omega⟩
      | none =>
        (readItems rest).map fun r => ⟨.array r.value, r.rest, by have := r.short; omega⟩
    else if c = '\x7b' then
      match readEmpty '\x7d' rest with
      | some r => some ⟨.object [], r.rest, by have := r.short; omega⟩
      | none =>
        (readMembers rest).map fun r => ⟨.object r.value, r.rest, by have := r.short; omega⟩
    else (readScalar c rest).map fun r => ⟨r.value, r.rest, by have := r.short; omega⟩
termination_by s.length * 2
decreasing_by all_goals omega

/-- Read the items of an array and its closing bracket. -/
def readItems (s : List Char) : Option (Read s.length (List Value)) :=
  match readValue s with
  | none => none
  | some item =>
    have := item.short
    match readSeparator ']' item.rest with
    | none => none
    | some separator =>
      have := separator.short
      if separator.value then
        (readItems separator.rest).map fun more =>
          ⟨item.value :: more.value, more.rest, by have := more.short; omega⟩
      else some ⟨[item.value], separator.rest, by omega⟩
termination_by s.length * 2 + 1
decreasing_by all_goals omega

/-- Read the members of an object and its closing brace. -/
def readMembers (s : List Char) : Option (Read s.length (List Member)) :=
  match readKey s with
  | none => none
  | some key =>
    have := key.short
    match readValue key.rest with
    | none => none
    | some item =>
      have := item.short
      match readSeparator '\x7d' item.rest with
      | none => none
      | some separator =>
        have := separator.short
        if separator.value then
          (readMembers separator.rest).map fun more =>
            ⟨(key.value, item.value) :: more.value, more.rest, by have := more.short; omega⟩
        else some ⟨[(key.value, item.value)], separator.rest, by omega⟩
termination_by s.length * 2 + 1
decreasing_by all_goals omega

end

/-- The value that a whole text stands for. -/
def Value.ofString? (text : String) : Option Value := do
  let r ← readValue text.toList
  if (skipBlanks r.rest).isEmpty then some r.value else none

/-! ## Broken objects

A reader that goes through an object member by member meets the members in front of an error before
it meets the error.
-/

/-- The members in front of the first error, and what follows the object if there is none. -/
structure MemberRun where
  members : List Member := []
  rest : Option (List Char) := none

/-- The members behind an opening brace or a comma. -/
def readMemberRun (s : List Char) : MemberRun :=
  match readKey s with
  | none => {}
  | some key =>
    match readValue key.rest with
    | none => {}
    | some item =>
      let member := (key.value, item.value)
      match readSeparator '\x7d' item.rest with
      | none => { members := [member] }
      | some separator =>
        if separator.value then
          have : separator.rest.length < s.length := by
            have := key.short
            have := item.short
            have := separator.short
            omega
          let more := readMemberRun separator.rest
          { more with members := member :: more.members }
        else { members := [member], rest := some separator.rest }
termination_by s.length

/-- The members of the object that a text starts with; `none` if it starts with none. -/
def MemberRun.ofString? (text : String) : Option MemberRun :=
  match skipBlanks text.toList with
  | '\x7b' :: rest =>
    match readEmpty '\x7d' rest with
    | some r => some { rest := some r.rest }
    | none => some (readMemberRun rest)
  | _ => none

end NoiseFilter.Json
