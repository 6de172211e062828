import NoiseFilter.Markup.Entity
import NoiseFilter.Text.Blank

/-!
# Character references

What an ampersand and the text behind it stand for. A reference gives a character by name or by
number; anything else leaves the ampersand as it is.
-/

namespace NoiseFilter.Markup

/-- The character that stands for what cannot be shown. -/
def replacement : Char := '\uFFFD'

def isHexDigit (c : Char) : Bool :=
  c.isDigit || ('a' ≤ c && c ≤ 'f') || ('A' ≤ c && c ≤ 'F')

/-- The characters that the numbers 128 to 159 stand for. A number that is given none here stands
for itself. -/
def legacyTable : List (List Char) := Text.tableWords "
20AC 81 201A 192 201E 2026 2020 2021 2C6 2030 160 2039 152 8D 17D 8F
90 2018 2019 201C 201D 2022 2013 2014 2DC 2122 161 203A 153 9D 17E 178
"

/-- The character with a number. -/
def numbered (n : Nat) : Char :=
  if n = 0 ∨ 0x10FFFF < n ∨ (0xD800 ≤ n ∧ n ≤ 0xDFFF) then replacement
  else if 0x80 ≤ n ∧ n ≤ 0x9F then Char.ofNat (Text.readHex ((legacyTable[n - 0x80]?).getD []))
  else Char.ofNat n

/-- What follows a closing semicolon. -/
def cutSemicolon (s : List Char) : Option (List Char) :=
  if s.head? = some ';' then some s.tail else none

/-- What a reference stands for, and what follows it. -/
structure Reference where
  chars : List Char
  rest : List Char

namespace Reference

/-- No reference at all: the ampersand stands for itself. -/
def none (s : List Char) : Reference := ⟨['&'], s⟩

/-- A reference by number; `s` is what follows `#` and `x`, and `whole` what follows the
ampersand. -/
def ofDigits (isDigit : Char → Bool) (base : Nat) (whole s : List Char) : Reference :=
  match s.takeWhile isDigit with
  | [] => none whole
  | digits =>
    let n := digits.foldl (fun n c => n * base + Text.hexValue c) 0
    ⟨[numbered n], (cutSemicolon (s.dropWhile isDigit)).getD (s.dropWhile isDigit)⟩

/-- A reference by a name that is not closed. In an attribute it does not count in front of an
equals sign, a letter or a digit. -/
def ofOpenName (inAttribute : Bool) (s : List Char) : Option (List Char) → Reference
  | Option.none => none s
  | some name =>
    let rest := s.drop name.length
    let plain := inAttribute && rest.head?.any fun c => c == '=' || c.isAlphanum
    ⟨if plain then '&' :: name else (entity? name).getD [], rest⟩

/-- A reference by name. The longest name counts. -/
def ofName (inAttribute : Bool) (s : List Char) : Reference :=
  match cutSemicolon (s.dropWhile Char.isAlphanum), entity? (s.takeWhile Char.isAlphanum) with
  | some rest, some chars => ⟨chars, rest⟩
  | _, _ => ofOpenName inAttribute s (openEntity? (s.takeWhile Char.isAlphanum))

/-- A reference by number; `s` is what follows `#`. -/
def ofNumber (whole s : List Char) : Reference :=
  if s.head?.any fun c => c == 'x' || c == 'X' then ofDigits isHexDigit 16 whole s.tail
  else ofDigits Char.isDigit 10 whole s

/-- Read the reference that follows an ampersand. -/
def ofChars (inAttribute : Bool) (s : List Char) : Reference :=
  if s.head? = some '#' then ofNumber s s.tail else ofName inAttribute s

theorem length_cutSemicolon_le {s rest : List Char} (h : cutSemicolon s = some rest) :
    rest.length ≤ s.length := by
  unfold cutSemicolon at h
  split at h <;> simp at h
  subst h
  simp

theorem length_dropWhile_le (p : Char → Bool) (s : List Char) :
    (s.dropWhile p).length ≤ s.length :=
  (List.dropWhile_suffix p).length_le

theorem length_ofDigits_le (isDigit : Char → Bool) (base : Nat) {whole s : List Char}
    (le : s.length ≤ whole.length) :
    (ofDigits isDigit base whole s).rest.length ≤ whole.length := by
  unfold ofDigits
  split
  · simp [none]
  · have le' := length_dropWhile_le isDigit s
    cases h : cutSemicolon (s.dropWhile isDigit) with
    | none => simp; omega
    | some rest => have := length_cutSemicolon_le h; simp; omega

theorem length_ofOpenName_le (inAttribute : Bool) (s : List Char) (name : Option (List Char)) :
    (ofOpenName inAttribute s name).rest.length ≤ s.length := by
  cases name with
  | none => exact Nat.le_refl _
  | some name => exact (List.drop_suffix name.length s).length_le

theorem length_ofName_le (inAttribute : Bool) (s : List Char) :
    (ofName inAttribute s).rest.length ≤ s.length := by
  unfold ofName
  split
  · next h _ => exact Nat.le_trans (length_cutSemicolon_le h) (length_dropWhile_le ..)
  · exact length_ofOpenName_le ..

/-- A reference never reaches back. -/
theorem length_rest_le (inAttribute : Bool) (s : List Char) :
    (ofChars inAttribute s).rest.length ≤ s.length := by
  unfold ofChars ofNumber
  have tail : s.tail.length ≤ s.length := by simp
  split
  · split
    · exact length_ofDigits_le _ _ (by simp only [List.length_tail]; omega)
    · exact length_ofDigits_le _ _ tail
  · exact length_ofName_le ..

end Reference

/-- Replace every reference in a text. -/
def decode (inAttribute : Bool) (s : List Char) : List Char :=
  match s with
  | [] => []
  | c :: rest =>
    if c = '&' then
      have := Reference.length_rest_le inAttribute rest
      let r := Reference.ofChars inAttribute rest
      r.chars ++ decode inAttribute r.rest
    else c :: decode inAttribute rest
termination_by s.length

end NoiseFilter.Markup
