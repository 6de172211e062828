import NoiseFilter.Decimal.Shortest
import NoiseFilter.Json.Value

/-!
# Writing JSON

Values written with two spaces per level and one member or item per line; something empty stays on
one line. Numbers in floating point have the fewest digits that read back.
-/

namespace NoiseFilter.Json

/-! ## Numbers -/

/-- How numbers in floating point are written. -/
structure FloatLayout where
  /-- The most digits in front of the point that are written out. -/
  mostWhole : Int
  /-- The most zeros between the point and the first digit that are written out. -/
  mostZeros : Int

/-- Sixteen digits in front of the point are written out, and four zeros behind it; other numbers
have an exponent. -/
def floatLayout : FloatLayout := { mostWhole := 16, mostZeros := 4 }

def zeros (n : Nat) : List Char := List.replicate n '0'

/-- The number that decimal digits stand for. There is a point, unless a single digit has an
exponent. -/
def Number.ofDigits (negative : Bool) (d : Decimal.Digits) : Number :=
  let digits := Nat.toDigits 10 d.digits
  let point : Int := digits.length + d.exponent
  if 0 < point ∧ point ≤ floatLayout.mostWhole then
    let whole := digits.take point.toNat
    let fraction := digits.drop point.toNat
    { negative
      whole := whole ++ zeros (point.toNat - whole.length)
      fraction := if fraction.isEmpty then ['0'] else fraction }
  else if point ≤ 0 ∧ -point ≤ floatLayout.mostZeros then
    { negative, whole := ['0'], fraction := zeros (-point).toNat ++ digits }
  else
    { negative
      whole := digits.take 1
      fraction := digits.drop 1
      exponent := some (decide (point - 1 < 0), Nat.toDigits 10 (point - 1).natAbs) }

/-- The bit of a minus sign. -/
def signBit : Nat := 9223372036854775808

/-- The number that reads back as a finite number in floating point. -/
def Number.ofFloat (x : Float) : Number :=
  let bits := x.toBits
  let negative := signBit ≤ bits.toNat
  if bits.toNat % signBit = 0 then { negative, whole := ['0'], fraction := ['0'] }
  else Number.ofDigits negative (Decimal.ofBits bits)

def Number.ofNat (n : Nat) : Number := { whole := Nat.toDigits 10 n }

/-- The characters of a number. -/
def Number.chars (n : Number) : List Char :=
  let sign := if n.negative then ['-'] else []
  let fraction := if n.fraction.isEmpty then [] else '.' :: n.fraction
  let exponent :=
    match n.exponent with
    | none => []
    | some (negative, digits) => 'e' :: (if negative then '-' :: digits else digits)
  sign ++ n.whole ++ fraction ++ exponent

/-! ## Texts -/

/-- A character as it stands in a text: quotes, backslashes and control characters are escaped. -/
def escape (c : Char) : List Char :=
  match c with
  | '"' => ['\\', '"']
  | '\\' => ['\\', '\\']
  | '\x08' => ['\\', 'b']
  | '\x0c' => ['\\', 'f']
  | '\n' => ['\\', 'n']
  | '\r' => ['\\', 'r']
  | '\t' => ['\\', 't']
  | _ =>
    if c.toNat < 0x20 then
      ['\\', 'u', '0', '0', Nat.digitChar (c.toNat / 16), Nat.digitChar (c.toNat % 16)]
    else [c]

def textChars (s : String) : List Char := '"' :: s.toList.flatMap escape ++ ['"']

/-! ## Values -/

/-- The start of a line. -/
def lineStart (level : Nat) : List Char := '\n' :: List.replicate (2 * level) ' '

/-- Lines between brackets. -/
def bracketed (open_ close : Char) (level : Nat) (lines : List (List Char)) : List Char :=
  if lines.isEmpty then [open_, close]
  else
    open_ :: [','].intercalate (lines.map (lineStart (level + 1) ++ ·))
      ++ lineStart level ++ [close]

mutual

/-- The characters of a value that starts at some level. -/
def Value.chars (level : Nat) : Value → List Char
  | .null => "null".toList
  | .bool true => "true".toList
  | .bool false => "false".toList
  | .number n => n.chars
  | .string s => textChars (s.getD "")
  | .array items => bracketed '[' ']' level (itemLines (level + 1) items)
  | .object members => bracketed '\x7b' '\x7d' level (memberLines (level + 1) members)

def itemLines (level : Nat) : List Value → List (List Char)
  | [] => []
  | v :: rest => v.chars level :: itemLines level rest

def memberLines (level : Nat) : List Member → List (List Char)
  | [] => []
  | (key, v) :: rest =>
    (textChars (key.getD "") ++ ':' :: ' ' :: v.chars level) :: memberLines level rest

end

/-- The text of a value. -/
def Value.render (v : Value) : String := String.ofList (v.chars 0)

end NoiseFilter.Json
