import NoiseFilter.Text.Ascii

/-!
# JSON values

Values as they are written: a number keeps its digits, an object its members in order with
repetitions, and a text with a lone surrogate is known to be one that stands for nothing. What a
value is good for is decided by whoever reads it.
-/

namespace NoiseFilter.Json

/-- A number as written. -/
structure Number where
  negative : Bool := false
  /-- The digits in front of the point. -/
  whole : List Char
  /-- The digits behind the point; none if there is no point. -/
  fraction : List Char := []
  /-- The digits of the exponent, and whether a minus stands in front of them. -/
  exponent : Option (Bool × List Char) := none
  deriving DecidableEq

/-- A JSON value. A text that is `none` holds half of a surrogate pair. -/
inductive Value where
  | null
  | bool (b : Bool)
  | number (n : Number)
  | string (s : Option String)
  | array (items : List Value)
  | object (members : List (Option String × Value))
  deriving Inhabited

/-- A member of an object. -/
abbrev Member := Option String × Value

/-- The number that digits in base ten stand for. -/
def readDigits (cs : List Char) : Nat := cs.foldl (fun n c => n * 10 + (c.toNat - 48)) 0

namespace Number

/-- The largest number that fits into 64 bits. -/
def wordLimit : Nat := 18446744073709551615

def isInteger (n : Number) : Bool := n.fraction.isEmpty && n.exponent.isNone

/-- The number as a natural number of at most `most`. -/
def natural? (most : Nat) (n : Number) : Option Nat :=
  if n.negative || !n.isInteger then none
  else
    let value := readDigits n.whole
    if value ≤ most then some value else none

/-! ## Floating point

The digits are gathered into a significand of 64 bits, as many as fit, and the significand is then
scaled by a power of ten. This rounds twice, so the last bit need not be that of the nearest number.
-/

/-- Gather digits while they fit; the second part is what did not. -/
def gather (significand : Nat) : List Char → Nat × List Char
  | [] => (significand, [])
  | c :: rest =>
    let next := significand * 10 + (c.toNat - 48)
    if next ≤ wordLimit then gather next rest else (significand, c :: rest)

/-- A power of ten. -/
def tenTo (n : Nat) : Float := Float.ofScientific 1 false n

/-- Divide by a power of ten that is out of reach of a single one, in steps. After two steps
nothing is left of any significand. -/
def shrink : Nat → Float → Nat → Float
  | 0, _, _ => 0
  | steps + 1, f, exponent =>
    if exponent ≤ 308 then f / tenTo exponent
    else if f == 0 then f
    else shrink steps (f / tenTo 308) (exponent - 308)

/-- Scale a significand; `none` if the result is too large. -/
def scale (significand : Nat) (exponent : Int) : Option Float :=
  let f := significand.toFloat
  match exponent with
  | .negSucc n => some (shrink 4 f (n + 1))
  | .ofNat n =>
    if n ≤ 308 then
      let product := f * tenTo n
      if product.isInf then none else some product
    else if f == 0 then some f
    else none

/-- The largest exponent that counts. -/
def exponentLimit : Nat := 2147483647

/-- The size of the number in floating point; `none` if it is too large. -/
def magnitude? (n : Number) : Option Float :=
  let (significand, dropped) := gather 0 n.whole
  let (significand, unread) := gather significand n.fraction
  let shift : Int := dropped.length - ((n.fraction.length - unread.length : Nat) : Int)
  match n.exponent with
  | none => scale significand shift
  | some (negative, digits) =>
    let e := readDigits digits
    if exponentLimit < e then
      if significand = 0 ∨ negative then some 0 else none
    else scale significand (if negative then shift - e else shift + e)

/-- The number in floating point; `none` if it is too large. -/
def float? (n : Number) : Option Float :=
  n.magnitude?.map fun f => if n.negative then -f else f

end Number

mutual

/-- Whether every text in a value stands for something, every number is in range, and the value is
nested at most `levels` deep. -/
def Value.isSound (levels : Nat) : Value → Bool
  | .null => true
  | .bool _ => true
  | .number n => n.float?.isSome
  | .string s => s.isSome
  | .array items => levels != 0 && areSound (levels - 1) items
  | .object members => levels != 0 && membersAreSound (levels - 1) members

def areSound (levels : Nat) : List Value → Bool
  | [] => true
  | v :: rest => v.isSound levels && areSound levels rest

def membersAreSound (levels : Nat) : List Member → Bool
  | [] => true
  | (key, v) :: rest => key.isSome && v.isSound levels && membersAreSound levels rest

end

end NoiseFilter.Json
