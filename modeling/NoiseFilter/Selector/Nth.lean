import NoiseFilter.Text.Blank

/-!
# Index expressions

The argument of the `nth` pseudo-classes, `An+B`: it accepts the positions `A * k + B` with
`k = 0, 1, 2, …`. Coefficients are signed numbers of 32 bits.
-/

namespace NoiseFilter

/-- The expression `An+B`. -/
structure Nth where
  step : Int
  offset : Int
  deriving DecidableEq, Inhabited

namespace Nth

/-- Whether a position is one of `step * k + offset`. -/
def accepts (e : Nth) (n : Int) : Bool :=
  let distance := n - e.offset
  if e.step = 0 then distance = 0
  else if e.step > 0 then 0 ≤ distance && distance % e.step = 0
  else distance ≤ 0 && distance % e.step = 0

/-- The number that decimal digits stand for; there must be one at least. -/
def readDigits (cs : List Char) : Option Nat :=
  if cs.isEmpty || !cs.all Char.isDigit then none
  else some (cs.foldl (fun n c => n * 10 + (c.toNat - 48)) 0)

/-- A number of 32 bits with an optional sign. -/
def readInt (cs : List Char) : Option Int := do
  let n ←
    match cs with
    | '-' :: rest => (readDigits rest).map fun n => -Int.ofNat n
    | '+' :: rest => (readDigits rest).map Int.ofNat
    | _ => (readDigits cs).map Int.ofNat
  if -2147483648 ≤ n ∧ n ≤ 2147483647 then some n else none

/-- The coefficient in front of `n`: a number, a lone sign, or nothing for 1. -/
def readStep : List Char → Option Int
  | [] | ['+'] => some 1
  | ['-'] => some (-1)
  | cs => readInt cs

/-- What follows `n`: a number with a sign, or nothing for 0. -/
def readOffset : List Char → Option Int
  | [] => some 0
  | '+' :: rest => readInt ('+' :: rest)
  | '-' :: rest => readInt ('-' :: rest)
  | _ => none

/-- An expression without blanks, in lower case. -/
def readPlain (cs : List Char) : Option Nth :=
  if cs = ['o', 'd', 'd'] then some ⟨2, 1⟩
  else if cs = ['e', 'v', 'e', 'n'] then some ⟨2, 0⟩
  else
    match readInt cs with
    | some n => some ⟨0, n⟩
    | none =>
      match cs.span (· != 'n') with
      | (before, _ :: after) => do return ⟨← readStep before, ← readOffset after⟩
      | _ => none

/-- Read an expression. Blanks may stand anywhere, and the case of letters does not count. -/
def ofChars (cs : List Char) : Option Nth :=
  readPlain ((cs.filter (!Text.isBlank ·)).map Char.toLower)

def ofString (s : String) : Option Nth := ofChars s.toList

end Nth

end NoiseFilter
