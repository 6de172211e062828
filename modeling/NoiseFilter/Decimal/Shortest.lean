/-!
# Shortest decimals

A positive number in binary floating point is `m * 2 ^ q`. Of the decimals that are nearer to it
than to its neighbours, the shortest is wanted, and of the shortest the nearest. The search goes
through grids of one, two, three digits and so on; on each the two grid points around the number
are tried. All of it is arithmetic on whole numbers.
-/

namespace NoiseFilter.Decimal

def twoTo (n : Nat) : Nat := Nat.pow 2 n

def tenTo (n : Nat) : Nat := Nat.pow 10 n

/-- The significand of a number that is not subnormal has this bit. -/
def hiddenBit : Nat := twoTo 52

/-- A positive number in binary floating point and the reals that round to it, all of them divided
by the same power of two: `below`, `value` and `above` are counted in units of `1 / scale`. -/
structure Span where
  value : Nat
  below : Nat
  above : Nat
  scale : Nat
  /-- Whether the two ends round to the number. -/
  closed : Bool

/-- The span of `m * 2 ^ q`. The neighbour below a power of two is nearer than the one above,
unless the number is subnormal, which `lowest` says. -/
def Span.of (m : Nat) (q : Int) (lowest : Bool) : Span :=
  let factor := twoTo (q - 2).toNat
  { value := 4 * m * factor
    below := (if m = hiddenBit ∧ !lowest then 4 * m - 1 else 4 * m - 2) * factor
    above := (4 * m + 2) * factor
    scale := twoTo (2 - q).toNat
    closed := m % 2 = 0 }

/-- Decimal digits `digits * 10 ^ exponent`. -/
structure Digits where
  digits : Nat
  exponent : Int
  deriving DecidableEq

/-- The number of units of `1 / scale` in `d * 10 ^ e`, as a fraction. -/
def units (scale d : Nat) (e : Int) : Nat × Nat :=
  (d * tenTo e.toNat * scale, tenTo (-e).toNat)

/-- Whether a decimal lies in a span. -/
def Span.has (s : Span) (d : Nat) (e : Int) : Bool :=
  let (n, k) := units s.scale d e
  if s.closed then s.below * k ≤ n && n ≤ s.above * k else s.below * k < n && n < s.above * k

/-- How far a decimal is from the number, counted so that distances on one grid compare. -/
def Span.distance (s : Span) (d : Nat) (e : Int) : Nat :=
  let (n, k) := units s.scale d e
  (n - s.value * k) + (s.value * k - n)

/-- The point of the grid of `10 ^ e` at or below the number. -/
def Span.floorAt (s : Span) (e : Int) : Nat :=
  s.value * tenTo (-e).toNat / (s.scale * tenTo e.toNat)

/-- The decimal of a span on the grid of `10 ^ e`, if there is one: the nearer of the two points
around the number, and of two at the same distance the even one. -/
def Span.onGrid (s : Span) (e : Int) : Option Digits :=
  let d := s.floorAt e
  let low := if d ≠ 0 ∧ s.has d e then some d else none
  let high := if s.has (d + 1) e then some (d + 1) else none
  let chosen :=
    match low, high with
    | some _, some _ =>
      let a := s.distance d e
      let b := s.distance (d + 1) e
      some (if a < b then d else if b < a then d + 1 else if d % 2 = 0 then d else d + 1)
    | some d, none => some d
    | none, some d => some d
    | none, none => none
  chosen.map fun digits => { digits, exponent := e }

/-- The first decimal on grids that grow finer from `10 ^ e` on. -/
def Span.search (s : Span) : Nat → Int → Digits
  | 0, e => { digits := s.floorAt e, exponent := e }
  | count + 1, e =>
    match s.onGrid e with
    | some d => d
    | none => s.search count (e - 1)

/-- An exponent from which on a power of ten is above the number. A number of `n` binary digits has
at most `0.30103 n + 1` decimal ones. -/
def Span.top (s : Span) : Int :=
  if s.scale ≤ s.value then (((s.value / s.scale).log2 + 1) * 30103 / 100000 + 1 : Nat) else 0

/-- Whole digits without trailing zeros. -/
def Digits.trim (d : Digits) : Nat → Digits
  | 0 => d
  | count + 1 =>
    if d.digits ≠ 0 ∧ d.digits % 10 = 0 then
      Digits.trim { digits := d.digits / 10, exponent := d.exponent + 1 } count
    else d

/-- The shortest decimal of a span. -/
def Span.shortest (s : Span) : Digits := (s.search 350 s.top).trim 20

/-- The shortest decimal that reads back as a positive finite number, given by its bits. -/
def ofBits (bits : UInt64) : Digits :=
  let fraction := bits.toNat % hiddenBit
  let exponent : Nat := bits.toNat / hiddenBit % twoTo 11
  let span :=
    if exponent = 0 then Span.of fraction (-1074) true
    else Span.of (hiddenBit + fraction) ((exponent : Int) - 1075) (exponent == 1)
  span.shortest

end NoiseFilter.Decimal
