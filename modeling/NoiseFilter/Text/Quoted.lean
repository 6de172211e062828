import NoiseFilter.Text.Property

/-!
# Quoted text

A text in double quotes, for display. Quotes and backslashes are escaped, the common controls have
letters of their own, and every other character that cannot be seen by itself, combining marks
among them, is written as its code point.
-/

namespace NoiseFilter.Text

/-- Whether a character can be shown as it is. -/
def isVisible (c : Char) : Bool :=
  if c.toNat < 0x7F then c.toNat ≥ 0x20
  else
    !Category.anyHas [.cc, .cf, .cn, .co, .zl, .zp, .zs] c && !Property.isGraphemeExtend c

/-- The digits of a number in base sixteen, in lower case. -/
def hexDigits (n : Nat) : List Char := Nat.toDigits 16 n

/-- One character inside the quotes. -/
def quoteChar (c : Char) : List Char :=
  if c = '\x00' then ['\\', '0']
  else if c = '\t' then ['\\', 't']
  else if c = '\r' then ['\\', 'r']
  else if c = '\n' then ['\\', 'n']
  else if c = '\\' then ['\\', '\\']
  else if c = '"' then ['\\', '"']
  else if isVisible c then [c]
  else ['\\', 'u', '{'] ++ hexDigits c.toNat ++ ['}']

/-- A text in quotes. -/
def quote (s : String) : String := String.ofList ('"' :: s.toList.flatMap quoteChar ++ ['"'])

end NoiseFilter.Text
