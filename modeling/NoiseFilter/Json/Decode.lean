import NoiseFilter.Json.Reader

/-!
# Decoding JSON values

What a value has to look like to stand for a text, a number, a flag or a record. A record is an
object whose known members are there at most once, or an array that gives them in order; a number
with point or exponent is never a whole number.
-/

namespace NoiseFilter.Json.Value

def string? : Value → Option String
  | .string s => s
  | _ => none

def bool? : Value → Option Bool
  | .bool b => some b
  | _ => none

/-- A whole number of at most `most`. -/
def natural? (most : Nat) : Value → Option Nat
  | .number n => n.natural? most
  | _ => none

def float? : Value → Option Float
  | .number n => n.float?
  | _ => none

/-- A value that may be `null`. -/
def optional? {α : Type} (decode : Value → Option α) : Value → Option (Option α)
  | .null => some none
  | v => (decode v).map some

/-- A list of values. -/
def list? {α : Type} (decode : Value → Option α) : Value → Option (List α)
  | .array items => items.mapM decode
  | _ => none

/-- The members of an object with this name. -/
def named (name : String) (members : List Member) : List Value :=
  (members.filter (·.1 == some name)).map (·.2)

/-- The values of the known members of a record, one place for each name. -/
def fields? (names : List String) : Value → Option (List (Option Value))
  | .object members =>
    if members.all (·.1.isSome) && names.all fun name => (named name members).length ≤ 1 then
      some (names.map fun name => (named name members).head?)
    else none
  | .array items =>
    if items.length ≤ names.length then
      some (items.map some ++ List.replicate (names.length - items.length) none)
    else none
  | _ => none

/-- The value of a member that has a default. -/
def orElse {α : Type} (decode : Value → Option α) (default : α) : Option Value → Option α
  | none => some default
  | some v => decode v

/-- The value of a member that has to be there. -/
def required {α : Type} (decode : Value → Option α) : Option Value → Option α
  | none => none
  | some v => decode v

end NoiseFilter.Json.Value
