/-!
# Tables of code points

Character data comes as text: hexadecimal code points and ranges, separated by blanks. A table
holds the ranges in increasing order and finds a code point by halving.
-/

namespace NoiseFilter.Text

/-- The value of a hexadecimal digit; 0 for any other character. -/
def hexValue (c : Char) : Nat :=
  if '0' ≤ c && c ≤ '9' then c.toNat - 48
  else if 'a' ≤ c && c ≤ 'f' then c.toNat - 87
  else if 'A' ≤ c && c ≤ 'F' then c.toNat - 55
  else 0

/-- The number that hexadecimal digits stand for. -/
def readHex (cs : List Char) : Nat := cs.foldl (fun n c => n * 16 + hexValue c) 0

/-- The words of table text. -/
def tableWords (text : String) : List (List Char) :=
  (text.toList.splitOnP fun c => c == ' ' || c == '\n').filter (!·.isEmpty)

/-- A range: `41-5A`, or `41` for a single code point. -/
def readRange (word : List Char) : Nat × Nat :=
  match word.splitOn '-' with
  | [low, high] => (readHex low, readHex high)
  | _ => (readHex word, readHex word)

/-- An entry in order, found by halving: `place` says on which side of an entry the sought one
lies. Only the entries from `low` on and before `high` are searched. -/
def findBetween {α : Type} (entries : Array α) (place : α → Ordering) (low high : Nat) :
    Option α :=
  if low < high then
    let middle := (low + high) / 2
    match entries[middle]? with
    | none => none
    | some entry =>
      match place entry with
      | .lt => findBetween entries place low middle
      | .gt => findBetween entries place (middle + 1) high
      | .eq => some entry
  else none
termination_by high - low

/-- An entry of an ordered table, found by halving. -/
def findEntry {α : Type} (entries : Array α) (place : α → Ordering) : Option α :=
  findBetween entries place 0 entries.size

/-- On which side of a range a number lies. -/
def placeIn (n first last : Nat) : Ordering :=
  if n < first then .lt else if last < n then .gt else .eq

/-- Ranges of code points in increasing order. -/
structure RangeTable where
  ranges : Array (Nat × Nat)

namespace RangeTable

def ofString (text : String) : RangeTable := ⟨((tableWords text).map readRange).toArray⟩

/-- Whether a character is in the table. -/
def contains (t : RangeTable) (c : Char) : Bool :=
  (findEntry t.ranges fun r => placeIn c.toNat r.1 r.2).isSome

end RangeTable

end NoiseFilter.Text
