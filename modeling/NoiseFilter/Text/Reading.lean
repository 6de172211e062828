import NoiseFilter.Text.Blank

/-!
# Reading text from the front

A reader takes what remains of a text and answers with a value and the rest. The rest comes with a
bound on its length, and that is why readers that call each other end.
-/

namespace NoiseFilter.Text

/-- A value and the rest of the text, of fewer than `bound` characters. -/
structure Read (bound : Nat) (α : Type) where
  value : α
  rest : List Char
  short : rest.length < bound

namespace Read

/-- The first character has been read. -/
def past {α : Type} (value : α) (c : Char) (rest : List Char) : Read (c :: rest).length α :=
  ⟨value, rest, Nat.lt_succ_self _⟩

/-- Nothing has been read. -/
def stay {α : Type} (value : α) (s : List Char) : Read (s.length + 1) α :=
  ⟨value, s, Nat.lt_succ_self _⟩

/-- Nothing is left to read. -/
def atEnd {α : Type} (value : α) (bound : Nat) : Read (bound + 1) α :=
  ⟨value, [], Nat.succ_pos _⟩

/-- Another value, with the same rest. -/
def map {bound : Nat} {α β : Type} (f : α → β) (r : Read bound α) : Read bound β :=
  ⟨f r.value, r.rest, r.short⟩

/-- The same with a weaker bound. -/
def loosen {bound : Nat} {α : Type} (r : Read bound α) : Read (bound + 1) α :=
  ⟨r.value, r.rest, Nat.lt_succ_of_lt r.short⟩

end Read

/-- What follows the first character of a text is shorter than anything as long as the text. -/
theorem length_lt_of_eq_cons {s rest : List Char} {c : Char} {n : Nat} (h : s = c :: rest)
    (le : s.length ≤ n) : rest.length < n := by
  subst h
  exact le

/-- The number of bytes that a text takes in UTF-8. -/
def byteSize : List Char → Nat
  | [] => 0
  | c :: rest => c.utf8Size + byteSize rest

/-- Drop the blanks in front. -/
def skipBlanks (s : List Char) : List Char := s.dropWhile isBlank

theorem length_skipBlanks_le (s : List Char) : (skipBlanks s).length ≤ s.length :=
  (List.dropWhile_suffix _).length_le

end NoiseFilter.Text
