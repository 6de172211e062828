import NoiseFilter.Markup.Reference
import NoiseFilter.Text.Ascii

/-!
# Cutting markup

The ways in which a piece of markup ends: before a character, or behind a word that it starts with.
Each cut comes with a bound on what is left, and that is why the readers of markup end.
-/

namespace NoiseFilter.Markup

/-- The blanks of markup; carriage returns are gone by now. -/
def isTagBlank (c : Char) : Bool := c == ' ' || c == '\t' || c == '\n' || c == '\x0c'

/-- The text in front of the first occurrence of a character, and what follows that. -/
def cutAt (c : Char) (s : List Char) : Option (List Char × List Char) :=
  match s.dropWhile (· != c) with
  | [] => none
  | _ :: rest => some (s.takeWhile (· != c), rest)

theorem length_lt_of_cutAt {c : Char} {s before rest : List Char}
    (h : cutAt c s = some (before, rest)) : rest.length < s.length := by
  have le := Reference.length_dropWhile_le (· != c) s
  unfold cutAt at h
  split at h
  · simp at h
  · next heq =>
    rw [heq] at le
    simp only [Option.some.injEq, Prod.mk.injEq] at h
    rw [← h.2]
    simp at le
    omega

/-- Everything up to `>` and what follows it; all there is, if it does not occur. -/
def cutAtClose (s : List Char) : List Char × List Char := (cutAt '>' s).getD (s, [])

theorem length_cutAtClose_le (s : List Char) : (cutAtClose s).2.length ≤ s.length := by
  unfold cutAtClose
  cases h : cutAt '>' s with
  | none => simp
  | some p => exact Nat.le_of_lt (length_lt_of_cutAt h)

/-- What follows a word in any case of letters at the start of a text. -/
def afterKeyword (word : String) (s : List Char) : Option (List Char) :=
  if (s.take word.length).map Char.toLower = word.toList then some (s.drop word.length) else none

def afterMarker (marker : String) (s : List Char) : Option (List Char) :=
  if marker.toList.isPrefixOf s then some (s.drop marker.length) else none

theorem length_afterKeyword_le {word : String} {s rest : List Char}
    (h : afterKeyword word s = some rest) : rest.length ≤ s.length := by
  unfold afterKeyword at h
  split at h <;> simp_all
  subst h
  simp

theorem length_afterMarker_le {marker : String} {s rest : List Char}
    (h : afterMarker marker s = some rest) : rest.length ≤ s.length := by
  unfold afterMarker at h
  split at h <;> simp_all
  subst h
  simp

end NoiseFilter.Markup
