import NoiseFilter.Text.Blank

/-!
# Words

A string is a word if it is not empty and holds no blank. Reading the words of a string gives words
only, and words that are joined by single spaces are read back as they were.
-/

namespace NoiseFilter.Text

/-- A string that is not empty and holds no blank. -/
def IsWord (s : String) : Prop := s ≠ "" ∧ ∀ c ∈ s.toList, isBlank c = false

instance (s : String) : Decidable (IsWord s) :=
  decidable_of_iff (s ≠ "" ∧ s.toList.all (!isBlank ·) = true) (by simp [IsWord])

theorem not_isBlank_of_mem_splitOnP {p : Char → Bool} {cs part : List Char} {c : Char}
    (there : part ∈ cs.splitOnP p) (member : c ∈ part) : p c = false := by
  induction cs generalizing part with
  | nil =>
    rw [List.splitOnP_nil, List.mem_singleton] at there
    subst there
    cases member
  | cons head rest ih =>
    rw [List.splitOnP_cons_eq_if_modifyHead] at there
    split at there
    · rcases List.mem_cons.mp there with rfl | later
      · cases member
      · exact ih later member
    · rename_i notBlank
      obtain ⟨first, others, parts⟩ := List.exists_cons_of_ne_nil (List.splitOnP_ne_nil p rest)
      rw [parts, List.modifyHead_cons] at there
      rcases List.mem_cons.mp there with rfl | later
      · rcases List.mem_cons.mp member with rfl | inside
        · simpa using notBlank
        · exact ih (parts ▸ List.mem_cons_self) inside
      · exact ih (parts ▸ List.mem_cons_of_mem _ later) member

theorem isWord_of_mem_words {s word : String} (member : word ∈ words s) : IsWord word := by
  obtain ⟨cs, there, rfl⟩ := List.mem_map.mp member
  obtain ⟨part, filled⟩ := List.mem_filter.mp there
  refine ⟨fun empty => ?_, fun c inside => ?_⟩
  · have nothing : cs = [] := by simpa using congrArg String.toList empty
    rw [nothing] at filled
    cases filled
  · rw [String.toList_ofList] at inside
    exact not_isBlank_of_mem_splitOnP part inside

/-- A word in front of a blank is read off. -/
theorem wordsOf_append_cons {word : List Char} (filled : word ≠ [])
    (plain : ∀ c ∈ word, isBlank c = false) {sep : Char} (blank : isBlank sep = true)
    (rest : List Char) : wordsOf (word ++ sep :: rest) = word :: wordsOf rest := by
  rw [wordsOf, List.splitOnP_append_cons_of_forall_mem plain sep blank, List.filter_cons,
    if_pos (by simpa using filled), wordsOf]

theorem wordsOf_intercalate {parts : List (List Char)}
    (plain : ∀ word ∈ parts, word ≠ [] ∧ ∀ c ∈ word, isBlank c = false) :
    wordsOf ([' '].intercalate parts) = parts := by
  induction parts with
  | nil => rfl
  | cons word rest ih =>
    obtain ⟨filled, inside⟩ := plain word List.mem_cons_self
    have restPlain : ∀ other ∈ rest, other ≠ [] ∧ ∀ c ∈ other, isBlank c = false :=
      fun other later => plain other (List.mem_cons_of_mem _ later)
    cases rest with
    | nil =>
      rw [List.intercalate_singleton, wordsOf, List.splitOnP_eq_singleton inside]
      simpa using filled
    | cons next others =>
      rw [List.intercalate_cons_cons, List.append_assoc, List.singleton_append,
        wordsOf_append_cons filled inside (by decide), ih restPlain]

/-- Words joined by single spaces are read back. -/
theorem words_intercalate {parts : List String} (plain : ∀ word ∈ parts, IsWord word) :
    words (" ".intercalate parts) = parts := by
  have blank : " ".toList = [' '] := by decide
  rw [words, String.toList_intercalate, blank, wordsOf_intercalate]
  · rw [List.map_map]
    exact (List.map_congr_left fun s _ => String.ofList_toList).trans (List.map_id _)
  · intro cs member
    obtain ⟨word, there, rfl⟩ := List.mem_map.mp member
    obtain ⟨some, inside⟩ := plain word there
    exact ⟨fun empty => some (String.toList_eq_nil_iff.mp empty), inside⟩

end NoiseFilter.Text
