import NoiseFilter.Proofs.Text.CaseFold
import NoiseFilter.Proofs.Text.Trim
import NoiseFilter.Text.LowerCase

/-!
# Characters with case

What the tables of properties and of capitals say of blanks, of the hyphen and of the letters of ASCII.
Blanks and the hyphen have no case, and nothing is looked for behind them (`IsSeparator`); a blank is its
own image and that of no other character; letters of ASCII have case, small or capital.
-/

namespace NoiseFilter.Text

/-! ## Separators and letters in the tables -/

/-- The blanks. -/
def blankSpans : List (Nat × Nat) :=
  [(9, 13), (0x20, 0x20), (0x85, 0x85), (0xA0, 0xA0), (0x1680, 0x1680), (0x2000, 0x200A),
    (0x2028, 0x2029), (0x202F, 0x202F), (0x205F, 0x205F), (0x3000, 0x3000)]

theorem isBlank_iff {c : Char} :
    isBlank c = true ↔ ∃ span ∈ blankSpans, span.1 ≤ c.toNat ∧ c.toNat ≤ span.2 := by
  simp only [isBlank, blankSpans, Bool.or_eq_true, Bool.and_eq_true, decide_eq_true_eq, beq_iff_eq,
    List.mem_cons, List.not_mem_nil, or_false, exists_eq_or_imp, exists_eq_left]
  omega

/-- The hyphen and the blanks. -/
def separatorSpans : List (Nat × Nat) := (0x2D, 0x2D) :: blankSpans

/-- The letters of ASCII. -/
def letterSpans : List (Nat × Nat) := [(0x41, 0x5A), (0x61, 0x7A)]

-- The text of a table is longer than the default bound on nested terms.
set_option maxRecDepth 20000 in
/-- The tables of the characters that case mapping looks across. They hold no separator and no letter. -/
def ignorableTables : { tables : List RangeTable //
    (tables.all (·.avoids (separatorSpans ++ letterSpans))) = true } where
  val := [Category.mnTable, Category.meTable, Category.cfTable, Category.lmTable, Category.skTable,
    Property.otherCaseIgnorableTable]
  property := by
    unfold Category.mnTable Category.meTable Category.cfTable Category.lmTable Category.skTable
      Property.otherCaseIgnorableTable RangeTable.ofString tableWords
    repeat rw [String.toList_ofList]
    decide +kernel

set_option maxRecDepth 20000 in
/-- The tables of the characters with case. They hold no separator. -/
def casedTables : { tables : List RangeTable // (tables.all (·.avoids separatorSpans)) = true } where
  val := [Category.llTable, Property.otherLowercaseTable, Category.luTable,
    Property.otherUppercaseTable, Category.ltTable]
  property := by
    unfold Category.llTable Property.otherLowercaseTable Category.luTable
      Property.otherUppercaseTable Category.ltTable RangeTable.ofString tableWords
    repeat rw [String.toList_ofList]
    decide +kernel

/-- A table in order in which this is one of the ranges. -/
def HoldsRange (range : Nat × Nat) (t : RangeTable) : Prop :=
  (RangeTable.ascendingFrom 0 t.ranges.toList && t.ranges.toList.contains range) = true

set_option maxRecDepth 20000 in
/-- The table of capitals has those of ASCII for a range. -/
def capitalTable : { t : RangeTable // HoldsRange (0x41, 0x5A) t } where
  val := Category.luTable
  property := by
    unfold HoldsRange Category.luTable RangeTable.ofString tableWords
    rw [String.toList_ofList]
    decide +kernel

set_option maxRecDepth 20000 in
/-- The table of small letters has those of ASCII for a range. -/
def smallTable : { t : RangeTable // HoldsRange (0x61, 0x7A) t } where
  val := Category.llTable
  property := by
    unfold HoldsRange Category.llTable RangeTable.ofString tableWords
    rw [String.toList_ofList]
    decide +kernel

set_option maxRecDepth 20000 in
/-- The runs of capitals with their images. There is no blank in a run, and none is an image. -/
def capitalRuns : { runs : List (Nat × Nat × Nat) // (runs.all fun run => blankSpans.all fun span =>
    (span.2 < run.1 || run.2.1 < span.1) &&
      (span.2 < run.2.2 || run.2.2 + (run.2.1 - run.1) < span.1)) = true } where
  val := lowercaseTable.toList
  property := by
    unfold lowercaseTable readShifts tableWords
    rw [String.toList_ofList]
    decide +kernel

variable {c d : Char}

theorem isCaseIgnorable_eq (c : Char) :
    Property.isCaseIgnorable c = ignorableTables.val.any (·.contains c) := by
  simp [Property.isCaseIgnorable, Category.anyHas, Category.has, Category.table, ignorableTables,
    Bool.or_assoc]

theorem isCased_eq (c : Char) : Property.isCased c = casedTables.val.any (·.contains c) := by
  simp [Property.isCased, Property.isLowercase, Property.isUppercase, Category.has, Category.table,
    casedTables, Bool.or_assoc]

theorem isCaseIgnorable_eq_false
    (inside : ∃ span ∈ separatorSpans ++ letterSpans, span.1 ≤ c.toNat ∧ c.toNat ≤ span.2) :
    Property.isCaseIgnorable c = false := by
  rw [isCaseIgnorable_eq]
  exact RangeTable.any_contains_eq_false ignorableTables.property inside

theorem isCased_eq_false (inside : ∃ span ∈ separatorSpans, span.1 ≤ c.toNat ∧ c.toNat ≤ span.2) :
    Property.isCased c = false := by
  rw [isCased_eq]
  exact RangeTable.any_contains_eq_false casedTables.property inside

theorem HoldsRange.contains {range : Nat × Nat} {t : RangeTable} (holds : HoldsRange range t)
    (first : range.1 ≤ c.toNat) (last : c.toNat ≤ range.2) : t.contains c = true := by
  obtain ⟨ascending, member⟩ := (Bool.and_eq_true _ _).mp holds
  exact RangeTable.contains_of_ascending ascending (List.contains_iff_mem.mp member) first last

/-- A capital of ASCII has case. -/
theorem isCased_of_capital (first : 0x41 ≤ c.toNat) (last : c.toNat ≤ 0x5A) :
    Property.isCased c = true := by
  have found : Category.luTable.contains c = true := capitalTable.property.contains first last
  simp [Property.isCased, Property.isUppercase, Category.has, Category.table, found]

/-- A small letter of ASCII has case. -/
theorem isCased_of_small (first : 0x61 ≤ c.toNat) (last : c.toNat ≤ 0x7A) :
    Property.isCased c = true := by
  have found : Category.llTable.contains c = true := smallTable.property.contains first last
  simp [Property.isCased, Property.isLowercase, Category.has, Category.table, found]

theorem isCaseIgnorable_toLower (c : Char) :
    Property.isCaseIgnorable c.toLower = Property.isCaseIgnorable c := by
  rcases toNat_toLower c with ⟨number, first, last⟩ | same
  · rw [isCaseIgnorable_eq_false (c := c) ⟨(0x41, 0x5A), by decide, first, last⟩]
    exact isCaseIgnorable_eq_false ⟨(0x61, 0x7A), by decide, by simp only [number]; omega⟩
  · rw [same]

theorem isCased_toLower (c : Char) : Property.isCased c.toLower = Property.isCased c := by
  rcases toNat_toLower c with ⟨number, first, last⟩ | same
  · rw [isCased_of_capital first last, isCased_of_small (by omega) (by omega)]
  · rw [same]

/-- A character at which words end: whoever looks for a letter with case stops there in vain. -/
def IsSeparator (c : Char) : Prop :=
  Property.isCaseIgnorable c = false ∧ Property.isCased c = false

theorem isSeparator_of_isBlank (blank : isBlank c = true) : IsSeparator c := by
  obtain ⟨span, member, within⟩ := isBlank_iff.mp blank
  have member : span ∈ separatorSpans := List.mem_cons_of_mem _ member
  exact ⟨isCaseIgnorable_eq_false ⟨span, List.mem_append_left _ member, within⟩,
    isCased_eq_false ⟨span, member, within⟩⟩

theorem isSeparator_hyphen : IsSeparator '-' :=
  ⟨isCaseIgnorable_eq_false ⟨(0x2D, 0x2D), by decide, by decide⟩,
    isCased_eq_false ⟨(0x2D, 0x2D), by decide, by decide⟩⟩

/-! ## The image of one character -/

theorem findShift_eq_some {n m : Nat} (found : findShift n = some m) :
    ∃ run ∈ capitalRuns.val, run.1 ≤ n ∧ n ≤ run.2.1 ∧ run.2.2 + (n - run.1) = m := by
  obtain ⟨run, found, same⟩ := Option.map_eq_some_iff.mp found
  have place := place_of_findEntry found
  obtain ⟨first, last⟩ := placeIn_eq_iff.mp place
  have runs : capitalRuns.val = lowercaseTable.toList := by rw [capitalRuns]
  rw [runs]
  exact ⟨run, Array.mem_toList_iff.mpr (mem_of_findEntry found), first, last, same⟩

theorem capitalRuns_avoid {run : Nat × Nat × Nat} (member : run ∈ capitalRuns.val)
    {span : Nat × Nat} (blank : span ∈ blankSpans) : (span.2 < run.1 ∨ run.2.1 < span.1) ∧
      (span.2 < run.2.2 ∨ run.2.2 + (run.2.1 - run.1) < span.1) := by
  have apart := List.all_eq_true.mp (List.all_eq_true.mp capitalRuns.property run member) span blank
  simpa only [Bool.and_eq_true, Bool.or_eq_true, decide_eq_true_eq] using apart

/-- A blank is its own image. -/
theorem lowercaseChar_of_isBlank (blank : isBlank c = true) : lowercaseChar c = [c] := by
  obtain ⟨span, member, low, high⟩ := isBlank_iff.mp blank
  unfold lowercaseChar
  split
  · rcases toNat_toLower c with ⟨-, first, last⟩ | same
    · simp only [isBlank, Bool.or_eq_true, Bool.and_eq_true, decide_eq_true_eq, beq_iff_eq] at blank
      omega
    · rw [same]
  · split
    · next dotted =>
      rw [isBlank, dotted] at blank
      exact absurd blank (by decide)
    · split
      · next n found =>
        obtain ⟨run, there, first, last, -⟩ := findShift_eq_some found
        have apart := (capitalRuns_avoid there member).1
        omega
      · rfl

/-- No character but a blank is mapped to a blank. -/
theorem isBlank_of_mem_lowercaseChar (member : d ∈ lowercaseChar c) (blank : isBlank d = true) :
    isBlank c = true := by
  obtain ⟨span, inside, low, high⟩ := isBlank_iff.mp blank
  unfold lowercaseChar at member
  split at member
  · rw [List.mem_singleton.mp member, isBlank_toLower] at blank
    exact blank
  · split at member
    · simp only [List.mem_cons, List.not_mem_nil, or_false] at member
      rcases member with rfl | rfl <;> exact absurd blank (by decide)
    · split at member
      · next n found =>
        have same := (List.mem_singleton.mp member).symm
        obtain ⟨run, there, first, last, image⟩ := findShift_eq_some found
        have filled : d.toNat ≠ 0 := by
          intro zero
          rw [isBlank, zero] at blank
          exact absurd blank (by decide)
        have number := toNat_of_ofNat same filled
        have apart := (capitalRuns_avoid there inside).2
        omega
      · rwa [← List.mem_singleton.mp member]

theorem lowercaseChar_toLower (c : Char) : lowercaseChar c.toLower = lowercaseChar c := by
  rcases toNat_toLower c with ⟨number, first, last⟩ | same
  · rw [lowercaseChar, if_pos (by omega), lowercaseChar, if_pos (by omega), toLower_toLower]
  · rw [same]

theorem lowercaseChar_ne_nil (c : Char) : lowercaseChar c ≠ [] := by
  unfold lowercaseChar
  split
  · exact List.cons_ne_nil _ _
  · split
    · exact List.cons_ne_nil _ _
    · split <;> exact List.cons_ne_nil _ _

end NoiseFilter.Text
