import Mathlib.Data.List.DropRight
import NoiseFilter.Proofs.Text.Words
import NoiseFilter.Text.Ascii

/-!
# Trimming

Trimming a text drops blanks at its ends and nothing else. A text that is trimmed stays so, also
when its letters are lowered, and blanks that are put in front of it make no difference.
-/

namespace NoiseFilter.Text

/-! ## Characters -/

theorem isUpper_iff {c : Char} : c.isUpper = true ↔ 65 ≤ c.toNat ∧ c.toNat ≤ 90 := by
  show decide (c.val ≥ 65 ∧ c.val ≤ 90) = true ↔ _
  simp [UInt32.le_iff_toNat_le]

theorem isLower_iff {c : Char} : c.isLower = true ↔ 97 ≤ c.toNat ∧ c.toNat ≤ 122 := by
  show (decide (c.val ≥ 97) && decide (c.val ≤ 122)) = true ↔ _
  simp [UInt32.le_iff_toNat_le]

theorem isDigit_iff {c : Char} : c.isDigit = true ↔ 48 ≤ c.toNat ∧ c.toNat ≤ 57 := by
  show (decide (c.val ≥ 48) && decide (c.val ≤ 57)) = true ↔ _
  simp [UInt32.le_iff_toNat_le]

theorem isAlpha_iff {c : Char} : c.isAlpha = true ↔ c.isUpper = true ∨ c.isLower = true :=
  (Bool.or_eq_true _ _).to_iff

/-- A capital is lowered by 32 places, any other character stays. -/
theorem toNat_toLower (c : Char) :
    c.toLower.toNat = c.toNat + 32 ∧ 65 ≤ c.toNat ∧ c.toNat ≤ 90 ∨ c.toLower = c := by
  by_cases upper : c.val ≥ 'A'.val ∧ c.val ≤ 'Z'.val
  · have lowered : c.toLower.val = c.val + ('a'.val - 'A'.val) := congrArg Char.val (dif_pos upper)
    refine .inl ⟨?_, ?_⟩
    · show c.toLower.val.toNat = c.val.toNat + 32
      rw [lowered]
      simp only [ge_iff_le, UInt32.le_iff_toNat_le, UInt32.toNat_add] at upper ⊢
      simp at upper ⊢
      omega
    · simp only [ge_iff_le, UInt32.le_iff_toNat_le] at upper
      simpa using upper
  · exact .inr (dif_neg upper)

theorem isBlank_toLower (c : Char) : isBlank c.toLower = isBlank c := by
  rcases toNat_toLower c with ⟨number, low, high⟩ | same
  · rw [Bool.eq_iff_iff]
    simp only [isBlank, number, Bool.or_eq_true, Bool.and_eq_true, decide_eq_true_eq, beq_iff_eq]
    omega
  · rw [same]

/-- No ASCII capital is among the characters. -/
def Lowered (name : String) : Prop := ∀ c ∈ name.toList, c.isUpper = false

theorem toLower_eq_self_iff {c : Char} : c.toLower = c ↔ c.isUpper = false := by
  rw [Bool.eq_false_iff, ne_eq, isUpper_iff]
  constructor
  · rintro same ⟨low, high⟩
    have capital : c.val ≥ 'A'.val ∧ c.val ≤ 'Z'.val :=
      ⟨UInt32.le_iff_toNat_le.mpr low, UInt32.le_iff_toNat_le.mpr high⟩
    have lowered : c.toLower.val = c.val + ('a'.val - 'A'.val) := congrArg Char.val (dif_pos capital)
    rw [same] at lowered
    simp at lowered
  · intro small
    rcases toNat_toLower c with ⟨-, upper⟩ | same
    · exact absurd upper small
    · exact same

theorem lowered_iff {s : String} : Lowered s ↔ lower s = s := by
  rw [Lowered, lower, ← String.toList_inj, String.toList_ofList]
  constructor
  · intro lowered
    exact (List.map_congr_left fun c member => toLower_eq_self_iff.mpr (lowered c member)).trans
      (List.map_id _)
  · intro same c member
    rw [← same] at member
    obtain ⟨d, -, rfl⟩ := List.mem_map.mp member
    exact toLower_eq_self_iff.mp (toLower_toLower d)

theorem lowered_lower (s : String) : Lowered (lower s) := lowered_iff.mpr (lower_lower s)

/-- Lowering brings in no character that is not a small letter. -/
theorem mem_of_mem_lower {s : String} {a : Char} (small : a.toNat < 97)
    (member : a ∈ (lower s).toList) : a ∈ s.toList := by
  rw [lower, String.toList_ofList] at member
  obtain ⟨c, there, same⟩ := List.mem_map.mp member
  rcases toNat_toLower c with ⟨number, low, -⟩ | unchanged
  · rw [same] at number
    omega
  · rwa [← same, unchanged]

variable {cs : List Char} {c : Char}

theorem trimEnd_eq (cs : List Char) : trimEnd cs = cs.rdropWhile isBlank := rfl

theorem mem_of_mem_trimChars (member : c ∈ trimChars cs) : c ∈ cs :=
  (List.dropWhile_suffix isBlank).subset ((List.rdropWhile_prefix isBlank _).subset member)

theorem trimChars_append_of_blank {front : List Char} (blank : ∀ c ∈ front, isBlank c = true)
    (cs : List Char) : trimChars (front ++ cs) = trimChars cs := by
  rw [trimChars, trimStart, List.dropWhile_append_of_pos blank]
  rfl

/-- What stands between blanks is left when they are trimmed away. -/
theorem trimChars_between {front cs back : List Char} (leads : ∀ c ∈ front, isBlank c = true)
    (trails : ∀ c ∈ back, isBlank c = true) (first : ∀ c ∈ cs.head?, isBlank c = false)
    (last : ∀ c ∈ cs.getLast?, isBlank c = false) : trimChars (front ++ cs ++ back) = cs := by
  rw [List.append_assoc, trimChars_append_of_blank leads]
  cases cs with
  | nil =>
    rw [List.nil_append, ← List.append_nil back, trimChars_append_of_blank trails]
    rfl
  | cons c cs =>
    have start : trimStart (c :: cs ++ back) = c :: cs ++ back :=
      List.dropWhile_cons_of_neg (by simp [first c rfl])
    rw [trimChars, start, trimEnd_eq, List.rdropWhile, List.reverse_append,
      List.dropWhile_append_of_pos (by simpa using trails), ← List.rdropWhile,
      List.rdropWhile_eq_self_iff]
    intro filled
    simp [last _ (List.getLast?_eq_some_getLast filled)]

/-- A text is what is left when it is trimmed, between blanks. -/
theorem exists_trimChars (cs : List Char) : ∃ front back, cs = front ++ trimChars cs ++ back ∧
    (∀ c ∈ front, isBlank c = true) ∧ (∀ c ∈ back, isBlank c = true) ∧
    (∀ c ∈ (trimChars cs).head?, isBlank c = false) ∧
    ∀ c ∈ (trimChars cs).getLast?, isBlank c = false := by
  refine ⟨cs.takeWhile isBlank, (trimStart cs).rtakeWhile isBlank, ?_,
    fun _ => List.mem_takeWhile_imp, fun _ => List.mem_rtakeWhile_imp, fun c first => ?_,
    fun c last => ?_⟩
  · rw [List.append_assoc, trimChars, trimEnd_eq, List.rdropWhile_append_rtakeWhile, trimStart,
      List.takeWhile_append_dropWhile]
  · obtain ⟨u, there⟩ := List.head?_eq_some_iff.mp first
    have leading : c :: u <+: cs.dropWhile isBlank := there ▸ List.rdropWhile_prefix isBlank _
    obtain ⟨v, halves⟩ := leading
    have filled := List.head_dropWhile_not (p := isBlank) (l := cs) (by simp [← halves])
    simpa [← halves] using filled
  · have filled : trimChars cs ≠ [] := by
      intro nothing
      rw [nothing] at last
      cases last
    have ending := List.rdropWhile_last_not isBlank (trimStart cs) filled
    rw [List.getLast?_eq_some_getLast filled] at last
    cases last
    exact Bool.eq_false_iff.mpr ending

theorem trimStart_trimChars (cs : List Char) : trimStart (trimChars cs) = trimChars cs := by
  have leading : trimChars cs <+: trimStart cs := List.rdropWhile_prefix isBlank _
  refine List.dropWhile_eq_self_iff.mpr fun filled => ?_
  rw [leading.getElem filled]
  exact List.dropWhile_get_zero_not isBlank cs _

/-- To trim twice is to trim once. -/
theorem trimChars_trimChars (cs : List Char) : trimChars (trimChars cs) = trimChars cs := by
  rw [trimChars, trimStart_trimChars, trimChars, trimEnd_eq, trimEnd_eq, List.rdropWhile_idempotent]

theorem trimChars_map {f : Char → Char} (same : ∀ c, isBlank (f c) = isBlank c) (cs : List Char) :
    trimChars (cs.map f) = (trimChars cs).map f := by
  have blanks : isBlank ∘ f = isBlank := funext same
  simp only [trimChars, trimEnd, trimStart, List.dropWhile_map, ← List.map_reverse, blanks]

/-! ## Strings -/

theorem toList_trim (s : String) : (trim s).toList = trimChars s.toList := by
  rw [trim, String.toList_ofList]

@[simp] theorem trim_trim (s : String) : trim (trim s) = trim s := by
  rw [trim, toList_trim, trimChars_trimChars, trim]

theorem mem_of_mem_trim {s : String} {c : Char} (member : c ∈ (trim s).toList) : c ∈ s.toList :=
  mem_of_mem_trimChars (toList_trim s ▸ member)

theorem trim_lower (s : String) : trim (lower s) = lower (trim s) := by
  rw [trim, lower, lower, toList_trim, String.toList_ofList, trimChars_map isBlank_toLower]

/-- A text that is there and has no blanks at its ends. -/
def IsTrimmed (s : String) : Prop := s ≠ "" ∧ trim s = s

instance (s : String) : Decidable (IsTrimmed s) :=
  inferInstanceAs (Decidable (s ≠ "" ∧ trim s = s))

theorem IsTrimmed.lower {s : String} (trimmed : IsTrimmed s) : IsTrimmed (lower s) := by
  refine ⟨fun empty => trimmed.1 ?_, by rw [trim_lower, trimmed.2]⟩
  rw [Text.lower, String.ofList_eq_empty_iff, List.map_eq_nil_iff] at empty
  exact String.toList_eq_nil_iff.mp empty

end NoiseFilter.Text
