import NoiseFilter.Proofs.Extended.Scan
import NoiseFilter.Proofs.Text.LowerCase
import NoiseFilter.Selector.Attribute

/-!
# The flag `i` of attribute selectors

With the flag, both sides of a comparison are lowered as wholes before they are compared. The letters of
ASCII may then stand in either case (`accepts_congr_of_lower`), and a value that is accepted without the
flag should still be. It is where whole values or whole words are compared, since these are lowered alike
wherever they stand. A start, an end or a part is lowered in the text around it, where a capital sigma may
take another form than it takes alone, and then the value is no longer found (`accepts_start_iff`,
`accepts_finish_iff`).
-/

namespace NoiseFilter.AttributeTest

open Text

/-- Between these the sigmas of a text take the forms that they take where it stands alone. -/
def KeepsForms (before cs after : List Char) : Prop := SeesSame before.reverse [] cs after []

variable {v w : String} {before after : List Char}

theorem keepsForms_iff {cs : List Char} :
    KeepsForms before cs after ↔ lowercaseWithin before.reverse cs after = lowercaseChars cs := by
  rw [lowercaseChars_eq, lowercaseWithin_eq_iff, KeepsForms]

theorem keepsForms_of_not_mem {cs : List Char} (absent : 'Σ' ∉ cs) : KeepsForms before cs after := by
  intro front back halves
  exact absurd (halves ▸ List.mem_append_right front List.mem_cons_self) absent

theorem lowercaseChars_isEmpty {cs : List Char} (filled : cs ≠ []) :
    (lowercaseChars cs).isEmpty = false := by
  rw [lowercaseChars_eq, List.isEmpty_eq_false_iff]
  exact lowercaseWithin_ne_nil filled _ _

theorem accepts_exact (accepted : (mk .exact v false).accepts w = true) :
    (mk .exact v true).accepts w = true := by
  have same : w.toList = v.toList := beq_iff_eq.mp accepted
  exact beq_iff_eq.mpr (congrArg lowercaseChars same)

/-- A word of a value is lowered as if it stood alone. -/
theorem accepts_word (accepted : (mk .word v false).accepts w = true) :
    (mk .word v true).accepts w = true := by
  simp only [accepts, AttributeOperator.compare, fold, Bool.and_eq_true, Bool.not_eq_true',
    List.any_eq_false, List.contains_iff_mem, if_neg Bool.false_ne_true, if_true] at accepted ⊢
  obtain ⟨⟨filled, plain⟩, member⟩ := accepted
  refine ⟨⟨lowercaseChars_isEmpty (List.isEmpty_eq_false_iff.mp filled), fun c image => ?_⟩, ?_⟩
  · rw [lowercaseChars_eq] at image
    have apart : ∀ c ∈ v.toList, isBlank c = false := fun c inside => Bool.eq_false_iff.mpr (plain c inside)
    exact Bool.eq_false_iff.mp (not_isBlank_of_mem_lowercaseWithin apart c image)
  · rw [wordsOf_lowercaseChars]
    exact List.mem_map_of_mem member

/-- What stands in front of a hyphen is lowered as if it stood alone. -/
theorem accepts_dash (accepted : (mk .dash v false).accepts w = true) :
    (mk .dash v true).accepts w = true := by
  simp only [accepts, AttributeOperator.compare, fold, Bool.or_eq_true, beq_iff_eq,
    List.isPrefixOf_iff_prefix, if_neg Bool.false_ne_true, if_true] at accepted ⊢
  rcases accepted with whole | ⟨rest, halves⟩
  · exact .inl (congrArg lowercaseChars whole)
  · have hyphen : lowercaseWithin v.toList.reverse ['-'] rest = ['-'] := by
      rw [lowercaseWithin, lowercaseAt, if_neg (by decide), lowercaseChar, if_pos (by decide)]
      rfl
    have parts := lowercaseChars_append v.toList ['-'] rest
    rw [hyphen, List.singleton_append, lowercaseWithin_congr _ rfl (isSeparator_hyphen.meetsCased rest),
      ← lowercaseChars_eq, halves] at parts
    exact .inr ⟨_, parts.symm⟩

/-- A start is found under the flag if and only if its sigmas keep their forms. -/
theorem accepts_start_iff (filled : v ≠ "") (halves : w.toList = v.toList ++ after) :
    (mk .start v true).accepts w = true ↔ KeepsForms [] v.toList after := by
  have some : v.toList ≠ [] := fun empty => filled (String.toList_eq_nil_iff.mp empty)
  have parts := lowercaseChars_append [] v.toList after
  rw [lowercaseWithin, List.nil_append, List.nil_append] at parts
  simp only [accepts, AttributeOperator.compare, fold, Bool.and_eq_true, Bool.not_eq_true',
    List.isPrefixOf_iff_prefix, if_true, lowercaseChars_isEmpty some, true_and, keepsForms_iff, halves,
    parts]
  constructor
  · rintro ⟨rest, same⟩
    refine (List.append_inj same ?_).1.symm
    rw [lowercaseChars_eq]
    exact length_lowercaseWithin _ _ _ _ _
  · intro same
    exact same ▸ List.prefix_append _ _

/-- An end is found under the flag if and only if its sigmas keep their forms. -/
theorem accepts_finish_iff (filled : v ≠ "") (halves : w.toList = before ++ v.toList) :
    (mk .finish v true).accepts w = true ↔ KeepsForms before v.toList [] := by
  have some : v.toList ≠ [] := fun empty => filled (String.toList_eq_nil_iff.mp empty)
  have parts := lowercaseChars_append before v.toList []
  rw [List.append_nil, lowercaseWithin.eq_1, List.append_nil] at parts
  simp only [accepts, AttributeOperator.compare, fold, Bool.and_eq_true, Bool.not_eq_true',
    List.isSuffixOf_iff_suffix, if_true, lowercaseChars_isEmpty some, true_and, keepsForms_iff, halves,
    parts]
  constructor
  · rintro ⟨rest, same⟩
    refine (List.append_inj' same ?_).2.symm
    rw [lowercaseChars_eq]
    exact length_lowercaseWithin _ _ _ _ _
  · intro same
    exact same ▸ List.suffix_append _ _

/-- A part is found under the flag if its sigmas keep their forms. -/
theorem accepts_part (filled : v ≠ "") (parts : w.toList = before ++ v.toList ++ after)
    (keeps : KeepsForms before v.toList after) : (mk .part v true).accepts w = true := by
  have some : v.toList ≠ [] := fun empty => filled (String.toList_eq_nil_iff.mp empty)
  have images := lowercaseChars_append before v.toList after
  rw [keepsForms_iff.mp keeps, ← parts] at images
  simp only [accepts, AttributeOperator.compare, fold, Bool.and_eq_true, Bool.not_eq_true', if_true,
    lowercaseChars_isEmpty some, true_and]
  exact Extended.occursIn_eq_true_iff.mpr ⟨_, _, images.symm⟩

theorem lowercaseChars_lower (s : String) : lowercaseChars (lower s).toList = lowercaseChars s.toList := by
  rw [lower, String.toList_ofList, lowercaseChars_map_toLower]

/-- Under the flag the case of letters of ASCII makes no difference. -/
theorem accepts_congr_of_lower (op : AttributeOperator) {v' w' : String} (value : lower v' = lower v)
    (actual : lower w' = lower w) : (mk op v' true).accepts w' = (mk op v true).accepts w := by
  have folded {s s' : String} (same : lower s' = lower s) :
      lowercaseChars s'.toList = lowercaseChars s.toList := by
    rw [← lowercaseChars_lower, same, lowercaseChars_lower]
  simp only [accepts, fold, if_true, folded value, folded actual]

/-- Whether the value is looked for inside the other, where its sigmas may see something else. -/
def looksInside : AttributeOperator → Bool
  | .exact | .word | .dash => false
  | .start | .finish | .part => true

/-- What is compared whole or word by word, or holds no capital sigma, and is accepted without the flag
is accepted with it. -/
theorem accepts_widens {op : AttributeOperator} (whole : looksInside op = false ∨ 'Σ' ∉ v.toList)
    (accepted : (mk op v false).accepts w = true) : (mk op v true).accepts w = true := by
  have filled (some : (!v.toList.isEmpty) = true) : v ≠ "" := by
    rintro rfl
    cases some
  have keeps (inside : looksInside op = true) {before after : List Char} :
      KeepsForms before v.toList after := by
    refine keepsForms_of_not_mem (whole.resolve_left fun outside => ?_)
    rw [inside] at outside
    cases outside
  cases op with
  | exact => exact accepts_exact accepted
  | word => exact accepts_word accepted
  | dash => exact accepts_dash accepted
  | start =>
    obtain ⟨some, starts⟩ := (Bool.and_eq_true _ _).mp accepted
    obtain ⟨after, halves⟩ := List.isPrefixOf_iff_prefix.mp starts
    exact (accepts_start_iff (filled some) halves.symm).mpr (keeps rfl)
  | finish =>
    obtain ⟨some, ends⟩ := (Bool.and_eq_true _ _).mp accepted
    obtain ⟨before, halves⟩ := List.isSuffixOf_iff_suffix.mp ends
    exact (accepts_finish_iff (filled some) halves.symm).mpr (keeps rfl)
  | part =>
    obtain ⟨some, occurs⟩ := (Bool.and_eq_true _ _).mp accepted
    obtain ⟨before, after, parts⟩ := Extended.occursIn_eq_true_iff.mp occurs
    exact accepts_part (filled some) parts.symm (keeps rfl)

/-- The flag widens a comparison. What is accepted without it is accepted with it where whole values or
words are compared, or where the value holds no capital sigma; a start or an end with a capital sigma is
still accepted if and only if each takes the form that it takes alone, and a part if each does in one
place. With the flag the case of letters of ASCII makes no difference on either side. -/
theorem ignoreCase_widens (op : AttributeOperator) (v w : String) :
    (looksInside op = false ∨ 'Σ' ∉ v.toList → (mk op v false).accepts w = true →
      (mk op v true).accepts w = true) ∧
    (v ≠ "" → ∀ before after : List Char,
      (w.toList = v.toList ++ after →
        ((mk .start v true).accepts w = true ↔ KeepsForms [] v.toList after)) ∧
      (w.toList = before ++ v.toList →
        ((mk .finish v true).accepts w = true ↔ KeepsForms before v.toList [])) ∧
      (w.toList = before ++ v.toList ++ after → KeepsForms before v.toList after →
        (mk .part v true).accepts w = true)) ∧
    ∀ v' w' : String, lower v' = lower v → lower w' = lower w →
      (mk op v' true).accepts w' = (mk op v true).accepts w :=
  ⟨accepts_widens, fun filled _ _ => ⟨accepts_start_iff filled, accepts_finish_iff filled,
    accepts_part filled⟩, fun _ _ => accepts_congr_of_lower op⟩

/-- A word, a start whose sigma sees no letter in front of it, and a start in other cases. -/
theorem ignoreCase_widens_starts : (mk .word "Σ" true).accepts "a Σ" = true ∧
    (mk .start "Σ" true).accepts "Σa" = true ∧
    (mk .start "URN:li:" true).accepts "urn:LI:activity" = true := by
  refine ⟨(ignoreCase_widens .word "Σ" "a Σ").1 (.inl rfl) (by decide), ?_, ?_⟩
  · have place := (ignoreCase_widens .start "Σ" "Σa").2.1 (by decide) [] ['a']
    refine (place.1 (by decide)).mpr fun front back halves => ?_
    have size : 1 = (front ++ 'Σ' :: back).length := congrArg List.length halves
    rw [List.length_append, List.length_cons] at size
    rw [List.eq_nil_of_length_eq_zero (show front.length = 0 by omega)]
    rfl
  · have plain := (ignoreCase_widens .start "urn:li:" "urn:li:activity").1 (.inr (by decide)) (by decide)
    have same := (ignoreCase_widens .start "urn:li:" "urn:li:activity").2.2 "URN:li:" "urn:LI:activity"
    exact (same (by decide) (by decide)).trans plain

theorem endsWord_letter : endsWord ['a'] [] = true := by
  have cased : Property.isCased 'a' = true := isCased_of_small (by decide) (by decide)
  have seen : Property.isCaseIgnorable 'a' = false :=
    isCaseIgnorable_eq_false ⟨(0x61, 0x7A), by decide, by decide⟩
  rw [endsWord, meetsCased_cons, seen, if_neg Bool.false_ne_true, cased]
  rfl

/-- A capital sigma behind a letter is the end of a text, and with the flag it is not. -/
theorem ignoreCase_narrows : (mk .finish "Σ" false).accepts "aΣ" = true ∧
    (mk .finish "Σ" true).accepts "aΣ" = false := by
  refine ⟨by decide, Bool.eq_false_iff.mpr fun accepted => ?_⟩
  have keeps : KeepsForms ['a'] ['Σ'] [] := (accepts_finish_iff (by decide) (by decide)).mp accepted
  have alone := keeps [] [] rfl
  rw [List.reverse_nil, List.nil_append, List.append_nil, List.reverse_singleton, endsWord_letter] at alone
  exact absurd alone (by decide)

end NoiseFilter.AttributeTest
