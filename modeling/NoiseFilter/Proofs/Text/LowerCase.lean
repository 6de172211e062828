import NoiseFilter.Proofs.Text.Cased

/-!
# Lowering inside a longer text

Only the capital sigma looks at what stands around it, and of that it only sees whether a word goes on.
So the image of a text inside another is found without the other (`lowercaseWithin`), and it is the same
in two places if and only if all its sigmas see the same (`lowercaseWithin_eq_iff`). Blanks and hyphens cut
words, which is why a text is lowered word by word (`wordsOf_lowercaseChars`), and the case of letters of
ASCII makes no difference (`lowercaseChars_map_toLower`).
-/

namespace NoiseFilter.Text

variable {c : Char}

/-! ## What a sigma sees -/

theorem meetsCased_cons (c : Char) (rest : List Char) : meetsCased (c :: rest) =
    if Property.isCaseIgnorable c then meetsCased rest else Property.isCased c := by
  by_cases ignorable : Property.isCaseIgnorable c = true
  · rw [meetsCased, List.dropWhile_cons_of_pos ignorable, if_pos ignorable, meetsCased]
  · rw [meetsCased, List.dropWhile_cons_of_neg ignorable, if_neg ignorable]

/-- What is seen of two texts is seen in the first, or behind it where all of it is looked across. -/
theorem meetsCased_append (front back : List Char) : meetsCased (front ++ back) =
    if front.all Property.isCaseIgnorable then meetsCased back else meetsCased front := by
  induction front with
  | nil => rw [List.nil_append, List.all_nil, if_pos rfl]
  | cons c rest ih =>
    rw [List.cons_append, meetsCased_cons, meetsCased_cons, List.all_cons]
    cases Property.isCaseIgnorable c with
    | true => simpa only [if_true, Bool.true_and] using ih
    | false => simp only [Bool.false_and, if_neg Bool.false_ne_true]

/-- Behind a separator nothing is seen, as at the end of the text. -/
theorem IsSeparator.meetsCased (separator : IsSeparator c) (rest : List Char) :
    meetsCased (c :: rest) = meetsCased [] := by
  rw [meetsCased_cons, separator.1, separator.2, if_neg Bool.false_ne_true]
  rfl

theorem meetsCased_map_toLower (cs : List Char) :
    meetsCased (cs.map Char.toLower) = meetsCased cs := by
  induction cs with
  | nil => rfl
  | cons c rest ih =>
    rw [List.map_cons, meetsCased_cons, meetsCased_cons, isCaseIgnorable_toLower, isCased_toLower, ih]

/-- Whether a sigma between these ends a word; the characters in front stand with the nearest first. -/
def endsWord (before after : List Char) : Bool := meetsCased before && !meetsCased after

/-! ## The image of a text -/

/-- The image of a character between others. -/
def lowercaseAt (before : List Char) (c : Char) (after : List Char) : List Char :=
  if c = 'Σ' then if endsWord before after then ['ς'] else ['σ'] else lowercaseChar c

/-- The image of a text between others. -/
def lowercaseWithin (before : List Char) : List Char → List Char → List Char
  | [], _ => []
  | c :: rest, after =>
    lowercaseAt before c (rest ++ after) ++ lowercaseWithin (c :: before) rest after

theorem lowercaseAfter_append (before front back : List Char) :
    lowercaseAfter before (front ++ back) =
      lowercaseWithin before front back ++ lowercaseAfter (front.reverse ++ before) back := by
  induction front generalizing before with
  | nil => rfl
  | cons c rest ih =>
    rw [List.cons_append, lowercaseAfter, ih, lowercaseWithin, List.append_assoc, List.reverse_cons,
      List.append_assoc]
    rfl

/-- The image of a text that stands alone. -/
theorem lowercaseChars_eq (cs : List Char) : lowercaseChars cs = lowercaseWithin [] cs [] := by
  have whole := lowercaseAfter_append [] cs []
  rwa [List.append_nil, lowercaseAfter, List.append_nil] at whole

/-- The images of a text's parts, each where it stands. -/
theorem lowercaseChars_append (front middle back : List Char) :
    lowercaseChars (front ++ middle ++ back) = lowercaseWithin [] front (middle ++ back) ++
      lowercaseWithin front.reverse middle back ++
      lowercaseWithin (middle.reverse ++ front.reverse) back [] := by
  rw [lowercaseChars, List.append_assoc, lowercaseAfter_append, lowercaseAfter_append,
    ← List.append_nil back, lowercaseAfter_append]
  simp [lowercaseAfter]

theorem length_lowercaseAt (before before' : List Char) (c : Char) (after after' : List Char) :
    (lowercaseAt before c after).length = (lowercaseAt before' c after').length := by
  unfold lowercaseAt
  split
  · split <;> split <;> rfl
  · rfl

/-- The sigmas of a text see the same in two places. -/
def SeesSame (before before' cs after after' : List Char) : Prop :=
  ∀ front back, cs = front ++ 'Σ' :: back →
    endsWord (front.reverse ++ before) (back ++ after) =
      endsWord (front.reverse ++ before') (back ++ after')

theorem lowercaseAt_eq_iff {before before' after after' : List Char} : lowercaseAt before c after =
    lowercaseAt before' c after' ↔ (c = 'Σ' → endsWord before after = endsWord before' after') := by
  unfold lowercaseAt
  split
  · next sigma => cases endsWord before after <;> cases endsWord before' after' <;> simp [sigma]
  · next other => simp [other]

theorem seesSame_cons {before before' rest after after' : List Char} :
    SeesSame before before' (c :: rest) after after' ↔
      (c = 'Σ' → endsWord before (rest ++ after) = endsWord before' (rest ++ after')) ∧
        SeesSame (c :: before) (c :: before') rest after after' := by
  refine ⟨fun same => ⟨?_, fun front back halves => ?_⟩, ?_⟩
  · rintro rfl
    exact same [] rest rfl
  · simpa using same (c :: front) back (by rw [halves, List.cons_append])
  · rintro ⟨here, later⟩ front back halves
    cases front with
    | nil =>
      obtain ⟨rfl, rfl⟩ := List.cons.inj halves
      exact here rfl
    | cons first front =>
      obtain ⟨rfl, rfl⟩ := List.cons.inj halves
      simpa using later front back rfl

/-- The image of a text is the same in two places if and only if its sigmas see the same there. -/
theorem lowercaseWithin_eq_iff {before before' cs after after' : List Char} :
    lowercaseWithin before cs after = lowercaseWithin before' cs after' ↔
      SeesSame before before' cs after after' := by
  induction cs generalizing before before' with
  | nil => simp [lowercaseWithin, SeesSame]
  | cons c rest ih =>
    rw [seesSame_cons, ← ih, ← lowercaseAt_eq_iff, lowercaseWithin, lowercaseWithin]
    refine ⟨fun same => List.append_inj same (length_lowercaseAt _ _ _ _ _), ?_⟩
    rintro ⟨first, others⟩
    rw [first, others]

theorem length_lowercaseWithin (before before' cs after after' : List Char) :
    (lowercaseWithin before cs after).length = (lowercaseWithin before' cs after').length := by
  induction cs generalizing before before' with
  | nil => rfl
  | cons c rest ih =>
    rw [lowercaseWithin, lowercaseWithin, List.length_append, List.length_append,
      length_lowercaseAt before before', ih]

/-- What is far off is seen only past characters that are looked across. -/
theorem meetsCased_append_congr {back back' : List Char} (same : meetsCased back = meetsCased back')
    (front : List Char) : meetsCased (front ++ back) = meetsCased (front ++ back') := by
  rw [meetsCased_append, meetsCased_append, same]

/-- A text looks at nothing around it but the letters with case that its ends meet. -/
theorem lowercaseWithin_congr {before before' after after' : List Char} (cs : List Char)
    (front : meetsCased before = meetsCased before') (back : meetsCased after = meetsCased after') :
    lowercaseWithin before cs after = lowercaseWithin before' cs after' := by
  refine lowercaseWithin_eq_iff.mpr fun first last _ => ?_
  rw [endsWord, endsWord, meetsCased_append_congr front, meetsCased_append_congr back]

theorem lowercaseWithin_ne_nil {cs : List Char} (filled : cs ≠ []) (before after : List Char) :
    lowercaseWithin before cs after ≠ [] := by
  cases cs with
  | nil => exact absurd rfl filled
  | cons c rest =>
    refine List.append_ne_nil_of_left_ne_nil ?_ _
    unfold lowercaseAt
    split
    · split <;> exact List.cons_ne_nil _ _
    · exact lowercaseChar_ne_nil c

/-! ## Words -/

/-- The image of a text without blanks has none. -/
theorem not_isBlank_of_mem_lowercaseWithin {before cs after : List Char}
    (plain : ∀ c ∈ cs, isBlank c = false) : ∀ c ∈ lowercaseWithin before cs after, isBlank c = false := by
  induction cs generalizing before with
  | nil => exact fun c member => nomatch member
  | cons c rest ih =>
    intro d member
    rcases List.mem_append.mp member with here | later
    · refine Bool.eq_false_iff.mpr fun blank => ?_
      unfold lowercaseAt at here
      split at here
      · split at here <;> rw [List.mem_singleton.mp here] at blank <;> exact absurd blank (by decide)
      · exact Bool.false_ne_true
          ((plain c List.mem_cons_self).symm.trans (isBlank_of_mem_lowercaseChar here blank))
    · exact ih (fun e inside => plain e (List.mem_cons_of_mem _ inside)) d later

/-- A blank keeps what stands in front of it apart from what stands behind it. -/
theorem lowercaseChars_append_blank (front back : List Char) {sep : Char} (blank : isBlank sep = true) :
    lowercaseChars (front ++ sep :: back) = lowercaseChars front ++ sep :: lowercaseChars back := by
  have separator := isSeparator_of_isBlank blank
  have alone : lowercaseWithin front.reverse [sep] back = [sep] := by
    have sigma : sep ≠ 'Σ' := by
      rintro rfl
      exact absurd blank (by decide)
    rw [lowercaseWithin, lowercaseAt, if_neg sigma, lowercaseChar_of_isBlank blank]
    rfl
  have parts := lowercaseChars_append front [sep] back
  rw [alone, List.append_assoc, List.append_assoc] at parts
  rw [lowercaseChars_eq front, lowercaseChars_eq back]
  refine parts.trans (congrArg₂ _ (lowercaseWithin_congr front rfl (separator.meetsCased back)) ?_)
  exact congrArg _ (lowercaseWithin_congr back (separator.meetsCased front.reverse) rfl)

/-- A text up to its first blank is a word, unless the blank is the first character. -/
theorem wordsOf_append_blank {front : List Char} (plain : ∀ c ∈ front, isBlank c = false) {sep : Char}
    (blank : isBlank sep = true) (back : List Char) :
    wordsOf (front ++ sep :: back) = wordsOf front ++ wordsOf back := by
  rw [wordsOf, List.splitOnP_append_cons_of_forall_mem plain sep blank, wordsOf, wordsOf,
    List.splitOnP_eq_singleton plain, List.filter_cons]
  split <;> rename_i filled <;> simp [filled]

theorem wordsOf_of_plain {cs : List Char} (plain : ∀ c ∈ cs, isBlank c = false) :
    wordsOf cs = if cs.isEmpty then [] else [cs] := by
  rw [wordsOf, List.splitOnP_eq_singleton plain]
  cases cs <;> rfl

/-- A text is lowered word by word. -/
theorem wordsOf_lowercaseChars (cs : List Char) :
    wordsOf (lowercaseChars cs) = (wordsOf cs).map lowercaseChars := by
  have first (front : List Char) (plain : ∀ c ∈ front, isBlank c = false) :
      wordsOf (lowercaseChars front) = (wordsOf front).map lowercaseChars := by
    have image : ∀ c ∈ lowercaseChars front, isBlank c = false := by
      rw [lowercaseChars_eq]
      exact not_isBlank_of_mem_lowercaseWithin plain
    rw [wordsOf_of_plain plain, wordsOf_of_plain image]
    cases front with
    | nil => rfl
    | cons c rest =>
      have filled : lowercaseChars (c :: rest) ≠ [] := by
        rw [lowercaseChars_eq]
        exact lowercaseWithin_ne_nil (List.cons_ne_nil _ _) _ _
      simp [filled]
  -- The induction takes off a word and the blank behind it.
  induction size : cs.length using Nat.strong_induction_on generalizing cs with
  | _ length ih =>
    have halves := List.takeWhile_append_dropWhile (p := fun c => !isBlank c) (l := cs)
    have plain : ∀ c ∈ cs.takeWhile fun c => !isBlank c, isBlank c = false :=
      fun c member => by simpa using List.mem_takeWhile_imp member
    cases rest : cs.dropWhile fun c => !isBlank c with
    | nil =>
      rw [rest, List.append_nil] at halves
      rw [← halves]
      exact first _ plain
    | cons sep back =>
      have blank : isBlank sep = true := by
        have stop := List.head?_dropWhile_not (fun c => !isBlank c) cs
        simpa [rest] using stop
      rw [rest] at halves
      have shorter : back.length < length := by
        rw [← size, ← halves, List.length_append, List.length_cons]
        omega
      rw [← halves, lowercaseChars_append_blank _ _ blank, wordsOf_append_blank plain blank,
        List.map_append, ← ih _ shorter back rfl, ← first _ plain]
      refine wordsOf_append_blank ?_ blank _
      rw [lowercaseChars_eq]
      exact not_isBlank_of_mem_lowercaseWithin plain

/-! ## Letters of ASCII -/

theorem lowercaseAfter_map_toLower (before cs : List Char) :
    lowercaseAfter (before.map Char.toLower) (cs.map Char.toLower) = lowercaseAfter before cs := by
  induction cs generalizing before with
  | nil => rfl
  | cons c rest ih =>
    have sigma : c.toLower = 'Σ' ↔ c = 'Σ' := by
      rcases toNat_toLower c with ⟨number, first, last⟩ | same
      · have other (d : Char) (small : d.toNat < 0x80) : d ≠ 'Σ' := by
          rintro rfl
          exact absurd small (by decide)
        exact iff_of_false (other _ (by omega)) (other _ (by omega))
      · rw [same]
    rw [List.map_cons, lowercaseAfter, lowercaseAfter, ← List.map_cons, ih, meetsCased_map_toLower,
      meetsCased_map_toLower, lowercaseChar_toLower]
    simp only [sigma]

/-- The case of letters of ASCII makes no difference to the image. -/
theorem lowercaseChars_map_toLower (cs : List Char) :
    lowercaseChars (cs.map Char.toLower) = lowercaseChars cs :=
  lowercaseAfter_map_toLower [] cs

end NoiseFilter.Text
