import NoiseFilter.Proofs.Pattern.LetterCase
import NoiseFilter.Proofs.Text.LowerCase
import NoiseFilter.Score.Basic

/-!
# Scores do not see the case of ASCII letters

Every number that a text is scored by is the same for the text in small letters (`measure_lower`). Sentences
and words end at characters that are no letters, so lowering a text lowers its sentences (`sentences_lower`);
phrases are made of folded sets; buzzwords are looked for in a text that is lowered whatever it was. Two
texts that are the same in small letters are scored alike (`score_of_lower_eq`).
-/

namespace NoiseFilter

namespace Text

/-- Lowering the letters of a text and cutting it go in either order. -/
theorem splitOnP_map_toLower {p : Char → Bool} (same : ∀ c, p c.toLower = p c) (cs : List Char) :
    (cs.map Char.toLower).splitOnP p = (cs.splitOnP p).map (List.map Char.toLower) := by
  induction cs with
  | nil => rfl
  | cons c rest ih =>
    obtain ⟨first, others, parts⟩ := List.exists_cons_of_ne_nil (List.splitOnP_ne_nil p rest)
    rw [List.map_cons, List.splitOnP_cons_eq_if_modifyHead, List.splitOnP_cons_eq_if_modifyHead, ih,
      same, parts]
    split <;> rfl

theorem wordsOf_map_toLower (cs : List Char) :
    wordsOf (cs.map Char.toLower) = (wordsOf cs).map (List.map Char.toLower) := by
  rw [wordsOf, splitOnP_map_toLower isBlank_toLower, List.filter_map, wordsOf]
  congr 1
  refine List.filter_congr fun word _ => ?_
  rw [Function.comp_apply, List.isEmpty_map]

theorem isAllBlank_lower (s : String) : isAllBlank (lower s) = isAllBlank s := by
  rw [isAllBlank, lower, String.toList_ofList, List.all_map, isAllBlank]
  exact congrArg _ (funext isBlank_toLower)

/-- A set without letters of ASCII does not see their case. -/
theorem toLower_of_no_letter (has : Char → Bool)
    (outside : ∀ c : Char, isLetterPoint c.toNat = true → has c = false) (c : Char) :
    has c.toLower = has c := by
  rcases toNat_toLower c with ⟨number, first, last⟩ | same
  · have capital : isLetterPoint c.toNat = true :=
      isLetterPoint_iff.mpr ⟨(0x41, 0x5A), by decide, first, last⟩
    have small : isLetterPoint c.toLower.toNat = true :=
      isLetterPoint_iff.mpr ⟨(0x61, 0x7A), by decide, by simp only [number]; omega⟩
    rw [outside _ small, outside _ capital]
  · rw [same]

theorem toLower_beq {d : Char} (other : isLetterPoint d.toNat = false) (c : Char) :
    (c.toLower == d) = (c == d) := by
  refine toLower_of_no_letter (· == d) (fun c letter => beq_eq_false_iff_ne.mpr ?_) c
  rintro rfl
  rw [other] at letter
  cases letter

end Text

namespace Score

/-! ## Sentences -/

theorem isTerminator_toLower (c : Char) : isTerminator c.toLower = isTerminator c := by
  simp only [isTerminator, Text.toLower_beq (d := '.') (by decide),
    Text.toLower_beq (d := '!') (by decide),
    Text.toLower_beq (d := '?') (by decide)]

theorem sentences_nil {s : List Char} (none_ : s.dropWhile isTerminator = []) : sentences s = [] := by
  rw [sentences]
  split
  · rfl
  · next there => rw [none_] at there; cases there

theorem sentences_cons {s rest : List Char} {c : Char} (there : s.dropWhile isTerminator = c :: rest) :
    sentences s =
      if (rest.dropWhile (!isTerminator ·)).isEmpty then []
      else (c :: rest.takeWhile (!isTerminator ·) ++
        (rest.dropWhile (!isTerminator ·)).takeWhile isTerminator) ::
          sentences ((rest.dropWhile (!isTerminator ·)).dropWhile isTerminator) := by
  rw [sentences]
  split
  · next none_ => rw [there] at none_; cases none_
  · next there' =>
    rw [there] at there'
    cases there'
    rfl

/-- Lowering a text lowers its sentences. -/
theorem sentences_map_toLower (s : List Char) :
    sentences (s.map Char.toLower) = (sentences s).map (List.map Char.toLower) := by
  have ends : isTerminator ∘ Char.toLower = isTerminator := funext isTerminator_toLower
  have inside : (!isTerminator ·) ∘ Char.toLower = (!isTerminator ·) :=
    funext fun c => congrArg _ (isTerminator_toLower c)
  -- The induction takes off a sentence and its terminators.
  induction size : s.length using Nat.strong_induction_on generalizing s with
  | _ length ih =>
    have front : (s.map Char.toLower).dropWhile isTerminator =
        (s.dropWhile isTerminator).map Char.toLower := by rw [List.dropWhile_map, ends]
    cases there : s.dropWhile isTerminator with
    | nil =>
      rw [there] at front
      rw [sentences_nil there, sentences_nil front, List.map_nil]
    | cons c rest =>
      rw [there, List.map_cons] at front
      have shorter : ((rest.dropWhile (!isTerminator ·)).dropWhile isTerminator).length < length := by
        have first := congrArg List.length there ▸ (s.dropWhile_suffix isTerminator).length_le
        have second := (rest.dropWhile_suffix (!isTerminator ·)).length_le
        have third := ((rest.dropWhile (!isTerminator ·)).dropWhile_suffix isTerminator).length_le
        rw [List.length_cons] at first
        omega
      rw [sentences_cons there, sentences_cons front, List.dropWhile_map, List.takeWhile_map, inside,
        List.isEmpty_map, List.dropWhile_map, List.takeWhile_map, ends, ih _ shorter _ rfl]
      split
      · rfl
      · simp only [List.map_cons, List.map_append]

theorem sentenceLength_map_toLower (s : List Char) :
    sentenceLength (s.map Char.toLower) = sentenceLength s := by
  rw [sentenceLength, Text.wordsOf_map_toLower, List.length_map, sentenceLength]

/-! ## Phrases -/

theorem ignoresCase_phrase (s : String) : (phrase s).IgnoresCase := by
  rw [phrase]
  induction s.toList with
  | nil => trivial
  | cons c rest ih => exact ⟨Pattern.CharSet.has_foldCase_toLower _, ih⟩

-- The text of the table is longer than the default bound on nested terms.
set_option maxRecDepth 20000 in
/-- No letter of ASCII is a digit. -/
theorem avoids_digits : Text.Category.ndTable.avoids Text.letterSpans = true := by
  unfold Text.Category.ndTable Text.RangeTable.ofString Text.tableWords
  rw [String.toList_ofList]
  decide +kernel

theorem ignoresCase_digit : (Pattern.set (Pattern.LetterClass.set .digit)).IgnoresCase :=
  Text.toLower_of_no_letter _ fun _ letter =>
    Text.RangeTable.contains_eq_false avoids_digits (Text.isLetterPoint_iff.mp letter)

theorem ignoresCase_of_mem_stockPhrases {p : Pattern} (member : p ∈ stockPhrases) : p.IgnoresCase := by
  simp only [stockPhrases, List.mem_cons, List.not_mem_nil, or_false] at member
  rcases member with rfl | rfl | rfl | rfl | rfl | rfl
  · exact ⟨ignoresCase_phrase _, ignoresCase_digit, ignoresCase_phrase _, ignoresCase_phrase _,
      ignoresCase_phrase _, ignoresCase_phrase _⟩
  all_goals exact ignoresCase_phrase _

/-! ## Words and characters -/

theorem lowerWords_map_toLower (s : List Char) : lowerWords (s.map Char.toLower) = lowerWords s := by
  rw [lowerWords, Text.lowercaseChars_map_toLower, lowerWords]

theorem countP_map_toLower {p : Char → Bool} (same : ∀ c, p c.toLower = p c) (s : List Char) :
    (s.map Char.toLower).countP p = s.countP p := by
  rw [List.countP_map]
  exact congrArg (s.countP ·) (funext same)

theorem isDash_toLower (c : Char) : isDash c.toLower = isDash c :=
  Text.toLower_beq (by decide) c

theorem isCurlyQuote_toLower (c : Char) : isCurlyQuote c.toLower = isCurlyQuote c := by
  simp only [isCurlyQuote, Text.toLower_beq (d := '\u201C') (by decide),
    Text.toLower_beq (d := '\u201D') (by decide),
    Text.toLower_beq (d := '\u2018') (by decide),
    Text.toLower_beq (d := '\u2019') (by decide)]

theorem isStraightQuote_toLower (c : Char) : isStraightQuote c.toLower = isStraightQuote c := by
  simp only [isStraightQuote, Text.toLower_beq (d := '\'') (by decide),
    Text.toLower_beq (d := '"') (by decide)]

/-! ## Scores -/

/-- A text in small letters measures what the text does. -/
theorem measure_lower (text : String) : measure (Text.lower text) = measure text := by
  have lengths : (sentences (text.toList.map Char.toLower)).map sentenceLength =
      (sentences text.toList).map sentenceLength := by
    rw [sentences_map_toLower, List.map_map]
    exact List.map_congr_left fun s _ => sentenceLength_map_toLower s
  have phrases : stockPhrases.filter (·.occursIn (Text.lower text)) =
      stockPhrases.filter (·.occursIn text) :=
    List.filter_congr fun p member => Pattern.occursIn_lower (ignoresCase_of_mem_stockPhrases member) text
  have chars : (Text.lower text).toList = text.toList.map Char.toLower := by
    rw [Text.lower, String.toList_ofList]
  simp only [measure, phrases, chars, lengths, lowerWords_map_toLower, List.length_map,
    countP_map_toLower isDash_toLower, countP_map_toLower isCurlyQuote_toLower,
    countP_map_toLower isStraightQuote_toLower]

/-- Texts that differ only in the case of letters of ASCII score alike under all thresholds: the same
points, the same mark and the same signals, and one of them is too blank to be scored if the other is. -/
theorem score_of_lower_eq {a b : String} (same : Text.lower a = Text.lower b) (t : Thresholds) :
    score t a = score t b ∧
      ((∃ e, scoreChecked t a = .error e) ↔ ∃ e, scoreChecked t b = .error e) := by
  have measures : measure a = measure b := by rw [← measure_lower a, same, measure_lower]
  have blanks : Text.isAllBlank a = Text.isAllBlank b := by
    rw [← Text.isAllBlank_lower a, same, Text.isAllBlank_lower]
  have checked : scoreChecked t a = scoreChecked t b := by
    rw [scoreChecked, measures, blanks, scoreChecked]
  rw [score, checked, score]
  exact ⟨rfl, Iff.rfl⟩

/-- A post and the same post shouted, with a sigma behind letters of ASCII. -/
theorem score_shouted : Text.lower "AΣ. Follow me!" = Text.lower "aΣ. FOLLOW ME!" ∧
    Text.isAllBlank "AΣ. Follow me!" = false ∧
    score {} "AΣ. Follow me!" = score {} "aΣ. FOLLOW ME!" :=
  have same : Text.lower "AΣ. Follow me!" = Text.lower "aΣ. FOLLOW ME!" := by decide
  ⟨same, by decide, (score_of_lower_eq same {}).1⟩

end Score

end NoiseFilter
