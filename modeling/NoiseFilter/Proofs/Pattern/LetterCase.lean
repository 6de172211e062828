import NoiseFilter.Pattern.Basic
import NoiseFilter.Proofs.Text.Cased

/-!
# Patterns that do not see the case of ASCII letters

A pattern matches a text and the same text in small letters alike if all its sets do (`IgnoresCase`). Sets
made by folding do: the variants of a letter of ASCII are one set of the table, whichever case it is looked
up in (`caseVariants_toLower`), and a set is found because the entries stand in order.
-/

namespace NoiseFilter

namespace Text

/-! ## Variants of letters of ASCII -/

/-- The variants of the letter with this place in the alphabet. K and S have one more each. -/
def letterSet (k : Nat) : List Nat :=
  (65 + k) :: (97 + k) :: if k = 10 then [0x212A] else if k = 18 then [0x17F] else []

/-- Whether this is the code point of a letter of ASCII. -/
def isLetterPoint (n : Nat) : Bool := letterSpans.any fun span => span.1 ≤ n && n ≤ span.2

theorem isLetterPoint_iff {n : Nat} :
    isLetterPoint n = true ↔ ∃ span ∈ letterSpans, span.1 ≤ n ∧ n ≤ span.2 := by
  simp only [isLetterPoint, List.any_eq_true, Bool.and_eq_true, decide_eq_true_eq]

-- The text of the table is longer than the default bound on nested terms.
set_option maxRecDepth 20000 in
/-- Letters of ASCII are in one set each. -/
theorem caseSets_letters : caseSets.filter (·.any isLetterPoint) = (List.range 26).map letterSet := by
  unfold caseSets tableWords caseSetText
  rw [String.toList_ofList]
  decide +kernel

/-- A set that holds a letter is that of the letter. -/
theorem eq_letterSet {set : List Nat} (known : set ∈ caseSets) {n k : Nat} (place : k < 26)
    (letter : n = 65 + k ∨ n = 97 + k) (inside : n ∈ set) : set = letterSet k := by
  have point : isLetterPoint n = true := by
    refine isLetterPoint_iff.mpr ?_
    rcases letter with capital | small
    · exact ⟨(0x41, 0x5A), by decide, by simp only; omega⟩
    · exact ⟨(0x61, 0x7A), by decide, by simp only; omega⟩
  have there : set ∈ (List.range 26).map letterSet := by
    rw [← caseSets_letters, List.mem_filter]
    exact ⟨known, List.any_eq_true.mpr ⟨n, inside, point⟩⟩
  obtain ⟨k', place', rfl⟩ := List.mem_map.mp there
  rw [List.mem_range] at place'
  have more : n ∉ (if k' = 10 then [0x212A] else if k' = 18 then [0x17F] else []) := by
    split
    · simp only [List.mem_singleton]
      omega
    · split
      · simp only [List.mem_singleton]
        omega
      · exact List.not_mem_nil
  rw [letterSet, List.mem_cons, List.mem_cons, or_iff_left more] at inside
  congr 1
  omega

/-- The entries of a table of sets stand in order. -/
theorem ordered_tableOf (sets : List (List Nat)) (n : Nat) :
    Ordered (tableOf sets) fun entry => placeIn n entry.1 entry.1 := by
  rw [tableOf]
  generalize (sets.flatMap fun set => set.map fun n => (n, set)) = entries
  have sorted : (entries.mergeSort fun a b => a.1 ≤ b.1).Pairwise fun a b => decide (a.1 ≤ b.1) = true := by
    refine List.pairwise_mergeSort (fun a b c first second => ?_) (fun a b => ?_) entries
    · simp only [decide_eq_true_eq] at *
      omega
    · simp only [Bool.or_eq_true, decide_eq_true_eq]
      omega
  intro i j a b less there there'
  rw [List.getElem?_toArray] at there there'
  obtain ⟨inside, rfl⟩ := List.getElem?_eq_some_iff.mp there
  obtain ⟨inside', rfl⟩ := List.getElem?_eq_some_iff.mp there'
  have order := of_decide_eq_true (List.pairwise_iff_getElem.mp sorted i j inside inside' less)
  simp only [placeIn_eq_lt_iff, placeIn_eq_gt_iff]
  omega

/-- The variants of a character that is in a set are such a set. -/
theorem variantsIn_of_mem {sets : List (List Nat)} {set : List Nat} {c : Char} (known : set ∈ sets)
    (inside : c.toNat ∈ set) :
    ∃ set ∈ sets, c.toNat ∈ set ∧ variantsIn (tableOf sets) c = set.map Char.ofNat := by
  have entry : (c.toNat, set) ∈ tableOf sets := mem_tableOf.mpr ⟨set, known, _, inside, rfl⟩
  obtain ⟨i, below, here⟩ := Array.getElem_of_mem entry
  have hit : placeIn c.toNat c.toNat c.toNat = .eq := placeIn_eq_iff.mpr ⟨Nat.le_refl _, Nat.le_refl _⟩
  have found := isSome_findBetween (ordered_tableOf sets c.toNat) (Nat.zero_le i) below (Nat.le_refl _)
    ((Array.getElem?_eq_getElem below).trans (congrArg some here)) hit
  obtain ⟨⟨n, set'⟩, found⟩ := Option.isSome_iff_exists.mp found
  obtain ⟨set'', known', m, inside', same⟩ := mem_tableOf.mp (mem_of_findEntry found)
  cases same
  have place := place_of_findEntry found
  have number := placeIn_eq_iff.mp place
  obtain rfl : n = c.toNat := Nat.le_antisymm number.1 number.2
  refine ⟨set', known', inside', ?_⟩
  rw [variantsIn, findEntry, found]

theorem caseVariants_letter {c : Char} {k : Nat} (place : k < 26)
    (letter : c.toNat = 65 + k ∨ c.toNat = 97 + k) : caseVariants c = (letterSet k).map Char.ofNat := by
  have known : letterSet k ∈ caseSets := by
    have there : letterSet k ∈ (List.range 26).map letterSet :=
      List.mem_map_of_mem (List.mem_range.mpr place)
    rw [← caseSets_letters] at there
    exact (List.mem_filter.mp there).1
  have inside : c.toNat ∈ letterSet k := by
    rcases letter with capital | small
    · exact List.mem_cons.mpr (.inl capital)
    · exact List.mem_cons_of_mem _ (List.mem_cons.mpr (.inl small))
  obtain ⟨set, known, inside, whole⟩ := variantsIn_of_mem known inside
  rw [caseVariants, caseTable, whole, eq_letterSet known place letter inside]

/-- A letter of ASCII has the same variants in either case. -/
theorem caseVariants_toLower (c : Char) : caseVariants c.toLower = caseVariants c := by
  rcases toNat_toLower c with ⟨number, first, last⟩ | same
  · obtain ⟨k, place⟩ := Nat.exists_eq_add_of_le first
    rw [caseVariants_letter (k := k) (by omega) (.inl place),
      caseVariants_letter (k := k) (by omega) (.inr (by omega))]
  · rw [same]

end Text

namespace Pattern

/-! ## Patterns -/

/-- No set, no character and no anchor of a pattern tells a letter of ASCII from its other case. -/
def IgnoresCase : Pattern → Prop
  | empty => True
  | char d => ∀ c : Char, (c.toLower == d) = (c == d)
  | set s => ∀ c, s.has c.toLower = s.has c
  | anchor a => ∀ before after, a.holds (before.map Char.toLower) (after.map Char.toLower) =
      a.holds before after
  | sequence first second => first.IgnoresCase ∧ second.IgnoresCase
  | choice left right => left.IgnoresCase ∧ right.IgnoresCase
  | many body _ _ => body.IgnoresCase

/-- A folded set does not tell the cases of a letter apart. -/
theorem CharSet.has_foldCase_toLower (a : CharSet) (c : Char) :
    a.foldCase.has c.toLower = a.foldCase.has c := by
  rw [CharSet.foldCase]
  simp only [Text.caseVariants_toLower]

/-! ## Matching -/

variable {text : Array Char}

theorem stepOver_map_toLower (has : Char → Bool) (same : ∀ c, has c.toLower = has c)
    (places : List Nat) : stepOver (text.map Char.toLower) has places = stepOver text has places := by
  refine List.filterMap_congr fun i _ => ?_
  rw [Array.getElem?_map]
  cases text[i]? with
  | none => rfl
  | some c => simp only [Option.map_some, same]

theorem charBefore_map_toLower (i : Nat) :
    charBefore (text.map Char.toLower) i = (charBefore text i).map Char.toLower := by
  cases i with
  | zero => rfl
  | succ i => exact Array.getElem?_map ..

/-- Matches end at the same places, in whatever case the letters of the text are. -/
theorem ends_map_toLower {p : Pattern} (ignores : p.IgnoresCase) (places : List Nat) :
    p.ends (text.map Char.toLower) places = p.ends text places := by
  induction p generalizing places with
  | empty => rfl
  | char d => exact stepOver_map_toLower (· == d) ignores places
  | set s => exact stepOver_map_toLower s.has ignores places
  | anchor a =>
    refine List.filter_congr fun i _ => ?_
    rw [charBefore_map_toLower, Array.getElem?_map, ignores]
  | sequence first second ihFirst ihSecond => rw [ends, ends, ihFirst ignores.1, ihSecond ignores.2]
  | choice left right ihLeft ihRight => rw [ends, ends, ihLeft ignores.1, ihRight ignores.2]
  | many body least most ih =>
    have same : body.ends (text.map Char.toLower) = body.ends text := funext (ih ignores)
    simp only [ends, same, Array.size_map]

/-- A pattern that ignores case matches a text as it matches the text in small letters. -/
theorem occursIn_lower {p : Pattern} (ignores : p.IgnoresCase) (text : String) :
    p.occursIn (Text.lower text) = p.occursIn text := by
  have chars : (Text.lower text).toList.toArray = text.toList.toArray.map Char.toLower := by
    rw [Text.lower, String.toList_ofList, List.map_toArray]
  rw [occursIn, occursIn, chars, Array.size_map, ends_map_toLower ignores]

end Pattern

end NoiseFilter
