import NoiseFilter.Proofs.Extended.Scan
import NoiseFilter.Proofs.Selector.Grammar

/-!
# Names that hold no marks

A backslash makes any character part of a name, but the scanners behind extended selectors know
backslashes in quotes only. Where no name holds a character that they go by, the scanners and the
reader of selectors see the same text. `namesAvoid` is that condition, on the text itself.
-/

namespace NoiseFilter.Extended

open Selector (isNameChar isNameStart scanName)
open Text (isBlank skipBlanks)

/-- The characters that the scanners go by: quotes, parentheses, brackets and the comma. -/
def isMark (c : Char) : Bool := isQuote c || "()[],".toList.contains c

/-- Whether no name outside quotes holds a bad character, behind a backslash or by itself; `quote` is
the quote that is open. -/
def namesAvoid (bad : Char → Bool) (quote : Option Char) : List Char → Bool
  | [] => true
  | c :: s =>
    if c = '\\' then
      match s with
      | [] => true
      | d :: s => (quote.isSome || !bad d) && namesAvoid bad quote s
    else
      match quote with
      | some q => namesAvoid bad (if c = q then none else quote) s
      | none =>
        if isQuote c then namesAvoid bad (some c) s
        else !(isNameChar c && bad c) && namesAvoid bad none s

/-- No name in the text holds a bad character. -/
def Avoids (bad : Char → Bool) (s : List Char) : Prop := namesAvoid bad none s = true

instance (bad : Char → Bool) (s : List Char) : Decidable (Avoids bad s) :=
  inferInstanceAs (Decidable (_ = true))

namespace Avoids

variable {bad : Char → Bool} {c d q : Char} {s t r body name : List Char}

theorem escape_iff : Avoids bad ('\\' :: d :: s) ↔ bad d = false ∧ Avoids bad s := by
  rw [Avoids, namesAvoid.eq_def]
  simp [Avoids]

theorem char_iff (notEscape : c ≠ '\\') (plain : isQuote c = false) :
    Avoids bad (c :: s) ↔ (isNameChar c = true → bad c = false) ∧ Avoids bad s := by
  rw [Avoids, namesAvoid.eq_def]
  simp [notEscape, plain, Avoids, Bool.or_eq_true, imp_iff_not_or]

/-- A text that avoids more avoids less. -/
theorem mono {less : Char → Bool} (weaker : ∀ c, less c = true → bad c = true)
    (avoids : Avoids bad s) : Avoids less s := by
  have still {c : Char} (good : bad c = false) : less c = false :=
    Bool.eq_false_iff.mpr fun bad' => by rw [weaker c bad'] at good; cases good
  have inside : ∀ quote s, namesAvoid bad quote s = true → namesAvoid less quote s = true := by
    intro quote s
    fun_induction namesAvoid less quote s with
    | case1 => exact fun _ => rfl
    | case2 => exact fun _ => rfl
    | case3 quote d s ih =>
      intro avoids
      rw [namesAvoid.eq_def] at avoids
      simp only [if_true, Bool.and_eq_true, Bool.or_eq_true, Bool.not_eq_true'] at avoids ⊢
      exact ⟨avoids.1.imp_right still, ih avoids.2⟩
    | case4 c s notEscape q ih =>
      intro avoids
      rw [namesAvoid.eq_def] at avoids
      exact ih (by simpa [notEscape] using avoids)
    | case5 c s notEscape quote ih =>
      intro avoids
      rw [namesAvoid.eq_def] at avoids
      exact ih (by simpa [notEscape, quote] using avoids)
    | case6 c s notEscape plain ih =>
      intro avoids
      rw [namesAvoid.eq_def] at avoids
      simp only [notEscape, plain, Bool.false_eq_true, if_false, Bool.and_eq_true,
        Bool.not_eq_true', Bool.and_eq_false_iff] at avoids ⊢
      exact ⟨avoids.1.imp_right still, ih avoids.2⟩
  exact inside _ _ avoids

theorem of_quoted (quote : isQuote q = true) (avoids : Avoids bad (q :: s))
    (scan : scanDelimited q s = some (body, r)) : Avoids bad r := by
  have inside : ∀ s body r, namesAvoid bad (some q) s = true →
      scanDelimited q s = some (body, r) → Avoids bad r := by
    intro s
    fun_induction scanDelimited q s with
    | case1 => intro _ _ _ scan; cases scan
    | case2 => intro _ _ _ scan; cases scan
    | case3 d rest ih =>
      intro body r avoids scan
      obtain ⟨⟨inner, u⟩, found, same⟩ := Option.map_eq_some_iff.mp scan
      cases same
      rw [namesAvoid.eq_def] at avoids
      exact ih _ _ (by simpa using avoids) found
    | case4 rest notEscape =>
      intro body r avoids scan
      cases scan
      rw [namesAvoid.eq_def] at avoids
      simpa [notEscape, Avoids] using avoids
    | case5 c rest notEscape notQuote ih =>
      intro body r avoids scan
      obtain ⟨⟨inner, u⟩, found, same⟩ := Option.map_eq_some_iff.mp scan
      cases same
      rw [namesAvoid.eq_def] at avoids
      exact ih _ _ (by simpa [notEscape, notQuote] using avoids) found
  have notEscape : q ≠ '\\' := by rintro rfl; cases quote
  rw [Avoids, namesAvoid.eq_def] at avoids
  exact inside _ _ _ (by simpa [notEscape, quote] using avoids) scan

end Avoids

/-! ## Characters -/

theorem eq_of_isMark {c : Char} (mark : isMark c = true) :
    c = '"' ∨ c = '\'' ∨ c = '(' ∨ c = ')' ∨ c = '[' ∨ c = ']' ∨ c = ',' := by
  simpa [isMark, isQuote, or_assoc] using mark

/-- What is false of every mark makes a character unmarked. -/
theorem isMark_eq_false {c : Char} (test : Char → Bool) (holds : test c = true)
    (marks : "\"'()[],".toList.any test = false) : isMark c = false := by
  refine Bool.eq_false_iff.mpr fun mark => List.any_eq_false.mp marks c ?_ holds
  rcases eq_of_isMark mark with rfl | rfl | rfl | rfl | rfl | rfl | rfl <;> decide

theorem isQuote_eq_false {c : Char} (unmarked : isMark c = false) : isQuote c = false :=
  (Bool.or_eq_false_iff.mp unmarked).1

theorem isMark_of_isBlank {c : Char} (blank : isBlank c = true) : isMark c = false :=
  isMark_eq_false isBlank blank (by decide)

theorem ne_of_isBlank {c d : Char} (blank : isBlank c = true) (other : isBlank d = false) :
    c ≠ d := by
  rintro rfl
  rw [blank] at other
  cases other

theorem isMark_of_isNameChar {c : Char} (name : isNameChar c = true) : isMark c = false :=
  isMark_eq_false isNameChar name (by decide)

theorem ne_of_isNameChar {c d : Char} (name : isNameChar c = true) (other : isNameChar d = false) :
    c ≠ d := by
  rintro rfl
  rw [name] at other
  cases other

/-! ## Names -/

section

variable {bad : Char → Bool} {c : Char} {s t r name word front : List Char}

theorem Avoids.of_append_blank {b : List Char} (blank : ∀ c ∈ b, isBlank c = true) :
    Avoids bad (b ++ s) → Avoids bad s := by
  induction b with
  | nil => exact id
  | cons c b ih =>
    rw [List.forall_mem_cons] at blank
    intro avoids
    rw [List.cons_append, Avoids.char_iff (ne_of_isBlank blank.1 rfl)
      (isQuote_eq_false (isMark_of_isBlank blank.1))] at avoids
    exact ih blank.2 avoids.2

/-- A text is blanks, and what is left when they are skipped. -/
theorem exists_skipBlanks (s : List Char) :
    ∃ b, (∀ c ∈ b, isBlank c = true) ∧ s = b ++ skipBlanks s :=
  ⟨s.takeWhile isBlank, fun _ => List.mem_takeWhile_imp, (List.takeWhile_append_dropWhile ..).symm⟩

theorem suffix_skipBlanks (s : List Char) : skipBlanks s <:+ s := List.dropWhile_suffix _

/-- A text without backslashes and quotes avoids what none of its name characters are. -/
theorem Avoids.of_forall
    (plain : ∀ c ∈ s, c ≠ '\\' ∧ isQuote c = false ∧ (isNameChar c = true → bad c = false)) :
    Avoids bad s := by
  induction s with
  | nil => rfl
  | cons c s ih =>
    rw [List.forall_mem_cons] at plain
    exact (Avoids.char_iff plain.1.1 plain.1.2.1).mpr ⟨plain.1.2.2, ih plain.2⟩

theorem Avoids.skipBlanks (avoids : Avoids bad s) : Avoids bad (skipBlanks s) := by
  obtain ⟨b, blank, halves⟩ := exists_skipBlanks s
  rw [halves] at avoids
  exact avoids.of_append_blank blank

theorem Avoids.of_scanName (avoids : Avoids bad s) (scan : scanName s = some (name, r)) :
    Avoids bad r := by
  fun_induction scanName s generalizing name r with
  | case1 => cases scan; exact avoids
  | case2 => cases scan
  | case3 d rest ih =>
    obtain ⟨⟨inner, u⟩, found, same⟩ := Option.map_eq_some_iff.mp scan
    cases same
    exact ih (Avoids.escape_iff.mp avoids).2 found
  | case4 c rest notEscape char ih =>
    obtain ⟨⟨inner, u⟩, found, same⟩ := Option.map_eq_some_iff.mp scan
    cases same
    have plain := isQuote_eq_false (isMark_of_isNameChar char)
    exact ih ((Avoids.char_iff notEscape plain).mp avoids).2 found
  | case5 => cases scan; exact avoids

theorem suffix_of_scanName (scan : scanName s = some (name, r)) : r <:+ s := by
  fun_induction scanName s generalizing name r with
  | case1 => cases scan; exact List.suffix_refl _
  | case2 => cases scan
  | case3 d rest ih =>
    obtain ⟨⟨inner, u⟩, found, same⟩ := Option.map_eq_some_iff.mp scan
    cases same
    exact ((ih found).trans (List.suffix_cons d _)).trans (List.suffix_cons _ _)
  | case4 c rest notEscape char ih =>
    obtain ⟨⟨inner, u⟩, found, same⟩ := Option.map_eq_some_iff.mp scan
    cases same
    exact (ih found).trans (List.suffix_cons c _)
  | case5 => cases scan; exact List.suffix_refl _

/-- A name ends in front of a character that belongs to no name. -/
theorem isNameChar_of_scanName (scan : scanName s = some (name, r)) :
    ∀ c ∈ r.head?, isNameChar c = false := by
  fun_induction scanName s generalizing name r with
  | case1 => cases scan; simp
  | case2 => cases scan
  | case3 d rest ih =>
    obtain ⟨⟨inner, u⟩, found, same⟩ := Option.map_eq_some_iff.mp scan
    cases same
    exact ih found
  | case4 c rest notEscape char ih =>
    obtain ⟨⟨inner, u⟩, found, same⟩ := Option.map_eq_some_iff.mp scan
    cases same
    exact ih found
  | case5 c rest notEscape notChar =>
    cases scan
    simpa using notChar

/-- Characters of names without a backslash among them are read as they are. -/
theorem scanName_append (plain : ∀ c ∈ word, isNameChar c = true ∧ c ≠ '\\')
    (stop : ∀ c ∈ r.head?, isNameChar c = false) : scanName (word ++ r) = some (word, r) := by
  induction word with
  | nil =>
    cases r with
    | nil => rfl
    | cons c r =>
      have notName : isNameChar c = false := stop c rfl
      have notEscape : c ≠ '\\' := by rintro rfl; cases notName
      rw [List.nil_append, Selector.scanName.eq_def]
      simp [notEscape, notName]
  | cons c word ih =>
    rw [List.forall_mem_cons] at plain
    rw [List.cons_append, Selector.scanName.eq_def]
    simp [plain.1, ih plain.2]

end

end NoiseFilter.Extended
