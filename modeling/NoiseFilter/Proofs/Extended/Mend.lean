import Mathlib.Data.List.Forall2
import Mathlib.Logic.Relation
import NoiseFilter.Proofs.Extended.Tidy

/-!
# What tidying mends

Where text tests were all that stood in an alternative, or on the outer side of a combinator at its end,
nothing is left when they are taken out. The selector that is meant has any element there (`fill`).
Logic that held nothing but tests is meant to go with them (`Cleared`). Tidying what is left gives
the same text as tidying what is meant (`tidy_eq`).
-/

namespace NoiseFilter.Extended

open Selector (Reads)
open Text (isBlank skipBlanks trimChars)

/-! ## Alternatives -/

/-- How many parentheses and brackets are open behind a text; nothing if a comma stands outside them. -/
def levelAfter : Nat → List Char → Option Nat
  | depth, [] => some depth
  | depth, c :: s =>
    if c = '(' ∨ c = '[' then levelAfter (depth + 1) s
    else if c = ')' ∨ c = ']' then levelAfter (depth - 1) s
    else if c = ',' ∧ depth = 0 then none
    else levelAfter depth s

/-- A text that ends on the level on which it begins, with no commas there. -/
def IsAlternative (s : List Char) : Prop := levelAfter 0 s = some 0

instance (s : List Char) : Decidable (IsAlternative s) := inferInstanceAs (Decidable (_ = _))

/-- A text without quotes. -/
def Unquoted (s : List Char) : Prop := ∀ c ∈ s, isQuote c = false

section

variable {s t r part : List Char} {parts : List (List Char)} {depth depth' : Nat}

theorem levelAfter_append (s t : List Char) (depth : Nat) :
    levelAfter depth (s ++ t) = (levelAfter depth s).bind (levelAfter · t) := by
  fun_induction levelAfter depth s <;> simp_all [levelAfter]

/-- A text is passed over up to its level. -/
theorem splitTopLevel_append (unquoted : Unquoted s) (level : levelAfter depth s = some depth') :
    splitTopLevel depth part (s ++ r) = splitTopLevel depth' (part ++ s) r := by
  fun_induction levelAfter depth s generalizing part with
  | case1 depth =>
    cases level
    rw [List.append_nil]
    rfl
  | case2 depth c s opens ih =>
    rw [List.cons_append, splitTopLevel_open opens, ih (fun d member => unquoted d (by simp [member])) level,
      List.append_assoc]
    rfl
  | case3 depth c s notOpen closes ih =>
    have plain := unquoted c (by simp)
    rw [List.cons_append, splitTopLevel, if_neg (by simp [plain]), if_neg notOpen, if_pos closes,
      ih (fun d member => unquoted d (by simp [member])) level, List.append_assoc]
    rfl
  | case4 => cases level
  | case5 depth c s notOpen notClose noComma ih =>
    have plain := unquoted c (by simp)
    rw [List.cons_append, splitTopLevel, if_neg (by simp [plain]), if_neg notOpen, if_neg notClose,
      if_neg noComma, ih (fun d member => unquoted d (by simp [member])) level, List.append_assoc]
    rfl

/-- Alternatives with commas between them are found again. -/
theorem splitTopLevel_intercalate (filled : parts ≠ [])
    (alternatives : ∀ s ∈ parts, Unquoted s ∧ IsAlternative s) :
    splitTopLevel 0 [] ([','].intercalate parts) = parts := by
  induction parts with
  | nil => exact absurd rfl filled
  | cons s parts ih =>
    rw [List.forall_mem_cons] at alternatives
    obtain ⟨⟨unquoted, level⟩, rest⟩ := alternatives
    cases parts with
    | nil =>
      have whole : splitTopLevel 0 [] (s ++ []) = splitTopLevel 0 ([] ++ s) [] :=
        splitTopLevel_append unquoted level
      rw [List.append_nil, List.nil_append] at whole
      rw [List.intercalate_singleton, whole, splitTopLevel]
    | cons t parts =>
      have more := ih (List.cons_ne_nil _ _) rest
      rw [List.intercalate_cons_of_ne_nil (List.cons_ne_nil _ _), List.append_assoc,
        splitTopLevel_append unquoted level, List.singleton_append, splitTopLevel_comma, more]
      rfl

end

/-! ## Open ends -/

/-- Any element in front of a text that begins with a combinator. -/
def opening (s : List Char) : List Char :=
  if s.head?.any isCombinatorChar then ['*', ' '] else []

/-- Any element behind a text that ends in a combinator. -/
def closing (s : List Char) : List Char :=
  if s.getLast?.any isCombinatorChar then [' ', '*'] else []

/-- Any element, where nothing but blanks is left, and on the outer side of a combinator that has lost
it. -/
def fill (s : List Char) : List Char :=
  if trimChars s = [] then ['*'] else opening (trimChars s) ++ s ++ closing (trimChars s)

section

variable {s t lead core trail : List Char} {pending : Bool}

theorem closed_of_unquoted (unquoted : Unquoted s) : Closed s := by
  induction s with
  | nil => exact .nil
  | cons c s ih => exact .char (unquoted c (by simp)) (ih fun d member => unquoted d (by simp [member]))

/-- Blanks are pending until something comes. -/
theorem collapse_blanks {b : List Char} (blank : ∀ c ∈ b, isBlank c = true) :
    collapse true (.outside true) (b ++ s) = collapse true (.outside true) s := by
  induction b with
  | nil => rfl
  | cons c b ih =>
    rw [List.forall_mem_cons] at blank
    rw [List.cons_append, collapse_blank blank.1, ih blank.2]

/-- Behind a text that does not end in a blank nothing is pending. -/
theorem collapse_append (unquoted : Unquoted s) (filled : ∃ c, s.getLast? = some c ∧ isBlank c = false) :
    collapse true (.outside pending) (s ++ t) =
      collapse true (.outside pending) s ++ collapse true (.outside false) t := by
  induction s generalizing pending with
  | nil => simp at filled
  | cons c s ih =>
    obtain ⟨d, last, filled⟩ := filled
    have plain := unquoted c (by simp)
    cases s with
    | nil =>
      obtain rfl : c = d := by simpa using last
      rw [List.singleton_append, collapse_filled filled, collapse_filled filled]
      simp [plain, collapse]
    | cons e s =>
      have more (pending : Bool) : collapse true (.outside pending) (e :: s ++ t) =
          collapse true (.outside pending) (e :: s) ++ collapse true (.outside false) t :=
        ih (fun f member => unquoted f (by simp [member])) ⟨d, by simpa using last, filled⟩
      cases first : isBlank c with
      | true => rw [List.cons_append, collapse_blank first, collapse_blank first, more]
      | false =>
        rw [List.cons_append, collapse_filled first, collapse_filled first]
        simp only [plain, Bool.false_eq_true, if_false]
        rw [more, ← List.cons_append, List.append_assoc]

theorem tidyPart_eq (filled : collapse false (.outside false) (trimChars s) = t) (nonempty : t ≠ []) :
    tidyPart s = opening t ++ t ++ closing t := by
  have ending : (['*', ' '] ++ t).getLast? = t.getLast? := List.getLast?_append_of_ne_nil _ nonempty
  rw [tidyPart, filled]
  dsimp only
  rw [if_neg (by simpa using nonempty), opening, closing]
  cases t.head?.any isCombinatorChar with
  | true =>
    simp only [if_true, ending]
    split <;> simp
  | false =>
    simp only [Bool.false_eq_true, if_false, List.nil_append]
    split <;> simp

/-- A text between blanks is tidied as it is. -/
theorem tidyPart_between {l t : List Char} (leads : ∀ c ∈ l, isBlank c = true)
    (trails : ∀ c ∈ t, isBlank c = true)
    (unquoted : Unquoted core) (nonempty : core ≠ []) (first : ∀ c ∈ core.head?, isBlank c = false)
    (last : ∀ c ∈ core.getLast?, isBlank c = false) : tidyPart (l ++ core ++ t) =
      opening core ++ collapse true (.outside false) core ++ closing core := by
  have ending : (collapse true (.outside false) core).getLast? = core.getLast? :=
    getLast?_collapse (closed_of_unquoted unquoted) last
  obtain ⟨c, u, rfl⟩ := List.exists_cons_of_ne_nil nonempty
  have start : collapse true (.outside false) (c :: u) = c :: collapse true (.outside false) u := by
    rw [collapse_filled (first c rfl), unquoted c (by simp)]
    rfl
  rw [tidyPart_eq (by rw [Text.trimChars_between leads trails first last, collapse_start first])
    (by rw [start]; exact List.cons_ne_nil _ _), opening, opening, closing, closing, ending, start]
  rfl

theorem collapse_star (leads : ∀ c ∈ lead, isBlank c = true) (nonempty : core ≠ [])
    (first : ∀ c ∈ core.head?, isBlank c = false) :
    collapse true (.outside false) ('*' :: ' ' :: (lead ++ core)) =
      '*' :: ' ' :: collapse true (.outside false) core := by
  obtain ⟨c, u, rfl⟩ := List.exists_cons_of_ne_nil nonempty
  rw [collapse_filled (by decide)]
  simp only [Bool.false_eq_true, if_false, List.nil_append, show isQuote '*' = false from rfl]
  rw [collapse_blank (by decide), collapse_blanks leads, collapse_filled (first c rfl),
    collapse_filled (first c rfl)]
  rfl

theorem collapse_append_star (trails : ∀ c ∈ trail, isBlank c = true) (unquoted : Unquoted core)
    (filled : ∃ c, core.getLast? = some c ∧ isBlank c = false) :
    collapse true (.outside false) (core ++ trail ++ [' ', '*']) =
      collapse true (.outside false) core ++ [' ', '*'] := by
  have blank : ∀ c ∈ trail ++ [' '], isBlank c = true :=
    List.forall_mem_append.mpr ⟨trails, by simp [isBlank]⟩
  have stars : collapse true (.outside false) (trail ++ [' ', '*']) = [' ', '*'] := by
    obtain ⟨c, b, there⟩ := List.exists_cons_of_ne_nil (l := trail ++ [' ']) (by simp)
    rw [show trail ++ [' ', '*'] = c :: (b ++ ['*']) by rw [← List.cons_append, ← there]; simp]
    rw [there, List.forall_mem_cons] at blank
    rw [collapse_blank blank.1, collapse_blanks blank.2, collapse_filled (by decide)]
    rfl
  rw [List.append_assoc, collapse_append unquoted filled, stars]

/-- Tidying has the same effect before and after any elements are put where they are missing. -/
theorem tidyPart_fill (unquoted : Unquoted s) : tidyPart (fill s) = tidyPart s := by
  obtain ⟨lead, trail, halves, leads, trails, first, last⟩ := Text.exists_trimChars s
  by_cases nothing : trimChars s = []
  · rw [fill, if_pos nothing, tidyPart, tidyPart, nothing]
    rfl
  have core : Unquoted (trimChars s) := fun c member => unquoted c (Text.mem_of_mem_trimChars member)
  have ending : ∃ c, (trimChars s).getLast? = some c ∧ isBlank c = false :=
    ⟨_, List.getLast?_eq_some_getLast nothing, last _ (List.getLast?_eq_some_getLast nothing)⟩
  have whole := tidyPart_between leads trails core nothing first last
  rw [← halves] at whole
  rw [fill, if_neg nothing, whole]
  generalize trimChars s = k at *
  subst halves
  -- What is put at the ends belongs to the core of the new text, with the blanks between.
  have behind : Unquoted (k ++ trail ++ [' ', '*']) := by
    intro c member
    simp only [List.mem_append, List.mem_cons, List.not_mem_nil, or_false] at member
    rcases member with (member | member) | rfl | rfl
    · exact core c member
    · exact unquoted c (by simp [member])
    · rfl
    · rfl
  have before {t : List Char} (plain : Unquoted t) : Unquoted ('*' :: ' ' :: (lead ++ t)) := by
    intro c member
    simp only [List.mem_append, List.mem_cons] at member
    rcases member with rfl | rfl | member | member
    · rfl
    · rfl
    · exact unquoted c (by simp [member])
    · exact plain c member
  have nonempty : k ++ trail ++ [' ', '*'] ≠ [] := by simp
  have start : (k ++ trail ++ [' ', '*']).head? = k.head? := by
    rw [List.append_assoc, List.head?_append_of_ne_nil _ nothing]
  have stop : ('*' :: ' ' :: (lead ++ k)).getLast? = k.getLast? := by
    rw [← List.cons_append, ← List.cons_append, List.getLast?_append_of_ne_nil _ nothing]
  have star (t : List Char) : (t ++ [' ', '*']).getLast? = some '*' := by simp
  have first' : ∀ c ∈ (k ++ trail ++ [' ', '*']).head?, isBlank c = false := by rwa [start]
  have last' : ∀ c ∈ (k ++ trail ++ [' ', '*']).getLast?, isBlank c = false := by
    rw [star]
    simp [isBlank]
  cases opens : k.head?.any isCombinatorChar <;> cases closes : k.getLast?.any isCombinatorChar
  · simpa [opening, closing, opens, closes] using whole
  · have between := tidyPart_between (t := []) leads (by simp) behind nonempty first' last'
    rw [collapse_append_star trails core ending, opening, start, closing, star] at between
    simpa [opening, closing, opens, closes, isCombinatorChar] using between
  · have between := tidyPart_between (l := []) (by simp) trails (before core) (List.cons_ne_nil _ _)
      (by simp [isBlank]) (by rwa [stop])
    rw [collapse_star leads nothing first, closing, stop] at between
    simpa [opening, closing, opens, closes, isCombinatorChar] using between
  · have both : ('*' :: ' ' :: (lead ++ (k ++ trail ++ [' ', '*']))).getLast? = some '*' := by
      rw [← List.append_assoc, ← List.cons_append, ← List.cons_append, star]
    have between := tidyPart_between (l := []) (t := []) (by simp) (by simp) (before behind)
      (List.cons_ne_nil _ _) (by simp [isBlank]) (by rw [both]; simp [isBlank])
    rw [collapse_star leads nonempty first', collapse_append_star trails core ending, closing,
      both] at between
    simpa [opening, closing, opens, closes, isCombinatorChar] using between

end

/-! ## Logic without argument -/

/-- The words of logic, with the parenthesis. -/
def logicWords : List (List Char) := ["not(".toList, "is(".toList, "where(".toList]

/-- A word of logic as it is written, in any case of letters, with the parenthesis. -/
structure LogicWord where
  chars : List Char
  spells : ∃ word ∈ logicWords, List.Forall₂ (fun d c => d ∈ Text.caseVariants c) word chars

/-- Logic with an argument. -/
def LogicWord.call (w : LogicWord) (argument : List Char) : List Char :=
  ':' :: (w.chars ++ (argument ++ [')']))

/-- A word of logic in small letters. -/
def LogicWord.small (word : List Char) (known : word ∈ logicWords) : LogicWord :=
  ⟨word, word, known, List.forall₂_same.mpr fun c _ => Text.mem_caseVariants_self c⟩

/-- Logic without argument, as it is written. -/
def EmptyLogic (p : List Char) : Prop := ∃ (w : LogicWord) (b : List Char), (∀ c ∈ b, isBlank c = true) ∧ p = w.call b

section

variable {s t r p word : List Char}

/-- It does not begin as the words that open tests and arguments. -/
theorem LogicWord.exists_cons (w : LogicWord) :
    ∃ c chars, w.chars = c :: chars ∧ c.toNat ∉ ['c', 'H', 'h'].map Char.toNat := by
  obtain ⟨word, member, spelled⟩ := w.spells
  have first : ∀ word ∈ logicWords, ∃ d rest, word = d :: rest ∧
      ∀ n ∈ ['c', 'H', 'h'].map Char.toNat, (d.toNat, n) ∈ Text.apartPairs := by
    simp only [logicWords, List.forall_mem_cons, List.not_mem_nil, false_implies, implies_true, and_true]
    exact ⟨⟨'n', "ot(".toList, rfl, by decide⟩, ⟨'i', "s(".toList, rfl, by decide⟩,
      ⟨'w', "here(".toList, rfl, by decide⟩⟩
  obtain ⟨d, rest, rfl, apart⟩ := first word member
  generalize w.chars = chars at spelled
  cases spelled with
  | cons variant _ =>
    exact ⟨_, _, rfl, fun opens =>
      Text.not_mem_caseVariants (apart _ opens) variant (Text.mem_caseVariants_self _)⟩

/-- In front of the letter A it has its parenthesis only. -/
theorem LogicWord.eq_open_of_low (w : LogicWord) {c : Char} (member : c ∈ w.chars)
    (low : c.toNat < 65) : c = '(' := by
  obtain ⟨word, known, spelled⟩ := w.spells
  have all : (logicWords.all fun word => word.all fun c => 65 ≤ c.toNat || c == '(') = true := by decide
  generalize w.chars = chars at spelled member
  have variant : c ∈ word := by
    clear known
    induction spelled with
    | nil => cases member
    | @cons d e word chars variant _ ih =>
      rcases List.mem_cons.mp member with rfl | member
      · rw [Text.caseVariants_of_low low] at variant
        exact List.mem_cons.mpr (.inl (List.mem_singleton.mp variant).symm)
      · exact List.mem_cons_of_mem _ (ih member)
  have sign := List.all_eq_true.mp (List.all_eq_true.mp all word known) c variant
  rw [decide_eq_false (Nat.not_le_of_lt low), Bool.false_or] at sign
  exact eq_of_beq sign

theorem LogicWord.unquoted (w : LogicWord) : Unquoted (':' :: w.chars) := by
  refine List.forall_mem_cons.mpr ⟨rfl, fun c member => Bool.eq_false_iff.mpr fun quote => ?_⟩
  have kind : c = '"' ∨ c = '\'' := by simpa [isQuote] using quote
  rcases kind with rfl | rfl <;> exact absurd (w.eq_open_of_low member (by decide)) (by decide)

/-- Nothing opens at its colon or behind it. -/
theorem LogicWord.noOpenings (w : LogicWord) {t r : List Char} (nonempty : t ≠ [])
    (suffix : t <:+ ':' :: w.chars) : afterContains (t ++ r) = none ∧ afterHas (t ++ r) = none := by
  rcases List.suffix_cons_iff.mp suffix with rfl | suffix
  · obtain ⟨c, chars, there, other⟩ := w.exists_cons
    rw [there]
    refine ⟨Option.eq_none_iff_forall_ne_some.mpr fun u opened => other ?_,
      Option.eq_none_iff_forall_ne_some.mpr fun u opened => other ?_⟩
    · rw [afterContains_eq_some_iff,
        show containsToken = ':' :: 'c' :: "ontains(".toList by decide] at opened
      obtain ⟨-, rest⟩ := List.cons.inj opened
      obtain ⟨rfl, -⟩ := List.cons.inj rest
      simp
    · obtain ⟨word, there, has⟩ := afterHas_colon_iff.mp opened
      obtain ⟨d, rest, rfl, lowered, -⟩ := List.map_eq_cons_iff.mp has
      obtain ⟨rfl, -⟩ := List.cons.inj there
      have low : c.toLower.toNat = 104 := congrArg Char.toNat lowered
      rcases Text.toNat_toLower c with ⟨number, -⟩ | same
      · have : c.toNat = 72 := by omega
        simp [this]
      · rw [same] at low
        simp [low]
  · obtain ⟨c, t, rfl⟩ := List.exists_cons_of_ne_nil nonempty
    have other : c ≠ ':' := by
      rintro rfl
      exact absurd (w.eq_open_of_low (suffix.subset (List.mem_cons_self ..)) (by decide)) (by decide)
    exact ⟨afterContains_of_ne other _, afterHas_of_ne other _⟩

theorem afterWord_eq_some_iff : afterWord word s = some r ↔
    ∃ w, List.Forall₂ (fun d c => d ∈ Text.caseVariants c) word w ∧ s = w ++ r := by
  induction word generalizing s with
  | nil =>
    rw [afterWord, Option.some.injEq]
    constructor
    · rintro rfl
      exact ⟨[], .nil, rfl⟩
    · rintro ⟨w, spelled, rfl⟩
      cases spelled
      rfl
  | cons d word ih =>
    cases s with
    | nil =>
      refine iff_of_false (by simp [afterWord]) ?_
      rintro ⟨w, spelled, there⟩
      cases spelled
      cases there
    | cons c s =>
      rw [afterWord, Option.ite_none_right_eq_some, List.contains_iff_mem, ih]
      constructor
      · rintro ⟨variant, w, spelled, rfl⟩
        exact ⟨c :: w, .cons variant spelled, rfl⟩
      · rintro ⟨w, spelled, there⟩
        cases spelled with
        | cons variant spelled =>
          obtain ⟨rfl, rfl⟩ := List.cons.inj there
          exact ⟨variant, _, spelled, rfl⟩

/-- Two words of logic begin with letters that have no variant in common. -/
theorem afterWord_eq_none {other : List Char} {a b : Char} {w : List Char}
    (apart : (a.toNat, b.toNat) ∈ Text.apartPairs)
    (spelled : List.Forall₂ (fun d c => d ∈ Text.caseVariants c) (a :: word) w) :
    afterWord (b :: other) (w ++ r) = none := by
  refine Option.eq_none_iff_forall_ne_some.mpr fun t found => ?_
  obtain ⟨w', spelled', there⟩ := afterWord_eq_some_iff.mp found
  cases spelled with
  | cons variant =>
    cases spelled' with
    | cons variant' =>
      obtain ⟨rfl, -⟩ := List.cons.inj there
      exact Text.not_mem_caseVariants apart variant variant'

/-- Logic without argument is found where it is written. -/
theorem afterEmptyLogic_eq_some_iff :
    afterEmptyLogic s = some r ↔ ∃ p, EmptyLogic p ∧ s = p ++ r := by
  constructor
  · intro found
    unfold afterEmptyLogic at found
    split at found
    · next s =>
      obtain ⟨u, words, closing⟩ := Option.bind_eq_some_iff.mp found
      have spelled : ∃ word ∈ logicWords, afterWord word s = some u := by
        simp only [Option.orElse_eq_orElse, Option.orElse_eq_or, Option.or_eq_some_iff] at words
        rcases words with found | ⟨-, found | ⟨-, found⟩⟩
        · exact ⟨_, by simp [logicWords], found⟩
        · exact ⟨_, by simp [logicWords], found⟩
        · exact ⟨_, by simp [logicWords], found⟩
      obtain ⟨word, member, there⟩ := spelled
      obtain ⟨w, spelled, rfl⟩ := afterWord_eq_some_iff.mp there
      obtain ⟨b, blank, halves⟩ := exists_skipBlanks u
      split at closing
      · next closed =>
        cases closing
        rw [closed] at halves
        exact ⟨_, ⟨⟨w, word, member, spelled⟩, b, blank, rfl⟩, by simp [LogicWord.call, halves]⟩
      · cases closing
    · cases found
  · rintro ⟨_, ⟨⟨w, word, member, spelled⟩, b, blank, rfl⟩, rfl⟩
    have closed : skipBlanks (b ++ ')' :: r) = ')' :: r :=
      (skipBlanks_append blank _).trans (skipBlanks_of_head? (by simp [isBlank]))
    have own : afterWord word (w ++ (b ++ ')' :: r)) = some (b ++ ')' :: r) :=
      afterWord_eq_some_iff.mpr ⟨w, spelled, rfl⟩
    have words : ((afterWord "not(".toList (w ++ (b ++ ')' :: r))).or
        ((afterWord "is(".toList (w ++ (b ++ ')' :: r))).or
          (afterWord "where(".toList (w ++ (b ++ ')' :: r))))) = some (b ++ ')' :: r) := by
      simp only [logicWords, List.mem_cons, List.not_mem_nil, or_false] at member
      rcases member with rfl | rfl | rfl
      · rw [own]
        rfl
      · rw [own, show "not(".toList = 'n' :: "ot(".toList from rfl,
          afterWord_eq_none (a := 'i') (by decide) spelled]
        rfl
      · rw [own, show "not(".toList = 'n' :: "ot(".toList from rfl,
          afterWord_eq_none (a := 'w') (by decide) spelled,
          show "is(".toList = 'i' :: "s(".toList from rfl,
          afterWord_eq_none (a := 'w') (by decide) spelled]
        rfl
    rw [show LogicWord.call ⟨w, word, member, spelled⟩ b ++ r = ':' :: (w ++ (b ++ ')' :: r)) by
      simp [LogicWord.call], afterEmptyLogic]
    simp only [Option.orElse_eq_orElse, Option.orElse_eq_or, words, Option.bind_eq_bind,
      Option.bind_some, closed]

/-- It begins with a colon, and holds no other. -/
theorem EmptyLogic.exists_cons (empty : EmptyLogic p) : ∃ q, p = ':' :: q ∧ ':' ∉ q := by
  obtain ⟨w, b, blank, rfl⟩ := empty
  refine ⟨_, rfl, ?_⟩
  simp only [List.mem_append, List.mem_singleton, not_or]
  exact ⟨fun colon => absurd (w.eq_open_of_low colon (by decide)) (by decide),
    fun colon => absurd (blank _ colon) (by decide), by decide⟩

/-- A text without a piece of logic that has no argument. -/
def Drops (s t : List Char) : Prop := ∃ a p b, EmptyLogic p ∧ s = a ++ (p ++ b) ∧ t = a ++ b

theorem Drops.around (drops : Drops s t) (u v : List Char) : Drops (u ++ s ++ v) (u ++ t ++ v) := by
  obtain ⟨a, p, b, empty, rfl, rfl⟩ := drops
  exact ⟨u ++ a, p, b ++ v, empty, by simp, by simp⟩

/-- Of two pieces the one in front ends where the other begins, unless they are the same. -/
theorem EmptyLogic.apart {b x q b' : List Char} (front : EmptyLogic p) (behind : EmptyLogic q)
    (same : p ++ b = x ++ (q ++ b')) : x = [] ∧ b = b' ∨ ∃ y, x = p ++ y ∧ b = y ++ (q ++ b') := by
  cases x with
  | nil =>
    have here : afterEmptyLogic (p ++ b) = some b := afterEmptyLogic_eq_some_iff.mpr ⟨p, front, rfl⟩
    have here' := afterEmptyLogic_eq_some_iff.mpr ⟨q, behind, same⟩
    exact .inl ⟨rfl, Option.some.inj (here.symm.trans here')⟩
  | cons c x =>
    rcases List.append_eq_append_iff.mp same with ⟨y, there, rest⟩ | ⟨y, there, rest⟩
    · exact .inr ⟨y, there, rest⟩
    · obtain ⟨p', rfl, noColon⟩ := front.exists_cons
      obtain ⟨q', rfl, -⟩ := behind.exists_cons
      obtain ⟨rfl, rfl⟩ := List.cons.inj there
      cases y with
      | nil => exact .inr ⟨[], by simp, rest.symm⟩
      | cons d y =>
        obtain ⟨rfl, -⟩ := List.cons.inj rest
        exact absurd (by simp) noColon

/-- It makes no difference which of two pieces is taken out first. -/
theorem Drops.diamond {u : List Char} (left : Drops s t) (right : Drops s u) :
    t = u ∨ ∃ v, Drops t v ∧ Drops u v := by
  have ordered {a x p b q b' : List Char} (front : EmptyLogic p) (behind : EmptyLogic q)
      (same : p ++ b = x ++ (q ++ b')) :
      a ++ b = a ++ x ++ b' ∨ ∃ v, Drops (a ++ b) v ∧ Drops (a ++ x ++ b') v := by
    rcases front.apart behind same with ⟨rfl, rfl⟩ | ⟨y, rfl, rfl⟩
    · exact .inl (by simp)
    · exact .inr ⟨a ++ y ++ b', ⟨a ++ y, q, b', behind, by simp, rfl⟩,
        ⟨a, p, y ++ b', front, by simp, by simp⟩⟩
  obtain ⟨a, p, b, empty, rfl, rfl⟩ := left
  obtain ⟨a', q, b', empty', same, rfl⟩ := right
  rcases List.append_eq_append_iff.mp same with ⟨x, rfl, rest⟩ | ⟨x, rfl, rest⟩
  · exact ordered empty empty' rest
  · rcases ordered (a := a') empty' empty rest with same | ⟨v, first, second⟩
    · exact .inl same.symm
    · exact .inr ⟨v, second, first⟩

theorem length_dropEmptyLogic_le (s : List Char) : (dropEmptyLogic s).length ≤ s.length := by
  fun_induction dropEmptyLogic s with
  | case1 s rest found _ ih => exact Nat.le_trans ih (Nat.le_of_lt (length_lt_of_afterEmptyLogic found))
  | case2 => exact Nat.le_refl _
  | case3 c s none ih => exact Nat.succ_le_succ ih

/-- Where nothing is taken out there is nothing. -/
theorem noEmptyLogic_of_length (same : ¬ (dropEmptyLogic s).length < s.length) :
    ∀ t ∈ s.tails, afterEmptyLogic t = none := by
  fun_induction dropEmptyLogic s with
  | case1 s rest found _ ih =>
    have shorter := length_lt_of_afterEmptyLogic found
    have := length_dropEmptyLogic_le rest
    omega
  | case2 none => simpa using none
  | case3 c s none ih =>
    rw [List.tails, List.forall_mem_cons]
    exact ⟨none, ih (by simpa using same)⟩

theorem drops_dropEmptyLogic (s : List Char) : Relation.ReflTransGen Drops s (dropEmptyLogic s) := by
  fun_induction dropEmptyLogic s with
  | case1 s rest found _ ih =>
    obtain ⟨p, empty, rfl⟩ := afterEmptyLogic_eq_some_iff.mp found
    exact .head ⟨[], p, rest, empty, rfl, rfl⟩ ih
  | case2 => exact .refl
  | case3 c s none ih =>
    refine ih.lift (c :: ·) fun s t drops => ?_
    simpa using drops.around [c] []

theorem drops_dropAllEmptyLogic (s : List Char) :
    Relation.ReflTransGen Drops s (dropAllEmptyLogic s) ∧
      ∀ t ∈ (dropAllEmptyLogic s).tails, afterEmptyLogic t = none := by
  fun_induction dropAllEmptyLogic s with
  | case1 s shorter ih => exact ⟨(drops_dropEmptyLogic s).trans ih.1, ih.2⟩
  | case2 s same => exact ⟨.refl, noEmptyLogic_of_length same⟩

/-- However logic without argument is taken out, the same is left when there is no more. -/
theorem dropAllEmptyLogic_eq (drops : Relation.ReflTransGen Drops s t)
    (clean : ∀ u ∈ t.tails, afterEmptyLogic u = none) : dropAllEmptyLogic s = t := by
  have final {t u : List Char} (clean : ∀ u ∈ t.tails, afterEmptyLogic u = none)
      (drops : Relation.ReflTransGen Drops t u) : t = u := by
    rcases drops.cases_head with same | ⟨v, ⟨a, p, b, empty, rfl, -⟩, -⟩
    · exact same
    · have found := clean (p ++ b) ((List.mem_tails _ _).mpr (List.suffix_append a (p ++ b)))
      rw [afterEmptyLogic_eq_some_iff.mpr ⟨p, empty, rfl⟩] at found
      cases found
  obtain ⟨all, clean'⟩ := drops_dropAllEmptyLogic s
  have confluent (s t u : List Char) (left : Drops s t) (right : Drops s u) :
      ∃ v, Relation.ReflGen Drops t v ∧ Relation.ReflTransGen Drops u v := by
    rcases left.diamond right with rfl | ⟨v, first, second⟩
    · exact ⟨t, .refl, .refl⟩
    · exact ⟨v, .single first, .single second⟩
  obtain ⟨u, left, right⟩ := Relation.church_rosser confluent all drops
  rw [final clean' left, final clean right]

end

/-! ## Tidying what is left -/

section

variable {s t : List Char} {parts : List (List Char × List Char)} {cs : List Complex}

theorem Filled.of_infix (filled : Filled t) (inside : s <:+: t) : Filled s := by
  obtain ⟨front, back, rfl⟩ := inside
  rintro u ⟨v, rfl⟩ closed
  obtain ⟨w, there⟩ := List.head?_eq_some_iff.mp closed
  refine filled (u ++ back) ⟨front ++ v, by simp⟩ ?_
  have nonempty : skipBlanks u ≠ [] := by simp [there]
  rw [skipBlanks, List.dropWhile_append, ← skipBlanks, if_neg (by simpa using nonempty), there]
  rfl

theorem Filled.comma (front : Filled s) (back : Filled t) : Filled (s ++ ',' :: t) := by
  intro u suffix closed
  obtain ⟨v, there⟩ := suffix
  rcases List.append_eq_append_iff.mp there with ⟨x, rfl, rest⟩ | ⟨x, rfl, rest⟩
  · cases x with
    | nil => cases rest
    | cons c x =>
      obtain ⟨rfl, same⟩ := List.cons.inj rest
      obtain rfl : u = x ++ ',' :: t := same
      by_cases blank : skipBlanks x = []
      · rw [skipBlanks, List.dropWhile_append_of_pos (List.dropWhile_eq_nil_iff.mp blank)] at closed
        cases closed
      · rw [skipBlanks, List.dropWhile_append, ← skipBlanks, if_neg (by simpa using blank),
          List.head?_append_of_ne_nil _ blank] at closed
        exact front x ⟨v, rfl⟩ closed
  · cases x with
    | nil => cases rest
    | cons c x =>
      obtain ⟨rfl, rfl⟩ := List.cons.inj rest
      exact back u ⟨x, rfl⟩ closed

theorem filled_of_fill (filled : Filled (fill s)) : Filled s := by
  unfold fill at filled
  split at filled
  · next nothing =>
    obtain ⟨lead, trail, halves, leads, trails, -⟩ := Text.exists_trimChars s
    have noOpen : '(' ∉ s := by
      rw [halves, nothing, List.append_nil, List.mem_append]
      rintro (member | member)
      · exact absurd (leads _ member) (by decide)
      · exact absurd (trails _ member) (by decide)
    rw [← List.append_nil s]
    exact .append noOpen .nil
  · exact filled.of_infix ⟨_, _, rfl⟩

theorem filled_intercalate {parts : List (List Char)} (filled : ∀ s ∈ parts, Filled s) :
    Filled ([','].intercalate parts) := by
  induction parts with
  | nil => exact .nil
  | cons s parts ih =>
    rw [List.forall_mem_cons] at filled
    cases parts with
    | nil => simpa using filled.1
    | cons t parts =>
      rw [List.intercalate_cons_of_ne_nil (List.cons_ne_nil _ _), List.append_assoc]
      exact filled.1.comma (ih filled.2)

theorem infix_intercalate {parts : List (List Char)} (member : s ∈ parts) :
    s <:+: [','].intercalate parts := by
  induction parts with
  | nil => cases member
  | cons t parts ih =>
    cases parts with
    | nil =>
      obtain rfl := List.mem_singleton.mp member
      rw [List.intercalate_singleton]
    | cons u parts =>
      rw [List.intercalate_cons_of_ne_nil (List.cons_ne_nil _ _), List.append_assoc]
      rcases List.mem_cons.mp member with rfl | member
      · exact (List.prefix_append ..).isInfix
      · exact ((ih member).trans (List.suffix_append _ _).isInfix).trans (List.suffix_append _ _).isInfix

theorem forall_mem_intercalate {P : Char → Prop} {parts : List (List Char)} (comma : P ',')
    (inside : ∀ s ∈ parts, ∀ c ∈ s, P c) : ∀ c ∈ [','].intercalate parts, P c := by
  induction parts with
  | nil => exact List.forall_mem_nil _
  | cons s parts ih =>
    rw [List.forall_mem_cons] at inside
    cases parts with
    | nil => simpa using inside.1
    | cons t parts =>
      rw [List.intercalate_cons_of_ne_nil (List.cons_ne_nil _ _)]
      exact List.forall_mem_append.mpr ⟨List.forall_mem_append.mpr
        ⟨inside.1, List.forall_mem_singleton.mpr comma⟩, ih inside.2⟩

theorem isAlternative_fill (alternative : IsAlternative s) : IsAlternative (fill s) := by
  have stars : levelAfter 0 (opening (trimChars s)) = some 0 ∧
      levelAfter 0 (closing (trimChars s)) = some 0 := by
    unfold opening closing
    constructor <;> split <;> rfl
  unfold fill
  split
  · rfl
  · rw [IsAlternative, levelAfter_append, levelAfter_append, stars.1, Option.bind_some, alternative,
      Option.bind_some, stars.2]

theorem forall_mem_fill {P : Char → Prop} (star : P '*') (space : P ' ') (inside : ∀ c ∈ s, P c) :
    ∀ c ∈ fill s, P c := by
  have ends : (∀ c ∈ opening (trimChars s), P c) ∧ ∀ c ∈ closing (trimChars s), P c := by
    unfold opening closing
    constructor <;> split <;> simp [star, space]
  unfold fill
  split
  · exact List.forall_mem_singleton.mpr star
  · exact List.forall_mem_append.mpr ⟨List.forall_mem_append.mpr ⟨ends.1, inside⟩, ends.2⟩

theorem drops_intercalate (drops : ∀ p ∈ parts, Relation.ReflTransGen Drops p.1 p.2) :
    Relation.ReflTransGen Drops ([','].intercalate (parts.map Prod.fst))
      ([','].intercalate (parts.map Prod.snd)) := by
  induction parts with
  | nil => exact .refl
  | cons p parts ih =>
    rw [List.forall_mem_cons] at drops
    by_cases last : parts = []
    · simpa [last] using drops.1
    · rw [List.map_cons, List.map_cons, List.intercalate_cons_of_ne_nil (by simpa using last),
        List.intercalate_cons_of_ne_nil (by simpa using last), List.append_assoc, List.append_assoc]
      refine (drops.1.lift (· ++ _) fun s t drops => ?_).trans
        ((ih drops.2).lift (fun s => p.2 ++ ([','] ++ s)) fun s t drops => ?_)
      · simpa using drops.around [] _
      · simpa using drops.around (p.2 ++ [',']) []

/-- Tidying gives the same, whether logic that was emptied stands in the alternatives or not, and
whether any elements are put where they are missing or not. -/
theorem tidy_eq (nonempty : parts ≠ [])
    (alternatives : ∀ p ∈ parts, Relation.ReflTransGen Drops p.1 p.2 ∧ Unquoted p.2 ∧ IsAlternative p.2)
    (reads : Reads (.list cs) ([','].intercalate (parts.map fun p => fill p.2)) [])
    (names : Avoids isMark ([','].intercalate (parts.map fun p => fill p.2))) :
    tidy ([','].intercalate (parts.map Prod.fst)) =
      tidy ([','].intercalate (parts.map fun p => fill p.2)) := by
  have unquoted (p : List Char × List Char) (member : p ∈ parts) : Unquoted (fill p.2) :=
    forall_mem_fill rfl rfl (alternatives p member).2.1
  have filled := filled_of_reads reads names
    (forall_mem_intercalate rfl (List.forall_mem_map.mpr unquoted))
  have left : dropAllEmptyLogic ([','].intercalate (parts.map Prod.fst)) =
      [','].intercalate (parts.map Prod.snd) := by
    refine dropAllEmptyLogic_eq (drops_intercalate fun p member => (alternatives p member).1)
      (filled_intercalate (List.forall_mem_map.mpr fun p member => ?_)).noEmptyLogic
    exact filled_of_fill (filled.of_infix (infix_intercalate (List.mem_map_of_mem member)))
  have split : splitTopLevel 0 [] ([','].intercalate (parts.map Prod.snd)) = parts.map Prod.snd :=
    splitTopLevel_intercalate (by simpa using nonempty)
      (List.forall_mem_map.mpr fun p member => (alternatives p member).2)
  have split' : splitTopLevel 0 [] ([','].intercalate (parts.map fun p => fill p.2)) =
      parts.map fun p => fill p.2 :=
    splitTopLevel_intercalate (by simpa using nonempty) (List.forall_mem_map.mpr fun p member =>
      ⟨unquoted p member, isAlternative_fill (alternatives p member).2.2⟩)
  rw [tidy, tidy, left, dropAllEmptyLogic_eq_self filled.noEmptyLogic, split, split', List.map_map,
    List.map_map]
  congr 1
  exact List.map_congr_left fun p member => (tidyPart_fill (alternatives p member).2.1).symm

end

end NoiseFilter.Extended
