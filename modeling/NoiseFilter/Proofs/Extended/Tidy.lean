import NoiseFilter.Proofs.Extended.Respaced
import NoiseFilter.Proofs.Text.CaseFold

/-!
# Tidying keeps the selector

Tidying a text that can be read as a selector changes its blanks only, if no name in it holds a
character that makes a difference to the layout and no quoted text in it looks like logic without
argument. So the tidied text is read as the same selector.
-/

namespace NoiseFilter.Extended

open Selector (Item Reads isNameChar scanName combinatorOf)
open Text (isBlank skipBlanks trimChars)

/-! ## Logic without argument -/

theorem dropEmptyLogic_eq_self {s : List Char} (none : ∀ t ∈ s.tails, afterEmptyLogic t = none) :
    dropEmptyLogic s = s := by
  induction s with
  | nil => rw [dropEmptyLogic]; simp [afterEmptyLogic]
  | cons c s ih =>
    rw [List.tails, List.forall_mem_cons] at none
    rw [dropEmptyLogic]
    split
    · next found => rw [none.1] at found; cases found
    · show c :: dropEmptyLogic s = c :: s
      rw [ih none.2]

/-- Where there is no logic without argument nothing is taken out. -/
theorem dropAllEmptyLogic_eq_self {s : List Char} (none : ∀ t ∈ s.tails, afterEmptyLogic t = none) :
    dropAllEmptyLogic s = s := by
  rw [dropAllEmptyLogic, dropEmptyLogic_eq_self none, if_neg (Nat.lt_irrefl _)]

/-- A word that ends in a parenthesis is found in front of one. -/
theorem eq_append_of_afterWord (word : List Char) {s r : List Char}
    (found : afterWord (word ++ ['(']) s = some r) : ∃ w, s = w ++ '(' :: r := by
  induction word generalizing s with
  | nil =>
    match s with
    | [] => cases found
    | c :: s =>
      rw [List.nil_append, afterWord, Option.ite_none_right_eq_some, List.contains_iff_mem] at found
      obtain rfl := Text.eq_of_open_mem_caseVariants found.1
      obtain rfl : s = r := by simpa [afterWord] using found.2
      exact ⟨[], rfl⟩
  | cons d word ih =>
    match s with
    | [] => cases found
    | c :: s =>
      rw [List.cons_append, afterWord, Option.ite_none_right_eq_some] at found
      obtain ⟨w, rfl⟩ := ih found.2
      exact ⟨c :: w, rfl⟩

/-- Logic without argument has a pair of parentheses with nothing between them. -/
theorem eq_append_of_afterEmptyLogic {s r : List Char} (found : afterEmptyLogic s = some r) :
    ∃ w u, s = w ++ '(' :: u ∧ skipBlanks u = ')' :: r := by
  unfold afterEmptyLogic at found
  split at found
  · next s =>
    obtain ⟨u, words, closing⟩ := Option.bind_eq_some_iff.mp found
    have called : ∃ w, s = w ++ '(' :: u := by
      simp only [Option.orElse_eq_orElse, Option.orElse_eq_or, Option.or_eq_some_iff] at words
      rcases words with found | ⟨-, found | ⟨-, found⟩⟩
      · exact eq_append_of_afterWord "not".toList found
      · exact eq_append_of_afterWord "is".toList found
      · exact eq_append_of_afterWord "where".toList found
    obtain ⟨w, rfl⟩ := called
    split at closing
    · next closed =>
      cases closing
      exact ⟨':' :: w, u, rfl, closed⟩
    · cases closing
  · cases found

/-- No parenthesis is closed right behind its opening. -/
def Filled (s : List Char) : Prop := ∀ u, '(' :: u <:+ s → (skipBlanks u).head? ≠ some ')'

namespace Filled

variable {k : Bool} {c : Char} {s r : List Char}

theorem noEmptyLogic (filled : Filled s) : ∀ t ∈ s.tails, afterEmptyLogic t = none := by
  intro t member
  refine Option.eq_none_iff_forall_ne_some.mpr fun r found => ?_
  obtain ⟨w, u, rfl, closed⟩ := eq_append_of_afterEmptyLogic found
  refine filled u ((List.suffix_append _ _).trans ((List.mem_tails _ _).mp member)) ?_
  rw [closed]
  rfl

theorem nil : Filled [] := fun u suffix => by cases List.suffix_nil.mp suffix

theorem cons (notOpen : c ≠ '(') (filled : Filled s) : Filled (c :: s) := by
  intro u suffix
  rcases List.suffix_cons_iff.mp suffix with same | suffix
  · exact absurd (List.cons.inj same).1.symm notOpen
  · exact filled u suffix

theorem open_ (first : (skipBlanks s).head? ≠ some ')') (filled : Filled s) : Filled ('(' :: s) := by
  intro u suffix
  rcases List.suffix_cons_iff.mp suffix with same | suffix
  · obtain rfl := (List.cons.inj same).2
    exact first
  · exact filled u suffix

theorem append (noOpen : '(' ∉ s) (filled : Filled r) : Filled (s ++ r) := by
  induction s with
  | nil => exact filled
  | cons c s ih =>
    rw [List.mem_cons, not_or] at noOpen
    exact (ih noOpen.2).cons (Ne.symm noOpen.1)

end Filled

/-- Orderly text does not begin with a closing parenthesis. -/
theorem Orderly.head?_skipBlanks {k : Bool} {s r : List Char} (orderly : Orderly k s r) :
    (skipBlanks s).head? ≠ some ')' := by
  have first {c : Char} {s : List Char} (filled : isBlank c = false) (other : c ≠ ')') :
      (skipBlanks (c :: s)).head? ≠ some ')' := by
    rw [skipBlanks_of_head? (by simpa using filled)]
    simpa using other
  induction orderly with
  | done => simp [skipBlanks]
  | @plain _ c s r unmarked notColon _ ih =>
    cases blank : isBlank c with
    | true => rwa [skipBlanks, List.dropWhile_cons_of_pos blank]
    | false => exact first blank (by rintro rfl; cases unmarked)
  | quoted quote => exact first (isBlank_of_isQuote quote) (by rintro rfl; cases quote)
  | colon => exact first rfl (by decide)
  | has => exact first rfl (by decide)
  | parens => exact first rfl (by decide)
  | brackets => exact first rfl (by decide)
  | comma => exact first rfl (by decide)

/-- In orderly text without quotes no parentheses are empty. -/
theorem Orderly.filled {k : Bool} {s r : List Char} (orderly : Orderly k s r)
    (noQuotes : ∀ c ∈ s, isQuote c = false) (rest : Filled r) : Filled (s ++ r) := by
  have call {argument s r : List Char} (some : skipBlanks argument ≠ [])
      (inside : Orderly true argument (')' :: s ++ r))
      (filled : Filled (argument ++ (')' :: s ++ r))) :
      Filled ('(' :: argument ++ ')' :: s ++ r) := by
    rw [List.append_assoc, List.cons_append]
    refine .open_ ?_ filled
    have here := inside.head?_skipBlanks
    rwa [skipBlanks, List.dropWhile_append, ← skipBlanks, if_neg (by simpa using some),
      List.head?_append_of_ne_nil _ some]
  induction orderly with
  | done => exact rest
  | plain unmarked _ _ ih =>
    rw [List.forall_mem_cons] at noQuotes
    exact (ih noQuotes.2 rest).cons (by rintro rfl; cases unmarked)
  | quoted quote =>
    rw [noQuotes _ (by simp)] at quote
    cases quote
  | colon _ _ _ ih => exact (ih (fun c member => noQuotes c (by simp [member])) rest).cons (by decide)
  | @has _ word argument s r has filled inside _ ihInside ih =>
    have behind := ih (fun c member => noQuotes c (by simp [member])) rest
    have within := ihInside (fun c member => noQuotes c (by simp [member])) (behind.cons (by decide))
    have noOpen : '(' ∉ ':' :: word := by
      rw [List.mem_cons, not_or]
      exact ⟨by decide, fun member => absurd (isNameChar_of_has has _ member).1 (by decide)⟩
    simpa using (call filled inside within).append noOpen
  | @parens _ argument s r filled inside _ ihInside ih =>
    have behind := ih (fun c member => noQuotes c (by simp [member])) rest
    have within := ihInside (fun c member => noQuotes c (by simp [member])) (behind.cons (by decide))
    exact call filled inside within
  | @brackets _ argument s r inside _ ihInside ih =>
    have behind := ih (fun c member => noQuotes c (by simp [member])) rest
    have within := ihInside (fun c member => noQuotes c (by simp [member])) (behind.cons (by decide))
    simpa using within.cons (show '[' ≠ '(' by decide)
  | comma _ ih => exact (ih (fun c member => noQuotes c (by simp [member])) rest).cons (by decide)

/-- In a selector without quotes no parentheses are empty. -/
theorem filled_of_reads {cs : List Complex} {s : List Char} (reads : Reads (.list cs) s [])
    (names : Avoids isMark s) (noQuotes : ∀ c ∈ s, isQuote c = false) : Filled s := by
  obtain ⟨⟨front, halves, orderly⟩, -⟩ := passed_of_reads (fun _ mark => mark) reads names
  rw [List.append_nil] at halves
  subst halves
  have filled := orderly.filled noQuotes .nil
  rwa [List.append_nil] at filled

/-! ## Parts between commas -/

section

variable {k : Bool} {c : Char} {s t r part : List Char} {depth : Nat}

theorem splitTopLevel_char (plain : isMark c = false) :
    splitTopLevel depth part (c :: s) = splitTopLevel depth (part ++ [c]) s := by
  have other {d : Char} (mark : isMark d = true) : c ≠ d := by
    intro same
    rw [← same, plain] at mark
    cases mark
  rw [splitTopLevel, if_neg (by simp [isQuote_eq_false plain]),
    if_neg (by simp [other (show isMark '(' = true from rfl), other (show isMark '[' = true from rfl)]),
    if_neg (by simp [other (show isMark ')' = true from rfl), other (show isMark ']' = true from rfl)]),
    if_neg (by simp [other (show isMark ',' = true from rfl)])]

theorem splitTopLevel_open (opens : c = '(' ∨ c = '[') :
    splitTopLevel depth part (c :: s) = splitTopLevel (depth + 1) (part ++ [c]) s := by
  have notQuote : isQuote c = false := by rcases opens with rfl | rfl <;> rfl
  rw [splitTopLevel, if_neg (by simp [notQuote]), if_pos opens]

theorem splitTopLevel_close (closes : c = ')' ∨ c = ']') :
    splitTopLevel (depth + 1) part (c :: s) = splitTopLevel depth (part ++ [c]) s := by
  have notQuote : isQuote c = false := by rcases closes with rfl | rfl <;> rfl
  have notOpen : ¬ (c = '(' ∨ c = '[') := by rcases closes with rfl | rfl <;> decide
  rw [splitTopLevel, if_neg (by simp [notQuote]), if_neg notOpen, if_pos closes, Nat.add_sub_cancel]

theorem splitTopLevel_quoted {q : Char} {body : List Char} (quote : isQuote q = true)
    (scan : scanDelimited q s = some (body, r)) :
    splitTopLevel depth part (q :: s) = splitTopLevel depth (part ++ (q :: body ++ [q])) r := by
  have front : passed (q :: s) r = q :: body ++ [q] := by
    rw [eq_of_scanDelimited scan, show q :: (body ++ q :: r) = (q :: body ++ [q]) ++ r by simp,
      passed_append]
  rw [splitTopLevel, if_pos quote]
  simp only [skipQuoted_eq scan]
  rw [← passed, front]

theorem splitTopLevel_plain (plain : ∀ c ∈ s, isMark c = false) :
    splitTopLevel depth part (s ++ r) = splitTopLevel depth (part ++ s) r := by
  induction s generalizing part with
  | nil => rw [List.append_nil]; rfl
  | cons c s ih =>
    rw [List.forall_mem_cons] at plain
    rw [List.cons_append, splitTopLevel_char plain.1, ih plain.2, List.append_assoc]
    rfl

/-- Orderly text is passed over, if its commas stand inside parentheses. -/
theorem Orderly.splitTopLevel_append (orderly : Orderly k s r) (inside : k = true → 0 < depth) :
    splitTopLevel depth part (s ++ r) = splitTopLevel depth (part ++ s) r := by
  induction orderly generalizing depth part with
  | done => rw [List.append_nil]; rfl
  | plain unmarked _ _ ih =>
    rw [List.cons_append, splitTopLevel_char unmarked, ih inside]
    simp
  | @quoted _ q body s r quote scan _ ih =>
    have whole := scanDelimited_append scan (s ++ r)
    rw [List.append_assoc] at whole
    rw [show q :: body ++ q :: s ++ r = q :: (body ++ ([q] ++ (s ++ r))) by simp,
      splitTopLevel_quoted quote whole, List.nil_append, ih inside]
    simp
  | colon _ _ _ ih =>
    rw [List.cons_append, splitTopLevel_char rfl, ih inside]
    simp
  | @has _ word argument s r has _ _ _ ihInside ih =>
    have plain : ∀ c ∈ ':' :: word, isMark c = false :=
      List.forall_mem_cons.mpr ⟨rfl, fun c member =>
        isMark_of_isNameChar (isNameChar_of_has has c member).1⟩
    rw [show ':' :: word ++ '(' :: argument ++ ')' :: s ++ r =
        (':' :: word) ++ ('(' :: (argument ++ (')' :: s ++ r))) by simp,
      splitTopLevel_plain plain, splitTopLevel_open (.inl rfl), ihInside (fun _ => Nat.succ_pos _),
      List.cons_append, splitTopLevel_close (.inl rfl), ih inside]
    simp
  | @parens _ argument s r _ _ _ ihInside ih =>
    rw [show '(' :: argument ++ ')' :: s ++ r = '(' :: (argument ++ (')' :: s ++ r)) by simp,
      splitTopLevel_open (.inl rfl), ihInside (fun _ => Nat.succ_pos _), List.cons_append,
      splitTopLevel_close (.inl rfl), ih inside]
    simp
  | @brackets _ argument s r _ _ ihInside ih =>
    rw [show '[' :: argument ++ ']' :: s ++ r = '[' :: (argument ++ (']' :: s ++ r)) by simp,
      splitTopLevel_open (.inr rfl), ihInside (fun _ => Nat.succ_pos _), List.cons_append,
      splitTopLevel_close (.inr rfl), ih inside]
    simp
  | @comma s r _ ih =>
    have deep := inside rfl
    rw [List.cons_append, splitTopLevel, if_neg (by decide), if_neg (by decide), if_neg (by decide),
      if_neg (by omega), ih (fun _ => deep)]
    simp

end

/-! ## Blanks in a part -/

/-- A text in which every quote is closed. -/
inductive Closed : List Char → Prop
  | nil : Closed []
  | char {c : Char} {s : List Char} (plain : isQuote c = false) (more : Closed s) : Closed (c :: s)
  | quoted {q : Char} {body s : List Char} (quote : isQuote q = true)
    (scan : scanDelimited q (body ++ [q]) = some (body, [])) (more : Closed s) :
    Closed (q :: body ++ q :: s)

namespace Closed

variable {s t : List Char}

theorem append (front : Closed s) (back : Closed t) : Closed (s ++ t) := by
  induction front with
  | nil => exact back
  | char plain _ ih => exact .char plain ih
  | @quoted q body s quote scan _ ih =>
    rw [show q :: body ++ q :: s ++ t = q :: body ++ q :: (s ++ t) by simp]
    exact .quoted quote scan ih

end Closed

theorem Orderly.closed {k : Bool} {s r : List Char} (orderly : Orderly k s r) : Closed s := by
  induction orderly with
  | done => exact .nil
  | plain unmarked _ _ ih => exact .char (isQuote_eq_false unmarked) ih
  | quoted quote scan _ ih => exact .quoted quote scan ih
  | colon _ _ _ ih => exact .char rfl ih
  | @has _ word argument s r has _ _ _ ihInside ih =>
    have named : Closed word := by
      have letters := isNameChar_of_has has
      clear has
      induction word with
      | nil => exact .nil
      | cons c word ih =>
        rw [List.forall_mem_cons] at letters
        exact .char (isQuote_eq_false (isMark_of_isNameChar letters.1.1)) (ih letters.2)
    exact .append (.append (.char rfl named) (.char rfl ihInside)) (.char rfl ih)
  | parens _ _ _ ihInside ih => exact .append (.char rfl ihInside) (.char rfl ih)
  | brackets _ _ ihInside ih => exact .append (.char rfl ihInside) (.char rfl ih)
  | comma _ ih => exact .char rfl ih

section

variable {s t u body : List Char} {c q : Char} {started pending : Bool}

/-- A quoted text is kept as it is. -/
theorem collapse_quoted (quote : isQuote q = true) (scan : scanDelimited q s = some (body, t)) :
    collapse true (.quoted q) s = body ++ q :: collapse true (.outside false) t := by
  have notEscape : q ≠ '\\' := by rintro rfl; cases quote
  fun_induction scanDelimited q s generalizing body t with
  | case1 => cases scan
  | case2 => cases scan
  | case3 d rest ih =>
    obtain ⟨⟨inner, u⟩, found, same⟩ := Option.map_eq_some_iff.mp scan
    cases same
    rw [collapse, if_pos rfl, collapse, ih found]
    rfl
  | case4 rest =>
    cases scan
    rw [collapse, if_neg notEscape, if_pos rfl]
    rfl
  | case5 c rest notEscape' notQuote ih =>
    obtain ⟨⟨inner, u⟩, found, same⟩ := Option.map_eq_some_iff.mp scan
    cases same
    rw [collapse, if_neg notEscape', if_neg notQuote, ih found]
    rfl

theorem collapse_blank (blank : isBlank c = true) :
    collapse started (.outside pending) (c :: s) = collapse started (.outside true) s := by
  rw [collapse, if_pos blank]

theorem collapse_filled (filled : isBlank c = false) :
    collapse true (.outside pending) (c :: s) = (if pending then [' '] else []) ++
      c :: collapse true (if isQuote c then .quoted c else .outside false) s := by
  rw [collapse, if_neg (by simp [filled])]
  cases pending <;> rfl

/-- In front of the first character nothing is pending. -/
theorem collapse_start (filled : ∀ c ∈ s.head?, isBlank c = false) :
    collapse false (.outside false) s = collapse true (.outside false) s := by
  match s with
  | [] => rfl
  | c :: s =>
    have filled := filled c rfl
    rw [collapse, if_neg (by simp [filled]), collapse_filled filled]
    rfl

/-- Blanks that are pending become one space in front of what comes next. -/
theorem Respaced.pend {b : List Char} (blank : ∀ c ∈ b, isBlank c = true) (same : Respaced s t) :
    Respaced (b ++ s) ((if !b.isEmpty then [' '] else []) ++ t) := by
  match b with
  | [] => exact same
  | c :: b =>
    rw [List.forall_mem_cons] at blank
    exact .blanks blank.1 blank.2 same

/-- Collapsing a text that does not end in a blank, and goes on in another, leaves the text with other
blanks. `b` are the blanks that are pending. -/
theorem respaced_collapse {b : List Char} (blank : ∀ c ∈ b, isBlank c = true)
    (closed : Closed s) (filled : ∀ c ∈ s.getLast?, isBlank c = false) (rest : Respaced t u)
    (nonempty : s = [] → b = []) :
    Respaced (b ++ s ++ t) (collapse true (.outside !b.isEmpty) s ++ u) := by
  have last {c d : Char} {s : List Char} (last : d ∈ s.getLast?) : d ∈ (c :: s).getLast? := by
    rw [List.getLast?_cons, Option.mem_def.mp last]
    rfl
  induction closed generalizing b with
  | nil =>
    rw [nonempty rfl]
    exact rest
  | @char c s plain more ih =>
    cases first : isBlank c with
    | true =>
      have behind : s ≠ [] := by
        rintro rfl
        have := filled c rfl
        rw [first] at this
        cases this
      have more := ih (b := b ++ [c]) (List.forall_mem_append.mpr ⟨blank, by simpa using first⟩)
        (fun d member => filled d (last member)) (fun none => absurd none behind)
      rw [show (!(b ++ [c]).isEmpty) = true by simp] at more
      rw [collapse_blank first]
      simpa using more
    | false =>
      have more := ih (b := []) (by simp) (fun d member => filled d (last member)) (fun _ => rfl)
      rw [collapse_filled first]
      simp only [plain, Bool.false_eq_true, if_false, List.append_assoc]
      exact .pend blank (.char first plain more)
  | @quoted q body s quote scan more ih =>
    have first := isBlank_of_isQuote quote
    have whole := scanDelimited_append scan s
    rw [List.append_assoc] at whole
    have more := ih (b := []) (by simp) (fun d member => filled d ?_) (fun _ => rfl)
    · rw [show q :: body ++ q :: s = q :: (body ++ ([q] ++ s)) by simp, collapse_filled first]
      simp only [quote, if_true, collapse_quoted quote whole, List.append_assoc]
      exact .pend blank (by simpa using Respaced.quoted quote scan more)
    · rw [List.getLast?_append_of_ne_nil]
      · exact last member
      · exact List.cons_ne_nil _ _

/-- Collapsing keeps the last character, if it is no blank. -/
theorem getLast?_collapse (closed : Closed s) (filled : ∀ c ∈ s.getLast?, isBlank c = false) :
    (collapse true (.outside pending) s).getLast? = s.getLast? := by
  have last {c d : Char} {s : List Char} (last : d ∈ s.getLast?) : d ∈ (c :: s).getLast? := by
    rw [List.getLast?_cons, Option.mem_def.mp last]
    rfl
  induction closed generalizing pending with
  | nil => rfl
  | @char c s plain more ih =>
    have ih (pending : Bool) : (collapse true (.outside pending) s).getLast? = s.getLast? :=
      ih fun d member => filled d (last member)
    cases first : isBlank c with
    | true =>
      have behind : s.getLast? ≠ none := by
        intro none
        obtain rfl := List.getLast?_eq_none_iff.mp none
        have := filled c rfl
        rw [first] at this
        cases this
      obtain ⟨d, there⟩ := Option.ne_none_iff_exists'.mp behind
      rw [collapse_blank first, ih, List.getLast?_cons, there]
      rfl
    | false =>
      rw [collapse_filled first, List.getLast?_append_of_ne_nil _ (List.cons_ne_nil _ _)]
      simp only [plain, Bool.false_eq_true, if_false, List.getLast?_cons, ih]
  | @quoted q body s quote scan more ih =>
    have first := isBlank_of_isQuote quote
    have whole := scanDelimited_append scan s
    rw [List.append_assoc] at whole
    have ih (pending : Bool) : (collapse true (.outside pending) s).getLast? = s.getLast? := by
      refine ih fun d member => filled d ?_
      rw [List.getLast?_append_of_ne_nil _ (List.cons_ne_nil _ _)]
      exact last member
    rw [show q :: body ++ q :: s = q :: (body ++ ([q] ++ s)) by simp, collapse_filled first]
    simp only [quote, if_true, collapse_quoted quote whole]
    rw [List.getLast?_append_of_ne_nil _ (List.cons_ne_nil _ _), ← List.cons_append,
      List.getLast?_append_of_ne_nil _ (List.cons_ne_nil _ _), ← List.cons_append,
      List.getLast?_append_of_ne_nil (q :: body) (by simp), List.nil_append, List.singleton_append,
      List.getLast?_cons, List.getLast?_cons, ih]

end

/-! ## Ends of parts -/

/-- The part of a text in front of `r` is empty, or ends in a character that is neither blank nor a
combinator. -/
def EndsWell (s r : List Char) : Prop :=
  ∃ front, s = front ++ r ∧ ∀ c ∈ front.getLast?, isBlank c = false ∧ isCombinatorChar c = false

namespace EndsWell

variable {s t r front : List Char} {c : Char}

theorem refl : EndsWell s s := ⟨[], rfl, by simp⟩

theorem trans (front : EndsWell s t) (back : EndsWell t r) : EndsWell s r := by
  obtain ⟨u, rfl, ends⟩ := front
  obtain ⟨v, rfl, ends'⟩ := back
  refine ⟨u ++ v, (List.append_assoc ..).symm, fun c last => ?_⟩
  match v with
  | [] => exact ends c (by simpa using last)
  | d :: v =>
    rw [List.getLast?_append_of_ne_nil _ (List.cons_ne_nil _ _)] at last
    exact ends' c last

/-- A text that ends in a good character ends well. -/
theorem of_last (suffix : c :: r <:+ s) (good : isBlank c = false ∧ isCombinatorChar c = false) :
    EndsWell s r := by
  obtain ⟨front, rfl⟩ := suffix
  refine ⟨front ++ [c], by simp, fun d last => ?_⟩
  rw [List.getLast?_concat] at last
  cases last
  exact good

/-- What stands in front of a part that is not empty and ends well may be added to it. -/
theorem of_suffix (suffix : t <:+ s) (ends : EndsWell t r) (shorter : r.length < t.length) :
    EndsWell s r := by
  obtain ⟨u, rfl⟩ := suffix
  obtain ⟨front, rfl, ends⟩ := ends
  refine ⟨u ++ front, (List.append_assoc ..).symm, fun c last => ends c ?_⟩
  match front with
  | [] => simp at shorter
  | d :: front => rwa [List.getLast?_append_of_ne_nil _ (List.cons_ne_nil _ _)] at last

end EndsWell

section

variable {s t r name : List Char}

theorem good_of_isStructural {c : Char} (good : isStructural c = false) :
    isBlank c = false ∧ isCombinatorChar c = false := (isMark_of_isStructural good).2

theorem endsWell_name (scan : scanName s = some (name, r)) (avoids : Avoids isStructural s) :
    EndsWell s r := by
  fun_induction scanName s generalizing name r with
  | case1 => cases scan; exact .refl
  | case2 => cases scan
  | case3 d rest ih =>
    obtain ⟨⟨inner, u⟩, found, same⟩ := Option.map_eq_some_iff.mp scan
    cases same
    obtain ⟨good, avoids⟩ := Avoids.escape_iff.mp avoids
    exact .trans (.of_last (List.suffix_cons _ _) (good_of_isStructural good)) (ih found avoids)
  | case4 c rest notEscape char ih =>
    obtain ⟨⟨inner, u⟩, found, same⟩ := Option.map_eq_some_iff.mp scan
    cases same
    have good := avoids.good_of_isNameChar char notEscape
    exact .trans (.of_last (List.suffix_refl _) (good_of_isStructural good))
      (ih found (avoids.of_sign notEscape (isQuote_eq_false (isMark_of_isNameChar char))))
  | case5 => cases scan; exact .refl

/-- How a part of a selector ends in front of `r`. Behind a complex selector there may be blanks. -/
def EndsFor (s r : List Char) : Item → Prop
  | .list _ | .relatives _ => True
  | .complex _ => ∃ t, Passes false (skipBlanks s) t ∧ EndsWell (skipBlanks s) t ∧ r = skipBlanks t
  | .joins _ _ => ∃ t, Passes false s t ∧ EndsWell s t ∧ r = skipBlanks t
  | .compound _ | .simples _ | .simple _ | .pseudo _ => EndsWell s r

theorem endsFor_of_reads {item : Item} (reads : Reads item s r) (avoids : Avoids isStructural s) :
    EndsFor s r item := by
  have passed {item : Item} {s r : List Char} (reads : Reads item s r)
      (avoids : Avoids isStructural s) := passed_of_reads structural_of_isMark reads avoids
  induction reads with
  | listOne => trivial
  | listMore => trivial
  | @complex s t r parts c first joined ih ihJoined =>
    obtain ⟨passes, left⟩ := passed first avoids.skipBlanks
    obtain ⟨u, passesJoined, ends, rest⟩ := ihJoined left
    exact ⟨u, (passes (head?_joins joined)).trans passesJoined, (ih avoids.skipBlanks).trans ends, rest⟩
  | joinsEnd => exact ⟨_, .refl, .refl, rfl⟩
  | @joinsSign s t u r lhs c sign k parts there means right joined ih ihJoined =>
    have avoids := avoids.skipBlanks
    rw [there] at avoids
    obtain ⟨notEscape, unmarked, notColon⟩ := facts_of_combinatorOf means
    have avoids := (avoids.of_sign notEscape (isQuote_eq_false unmarked)).skipBlanks
    obtain ⟨passes, left⟩ := passed right avoids
    obtain ⟨v, passesJoined, ends, rest⟩ := ihJoined left
    have whole : Passes false s (skipBlanks t) := .skipBlanks (there ▸
      .plain unmarked notColon (.skipBlanks .refl))
    obtain ⟨short, -⟩ := right.yielded
    exact ⟨v, whole.trans ((passes (head?_joins joined)).trans passesJoined),
      (EndsWell.of_suffix whole.suffix (ih avoids) short).trans ends, rest⟩
  | @joinsBlank s u r lhs c parts blank right joined ih ihJoined =>
    obtain ⟨passes, left⟩ := passed right avoids.skipBlanks
    obtain ⟨v, passesJoined, ends, rest⟩ := ihJoined left
    obtain ⟨short, -⟩ := right.yielded
    exact ⟨v, .skipBlanks ((passes (head?_joins joined)).trans passesJoined),
      (EndsWell.of_suffix (suffix_skipBlanks s) (ih avoids.skipBlanks) short).trans ends, rest⟩
  | compoundAny more ih =>
    exact .trans (.of_last (List.suffix_refl _) (by decide)) (ih (avoids.of_sign (by decide) rfl))
  | compoundType start tag more ih =>
    exact (endsWell_name tag avoids).trans (ih (avoids.of_scanName tag))
  | compoundSimple first more ih ihMore =>
    exact (ih avoids).trans (ihMore (passed first avoids).2)
  | simplesEnd => exact .refl
  | simplesMore first more ih ihMore =>
    exact (ih avoids).trans (ihMore (passed first avoids).2)
  | simpleId scan filled =>
    have shorter := Selector.length_le_of_scanName scan
    have positive := List.length_pos_of_ne_nil filled
    exact .of_suffix (List.suffix_cons _ _) (endsWell_name scan (avoids.of_sign (by decide) rfl))
      (by omega)
  | simpleClass scan filled =>
    have shorter := Selector.length_le_of_scanName scan
    have positive := List.length_pos_of_ne_nil filled
    exact .of_suffix (List.suffix_cons _ _) (endsWell_name scan (avoids.of_sign (by decide) rfl))
      (by omega)
  | simpleAttribute read =>
    obtain ⟨passes, -⟩ := passes_inside structural_of_isMark read (avoids.of_sign (by decide) rfl)
    exact .of_last (passes.suffix.trans (List.suffix_cons _ _)) (by decide)
  | simplePseudo read ih =>
    obtain ⟨short, -⟩ := read.yielded
    exact .of_suffix (List.suffix_cons _ _) (ih (avoids.of_sign (by decide) rfl)) short
  | pseudoPlain scan => exact endsWell_name scan avoids
  | pseudoLogical scan known argument close =>
    obtain ⟨passes, -⟩ := passed argument ((avoids.of_scanName scan).of_sign (by decide) rfl)
    have inside := (close ▸ suffix_skipBlanks _).trans passes.suffix
    exact .of_last (inside.trans ((List.suffix_cons _ _).trans (suffix_of_scanName scan))) (by decide)
  | pseudoNth scan known argument close =>
    have inside := close ▸ List.dropWhile_suffix _
    exact .of_last (inside.trans ((List.suffix_cons _ _).trans (suffix_of_scanName scan))) (by decide)
  | pseudoHas scan known argument close =>
    obtain ⟨passes, -⟩ := passed argument ((avoids.of_scanName scan).of_sign (by decide) rfl)
    have inside := (close ▸ suffix_skipBlanks _).trans passes.suffix
    exact .of_last (inside.trans ((List.suffix_cons _ _).trans (suffix_of_scanName scan))) (by decide)
  | relativesOne => trivial
  | relativesMore => trivial

/-- What an alternative looks like: blanks, a core, and blanks again. The core begins with no combinator
and ends in none. -/
structure Alternative (lead core trail r : List Char) : Prop where
  leads : ∀ c ∈ lead, isBlank c = true
  trails : ∀ c ∈ trail, isBlank c = true
  orderly : Orderly false (lead ++ core ++ trail) r
  closed : Closed core
  first : ∃ c, core.head? = some c ∧ isBlank c = false ∧ isCombinatorChar c = false
  last : ∃ c, core.getLast? = some c ∧ isBlank c = false ∧ isCombinatorChar c = false

theorem isCombinatorChar_of_combinatorOf {c : Char} (none : combinatorOf c = none) :
    isCombinatorChar c = false := by
  refine Bool.eq_false_iff.mpr fun sign => ?_
  have cases_ : c = '>' ∨ c = '+' ∨ c = '~' := by simpa [isCombinatorChar, or_assoc] using sign
  rcases cases_ with rfl | rfl | rfl <;> cases none

theorem exists_alternative {c : Complex} (reads : Reads (.complex c) s r)
    (avoids : Avoids isStructural s) :
    ∃ lead core trail, s = lead ++ core ++ trail ++ r ∧ Alternative lead core trail r := by
  obtain ⟨lead, blank, halves⟩ := exists_skipBlanks s
  obtain ⟨t, ⟨core, there, orderly⟩, ⟨core', there', ends⟩, rest⟩ := endsFor_of_reads reads avoids
  obtain rfl : core = core' := List.append_cancel_right (there.symm.trans there')
  obtain ⟨trail, blank', halves'⟩ := exists_skipBlanks t
  rw [← rest] at halves'
  obtain ⟨d, u, start, good⟩ : ∃ d u, skipBlanks s = d :: u ∧ combinatorOf d = none := by
    cases reads with
    | complex compound joined =>
      obtain ⟨d, u, start, -, good⟩ := compound.starts
      exact ⟨d, u, start, good⟩
  have shorter : r.length < (skipBlanks s).length := by
    cases reads with
    | complex compound joined =>
      obtain ⟨short, -⟩ := compound.yielded
      obtain ⟨short', -⟩ := joined.yielded
      omega
  have filled : isBlank d = false := isBlank_head?_skipBlanks s d (by rw [start]; rfl)
  match core with
  | [] =>
    -- Something has been read behind the blanks in front.
    rw [rest, ← List.nil_append t, ← there, Selector.skipBlanks_skipBlanks] at shorter
    exact absurd shorter (Nat.lt_irrefl _)
  | e :: core =>
    obtain ⟨rfl, -⟩ := List.cons.inj (start.symm.trans there)
    obtain ⟨l, last⟩ : ∃ l, (d :: core).getLast? = some l :=
      ⟨_, List.getLast?_eq_some_getLast (List.cons_ne_nil _ _)⟩
    refine ⟨lead, d :: core, trail, ?_, blank, blank', ?_, orderly.closed,
      ⟨d, rfl, filled, isCombinatorChar_of_combinatorOf good⟩, l, last, ends l last⟩
    · rw [List.append_assoc, ← halves', List.append_assoc, ← there, ← halves]
    · rw [List.append_assoc]
      rw [halves'] at orderly
      exact .trans (.of_blank blank) (.trans orderly (.of_blank blank'))

end

namespace Alternative

variable {lead core trail r : List Char} (alternative : Alternative lead core trail r)

include alternative

theorem trimChars_eq : trimChars (lead ++ core ++ trail) = core := by
  obtain ⟨c, first, filled, -⟩ := alternative.first
  obtain ⟨d, last, filled', -⟩ := alternative.last
  exact Text.trimChars_between alternative.leads alternative.trails (by simpa [first] using filled)
    (by simpa [last] using filled')

/-- Tidying an alternative makes runs of blanks one space, and drops them at its ends. -/
theorem tidyPart_eq : tidyPart (lead ++ core ++ trail) = collapse true (.outside false) core := by
  obtain ⟨c, first, filled, notSign⟩ := alternative.first
  obtain ⟨d, last, filled', notSign'⟩ := alternative.last
  obtain ⟨u, there⟩ := List.head?_eq_some_iff.mp first
  have ending : (collapse true (.outside false) core).getLast? = some d := by
    rw [← last]
    refine getLast?_collapse alternative.closed fun e member => ?_
    rw [last] at member
    cases member
    exact filled'
  have start : collapse true (.outside false) core = c ::
      collapse true (if isQuote c then .quoted c else .outside false) u := by
    rw [there, collapse_filled filled]
    rfl
  have whole : collapse false (.outside false) core = collapse true (.outside false) core :=
    collapse_start fun e member => by
      rw [first] at member
      cases member
      exact filled
  rw [tidyPart, alternative.trimChars_eq, whole]
  simp only [start, List.isEmpty_cons, Bool.false_eq_true, if_false, List.head?_cons,
    Option.any_some, notSign]
  rw [← start, ending]
  simp [notSign']

end Alternative

theorem splitTopLevel_comma {part s : List Char} :
    splitTopLevel 0 part (',' :: s) = part :: splitTopLevel 0 [] s := by
  rw [splitTopLevel, if_neg (by decide), if_neg (by decide), if_neg (by decide), if_pos ⟨rfl, rfl⟩]

theorem splitTopLevel_ne_nil (depth : Nat) (part s : List Char) : splitTopLevel depth part s ≠ [] := by
  fun_induction splitTopLevel depth part s <;> simp_all

namespace Alternative

variable {lead core trail r u : List Char} (alternative : Alternative lead core trail r)

include alternative

theorem skipBlanks_eq : skipBlanks (lead ++ core ++ trail ++ r) = core ++ (trail ++ r) := by
  obtain ⟨c, first, filled, -⟩ := alternative.first
  rw [List.append_assoc, List.append_assoc, skipBlanks_append alternative.leads]
  refine skipBlanks_of_head? fun d member => ?_
  rw [List.head?_append, first] at member
  cases member
  exact filled

/-- A tidied alternative is the alternative with other blanks, whatever goes on behind both. -/
theorem respaced (rest : Respaced (trail ++ r) u) :
    Respaced (skipBlanks (lead ++ core ++ trail ++ r)) (tidyPart (lead ++ core ++ trail) ++ u) := by
  obtain ⟨d, last, filled, -⟩ := alternative.last
  have filled : ∀ c ∈ core.getLast?, isBlank c = false := by
    intro c member
    rw [last] at member
    cases member
    exact filled
  have nonempty : core ≠ [] := by
    rintro rfl
    cases last
  rw [alternative.tidyPart_eq, alternative.skipBlanks_eq]
  simpa using respaced_collapse (b := []) (by simp) alternative.closed filled rest
    (fun none => absurd none nonempty)

end Alternative

/-- A selector keeps its text up to blanks when its alternatives are tidied. -/
theorem respaced_tidyParts {item : Item} {s r : List Char} (reads : Reads item s r)
    (avoids : Avoids isStructural s) (nothing : r = []) {cs : List Complex} (list : item = .list cs) :
    Respaced (skipBlanks s) ([',', ' '].intercalate ((splitTopLevel 0 [] s).map tidyPart)) := by
  induction reads generalizing cs with
  | @listOne s t c first last =>
    rw [first.skipBlanks_complex] at nothing
    subst nothing
    obtain ⟨lead, core, trail, rfl, alternative⟩ := exists_alternative first avoids
    have whole := alternative.respaced (u := []) (.finish (by simpa using alternative.trails))
    rw [alternative.orderly.splitTopLevel_append (by simp), List.nil_append, splitTopLevel,
      List.map_singleton, List.intercalate_singleton]
    simpa using whole
  | @listMore s t u r c cs' first comma more _ ih =>
    have left := (passed_of_reads structural_of_isMark first avoids).2
    rw [first.skipBlanks_complex] at comma
    subst comma
    obtain ⟨lead, core, trail, rfl, alternative⟩ := exists_alternative first avoids
    obtain ⟨b, blank, halves⟩ := exists_skipBlanks u
    have rest := Respaced.comma alternative.trails blank
      (ih (left.of_sign (by decide) rfl) nothing rfl)
    rw [← halves] at rest
    rw [alternative.orderly.splitTopLevel_append (by simp), List.nil_append, splitTopLevel_comma,
      List.map_cons, List.intercalate_cons_of_ne_nil (by simp [splitTopLevel_ne_nil]),
      List.append_assoc (tidyPart _)]
    exact alternative.respaced rest
  | _ => cases list

/-- A tidied selector is read as the selector. -/
theorem reads_tidy {cs : List Complex} {s : List Char} (reads : Reads (.list cs) s [])
    (avoids : Avoids isStructural s) (noEmpty : ∀ t ∈ s.tails, afterEmptyLogic t = none) :
    Reads (.list cs) (tidy s) [] := by
  have same := (respaced_tidyParts reads avoids rfl rfl).skipBlanks
  rw [Selector.skipBlanks_skipBlanks] at same
  obtain ⟨r, reads', left⟩ := Respaced.reads reads avoids same
  have nothing := left.head?_eq (by simp)
  rw [List.head?_eq_none_iff.mp nothing] at reads'
  rwa [tidy, dropAllEmptyLogic_eq_self noEmpty]

end NoiseFilter.Extended
