import Mathlib.Data.List.Basic
import NoiseFilter.Json.Printer
import NoiseFilter.Json.Reader

/-!
# What is written is read again

A value whose texts all stand for something and whose numbers are made of digits is read back from
its characters, whatever follows them, as long as it does not go on with a number. An object that is
read as a whole is also read member by member.
-/

namespace NoiseFilter.Json

open Text (Read)

section

variable {α : Type} {bound : Nat}

/-- An answer without the bound on its rest. -/
def bare (answer : Option (Read bound α)) : Option (α × List Char) :=
  answer.map fun r => (r.value, r.rest)

/-- A reader answers with a value and leaves a rest. -/
abbrev Yields (answer : Option (Read bound α)) (value : α) (rest : List Char) : Prop :=
  bare answer = some (value, rest)

theorem Yields.eq_some {answer : Option (Read bound α)} {value : α} {rest : List Char}
    (yields : Yields answer value rest) : ∃ short, answer = some ⟨value, rest, short⟩ := by
  obtain ⟨⟨_, _, short⟩, some_, same⟩ := Option.map_eq_some_iff.mp yields
  cases same
  exact ⟨short, some_⟩

end

/-! ## Blanks -/

theorem skipBlanks_cons {c : Char} (ink : isBlank c = false) (s : List Char) :
    skipBlanks (c :: s) = c :: s :=
  List.dropWhile_cons_of_neg (by simp [ink])

theorem skipBlanks_space (s : List Char) : skipBlanks (' ' :: s) = skipBlanks s :=
  List.dropWhile_cons_of_pos rfl

theorem skipBlanks_lineStart (level : Nat) (s : List Char) :
    skipBlanks (lineStart level ++ s) = skipBlanks s := by
  refine List.dropWhile_append_of_pos fun c member => ?_
  rcases List.mem_cons.mp member with rfl | indent
  · rfl
  · rw [List.eq_of_mem_replicate indent]
    rfl

/-! ## Texts -/

/-- The escape of a control character with no letter of its own. -/
theorem pieceOf_controlDigits : ∀ n < 0x20,
    let digits := ['0', '0', Nat.digitChar (n / 16), Nat.digitChar (n % 16)]
    digits.all isHexDigit = true ∧ Text.readHex digits = n := by
  decide

/-- A character stands for itself, or a backslash and what follows it stand for the character. -/
theorem escape_cases (c : Char) :
    (escape c = [c] ∧ c ≠ '"' ∧ c ≠ '\\' ∧ ¬ c.toNat < 0x20) ∨
      ∃ code, escape c = '\\' :: code ∧
        ∀ rest, Yields (readEscape (code ++ rest)) (.char c) rest := by
  unfold escape
  split
  case h_8 quote backslash _ _ _ _ _ =>
    split
    · rename_i control
      refine .inr ⟨_, rfl, fun rest => ?_⟩
      obtain ⟨hex, number⟩ := pieceOf_controlDigits c.toNat control
      have low : ¬ (0xD800 ≤ c.toNat ∧ c.toNat ≤ 0xDFFF) := by omega
      have piece : pieceOf c.toNat = .char c := by
        rw [pieceOf, if_neg low, Char.ofNat_toNat]
      simp [Yields, bare, readEscape, -List.all_cons, hex, number, piece]
    · rename_i printable
      exact .inl ⟨rfl, quote, backslash, printable⟩
  all_goals exact .inr ⟨_, rfl, fun rest => rfl⟩

theorem readPieces_escaped (cs rest : List Char) :
    Yields (readPieces (cs.flatMap escape ++ '"' :: rest)) (cs.map .char) rest := by
  induction cs with
  | nil =>
    show Yields (readPieces ('"' :: rest)) [] rest
    rw [readPieces, if_pos rfl]
    rfl
  | cons c cs ih =>
    obtain ⟨_, more⟩ := ih.eq_some
    rw [List.flatMap_cons, List.append_assoc]
    rcases escape_cases c with ⟨plain, quote, backslash, printable⟩ | ⟨code, written, reads⟩
    · rw [plain, List.singleton_append]
      rw [readPieces, if_neg quote, if_neg backslash, if_neg printable, more]
      rfl
    · obtain ⟨_, piece⟩ := (reads (cs.flatMap escape ++ '"' :: rest)).eq_some
      rw [written, List.cons_append]
      rw [readPieces, if_neg (by decide), if_pos rfl, piece]
      dsimp only
      rw [more]
      rfl

theorem joinPieces_map_char (cs : List Char) : joinPieces (cs.map .char) = some cs := by
  induction cs with
  | nil => rfl
  | cons c cs ih => simp [joinPieces, ih]

theorem readText_escaped (s : String) (rest : List Char) :
    Yields (readText (s.toList.flatMap escape ++ '"' :: rest)) (some s) rest := by
  obtain ⟨_, pieces⟩ := (readPieces_escaped s.toList rest).eq_some
  simp [Yields, bare, readText, pieces, joinPieces_map_char]

/-- The characters of a text in front of others. -/
theorem textChars_append (s : String) (rest : List Char) :
    textChars s ++ rest = '"' :: (s.toList.flatMap escape ++ '"' :: rest) := by
  simp [textChars]

/-- A key and its colon are read, whatever blanks are in front. -/
theorem readKey_of_skipBlanks {s : List Char} {key : String} {rest : List Char}
    (here : skipBlanks s = textChars key ++ ':' :: rest) : Yields (readKey s) (some key) rest := by
  rw [textChars_append] at here
  obtain ⟨_, text⟩ := (readText_escaped key (':' :: rest)).eq_some
  have colon : skipBlanks (':' :: rest) = ':' :: rest := skipBlanks_cons rfl rest
  unfold readKey
  split
  · rename_i inner begins
    cases here.symm.trans begins
    split
    · rename_i none_
      rw [text] at none_
      cases none_
    · rename_i r some_
      rw [text] at some_
      cases some_
      split
      · rename_i after closes
        cases colon.symm.trans closes
        rfl
      · rename_i missing
        exact absurd colon (missing rest)
  · rename_i missing
    exact absurd here (missing _)

/-! ## Numbers -/

/-- Whether a number that ends in front of a character would go on with it. -/
def goesOn (c : Char) : Bool := c.isDigit || c == '.' || c == 'e' || c == 'E'

/-- A number that ends in front of this text ends there. -/
def Ends (rest : List Char) : Prop := ∀ c ∈ rest.head?, goesOn c = false

theorem ends_nil : Ends [] := fun _ absent => by cases absent

theorem ends_cons {c : Char} (other : goesOn c = false) (rest : List Char) : Ends (c :: rest) := by
  rintro _ ⟨⟩
  exact other

/-- No digit follows. -/
def NoDigit (rest : List Char) : Prop := ∀ c ∈ rest.head?, c.isDigit = false

theorem Ends.noDigit {rest : List Char} (ends : Ends rest) : NoDigit rest := fun c member => by
  have other := ends c member
  simp only [goesOn, Bool.or_eq_false_iff] at other
  exact other.1.1.1

/-- A number as the grammar has it: digits in front, without a needless zero, and digits behind the
point and in the exponent, if these are there. -/
structure Number.Written (n : Number) : Prop where
  some_whole : n.whole ≠ []
  whole : ∀ c ∈ n.whole, c.isDigit = true
  noZero : n.whole.head? = some '0' → n.whole.length = 1
  fraction : ∀ c ∈ n.fraction, c.isDigit = true
  exponent : ∀ minus digits, n.exponent = some (minus, digits) →
    digits ≠ [] ∧ ∀ c ∈ digits, c.isDigit = true

/-- The digits of a number other than zero start with another digit. -/
theorem head?_toDigits_ne {n : Nat} (positive : 0 < n) :
    (Nat.toDigits 10 n).head? ≠ some '0' := by
  induction n using Nat.strongRecOn with
  | ind n ih =>
    by_cases small : n < 10
    · have other : ∀ n < 10, 0 < n → n.digitChar ≠ '0' := by decide
      rw [Nat.toDigits_of_lt_base small, List.head?_singleton]
      exact fun same => other n small positive (Option.some.inj same)
    · rw [Nat.toDigits_of_base_le (by decide) (by omega),
        List.head?_append_of_ne_nil _ Nat.toDigits_ne_nil]
      exact ih (n / 10) (by omega) (by omega)

theorem Number.written_ofNat (n : Nat) : (Number.ofNat n).Written where
  some_whole := Nat.toDigits_ne_nil
  whole _ member := Nat.isDigit_of_mem_toDigits (by decide) (by decide) member
  noZero zero := by
    rcases n.eq_zero_or_pos with rfl | positive
    · rfl
    · exact absurd zero (head?_toDigits_ne positive)
  fraction _ absent := by cases absent
  exponent _ _ absent := by cases absent

theorem takeWhile_digits {digits rest : List Char} (all : ∀ c ∈ digits, c.isDigit = true)
    (stop : NoDigit rest) : (digits ++ rest).takeWhile Char.isDigit = digits := by
  rw [List.takeWhile_append_of_pos all]
  cases rest with
  | nil => simp
  | cons c rest => simp [stop c rfl]

theorem readDigitRun_append {digits rest : List Char} (some_ : digits ≠ [])
    (all : ∀ c ∈ digits, c.isDigit = true) (stop : NoDigit rest) :
    Yields (readDigitRun (digits ++ rest)) digits rest := by
  obtain ⟨d, ds, rfl⟩ := List.exists_cons_of_ne_nil some_
  have run := takeWhile_digits all stop
  unfold readDigitRun
  split
  · rename_i none_
    cases run.symm.trans none_
  · rename_i found
    cases run.symm.trans found
    simp [Yields, bare]

/-- What a number writes behind its digits: a point and digits, or nothing. -/
def fractionChars (fraction : List Char) : List Char :=
  if fraction.isEmpty then [] else '.' :: fraction

def exponentChars : Option (Bool × List Char) → List Char
  | none => []
  | some (minus, digits) => 'e' :: (if minus then '-' :: digits else digits)

theorem Number.chars_eq (n : Number) : n.chars =
    (if n.negative then ['-'] else []) ++
      (n.whole ++ (fractionChars n.fraction ++ exponentChars n.exponent)) := by
  simp only [Number.chars, List.append_assoc]
  rfl

theorem readFraction_append {fraction rest : List Char} (all : ∀ c ∈ fraction, c.isDigit = true)
    (stop : NoDigit rest) (noPoint : rest.head? ≠ some '.') :
    Yields (readFraction (fractionChars fraction ++ rest)) fraction rest := by
  cases fraction with
  | nil =>
    show Yields (readFraction rest) [] rest
    rw [readFraction, if_neg noPoint]
    rfl
  | cons d ds =>
    obtain ⟨_, run⟩ := (readDigitRun_append (List.cons_ne_nil d ds) all stop).eq_some
    show Yields (readFraction ('.' :: (d :: ds ++ rest))) (d :: ds) rest
    rw [readFraction, if_pos (show ('.' :: (d :: ds ++ rest)).head? = some '.' from rfl)]
    show Yields ((readDigitRun (d :: ds ++ rest)).map _) (d :: ds) rest
    rw [run]
    rfl

theorem readExponent_append {exponent : Option (Bool × List Char)} {rest : List Char}
    (all : ∀ minus digits, exponent = some (minus, digits) →
      digits ≠ [] ∧ ∀ c ∈ digits, c.isDigit = true) (ends : Ends rest) :
    Yields (readExponent (exponentChars exponent ++ rest)) exponent rest := by
  rcases exponent with - | ⟨minus, digits⟩
  · show Yields (readExponent rest) none rest
    cases rest with
    | nil => rfl
    | cons c rest =>
      have other := ends c rfl
      simp only [goesOn, Bool.or_eq_false_iff, beq_eq_false_iff_ne] at other
      have noMark : ¬ (c = 'e' ∨ c = 'E') := not_or.mpr ⟨other.1.2, other.2⟩
      unfold readExponent
      dsimp only
      rw [if_neg noMark]
      rfl
  · obtain ⟨some_, each⟩ := all minus digits rfl
    obtain ⟨_, run⟩ := (readDigitRun_append some_ each ends.noDigit).eq_some
    cases minus with
    | true =>
      show Yields (readExponent ('e' :: '-' :: (digits ++ rest))) (some (true, digits)) rest
      rw [readExponent, if_pos (.inl rfl), if_pos (.inr rfl), run]
      rfl
    | false =>
      obtain ⟨d, ds, rfl⟩ := List.exists_cons_of_ne_nil some_
      have unsigned : ¬ (d = '+' ∨ d = '-') := by
        have digit := each d List.mem_cons_self
        rintro (rfl | rfl) <;> cases digit
      show Yields (readExponent ('e' :: d :: (ds ++ rest))) (some (false, d :: ds)) rest
      rw [readExponent, if_pos (.inl rfl), if_neg unsigned]
      show Yields ((readDigitRun (d :: ds ++ rest)).map _) _ rest
      rw [run]
      rfl

/-- What a number writes behind its first digits starts with a point or an `e`, or ends the
number. -/
theorem head?_exponentChars (exponent : Option (Bool × List Char)) {rest : List Char}
    (ends : Ends rest) : NoDigit (exponentChars exponent ++ rest) ∧
      (exponentChars exponent ++ rest).head? ≠ some '.' := by
  rcases exponent with - | ⟨minus, digits⟩
  · refine ⟨ends.noDigit, fun point => ?_⟩
    cases ends '.' point
  · exact ⟨by rintro _ ⟨⟩; rfl, by rintro ⟨⟩⟩

theorem readUnsigned_append {n : Number} (written : n.Written) {rest : List Char}
    (ends : Ends rest) :
    Yields (readUnsigned
        (n.whole ++ (fractionChars n.fraction ++ (exponentChars n.exponent ++ rest))))
      { n with negative := false } rest := by
  obtain ⟨noDigit, noPoint⟩ := head?_exponentChars n.exponent ends
  have behindWhole : NoDigit (fractionChars n.fraction ++ (exponentChars n.exponent ++ rest)) := by
    cases n.fraction with
    | nil => exact noDigit
    | cons => rintro _ ⟨⟩; rfl
  obtain ⟨_, whole⟩ :=
    (readDigitRun_append written.some_whole written.whole behindWhole).eq_some
  obtain ⟨_, fraction⟩ := (readFraction_append written.fraction noDigit noPoint).eq_some
  obtain ⟨_, exponent⟩ := (readExponent_append written.exponent ends).eq_some
  have noZero : ¬ (n.whole.head? = some '0' ∧ n.whole.length ≠ 1) := fun ⟨zero, long⟩ =>
    long (written.noZero zero)
  rw [readUnsigned, whole]
  simp only [if_neg noZero]
  rw [fraction]
  simp only
  rw [exponent]
  rfl

/-! ## Brackets and commas -/

theorem readEmpty_close {close c : Char} {s rest : List Char} (here : skipBlanks s = c :: rest)
    (same : c = close) : Yields (readEmpty close s) () rest := by
  unfold readEmpty
  split
  · rename_i begins
    cases here.symm.trans begins
    rw [if_pos same]
    rfl
  · rename_i none_
    cases here.symm.trans none_

theorem readEmpty_eq_none {close : Char} {s : List Char}
    (other : (skipBlanks s).head? ≠ some close) : readEmpty close s = none := by
  unfold readEmpty
  split
  · rename_i begins
    rw [begins] at other
    exact if_neg fun same => other (congrArg some same)
  · rfl

theorem readSeparator_of_skipBlanks {close c : Char} {s rest : List Char}
    (here : skipBlanks s = c :: rest) (known : c = ',' ∨ c = close) :
    Yields (readSeparator close s) (c == ',') rest := by
  unfold readSeparator
  split
  · rename_i begins
    cases here.symm.trans begins
    split
    · rename_i comma
      subst comma
      rfl
    · rename_i noComma
      rw [if_pos (known.resolve_left noComma), beq_false_of_ne noComma]
      rfl
  · rename_i none_
    cases here.symm.trans none_

/-- What follows a line between brackets: the other lines, each behind a comma, and the closing
bracket. -/
def linesBehind (close : Char) (level : Nat) (rest : List Char) : List (List Char) → List Char
  | [] => lineStart level ++ close :: rest
  | line :: lines => ',' :: (lineStart (level + 1) ++ (line ++ linesBehind close level rest lines))

theorem bracketed_cons (open_ close : Char) (level : Nat) (line : List Char)
    (lines : List (List Char)) (rest : List Char) :
    bracketed open_ close level (line :: lines) ++ rest =
      open_ :: (lineStart (level + 1) ++ (line ++ linesBehind close level rest lines)) := by
  have joined : [','].intercalate ((line :: lines).map (lineStart (level + 1) ++ ·)) ++
      (lineStart level ++ close :: rest) =
        lineStart (level + 1) ++ (line ++ linesBehind close level rest lines) := by
    induction lines generalizing line with
    | nil => simp [linesBehind]
    | cons next lines ih =>
      have others := ih next
      simp only [List.map_cons, List.intercalate_cons_cons, List.append_assoc] at others ⊢
      rw [others]
      rfl
  simp only [bracketed, List.isEmpty_cons, Bool.false_eq_true, if_false, List.cons_append,
    List.append_assoc, List.nil_append]
  rw [joined]

theorem ends_linesBehind (close : Char) (level : Nat) (rest : List Char)
    (lines : List (List Char)) : Ends (linesBehind close level rest lines) := by
  cases lines with
  | nil => exact ends_cons rfl _
  | cons => exact ends_cons rfl _

theorem readSeparator_linesBehind_nil (close : Char) (ink : isBlank close = false)
    (noComma : close ≠ ',') (level : Nat) (rest : List Char) :
    Yields (readSeparator close (linesBehind close level rest [])) false rest := by
  have here : skipBlanks (linesBehind close level rest []) = close :: rest := by
    rw [linesBehind, skipBlanks_lineStart, skipBlanks_cons ink]
  have read := readSeparator_of_skipBlanks here (.inr rfl)
  rwa [beq_false_of_ne noComma] at read

theorem readSeparator_linesBehind_cons (close : Char) (level : Nat) (rest line : List Char)
    (lines : List (List Char)) :
    Yields (readSeparator close (linesBehind close level rest (line :: lines))) true
      (lineStart (level + 1) ++ (line ++ linesBehind close level rest lines)) :=
  readSeparator_of_skipBlanks (skipBlanks_cons rfl _) (.inl rfl)

/-! ## Values -/

/-- A value in which every text stands for something and every number is made of digits. -/
inductive Value.Written : Value → Prop
  | null : Written .null
  | bool (b : Bool) : Written (.bool b)
  | number {n : Number} (digits : n.Written) : Written (.number n)
  | string (s : String) : Written (.string (some s))
  | array {items : List Value} (each : ∀ v ∈ items, Written v) : Written (.array items)
  | object {members : List Member} (keys : ∀ m ∈ members, m.1.isSome = true)
      (each : ∀ m ∈ members, Written m.2) : Written (.object members)

/-- A value is read from its characters at any level, whatever blanks stand in front of them. -/
def Value.ReadBack (v : Value) : Prop :=
  ∀ (level : Nat) (s rest : List Char), Ends rest → skipBlanks s = v.chars level ++ rest →
    Yields (readValue s) v rest

/-- A value starts with a character of its own. -/
theorem Value.Written.chars_cons {v : Value} (written : v.Written) (level : Nat) :
    ∃ c s, v.chars level = c :: s ∧ isBlank c = false ∧ c ≠ ']' := by
  have other {c : Char} (digit : c.isDigit = true) : isBlank c = false ∧ c ≠ ']' := by
    refine ⟨?_, ?_⟩
    · simp only [isBlank, Bool.or_eq_false_iff, beq_eq_false_iff_ne]
      refine ⟨⟨⟨?_, ?_⟩, ?_⟩, ?_⟩ <;> rintro rfl <;> cases digit
    · rintro rfl
      cases digit
  have brackets (open_ close : Char) (lines : List (List Char)) :
      ∃ s, bracketed open_ close level lines = open_ :: s := by
    unfold bracketed
    split
    · exact ⟨_, rfl⟩
    · exact ⟨_, rfl⟩
  cases written with
  | null => exact ⟨'n', _, rfl, by decide⟩
  | bool b => cases b with
    | true => exact ⟨'t', _, rfl, by decide⟩
    | false => exact ⟨'f', _, rfl, by decide⟩
  | @number n digits =>
    rw [Value.chars, Number.chars_eq]
    split
    · exact ⟨'-', _, rfl, by decide⟩
    · obtain ⟨d, ds, whole⟩ := List.exists_cons_of_ne_nil digits.some_whole
      refine ⟨d, _, by rw [whole]; rfl, other (digits.whole d ?_)⟩
      rw [whole]
      exact List.mem_cons_self
  | string s => exact ⟨'"', _, rfl, by decide⟩
  | @array items _ =>
    obtain ⟨s, begins⟩ := brackets '[' ']' (itemLines (level + 1) items)
    exact ⟨'[', s, by rw [Value.chars, begins], by decide⟩
  | @object members _ _ =>
    obtain ⟨s, begins⟩ := brackets '\x7b' '\x7d' (memberLines (level + 1) members)
    exact ⟨'\x7b', s, by rw [Value.chars, begins], by decide⟩

theorem Value.Written.skipBlanks_chars {v : Value} (written : v.Written) (level : Nat)
    (rest : List Char) : skipBlanks (v.chars level ++ rest) = v.chars level ++ rest := by
  obtain ⟨c, s, begins, ink, -⟩ := written.chars_cons level
  rw [begins, List.cons_append, skipBlanks_cons ink]

/-- What is read of a value is settled by its first character. -/
theorem bare_readValue {c : Char} {s rest : List Char} (here : skipBlanks s = c :: rest) :
    bare (readValue s) =
      if c = '[' then
        ((bare (readEmpty ']' rest)).map fun r => (Value.array [], r.2)).or
          ((bare (readItems rest)).map fun r => (.array r.1, r.2))
      else if c = '\x7b' then
        ((bare (readEmpty '\x7d' rest)).map fun r => (Value.object [], r.2)).or
          ((bare (readMembers rest)).map fun r => (.object r.1, r.2))
      else bare (readScalar c rest) := by
  unfold readValue
  split
  · rename_i none_
    cases here.symm.trans none_
  · rename_i begins
    cases here.symm.trans begins
    split
    · cases readEmpty ']' rest with
      | some => rfl
      | none => cases readItems rest <;> rfl
    · split
      · cases readEmpty '\x7d' rest with
        | some => rfl
        | none => cases readMembers rest <;> rfl
      · cases readScalar c rest <;> rfl

theorem readValue_scalar {v : Value} {c : Char} {s rest after : List Char}
    (here : skipBlanks s = c :: rest) (noArray : c ≠ '[') (noObject : c ≠ '\x7b')
    (read : Yields (readScalar c rest) v after) : Yields (readValue s) v after :=
  (bare_readValue here).trans ((if_neg noArray).trans ((if_neg noObject).trans read))

/-- Behind an item, the separator tells whether there are more. -/
theorem bare_readItems (s : List Char) : bare (readItems s) =
    (bare (readValue s)).bind fun item =>
      (bare (readSeparator ']' item.2)).bind fun separator =>
        if separator.1 then
          (bare (readItems separator.2)).map fun more => (item.1 :: more.1, more.2)
        else some ([item.1], separator.2) := by
  conv_lhs => rw [readItems]
  cases readValue s with
  | none => rfl
  | some item =>
    simp only [bare, Option.map_some, Option.bind_some]
    cases readSeparator ']' item.rest with
    | none => rfl
    | some separator =>
      simp only [Option.map_some, Option.bind_some]
      split
      · cases readItems separator.rest <;> rfl
      · rfl

theorem bare_readMembers (s : List Char) : bare (readMembers s) =
    (bare (readKey s)).bind fun key =>
      (bare (readValue key.2)).bind fun item =>
        (bare (readSeparator '\x7d' item.2)).bind fun separator =>
          if separator.1 then
            (bare (readMembers separator.2)).map fun more => ((key.1, item.1) :: more.1, more.2)
          else some ([(key.1, item.1)], separator.2) := by
  conv_lhs => rw [readMembers]
  cases readKey s with
  | none => rfl
  | some key =>
    simp only [bare, Option.map_some, Option.bind_some]
    cases readValue key.rest with
    | none => rfl
    | some item =>
      simp only [Option.map_some, Option.bind_some]
      cases readSeparator '\x7d' item.rest with
      | none => rfl
      | some separator =>
        simp only [Option.map_some, Option.bind_some]
        split
        · cases readMembers separator.rest <;> rfl
        · rfl

/-- The value on a line of its own. -/
theorem readValue_line {v : Value} (level : Nat) (rest : List Char) (ends : Ends rest)
    (back : v.Written ∧ v.ReadBack) :
    Yields (readValue (lineStart (level + 1) ++ (v.chars (level + 1) ++ rest))) v rest := by
  refine back.2 (level + 1) _ _ ends ?_
  rw [skipBlanks_lineStart, back.1.skipBlanks_chars]

/-- The member on a line of its own. -/
theorem readMember_line {m : Member} (level : Nat) (rest : List Char) (ends : Ends rest)
    (back : m.1.isSome = true ∧ m.2.Written ∧ m.2.ReadBack) :
    ∃ inner, Yields (readKey (lineStart (level + 1) ++
        ((textChars (m.1.getD "") ++ ':' :: ' ' :: m.2.chars (level + 1)) ++ rest))) m.1 inner ∧
      Yields (readValue inner) m.2 rest := by
  obtain ⟨_ | key, v⟩ := m
  · cases back.1
  obtain ⟨-, written, readBack⟩ := back
  refine ⟨' ' :: (v.chars (level + 1) ++ rest), readKey_of_skipBlanks ?_,
    readBack (level + 1) _ _ ends ?_⟩
  · rw [skipBlanks_lineStart, List.append_assoc, Option.getD_some, textChars_append,
      skipBlanks_cons rfl, ← textChars_append]
    rfl
  · rw [skipBlanks_space, written.skipBlanks_chars]

/-- Items between brackets are read up to the closing bracket. -/
theorem readItems_lines {item : Value} {items : List Value} (level : Nat) (rest : List Char)
    (each : ∀ v ∈ item :: items, v.Written ∧ v.ReadBack) :
    Yields (readItems (lineStart (level + 1) ++
        (item.chars (level + 1) ++ linesBehind ']' level rest (itemLines (level + 1) items))))
      (item :: items) rest := by
  induction items generalizing item with
  | nil =>
    have first := readValue_line level _ (ends_linesBehind ']' level rest [])
      (each item List.mem_cons_self)
    have closes := readSeparator_linesBehind_nil ']' rfl (by decide) level rest
    refine (bare_readItems _).trans ?_
    rw [itemLines, first, Option.bind_some, closes]
    rfl
  | cons next items ih =>
    have first := readValue_line level _
      (ends_linesBehind ']' level rest (itemLines (level + 1) (next :: items)))
      (each item List.mem_cons_self)
    have comma := readSeparator_linesBehind_cons ']' level rest
      (next.chars (level + 1)) (itemLines (level + 1) items)
    have others := ih fun v member => each v (List.mem_cons_of_mem _ member)
    refine (bare_readItems _).trans ?_
    rw [first, Option.bind_some, itemLines, comma, Option.bind_some, if_pos rfl, others]
    rfl

/-- Members that follow each other up to a closing brace, as both ways to go through an object meet
them. -/
inductive MembersRead (rest : List Char) : List Char → List Member → Prop
  | last {s inner behind : List Char} {key : Option String} {v : Value}
      (name : Yields (readKey s) key inner) (value : Yields (readValue inner) v behind)
      (closes : Yields (readSeparator '\x7d' behind) false rest) : MembersRead rest s [(key, v)]
  | more {s inner behind next : List Char} {key : Option String} {v : Value}
      {members : List Member} (name : Yields (readKey s) key inner)
      (value : Yields (readValue inner) v behind)
      (comma : Yields (readSeparator '\x7d' behind) true next)
      (others : MembersRead rest next members) : MembersRead rest s ((key, v) :: members)

namespace MembersRead

variable {s rest : List Char} {members : List Member}

theorem readMembers (read : MembersRead rest s members) :
    Yields (readMembers s) members rest := by
  induction read with
  | last name value closes =>
    refine (bare_readMembers _).trans ?_
    rw [name, Option.bind_some, value, Option.bind_some, closes]
    rfl
  | more name value comma _ ih =>
    refine (bare_readMembers _).trans ?_
    rw [name, Option.bind_some, value, Option.bind_some, comma, Option.bind_some, if_pos rfl, ih]
    rfl

theorem readMemberRun (read : MembersRead rest s members) :
    readMemberRun s = { members, rest := some rest } := by
  induction read with
  | last name value closes =>
    obtain ⟨_, name⟩ := name.eq_some
    obtain ⟨_, value⟩ := value.eq_some
    obtain ⟨_, closes⟩ := closes.eq_some
    rw [Json.readMemberRun, name]
    dsimp only
    rw [value]
    dsimp only
    rw [closes]
    rfl
  | more name value comma _ ih =>
    obtain ⟨_, name⟩ := name.eq_some
    obtain ⟨_, value⟩ := value.eq_some
    obtain ⟨_, comma⟩ := comma.eq_some
    rw [Json.readMemberRun, name]
    dsimp only
    rw [value]
    dsimp only
    rw [comma]
    dsimp only
    rw [if_pos rfl, ih]

/-- Lines with a key and a value each, up to the closing brace. -/
theorem of_lines {m : Member} {members : List Member} (level : Nat) (rest : List Char)
    (each : ∀ m' ∈ m :: members, m'.1.isSome = true ∧ m'.2.Written ∧ m'.2.ReadBack) :
    MembersRead rest (lineStart (level + 1) ++
        ((textChars (m.1.getD "") ++ ':' :: ' ' :: m.2.chars (level + 1)) ++
          linesBehind '\x7d' level rest (memberLines (level + 1) members)))
      (m :: members) := by
  induction members generalizing m with
  | nil =>
    obtain ⟨_, name, value⟩ := readMember_line level _
      (ends_linesBehind '\x7d' level rest (memberLines (level + 1) [])) (each m List.mem_cons_self)
    exact .last name value (readSeparator_linesBehind_nil '\x7d' rfl (by decide) level rest)
  | cons next members ih =>
    obtain ⟨_, name, value⟩ := readMember_line level _
      (ends_linesBehind '\x7d' level rest (memberLines (level + 1) (next :: members)))
      (each m List.mem_cons_self)
    have comma := readSeparator_linesBehind_cons '\x7d' level rest
      (textChars (next.1.getD "") ++ ':' :: ' ' :: next.2.chars (level + 1))
      (memberLines (level + 1) members)
    exact .more name value comma (ih fun m' member => each m' (List.mem_cons_of_mem _ member))

end MembersRead

/-- A line with a key is not the closing brace. -/
theorem readEmpty_memberLine (m : Member) (level : Nat) (tail : List Char) :
    readEmpty '\x7d' (lineStart (level + 1) ++
      ((textChars (m.1.getD "") ++ ':' :: ' ' :: m.2.chars (level + 1)) ++ tail)) = none := by
  refine readEmpty_eq_none ?_
  rw [skipBlanks_lineStart, List.append_assoc, textChars_append, skipBlanks_cons rfl]
  simp

theorem readValue_number {n : Number} (digits : n.Written) {s rest : List Char} (ends : Ends rest)
    (here : skipBlanks s = n.chars ++ rest) : Yields (readValue s) (.number n) rest := by
  obtain ⟨negative, whole, fraction, exponent⟩ := n
  obtain ⟨_, unsigned⟩ := (show Yields
    (readUnsigned (whole ++ (fractionChars fraction ++ (exponentChars exponent ++ rest))))
    { whole, fraction, exponent } rest from readUnsigned_append digits ends).eq_some
  rw [Number.chars_eq, List.append_assoc, List.append_assoc, List.append_assoc] at here
  cases negative with
  | true =>
    refine readValue_scalar here (by decide) (by decide) ?_
    show Yields ((readUnsigned
      (whole ++ (fractionChars fraction ++ (exponentChars exponent ++ rest)))).map _) _ rest
    rw [unsigned]
    rfl
  | false =>
    obtain ⟨d, ds, rfl⟩ := List.exists_cons_of_ne_nil digits.some_whole
    have other {c : Char} (plain : c.isDigit = false) : d ≠ c := by
      rintro rfl
      rw [digits.whole d List.mem_cons_self] at plain
      cases plain
    refine readValue_scalar here (other rfl) (other rfl) ?_
    rw [readScalar, if_neg (other rfl), if_neg (other rfl), if_neg (other rfl),
      if_neg (other rfl), if_neg (other rfl)]
    show Yields ((readUnsigned
      (d :: ds ++ (fractionChars fraction ++ (exponentChars exponent ++ rest)))).map _) _ rest
    rw [unsigned]
    rfl

/-- A value is read from its characters. -/
theorem Value.Written.readBack {v : Value} (written : v.Written) : v.ReadBack := by
  induction written with
  | null =>
    intro level s rest ends here
    exact readValue_scalar here (by decide) (by decide) rfl
  | bool b =>
    intro level s rest ends here
    cases b with
    | true => exact readValue_scalar here (by decide) (by decide) rfl
    | false => exact readValue_scalar here (by decide) (by decide) rfl
  | @number n digits =>
    intro level s rest ends here
    exact readValue_number digits ends here
  | string text =>
    intro level s rest ends here
    have quoted := here.trans (textChars_append text rest)
    refine readValue_scalar quoted (by decide) (by decide) ?_
    obtain ⟨_, read⟩ := (readText_escaped text rest).eq_some
    rw [readScalar, if_pos rfl, read]
    rfl
  | @array items each ih =>
    intro level s rest ends here
    cases items with
    | nil =>
      have begins : skipBlanks s = '[' :: ']' :: rest := here
      have closed : Yields (readEmpty ']' (']' :: rest)) () rest :=
        readEmpty_close (skipBlanks_cons rfl rest) rfl
      rw [Yields, bare_readValue begins, if_pos rfl, closed]
      rfl
    | cons item items =>
      have begins := here.trans (bracketed_cons '[' ']' level _ _ rest)
      obtain ⟨c, tail, first, ink, notClose⟩ := (each item List.mem_cons_self).chars_cons (level + 1)
      have inside : readEmpty ']' (lineStart (level + 1) ++ (item.chars (level + 1) ++
          linesBehind ']' level rest (itemLines (level + 1) items))) = none := by
        refine readEmpty_eq_none ?_
        rw [skipBlanks_lineStart, first, List.cons_append, skipBlanks_cons ink]
        simpa using notClose
      have read := readItems_lines level rest fun v member => ⟨each v member, ih v member⟩
      rw [Yields, bare_readValue begins, if_pos rfl, inside, read]
      rfl
  | @object members keys each ih =>
    intro level s rest ends here
    cases members with
    | nil =>
      have begins : skipBlanks s = '\x7b' :: '\x7d' :: rest := here
      have closed : Yields (readEmpty '\x7d' ('\x7d' :: rest)) () rest :=
        readEmpty_close (skipBlanks_cons rfl rest) rfl
      rw [Yields, bare_readValue begins, if_neg (by decide), if_pos rfl, closed]
      rfl
    | cons m members =>
      have begins := here.trans (bracketed_cons '\x7b' '\x7d' level _ _ rest)
      have inside := readEmpty_memberLine m level
        (linesBehind '\x7d' level rest (memberLines (level + 1) members))
      have read := MembersRead.readMembers <| MembersRead.of_lines level rest fun m' member =>
        ⟨keys m' member, each m' member, ih m' member⟩
      rw [Yields, bare_readValue begins, if_neg (by decide), if_pos rfl, inside, read]
      rfl

/-- A value is the one that its text stands for. -/
theorem Value.ofString?_render {v : Value} (written : v.Written) :
    Value.ofString? v.render = some v := by
  have here : skipBlanks v.render.toList = v.chars 0 ++ [] := by
    rw [← written.skipBlanks_chars 0 [], List.append_nil, Value.render, String.toList_ofList]
  obtain ⟨_, read⟩ := (written.readBack 0 _ [] ends_nil here).eq_some
  rw [Value.ofString?, read]
  rfl

theorem MemberRun.ofString?_of_skipBlanks {text : String} {rest : List Char}
    (here : skipBlanks text.toList = '\x7b' :: rest) (some_ : readEmpty '\x7d' rest = none) :
    MemberRun.ofString? text = some (readMemberRun rest) := by
  simp only [MemberRun.ofString?, here, some_]

/-- The members of an object are read one by one from its text, without an error. -/
theorem MemberRun.ofString?_render {members : List Member}
    (written : (Value.object members).Written) :
    MemberRun.ofString? (Value.object members).render = some { members, rest := some [] } := by
  cases members with
  | nil => rfl
  | cons m members =>
    have front := written.skipBlanks_chars 0 []
    cases written with
    | object keys each =>
      have begins : skipBlanks (Value.object (m :: members)).render.toList = '\x7b' ::
          (lineStart 1 ++ ((textChars (m.1.getD "") ++ ':' :: ' ' :: m.2.chars 1) ++
            linesBehind '\x7d' 0 [] (memberLines 1 members))) := by
        rw [Value.render, String.toList_ofList, ← List.append_nil (Value.chars _ _), front]
        exact bracketed_cons '\x7b' '\x7d' 0 _ (memberLines 1 members) []
      have read := MembersRead.of_lines 0 [] fun m' member =>
        ⟨keys m' member, each m' member, (each m' member).readBack⟩
      rw [MemberRun.ofString?_of_skipBlanks begins (readEmpty_memberLine m 0 _)]
      exact congrArg some read.readMemberRun

end NoiseFilter.Json
