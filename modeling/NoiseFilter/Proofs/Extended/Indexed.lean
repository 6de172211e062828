import NoiseFilter.Proofs.Extended.Cursor
import NoiseFilter.Proofs.Extended.Escape

/-!
# The cursor and the scanners

Quoted texts, blanks and text tests are found over bytes as the scanners find them over characters: the
cursor stops behind the same text (`seek_eq`, `exists_skipBlanks`, `readTest_eq`). A test is read as a
whole, whatever stands in front of it or behind (`IsCall`).
-/

namespace NoiseFilter.Extended

open Text (Read bytesOf byteOf byteSize dropBytes slice)

/-- What a reader answers, without the bound on the rest. -/
def outcome {α : Type} {n : Nat} (e : Except CompileError (Read n α)) :
    Except CompileError (α × List Char) := e.map fun r => (r.value, r.rest)

theorem outcome_eq_ok_iff {α : Type} {n : Nat} {e : Except CompileError (Read n α)} {a : α}
    {r : List Char} : outcome e = .ok (a, r) ↔ ∃ short, e = .ok ⟨a, r, short⟩ := by
  constructor
  · intro same
    cases e with
    | error e => cases same
    | ok read =>
      cases same
      exact ⟨read.short, rfl⟩
  · rintro ⟨short, rfl⟩
    rfl

/-- A test whose pattern has been read, and what follows the closing parenthesis. -/
def closeTest (offset : Nat) (test : Except CompileError TextTest) (s : List Char) :
    Except CompileError (TextTest × List Char) :=
  match skipAsciiBlanks s with
  | ')' :: final => test.map (·, final)
  | _ => .error (.unbalancedParens offset)

/-- The test that a pattern stands for, and what follows the closing parenthesis. -/
def pattern (offset : Nat) : List Char → Except CompileError (TextTest × List Char)
  | [] => .error (.unbalancedParens offset)
  | delimiter :: rest =>
    if isQuote delimiter || delimiter == '/' then
      match scanDelimited delimiter rest with
      | none => .error (.unterminatedLiteral offset)
      | some (body, after) => closeTest offset (TextTest.ofDelimited delimiter body) after
    else .error (.unquotedPattern offset)

/-- A test is read from its pattern, behind blanks. -/
theorem outcome_readTest (offset : Nat) (s : List Char) :
    outcome (readTest offset s) = pattern offset (skipAsciiBlanks s) := by
  rw [readTest]
  split
  · next nothing =>
    conv_rhs => rw [nothing]
    rfl
  · next delimiter rest opened =>
    conv_rhs => rw [opened, pattern]
    split
    · split
      · next noEnd =>
        conv_rhs => rw [noEnd]
        rfl
      · next body after scan =>
        conv_rhs => simp only [scan, closeTest]
        split
        · next final close =>
          conv_rhs => rw [close]
          cases TextTest.ofDelimited delimiter body <;> rfl
        · next other =>
          split
          · next final close => exact absurd close (other final)
          · rfl
    · rfl

namespace Cursor

/-! ## Runs -/

section

variable {α β : Type}

@[simp] theorem answer_ok (a : α) : answer (.ok a) = pure a := rfl

@[simp] theorem answer_error (e : CompileError) : answer (.error e : Except _ α) = throw e := rfl

@[simp] theorem liftM_some (a : α) : (liftM (some a) : Run α) = pure a := rfl

@[simp] theorem throw_bind (e : CompileError) (f : α → Run β) : (throw e >>= f : Run β) = throw e := rfl

end

/-- Behind a piece of a text there is not more than behind its first character. -/
theorem length_le_of_append {c : Char} {s piece next : List Char} (nonempty : piece ≠ [])
    (whole : c :: s = piece ++ next) : next.length ≤ s.length := by
  have length := congrArg List.length whole
  have positive := List.length_pos_iff.mpr nonempty
  rw [List.length_append, List.length_cons] at length
  omega

/-! ## Marks -/

variable {c q : Char} {front s inner : List Char}

/-- The first byte of a character tells it from every one of ASCII. -/
theorem exists_firstByte (c : Char) (front back : List Char) :
    ∃ b, (bytesOf (front ++ c :: back))[byteSize front]? = some b ∧
      ∀ d : Char, d.toNat < 0x80 → (b = byteOf d ↔ c = d) := by
  obtain ⟨b, member, here⟩ := Text.exists_getElem?_bytesOf c.utf8Size_pos front back
  refine ⟨b, here, fun d ascii => ⟨fun same => ?_, fun same => ?_⟩⟩
  · rw [same] at member
    exact Text.eq_of_mem_utf8EncodeChar ascii member
  · subst same
    rw [Text.utf8EncodeChar_of_ascii ascii, List.mem_singleton] at member
    exact member

variable {b : UInt8} (is : ∀ d : Char, d.toNat < 0x80 → (b = byteOf d ↔ c = d))

include is

theorem isQuoteByte_eq : isQuoteByte b = isQuote c := by
  rw [Bool.eq_iff_iff]
  simp [isQuoteByte, isQuote, is '"' (by decide), is '\'' (by decide)]

theorem isBlankByte_eq : isBlankByte b = Text.isAsciiBlank c := by
  rw [Bool.eq_iff_iff]
  simp [isBlankByte, Text.isAsciiBlank, is ' ' (by decide), is '\t' (by decide), is '\n' (by decide),
    is '\x0c' (by decide), is '\r' (by decide)]

omit is

/-! ## Seeking -/

section

variable {bytes : List UInt8} {i : Nat}

theorem lt_length (here : bytes[i]? = some b) : i < bytes.length := (List.getElem?_eq_some_iff.mp here).1

theorem seek_of_some {delimiter : UInt8} (here : bytes[i]? = some b) :
    seek bytes delimiter i =
      if b = byteOf '\\' then seek bytes delimiter (i + 2)
      else if b = delimiter then some (some i)
      else seek bytes delimiter (i + 1) := by
  rw [seek, if_pos (lt_length here), here]
  rfl

theorem seek_of_other {delimiter : UInt8} (here : bytes[i]? = some b) (notEscape : b ≠ byteOf '\\')
    (other : b ≠ delimiter) : seek bytes delimiter i = seek bytes delimiter (i + 1) := by
  rw [seek_of_some here, if_neg notEscape, if_neg other]

end

/-- Behind its first byte a character is passed. -/
theorem seek_behind_first (ascii : q.toNat < 0x80) (front back : List Char) (c : Char) :
    seek (bytesOf (front ++ c :: back)) (byteOf q) (byteSize front + 1) =
      seek (bytesOf (front ++ c :: back)) (byteOf q) (byteSize (front ++ [c])) := by
  have marks : ∀ d ∈ ['\\', q], d.toNat < 0x80 := by simp [ascii]
  refine Text.passes_behind_first front back marks fun i b here plain => ?_
  exact seek_of_other here (plain _ (by simp)) (plain _ (by simp))

/-- A delimiter is sought as the scanners seek it. -/
theorem seek_eq (ascii : q.toNat < 0x80) (front s : List Char) :
    seek (bytesOf (front ++ s)) (byteOf q) (byteSize front) =
      some ((scanDelimited q s).map fun found => byteSize (front ++ found.1)) := by
  fun_induction scanDelimited q s generalizing front with
  | case1 =>
    rw [List.append_nil, seek, if_neg (Text.not_lt_length_bytesOf _)]
    rfl
  | case2 =>
    rw [seek_of_some (Text.getElem?_bytesOf_ascii (by decide) _ _), if_pos rfl, seek, if_neg]
    · rfl
    · rw [Text.length_bytesOf, Text.byteSize_append]
      exact Nat.not_lt.mpr (Nat.le_succ _)
  | case3 d rest ih =>
    have next := ih (front ++ ['\\', d])
    have behind := seek_behind_first ascii (front ++ ['\\']) rest d
    rw [Text.byteSize_append, Text.byteSize_singleton] at behind
    simp only [List.append_assoc, List.cons_append, List.nil_append] at next behind
    rw [seek_of_some (Text.getElem?_bytesOf_ascii (by decide) _ _), if_pos rfl,
      show byteSize front + 2 = byteSize front + ('\\').utf8Size + 1 from rfl, behind, next, Option.map_map]
    simp [Function.comp_def]
  | case4 rest notEscape =>
    have other : byteOf q ≠ byteOf '\\' := fun same =>
      notEscape (Text.byteOf_inj ascii (by decide) same)
    rw [seek_of_some (Text.getElem?_bytesOf_ascii ascii _ _), if_neg other, if_pos rfl]
    simp
  | case5 c rest notEscape notQuote ih =>
    obtain ⟨b, here, is⟩ := exists_firstByte c front rest
    have next := ih (front ++ [c])
    simp only [List.append_assoc, List.cons_append, List.nil_append] at next
    rw [seek_of_other here (mt (is _ (by decide)).mp notEscape) (mt (is q ascii).mp notQuote),
      seek_behind_first ascii, next, Option.map_map]
    simp [Function.comp_def]

theorem ascii_of_isQuote (quote : isQuote q = true) : q.toNat < 0x80 := by
  have kind : q = '"' ∨ q = '\'' := by simpa [isQuote] using quote
  rcases kind with rfl | rfl <;> decide

theorem skipQuoted_eq (quote : isQuote q = true) (front s : List Char) :
    skipQuoted (bytesOf (front ++ q :: s)) (byteSize front) =
      some ((scanDelimited q s).map fun found => byteSize (front ++ (q :: found.1 ++ [q]))) := by
  have ascii := ascii_of_isQuote quote
  have found := seek_eq ascii (front ++ [q]) s
  rw [List.append_assoc, List.singleton_append, Text.byteSize_concat ascii] at found
  simp only [skipQuoted, Text.getElem?_bytesOf_ascii ascii, found, Option.bind_eq_bind, Option.bind_some,
    Option.pure_def, Option.map_map]
  congr 2
  funext found
  rw [Function.comp_apply, ← List.append_assoc, Text.byteSize_concat ascii, List.append_assoc,
    List.singleton_append]

/-- A quoted text is passed, and if it does not end, all of what follows. -/
theorem exists_passQuoted (quote : isQuote q = true) (front s : List Char) : ∃ text, text ≠ [] ∧
    q :: s = text ++ Extended.skipQuoted q s ∧
      passQuoted (bytesOf (front ++ q :: s)) (byteSize front) = some (byteSize (front ++ text)) := by
  rw [passQuoted, skipQuoted_eq quote, Extended.skipQuoted]
  cases scan : scanDelimited q s with
  | none =>
    refine ⟨q :: s, List.cons_ne_nil _ _, (List.append_nil _).symm, ?_⟩
    exact congrArg some (Text.length_bytesOf _)
  | some halves =>
    obtain ⟨body, next⟩ := halves
    refine ⟨q :: body ++ [q], by simp, ?_, rfl⟩
    simp [eq_of_scanDelimited scan]

theorem ascii_of_isAsciiBlank (blank : Text.isAsciiBlank c = true) : c.toNat < 0x80 := by
  simp only [Text.isAsciiBlank, Bool.or_eq_true, beq_iff_eq] at blank
  rcases blank with (((rfl | rfl) | rfl) | rfl) | rfl <;> decide

/-- Blanks are skipped. -/
theorem exists_skipBlanks (front s : List Char) : ∃ gap, s = gap ++ skipAsciiBlanks s ∧
    (∀ t, skipAsciiBlanks (gap ++ t) = skipAsciiBlanks t) ∧
    skipBlanks (bytesOf (front ++ s)) (byteSize front) = some (byteSize (front ++ gap)) := by
  induction s generalizing front with
  | nil =>
    refine ⟨[], rfl, fun _ => rfl, ?_⟩
    rw [List.append_nil, skipBlanks, if_neg (Text.not_lt_length_bytesOf _)]
  | cons c s ih =>
    obtain ⟨b, here, is⟩ := exists_firstByte c front s
    rw [skipBlanks, if_pos (lt_length here), here]
    simp only [isBlankByte_eq is, Option.bind_eq_bind, Option.bind_some, Option.pure_def]
    by_cases blank : Text.isAsciiBlank c = true
    · obtain ⟨gap, halves, blanks, next⟩ := ih (front ++ [c])
      have size := Text.byteSize_concat (ascii_of_isAsciiBlank blank) front
      have drops (t : List Char) : skipAsciiBlanks (c :: t) = skipAsciiBlanks t :=
        List.dropWhile_cons_of_pos blank
      refine ⟨c :: gap, by rw [drops, List.cons_append, ← halves],
        fun t => (drops _).trans (blanks t), ?_⟩
      rw [size] at next
      simp only [List.append_assoc, List.cons_append, List.nil_append] at next
      rw [if_pos blank, next]
    · have stays : skipAsciiBlanks (c :: s) = c :: s := List.dropWhile_cons_of_neg blank
      refine ⟨[], by rw [stays, List.nil_append], fun _ => rfl, ?_⟩
      rw [if_neg blank, List.append_nil]

theorem standsAt_eq (token front s : List Char) :
    standsAt (front ++ s) token (byteSize front) = some (token.isPrefixOf s) := by
  rw [standsAt, Text.dropBytes_append]
  rfl

theorem standsAt_of_some (front : List Char) (opened : afterContains s = some inner) :
    standsAt (front ++ s) containsToken (byteSize front) = some true := by
  rw [standsAt_eq, List.isPrefixOf_iff_prefix.mpr ⟨inner, (afterContains_eq_some_iff.mp opened).symm⟩]

theorem standsAt_of_none (front : List Char) (noTest : afterContains s = none) :
    standsAt (front ++ s) containsToken (byteSize front) = some false := by
  rw [standsAt_eq, Option.some.injEq, Bool.eq_false_iff, Ne, List.isPrefixOf_iff_prefix]
  rintro ⟨inner, rfl⟩
  rw [afterContains_append] at noTest
  cases noTest

/-- A test begins with a colon. -/
theorem eq_colon_of_afterContains (opened : afterContains (c :: s) = some inner) : c = ':' := by
  refine Decidable.of_not_not fun other => ?_
  rw [afterContains_of_ne other] at opened
  cases opened

/-! ## Tests -/

/-- A closing parenthesis behind blanks is found. -/
theorem close_of_eq {final : List Char} (front : List Char) (offset : Nat)
    (closes : skipAsciiBlanks s = ')' :: final) : ∃ gap, s = gap ++ ')' :: final ∧
      (∀ t, skipAsciiBlanks (gap ++ ')' :: t) = ')' :: t) ∧
      close (bytesOf (front ++ s)) (byteSize front) offset =
        pure (byteSize (front ++ (gap ++ [')']))) := by
  obtain ⟨gap, halves, blanks, next⟩ := exists_skipBlanks front s
  rw [closes] at halves
  refine ⟨gap, halves, fun t => (blanks _).trans (List.dropWhile_cons_of_neg (by decide)), ?_⟩
  have here := Text.getElem?_bytesOf_ascii (c := ')') (by decide) (front ++ gap) final
  rw [List.append_assoc, ← halves] at here
  rw [close, next]
  simp only [liftM_some, pure_bind]
  rw [here, if_pos rfl, ← List.append_assoc, Text.byteSize_concat (by decide)]

/-- Where none stands, that is an error. -/
theorem close_of_ne (front : List Char) (offset : Nat)
    (other : ∀ final, skipAsciiBlanks s ≠ ')' :: final) :
    close (bytesOf (front ++ s)) (byteSize front) offset = throw (.unbalancedParens offset) := by
  obtain ⟨gap, halves, -, next⟩ := exists_skipBlanks front s
  rw [close, next]
  simp only [liftM_some, pure_bind]
  refine if_neg ?_
  rw [halves, ← List.append_assoc]
  cases rest : skipAsciiBlanks s with
  | nil =>
    rw [List.append_nil, Text.getElem?_bytesOf_end]
    exact nofun
  | cons c final =>
    obtain ⟨b, here, is⟩ := exists_firstByte c (front ++ gap) final
    rw [here, Option.some.injEq, is _ (by decide)]
    rintro rfl
    exact other final rest

theorem ascii_of_opens (opens : (isQuote q || q == '/') = true) : q.toNat < 0x80 := by
  have kind : (q = '"' ∨ q = '\'') ∨ q = '/' := by simpa [isQuote] using opens
  rcases kind with (rfl | rfl) | rfl <;> decide

/-- What stands between two delimiters is cut out. -/
theorem slice_delimited (ascii : q.toNat < 0x80) (front body after : List Char) :
    slice (front ++ q :: (body ++ q :: after)) (byteSize front + 1) (byteSize (front ++ q :: body)) =
      some body := by
  have parts := Text.slice_append (front ++ [q]) body (q :: after)
  rw [Text.byteSize_concat ascii] at parts
  simpa only [List.append_assoc, List.cons_append, List.nil_append] using parts

/-- A test is closed as the scanners close it, and what follows it makes no difference. -/
theorem closeTest_eq (front s : List Char) (offset : Nat) (e : Except CompileError TextTest) :
    let run : Run (Nat × TextTest) := do
      let next ← close (bytesOf (front ++ s)) (byteSize front) offset
      let test ← answer e
      return (next, test)
    match closeTest offset e s with
    | .error e => run = throw e
    | .ok (test, rest) => ∃ call, s = call ++ rest ∧
        (∀ offset back, closeTest offset e (call ++ back) = .ok (test, back)) ∧
        run = pure (byteSize (front ++ call), test) := by
  by_cases closes : ∃ final, skipAsciiBlanks s = ')' :: final
  · obtain ⟨final, closes⟩ := closes
    obtain ⟨gap, rest, shut, next⟩ := close_of_eq front offset closes
    simp only [closeTest, closes, next, pure_bind]
    cases e with
    | error e => simp only [Except.map, answer_error, throw_bind]
    | ok test =>
      refine ⟨gap ++ [')'], by rw [rest, List.append_assoc]; rfl, fun offset back => ?_, rfl⟩
      rw [List.append_assoc, List.singleton_append, shut]
      rfl
  · have other : ∀ final, skipAsciiBlanks s ≠ ')' :: final := fun final same => closes ⟨final, same⟩
    have unclosed : closeTest offset e s = .error (.unbalancedParens offset) := by
      rw [closeTest]
      split
      · next final same => exact absurd same (other final)
      · rfl
    rw [close_of_ne _ _ other, unclosed]
    rfl

/-- A pattern is read as the scanners read it, and what follows it makes no difference. -/
theorem readPattern_eq (front s : List Char) (offset : Nat) :
    match pattern offset s with
    | .error e => readPattern (front ++ s) (byteSize front) offset = throw e
    | .ok (test, rest) => ∃ call, s = call ++ rest ∧
        (∀ offset back, pattern offset (call ++ back) = .ok (test, back)) ∧
        readPattern (front ++ s) (byteSize front) offset = pure (byteSize (front ++ call), test) := by
  cases s with
  | nil =>
    rw [pattern, List.append_nil, readPattern, Text.getElem?_bytesOf_end]
  | cons delimiter s =>
    obtain ⟨b, here, is⟩ := exists_firstByte delimiter front s
    have kind : (isQuoteByte b || b == byteOf '/') = (isQuote delimiter || delimiter == '/') := by
      rw [isQuoteByte_eq is, Bool.eq_iff_iff]
      simp [is '/' (by decide)]
    rw [readPattern, here]
    simp only [pattern, kind]
    by_cases opens : (isQuote delimiter || delimiter == '/') = true
    · have ascii := ascii_of_opens opens
      have name : Char.ofNat (byteOf delimiter).toNat = delimiter := by
        rw [Text.toNat_byteOf ascii, Char.ofNat_toNat]
      obtain rfl : b = byteOf delimiter := (is _ ascii).mpr rfl
      have found := seek_eq ascii (front ++ [delimiter]) s
      rw [List.append_assoc, List.singleton_append, Text.byteSize_concat ascii] at found
      simp only [if_pos opens, found]
      cases scan : scanDelimited delimiter s with
      | none => simp only [Option.map_none, liftM_some, pure_bind]
      | some halves =>
        obtain ⟨body, after⟩ := halves
        obtain rfl := eq_of_scanDelimited scan
        have behind : byteSize (front ++ delimiter :: body) + 1 =
            byteSize (front ++ (delimiter :: body ++ [delimiter])) := by
          rw [← List.append_assoc, Text.byteSize_concat ascii]
        have whole : front ++ delimiter :: (body ++ delimiter :: after) =
            front ++ (delimiter :: body ++ [delimiter]) ++ after := by simp
        have ends := closeTest_eq (front ++ (delimiter :: body ++ [delimiter])) after offset
          (TextTest.ofDelimited delimiter body)
        simp only [Option.map_some, liftM_some, pure_bind, List.append_assoc, List.singleton_append,
          slice_delimited ascii, name, behind]
        rw [whole]
        cases closed : closeTest offset (TextTest.ofDelimited delimiter body) after with
        | error e =>
          rw [closed] at ends
          exact ends
        | ok answer =>
          obtain ⟨test, rest⟩ := answer
          rw [closed] at ends
          obtain ⟨call, rfl, always, run⟩ := ends
          refine ⟨delimiter :: body ++ [delimiter] ++ call, by simp, fun offset back => ?_, ?_⟩
          · have again := scanDelimited_append (scanDelimited_body scan) (call ++ back)
            simp only [List.append_assoc, List.cons_append, List.nil_append] at again ⊢
            simp only [if_pos opens, again, always]
          · rw [run, List.append_assoc]
    · simp only [if_neg opens]

/-- Behind `:contains(` this is all of a call, whatever follows. -/
def IsCall (call : List Char) (test : TextTest) : Prop := ∀ back, TestRead (call ++ back) test back

/-- A test is read as the scanners read it. -/
theorem readTest_eq (front s : List Char) (origin : Nat) :
    match outcome (Extended.readTest (origin + byteSize front) s) with
    | .error e => readTest (front ++ (containsToken ++ s)) (byteSize front) origin = throw e
    | .ok (test, rest) => ∃ call, s = call ++ rest ∧ IsCall call test ∧
        readTest (front ++ (containsToken ++ s)) (byteSize front) origin =
          pure (byteSize (front ++ (containsToken ++ call)), test) := by
  obtain ⟨gap, halves, blanks, next⟩ := exists_skipBlanks (front ++ containsToken) s
  have read := readPattern_eq (front ++ containsToken ++ gap) (skipAsciiBlanks s) (origin + byteSize front)
  rw [List.append_assoc, ← halves] at read
  simp only [readTest, ← Text.byteSize_append, ← List.append_assoc, next, liftM_some, pure_bind,
    outcome_readTest]
  cases found : pattern (origin + byteSize front) (skipAsciiBlanks s) with
  | error e =>
    rw [found] at read
    exact read
  | ok answer =>
    obtain ⟨test, rest⟩ := answer
    rw [found] at read
    obtain ⟨call, text, always, same⟩ := read
    refine ⟨gap ++ call, by rw [List.append_assoc, ← text, ← halves], fun back offset => ?_, ?_⟩
    · have stays : skipAsciiBlanks (call ++ back) = call ++ back := by
        cases call with
        | nil => cases always 0 []
        | cons c call =>
          have first := List.head?_dropWhile_not Text.isAsciiBlank s
          rw [show s.dropWhile Text.isAsciiBlank = c :: call ++ rest from text] at first
          exact List.dropWhile_cons_of_neg (by simpa using first)
      rw [← outcome_eq_ok_iff, outcome_readTest, List.append_assoc, blanks, stays, always]
    · rw [same, List.append_assoc]

/-- A call is read as a whole. -/
theorem readTest_of_isCall {call : List Char} {test : TextTest} (isCall : IsCall call test)
    (front s : List Char) (origin : Nat) :
    readTest (front ++ (containsToken ++ (call ++ s))) (byteSize front) origin =
      pure (byteSize (front ++ (containsToken ++ call)), test) := by
  have read := readTest_eq front (call ++ s) origin
  rw [outcome_eq_ok_iff.mpr (isCall s _)] at read
  obtain ⟨call', halves, -, run⟩ := read
  rw [run, List.append_cancel_right halves]

end Cursor

end NoiseFilter.Extended
