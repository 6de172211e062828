import NoiseFilter.Proofs.Extended.Indexed

/-!
# Arguments under the cursor

An argument of `:has(` is gone through twice: in order to find where it ends, and in order to take the text
tests out. `Scans` says which tests an argument holds, and where. These are what the first loop passes
(`argumentEnd_eq`) and what the second takes out (`stripFrom_eq`).
-/

namespace NoiseFilter.Extended

open Text (bytesOf byteOf byteSize dropBytes slice)

section

variable {start offset depth : Nat} {c : Char} {s : List Char}

/-- An argument goes on behind what has been passed. -/
def goesOn (start offset depth : Nat) (s next : List Char) :
    Except CompileError (List Char × List Char) :=
  (outcome (readArgument start (offset + byteSize (passed s next)) depth next)).map fun more =>
    (passed s next ++ more.1, more.2)

theorem outcome_readArgument (start offset depth : Nat) (c : Char) (s : List Char) :
    outcome (readArgument start offset depth (c :: s)) =
      if isQuote c then
        match scanDelimited c s with
        | none => .error (.unterminatedLiteral offset)
        | some (_, next) => goesOn start offset depth (c :: s) next
      else
        match afterContains (c :: s) with
        | some inner => outcome (readTest offset inner) >>= fun read =>
          goesOn start offset depth (c :: s) read.2
        | none =>
          if c = '(' then goesOn start offset (depth + 1) (c :: s) s
          else if c = ')' then
            if depth = 0 then .ok ([], s) else goesOn start offset (depth - 1) (c :: s) s
          else goesOn start offset depth (c :: s) s := by
  have steps {n : Nat} (next : List Char) (depth : Nat)
      (e : Except CompileError (Text.Read next.length (List Char)))
      (same : readArgument start (offset + byteSize (passed (c :: s) next)) depth next = e)
      (f : (more : Text.Read next.length (List Char)) → Text.Read n (List Char))
      (value : ∀ more, (f more).value = passed (c :: s) next ++ more.value)
      (rest : ∀ more, (f more).rest = more.rest) :
      outcome (e >>= fun more => pure (f more)) = goesOn start offset depth (c :: s) next := by
    rw [goesOn, same]
    cases e with
    | error e => rfl
    | ok more => simp [outcome, Except.map, bind, Except.bind, pure, Except.pure, value, rest]
  rw [readArgument]
  split
  · split
    · next noEnd =>
      conv_rhs => simp only [noEnd]
      rfl
    · next body next scan =>
      conv_rhs => simp only [scan]
      exact steps _ _ _ rfl _ (fun _ => rfl) (fun _ => rfl)
  · split
    · next inner opened =>
      conv_rhs => simp only [opened]
      cases readTest offset inner with
      | error e => rfl
      | ok read => exact steps _ _ _ rfl _ (fun _ => rfl) (fun _ => rfl)
    · next noTest =>
      conv_rhs => simp only [noTest]
      split
      · exact steps _ _ _ rfl _ (fun _ => rfl) (fun _ => rfl)
      · split
        · split
          · rfl
          · exact steps _ _ _ rfl _ (fun _ => rfl) (fun _ => rfl)
        · exact steps _ _ _ rfl _ (fun _ => rfl) (fun _ => rfl)

end

namespace Cursor

variable {c q : Char} {s argument : List Char} {i : Nat} {tokens : List Token} {test : TextTest}

/-- From a place on a text holds exactly these text tests. -/
inductive Scans : Nat → List Char → List Token → Prop
  | nil {i : Nat} : Scans i [] []
  | quoted {i : Nat} {q : Char} {body s : List Char} {tokens : List Token} (quote : isQuote q = true)
      (scan : scanDelimited q (body ++ [q]) = some (body, []))
      (more : Scans (i + byteSize (q :: body ++ [q])) s tokens) : Scans i (q :: body ++ [q] ++ s) tokens
  | test {i : Nat} {call s : List Char} {test : TextTest} {tokens : List Token} (isCall : IsCall call test)
      (more : Scans (i + byteSize (containsToken ++ call)) s tokens) :
      Scans i (containsToken ++ call ++ s) (⟨i, i + byteSize (containsToken ++ call), test⟩ :: tokens)
  | char {i : Nat} {c : Char} {s : List Char} {tokens : List Token} (plain : isQuote c = false)
      (noTest : afterContains (c :: s) = none) (more : Scans (i + byteSize [c]) s tokens) :
      Scans i (c :: s) tokens

/-- An argument ends under the cursor where the scanners say, and holds text tests. -/
def Ends (start depth : Nat) (front s : List Char) (answer : Except CompileError (List Char × List Char)) :
    Prop :=
  match answer with
  | .error e => argumentEnd (front ++ s) start (byteSize front) depth = throw e
  | .ok (argument, rest) => s = argument ++ ')' :: rest ∧ ∃ tokens, Scans (byteSize front) argument tokens ∧
      argumentEnd (front ++ s) start (byteSize front) depth = pure (byteSize (front ++ argument), tokens)

variable {start depth depth' : Nat} {front piece next : List Char}

/-- A step over a piece that holds these text tests. -/
theorem Ends.step (new : List Token)
    (cursor : argumentEnd (front ++ (piece ++ next)) start (byteSize front) depth =
      argumentEnd (front ++ (piece ++ next)) start (byteSize (front ++ piece)) depth' >>= fun found =>
        pure (found.1, new ++ found.2))
    (scans : ∀ argument rest tokens, next = argument ++ ')' :: rest →
      Scans (byteSize (front ++ piece)) argument tokens →
      Scans (byteSize front) (piece ++ argument) (new ++ tokens))
    (later : Ends start depth' (front ++ piece) next
      (outcome (readArgument start (byteSize front + byteSize piece) depth' next))) :
    Ends start depth front (piece ++ next) (goesOn start (byteSize front) depth' (piece ++ next) next) := by
  rw [goesOn, passed_append]
  cases found : outcome (readArgument start (byteSize front + byteSize piece) depth' next) with
  | error e =>
    rw [found] at later
    simp only [Ends, List.append_assoc] at later
    simp only [Ends, Except.map, cursor, later, throw_bind]
  | ok answer =>
    obtain ⟨argument, rest⟩ := answer
    rw [found] at later
    obtain ⟨halves, tokens, inside, same⟩ := later
    rw [List.append_assoc] at same
    refine ⟨by rw [halves, List.append_assoc], new ++ tokens, scans _ _ _ halves inside, ?_⟩
    rw [cursor, same, pure_bind, List.append_assoc]

theorem afterContains_of_append {t : List Char} (noTest : afterContains (s ++ t) = none) :
    afterContains s = none := by
  refine Option.eq_none_iff_forall_ne_some.mpr fun inner opened => ?_
  rw [afterContains_eq_some_iff.mp opened, List.append_assoc, afterContains_append] at noTest
  cases noTest

theorem argumentEnd_of_plain {source : List Char} {b : UInt8} (here : (bytesOf source)[i]? = some b)
    (plain : ∀ d ∈ ['"', '\'', ':', '(', ')'], b ≠ byteOf d) :
    argumentEnd source start i depth = argumentEnd source start (i + 1) depth := by
  rw [argumentEnd, if_pos (lt_length here), here]
  simp at plain
  simp [isQuoteByte, plain]

theorem argumentEnd_behind_first (front back : List Char) (c : Char) :
    argumentEnd (front ++ c :: back) start (byteSize front + 1) depth =
      argumentEnd (front ++ c :: back) start (byteSize (front ++ [c])) depth :=
  Text.passes_behind_first front back (by simp) fun _ _ => argumentEnd_of_plain

/-- The cursor finds the end of an argument where the scanners do. -/
def Reaches (start depth : Nat) (front s : List Char) : Prop :=
  Ends start depth front s (outcome (readArgument start (byteSize front) depth s))

theorem reaches_nil : Reaches start depth front [] := by
  rw [Reaches, readArgument]
  show argumentEnd _ _ _ _ = _
  rw [argumentEnd, List.append_nil, if_neg (Text.not_lt_length_bytesOf _)]

section

variable {inner : List Char}
  (more : ∀ depth front next, next.length ≤ s.length → Reaches start depth front next)

include more

theorem reaches_quoted (quote : isQuote c = true) : Reaches start depth front (c :: s) := by
  obtain ⟨b, here, is⟩ := exists_firstByte c front s
  have found := skipQuoted_eq quote front s
  rw [Reaches, outcome_readArgument, if_pos quote]
  cases scan : scanDelimited c s with
  | none =>
    rw [scan] at found
    show argumentEnd _ _ _ _ = _
    rw [argumentEnd, if_pos (lt_length here), here]
    simp only [isQuoteByte_eq is, if_pos quote, found, Option.map_none, liftM_some, pure_bind]
  | some halves =>
    obtain ⟨body, next⟩ := halves
    rw [scan] at found
    have shorter := Nat.le_of_lt (length_lt_of_scanDelimited scan)
    have whole : c :: s = (c :: body ++ [c]) ++ next := by simp [eq_of_scanDelimited scan]
    have ahead : byteSize front < byteSize (front ++ (c :: body ++ [c])) :=
      Text.byteSize_lt_append front (by simp)
    have later := more depth (front ++ (c :: body ++ [c])) next shorter
    rw [Reaches, Text.byteSize_append] at later
    simp only [whole] at found here ⊢
    refine Ends.step [] ?_ (fun argument rest tokens _ scans => ?_) later
    · rw [argumentEnd, if_pos (lt_length here), here]
      simp only [isQuoteByte_eq is, if_pos quote, found, Option.map_some, liftM_some, pure_bind, if_pos ahead]
      simp
    · exact .quoted quote (scanDelimited_body scan) (by rwa [← Text.byteSize_append])

theorem reaches_test (plain : isQuote c = false) (opened : afterContains (c :: s) = some inner) :
    Reaches start depth front (c :: s) := by
  obtain ⟨b, here, is⟩ := exists_firstByte c front s
  have colon := eq_colon_of_afterContains opened
  have stands := standsAt_of_some front opened
  have whole := afterContains_eq_some_iff.mp opened
  have read := readTest_eq front inner 0
  have cursor : argumentEnd (front ++ (c :: s)) start (byteSize front) depth =
      readTest (front ++ (c :: s)) (byteSize front) 0 >>= fun found =>
        if byteSize front < found.1 then
          argumentEnd (front ++ (c :: s)) start found.1 depth >>= fun more =>
            pure (more.1, ⟨byteSize front, found.1, found.2⟩ :: more.2)
        else .stuck := by
    rw [argumentEnd, if_pos (lt_length here), here]
    simp only [isQuoteByte_eq is, plain, if_neg Bool.false_ne_true,
      if_pos ((is ':' (by decide)).mpr colon), stands, liftM_some, pure_bind, if_true]
  rw [Nat.zero_add] at read
  rw [Reaches, outcome_readArgument, if_neg (by simp [plain])]
  simp only [opened]
  cases found : outcome (Extended.readTest (byteSize front) inner) with
  | error e =>
    rw [found, ← whole] at read
    show argumentEnd _ _ _ _ = _
    rw [cursor, read]
    rfl
  | ok answer =>
    obtain ⟨test, next⟩ := answer
    rw [found] at read
    obtain ⟨call, halves, isCall, same⟩ := read
    rw [← whole] at same
    rw [halves, ← List.append_assoc] at whole
    have shorter := length_le_of_append (List.append_ne_nil_of_left_ne_nil (by decide) _) whole
    have ahead : byteSize front < byteSize (front ++ (containsToken ++ call)) :=
      Text.byteSize_lt_append front (List.append_ne_nil_of_left_ne_nil (by decide) _)
    have later := more depth (front ++ (containsToken ++ call)) next shorter
    rw [Reaches, Text.byteSize_append] at later
    show Ends start depth front (c :: s) (goesOn start (byteSize front) depth (c :: s) next)
    rw [whole] at same cursor ⊢
    refine Ends.step [⟨byteSize front, byteSize (front ++ (containsToken ++ call)), test⟩] ?_
      (fun argument rest tokens _ scans => ?_) later
    · rw [cursor, same, pure_bind, if_pos ahead]
      rfl
    · rw [Text.byteSize_append] at scans ⊢
      exact .test isCall scans

/-- A single character is passed. -/
theorem ends_char {depth' : Nat} (plain : isQuote c = false) (noTest : afterContains (c :: s) = none)
    (cursor : argumentEnd (front ++ (c :: s)) start (byteSize front) depth =
      argumentEnd (front ++ (c :: s)) start (byteSize front + 1) depth') :
    Ends start depth front (c :: s) (goesOn start (byteSize front) depth' (c :: s) s) := by
  have later := more depth' (front ++ [c]) s (Nat.le_refl _)
  rw [Reaches, Text.byteSize_append] at later
  rw [argumentEnd_behind_first] at cursor
  rw [← List.singleton_append]
  refine Ends.step [] ?_ (fun argument rest tokens halves scans => ?_) later
  · rw [List.singleton_append, cursor]
    simp
  · rw [halves, ← List.cons_append] at noTest
    exact .char plain (afterContains_of_append noTest) (by rwa [← Text.byteSize_append])

theorem reaches_char (plain : isQuote c = false) (noTest : afterContains (c :: s) = none) :
    Reaches start depth front (c :: s) := by
  obtain ⟨b, here, is⟩ := exists_firstByte c front s
  have stands := standsAt_of_none front noTest
  rw [Reaches, outcome_readArgument, if_neg (by simp [plain])]
  simp only [noTest]
  split
  · next opens =>
    subst opens
    refine ends_char more plain noTest ?_
    rw [argumentEnd, if_pos (lt_length here), here]
    simp [isQuoteByte_eq is, plain, is]
  · next noOpen =>
    split
    · next closes =>
      subst closes
      split
      · next zero =>
        refine ⟨rfl, [], .nil, ?_⟩
        rw [argumentEnd, if_pos (lt_length here), here, List.append_nil]
        simp [isQuoteByte_eq is, plain, is, zero]
      · next inside =>
        refine ends_char more plain noTest ?_
        rw [argumentEnd, if_pos (lt_length here), here]
        simp [isQuoteByte_eq is, plain, is, inside, lower, Nat.one_le_iff_ne_zero]
    · next noClose =>
      refine ends_char more plain noTest ?_
      rw [argumentEnd, if_pos (lt_length here), here]
      by_cases colon : c = ':'
      · simp only [isQuoteByte_eq is, plain, if_neg Bool.false_ne_true,
          if_pos ((is ':' (by decide)).mpr colon), stands, liftM_some, pure_bind]
      · simp [isQuoteByte_eq is, plain, is, colon, noOpen, noClose]

end

theorem argumentEnd_eq (start depth : Nat) (front s : List Char) : Reaches start depth front s := by
  cases s with
  | nil => exact reaches_nil
  | cons c s =>
    have more (depth front next) (shorter : next.length ≤ s.length) : Reaches start depth front next :=
      argumentEnd_eq start depth front next
    cases quote : isQuote c with
    | true => exact reaches_quoted more quote
    | false =>
      cases test : afterContains (c :: s) with
      | some inner => exact reaches_test more quote test
      | none => exact reaches_char more quote test
termination_by s.length
decreasing_by exact Nat.lt_succ_of_le shorter

/-! ## Stripping -/

/-- A test as it is seen from `n` bytes further in front. -/
def Token.shift (n : Nat) (t : Token) : Token := ⟨n + t.first, n + t.last, t.test⟩

variable {origin : Nat} {kept done pending : List Char}

theorem stripFrom_of_plain {b : UInt8} {copied : Nat} (here : (bytesOf argument)[i]? = some b)
    (plain : ∀ d ∈ ['"', '\'', ':'], b ≠ byteOf d) :
    stripFrom argument origin kept copied i = stripFrom argument origin kept copied (i + 1) := by
  rw [stripFrom, if_pos (lt_length here), here]
  simp at plain
  simp [isQuoteByte, plain]

theorem stripFrom_behind_first (origin : Nat) (kept : List Char) (copied : Nat)
    (front back : List Char) (c : Char) :
    stripFrom (front ++ c :: back) origin kept copied (byteSize front + 1) =
      stripFrom (front ++ c :: back) origin kept copied (byteSize (front ++ [c])) :=
  Text.passes_behind_first front back (by simp) fun _ _ => stripFrom_of_plain

/-- A text is stripped of the text tests that it holds, and these are all that is found. -/
theorem stripFrom_of_scans (scans : Scans i s tokens) (kept done pending : List Char)
    (place : i = origin + byteSize (done ++ pending)) :
    ∃ out pairs found, Strips (kept ++ pending) s out pairs ∧
      found.map (Token.shift origin) = tokens ∧ pairs.map HasTest.test = found.map Token.test ∧
      stripFrom (done ++ pending ++ s) origin kept (byteSize done) (byteSize (done ++ pending)) =
        pure (Text.trimChars out, pairs, found) := by
  induction scans generalizing kept done pending with
  | nil =>
    refine ⟨_, _, [], strips_nil, rfl, rfl, ?_⟩
    rw [stripFrom, List.append_nil, if_neg (Text.not_lt_length_bytesOf _)]
    simp only [Text.dropBytes_append, liftM_some, pure_bind]
  | @quoted i q body s tokens quote scan more ih =>
    have scan := scanDelimited_append scan s
    have next : i + byteSize (q :: body ++ [q]) =
        origin + byteSize (done ++ (pending ++ (q :: body ++ [q]))) := by
      rw [place, ← List.append_assoc done, Text.byteSize_append (done ++ pending), Nat.add_assoc]
    obtain ⟨out, pairs, found, strips, same, tests, run⟩ := ih kept done _ next
    rw [← List.append_assoc] at strips
    refine ⟨out, pairs, found, ?_, same, tests, ?_⟩
    · have whole := strips_quoted quote scan strips
      simpa using whole
    · obtain ⟨b, here, is⟩ := exists_firstByte q (done ++ pending) (body ++ [q] ++ s)
      obtain ⟨text, nonempty, halves, passes⟩ := exists_passQuoted quote (done ++ pending) (body ++ [q] ++ s)
      obtain rfl : q :: body ++ [q] = text := by
        rw [Extended.skipQuoted_eq scan, List.nil_append] at halves
        exact (List.append_left_inj s).mp (by simpa using halves)
      have ahead := Text.byteSize_lt_append (done ++ pending) nonempty
      rw [← run]
      simp only [List.append_assoc, List.cons_append] at here passes ahead ⊢
      rw [stripFrom, if_pos (lt_length here), here]
      simp only [isQuoteByte_eq is, quote, if_true, passes, liftM_some, pure_bind, if_pos ahead]
  | @test i call s test tokens isCall more ih =>
    have next : i + byteSize (containsToken ++ call) =
        origin + byteSize ((done ++ pending ++ (containsToken ++ call)) ++ []) := by
      rw [place, List.append_nil, Text.byteSize_append (done ++ pending), Nat.add_assoc]
    obtain ⟨out, pairs, found, strips, rfl, tests, run⟩ := ih (kept ++ pending) _ [] next
    rw [List.append_nil] at strips
    simp only [List.append_nil] at run
    refine ⟨out, { sub := String.ofList (orAny (Text.trimChars (kept ++ pending))), test } :: pairs,
      ⟨byteSize (done ++ pending), byteSize (done ++ pending ++ (containsToken ++ call)), test⟩ :: found,
      ?_, ?_, by rw [List.map_cons, List.map_cons, tests], ?_⟩
    · have whole := strips_test (isCall s) strips
      rwa [← List.append_assoc] at whole
    · rw [List.map_cons, Token.shift, ← place, Text.byteSize_append (done ++ pending), ← Nat.add_assoc,
        ← place]
    · have opened : afterContains (containsToken ++ (call ++ s)) = some (call ++ s) := afterContains_append _
      obtain ⟨b, here, is⟩ := exists_firstByte ':' (done ++ pending) ("contains(".toList ++ (call ++ s))
      have stands := standsAt_of_some (done ++ pending) opened
      have read := readTest_of_isCall isCall (done ++ pending) s origin
      have text := Text.slice_append done pending (containsToken ++ (call ++ s))
      have ahead : byteSize (done ++ pending) < byteSize (done ++ pending ++ (containsToken ++ call)) :=
        Text.byteSize_lt_append _ (List.append_ne_nil_of_left_ne_nil (by decide) _)
      have colon : ':' :: ("contains(".toList ++ (call ++ s)) = containsToken ++ (call ++ s) := rfl
      rw [colon] at here
      simp only [List.append_assoc] at here stands read text ahead run ⊢
      rw [stripFrom, if_pos (lt_length here), here]
      simp only [isQuoteByte_eq is, show isQuote ':' = false from rfl, if_neg Bool.false_ne_true,
        if_pos ((is ':' (by decide)).mpr rfl), stands, if_true, text, read, if_pos ahead, run, liftM_some,
        pure_bind]
  | @char i c s tokens plain noTest more ih =>
    have next : i + byteSize [c] = origin + byteSize (done ++ (pending ++ [c])) := by
      rw [place, ← List.append_assoc done, Text.byteSize_append (done ++ pending), Nat.add_assoc]
    obtain ⟨out, pairs, found, strips, same, tests, run⟩ := ih kept done _ next
    rw [← List.append_assoc] at strips
    refine ⟨out, pairs, found, strips_char plain noTest strips, same, tests, ?_⟩
    obtain ⟨b, here, is⟩ := exists_firstByte c (done ++ pending) s
    have stands := standsAt_of_none (done ++ pending) noTest
    have behind := stripFrom_behind_first origin kept (byteSize done) (done ++ pending) s c
    rw [← run]
    simp only [List.append_assoc, List.cons_append, List.nil_append] at here stands behind ⊢
    rw [← behind, stripFrom, if_pos (lt_length here), here]
    by_cases colon : c = ':'
    · simp only [isQuoteByte_eq is, plain, if_neg Bool.false_ne_true,
        if_pos ((is ':' (by decide)).mpr colon), stands, liftM_some, pure_bind]
    · simp [isQuoteByte_eq is, plain, is, colon]

/-- An argument in which text tests are found can be stripped of them, and they are found again. -/
theorem stripFrom_eq (scans : Scans origin argument tokens) :
    ∃ out pairs found, Strips [] argument out pairs ∧ found.map (Token.shift origin) = tokens ∧
      pairs.map HasTest.test = found.map Token.test ∧
      stripFrom argument origin [] 0 0 = pure (Text.trimChars out, pairs, found) :=
  stripFrom_of_scans scans [] [] [] rfl

end Cursor

end NoiseFilter.Extended
