import NoiseFilter.Proofs.Extended.Mend
import NoiseFilter.Proofs.Extended.Spans

/-!
# Compiling is total and safe

The walk over a selector and the loops that tidy what is left answer over bytes as they do over characters
(`walkFrom_eq`, `tidy_eq_some`). So compiling over bytes answers for every text, and none of its checks fails
(`compile_safe`).
-/

namespace NoiseFilter.Extended

open Text (bytesOf byteOf byteSize dropBytes slice)

/-! ## Steps of a walk -/

section

variable {c : Char} {s inner : List Char} {offset : Nat}

theorem walk_quoted (quote : isQuote c = true) :
    walk offset (c :: s) =
      (walk (offset + byteSize (passed (c :: s) (skipQuoted c s))) (skipQuoted c s)).map
        (.keep (passed (c :: s) (skipQuoted c s))) := by
  rw [walk, if_pos quote]

theorem walk_has (plain : isQuote c = false) (opened : afterHas (c :: s) = some inner) :
    walk offset (c :: s) =
      outcome (readArgument offset (offset + byteSize hasToken) 0 inner) >>= fun argument =>
        if Text.occursIn containsToken argument.1 then
          strip (offset + byteSize hasToken) [] argument.1 >>= fun stripped =>
            (walk (offset + byteSize (passed (c :: s) argument.2)) argument.2).map fun found =>
              ({ found with has := stripped.2 :: found.has } : Found).keep
                (hasToken ++ orAny (Text.trimChars stripped.1) ++ [')'])
        else (walk (offset + byteSize (passed (c :: s) argument.2)) argument.2).map
          (.keep (passed (c :: s) argument.2)) := by
  rw [walk, if_neg (by simp [plain])]
  split
  · next inner' opened' =>
    obtain rfl : inner = inner' := Option.some.inj (opened.symm.trans opened')
    simp only
    cases readArgument offset (offset + byteSize hasToken) 0 inner with
    | error e => rfl
    | ok argument =>
      simp only [outcome, bind, Except.bind, Except.map]
      split
      · cases strip (offset + byteSize hasToken) [] argument.value <;> rfl
      · rfl
  · next closed => rw [opened] at closed; cases closed

theorem walk_test (plain : isQuote c = false) (noHas : afterHas (c :: s) = none)
    (opened : afterContains (c :: s) = some inner) :
    walk offset (c :: s) =
      outcome (readTest offset inner) >>= fun read =>
        (walk (offset + byteSize (passed (c :: s) read.2)) read.2).map fun found =>
          { found with contains := read.1 :: found.contains } := by
  rw [walk, if_neg (by simp [plain])]
  split
  · next opened => rw [noHas] at opened; cases opened
  · split
    · next inner' opened' =>
      obtain rfl : inner = inner' := Option.some.inj (opened.symm.trans opened')
      cases readTest offset inner with
      | error e => rfl
      | ok read => rfl
    · next closed => rw [opened] at closed; cases closed

theorem walk_char (plain : isQuote c = false) (noHas : afterHas (c :: s) = none)
    (noTest : afterContains (c :: s) = none) :
    walk offset (c :: s) = (walk (offset + c.utf8Size) s).map (.keep [c]) := by
  rw [walk, if_neg (by simp [plain])]
  split
  · next opened => rw [noHas] at opened; cases opened
  · split
    · next opened => rw [noTest] at opened; cases opened
    · rfl

end

namespace Cursor

/-! ## Openings -/

theorem lowerByte_byteOf {c : Char} (ascii : c.toNat < 0x80) :
    lowerByte (byteOf c) = byteOf c.toLower := by
  have all : ∀ n : Fin 0x80,
      lowerByte (byteOf (Char.ofNat n)) = byteOf (Char.ofNat n).toLower := by decide
  have here := all ⟨c.toNat, ascii⟩
  rwa [Char.ofNat_toNat] at here

theorem lowerByte_of_high {b : UInt8} (high : 0x80 ≤ b.toNat) : lowerByte b = b := by
  refine if_neg fun capital => ?_
  have last : b.toNat ≤ 0x5a := capital.2
  omega

/-- A word of ASCII stands in the bytes of a text, in any case of letters, as it does in the text. -/
theorem map_lowerByte_eq_iff {word : List Char} (ascii : ∀ d ∈ word, d.toNat < 0x80) (s : List Char) :
    ((bytesOf s).take (byteSize word)).map lowerByte = bytesOf word ↔
      (s.take word.length).map Char.toLower = word := by
  induction word generalizing s with
  | nil => simp [byteSize, bytesOf]
  | cons d word ih =>
    rw [List.forall_mem_cons] at ascii
    rw [Text.bytesOf_cons, Text.utf8EncodeChar_of_ascii ascii.1, byteSize, Text.utf8Size_of_ascii ascii.1,
      Nat.add_comm, List.length_cons]
    cases s with
    | nil => simp [bytesOf]
    | cons c s =>
      rw [Text.bytesOf_cons]
      rcases Nat.lt_or_ge c.toNat 0x80 with low | high
      · have low' : c.toLower.toNat < 0x80 := by
          rcases Text.toNat_toLower c with ⟨number, -, last⟩ | same
          · omega
          · rwa [same]
        have first : byteOf c.toLower = byteOf d ↔ c.toLower = d :=
          ⟨Text.byteOf_inj low' ascii.1, congrArg byteOf⟩
        simp only [Text.utf8EncodeChar_of_ascii low, List.singleton_append, List.take_succ_cons, List.map_cons,
          lowerByte_byteOf low, List.cons.injEq, first, ih ascii.2]
      · have other : c.toLower ≠ d := by
          rcases Text.toNat_toLower c with ⟨-, -, last⟩ | same
          · omega
          · rintro rfl
            rw [same] at ascii
            omega
        obtain ⟨b, bytes, encoded⟩ := List.exists_cons_of_length_pos (l := String.utf8EncodeChar c)
          (by rw [String.length_utf8EncodeChar]; exact c.utf8Size_pos)
        have above := Text.le_of_mem_utf8EncodeChar high (encoded ▸ List.mem_cons_self)
        have differs : b ≠ byteOf d := by
          rintro rfl
          rw [Text.toNat_byteOf ascii.1] at above
          omega
        simp [encoded, lowerByte_of_high above, differs, other]

theorem hasAt_eq (front s : List Char) :
    hasAt (bytesOf (front ++ s)) (byteSize front) = (afterHas s).isSome := by
  have ascii : ∀ d ∈ hasToken, d.toNat < 0x80 := by simp [hasToken]
  rw [Bool.eq_iff_iff, hasAt, beq_iff_eq, Text.bytesOf_append, ← Text.length_bytesOf front, List.drop_left,
    map_lowerByte_eq_iff ascii, afterHas]
  simp

/-! ## Walking -/

variable {c q : Char} {s : List Char}

theorem walkFrom_of_plain {source base : List Char} {copied i : Nat} {b : UInt8}
    (here : (bytesOf source)[i]? = some b) (plain : ∀ d ∈ ['"', '\'', ':'], b ≠ byteOf d) :
    walkFrom source base copied i = walkFrom source base copied (i + 1) := by
  rw [walkFrom, if_pos (lt_length here), here]
  simp at plain
  simp [isQuoteByte, plain]

theorem walkFrom_behind_first (base : List Char) (copied : Nat) (front back : List Char) (c : Char) :
    walkFrom (front ++ c :: back) base copied (byteSize front + 1) =
      walkFrom (front ++ c :: back) base copied (byteSize (front ++ [c])) :=
  Text.passes_behind_first front back (by simp) fun _ _ => walkFrom_of_plain

theorem map_keep_keep (u v : List Char) (e : Except CompileError Found) :
    (e.map (Found.keep v)).map (Found.keep u) = e.map (Found.keep (u ++ v)) := by
  cases e with
  | error e => rfl
  | ok found => simp [Except.map]

/-- The cursor finds what a walk finds, where `pending` is not copied yet. -/
def Walked (done pending s base : List Char) : Prop :=
  walkFrom (done ++ (pending ++ s)) base (byteSize done) (byteSize (done ++ pending)) =
    answer ((walk (byteSize (done ++ pending)) s).map (Found.keep (base ++ pending)))

section

variable {done pending base inner : List Char}

theorem walked_nil : Walked done pending [] base := by
  rw [Walked, walkFrom, List.append_nil, if_neg (Text.not_lt_length_bytesOf _), walk]
  simp only [Text.dropBytes_append, liftM_some, pure_bind]
  simp [Except.map, Found.keep]

variable (more : ∀ done pending next base, next.length ≤ s.length → Walked done pending next base)

include more

theorem walked_quoted (quote : isQuote c = true) : Walked done pending (c :: s) base := by
  obtain ⟨b, here, is⟩ := exists_firstByte c (done ++ pending) s
  obtain ⟨text, nonempty, halves, passes⟩ := exists_passQuoted quote (done ++ pending) s
  have ahead := Text.byteSize_lt_append (done ++ pending) nonempty
  have later := more done (pending ++ text) _ base (length_skipQuoted_le c s)
  have taken : passed (c :: s) (Extended.skipQuoted c s) = text := by
    rw [halves, passed_append]
  rw [Walked, List.append_assoc, ← halves] at later
  simp only [List.append_assoc] at here passes ahead later
  rw [Walked, walk_quoted quote, map_keep_keep, taken, walkFrom, if_pos (lt_length here), here]
  simp only [isQuoteByte_eq is, quote, if_true, passes, liftM_some, pure_bind, if_pos ahead, later,
    ← Text.byteSize_append, List.append_assoc]

theorem walked_char (plain : isQuote c = false) (noHas : afterHas (c :: s) = none)
    (noTest : afterContains (c :: s) = none) : Walked done pending (c :: s) base := by
  obtain ⟨b, here, is⟩ := exists_firstByte c (done ++ pending) s
  have later := more done (pending ++ [c]) _ base (Nat.le_refl _)
  have stands := standsAt_of_none (done ++ pending) noTest
  have has := hasAt_eq (done ++ pending) (c :: s)
  have behind := walkFrom_behind_first base (byteSize done) (done ++ pending) s c
  rw [Walked] at later
  rw [Walked, walk_char plain noHas noTest, map_keep_keep, ← Text.byteSize_singleton,
    ← Text.byteSize_append]
  simp only [List.append_assoc, List.cons_append, List.nil_append, noHas, Option.isSome_none] at *
  rw [← later, ← behind, walkFrom, if_pos (lt_length here), here]
  by_cases colon : c = ':'
  · simp only [isQuoteByte_eq is, plain, if_neg Bool.false_ne_true, has,
      if_pos ((is ':' (by decide)).mpr colon), stands, liftM_some, pure_bind]
  · simp [isQuoteByte_eq is, plain, is, colon]

theorem walked_test (plain : isQuote c = false) (noHas : afterHas (c :: s) = none)
    (opened : afterContains (c :: s) = some inner) : Walked done pending (c :: s) base := by
  obtain ⟨b, here, is⟩ := exists_firstByte c (done ++ pending) s
  have colon := eq_colon_of_afterContains opened
  have stands := standsAt_of_some (done ++ pending) opened
  have has := hasAt_eq (done ++ pending) (c :: s)
  have read := readTest_eq (done ++ pending) inner 0
  have text := Text.slice_append done pending (c :: s)
  rw [noHas, Option.isSome_none] at has
  rw [Nat.zero_add, ← afterContains_eq_some_iff.mp opened] at read
  simp only [List.append_assoc] at here stands has read text
  rw [Walked, walk_test plain noHas opened, walkFrom, if_pos (lt_length here), here]
  simp only [isQuoteByte_eq is, plain, if_neg Bool.false_ne_true, has,
      if_pos ((is ':' (by decide)).mpr colon), stands, if_true, text, liftM_some, pure_bind]
  cases found : outcome (Extended.readTest (byteSize (done ++ pending)) inner) with
  | error e =>
    rw [found] at read
    rw [read]
    rfl
  | ok answer =>
    obtain ⟨test, next⟩ := answer
    rw [found] at read
    obtain ⟨call, halves, -, run⟩ := read
    have whole : c :: s = containsToken ++ call ++ next := by
      rw [afterContains_eq_some_iff.mp opened, halves, List.append_assoc]
    have shorter := length_le_of_append (List.append_ne_nil_of_left_ne_nil (by decide) _) whole
    have later := more (done ++ (pending ++ (containsToken ++ call))) [] next (base ++ pending) shorter
    have place : byteSize (done ++ pending) + byteSize (passed (c :: s) next) =
        byteSize (done ++ (pending ++ (containsToken ++ call))) := by
      rw [whole, passed_append, ← Text.byteSize_append, List.append_assoc]
    rw [Walked, List.append_assoc, List.append_assoc, List.nil_append, List.append_nil, List.append_nil,
      ← whole] at later
    have ahead : byteSize (done ++ pending) < byteSize (done ++ (pending ++ (containsToken ++ call))) := by
      rw [← List.append_assoc]
      exact Text.byteSize_lt_append _ (List.append_ne_nil_of_left_ne_nil (by decide) _)
    simp only [run, pure_bind, if_pos ahead, later]
    show _ = answer (Except.map _ (Except.map _ (walk (_ + byteSize (passed (c :: s) next)) next)))
    rw [place]
    cases walk (byteSize (done ++ (pending ++ (containsToken ++ call)))) next <;> rfl

theorem walked_has (plain : isQuote c = false) (opened : afterHas (c :: s) = some inner) :
    Walked done pending (c :: s) base := by
  obtain ⟨b, here, is⟩ := exists_firstByte c (done ++ pending) s
  obtain ⟨word, whole, lowered⟩ := afterHas_eq_some_iff.mp opened
  have colon : c = ':' := by
    refine Decidable.of_not_not fun other => ?_
    rw [afterHas_of_ne other] at opened
    cases opened
  have has := hasAt_eq (done ++ pending) (c :: s)
  have text := Text.slice_append done pending (c :: s)
  have first : byteSize (done ++ pending) + byteSize hasToken = byteSize (done ++ (pending ++ word)) := by
    rw [← lowered, Text.byteSize_map_toLower, ← Text.byteSize_append, List.append_assoc]
  have ends := argumentEnd_eq (byteSize (done ++ pending)) 0 (done ++ (pending ++ word)) inner
  rw [Reaches] at ends
  rw [opened, Option.isSome_some] at has
  simp only [List.append_assoc] at here has text
  rw [Walked, walk_has plain opened, walkFrom, if_pos (lt_length here), here, first]
  simp only [isQuoteByte_eq is, plain, if_neg Bool.false_ne_true, has,
      if_pos ((is ':' (by decide)).mpr colon), if_true, text, liftM_some, pure_bind]
  cases read : outcome (readArgument (byteSize (done ++ pending))
    (byteSize (done ++ (pending ++ word))) 0 inner) with
  | error e =>
    rw [read, Ends] at ends
    simp only [List.append_assoc, ← whole] at ends
    rw [ends]
    rfl
  | ok answer =>
    obtain ⟨argument, next⟩ := answer
    rw [read] at ends
    obtain ⟨halves, tokens, scans, run⟩ := ends
    simp only [List.append_assoc, ← whole] at run
    obtain ⟨out, pairs, found, strips, -, -, stripped⟩ := stripFrom_eq scans
    have cut := Text.slice_append (done ++ (pending ++ word)) argument (')' :: next)
    have front : c :: s = word ++ (argument ++ [')']) ++ next := by simp [whole, halves]
    have close : byteSize (done ++ (pending ++ (word ++ argument))) + 1 =
        byteSize (done ++ (pending ++ (word ++ (argument ++ [')'])))) := by
      rw [← Text.byteSize_concat (c := ')') (by decide)]
      simp
    have behind : byteSize (done ++ pending) + byteSize (word ++ (argument ++ [')'])) =
        byteSize (done ++ (pending ++ (word ++ (argument ++ [')'])))) := by
      rw [← Text.byteSize_append, List.append_assoc]
    have shorter := length_le_of_append (by simp) front
    have taken : passed (c :: s) next = word ++ (argument ++ [')']) := by rw [front, passed_append]
    simp only [List.append_assoc, List.cons_append, List.nil_append] at cut run front
    rw [← front] at cut
    have ahead : byteSize (done ++ pending) < byteSize (done ++ (pending ++ (word ++ (argument ++ [')'])))) := by
      rw [← List.append_assoc]
      exact Text.byteSize_lt_append _ (by simp)
    simp only [List.append_assoc, run, pure_bind, cut, liftM_some, close, if_pos ahead]
    show _ = answer (Except.map _ (if Text.occursIn containsToken argument = true then _ else _))
    by_cases tests : Text.occursIn containsToken argument = true
    · have later := more (done ++ (pending ++ (word ++ (argument ++ [')'])))) [] next
        (base ++ pending ++ hasToken ++ orAny (Text.trimChars out) ++ [')']) shorter
      simp only [Walked, List.append_assoc, List.cons_append, List.nil_append, List.append_nil,
        ← front] at later
      simp only [if_pos tests, stripped, pure_bind, later, taken, behind]
      rw [strips]
      show _ = answer (Except.map _ (Except.map _ (walk _ next)))
      cases walk (byteSize (done ++ (pending ++ (word ++ (argument ++ [')']))))) next with
      | error e => rfl
      | ok found => simp [Except.map, Found.keep]
    · have later := more done (pending ++ (word ++ (argument ++ [')']))) next base shorter
      simp only [Walked, List.append_assoc, List.cons_append, List.nil_append, ← front] at later
      simp only [if_neg tests, later, taken, behind, map_keep_keep, List.append_assoc]

end

theorem walkFrom_eq (done pending s base : List Char) : Walked done pending s base := by
  cases s with
  | nil => exact walked_nil
  | cons c s =>
    have more (done pending next base) (shorter : next.length ≤ s.length) :
        Walked done pending next base := walkFrom_eq done pending next base
    cases quote : isQuote c with
    | true => exact walked_quoted more quote
    | false =>
      cases has : afterHas (c :: s) with
      | some inner => exact walked_has more quote has
      | none =>
        cases test : afterContains (c :: s) with
        | some inner => exact walked_test more quote has test
        | none => exact walked_char more quote has test
termination_by s.length
decreasing_by exact Nat.lt_succ_of_le shorter

/-! ## Tidying -/

theorem clean_eq (s : List Char) : clean s = some (dropAllEmptyLogic s) := by
  fun_induction dropAllEmptyLogic s with
  | case1 s shorter ih =>
    have other : dropEmptyLogic s ≠ s := fun same => Nat.ne_of_lt shorter (congrArg List.length same)
    rw [clean]
    simp only [if_neg other, if_pos shorter, ih]
  | case2 s same => rw [clean, if_pos (dropEmptyLogic_eq_self (noEmptyLogic_of_length same))]

theorem splitFrom_of_plain {text : List Char} {start i depth : Nat} {b : UInt8}
    (here : (bytesOf text)[i]? = some b)
    (plain : ∀ d ∈ ['"', '\'', '(', '[', ')', ']', ','], b ≠ byteOf d) :
    splitFrom text start i depth = splitFrom text start (i + 1) depth := by
  rw [splitFrom, if_pos (lt_length here), here]
  simp at plain
  simp [isQuoteByte, plain]

theorem splitFrom_behind_first (start depth : Nat) (front back : List Char) (c : Char) :
    splitFrom (front ++ c :: back) start (byteSize front + 1) depth =
      splitFrom (front ++ c :: back) start (byteSize (front ++ [c])) depth :=
  Text.passes_behind_first front back (by simp) fun _ _ => splitFrom_of_plain

/-- The cursor splits a text where the scanners do. -/
theorem splitFrom_eq (done part s : List Char) (depth : Nat) :
    splitFrom (done ++ (part ++ s)) (byteSize done) (byteSize (done ++ part)) depth =
      some (splitTopLevel depth part s) := by
  fun_induction splitTopLevel depth part s generalizing done with
  | case1 =>
    rw [List.append_nil, splitFrom, if_neg (Text.not_lt_length_bytesOf _)]
    simp [Text.dropBytes_append]
  | case2 depth part c s quote short next ih =>
    obtain ⟨b, here, is⟩ := exists_firstByte c (done ++ part) s
    obtain ⟨text, nonempty, halves, passes⟩ := exists_passQuoted quote (done ++ part) s
    have ahead := Text.byteSize_lt_append (done ++ part) nonempty
    have taken : (c :: s).take ((c :: s).length - next.length) = text := by
      show passed (c :: s) (Extended.skipQuoted c s) = text
      rw [halves, passed_append]
    have later := ih done
    rw [taken, List.append_assoc, ← halves] at later
    simp only [List.append_assoc] at here passes ahead later
    rw [splitFrom, taken, ← later, if_pos (lt_length here), here]
    simp only [isQuoteByte_eq is, quote, if_true, passes, Option.bind_eq_bind, Option.bind_some, if_pos ahead]
  | case3 depth part c s plain opens ih =>
    obtain ⟨b, here, is⟩ := exists_firstByte c (done ++ part) s
    have behind := splitFrom_behind_first (byteSize done) (depth + 1) (done ++ part) s c
    have later := ih done
    simp only [List.append_assoc, List.cons_append, List.nil_append] at here behind later
    rw [splitFrom, ← later, ← behind, if_pos (lt_length here), here]
    simp [isQuoteByte_eq is, plain, is, opens]
  | case4 depth part c s plain noOpen closes ih =>
    obtain ⟨b, here, is⟩ := exists_firstByte c (done ++ part) s
    have behind := splitFrom_behind_first (byteSize done) (depth - 1) (done ++ part) s c
    have later := ih done
    simp only [List.append_assoc, List.cons_append, List.nil_append] at here behind later
    rw [splitFrom, ← later, ← behind, if_pos (lt_length here), here]
    simp [isQuoteByte_eq is, plain, is, noOpen, closes]
  | case5 depth part c s plain noOpen noClose comma ih =>
    obtain ⟨rfl, rfl⟩ := comma
    have here := Text.getElem?_bytesOf_ascii (c := ',') (by decide) (done ++ part) s
    have text := Text.slice_append done part (',' :: s)
    have later := ih (done ++ part ++ [','])
    rw [List.append_nil, Text.byteSize_concat (c := ',') (by decide)] at later
    simp only [List.append_assoc, List.cons_append, List.nil_append] at here later text
    rw [splitFrom, if_pos (lt_length here), here]
    simp [isQuoteByte, byteOf, later, text]
  | case6 depth part c s plain noOpen noClose noComma ih =>
    obtain ⟨b, here, is⟩ := exists_firstByte c (done ++ part) s
    have behind := splitFrom_behind_first (byteSize done) depth (done ++ part) s c
    have later := ih done
    simp only [List.append_assoc, List.cons_append, List.nil_append] at here behind later
    rw [splitFrom, ← later, ← behind, if_pos (lt_length here), here]
    simp [isQuoteByte_eq is, plain, is, noOpen, noClose, noComma]

theorem tidy_eq_some (s : List Char) : tidy s = some (Extended.tidy s) := by
  have split : splitFrom (dropAllEmptyLogic s) 0 0 0 = _ := splitFrom_eq [] [] (dropAllEmptyLogic s) 0
  simp only [tidy, clean_eq, split, Extended.tidy, Option.bind_eq_bind, Option.bind_some, Option.pure_def]

/-- Compiling over bytes answers as compiling does. -/
theorem compile_eq (source : String) : compile source = answer (ExtendedSelector.compile source) := by
  have walks : walkFrom source.toList [] 0 0 = _ := walkFrom_eq [] [] source.toList []
  rw [compile, ExtendedSelector.compile]
  split
  · rw [walks]
    show _ = answer (walk 0 source.toList >>= _)
    show answer (Except.map _ (walk 0 source.toList)) >>= _ = _
    cases walk 0 source.toList with
    | error e => rfl
    | ok found =>
      simp only [Except.map, answer_ok, pure_bind, tidy_eq_some, liftM_some]
      rfl
  · rfl

/-! ## Stripping what has been accepted -/

/-- A `:has(` begins with a colon. -/
theorem getElem?_of_hasAt {bytes : List UInt8} {i : Nat} (has : hasAt bytes i = true) :
    bytes[i]? = some (byteOf ':') := by
  have colon (b : UInt8) (lowered : lowerByte b = byteOf ':') : b = byteOf ':' := by
    rw [lowerByte] at lowered
    split at lowered
    · next capital =>
      have number := congrArg UInt8.toNat lowered
      have first : 0x41 ≤ b.toNat := capital.1
      have last : b.toNat ≤ 0x5a := capital.2
      rw [UInt8.toNat_add, Nat.mod_eq_of_lt (by simp; omega)] at number
      simp [byteOf] at number
      omega
    · exact lowered
  have letters : bytesOf hasToken = byteOf ':' :: bytesOf "has(".toList := rfl
  rw [hasAt, beq_iff_eq, letters] at has
  cases rest : bytes.drop i with
  | nil =>
    rw [rest] at has
    cases has
  | cons b rest' =>
    rw [rest, show byteSize hasToken = 4 + 1 from rfl, List.take_succ_cons, List.map_cons,
      List.cons.injEq] at has
    rw [← List.head?_drop, rest, List.head?_cons, colon b has.1]

/-- Compiling over bytes always answers, and as compiling does: it ends, no place at which it cuts is
outside of a text or inside a character, and no counter falls below zero. Once the argument of a `:has(`
has been accepted, it is stripped without error, and the same text tests are found at the same places. -/
theorem compile_safe (source : String) :
    compile source = answer (ExtendedSelector.compile source) ∧
      ∀ i close tokens, hasAt (bytesOf source.toList) i = true →
        argumentEnd source.toList i (i + byteSize hasToken) 0 = pure (close, tokens) →
        ∃ argument out pairs found,
          slice source.toList (i + byteSize hasToken) close = some argument ∧
          Strips [] argument out pairs ∧
          stripFrom argument (i + byteSize hasToken) [] 0 0 = pure (Text.trimChars out, pairs, found) ∧
          found.map (Token.shift (i + byteSize hasToken)) = tokens ∧
          pairs.map HasTest.test = tokens.map Token.test := by
  refine ⟨compile_eq source, fun i close tokens has accepted => ?_⟩
  obtain ⟨front, back, whole, rfl⟩ :=
    Text.exists_append_of_getElem?_bytesOf (by decide) (getElem?_of_hasAt has)
  rw [whole] at has accepted ⊢
  rw [hasAt_eq, Option.isSome_iff_exists] at has
  obtain ⟨inner, opened⟩ := has
  obtain ⟨word, split, lowered⟩ := afterHas_eq_some_iff.mp opened
  have first : byteSize front + byteSize hasToken = byteSize (front ++ word) := by
    rw [← lowered, Text.byteSize_map_toLower, ← Text.byteSize_append]
  have ends := argumentEnd_eq (byteSize front) 0 (front ++ word) inner
  rw [Reaches] at ends
  rw [split, first, ← List.append_assoc] at accepted ⊢
  cases read : outcome (readArgument (byteSize front) (byteSize (front ++ word)) 0 inner) with
  | error e =>
    rw [read, Ends, accepted] at ends
    cases congrArg ExceptT.run ends
  | ok answer =>
    obtain ⟨argument, next⟩ := answer
    rw [read] at ends
    obtain ⟨rfl, inside, scans, run⟩ := ends
    obtain ⟨rfl, rfl⟩ : byteSize (front ++ word ++ argument) = close ∧ inside = tokens := by
      simpa using congrArg ExceptT.run (run.symm.trans accepted)
    obtain ⟨out, pairs, found, strips, same, tests, stripped⟩ := stripFrom_eq scans
    have cut := Text.slice_append (front ++ word) argument (')' :: next)
    rw [List.append_assoc (front ++ word)] at cut
    refine ⟨argument, out, pairs, found, cut, strips, stripped, same, ?_⟩
    rw [tests, ← same, List.map_map]
    rfl

/-- The place behind a character outside ASCII is told in bytes. -/
theorem compile_safe_accent :
    let source := ":has(é:contains('a'))"
    hasAt (bytesOf source.toList) 0 = true ∧
      argumentEnd source.toList 0 (0 + byteSize hasToken) 0 = pure (21, [⟨7, 21, .literal "a"⟩]) ∧
      ∃ argument out pairs found, slice source.toList (0 + byteSize hasToken) 21 = some argument ∧
        Strips [] argument out pairs ∧
        stripFrom argument (0 + byteSize hasToken) [] 0 0 = pure (Text.trimChars out, pairs, found) ∧
        found.map (Token.shift (0 + byteSize hasToken)) = [⟨7, 21, .literal "a"⟩] ∧
        pairs.map HasTest.test = [.literal "a"] := by
  intro source
  have text : source.toList = ":has(é".toList ++ (containsToken ++ ("'a')".toList ++ [')'])) := by decide
  have isCall : IsCall "'a')".toList (.literal "a") := fun _ _ => ⟨_, rfl⟩
  have read : readTest source.toList 7 0 = pure (21, .literal "a") := by
    rw [text]
    exact readTest_of_isCall isCall ":has(é".toList [')'] 0
  have stands : standsAt source.toList containsToken 7 = some true := by decide
  have first : (bytesOf source.toList)[5]? = some 0xC3 := by decide
  have second : (bytesOf source.toList)[6]? = some 0xA9 := by decide
  have colon : (bytesOf source.toList)[7]? = some (byteOf ':') := by decide
  have close : (bytesOf source.toList)[21]? = some (byteOf ')') := by decide
  have opened : hasAt (bytesOf source.toList) 0 = true := by decide
  have accepted : argumentEnd source.toList 0 5 0 = pure (21, [⟨7, 21, .literal "a"⟩]) := by
    rw [argumentEnd_of_plain first (by simp [byteOf]), argumentEnd_of_plain second (by simp [byteOf]),
      argumentEnd, if_pos (lt_length colon), colon]
    simp only [stands, read, liftM_some, pure_bind]
    rw [argumentEnd, if_pos (lt_length close), close]
    rfl
  exact ⟨opened, accepted, (compile_safe source).2 0 21 _ opened accepted⟩

end Cursor

end NoiseFilter.Extended
