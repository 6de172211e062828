import NoiseFilter.Extended.TextTest
import NoiseFilter.Text.Reading

/-!
# Finding text tests in a selector

Readers for `:contains(…)` and for the argument of `:has(…)`. They look for quotes, escapes and
parentheses only; what else the selector says is none of their business. A text that stands in
quotes is passed over.
-/

namespace NoiseFilter.Extended

open Text (Read byteSize)

def containsToken : List Char := ":contains(".toList

def hasToken : List Char := ":has(".toList

/-- What follows `:contains(`, if the text starts with it. -/
def afterContains (s : List Char) : Option (List Char) :=
  if containsToken.isPrefixOf s then some (s.drop containsToken.length) else none

theorem length_lt_of_afterContains {s rest : List Char} (h : afterContains s = some rest) :
    rest.length < s.length := by
  unfold afterContains at h
  split at h
  · next hp =>
    have := (List.isPrefixOf_iff_prefix.1 hp).length_le
    simp only [Option.some.injEq] at h
    subst h
    have : containsToken.length = 10 := by decide
    simp only [List.length_drop]
    omega
  · simp at h

/-- What follows `:has(` in any case of letters, if the text starts with it. -/
def afterHas (s : List Char) : Option (List Char) :=
  if (s.take hasToken.length).map Char.toLower = hasToken then some (s.drop hasToken.length)
  else none

theorem length_lt_of_afterHas {s rest : List Char} (h : afterHas s = some rest) :
    rest.length < s.length := by
  unfold afterHas at h
  split at h
  · next hp =>
    have five : hasToken.length = 5 := by decide
    have := congrArg List.length hp
    simp only [Option.some.injEq] at h
    subst h
    simp only [List.length_drop, List.length_map, List.length_take, five] at *
    omega
  · simp at h

/-- A text up to a closing delimiter and what follows it. A backslash and the character behind it
belong together. -/
def scanDelimited (delimiter : Char) : List Char → Option (List Char × List Char)
  | [] => none
  | c :: rest =>
    if c = '\\' then
      match rest with
      | [] => none
      | d :: rest =>
        (scanDelimited delimiter rest).map fun (body, rest) => (c :: d :: body, rest)
    else if c = delimiter then some ([], rest)
    else (scanDelimited delimiter rest).map fun (body, rest) => (c :: body, rest)

theorem length_lt_of_scanDelimited {delimiter : Char} {s body rest : List Char}
    (h : scanDelimited delimiter s = some (body, rest)) : rest.length < s.length := by
  fun_induction scanDelimited delimiter s generalizing body rest with
  | case1 => simp at h
  | case2 => simp at h
  | case3 d r ih =>
    obtain ⟨⟨b, r'⟩, hb, heq⟩ := Option.map_eq_some_iff.1 h
    have := ih hb
    simp only [Prod.mk.injEq] at heq
    obtain ⟨rfl, rfl⟩ := heq
    simp only [List.length_cons]
    omega
  | case4 r _ =>
    simp only [Option.some.injEq, Prod.mk.injEq] at h
    obtain ⟨rfl, rfl⟩ := h
    simp
  | case5 c r _ _ ih =>
    obtain ⟨⟨b, r'⟩, hb, heq⟩ := Option.map_eq_some_iff.1 h
    have := ih hb
    simp only [Prod.mk.injEq] at heq
    obtain ⟨rfl, rfl⟩ := heq
    simp only [List.length_cons]
    omega

def isQuote (c : Char) : Bool := c == '"' || c == '\''

/-- What follows a quoted text whose opening quote has been taken; nothing if it does not end. -/
def skipQuoted (quote : Char) (s : List Char) : List Char :=
  match scanDelimited quote s with
  | none => []
  | some (_, rest) => rest

theorem length_skipQuoted_le (quote : Char) (s : List Char) :
    (skipQuoted quote s).length ≤ s.length := by
  unfold skipQuoted
  split
  · simp
  · next h => exact Nat.le_of_lt (length_lt_of_scanDelimited h)

def skipAsciiBlanks (s : List Char) : List Char := s.dropWhile Text.isAsciiBlank

theorem length_skipAsciiBlanks_le (s : List Char) : (skipAsciiBlanks s).length ≤ s.length :=
  (List.dropWhile_suffix _).length_le

/-- The test behind `:contains(` and its closing parenthesis. Errors point at `offset`. -/
def readTest (offset : Nat) (s : List Char) : Except CompileError (Read s.length TextTest) :=
  have open_ := length_skipAsciiBlanks_le s
  match h : skipAsciiBlanks s with
  | [] => .error (.unbalancedParens offset)
  | delimiter :: rest =>
    if isQuote delimiter || delimiter == '/' then
      match hs : scanDelimited delimiter rest with
      | none => .error (.unterminatedLiteral offset)
      | some (body, after) =>
        have close := length_skipAsciiBlanks_le after
        match hc : skipAsciiBlanks after with
        | ')' :: final => do
          let test ← TextTest.ofDelimited delimiter body
          return ⟨test, final, by
            have := length_lt_of_scanDelimited hs
            rw [h] at open_
            rw [hc] at close
            simp only [List.length_cons] at open_ close
            omega⟩
        | _ => .error (.unbalancedParens offset)
    else .error (.unquotedPattern offset)

/-- The argument of a `:has(` that stands at `start`, up to its closing parenthesis. Text tests and
quoted texts in it are passed over as a whole; `offset` is the place of what remains. -/
def readArgument (start offset depth : Nat) (s : List Char) :
    Except CompileError (Read s.length (List Char)) :=
  match s with
  | [] => .error (.unbalancedParens start)
  | c :: rest =>
    let step (next : List Char) (depth : Nat) (short : next.length < rest.length + 1) :
        Except CompileError (Read (c :: rest).length (List Char)) := do
      let taken := (c :: rest).take ((c :: rest).length - next.length)
      let more ← readArgument start (offset + byteSize taken) depth next
      return ⟨taken ++ more.value, more.rest, by
        have := more.short; simp only [List.length_cons]; omega⟩
    if isQuote c then
      match h : scanDelimited c rest with
      | none => .error (.unterminatedLiteral offset)
      | some (_, next) =>
        step next depth (by have := length_lt_of_scanDelimited h; omega)
    else
      match h : afterContains (c :: rest) with
      | some inner => do
        have : inner.length < rest.length + 1 := length_lt_of_afterContains h
        let test ← readTest offset inner
        step test.rest depth (by have := test.short; omega)
      | none =>
        if c = '(' then step rest (depth + 1) (Nat.lt_succ_self _)
        else if c = ')' then
          if depth = 0 then .ok (.past [] c rest) else step rest (depth - 1) (Nat.lt_succ_self _)
        else step rest depth (Nat.lt_succ_self _)
termination_by s.length

end NoiseFilter.Extended
