import NoiseFilter.Extended.Scan
import NoiseFilter.Text.CaseFold

/-!
# Tidying a selector

Once text tests are taken out of a selector, what is left may hold logic without argument, blanks
in a row, and parts that are empty or start or end with a combinator. Tidying mends this as text.
-/

namespace NoiseFilter.Extended

/-- What follows a word, in any case of letters, at the start of a text. -/
def afterWord : List Char → List Char → Option (List Char)
  | [], s => some s
  | _ :: _, [] => none
  | w :: word, c :: s => if (Text.caseVariants c).contains w then afterWord word s else none

/-- What follows a logical pseudo-class without argument at the start of a text. -/
def afterEmptyLogic : List Char → Option (List Char)
  | ':' :: s => do
    let s ← afterWord "not(".toList s <|> afterWord "is(".toList s <|> afterWord "where(".toList s
    match Text.skipBlanks s with
    | ')' :: rest => some rest
    | _ => none
  | _ => none

theorem length_le_of_afterWord {word s rest : List Char} (h : afterWord word s = some rest) :
    rest.length ≤ s.length := by
  fun_induction afterWord word s with
  | case1 => simp_all
  | case2 => simp at h
  | case3 w word c s hw ih => have := ih h; simp; omega
  | case4 => simp at h

theorem length_lt_of_afterEmptyLogic {s rest : List Char} (h : afterEmptyLogic s = some rest) :
    rest.length < s.length := by
  unfold afterEmptyLogic at h
  split at h
  · next s =>
    obtain ⟨mid, hmid, h⟩ := Option.bind_eq_some_iff.1 h
    have le : mid.length ≤ s.length := by
      simp only [Option.orElse_eq_orElse, Option.orElse_eq_or, Option.or_eq_some_iff] at hmid
      rcases hmid with hmid | ⟨_, hmid | ⟨_, hmid⟩⟩ <;> exact length_le_of_afterWord hmid
    have blanks := Text.length_skipBlanks_le mid
    split at h
    · next heq =>
      simp only [Option.some.injEq] at h
      subst h
      rw [heq] at blanks
      simp at blanks ⊢
      omega
    · simp at h
  · simp at h

/-- Take out every logical pseudo-class without argument. -/
def dropEmptyLogic (s : List Char) : List Char :=
  match h : afterEmptyLogic s with
  | some rest => have := length_lt_of_afterEmptyLogic h; dropEmptyLogic rest
  | none =>
    match s with
    | [] => []
    | c :: rest => c :: dropEmptyLogic rest
termination_by s.length

/-- Take them out until none is left. -/
def dropAllEmptyLogic (s : List Char) : List Char :=
  if (dropEmptyLogic s).length < s.length then dropAllEmptyLogic (dropEmptyLogic s) else s
termination_by s.length

/-- The parts between commas that stand outside parentheses, brackets and quotes. -/
def splitTopLevel (depth : Nat) (part : List Char) (s : List Char) : List (List Char) :=
  match s with
  | [] => [part]
  | c :: rest =>
    if isQuote c then
      have := length_skipQuoted_le c rest
      let next := skipQuoted c rest
      splitTopLevel depth (part ++ (c :: rest).take ((c :: rest).length - next.length)) next
    else if c = '(' ∨ c = '[' then splitTopLevel (depth + 1) (part ++ [c]) rest
    else if c = ')' ∨ c = ']' then splitTopLevel (depth - 1) (part ++ [c]) rest
    else if c = ',' ∧ depth = 0 then part :: splitTopLevel 0 [] rest
    else splitTopLevel depth (part ++ [c]) rest
termination_by s.length

/-- Where a character stands. -/
inductive Place where
  /-- Outside quotes; `pending` says that blanks have been passed over. -/
  | outside (pending : Bool)
  | quoted (quote : Char)
  /-- Behind a backslash in quotes. -/
  | escaped (quote : Char)

/-- Make every run of blanks outside quotes one space, and drop those in front. -/
def collapse (started : Bool) : Place → List Char → List Char
  | _, [] => []
  | .quoted q, c :: rest =>
    c :: collapse true
      (if c = '\\' then .escaped q else if c = q then .outside false else .quoted q) rest
  | .escaped q, c :: rest => c :: collapse true (.quoted q) rest
  | .outside pending, c :: rest =>
    if Text.isBlank c then collapse started (.outside true) rest
    else
      let next := collapse true (if isQuote c then .quoted c else .outside false) rest
      if pending && started then ' ' :: c :: next else c :: next

def isCombinatorChar (c : Char) : Bool := c == '>' || c == '+' || c == '~'

/-- Tidy one alternative. An empty one, and an empty side of a combinator, is any element. -/
def tidyPart (part : List Char) : List Char :=
  let s := collapse false (.outside false) (Text.trimChars part)
  if s.isEmpty then ['*']
  else
    let s := if s.head?.any isCombinatorChar then ['*', ' '] ++ s else s
    if s.getLast?.any isCombinatorChar then s ++ [' ', '*'] else s

/-- Tidy a selector. -/
def tidy (s : List Char) : List Char :=
  [',', ' '].intercalate ((splitTopLevel 0 [] (dropAllEmptyLogic s)).map tidyPart)

end NoiseFilter.Extended
