import NoiseFilter.Proofs.Extended.Orderly

/-!
# Walking over orderly text

The scanners pass over orderly text and keep it as it is, as long as no argument of a `:has(…)` in it
mentions a text test, which it can do in quotes only.
-/

namespace NoiseFilter.Extended

open Selector (isNameChar)
open Text (isBlank skipBlanks)

/-- Behind a `:has(` no text test is mentioned. -/
def Quiet (s : List Char) : Prop :=
  ∀ t, t <:+ s → ∀ u, afterHas t = some u → Text.occursIn containsToken u = false

section

variable {s t r u word argument : List Char} {found : Found} {k : Bool} {depth : Nat}

theorem Quiet.of_absent (absent : Text.occursIn containsToken s = false) : Quiet s := by
  intro t suffix u opened
  obtain ⟨w, rfl, -⟩ := afterHas_eq_some_iff.mp opened
  exact occursIn_eq_false_of_infix ((List.suffix_append w u).trans suffix).isInfix absent

theorem Quiet.of_infix (quiet : Quiet t) (inside : s <:+: t) : Quiet s := by
  obtain ⟨front, back, rfl⟩ := inside
  intro u suffix v opened
  obtain ⟨w, rfl, lowered⟩ := afterHas_eq_some_iff.mp opened
  have longer : (w ++ v) ++ back <:+ front ++ s ++ back := by
    obtain ⟨x, rfl⟩ := suffix
    exact ⟨front ++ x, by simp⟩
  have absent := quiet _ longer (v ++ back)
    (afterHas_eq_some_iff.mpr ⟨w, by rw [List.append_assoc], lowered⟩)
  exact occursIn_eq_false_of_infix (List.prefix_append v back).isInfix absent

/-- A walk keeps a text in which nothing opens. -/
theorem walks_text (unquoted : ∀ c ∈ s, isQuote c = false)
    (closed : ∀ t, t ≠ [] → t <:+ s → afterContains (t ++ r) = none ∧ afterHas (t ++ r) = none)
    (rest : Walks r found) : Walks (s ++ r) (found.keep s) := by
  induction s with
  | nil => exact rest
  | cons c s ih =>
    rw [List.forall_mem_cons] at unquoted
    have here := closed (c :: s) (List.cons_ne_nil _ _) (List.suffix_refl _)
    have more := ih unquoted.2 fun t nonempty suffix =>
      closed t nonempty (suffix.trans (List.suffix_cons c s))
    simpa using walks_char unquoted.1 here.2 here.1 more

theorem walks_plain (plain : ∀ c ∈ s, isQuote c = false ∧ c ≠ ':') (rest : Walks r found) :
    Walks (s ++ r) (found.keep s) := by
  refine walks_text (fun c member => (plain c member).1) (fun t nonempty suffix => ?_) rest
  obtain ⟨c, t, rfl⟩ := List.exists_cons_of_ne_nil nonempty
  have other := (plain c (suffix.subset (List.mem_cons_self ..))).2
  exact ⟨afterContains_of_ne other _, afterHas_of_ne other _⟩

variable {kept out : List Char} {tests : HasClause}

/-- Of an argument a text in which no test begins is kept. -/
theorem strips_text (unquoted : ∀ c ∈ s, isQuote c = false)
    (closed : ∀ t, t ≠ [] → t <:+ s → afterContains (t ++ r) = none)
    (rest : Strips (kept ++ s) r out tests) : Strips kept (s ++ r) out tests := by
  induction s generalizing kept with
  | nil => rwa [List.append_nil] at rest
  | cons c s ih =>
    rw [List.forall_mem_cons] at unquoted
    refine strips_char unquoted.1 (closed (c :: s) (List.cons_ne_nil _ _) (List.suffix_refl _)) ?_
    exact ih unquoted.2 (fun t nonempty suffix =>
      closed t nonempty (suffix.trans (List.suffix_cons c s))) (by simpa using rest)

theorem strips_plain (plain : ∀ c ∈ s, isQuote c = false ∧ c ≠ ':')
    (rest : Strips (kept ++ s) r out tests) : Strips kept (s ++ r) out tests := by
  refine strips_text (fun c member => (plain c member).1) (fun t nonempty suffix => ?_) rest
  obtain ⟨c, t, rfl⟩ := List.exists_cons_of_ne_nil nonempty
  exact afterContains_of_ne (plain c (suffix.subset (List.mem_cons_self ..))).2 _

/-- A text test does not begin with a colon in front of another word. -/
theorem noTest_of_has (has : word.map Char.toLower = "has".toList) :
    afterContains (':' :: word ++ '(' :: s) = none := by
  have letters := isNameChar_of_has has
  have noOpen : '(' ∉ word := fun member => absurd (letters _ member).1 (by decide)
  refine noTest_of_scanName (scanName_append letters (by simp; decide)) noOpen ?_
  intro same
  rw [same] at has
  exact absurd has (by decide)

/-- An argument goes on behind plain characters. -/
theorem argumentRead_plain (plain : ∀ c ∈ s, isMark c = false ∧ c ≠ ':')
    (more : ArgumentRead depth r argument u) :
    ArgumentRead depth (s ++ r) (s ++ argument) u := by
  induction s with
  | nil => exact more
  | cons c s ih =>
    rw [List.forall_mem_cons] at plain
    have other {d : Char} (mark : isMark d = true) : c ≠ d := by
      intro same
      rw [← same, plain.1.1] at mark
      cases mark
    exact argumentRead_char (isQuote_eq_false plain.1.1) (other rfl) (other rfl)
      (afterContains_of_ne plain.1.2 _) (ih plain.2)

/-- An argument goes on behind orderly text. -/
theorem Orderly.argumentRead (orderly : Orderly k s r) (more : ArgumentRead depth r argument u) :
    ArgumentRead depth (s ++ r) (s ++ argument) u := by
  have bracket {c : Char} (bracket : c = '[' ∨ c = ']' ∨ c = ',') {depth : Nat}
      {s argument u : List Char} (more : ArgumentRead depth s argument u) :
      ArgumentRead depth (c :: s) (c :: argument) u := by
    have facts : isQuote c = false ∧ c ≠ '(' ∧ c ≠ ')' ∧ c ≠ ':' := by
      rcases bracket with rfl | rfl | rfl <;> decide
    exact argumentRead_char facts.1 facts.2.1 facts.2.2.1 (afterContains_of_ne facts.2.2.2 _) more
  induction orderly generalizing depth argument u with
  | done => exact more
  | @plain _ c s r unmarked notColon _ ih =>
    exact argumentRead_plain (s := [c]) (by simpa using ⟨unmarked, notColon⟩) (ih more)
  | @quoted _ q body s r quote scan _ ih =>
    have whole := scanDelimited_append scan (s ++ r)
    rw [List.append_assoc] at whole
    simpa using argumentRead_quoted quote whole (ih more)
  | colon noTest noHas _ ih =>
    exact argumentRead_char rfl (by decide) (by decide) noTest (ih more)
  | @has _ word inner s r has _ _ _ ihInside ih =>
    have close := argumentRead_closing (ih more)
    have whole := argumentRead_open (ihInside close)
    have named := argumentRead_plain (s := word) (fun c member =>
      ⟨isMark_of_isNameChar (isNameChar_of_has has c member).1,
        ne_of_isNameChar (isNameChar_of_has has c member).1 rfl⟩) whole
    have noTest := noTest_of_has (s := inner ++ ')' :: (s ++ r)) has
    simpa using argumentRead_char rfl (by decide) (by decide) (by simpa using noTest) named
  | @parens _ inner s r _ _ _ ihInside ih =>
    simpa using argumentRead_open (ihInside (argumentRead_closing (ih more)))
  | @brackets _ inner s r _ _ ihInside ih =>
    simpa using bracket (.inl rfl) (ihInside (bracket (.inr (.inl rfl)) (ih more)))
  | comma _ ih => exact bracket (.inr (.inr rfl)) (ih more)

/-- A walk keeps orderly text. -/
theorem Orderly.walks (orderly : Orderly k s r) (quiet : Quiet s) (rest : Walks r found) :
    Walks (s ++ r) (found.keep s) := by
  have mark {c : Char} (other : c ≠ ':') (plain : isQuote c = false) {s : List Char} {found : Found}
      (rest : Walks s found) : Walks (c :: s) (found.keep [c]) :=
    walks_char plain (afterHas_of_ne other _) (afterContains_of_ne other _) rest
  induction orderly generalizing found with
  | done => exact rest
  | @plain _ c s r unmarked notColon _ ih =>
    simpa using mark notColon (isQuote_eq_false unmarked)
      (ih (quiet.of_infix ⟨[c], [], by simp⟩) rest)
  | @quoted _ q body s r quote scan _ ih =>
    have whole := scanDelimited_append scan (s ++ r)
    rw [List.append_assoc] at whole
    have more := ih (quiet.of_infix ⟨q :: body ++ [q], [], by simp⟩) rest
    simpa using walks_quoted quote whole more
  | @colon _ s r noTest noHas _ ih =>
    have more := ih (quiet.of_infix ⟨[':'], [], by simp⟩) rest
    simpa using walks_char rfl noHas noTest more
  | @has _ word inner s r has _ inside _ _ ih =>
    have opened {v : List Char} : afterHas (':' :: (word ++ '(' :: v)) = some v :=
      afterHas_colon_iff.mpr ⟨word, rfl, has⟩
    have absent := quiet _ (List.suffix_refl _) (inner ++ ')' :: s) (by simpa using opened)
    have noTest := occursIn_eq_false_of_infix (List.prefix_append inner (')' :: s)).isInfix absent
    have more := ih (quiet.of_infix ⟨':' :: word ++ '(' :: inner ++ [')'], [], by simp⟩) rest
    have argument : ArgumentRead 0 (inner ++ ')' :: (s ++ r)) inner (s ++ r) := by
      simpa using inside.argumentRead argumentRead_close
    have whole := walks_has opened argument noTest more
    rw [show ':' :: (word ++ '(' :: (inner ++ ')' :: (s ++ r))) =
      (':' :: word ++ '(' :: inner ++ [')']) ++ (s ++ r) by simp, passed_append] at whole
    simpa using whole
  | @parens _ inner s r _ _ _ ihInside ih =>
    have more := ih (quiet.of_infix ⟨'(' :: inner ++ [')'], [], by simp⟩) rest
    have within := ihInside (quiet.of_infix ⟨['('], ')' :: s, by simp⟩) (mark (by decide) rfl more)
    simpa using mark (by decide) rfl within
  | @brackets _ inner s r _ _ ihInside ih =>
    have more := ih (quiet.of_infix ⟨'[' :: inner ++ [']'], [], by simp⟩) rest
    have within := ihInside (quiet.of_infix ⟨['['], ']' :: s, by simp⟩) (mark (by decide) rfl more)
    simpa using mark (by decide) rfl within
  | @comma s r _ ih =>
    simpa using mark (by decide) rfl (ih (quiet.of_infix ⟨[','], [], by simp⟩) rest)

/-- A word that does not hold a character does not begin in front of it, unless it ends there. -/
theorem exists_append_of_not_mem {d : Char} (absent : d ∉ word) (same : s ++ d :: t = word ++ u) :
    ∃ v, s = word ++ v := by
  rcases List.append_eq_append_iff.mp same with ⟨x, rfl, rest⟩ | ⟨x, rfl, -⟩
  · match x with
    | [] => exact ⟨[], by simp⟩
    | c :: x =>
      obtain ⟨rfl, -⟩ := List.cons.inj rest
      exact absurd (by simp) absent
  · exact ⟨x, rfl⟩

/-- A test that does not begin in a text does not begin there in front of what ends a name either. -/
theorem afterContains_before {d : Char} (stop : isNameChar d = false) (notOpen : d ≠ '(')
    (nonempty : s ≠ []) (closed : afterContains s = none) : afterContains (s ++ d :: t) = none := by
  refine Option.eq_none_iff_forall_ne_some.mpr fun u opened => ?_
  rw [afterContains_eq_some_iff] at opened
  obtain ⟨c, s, rfl⟩ := List.exists_cons_of_ne_nil nonempty
  have opening : containsToken = ':' :: ("contains".toList ++ ['(']) := by decide
  have absent : d ∉ "contains".toList ++ ['('] := by
    intro member
    rcases List.mem_append.mp member with member | member
    · have letter : isNameChar d = true := List.all_eq_true.mp (by decide) d member
      rw [stop] at letter
      cases letter
    · exact notOpen (List.mem_singleton.mp member)
  rw [opening, List.cons_append, List.cons_append, List.cons.injEq] at opened
  obtain ⟨rfl, rest⟩ := opened
  obtain ⟨v, rfl⟩ := exists_append_of_not_mem absent rest
  have opened := afterContains_append v
  rw [opening, List.cons_append, closed] at opened
  cases opened

theorem afterHas_before {d : Char} (stop : isNameChar d = false) (notOpen : d ≠ '(')
    (nonempty : s ≠ []) (closed : afterHas s = none) : afterHas (s ++ d :: t) = none := by
  obtain ⟨c, s, rfl⟩ := List.exists_cons_of_ne_nil nonempty
  by_cases colon : c = ':'
  · subst colon
    refine Option.eq_none_iff_forall_ne_some.mpr fun u opened => ?_
    obtain ⟨word, same, has⟩ := afterHas_colon_iff.mp opened
    have absent : d ∉ word ++ ['('] := by
      intro member
      rcases List.mem_append.mp member with member | member
      · rw [(isNameChar_of_has has _ member).1] at stop
        cases stop
      · exact notOpen (List.mem_singleton.mp member)
    obtain ⟨v, rfl⟩ := exists_append_of_not_mem (u := u) absent (by simpa using same)
    have opened : afterHas (':' :: (word ++ ['('] ++ v)) = some v :=
      afterHas_colon_iff.mpr ⟨word, by simp, has⟩
    rw [opened] at closed
    cases closed
  · exact afterHas_of_ne colon _

/-- Orderly text stays so when something that begins with a colon is put behind it. -/
theorem Orderly.before_colon (orderly : Orderly k s r) : Orderly k s (r ++ ':' :: t) := by
  induction orderly with
  | done => exact .done
  | plain unmarked notColon _ ih => exact .plain unmarked notColon ih
  | quoted quote scan _ ih => exact .quoted quote scan ih
  | @colon _ s r noTest noHas _ ih =>
    rw [List.cons_append] at noTest noHas
    exact .colon (by simpa using afterContains_before (d := ':') (t := t) rfl (by decide) (by simp) noTest)
      (by simpa using afterHas_before (d := ':') (t := t) rfl (by decide) (by simp) noHas) ih
  | has has filled _ _ ihInside ih => exact .has has filled (by simpa using ihInside) ih
  | parens filled _ _ ihInside ih => exact .parens filled (by simpa using ihInside) ih
  | brackets _ _ ihInside ih => exact .brackets (by simpa using ihInside) ih
  | comma _ ih => exact .comma ih

end

end NoiseFilter.Extended
