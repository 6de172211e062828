import Mathlib.Data.List.DropRight
import Mathlib.Data.List.TakeWhile
import NoiseFilter.Selector.Reader

/-!
# The grammar of selectors

The readers for the parts of a selector call each other, and each of them hands on its rest together
with a bound. `Reads item s r` says the same without bounds: the text `s` begins with `item`, and `r`
remains. A reader answers exactly as the grammar says (`reads_list` and its like for one direction,
`Reads.yielded` for the other), so whatever is shown of all selectors that can be read is shown by
induction on `Reads`, one case for each way to write a part.
-/

namespace NoiseFilter.Selector

open Text (Read skipBlanks length_skipBlanks_le length_lt_of_eq_cons)

/-! ## Answers of readers -/

/-- A reader answers with this value and leaves this rest. -/
def Yields {α : Type} {n : Nat} (x : Except Failure (Read n α)) (v : α) (rest : List Char) : Prop :=
  ∃ short, x = .ok ⟨v, rest, short⟩

section

variable {α β : Type} {n m : Nat} {v : α} {rest : List Char}

theorem yields_ok {w : α} {t : List Char} {short : t.length < n} :
    Yields (.ok ⟨w, t, short⟩) v rest ↔ w = v ∧ t = rest := by
  constructor
  · rintro ⟨_, same⟩
    simpa using same
  · rintro ⟨rfl, rfl⟩
    exact ⟨short, rfl⟩

theorem yields_pure {w : α} {t : List Char} {short : t.length < n} :
    Yields (pure ⟨w, t, short⟩) v rest ↔ w = v ∧ t = rest := yields_ok

theorem not_yields_error {e : Failure} : ¬ Yields (.error e : Except Failure (Read n α)) v rest := by
  rintro ⟨_, same⟩
  cases same

theorem yields_bind {x : Except Failure (Read m β)} {f : Read m β → Except Failure (Read n α)} :
    Yields (x >>= f) v rest ↔
      ∃ w t, ∃ short : t.length < m, x = .ok ⟨w, t, short⟩ ∧ Yields (f ⟨w, t, short⟩) v rest := by
  cases x with
  | error e => exact ⟨fun ⟨_, same⟩ => (nomatch same), fun ⟨_, _, _, same, _⟩ => (nomatch same)⟩
  | ok read =>
    obtain ⟨w, t, short⟩ := read
    exact ⟨fun y => ⟨w, t, short, rfl, y⟩, fun ⟨_, _, _, same, y⟩ => by cases same; exact y⟩

end

/-! ## Names, single characters and index expressions -/

theorem yields_readName {s name rest : List Char} :
    Yields (readName s) name rest ↔ scanName s = some (name, rest) ∧ name ≠ [] := by
  unfold readName
  split
  · next none => simp [none, not_yields_error]
  · next some => 
    rw [some]
    refine iff_of_false not_yields_error ?_
    rintro ⟨same, filled⟩
    simp only [Option.some.injEq, Prod.mk.injEq] at same
    exact filled same.1.symm
  · next some => 
    rw [yields_ok, some]
    simp only [Option.some.injEq, Prod.mk.injEq]
    constructor
    · rintro ⟨rfl, rfl⟩
      exact ⟨⟨rfl, rfl⟩, List.cons_ne_nil _ _⟩
    · exact fun h => h.1

theorem yields_expect {want : Char} {s rest : List Char} :
    Yields (expect want s) () rest ↔ s = want :: rest := by
  unfold expect
  split
  · simp [not_yields_error]
  · split
    · next same => simp [Read.past, yields_ok, same]
    · next other => simp [not_yields_error, other]

theorem yields_readNth {s rest : List Char} {e : Nth} :
    Yields (readNth s) e rest ↔
      Nth.ofChars (s.takeWhile (· != ')')) = some e ∧ rest = s.dropWhile (· != ')') := by
  unfold readNth
  dsimp only
  split
  · next bad => simp [bad, not_yields_error]
  · next good => rw [yields_ok, good, Option.some.injEq, eq_comm (a := rest)]

/-- What an index expression leaves begins with its closing parenthesis. -/
theorem skipBlanks_dropWhile_paren (s : List Char) :
    skipBlanks (s.dropWhile (· != ')')) = s.dropWhile (· != ')') := by
  unfold skipBlanks
  cases h : s.dropWhile (· != ')') with
  | nil => rfl
  | cons c rest =>
    have : c = ')' := by
      have := List.head_dropWhile_not (p := (· != ')')) (l := s) (by simp [h])
      simpa [h] using this
    rw [this]
    rfl

/-! ## The grammar -/

/-- What a reader can read. Joins are what follows `left` in a complex selector, which is `c` as a
whole. -/
inductive Item where
  | list (alternatives : List Complex)
  | complex (c : Complex)
  | joins (left c : Complex)
  | compound (parts : List Simple)
  | simples (parts : List Simple)
  | simple (x : Simple)
  | pseudo (p : Pseudo)
  | relatives (alternatives : List Relative)

/-- Nothing of a complex selector stands here. -/
def Ends (s : List Char) : Prop := ∀ c ∈ s.head?, c = ',' ∨ c = ')'

/-- `Reads item s rest`: the text `s` begins with `item`, and `rest` remains. -/
inductive Reads : Item → List Char → List Char → Prop
  | listOne {s t : List Char} {c : Complex} (first : Reads (.complex c) s t)
    (last : ∀ u, skipBlanks t ≠ ',' :: u) : Reads (.list [c]) s (skipBlanks t)
  | listMore {s t u r : List Char} {c : Complex} {cs : List Complex}
    (first : Reads (.complex c) s t) (comma : skipBlanks t = ',' :: u)
    (more : Reads (.list cs) u r) : Reads (.list (c :: cs)) s r
  | complex {s t r : List Char} {parts : List Simple} {c : Complex}
    (first : Reads (.compound parts) (skipBlanks s) t)
    (joined : Reads (.joins (.compound parts) c) t r) : Reads (.complex c) s r
  | joinsEnd {s : List Char} {left : Complex} (ends : Ends (skipBlanks s)) :
    Reads (.joins left left) s (skipBlanks s)
  | joinsSign {s t u r : List Char} {left c : Complex} {sign : Char} {k : Combinator}
    {parts : List Simple} (there : skipBlanks s = sign :: t) (means : combinatorOf sign = some k)
    (right : Reads (.compound parts) (skipBlanks t) u)
    (joined : Reads (.joins (.join left k parts) c) u r) : Reads (.joins left c) s r
  | joinsBlank {s u r : List Char} {left c : Complex} {parts : List Simple}
    (blank : (skipBlanks s).length < s.length)
    (right : Reads (.compound parts) (skipBlanks s) u)
    (joined : Reads (.joins (.join left .descendant parts) c) u r) : Reads (.joins left c) s r
  | compoundAny {s r : List Char} {parts : List Simple} (more : Reads (.simples parts) s r) :
    Reads (.compound (.universal :: parts)) ('*' :: s) r
  | compoundType {s t r name : List Char} {c : Char} {parts : List Simple}
    (start : isNameStart c = true) (tag : scanName (c :: s) = some (name, t))
    (more : Reads (.simples parts) t r) :
    Reads (.compound (.type (Text.lower (String.ofList name)) :: parts)) (c :: s) r
  | compoundSimple {s t r : List Char} {x : Simple} {parts : List Simple}
    (first : Reads (.simple x) s t) (more : Reads (.simples parts) t r) :
    Reads (.compound (x :: parts)) s r
  | simplesEnd {s : List Char} (stop : startsSimple s = false) : Reads (.simples []) s s
  | simplesMore {s t r : List Char} {x : Simple} {parts : List Simple}
    (first : Reads (.simple x) s t) (more : Reads (.simples parts) t r) :
    Reads (.simples (x :: parts)) s r
  | simpleId {s r name : List Char} (scan : scanName s = some (name, r)) (filled : name ≠ []) :
    Reads (.simple (.id (String.ofList name))) ('#' :: s) r
  | simpleClass {s r name : List Char} (scan : scanName s = some (name, r)) (filled : name ≠ []) :
    Reads (.simple (.cls (String.ofList name))) ('.' :: s) r
  | simpleAttribute {s r : List Char} {a : AttributeSelector} (read : Yields (readAttribute s) a r) :
    Reads (.simple (.attribute a)) ('[' :: s) r
  | simplePseudo {s r : List Char} {p : Pseudo} (read : Reads (.pseudo p) s r) :
    Reads (.simple (.pseudo p)) (':' :: s) r
  | pseudoPlain {s r name : List Char} {p : Pseudo} (scan : scanName s = some (name, r))
    (closed : ∀ t, r ≠ '(' :: t) (known : plainPseudo (Text.lower (String.ofList name)) = some p) :
    Reads (.pseudo p) s r
  | pseudoLogical {s t u r name : List Char} {f : List Complex → Pseudo} {cs : List Complex}
    (scan : scanName s = some (name, '(' :: t))
    (known : logicalPseudo (Text.lower (String.ofList name)) = some f)
    (argument : Reads (.list cs) t u) (close : skipBlanks u = ')' :: r) :
    Reads (.pseudo (f cs)) s r
  | pseudoNth {s t r name : List Char} {f : Nth → Pseudo} {e : Nth}
    (scan : scanName s = some (name, '(' :: t))
    (known : nthPseudo (Text.lower (String.ofList name)) = some f)
    (argument : Nth.ofChars (t.takeWhile (· != ')')) = some e)
    (close : t.dropWhile (· != ')') = ')' :: r) : Reads (.pseudo (f e)) s r
  | pseudoHas {s t u r name : List Char} {rs : List Relative}
    (scan : scanName s = some (name, '(' :: t))
    (known : Text.lower (String.ofList name) = "has")
    (argument : Reads (.relatives rs) t u) (close : skipBlanks u = ')' :: r) :
    Reads (.pseudo (.has rs)) s r
  | relativesOne {s t : List Char} {c : Complex}
    (first : Reads (.complex c) (readLead (skipBlanks s)).2 t)
    (last : ∀ u, skipBlanks t ≠ ',' :: u) :
    Reads (.relatives [.ofComplex (readLead (skipBlanks s)).1 c]) s (skipBlanks t)
  | relativesMore {s t u r : List Char} {c : Complex} {rs : List Relative}
    (first : Reads (.complex c) (readLead (skipBlanks s)).2 t) (comma : skipBlanks t = ',' :: u)
    (more : Reads (.relatives rs) u r) :
    Reads (.relatives (.ofComplex (readLead (skipBlanks s)).1 c :: rs)) s r

/-! ## Readers follow the grammar -/

mutual

theorem reads_list {s r : List Char} {v : List Complex} (y : Yields (readList s) v r) :
    Reads (.list v) s r := by
  rw [readList] at y
  obtain ⟨c, t, short, read, y⟩ := yields_bind.mp y
  have first := reads_complex ⟨short, read⟩
  have := length_skipBlanks_le t
  dsimp only at y
  split at y
  · next u comma =>
    obtain ⟨cs, r', short', read', y⟩ := yields_bind.mp y
    obtain ⟨rfl, rfl⟩ := yields_pure.mp y
    have : u.length < s.length := length_lt_of_eq_cons comma (by omega)
    exact .listMore first comma (reads_list ⟨short', read'⟩)
  · next noComma =>
    obtain ⟨rfl, rfl⟩ := yields_pure.mp y
    exact .listOne first noComma
termination_by s.length * 5 + 4

theorem reads_complex {s r : List Char} {v : Complex} (y : Yields (readComplex s) v r) :
    Reads (.complex v) s r := by
  rw [readComplex] at y
  obtain ⟨parts, t, short, read, y⟩ := yields_bind.mp y
  obtain ⟨c, r', short', read', y⟩ := yields_bind.mp y
  obtain ⟨rfl, rfl⟩ := yields_pure.mp y
  have := length_skipBlanks_le s
  exact .complex (reads_compound ⟨short, read⟩) (reads_joins ⟨short', read'⟩)
termination_by s.length * 5 + 3

theorem reads_joins {left v : Complex} {s r : List Char} (y : Yields (readJoins left s) v r) :
    Reads (.joins left v) s r := by
  have blanks := length_skipBlanks_le s
  rw [readJoins] at y
  split at y
  · next nothing =>
    obtain ⟨rfl, rfl⟩ := yields_ok.mp y
    exact nothing ▸ .joinsEnd (by simp [nothing, Ends])
  · next c t there =>
    have size : t.length + 1 ≤ s.length := length_lt_of_eq_cons there blanks
    split at y
    · next ends =>
      obtain ⟨rfl, rfl⟩ := yields_ok.mp y
      exact there ▸ .joinsEnd (by simpa [there, Ends] using ends)
    · split at y
      · next k means =>
        obtain ⟨parts, u, short, read, y⟩ := yields_bind.mp y
        obtain ⟨c, r', short', read', y⟩ := yields_bind.mp y
        obtain ⟨rfl, rfl⟩ := yields_pure.mp y
        have := length_skipBlanks_le t
        have : u.length < s.length := by omega
        exact .joinsSign there means (reads_compound ⟨short, read⟩) (reads_joins ⟨short', read'⟩)
      · split at y
        · next blank =>
          obtain ⟨parts, u, short, read, y⟩ := yields_bind.mp y
          obtain ⟨c, r', short', read', y⟩ := yields_bind.mp y
          obtain ⟨rfl, rfl⟩ := yields_pure.mp y
          have : u.length < s.length := Nat.lt_of_lt_of_le short size
          have right := reads_compound ⟨short, read⟩
          rw [← there] at right
          exact .joinsBlank (by simpa [there] using blank) right (reads_joins ⟨short', read'⟩)
        · exact absurd y not_yields_error
termination_by s.length * 5 + 2

theorem reads_compound {s r : List Char} {v : List Simple} (y : Yields (readCompound s) v r) :
    Reads (.compound v) s r := by
  rw [readCompound.eq_def] at y
  split at y
  · exact absurd y not_yields_error
  · next c rest =>
    split at y
    · next any =>
      obtain ⟨parts, t, short, read, y⟩ := yields_bind.mp y
      obtain ⟨rfl, rfl⟩ := yields_pure.mp y
      exact any ▸ .compoundAny (reads_simples ⟨short, read⟩)
    · split at y
      · next start =>
        obtain ⟨name, t, short, read, y⟩ := yields_bind.mp y
        obtain ⟨parts, r', short', read', y⟩ := yields_bind.mp y
        obtain ⟨rfl, rfl⟩ := yields_pure.mp y
        exact .compoundType start (yields_readName.mp ⟨short, read⟩).1 (reads_simples ⟨short', read'⟩)
      · obtain ⟨x, t, short, read, y⟩ := yields_bind.mp y
        obtain ⟨parts, r', short', read', y⟩ := yields_bind.mp y
        obtain ⟨rfl, rfl⟩ := yields_pure.mp y
        exact .compoundSimple (reads_simple ⟨short, read⟩) (reads_simples ⟨short', read'⟩)
termination_by s.length * 5 + 1

theorem reads_simples {s r : List Char} {v : List Simple} (y : Yields (readSimples s) v r) :
    Reads (.simples v) s r := by
  rw [readSimples] at y
  split at y
  · obtain ⟨x, t, short, read, y⟩ := yields_bind.mp y
    obtain ⟨parts, r', short', read', y⟩ := yields_bind.mp y
    obtain ⟨rfl, rfl⟩ := yields_pure.mp y
    exact .simplesMore (reads_simple ⟨short, read⟩) (reads_simples ⟨short', read'⟩)
  · next stop =>
    obtain ⟨rfl, rfl⟩ := yields_pure.mp y
    exact .simplesEnd (by simpa using stop)
termination_by s.length * 5 + 1

theorem reads_simple {s r : List Char} {v : Simple} (y : Yields (readSimple s) v r) :
    Reads (.simple v) s r := by
  rw [readSimple.eq_def] at y
  split at y
  · obtain ⟨name, t, short, read, y⟩ := yields_bind.mp y
    obtain ⟨rfl, rfl⟩ := yields_pure.mp y
    obtain ⟨scan, filled⟩ := yields_readName.mp ⟨short, read⟩
    exact .simpleId scan filled
  · obtain ⟨name, t, short, read, y⟩ := yields_bind.mp y
    obtain ⟨rfl, rfl⟩ := yields_pure.mp y
    obtain ⟨scan, filled⟩ := yields_readName.mp ⟨short, read⟩
    exact .simpleClass scan filled
  · obtain ⟨a, t, short, read, y⟩ := yields_bind.mp y
    obtain ⟨rfl, rfl⟩ := yields_pure.mp y
    exact .simpleAttribute ⟨short, read⟩
  · obtain ⟨p, t, short, read, y⟩ := yields_bind.mp y
    obtain ⟨rfl, rfl⟩ := yields_pure.mp y
    exact .simplePseudo (reads_pseudo ⟨short, read⟩)
  · exact absurd y not_yields_error
termination_by s.length * 5

theorem reads_pseudo {s r : List Char} {v : Pseudo} (y : Yields (readPseudo s) v r) :
    Reads (.pseudo v) s r := by
  rw [readPseudo] at y
  split at y
  · exact absurd y not_yields_error
  obtain ⟨name, t, short, read, y⟩ := yields_bind.mp y
  obtain ⟨scan, filled⟩ := yields_readName.mp ⟨short, read⟩
  dsimp only at y
  split at y
  · next u =>
    have inside : u.length + 1 < s.length := short
    split at y
    · next f _ known =>
      obtain ⟨cs, w, short', read', y⟩ := yields_bind.mp y
      rw [pure_bind] at y
      obtain ⟨⟨⟩, r', short'', read'', y⟩ := yields_bind.mp y
      obtain ⟨rfl, rfl⟩ := yields_pure.mp y
      exact .pseudoLogical scan known (reads_list ⟨short', read'⟩) (yields_expect.mp ⟨short'', read''⟩)
    · next f _ known =>
      obtain ⟨e, w, short', read', y⟩ := yields_bind.mp y
      rw [pure_bind] at y
      obtain ⟨⟨⟩, r', short'', read'', y⟩ := yields_bind.mp y
      obtain ⟨rfl, rfl⟩ := yields_pure.mp y
      obtain ⟨argument, rfl⟩ := yields_readNth.mp ⟨short', read'⟩
      have close := yields_expect.mp ⟨short'', read''⟩
      rw [skipBlanks_dropWhile_paren] at close
      exact .pseudoNth scan known argument close
    · split at y
      · next known =>
        obtain ⟨rs, w, short', read', y⟩ := yields_bind.mp y
        rw [pure_bind] at y
        obtain ⟨⟨⟩, r', short'', read'', y⟩ := yields_bind.mp y
        obtain ⟨rfl, rfl⟩ := yields_pure.mp y
        exact .pseudoHas scan known (reads_relatives ⟨short', read'⟩) (yields_expect.mp ⟨short'', read''⟩)
      · exact absurd y not_yields_error
  · next closed =>
    split at y
    · next p known =>
      obtain ⟨rfl, rfl⟩ := yields_pure.mp y
      exact .pseudoPlain scan closed known
    · exact absurd y not_yields_error
termination_by s.length * 5

theorem reads_relatives {s r : List Char} {v : List Relative} (y : Yields (readRelatives s) v r) :
    Reads (.relatives v) s r := by
  rw [readRelatives] at y
  obtain ⟨c, t, short, read, y⟩ := yields_bind.mp y
  have := length_skipBlanks_le s
  have := length_readLead_le (skipBlanks s)
  have first := reads_complex ⟨short, read⟩
  have := length_skipBlanks_le t
  dsimp only at y
  split at y
  · next u comma =>
    obtain ⟨cs, r', short', read', y⟩ := yields_bind.mp y
    obtain ⟨rfl, rfl⟩ := yields_pure.mp y
    have : u.length < s.length := length_lt_of_eq_cons comma (by omega)
    exact .relativesMore first comma (reads_relatives ⟨short', read'⟩)
  · next noComma =>
    obtain ⟨rfl, rfl⟩ := yields_pure.mp y
    exact .relativesOne first noComma
termination_by s.length * 5 + 4

end

/-! ## What is in the grammar is read -/

theorem not_ends_of_combinatorOf {c : Char} {k : Combinator} (means : combinatorOf c = some k) :
    ¬ (c = ',' ∨ c = ')') := by
  rintro (rfl | rfl) <;> cases means

/-- A name that begins with a character for names is not empty. -/
theorem scanName_ne_nil {c : Char} {s name rest : List Char} (start : isNameStart c = true)
    (scan : scanName (c :: s) = some (name, rest)) : name ≠ [] := by
  rw [scanName.eq_def] at scan
  dsimp only at scan
  split at scan
  · split at scan
    · cases scan
    · obtain ⟨_, -, same⟩ := Option.map_eq_some_iff.mp scan
      cases same
      exact List.cons_ne_nil _ _
  · rw [if_pos (by simp [isNameChar, start])] at scan
    obtain ⟨_, -, same⟩ := Option.map_eq_some_iff.mp scan
    cases same
    exact List.cons_ne_nil _ _

theorem logicalPseudo_of_nthPseudo {name : String} {f : Nth → Pseudo}
    (known : nthPseudo name = some f) : logicalPseudo name = none := by
  unfold nthPseudo at known
  split at known <;> first | rfl | cases known

theorem head?_ne_colon {s name rest : List Char} (scan : scanName s = some (name, rest))
    (filled : name ≠ []) : s.head? ≠ some ':' := by
  intro colon
  obtain ⟨t, rfl⟩ := List.head?_eq_some_iff.mp colon
  rw [scanName.eq_def] at scan
  cases scan
  exact filled rfl

/-- A simple selector other than a tag begins with one of four characters. -/
theorem Reads.startsSimple {x : Simple} {s r : List Char} (reads : Reads (.simple x) s r) :
    ∃ c t, s = c :: t ∧ (c = '#' ∨ c = '.' ∨ c = '[' ∨ c = ':') := by
  cases reads <;> exact ⟨_, _, rfl, by decide⟩

theorem Reads.startsCompound {parts : List Simple} {s r : List Char}
    (reads : Reads (.compound parts) s r) :
    ∃ c t, s = c :: t ∧ (c = '*' ∨ isNameStart c = true ∨ c = '#' ∨ c = '.' ∨ c = '[' ∨ c = ':') := by
  cases reads with
  | compoundAny => exact ⟨_, _, rfl, .inl rfl⟩
  | compoundType start => exact ⟨_, _, rfl, .inr (.inl start)⟩
  | compoundSimple first =>
    obtain ⟨c, t, rfl, start⟩ := first.startsSimple
    exact ⟨c, t, rfl, .inr (.inr start)⟩

theorem combinatorOf_eq_some {c : Char} {k : Combinator} (means : combinatorOf c = some k) :
    c = '>' ∨ c = '+' ∨ c = '~' := by
  unfold combinatorOf at means
  split at means
  · exact .inl rfl
  · exact .inr (.inl rfl)
  · exact .inr (.inr rfl)
  · cases means

/-- A compound begins with a character that is no combinator and ends nothing. -/
theorem Reads.starts {parts : List Simple} {s r : List Char} (reads : Reads (.compound parts) s r) :
    ∃ c t, s = c :: t ∧ ¬ (c = ',' ∨ c = ')') ∧ combinatorOf c = none := by
  obtain ⟨c, t, rfl, start⟩ := reads.startsCompound
  refine ⟨c, t, rfl, ?_, ?_⟩
  · rintro (rfl | rfl) <;> revert start <;> decide
  · refine Option.eq_none_iff_forall_not_mem.mpr fun k means => ?_
    rcases combinatorOf_eq_some means with rfl | rfl | rfl <;> revert start <;> decide

theorem Reads.head?_compound {parts : List Simple} {s r : List Char}
    (reads : Reads (.compound parts) s r) : s.head? ≠ some ')' := by
  obtain ⟨c, t, rfl, inside, -⟩ := reads.starts
  intro closed
  exact inside (.inr (Option.some.inj closed))

/-- A complex selector does not begin with a closing parenthesis. -/
theorem Reads.head?_complex {c : Complex} {s r : List Char} (reads : Reads (.complex c) s r) :
    (skipBlanks s).head? ≠ some ')' := by
  cases reads with
  | complex first => exact first.head?_compound

theorem Reads.head?_list {cs : List Complex} {s r : List Char} (reads : Reads (.list cs) s r) :
    (skipBlanks s).head? ≠ some ')' := by
  cases reads with
  | listOne first => exact first.head?_complex
  | listMore first => exact first.head?_complex

/-- Neither does a relative one, behind its combinator or without. -/
theorem Reads.head?_relatives {rs : List Relative} {s r : List Char}
    (reads : Reads (.relatives rs) s r) : (skipBlanks s).head? ≠ some ')' := by
  have lead {c : Complex} {s t : List Char} (first : Reads (.complex c) (readLead s).2 t) :
      s.head? ≠ some ')' := by
    intro closed
    obtain ⟨u, rfl⟩ := List.head?_eq_some_iff.mp closed
    exact first.head?_complex rfl
  cases reads with
  | relativesOne first => exact lead first
  | relativesMore first => exact lead first

/-- The reader for an item answers with it. -/
def Item.Yielded (s r : List Char) : Item → Prop
  | list v => Yields (readList s) v r
  | complex v => Yields (readComplex s) v r
  | joins left v => Yields (readJoins left s) v r
  | compound v => Yields (readCompound s) v r
  | simples v => Yields (readSimples s) v r
  | simple v => Yields (readSimple s) v r
  | pseudo v => Yields (readPseudo s) v r
  | relatives v => Yields (readRelatives s) v r

theorem Reads.yielded {item : Item} {s r : List Char} (reads : Reads item s r) :
    item.Yielded s r := by
  induction reads with
  | @listOne s t c first last ih =>
    obtain ⟨short, read⟩ := ih
    show Yields (readList s) _ _
    rw [readList]
    refine yields_bind.mpr ⟨_, _, short, read, ?_⟩
    dsimp only
    split
    · next u comma => exact absurd comma (last u)
    · exact yields_pure.mpr ⟨rfl, rfl⟩
  | @listMore s t u r c cs first comma more ih ihMore =>
    obtain ⟨short, read⟩ := ih
    obtain ⟨short', read'⟩ := ihMore
    show Yields (readList s) _ _
    rw [readList]
    refine yields_bind.mpr ⟨_, _, short, read, ?_⟩
    dsimp only
    split
    · next u' comma' =>
      obtain rfl : u = u' := by simpa [comma] using comma'
      exact yields_bind.mpr ⟨_, _, short', read', yields_pure.mpr ⟨rfl, rfl⟩⟩
    · next noComma => exact absurd comma (noComma u)
  | @complex s t r parts c first joined ih ihJoined =>
    obtain ⟨short, read⟩ := ih
    obtain ⟨short', read'⟩ := ihJoined
    show Yields (readComplex s) _ _
    rw [readComplex]
    exact yields_bind.mpr ⟨_, _, short, read,
      yields_bind.mpr ⟨_, _, short', read', yields_pure.mpr ⟨rfl, rfl⟩⟩⟩
  | @joinsEnd s left ends =>
    show Yields (readJoins left s) _ _
    rw [readJoins]
    split
    · next nothing => exact yields_ok.mpr ⟨rfl, nothing.symm⟩
    · next c t there =>
      rw [if_pos (by simpa [there, Ends] using ends)]
      exact yields_ok.mpr ⟨rfl, there.symm⟩
  | @joinsSign s t u r left c sign k parts there means right joined ih ihJoined =>
    obtain ⟨short, read⟩ := ih
    obtain ⟨short', read'⟩ := ihJoined
    show Yields (readJoins left s) _ _
    rw [readJoins]
    split
    · next nothing => simp [nothing] at there
    · next c' t' there' =>
      obtain ⟨rfl, rfl⟩ : sign = c' ∧ t = t' := by simpa [there] using there'
      rw [if_neg (not_ends_of_combinatorOf means)]
      split
      · next k' means' =>
        obtain rfl : k = k' := by simpa [means] using means'
        exact yields_bind.mpr ⟨_, _, short, read,
          yields_bind.mpr ⟨_, _, short', read', yields_pure.mpr ⟨rfl, rfl⟩⟩⟩
      · next means' => simp [means] at means'
  | @joinsBlank s u r left c parts blank right joined ih ihJoined =>
    obtain ⟨sign, t, there, notEnd, notSign⟩ := right.starts
    rw [there] at ih
    obtain ⟨short, read⟩ := ih
    obtain ⟨short', read'⟩ := ihJoined
    show Yields (readJoins left s) _ _
    rw [readJoins]
    split
    · next nothing => simp [nothing] at there
    · next c' t' there' =>
      obtain ⟨rfl, rfl⟩ : sign = c' ∧ t = t' := by simpa [there] using there'
      rw [if_neg notEnd]
      split
      · next k' means' => simp [notSign] at means'
      · rw [if_pos (by simpa [there] using blank)]
        exact yields_bind.mpr ⟨_, _, short, read,
          yields_bind.mpr ⟨_, _, short', read', yields_pure.mpr ⟨rfl, rfl⟩⟩⟩
  | @compoundAny s r parts more ih =>
    obtain ⟨short, read⟩ := ih
    show Yields (readCompound ('*' :: s)) _ _
    rw [readCompound, if_pos rfl]
    exact yields_bind.mpr ⟨_, _, short, read, yields_pure.mpr ⟨rfl, rfl⟩⟩
  | @compoundType s t r name c parts start tag more ih =>
    obtain ⟨short, read⟩ := ih
    show Yields (readCompound (c :: s)) _ _
    have notAny : c ≠ '*' := by rintro rfl; simp [isNameStart] at start
    rw [readCompound, if_neg notAny, if_pos start]
    obtain ⟨short', read'⟩ := yields_readName.mpr ⟨tag, scanName_ne_nil start tag⟩
    exact yields_bind.mpr ⟨_, _, short', read',
      yields_bind.mpr ⟨_, _, short, read, yields_pure.mpr ⟨rfl, rfl⟩⟩⟩
  | @compoundSimple s t r x parts first more ih ihMore =>
    obtain ⟨short, read⟩ := ih
    obtain ⟨short', read'⟩ := ihMore
    obtain ⟨c, u, rfl, start⟩ := first.startsSimple
    show Yields (readCompound (c :: u)) _ _
    rw [readCompound, if_neg (by rcases start with rfl | rfl | rfl | rfl <;> decide),
      if_neg (by rcases start with rfl | rfl | rfl | rfl <;> decide)]
    exact yields_bind.mpr ⟨_, _, short, read,
      yields_bind.mpr ⟨_, _, short', read', yields_pure.mpr ⟨rfl, rfl⟩⟩⟩
  | @simplesEnd s stop =>
    show Yields (readSimples s) _ _
    rw [readSimples, if_neg (by simp [stop])]
    exact yields_pure.mpr ⟨rfl, rfl⟩
  | @simplesMore s t r x parts first more ih ihMore =>
    obtain ⟨short, read⟩ := ih
    obtain ⟨short', read'⟩ := ihMore
    obtain ⟨c, u, rfl, start⟩ := first.startsSimple
    show Yields (readSimples (c :: u)) _ _
    rw [readSimples, if_pos (by rcases start with rfl | rfl | rfl | rfl <;> rfl)]
    exact yields_bind.mpr ⟨_, _, short, read,
      yields_bind.mpr ⟨_, _, short', read', yields_pure.mpr ⟨rfl, rfl⟩⟩⟩
  | @simpleId s r name scan filled =>
    obtain ⟨short, read⟩ := yields_readName.mpr ⟨scan, filled⟩
    show Yields (readSimple ('#' :: s)) _ _
    rw [readSimple]
    exact yields_bind.mpr ⟨_, _, short, read, yields_pure.mpr ⟨rfl, rfl⟩⟩
  | @simpleClass s r name scan filled =>
    obtain ⟨short, read⟩ := yields_readName.mpr ⟨scan, filled⟩
    show Yields (readSimple ('.' :: s)) _ _
    rw [readSimple]
    exact yields_bind.mpr ⟨_, _, short, read, yields_pure.mpr ⟨rfl, rfl⟩⟩
  | @simpleAttribute s r a read =>
    obtain ⟨short, read⟩ := read
    show Yields (readSimple ('[' :: s)) _ _
    rw [readSimple]
    exact yields_bind.mpr ⟨_, _, short, read, yields_pure.mpr ⟨rfl, rfl⟩⟩
  | @simplePseudo s r p _ ih =>
    obtain ⟨short, read⟩ := ih
    show Yields (readSimple (':' :: s)) _ _
    rw [readSimple]
    exact yields_bind.mpr ⟨_, _, short, read, yields_pure.mpr ⟨rfl, rfl⟩⟩
  | @pseudoPlain s r name p scan closed known =>
    have filled : name ≠ [] := by rintro rfl; cases known
    obtain ⟨short, read⟩ := yields_readName.mpr ⟨scan, filled⟩
    show Yields (readPseudo s) _ _
    rw [readPseudo, if_neg (head?_ne_colon scan filled)]
    refine yields_bind.mpr ⟨_, _, short, read, ?_⟩
    dsimp only
    split
    · next u => exact absurd rfl (closed u)
    · rw [known]
      exact yields_pure.mpr ⟨rfl, rfl⟩
  | @pseudoLogical s t u r name f cs scan known argument close ih =>
    have filled : name ≠ [] := by rintro rfl; cases known
    obtain ⟨short, read⟩ := yields_readName.mpr ⟨scan, filled⟩
    obtain ⟨short', read'⟩ := ih
    obtain ⟨short'', read''⟩ := yields_expect.mpr close
    show Yields (readPseudo s) _ _
    rw [readPseudo, if_neg (head?_ne_colon scan filled)]
    refine yields_bind.mpr ⟨_, _, short, read, ?_⟩
    dsimp only
    split
    · next v opened =>
      obtain rfl : t = v := by simpa using opened
      simp only [known]
      refine yields_bind.mpr ⟨_, _, short', read', ?_⟩
      rw [pure_bind]
      exact yields_bind.mpr ⟨_, _, short'', read'', yields_pure.mpr ⟨rfl, rfl⟩⟩
    · next closed => exact absurd rfl (closed t)
  | @pseudoNth s t r name f e scan known argument close =>
    have filled : name ≠ [] := by rintro rfl; cases known
    obtain ⟨short, read⟩ := yields_readName.mpr ⟨scan, filled⟩
    obtain ⟨short', read'⟩ := yields_readNth.mpr ⟨argument, rfl⟩
    rw [← skipBlanks_dropWhile_paren] at close
    obtain ⟨short'', read''⟩ := yields_expect.mpr close
    show Yields (readPseudo s) _ _
    rw [readPseudo, if_neg (head?_ne_colon scan filled)]
    refine yields_bind.mpr ⟨_, _, short, read, ?_⟩
    dsimp only
    split
    · next v opened =>
      obtain rfl : t = v := by simpa using opened
      simp only [known, logicalPseudo_of_nthPseudo known]
      refine yields_bind.mpr ⟨_, _, short', read', ?_⟩
      rw [pure_bind]
      exact yields_bind.mpr ⟨_, _, short'', read'', yields_pure.mpr ⟨rfl, rfl⟩⟩
    · next closed => exact absurd rfl (closed t)
  | @pseudoHas s t u r name rs scan known argument close ih =>
    have filled : name ≠ [] := by rintro rfl; exact absurd known (by decide)
    obtain ⟨short, read⟩ := yields_readName.mpr ⟨scan, filled⟩
    obtain ⟨short', read'⟩ := ih
    obtain ⟨short'', read''⟩ := yields_expect.mpr close
    show Yields (readPseudo s) _ _
    rw [readPseudo, if_neg (head?_ne_colon scan filled)]
    refine yields_bind.mpr ⟨_, _, short, read, ?_⟩
    dsimp only
    split
    · next v opened =>
      obtain rfl : t = v := by simpa using opened
      simp only [known, logicalPseudo, nthPseudo, if_true]
      refine yields_bind.mpr ⟨_, _, short', read', ?_⟩
      rw [pure_bind]
      exact yields_bind.mpr ⟨_, _, short'', read'', yields_pure.mpr ⟨rfl, rfl⟩⟩
    · next closed => exact absurd rfl (closed t)
  | @relativesOne s t c first last ih =>
    obtain ⟨short, read⟩ := ih
    show Yields (readRelatives s) _ _
    rw [readRelatives]
    refine yields_bind.mpr ⟨_, _, short, read, ?_⟩
    dsimp only
    split
    · next u comma => exact absurd comma (last u)
    · exact yields_pure.mpr ⟨rfl, rfl⟩
  | @relativesMore s t u r c rs first comma more ih ihMore =>
    obtain ⟨short, read⟩ := ih
    obtain ⟨short', read'⟩ := ihMore
    show Yields (readRelatives s) _ _
    rw [readRelatives]
    refine yields_bind.mpr ⟨_, _, short, read, ?_⟩
    dsimp only
    split
    · next u' comma' =>
      obtain rfl : u = u' := by simpa [comma] using comma'
      exact yields_bind.mpr ⟨_, _, short', read', yields_pure.mpr ⟨rfl, rfl⟩⟩
    · next noComma => exact absurd comma (noComma u)

/-- An item is read in one way only. -/
theorem Reads.unique_list {s r r' : List Char} {v v' : List Complex} (reads : Reads (.list v) s r)
    (reads' : Reads (.list v') s r') : v = v' ∧ r = r' := by
  obtain ⟨_, read⟩ := reads.yielded
  obtain ⟨_, read'⟩ := reads'.yielded
  rw [read] at read'
  cases read'
  exact ⟨rfl, rfl⟩

/-! ## Whole texts -/

theorem skipBlanks_skipBlanks (s : List Char) : skipBlanks (skipBlanks s) = skipBlanks s :=
  List.dropWhile_idempotent _ _

/-- A complex selector leaves no blanks behind. -/
theorem Reads.skipBlanks_joins {left c : Complex} {s r : List Char} (reads : Reads (.joins left c) s r) :
    skipBlanks r = r := by
  generalize there : Item.joins left c = item at reads
  induction reads generalizing left with
  | joinsEnd => exact skipBlanks_skipBlanks _
  | joinsSign _ _ _ _ _ ih =>
    cases there
    exact ih rfl
  | joinsBlank _ _ _ _ ih =>
    cases there
    exact ih rfl
  | _ => cases there

theorem Reads.skipBlanks_complex {c : Complex} {s r : List Char} (reads : Reads (.complex c) s r) :
    skipBlanks r = r := by
  cases reads with
  | complex _ joined => exact joined.skipBlanks_joins

/-- Nor does a list of alternatives. -/
theorem Reads.skipBlanks_list {v : List Complex} {s r : List Char} (reads : Reads (.list v) s r) :
    skipBlanks r = r := by
  generalize there : Item.list v = item at reads
  induction reads generalizing v with
  | listOne => exact skipBlanks_skipBlanks _
  | listMore _ _ _ _ ih => exact ih rfl
  | _ => cases there

/-- Nor does a list of relative ones. -/
theorem Reads.skipBlanks_relatives {v : List Relative} {s r : List Char}
    (reads : Reads (.relatives v) s r) : skipBlanks r = r := by
  generalize there : Item.relatives v = item at reads
  induction reads generalizing v with
  | relativesOne => exact skipBlanks_skipBlanks _
  | relativesMore _ _ _ _ ih => exact ih rfl
  | _ => cases there

/-- A text that begins with a list of alternatives is not blank. -/
theorem Reads.skipBlanks_ne_nil {v : List Complex} {s r : List Char} (reads : Reads (.list v) s r) :
    skipBlanks s ≠ [] := by
  have complex {c : Complex} {s t : List Char} (first : Reads (.complex c) s t) :
      skipBlanks s ≠ [] := by
    cases first with
    | complex compound =>
      obtain ⟨c, t, there, -⟩ := compound.starts
      simp [there]
  cases reads with
  | listOne first => exact complex first
  | listMore first => exact complex first

/-- Nothing more is joined where the text ends. -/
theorem Reads.joins_nil {c : Complex} : Reads (.joins c c) [] [] :=
  .joinsEnd (s := []) (by simp [Ends, skipBlanks])

/-- The alternative with which the text ends is the last one. -/
theorem Reads.last {c : Complex} {s : List Char} (reads : Reads (.complex c) s []) :
    Reads (.list [c]) s [] :=
  .listOne (t := []) reads (by simp [skipBlanks])

/-- A complex selector without a leading combinator is a relative one that looks inside the subject. -/
theorem Reads.descendants {c : Complex} {s t : List Char} (reads : Reads (.complex c) s t)
    (last : ∀ u, skipBlanks t ≠ ',' :: u) :
    Reads (.relatives [.ofComplex .descendant c]) s (skipBlanks t) := by
  cases reads with
  | complex first joined =>
    obtain ⟨d, u, there, -, other⟩ := first.starts
    have lead : readLead (skipBlanks s) = (.descendant, skipBlanks s) := by
      rw [there, readLead, other]
    have inner : Reads (.complex c) (readLead (skipBlanks s)).2 t := by
      rw [lead]
      exact .complex (by rwa [skipBlanks_skipBlanks]) joined
    have relatives := Reads.relativesOne inner last
    rwa [lead] at relatives

/-- What follows in a complex selector also follows behind `:scope`. -/
theorem Reads.fromScope {left c : Complex} {s r : List Char} (k : Combinator)
    (reads : Reads (.joins left c) s r) : Reads (.joins (left.fromScope k) (c.fromScope k)) s r := by
  generalize there : Item.joins left c = item at reads
  induction reads generalizing left with
  | joinsEnd ends =>
    cases there
    exact .joinsEnd ends
  | joinsSign sign means right _ _ ih =>
    cases there
    exact .joinsSign sign means right (ih rfl)
  | joinsBlank blank right _ _ ih =>
    cases there
    exact .joinsBlank blank right (ih rfl)
  | _ => cases there

/-- A whole text is a selector exactly if it is a list of alternatives and nothing remains. -/
theorem ofChars_eq_ok_iff {s : List Char} {x : Selector} :
    ofChars s = .ok x ↔ Reads (.list x.alternatives) s [] := by
  unfold ofChars
  constructor
  · intro read
    split at read
    · cases read
    · dsimp only at read
      split at read
      · cases read
      · next list ok =>
        split at read
        · next nothing =>
          cases read
          have reads := reads_list ⟨list.short, ok⟩
          rwa [← reads.skipBlanks_list, nothing] at reads
        · cases read
  · intro reads
    have filled : ¬ s.all Text.isBlank = true := by
      intro blank
      exact reads.skipBlanks_ne_nil (List.dropWhile_eq_nil_iff.mpr (List.all_eq_true.mp blank))
    obtain ⟨short, ok⟩ := reads.yielded
    rw [if_neg filled]
    simp only [ok]
    rfl

end NoiseFilter.Selector
