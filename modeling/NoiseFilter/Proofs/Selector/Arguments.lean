import Mathlib.Data.Bool.AllAny
import Mathlib.Data.List.TakeDrop
import NoiseFilter.Proofs.Selector.Grammar

/-!
# The grammar of brackets and index expressions

What stands between brackets, one reader at a time: an operator, a value, and an attribute selector
as a whole. Of index expressions it is shown which characters they hold.
-/

namespace NoiseFilter.Selector

open Text (Read skipBlanks)

variable {s r : List Char}

theorem yields_readOperator {op : AttributeOperator} : Yields (readOperator s) op r ↔
    s = '=' :: r ∧ op = .exact ∨ ∃ c, c ≠ '=' ∧ operatorOf c = some op ∧ s = c :: '=' :: r := by
  unfold readOperator
  split
  · simp [not_yields_error]
  · next c rest =>
    split
    · next exact_ =>
      rw [Read.past, yields_ok, exact_]
      simp [eq_comm, and_comm]
    · next other =>
      split
      · next none => simp [not_yields_error, other, none]
      · next op' some_ =>
        rw [yields_bind]
        constructor
        · rintro ⟨⟨⟩, t, short, read, y⟩
          obtain ⟨rfl, rfl⟩ := yields_pure.mp y
          obtain rfl := yields_expect.mp ⟨short, read⟩
          exact .inr ⟨c, other, some_, rfl⟩
        · rintro (⟨same, -⟩ | ⟨d, -, some', same⟩)
          · exact absurd (List.cons.inj same).1 other
          · obtain ⟨rfl, rfl⟩ := List.cons.inj same
            obtain rfl : op' = op := Option.some.inj (some_.symm.trans some')
            obtain ⟨short, read⟩ := yields_expect.mpr (rfl : '=' :: r = '=' :: r)
            exact ⟨(), r, short, read, yields_pure.mpr ⟨rfl, rfl⟩⟩

theorem yields_readValue {value : List Char} : Yields (readValue s) value r ↔
    (∃ q t, (q = '"' ∨ q = '\'') ∧ s = q :: t ∧ scanQuoted q t = some (value, r)) ∨
      value ≠ [] ∧ value = s.takeWhile isNameChar ∧ r = s.dropWhile isNameChar := by
  unfold readValue
  split
  · refine iff_of_false not_yields_error ?_
    rintro (⟨q, t, -, same, -⟩ | ⟨filled, same, -⟩)
    · cases same
    · exact filled same
  · next c rest =>
    split
    · next quote =>
      have notName : isNameChar c = false := by rcases quote with rfl | rfl <;> rfl
      have noRun : ¬ (value ≠ [] ∧ value = (c :: rest).takeWhile isNameChar ∧
          r = (c :: rest).dropWhile isNameChar) := by
        rintro ⟨filled, same, -⟩
        exact filled (same.trans (List.takeWhile_cons_of_neg (by simp [notName])))
      split
      · next open_ =>
        refine iff_of_false not_yields_error ?_
        rintro (⟨q, t, -, same, scan⟩ | run)
        · obtain ⟨rfl, rfl⟩ := List.cons.inj same
          rw [open_] at scan
          cases scan
        · exact noRun run
      · next value' after scan =>
        rw [yields_ok]
        constructor
        · rintro ⟨rfl, rfl⟩
          exact .inl ⟨c, rest, quote, rfl, scan⟩
        · rintro (⟨q, t, -, same, scan'⟩ | run)
          · obtain ⟨rfl, rfl⟩ := List.cons.inj same
            cases scan.symm.trans scan'
            exact ⟨rfl, rfl⟩
          · exact absurd run noRun
    · next notQuote =>
      have noQuoted : ¬ ∃ q t, (q = '"' ∨ q = '\'') ∧ c :: rest = q :: t ∧
          scanQuoted q t = some (value, r) := by
        rintro ⟨q, t, quote, same, -⟩
        obtain ⟨rfl, rfl⟩ := List.cons.inj same
        exact notQuote quote
      split
      · next name =>
        rw [yields_ok, or_iff_right noQuoted, List.takeWhile_cons_of_pos name,
          List.dropWhile_cons_of_pos name]
        constructor
        · rintro ⟨rfl, rfl⟩
          exact ⟨List.cons_ne_nil _ _, rfl, rfl⟩
        · rintro ⟨-, rfl, rfl⟩
          exact ⟨rfl, rfl⟩
      · next notName =>
        refine iff_of_false not_yields_error ?_
        rintro (quoted | ⟨filled, same, -⟩)
        · exact noQuoted quoted
        · exact filled (same.trans (List.takeWhile_cons_of_neg notName))

theorem yields_readTest {test : AttributeTest} : Yields (readTest s) test r ↔
    ∃ op t value u, Yields (readOperator s) op t ∧ Yields (readValue (skipBlanks t)) value u ∧
      readFlag (skipBlanks u) = (test.ignoreCase, r) ∧ test = ⟨op, String.ofList value, test.ignoreCase⟩
    := by
  rw [readTest, yields_bind]
  constructor
  · rintro ⟨op, t, short, read, y⟩
    obtain ⟨value, u, short', read', y⟩ := yields_bind.mp y
    obtain ⟨rfl, rfl⟩ := yields_pure.mp y
    exact ⟨op, t, value, u, ⟨short, read⟩, ⟨short', read'⟩, rfl, rfl⟩
  · rintro ⟨op, t, value, u, ⟨short, read⟩, ⟨short', read'⟩, flag, same⟩
    refine ⟨op, t, short, read, yields_bind.mpr ⟨value, u, short', read', yields_pure.mpr ?_⟩⟩
    dsimp only
    rw [flag, same]
    exact ⟨rfl, rfl⟩

/-- An attribute selector is a name, and perhaps a test, up to the closing bracket. -/
theorem yields_readAttribute {a : AttributeSelector} : Yields (readAttribute s) a r ↔
    ∃ name t, scanName (skipBlanks s) = some (name, t) ∧ name ≠ [] ∧
      a.name = Text.lower (String.ofList name) ∧
      (skipBlanks t = ']' :: r ∧ a.test = none ∨
        ∃ test, (skipBlanks t).head? ≠ some ']' ∧ Yields (readTest (skipBlanks t)) test (']' :: r) ∧
          a.test = some test) := by
  rw [readAttribute, yields_bind]
  constructor
  · rintro ⟨name, t, short, read, y⟩
    obtain ⟨scan, filled⟩ := yields_readName.mp ⟨short, read⟩
    dsimp only at y
    split at y
    · next closed =>
      obtain ⟨rfl, rfl⟩ := yields_pure.mp y
      obtain ⟨u, there⟩ := List.head?_eq_some_iff.mp closed
      refine ⟨name, t, scan, filled, rfl, .inl ⟨?_, rfl⟩⟩
      rw [there]
      rfl
    · next open_ =>
      obtain ⟨test, u, short', read', y⟩ := yields_bind.mp y
      obtain ⟨⟨⟩, v, short'', read'', y⟩ := yields_bind.mp y
      obtain ⟨rfl, rfl⟩ := yields_pure.mp y
      obtain rfl := yields_expect.mp ⟨short'', read''⟩
      exact ⟨name, t, scan, filled, rfl, .inr ⟨test, open_, ⟨short', read'⟩, rfl⟩⟩
  · rintro ⟨name, t, scan, filled, lowered, rest⟩
    obtain ⟨short, read⟩ := yields_readName.mpr ⟨scan, filled⟩
    obtain ⟨_, _⟩ := a
    dsimp only at lowered rest
    subst lowered
    refine ⟨name, t, short, read, ?_⟩
    dsimp only
    rcases rest with ⟨there, rfl⟩ | ⟨test, open_, ⟨short', read'⟩, rfl⟩
    · rw [if_pos (by rw [there]; rfl)]
      exact yields_pure.mpr ⟨rfl, by rw [there]; rfl⟩
    · rw [if_neg open_]
      obtain ⟨short'', read''⟩ := yields_expect.mpr (rfl : ']' :: r = ']' :: r)
      exact yields_bind.mpr ⟨test, _, short', read',
        yields_bind.mpr ⟨(), r, short'', read'', yields_pure.mpr ⟨rfl, rfl⟩⟩⟩

/-! ## Index expressions -/

/-- The characters of an index expression, blanks apart, in lower case. -/
def isNthChar (c : Char) : Bool := c.isDigit || "odevn+-".toList.contains c

theorem isNthChar_of_readDigits {cs : List Char} {n : Nat} (read : Nth.readDigits cs = some n) :
    ∀ c ∈ cs, isNthChar c = true := by
  unfold Nth.readDigits at read
  split at read
  · cases read
  · next digits =>
    intro c member
    simp only [Bool.or_eq_true, not_or, Bool.not_eq_true, Bool.not_eq_false'] at digits
    simp [isNthChar, List.all_eq_true.mp (by simpa using digits.2) c member]

theorem isNthChar_of_readInt {cs : List Char} {n : Int} (read : Nth.readInt cs = some n) :
    ∀ c ∈ cs, isNthChar c = true := by
  have signed {sign : Char} {rest : List Char} {m : Nat} (known : isNthChar sign = true)
      (read : Nth.readDigits rest = some m) : ∀ c ∈ sign :: rest, isNthChar c = true :=
    List.forall_mem_cons.mpr ⟨known, isNthChar_of_readDigits read⟩
  unfold Nth.readInt at read
  dsimp only at read
  split at read <;>
    obtain ⟨m, read, -⟩ := Option.bind_eq_some_iff.mp read <;>
    obtain ⟨k, read, -⟩ := Option.map_eq_some_iff.mp read
  · exact signed rfl read
  · exact signed rfl read
  · exact isNthChar_of_readDigits read

theorem isNthChar_of_readPlain {cs : List Char} {e : Nth} (read : Nth.readPlain cs = some e) :
    ∀ c ∈ cs, isNthChar c = true := by
  unfold Nth.readPlain at read
  split at read
  · next odd => exact odd ▸ List.all_iff_forall_prop.mp (by decide)
  · split at read
    · next even => exact even ▸ List.all_iff_forall_prop.mp (by decide)
    · split at read
      · next readInt => exact isNthChar_of_readInt readInt
      · split at read
        · next before n after halves =>
          obtain ⟨step, readStep, read⟩ := Option.bind_eq_some_iff.mp read
          obtain ⟨offset, readOffset, -⟩ := Option.bind_eq_some_iff.mp read
          have steps : ∀ c ∈ before, isNthChar c = true := by
            unfold Nth.readStep at readStep
            split at readStep
            · simp
            · exact List.all_iff_forall_prop.mp (by decide)
            · exact List.all_iff_forall_prop.mp (by decide)
            · exact isNthChar_of_readInt readStep
          have offsets : ∀ c ∈ after, isNthChar c = true := by
            unfold Nth.readOffset at readOffset
            split at readOffset
            · simp
            · exact isNthChar_of_readInt readOffset
            · exact isNthChar_of_readInt readOffset
            · cases readOffset
          rw [List.span_eq_takeWhile_dropWhile] at halves
          obtain ⟨rfl, there⟩ := Prod.mk.inj halves
          have middle : n = 'n' := by
            have := List.head_dropWhile_not (p := (· != 'n')) (l := cs) (by simp [there])
            simpa [there] using this
          intro c member
          rw [← List.takeWhile_append_dropWhile (p := (· != 'n')) (l := cs), there] at member
          rcases List.mem_append.mp member with member | member
          · exact steps c member
          · rcases List.mem_cons.mp member with rfl | member
            · rw [middle]; rfl
            · exact offsets c member
        · cases read

theorem isNthChar_of_ofChars {cs : List Char} {e : Nth} (read : Nth.ofChars cs = some e) :
    ∀ c ∈ cs, Text.isBlank c = true ∨ isNthChar c.toLower = true := by
  intro c member
  by_cases blank : Text.isBlank c = true
  · exact .inl blank
  · refine .inr (isNthChar_of_readPlain read _ (List.mem_map_of_mem ?_))
    simpa [blank] using member

/-- Nothing but blanks is no index expression. -/
theorem head?_of_nth {s : List Char} {e : Nth}
    (read : Nth.ofChars (s.takeWhile (· != ')')) = some e) :
    (Text.skipBlanks s).head? ≠ some ')' := by
  intro closed
  have blank : ∀ c ∈ s.takeWhile (· != ')'), Text.isBlank c = true := by
    obtain ⟨u, there⟩ := List.head?_eq_some_iff.mp closed
    have halves : s.takeWhile Text.isBlank ++ ')' :: u = s := by
      rw [← there]
      exact List.takeWhile_append_dropWhile
    have front : ∀ c ∈ s.takeWhile Text.isBlank, Text.isBlank c = true :=
      fun _ => List.mem_takeWhile_imp
    intro c member
    rw [← halves, List.takeWhile_append_of_pos ?_] at member
    · exact front c (by simpa using member)
    · intro d member
      have blank := front d member
      rw [bne_iff_ne]
      rintro rfl
      cases blank
  rw [Nth.ofChars, List.filter_eq_nil_iff.mpr (by simpa using blank)] at read
  cases read

end NoiseFilter.Selector
