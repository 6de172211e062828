import NoiseFilter.Proofs.Selector.Printer

/-!
# How index expressions are spelled

An index expression is a word, a number, or a step, a letter and an offset; numbers may have a sign
and leading zeros (`Nth.Spells`). Exactly these are read, if both coefficients take 32 bits, wherever
blanks are put (`Nth.ofString_eq_some_iff`). Every part is read from a text exactly if the text spells
it, and so the whole.
-/

namespace NoiseFilter.Nth

/-! ## Spellings -/

/-- Decimal digits that stand for a number. -/
structure Numeral (n : Nat) (cs : List Char) : Prop where
  filled : cs ≠ []
  digits : ∀ c ∈ cs, c.isDigit = true
  value : Nat.ofDigitChars 10 cs 0 = n

/-- A number with or without a sign. -/
inductive Signed : Int → List Char → Prop where
  | bare {n : Nat} {cs : List Char} (numeral : Numeral n cs) : Signed n cs
  | plus {n : Nat} {cs : List Char} (numeral : Numeral n cs) : Signed n ('+' :: cs)
  | minus {n : Nat} {cs : List Char} (numeral : Numeral n cs) : Signed (-n) ('-' :: cs)

/-- What stands in front of the letter: a number, a lone sign or nothing. -/
inductive SpellsStep : Int → List Char → Prop where
  | absent : SpellsStep 1 []
  | plus : SpellsStep 1 ['+']
  | minus : SpellsStep (-1) ['-']
  | number {a : Int} {cs : List Char} (signed : Signed a cs) : SpellsStep a cs

/-- What stands behind the letter: a number with its sign or nothing. -/
inductive SpellsOffset : Int → List Char → Prop where
  | absent : SpellsOffset 0 []
  | plus {n : Nat} {cs : List Char} (numeral : Numeral n cs) : SpellsOffset n ('+' :: cs)
  | minus {n : Nat} {cs : List Char} (numeral : Numeral n cs) : SpellsOffset (-n) ('-' :: cs)

/-- An expression without blanks. -/
inductive Spells : Nth → List Char → Prop where
  | odd {cs : List Char} (word : cs.map Char.toLower = ['o', 'd', 'd']) : Spells ⟨2, 1⟩ cs
  | even {cs : List Char} (word : cs.map Char.toLower = ['e', 'v', 'e', 'n']) : Spells ⟨2, 0⟩ cs
  | index {b : Int} {cs : List Char} (signed : Signed b cs) : Spells ⟨0, b⟩ cs
  | linear {a b : Int} {before after : List Char} {letter : Char}
      (either : letter = 'n' ∨ letter = 'N') (step : SpellsStep a before)
      (offset : SpellsOffset b after) : Spells ⟨a, b⟩ (before ++ letter :: after)

/-! ## Characters of numbers -/

/-- A digit or a sign. -/
def isNumberChar (c : Char) : Bool := c.isDigit || c == '+' || c == '-'

section Chars

variable {n : Nat} {a b : Int} {cs : List Char}

theorem Numeral.isNumberChar (numeral : Numeral n cs) : ∀ c ∈ cs, Nth.isNumberChar c = true := by
  intro c member
  simp [Nth.isNumberChar, numeral.digits c member]

theorem Signed.isNumberChar (signed : Signed a cs) : ∀ c ∈ cs, Nth.isNumberChar c = true := by
  cases signed with
  | bare numeral => exact numeral.isNumberChar
  | plus numeral | minus numeral => exact List.forall_mem_cons.mpr ⟨rfl, numeral.isNumberChar⟩

theorem SpellsStep.isNumberChar (step : SpellsStep a cs) : ∀ c ∈ cs, Nth.isNumberChar c = true := by
  cases step with
  | absent => exact List.forall_mem_nil _
  | plus | minus => exact List.forall_mem_singleton.mpr rfl
  | number signed => exact signed.isNumberChar

theorem SpellsOffset.isNumberChar (offset : SpellsOffset b cs) :
    ∀ c ∈ cs, Nth.isNumberChar c = true := by
  cases offset with
  | absent => exact List.forall_mem_nil _
  | plus numeral | minus numeral => exact List.forall_mem_cons.mpr ⟨rfl, numeral.isNumberChar⟩

/-- A letter is in no number. -/
theorem not_mem_of_isNumberChar (number : ∀ c ∈ cs, isNumberChar c = true) {letter : Char}
    (other : isNumberChar letter = false) : letter ∉ cs := fun member =>
  Bool.false_ne_true (other.symm.trans (number letter member))

theorem isNumberChar_iff {c : Char} : isNumberChar c = true ↔
    48 ≤ c.toNat ∧ c.toNat ≤ 57 ∨ c.toNat = 43 ∨ c.toNat = 45 := by
  have sign (sign : Char) : c = sign ↔ c.toNat = sign.toNat := Char.toNat_inj.symm
  rw [isNumberChar, Bool.or_eq_true, Bool.or_eq_true, beq_iff_eq, beq_iff_eq, Text.isDigit_iff,
    sign '+', sign '-', or_assoc]
  rfl

/-- Only a letter is lowered, and only to a letter. -/
theorem toLower_of_isNumberChar {c : Char}
    (number : isNumberChar c.toLower = true ∨ isNumberChar c = true) : c.toLower = c := by
  rw [isNumberChar_iff, isNumberChar_iff] at number
  rcases Text.toNat_toLower c with ⟨lowered, low, high⟩ | same
  · omega
  · exact same

end Chars

/-! ## Reading -/

section Reading

variable {n : Nat} {a b : Int} {cs : List Char} {e : Nth}

theorem readDigits_eq_some_iff : readDigits cs = some n ↔ Numeral n cs := by
  have number : cs.foldl (fun n c => n * 10 + (c.toNat - 48)) 0 = Nat.ofDigitChars 10 cs 0 := by
    rw [Nat.ofDigitChars_eq_foldl]
    congr 1
    funext n c
    rw [Nat.mul_comm]
    rfl
  rw [readDigits, number]
  split
  · rename_i other
    refine iff_of_false (Option.some_ne_none n).symm fun numeral => ?_
    have digits : cs.all Char.isDigit = true := List.all_eq_true.mpr numeral.digits
    simp [numeral.filled, digits] at other
  · rename_i digits
    simp only [Bool.or_eq_true, not_or, List.isEmpty_iff, Bool.not_eq_true, Bool.not_eq_false',
      List.all_eq_true] at digits
    exact ⟨fun read => ⟨digits.1, digits.2, Option.some.inj read⟩,
      fun numeral => congrArg some numeral.value⟩

theorem readInt_eq_some_iff :
    readInt cs = some a ↔ Signed a cs ∧ -2147483648 ≤ a ∧ a ≤ 2147483647 := by
  constructor
  · intro read
    refine ⟨?_, fits_of_readInt read⟩
    unfold readInt at read
    dsimp only at read
    split at read <;>
      obtain ⟨m, value, read⟩ := Option.bind_eq_some_iff.mp read <;>
      obtain ⟨n, digits, rfl⟩ := Option.map_eq_some_iff.mp value <;>
      cases (Option.ite_none_right_eq_some.mp read).2
    · exact .minus (readDigits_eq_some_iff.mp digits)
    · exact .plus (readDigits_eq_some_iff.mp digits)
    · exact .bare (readDigits_eq_some_iff.mp digits)
  · rintro ⟨signed, fits⟩
    cases signed with
    | plus numeral | minus numeral =>
      simp only [readInt, readDigits_eq_some_iff.mpr numeral, Option.map_some, Option.bind_eq_bind,
        Option.bind_some]
      exact if_pos fits
    | bare numeral =>
      have noSign {sign : Char} (other : sign.isDigit = false) (rest : List Char) :
          cs ≠ sign :: rest := by
        rintro rfl
        exact Bool.false_ne_true (other.symm.trans (numeral.digits sign List.mem_cons_self))
      rw [readInt]
      · simp only [readDigits_eq_some_iff.mpr numeral, Option.map_some, Option.bind_eq_bind,
          Option.bind_some]
        exact if_pos fits
      · exact noSign rfl
      · exact noSign rfl

theorem readStep_eq_some_iff :
    readStep cs = some a ↔ SpellsStep a cs ∧ -2147483648 ≤ a ∧ a ≤ 2147483647 := by
  constructor
  · intro read
    refine ⟨?_, fits_of_readStep read⟩
    unfold readStep at read
    split at read
    · cases read
      exact .absent
    · cases read
      exact .plus
    · cases read
      exact .minus
    · exact .number (readInt_eq_some_iff.mp read).1
  · rintro ⟨step, fits⟩
    cases step with
    | absent | plus | minus => rfl
    | number signed =>
      have read : readInt cs = some a := readInt_eq_some_iff.mpr ⟨signed, fits⟩
      unfold readStep
      split
      · cases read
      · cases read
      · cases read
      · exact read

theorem readOffset_eq_some_iff :
    readOffset cs = some b ↔ SpellsOffset b cs ∧ -2147483648 ≤ b ∧ b ≤ 2147483647 := by
  constructor
  · intro read
    refine ⟨?_, fits_of_readOffset read⟩
    unfold readOffset at read
    split at read
    · cases read
      exact .absent
    · cases (readInt_eq_some_iff.mp read).1 with
      | plus numeral => exact .plus numeral
      | bare numeral => exact absurd (numeral.digits _ List.mem_cons_self) (by decide)
    · cases (readInt_eq_some_iff.mp read).1 with
      | minus numeral => exact .minus numeral
      | bare numeral => exact absurd (numeral.digits _ List.mem_cons_self) (by decide)
    · cases read
  · rintro ⟨offset, fits⟩
    cases offset with
    | absent => rfl
    | plus numeral => exact readInt_eq_some_iff.mpr ⟨.plus numeral, fits⟩
    | minus numeral => exact readInt_eq_some_iff.mpr ⟨.minus numeral, fits⟩

theorem spells_of_readPlain (lowered : cs.map Char.toLower = cs) (read : readPlain cs = some e) :
    Spells e cs := by
  unfold readPlain at read
  split at read
  · next word =>
    cases read
    exact .odd (lowered.trans word)
  · split at read
    · next word =>
      cases read
      exact .even (lowered.trans word)
    · split at read
      · next b index =>
        cases read
        exact .index (readInt_eq_some_iff.mp index).1
      · split at read
        · next before letter after halves =>
          obtain ⟨a, step, read⟩ := Option.bind_eq_some_iff.mp read
          obtain ⟨b, offset, read⟩ := Option.bind_eq_some_iff.mp read
          cases read
          rw [List.span_eq_takeWhile_dropWhile] at halves
          obtain ⟨rfl, there⟩ := Prod.mk.inj halves
          have isLetter : letter = 'n' := by
            have stopped := List.head_dropWhile_not (p := (· != 'n')) (l := cs) (by simp [there])
            simpa [there] using stopped
          rw [← List.takeWhile_append_dropWhile (p := (· != 'n')) (l := cs), there]
          exact .linear (.inl isLetter) (readStep_eq_some_iff.mp step).1
            (readOffset_eq_some_iff.mp offset).1
        · cases read

theorem readPlain_of_signed (signed : Signed b cs) (fits : -2147483648 ≤ b ∧ b ≤ 2147483647) :
    readPlain cs = some ⟨0, b⟩ := by
  have notD : 'd' ∉ cs := not_mem_of_isNumberChar signed.isNumberChar rfl
  have notE : 'e' ∉ cs := not_mem_of_isNumberChar signed.isNumberChar rfl
  rw [readPlain, if_neg fun odd => notD (by simp [odd]), if_neg fun even => notE (by simp [even]),
    readInt_eq_some_iff.mpr ⟨signed, fits⟩]

theorem readPlain_of_linear {before after : List Char} (step : SpellsStep a before)
    (offset : SpellsOffset b after) (fits : Fits ⟨a, b⟩) :
    readPlain (before ++ 'n' :: after) = some ⟨a, b⟩ := by
  have outside {other : Char} (notN : other ≠ 'n') (letter : isNumberChar other = false) :
      other ∉ before ++ 'n' :: after := by
    simp [notN, not_mem_of_isNumberChar step.isNumberChar letter,
      not_mem_of_isNumberChar offset.isNumberChar letter]
  have notD : 'd' ∉ before ++ 'n' :: after := outside (by decide) rfl
  have notE : 'e' ∉ before ++ 'n' :: after := outside (by decide) rfl
  have front : ∀ c ∈ before, (c != 'n') = true := fun c member => by
    simpa using ne_of_mem_of_not_mem member (not_mem_of_isNumberChar step.isNumberChar rfl)
  have cut : (before ++ 'n' :: after).span (· != 'n') = (before, 'n' :: after) := by
    rw [List.span_eq_takeWhile_dropWhile, List.takeWhile_append_of_pos front,
      List.dropWhile_append_of_pos front]
    simp
  rw [readPlain, if_neg fun odd => notD (by simp [odd]), if_neg fun even => notE (by simp [even]),
    readInt_eq_none (by simp), cut]
  simp [readStep_eq_some_iff.mpr ⟨step, fits.step⟩,
    readOffset_eq_some_iff.mpr ⟨offset, fits.offset⟩]

theorem readPlain_of_spells (lowered : cs.map Char.toLower = cs) (spells : Spells e cs)
    (fits : e.Fits) : readPlain cs = some e := by
  cases spells with
  | odd word => exact if_pos (lowered.symm.trans word)
  | even word => exact (lowered.symm.trans word) ▸ rfl
  | index signed => exact readPlain_of_signed signed fits.offset
  | linear either step offset =>
    rcases either with rfl | rfl
    · exact readPlain_of_linear step offset fits
    · have small : 'N'.toLower = 'N' :=
        List.map_inj_left.mp (lowered.trans (List.map_id _).symm) 'N' (by simp)
      exact absurd small (by decide)

end Reading

/-! ## Capitals and blanks -/

section Capitals

variable {e : Nth} {cs : List Char}

theorem toLower_eq_n_iff {c : Char} : c.toLower = 'n' ↔ c = 'n' ∨ c = 'N' := by
  constructor
  · intro lowered
    rcases Text.toNat_toLower c with ⟨number, -⟩ | same
    · rw [lowered] at number
      refine .inr (Char.toNat_inj.mp ?_)
      simp at number ⊢
      omega
    · exact .inl (same.symm.trans lowered)
  · rintro (rfl | rfl) <;> rfl

theorem map_toLower_map_toLower (cs : List Char) :
    (cs.map Char.toLower).map Char.toLower = cs.map Char.toLower := by
  rw [List.map_map]
  exact List.map_congr_left fun c _ => Text.toLower_toLower c

/-- Numbers are the same in lower case. -/
theorem map_toLower_eq_self
    (number : (∀ c ∈ cs.map Char.toLower, isNumberChar c = true) ∨
      ∀ c ∈ cs, isNumberChar c = true) : cs.map Char.toLower = cs := by
  refine (List.map_congr_left fun c member => toLower_of_isNumberChar ?_).trans (List.map_id _)
  exact number.imp (fun lowered => lowered _ (List.mem_map_of_mem member)) fun all => all c member

theorem Spells.map_toLower (spells : Spells e cs) : Spells e (cs.map Char.toLower) := by
  cases spells with
  | odd word => exact .odd ((map_toLower_map_toLower cs).trans word)
  | even word => exact .even ((map_toLower_map_toLower cs).trans word)
  | index signed =>
    rw [map_toLower_eq_self (.inr signed.isNumberChar)]
    exact .index signed
  | linear either step offset =>
    rw [List.map_append, List.map_cons, map_toLower_eq_self (.inr step.isNumberChar),
      map_toLower_eq_self (.inr offset.isNumberChar)]
    exact .linear (.inl (toLower_eq_n_iff.mpr either)) step offset

theorem Spells.of_map_toLower (spells : Spells e (cs.map Char.toLower)) : Spells e cs := by
  generalize lower : cs.map Char.toLower = lowered at spells
  cases spells with
  | odd word => exact .odd ((map_toLower_map_toLower cs).symm.trans (lower ▸ word))
  | even word => exact .even ((map_toLower_map_toLower cs).symm.trans (lower ▸ word))
  | index signed =>
    subst lower
    exact .index (map_toLower_eq_self (.inl signed.isNumberChar) ▸ signed)
  | linear either step offset =>
    obtain ⟨before, rest, rfl, rfl, behind⟩ := List.map_eq_append_iff.mp lower
    obtain ⟨letter, after, rfl, rfl, rfl⟩ := List.map_eq_cons_iff.mp behind
    rw [map_toLower_eq_self (.inl step.isNumberChar)] at step
    rw [map_toLower_eq_self (.inl offset.isNumberChar)] at offset
    refine .linear ?_ step offset
    rcases either with small | capital
    · exact toLower_eq_n_iff.mp small
    · have same : letter.toLower.toLower = letter.toLower := Text.toLower_toLower letter
      rw [capital] at same
      exact absurd same (by decide)

end Capitals

/-- A text is read as an index expression exactly if what is left of it without blanks spells the
expression, and both coefficients take 32 bits. -/
theorem ofString_eq_some_iff {text : String} {e : Nth} :
    Nth.ofString text = some e ↔ Spells e (text.toList.filter (!Text.isBlank ·)) ∧ e.Fits := by
  rw [ofString]
  constructor
  · intro read
    exact ⟨(spells_of_readPlain (map_toLower_map_toLower _) read).of_map_toLower,
      fits_of_ofChars read⟩
  · rintro ⟨spells, fits⟩
    exact readPlain_of_spells (map_toLower_map_toLower _) spells.map_toLower fits

example : Nth.ofString " -0 3N\t+ 1" = some ⟨-3, 1⟩ := by decide +kernel

end NoiseFilter.Nth
