/-!
# Letter case of ASCII text

Names of elements, attributes and style properties are compared without regard to the case of
ASCII letters; no other letter is touched.
-/

namespace NoiseFilter.Text

/-- Lower the ASCII letters of a string. -/
def lower (s : String) : String := String.ofList (s.toList.map Char.toLower)

theorem toLower_toLower (c : Char) : c.toLower.toLower = c.toLower := by
  have of_not {c : Char} (small : ¬ (c.val ≥ 'A'.val ∧ c.val ≤ 'Z'.val)) : c.toLower = c :=
    dif_neg small
  by_cases upper : c.val ≥ 'A'.val ∧ c.val ≤ 'Z'.val
  · have lowered : c.toLower.val = c.val + ('a'.val - 'A'.val) := congrArg Char.val (dif_pos upper)
    -- A lowered letter lies behind all capitals, and the sum does not overflow.
    refine of_not ?_
    rw [lowered]
    simp only [ge_iff_le, UInt32.le_iff_toNat_le, UInt32.toNat_add] at upper ⊢
    simp at upper ⊢
    omega
  · rw [of_not upper, of_not upper]

/-- Lowering twice is lowering once. -/
@[simp] theorem lower_lower (s : String) : lower (lower s) = lower s := by
  have twice : Char.toLower ∘ Char.toLower = Char.toLower := funext toLower_toLower
  simp [lower, twice]

/-- The digits of a number in base ten. -/
def digits (n : Nat) : String := String.ofList (Nat.toDigits 10 n)

/-- Digits gathered from the front give the number back. -/
theorem foldl_toDigits (n : Nat) :
    (Nat.toDigits 10 n).foldl (fun n c => n * 10 + (c.toNat - 48)) 0 = n := by
  refine Eq.trans ?_ Nat.ofDigitChars_ten_toDigits
  rw [Nat.ofDigitChars_eq_foldl]
  congr 1
  funext n c
  rw [Nat.mul_comm]
  rfl

end NoiseFilter.Text
