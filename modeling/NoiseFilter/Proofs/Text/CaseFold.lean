import NoiseFilter.Proofs.Text.RangeTable
import NoiseFilter.Text.CaseFold

/-!
# Characters without case

The table of case sets is text that is read, ordered and searched. What it says of a character follows
from two facts: whatever a search finds is an entry, and an entry comes from a set in the text. Of the
sets it is enough here to know the smallest code point.
-/

namespace NoiseFilter.Text

theorem mem_tableOf {sets : List (List Nat)} {entry : Nat × List Nat} :
    entry ∈ tableOf sets ↔ ∃ set ∈ sets, ∃ n ∈ set, (n, set) = entry := by
  rw [tableOf, List.mem_toArray, List.mem_mergeSort, List.mem_flatMap]
  simp only [List.mem_map]

/-- The variants of a character are the set in which it is, or it has no other. -/
theorem variantsIn_eq (sets : List (List Nat)) (c : Char) : variantsIn (tableOf sets) c = [c] ∨
    ∃ set ∈ sets, c.toNat ∈ set ∧ variantsIn (tableOf sets) c = set.map Char.ofNat := by
  unfold variantsIn
  split
  · next n set found =>
    obtain ⟨set, member, m, inside, same⟩ := mem_tableOf.mp (mem_of_findEntry found)
    cases same
    have place := place_of_findEntry found
    have here : c.toNat = n := by
      unfold placeIn at place
      split at place
      · cases place
      · split at place
        · cases place
        · omega
    exact .inr ⟨set, member, here ▸ inside, rfl⟩
  · exact .inl rfl

/-- Another variant of a character comes from a set. -/
theorem mem_variantsIn {sets : List (List Nat)} {c d : Char}
    (variant : d ∈ variantsIn (tableOf sets) c) :
    c = d ∨ ∃ set ∈ sets, ∃ n ∈ set, Char.ofNat n = d := by
  rcases variantsIn_eq sets c with alone | ⟨set, member, -, whole⟩
  · rw [alone] at variant
    exact .inl (List.mem_singleton.mp variant).symm
  · rw [whole] at variant
    obtain ⟨n, inside, here⟩ := List.mem_map.mp variant
    exact .inr ⟨set, member, n, inside, here⟩

/-- Only a number that is no code point stands for the character zero besides zero. -/
theorem toNat_of_ofNat {n : Nat} {d : Char} (same : Char.ofNat n = d) (filled : d.toNat ≠ 0) :
    n = d.toNat := by
  subst same
  by_cases valid : n.isValidChar
  · rw [Char.ofNat, dif_pos valid]
    rfl
  · refine absurd ?_ filled
    rw [Char.ofNat, dif_neg valid]
    rfl

/-- Where all sets hold numbers from `least` on, a character in front of these is a variant of itself
alone. -/
theorem eq_of_mem_variantsIn {sets : List (List Nat)} {least : Nat}
    (all : (sets.all fun set => set.all (least ≤ ·)) = true) {c d : Char}
    (variant : d ∈ variantsIn (tableOf sets) c) (low : d.toNat < least) (filled : d.toNat ≠ 0) :
    c = d := by
  refine (mem_variantsIn variant).resolve_right ?_
  rintro ⟨set, member, n, inside, same⟩
  have bound : least ≤ n :=
    of_decide_eq_true (List.all_eq_true.mp (List.all_eq_true.mp all set member) n inside)
  have number := toNat_of_ofNat same filled
  omega

/-- The first letters of logic, each with those of other words. -/
def apartLetters : List (Nat × List Nat) :=
  [(110, [99, 72, 104]), (105, [110, 99, 72, 104]), (119, [110, 105, 99, 72, 104])]

/-- Their pairs. -/
def apartPairs : List (Nat × Nat) := apartLetters.flatMap fun entry => entry.2.map fun n => (entry.1, n)

-- The text of the table is longer than the default bound on nested terms.
set_option maxRecDepth 20000 in
/-- No set holds a character in front of the letter A, and none holds both letters of a pair. -/
theorem caseSets_facts : (caseSets.all fun set => set.all fun n => 65 ≤ n &&
    apartLetters.all fun entry => n != entry.1 || entry.2.all fun m => !set.contains m) = true := by
  unfold caseSets tableWords caseSetText
  rw [String.toList_ofList]
  decide +kernel

theorem caseSets_all : (caseSets.all fun set => set.all (65 ≤ ·)) = true := by
  simp only [List.all_eq_true]
  intro set member n inside
  have facts := List.all_eq_true.mp (List.all_eq_true.mp caseSets_facts set member) n inside
  rw [Bool.and_eq_true] at facts
  exact facts.1

theorem caseSets_apart {a b : Nat} {set : List Nat} (pair : (a, b) ∈ apartPairs) (member : set ∈ caseSets)
    (inside : a ∈ set) : b ∉ set := by
  have facts := List.all_eq_true.mp (List.all_eq_true.mp caseSets_facts set member) a inside
  rw [Bool.and_eq_true] at facts
  obtain ⟨entry, known, there⟩ := List.mem_flatMap.mp pair
  obtain ⟨m, other, same⟩ := List.mem_map.mp there
  cases same
  have apart := List.all_eq_true.mp facts.2 entry known
  rw [bne_self_eq_false, Bool.false_or] at apart
  simpa using List.all_eq_true.mp apart b other

/-- Every character is a variant of itself. -/
theorem mem_caseVariants_self (c : Char) : c ∈ caseVariants c := by
  rcases variantsIn_eq caseSets c with alone | ⟨set, -, inside, whole⟩
  · rw [caseVariants, caseTable, alone]
    exact List.mem_singleton.mpr rfl
  · rw [caseVariants, caseTable, whole]
    exact List.mem_map.mpr ⟨c.toNat, inside, Char.ofNat_toNat c⟩

/-- A character in front of the letter A has no other variants. -/
theorem caseVariants_of_low {c : Char} (low : c.toNat < 65) : caseVariants c = [c] := by
  rcases variantsIn_eq caseSets c with alone | ⟨set, member, inside, -⟩
  · exact alone
  · have bound := List.all_eq_true.mp (List.all_eq_true.mp caseSets_all set member) _ inside
    have bound : 65 ≤ c.toNat := of_decide_eq_true bound
    omega

/-- Two characters that are in no set together are not variants of one character. -/
theorem not_mem_caseVariants {c d e : Char} (apart : (d.toNat, e.toNat) ∈ apartPairs)
    (variant : d ∈ caseVariants c) : e ∉ caseVariants c := by
  intro variant'
  have all : (apartPairs.all fun pair => pair.1 ≠ pair.2 ∧ pair.1 ≠ 0 ∧ pair.2 ≠ 0) = true := by decide
  have facts : d.toNat ≠ e.toNat ∧ d.toNat ≠ 0 ∧ e.toNat ≠ 0 :=
    of_decide_eq_true (List.all_eq_true.mp all _ apart)
  rcases variantsIn_eq caseSets c with alone | ⟨set, member, -, whole⟩
  · rw [caseVariants, caseTable, alone] at variant variant'
    refine facts.1 (congrArg Char.toNat ?_)
    exact (List.mem_singleton.mp variant).trans (List.mem_singleton.mp variant').symm
  · rw [caseVariants, caseTable, whole] at variant variant'
    obtain ⟨n, inside, same⟩ := List.mem_map.mp variant
    obtain ⟨m, inside', same'⟩ := List.mem_map.mp variant'
    obtain rfl := toNat_of_ofNat same facts.2.1
    obtain rfl := toNat_of_ofNat same' facts.2.2
    exact caseSets_apart apart member inside inside'

/-- A parenthesis is a variant of itself alone. -/
theorem eq_of_open_mem_caseVariants {c : Char} (variant : '(' ∈ caseVariants c) : c = '(' :=
  eq_of_mem_variantsIn caseSets_all variant (by decide) (by decide)

end NoiseFilter.Text
