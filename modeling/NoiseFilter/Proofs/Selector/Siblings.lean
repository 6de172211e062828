import NoiseFilter.Proofs.Selector.Spelling
import NoiseFilter.Proofs.Tree.ChildLists
import NoiseFilter.Selector.Match

/-!
# Places among siblings

An element with a parent cuts the list of children in which it stands in two. From either half its
place is counted (`siblingPlace_of_halves`), and an index expression takes the places `A * k + B`
(`Nth.accepts_iff`). So every pseudo-class for places says of an element what it says of these numbers
(`Counted`).
-/

namespace NoiseFilter

namespace Nth

/-- The position is one of those that the expression stands for. -/
def Selects (e : Nth) (position : Nat) : Prop := ∃ k : Nat, e.step * k + e.offset = position

theorem exists_mul_iff {step distance : Int} (positive : 0 < step) :
    (∃ k : Nat, step * k = distance) ↔ 0 ≤ distance ∧ distance % step = 0 := by
  constructor
  · rintro ⟨k, rfl⟩
    exact ⟨Int.mul_nonneg (Int.le_of_lt positive) (Int.natCast_nonneg k), Int.mul_emod_right step k⟩
  · rintro ⟨high, divides⟩
    obtain ⟨q, rfl⟩ := Int.dvd_of_emod_eq_zero divides
    obtain ⟨k, rfl⟩ := Int.eq_ofNat_of_zero_le (Int.nonneg_of_mul_nonneg_right high positive)
    exact ⟨k, rfl⟩

theorem accepts_iff (e : Nth) (position : Nat) : e.accepts position = true ↔ e.Selects position := by
  have shifted : e.Selects position ↔ ∃ k : Nat, e.step * k = position - e.offset :=
    exists_congr fun k => by omega
  rw [shifted, accepts]
  split
  · rename_i zero
    simp [zero, eq_comm]
  · split
    · rename_i positive
      rw [exists_mul_iff positive, Bool.and_eq_true, decide_eq_true_iff, decide_eq_true_iff]
    · -- a negative step goes down from the offset as its opposite goes up
      rename_i nonzero notPositive
      have negative : 0 < -e.step := by omega
      have turned : (∃ k : Nat, e.step * k = position - e.offset) ↔
          ∃ k : Nat, -e.step * k = -(position - e.offset) :=
        exists_congr fun k => by rw [Int.neg_mul, Int.neg_inj]
      rw [turned, exists_mul_iff negative, Bool.and_eq_true, decide_eq_true_iff, decide_eq_true_iff,
        ← Int.dvd_iff_emod_eq_zero, ← Int.dvd_iff_emod_eq_zero, Int.neg_dvd, Int.dvd_neg]
      exact and_congr_left' (by omega)

end Nth

/-! ## Counting -/

section Counting

variable {t : Tree} {el p : NodeId} {before behind : List NodeId}

/-- A node is an element with the tag of another. -/
def sharesTag (t : Tree) (el s : NodeId) : Bool := t.isElement s && t.tag? s == t.tag? el

/-- The nodes that count as siblings of an element. -/
def countsFor (t : Tree) (el : NodeId) (sameType : Bool) : NodeId → Bool :=
  if sameType then sharesTag t el else t.isElement

variable (element : t.isElement el = true) (parent : t.parent? el = some p)
  (halves : t.children p = before ++ el :: behind) (notBefore : el ∉ before)

include element parent halves notBefore

/-- The place of an element comes from what stands before it, the number of places from all. -/
theorem siblingPlace_of_halves (sameType : Bool) :
    siblingPlace t el sameType =
      ((before.filter (countsFor t el sameType)).length + 1,
        (before.filter (countsFor t el sameType)).length +
          ((behind.filter (countsFor t el sameType)).length + 1)) := by
  have counts : countsFor t el sameType el = true := by
    cases sameType with
    | false => exact element
    | true => simp [countsFor, sharesTag, element]
  have peers : (t.elementChildren p).filter (fun s => !sameType || t.tag? s == t.tag? el) =
      before.filter (countsFor t el sameType) ++ el :: behind.filter (countsFor t el sameType) := by
    have same : (fun s => (!sameType || t.tag? s == t.tag? el) && t.isElement s) =
        countsFor t el sameType := by
      funext s
      cases sameType with
      | false => exact Bool.true_and _
      | true => exact Bool.and_comm ..
    rw [Tree.elementChildren, List.filter_filter, same, halves, List.filter_append,
      List.filter_cons_of_pos counts]
  have nowhere : (before.filter (countsFor t el sameType)).findIdx? (· == el) = none := by
    rw [List.findIdx?_eq_none_iff]
    intro s member
    exact beq_eq_false_iff_ne.mpr (ne_of_mem_of_not_mem (List.mem_filter.mp member).1 notBefore)
  rw [siblingPlace, parent]
  dsimp only
  rw [peers, List.findIdx?_append, nowhere, List.findIdx?_cons, beq_self_eq_true]
  simp only [if_true, Option.map_some, Option.none_or, Option.getD_some, List.length_append,
    List.length_cons, Nat.zero_add]

/-- Counted from the last sibling, the place comes from what stands behind the element. -/
theorem siblingPlaceFromEnd_of_halves (sameType : Bool) :
    siblingPlaceFromEnd t el sameType =
      (behind.filter (countsFor t el sameType)).length + 1 := by
  rw [siblingPlaceFromEnd, siblingPlace_of_halves element parent halves notBefore]
  dsimp only
  omega

end Counting

/-! ## Pseudo-classes -/

/-- What the pseudo-classes for places say of an element with these siblings before and behind it. -/
structure Counted (t : Tree) (scope : Option NodeId) (el : NodeId) (before behind : List NodeId) :
    Prop where
  nthChild : ∀ e : Nth, (Pseudo.nthChild e).holds t scope el = true ↔
    e.Selects ((before.filter t.isElement).length + 1)
  nthLastChild : ∀ e : Nth, (Pseudo.nthLastChild e).holds t scope el = true ↔
    e.Selects ((behind.filter t.isElement).length + 1)
  nthOfType : ∀ e : Nth, (Pseudo.nthOfType e).holds t scope el = true ↔
    e.Selects ((before.filter (sharesTag t el)).length + 1)
  nthLastOfType : ∀ e : Nth, (Pseudo.nthLastOfType e).holds t scope el = true ↔
    e.Selects ((behind.filter (sharesTag t el)).length + 1)
  firstChild : Pseudo.firstChild.holds t scope el = (Pseudo.nthChild ⟨0, 1⟩).holds t scope el
  lastChild : Pseudo.lastChild.holds t scope el = (Pseudo.nthLastChild ⟨0, 1⟩).holds t scope el
  firstOfType : Pseudo.firstOfType.holds t scope el = (Pseudo.nthOfType ⟨0, 1⟩).holds t scope el
  lastOfType : Pseudo.lastOfType.holds t scope el =
    (Pseudo.nthLastOfType ⟨0, 1⟩).holds t scope el
  onlyChild : Pseudo.onlyChild.holds t scope el =
    (Pseudo.firstChild.holds t scope el && Pseudo.lastChild.holds t scope el)
  onlyOfType : Pseudo.onlyOfType.holds t scope el =
    (Pseudo.firstOfType.holds t scope el && Pseudo.lastOfType.holds t scope el)

theorem accepts_one (n : Nat) : (⟨0, 1⟩ : Nth).accepts (n + 1 : Nat) = (n == 0) := by
  have taken : (⟨0, 1⟩ : Nth).Selects (n + 1) ↔ n = 0 := by
    simp only [Nth.Selects, Int.zero_mul, exists_const]
    omega
  rw [Bool.eq_iff_iff, Nth.accepts_iff, beq_iff_eq, taken]

theorem counted_of_halves {t : Tree} {el p : NodeId} {before behind : List NodeId}
    (element : t.isElement el = true) (parent : t.parent? el = some p)
    (halves : t.children p = before ++ el :: behind) (notBefore : el ∉ before)
    (scope : Option NodeId) : Counted t scope el before behind := by
  have place := siblingPlace_of_halves element parent halves notBefore
  have fromEnd := siblingPlaceFromEnd_of_halves element parent halves notBefore
  constructor
  case nthChild | nthOfType =>
    intro e
    rw [Pseudo.holds, place]
    exact e.accepts_iff _
  case nthLastChild | nthLastOfType =>
    intro e
    rw [Pseudo.holds, fromEnd]
    exact e.accepts_iff _
  case firstChild | firstOfType =>
    rw [Pseudo.holds, Pseudo.holds, place, accepts_one, Bool.eq_iff_iff]
    simp only [beq_iff_eq]
    omega
  case lastChild | lastOfType =>
    rw [Pseudo.holds, Pseudo.holds, place, fromEnd, accepts_one, Bool.eq_iff_iff]
    simp only [beq_iff_eq]
    omega
  case onlyChild | onlyOfType =>
    rw [Pseudo.holds, Pseudo.holds, Pseudo.holds, place, Bool.eq_iff_iff]
    simp only [Bool.and_eq_true, beq_iff_eq]
    omega

/-- However a tree has come about by edits, an element with a parent cuts the children of its parent in
two; the pseudo-classes for places count the elements in front of it and behind it. And the index
expressions of these classes are read from the texts that spell them. -/
theorem counted_edited (ws : List Edit) (el p : NodeId)
    (element : (Tree.edited ws).isElement el = true) (parent : (Tree.edited ws).parent? el = some p) :
    (∃ before behind, (Tree.edited ws).children p = before ++ el :: behind ∧ el ∉ before ∧ el ∉ behind ∧
      ∀ scope, Counted (Tree.edited ws) scope el before behind) ∧
    ∀ text e, Nth.ofString text = some e ↔
      Nth.Spells e (text.toList.filter (!Text.isBlank ·)) ∧ e.Fits := by
  have linked := Tree.linked_edited ws
  obtain ⟨before, behind, halves⟩ :=
    List.append_of_mem ((linked.forest.mem_children p el).mpr parent)
  obtain ⟨notBefore, notBehind⟩ := linked.forest.threads.not_mem_halves halves
  exact ⟨⟨before, behind, halves, notBefore, notBehind,
    counted_of_halves element parent halves notBefore⟩, fun _ _ => Nth.ofString_eq_some_iff⟩

/-- A list with a text and a paragraph between two of its items. -/
def mixedList : List Edit :=
  [.create (.element (.ofName "ul")), .create (.element (.ofName "li")), .create (.text "and"),
    .create (.element (.ofName "p")), .create (.element (.ofName "li")), .append .root ⟨1⟩,
    .append ⟨1⟩ ⟨2⟩, .append ⟨1⟩ ⟨3⟩, .append ⟨1⟩ ⟨4⟩, .append ⟨1⟩ ⟨5⟩]

theorem counted_mixedList :
    ∃ before behind, (Tree.edited mixedList).children ⟨1⟩ = before ++ ⟨5⟩ :: behind ∧
      (Pseudo.nthChild ⟨2, 1⟩).holds (Tree.edited mixedList) none ⟨5⟩ = true ∧
      (Pseudo.nthOfType ⟨2, 1⟩).holds (Tree.edited mixedList) none ⟨5⟩ = false ∧
      Counted (Tree.edited mixedList) none ⟨5⟩ before behind := by
  obtain ⟨⟨before, behind, halves, -, -, counted⟩, -⟩ :=
    counted_edited mixedList ⟨5⟩ ⟨1⟩ (by decide +kernel) (by decide +kernel)
  exact ⟨before, behind, halves, by decide +kernel, by decide +kernel, counted none⟩

end NoiseFilter
