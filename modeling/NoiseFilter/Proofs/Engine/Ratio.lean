import NoiseFilter.Engine.Ratio
import NoiseFilter.Proofs.Engine.Candidates

/-!
# What a ratio is made of

The counts behind a ratio range over the elements of the page, and so do the units that a marked element
may lie in: what lies above a connected element is connected, unless something has taken the document in.
So where a marked element lies inside a unit, a unit is counted, and what is taken off the whole has been
added to it before (`RatioCounts.consistent`).
-/

namespace NoiseFilter.RatioCounts

variable {config : Config} {unit : Selector} {t : Tree}

/-- Counts that fit together. -/
structure Consistent (c : RatioCounts) : Prop where
  /-- What lies inside units is a part of what is marked. -/
  inside : c.classifiedInUnits ≤ c.classified
  /-- Something that lies inside a unit needs a unit. -/
  unit : 0 < c.classifiedInUnits → 0 < c.items

namespace Consistent

variable {c : RatioCounts} (consistent : c.Consistent)

include consistent

/-- Nothing is lost when the marked elements inside units are taken off. -/
theorem whole_add : c.whole + c.classifiedInUnits = c.items + c.classified :=
  Nat.sub_add_cancel (consistent.inside.trans (Nat.le_add_left ..))

/-- There is nothing to be counted only if there is neither a unit nor a marked element. -/
theorem whole_eq_zero_iff : c.whole = 0 ↔ c.items = 0 ∧ c.classified = 0 := by
  have sum := consistent.whole_add
  constructor
  · intro nothing
    have inside := consistent.inside
    have noUnit : c.items = 0 := by omega
    have outside : c.classifiedInUnits = 0 := by
      by_contra some
      exact absurd (consistent.unit (Nat.pos_of_ne_zero some)) (by omega)
    omega
  · omega

end Consistent

theorem ratio_of_nothing {c : RatioCounts} (nothing : c.whole = 0) : c.ratio = 0 := if_pos nothing

theorem ratio_le (c : RatioCounts) : c.ratio ≤ 100 := by
  rw [ratio]
  split
  · exact Nat.zero_le _
  · exact Nat.min_le_left ..

/-- A unit above an element of the page is an element of the page. -/
theorem mem_elements_of_accepts (linked : t.Linked) (top : t.parent? .root = none) {id a : NodeId}
    (member : id ∈ t.elements) (above : a ∈ t.ancestors id) (isUnit : unit.accepts t none a = true) :
    a ∈ t.elements := by
  have connected := (linked.mem_elements.mp member).2
  have isElement : t.isElement a = true := (Bool.and_eq_true_iff.mp isUnit).1
  exact linked.mem_elements.mpr ⟨isElement,
    linked.isConnected_above top connected (Tree.isInclusiveAncestor_iff.mpr (.inr above))⟩

/-- The counts of a page fit together. -/
theorem consistent (linked : t.Linked) (top : t.parent? .root = none) :
    (ofTree config unit t).Consistent where
  inside := List.length_filter_le _ _
  unit := by
    intro some
    obtain ⟨id, member⟩ := List.exists_mem_of_length_pos some
    obtain ⟨marked, inUnit⟩ := List.mem_filter.mp member
    obtain ⟨a, above, isUnit⟩ := List.any_eq_true.mp inUnit
    have listed := mem_elements_of_accepts linked top (List.mem_filter.mp marked).1 above isUnit
    exact List.length_pos_of_mem (List.mem_filter.mpr ⟨listed, isUnit⟩)

end NoiseFilter.RatioCounts

namespace NoiseFilter

/-- However a page has come about by edits, as long as the document has no parent: the marked elements
inside units are among the marked ones, and if there are any, there are units. So what is taken off the
whole was part of it, the whole is zero only if there are neither units nor marked elements, nothing is
divided by zero then, and the ratio is never above 100. -/
theorem ratio_of_edits (ws : List Edit) (top : (Tree.edited ws).parent? .root = none) (config : Config)
    (unit : Selector) :
    let c := RatioCounts.ofTree config unit (Tree.edited ws)
    c.classifiedInUnits ≤ c.classified ∧
      (0 < c.classifiedInUnits → 0 < c.items) ∧
      c.whole + c.classifiedInUnits = c.items + c.classified ∧
      (c.whole = 0 ↔ c.items = 0 ∧ c.classified = 0) ∧
      (c.whole = 0 → c.ratio = 0) ∧
      c.ratio ≤ 100 := by
  intro c
  have consistent : c.Consistent := RatioCounts.consistent (Tree.linked_edited ws) top
  exact ⟨consistent.inside, consistent.unit, consistent.whole_add, consistent.whole_eq_zero_iff,
    RatioCounts.ratio_of_nothing, c.ratio_le⟩

/-- A marked unit that holds two marked paragraphs. -/
def markedUnit : List Edit :=
  [.create (.element (((Element.ofName "div").set "data-id" "1").set "class" "sift-dim")),
    .create (.element ((Element.ofName "p").set "class" "sift-remove")),
    .create (.element ((Element.ofName "p").set "class" "sift-dim")),
    .append .root ⟨1⟩, .append ⟨1⟩ ⟨2⟩, .append ⟨1⟩ ⟨3⟩]

/-- The elements with the attribute `data-id`. -/
def dataUnit : Selector := ⟨[.compound [.attribute ⟨"data-id", none⟩]]⟩

theorem ratio_of_markedUnit :
    (Tree.edited markedUnit).parent? .root = none ∧
      RatioCounts.ofTree {} dataUnit (Tree.edited markedUnit) = ⟨3, 1, 2⟩ ∧
      (RatioCounts.ofTree {} dataUnit (Tree.edited markedUnit)).whole + 2 = 1 + 3 ∧
      (RatioCounts.ofTree {} dataUnit (Tree.edited markedUnit)).ratio ≤ 100 := by
  have top : (Tree.edited markedUnit).parent? .root = none := by decide +kernel
  have counts : RatioCounts.ofTree {} dataUnit (Tree.edited markedUnit) = ⟨3, 1, 2⟩ := by
    decide +kernel
  have facts := ratio_of_edits markedUnit top {} dataUnit
  refine ⟨top, counts, ?_, facts.2.2.2.2.2⟩
  have sum := facts.2.2.1
  rw [counts] at sum ⊢
  exact sum

end NoiseFilter
