import NoiseFilter.Proofs.Selector.Reach

/-!
# Selectors that start at their scope

What a relative selector finds from an element and what a query finds inside the element differ in one
thing. Both find elements at the end of a line for the selector; but for a relative selector the first
element of the line is joined to the element as well (`Complex.holds_fromScope_iff`), and for a query
only the last one has to lie inside it (`Selector.mem_queryRelative_descendant`). Where the selector
goes from sibling to sibling only, the first element lies inside as soon as the last one does
(`Complex.below_head_of_sideways`).
-/

namespace NoiseFilter

/-- What lies above a node lies above its earlier siblings. -/
theorem Tree.Linked.below_of_later_sibling {t : Tree} (linked : t.Linked) {a b c p : NodeId}
    (siblings : [b, c].Sublist (t.children p)) (below : t.forest.Below a c) : t.forest.Below a b := by
  have parent := (linked.forest.mem_children p b).mp (siblings.subset (by simp))
  have parent' := (linked.forest.mem_children p c).mp (siblings.subset (by simp))
  obtain ⟨q, way, last⟩ := Relation.TransGen.tail'_iff.mp below
  cases parent'.symm.trans last
  exact Relation.TransGen.tail'_iff.mpr ⟨p, way, parent⟩

/-- A combinator that goes from an element to a sibling. -/
def Combinator.Sideways (k : Combinator) : Prop := k = .next ∨ k = .subsequent

theorem Combinator.Sideways.siblings {t : Tree} {k : Combinator} (sideways : k.Sideways)
    {a b : NodeId} (joins : k.Joins t a b) : ∃ p, [a, b].Sublist (t.children p) := by
  rcases sideways with rfl | rfl
  · obtain ⟨p, pair⟩ := joins
    exact ⟨p, pair.sublist.trans List.filter_sublist⟩
  · exact joins

namespace Complex

variable {t : Tree} (linked : t.Linked) {el : NodeId}

include linked

/-- A selector that is tied to its scope asks for a line of which the first element is joined to the
scope. -/
theorem holds_fromScope_iff (k : Combinator) (scope : t.isElement el = true) :
    ∀ (c : Complex) {e : NodeId},
      t.isElement e = true ∧ (c.fromScope k).holds t (some el) e = true ↔
        ∃ path, c.Line t (some el) path ∧ path.getLast? = some e ∧
          ∃ first, path.head? = some first ∧ k.Joins t el first
  | .compound parts, e => by
    have subject (o : NodeId) :
        (compound [.pseudo .scope]).holds t (some el) o = true ↔ el = o := by
      simp [Complex.holds, holdsAll, Simple.holds, Pseudo.holds]
    rw [fromScope, holds, Bool.and_eq_true, List.any_eq_true]
    constructor
    · rintro ⟨element, holds, o, origin, here⟩
      obtain rfl := (subject o).mp here
      exact ⟨[e], line_compound.mpr ⟨element, holds⟩, rfl, e, rfl,
        ((k.mem_origins linked element).mp origin).2⟩
    · rintro ⟨path, whole, last, first, head, joins⟩
      obtain ⟨front, rfl⟩ := List.getLast?_eq_some_iff.mp last
      have alone : front = [] := by simpa [compounds] using whole.length
      subst alone
      cases head
      obtain ⟨element, holds⟩ := line_compound.mp whole
      exact ⟨element, holds, el, (k.mem_origins linked element).mpr ⟨scope, joins⟩,
        (subject el).mpr rfl⟩
  | .join left k' parts, e => by
    rw [fromScope, holds, Bool.and_eq_true, List.any_eq_true]
    constructor
    · rintro ⟨element, holds, o, member, leftHolds⟩
      obtain ⟨originElement, joined⟩ := (k'.mem_origins linked element).mp member
      obtain ⟨front, line, last, first, head, joins⟩ :=
        (holds_fromScope_iff k scope left).mp ⟨originElement, leftHolds⟩
      refine ⟨front ++ [e], line_join.mpr ⟨line, ⟨o, last, joined⟩, element, holds⟩,
        List.getLast?_concat, first, ?_, joins⟩
      rw [List.head?_append, head]
      rfl
    · rintro ⟨path, whole, last, first, head, joins⟩
      obtain ⟨front, rfl⟩ := List.getLast?_eq_some_iff.mp last
      obtain ⟨line, ⟨o, last, joined⟩, element, holds⟩ := line_join.mp whole
      have filled : front ≠ [] := by
        rintro rfl
        cases last
      rw [List.head?_append_of_ne_nil _ filled] at head
      obtain ⟨originElement, leftHolds⟩ :=
        (holds_fromScope_iff k scope left).mpr ⟨front, line, last, first, head, joins⟩
      exact ⟨element, holds, o, (k'.mem_origins linked element).mpr ⟨originElement, joined⟩,
        leftHolds⟩

/-- A line that goes from sibling to sibling begins inside an element if it ends inside. -/
theorem below_head_of_sideways {scope : Option NodeId} :
    ∀ (c : Complex) {path : List NodeId} {first e : NodeId}, (∀ k ∈ c.combinators, k.Sideways) →
      c.Line t scope path → path.head? = some first → path.getLast? = some e →
      t.forest.Below el e → t.forest.Below el first
  | .compound parts, path, first, e, _, line, head, last, below => by
    obtain ⟨front, rfl⟩ := List.getLast?_eq_some_iff.mp last
    have alone : front = [] := by simpa [compounds] using line.length
    subst alone
    cases head
    exact below
  | .join left k parts, path, first, e, sideways, line, head, last, below => by
    rw [combinators, List.forall_mem_append, List.forall_mem_singleton] at sideways
    obtain ⟨front, rfl⟩ := List.getLast?_eq_some_iff.mp last
    obtain ⟨leftLine, ⟨o, leftLast, joins⟩, -⟩ := line_join.mp line
    have filled : front ≠ [] := by
      rintro rfl
      cases leftLast
    rw [List.head?_append_of_ne_nil _ filled] at head
    obtain ⟨p, siblings⟩ := sideways.2.siblings joins
    exact below_head_of_sideways left sideways.1 leftLine head leftLast
      (linked.below_of_later_sibling siblings below)

end Complex

namespace Selector

variable {t : Tree} (linked : t.Linked) {el e : NodeId}

include linked

/-- A query that is tied to its scope finds all elements that the selector matches. -/
theorem mem_queryRelative_fromScope (k : Combinator) (c : Complex) :
    e ∈ queryRelative ⟨[c.fromScope k]⟩ t el k ↔
      t.isElement e = true ∧ (c.fromScope k).holds t (some el) e = true := by
  rw [queryRelative, List.mem_filter, accepts, holdsAny, holdsAny, Bool.or_false, Bool.and_eq_true]
  refine and_iff_right_of_imp ?_
  rintro ⟨element, holds⟩
  exact c.mem_candidates_of_holds linked k element holds

/-- A query that is not tied to its scope finds the elements inside the scope at which a line ends. -/
theorem mem_queryRelative_descendant (c : Complex) :
    e ∈ queryRelative ⟨[c]⟩ t el .descendant ↔ t.forest.Below el e ∧
      ∃ path, c.Line t (some el) path ∧ path.getLast? = some e := by
  rw [queryRelative, List.mem_filter, accepts, holdsAny, holdsAny, Bool.or_false, Bool.and_eq_true,
    Combinator.mem_candidates linked, ← c.holds_iff linked]
  constructor
  · rintro ⟨⟨-, below⟩, element, holds⟩
    exact ⟨below, element, holds⟩
  · rintro ⟨below, element, holds⟩
    exact ⟨⟨element, below⟩, element, holds⟩

end Selector

end NoiseFilter
