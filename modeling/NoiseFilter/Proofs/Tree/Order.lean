import Mathlib.Logic.Relation
import NoiseFilter.Proofs.Tree.Preorder

/-!
# Document order

A node comes before what lies below it, and what hangs at one child of a node comes before what
hangs at a later child. The walk down from a node comes to the nodes below it in this order. The
siblings in front of a node are those that precede it in the list in which it stands.
-/

namespace NoiseFilter

section Pairs

variable {β : Type} {a x : β} {before behind : List β}

/-- What precedes a member that a list holds once. -/
theorem pair_sublist_left (notBefore : x ∉ before) (notBehind : x ∉ behind) :
    [a, x].Sublist (before ++ x :: behind) ↔ a ∈ before := by
  constructor
  · intro pair
    obtain ⟨left, right, both, inLeft, inRight⟩ := List.sublist_append_iff.mp pair
    match left, both with
    | [], both =>
      subst both
      rcases List.sublist_cons_iff.mp inRight with inRight | ⟨rest, both, inRight⟩
      · exact absurd (inRight.subset (by simp)) notBehind
      · obtain ⟨rfl, rfl⟩ := List.cons.inj both
        exact absurd (inRight.subset (by simp)) notBehind
    | [_], both =>
      obtain ⟨rfl, -⟩ := List.cons.inj both
      exact inLeft.subset (by simp)
    | [_, _], both =>
      obtain ⟨rfl, rest⟩ := List.cons.inj both
      exact inLeft.subset (by simp)
  · intro member
    exact (List.singleton_sublist.mpr member).append
      (List.singleton_sublist.mpr (List.mem_cons_self ..))

/-- What follows a member that a list holds once. -/
theorem pair_sublist_right (notBefore : x ∉ before) (notBehind : x ∉ behind) :
    [x, a].Sublist (before ++ x :: behind) ↔ a ∈ behind := by
  have turned : (before ++ x :: behind).reverse = behind.reverse ++ x :: before.reverse := by simp
  rw [← List.reverse_sublist, turned, ← List.mem_reverse]
  exact pair_sublist_left (by simpa using notBehind) (by simpa using notBefore)

end Pairs

namespace Forest

variable {α : Type} {f : Forest α}

/-- The second node lies below the first. -/
def Below (f : Forest α) : NodeId → NodeId → Prop :=
  Relation.TransGen fun p c => f.parent? c = some p

/-- The first node comes before the second in document order. -/
inductive Precedes (f : Forest α) (a b : NodeId) : Prop where
  | above (below : f.Below a b) : Precedes f a b
  | aside {p c d : NodeId} (siblings : [c, d].Sublist (f.children p)) (left : a = c ∨ f.Below c a)
      (right : b = d ∨ f.Below d b) : Precedes f a b

/-- What hangs at a lower node hangs at the nodes above it. -/
theorem below_of_inside {c a x : NodeId} (inA : x = a ∨ f.Below a x) (inC : a = c ∨ f.Below c a) :
    x = c ∨ f.Below c x := by
  rcases inA with rfl | below
  · exact inC
  · exact .inr (inC.elim (fun same => same ▸ below) fun above => above.trans below)

/-- Of two nodes neither of which lies below the other, all that hangs at the first comes before all
that hangs at the second. -/
theorem Precedes.inside {a b x y : NodeId} (precedes : f.Precedes a b) (apart : ¬ f.Below a b)
    (inA : x = a ∨ f.Below a x) (inB : y = b ∨ f.Below b y) : f.Precedes x y := by
  cases precedes with
  | above below => exact absurd below apart
  | aside siblings left right =>
    exact .aside siblings (below_of_inside inA left) (below_of_inside inB right)

namespace Linked

variable (linked : f.Linked)

include linked

theorem mem_ancestors_iff {a id : NodeId} : a ∈ f.ancestors id ↔ f.Below a id := by
  induction id using linked.up_induction with
  | step id ih =>
    rw [linked.mem_ancestors, Below, Relation.TransGen.tail'_iff]
    constructor
    · rintro ⟨p, parent, here | above⟩
      · exact ⟨p, here ▸ .refl, parent⟩
      · exact ⟨p, ((ih p parent).mp above).to_reflTransGen, parent⟩
    · rintro ⟨p, way, parent⟩
      rcases Relation.reflTransGen_iff_eq_or_transGen.mp way with here | above
      · exact ⟨p, parent, .inl here.symm⟩
      · exact ⟨p, parent, .inr ((ih p parent).mpr above)⟩

/-- The walk below a node finds what lies below it. -/
theorem mem_descendants_iff {a id : NodeId} : id ∈ f.descendants a ↔ f.Below a id :=
  linked.mem_descendants.trans linked.mem_ancestors_iff

/-- The walk below a node keeps to document order. -/
theorem pairwise_descendants (a : NodeId) : (f.descendants a).Pairwise f.Precedes := by
  induction a using linked.down_induction with
  | step a ih =>
    rw [linked.descendants_eq, List.pairwise_flatMap]
    refine ⟨fun c child => List.pairwise_cons.mpr ⟨fun d member => ?_, ih c child⟩,
      List.pairwise_iff_forall_sublist.mpr fun {c d} siblings x inC y inD => ?_⟩
    · exact .above (linked.mem_descendants_iff.mp member)
    · exact .aside siblings ((List.mem_cons.mp inC).imp_right linked.mem_descendants_iff.mp)
        ((List.mem_cons.mp inD).imp_right linked.mem_descendants_iff.mp)

/-- What stands before a node in its list; nothing if it stands in none. -/
theorem siblingsBefore_cases (id : NodeId) :
    (∀ p, id ∉ f.children p) ∧ f.siblingsBefore id = [] ∨
      ∃ p before behind, f.children p = before ++ id :: behind ∧
        f.siblingsBefore id = before.reverse ∧ id ∉ before ∧ id ∉ behind := by
  by_cases held : ∃ p, id ∈ f.children p
  · obtain ⟨p, member⟩ := held
    obtain ⟨before, behind, halves⟩ := List.append_of_mem member
    exact .inr ⟨p, before, behind, halves, linked.threads.siblingsBefore_eq halves,
      linked.threads.not_mem_halves halves⟩
  · have nowhere (p : NodeId) : id ∉ f.children p := fun member => held ⟨p, member⟩
    refine .inl ⟨nowhere, ?_⟩
    rw [siblingsBefore, linked.threads.previous?_of_nowhere nowhere]
    cases f.size <;> rfl

/-- The siblings behind a node follow it in the list in which it stands. -/
theorem mem_siblingsAfter {a b : NodeId} :
    b ∈ f.siblingsAfter a ↔ ∃ p, [a, b].Sublist (f.children p) := by
  by_cases held : ∃ p, a ∈ f.children p
  · obtain ⟨p, member⟩ := held
    obtain ⟨before, behind, halves⟩ := List.append_of_mem member
    obtain ⟨notBefore, notBehind⟩ := linked.threads.not_mem_halves halves
    rw [linked.threads.siblingsAfter_eq halves, ← pair_sublist_right notBefore notBehind, ← halves]
    refine ⟨fun pair => ⟨p, pair⟩, ?_⟩
    rintro ⟨q, pair⟩
    exact linked.threads.parent_unique (pair.subset (by simp)) member ▸ pair
  · have nowhere (p : NodeId) : a ∉ f.children p := fun member => held ⟨p, member⟩
    rw [siblingsAfter, linked.threads.next?_of_nowhere nowhere]
    refine iff_of_false (by cases f.size <;> exact List.not_mem_nil) ?_
    rintro ⟨p, pair⟩
    exact nowhere p (pair.subset (by simp))

end Linked

end Forest

namespace Tree.Linked

variable {t : Tree} (linked : t.Linked) {a b : NodeId}

include linked

theorem mem_elementsBefore : a ∈ t.elementsBefore b ↔
    t.isElement a = true ∧ ∃ p, [a, b].Sublist (t.children p) := by
  rw [elementsBefore, List.mem_filter, and_comm]
  refine and_congr_right fun _ => ?_
  obtain ⟨nowhere, nothing⟩ | ⟨p, before, behind, halves, siblings, notBefore, notBehind⟩ :=
    linked.forest.siblingsBefore_cases b
  · rw [nothing]
    refine iff_of_false List.not_mem_nil ?_
    rintro ⟨p, pair⟩
    exact nowhere p (pair.subset (by simp))
  · rw [siblings, List.mem_reverse, ← pair_sublist_left notBefore notBehind, ← halves]
    refine ⟨fun pair => ⟨p, pair⟩, ?_⟩
    rintro ⟨q, pair⟩
    have here : b ∈ t.forest.children p := halves ▸ List.mem_append_right before (by simp)
    exact linked.forest.threads.parent_unique (pair.subset (by simp)) here ▸ pair

theorem mem_elementsAfter : b ∈ t.elementsAfter a ↔
    t.isElement b = true ∧ ∃ p, [a, b].Sublist (t.children p) := by
  rw [elementsAfter, List.mem_filter, and_comm]
  exact and_congr_right fun _ => linked.forest.mem_siblingsAfter

/-- The nearest element before another. -/
theorem mem_take_elementsBefore (element : t.isElement b = true) :
    a ∈ (t.elementsBefore b).take 1 ↔ ∃ p, [a, b] <:+: t.elementChildren p := by
  rw [elementsBefore, List.take_one, Option.mem_toList]
  have held {p : NodeId} (pair : [a, b] <:+: t.elementChildren p) : b ∈ t.forest.children p :=
    (List.mem_filter.mp (right_mem_of_infix_pair pair)).1
  obtain ⟨nowhere, nothing⟩ | ⟨p, before, behind, halves, siblings, notBefore, notBehind⟩ :=
    linked.forest.siblingsBefore_cases b
  · rw [nothing]
    refine iff_of_false (Option.some_ne_none a).symm ?_
    rintro ⟨p, pair⟩
    exact nowhere p (held pair)
  · have children : t.elementChildren p =
        before.filter t.isElement ++ b :: behind.filter t.isElement := by
      rw [elementChildren, Tree.children, halves, List.filter_append,
        List.filter_cons_of_pos element]
    rw [siblings, List.filter_reverse, List.head?_reverse,
      ← pair_infix_left (fun inside => notBefore (List.mem_filter.mp inside).1)
        (fun inside => notBehind (List.mem_filter.mp inside).1), ← children]
    refine ⟨fun pair => ⟨p, pair⟩, ?_⟩
    rintro ⟨q, pair⟩
    have here : b ∈ t.forest.children p := halves ▸ List.mem_append_right before (by simp)
    exact linked.forest.threads.parent_unique (held pair) here ▸ pair

end Tree.Linked

end NoiseFilter
