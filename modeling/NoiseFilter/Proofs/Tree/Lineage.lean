import Mathlib.Data.List.Nodup
import NoiseFilter.Proofs.Tree.Linked

/-!
# Ancestors

In a well linked forest the way up from a node is a line: of two nodes above a third one is above the
other, and no node is above itself. Since the way up comes to no node twice it is shorter than there
are nodes, so that facts about nodes can be shown from the children up to their parents
(`down_induction`), as well as the other way round.
-/

namespace NoiseFilter

namespace Forest

variable {α : Type} {f : Forest α}

namespace Linked

variable (linked : f.Linked)

include linked

/-! ## Up -/

theorem mem_ancestors {a id : NodeId} :
    a ∈ f.ancestors id ↔ ∃ p, f.parent? id = some p ∧ (a = p ∨ a ∈ f.ancestors p) := by
  cases parent : f.parent? id with
  | none => simp [ancestors_of_root parent]
  | some p => simp [linked.ancestors_of_parent parent]

theorem ancestors_trans {a b id : NodeId} (above : a ∈ f.ancestors b)
    (between : b ∈ f.ancestors id) : a ∈ f.ancestors id := by
  induction id using linked.up_induction with
  | step id ih =>
    obtain ⟨p, parent, here | higher⟩ := linked.mem_ancestors.mp between
    · exact linked.mem_ancestors.mpr ⟨p, parent, .inr (here ▸ above)⟩
    · exact linked.mem_ancestors.mpr ⟨p, parent, .inr (ih p parent higher)⟩

theorem not_mem_ancestors_self (id : NodeId) : id ∉ f.ancestors id := by
  induction id using linked.up_induction with
  | step id ih =>
    intro circle
    obtain ⟨p, parent, here | higher⟩ := linked.mem_ancestors.mp circle
    · subst here
      exact ih id parent circle
    · have parentAbove : p ∈ f.ancestors id := linked.mem_ancestors.mpr ⟨p, parent, .inl rfl⟩
      exact ih p parent (linked.ancestors_trans parentAbove higher)

/-- Nodes above one node stand in a line. -/
theorem line_up {a b id : NodeId} (aboveA : a = id ∨ a ∈ f.ancestors id)
    (aboveB : b = id ∨ b ∈ f.ancestors id) :
    a = b ∨ a ∈ f.ancestors b ∨ b ∈ f.ancestors a := by
  induction id using linked.up_induction with
  | step id ih =>
    rcases aboveA with rfl | aboveA
    · rcases aboveB with rfl | aboveB
      · exact .inl rfl
      · exact .inr (.inr aboveB)
    · rcases aboveB with rfl | aboveB
      · exact .inr (.inl aboveA)
      · obtain ⟨p, parent, aboveA⟩ := linked.mem_ancestors.mp aboveA
        obtain ⟨p', parent', aboveB⟩ := linked.mem_ancestors.mp aboveB
        cases parent.symm.trans parent'
        exact ih p parent aboveA aboveB

/-- Where the parents on the line up from a node are the same, the line is the same. -/
theorem ancestors_congr {f' : Forest α} (linked' : f'.Linked) {id : NodeId}
    (same : ∀ c, c = id ∨ c ∈ f.ancestors id → f'.parent? c = f.parent? c) :
    f'.ancestors id = f.ancestors id := by
  induction id using linked.up_induction with
  | step id ih =>
    have here := same id (.inl rfl)
    cases parent : f.parent? id with
    | none => rw [ancestors_of_root parent, ancestors_of_root (here.trans parent)]
    | some p =>
      rw [linked.ancestors_of_parent parent, linked'.ancestors_of_parent (here.trans parent)]
      refine congrArg (p :: ·) (ih p parent fun c above => same c (.inr ?_))
      rw [linked.ancestors_of_parent parent]
      exact List.mem_cons.mpr above

/-- Of what is above a node, one is the node itself or its child on the way. -/
theorem exists_child_of_mem_ancestors {a id : NodeId} (above : a ∈ f.ancestors id) :
    ∃ c, f.parent? c = some a ∧ (c = id ∨ c ∈ f.ancestors id) := by
  induction id using linked.up_induction with
  | step id ih =>
    obtain ⟨p, parent, rfl | higher⟩ := linked.mem_ancestors.mp above
    · exact ⟨id, parent, .inl rfl⟩
    · obtain ⟨c, child, place⟩ := ih p parent higher
      refine ⟨c, child, .inr (linked.mem_ancestors.mpr ⟨p, parent, place⟩)⟩

/-- No two siblings are above the same node. -/
theorem siblings_apart {c d p id : NodeId} (childC : c ∈ f.children p) (childD : d ∈ f.children p)
    (different : c ≠ d) (aboveC : c = id ∨ c ∈ f.ancestors id)
    (aboveD : d = id ∨ d ∈ f.ancestors id) : False := by
  -- one of them would lie above the other, and so above their parent
  have notAbove {b b' : NodeId} (parent : f.parent? b = some p) (parent' : f.parent? b' = some p) :
      b ∉ f.ancestors b' := by
    intro higher
    obtain ⟨q, here, same | higher⟩ := linked.mem_ancestors.mp higher
    · cases here.symm.trans parent'
      exact linked.not_mem_ancestors_self p
        (linked.mem_ancestors.mpr ⟨p, same ▸ parent, .inl rfl⟩)
    · cases here.symm.trans parent'
      exact linked.not_mem_ancestors_self b (linked.mem_ancestors.mpr ⟨p, parent, .inr higher⟩)
  have parentC := (linked.mem_children p c).mp childC
  have parentD := (linked.mem_children p d).mp childD
  rcases linked.line_up aboveC aboveD with same | higher | higher
  · exact different same
  · exact notAbove parentC parentD higher
  · exact notAbove parentD parentC higher

/-! ## Down -/

/-- What hangs above a node that is there, and the node itself, are different nodes. -/
theorem length_ancestors_lt {id : NodeId} (here : f.has id = true) :
    (f.ancestors id).length < f.size := by
  obtain ⟨depth, deeper⟩ := linked.grounded
  have distinct : (id :: f.ancestors id).Nodup := by
    refine (pairwise_walk deeper f.size id).imp fun {a b} higher same => ?_
    exact Nat.lt_irrefl _ (same ▸ higher)
  refine length_le_of_nodup distinct fun a member => ?_
  rcases List.mem_cons.mp member with rfl | above
  · exact of_decide_eq_true here
  · exact linked.inside_walk f.size id above

/-- Facts about a node follow if they follow from the same facts about its children. -/
theorem down_induction {P : NodeId → Prop} (step : ∀ x, (∀ c ∈ f.children x, P c) → P x)
    (x : NodeId) : P x := by
  induction h : f.size - (f.ancestors x).length using Nat.strongRecOn generalizing x with
  | ind n ih =>
    subst h
    refine step x fun c child => ih _ ?_ c rfl
    have short := linked.length_ancestors_lt (linked.threads.has_of_mem child)
    rw [linked.ancestors_of_parent ((linked.mem_children x c).mp child), List.length_cons] at short ⊢
    omega

end Linked

end Forest

end NoiseFilter
