import NoiseFilter.Proofs.Tree.Place

/-!
# The document on top

What is taken for granted of a page: the document node has no parent and no siblings, the line up from
every connected node ends at it, and above a connected node there are connected nodes only
(`Tree.Topped`). An edit can spoil this in one way. Linking is refused where a node would come to lie
inside itself, and this keeps the document above all that hangs on it, but a node that does not hang on
it may take it in (`Edit.Sinks`). As long as no edit does, the document stays on top, and not longer.
-/

namespace NoiseFilter

/-- The document node is linked below a node that does not hang on it. -/
def Edit.Sinks (t : Tree) : Edit → Prop
  | append parent child =>
    child = .root ∧ t.forest.has parent = true ∧ t.isConnected parent = false
  | _ => False

namespace Tree

/-- All lines up from connected nodes lead to the document node and end there. -/
structure Topped (t : Tree) : Prop where
  parent : t.parent? .root = none
  before : t.forest.siblingsBefore .root = []
  after : t.forest.siblingsAfter .root = []
  ends : ∀ x, t.isConnected x = true → (x :: t.ancestors x).getLast? = some .root
  above : ∀ x a, t.isConnected x = true → a ∈ t.ancestors x → t.isConnected a = true

variable {t : Tree} {x : NodeId}

namespace Linked

variable (linked : t.Linked)

include linked

theorem getLast?_line (top : t.parent? .root = none) (connected : t.isConnected x = true) :
    (x :: t.ancestors x).getLast? = some .root := by
  induction x using linked.forest.up_induction with
  | step x ih =>
    rcases isConnected_iff.mp connected with rfl | above
    · rw [ancestors, Forest.ancestors_of_root top]
      rfl
    · obtain ⟨p, parent, higher⟩ := linked.forest.mem_ancestors.mp above
      rw [ancestors, linked.forest.ancestors_of_parent parent, List.getLast?_cons_cons]
      exact ih p parent (isConnected_iff.mpr higher)

/-- A document node without a parent is on top in every respect. -/
theorem topped (top : t.parent? .root = none) : t.Topped := by
  obtain ⟨nothingBefore, nothingAfter⟩ := linked.forest.threads.consistent.loose .root top
  refine ⟨top, ?_, ?_, fun x => linked.getLast?_line top, fun x a connected above => ?_⟩
  · rw [Forest.siblingsBefore, nothingBefore]
    cases t.forest.size <;> rfl
  · rw [Forest.siblingsAfter, nothingAfter]
    cases t.forest.size <;> rfl
  · exact linked.isConnected_above top connected (isInclusiveAncestor_iff.mpr (.inr above))

/-- The document can be linked below a node exactly if the node does not hang on it. -/
theorem append_root_iff {p : NodeId} : (∃ t', t.append p .root = .ok t') ↔
    t.forest.has p = true ∧ t.isConnected p = false := by
  obtain ⟨n, found, -⟩ := Option.map_eq_some_iff.mp linked.root
  have document : t.forest.has .root = true := (t.forest.has_iff).mpr ⟨n, found⟩
  have apart : t.isInclusiveAncestor .root p = t.isConnected p := by
    rw [Bool.eq_iff_iff, isInclusiveAncestor_iff, isConnected_iff]
  rw [Tree.append, document, apart]
  cases t.forest.has p <;> cases t.isConnected p <;> simp

/-- An edit takes the document from the top exactly if it links it below a node that does not hang on
it. -/
theorem parent?_root_apply (top : t.parent? .root = none) (w : Edit) :
    (w.apply t).parent? .root = none ↔ ¬ w.Sinks t := by
  obtain same | ⟨parent, child, rfl, done, new⟩ | ⟨id, p, rfl, -, new⟩ := linked.parent?_apply w
  · rw [same, iff_true_left top]
    intro sinks
    cases w with
    | append p child =>
      obtain ⟨rfl, loose⟩ := sinks
      obtain ⟨t', done⟩ := linked.append_root_iff.mpr loose
      obtain ⟨here, document, -, rfl⟩ := append_ok done
      have sunk := linked.forest.parent?_append here document .root
      rw [if_pos rfl] at sunk
      rw [Edit.apply_append_of_ok done] at same
      exact Option.some_ne_none p (sunk.symm.trans ((same .root).trans top))
    | _ => exact sinks
  · rw [new]
    by_cases document : NodeId.root = child
    · subst document
      rw [if_pos rfl]
      exact iff_of_false (Option.some_ne_none parent)
        (not_not_intro ⟨rfl, linked.append_root_iff.mp ⟨_, done⟩⟩)
    · rw [if_neg document, iff_true_left top]
      exact fun sinks => document sinks.1.symm
  · rw [new, top, ite_self]
    exact iff_of_true rfl not_false

end Linked

/-- However the empty tree is edited, the document node stays on top as long as no edit links it below a
node that does not hang on it, and no longer. -/
theorem topped_iff (ws : List Edit) :
    (∀ front, front <+: ws → (edited front).Topped) ↔
      ∀ front w, front ++ [w] <+: ws → ¬ w.Sinks (edited front) := by
  constructor
  · intro always front w reached
    rw [← (linked_edited front).parent?_root_apply
      (always front ((List.prefix_append front [w]).trans reached)).parent, ← edited_concat]
    exact (always _ reached).parent
  · intro never front reached
    refine (linked_edited front).topped ?_
    induction front using List.reverseRecOn with
    | nil => exact Forest.target?_single NodeData.document .parent .root
    | append_singleton front w ih =>
      have top := ih ((List.prefix_append front [w]).trans reached)
      rw [edited_concat, (linked_edited front).parent?_root_apply top]
      exact never front w reached

/-- A paragraph that hangs nowhere takes the document in. -/
theorem not_topped : ¬ ∀ ws : List Edit, (edited ws).Topped := by
  intro always
  have top := (always [.create (.element (.ofName "p")), .append ⟨1⟩ .root]).parent
  have sunk : (edited [.create (.element (.ofName "p")), .append ⟨1⟩ .root]).parent? .root =
      some ⟨1⟩ := by decide +kernel
  exact Option.some_ne_none _ (sunk.symm.trans top)

end Tree

end NoiseFilter
