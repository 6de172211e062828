import NoiseFilter.Proofs.Tree.ChildLists
import NoiseFilter.Proofs.Tree.Order

/-!
# The place of a node

On an ordinary page the document node stays at the top and only elements have nodes below them
(`Tree.Rooted`). An ordinary edit moves what hangs at one node and leaves the lines up from all
other connected nodes as they are: a connected node either hangs at the node that was linked just
now or is where it was before (`Tree.Rooted.moved_or_same`).
-/

namespace NoiseFilter

/-- The document node is not linked below another, nor anything below a text or the like. -/
def Edit.Ordinary (t : Tree) : Edit → Prop
  | append parent child => child ≠ .root ∧ (parent = .root ∨ t.isElement parent = true)
  | _ => True

namespace Tree

/-- The document node is at the top, and apart from it only elements have children. -/
structure Rooted (t : Tree) : Prop where
  linked : t.Linked
  top : t.parent? .root = none
  holders : ∀ c p, t.parent? c = some p → p = .root ∨ t.isElement p = true

variable {t t' : Tree} {id x : NodeId}

theorem isInclusiveAncestor_iff {a : NodeId} :
    t.isInclusiveAncestor a x = true ↔ a = x ∨ a ∈ t.ancestors x := by
  simp [isInclusiveAncestor, Forest.isInclusiveAncestor, ancestors]

theorem isConnected_iff : t.isConnected x = true ↔ .root = x ∨ .root ∈ t.ancestors x := by
  rw [isConnected, Bool.or_eq_true, beq_iff_eq, List.contains_iff_mem, eq_comm]

/-- With the document node on top, there is nothing but connected nodes above and at a connected one. -/
theorem Linked.isConnected_above (linked : t.Linked) (top : t.parent? .root = none)
    (connected : t.isConnected x = true) {a : NodeId} (above : t.isInclusiveAncestor a x = true) :
    t.isConnected a = true := by
  rw [isConnected_iff] at connected ⊢
  rcases linked.forest.line_up connected (isInclusiveAncestor_iff.mp above)
    with same | higher | lower
  · exact .inl same
  · exact .inr higher
  · rw [Forest.ancestors_of_root top] at lower
    cases lower

theorem Rooted.isConnected_above (rooted : t.Rooted) (connected : t.isConnected x = true)
    {a : NodeId} (above : t.isInclusiveAncestor a x = true) : t.isConnected a = true :=
  rooted.linked.isConnected_above rooted.top connected above

theorem Rooted.isElement_above (rooted : t.Rooted) {a : NodeId} (above : a ∈ t.ancestors x) :
    a = .root ∨ t.isElement a = true := by
  obtain ⟨c, parent, -⟩ :=
    Relation.TransGen.head'_iff.mp (rooted.linked.forest.mem_ancestors_iff.mp above)
  exact rooted.holders c a parent

/-- If parents are the same but for one node, lines up that do not meet it are the same. -/
theorem Linked.ancestors_eq_of_apart (linked : t.Linked) (linked' : t'.Linked)
    (same : ∀ c, c ≠ id → t'.parent? c = t.parent? c)
    (apart : t'.isInclusiveAncestor id x ≠ true) : t'.ancestors x = t.ancestors x := by
  refine (linked'.forest.ancestors_congr linked.forest fun c onLine => (same c ?_).symm).symm
  rintro rfl
  exact apart (isInclusiveAncestor_iff.mpr onLine)

/-! ## What ordinary edits keep -/

namespace Rooted

theorem empty : Tree.empty.Rooted where
  linked := .empty
  top := Forest.target?_single NodeData.document .parent .root
  holders c _ parent :=
    nomatch (Forest.target?_single NodeData.document .parent c).symm.trans parent

theorem of_sameFrame (rooted : t.Rooted) (frame : t.SameFrame t') : t'.Rooted where
  linked := rooted.linked.of_sameFrame frame
  top := (frame.parent? .root).trans rooted.top
  holders c p parent := by
    rw [frame.isElement]
    exact rooted.holders c p ((frame.parent? c).symm.trans parent)

end Rooted

/-- What becomes of the parents: nothing, or one node is linked, or one node is unlinked. -/
theorem Linked.parent?_apply (linked : t.Linked) (w : Edit) :
    (∀ c, (w.apply t).parent? c = t.parent? c) ∨
    (∃ parent child, w = .append parent child ∧ t.append parent child = .ok (w.apply t) ∧
      ∀ c, (w.apply t).parent? c = if c = child then some parent else t.parent? c) ∨
    ∃ id p, w = .detach id ∧ t.parent? id = some p ∧
      ∀ c, (w.apply t).parent? c = if c = id then none else t.parent? c := by
  cases w with
  | create data => exact .inl fun c => t.forest.target?_create data .parent c
  | append parent child =>
    cases done : t.append parent child with
    | error _ => exact .inl fun c => by rw [Edit.apply_append_of_error done]
    | ok t' =>
      have result := Edit.apply_append_of_ok done
      refine .inr (.inl ⟨parent, child, rfl, result ▸ done, fun c => ?_⟩)
      obtain ⟨parentHere, childHere, -, rfl⟩ := append_ok done
      rw [result]
      exact linked.forest.parent?_append parentHere childHere c
  | detach id =>
    cases done : t.detach id with
    | error _ => exact .inl fun c => by rw [Edit.apply_detach_of_error done]
    | ok t' =>
      have result := Edit.apply_detach_of_ok done
      obtain ⟨-, ⟨-, rfl⟩ | ⟨p, parent, rfl⟩⟩ := detach_ok done
      · exact .inl fun c => by rw [result]
      · refine .inr (.inr ⟨id, p, rfl, parent, fun c => ?_⟩)
        rw [result]
        exact linked.forest.threads.parent?_unlink c
  | write id w => exact .inl fun c => (Edit.sameFrame_write id w).parent? c
  | observe _ => exact .inl fun _ => rfl
  | takeJournal => exact .inl fun _ => rfl

namespace Rooted

variable (rooted : t.Rooted) {w : Edit} (ordinary : w.Ordinary t)

include rooted ordinary

theorem edit : (w.apply t).Rooted := by
  have element {p : NodeId} (holder : p = .root ∨ t.isElement p = true) :
      p = .root ∨ (w.apply t).isElement p = true := holder.imp_right w.isElement_apply
  refine ⟨rooted.linked.edit w, ?_, fun c p parent => ?_⟩
  · obtain same | ⟨parent, child, rfl, -, new⟩ | ⟨id, p, rfl, -, new⟩ :=
      rooted.linked.parent?_apply w
    · rw [same, rooted.top]
    · rw [new, if_neg ordinary.1.symm, rooted.top]
    · rw [new, rooted.top, ite_self]
  · obtain same | ⟨parent', child, rfl, -, new⟩ | ⟨id, p', rfl, -, new⟩ :=
      rooted.linked.parent?_apply w
    · exact element (rooted.holders c p ((same c).symm.trans parent))
    · rw [new] at parent
      split at parent
      · cases parent
        exact element ordinary.2
      · exact element (rooted.holders c p parent)
    · rw [new] at parent
      split at parent
      · cases parent
      · exact element (rooted.holders c p parent)

/-- After an edit a connected element hangs at the node that was linked, or is where it was. -/
theorem moved_or_same (element : (w.apply t).isElement x = true)
    (connected : (w.apply t).isConnected x = true) :
    (∃ parent child, w = .append parent child ∧ t.append parent child = .ok (w.apply t) ∧
      (w.apply t).isInclusiveAncestor child x = true) ∨
    t.isElement x = true ∧ t.isConnected x = true ∧ (w.apply t).ancestors x = t.ancestors x := by
  have after := rooted.edit ordinary
  have notRoot : x ≠ .root := by
    rintro rfl
    exact Bool.false_ne_true (after.linked.isElement_root.symm.trans element)
  obtain ⟨p, linkedUp, -⟩ := after.linked.forest.mem_ancestors.mp
    ((isConnected_iff.mp connected).resolve_left notRoot.symm)
  have still {q : NodeId} (parent : t.parent? x = some q)
      (line : (w.apply t).ancestors x = t.ancestors x) :
      t.isElement x = true ∧ t.isConnected x = true ∧ (w.apply t).ancestors x = t.ancestors x := by
    refine ⟨?_, ?_, line⟩
    · rw [← w.isElement_of_apply (t.forest.ne_size_of_target? parent)]
      exact element
    · rw [isConnected_iff, ← line]
      exact isConnected_iff.mp connected
  obtain same | ⟨parent, child, appended, done, new⟩ | ⟨id, q, -, parent, new⟩ :=
    rooted.linked.parent?_apply w
  · have line : (w.apply t).ancestors x = t.ancestors x :=
      rooted.linked.forest.ancestors_congr after.linked.forest fun c _ => same c
    exact .inr (still ((same x).symm.trans linkedUp) line)
  · by_cases inside : (w.apply t).isInclusiveAncestor child x = true
    · exact .inl ⟨parent, child, appended, done, inside⟩
    · have other : x ≠ child := fun here => inside (isInclusiveAncestor_iff.mpr (.inl here.symm))
      have line := rooted.linked.ancestors_eq_of_apart after.linked
        (fun c apart => (new c).trans (if_neg apart)) inside
      exact .inr (still ((if_neg other).symm.trans ((new x).symm.trans linkedUp)) line)
  · have outside : (w.apply t).isInclusiveAncestor id x ≠ true := by
      intro inside
      have loose : (w.apply t).parent? id = none := (new id).trans (if_pos rfl)
      rcases isConnected_iff.mp (after.isConnected_above connected inside) with here | above
      · subst here
        exact Option.some_ne_none q (parent.symm.trans rooted.top)
      · rw [ancestors, Forest.ancestors_of_root loose] at above
        cases above
    have other : x ≠ id := fun here => outside (isInclusiveAncestor_iff.mpr (.inl here.symm))
    have line := rooted.linked.ancestors_eq_of_apart after.linked
      (fun c apart => (new c).trans (if_neg apart)) outside
    exact .inr (still ((if_neg other).symm.trans ((new x).symm.trans linkedUp)) line)

end Rooted

end Tree

end NoiseFilter
