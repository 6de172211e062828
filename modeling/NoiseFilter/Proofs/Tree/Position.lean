import Mathlib.Data.List.Lex
import Mathlib.Order.Lattice
import NoiseFilter.Proofs.Ascending
import NoiseFilter.Proofs.Tree.ChildLists
import NoiseFilter.Proofs.Tree.Order

/-!
# Positions

The position of a node is the list of places on the way down to it from the top of its tree. The
position of a node begins with those of all nodes above it, and of two siblings the earlier one has
the smaller place. So positions, compared like words in a dictionary, stand in document order
(`position_lt_of_precedes`), although no walk of the tree has part in finding them.

Together with the walk below a node this says all about document order:
`preorder_and_position_of_edits`.
-/

namespace NoiseFilter

namespace Forest

variable {α : Type} {f : Forest α}

/-- The place of a child is the number of its siblings in front. -/
theorem indexIn_of_halves {p c : NodeId} {before behind : List NodeId}
    (halves : f.children p = before ++ c :: behind) (notBefore : c ∉ before) :
    f.indexIn p c = before.length := by
  have none : before.findIdx? (· == c) = none := by
    simpa [List.findIdx?_eq_none_iff] using fun x inside (same : x = c) => notBefore (same ▸ inside)
  rw [indexIn, halves, List.findIdx?_append, none]
  simp [List.findIdx?_cons]

namespace Linked

variable (linked : f.Linked) {a b c d p : NodeId}

include linked

/-- The position of a child is that of its parent and its place. -/
theorem position_of_parent (parent : f.parent? c = some p) :
    f.position c = f.position p ++ [f.indexIn p c] := by
  simp only [position, linked.ancestors_of_parent parent, List.tail_cons, List.zip_cons_cons,
    List.map_cons, List.reverse_cons]

/-- Positions of nodes below another begin with the position of that. -/
theorem position_of_below (below : f.Below a b) :
    ∃ place rest, f.position b = f.position a ++ place :: rest := by
  induction below with
  | single parent => exact ⟨_, [], linked.position_of_parent parent⟩
  | @tail q b _ parent ih =>
    obtain ⟨place, rest, position⟩ := ih
    refine ⟨place, rest ++ [f.indexIn q b], ?_⟩
    rw [linked.position_of_parent parent, position, List.append_assoc, List.cons_append]

theorem position_prefix (inside : a = c ∨ f.Below c a) :
    ∃ rest, f.position a = f.position c ++ rest := by
  rcases inside with rfl | below
  · exact ⟨[], (List.append_nil _).symm⟩
  · obtain ⟨place, rest, position⟩ := linked.position_of_below below
    exact ⟨place :: rest, position⟩

/-- Of two siblings the earlier one has the smaller place. -/
theorem indexIn_lt_of_siblings (siblings : [c, d].Sublist (f.children p)) :
    f.indexIn p c < f.indexIn p d := by
  obtain ⟨before, behind, halves⟩ := List.append_of_mem (siblings.subset List.mem_cons_self)
  obtain ⟨notBefore, notBehind⟩ := linked.threads.not_mem_halves halves
  rw [halves, pair_sublist_right notBefore notBehind] at siblings
  obtain ⟨between, rest, parts⟩ := List.append_of_mem siblings
  have halvesD : f.children p = (before ++ c :: between) ++ d :: rest := by
    rw [halves, parts, List.append_assoc, List.cons_append]
  rw [indexIn_of_halves halves notBefore,
    indexIn_of_halves halvesD (linked.threads.not_mem_halves halvesD).1, List.length_append,
    List.length_cons]
  omega

/-- Positions stand in document order. -/
theorem position_lt_of_precedes (precedes : f.Precedes a b) : f.position a < f.position b := by
  cases precedes with
  | above below =>
    obtain ⟨place, rest, position⟩ := linked.position_of_below below
    have longer : f.position a ++ [] < f.position a ++ place :: rest :=
      List.append_left_lt (List.nil_lt_cons place rest)
    rwa [List.append_nil, ← position] at longer
  | @aside p c d siblings left right =>
    have parentC := (linked.mem_children p c).mp (siblings.subset (by simp))
    have parentD := (linked.mem_children p d).mp (siblings.subset (by simp))
    obtain ⟨restA, positionA⟩ := linked.position_prefix left
    obtain ⟨restB, positionB⟩ := linked.position_prefix right
    rw [positionA, positionB, linked.position_of_parent parentC, linked.position_of_parent parentD,
      List.append_assoc, List.append_assoc]
    exact List.append_left_lt (List.cons_lt_cons_iff.mpr
      (.inl (linked.indexIn_lt_of_siblings siblings)))

/-- No node comes before itself. -/
theorem ne_of_precedes (precedes : f.Precedes a b) : a ≠ b :=
  fun same => (linked.position_lt_of_precedes precedes).ne (congrArg f.position same)

/-- A node and all that lies below it, in document order. -/
theorem pairwise_precedes (top : NodeId) : (top :: f.descendants top).Pairwise f.Precedes :=
  List.pairwise_cons.mpr ⟨fun _ member => .above (linked.mem_descendants_iff.mp member),
    linked.pairwise_descendants top⟩

theorem pairwise_position (top : NodeId) :
    (top :: f.descendants top).Pairwise fun x y => f.position x < f.position y :=
  (linked.pairwise_precedes top).imp linked.position_lt_of_precedes

/-- In one tree, what has the smaller position comes first. -/
theorem precedes_of_position_lt {top : NodeId} (inA : a ∈ top :: f.descendants top)
    (inB : b ∈ top :: f.descendants top) (less : f.position a < f.position b) : f.Precedes a b :=
  List.pairwise_iff_forall_sublist.mp (linked.pairwise_precedes top)
    ((key_lt_iff_sublist (linked.pairwise_position top) inA inB).mp less)

end Linked

end Forest

namespace Tree

/-- What comes first has the smaller position. -/
theorem isBefore_iff {t : Tree} {a b : NodeId} :
    t.isBefore a b = true ↔ t.position a < t.position b := by
  rw [isBefore, List.lex_eq_true_iff_lex]
  exact iff_of_eq (congrArg (List.Lex · _ _) (funext₂ fun x y => Nat.blt_eq))

/-- However a tree has come about by edits, the walk below a node ends, after having visited exactly
the nodes below it, each once and in preorder. And of two nodes of one tree that has come about, the
one that the preorder of the tree comes to first is the one with the smaller position. -/
theorem preorder_and_position_of_edits (ws : List Edit) :
    let t := edited ws
    (∀ id, (∃ steps, t.forest.tour id steps (t.forest.entry id) = (t.descendants id, none)) ∧
      t.forest.Preorder id (t.descendants id) ∧ (t.descendants id).Nodup ∧
      ∀ x, x ∈ t.descendants id ↔ t.forest.Below id x) ∧
    ∀ top a b, a ∈ top :: t.descendants top → b ∈ top :: t.descendants top →
      (t.position a < t.position b ↔ [a, b].Sublist (top :: t.descendants top)) ∧
      (t.position a = t.position b ↔ a = b) := by
  intro t
  have linked : t.forest.Linked := (linked_edited ws).forest
  refine ⟨fun id => ⟨⟨_, linked.tour_entry id⟩, linked.preorder_descendants id,
    linked.nodup_descendants id, fun x => linked.mem_descendants_iff⟩, fun top a b inA inB => ?_⟩
  have ascending := linked.pairwise_position top
  exact ⟨key_lt_iff_sublist ascending inA inB, key_inj ascending inA inB⟩

/-- A section with a list of two entries, the second of which was made first. -/
def turnedList : List Edit :=
  [.create (.element (.ofName "section")), .create (.element (.ofName "ul")),
    .create (.element (.ofName "li")), .create (.element (.ofName "li")), .create (.text "a"),
    .append .root ⟨1⟩, .append ⟨1⟩ ⟨2⟩, .append ⟨2⟩ ⟨3⟩, .append ⟨2⟩ ⟨4⟩, .append ⟨4⟩ ⟨5⟩,
    .append ⟨2⟩ ⟨3⟩]

/-- The text in the first entry comes before the second entry. -/
theorem preorder_and_position_of_turnedList :
    (edited turnedList).descendants .root = [⟨1⟩, ⟨2⟩, ⟨4⟩, ⟨5⟩, ⟨3⟩] ∧
      (edited turnedList).position ⟨5⟩ = [0, 0, 0, 0] ∧
      (edited turnedList).position ⟨5⟩ < (edited turnedList).position ⟨3⟩ := by
  have walk : (edited turnedList).descendants .root = [⟨1⟩, ⟨2⟩, ⟨4⟩, ⟨5⟩, ⟨3⟩] := by decide +kernel
  refine ⟨walk, by decide +kernel,
    (((preorder_and_position_of_edits turnedList).2 .root ⟨5⟩ ⟨3⟩ ?_ ?_).1).mpr ?_⟩
  all_goals
    rw [walk]
    decide

end Tree

end NoiseFilter
