import NoiseFilter.Engine.Basic
import NoiseFilter.Proofs.Tree.Frame
import NoiseFilter.Proofs.Tree.Place
import NoiseFilter.Proofs.Tree.Position

/-!
# What a batch looks at

A batch of added nodes looks at the connected elements among them and at all elements below those,
each once: nodes that are named twice, that lie inside other nodes of the batch, that hang nowhere
or that do not exist add nothing. So what two batches look at together is what their union looks at
(`mem_batchCandidates_append`). A batch never looks beyond the elements of the page.

It looks at them in document order: sorted by position, the roots of a batch stand apart from each
other, and so the walks below them follow one another as the walk of the page does
(`batchCandidates_of_edits`).
-/

namespace NoiseFilter

theorem nodup_eraseDups {α : Type} [BEq α] [LawfulBEq α] (l : List α) : l.eraseDups.Nodup := by
  induction h : l.length using Nat.strongRecOn generalizing l with
  | ind n ih =>
    cases l with
    | nil => exact .nil
    | cons a rest =>
      rw [List.eraseDups_cons]
      have shorter : (rest.filter fun b => !b == a).length < n := by
        rw [← h, List.length_cons]
        exact Nat.lt_succ_of_le (List.length_filter_le _ _)
      refine List.nodup_cons.mpr ⟨fun again => ?_, ih _ shorter _ rfl⟩
      simpa using List.mem_filter.mp (List.mem_eraseDups.mp again)

namespace Tree.Linked

variable {t : Tree} (linked : t.Linked)

include linked

theorem mem_descendantElements {a id : NodeId} :
    id ∈ t.descendantElements a ↔ t.isElement id = true ∧ a ∈ t.ancestors id := by
  rw [descendantElements, List.mem_filter, and_comm]
  exact and_congr_right fun _ => linked.forest.mem_descendants

/-- The elements of a page are those that are connected. -/
theorem mem_elements {id : NodeId} :
    id ∈ t.elements ↔ t.isElement id = true ∧ t.isConnected id = true := by
  rw [elements, linked.mem_descendantElements]
  refine and_congr_right fun isElement => ?_
  have notRoot : id ≠ .root := by
    rintro rfl
    exact Bool.false_ne_true (linked.isElement_root.symm.trans isElement)
  simp [isConnected, notRoot]

theorem nodup_descendantElements (a : NodeId) : (t.descendantElements a).Nodup :=
  (linked.forest.nodup_descendants a).filter _

theorem nodup_elements : t.elements.Nodup := linked.nodup_descendantElements .root

/-- What lies below a connected node is connected. -/
theorem isConnected_of_ancestor {a id : NodeId} (connected : t.isConnected a = true)
    (above : a ∈ t.ancestors id) : t.isConnected id = true := by
  simp only [isConnected, Bool.or_eq_true, beq_iff_eq, List.contains_iff_mem] at connected ⊢
  rcases connected with rfl | connected
  · exact .inr above
  · exact .inr (linked.forest.ancestors_trans connected above)

end Tree.Linked

/-! ## The roots of a batch -/

section

variable {t : Tree} {added : List NodeId} {id : NodeId}

/-- A node that a batch names is looked at if it is an element and connected. -/
def Tree.Counts (t : Tree) (id : NodeId) : Prop := t.isElement id = true ∧ t.isConnected id = true

theorem mem_batchRoots :
    id ∈ batchRoots t added ↔ (id ∈ added ∧ t.Counts id) ∧
      ∀ a ∈ t.ancestors id, ¬ (a ∈ added ∧ t.Counts a) := by
  simp [batchRoots, Tree.Counts]

theorem nodup_batchRoots (t : Tree) (added : List NodeId) : (batchRoots t added).Nodup :=
  (List.mergeSort_perm _ _).nodup_iff.mpr ((nodup_eraseDups _).filter _)

variable (linked : t.Linked)

include linked

/-- Above every node of a batch that counts there is a root of the batch. -/
theorem exists_batchRoot (below : ∃ a, (a ∈ added ∧ t.Counts a) ∧ (a = id ∨ a ∈ t.ancestors id)) :
    ∃ root ∈ batchRoots t added, root = id ∨ root ∈ t.ancestors id := by
  induction id using linked.forest.up_induction with
  | step id ih =>
    by_cases higher : ∃ a ∈ t.ancestors id, a ∈ added ∧ t.Counts a
    · obtain ⟨a, above, counts⟩ := higher
      obtain ⟨p, parent, place⟩ := linked.forest.mem_ancestors.mp above
      obtain ⟨root, member, place⟩ := ih p parent ⟨a, counts, place⟩
      exact ⟨root, member, .inr (linked.forest.mem_ancestors.mpr ⟨p, parent, place⟩)⟩
    · obtain ⟨a, counts, here | above⟩ := below
      · subst here
        have highest := mem_batchRoots.mpr ⟨counts, fun b above named => higher ⟨b, above, named⟩⟩
        exact ⟨a, highest, .inl rfl⟩
      · exact absurd ⟨a, above, counts⟩ higher

/-- A batch looks at the connected elements that it names and at all elements below them. -/
theorem mem_batchCandidates :
    id ∈ batchCandidates t added ↔
      t.isElement id = true ∧
        ∃ a, (a ∈ added ∧ t.Counts a) ∧ (a = id ∨ a ∈ t.ancestors id) := by
  rw [batchCandidates, List.mem_flatMap]
  simp only [List.mem_cons, linked.mem_descendantElements]
  constructor
  · rintro ⟨root, member, place⟩
    have counts := (mem_batchRoots.mp member).1
    rcases place with rfl | ⟨isElement, above⟩
    · exact ⟨counts.2.1, id, counts, .inl rfl⟩
    · exact ⟨isElement, root, counts, .inr above⟩
  · rintro ⟨isElement, below⟩
    obtain ⟨root, member, here | above⟩ := exists_batchRoot linked below
    · exact ⟨root, member, .inl here.symm⟩
    · exact ⟨root, member, .inr ⟨isElement, above⟩⟩

theorem mem_batchCandidates_append {first second : List NodeId} :
    id ∈ batchCandidates t (first ++ second) ↔
      id ∈ batchCandidates t first ∨ id ∈ batchCandidates t second := by
  simp only [mem_batchCandidates linked, List.mem_append]
  constructor
  · rintro ⟨isElement, a, ⟨member | member, counts⟩, place⟩
    · exact .inl ⟨isElement, a, ⟨member, counts⟩, place⟩
    · exact .inr ⟨isElement, a, ⟨member, counts⟩, place⟩
  · rintro (⟨isElement, a, ⟨member, counts⟩, place⟩ | ⟨isElement, a, ⟨member, counts⟩, place⟩)
    · exact ⟨isElement, a, ⟨.inl member, counts⟩, place⟩
    · exact ⟨isElement, a, ⟨.inr member, counts⟩, place⟩

/-! ## The order of a batch -/

/-- A node that counts lies in the tree of the document. -/
theorem mem_page_of_counts (counts : t.Counts id) :
    id ∈ NodeId.root :: t.forest.descendants .root := by
  rw [List.mem_cons, linked.forest.mem_descendants]
  simpa [Tree.isConnected, Tree.ancestors] using counts.2

/-- The roots of a batch stand in document order, and none lies below another. -/
theorem pairwise_batchRoots : (batchRoots t added).Pairwise fun a b =>
    t.forest.Precedes a b ∧ ¬ t.forest.Below a b := by
  have notAfter : (batchRoots t added).Pairwise fun a b => ¬ t.position b < t.position a := by
    refine (List.pairwise_mergeSort (fun a b c ab bc => ?_) (fun a b => ?_) _).imp
      fun {a b} (sorted : (!t.isBefore b a) = true) => ?_
    all_goals simp only [Bool.or_eq_true, Bool.not_eq_true', ← Bool.not_eq_true,
      Tree.isBefore_iff, not_lt] at *
    · exact ab.trans bc
    · exact le_total _ _
    · exact sorted
  refine (notAfter.and (nodup_batchRoots t added)).imp_of_mem
    fun {a b} memberA memberB ⟨notLater, different⟩ => ?_
  obtain ⟨⟨-, countsA⟩, -⟩ := mem_batchRoots.mp memberA
  obtain ⟨⟨namedB, countsB⟩, outermostB⟩ := mem_batchRoots.mp memberB
  have pageA := mem_page_of_counts linked countsA
  have pageB := mem_page_of_counts linked countsB
  have elsewhere : t.position a ≠ t.position b := fun same =>
    different ((key_inj (linked.forest.pairwise_position .root) pageA pageB).mp same)
  refine ⟨linked.forest.precedes_of_position_lt pageA pageB
    ((not_lt.mp notLater).lt_of_ne elsewhere), fun below => ?_⟩
  exact outermostB a (linked.forest.mem_ancestors_iff.mpr below) (mem_batchRoots.mp memberA).1

/-- A batch looks at elements in document order. -/
theorem pairwise_batchCandidates (added : List NodeId) :
    (batchCandidates t added).Pairwise t.forest.Precedes := by
  have inside {root x : NodeId} (member : x ∈ root :: t.descendantElements root) :
      x = root ∨ t.forest.Below root x :=
    (List.mem_cons.mp member).imp_right fun member =>
      linked.forest.mem_descendants_iff.mp (List.mem_filter.mp member).1
  refine List.pairwise_flatMap.mpr ⟨fun root _ => ?_, (pairwise_batchRoots linked).imp
    fun ⟨precedes, apart⟩ x inA y inB => precedes.inside apart (inside inA) (inside inB)⟩
  exact (linked.forest.pairwise_precedes root).sublist (List.filter_sublist.cons_cons root)

/-- A batch comes to no element twice. -/
theorem nodup_batchCandidates (added : List NodeId) : (batchCandidates t added).Nodup :=
  (pairwise_batchCandidates linked added).imp linked.forest.ne_of_precedes

/-- A batch looks at the elements of the page that are named by it or lie inside elements of the
page that are, in their order. -/
theorem batchCandidates_eq (added : List NodeId) :
    batchCandidates t added = t.elements.filter fun id => added.any fun a =>
      t.isElement a && t.isConnected a && t.isInclusiveAncestor a id := by
  have onPage : t.elements.Pairwise t.forest.Precedes :=
    (linked.forest.pairwise_descendants .root).sublist List.filter_sublist
  refine eq_of_ascending
    ((pairwise_batchCandidates linked added).imp linked.forest.position_lt_of_precedes)
    ((onPage.sublist List.filter_sublist).imp linked.forest.position_lt_of_precedes) fun id => ?_
  rw [mem_batchCandidates linked, List.mem_filter, linked.mem_elements]
  simp only [List.any_eq_true, Bool.and_eq_true, Tree.isInclusiveAncestor_iff, and_assoc]
  refine and_congr_right fun isElement => ⟨?_, ?_⟩
  · rintro ⟨a, named, counts, place⟩
    refine ⟨?_, a, named, counts.1, counts.2, place⟩
    exact place.elim (fun here => here ▸ counts.2) (linked.isConnected_of_ancestor counts.2)
  · rintro ⟨-, a, named, isElementA, connected, place⟩
    exact ⟨a, named, ⟨isElementA, connected⟩, place⟩

/-! ## All batches -/

/-- No batch looks beyond the elements of the page. -/
theorem candidates_subset_elements (batch : ChangeBatch) : batch.candidates t ⊆ t.elements := by
  intro id candidate
  rw [ChangeBatch.candidates] at candidate
  split at candidate
  · exact candidate
  · obtain ⟨isElement, a, ⟨-, -, connected⟩, here | above⟩ :=
      (mem_batchCandidates linked).mp candidate
    · exact linked.mem_elements.mpr ⟨isElement, here ▸ connected⟩
    · exact linked.mem_elements.mpr ⟨isElement, linked.isConnected_of_ancestor connected above⟩

theorem nodup_candidates (batch : ChangeBatch) : (batch.candidates t).Nodup := by
  rw [ChangeBatch.candidates]
  split
  · exact linked.nodup_elements
  · exact nodup_batchCandidates linked batch.added

theorem isElement_of_candidate {batch : ChangeBatch} (candidate : id ∈ batch.candidates t) :
    t.isElement id = true :=
  (linked.mem_elements.mp (candidates_subset_elements linked batch candidate)).1

theorem isConnected_of_candidate {batch : ChangeBatch} (candidate : id ∈ batch.candidates t) :
    t.isConnected id = true :=
  (linked.mem_elements.mp (candidates_subset_elements linked batch candidate)).2

end

/-- However a page has come about by edits, and whatever nodes a batch names, it looks at exactly
the elements of the page that are connected elements it names or lie inside such, each once and in
document order. -/
theorem batchCandidates_of_edits (ws : List Edit) (added : List NodeId) :
    let t := Tree.edited ws
    batchCandidates t added =
        (t.elements.filter fun id => added.any fun a =>
          t.isElement a && t.isConnected a && t.isInclusiveAncestor a id) ∧
      (batchCandidates t added).Nodup ∧
      (batchCandidates t added).Pairwise t.forest.Precedes := by
  intro t
  have linked : t.Linked := Tree.linked_edited ws
  exact ⟨batchCandidates_eq linked added, nodup_batchCandidates linked added,
    pairwise_batchCandidates linked added⟩

/-- A section with a division inside and a paragraph with a text behind it, and a span that hangs
nowhere: the text and the span add nothing, the division lies in the section. -/
example :
    batchCandidates (Tree.edited
      [.create (.element (.ofName "section")), .create (.element (.ofName "div")),
        .create (.element (.ofName "p")), .create (.text "x"),
        .create (.element (.ofName "span")),
        .append .root ⟨1⟩, .append ⟨1⟩ ⟨2⟩, .append .root ⟨3⟩, .append ⟨3⟩ ⟨4⟩])
      [⟨3⟩, ⟨2⟩, ⟨1⟩, ⟨4⟩, ⟨5⟩, ⟨9⟩, ⟨3⟩] = [⟨1⟩, ⟨2⟩, ⟨3⟩] := by
  rw [batchCandidates_eq (Tree.linked_edited _)]
  decide +kernel

namespace Tree.SameFrame

variable {t t' : Tree} (frame : t.SameFrame t')

include frame

theorem isConnected (id : NodeId) : t'.isConnected id = t.isConnected id := by
  rw [Tree.isConnected, Tree.isConnected, frame.ancestors]

theorem elements : t'.elements = t.elements := frame.descendantElements .root

/-- Writes to elements do not change which elements a batch looks at. -/
theorem mem_batchCandidates (linked : t.Linked) {added : List NodeId} {id : NodeId} :
    id ∈ batchCandidates t' added ↔ id ∈ batchCandidates t added := by
  rw [NoiseFilter.mem_batchCandidates (linked.of_sameFrame frame),
    NoiseFilter.mem_batchCandidates linked]
  simp only [Counts, frame.isElement, frame.isConnected, frame.ancestors]

end Tree.SameFrame

end NoiseFilter
