import NoiseFilter.Proofs.Tree.Frame
import NoiseFilter.Proofs.Tree.Threads

/-!
# Links between nodes

Nodes are linked downwards, sideways and upwards. In every forest that edits can bring about the
links fit together: a node stands in the list of its parent, once, and in no other, the links
sideways run along these lists, and no way up comes back to where it began (`Forest.Linked`). The
walk to the ancestors is bounded by the number of nodes. Since no node is met twice this cuts nothing
off, so the ancestors of a node are its parent and the ancestors of that.
-/

namespace NoiseFilter

namespace Forest

variable {α : Type}

/-- The links of a forest fit together. -/
structure Linked (f : Forest α) : Prop where
  threads : f.Threads f.children
  /-- Parents lie less deep than their children, so no way up is a circle. -/
  grounded : ∃ depth : NodeId → Nat, ∀ c p, f.parent? c = some p → depth p < depth c

theorem walk_parent (f : Forest α) (bound : Nat) (p : NodeId) :
    f.walk .parent (bound + 1) (some p) = p :: f.walk .parent bound (f.parent? p) :=
  rfl

namespace Linked

variable {f : Forest α}

theorem of_threads {kids : NodeId → List NodeId} (threads : f.Threads kids)
    (grounded : ∃ depth : NodeId → Nat, ∀ c p, f.parent? c = some p → depth p < depth c) :
    f.Linked := by
  have found : f.children = kids := funext threads.children_eq
  exact ⟨found ▸ threads, grounded⟩

section

variable (linked : f.Linked)

include linked

theorem mem_children (p c : NodeId) : c ∈ f.children p ↔ f.parent? c = some p :=
  linked.threads.parent p c

theorem nodup (p : NodeId) : (f.children p).Nodup := linked.threads.nodup p

/-- A node that is unlinked goes out of all lists, since it was in that of its parent at most. -/
theorem children_unlink (id other : NodeId) :
    (f.unlink id).children other = (f.children other).erase id :=
  (linked.threads.unlink id).children_eq other

theorem unlink (id : NodeId) : (f.unlink id).Linked := by
  obtain ⟨depth, deeper⟩ := linked.grounded
  refine of_threads (linked.threads.unlink id) ⟨depth, fun c p parent => ?_⟩
  rw [linked.threads.parent?_unlink] at parent
  split at parent
  · cases parent
  · exact deeper c p parent

/-- Links alone decide whether a forest is well linked. -/
theorem of_same {f' : Forest α} (same : ∀ link id, f'.target? link id = f.target? link id) :
    f'.Linked := by
  obtain ⟨depth, deeper⟩ := linked.grounded
  refine of_threads (linked.threads.of_same same) ⟨depth, fun c p parent => ?_⟩
  exact deeper c p ((same .parent c).symm.trans parent)

theorem create (data : α) : (f.create data).2.Linked :=
  linked.of_same (f.target?_create data)

end

theorem single (data : α) : (Forest.single data).Linked :=
  of_threads (.single data) ⟨fun _ => 0, fun c _ parent =>
    nomatch (target?_single data .parent c).symm.trans parent⟩

/-! ## The way up -/

/-- Facts about a node follow if they follow from the same facts about its parent. -/
theorem up_induction (linked : f.Linked) {P : NodeId → Prop}
    (step : ∀ x, (∀ p, f.parent? x = some p → P p) → P x) (x : NodeId) : P x := by
  obtain ⟨depth, deeper⟩ := linked.grounded
  induction h : depth x using Nat.strongRecOn generalizing x with
  | ind n ih =>
    subst h
    exact step x fun p parent => ih (depth p) (deeper x p parent) p rfl

/-- On the way up nodes lie less and less deep. -/
theorem pairwise_walk {depth : NodeId → Nat}
    (deeper : ∀ c p, f.parent? c = some p → depth p < depth c) (bound : Nat) (x : NodeId) :
    (x :: f.walk .parent bound (f.parent? x)).Pairwise fun a b => depth b < depth a := by
  induction bound generalizing x with
  | zero => exact List.pairwise_singleton _ x
  | succ bound ih =>
    cases parent : f.parent? x with
    | none => exact List.pairwise_singleton _ x
    | some p =>
      have above := deeper x p parent
      rw [walk_parent]
      refine List.pairwise_cons.mpr ⟨fun a member => ?_, ih p⟩
      rcases List.mem_cons.mp member with rfl | later
      · exact above
      · exact Nat.lt_trans ((List.pairwise_cons.mp (ih p)).1 a later) above

theorem inside_walk (linked : f.Linked) (bound : Nat) (x : NodeId) {a : NodeId}
    (member : a ∈ f.walk .parent bound (f.parent? x)) : a.index < f.size := by
  induction bound generalizing x with
  | zero => cases member
  | succ bound ih =>
    cases parent : f.parent? x with
    | none =>
      rw [parent] at member
      cases member
    | some p =>
      rw [parent, walk_parent] at member
      rcases List.mem_cons.mp member with rfl | later
      · exact of_decide_eq_true (linked.threads.has_of_holds ((linked.mem_children _ x).mpr parent))
      · exact ih p later

end Linked

/-- A walk that has ended before its bound does not go on with a higher one. -/
theorem walk_succ_of_length_lt {f : Forest α} {link : Link} {bound : Nat} {start : Option NodeId}
    (ended : (f.walk link bound start).length < bound) :
    f.walk link (bound + 1) start = f.walk link bound start := by
  induction bound generalizing start with
  | zero => cases ended
  | succ bound ih =>
    cases start with
    | none => rfl
    | some p =>
      rw [walk, List.length_cons] at ended
      rw [walk, walk, ih (Nat.lt_of_succ_lt_succ ended)]

theorem ancestors_of_root {f : Forest α} {id : NodeId} (root : f.parent? id = none) :
    f.ancestors id = [] := by
  rw [ancestors, root]
  cases f.size <;> rfl

/-- The ancestors of a node are its parent and the ancestors of that: the bound on the walk cuts
nothing off. -/
theorem Linked.ancestors_of_parent {f : Forest α} (linked : f.Linked) {id p : NodeId}
    (parent : f.parent? id = some p) : f.ancestors id = p :: f.ancestors p := by
  obtain ⟨depth, deeper⟩ := linked.grounded
  have childInside : id.index < f.size := of_decide_eq_true (f.has_of_target? parent)
  have filled := Nat.ne_of_gt (Nat.zero_lt_of_lt childInside)
  obtain ⟨rest, size⟩ := Nat.exists_eq_succ_of_ne_zero filled
  -- the node, its parent and the walk from there are all different, so the walk is short
  have way := pairwise_walk deeper (rest + 1) id
  rw [parent, walk_parent] at way
  have distinct : (id :: p :: f.walk .parent rest (f.parent? p)).Nodup := by
    refine List.Pairwise.imp ?_ way
    rintro a _ lower rfl
    exact Nat.lt_irrefl _ lower
  have inside : ∀ a ∈ id :: p :: f.walk .parent rest (f.parent? p), a.index < f.size := by
    intro a member
    rcases List.mem_cons.mp member with rfl | above
    · exact childInside
    · refine linked.inside_walk (rest + 1) id ?_
      rwa [parent, walk_parent]
  have short := length_le_of_nodup distinct inside
  simp only [List.length_cons] at short
  rw [ancestors, ancestors, parent, size, walk_parent, walk_succ_of_length_lt (by omega)]

namespace Linked

variable {f : Forest α} (linked : f.Linked) {parent child : NodeId}
  (parentHere : f.has parent = true) (childHere : f.has child = true)
  (apart : f.isInclusiveAncestor child parent = false)

include linked parentHere childHere

theorem parent?_append (id : NodeId) :
    (f.append parent child).parent? id = if id = child then some parent else f.parent? id :=
  linked.threads.parent?_append parentHere childHere id

theorem children_append (id : NodeId) : (f.append parent child).children id =
    if id = parent then (f.children id).erase child ++ [child] else (f.children id).erase child :=
  (linked.threads.append parentHere childHere).children_eq id

include apart

/-- The child and all below it come to lie below the new parent. -/
theorem grounded_append : ∃ depth : NodeId → Nat,
    ∀ c p, (f.append parent child).parent? c = some p → depth p < depth c := by
  obtain ⟨depth, deeper⟩ := linked.grounded
  refine ⟨fun id => depth id + if f.isInclusiveAncestor child id then depth parent + 1 else 0,
    fun c p new => ?_⟩
  rw [linked.parent?_append parentHere childHere] at new
  split at new
  · rename_i same
    cases new
    have inside : f.isInclusiveAncestor child child = true := by simp [isInclusiveAncestor]
    simp only [same, apart, inside, if_true]
    simp only [Bool.false_eq_true, if_false]
    omega
  · rename_i other
    have below := deeper c p new
    have same : f.isInclusiveAncestor child c = f.isInclusiveAncestor child p := by
      have different : (child == c) = false := beq_false_of_ne (Ne.symm other)
      rw [isInclusiveAncestor, isInclusiveAncestor, linked.ancestors_of_parent new, different,
        Bool.false_or, List.contains_cons]
    simp only [same]
    omega

/-- A node can be linked below any node that it does not contain. -/
theorem append : (f.append parent child).Linked :=
  of_threads (linked.threads.append parentHere childHere)
    (linked.grounded_append parentHere childHere apart)

end Linked

end Forest

/-! ## Trees -/

namespace Tree

/-- The links of a tree fit together, and what all else hangs below is the document. -/
structure Linked (t : Tree) : Prop where
  forest : t.forest.Linked
  root : t.data? .root = some .document

/-- Trees that come about from the empty one by edits. -/
def Grown (t : Tree) : Prop := ∃ ws : List Edit, ws.foldl (fun t w => w.apply t) .empty = t

variable {t : Tree}

namespace Linked

theorem empty : Tree.empty.Linked := ⟨Forest.Linked.single NodeData.document, rfl⟩

theorem isElement_root (linked : t.Linked) : t.isElement .root = false := by
  rw [isElement, element?, linked.root]
  rfl

theorem of_sameFrame {t' : Tree} (linked : t.Linked) (frame : t.SameFrame t') : t'.Linked where
  forest := linked.forest.of_same frame.target?
  root := (frame.data? .root linked.isElement_root).trans linked.root

theorem edit (linked : t.Linked) (w : Edit) : (w.apply t).Linked := by
  cases w with
  | create data =>
    refine ⟨linked.forest.create data, ?_⟩
    exact (t.forest.data?_create data (t.forest.ne_size_of_data? linked.root)).trans linked.root
  | append parent child =>
    refine ⟨?_, (Edit.data?_append parent child).trans linked.root⟩
    rw [Edit.apply, Tree.append]
    split
    · exact linked.forest
    · rename_i parentHere
      split
      · exact linked.forest
      · rename_i childHere
        split
        · exact linked.forest
        · rename_i apart
          exact linked.forest.append (by simpa using parentHere) (by simpa using childHere)
            (Bool.eq_false_iff.mpr apart)
  | detach id =>
    refine ⟨?_, (Edit.data?_detach id).trans linked.root⟩
    rw [Edit.apply, Tree.detach]
    split
    · exact linked.forest
    · split
      · exact linked.forest
      · exact linked.forest.unlink id
  | write id w => exact linked.of_sameFrame (Edit.sameFrame_write id w)
  | observe enabled => exact ⟨linked.forest, linked.root⟩
  | takeJournal => exact ⟨linked.forest, linked.root⟩

theorem edits (linked : t.Linked) (ws : List Edit) :
    (ws.foldl (fun t w => w.apply t) t).Linked := by
  induction ws generalizing t with
  | nil => exact linked
  | cons w rest ih => exact ih (linked.edit w)

end Linked

/-- Whatever edits bring about is well linked. -/
theorem Grown.linked (grown : t.Grown) : t.Linked := by
  obtain ⟨ws, rfl⟩ := grown
  exact Linked.empty.edits ws

end Tree

end NoiseFilter
