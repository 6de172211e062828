import Mathlib.Logic.Relation
import NoiseFilter.Proofs.Tree.Lineage

/-!
# The tree as a forest of child lists

Seen from outside, a tree is a list of children for each node, and an edit takes a node out of a
list or puts it at the end of one. `ChildLists` has these lists and nothing else. The links of a
tree implement them: after any edits, refused ones among them, the links agree with each other, the
lists that they run along are those that the edits ask for (`ChildLists.Run`), and an edit is
refused exactly when the lists give a reason to, without leaving a trace.
-/

namespace NoiseFilter

/-- The number of nodes, and the children of each. -/
structure ChildLists where
  size : Nat
  lists : NodeId → List NodeId

namespace ChildLists

/-- The document without children. -/
def single : ChildLists := ⟨1, fun _ => []⟩

variable (s : ChildLists)

def Has (id : NodeId) : Prop := id.index < s.size

/-- The first node is the second, or the second lies below it. -/
def Contains (a b : NodeId) : Prop := Relation.ReflTransGen (fun p c => c ∈ s.lists p) a b

def create : ChildLists := { s with size := s.size + 1 }

/-- Take a node out of the list it is in. -/
def detach (id : NodeId) : ChildLists := { s with lists := fun p => (s.lists p).erase id }

/-- Take a node out of the list it is in, and put it at the end of another. -/
def append (parent child : NodeId) : ChildLists :=
  let s := s.detach child
  { s with lists := Function.update s.lists parent (s.lists parent ++ [child]) }

theorem lists_append (parent child p : NodeId) : (s.append parent child).lists p =
    if p = parent then (s.lists p).erase child ++ [child] else (s.lists p).erase child := by
  rw [append]
  by_cases here : p = parent
  · subst here
    simp [detach]
  · simp [detach, here]

/-- Nodes that are not there cannot be linked or unlinked, and a node cannot come to lie inside
itself. -/
def Refuses : Edit → Prop
  | .append parent child => ¬ s.Has parent ∨ ¬ s.Has child ∨ s.Contains child parent
  | .detach id => ¬ s.Has id
  | _ => False

/-- What an edit that is not refused makes of the lists. -/
def edited : Edit → ChildLists
  | .create _ => s.create
  | .append parent child => s.append parent child
  | .detach id => s.detach id
  | _ => s

/-- What an edit makes of the lists. -/
inductive Step (s : ChildLists) (w : Edit) : ChildLists → Prop where
  | refused (reason : s.Refuses w) : Step s w s
  | done (free : ¬ s.Refuses w) : Step s w (s.edited w)

/-- What edits, one after the other, make of the document without children. -/
inductive Run : List Edit → ChildLists → Prop where
  | start : Run [] single
  | step {ws : List Edit} {w : Edit} {s s' : ChildLists} (run : Run ws s) (step : s.Step w s') :
      Run (ws ++ [w]) s'

end ChildLists

/-! ## Links that agree -/

namespace Forest

variable {α : Type} {f : Forest α}

/-- The links of a forest agree with each other, node by node. -/
structure Consistent (f : Forest α) : Prop where
  sideways : ∀ c d, f.next? c = some d ↔ f.previous? d = some c
  siblings : ∀ c d, f.next? c = some d → ∃ p, f.parent? c = some p ∧ f.parent? d = some p
  first : ∀ p c, f.firstChild? p = some c ↔ f.parent? c = some p ∧ f.previous? c = none
  last : ∀ p c, f.lastChild? p = some c ↔ f.parent? c = some p ∧ f.next? c = none
  loose : ∀ c, f.parent? c = none → f.previous? c = none ∧ f.next? c = none

namespace Threads

variable {kids : NodeId → List NodeId} (threads : f.Threads kids)

include threads

/-- The first child is the one that nothing precedes. -/
theorem firstChild?_iff {p c : NodeId} :
    f.firstChild? p = some c ↔ f.parent? c = some p ∧ f.previous? c = none := by
  rw [threads.firstChild, ← threads.parent]
  constructor
  · intro head
    obtain ⟨rest, all⟩ := List.head?_eq_some_iff.mp head
    have halves : kids p = [] ++ c :: rest := all
    exact ⟨List.mem_of_head? head, threads.previous?_of_halves halves⟩
  · rintro ⟨member, nothing⟩
    obtain ⟨before, behind, halves⟩ := List.append_of_mem member
    rw [threads.previous?_of_halves halves, List.getLast?_eq_none_iff] at nothing
    rw [halves, nothing]
    rfl

/-- The last child is the one that nothing follows. -/
theorem lastChild?_iff {p c : NodeId} :
    f.lastChild? p = some c ↔ f.parent? c = some p ∧ f.next? c = none := by
  rw [threads.lastChild, ← threads.parent]
  constructor
  · intro last
    obtain ⟨before, halves⟩ := List.getLast?_eq_some_iff.mp last
    have nothing : f.next? c = [].head? := threads.next?_of_halves halves
    exact ⟨List.mem_of_getLast? last, nothing⟩
  · rintro ⟨member, nothing⟩
    obtain ⟨before, behind, halves⟩ := List.append_of_mem member
    rw [threads.next?_of_halves halves, List.head?_eq_none_iff] at nothing
    rw [halves, nothing, List.getLast?_concat]

/-- Links along lists agree with each other. -/
theorem consistent : f.Consistent where
  sideways _ _ := threads.previous?_eq_some_iff.symm
  siblings c d leads := by
    obtain ⟨p, left, right⟩ := threads.mem_of_next? leads
    exact ⟨p, (threads.parent p c).mp left, (threads.parent p d).mp right⟩
  first _ _ := threads.firstChild?_iff
  last _ _ := threads.lastChild?_iff
  loose c root := by
    have nowhere (p : NodeId) : c ∉ kids p := fun member =>
      Option.some_ne_none p (((threads.parent p c).mp member).symm.trans root)
    refine ⟨Option.eq_none_iff_forall_ne_some.mpr fun d leads => ?_,
      Option.eq_none_iff_forall_ne_some.mpr fun d leads => ?_⟩
    · obtain ⟨p, -, member⟩ := threads.mem_of_next? (threads.previous?_eq_some_iff.mp leads)
      exact nowhere p member
    · obtain ⟨p, member, -⟩ := threads.mem_of_next? leads
      exact nowhere p member

end Threads

namespace Linked

variable (linked : f.Linked)

include linked

/-- No way up comes back to where it began. -/
theorem acyclic (x : NodeId) : ¬ Relation.TransGen (fun c p => f.parent? c = some p) x x := by
  obtain ⟨depth, deeper⟩ := linked.grounded
  have higher {a b : NodeId} (way : Relation.TransGen (fun c p => f.parent? c = some p) a b) :
      depth b < depth a := by
    induction way with
    | single parent => exact deeper _ _ parent
    | tail _ parent ih => exact Nat.lt_trans (deeper _ _ parent) ih
  exact fun circle => Nat.lt_irrefl _ (higher circle)

theorem isInclusiveAncestor_iff {a b : NodeId} : f.isInclusiveAncestor a b = true ↔
    Relation.ReflTransGen (fun p c => c ∈ f.children p) a b := by
  induction b using linked.up_induction with
  | step b ih =>
    rw [isInclusiveAncestor, Bool.or_eq_true, beq_iff_eq, List.contains_iff_mem,
      linked.mem_ancestors, Relation.ReflTransGen.cases_tail_iff]
    refine or_congr eq_comm ⟨?_, ?_⟩
    · rintro ⟨p, parent, above⟩
      refine ⟨p, (ih p parent).mp ?_, (linked.mem_children p b).mpr parent⟩
      simpa [isInclusiveAncestor] using above
    · rintro ⟨p, above, member⟩
      have parent := (linked.mem_children p b).mp member
      refine ⟨p, parent, ?_⟩
      simpa [isInclusiveAncestor] using (ih p parent).mpr above

end Linked

end Forest

/-! ## Trees -/

namespace Tree

/-- What a tree looks like from outside. -/
def childLists (t : Tree) : ChildLists := ⟨t.size, t.children⟩

/-- The tree that edits make of the empty one. -/
def edited (ws : List Edit) : Tree := ws.foldl (fun t w => w.apply t) .empty

theorem edited_concat (ws : List Edit) (w : Edit) : edited (ws ++ [w]) = w.apply (edited ws) :=
  List.foldl_concat ..

theorem linked_edited (ws : List Edit) : (edited ws).Linked := Linked.empty.edits ws

/-- All that an appending does when it is let through. -/
theorem append_ok {t t' : Tree} {parent child : NodeId} (done : t.append parent child = .ok t') :
    t.forest.has parent = true ∧ t.forest.has child = true ∧
      t.isInclusiveAncestor child parent = false ∧
      t' = { t with forest := t.forest.append parent child }.record
        { target := parent, added := [child] } := by
  rw [append] at done
  split at done
  · cases done
  · rename_i parentHere
    split at done
    · cases done
    · rename_i childHere
      split at done
      · cases done
      · rename_i apart
        exact ⟨by simpa using parentHere, by simpa using childHere, by simpa using apart,
          (Except.ok.inj done).symm⟩

/-- All that a detaching does when it is let through. -/
theorem detach_ok {t t' : Tree} {id : NodeId} (done : t.detach id = .ok t') :
    t.forest.has id = true ∧ (t.parent? id = none ∧ t' = t ∨
      ∃ p, t.parent? id = some p ∧ t' = { t with forest := t.forest.unlink id }.record
        { target := p, removed := [id] }) := by
  rw [detach] at done
  split at done
  · cases done
  · rename_i here
    refine ⟨by simpa using here, ?_⟩
    split at done
    · rename_i root
      exact .inl ⟨root, (Except.ok.inj done).symm⟩
    · rename_i p parent
      exact .inr ⟨p, parent, (Except.ok.inj done).symm⟩

theorem observing_record (t : Tree) (m : Mutation) : (t.record m).observing = t.observing := rfl

/-- Observation goes on unless it is stopped. -/
theorem observing_apply {t : Tree} {w : Edit} (kept : w ≠ .observe false) (observed : t.observing = true) :
    (w.apply t).observing = true := by
  cases w with
  | append parent child =>
    cases done : t.append parent child with
    | error _ => rwa [Edit.apply_append_of_error done]
    | ok t' =>
      rw [Edit.apply_append_of_ok done, (append_ok done).2.2.2, observing_record]
      exact observed
  | detach id =>
    cases done : t.detach id with
    | error _ => rwa [Edit.apply_detach_of_error done]
    | ok t' =>
      rw [Edit.apply_detach_of_ok done]
      obtain ⟨-, ⟨-, rfl⟩ | ⟨p, -, rfl⟩⟩ := detach_ok done
      · exact observed
      · rw [observing_record]
        exact observed
  | write id w => exact (Edit.sameFrame_write id w).observing.trans observed
  | observe enabled =>
    cases enabled with
    | true => rfl
    | false => exact absurd rfl kept
  | create _ => exact observed
  | takeJournal => exact observed

namespace Linked

variable {t : Tree} (linked : t.Linked)

include linked

/-- A node is linked below another unless the lists give a reason not to. -/
theorem append_error_iff {parent child : NodeId} :
    (∃ error, t.append parent child = .error error) ↔
      t.childLists.Refuses (.append parent child) := by
  have contains : t.isInclusiveAncestor child parent = true ↔ t.childLists.Contains child parent :=
    linked.forest.isInclusiveAncestor_iff
  have known (id : NodeId) : t.forest.has id = true ↔ t.childLists.Has id := decide_eq_true_iff
  rw [ChildLists.Refuses, ← contains, ← known, ← known, Tree.append]
  split
  · simp_all
  · split
    · simp_all
    · split
      · simp_all
      · simp_all

omit linked in
/-- A node is taken out of its list unless it is not there. -/
theorem detach_error_iff {id : NodeId} :
    (∃ error, t.detach id = .error error) ↔ t.childLists.Refuses (.detach id) := by
  have known : t.forest.has id = true ↔ t.childLists.Has id := decide_eq_true_iff
  rw [ChildLists.Refuses, ← known, Tree.detach]
  split
  · simp_all
  · split <;> simp_all

/-- An edit that is refused leaves no trace. -/
theorem apply_of_refuses {w : Edit} (refuses : t.childLists.Refuses w) : w.apply t = t := by
  cases w with
  | append parent child =>
    obtain ⟨error, failed⟩ := linked.append_error_iff.mpr refuses
    exact Edit.apply_append_of_error failed
  | detach id =>
    obtain ⟨error, failed⟩ := detach_error_iff.mpr refuses
    exact Edit.apply_detach_of_error failed
  | _ => cases refuses

/-- An edit that is not refused changes the lists as it says. -/
theorem childLists_apply {w : Edit} (free : ¬ t.childLists.Refuses w) :
    (w.apply t).childLists = t.childLists.edited w := by
  cases w with
  | create data =>
    have lists : (t.create data).2.children = t.children :=
      funext (linked.forest.threads.of_same (t.forest.target?_create data)).children_eq
    exact congrArg₂ ChildLists.mk (Edit.size_apply (.create data) t) lists
  | append parent child =>
    rw [← linked.append_error_iff] at free
    have lists : (Edit.apply t (.append parent child)).children =
        (t.childLists.append parent child).lists := by
      cases done : t.append parent child with
      | error error => exact absurd ⟨error, done⟩ free
      | ok t' =>
        rw [Edit.apply_append_of_ok done]
        obtain ⟨parentHere, childHere, -, rfl⟩ := append_ok done
        funext p
        exact (linked.forest.children_append parentHere childHere p).trans
          (t.childLists.lists_append parent child p).symm
    exact congrArg₂ ChildLists.mk (Edit.size_apply (.append parent child) t) lists
  | detach id =>
    rw [← detach_error_iff] at free
    have lists : (Edit.apply t (.detach id)).children = (t.childLists.detach id).lists := by
      cases done : t.detach id with
      | error error => exact absurd ⟨error, done⟩ free
      | ok t' =>
        rw [Edit.apply_detach_of_ok done]
        funext p
        obtain ⟨-, ⟨root, rfl⟩ | ⟨p', parent, rfl⟩⟩ := detach_ok done
        · refine (List.erase_of_not_mem fun member => ?_).symm
          have parent := (linked.forest.mem_children p id).mp member
          exact Option.some_ne_none p (parent.symm.trans root)
        · exact linked.forest.children_unlink id p
    exact congrArg₂ ChildLists.mk (Edit.size_apply (.detach id) t) lists
  | write id w =>
    have frame := Edit.sameFrame_write (t := t) id w
    exact congrArg₂ ChildLists.mk frame.size (funext frame.children)
  | observe enabled => rfl
  | takeJournal => rfl

/-- The links do one edit as the lists ask for. -/
theorem step_childLists (w : Edit) : t.childLists.Step w (w.apply t).childLists := by
  by_cases refuses : t.childLists.Refuses w
  · rw [linked.apply_of_refuses refuses]
    exact .refused refuses
  · rw [linked.childLists_apply refuses]
    exact .done refuses

end Linked

theorem childLists_empty : empty.childLists = .single :=
  congrArg (ChildLists.mk 1)
    (funext (Forest.Threads.single NodeData.document).children_eq)

/-- The links do all edits as the lists ask for. -/
theorem run_childLists (ws : List Edit) : ChildLists.Run ws (edited ws).childLists := by
  induction ws using List.reverseRecOn with
  | nil =>
    rw [edited, List.foldl_nil, childLists_empty]
    exact .start
  | append_singleton ws w ih =>
    rw [edited_concat]
    exact .step ih ((linked_edited ws).step_childLists w)

/-- A tree implements a forest of ordered child lists. However the empty tree was edited, its links
agree with each other, run along the lists of children and never lead in a circle; the lists are
those that the edits ask for; and an edit is refused exactly if it names a node that is not there or
would put a node inside itself, and then changes nothing. -/
theorem implements_childLists (ws : List Edit) :
    (edited ws).forest.Consistent ∧ (edited ws).forest.Threads (edited ws).children ∧
    (∀ x, ¬ Relation.TransGen (fun c p => (edited ws).parent? c = some p) x x) ∧
    ChildLists.Run ws (edited ws).childLists ∧
    (∀ parent child, (∃ error, (edited ws).append parent child = .error error) ↔
      (edited ws).childLists.Refuses (.append parent child)) ∧
    (∀ id, (∃ error, (edited ws).detach id = .error error) ↔
      (edited ws).childLists.Refuses (.detach id)) ∧
    ∀ w, (edited ws).childLists.Refuses w → w.apply (edited ws) = edited ws := by
  have linked := linked_edited ws
  refine ⟨linked.forest.threads.consistent, linked.forest.threads, linked.forest.acyclic,
    run_childLists ws, fun _ _ => linked.append_error_iff, fun _ => Linked.detach_error_iff,
    fun _ => linked.apply_of_refuses⟩

end Tree

end NoiseFilter
