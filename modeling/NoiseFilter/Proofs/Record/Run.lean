import NoiseFilter.Proofs.Record.Operation
import NoiseFilter.Proofs.Tree.Edit

/-!
# Runs of a record

A record starts out empty. Then come, in any order, operations on it and edits of the tree by others.
A `Stage` holds what there is between two of them, and with it what no program keeps: each recorded
element as it was when it entered the record.
-/

namespace NoiseFilter.Record

/-- Where a run of a record stands. -/
structure Stage where
  record : Record
  tree : Tree
  /-- The recorded elements, each as it was when it entered the record. -/
  entered : NodeId → Option Element

namespace Stage

/-- Nothing is recorded yet. -/
def start (marker : String) (t : Tree) : Stage := ⟨{ marker }, t, fun _ => none⟩

/-- The recorded elements after an operation: some stay, others enter as they stand. -/
def enter (s : Stage) (r : Record) (id : NodeId) : Option Element :=
  match r.get? id, s.record.get? id with
  | none, _ => none
  | some _, none => s.tree.element? id
  | some _, some _ => s.entered id

def operate (s : Stage) (o : Operation) : Stage :=
  let (record, tree) := o.apply s.record s.tree
  ⟨record, tree, s.enter record⟩

def edit (s : Stage) (w : Edit) : Stage := { s with tree := w.apply s.tree }

end Stage

/-- The stages that are reached by operations on elements and by the edits that are allowed. -/
inductive Run (allowed : Stage → Edit → Prop) (marker : String) (t : Tree) : Stage → Prop
  | start : Run allowed marker t (.start marker t)
  | operation (o : Operation) {s : Stage} (before : Run allowed marker t s)
      (onElement : o.OnElement s.tree) : Run allowed marker t (s.operate o)
  | edit (w : Edit) {s : Stage} (before : Run allowed marker t s) (fits : allowed s w) :
      Run allowed marker t (s.edit w)

namespace Run

variable {allowed : Stage → Edit → Prop} {marker : String} {t : Tree} {s : Stage}

theorem marker_eq_and_stands (run : Run allowed marker t s) :
    s.record.marker = marker ∧ s.record.Stands s.tree := by
  induction run with
  | start => exact ⟨rfl, fun _ _ found => by cases found⟩
  | operation o _ onElement ih =>
    obtain ⟨same, stands⟩ := ih
    exact ⟨(o.marker_apply stands onElement).trans same, o.stands_apply stands onElement⟩
  | edit w _ _ ih =>
    obtain ⟨same, stands⟩ := ih
    refine ⟨same, fun id n found => ?_⟩
    obtain ⟨isElement, filled⟩ := stands id n found
    exact ⟨w.isElement_apply isElement, filled⟩

/-- What is recorded are elements, each with an entry at least, whatever edits come between. -/
theorem stands (run : Run allowed marker t s) : s.record.Stands s.tree :=
  run.marker_eq_and_stands.2

theorem marker_eq (run : Run allowed marker t s) : s.record.marker = marker :=
  run.marker_eq_and_stands.1

/-- What an operation of a run does to one node. -/
theorem turn (run : Run allowed marker t s) (o : Operation) (onElement : o.OnElement s.tree)
    (id : NodeId) :
    Turn marker (o.change id (s.record.entriesAt id)) (s.record.get? id) (s.tree.element? id)
      ((s.operate o).record.get? id) ((s.operate o).tree.element? id) :=
  run.marker_eq ▸ o.apply_at run.stands onElement id

/-- Operations one after the other: elements stay elements on the way. -/
theorem operations (run : Run allowed marker t s) (os : List Operation)
    (onElement : ∀ o ∈ os, o.OnElement s.tree) :
    Run allowed marker t (os.foldl Stage.operate s) := by
  induction os generalizing s with
  | nil => exact run
  | cons o rest ih =>
    have here := onElement o List.mem_cons_self
    have frame : s.tree.SameFrame (s.operate o).tree := o.sameFrame_apply run.stands here
    exact ih (.operation o run here) fun other later =>
      (onElement other (List.mem_cons_of_mem o later)).of_sameFrame frame

end Run

end NoiseFilter.Record
