import NoiseFilter.Proofs.Tree.Write

/-!
# Walks over trees that differ in elements only

Every walk follows the links between nodes and asks which of them are elements. Writes to elements
change neither, so that all walks go the same ways before and after.
-/

namespace NoiseFilter

namespace Forest

variable {α : Type} {f f' : Forest α}

theorem walk_congr (targets : ∀ link id, f'.target? link id = f.target? link id) (link : Link)
    (bound : Nat) (start : Option NodeId) : f'.walk link bound start = f.walk link bound start := by
  induction bound generalizing start with
  | zero => rfl
  | succ bound ih =>
    cases start with
    | none => rfl
    | some id => rw [walk, walk, targets, ih]

theorem tour_congr (targets : ∀ link id, f'.target? link id = f.target? link id) (top : NodeId)
    (steps : Nat) (cursor : Option Cursor) :
    f'.tour top steps cursor = f.tour top steps cursor := by
  have same (c : Cursor) : f'.step top c = f.step top c := by
    cases c <;> simp only [step, firstChild?, next?, parent?, targets]
  induction steps generalizing cursor with
  | zero => rfl
  | succ steps ih =>
    cases cursor with
    | none => rfl
    | some c => rw [tour, tour, same, ih]

end Forest

namespace Tree.SameFrame

variable {t t' : Tree} (frame : t.SameFrame t')

include frame

theorem isElement_eq : t'.isElement = t.isElement := funext frame.isElement

theorem parent? (id : NodeId) : t'.parent? id = t.parent? id := frame.target? .parent id

theorem walk (link step : Forest.Link) (id : NodeId) :
    t'.forest.walk link t'.forest.size (t'.forest.target? step id) =
      t.forest.walk link t.forest.size (t.forest.target? step id) := by
  have sizes : t'.forest.size = t.forest.size := frame.size
  rw [sizes, frame.target?, Forest.walk_congr frame.target?]

theorem children (id : NodeId) : t'.children id = t.children id := frame.walk .next .firstChild id

theorem ancestors (id : NodeId) : t'.ancestors id = t.ancestors id := frame.walk .parent .parent id

theorem descendants (id : NodeId) : t'.descendants id = t.descendants id := by
  have sizes : t'.forest.size = t.forest.size := frame.size
  rw [Tree.descendants, Tree.descendants, Forest.descendants, Forest.descendants, sizes,
    Forest.tour_congr frame.target?, Forest.entry, Forest.entry, Forest.firstChild?,
    Forest.firstChild?, frame.target?]

theorem elementChildren (id : NodeId) : t'.elementChildren id = t.elementChildren id := by
  rw [Tree.elementChildren, Tree.elementChildren, frame.children, frame.isElement_eq]

theorem parentElement? (id : NodeId) : t'.parentElement? id = t.parentElement? id := by
  rw [Tree.parentElement?, Tree.parentElement?, frame.parent?, frame.isElement_eq]

theorem descendantElements (id : NodeId) : t'.descendantElements id = t.descendantElements id := by
  rw [Tree.descendantElements, Tree.descendantElements, frame.descendants, frame.isElement_eq]

theorem siblingsBefore (id : NodeId) :
    t'.forest.siblingsBefore id = t.forest.siblingsBefore id :=
  frame.walk .previous .previous id

theorem siblingsAfter (id : NodeId) : t'.forest.siblingsAfter id = t.forest.siblingsAfter id :=
  frame.walk .next .next id

theorem elementsBefore (id : NodeId) : t'.elementsBefore id = t.elementsBefore id := by
  rw [Tree.elementsBefore, Tree.elementsBefore, frame.siblingsBefore, frame.isElement_eq]

theorem elementsAfter (id : NodeId) : t'.elementsAfter id = t.elementsAfter id := by
  rw [Tree.elementsAfter, Tree.elementsAfter, frame.siblingsAfter, frame.isElement_eq]

end Tree.SameFrame

end NoiseFilter
