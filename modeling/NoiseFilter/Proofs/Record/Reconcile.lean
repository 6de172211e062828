import NoiseFilter.Engine.Record
import NoiseFilter.Proofs.Tree.Write

/-!
# Marking one element

What is written to an element to make its marks agree with its record, said on a draft of the element.
`Tree.reconcile_eq` ties the draft to the tree: on an element the marks can always be written, and
only that element is touched.
-/

namespace NoiseFilter

/-! ## Marks on a draft -/

namespace Draft

/-- Give an attribute its raw text back. -/
def restoreAttribute (d : Draft) (name : String) (value : Option String) : Draft :=
  if d.element.get? name = value then d
  else
    match value with
    | some value => d.write (·.set name value)
    | none => d.write (·.erase name)

/-- Make the element look as it did. -/
def restore (d : Draft) (marker : String) (b : Baseline) : Draft :=
  ((d.restoreAttribute "class" b.classText).restoreAttribute "style" b.styleText).restoreAttribute
    marker b.marker

/-- Take a class away if it is there. -/
def withoutClass (d : Draft) (cls : String) : Draft :=
  if d.element.hasClass cls then d.write (·.removeClass cls) else d

/-- Add a class if it is not there. -/
def withClass (d : Draft) (cls : String) : Draft :=
  if d.element.hasClass cls then d else d.write (·.addClass cls)

/-- Give the element a colour, or none. -/
def withColor (d : Draft) (color : Option String) : Draft :=
  if d.element.style.get? colorProperty = color then d
  else
    match color with
    | some color => d.write (·.setStyle colorProperty color)
    | none => d.write (·.removeStyle colorProperty)

/-- Name the rule that the element is classified by. -/
def withMarker (d : Draft) (marker value : String) : Draft :=
  if d.element.get? marker = some value then d else d.write (·.set marker value)

/-- Exchange the classes that were added for those that are wanted. -/
def exchange (d : Draft) (added wanted : List String) : Draft :=
  wanted.foldl withClass ((added.filter (!wanted.contains ·)).foldl withoutClass d)

/-- Make the marks on the element those that a record asks for. -/
def reconcile (d : Draft) (marker : String) (n : NodeRecord) : Draft :=
  match n.entries.getLast? with
  | none => d.restore marker n.baseline
  | some last =>
    ((d.exchange n.added n.wantedClasses).withColor n.wantedColor).withMarker marker last.ruleId

/-- The marks of an element on which entries are left. -/
theorem reconcile_of_ne_nil (d : Draft) (marker : String) {n : NodeRecord}
    (filled : n.entries ≠ []) :
    d.reconcile marker n =
      ((d.exchange n.added n.wantedClasses).withColor n.wantedColor).withMarker marker
        (n.entries.getLast filled).ruleId := by
  rw [reconcile, List.getLast?_eq_some_getLast filled]

end Draft

/-- A record whose marks have been written. -/
def NodeRecord.reconciled (n : NodeRecord) : NodeRecord := { n with added := n.wantedClasses }

/-! ## From the draft to the tree -/

namespace Tree

variable {t : Tree} {id : NodeId} {d : Draft}

theorem attribute?_put (here : t.isElement id = true) (name : String) :
    (t.put id d).attribute? id name = d.element.get? name := by
  rw [attribute?, element?_put here, if_pos rfl]
  rfl

theorem hasClass_put (here : t.isElement id = true) (cls : String) :
    (t.put id d).hasClass id cls = d.element.hasClass cls := by
  rw [hasClass, element?_put here, if_pos rfl]
  rfl

theorem style?_put (here : t.isElement id = true) (property : String) :
    (t.put id d).style? id property = d.element.style.get? property := by
  rw [style?, element?_put here, if_pos rfl]
  rfl

theorem restoreAttribute_put (here : t.isElement id = true) (name : String)
    (value : Option String) :
    (t.put id d).restoreAttribute id name value = .ok (t.put id (d.restoreAttribute name value)) := by
  unfold restoreAttribute Draft.restoreAttribute
  rw [attribute?_put here]
  split
  · rfl
  · cases value with
    | none => exact write_put here _
    | some value => exact write_put here _

theorem restore_put (here : t.isElement id = true) (marker : String) (b : Baseline) :
    (t.put id d).restore id marker b = .ok (t.put id (d.restore marker b)) := by
  simp only [restore, Draft.restore, restoreAttribute_put here, bind, Except.bind]

theorem withoutClass_put (here : t.isElement id = true) (cls : String) :
    (t.put id d).withoutClass id cls = .ok (t.put id (d.withoutClass cls)) := by
  rw [withoutClass, Draft.withoutClass, hasClass_put here]
  split
  · exact write_put here _
  · rfl

theorem withClass_put (here : t.isElement id = true) (cls : String) :
    (t.put id d).withClass id cls = .ok (t.put id (d.withClass cls)) := by
  rw [withClass, Draft.withClass, hasClass_put here]
  split
  · rfl
  · exact write_put here _

theorem withColor_put (here : t.isElement id = true) (color : Option String) :
    (t.put id d).withColor id color = .ok (t.put id (d.withColor color)) := by
  unfold withColor Draft.withColor
  rw [style?_put here]
  split
  · rfl
  · cases color with
    | none => exact write_put here _
    | some color => exact write_put here _

theorem withMarker_put (here : t.isElement id = true) (marker value : String) :
    (t.put id d).withMarker id marker value = .ok (t.put id (d.withMarker marker value)) := by
  rw [withMarker, Draft.withMarker, attribute?_put here]
  split
  · rfl
  · exact write_put here _

/-- A pass of writes over some classes. -/
theorem foldlM_put (step : Tree → String → Except TreeError Tree) {change : Draft → String → Draft}
    (agree : ∀ d cls, step (t.put id d) cls = .ok (t.put id (change d cls))) (classes : List String) :
    classes.foldlM step (t.put id d) = .ok (t.put id (classes.foldl change d)) := by
  induction classes generalizing d with
  | nil => rfl
  | cons cls rest ih =>
    rw [List.foldlM_cons, agree d cls]
    exact ih

theorem reconcile_put (here : t.isElement id = true) (marker : String) (n : NodeRecord) :
    (t.put id d).reconcile marker id n = .ok (n.reconciled, t.put id (d.reconcile marker n)) := by
  rw [reconcile, Draft.reconcile]
  cases last : n.entries.getLast? with
  | none =>
    have empty : n.entries = [] := List.getLast?_eq_none_iff.mp last
    have bare : n.reconciled = { n with added := [] } := by
      simp [NodeRecord.reconciled, NodeRecord.wantedClasses, empty]
    simp only [restore_put here, bare]
    rfl
  | some last =>
    have removed := foldlM_put (d := d) (fun t cls => t.withoutClass id cls)
      (fun d cls => withoutClass_put here cls) (n.added.filter (!n.wantedClasses.contains ·))
    have added (d : Draft) := foldlM_put (d := d) (fun t cls => t.withClass id cls)
      (fun d cls => withClass_put here cls) n.wantedClasses
    simp only [removed, added, withColor_put here, withMarker_put here, bind, Except.bind]
    rfl

/-- On an element the marks can be written, and only the element changes. -/
theorem reconcile_eq {e : Element} (here : t.element? id = some e) (marker : String)
    (n : NodeRecord) :
    t.reconcile marker id n =
      .ok (n.reconciled, t.put id (Draft.reconcile { element := e } marker n)) := by
  have isElement : t.isElement id = true := isElement_iff.mpr ⟨e, here⟩
  conv => lhs; rw [← put_self here]
  exact reconcile_put isElement marker n

end Tree

end NoiseFilter
