import NoiseFilter.Proofs.Tree.Write

/-!
# Edits by the host

Between two operations of the engine the page is changed by others. An `Edit` is one such change:
nodes are created, linked and unlinked, and elements are written to. A refused edit changes nothing.
For each edit: which node it writes to, and which attribute of that node.
-/

namespace NoiseFilter

namespace Forest

variable {α : Type} (f : Forest α)

/-- Between two forests nothing but links was written. -/
structure SameNodes (f f' : Forest α) : Prop where
  size : f'.size = f.size
  data? : ∀ id, f'.data? id = f.data? id

namespace SameNodes

theorem refl : SameNodes f f := ⟨rfl, fun _ => rfl⟩

theorem trans {f f' f'' : Forest α} (left : SameNodes f f') (right : SameNodes f' f'') :
    SameNodes f f'' :=
  ⟨right.size.trans left.size, fun id => (right.data? id).trans (left.data? id)⟩

theorem has {f f' : Forest α} (same : SameNodes f f') (id : NodeId) : f'.has id = f.has id := by
  rw [Forest.has, Forest.has, same.size]

theorem point (link : Link) (id : NodeId) (target : Option NodeId) :
    SameNodes f (f.point link id target) := by
  refine ⟨f.size_modify id _, fun other => ?_⟩
  rw [Forest.data?, Forest.data?, Forest.point, get?_modify]
  split
  · cases f.get? other <;> cases link <;> rfl
  · rfl

theorem leadOn (parent : NodeId) (before behind : Option NodeId) :
    SameNodes f (f.leadOn parent before behind) := by
  cases before <;> exact point f ..

theorem leadBack (parent : NodeId) (before behind : Option NodeId) :
    SameNodes f (f.leadBack parent before behind) := by
  cases behind <;> exact point f ..

theorem join (parent : NodeId) (before behind : Option NodeId) :
    SameNodes f (f.join parent before behind) :=
  (leadOn f parent before behind).trans (leadBack _ parent before behind)

theorem cut (id : NodeId) : SameNodes f (f.cut id) :=
  ((point f .parent id none).trans (point _ .previous id none)).trans (point _ .next id none)

theorem unlink (id : NodeId) : SameNodes f (f.unlink id) := by
  rw [Forest.unlink]
  split
  · exact refl f
  · exact (join f _ _ _).trans (cut _ id)

theorem insert (parent : NodeId) (before : Option NodeId) (child : NodeId)
    (behind : Option NodeId) : SameNodes f (f.insert parent before child behind) :=
  ((point f .parent child _).trans (join _ parent before _)).trans (join _ parent _ behind)

theorem append (parent child : NodeId) : SameNodes f (f.append parent child) :=
  (unlink f child).trans (insert _ parent _ child none)

end SameNodes

theorem data?_create (data : α) {other : NodeId} (old : other ≠ ⟨f.size⟩) :
    (f.create data).2.data? other = f.data? other := by
  have index : other.index ≠ f.nodes.size := fun same => old (congrArg NodeId.mk same)
  rw [data?, data?, get?, get?, create, Array.getElem?_push, if_neg index]

theorem ne_size_of_data? {id : NodeId} {data : α} (here : f.data? id = some data) :
    id ≠ ⟨f.size⟩ := by
  rintro rfl
  obtain ⟨n, found, -⟩ := Option.map_eq_some_iff.mp here
  exact Nat.lt_irrefl _ (Array.getElem?_eq_some_iff.mp found).1

end Forest

/-! ## Writes to an element -/

/-- A write to one element. -/
inductive ElementEdit where
  | setAttribute (name value : String)
  | removeAttribute (name : String)
  | addClass (token : String)
  | removeClass (token : String)
  | setStyle (property value : String)
  | removeStyle (property : String)

namespace ElementEdit

def run : ElementEdit → Element → Element
  | setAttribute name value, e => e.set name value
  | removeAttribute name, e => e.erase name
  | addClass token, e => e.addClass token
  | removeClass token, e => e.removeClass token
  | setStyle property value, e => e.setStyle property value
  | removeStyle property, e => e.removeStyle property

/-- The attribute that a write shows in, in lower case. -/
def shownIn : ElementEdit → String
  | setAttribute name _ | removeAttribute name => Text.lower name
  | addClass _ | removeClass _ => "class"
  | setStyle _ _ | removeStyle _ => "style"

variable (w : ElementEdit) (e : Element)

theorem get?_run {other : String} (elsewhere : Text.lower other ≠ w.shownIn) :
    (w.run e).get? other = e.get? other := by
  cases w with
  | setAttribute name value => exact (e.get?_set name value other).trans (if_neg elsewhere.symm)
  | removeAttribute name => exact (e.get?_erase name other).trans (if_neg elsewhere.symm)
  | addClass token => exact (Element.get?_storeClasses _ other).trans (if_neg elsewhere)
  | removeClass token => exact (Element.get?_storeClasses _ other).trans (if_neg elsewhere)
  | setStyle property value => exact (Element.get?_storeStyle _ other).trans (if_neg elsewhere)
  | removeStyle property => exact (Element.get?_storeStyle _ other).trans (if_neg elsewhere)

theorem classes_run (elsewhere : w.shownIn ≠ "class") : (w.run e).classes = e.classes := by
  cases w with
  | setAttribute name value => exact (e.classes_set name value).trans (if_neg elsewhere)
  | removeAttribute name =>
    exact (e.classes_erase name).trans (if_neg fun both => elsewhere both.1)
  | addClass token => exact absurd rfl elsewhere
  | removeClass token => exact absurd rfl elsewhere
  | setStyle property value => exact Element.classes_storeStyle _
  | removeStyle property => exact Element.classes_storeStyle _

theorem style_run (elsewhere : w.shownIn ≠ "style") : (w.run e).style = e.style := by
  cases w with
  | setAttribute name value => exact (e.style_set name value).trans (if_neg elsewhere)
  | removeAttribute name =>
    exact (e.style_erase name).trans (if_neg fun both => elsewhere both.1)
  | addClass token => exact Element.style_storeClasses _
  | removeClass token => exact Element.style_storeClasses _
  | setStyle property value => exact absurd rfl elsewhere
  | removeStyle property => exact absurd rfl elsewhere

end ElementEdit

/-! ## Edits of a tree -/

/-- The next node to come into being is not there yet. -/
theorem Tree.element?_size (t : Tree) : t.element? ⟨t.size⟩ = none := by
  cases here : t.element? ⟨t.size⟩ with
  | none => rfl
  | some e => exact absurd rfl (t.forest.ne_size_of_data? (Tree.data?_eq_of_element? here))

/-- A change of a tree that does not come from the engine. -/
inductive Edit where
  | create (data : NodeData)
  | append (parent child : NodeId)
  | detach (id : NodeId)
  | write (id : NodeId) (w : ElementEdit)
  | observe (enabled : Bool)
  | takeJournal

namespace Edit

/-- Carry an edit out, if it is not refused. -/
def apply (t : Tree) : Edit → Tree
  | create data => (t.create data).2
  | append parent child => (t.append parent child).toOption.getD t
  | detach id => (t.detach id).toOption.getD t
  | write id w => (t.write id w.run).toOption.getD t
  | observe enabled => t.observe enabled
  | takeJournal => t.takeJournal.2

/-- An edit leaves a node alone if it neither writes to it nor brings it into being. -/
def Spares (t : Tree) (id : NodeId) : Edit → Prop
  | create _ => id ≠ ⟨t.size⟩
  | write here _ => id ≠ here
  | _ => True

/-- What an edit makes of an element. -/
def onElement (id : NodeId) (e : Element) : Edit → Element
  | write here w => if id = here then w.run e else e
  | _ => e

/-- The edit does not write to some attribute of a node. -/
def Keeps (id : NodeId) (name : String) : Edit → Prop
  | write here w => id = here → w.shownIn ≠ Text.lower name
  | _ => True

/-- Nodes are made, moved and taken out of the page; elements are not written to. -/
def IsStructural : Edit → Prop
  | write _ _ => False
  | _ => True

variable {t : Tree} {id : NodeId} {e : Element}

theorem data?_append (parent child : NodeId) :
    ((t.append parent child).toOption.getD t).data? id = t.data? id := by
  rw [Tree.append]
  split
  · rfl
  · split
    · rfl
    · split
      · rfl
      · exact (Forest.SameNodes.append t.forest parent child).data? id

theorem data?_detach (child : NodeId) :
    ((t.detach child).toOption.getD t).data? id = t.data? id := by
  rw [Tree.detach]
  split
  · rfl
  · split
    · rfl
    · exact (Forest.SameNodes.unlink t.forest child).data? id

/-! ### Refused or let through -/

theorem apply_append_of_ok {t t' : Tree} {parent child : NodeId}
    (done : t.append parent child = .ok t') : (append parent child).apply t = t' := by
  rw [apply, done]
  rfl

theorem apply_append_of_error {t : Tree} {parent child : NodeId} {error : TreeError}
    (failed : t.append parent child = .error error) : (append parent child).apply t = t := by
  rw [apply, failed]
  rfl

theorem apply_detach_of_ok {t t' : Tree} {id : NodeId} (done : t.detach id = .ok t') :
    (detach id).apply t = t' := by
  rw [apply, done]
  rfl

theorem apply_detach_of_error {t : Tree} {id : NodeId} {error : TreeError}
    (failed : t.detach id = .error error) : (detach id).apply t = t := by
  rw [apply, failed]
  rfl

/-- A write that is let through lays the written element into the tree. -/
theorem getD_write (here : NodeId) (f : Element → Element) :
    (t.write here f).toOption.getD t =
      match t.element? here with
      | none => t
      | some e => t.put here ⟨f e, 1⟩ := by
  cases found : t.element? here with
  | none =>
    rw [Tree.write]
    split
    · rfl
    · rename_i e data
      rw [Tree.element?, data] at found
      cases found
    · rfl
  | some e =>
    rw [Tree.write_eq found]
    rfl

theorem sameFrame_write (here : NodeId) (w : ElementEdit) :
    t.SameFrame ((write here w).apply t) := by
  rw [apply, getD_write]
  split
  · exact .refl t
  · rename_i e found
    exact .put (Tree.isElement_iff.mpr ⟨e, found⟩)

/-- An edit changes an element only by writing to it. -/
theorem element?_apply (w : Edit) (here : t.element? id = some e) :
    (w.apply t).element? id = some (w.onElement id e) := by
  have data := Tree.data?_eq_of_element? here
  cases w with
  | create data' =>
    have old := t.forest.data?_create data' (t.forest.ne_size_of_data? data)
    exact (congrArg (·.bind NodeData.element?) old).trans here
  | append parent child =>
    exact (congrArg (·.bind NodeData.element?) (data?_append parent child)).trans here
  | detach child => exact (congrArg (·.bind NodeData.element?) (data?_detach child)).trans here
  | write target w =>
    rw [apply, getD_write, onElement]
    cases found : t.element? target with
    | none =>
      have other : id ≠ target := by
        rintro rfl
        exact Option.some_ne_none e (here.symm.trans found)
      simp only [here, if_neg other]
    | some old =>
      simp only [Tree.element?_put (Tree.isElement_iff.mpr ⟨old, found⟩)]
      split
      · rename_i same
        cases Option.some.inj (here.symm.trans (same ▸ found))
        rfl
      · exact here
  | observe enabled => exact here
  | takeJournal => exact here

theorem isElement_apply (w : Edit) (here : t.isElement id = true) :
    (w.apply t).isElement id = true := by
  obtain ⟨e, found⟩ := Tree.isElement_iff.mp here
  exact Tree.isElement_iff.mpr ⟨_, w.element?_apply found⟩

/-- An edit that leaves a node alone does not change what it is. -/
theorem element?_apply_of_spares (w : Edit) (spared : w.Spares t id) :
    (w.apply t).element? id = t.element? id := by
  cases w with
  | create data =>
    exact congrArg (·.bind NodeData.element?) (t.forest.data?_create data spared)
  | append parent child =>
    exact congrArg (·.bind NodeData.element?) (data?_append parent child)
  | detach child => exact congrArg (·.bind NodeData.element?) (data?_detach child)
  | write target w =>
    rw [apply, getD_write]
    cases found : t.element? target with
    | none => rfl
    | some old =>
      exact (Tree.element?_put (Tree.isElement_iff.mpr ⟨old, found⟩) id).trans (if_neg spared)
  | observe enabled => rfl
  | takeJournal => rfl

/-- The nodes that an edit brings into being. -/
def births : Edit → Nat
  | create _ => 1
  | _ => 0

theorem size_apply (w : Edit) (t : Tree) : (w.apply t).size = t.size + w.births := by
  cases w with
  | create data => exact Array.size_push ..
  | append parent child =>
    rw [apply, Tree.append]
    split
    · rfl
    · split
      · rfl
      · split
        · rfl
        · exact (Forest.SameNodes.append t.forest parent child).size
  | detach child =>
    rw [apply, Tree.detach]
    split
    · rfl
    · split
      · rfl
      · exact (Forest.SameNodes.unlink t.forest child).size
  | write target w =>
    rw [apply, getD_write]
    split
    · rfl
    · exact Tree.size_put
  | observe enabled => rfl
  | takeJournal => rfl

/-- The element that an edit brings into being. -/
def born? : Edit → Option Element
  | create data => data.element?
  | _ => none

/-- Without writes to elements, an edit leaves all nodes as they are and may bring one in. -/
theorem element?_apply_of_isStructural {w : Edit} (structural : w.IsStructural) (t : Tree)
    (id : NodeId) :
    (w.apply t).element? id = if id = ⟨t.size⟩ then w.born? else t.element? id := by
  have absent (new : id = ⟨t.size⟩) : t.element? id = none := new ▸ t.element?_size
  have spared (unborn : w.born? = none) (spared : w.Spares t id) :
      (w.apply t).element? id = if id = ⟨t.size⟩ then w.born? else t.element? id := by
    rw [w.element?_apply_of_spares spared, unborn]
    split
    · exact absent ‹_›
    · rfl
  cases w with
  | create data =>
    split
    · rename_i new
      subst new
      have pushed : (t.forest.create data).2.get? ⟨t.size⟩ = some { data } :=
        Array.getElem?_push_size
      exact congrArg (fun n => (n.map (·.data)).bind NodeData.element?) pushed
    · rename_i old
      exact element?_apply_of_spares (.create data) old
  | write _ _ => cases structural
  | append _ _ => exact spared rfl trivial
  | detach _ => exact spared rfl trivial
  | observe _ => exact spared rfl trivial
  | takeJournal => exact spared rfl trivial

theorem isElement_of_apply (w : Edit) (old : id ≠ ⟨t.size⟩) :
    (w.apply t).isElement id = t.isElement id := by
  have unwritten (structural : w.IsStructural) :
      (w.apply t).isElement id = t.isElement id := by
    rw [Tree.isElement, element?_apply_of_isStructural structural, if_neg old]
    rfl
  cases w with
  | write here w => exact (sameFrame_write here w).isElement id
  | _ => exact unwritten trivial

/-! ## What an edit keeps -/

theorem IsStructural.keeps {w : Edit} (structural : w.IsStructural) (id : NodeId) (name : String) :
    w.Keeps id name := by
  cases w with
  | write _ _ => cases structural
  | _ => trivial

theorem get?_onElement (w : Edit) {name : String} (kept : w.Keeps id name) :
    (w.onElement id e).get? name = e.get? name := by
  cases w with
  | write target w =>
    rw [onElement]
    split
    · rename_i same
      exact w.get?_run e (kept same).symm
    · rfl
  | _ => rfl

/-- An edit that does not write to an attribute leaves it as it is on all nodes, but for one that it may
bring into being. -/
theorem attribute?_apply (w : Edit) {name : String} (kept : w.Keeps id name) (t : Tree) :
    (w.apply t).attribute? id name =
      if id = ⟨t.size⟩ then w.born?.bind (·.get? name) else t.attribute? id name := by
  have unwritten (structural : w.IsStructural) : (w.apply t).attribute? id name =
      if id = ⟨t.size⟩ then w.born?.bind (·.get? name) else t.attribute? id name := by
    rw [Tree.attribute?, element?_apply_of_isStructural structural]
    split <;> rfl
  cases w with
  | write here w =>
    have same : ((write here w).apply t).attribute? id name = t.attribute? id name := by
      rw [Tree.attribute?, Tree.attribute?]
      cases found : t.element? id with
      | none =>
        have absent : t.isElement id = false := by rw [Tree.isElement, found]; rfl
        rw [← (sameFrame_write here w).isElement id, Tree.isElement] at absent
        rw [Option.isSome_eq_false_iff, Option.isNone_iff_eq_none] at absent
        rw [absent]
      | some e =>
        rw [element?_apply _ found]
        exact get?_onElement _ kept
    rw [same]
    split
    · rename_i new
      rw [new, Tree.attribute?, t.element?_size]
      rfl
    · rfl
  | _ => exact unwritten trivial

theorem classes_onElement (w : Edit) (kept : w.Keeps id "class") :
    (w.onElement id e).classes = e.classes := by
  cases w with
  | write target w =>
    rw [onElement]
    split
    · rename_i same
      exact w.classes_run e (by simpa using kept same)
    · rfl
  | _ => rfl

theorem style_onElement (w : Edit) (kept : w.Keeps id "style") :
    (w.onElement id e).style = e.style := by
  cases w with
  | write target w =>
    rw [onElement]
    split
    · rename_i same
      exact w.style_run e (by simpa using kept same)
    · rfl
  | _ => rfl

end Edit

end NoiseFilter
