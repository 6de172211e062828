import NoiseFilter.Proofs.Tree.Element
import NoiseFilter.Tree.Basic

/-!
# Writes to one element of a tree

A write to an element changes that element and the count of writes, and nothing else of the tree. A
sequence of writes to one element is therefore a `Draft` of it, the element as it stands and the
number of writes made so far, which `Tree.put` lays into the tree. What follows from a sequence of
writes can then be found out on the draft, without a tree.
-/

namespace NoiseFilter

/-! ## One node of a forest -/

namespace Forest

variable {α : Type} (f : Forest α) (id : NodeId) (g : Node α → Node α)

theorem get?_modify (other : NodeId) :
    (f.modify id g).get? other = if other = id then (f.get? other).map g else f.get? other := by
  rw [modify, get?, get?, Array.getElem?_modify]
  by_cases same : other = id
  · simp [same]
  · have different : id.index ≠ other.index := fun index =>
      same (by cases id; cases other; exact congrArg NodeId.mk index.symm)
    simp [same, different]

@[simp] theorem size_modify : (f.modify id g).size = f.size :=
  Array.size_modify

variable (h : α → α)

@[simp] theorem size_modifyData : (f.modifyData id h).size = f.size :=
  f.size_modify id _

@[simp] theorem target?_modifyData (link : Link) (other : NodeId) :
    (f.modifyData id h).target? link other = f.target? link other := by
  rw [target?, target?, modifyData, get?_modify]
  split
  · cases f.get? other <;> cases link <;> rfl
  · rfl

theorem data?_modifyData (other : NodeId) :
    (f.modifyData id h).data? other =
      if other = id then (f.data? other).map h else f.data? other := by
  rw [data?, data?, modifyData, get?_modify]
  split
  · cases f.get? other <;> rfl
  · rfl

theorem modifyData_modifyData (h' : α → α) :
    (f.modifyData id h).modifyData id h' = f.modifyData id (h' ∘ h) := by
  have same : ((f.modifyData id h).modifyData id h').nodes = (f.modifyData id (h' ∘ h)).nodes := by
    apply Array.ext_getElem?
    intro i
    simp only [modifyData, modify, Array.getElem?_modify]
    split
    · cases f.nodes[i]? <;> rfl
    · rfl
  cases left : (f.modifyData id h).modifyData id h'
  cases right : f.modifyData id (h' ∘ h)
  rw [left, right] at same
  exact congrArg Forest.mk same

theorem modifyData_eq_self (x : α) (here : f.data? id = some x) (fixed : h x = x) :
    f.modifyData id h = f := by
  have same : (f.modifyData id h).nodes = f.nodes := by
    apply Array.ext_getElem?
    intro i
    rw [modifyData, modify, Array.getElem?_modify]
    split
    · rename_i index
      subst index
      obtain ⟨n, found, data⟩ := Option.map_eq_some_iff.mp here
      have found : f.nodes[id.index]? = some n := found
      subst data
      simp [found, fixed]
    · rfl
  cases f
  exact congrArg Forest.mk same

end Forest

/-! ## Drafts -/

/-- An element while it is written to, with the number of writes made. -/
structure Draft where
  element : Element
  writes : Nat := 0

/-- Make one more write. -/
def Draft.write (d : Draft) (f : Element → Element) : Draft := ⟨f d.element, d.writes + 1⟩

@[simp] theorem Draft.element_write (d : Draft) (f : Element → Element) :
    (d.write f).element = f d.element :=
  rfl

namespace Tree

variable {t : Tree} {id : NodeId} {d : Draft}

/-- Lay a draft into the tree, in place of an element. -/
def put (t : Tree) (id : NodeId) (d : Draft) : Tree :=
  { t with
    forest := t.forest.modifyData id fun _ => .element d.element
    generation := t.generation + d.writes }

theorem isElement_iff : t.isElement id = true ↔ ∃ e, t.element? id = some e :=
  Option.isSome_iff_exists

theorem attribute?_of_element? {e : Element} (here : t.element? id = some e) (name : String) :
    t.attribute? id name = e.get? name := by
  rw [attribute?, here]
  rfl

theorem attribute?_congr {t' : Tree} (same : t'.element? id = t.element? id) :
    t'.attribute? id = t.attribute? id := by
  funext name
  rw [attribute?, attribute?, same]

theorem data?_eq_of_element? {e : Element} (here : t.element? id = some e) :
    t.data? id = some (.element e) := by
  obtain ⟨data, found, element⟩ := Option.bind_eq_some_iff.mp here
  cases data <;> cases element
  exact found

/-- The elements of a tree can be looked through. -/
theorem forall_element? {P : Element → Prop}
    (each : ∀ n ∈ t.forest.nodes.toList, ∀ e ∈ n.data.element?, P e) {e : Element}
    (here : t.element? id = some e) : P e := by
  obtain ⟨data, found, element⟩ := Option.bind_eq_some_iff.mp here
  obtain ⟨n, there, rfl⟩ := Option.map_eq_some_iff.mp found
  exact each n (Array.mem_toList_iff.mpr (Array.mem_of_getElem? there)) e element

@[simp] theorem size_put : (t.put id d).size = t.size :=
  t.forest.size_modifyData _ _

@[simp] theorem target?_put (link : Forest.Link) (other : NodeId) :
    (t.put id d).forest.target? link other = t.forest.target? link other :=
  t.forest.target?_modifyData _ _ link other

theorem data?_put (here : t.isElement id = true) (other : NodeId) :
    (t.put id d).data? other = if other = id then some (.element d.element) else t.data? other := by
  rw [data?, put, Forest.data?_modifyData]
  split
  · rename_i same
    obtain ⟨e, found⟩ := isElement_iff.mp here
    have data : t.forest.data? other = some (.element e) := same ▸ data?_eq_of_element? found
    rw [data]
    rfl
  · rfl

theorem element?_put (here : t.isElement id = true) (other : NodeId) :
    (t.put id d).element? other = if other = id then some d.element else t.element? other := by
  rw [element?, data?_put here]
  split <;> rfl

@[simp] theorem isElement_put (here : t.isElement id = true) (other : NodeId) :
    (t.put id d).isElement other = t.isElement other := by
  rw [isElement, element?_put here]
  split
  · rename_i same
    exact (same ▸ here).symm
  · rfl

theorem put_put (d' : Draft) :
    (t.put id d).put id d' = t.put id ⟨d'.element, d.writes + d'.writes⟩ := by
  simp only [put, Forest.modifyData_modifyData, Nat.add_assoc]
  rfl

/-- An element that is laid in unchanged changes nothing. -/
theorem put_self {e : Element} (here : t.element? id = some e) : t.put id { element := e } = t := by
  have same : t.forest.modifyData id (fun _ => .element e) = t.forest :=
    t.forest.modifyData_eq_self id _ _ (data?_eq_of_element? here) rfl
  simp only [put, same, Nat.add_zero]

/-- A write to an element is a write to its draft. -/
theorem write_put (here : t.isElement id = true) (f : Element → Element) :
    (t.put id d).write id f = .ok (t.put id (d.write f)) := by
  have found : (t.put id d).data? id = some (.element d.element) := by
    rw [data?_put here, if_pos rfl]
  rw [write, found]
  exact congrArg Except.ok (put_put ⟨f d.element, 1⟩)

/-- A write to an element that stands in the tree. -/
theorem write_eq {e : Element} (here : t.element? id = some e) (f : Element → Element) :
    t.write id f = .ok (t.put id ⟨f e, 1⟩) := by
  have written := write_put (d := { element := e }) (isElement_iff.mpr ⟨e, here⟩) f
  rwa [put_self here] at written

/-- Between two trees nothing but elements was written: the nodes, their links and whatever is no
element are the same. -/
structure SameFrame (t t' : Tree) : Prop where
  size : t'.size = t.size
  target? : ∀ link id, t'.forest.target? link id = t.forest.target? link id
  isElement : ∀ id, t'.isElement id = t.isElement id
  data? : ∀ id, t.isElement id = false → t'.data? id = t.data? id
  journal : t'.journal = t.journal
  observing : t'.observing = t.observing

namespace SameFrame

theorem refl (t : Tree) : SameFrame t t :=
  ⟨rfl, fun _ _ => rfl, fun _ => rfl, fun _ _ => rfl, rfl, rfl⟩

theorem trans {t t' t'' : Tree} (left : SameFrame t t') (right : SameFrame t' t'') :
    SameFrame t t'' where
  size := right.size.trans left.size
  target? link id := (right.target? link id).trans (left.target? link id)
  isElement id := (right.isElement id).trans (left.isElement id)
  data? id other :=
    (right.data? id ((left.isElement id).trans other)).trans (left.data? id other)
  journal := right.journal.trans left.journal
  observing := right.observing.trans left.observing

theorem put (here : t.isElement id = true) : SameFrame t (t.put id d) where
  size := size_put
  target? := target?_put
  isElement := isElement_put here
  data? other text := by
    rw [data?_put here, if_neg]
    rintro rfl
    exact Bool.false_ne_true (text.symm.trans here)
  journal := rfl
  observing := rfl

end SameFrame

end Tree

end NoiseFilter
