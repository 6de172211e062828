import NoiseFilter.Proofs.Tree.NamedValues
import NoiseFilter.Tree.Element

/-!
# What a write to an element changes

For each write to an element: what its attributes, its class list and its style read afterwards.
A write to the class list shows in the attribute `class` and nowhere else, one to the style in the
attribute `style` and nowhere else, and one to any other attribute in that attribute alone.
-/

namespace NoiseFilter

/-! ## Class lists -/

namespace ClassList

theorem mem_insert {l : ClassList} {token c : String} :
    c ∈ (l.insert token).tokens ↔ c ∈ l.tokens ∨ c = token ∧ c ≠ "" := by
  rw [insert]
  split
  · rename_i skip
    constructor
    · exact .inl
    · rintro (old | ⟨rfl, filled⟩)
      · exact old
      · exact skip.resolve_left filled
  · rename_i fresh
    rw [List.mem_append, List.mem_singleton]
    refine or_congr_right ⟨fun same => ⟨same, fun empty => ?_⟩, And.left⟩
    exact fresh (.inl (same.symm.trans empty))

theorem mem_erase {l : ClassList} {token c : String} :
    c ∈ (l.erase token).tokens ↔ c ∈ l.tokens ∧ c ≠ token := by
  simp [erase, eraseAll]

theorem contains_eq_true {l : ClassList} {token : String} :
    l.contains token = true ↔ token ∈ l.tokens := by
  simp [contains]

end ClassList

namespace Element

/-! ## Attributes -/

@[simp] theorem lower_class : Text.lower "class" = "class" := by decide

@[simp] theorem lower_style : Text.lower "style" = "style" := by decide

theorem get?_congr (e : Element) {name other : String} (same : Text.lower name = Text.lower other) :
    e.get? name = e.get? other :=
  e.raw.get?_congr same

theorem get?_store (e : Element) (name : String) (text : Option String) (other : String) :
    (e.store name text).get? other =
      if Text.lower name = Text.lower other then text else e.get? other := by
  cases text with
  | none => exact e.raw.get?_erase name other
  | some value => exact e.raw.get?_set name value other

@[simp] theorem classes_store (e : Element) (name : String) (text : Option String) :
    (e.store name text).classes = e.classes := by
  cases text <;> rfl

@[simp] theorem style_store (e : Element) (name : String) (text : Option String) :
    (e.store name text).style = e.style := by
  cases text <;> rfl

@[simp] theorem name_store (e : Element) (name : String) (text : Option String) :
    (e.store name text).name = e.name := by
  cases text <;> rfl

@[simp] theorem get?_reread (e : Element) (name text other : String) :
    (e.reread name text).get? other = e.get? other := by
  rw [reread]
  split
  · rfl
  · split <;> rfl

theorem classes_reread (e : Element) (name text : String) :
    (e.reread name text).classes =
      if Text.lower name = "class" then .ofString text else e.classes := by
  rw [reread]
  split
  · rfl
  · split <;> rfl

theorem style_reread (e : Element) (name text : String) :
    (e.reread name text).style =
      if Text.lower name = "style" then .ofString text else e.style := by
  rw [reread]
  split
  · rename_i isClass
    simp [isClass]
  · split <;> rfl

@[simp] theorem name_reread (e : Element) (name text : String) :
    (e.reread name text).name = e.name := by
  rw [reread]
  split
  · rfl
  · split <;> rfl

theorem get?_set (e : Element) (name value other : String) :
    (e.set name value).get? other =
      if Text.lower name = Text.lower other then some value else e.get? other := by
  rw [set, get?_store, get?_reread]

theorem classes_set (e : Element) (name value : String) :
    (e.set name value).classes =
      if Text.lower name = "class" then .ofString value else e.classes := by
  rw [set, classes_store, classes_reread]

theorem style_set (e : Element) (name value : String) :
    (e.set name value).style =
      if Text.lower name = "style" then .ofString value else e.style := by
  rw [set, style_store, style_reread]

theorem get?_erase (e : Element) (name other : String) :
    (e.erase name).get? other =
      if Text.lower name = Text.lower other then none else e.get? other := by
  rw [erase]
  split
  · rw [get?_store, get?_reread]
  · rename_i absent
    split
    · rename_i same
      rw [← e.get?_congr same]
      simpa [has] using absent
    · rfl

/-- An attribute that is removed leaves an empty class list behind only if it was there. -/
theorem classes_erase (e : Element) (name : String) :
    (e.erase name).classes =
      if Text.lower name = "class" ∧ e.has name then .ofString "" else e.classes := by
  rw [erase]
  split
  · rename_i there
    simp [classes_reread, there]
  · rename_i absent
    simp [absent]

theorem style_erase (e : Element) (name : String) :
    (e.erase name).style =
      if Text.lower name = "style" ∧ e.has name then .ofString "" else e.style := by
  rw [erase]
  split
  · rename_i there
    simp [style_reread, there]
  · rename_i absent
    simp [absent]

@[simp] theorem name_set (e : Element) (name value : String) : (e.set name value).name = e.name := by
  rw [set, name_store, name_reread]

@[simp] theorem name_erase (e : Element) (name : String) : (e.erase name).name = e.name := by
  rw [erase]
  split
  · rw [name_store, name_reread]
  · rfl

/-! ## Classes -/

theorem get?_storeClasses (e : Element) (other : String) :
    e.storeClasses.get? other =
      if Text.lower other = "class" then e.classes.text? else e.get? other := by
  rw [storeClasses, get?_store, lower_class]
  simp only [eq_comm]

@[simp] theorem classes_storeClasses (e : Element) : e.storeClasses.classes = e.classes :=
  e.classes_store _ _

@[simp] theorem style_storeClasses (e : Element) : e.storeClasses.style = e.style :=
  e.style_store _ _

@[simp] theorem name_storeClasses (e : Element) : e.storeClasses.name = e.name :=
  e.name_store _ _

/-! ## Style -/

theorem get?_storeStyle (e : Element) (other : String) :
    e.storeStyle.get? other =
      if Text.lower other = "style" then e.style.text? else e.get? other := by
  rw [storeStyle, get?_store, lower_style]
  simp only [eq_comm]

@[simp] theorem classes_storeStyle (e : Element) : e.storeStyle.classes = e.classes :=
  e.classes_store _ _

@[simp] theorem style_storeStyle (e : Element) : e.storeStyle.style = e.style :=
  e.style_store _ _

@[simp] theorem name_storeStyle (e : Element) : e.storeStyle.name = e.name :=
  e.name_store _ _

end Element

end NoiseFilter
