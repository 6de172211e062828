import NoiseFilter.Proofs.Record.Reconcile

/-!
# What marks read

For each mark that is written to a draft: what the class list, the style and the attributes read
afterwards. Classes show in the attribute `class` only (`ClassesOnly`), the colour in `style` only,
and the name of the rule in the marker only, unless the marker is one of the other two itself.
-/

namespace NoiseFilter

/-- The declarations of a style other than that of the colour. -/
def InlineStyle.otherDeclarations (s : InlineStyle) : List NamedValue :=
  s.declarations.entries.filter (·.name != colorProperty)

namespace Draft

variable (d : Draft)

/-! ## Attributes given back -/

theorem get?_restoreAttribute (name : String) (value : Option String) (other : String) :
    (d.restoreAttribute name value).element.get? other =
      if Text.lower name = Text.lower other then value else d.element.get? other := by
  unfold restoreAttribute
  split
  · rename_i unchanged
    split
    · rename_i same
      rw [← unchanged, d.element.get?_congr same]
    · rfl
  · cases value with
    | none => exact d.element.get?_erase name other
    | some value => exact d.element.get?_set name value other

theorem get?_restore (marker : String) (b : Baseline) (other : String) :
    (d.restore marker b).element.get? other =
      if Text.lower marker = Text.lower other then b.marker
      else if "style" = Text.lower other then b.styleText
      else if "class" = Text.lower other then b.classText
      else d.element.get? other := by
  simp only [restore, get?_restoreAttribute, Element.lower_class, Element.lower_style]

@[simp] theorem name_restoreAttribute (name : String) (value : Option String) :
    (d.restoreAttribute name value).element.name = d.element.name := by
  unfold restoreAttribute
  split
  · rfl
  · cases value with
    | none => exact d.element.name_erase name
    | some value => exact d.element.name_set name value

theorem classes_restoreAttribute_of_ne {name : String} (other : Text.lower name ≠ "class")
    (value : Option String) :
    (d.restoreAttribute name value).element.classes = d.element.classes := by
  unfold restoreAttribute
  split
  · rfl
  · cases value with
    | none => exact (d.element.classes_erase name).trans (if_neg fun both => other both.1)
    | some value => exact (d.element.classes_set name value).trans (if_neg other)

/-- The class list is read anew from a text that differs. -/
theorem classes_restoreAttribute_class (value : Option String) :
    (d.restoreAttribute "class" value).element.classes =
      if d.element.get? "class" = value then d.element.classes
      else .ofString (value.getD "") := by
  unfold restoreAttribute
  split
  · rfl
  · rename_i differs
    cases value with
    | none =>
      have there : d.element.has "class" = true := Option.isSome_iff_ne_none.mpr differs
      exact (d.element.classes_erase "class").trans (if_pos ⟨Element.lower_class, there⟩)
    | some value =>
      exact (d.element.classes_set "class" value).trans (if_pos Element.lower_class)

theorem classes_restore {marker : String} (notClass : Text.lower marker ≠ "class") (b : Baseline) :
    (d.restore marker b).element.classes =
      if d.element.get? "class" = b.classText then d.element.classes
      else .ofString (b.classText.getD "") := by
  rw [restore, classes_restoreAttribute_of_ne _ notClass,
    classes_restoreAttribute_of_ne _ (by simp), classes_restoreAttribute_class]

@[simp] theorem name_restore (marker : String) (b : Baseline) :
    (d.restore marker b).element.name = d.element.name := by
  simp [restore]

/-! ## Classes -/

/-- Between two drafts nothing but the class list was written, and the attribute that holds it. -/
structure ClassesOnly (d d' : Draft) : Prop where
  name : d'.element.name = d.element.name
  style : d'.element.style = d.element.style
  others : ∀ other, Text.lower other ≠ "class" → d'.element.get? other = d.element.get? other
  /-- Either nothing was written at all, or the attribute is the class list put into words. -/
  text : d'.element.get? "class" = d.element.get? "class" ∧
      d'.element.classes = d.element.classes ∨
    d'.element.get? "class" = d'.element.classes.text?

variable {d}

theorem ClassesOnly.refl : ClassesOnly d d := ⟨rfl, rfl, fun _ _ => rfl, .inl ⟨rfl, rfl⟩⟩

theorem ClassesOnly.trans {d' d'' : Draft} (left : ClassesOnly d d') (right : ClassesOnly d' d'') :
    ClassesOnly d d'' where
  name := right.name.trans left.name
  style := right.style.trans left.style
  others other h := (right.others other h).trans (left.others other h)
  text := by
    rcases right.text with ⟨sameText, sameClasses⟩ | written
    · rcases left.text with ⟨leftText, leftClasses⟩ | written
      · exact .inl ⟨sameText.trans leftText, sameClasses.trans leftClasses⟩
      · exact .inr (by rw [sameText, written, sameClasses])
    · exact .inr written

theorem ClassesOnly.of_foldl {step : Draft → String → Draft}
    (each : ∀ d cls, ClassesOnly d (step d cls)) (classes : List String) :
    ClassesOnly d (classes.foldl step d) := by
  induction classes generalizing d with
  | nil => exact .refl
  | cons cls rest ih => exact (each d cls).trans ih

/-- Writing any class list back touches the attribute `class` only. -/
theorem classesOnly_write (classes : Element → ClassList) :
    ClassesOnly d (d.write fun e => { e with classes := classes e }.storeClasses) where
  name := Element.name_storeClasses _
  style := Element.style_storeClasses _
  others other h := (Element.get?_storeClasses _ other).trans (if_neg h)
  text := .inr <| by
    rw [element_write, Element.get?_storeClasses, if_pos Element.lower_class,
      Element.classes_storeClasses]

theorem classesOnly_withoutClass (d : Draft) (cls : String) : ClassesOnly d (d.withoutClass cls) := by
  rw [withoutClass]
  split
  · exact classesOnly_write (·.classes.erase cls)
  · exact .refl

theorem classesOnly_withClass (d : Draft) (cls : String) : ClassesOnly d (d.withClass cls) := by
  rw [withClass]
  split
  · exact .refl
  · exact classesOnly_write (·.classes.insert cls)

theorem classesOnly_exchange (d : Draft) (added wanted : List String) :
    ClassesOnly d (d.exchange added wanted) :=
  (ClassesOnly.of_foldl classesOnly_withoutClass _).trans (.of_foldl classesOnly_withClass _)

theorem mem_withoutClass {cls c : String} :
    c ∈ (d.withoutClass cls).element.classes.tokens ↔ c ∈ d.element.classes.tokens ∧ c ≠ cls := by
  rw [withoutClass]
  split
  · rw [element_write, Element.removeClass, Element.classes_storeClasses, ClassList.mem_erase]
  · rename_i absent
    refine ⟨fun member => ⟨member, fun same => absent ?_⟩, And.left⟩
    exact ClassList.contains_eq_true.mpr (same ▸ member)

theorem mem_withClass {cls c : String} :
    c ∈ (d.withClass cls).element.classes.tokens ↔
      c ∈ d.element.classes.tokens ∨ c = cls ∧ c ≠ "" := by
  rw [withClass]
  split
  · rename_i there
    refine ⟨.inl, fun either => either.elim id fun new => ?_⟩
    exact new.1 ▸ ClassList.contains_eq_true.mp there
  · rw [element_write, Element.addClass, Element.classes_storeClasses, ClassList.mem_insert]

theorem mem_foldl_withoutClass {classes : List String} {c : String} :
    c ∈ (classes.foldl withoutClass d).element.classes.tokens ↔
      c ∈ d.element.classes.tokens ∧ c ∉ classes := by
  induction classes generalizing d with
  | nil => simp
  | cons cls rest ih => rw [List.foldl_cons, ih, mem_withoutClass, List.mem_cons, not_or, and_assoc]

theorem mem_foldl_withClass {classes : List String} {c : String} :
    c ∈ (classes.foldl withClass d).element.classes.tokens ↔
      c ∈ d.element.classes.tokens ∨ c ∈ classes ∧ c ≠ "" := by
  induction classes generalizing d with
  | nil => simp
  | cons cls rest ih =>
    rw [List.foldl_cons, ih, mem_withClass, List.mem_cons, or_assoc, or_and_right]

/-- What is no longer wanted goes, what is wanted comes, and all else stays. -/
theorem mem_exchange {added wanted : List String} {c : String} :
    c ∈ (d.exchange added wanted).element.classes.tokens ↔
      (c ∈ d.element.classes.tokens ∧ ¬ (c ∈ added ∧ c ∉ wanted)) ∨ c ∈ wanted ∧ c ≠ "" := by
  rw [exchange, mem_foldl_withClass, mem_foldl_withoutClass]
  simp [List.mem_filter]

/-! ## Colour -/

section

variable (d) (color : Option String)

theorem color_withColor : (d.withColor color).element.style.get? colorProperty = color := by
  unfold withColor
  split
  · assumption
  · cases color with
    | none =>
      rw [element_write, Element.removeStyle, Element.style_storeStyle]
      exact (d.element.style.declarations.get?_erase _ _).trans (if_pos rfl)
    | some color =>
      rw [element_write, Element.setStyle, Element.style_storeStyle]
      exact (d.element.style.declarations.get?_set _ _ _).trans (if_pos rfl)

theorem otherDeclarations_withColor :
    (d.withColor color).element.style.otherDeclarations = d.element.style.otherDeclarations := by
  have lowered : Text.lower colorProperty = colorProperty := by decide
  unfold withColor
  split
  · rfl
  · cases color with
    | none =>
      rw [element_write, Element.removeStyle, Element.style_storeStyle]
      have same := d.element.style.declarations.filter_erase colorProperty
      rwa [lowered] at same
    | some color =>
      rw [element_write, Element.setStyle, Element.style_storeStyle]
      have same := d.element.style.declarations.filter_set colorProperty color
      rwa [lowered] at same

@[simp] theorem classes_withColor : (d.withColor color).element.classes = d.element.classes := by
  unfold withColor
  split
  · rfl
  · cases color <;> exact Element.classes_storeStyle _

@[simp] theorem name_withColor : (d.withColor color).element.name = d.element.name := by
  unfold withColor
  split
  · rfl
  · cases color <;> exact Element.name_storeStyle _

theorem get?_withColor_of_ne {other : String} (notStyle : Text.lower other ≠ "style") :
    (d.withColor color).element.get? other = d.element.get? other := by
  unfold withColor
  split
  · rfl
  · cases color <;> exact (Element.get?_storeStyle _ other).trans (if_neg notStyle)

end

/-! ## Marker -/

section

variable (d) (marker value : String)

theorem get?_withMarker (other : String) :
    (d.withMarker marker value).element.get? other =
      if Text.lower marker = Text.lower other then some value else d.element.get? other := by
  rw [withMarker]
  split
  · rename_i named
    split
    · rename_i same
      rw [← d.element.get?_congr same, named]
    · rfl
  · exact d.element.get?_set marker value other

@[simp] theorem name_withMarker : (d.withMarker marker value).element.name = d.element.name := by
  rw [withMarker]
  split
  · rfl
  · exact d.element.name_set marker value

theorem classes_withMarker (notClass : Text.lower marker ≠ "class") :
    (d.withMarker marker value).element.classes = d.element.classes := by
  rw [withMarker]
  split
  · rfl
  · exact (d.element.classes_set marker value).trans (if_neg notClass)

theorem style_withMarker (notStyle : Text.lower marker ≠ "style") :
    (d.withMarker marker value).element.style = d.element.style := by
  rw [withMarker]
  split
  · rfl
  · exact (d.element.style_set marker value).trans (if_neg notStyle)

end

/-! ## All marks -/

/-- Marks show in three attributes at most. -/
theorem get?_reconcile_of_ne (d : Draft) (marker : String) (n : NodeRecord) {other : String}
    (notClass : Text.lower other ≠ "class") (notStyle : Text.lower other ≠ "style")
    (notMarker : Text.lower other ≠ Text.lower marker) :
    (d.reconcile marker n).element.get? other = d.element.get? other := by
  rw [reconcile]
  split
  · rw [get?_restore, if_neg notMarker.symm, if_neg notStyle.symm, if_neg notClass.symm]
  · rw [get?_withMarker, if_neg notMarker.symm, get?_withColor_of_ne _ _ notStyle]
    exact (classesOnly_exchange _ _ _).others other notClass

/-- The marker names the rule of the last entry. -/
theorem get?_reconcile_marker (d : Draft) (marker : String) {n : NodeRecord}
    (filled : n.entries ≠ []) :
    (d.reconcile marker n).element.get? marker = n.entries.getLast?.map (·.ruleId) := by
  rw [reconcile_of_ne_nil d marker filled, get?_withMarker, if_pos rfl,
    List.getLast?_eq_some_getLast filled]
  rfl

@[simp] theorem name_reconcile (d : Draft) (marker : String) (n : NodeRecord) :
    (d.reconcile marker n).element.name = d.element.name := by
  rw [reconcile]
  split
  · exact d.name_restore _ _
  · rw [name_withMarker, name_withColor]
    exact (classesOnly_exchange _ _ _).name

end Draft

end NoiseFilter
