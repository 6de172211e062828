import NoiseFilter.Proofs.Record.Act
import NoiseFilter.Proofs.Record.Blind
import NoiseFilter.Proofs.Tree.Style

/-!
# Elements under their marks

An element that the host has given is worn down by marks and brought back by them: its class list,
its style and the attribute that names rules follow from what the host gave and from the entries on
it, and from nothing else. Which entries were there before, in which order they came and what was
written for them leaves no trace (`Worn.alike`). For the style this needs colours that can be
written down and read back.
-/

namespace NoiseFilter

/-! ## Styles with another colour -/

namespace InlineStyle

/-- The style with another colour, or with none. -/
def tinted (s : InlineStyle) : Option String → InlineStyle
  | some color => s.set colorProperty color
  | none => s.erase colorProperty

theorem tinted_own (s : InlineStyle) : s.tinted (s.get? colorProperty) = s := by
  cases own : s.get? colorProperty with
  | none => exact congrArg InlineStyle.mk (NamedValues.erase_of_absent own)
  | some color => exact congrArg InlineStyle.mk (NamedValues.set_of_there own)

/-- Of two colours the later one counts, unless the first was to take away the colour of the style.
-/
theorem tinted_tinted {s : InlineStyle} {color : Option String}
    (keeps : color = none → s.get? colorProperty = none) (color' : Option String) :
    (s.tinted color).tinted color' = s.tinted color' := by
  cases color with
  | none =>
    have same : s.tinted none = s :=
      congrArg InlineStyle.mk (NamedValues.erase_of_absent (keeps rfl))
    rw [same]
  | some color =>
    cases color' with
    | none => exact congrArg InlineStyle.mk (NamedValues.erase_set ..)
    | some color' => exact congrArg InlineStyle.mk (NamedValues.set_set ..)

end InlineStyle

/-- A value that can be written into a declaration and read back. -/
def IsPlainValue (value : String) : Prop := Text.IsTrimmed value ∧ ';' ∉ value.toList

instance (value : String) : Decidable (IsPlainValue value) :=
  inferInstanceAs (Decidable (Text.IsTrimmed value ∧ ';' ∉ value.toList))

theorem IsPlainValue.color {value : String} (plain : IsPlainValue value) :
    NamedValue.IsPlain ⟨Text.lower colorProperty, value⟩ := by
  have name : Text.IsTrimmed (Text.lower colorProperty) := by decide +kernel
  have chars :
      ':' ∉ (Text.lower colorProperty).toList ∧ ';' ∉ (Text.lower colorProperty).toList := by
    decide +kernel
  exact ⟨name, chars.1, chars.2, plain.1, plain.2⟩

/-- The colour that an element has from the host is plain. -/
theorem Element.StyleParsed.isPlainValue {e : Element} (parsed : e.StyleParsed) {value : String}
    (there : e.style.get? colorProperty = some value) : IsPlainValue value := by
  obtain ⟨d, found, rfl⟩ := Option.map_eq_some_iff.mp there
  have plain := parsed.isPlain d (List.mem_of_find?_eq_some found)
  exact ⟨plain.value, plain.valueEnds⟩

namespace Draft

variable {d : Draft}

theorem style_withColor (d : Draft) (color : Option String) :
    (d.withColor color).element.style = d.element.style.tinted color := by
  unfold withColor
  split
  · rename_i same
    rw [← same, InlineStyle.tinted_own]
  · cases color with
    | none => exact Element.style_storeStyle _
    | some color => exact Element.style_storeStyle _

theorem styleParsed_restoreAttribute (parsed : d.element.StyleParsed) (name : String)
    (value : Option String) : (d.restoreAttribute name value).element.StyleParsed := by
  unfold restoreAttribute
  split
  · exact parsed
  · cases value with
    | none => exact parsed.erase name
    | some value => exact parsed.set name value

theorem styleParsed_foldl {step : Draft → String → Draft}
    (each : ∀ d cls, d.element.StyleParsed → (step d cls).element.StyleParsed)
    (parsed : d.element.StyleParsed) (classes : List String) :
    (classes.foldl step d).element.StyleParsed := by
  induction classes generalizing d with
  | nil => exact parsed
  | cons cls rest ih => exact ih (each d cls parsed)

theorem styleParsed_exchange (parsed : d.element.StyleParsed) (added wanted : List String) :
    (d.exchange added wanted).element.StyleParsed := by
  refine styleParsed_foldl (fun d cls parsed => ?_)
    (styleParsed_foldl (fun d cls parsed => ?_) parsed _) _
  · rw [withClass]
    split
    · exact parsed
    · exact parsed.storeClasses _
  · rw [withoutClass]
    split
    · exact parsed.storeClasses _
    · exact parsed

theorem styleParsed_withColor (parsed : d.element.StyleParsed) {color : Option String}
    (plain : ∀ c, color = some c → IsPlainValue c) :
    (d.withColor color).element.StyleParsed := by
  unfold withColor
  split
  · exact parsed
  · cases color with
    | none => exact parsed.removeStyle colorProperty
    | some color => exact parsed.setStyle (plain color rfl).color

theorem styleParsed_withMarker (parsed : d.element.StyleParsed) (marker value : String) :
    (d.withMarker marker value).element.StyleParsed := by
  rw [withMarker]
  split
  · exact parsed
  · exact parsed.set marker value

/-- Marks leave a style that is what its attribute reads as. -/
theorem styleParsed_reconcile (parsed : d.element.StyleParsed) (marker : String) {n : NodeRecord}
    (plain : ∀ c, n.wantedColor = some c → IsPlainValue c) :
    (d.reconcile marker n).element.StyleParsed := by
  rw [reconcile]
  split
  · exact styleParsed_restoreAttribute (styleParsed_restoreAttribute
      (styleParsed_restoreAttribute parsed _ _) _ _) _ _
  · exact styleParsed_withMarker (styleParsed_withColor (styleParsed_exchange parsed _ _) plain) _ _

end Draft

namespace Record

/-- An entry whose class and whose colour can be written down and read back. -/
structure IsPlain (c : Classification) : Prop where
  word : Text.IsWord c.cls
  color : ∀ color, c.color = some color → IsPlainValue color

/-! ## What marks make of an element -/

/-- An element is what marks for the entries on it make of the element that the host gave. -/
structure Worn (marker : String) (given : Element) (n : Option NodeRecord) (e : Element) :
    Prop where
  order : InOrder n e
  styleParsed : e.StyleParsed
  /-- Without entries it reads as the host gave it. -/
  bare : n = none → e.get? "class" = given.get? "class" ∧ e.get? "style" = given.get? "style" ∧
    e.get? marker = given.get? marker
  marked : ∀ m, n = some m → m.baseline = .ofElement given marker ∧
    e.style = given.style.tinted m.wantedColor ∧ e.get? marker = m.entries.getLast?.map (·.ruleId)

namespace Worn

variable {marker : String} {given e e' : Element} {n n' : Option NodeRecord}

theorem start (parsed : e.Parsed) (styleParsed : e.StyleParsed) : Worn marker e none e :=
  ⟨⟨parsed, fun _ found => (by cases found), fun _ found => (by cases found)⟩, styleParsed,
    fun _ => ⟨rfl, rfl, rfl⟩, fun _ found => (by cases found)⟩

/-- Writes to other attributes do not wear an element down. -/
theorem of_same (worn : Worn marker given n e) (classes : e'.classes = e.classes)
    (style : e'.style = e.style) (classText : e'.get? "class" = e.get? "class")
    (styleText : e'.get? "style" = e.get? "style") (named : e'.get? marker = e.get? marker) :
    Worn marker given n e' := by
  obtain ⟨⟨parsed, baseline, agree⟩, styleParsed, bare, marked⟩ := worn
  refine ⟨⟨parsed.of_same classes classText, baseline, fun m found =>
    (agree m found).of_same classes classText⟩, styleParsed.of_same style styleText,
    fun unrecorded => ?_, fun m found => ?_⟩
  · rw [classText, styleText, named]
    exact bare unrecorded
  · rw [style, named]
    exact marked m found

section

variable (worn : Worn marker given n e) (parsed : given.Parsed) (styleParsed : given.StyleParsed)

include worn parsed styleParsed

/-- Without entries an element has the class list and the style that the host gave it. -/
theorem eq_given (unrecorded : n = none) : e.classes = given.classes ∧ e.style = given.style := by
  obtain ⟨classText, styleText, -⟩ := worn.bare unrecorded
  have parsedNow : e.classes = .ofString ((e.get? "class").getD "") := worn.order.parsed
  have styleParsedNow : e.style = .ofString ((e.get? "style").getD "") := worn.styleParsed
  rw [classText] at parsedNow
  rw [styleText] at styleParsedNow
  exact ⟨parsedNow.trans parsed.symm, styleParsedNow.trans styleParsed.symm⟩

/-- An element that is marked anew keeps the baseline that the host gave it. -/
theorem baseline_renewed (entries : List Classification) :
    (renewed marker n e entries).baseline = .ofElement given marker := by
  cases recorded : n with
  | none =>
    obtain ⟨classes, style⟩ := worn.eq_given parsed styleParsed recorded
    obtain ⟨classText, styleText, named⟩ := worn.bare recorded
    show Baseline.ofElement e marker = .ofElement given marker
    simp only [Baseline.ofElement, classes, style, classText, styleText, named]
  | some m => exact (worn.marked m recorded).1

/-- Another colour on an element is another colour on what the host gave. -/
theorem tinted_style (color : Option String) : e.style.tinted color = given.style.tinted color := by
  cases recorded : n with
  | none => rw [(worn.eq_given parsed styleParsed recorded).2]
  | some m =>
    obtain ⟨baseline, style, -⟩ := worn.marked m recorded
    rw [style]
    refine InlineStyle.tinted_tinted (fun colourless => ?_) color
    rw [NodeRecord.wantedColor, baseline] at colourless
    exact (Option.or_eq_none_iff.mp colourless).2

/-- The colours that marks write are plain, whether they come from an entry or from the host. -/
theorem plain_wantedColor {entries : List Classification} (plain : ∀ x ∈ entries, IsPlain x)
    (color : String) (wanted : (renewed marker n e entries).wantedColor = some color) :
    IsPlainValue color := by
  rw [NodeRecord.wantedColor, worn.baseline_renewed parsed styleParsed,
    Option.or_eq_some_iff] at wanted
  rcases wanted with entry | ⟨-, own⟩
  · obtain ⟨x, there, tinted⟩ := List.exists_of_findSome?_eq_some entry
    exact (plain x (List.mem_reverse.mp there)).color color tinted
  · exact styleParsed.isPlainValue own

/-- When the last entry is gone the texts are those that the host gave. -/
theorem get?_remarked_nil (notClass : Text.lower marker ≠ "class")
    (notStyle : Text.lower marker ≠ "style") :
    (remarked marker n e []).element.get? "class" = given.get? "class" ∧
      (remarked marker n e []).element.get? "style" = given.get? "style" ∧
      (remarked marker n e []).element.get? marker = given.get? marker := by
  have restore : remarked marker n e [] =
      Draft.restore { element := e } marker (renewed marker n e []).baseline := rfl
  rw [restore, worn.baseline_renewed parsed styleParsed]
  simp [Draft.get?_restore, Baseline.ofElement, notClass, notStyle]

/-- With entries the colour is the one that they ask for, and the last of them is named. -/
theorem remarked_of_ne_nil (notStyle : Text.lower marker ≠ "style") {entries : List Classification}
    (filled : entries ≠ []) :
    (remarked marker n e entries).element.style =
        given.style.tinted (renewed marker n e entries).wantedColor ∧
      (remarked marker n e entries).element.get? marker = entries.getLast?.map (·.ruleId) := by
  have written := Draft.reconcile_of_ne_nil { element := e } marker
    (n := renewed marker n e entries) filled
  constructor
  · rw [remarked, written, Draft.style_withMarker _ _ _ notStyle, Draft.style_withColor,
      (Draft.classesOnly_exchange _ _ _).style]
    exact worn.tinted_style parsed styleParsed _
  · exact Draft.get?_reconcile_marker _ marker (n := renewed marker n e entries) filled

/-- An operation that leaves plain entries leaves an element that is what marks for them make of
what the host gave. -/
theorem turn (notClass : Text.lower marker ≠ "class") (notStyle : Text.lower marker ≠ "style")
    {change : Option (List Classification)} {after : Option Element}
    (plain : ∀ entries, change = some entries → ∀ x ∈ entries, IsPlain x)
    (turn : Turn marker change n (some e) n' after) :
    ∃ left, after = some left ∧ Worn marker given n' left := by
  obtain ⟨left, same, order⟩ := worn.order.turn notClass
    (fun entries changed x there => (plain entries changed x there).word) turn
  cases turn with
  | left _ record element =>
    exact ⟨e, element, record ▸ worn⟩
  | marked entries old changed before record after =>
    cases before
    cases same.symm.trans after
    refine ⟨_, same, order, Draft.styleParsed_reconcile worn.styleParsed marker
      (worn.plain_wantedColor parsed styleParsed (plain entries changed)), fun gone => ?_,
      fun m found => ?_⟩
    · rw [record, kept] at gone
      split at gone
      · rename_i empty
        subst empty
        exact worn.get?_remarked_nil parsed styleParsed notClass notStyle
      · cases gone
    · rw [record, kept] at found
      split at found
      · cases found
      · rename_i filled
        cases found
        exact ⟨worn.baseline_renewed parsed styleParsed entries,
          worn.remarked_of_ne_nil parsed styleParsed notStyle filled⟩

end

end Worn

/-- Two elements that show alike: the same set of classes, the same style and the same name of a
rule, or the same text in its place. -/
structure ShowAlike (marker : String) (e e' : Element) : Prop where
  classes : ∀ c, c ∈ e.classes.tokens ↔ c ∈ e'.classes.tokens
  style : e.style = e'.style
  named : e.get? marker = e'.get? marker

/-- What marks make of an element follows from the entries. -/
theorem Worn.alike {marker : String} {given e e' : Element} {n n' : Option NodeRecord}
    (worn : Worn marker given n e) (worn' : Worn marker given n' e') (parsed : given.Parsed)
    (styleParsed : given.StyleParsed) (recorded : n.isSome = n'.isSome)
    (entries : entriesOf n = entriesOf n') : ShowAlike marker e e' := by
  cases n with
  | none =>
    cases n' with
    | some m' => cases recorded
    | none =>
      obtain ⟨classes, style⟩ := worn.eq_given parsed styleParsed rfl
      obtain ⟨classes', style'⟩ := worn'.eq_given parsed styleParsed rfl
      obtain ⟨-, -, named⟩ := worn.bare rfl
      obtain ⟨-, -, named'⟩ := worn'.bare rfl
      exact ⟨fun c => by rw [classes, classes'], style.trans style'.symm, named.trans named'.symm⟩
  | some m =>
    cases n' with
    | none => cases recorded
    | some m' =>
      obtain ⟨baseline, style, named⟩ := worn.marked m rfl
      obtain ⟨baseline', style', named'⟩ := worn'.marked m' rfl
      have same : m.entries = m'.entries := entries
      refine ⟨fun c => ?_, ?_, ?_⟩
      · rw [(worn.order.agree m rfl).tokens, (worn'.order.agree m' rfl).tokens, baseline, baseline',
          same]
      · rw [style, style', NodeRecord.wantedColor, NodeRecord.wantedColor, baseline, baseline',
          same]
      · rw [named, named', same]

end Record

end NoiseFilter
