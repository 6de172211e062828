import NoiseFilter.Proofs.Tree.Edit
import NoiseFilter.Proofs.Tree.Parsed
import NoiseFilter.Proofs.Tree.Style
import NoiseFilter.Selector.Match

/-!
# What is kept twice

The attributes `class` and `style` are kept as text and in parsed form. Both forms agree as long as
what is added by itself can be read back from the text: a class without blanks, a declaration that is
plain. Nothing but such an addition makes a difference (`Parsed.run_iff`, `StyleParsed.run_iff`), so
the two forms agree all along a row of writes exactly if all additions in it are of this kind
(`written_agrees_iff`). A class selector then matches the same elements as a selector for the word in
the attribute.
-/

namespace NoiseFilter

open Text (isBlank wordsOf)

namespace ElementEdit

/-- The class that is added, if any, holds no blank. -/
def AddsWord : ElementEdit → Prop
  | addClass token => ∀ c ∈ token.toList, isBlank c = false
  | _ => True

/-- The declaration that is set, if any, can be written down and read back. -/
def SetsPlain : ElementEdit → Prop
  | setStyle property value => NamedValue.IsPlain ⟨Text.lower property, value⟩
  | _ => True

end ElementEdit

namespace Element

/-- The element after writes, one after the other. -/
def written (e : Element) (ws : List ElementEdit) : Element := ws.foldl (fun e w => w.run e) e

variable {e : Element}

/-! ## One write -/

/-- A class that was added stands in the list, so it has to be a word. -/
theorem Parsed.addClass_iff (parsed : e.Parsed) (token : String) :
    (e.addClass token).Parsed ↔ ∀ c ∈ token.toList, isBlank c = false := by
  by_cases empty : token = ""
  · subst empty
    refine iff_of_true (parsed_storeClasses fun c member => ?_) (by simp)
    exact parsed.isWord ((ClassList.mem_insert.mp member).resolve_right fun new => new.2 new.1)
  · refine ⟨fun parsed' => ?_, fun plain => parsed.addClass ⟨empty, plain⟩⟩
    have there : token ∈ (e.addClass token).classes.tokens := by
      rw [Element.addClass, classes_storeClasses]
      exact ClassList.mem_insert.mpr (.inr ⟨rfl, empty⟩)
    exact (parsed'.isWord there).2

theorem Parsed.run_iff (parsed : e.Parsed) (w : ElementEdit) :
    (w.run e).Parsed ↔ w.AddsWord := by
  cases w with
  | setAttribute name value => exact iff_of_true (parsed.set name value) trivial
  | removeAttribute name => exact iff_of_true (parsed.erase name) trivial
  | addClass token => exact parsed.addClass_iff token
  | removeClass token => exact iff_of_true (parsed.removeClass token) trivial
  | setStyle property value => exact iff_of_true (parsed.storeStyle _) trivial
  | removeStyle property => exact iff_of_true (parsed.storeStyle _) trivial

/-- A declaration that was set stands in the style, so it has to be plain. -/
theorem StyleParsed.setStyle_iff (parsed : e.StyleParsed) (property value : String) :
    (e.setStyle property value).StyleParsed ↔
      NamedValue.IsPlain ⟨Text.lower property, value⟩ := by
  refine ⟨fun parsed' => ?_, parsed.setStyle⟩
  have set : (e.style.declarations.set property value).get? property = some value :=
    (NamedValues.get?_set _ property value property).trans (if_pos rfl)
  obtain ⟨d, found, rfl⟩ := Option.map_eq_some_iff.mp set
  have name : d.name = Text.lower property := by simpa using List.find?_some found
  have there : d ∈ (e.setStyle property d.value).style.declarations.entries := by
    rw [Element.setStyle, style_storeStyle]
    exact List.mem_of_find?_eq_some found
  exact name ▸ parsed'.isPlain d there

theorem StyleParsed.run_iff (parsed : e.StyleParsed) (w : ElementEdit) :
    (w.run e).StyleParsed ↔ w.SetsPlain := by
  cases w with
  | setAttribute name value => exact iff_of_true (parsed.set name value) trivial
  | removeAttribute name => exact iff_of_true (parsed.erase name) trivial
  | addClass token => exact iff_of_true (parsed.storeClasses _) trivial
  | removeClass token => exact iff_of_true (parsed.storeClasses _) trivial
  | setStyle property value => exact parsed.setStyle_iff property value
  | removeStyle property => exact iff_of_true (parsed.removeStyle property) trivial

/-! ## Writes in a row -/

/-- If writes of one kind, and these only, keep a property up, it holds all along a row of writes
exactly if all of them are of that kind. -/
theorem written_iff {P : Element → Prop} {Keeps : ElementEdit → Prop}
    (step : ∀ {e : Element}, P e → ∀ w : ElementEdit, P (w.run e) ↔ Keeps w) (start : P e)
    (ws : List ElementEdit) :
    (∀ done, done <+: ws → P (e.written done)) ↔ ∀ w ∈ ws, Keeps w := by
  induction ws generalizing e with
  | nil =>
    refine iff_of_true (fun done before => ?_) (List.forall_mem_nil _)
    rwa [List.prefix_nil.mp before]
  | cons w ws ih =>
    rw [List.forall_mem_cons, ← step start]
    constructor
    · intro always
      have first : P (w.run e) := always [w] ⟨ws, rfl⟩
      exact ⟨first, (ih first).mp fun done before =>
        always (w :: done) (List.cons_prefix_cons.mpr ⟨rfl, before⟩)⟩
    · rintro ⟨first, later⟩ done before
      cases done with
      | nil => exact start
      | cons _ done =>
        obtain ⟨rfl, inside⟩ := List.cons_prefix_cons.mp before
        exact (ih first).mpr later done inside

/-! ## Selectors -/

/-- A class that was read from a text is one of its words. -/
theorem compare_word (token text : String) :
    AttributeOperator.word.compare token.toList text.toList = true ↔
      token ∈ (ClassList.ofString text).tokens := by
  have same : token.toList ∈ wordsOf text.toList ↔ token ∈ Text.words text := by
    rw [Text.words, List.mem_map]
    refine ⟨fun word => ⟨_, word, String.ofList_toList⟩, ?_⟩
    rintro ⟨cs, word, rfl⟩
    rwa [String.toList_ofList]
  rw [ClassList.ofString, ClassList.mem_insertAll, ← same, AttributeOperator.compare,
    Bool.and_eq_true, List.contains_iff_mem]
  constructor
  · rintro ⟨plain, word⟩
    exact .inr ⟨word, (Text.isWord_of_mem_words (same.mp word)).1⟩
  · rintro (none | ⟨word, filled⟩)
    · cases none
    · have plain := (Text.isWord_of_mem_words (same.mp word)).2
      exact ⟨by simpa using ⟨filled, plain⟩, word⟩

/-- If the class list is what the attribute reads as, a class selector and a selector for the word in
the attribute come to the same. -/
theorem Parsed.holds_cls (parsed : e.Parsed) {t : Tree} {id : NodeId}
    (here : t.element? id = some e) (token : String) (scope : Option NodeId) :
    (Simple.cls token).holds t scope id =
      (Simple.attribute ⟨"class", some ⟨.word, token, false⟩⟩).holds t scope id := by
  have cls : (Simple.cls token).holds t scope id = e.hasClass token := by
    rw [Simple.holds, Tree.hasClass, here]
    rfl
  have word : (Simple.attribute ⟨"class", some ⟨.word, token, false⟩⟩).holds t scope id =
      AttributeSelector.accepts ⟨"class", some ⟨.word, token, false⟩⟩ (e.get? "class") := by
    rw [Simple.holds, Tree.attribute?, here]
    rfl
  rw [cls, word, Bool.eq_iff_iff, hasClass, ClassList.contains_eq_true, parsed]
  cases e.get? "class" with
  | none => exact iff_of_false List.not_mem_nil Bool.false_ne_true
  | some text => exact (compare_word token text).symm

end Element

/-! ## Both forms along a row of writes -/

namespace Element

/-- Whatever is written to an element, one write after the other: the class list is what its attribute
reads as at any time exactly if no class with a blank in it is added, and the style is what its
attribute reads as at any time exactly if all declarations that are set are plain. As long as no class
with a blank in it is added, class selectors and selectors for words of the attribute agree. -/
theorem written_agrees_iff (name : String) (ws : List ElementEdit) :
    ((∀ done, done <+: ws → ((ofName name).written done).Parsed) ↔ ∀ w ∈ ws, w.AddsWord) ∧
      ((∀ done, done <+: ws → ((ofName name).written done).StyleParsed) ↔
        ∀ w ∈ ws, w.SetsPlain) ∧
      ((∀ w ∈ ws, w.AddsWord) → ∀ done, done <+: ws → ∀ (t : Tree) (id : NodeId),
        t.element? id = some ((ofName name).written done) → ∀ token scope,
          (Simple.cls token).holds t scope id =
            (Simple.attribute ⟨"class", some ⟨.word, token, false⟩⟩).holds t scope id) := by
  have classes := written_iff (P := Parsed) (fun parsed w => parsed.run_iff w)
    (e := ofName name) rfl ws
  have style := written_iff (P := StyleParsed) (fun parsed w => parsed.run_iff w)
    (e := ofName name) rfl ws
  refine ⟨classes, style, fun words done before t id here token scope => ?_⟩
  exact (classes.mpr words done before).holds_cls here token scope

/-- A class with a blank in it is no class of the text that it is written as, and what stands behind a
semicolon in a value is a declaration of its own in the text. -/
theorem not_written_agrees :
    (¬ ∀ (name : String) (ws : List ElementEdit), ((ofName name).written ws).Parsed) ∧
      ¬ ∀ (name : String) (ws : List ElementEdit), ((ofName name).written ws).StyleParsed := by
  refine ⟨fun always => ?_, fun always => ?_⟩
  · exact absurd (always "p" [.addClass "a b"]) (by decide +kernel)
  · exact absurd (always "p" [.setStyle "color" "red; x: y"]) (by decide +kernel)

end Element

end NoiseFilter
