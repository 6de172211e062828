import Mathlib.Data.List.TakeDrop
import NoiseFilter.Proofs.Text.Trim
import NoiseFilter.Proofs.Tree.Element

/-!
# Styles that are read from their attribute

The style of an element is kept beside the text of its attribute, as the class list is. A style
whose declarations are plain, as all are that are read from a text, can be put into words and read
back. So an element whose style is what its attribute reads as stays one under writes of plain
values.
-/

namespace NoiseFilter

/-! ## Plain declarations -/

/-- A declaration that can be written down and read back. -/
structure NamedValue.IsPlain (d : NamedValue) : Prop where
  name : Text.IsTrimmed d.name
  noColon : ':' ∉ d.name.toList
  nameEnds : ';' ∉ d.name.toList
  value : Text.IsTrimmed d.value
  valueEnds : ';' ∉ d.value.toList

namespace InlineStyle

/-- All declarations of the style are plain. -/
def IsPlain (s : InlineStyle) : Prop := ∀ d ∈ s.declarations.entries, d.IsPlain

theorem readDeclaration_ofList {before after : List Char} (noColon : ':' ∉ before) :
    readDeclaration (String.ofList (before ++ ':' :: after)) =
      let property := Text.trim (String.ofList before)
      let value := Text.trim (String.ofList after)
      if property.isEmpty || value.isEmpty then none else some (property, value) := by
  have cut : (before ++ ':' :: after).span (· != ':') = (before, ':' :: after) := by
    have passes : ∀ c ∈ before, (c != ':') = true := fun c member => by
      simpa using ne_of_mem_of_not_mem member noColon
    rw [List.span_eq_takeWhile_dropWhile, List.takeWhile_append_of_pos passes,
      List.dropWhile_append_of_pos passes]
    simp
  have parts : Text.splitOnce (String.ofList (before ++ ':' :: after)) ':' =
      some (String.ofList before, String.ofList after) := by
    rw [Text.splitOnce, String.toList_ofList, cut]
  rw [readDeclaration, parts, Option.bind_eq_bind, Option.bind_some]

theorem readDeclaration_of_noColon {text : String} (noColon : ':' ∉ text.toList) :
    readDeclaration text = none := by
  have passes : ∀ c ∈ text.toList, (c != ':') = true := fun c member => by
    simpa using ne_of_mem_of_not_mem member noColon
  rw [readDeclaration, Text.splitOnce, List.span_eq_takeWhile_dropWhile,
    List.dropWhile_eq_nil_iff.mpr passes]
  rfl

/-- What is read as a declaration is plain. -/
theorem isPlain_of_readDeclaration {text : String} {d : String × String} (ends : ';' ∉ text.toList)
    (read : readDeclaration text = some d) : NamedValue.IsPlain ⟨Text.lower d.1, d.2⟩ := by
  by_cases colon : ':' ∈ text.toList
  · obtain ⟨before, after, cut, noColon⟩ := List.eq_append_cons_of_mem colon
    have whole : text = String.ofList (before ++ ':' :: after) := by
      rw [← cut, String.ofList_toList]
    rw [whole, readDeclaration_ofList noColon] at read
    simp only at read
    split at read
    · cases read
    · rename_i filled
      cases read
      simp only [Bool.or_eq_true, String.isEmpty_iff, not_or] at filled
      have inBefore {c : Char} (member : c ∈ (Text.trim (String.ofList before)).toList) :
          c ∈ before := by simpa using Text.mem_of_mem_trim member
      have inAfter {c : Char} (member : c ∈ (Text.trim (String.ofList after)).toList) :
          c ∈ after := by simpa using Text.mem_of_mem_trim member
      refine ⟨.lower ⟨filled.1, Text.trim_trim _⟩, fun there => ?_, fun there => ?_,
        ⟨filled.2, Text.trim_trim _⟩, fun there => ?_⟩
      · exact noColon (inBefore (Text.mem_of_mem_lower (by decide) there))
      · exact ends (by simp [cut, inBefore (Text.mem_of_mem_lower (by decide) there)])
      · exact ends (by simp [cut, inAfter there])
  · rw [readDeclaration_of_noColon colon] at read
    cases read

/-- Declarations that are set one after the other are plain if each of them is. -/
theorem isPlain_foldl_set {ds : List (String × String)} {s : InlineStyle} (plain : s.IsPlain)
    (each : ∀ d ∈ ds, NamedValue.IsPlain ⟨Text.lower d.1, d.2⟩) :
    (ds.foldl (fun s d => s.set d.1 d.2) s).IsPlain := by
  induction ds generalizing s with
  | nil => exact plain
  | cons d rest ih =>
    obtain ⟨here, later⟩ := List.forall_mem_cons.mp each
    refine ih (fun x member => ?_) later
    rcases NamedValues.mem_assign member with rfl | old
    · exact here
    · exact plain x old

theorem isPlain_ofString (css : String) : (ofString css).IsPlain := by
  refine isPlain_foldl_set (fun _ member => by cases member) fun d member => ?_
  obtain ⟨text, part, read⟩ := List.mem_filterMap.mp member
  refine isPlain_of_readDeclaration (fun ends => ?_) read
  obtain ⟨cs, there, rfl⟩ := List.mem_map.mp part
  rw [String.toList_ofList] at ends
  simpa using Text.not_isBlank_of_mem_splitOnP there ends

/-! ## Reading what was written -/

/-- The declarations that a list of characters reads as. -/
def readAll (cs : List Char) : List (String × String) :=
  ((cs.splitOn ';').map String.ofList).filterMap readDeclaration

/-- A plain declaration is read off, with or without blanks in front. -/
theorem readAll_append {d : NamedValue} (plain : d.IsPlain) {front : List Char}
    (blank : ∀ c ∈ front, Text.isBlank c = true) (rest : List Char) :
    readAll (front ++ ((d.name ++ ": " ++ d.value ++ ";").toList ++ rest)) =
      (d.name, d.value) :: readAll rest := by
  have notBlank {c : Char} (visible : Text.isBlank c = false) : c ∉ front := fun member =>
    Bool.false_ne_true (visible.symm.trans (blank c member))
  have chars : front ++ ((d.name ++ ": " ++ d.value ++ ";").toList ++ rest) =
      (front ++ d.name.toList ++ ':' :: ' ' :: d.value.toList) ++ ';' :: rest := by
    simp
  have whole : ';' ∉ front ++ d.name.toList ++ ':' :: ' ' :: d.value.toList := by
    simp [notBlank (c := ';') (by decide), plain.nameEnds, plain.valueEnds]
  have noColon : ':' ∉ front ++ d.name.toList := by
    simp [notBlank (c := ':') (by decide), plain.noColon]
  have name : Text.trim (String.ofList (front ++ d.name.toList)) = d.name := by
    rw [Text.trim, String.toList_ofList, Text.trimChars_append_of_blank blank]
    exact plain.name.2
  have value : Text.trim (String.ofList (' ' :: d.value.toList)) = d.value := by
    rw [Text.trim, String.toList_ofList, ← List.singleton_append,
      Text.trimChars_append_of_blank (List.forall_mem_singleton.mpr (by decide))]
    exact plain.value.2
  have read : readDeclaration (String.ofList
      (front ++ d.name.toList ++ ':' :: ' ' :: d.value.toList)) = some (d.name, d.value) := by
    rw [readDeclaration_ofList noColon]
    simp only [name, value]
    refine if_neg ?_
    simp [plain.name.1, plain.value.1]
  rw [readAll, chars, List.splitOn_append_cons_self_of_not_mem whole, List.map_cons,
    List.filterMap_cons, read]
  rfl

theorem readAll_intercalate {ds : List NamedValue} (plain : ∀ d ∈ ds, d.IsPlain)
    {front : List Char} (blank : ∀ c ∈ front, Text.isBlank c = true) :
    readAll (front ++
        [' '].intercalate (ds.map fun d => (d.name ++ ": " ++ d.value ++ ";").toList)) =
      ds.map fun d => (d.name, d.value) := by
  have nothing {front : List Char} (blank : ∀ c ∈ front, Text.isBlank c = true) :
      readAll front = [] := by
    have notBlank {c : Char} (visible : Text.isBlank c = false) : c ∉ front := fun member =>
      Bool.false_ne_true (visible.symm.trans (blank c member))
    have none : readDeclaration (String.ofList front) = none :=
      readDeclaration_of_noColon (by simpa using notBlank (c := ':') (by decide))
    rw [readAll, List.splitOn_eq_singleton (notBlank (by decide)), List.map_singleton,
      List.filterMap_cons, none]
    rfl
  induction ds generalizing front with
  | nil => simpa using nothing blank
  | cons d rest ih =>
    obtain ⟨here, later⟩ := List.forall_mem_cons.mp plain
    cases rest with
    | nil =>
      rw [List.map_singleton, List.intercalate_singleton, List.map_singleton]
      have read := readAll_append here blank []
      rwa [nothing (List.forall_mem_nil _), List.append_nil] at read
    | cons next others =>
      -- the blank between two declarations stands in front of the second
      have spaced : readAll ([' '] ++ _) = _ :=
        ih later (List.forall_mem_singleton.mpr (by decide))
      rw [List.map_cons, List.map_cons, List.intercalate_cons_cons, List.append_assoc,
        readAll_append here blank]
      exact congrArg ((d.name, d.value) :: ·) spaced

/-- A plain style is read back from its words. -/
theorem ofString_render {s : InlineStyle} (plain : s.IsPlain) : ofString s.render = s := by
  have chars : s.render.toList = [' '].intercalate
      (s.declarations.entries.map fun d => (d.name ++ ": " ++ d.value ++ ";").toList) := by
    rw [render, String.toList_intercalate, List.map_map]
    rfl
  have read : ofString s.render =
      (readAll s.render.toList).foldl (fun s d => s.set d.1 d.2) {} := rfl
  have declarations (ds : List NamedValue) (v : NamedValues) :
      (ds.map fun d => (d.name, d.value)).foldl (fun s d => s.set d.1 d.2) (⟨v⟩ : InlineStyle) =
        ⟨ds.foldl (fun v e => v.set e.name e.value) v⟩ := by
    induction ds generalizing v with
    | nil => rfl
    | cons d rest ih => exact ih _
  have all : readAll ([] ++ _) = _ := readAll_intercalate plain (List.forall_mem_nil _)
  rw [List.nil_append, ← chars] at all
  rw [read, all, declarations]
  refine congrArg InlineStyle.mk (NamedValues.ext_entries ?_)
  exact NamedValues.entries_foldl_set s.declarations.lowered
    (by simpa using s.declarations.distinct)

theorem ofString_text? {s : InlineStyle} (plain : s.IsPlain) : ofString (s.text?.getD "") = s := by
  rw [text?]
  split
  · rename_i empty
    have nothing : s.declarations.entries = [] := List.isEmpty_iff.mp empty
    exact congrArg InlineStyle.mk (NamedValues.ext_entries nothing.symm)
  · exact ofString_render plain

end InlineStyle

/-! ## Elements -/

namespace Element

/-- The style is what the attribute reads as. -/
def StyleParsed (e : Element) : Prop := e.style = .ofString ((e.get? "style").getD "")

instance (e : Element) : Decidable e.StyleParsed :=
  inferInstanceAs (Decidable (e.style = .ofString ((e.get? "style").getD "")))

variable {e : Element}

theorem StyleParsed.isPlain (parsed : e.StyleParsed) : e.style.IsPlain :=
  parsed ▸ InlineStyle.isPlain_ofString _

theorem StyleParsed.of_same (parsed : e.StyleParsed) {e' : Element} (style : e'.style = e.style)
    (text : e'.get? "style" = e.get? "style") : e'.StyleParsed := by
  rw [StyleParsed, style, text]
  exact parsed

theorem styleParsed_storeStyle (plain : e.style.IsPlain) : e.storeStyle.StyleParsed := by
  rw [StyleParsed, style_storeStyle, get?_storeStyle, if_pos lower_style]
  exact (InlineStyle.ofString_text? plain).symm

namespace StyleParsed

variable (parsed : e.StyleParsed)

include parsed

theorem set (name value : String) : (e.set name value).StyleParsed := by
  rw [StyleParsed, style_set, get?_set, lower_style]
  split
  · rfl
  · exact parsed

theorem erase (name : String) : (e.erase name).StyleParsed := by
  rw [StyleParsed, style_erase, get?_erase, lower_style]
  by_cases isStyle : Text.lower name = "style"
  · rw [if_pos isStyle]
    split
    · rfl
    · rename_i notThere
      have absent : e.get? "style" = none := by
        have missing : ¬ e.has name := fun there => notThere ⟨isStyle, there⟩
        rw [← e.get?_congr (isStyle.trans lower_style.symm)]
        simpa [has] using missing
      rw [parsed, absent]
  · rw [if_neg isStyle, if_neg fun both => isStyle both.1]
    exact parsed

theorem storeClasses (classes : ClassList) : { e with classes }.storeClasses.StyleParsed := by
  refine of_same parsed (style_storeClasses _) ?_
  exact (get?_storeClasses _ "style").trans (if_neg (by decide))

theorem setStyle {property value : String}
    (plain : NamedValue.IsPlain ⟨Text.lower property, value⟩) :
    (e.setStyle property value).StyleParsed := by
  refine styleParsed_storeStyle fun d member => ?_
  rcases NamedValues.mem_assign member with rfl | old
  · exact plain
  · exact parsed.isPlain d old

theorem removeStyle (property : String) : (e.removeStyle property).StyleParsed :=
  styleParsed_storeStyle fun d member => parsed.isPlain d (List.mem_filter.mp member).1

end StyleParsed

end Element

end NoiseFilter
