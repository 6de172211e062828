import Mathlib.Data.List.Induction
import NoiseFilter.Proofs.Tree.Style

/-!
# What declarations come to

A style attribute is cut at its semicolons, and some of the pieces declare a property. A property that
is declared more than once holds its last value at its first place, and so it does when properties are
set and taken out afterwards; one that is taken out and set again counts from there. However a style has
come about, as long as plain values are set, it is read back from its words.
-/

namespace NoiseFilter

/-! ## First occurrences -/

theorem eraseDups_concat {l : List String} {a : String} :
    (l ++ [a]).eraseDups = if a ∈ l then l.eraseDups else l.eraseDups ++ [a] := by
  rw [List.eraseDups_append]
  split
  · rename_i there
    simp [List.removeAll, there]
  · rename_i absent
    simp [List.removeAll, absent, List.eraseDups_cons]

theorem eraseDups_filter (p : String → Bool) (l : List String) :
    (l.filter p).eraseDups = l.eraseDups.filter p := by
  match l with
  | [] => rfl
  | a :: rest =>
    -- both sides drop the copies of `a` first
    have shorter : (rest.filter fun b => !b == a).length < rest.length + 1 :=
      Nat.lt_succ_of_le (List.length_filter_le _ _)
    have others := eraseDups_filter p (rest.filter fun b => !b == a)
    rw [List.filter_comm] at others
    rw [List.filter_cons, List.eraseDups_cons, List.filter_cons]
    split
    · rw [List.eraseDups_cons, others]
    · rename_i dropped
      have noCopies : (rest.filter p).filter (fun b => !b == a) = rest.filter p := by
        refine List.filter_eq_self.mpr fun b member => ?_
        have kept := (List.mem_filter.mp member).2
        have other : b ≠ a := by
          rintro rfl
          exact dropped kept
        simpa using other
      rw [← others, noCopies]
termination_by l.length

/-! ## Settings in order -/

namespace NamedValues

/-- Entries hold for each name the value of its last setting, in the order in which the names were first
set. -/
structure Settled (settings entries : List NamedValue) : Prop where
  order : entries.map (·.name) = (settings.map (·.name)).eraseDups
  value : ∀ d ∈ entries, ∃ before later, settings = before ++ d :: later ∧
    d.name ∉ later.map (·.name)

theorem names_assign (name value : String) (entries : List NamedValue) :
    (assign name value entries).map (·.name) =
      if name ∈ entries.map (·.name) then entries.map (·.name)
      else entries.map (·.name) ++ [name] := by
  split
  · rename_i there
    induction entries with
    | nil => cases there
    | cons e rest ih =>
      rw [assign]
      split
      · rename_i same
        rw [List.map_cons, List.map_cons, same]
      · rename_i different
        have later := (List.mem_cons.mp there).resolve_left (Ne.symm different)
        rw [List.map_cons, List.map_cons, ih later]
  · rename_i absent
    rw [assign_of_absent absent, List.map_append, List.map_singleton]

/-- Where names are distinct, an entry behind an assignment is the assigned one or an old one of another
name. -/
theorem eq_or_of_mem_assign {name value : String} {d : NamedValue} {entries : List NamedValue}
    (distinct : (entries.map (·.name)).Nodup) (member : d ∈ assign name value entries) :
    d = ⟨name, value⟩ ∨ d ∈ entries ∧ d.name ≠ name := by
  induction entries with
  | nil => simpa [assign] using member
  | cons e rest ih =>
    obtain ⟨fresh, distinctRest⟩ := List.nodup_cons.mp distinct
    rw [assign] at member
    split at member
    · rename_i same
      rcases List.mem_cons.mp member with rfl | later
      · exact .inl rfl
      · refine .inr ⟨List.mem_cons_of_mem _ later, fun again => fresh ?_⟩
        exact List.mem_map.mpr ⟨d, later, again.trans same.symm⟩
    · rename_i different
      rcases List.mem_cons.mp member with rfl | later
      · exact .inr ⟨List.mem_cons_self, different⟩
      · exact (ih distinctRest later).imp_right fun old => ⟨List.mem_cons_of_mem _ old.1, old.2⟩

namespace Settled

variable {settings entries : List NamedValue} {name : String}

theorem nil : Settled [] [] := ⟨rfl, fun _ absent => by cases absent⟩

theorem assign (settled : Settled settings entries) (distinct : (entries.map (·.name)).Nodup)
    (value : String) :
    Settled (settings ++ [⟨name, value⟩]) (NamedValues.assign name value entries) where
  order := by
    have there : name ∈ entries.map (·.name) ↔ name ∈ settings.map (·.name) := by
      rw [settled.order, List.mem_eraseDups]
    rw [NamedValues.names_assign, List.map_append, List.map_singleton, eraseDups_concat,
      settled.order]
    simp only [← there, settled.order]
  value d member := by
    rcases NamedValues.eq_or_of_mem_assign distinct member with rfl | ⟨old, other⟩
    · exact ⟨settings, [], rfl, List.not_mem_nil⟩
    · obtain ⟨before, later, rfl, last⟩ := settled.value d old
      refine ⟨before, later ++ [⟨name, value⟩], by simp, ?_⟩
      rw [List.map_append, List.mem_append, not_or]
      exact ⟨last, by simpa using other⟩

theorem filter (settled : Settled settings entries) :
    Settled (settings.filter (·.name != name)) (entries.filter (·.name != name)) where
  order := by
    have names (l : List NamedValue) : (l.filter (·.name != name)).map (·.name) =
        (l.map (·.name)).filter (· != name) := by
      rw [List.filter_map]
      rfl
    rw [names, names, eraseDups_filter, settled.order]
  value d member := by
    obtain ⟨old, other⟩ := List.mem_filter.mp member
    obtain ⟨before, later, rfl, last⟩ := settled.value d old
    refine ⟨before.filter (·.name != name), later.filter (·.name != name), ?_, fun again => ?_⟩
    · rw [List.filter_append, List.filter_cons, if_pos other]
    · exact last ((List.filter_sublist.map _).subset again)

end Settled

end NamedValues

/-- Lowering the name keeps a declaration plain. -/
theorem NamedValue.IsPlain.lower {property value : String}
    (plain : NamedValue.IsPlain ⟨property, value⟩) :
    NamedValue.IsPlain ⟨Text.lower property, value⟩ where
  name := plain.name.lower
  noColon there := plain.noColon (Text.mem_of_mem_lower (by decide) there)
  nameEnds there := plain.nameEnds (Text.mem_of_mem_lower (by decide) there)
  value := plain.value
  valueEnds := plain.valueEnds

namespace InlineStyle

/-! ## Declarations in a text -/

/-- A piece of a style attribute declares a property: what stands in front of the first colon and what
stands behind it are both more than blanks. -/
def Declares (piece : String) (d : NamedValue) : Prop :=
  ∃ property value : String, piece = property ++ ":" ++ value ∧ ':' ∉ property.toList ∧
    Text.trim property ≠ "" ∧ Text.trim value ≠ "" ∧
    d = ⟨Text.lower (Text.trim property), Text.trim value⟩

/-- The declarations among some pieces, in order. -/
inductive Declared : List String → List NamedValue → Prop
  | nil : Declared [] []
  | skipped {piece : String} {pieces : List String} {ds : List NamedValue}
      (nothing : ∀ d, ¬ Declares piece d) (others : Declared pieces ds) :
      Declared (piece :: pieces) ds
  | declared {piece : String} {d : NamedValue} {pieces : List String} {ds : List NamedValue}
      (here : Declares piece d) (others : Declared pieces ds) :
      Declared (piece :: pieces) (d :: ds)

/-- What is read of a piece is what it declares. -/
theorem readDeclaration_iff {piece : String} {d : NamedValue} :
    (readDeclaration piece).map (fun d => NamedValue.mk (Text.lower d.1) d.2) = some d ↔
      Declares piece d := by
  have cut {property value : String} (noColon : ':' ∉ property.toList) :
      readDeclaration (property ++ ":" ++ value) =
        if (Text.trim property).isEmpty || (Text.trim value).isEmpty then none
        else some (Text.trim property, Text.trim value) := by
    have chars : property ++ ":" ++ value = String.ofList (property.toList ++ ':' :: value.toList) := by
      rw [← String.toList_inj]
      simp
    rw [chars, readDeclaration_ofList noColon]
    simp only [String.ofList_toList]
  constructor
  · intro read
    obtain ⟨⟨name, value⟩, found, rfl⟩ := Option.map_eq_some_iff.mp read
    by_cases colon : ':' ∈ piece.toList
    · obtain ⟨before, after, halves, noColon⟩ := List.eq_append_cons_of_mem colon
      have whole : piece = String.ofList before ++ ":" ++ String.ofList after := by
        rw [← String.toList_inj, halves]
        simp
      have noColon' : ':' ∉ (String.ofList before).toList := by rwa [String.toList_ofList]
      rw [whole, cut noColon'] at found
      split at found
      · cases found
      · rename_i filled
        cases found
        simp only [Bool.or_eq_true, String.isEmpty_iff, not_or] at filled
        exact ⟨_, _, whole, noColon', filled.1, filled.2, rfl⟩
    · rw [readDeclaration_of_noColon colon] at found
      cases found
  · rintro ⟨property, value, rfl, noColon, name, filled, rfl⟩
    rw [cut noColon, if_neg (by simp [name, filled])]
    rfl

/-! ## Changes -/

/-- A change to a style. -/
inductive Change where
  | set (property value : String)
  | erase (property : String)

namespace Change

def apply (s : InlineStyle) : Change → InlineStyle
  | set property value => s.set property value
  | erase property => s.erase property

/-- Whether a change takes a property out. -/
def erases (name : String) : Change → Bool
  | set _ _ => false
  | erase property => Text.lower property == name

/-- What is set can be written down and read back. -/
def IsPlain : Change → Prop
  | set property value => NamedValue.IsPlain ⟨property, value⟩
  | erase _ => True

/-- A declaration as a change. -/
def ofDeclaration (d : NamedValue) : Change := set d.name d.value

end Change

/-- A style behind some changes. -/
def changed (s : InlineStyle) (changes : List Change) : InlineStyle := changes.foldl Change.apply s

theorem changed_append (s : InlineStyle) (before later : List Change) :
    s.changed (before ++ later) = (s.changed before).changed later :=
  List.foldl_append

/-- Whether one of some changes takes a property out. -/
def takenOut (changes : List Change) (name : String) : Bool := changes.any (·.erases name)

/-- The settings that no later change takes back. -/
def lasting : List Change → List NamedValue
  | [] => []
  | .set property value :: later =>
    if takenOut later (Text.lower property) then lasting later
    else ⟨Text.lower property, value⟩ :: lasting later
  | .erase _ :: later => lasting later

theorem takenOut_concat (changes : List Change) (c : Change) (name : String) :
    takenOut (changes ++ [c]) name = (takenOut changes name || c.erases name) := by
  simp [takenOut]

theorem lasting_concat_set (changes : List Change) (property value : String) :
    lasting (changes ++ [.set property value]) =
      lasting changes ++ [⟨Text.lower property, value⟩] := by
  induction changes with
  | nil => rfl
  | cons c later ih =>
    cases c with
    | set first other =>
      rw [List.cons_append, lasting, lasting, ih, takenOut_concat, Change.erases, Bool.or_false]
      split
      · rfl
      · rfl
    | erase first => exact ih

theorem lasting_concat_erase (changes : List Change) (property : String) :
    lasting (changes ++ [.erase property]) =
      (lasting changes).filter (·.name != Text.lower property) := by
  induction changes with
  | nil => rfl
  | cons c later ih =>
    cases c with
    | set first value =>
      rw [List.cons_append, lasting, lasting, ih, takenOut_concat, Change.erases]
      by_cases gone : takenOut later (Text.lower first) = true
      · simp [gone]
      · by_cases same : Text.lower property = Text.lower first
        · simp [gone, same]
        · simp [gone, same, Ne.symm same]
    | erase first => exact ih

/-- A style is what its changes come to. -/
theorem settled_changed (changes : List Change) :
    NamedValues.Settled (lasting changes) (changed {} changes).declarations.entries := by
  induction changes using List.reverseRecOn with
  | nil => exact .nil
  | append_singleton changes c ih =>
    rw [changed_append]
    cases c with
    | set property value =>
      rw [lasting_concat_set]
      exact ih.assign (changed {} changes).declarations.distinct value
    | erase property =>
      rw [lasting_concat_erase]
      exact ih.filter

/-! ## Styles that were read and changed -/

/-- A text is cut at its semicolons, and the style that it reads as is that of the declarations among
its pieces. -/
theorem exists_declared (css : String) : ∃ pieces ds, ";".intercalate pieces = css ∧
    (∀ piece ∈ pieces, ';' ∉ piece.toList) ∧ Declared pieces ds ∧
    ofString css = changed {} (ds.map Change.ofDeclaration) := by
  have declared (pieces : List String) : ∃ ds, Declared pieces ds ∧ ∀ s : InlineStyle,
      (pieces.filterMap readDeclaration).foldl (fun s d => s.set d.1 d.2) s =
        s.changed (ds.map Change.ofDeclaration) := by
    induction pieces with
    | nil => exact ⟨[], .nil, fun _ => rfl⟩
    | cons piece pieces ih =>
      obtain ⟨ds, others, same⟩ := ih
      cases read : readDeclaration piece with
      | none =>
        refine ⟨ds, .skipped (fun d here => ?_) others, fun s => ?_⟩
        · have found := readDeclaration_iff.mpr here
          rw [read] at found
          cases found
        · rw [List.filterMap_cons, read, same]
      | some d =>
        refine ⟨⟨Text.lower d.1, d.2⟩ :: ds,
          .declared (readDeclaration_iff.mp (by rw [read]; rfl)) others, fun s => ?_⟩
        have set : s.set d.1 d.2 = Change.apply s (.ofDeclaration ⟨Text.lower d.1, d.2⟩) := by
          refine congrArg InlineStyle.mk (NamedValues.ext_entries ?_)
          show NamedValues.assign _ _ _ = NamedValues.assign (Text.lower (Text.lower d.1)) _ _
          rw [Text.lower_lower]
        rw [List.filterMap_cons, read, List.foldl_cons, same, set]
        rfl
  obtain ⟨ds, here, same⟩ := declared (Text.splitOn css ';')
  refine ⟨Text.splitOn css ';', ds, ?_, fun piece member => ?_, here, same {}⟩
  · rw [← String.toList_inj, String.toList_intercalate, Text.splitOn, List.map_map]
    have same : String.toList ∘ String.ofList = id := funext fun _ => String.toList_ofList
    rw [same, List.map_id]
    exact List.intercalate_splitOn ..
  · obtain ⟨cs, part, rfl⟩ := List.mem_map.mp member
    rw [String.toList_ofList]
    intro ends
    simpa using Text.not_isBlank_of_mem_splitOnP part ends

/-- Changes that set plain values keep a style plain. -/
theorem isPlain_changed {changes : List Change} {s : InlineStyle} (plain : s.IsPlain)
    (each : ∀ c ∈ changes, c.IsPlain) : (s.changed changes).IsPlain := by
  induction changes generalizing s with
  | nil => exact plain
  | cons c changes ih =>
    obtain ⟨here, later⟩ := List.forall_mem_cons.mp each
    refine ih (fun d member => ?_) later
    cases c with
    | set property value =>
      rcases NamedValues.mem_assign member with rfl | old
      · exact here.lower
      · exact plain d old
    | erase property => exact plain d (List.mem_filter.mp member).1

/-- A style that was read from a text and then changed, with plain values set, is read back from its
words. Its names are distinct, trimmed, not empty and without capitals. Each property holds the value
of its last setting in the order of first settings, where the declarations of the text count as settings
and settings that were taken back do not count. -/
theorem settled_of_changes (css : String) (changes : List Change)
    (plain : ∀ c ∈ changes, c.IsPlain) :
    ofString ((ofString css).changed changes).render = (ofString css).changed changes ∧
      (((ofString css).changed changes).declarations.entries.map (·.name)).Nodup ∧
      (∀ d ∈ ((ofString css).changed changes).declarations.entries,
        Text.IsTrimmed d.name ∧ Text.Lowered d.name) ∧
      ∃ pieces ds, ";".intercalate pieces = css ∧ (∀ piece ∈ pieces, ';' ∉ piece.toList) ∧
        Declared pieces ds ∧
        NamedValues.Settled (lasting (ds.map Change.ofDeclaration ++ changes))
          ((ofString css).changed changes).declarations.entries := by
  have isPlain := isPlain_changed (isPlain_ofString css) plain
  obtain ⟨pieces, ds, whole, cut, declared, read⟩ := exists_declared css
  refine ⟨ofString_render isPlain, ((ofString css).changed changes).declarations.distinct,
    fun d member => ⟨(isPlain d member).name, ?_⟩, pieces, ds, whole, cut, declared, ?_⟩
  · exact Text.lowered_iff.mpr (((ofString css).changed changes).declarations.lowered d member)
  · rw [read, ← changed_append]
    exact settled_changed _

/-- A property is taken out and set again, another one gets a value with a colon in it. -/
def recolored : List Change :=
  [.erase "Margin", .set "background" "url(a:b)", .set "margin" "0 auto"]

theorem settled_of_recolored :
    ofString "background: url(a:b); margin: 0 auto;" =
      (ofString "MARGIN : 0; broken; :x; background:red").changed recolored := by
  have plain : ∀ c ∈ recolored, c.IsPlain := by
    simp only [recolored, List.forall_mem_cons]
    exact ⟨trivial, ⟨by decide, by decide, by decide, by decide, by decide⟩,
      ⟨by decide, by decide, by decide, by decide, by decide⟩, List.forall_mem_nil _⟩
  have back := (settled_of_changes "MARGIN : 0; broken; :x; background:red" recolored plain).1
  have words : ((ofString "MARGIN : 0; broken; :x; background:red").changed recolored).render =
      "background: url(a:b); margin: 0 auto;" := by decide +kernel
  rwa [words] at back

end InlineStyle

end NoiseFilter
