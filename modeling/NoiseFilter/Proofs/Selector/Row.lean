import Mathlib.Data.List.Chain
import NoiseFilter.Proofs.Selector.Line

/-!
# Rows of tags

A selector of tags with blanks between them asks for a row of elements with these tags, each inside the
one before (`Tree.Row`). As the argument of `:has` it asks for such a row inside the subject.
-/

namespace NoiseFilter

/-- Elements with these tags, each strictly inside the one before. -/
structure Tree.Row (t : Tree) (tags : List String) (row : List NodeId) : Prop where
  tags : row.map t.tag? = tags.map some
  nested : row.IsChain t.forest.Below

namespace Complex

/-- A complex selector that goes on with tags, each to be found inside what is in front of it. -/
def inside (c : Complex) (tags : List String) : Complex :=
  tags.foldl (fun left tag => .join left .descendant [.type tag]) c

/-- The selector of tags with blanks between them. -/
def ofTags : List String → Complex
  | [] => .compound []
  | tag :: rest => inside (.compound [.type tag]) rest

@[simp] theorem inside_nil (c : Complex) : c.inside [] = c := rfl

@[simp] theorem inside_cons (c : Complex) (tag : String) (tags : List String) :
    c.inside (tag :: tags) = (c.join .descendant [.type tag]).inside tags := rfl

@[simp] theorem inside_concat (c : Complex) (tags : List String) (tag : String) :
    c.inside (tags ++ [tag]) = .join (c.inside tags) .descendant [.type tag] := by
  simp [inside]

theorem fromScope_inside (k : Combinator) (c : Complex) (tags : List String) :
    (c.inside tags).fromScope k = (c.fromScope k).inside tags := by
  induction tags using List.reverseRecOn with
  | nil => rfl
  | append_singleton tags tag ih => rw [inside_concat, inside_concat, fromScope, ih]

section

variable {t : Tree} {scope : Option NodeId} {e : NodeId} {tag : String}

theorem holdsAll_type : holdsAll t [.type tag] scope e = true ↔ t.tag? e = some tag := by
  simp [holdsAll, Simple.holds]

theorem isElement_of_tag? (tagged : t.tag? e = some tag) : t.isElement e = true := by
  obtain ⟨element, here, -⟩ := Option.map_eq_some_iff.mp tagged
  rw [Tree.isElement, here]
  rfl

theorem isElement_of_mem {row : List NodeId} {tags : List String} (same : row.map t.tag? = tags.map some)
    (member : e ∈ row) : t.isElement e = true := by
  obtain ⟨tag, -, tagged⟩ := List.mem_map.mp (same ▸ List.mem_map_of_mem member)
  exact isElement_of_tag? tagged.symm

theorem getLast?_cons_concat {α : Type} (a : α) (l : List α) (b : α) :
    (a :: (l ++ [b])).getLast? = some b := by
  rw [← List.cons_append, List.getLast?_concat]

/-- The selector holds of an element if it is the last of a row that goes on from an element of which
the front holds. -/
theorem holds_inside (linked : t.Linked) (c : Complex) (tags : List String)
    (element : t.isElement e = true) : (c.inside tags).holds t scope e = true ↔
      ∃ a row, t.isElement a = true ∧ c.holds t scope a = true ∧ row.map t.tag? = tags.map some ∧
        (a :: row).IsChain t.forest.Below ∧ (a :: row).getLast? = some e := by
  induction tags using List.reverseRecOn generalizing e with
  | nil =>
    constructor
    · exact fun holds => ⟨e, [], element, holds, rfl, .singleton e, rfl⟩
    · rintro ⟨a, row, -, holds, empty, -, last⟩
      obtain rfl := List.map_eq_nil_iff.mp empty
      cases last
      exact holds
  | append_singleton tags tag ih =>
    rw [inside_concat, holds, Bool.and_eq_true, holdsAll_type, List.any_eq_true]
    constructor
    · rintro ⟨tagged, o, origin, holds⟩
      obtain ⟨originElement, below⟩ := (Combinator.mem_origins linked .descendant element).mp origin
      obtain ⟨a, row, aElement, holds, tags, nested, last⟩ := (ih originElement).mp holds
      refine ⟨a, row ++ [e], aElement, holds, by simp [tags, tagged], ?_, getLast?_cons_concat a row e⟩
      rw [← List.cons_append, List.isChain_append]
      refine ⟨nested, .singleton e, fun x last' y first => ?_⟩
      rw [last] at last'
      cases last'
      cases first
      exact below
    · rintro ⟨a, row, aElement, holds, tags', nested, last⟩
      rw [List.map_append, List.map_singleton] at tags'
      obtain ⟨front, back, rfl, frontTags, backTag⟩ := List.map_eq_append_iff.mp tags'
      obtain ⟨d, rfl, tagged⟩ := List.map_eq_singleton_iff.mp backTag
      rw [getLast?_cons_concat] at last
      cases last
      rw [← List.cons_append, List.isChain_append] at nested
      obtain ⟨o, there⟩ : ∃ o, (a :: front).getLast? = some o :=
        ⟨_, List.getLast?_eq_some_getLast (List.cons_ne_nil a front)⟩
      have below := nested.2.2 o there e rfl
      have originElement : t.isElement o = true := by
        rcases List.mem_cons.mp (List.mem_of_mem_getLast? there) with rfl | member
        · exact aElement
        · exact isElement_of_mem frontTags member
      exact ⟨tagged, o, (Combinator.mem_origins linked .descendant element).mpr ⟨originElement, below⟩,
        (ih originElement).mpr ⟨a, front, aElement, holds, frontTags, nested.1, there⟩⟩

/-- A selector of tags holds of the last element of each row with these tags. -/
theorem holds_ofTags (linked : t.Linked) (first : String) (rest : List String)
    (element : t.isElement e = true) : (ofTags (first :: rest)).holds t scope e = true ↔
      ∃ row, t.Row (first :: rest) row ∧ row.getLast? = some e := by
  rw [ofTags, holds_inside linked _ _ element]
  constructor
  · rintro ⟨a, row, -, holds, tags, nested, last⟩
    exact ⟨a :: row, ⟨by simp [tags, holdsAll_type.mp holds], nested⟩, last⟩
  · rintro ⟨row, ⟨tags, nested⟩, last⟩
    obtain ⟨a, row, rfl, tagged, tags⟩ := List.map_eq_cons_iff.mp tags
    exact ⟨a, row, isElement_of_tag? tagged, holdsAll_type.mpr tagged, tags, nested, last⟩

/-- With tags as its argument, `:has` holds of an element that has a row with these tags inside. -/
theorem lands_ofTags (linked : t.Linked) (first : String) (rest : List String)
    (anchor : t.isElement e = true) :
    (Relative.ofComplex .descendant (ofTags (first :: rest))).lands t e = true ↔
      ∃ row, t.Row (first :: rest) row ∧ ∀ d ∈ row.head?, t.forest.Below e d := by
  have start : (ofTags (first :: rest)).fromScope .descendant =
      inside (.compound [.pseudo .scope]) (first :: rest) := by
    rw [ofTags, fromScope_inside]
    rfl
  have subject {a : NodeId} : (compound [.pseudo .scope]).holds t (some e) a = true ↔ e = a := by
    simp [holds, holdsAll, Simple.holds, Pseudo.holds]
  have transitive : IsTrans NodeId t.forest.Below := ⟨fun _ _ _ => .trans⟩
  rw [Relative.ofComplex, Relative.lands, Combinator.candidates, List.any_eq_true, start]
  constructor
  · rintro ⟨d, candidate, holds⟩
    have element := (linked.mem_descendantElements_iff.mp candidate).1
    obtain ⟨a, row, -, here, tags, nested, -⟩ := (holds_inside linked _ _ element).mp holds
    obtain rfl := subject.mp here
    rw [List.isChain_cons] at nested
    exact ⟨row, ⟨tags, nested.2⟩, nested.1⟩
  · rintro ⟨row, ⟨tags, nested⟩, below⟩
    have chain : (e :: row).IsChain t.forest.Below := List.isChain_cons.mpr ⟨below, nested⟩
    have filled : row ≠ [] := by
      rintro rfl
      cases tags
    obtain ⟨d, last⟩ : ∃ d, row.getLast? = some d := ⟨_, List.getLast?_eq_some_getLast filled⟩
    have member := List.mem_of_mem_getLast? last
    have element := isElement_of_mem tags member
    have inside := (List.pairwise_cons.mp (List.isChain_iff_pairwise.mp chain)).1 d member
    refine ⟨d, linked.mem_descendantElements_iff.mpr ⟨element, inside⟩,
      (holds_inside linked _ _ element).mpr ⟨e, row, anchor, subject.mpr rfl, tags, chain, ?_⟩⟩
    rw [List.getLast?_cons, last]
    rfl

end

end Complex

end NoiseFilter
