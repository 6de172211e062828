import NoiseFilter.Proofs.Selector.Grammar
import NoiseFilter.Proofs.Selector.Line

/-!
# Where `:has` looks

A relative selector is only tried on the elements that its leading combinator leaves open: those inside
the subject, or the siblings behind it with all that is inside them. No match lies elsewhere. From such
an element a combinator leads to another such element, down or to a later sibling, and the leading one
comes to such an element from the subject; so whatever the rest of the selector is, a match that starts
at the subject stays among them (`mem_candidates_of_holds`).
-/

namespace NoiseFilter

namespace Tree.Linked

variable {t : Tree} (linked : t.Linked) {a b c : NodeId}

include linked

/-- Siblings in a row: the first precedes the last. -/
theorem sublist_trans {p q : NodeId} (left : [a, b].Sublist (t.children p))
    (right : [b, c].Sublist (t.children q)) : [a, c].Sublist (t.children p) := by
  have member : b ∈ t.forest.children p := left.subset (by simp)
  obtain rfl := linked.forest.threads.parent_unique member (right.subset (by simp))
  obtain ⟨before, behind, halves⟩ := List.append_of_mem member
  obtain ⟨notBefore, notBehind⟩ := linked.forest.threads.not_mem_halves halves
  have halves : t.children p = before ++ b :: behind := halves
  rw [halves] at left right ⊢
  have first := (pair_sublist_left notBefore notBehind).mp left
  have last := (pair_sublist_right notBefore notBehind).mp right
  exact (List.singleton_sublist.mpr first).append
    (List.singleton_sublist.mpr (List.mem_cons_of_mem b last))

/-- What lies above a node lies above its siblings. -/
theorem below_of_sibling {p : NodeId} (siblings : [b, c].Sublist (t.children p))
    (below : t.forest.Below a b) : t.forest.Below a c := by
  have parent := (linked.forest.mem_children p b).mp (siblings.subset (by simp))
  have parent' := (linked.forest.mem_children p c).mp (siblings.subset (by simp))
  obtain ⟨q, way, last⟩ := Relation.TransGen.tail'_iff.mp below
  cases parent.symm.trans last
  exact Relation.TransGen.tail'_iff.mpr ⟨p, way, parent'⟩

end Tree.Linked

namespace Combinator

/-- The elements that a relative selector with this leading combinator looks at. -/
def Reaches (t : Tree) (anchor c : NodeId) : Combinator → Prop
  | descendant | child => t.forest.Below anchor c
  | next | subsequent => ∃ p s, [anchor, s].Sublist (t.children p) ∧ t.isElement s = true ∧
      (c = s ∨ t.forest.Below s c)

variable {t : Tree} (linked : t.Linked) {anchor a b c : NodeId}

include linked

theorem mem_candidates (k : Combinator) :
    c ∈ k.candidates t anchor ↔ t.isElement c = true ∧ k.Reaches t anchor c := by
  have sideways : (c ∈ (t.elementsAfter anchor).flatMap fun s => s :: t.descendantElements s) ↔
      t.isElement c = true ∧ ∃ p s, [anchor, s].Sublist (t.children p) ∧ t.isElement s = true ∧
        (c = s ∨ t.forest.Below s c) := by
    rw [List.mem_flatMap]
    constructor
    · rintro ⟨s, after, inside⟩
      obtain ⟨element, p, siblings⟩ := linked.mem_elementsAfter.mp after
      rcases List.mem_cons.mp inside with rfl | inside
      · exact ⟨element, p, c, siblings, element, .inl rfl⟩
      · obtain ⟨inner, below⟩ := linked.mem_descendantElements_iff.mp inside
        exact ⟨inner, p, s, siblings, element, .inr below⟩
    · rintro ⟨inner, p, s, siblings, element, inside⟩
      refine ⟨s, linked.mem_elementsAfter.mpr ⟨element, p, siblings⟩, List.mem_cons.mpr ?_⟩
      exact inside.imp_right fun below => linked.mem_descendantElements_iff.mpr ⟨inner, below⟩
  cases k with
  | descendant => exact linked.mem_descendantElements_iff
  | child => exact linked.mem_descendantElements_iff
  | next => exact sideways
  | subsequent => exact sideways

omit linked in
/-- Elements that are joined lie one below the other or behind it. -/
theorem Joins.below_or_behind {k : Combinator} (joins : k.Joins t a b) :
    t.forest.Below a b ∨ ∃ p, [a, b].Sublist (t.children p) := by
  cases k with
  | descendant => exact .inl joins
  | child => exact .inl (.single joins)
  | next =>
    obtain ⟨p, pair⟩ := joins
    exact .inr ⟨p, pair.sublist.trans List.filter_sublist⟩
  | subsequent => exact .inr joins

omit linked in
/-- What a combinator joins to the subject is reached through it. -/
theorem reaches_of_joins {k : Combinator} (element : t.isElement c = true)
    (joins : k.Joins t anchor c) : k.Reaches t anchor c := by
  cases k with
  | descendant => exact joins
  | child => exact .single joins
  | next =>
    obtain ⟨p, pair⟩ := joins
    exact ⟨p, c, pair.sublist.trans List.filter_sublist, element, .inl rfl⟩
  | subsequent =>
    obtain ⟨p, pair⟩ := joins
    exact ⟨p, c, pair, element, .inl rfl⟩

/-- From what is reached every combinator leads to what is reached. -/
theorem Reaches.join {k k' : Combinator} (element : t.isElement b = true)
    (reached : k.Reaches t anchor a) (joins : k'.Joins t a b) : k.Reaches t anchor b := by
  have inside {r : NodeId} (below : t.forest.Below r a) : t.forest.Below r b := by
    rcases joins.below_or_behind with under | ⟨p, behind⟩
    · exact below.trans under
    · exact linked.below_of_sibling behind below
  have sideways (reached : ∃ p s, [anchor, s].Sublist (t.children p) ∧ t.isElement s = true ∧
      (a = s ∨ t.forest.Below s a)) : ∃ p s, [anchor, s].Sublist (t.children p) ∧
        t.isElement s = true ∧ (b = s ∨ t.forest.Below s b) := by
    obtain ⟨p, s, siblings, held, rfl | below⟩ := reached
    · rcases joins.below_or_behind with under | ⟨q, behind⟩
      · exact ⟨p, a, siblings, held, .inr under⟩
      · exact ⟨p, b, linked.sublist_trans siblings behind, element, .inl rfl⟩
    · exact ⟨p, s, siblings, held, .inr (inside below)⟩
  cases k with
  | descendant => exact inside reached
  | child => exact inside reached
  | next => exact sideways reached
  | subsequent => exact sideways reached

end Combinator

/-- A match that starts at the subject lies among the elements that are tried. -/
theorem Complex.mem_candidates_of_holds {t : Tree} (linked : t.Linked) (k : Combinator)
    {anchor : NodeId} : ∀ (c : Complex) {e : NodeId}, t.isElement e = true →
      (c.fromScope k).holds t (some anchor) e = true → e ∈ k.candidates t anchor
  | .compound parts, e, element, holds => by
    rw [fromScope, Complex.holds, Bool.and_eq_true, List.any_eq_true] at holds
    obtain ⟨-, o, origin, subject⟩ := holds
    obtain rfl : anchor = o := by
      simpa [Complex.holds, holdsAll, Simple.holds, Pseudo.holds] using subject
    have joins := ((k.mem_origins linked element).mp origin).2
    exact (k.mem_candidates linked).mpr ⟨element, Combinator.reaches_of_joins element joins⟩
  | .join left k' parts, e, element, holds => by
    rw [fromScope, Complex.holds, Bool.and_eq_true, List.any_eq_true] at holds
    obtain ⟨-, o, origin, front⟩ := holds
    obtain ⟨originElement, joins⟩ := (k'.mem_origins linked element).mp origin
    have reached := (k.mem_candidates linked).mp (mem_candidates_of_holds linked k left originElement front)
    exact (k.mem_candidates linked).mpr ⟨element, reached.2.join linked element joins⟩

namespace Relative

/-- The combinator that a relative selector begins with. -/
def lead : Relative → Combinator
  | .mk k _ => k

/-- The complex selector of a relative one; it starts at the subject. -/
def selector : Relative → Complex
  | .mk _ c => c

theorem lands_iff {t : Tree} {r : Relative} {e : NodeId} :
    r.lands t e = true ↔ ∃ c ∈ r.lead.candidates t e, r.selector.holds t (some e) c = true := by
  cases r with
  | mk k c => rw [lands, List.any_eq_true]; rfl

end Relative

theorem landsAny_iff {t : Tree} {e : NodeId} (alternatives : List Relative) :
    landsAny t alternatives e = true ↔ ∃ r ∈ alternatives, r.lands t e = true := by
  induction alternatives with
  | nil => simp [landsAny]
  | cons r rest ih => simp [landsAny, ih]

namespace Selector

open Text (Read skipBlanks)

/-- Relative selectors that have been read start at the subject. -/
theorem Reads.ofComplex {rs : List Relative} {s rest : List Char} (reads : Reads (.relatives rs) s rest) :
    ∀ r ∈ rs, ∃ k c, r = .ofComplex k c := by
  generalize there : Item.relatives rs = item at reads
  induction reads generalizing rs with
  | relativesOne =>
    cases there
    exact List.forall_mem_singleton.mpr ⟨_, _, rfl⟩
  | relativesMore _ _ _ _ ih =>
    cases there
    exact List.forall_mem_cons.mpr ⟨⟨_, _, rfl⟩, ih rfl⟩
  | _ => cases there

/-- On every tree that edits bring about, `:has` with an argument that has been read holds of an element
exactly if some element anywhere in the tree matches one of the relative selectors, taken from the
element. For each of these, trying only what its leading combinator leaves open loses no match and adds
none. -/
theorem holds_has_iff {t : Tree} (grown : t.Grown) {text : List Char}
    {argument : Read text.length (List Relative)} (read : readRelatives text = .ok argument)
    (e : NodeId) (scope : Option NodeId) :
    ((Pseudo.has argument.value).holds t scope e = true ↔ ∃ r ∈ argument.value, ∃ c,
      t.isElement c = true ∧ r.selector.holds t (some e) c = true) ∧
    ∀ r ∈ argument.value, ∀ c, c ∈ r.lead.candidates t e ∧ r.selector.holds t (some e) c = true ↔
      t.isElement c = true ∧ r.selector.holds t (some e) c = true := by
  have linked := grown.linked
  have reads : Reads (.relatives argument.value) text argument.rest :=
    reads_relatives ⟨argument.short, read⟩
  have same : ∀ r ∈ argument.value, ∀ c,
      c ∈ r.lead.candidates t e ∧ r.selector.holds t (some e) c = true ↔
        t.isElement c = true ∧ r.selector.holds t (some e) c = true := by
    intro r member c
    obtain ⟨k, c', rfl⟩ := reads.ofComplex r member
    refine and_congr_left fun holds => ⟨fun tried => ?_, fun element => ?_⟩
    · exact ((k.mem_candidates linked).mp tried).1
    · exact c'.mem_candidates_of_holds linked k element holds
  refine ⟨?_, same⟩
  rw [Pseudo.holds, landsAny_iff]
  refine exists_congr fun r => and_congr_right fun member => ?_
  rw [Relative.lands_iff]
  exact exists_congr fun c => same r member c

/-- A paragraph that holds a link and behind it a bold text with a slanted one. -/
def besidePage : Tree :=
  [.create (.element (.ofName "p")), .create (.element (.ofName "a")),
    .create (.element (.ofName "b")), .create (.element (.ofName "i")), .append .root ⟨1⟩,
    .append ⟨1⟩ ⟨2⟩, .append ⟨1⟩ ⟨3⟩, .append ⟨3⟩ ⟨4⟩].foldl (fun t w => Edit.apply t w) .empty

/-- From the link the slanted text is reached sideways and then down. -/
theorem holds_has_iff_besidePage : besidePage.Grown ∧
    ∃ argument, readRelatives ['+', ' ', 'b', ' ', 'i'] = .ok argument ∧
      (Pseudo.has argument.value).holds besidePage none ⟨2⟩ = true := by
  have grown : besidePage.Grown := ⟨_, rfl⟩
  have bold : Reads (.compound [.type "b"]) ['b', ' ', 'i'] [' ', 'i'] :=
    .compoundType rfl (show _ = some (['b'], _) from rfl) (.simplesEnd rfl)
  have slanted : Reads (.compound [.type "i"]) ['i'] [] :=
    .compoundType rfl (show _ = some (['i'], _) from rfl) (.simplesEnd rfl)
  have inside : Reads (.complex (.join (.compound [.type "b"]) .descendant [.type "i"]))
      [' ', 'b', ' ', 'i'] [] :=
    .complex bold (.joinsBlank (by decide) slanted .joins_nil)
  have reads := Reads.relativesOne (s := ['+', ' ', 'b', ' ', 'i']) inside (by simp [skipBlanks])
  obtain ⟨short, read⟩ := reads.yielded
  refine ⟨grown, _, read, (holds_has_iff grown read ⟨2⟩ none).1.mpr ?_⟩
  have up : besidePage.forest.parent? ⟨4⟩ = some ⟨3⟩ := by decide +kernel
  have behind : [⟨2⟩, ⟨3⟩] <:+: besidePage.elementChildren ⟨1⟩ := ⟨[], [], by decide +kernel⟩
  have matched : (Complex.join (.join (.compound [.pseudo .scope]) .next [.type "b"]) .descendant
      [.type "i"]).Line besidePage (some ⟨2⟩) ([⟨2⟩] ++ [⟨3⟩] ++ [⟨4⟩]) := by
    refine Complex.line_join.mpr ⟨Complex.line_join.mpr ⟨Complex.line_compound.mpr ?_,
      ⟨⟨2⟩, rfl, ⟨1⟩, behind⟩, ?_⟩, ⟨⟨3⟩, rfl, .single up⟩, ?_⟩
    all_goals decide +kernel
  obtain ⟨element, holds⟩ := (Complex.holds_iff grown.linked _ _).mpr ⟨_, matched, rfl⟩
  exact ⟨_, List.mem_singleton.mpr rfl, ⟨4⟩, element, holds⟩

end Selector

end NoiseFilter
