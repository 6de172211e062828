import NoiseFilter.Proofs.Selector.Tests
import NoiseFilter.Proofs.Tree.Frame

/-!
# Trees that a selector cannot tell apart

If two trees have the same frame, and each element agrees with its counterpart in all that a selector
tests, then the selector matches the same elements in both. The proof follows the selector through
all its parts; where a part looks at other elements, the walk to them is the same in both trees.
-/

namespace NoiseFilter

/-- Two trees that selectors with these tests cannot tell apart. -/
structure Tree.Like (tests : List Test) (t t' : Tree) : Prop where
  frame : t.SameFrame t'
  element : ∀ id e, t.element? id = some e → ∃ e', t'.element? id = some e' ∧ e.Like tests e'

namespace Tree.Like

variable {tests : List Test} {t t' t'' : Tree}

theorem refl (t : Tree) : Like tests t t :=
  ⟨.refl t, fun _ e here => ⟨e, here, .refl e⟩⟩

theorem trans (left : Like tests t t') (right : Like tests t' t'') : Like tests t t'' where
  frame := left.frame.trans right.frame
  element id e here := by
    obtain ⟨e', here', like⟩ := left.element id e here
    obtain ⟨e'', here'', like'⟩ := right.element id e' here'
    exact ⟨e'', here'', like.trans like'⟩

/-- A write to one element that keeps it alike. -/
theorem put {id : NodeId} {e : Element} (here : t.element? id = some e) {d : Draft}
    (like : e.Like tests d.element) : Like tests t (t.put id d) where
  frame := .put (isElement_iff.mpr ⟨e, here⟩)
  element other old there := by
    have written := element?_put (d := d) (isElement_iff.mpr ⟨e, here⟩) other
    by_cases same : other = id
    · subst same
      cases Option.some.inj (here.symm.trans there)
      exact ⟨d.element, written.trans (if_pos rfl), like⟩
    · exact ⟨old, (written.trans (if_neg same)).trans there, .refl old⟩

variable (like : Like tests t t')

include like

/-- What two alike elements agree in shows in the trees. -/
theorem element?_rel (id : NodeId) :
    t.element? id = none ∧ t'.element? id = none ∨
      ∃ e e', t.element? id = some e ∧ t'.element? id = some e' ∧ e.Like tests e' := by
  cases here : t.element? id with
  | none =>
    have same := like.frame.isElement id
    rw [isElement, isElement, here] at same
    exact .inl ⟨rfl, Option.not_isSome_iff_eq_none.mp (Bool.eq_false_iff.mp same)⟩
  | some e =>
    obtain ⟨e', here', likeElement⟩ := like.element id e here
    exact .inr ⟨e, e', rfl, here', likeElement⟩

theorem tag? (id : NodeId) : t'.tag? id = t.tag? id := by
  rw [Tree.tag?, Tree.tag?]
  rcases like.element?_rel id with ⟨none, none'⟩ | ⟨e, e', here, here', likeElement⟩
  · rw [none, none']
  · rw [here, here', Option.map_some, likeElement.name, Option.map_some]

theorem attribute?_id (id : NodeId) : t'.attribute? id "id" = t.attribute? id "id" := by
  rw [attribute?, attribute?]
  rcases like.element?_rel id with ⟨none, none'⟩ | ⟨e, e', here, here', likeElement⟩
  · rw [none, none']
  · rw [here, here']
    exact likeElement.id

theorem attribute? {name : String} (tested : .attribute name ∈ tests) (id : NodeId) :
    t'.attribute? id name = t.attribute? id name := by
  rw [Tree.attribute?, Tree.attribute?]
  rcases like.element?_rel id with ⟨none, none'⟩ | ⟨e, e', here, here', likeElement⟩
  · rw [none, none']
  · rw [here, here']
    exact likeElement.attributes name tested

theorem hasClass {cls : String} (tested : .cls cls ∈ tests) (id : NodeId) :
    t'.hasClass id cls = t.hasClass id cls := by
  rw [Tree.hasClass, Tree.hasClass]
  rcases like.element?_rel id with ⟨none, none'⟩ | ⟨e, e', here, here', likeElement⟩
  · rw [none, none']
  · rw [here, here']
    have same := likeElement.classes cls tested
    rw [← ClassList.contains_eq_true, ← ClassList.contains_eq_true, ← Bool.eq_iff_iff] at same
    exact same

/-- Nodes that are no elements are the same, and an element stands where one stood. -/
theorem data?_rel (id : NodeId) :
    t'.data? id = t.data? id ∨
      ∃ e e', t.data? id = some (.element e) ∧ t'.data? id = some (.element e') ∧
        e'.name = e.name := by
  rcases like.element?_rel id with ⟨none, -⟩ | ⟨e, e', here, here', likeElement⟩
  · refine .inl (like.frame.data? id ?_)
    rw [isElement, none]
    rfl
  · exact .inr ⟨e, e', data?_eq_of_element? here, data?_eq_of_element? here', likeElement.name⟩

/-- What a node shows is the same. -/
theorem shown (bound : Nat) (id : NodeId) : t'.shown bound id = t.shown bound id := by
  induction bound generalizing id with
  | zero => rfl
  | succ bound ih =>
    have inner : (t'.shown bound : NodeId → List Char) = t.shown bound := funext ih
    rw [Tree.shown, Tree.shown, like.frame.children, inner]
    rcases like.data?_rel id with same | ⟨e, e', here, here', name⟩
    · rw [same]
    · rw [here, here']
      simp only [name]

theorem renderedText (id : NodeId) : t'.renderedText id = t.renderedText id := by
  rw [Tree.renderedText, Tree.renderedText, like.frame.size, like.shown]

theorem siblingPlace (id : NodeId) (sameType : Bool) :
    siblingPlace t' id sameType = siblingPlace t id sameType := by
  have tags : t'.tag? = t.tag? := funext like.tag?
  unfold NoiseFilter.siblingPlace
  rw [like.frame.parent?, tags]
  split
  · rfl
  · rw [like.frame.elementChildren]

theorem siblingPlaceFromEnd (id : NodeId) (sameType : Bool) :
    siblingPlaceFromEnd t' id sameType = siblingPlaceFromEnd t id sameType := by
  rw [NoiseFilter.siblingPlaceFromEnd, NoiseFilter.siblingPlaceFromEnd, like.siblingPlace]

theorem isPageRoot (id : NodeId) : isPageRoot t' id = isPageRoot t id := by
  rw [NoiseFilter.isPageRoot, NoiseFilter.isPageRoot, like.frame.parent?]

theorem isVacant (id : NodeId) : isVacant t' id = isVacant t id := by
  rw [NoiseFilter.isVacant, NoiseFilter.isVacant, like.frame.children]
  refine congrArg (List.all _) (funext fun child => ?_)
  rcases like.data?_rel child with same | ⟨e, e', here, here', -⟩
  · rw [same]
  · rw [here, here']

theorem origins (k : Combinator) (id : NodeId) : k.origins t' id = k.origins t id := by
  cases k with
  | descendant =>
    rw [Combinator.origins, Combinator.origins, like.frame.ancestors, like.frame.isElement_eq]
  | child => exact congrArg Option.toList (like.frame.parentElement? id)
  | next => exact congrArg (List.take 1) (like.frame.elementsBefore id)
  | subsequent => exact like.frame.elementsBefore id

theorem candidates (k : Combinator) (id : NodeId) : k.candidates t' id = k.candidates t id := by
  have below : t'.descendantElements = t.descendantElements :=
    funext like.frame.descendantElements
  cases k <;> simp only [Combinator.candidates, below, like.frame.elementsAfter]

end Tree.Like

/-! ## Matching -/

section

variable {tests : List Test} {t t' : Tree}

mutual

theorem Simple.holds_congr (like : t.Like tests t') : (s : Simple) → (∀ x ∈ s.tests, x ∈ tests) →
    (scope : Option NodeId) → (e : NodeId) → s.holds t' scope e = s.holds t scope e
  | .universal, _, _, _ => rfl
  | .type name, _, _, e => by rw [Simple.holds, Simple.holds, like.tag?]
  | .id name, _, _, e => by rw [Simple.holds, Simple.holds, like.attribute?_id]
  | .cls name, tested, _, e => by
    rw [Simple.holds, Simple.holds, like.hasClass (tested _ (by simp [Simple.tests]))]
  | .attribute a, tested, _, e => by
    rw [Simple.holds, Simple.holds, like.attribute? (tested _ (by simp [Simple.tests]))]
  | .pseudo p, tested, scope, e => by
    rw [Simple.holds, Simple.holds, p.holds_congr like tested]

theorem Pseudo.holds_congr (like : t.Like tests t') : (p : Pseudo) → (∀ x ∈ p.tests, x ∈ tests) →
    (scope : Option NodeId) → (e : NodeId) → p.holds t' scope e = p.holds t scope e
  | .root, _, _, e => like.isPageRoot e
  | .scope, _, some _, _ => rfl
  | .scope, _, none, e => like.isPageRoot e
  | .empty, _, _, e => like.isVacant e
  | .firstChild, _, _, e => by rw [Pseudo.holds, Pseudo.holds, like.siblingPlace]
  | .lastChild, _, _, e => by rw [Pseudo.holds, Pseudo.holds, like.siblingPlace]
  | .onlyChild, _, _, e => by rw [Pseudo.holds, Pseudo.holds, like.siblingPlace]
  | .firstOfType, _, _, e => by rw [Pseudo.holds, Pseudo.holds, like.siblingPlace]
  | .lastOfType, _, _, e => by rw [Pseudo.holds, Pseudo.holds, like.siblingPlace]
  | .onlyOfType, _, _, e => by rw [Pseudo.holds, Pseudo.holds, like.siblingPlace]
  | .nthChild n, _, _, e => by rw [Pseudo.holds, Pseudo.holds, like.siblingPlace]
  | .nthLastChild n, _, _, e => by rw [Pseudo.holds, Pseudo.holds, like.siblingPlaceFromEnd]
  | .nthOfType n, _, _, e => by rw [Pseudo.holds, Pseudo.holds, like.siblingPlace]
  | .nthLastOfType n, _, _, e => by rw [Pseudo.holds, Pseudo.holds, like.siblingPlaceFromEnd]
  | .negation alternatives, tested, scope, e => by
    rw [Pseudo.holds, Pseudo.holds, holdsAny_congr like alternatives tested]
  | .oneOf alternatives, tested, scope, e => by
    rw [Pseudo.holds, Pseudo.holds, holdsAny_congr like alternatives tested]
  | .whereOneOf alternatives, tested, scope, e => by
    rw [Pseudo.holds, Pseudo.holds, holdsAny_congr like alternatives tested]
  | .has alternatives, tested, _, e => by
    rw [Pseudo.holds, Pseudo.holds, landsAny_congr like alternatives tested]

theorem Complex.holds_congr (like : t.Like tests t') : (c : Complex) → (∀ x ∈ c.tests, x ∈ tests) →
    (scope : Option NodeId) → (e : NodeId) → c.holds t' scope e = c.holds t scope e
  | .compound parts, tested, scope, e => by
    rw [Complex.holds, Complex.holds, holdsAll_congr like parts tested]
  | .join left k parts, tested, scope, e => by
    have leftSame : ∀ o, left.holds t' scope o = left.holds t scope o :=
      left.holds_congr like (fun x there => tested x (List.mem_append_left _ there)) scope
    have partsSame := holdsAll_congr like parts
      (fun x there => tested x (List.mem_append_right _ there)) scope e
    simp only [Complex.holds, partsSame, leftSame, like.origins]

theorem Relative.lands_congr (like : t.Like tests t') : (r : Relative) →
    (∀ x ∈ r.tests, x ∈ tests) →
    (anchor : NodeId) → r.lands t' anchor = r.lands t anchor
  | .mk k selector, tested, anchor => by
    have same : ∀ c, selector.holds t' (some anchor) c = selector.holds t (some anchor) c :=
      selector.holds_congr like tested (some anchor)
    simp only [Relative.lands, same, like.candidates]

theorem holdsAll_congr (like : t.Like tests t') : (parts : List Simple) →
    (∀ x ∈ partsTests parts, x ∈ tests) →
    (scope : Option NodeId) → (e : NodeId) → holdsAll t' parts scope e = holdsAll t parts scope e
  | [], _, _, _ => rfl
  | s :: rest, tested, scope, e => by
    rw [holdsAll, holdsAll,
      s.holds_congr like (fun x there => tested x (List.mem_append_left _ there)),
      holdsAll_congr like rest fun x there => tested x (List.mem_append_right _ there)]

theorem holdsAny_congr (like : t.Like tests t') : (alternatives : List Complex) →
    (∀ x ∈ alternativesTests alternatives, x ∈ tests) → (scope : Option NodeId) → (e : NodeId) →
    holdsAny t' alternatives scope e = holdsAny t alternatives scope e
  | [], _, _, _ => rfl
  | c :: rest, tested, scope, e => by
    rw [holdsAny, holdsAny,
      c.holds_congr like (fun x there => tested x (List.mem_append_left _ there)),
      holdsAny_congr like rest fun x there => tested x (List.mem_append_right _ there)]

theorem landsAny_congr (like : t.Like tests t') : (alternatives : List Relative) →
    (∀ x ∈ relativesTests alternatives, x ∈ tests) → (anchor : NodeId) →
    landsAny t' alternatives anchor = landsAny t alternatives anchor
  | [], _, _ => rfl
  | r :: rest, tested, anchor => by
    rw [landsAny, landsAny,
      r.lands_congr like (fun x there => tested x (List.mem_append_left _ there)),
      landsAny_congr like rest fun x there => tested x (List.mem_append_right _ there)]

end

end

/-! ## Extended selectors -/

section

variable {tests : List Test} {t t' : Tree} (like : t.Like tests t')

include like

theorem Selector.accepts_congr (s : Selector) (tested : ∀ x ∈ s.tests, x ∈ tests)
    (scope : Option NodeId) (id : NodeId) : s.accepts t' scope id = s.accepts t scope id := by
  rw [Selector.accepts, Selector.accepts, like.frame.isElement, holdsAny_congr like _ tested]

theorem Selector.queryFirst_congr (s : Selector) (tested : ∀ x ∈ s.tests, x ∈ tests) (root : NodeId) :
    s.queryFirst t' root = s.queryFirst t root := by
  have scope : scopeOf t' root = scopeOf t root := by
    rw [scopeOf, scopeOf, like.frame.isElement]
  have found : s.accepts t' (scopeOf t root) = s.accepts t (scopeOf t root) :=
    funext (s.accepts_congr like tested _)
  rw [queryFirst, queryFirst, like.frame.descendantElements, scope, found]

theorem Probe.holds_congr (p : Probe) (tested : ∀ x ∈ p.selector.tests, x ∈ tests) (id : NodeId) :
    p.holds t' id = p.holds t id := by
  have found : p.selector.accepts t' (some id) = p.selector.accepts t (some id) :=
    funext (p.selector.accepts_congr like tested (some id))
  rw [Probe.holds, Probe.holds, Selector.queryRelative, Selector.queryRelative, like.candidates,
    found]
  simp only [like.renderedText]

/-- An extended selector accepts the same nodes in both trees. -/
theorem Query.accepts_congr (q : Query) (tested : ∀ x ∈ q.tests, x ∈ tests) (id : NodeId) :
    q.accepts t' id = q.accepts t id := by
  have base := q.base.accepts_congr like
    (fun x there => tested x (List.mem_append_left _ there)) none id
  have contains : q.passesContains t' id = q.passesContains t id := by
    rw [passesContains, passesContains, like.renderedText]
  have each : ∀ probes ∈ q.clauses,
      (probes.all (·.holds t' id) = true ↔ probes.all (·.holds t id) = true) := by
    intro probes there
    rw [List.all_eq_true, List.all_eq_true]
    refine forall₂_congr fun p member => ?_
    rw [p.holds_congr like fun x test => tested x (List.mem_append_right _ ?_)]
    exact List.mem_flatMap.mpr ⟨p, List.mem_flatten.mpr ⟨probes, there, member⟩, test⟩
  have clauses : q.passesClauses t' id = q.passesClauses t id := by
    rw [passesClauses, passesClauses]
    refine congrArg (_ || ·) (Bool.eq_iff_iff.mpr ?_)
    rw [List.any_eq_true, List.any_eq_true]
    exact exists_congr fun probes => and_congr_right (each probes)
  rw [accepts, accepts, base, contains, clauses]

end

end NoiseFilter
