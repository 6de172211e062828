import NoiseFilter.Proofs.Tree.Order
import NoiseFilter.Selector.Match

/-!
# Lines of elements

A complex selector is a row of compounds with a combinator between each and the next. What it asks
for is a line of elements, one for each compound, each joined to the next as the combinator between
says (`Complex.Line`). Matching goes from right to left and tries every element that a combinator
leaves open; it succeeds exactly if there is a line that ends with the element. A query thereby
returns exactly the elements at which some line ends, each once, in document order.
-/

namespace NoiseFilter

theorem Tree.Linked.mem_descendantElements_iff {t : Tree} (linked : t.Linked) {a b : NodeId} :
    b ∈ t.descendantElements a ↔ t.isElement b = true ∧ t.forest.Below a b := by
  rw [Tree.descendantElements, List.mem_filter, and_comm]
  exact and_congr_right fun _ => linked.forest.mem_descendants_iff

/-- How a combinator joins the element on its left to the one on its right. -/
def Combinator.Joins (t : Tree) (a b : NodeId) : Combinator → Prop
  | descendant => t.forest.Below a b
  | child => t.parent? b = some a
  | next => ∃ p, [a, b] <:+: t.elementChildren p
  | subsequent => ∃ p, [a, b].Sublist (t.children p)

/-- The elements that are tried on the left of a combinator are those that it joins. -/
theorem Combinator.mem_origins {t : Tree} (linked : t.Linked) (k : Combinator) {a b : NodeId}
    (element : t.isElement b = true) :
    a ∈ k.origins t b ↔ t.isElement a = true ∧ k.Joins t a b := by
  cases k with
  | descendant =>
    rw [origins, Joins, List.mem_filter, and_comm]
    exact and_congr_right fun _ => linked.forest.mem_ancestors_iff
  | child =>
    rw [origins, Joins, Option.mem_toList, Tree.parentElement?, Option.filter_eq_some_iff, and_comm]
  | next =>
    rw [origins, Joins, linked.mem_take_elementsBefore element]
    refine (and_iff_right_of_imp ?_).symm
    rintro ⟨p, pair⟩
    exact (List.mem_filter.mp (left_mem_of_infix_pair pair)).2
  | subsequent => exact linked.mem_elementsBefore

namespace Complex

/-- The compounds of a complex selector, from left to right. -/
def compounds : Complex → List (List Simple)
  | .compound parts => [parts]
  | .join left _ parts => left.compounds ++ [parts]

/-- The combinators of a complex selector, from left to right. -/
def combinators : Complex → List Combinator
  | .compound _ => []
  | .join left k _ => left.combinators ++ [k]

/-- There is a combinator between each compound and the next. -/
theorem length_compounds : ∀ c : Complex, c.compounds.length = c.combinators.length + 1
  | .compound _ => rfl
  | .join left _ _ => by
    rw [compounds, combinators, List.length_append, List.length_append, left.length_compounds]
    rfl

/-- Every row of compounds with a combinator between each and the next is a complex selector. -/
theorem exists_compounds (first : List Simple) (rest : List (Combinator × List Simple)) :
    ∃ c : Complex, c.compounds = first :: rest.map (·.2) ∧ c.combinators = rest.map (·.1) := by
  induction rest using List.reverseRecOn with
  | nil => exact ⟨.compound first, rfl, rfl⟩
  | append_singleton rest last ih =>
    obtain ⟨left, compounds, combinators⟩ := ih
    refine ⟨.join left last.1 last.2, ?_, ?_⟩
    · rw [Complex.compounds, compounds, List.map_append]
      rfl
    · rw [Complex.combinators, combinators, List.map_append]
      rfl

/-- Elements that match the compounds one by one, each joined to the next by the combinator between
their compounds. -/
structure Line (t : Tree) (scope : Option NodeId) (c : Complex) (path : List NodeId) : Prop where
  length : path.length = c.compounds.length
  elements : ∀ e ∈ path, t.isElement e = true
  matched : ∀ (i : Nat) parts e, c.compounds[i]? = some parts → path[i]? = some e →
    holdsAll t parts scope e = true
  joined : ∀ (i : Nat) k a b, c.combinators[i]? = some k → path[i]? = some a →
    path[i + 1]? = some b → k.Joins t a b

theorem getElem?_concat_eq_some {β : Type} {l : List β} {x y : β} {i : Nat} :
    (l ++ [x])[i]? = some y ↔ l[i]? = some y ∨ i = l.length ∧ x = y := by
  rcases Nat.lt_trichotomy i l.length with inside | rfl | outside
  · rw [List.getElem?_append_left inside]
    exact ⟨.inl, fun found => found.resolve_right fun last => Nat.ne_of_lt inside last.1⟩
  · simp
  · have short : (l ++ [x]).length ≤ i := by simpa using Nat.succ_le_of_lt outside
    rw [List.getElem?_eq_none short, List.getElem?_eq_none (Nat.le_of_lt outside)]
    simp [Nat.ne_of_gt outside]

section

variable {α β : Type}

/-- Two rows of one length are related place by place if they are without their last entries, and
the last entries are. -/
theorem forall_getElem?_concat {as : List α} {bs : List β} {a : α} {b : β} {P : α → β → Prop}
    (length : bs.length = as.length) :
    (∀ (i : Nat) x y, (as ++ [a])[i]? = some x → (bs ++ [b])[i]? = some y → P x y) ↔
      (∀ (i : Nat) x y, as[i]? = some x → bs[i]? = some y → P x y) ∧ P a b := by
  constructor
  · intro related
    refine ⟨fun i x y left right => ?_, ?_⟩
    · exact related i x y (getElem?_concat_eq_some.mpr (.inl left))
        (getElem?_concat_eq_some.mpr (.inl right))
    · exact related as.length a b (getElem?_concat_eq_some.mpr (.inr ⟨rfl, rfl⟩))
        (getElem?_concat_eq_some.mpr (.inr ⟨length.symm, rfl⟩))
  · rintro ⟨front, last⟩ i x y left right
    rcases getElem?_concat_eq_some.mp left with left | ⟨here, rfl⟩ <;>
      rcases getElem?_concat_eq_some.mp right with right | ⟨there, rfl⟩
    · exact front i x y left right
    · have inside := (List.getElem?_eq_some_iff.mp left).1
      omega
    · have inside := (List.getElem?_eq_some_iff.mp right).1
      omega
    · exact last

/-- A row whose neighbours are related by the entries of another row stays so by one more entry
exactly if the entry that is added there relates the last two. -/
theorem forall_neighbours_concat {ks : List α} {bs : List β} {k : α} {o b : β}
    {Q : α → β → β → Prop} (length : bs.length = ks.length + 1) (last : bs.getLast? = some o) :
    (∀ (i : Nat) x y z, (ks ++ [k])[i]? = some x → (bs ++ [b])[i]? = some y →
        (bs ++ [b])[i + 1]? = some z → Q x y z) ↔
      (∀ (i : Nat) x y z, ks[i]? = some x → bs[i]? = some y → bs[i + 1]? = some z → Q x y z) ∧
        Q k o b := by
  have before : bs[ks.length]? = some o := by
    rw [← last, List.getLast?_eq_getElem?, length, Nat.add_sub_cancel]
  constructor
  · intro related
    refine ⟨fun i x y z between first second => ?_, ?_⟩
    · exact related i x y z (getElem?_concat_eq_some.mpr (.inl between))
        (getElem?_concat_eq_some.mpr (.inl first)) (getElem?_concat_eq_some.mpr (.inl second))
    · exact related ks.length k o b (getElem?_concat_eq_some.mpr (.inr ⟨rfl, rfl⟩))
        (getElem?_concat_eq_some.mpr (.inl before))
        (getElem?_concat_eq_some.mpr (.inr ⟨length.symm, rfl⟩))
  · rintro ⟨front, joined⟩ i x y z between first second
    rcases getElem?_concat_eq_some.mp between with between | ⟨rfl, rfl⟩
    · have inside := (List.getElem?_eq_some_iff.mp between).1
      have first := (getElem?_concat_eq_some.mp first).resolve_right fun last => by omega
      have second := (getElem?_concat_eq_some.mp second).resolve_right fun last => by omega
      exact front i x y z between first second
    · have first := (getElem?_concat_eq_some.mp first).resolve_right fun last => by omega
      obtain rfl := Option.some.inj (before.symm.trans first)
      rcases getElem?_concat_eq_some.mp second with second | ⟨-, rfl⟩
      · have inside := (List.getElem?_eq_some_iff.mp second).1
        omega
      · exact joined

end

section

variable {t : Tree} {scope : Option NodeId} {left : Complex} {k : Combinator}
  {parts : List Simple} {front : List NodeId} {e : NodeId}

theorem line_compound : (compound parts).Line t scope [e] ↔
    t.isElement e = true ∧ holdsAll t parts scope e = true := by
  constructor
  · intro line
    exact ⟨line.elements e (by simp), line.matched 0 parts e rfl rfl⟩
  · rintro ⟨element, holds⟩
    have matched : ∀ (i : Nat) parts' e', ([] ++ [parts])[i]? = some parts' →
        ([] ++ [e])[i]? = some e' → holdsAll t parts' scope e' = true :=
      (forall_getElem?_concat (P := fun parts' e' => holdsAll t parts' scope e' = true) rfl).mpr
        ⟨by simp, holds⟩
    exact ⟨rfl, by simpa using element, matched, fun i k a b combinator => (by cases combinator)⟩

/-- A line for a longer selector is a line for the shorter one and one element more. -/
theorem line_join : (join left k parts).Line t scope (front ++ [e]) ↔
    left.Line t scope front ∧ (∃ o, front.getLast? = some o ∧ k.Joins t o e) ∧
      t.isElement e = true ∧ holdsAll t parts scope e = true := by
  have size := left.length_compounds
  constructor
  · intro line
    have length : front.length = left.compounds.length := by
      simpa [compounds] using line.length
    have filled : front ≠ [] := List.ne_nil_of_length_pos (by omega)
    obtain ⟨o, last⟩ : ∃ o, front.getLast? = some o := ⟨_, List.getLast?_eq_some_getLast filled⟩
    obtain ⟨matched, holds⟩ := (forall_getElem?_concat length).mp line.matched
    obtain ⟨joined, here⟩ := (forall_neighbours_concat (length.trans size) last).mp line.joined
    exact ⟨⟨length, fun x member => line.elements x (List.mem_append_left _ member), matched,
      joined⟩, ⟨o, last, here⟩, line.elements e (by simp), holds⟩
  · rintro ⟨line, ⟨o, last, here⟩, element, holds⟩
    refine ⟨by simp [compounds, line.length], fun x member => ?_,
      (forall_getElem?_concat line.length).mpr ⟨line.matched, holds⟩,
      (forall_neighbours_concat (line.length.trans size) last).mpr ⟨line.joined, here⟩⟩
    rcases List.mem_append.mp member with member | member
    · exact line.elements x member
    · exact List.mem_singleton.mp member ▸ element

end

/-! ## Matching -/

section

variable {t : Tree} (linked : t.Linked) (scope : Option NodeId)

include linked

/-- Matching succeeds exactly if there is a line. -/
theorem holds_iff : ∀ (c : Complex) {e : NodeId}, t.isElement e = true ∧ c.holds t scope e = true ↔
    ∃ path, c.Line t scope path ∧ path.getLast? = some e
  | .compound parts, e => by
    rw [holds, ← line_compound]
    refine ⟨fun line => ⟨[e], line, rfl⟩, ?_⟩
    rintro ⟨path, whole, last⟩
    obtain ⟨front, rfl⟩ := List.getLast?_eq_some_iff.mp last
    have alone : front = [] := by simpa [compounds] using whole.length
    subst alone
    exact whole
  | .join left k parts, e => by
    rw [holds, Bool.and_eq_true, List.any_eq_true]
    constructor
    · rintro ⟨element, holds, o, member, leftHolds⟩
      obtain ⟨originElement, joined⟩ := (k.mem_origins linked element).mp member
      obtain ⟨front, line, last⟩ := (holds_iff left).mp ⟨originElement, leftHolds⟩
      exact ⟨front ++ [e], line_join.mpr ⟨line, ⟨o, last, joined⟩, element, holds⟩,
        List.getLast?_concat⟩
    · rintro ⟨path, whole, last⟩
      obtain ⟨front, rfl⟩ := List.getLast?_eq_some_iff.mp last
      obtain ⟨line, ⟨o, last, joined⟩, element, holds⟩ := line_join.mp whole
      obtain ⟨originElement, leftHolds⟩ := (holds_iff left).mpr ⟨front, line, last⟩
      exact ⟨element, holds, o, (k.mem_origins linked element).mpr ⟨originElement, joined⟩,
        leftHolds⟩

end

end Complex

theorem holdsAll_iff {t : Tree} {scope : Option NodeId} {e : NodeId} (parts : List Simple) :
    holdsAll t parts scope e = true ↔ ∀ x ∈ parts, x.holds t scope e = true := by
  induction parts with
  | nil => simp [holdsAll]
  | cons x rest ih => simp [holdsAll, ih]

theorem holdsAny_iff {t : Tree} {scope : Option NodeId} {e : NodeId} (alternatives : List Complex) :
    holdsAny t alternatives scope e = true ↔ ∃ c ∈ alternatives, c.holds t scope e = true := by
  induction alternatives with
  | nil => simp [holdsAny]
  | cons c rest ih => simp [holdsAny, ih]

namespace Selector

/-- On every tree that edits bring about, a complex selector holds of an element exactly if a line
for it ends there; and a query returns exactly the elements below its root at which a line for some
alternative ends, each once, in document order. -/
theorem queryAll_lines {t : Tree} (grown : t.Grown) :
    (∀ (c : Complex) (scope : Option NodeId) (e : NodeId),
      t.isElement e = true ∧ c.holds t scope e = true ↔
        ∃ path, c.Line t scope path ∧ path.getLast? = some e) ∧
    ∀ (s : Selector) (root : NodeId),
      (∀ e, e ∈ s.queryAll t root ↔ t.forest.Below root e ∧
        ∃ c ∈ s.alternatives, ∃ path, c.Line t (scopeOf t root) path ∧ path.getLast? = some e) ∧
      (s.queryAll t root).Nodup ∧ (s.queryAll t root).Pairwise t.forest.Precedes := by
  have linked := grown.linked
  refine ⟨fun c scope e => c.holds_iff linked scope, fun s root => ⟨fun e => ?_, ?_, ?_⟩⟩
  · have below : e ∈ t.descendants root ↔ t.forest.Below root e :=
      linked.forest.mem_descendants_iff
    rw [queryAll, Tree.descendantElements, List.mem_filter, List.mem_filter, below, accepts,
      Bool.and_eq_true, holdsAny_iff]
    constructor
    · rintro ⟨⟨inside, element⟩, -, c, member, holds⟩
      exact ⟨inside, c, member, (c.holds_iff linked _).mp ⟨element, holds⟩⟩
    · rintro ⟨inside, c, member, line⟩
      obtain ⟨element, holds⟩ := (c.holds_iff linked _).mpr line
      exact ⟨⟨inside, element⟩, element, c, member, holds⟩
  · exact ((linked.forest.nodup_descendants root).filter _).filter _
  · exact ((linked.forest.pairwise_descendants root).filter _).filter _

/-- A page with a span inside two divisions, one in the other. -/
def nestedPage : Tree :=
  [.create (.element (.ofName "div")), .create (.element (.ofName "div")),
    .create (.element (.ofName "span")), .append .root ⟨1⟩, .append ⟨1⟩ ⟨2⟩,
    .append ⟨2⟩ ⟨3⟩].foldl (fun t w => Edit.apply t w) .empty

/-- The query div > div span finds the span, by the line of all three. -/
theorem queryAll_lines_nestedPage : nestedPage.Grown ∧
    ⟨3⟩ ∈ queryAll ⟨[.join (.join (.compound [.type "div"]) .child [.type "div"]) .descendant
      [.type "span"]]⟩ nestedPage .root := by
  have grown : nestedPage.Grown := ⟨_, rfl⟩
  have up : nestedPage.forest.parent? ⟨3⟩ = some ⟨2⟩ ∧ nestedPage.forest.parent? ⟨2⟩ = some ⟨1⟩ ∧
      nestedPage.forest.parent? ⟨1⟩ = some .root := by decide +kernel
  have below : nestedPage.forest.Below .root ⟨3⟩ := .tail (.tail (.single up.2.2) up.2.1) up.1
  refine ⟨grown, (((queryAll_lines grown).2 _ _).1 _).mpr
    ⟨below, _, List.mem_singleton.mpr rfl, [⟨1⟩] ++ [⟨2⟩] ++ [⟨3⟩], ?_, rfl⟩⟩
  refine Complex.line_join.mpr ⟨Complex.line_join.mpr ⟨Complex.line_compound.mpr ?_,
    ⟨⟨1⟩, rfl, up.2.1⟩, ?_⟩, ⟨⟨2⟩, rfl, .single up.1⟩, ?_⟩
  all_goals decide +kernel

end Selector

end NoiseFilter
