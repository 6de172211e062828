import Mathlib.Data.List.Induction
import Mathlib.Data.List.Nodup
import Mathlib.Data.List.Perm.Subperm
import NoiseFilter.Proofs.Tree.Edit

/-!
# Child lists as links

A child list is not stored: it is what one finds on the way from the first child from sibling to
sibling. `Forest.Threads` says that the links of a forest run along given lists, one for each node.
Then the walks find these lists, whole and in order, and each write of links changes them as it
should: taking a node out of its place is taking it out of its list, and a node that is put behind
the last child of a node goes to the end of its list.

Two nodes are neighbours in a list if the two of them are an infix of it. Since no node stands
twice in a list, a link sideways says which node is the neighbour, and both links of two neighbours
say the same.
-/

namespace NoiseFilter

/-! ## Neighbours in a list -/

section Neighbours

variable {β : Type} {a b x : β} {l r : List β}

theorem pair_infix_cons : [a, b] <:+: x :: l ↔ a = x ∧ l.head? = some b ∨ [a, b] <:+: l := by
  rw [List.infix_cons_iff, List.cons_prefix_cons]
  cases l with
  | nil => simp
  | cons y l => simp [eq_comm (a := b)]

theorem pair_infix_append : [a, b] <:+: l ++ r ↔
    [a, b] <:+: l ∨ [a, b] <:+: r ∨ l.getLast? = some a ∧ r.head? = some b := by
  induction l with
  | nil => simp
  | cons x l ih =>
    rw [List.cons_append, pair_infix_cons, ih, pair_infix_cons]
    cases l with
    | nil => simp [eq_comm (a := a), or_comm]
    | cons y l => simp [or_assoc]

theorem pair_infix_concat :
    [a, b] <:+: l ++ [x] ↔ [a, b] <:+: l ∨ l.getLast? = some a ∧ b = x := by
  rw [pair_infix_append, pair_infix_cons]
  simp [eq_comm (a := b)]

theorem left_mem_of_infix_pair (neighbours : [a, b] <:+: l) : a ∈ l :=
  neighbours.subset (by simp)

theorem right_mem_of_infix_pair (neighbours : [a, b] <:+: l) : b ∈ l :=
  neighbours.subset (by simp)

/-- Where a list that holds a member once is cut in two. -/
theorem exists_halves [DecidableEq β] (distinct : l.Nodup) (member : x ∈ l) :
    ∃ before behind, l = before ++ x :: behind ∧ l.erase x = before ++ behind ∧
      x ∉ before ∧ x ∉ behind := by
  obtain ⟨before, behind, halves⟩ := List.append_of_mem member
  subst halves
  have apart := List.nodup_middle.mp distinct
  have outside : x ∉ before ++ behind := (List.nodup_cons.mp apart).1
  rw [List.mem_append, not_or] at outside
  refine ⟨before, behind, rfl, ?_, outside.1, outside.2⟩
  rw [List.erase_append_right _ outside.1, List.erase_cons_head]

section Middle

variable {before behind : List β} (notBefore : x ∉ before) (notBehind : x ∉ behind)

include notBefore notBehind

/-- The left neighbour of a member that a list holds once. -/
theorem pair_infix_left : [a, x] <:+: before ++ x :: behind ↔ before.getLast? = some a := by
  rw [pair_infix_append, pair_infix_cons]
  constructor
  · rintro (inside | (⟨-, head⟩ | inside) | ⟨last, -⟩)
    · exact absurd (right_mem_of_infix_pair inside) notBefore
    · exact absurd (List.mem_of_head? head) notBehind
    · exact absurd (right_mem_of_infix_pair inside) notBehind
    · exact last
  · exact fun last => .inr (.inr ⟨last, rfl⟩)

/-- The right neighbour of a member that a list holds once. -/
theorem pair_infix_right : [x, b] <:+: before ++ x :: behind ↔ behind.head? = some b := by
  rw [pair_infix_append, pair_infix_cons]
  constructor
  · rintro (inside | (⟨-, head⟩ | inside) | ⟨last, -⟩)
    · exact absurd (left_mem_of_infix_pair inside) notBefore
    · exact head
    · exact absurd (left_mem_of_infix_pair inside) notBehind
    · exact absurd (List.mem_of_getLast? last) notBefore
  · exact fun head => .inr (.inl (.inl ⟨rfl, head⟩))

/-- When a member is taken out, its two neighbours become neighbours of each other. -/
theorem pair_infix_halves : [a, b] <:+: before ++ behind ↔ a ≠ x ∧ b ≠ x ∧
    ([a, b] <:+: before ++ x :: behind ∨
      [a, x] <:+: before ++ x :: behind ∧ [x, b] <:+: before ++ x :: behind) := by
  rw [pair_infix_left notBefore notBehind, pair_infix_right notBefore notBehind,
    pair_infix_append (r := behind), pair_infix_append (r := x :: behind), pair_infix_cons]
  constructor
  · rintro (inside | inside | ⟨last, head⟩)
    · refine ⟨?_, ?_, .inl (.inl inside)⟩
      · exact ne_of_mem_of_not_mem (left_mem_of_infix_pair inside) notBefore
      · exact ne_of_mem_of_not_mem (right_mem_of_infix_pair inside) notBefore
    · refine ⟨?_, ?_, .inl (.inr (.inl (.inr inside)))⟩
      · exact ne_of_mem_of_not_mem (left_mem_of_infix_pair inside) notBehind
      · exact ne_of_mem_of_not_mem (right_mem_of_infix_pair inside) notBehind
    · refine ⟨?_, ?_, .inr ⟨last, head⟩⟩
      · exact ne_of_mem_of_not_mem (List.mem_of_getLast? last) notBefore
      · exact ne_of_mem_of_not_mem (List.mem_of_head? head) notBehind
  · rintro ⟨notLeft, notRight, (inside | (⟨same, -⟩ | inside) | ⟨-, head⟩) | across⟩
    · exact .inl inside
    · exact absurd same notLeft
    · exact .inr (.inl inside)
    · exact absurd (Option.some.inj head).symm notRight
    · exact .inr (.inr across)

end Middle

/-- The last member has nothing on its right. -/
theorem not_pair_infix_of_getLast? (distinct : l.Nodup) (last : l.getLast? = some a) :
    ¬ [a, b] <:+: l := by
  obtain ⟨before, rfl⟩ := List.getLast?_eq_some_iff.mp last
  have notBefore : a ∉ before := fun inside =>
    List.disjoint_of_nodup_append distinct inside (List.mem_singleton.mpr rfl)
  rw [pair_infix_right notBefore (List.not_mem_nil)]
  exact nofun

theorem pair_infix_erase [DecidableEq β] (distinct : l.Nodup) (x : β) : [a, b] <:+: l.erase x ↔
    a ≠ x ∧ b ≠ x ∧ ([a, b] <:+: l ∨ [a, x] <:+: l ∧ [x, b] <:+: l) := by
  by_cases member : x ∈ l
  · obtain ⟨before, behind, rfl, erased, notBefore, notBehind⟩ := exists_halves distinct member
    rw [erased, pair_infix_halves notBefore notBehind]
  · rw [List.erase_of_not_mem member]
    constructor
    · intro neighbours
      refine ⟨?_, ?_, .inl neighbours⟩
      · exact ne_of_mem_of_not_mem (left_mem_of_infix_pair neighbours) member
      · exact ne_of_mem_of_not_mem (right_mem_of_infix_pair neighbours) member
    · rintro ⟨-, -, neighbours | ⟨neighbours, -⟩⟩
      · exact neighbours
      · exact absurd (right_mem_of_infix_pair neighbours) member

end Neighbours

namespace Forest

variable {α : Type}

/-! ## What the writes do to the links -/

theorem Node.target_point (n : Node α) (target : Option NodeId) (link link' : Link) :
    (n.point target link).target link' = if link' = link then target else n.target link' := by
  cases link <;> cases link' <;> rfl

section Writes

variable (f : Forest α)

theorem has_iff {id : NodeId} : f.has id = true ↔ ∃ n, f.get? id = some n := by
  rw [has, decide_eq_true_eq, get?]
  constructor
  · exact fun inside => ⟨_, Array.getElem?_eq_getElem inside⟩
  · rintro ⟨n, found⟩
    exact (Array.getElem?_eq_some_iff.mp found).1

theorem has_of_target? {link : Link} {id x : NodeId} (leads : f.target? link id = some x) :
    f.has id = true := by
  obtain ⟨n, found, -⟩ := Option.bind_eq_some_iff.mp leads
  exact f.has_iff.mpr ⟨n, found⟩

theorem ne_size_of_target? {link : Link} {id x : NodeId} (leads : f.target? link id = some x) :
    id ≠ ⟨f.size⟩ := by
  rintro rfl
  exact Nat.lt_irrefl _ (of_decide_eq_true (f.has_of_target? leads))

theorem target?_create (data : α) (link : Link) (id : NodeId) :
    (f.create data).2.target? link id = f.target? link id := by
  rw [target?, target?, get?, get?, create, Array.getElem?_push]
  split
  · rename_i new
    rw [new, Array.getElem?_eq_none (Nat.le_refl _)]
    cases link <;> rfl
  · rfl

theorem target?_single (data : α) (link : Link) (id : NodeId) :
    (single data).target? link id = none := by
  rw [target?]
  cases found : (single data).get? id with
  | none => rfl
  | some n =>
    have alone : n = { data } := by
      have there := Array.mem_of_getElem? found
      simpa [single] using there
    subst alone
    cases link <;> rfl

theorem target?_point {id : NodeId} (here : f.has id = true) (link link' : Link)
    (target : Option NodeId) (x : NodeId) :
    (f.point link id target).target? link' x =
      if x = id ∧ link' = link then target else f.target? link' x := by
  rw [target?, target?, point, get?_modify]
  by_cases same : x = id
  · obtain ⟨n, found⟩ := f.has_iff.mp here
    simp [same, found, Node.target_point]
  · simp [same]

variable {p : NodeId} {before behind : Option NodeId} (parentHere : f.has p = true)

include parentHere

theorem target?_leadOn (beforeHere : ∀ id ∈ before, f.has id = true) (link : Link) (x : NodeId) :
    (f.leadOn p before behind).target? link x =
      if before = some x ∧ link = .next ∨ before = none ∧ x = p ∧ link = .firstChild then behind
      else f.target? link x := by
  cases before with
  | none =>
    rw [leadOn, f.target?_point parentHere]
    simp
  | some id =>
    rw [leadOn, f.target?_point (beforeHere id rfl)]
    simp [eq_comm]

theorem target?_leadBack (behindHere : ∀ id ∈ behind, f.has id = true) (link : Link) (x : NodeId) :
    (f.leadBack p before behind).target? link x =
      if behind = some x ∧ link = .previous ∨ behind = none ∧ x = p ∧ link = .lastChild then before
      else f.target? link x := by
  cases behind with
  | none =>
    rw [leadBack, f.target?_point parentHere]
    simp
  | some id =>
    rw [leadBack, f.target?_point (behindHere id rfl)]
    simp [eq_comm]

theorem target?_join (beforeHere : ∀ id ∈ before, f.has id = true)
    (behindHere : ∀ id ∈ behind, f.has id = true) (link : Link) (x : NodeId) :
    (f.join p before behind).target? link x =
      if behind = some x ∧ link = .previous ∨ behind = none ∧ x = p ∧ link = .lastChild then before
      else if before = some x ∧ link = .next ∨ before = none ∧ x = p ∧ link = .firstChild then
        behind
      else f.target? link x := by
  have same := SameNodes.leadOn f p before behind
  rw [join, target?_leadBack _ ((same.has p).trans parentHere)
    (fun id member => (same.has id).trans (behindHere id member)),
    f.target?_leadOn parentHere beforeHere]

omit parentHere in
theorem target?_cut {id : NodeId} (here : f.has id = true) (link : Link) (x : NodeId) :
    (f.cut id).target? link x =
      if x = id ∧ (link = .parent ∨ link = .previous ∨ link = .next) then none
      else f.target? link x := by
  have first := SameNodes.point f .parent id none
  have second := first.trans (SameNodes.point _ .previous id none)
  rw [cut, target?_point _ ((second.has id).trans here),
    target?_point _ ((first.has id).trans here),
    f.target?_point here]
  by_cases same : x = id
  · cases link <;> simp [same]
  · simp [same]

end Writes

/-- Different nodes of a forest are no more than there are nodes. -/
theorem length_le_of_nodup {size : Nat} {ids : List NodeId} (distinct : ids.Nodup)
    (inside : ∀ id ∈ ids, id.index < size) : ids.length ≤ size := by
  have injective : Function.Injective NodeId.index := by
    rintro ⟨a⟩ ⟨b⟩ same
    exact congrArg NodeId.mk same
  have covered : ids.map (·.index) ⊆ List.range size := by
    intro i member
    obtain ⟨id, there, rfl⟩ := List.mem_map.mp member
    exact List.mem_range.mpr (inside id there)
  simpa using ((distinct.map injective).subperm covered).length_le

/-! ## Links along lists -/

/-- The links of a forest run along given lists of children. -/
structure Threads (f : Forest α) (kids : NodeId → List NodeId) : Prop where
  parent : ∀ p c, c ∈ kids p ↔ f.parent? c = some p
  nodup : ∀ p, (kids p).Nodup
  firstChild : ∀ p, f.firstChild? p = (kids p).head?
  lastChild : ∀ p, f.lastChild? p = (kids p).getLast?
  next : ∀ c d, f.next? c = some d ↔ ∃ p, [c, d] <:+: kids p
  previous : ∀ c d, f.previous? d = some c ↔ ∃ p, [c, d] <:+: kids p

namespace Threads

variable {f : Forest α} {kids : NodeId → List NodeId}

theorem single (data : α) : (Forest.single data).Threads fun _ => [] := by
  constructor <;>
    simp [parent?, firstChild?, lastChild?, next?, previous?, target?_single]

/-- Links alone decide which lists they run along. -/
theorem of_same (threads : f.Threads kids) {f' : Forest α}
    (same : ∀ link id, f'.target? link id = f.target? link id) : f'.Threads kids where
  parent p c := by
    rw [parent?, same]
    exact threads.parent p c
  nodup := threads.nodup
  firstChild p := (same .firstChild p).trans (threads.firstChild p)
  lastChild p := (same .lastChild p).trans (threads.lastChild p)
  next c d := by
    rw [next?, same]
    exact threads.next c d
  previous c d := by
    rw [previous?, same]
    exact threads.previous c d

section

variable (threads : f.Threads kids) {c d p q : NodeId}

include threads

theorem parent_unique (here : c ∈ kids p) (there : c ∈ kids q) : p = q :=
  Option.some.inj (((threads.parent p c).mp here).symm.trans ((threads.parent q c).mp there))

theorem has_of_mem (member : c ∈ kids p) : f.has c = true :=
  f.has_of_target? ((threads.parent p c).mp member)

theorem has_of_holds (member : c ∈ kids p) : f.has p = true := by
  obtain ⟨first, head⟩ :=
    Option.isSome_iff_exists.mp (List.isSome_head?.mpr (List.ne_nil_of_mem member))
  exact f.has_of_target? ((threads.firstChild p).trans head)

theorem mem_of_next? (leads : f.next? c = some d) : ∃ p, c ∈ kids p ∧ d ∈ kids p := by
  obtain ⟨p, neighbours⟩ := (threads.next c d).mp leads
  exact ⟨p, left_mem_of_infix_pair neighbours, right_mem_of_infix_pair neighbours⟩

theorem next?_iff (here : c ∈ kids p) : f.next? c = some d ↔ [c, d] <:+: kids p := by
  rw [threads.next]
  refine ⟨?_, fun neighbours => ⟨p, neighbours⟩⟩
  rintro ⟨q, neighbours⟩
  exact threads.parent_unique (left_mem_of_infix_pair neighbours) here ▸ neighbours

theorem previous?_iff (here : d ∈ kids p) : f.previous? d = some c ↔ [c, d] <:+: kids p := by
  rw [threads.previous]
  refine ⟨?_, fun neighbours => ⟨p, neighbours⟩⟩
  rintro ⟨q, neighbours⟩
  exact threads.parent_unique (right_mem_of_infix_pair neighbours) here ▸ neighbours

/-- The links sideways are the inverse of each other. -/
theorem previous?_eq_some_iff : f.previous? d = some c ↔ f.next? c = some d :=
  (threads.previous c d).trans (threads.next c d).symm

/-- A node in no list leads nowhere. -/
theorem next?_of_nowhere (nowhere : ∀ p, c ∉ kids p) : f.next? c = none :=
  Option.eq_none_iff_forall_ne_some.mpr fun _ leads => by
    obtain ⟨p, member, -⟩ := threads.mem_of_next? leads
    exact nowhere p member

/-- Nothing leads to a node in no list. -/
theorem previous?_of_nowhere (nowhere : ∀ p, c ∉ kids p) : f.previous? c = none :=
  Option.eq_none_iff_forall_ne_some.mpr fun _ leads => by
    obtain ⟨p, -, member⟩ := threads.mem_of_next? (threads.previous?_eq_some_iff.mp leads)
    exact nowhere p member

theorem next?_of_getLast? (last : (kids p).getLast? = some c) : f.next? c = none :=
  Option.eq_none_iff_forall_ne_some.mpr fun _ leads => by
    rw [threads.next?_iff (List.mem_of_getLast? last)] at leads
    exact not_pair_infix_of_getLast? (threads.nodup p) last leads

/-! ### Walks -/

section Halves

variable {before behind : List NodeId} (halves : kids p = before ++ c :: behind)

include halves

theorem not_mem_halves : c ∉ before ∧ c ∉ behind := by
  have distinct := threads.nodup p
  rw [halves] at distinct
  have outside := (List.nodup_cons.mp (List.nodup_middle.mp distinct)).1
  rwa [List.mem_append, not_or] at outside

/-- What follows a node in its list. -/
theorem next?_of_halves : f.next? c = behind.head? := by
  have here : c ∈ kids p := halves ▸ List.mem_append_right before (List.mem_cons_self ..)
  obtain ⟨notBefore, notBehind⟩ := threads.not_mem_halves halves
  refine Option.ext fun d => ?_
  rw [threads.next?_iff here, ← pair_infix_right notBefore notBehind, halves]

/-- What precedes a node in its list. -/
theorem previous?_of_halves : f.previous? c = before.getLast? := by
  have here : c ∈ kids p := halves ▸ List.mem_append_right before (List.mem_cons_self ..)
  obtain ⟨notBefore, notBehind⟩ := threads.not_mem_halves halves
  refine Option.ext fun d => ?_
  rw [threads.previous?_iff here, ← pair_infix_left notBefore notBehind, halves]

end Halves

theorem next?_ne_self (c : NodeId) : f.next? c ≠ some c := by
  intro circle
  obtain ⟨p, here, -⟩ := threads.mem_of_next? circle
  obtain ⟨before, behind, halves⟩ := List.append_of_mem here
  rw [threads.next?_of_halves halves] at circle
  exact (threads.not_mem_halves halves).2 (List.mem_of_head? circle)

/-- The way forward from any place in a list is the rest of the list. -/
theorem walk_next {before rest : List NodeId} (halves : kids p = before ++ rest) {bound : Nat}
    (enough : rest.length ≤ bound) : f.walk .next bound rest.head? = rest := by
  induction rest generalizing before bound with
  | nil => cases bound <;> rfl
  | cons c rest ih =>
    obtain ⟨bound, rfl⟩ := Nat.exists_eq_add_of_le' (Nat.zero_lt_of_lt enough)
    have step : f.target? .next c = rest.head? := threads.next?_of_halves halves
    have later : kids p = (before ++ [c]) ++ rest := by rw [halves, List.append_cons]
    rw [List.head?_cons, walk, step, ih later (Nat.le_of_succ_le_succ enough)]

/-- The way back from any place in a list is what stands before it. -/
theorem walk_previous {before rest : List NodeId} (halves : kids p = before ++ rest) {bound : Nat}
    (enough : before.length ≤ bound) :
    f.walk .previous bound before.getLast? = before.reverse := by
  induction before using List.reverseRecOn generalizing rest bound with
  | nil => cases bound <;> rfl
  | append_singleton before c ih =>
    rw [List.length_append, List.length_singleton] at enough
    obtain ⟨bound, rfl⟩ := Nat.exists_eq_add_of_le' (Nat.le_of_add_left_le enough)
    have earlier : kids p = before ++ c :: rest := by rw [halves, ← List.append_cons]
    have step : f.target? .previous c = before.getLast? := threads.previous?_of_halves earlier
    rw [List.getLast?_concat, walk, step, ih earlier (Nat.le_of_succ_le_succ enough),
      List.reverse_concat]

theorem length_le_size (p : NodeId) : (kids p).length ≤ f.size :=
  length_le_of_nodup (threads.nodup p) fun _ member => of_decide_eq_true (threads.has_of_mem member)

/-- The children of a node are the list along which the links run. -/
theorem children_eq (p : NodeId) : f.children p = kids p := by
  have all : kids p = [] ++ kids p := rfl
  rw [children, threads.firstChild]
  exact threads.walk_next all (threads.length_le_size p)

section Halves

variable {before behind : List NodeId} (halves : kids p = before ++ c :: behind)

include halves

theorem siblingsBefore_eq : f.siblingsBefore c = before.reverse := by
  have short := threads.length_le_size p
  rw [halves, List.length_append] at short
  rw [siblingsBefore, threads.previous?_of_halves halves]
  exact threads.walk_previous halves (Nat.le_of_add_right_le short)

theorem siblingsAfter_eq : f.siblingsAfter c = behind := by
  have short := threads.length_le_size p
  rw [halves, List.length_append, List.length_cons] at short
  rw [siblingsAfter, threads.next?_of_halves halves]
  exact threads.walk_next (halves.trans (List.append_cons ..)) (by omega)

end Halves

end

/-! ### Out of a list -/

section Unlink

variable (threads : f.Threads kids) {p id : NodeId} (parent : f.parent? id = some p)

include threads parent

theorem target?_unlink (link : Link) (x : NodeId) :
    (f.unlink id).target? link x =
      if x = id ∧ (link = .parent ∨ link = .previous ∨ link = .next) then none
      else if f.next? id = some x ∧ link = .previous ∨
          f.next? id = none ∧ x = p ∧ link = .lastChild then f.previous? id
      else if f.previous? id = some x ∧ link = .next ∨
          f.previous? id = none ∧ x = p ∧ link = .firstChild then f.next? id
      else f.target? link x := by
  have member := (threads.parent p id).mpr parent
  rw [Forest.unlink, parent]
  refine (target?_cut _ ?_ link x).trans ?_
  · exact ((SameNodes.join f ..).has id).trans (f.has_of_target? parent)
  · rw [f.target?_join (threads.has_of_holds member) _ _]
    · intro c before
      exact f.has_of_target? (threads.previous?_eq_some_iff.mp before)
    · intro d behind
      exact f.has_of_target? (threads.previous?_eq_some_iff.mpr behind)

theorem next?_unlink (c : NodeId) : (f.unlink id).next? c =
    if c = id then none else if f.previous? id = some c then f.next? id else f.next? c := by
  rw [next?, threads.target?_unlink parent]
  simp [next?]

theorem previous?_unlink (d : NodeId) : (f.unlink id).previous? d =
    if d = id then none else if f.next? id = some d then f.previous? id else f.previous? d := by
  rw [previous?, threads.target?_unlink parent]
  simp [previous?]

/-- After a node was taken out, its neighbours are neighbours. -/
theorem next?_unlink_iff {c d : NodeId} : (f.unlink id).next? c = some d ↔
    c ≠ id ∧ d ≠ id ∧ (f.next? c = some d ∨ f.next? c = some id ∧ f.next? id = some d) := by
  have distinct := threads.next?_ne_self id
  rw [threads.next?_unlink parent]
  split
  · rename_i same
    simp [same]
  · rename_i notLeft
    split
    · rename_i before
      have toward := threads.previous?_eq_some_iff.mp before
      constructor
      · intro away
        exact ⟨notLeft, fun same => distinct (same ▸ away), .inr ⟨toward, away⟩⟩
      · rintro ⟨-, notRight, old | ⟨-, away⟩⟩
        · exact absurd (Option.some.inj (old.symm.trans toward)) notRight
        · exact away
    · rename_i notBefore
      have apart : f.next? c ≠ some id := fun toward =>
        notBefore (threads.previous?_eq_some_iff.mpr toward)
      constructor
      · exact fun old => ⟨notLeft, fun same => apart (same ▸ old), .inl old⟩
      · rintro ⟨-, -, old | ⟨toward, -⟩⟩
        · exact old
        · exact absurd toward apart

theorem previous?_unlink_iff {c d : NodeId} : (f.unlink id).previous? d = some c ↔
    c ≠ id ∧ d ≠ id ∧ (f.next? c = some d ∨ f.next? c = some id ∧ f.next? id = some d) := by
  have distinct := threads.next?_ne_self id
  rw [threads.previous?_unlink parent]
  split
  · rename_i same
    simp [same]
  · rename_i notRight
    split
    · rename_i away
      constructor
      · intro before
        have toward := threads.previous?_eq_some_iff.mp before
        exact ⟨fun same => distinct (same ▸ toward), notRight, .inr ⟨toward, away⟩⟩
      · rintro ⟨notLeft, -, old | ⟨toward, -⟩⟩
        · have same := (threads.previous?_eq_some_iff.mpr old).symm.trans
            (threads.previous?_eq_some_iff.mpr away)
          exact absurd (Option.some.inj same) notLeft
        · exact threads.previous?_eq_some_iff.mpr toward
    · rename_i apart
      rw [threads.previous?_eq_some_iff]
      constructor
      · exact fun old => ⟨fun same => apart (same ▸ old), notRight, .inl old⟩
      · rintro ⟨-, -, old | ⟨-, away⟩⟩
        · exact old
        · exact absurd away apart

theorem firstChild?_unlink (q : NodeId) : (f.unlink id).firstChild? q =
    if f.previous? id = none ∧ q = p then f.next? id else f.firstChild? q := by
  rw [firstChild?, threads.target?_unlink parent]
  simp [firstChild?]

theorem lastChild?_unlink (q : NodeId) : (f.unlink id).lastChild? q =
    if f.next? id = none ∧ q = p then f.previous? id else f.lastChild? q := by
  rw [lastChild?, threads.target?_unlink parent]
  simp [lastChild?]

omit parent in
theorem parent?_unlink (c : NodeId) :
    (f.unlink id).parent? c = if c = id then none else f.parent? c := by
  cases parent : f.parent? id with
  | none =>
    have untouched : f.unlink id = f := by rw [Forest.unlink, parent]
    rw [untouched]
    split
    · rename_i same
      exact same ▸ parent
    · rfl
  | some p =>
    rw [parent?, threads.target?_unlink parent]
    simp [parent?]

end Unlink

/-- Neighbours in the lists without a node, said with the links. -/
theorem exists_pair_infix_erase (threads : f.Threads kids) {p id c d : NodeId}
    (member : id ∈ kids p) : (∃ q, [c, d] <:+: (kids q).erase id) ↔
      c ≠ id ∧ d ≠ id ∧ (f.next? c = some d ∨ f.next? c = some id ∧ f.next? id = some d) := by
  simp only [pair_infix_erase (threads.nodup _)]
  constructor
  · rintro ⟨q, notLeft, notRight, old | ⟨toward, away⟩⟩
    · exact ⟨notLeft, notRight, .inl ((threads.next c d).mpr ⟨q, old⟩)⟩
    · exact ⟨notLeft, notRight,
        .inr ⟨(threads.next c id).mpr ⟨q, toward⟩, (threads.next id d).mpr ⟨q, away⟩⟩⟩
  · rintro ⟨notLeft, notRight, old | ⟨toward, away⟩⟩
    · obtain ⟨q, old⟩ := (threads.next c d).mp old
      exact ⟨q, notLeft, notRight, .inl old⟩
    · exact ⟨p, notLeft, notRight,
        .inr ⟨(threads.previous?_iff member).mp (threads.previous?_eq_some_iff.mpr toward),
          (threads.next?_iff member).mp away⟩⟩

/-- Taking a node out of its place takes it out of its list. -/
theorem unlink (threads : f.Threads kids) (id : NodeId) :
    (f.unlink id).Threads fun p => (kids p).erase id := by
  cases parent : f.parent? id with
  | none =>
    have nowhere (p : NodeId) : (kids p).erase id = kids p :=
      List.erase_of_not_mem fun member => by simp [(threads.parent p id).mp member] at parent
    simpa only [nowhere, Forest.unlink, parent] using threads
  | some p =>
    have member := (threads.parent p id).mpr parent
    obtain ⟨before, behind, halves, erased, -, -⟩ := exists_halves (threads.nodup p) member
    have left := threads.previous?_of_halves halves
    have right := threads.next?_of_halves halves
    have elsewhere {q : NodeId} (other : q ≠ p) : (kids q).erase id = kids q :=
      List.erase_of_not_mem fun inside => other (threads.parent_unique inside member)
    constructor
    · intro q c
      rw [threads.parent?_unlink, (threads.nodup q).mem_erase_iff, threads.parent]
      by_cases same : c = id <;> simp [same]
    · exact fun q => (threads.nodup q).erase id
    · intro q
      rw [threads.firstChild?_unlink parent, threads.firstChild, left, right]
      by_cases here : q = p
      · subst here
        rw [erased, halves]
        cases before <;> simp
      · simp [elsewhere here, here]
    · intro q
      rw [threads.lastChild?_unlink parent, threads.lastChild, left, right]
      by_cases here : q = p
      · subst here
        rw [erased, halves]
        cases behind <;> simp
      · simp [elsewhere here, here]
    · intro c d
      rw [threads.next?_unlink_iff parent, threads.exists_pair_infix_erase member]
    · intro c d
      rw [threads.previous?_unlink_iff parent, threads.exists_pair_infix_erase member]

/-! ### Into a list -/

section Append

variable (threads : f.Threads kids) {parent child : NodeId} (loose : f.parent? child = none)
  (parentHere : f.has parent = true) (childHere : f.has child = true)

include threads parentHere childHere

theorem target?_insert_last (link : Link) (x : NodeId) :
    (f.insert parent (f.lastChild? parent) child none).target? link x =
      if x = parent ∧ link = .lastChild then some child
      else if x = child ∧ link = .next then none
      else if x = child ∧ link = .previous then f.lastChild? parent
      else if f.lastChild? parent = some x ∧ link = .next ∨
          f.lastChild? parent = none ∧ x = parent ∧ link = .firstChild then some child
      else if x = child ∧ link = .parent then some parent
      else f.target? link x := by
  have lastHere : ∀ id ∈ f.lastChild? parent, f.has id = true := fun id last => by
    rw [threads.lastChild] at last
    exact threads.has_of_mem (List.mem_of_getLast? last)
  have pointed := SameNodes.point f .parent child (some parent)
  have joined := pointed.trans (SameNodes.join _ parent (f.lastChild? parent) (some child))
  rw [insert, target?_join _ ((joined.has _).trans parentHere),
    target?_join _ ((pointed.has _).trans parentHere), f.target?_point childHere]
  · simp [eq_comm]
  · exact fun id last => (pointed.has id).trans (lastHere id last)
  · rintro id ⟨⟩
    exact (pointed.has _).trans childHere
  · rintro id ⟨⟩
    exact (joined.has _).trans childHere
  · exact nofun

theorem parent?_insert_last (c : NodeId) :
    (f.insert parent (f.lastChild? parent) child none).parent? c =
      if c = child then some parent else f.parent? c := by
  rw [parent?, threads.target?_insert_last parentHere childHere]
  simp [parent?]

theorem next?_insert_last (c : NodeId) :
    (f.insert parent (f.lastChild? parent) child none).next? c =
      if c = child then none
      else if f.lastChild? parent = some c then some child else f.next? c := by
  rw [next?, threads.target?_insert_last parentHere childHere]
  simp [next?]

theorem previous?_insert_last (d : NodeId) :
    (f.insert parent (f.lastChild? parent) child none).previous? d =
      if d = child then f.lastChild? parent else f.previous? d := by
  rw [previous?, threads.target?_insert_last parentHere childHere]
  simp [previous?]

theorem firstChild?_insert_last (p : NodeId) :
    (f.insert parent (f.lastChild? parent) child none).firstChild? p =
      if f.lastChild? parent = none ∧ p = parent then some child else f.firstChild? p := by
  rw [firstChild?, threads.target?_insert_last parentHere childHere]
  simp [firstChild?]

theorem lastChild?_insert_last (p : NodeId) :
    (f.insert parent (f.lastChild? parent) child none).lastChild? p =
      if p = parent then some child else f.lastChild? p := by
  rw [lastChild?, threads.target?_insert_last parentHere childHere]
  simp [lastChild?]

omit parentHere childHere in
/-- Neighbours in the lists with a node at the end of one, said with the links. -/
theorem exists_pair_infix_concat (c d : NodeId) :
    (∃ q, [c, d] <:+: if q = parent then kids q ++ [child] else kids q) ↔
      f.next? c = some d ∨ f.lastChild? parent = some c ∧ d = child := by
  rw [threads.next, threads.lastChild]
  constructor
  · rintro ⟨q, together⟩
    split at together
    · rename_i here
      exact (pair_infix_concat.mp together).imp (fun old => ⟨q, old⟩) (here ▸ ·)
    · exact .inl ⟨q, together⟩
  · rintro (⟨q, old⟩ | new)
    · refine ⟨q, ?_⟩
      split
      · exact pair_infix_concat.mpr (.inl old)
      · exact old
    · refine ⟨parent, ?_⟩
      rw [if_pos rfl]
      exact pair_infix_concat.mpr (.inr new)

include loose

/-- A loose node that is put behind the last child goes to the end of the list. -/
theorem insert_last : (f.insert parent (f.lastChild? parent) child none).Threads fun p =>
    if p = parent then kids p ++ [child] else kids p := by
  have nowhere (p : NodeId) : child ∉ kids p := fun member => by
    simp [(threads.parent p child).mp member] at loose
  have notLast : f.lastChild? parent ≠ some child := fun last =>
    nowhere parent (List.mem_of_getLast? ((threads.lastChild parent).symm.trans last))
  constructor
  · intro p c
    rw [threads.parent?_insert_last parentHere childHere]
    by_cases same : c = child
    · by_cases here : p = parent
      · simp [same, here]
      · simp [same, here, nowhere, Ne.symm here]
    · by_cases here : p = parent <;> simp [same, here, threads.parent]
  · intro p
    split
    · exact List.nodup_append.mpr ⟨threads.nodup p, List.nodup_singleton child,
        fun c inside _ last => List.mem_singleton.mp last ▸ ne_of_mem_of_not_mem inside (nowhere p)⟩
    · exact threads.nodup p
  · intro p
    rw [threads.firstChild?_insert_last parentHere childHere, threads.lastChild, threads.firstChild]
    by_cases here : p = parent
    · subst here
      cases kids p <;> simp
    · simp [here]
  · intro p
    rw [threads.lastChild?_insert_last parentHere childHere, threads.lastChild]
    by_cases here : p = parent <;> simp [here]
  · intro c d
    rw [threads.exists_pair_infix_concat, threads.next?_insert_last parentHere childHere]
    by_cases same : c = child
    · simp [same, threads.next?_of_nowhere nowhere, notLast]
    · by_cases last : f.lastChild? parent = some c
      · have ended := threads.next?_of_getLast? ((threads.lastChild parent).symm.trans last)
        simp [same, last, ended, eq_comm]
      · simp [same, last]
  · intro c d
    rw [threads.exists_pair_infix_concat, threads.previous?_insert_last parentHere childHere,
      ← threads.previous?_eq_some_iff]
    by_cases same : d = child
    · simp [same, threads.previous?_of_nowhere nowhere]
    · simp [same]

omit loose

/-- Appending a node takes it out of its list and puts it at the end of that of its new parent. -/
theorem append : (f.append parent child).Threads fun p =>
    if p = parent then (kids p).erase child ++ [child] else (kids p).erase child := by
  have same := SameNodes.unlink f child
  refine (threads.unlink child).insert_last ?_ ((same.has _).trans parentHere)
    ((same.has _).trans childHere)
  rw [threads.parent?_unlink, if_pos rfl]

theorem parent?_append (c : NodeId) :
    (f.append parent child).parent? c = if c = child then some parent else f.parent? c := by
  have same := SameNodes.unlink f child
  refine ((threads.unlink child).parent?_insert_last ((same.has _).trans parentHere)
    ((same.has _).trans childHere) c).trans ?_
  rw [threads.parent?_unlink]
  split <;> rfl

end Append

end Threads

end Forest

end NoiseFilter
