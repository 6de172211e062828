import NoiseFilter.Proofs.Record.Entries

/-!
# Acts on nodes

An `Act` says what becomes of one node, from its own record and its own element. Acts on different
nodes do not see each other, so that they can be carried out in any order (`each_perm`), and a list
of nodes can be gone through once with two acts in a row instead of twice (`each_andThen`). All this
is equality of records and trees, the count of writes included.
-/

namespace NoiseFilter

namespace Forest

variable {α : Type} (f : Forest α)

theorem ext_get? {f f' : Forest α} (same : ∀ id, f.get? id = f'.get? id) : f = f' := by
  cases f
  cases f'
  exact congrArg Forest.mk (Array.ext_getElem? fun i => same ⟨i⟩)

/-- Changes of different nodes can be made in either order. -/
theorem modifyData_comm {id id' : NodeId} (different : id ≠ id') (g g' : α → α) :
    (f.modifyData id g).modifyData id' g' = (f.modifyData id' g').modifyData id g := by
  refine ext_get? fun other => ?_
  simp only [modifyData, get?_modify]
  by_cases here : other = id
  · simp [here, different]
  · simp [here]

end Forest

/-- Drafts of different elements can be laid into a tree in either order. -/
theorem Tree.put_comm (t : Tree) {id id' : NodeId} (different : id ≠ id') (d d' : Draft) :
    (t.put id d).put id' d' = (t.put id' d').put id d := by
  simp only [put, t.forest.modifyData_comm different, Nat.add_right_comm]

namespace Record

/-- Records that answer alike are the same. -/
theorem ext_get? {r r' : Record} (marker : r.marker = r'.marker)
    (same : ∀ id, r.get? id = r'.get? id) : r = r' := by
  cases r
  cases r'
  cases marker
  exact congrArg (Record.mk _) (SortedMap.ext_get? same)

theorem lay_get? (r : Record) (id : NodeId) : r.lay id (r.get? id) = r := by
  refine ext_get? (marker_lay ..) fun other => ?_
  rw [get?_lay]
  split
  · rename_i same
    rw [same]
  · rfl

theorem lay_lay (r : Record) (id : NodeId) (n n' : Option NodeRecord) :
    (r.lay id n).lay id n' = r.lay id n' := by
  refine ext_get? (by simp) fun other => ?_
  simp only [get?_lay]
  split <;> rfl

theorem lay_comm (r : Record) {id id' : NodeId} (different : id ≠ id') (n n' : Option NodeRecord) :
    (r.lay id n).lay id' n' = (r.lay id' n').lay id n := by
  refine ext_get? (by simp) fun other => ?_
  simp only [get?_lay]
  by_cases here : other = id
  · simp [here, different]
  · simp [here]

/-- The entries of what is recorded of a node, none if nothing is. -/
def entriesOf (n : Option NodeRecord) : List Classification := (n.map (·.entries)).getD []

/-! ## Acts -/

/-- What becomes of one node: what is recorded of it, and a draft of the element. -/
abbrev Act := Option NodeRecord → Element → Option NodeRecord × Draft

namespace Act

/-- Nothing is done. -/
def idle : Act := fun n e => (n, { element := e })

/-- One act after another; their writes add up. -/
def andThen (f g : Act) : Act := fun n e =>
  let first := f n e
  let second := g first.1 first.2.element
  (second.1, ⟨second.2.element, first.2.writes + second.2.writes⟩)

/-- Other entries, with the marks written anew. -/
def change (marker : String) (f : List Classification → Option (List Classification)) : Act :=
  fun n e =>
    match f (entriesOf n) with
    | none => idle n e
    | some entries => (kept marker n e entries, remarked marker n e entries)

/-- Let an entry in. -/
def enter (marker : String) (c : Classification) : Act := change marker (admitted c)

/-- Drop the entry of a rule. -/
def drop (marker ruleId : String) : Act := change marker (reverted (·.ruleId == ruleId))

section

variable {marker ruleId : String} {f : List Classification → Option (List Classification)}
  {n : Option NodeRecord} {e : Element} {c x : Classification}

theorem entriesOf_kept (marker : String) (n : Option NodeRecord) (e : Element)
    (entries : List Classification) : entriesOf (kept marker n e entries) = entries := by
  rw [kept]
  split
  · rename_i empty
    exact empty.symm
  · rfl

/-- A change of entries is a turn of the node. -/
theorem turn_change (marker : String) (f : List Classification → Option (List Classification))
    (n : Option NodeRecord) (e : Element) :
    Turn marker (f (entriesOf n)) n (some e) (change marker f n e).1
      (some (change marker f n e).2.element) := by
  rw [change]
  cases changed : f (entriesOf n) with
  | none => exact .left rfl rfl rfl
  | some entries => exact .marked entries e rfl rfl rfl rfl

theorem entriesOf_change :
    entriesOf (change marker f n e).1 = (f (entriesOf n)).getD (entriesOf n) := by
  rw [change]
  cases f (entriesOf n) with
  | none => rfl
  | some entries => exact entriesOf_kept marker n e entries

/-- A change of entries shows in the marks only. -/
theorem get?_change_of_ne {other : String} (notClass : Text.lower other ≠ "class")
    (notStyle : Text.lower other ≠ "style") (notMarker : Text.lower other ≠ Text.lower marker) :
    (change marker f n e).2.element.get? other = e.get? other := by
  rw [change]
  split
  · rfl
  · exact Draft.get?_reconcile_of_ne _ _ _ notClass notStyle notMarker

theorem change_eq_idle (same : f (entriesOf n) = none) : change marker f n e = idle n e := by
  rw [change, same]

variable (ranked : Ranked (entriesOf n))

include ranked

theorem ranked_enter : Ranked (entriesOf (enter marker c n e).1) := by
  have after : Ranked ((Operation.classify .root c).after .root (entriesOf n)) :=
    Operation.ranked_after _ ranked
  rw [Operation.after, Operation.change, if_pos rfl] at after
  exact entriesOf_change ▸ after

theorem mem_enter :
    x ∈ entriesOf (enter marker c n e).1 ↔ x = c ∨ x ∈ entriesOf n ∧ x.ruleId ≠ c.ruleId := by
  have after : x ∈ (Operation.classify .root c).after .root (entriesOf n) ↔ _ :=
    Operation.mem_after_classify ranked
  rw [Operation.after, Operation.change, if_pos rfl] at after
  rw [enter, entriesOf_change]
  exact after

/-- An entry that is there is not let in again. -/
theorem enter_of_mem (there : c ∈ entriesOf n) : enter marker c n e = idle n e := by
  refine change_eq_idle (if_pos ?_)
  exact (SortedMap.find?_key_eq_some_iff ranked.distinct).mpr ⟨there, rfl⟩

theorem ranked_drop : Ranked (entriesOf (drop marker ruleId n e).1) := by
  have after : Ranked ((Operation.unclassify .root ruleId).after .root (entriesOf n)) :=
    Operation.ranked_after _ ranked
  rw [Operation.after, Operation.change, if_pos rfl] at after
  exact entriesOf_change ▸ after

omit ranked

theorem mem_drop :
    x ∈ entriesOf (drop marker ruleId n e).1 ↔ x ∈ entriesOf n ∧ x.ruleId ≠ ruleId := by
  have after : x ∈ (Operation.unclassify .root ruleId).after .root (entriesOf n) ↔ _ :=
    Operation.mem_after_unclassify
  rw [Operation.after, Operation.change, if_pos rfl] at after
  rw [drop, entriesOf_change]
  exact after

/-- An entry that is not there is not dropped. -/
theorem drop_of_absent (absent : ∀ x ∈ entriesOf n, x.ruleId ≠ ruleId) :
    drop marker ruleId n e = idle n e := by
  refine change_eq_idle (if_pos (List.filter_eq_nil_iff.mpr fun x there => ?_))
  simpa using absent x there

end

end Act

/-- Carry an act out on a node, if it is an element. -/
def on (f : Act) (id : NodeId) (s : Record × Tree) : Record × Tree :=
  match s.2.element? id with
  | none => s
  | some e => (s.1.lay id (f (s.1.get? id) e).1, s.2.put id (f (s.1.get? id) e).2)

section

variable {f g : Act} {id : NodeId} {s : Record × Tree} {e : Element}

theorem on_of_element (f : Act) (here : s.2.element? id = some e) :
    on f id s = (s.1.lay id (f (s.1.get? id) e).1, s.2.put id (f (s.1.get? id) e).2) := by
  rw [on, here]

theorem on_of_none (f : Act) (absent : s.2.element? id = none) : on f id s = s := by
  rw [on, absent]

theorem get?_on (f : Act) (id other : NodeId) (s : Record × Tree) :
    (on f id s).1.get? other =
      match s.2.element? id with
      | none => s.1.get? other
      | some e => if other = id then (f (s.1.get? id) e).1 else s.1.get? other := by
  cases here : s.2.element? id with
  | none => rw [on_of_none f here]
  | some e =>
    rw [on_of_element f here]
    exact get?_lay ..

theorem element?_on (f : Act) (id other : NodeId) (s : Record × Tree) :
    (on f id s).2.element? other =
      if other = id then (s.2.element? id).map fun e => (f (s.1.get? id) e).2.element
      else s.2.element? other := by
  cases here : s.2.element? id with
  | none =>
    rw [on_of_none f here]
    split
    · rename_i same
      rw [same, here]
      rfl
    · rfl
  | some e =>
    rw [on_of_element f here]
    exact Tree.element?_put (Tree.isElement_iff.mpr ⟨e, here⟩) other

@[simp] theorem marker_on (f : Act) (id : NodeId) (s : Record × Tree) :
    (on f id s).1.marker = s.1.marker := by
  rw [on]
  split
  · rfl
  · exact marker_lay ..

theorem sameFrame_on (f : Act) (id : NodeId) (s : Record × Tree) : s.2.SameFrame (on f id s).2 := by
  rw [on]
  split
  · exact .refl _
  · rename_i e here
    exact .put (Tree.isElement_iff.mpr ⟨e, here⟩)

/-- Acts that come to the same on a node may stand for each other. -/
theorem on_congr (same : ∀ e, s.2.element? id = some e → f (s.1.get? id) e = g (s.1.get? id) e) :
    on f id s = on g id s := by
  cases here : s.2.element? id with
  | none => rw [on_of_none f here, on_of_none g here]
  | some e => rw [on_of_element f here, on_of_element g here, same e here]

theorem on_idle (id : NodeId) (s : Record × Tree) : on Act.idle id s = s := by
  cases here : s.2.element? id with
  | none => exact on_of_none _ here
  | some e =>
    rw [on_of_element _ here]
    exact Prod.ext (lay_get? ..) (Tree.put_self here)

theorem on_andThen (f g : Act) (id : NodeId) (s : Record × Tree) :
    on (f.andThen g) id s = on g id (on f id s) := by
  cases here : s.2.element? id with
  | none => rw [on_of_none _ here, on_of_none f here, on_of_none g here]
  | some e =>
    have element : (on f id s).2.element? id = some (f (s.1.get? id) e).2.element := by
      rw [element?_on, if_pos rfl, here]
      rfl
    have record : (on f id s).1.get? id = (f (s.1.get? id) e).1 := by
      simp only [get?_on, here, if_true]
    rw [on_of_element _ here, on_of_element g element, record, on_of_element f here, lay_lay,
      Tree.put_put]
    rfl

/-- Acts on different nodes can be carried out in either order. -/
theorem on_comm {id' : NodeId} (different : id ≠ id') (f g : Act) (s : Record × Tree) :
    on f id (on g id' s) = on g id' (on f id s) := by
  have element (f : Act) {id id' : NodeId} (different : id ≠ id') :
      (on f id' s).2.element? id = s.2.element? id := by
    rw [element?_on, if_neg different]
  have record (f : Act) {id id' : NodeId} (different : id ≠ id') :
      (on f id' s).1.get? id = s.1.get? id := by
    rw [get?_on]
    split
    · rfl
    · exact if_neg different
  cases here : s.2.element? id with
  | none => rw [on_of_none f here, on_of_none f ((element g different).trans here)]
  | some e =>
    cases there : s.2.element? id' with
    | none => rw [on_of_none g there, on_of_none g ((element f different.symm).trans there)]
    | some e' =>
      rw [on_of_element f ((element g different).trans here),
        on_of_element g ((element f different.symm).trans there), record g different,
        record f different.symm, on_of_element f here, on_of_element g there]
      exact Prod.ext (lay_comm _ different.symm ..) (Tree.put_comm _ different.symm ..)

end

/-! ## Acts on many nodes -/

/-- Carry out an act on each of some nodes. -/
def each (f : NodeId → Act) (ids : List NodeId) (s : Record × Tree) : Record × Tree :=
  ids.foldl (fun s id => on (f id) id s) s

section

variable {f g : NodeId → Act} {ids ids' : List NodeId} {s : Record × Tree}

/-- What no act takes away is there when all of them have been carried out. -/
theorem each_induction {I : Record × Tree → Prop}
    (acted : ∀ id ∈ ids, ∀ s, I s → I (on (f id) id s)) (before : I s) : I (each f ids s) := by
  induction ids generalizing s with
  | nil => exact before
  | cons id rest ih =>
    obtain ⟨here, later⟩ := List.forall_mem_cons.mp acted
    exact ih later (here s before)

@[simp] theorem marker_each (f : NodeId → Act) (ids : List NodeId) (s : Record × Tree) :
    (each f ids s).1.marker = s.1.marker :=
  each_induction (I := fun s' => s'.1.marker = s.1.marker)
    (fun id _ s' same => (marker_on (f id) id s').trans same) rfl

theorem sameFrame_each (f : NodeId → Act) (ids : List NodeId) (s : Record × Tree) :
    s.2.SameFrame (each f ids s).2 :=
  each_induction (I := fun s' => s.2.SameFrame s'.2)
    (fun id _ s' frame => frame.trans (sameFrame_on (f id) id s')) (.refl _)

theorem each_append (f : NodeId → Act) (ids ids' : List NodeId) (s : Record × Tree) :
    each f (ids ++ ids') s = each f ids' (each f ids s) :=
  List.foldl_append

/-- The order of nodes does not matter. -/
theorem each_perm (perm : ids.Perm ids') (f : NodeId → Act) (s : Record × Tree) :
    each f ids s = each f ids' s := by
  refine perm.foldl_eq' (fun id _ id' _ s => ?_) s
  by_cases same : id = id'
  · rw [same]
  · exact on_comm (Ne.symm same) ..

/-- An act on another node can be put off. -/
theorem on_each {id : NodeId} (elsewhere : id ∉ ids) (g : Act) (f : NodeId → Act)
    (s : Record × Tree) : on g id (each f ids s) = each f ids (on g id s) := by
  induction ids generalizing s with
  | nil => rfl
  | cons head rest ih =>
    obtain ⟨notHead, notRest⟩ := not_or.mp (mt List.mem_cons.mpr elsewhere)
    show on g id (each f rest (on (f head) head s)) = each f rest (on (f head) head (on g id s))
    rw [ih notRest, on_comm notHead]

/-- Two acts in a row on each node, instead of one on all and then the other on all. -/
theorem each_andThen (distinct : ids.Nodup) (f g : NodeId → Act) (s : Record × Tree) :
    each (fun id => (f id).andThen (g id)) ids s = each g ids (each f ids s) := by
  induction ids generalizing s with
  | nil => rfl
  | cons id rest ih =>
    obtain ⟨fresh, distinctRest⟩ := List.nodup_cons.mp distinct
    show each _ rest (on ((f id).andThen (g id)) id s) =
      each g rest (on (g id) id (each f rest (on (f id) id s)))
    rw [ih distinctRest, on_andThen, on_each fresh]

theorem each_congr (same : ∀ id ∈ ids, f id = g id) (s : Record × Tree) :
    each f ids s = each g ids s := by
  induction ids generalizing s with
  | nil => rfl
  | cons id rest ih =>
    obtain ⟨here, later⟩ := List.forall_mem_cons.mp same
    show each f rest (on (f id) id s) = each g rest (on (g id) id s)
    rw [here, ih later]

/-- To act on some of the nodes only is to do nothing on the others. -/
theorem each_filter (p : NodeId → Bool) (f : NodeId → Act) (ids : List NodeId) (s : Record × Tree) :
    each f (ids.filter p) s = each (fun id => if p id then f id else Act.idle) ids s := by
  rw [each, each, List.foldl_filter]
  refine congrArg (List.foldl · s ids) (funext fun s => funext fun id => ?_)
  split
  · rfl
  · exact (on_idle id s).symm

theorem get?_each_of_not_mem {id : NodeId} (elsewhere : id ∉ ids) (f : NodeId → Act)
    (s : Record × Tree) : (each f ids s).1.get? id = s.1.get? id := by
  induction ids generalizing s with
  | nil => rfl
  | cons head rest ih =>
    obtain ⟨notHead, notRest⟩ := not_or.mp (mt List.mem_cons.mpr elsewhere)
    refine (ih notRest _).trans ?_
    rw [get?_on]
    split
    · rfl
    · exact if_neg notHead

theorem element?_each_of_not_mem {id : NodeId} (elsewhere : id ∉ ids) (f : NodeId → Act)
    (s : Record × Tree) : (each f ids s).2.element? id = s.2.element? id := by
  induction ids generalizing s with
  | nil => rfl
  | cons head rest ih =>
    obtain ⟨notHead, notRest⟩ := not_or.mp (mt List.mem_cons.mpr elsewhere)
    refine (ih notRest _).trans ?_
    rw [element?_on, if_neg notHead]

/-- Each node is left as the act on it leaves it. -/
theorem each_at {id : NodeId} {e : Element} (distinct : ids.Nodup) (member : id ∈ ids)
    (here : s.2.element? id = some e) (f : NodeId → Act) :
    (each f ids s).1.get? id = (f id (s.1.get? id) e).1 ∧
      (each f ids s).2.element? id = some (f id (s.1.get? id) e).2.element := by
  obtain ⟨before, behind, rfl⟩ := List.append_of_mem member
  have first : (before ++ id :: behind).Perm (id :: (before ++ behind)) := List.perm_middle
  obtain ⟨fresh, -⟩ := List.nodup_cons.mp (first.nodup_iff.mp distinct)
  rw [each_perm first]
  constructor
  · refine (get?_each_of_not_mem fresh f _).trans ?_
    simp only [get?_on, here, if_true]
  · refine (element?_each_of_not_mem fresh f _).trans ?_
    rw [element?_on, if_pos rfl, here]
    rfl

/-- Acts that come to nothing on their nodes leave everything as it is. -/
theorem each_eq_self (rests : ∀ id ∈ ids, ∀ e, s.2.element? id = some e →
    f id (s.1.get? id) e = Act.idle (s.1.get? id) e) : each f ids s = s := by
  induction ids with
  | nil => rfl
  | cons id rest ih =>
    obtain ⟨here, later⟩ := List.forall_mem_cons.mp rests
    have still : on (f id) id s = s := (on_congr here).trans (on_idle id s)
    show each f rest (on (f id) id s) = s
    rw [still, ih later]

/-- Two rounds of acts that come to nothing the second time are one round on all nodes that are in
either. -/
theorem each_each {both : List NodeId} (distinct : ids.Nodup) (distinct' : ids'.Nodup)
    (distinctBoth : both.Nodup) (members : ∀ id, id ∈ both ↔ id ∈ ids ∨ id ∈ ids')
    (idempotent : ∀ id ∈ ids, ∀ e, s.2.element? id = some e →
      let left := f id (s.1.get? id) e
      f id left.1 left.2.element = Act.idle left.1 left.2.element) :
    each f ids' (each f ids s) = each f both s := by
  have parts := (List.filter_append_perm (fun id => decide (id ∈ ids)) ids').symm
  have again : each f (ids'.filter fun id => decide (id ∈ ids)) (each f ids s) = each f ids s := by
    refine each_eq_self fun id member e there => ?_
    have old : id ∈ ids := of_decide_eq_true (List.mem_filter.mp member).2
    obtain ⟨before, here⟩ := Tree.isElement_iff.mp <|
      ((sameFrame_each f ids s).isElement id).symm.trans (Tree.isElement_iff.mpr ⟨e, there⟩)
    obtain ⟨record, element⟩ := each_at distinct old here f
    cases there.symm.trans element
    rw [record]
    exact idempotent id old before here
  have whole : (ids ++ ids'.filter fun id => !decide (id ∈ ids)).Perm both := by
    refine (List.perm_ext_iff_of_nodup ?_ distinctBoth).mpr fun id => ?_
    · refine List.nodup_append.mpr ⟨distinct, distinct'.filter _, fun a old b new same => ?_⟩
      subst same
      simp [old] at new
    · rw [List.mem_append, List.mem_filter, members]
      by_cases old : id ∈ ids <;> simp [old]
  calc each f ids' (each f ids s)
      = each f (ids'.filter fun id => !decide (id ∈ ids)) (each f ids s) := by
        rw [each_perm parts, each_append, again]
    _ = each f both s := by rw [← each_append, each_perm whole]

end

/-! ## Operations on one node -/

section

variable {r : Record} {t : Tree} {id : NodeId} {e : Element}

theorem on_change (here : t.element? id = some e)
    (f : List Classification → Option (List Classification)) :
    on (Act.change r.marker f) id (r, t) = r.alter t id e (f (r.entriesAt id)) := by
  have current : entriesOf (r.get? id) = r.entriesAt id := rfl
  cases changed : f (r.entriesAt id) with
  | none =>
    refine (on_congr fun e _ => ?_).trans (on_idle id (r, t))
    exact Act.change_eq_idle changed
  | some entries =>
    rw [on_of_element _ here]
    simp only [Act.change, current, changed, alter]

theorem classify_apply (here : t.isElement id = true) (c : Classification) :
    (Operation.classify id c).apply r t = on (Act.enter r.marker c) id (r, t) := by
  obtain ⟨e, found⟩ := Tree.isElement_iff.mp here
  rw [Operation.apply, classify_eq found, Act.enter, on_change found]

theorem unclassify_apply (here : t.isElement id = true) (ruleId : String) :
    (Operation.unclassify id ruleId).apply r t = on (Act.drop r.marker ruleId) id (r, t) := by
  obtain ⟨e, element⟩ := Tree.isElement_iff.mp here
  cases found : r.get? id with
  | none =>
    rw [Operation.apply, unclassify_of_absent found]
    refine ((on_congr fun e _ => ?_).trans (on_idle id (r, t))).symm
    exact Act.drop_of_absent fun x there => by cases (found ▸ there : x ∈ entriesOf none)
  | some n =>
    rw [Operation.apply, unclassify_eq found element, Act.drop, on_change element,
      entriesAt_of_get? found]

end

end Record

end NoiseFilter
