import NoiseFilter.Proofs.Record.Marks
import NoiseFilter.Proofs.SortedMap

/-!
# What an operation on a record does to one node

Every operation on a record looks at one node after the other. What it does to a node follows from the
entries of that node alone: `Operation.change` says which entries the node has afterwards, or that it
is left as it is. A node that is changed is marked anew, and forgotten if no entries are left;
`Operation.apply_at` says this once for all operations, and all that is shown about records builds
on it.
-/

namespace NoiseFilter

namespace Record

/-- An operation on a record. -/
inductive Operation where
  | classify (id : NodeId) (e : Classification)
  | unclassify (id : NodeId) (ruleId : String)
  | revertWhere (p : Classification → Bool)
  | revertAll
  | retarget (kind : EntryKind) (cls : String)
  | rerank (rank? : String → Option Nat)

namespace Operation

/-- Carry an operation out. -/
def apply (o : Operation) (r : Record) (t : Tree) : Record × Tree :=
  match o with
  | classify id e => (r.classify t id e).2
  | unclassify id ruleId => (r.unclassify t id ruleId).2
  | revertWhere p => (r.revertWhere t p).2
  | revertAll => (r.revertAll t).2
  | retarget kind cls => (r.retarget t kind cls).2
  | rerank rank? => (r.rerank t rank?).2

/-- The node that an operation may enter into the record is an element. -/
def OnElement (o : Operation) (t : Tree) : Prop :=
  match o with
  | classify id _ => t.isElement id = true
  | _ => True

instance (o : Operation) (t : Tree) : Decidable (o.OnElement t) :=
  match o with
  | classify id _ => inferInstanceAs (Decidable (t.isElement id = true))
  | unclassify .. | revertWhere _ | revertAll | retarget .. | rerank _ => isTrue trivial

theorem OnElement.of_sameFrame {o : Operation} {t t' : Tree} (onElement : o.OnElement t)
    (frame : t.SameFrame t') : o.OnElement t' := by
  cases o with
  | classify id e => exact (frame.isElement id).trans onElement
  | _ => trivial

end Operation

/-- The entries of a node, none if it is not in the record. -/
def entriesAt (r : Record) (id : NodeId) : List Classification :=
  ((r.get? id).map (·.entries)).getD []

theorem entriesAt_of_get? {r : Record} {id : NodeId} {n : NodeRecord} (found : r.get? id = some n) :
    r.entriesAt id = n.entries := by
  rw [entriesAt, found]
  rfl

/-- What is recorded are elements, each with an entry at least. -/
def Stands (r : Record) (t : Tree) : Prop :=
  ∀ id n, r.get? id = some n → t.isElement id = true ∧ n.entries ≠ []

theorem Stands.isSome_get? {r : Record} {t : Tree} (stands : r.Stands t) (id : NodeId) :
    (r.get? id).isSome = true ↔ r.entriesAt id ≠ [] := by
  cases found : r.get? id with
  | none => simp [entriesAt, found]
  | some n => simp [entriesAt_of_get? found, (stands id n found).2]

/-! ## Changes of entries -/

/-- The entries, if they differ from what they were. -/
def ifChanged (f : List Classification → List Classification) (entries : List Classification) :
    Option (List Classification) :=
  if f entries = entries then none else some (f entries)

/-- The entries that one rule's entry is let into, unless it is there already. -/
def admitted (e : Classification) (entries : List Classification) : Option (List Classification) :=
  if entries.find? (·.ruleId == e.ruleId) = some e then none
  else some (NodeRecord.letIn e entries)

/-- The entries that do not satisfy a condition, if there are others. -/
def reverted (p : Classification → Bool) (entries : List Classification) :
    Option (List Classification) :=
  if entries.filter p = [] then none else some (entries.filter (!p ·))

/-- The entries that an operation leaves a node with; `none` if it does not touch the node. -/
def Operation.change (o : Operation) (id : NodeId) (entries : List Classification) :
    Option (List Classification) :=
  match o with
  | classify here e => if id = here then admitted e entries else none
  | unclassify here ruleId => if id = here then reverted (·.ruleId == ruleId) entries else none
  | revertWhere p => reverted p entries
  | revertAll => reverted (fun _ => true) entries
  | retarget kind cls => ifChanged (NodeRecord.retarget kind cls) entries
  | rerank rank? => ifChanged (NodeRecord.rerank rank?) entries

/-- The entries that an operation leaves a node with, changed or not. -/
def Operation.after (o : Operation) (id : NodeId) (entries : List Classification) :
    List Classification :=
  (o.change id entries).getD entries

theorem letIn_ne_nil (e : Classification) (entries : List Classification) :
    NodeRecord.letIn e entries ≠ [] := by
  rw [NodeRecord.letIn]
  split
  · rename_i there
    intro empty
    have length := congrArg List.length empty
    simp only [NodeRecord.replace, NodeRecord.sorted, List.length_mergeSort, List.length_map,
      List.length_nil] at length
    rw [List.length_eq_zero_iff.mp length] at there
    cases there
  · simp [NodeRecord.place]

/-! ## One node -/

/-- The record of a node with other entries, before its marks are written. -/
def renewed (marker : String) (old : Option NodeRecord) (e : Element)
    (entries : List Classification) : NodeRecord :=
  { old.getD { baseline := .ofElement e marker } with entries }

/-- The draft that a change makes of an element. -/
def remarked (marker : String) (old : Option NodeRecord) (e : Element)
    (entries : List Classification) : Draft :=
  Draft.reconcile { element := e } marker (renewed marker old e entries)

/-- What is recorded of a node after a change. -/
def kept (marker : String) (old : Option NodeRecord) (e : Element)
    (entries : List Classification) : Option NodeRecord :=
  if entries = [] then none else some (renewed marker old e entries).reconciled

/-- Put the record of one node in place, or forget the node. -/
def lay (r : Record) (id : NodeId) : Option NodeRecord → Record
  | some n => r.store id n
  | none => { r with nodes := r.nodes.erase id }

theorem get?_lay (r : Record) (id : NodeId) (n : Option NodeRecord) (other : NodeId) :
    (r.lay id n).get? other = if other = id then n else r.get? other := by
  cases n with
  | none => exact r.nodes.get?_erase id other
  | some n => exact r.nodes.get?_insert id n other

@[simp] theorem marker_lay (r : Record) (id : NodeId) (n : Option NodeRecord) :
    (r.lay id n).marker = r.marker := by
  cases n <;> rfl

/-- What one operation makes of one node. Either the node is left as it is, or it gets other entries
and is marked anew. -/
inductive Turn (marker : String) (change : Option (List Classification))
    (n : Option NodeRecord) (e : Option Element) (n' : Option NodeRecord) (e' : Option Element) :
    Prop
  | left (unchanged : change = none) (record : n' = n) (element : e' = e)
  | marked (entries : List Classification) (old : Element) (changed : change = some entries)
      (before : e = some old) (record : n' = kept marker n old entries)
      (after : e' = some (remarked marker n old entries).element)

variable {r : Record} {t : Tree} {id : NodeId} {e : Element}

/-- Carry a change of one element out. -/
def alter (r : Record) (t : Tree) (id : NodeId) (e : Element) :
    Option (List Classification) → Record × Tree
  | none => (r, t)
  | some entries =>
    (r.lay id (kept r.marker (r.get? id) e entries),
      t.put id (remarked r.marker (r.get? id) e entries))

theorem turn_alter (here : t.element? id = some e) (change : Option (List Classification))
    (other : NodeId) :
    Turn r.marker (if other = id then change else none) (r.get? other) (t.element? other)
      ((r.alter t id e change).1.get? other) ((r.alter t id e change).2.element? other) := by
  have isElement : t.isElement id = true := Tree.isElement_iff.mpr ⟨e, here⟩
  cases change with
  | none => exact .left (ite_self none) rfl rfl
  | some entries =>
    simp only [alter, get?_lay, Tree.element?_put isElement]
    split
    · rename_i same
      exact .marked entries e rfl (same ▸ here) (same ▸ rfl) (same ▸ rfl)
    · exact .left rfl rfl rfl

theorem sameFrame_alter (here : t.element? id = some e) (change : Option (List Classification)) :
    t.SameFrame (r.alter t id e change).2 := by
  cases change with
  | none => exact .refl t
  | some entries => exact .put (Tree.isElement_iff.mpr ⟨e, here⟩)

@[simp] theorem marker_alter (r : Record) (t : Tree) (id : NodeId) (e : Element)
    (change : Option (List Classification)) : (r.alter t id e change).1.marker = r.marker := by
  cases change with
  | none => rfl
  | some entries => exact marker_lay ..

theorem classify_eq (here : t.element? id = some e) (c : Classification) :
    r.classify t id c =
      (.ok (admitted c (r.entriesAt id)).isSome, r.alter t id e (admitted c (r.entriesAt id))) := by
  have captured : Baseline.capture t id r.marker = .ofElement e r.marker := by
    rw [Baseline.capture, here]
    rfl
  have entries : ((r.get? id).getD { baseline := .ofElement e r.marker }).entries =
      r.entriesAt id := by
    rw [entriesAt]
    cases r.get? id <;> rfl
  simp only [classify, captured, NodeRecord.entryFor?, entries, admitted]
  split
  · rfl
  · rw [Tree.reconcile_eq here]
    simp only [alter, kept, if_neg (letIn_ne_nil c _)]
    rfl

theorem unclassify_of_absent (absent : r.get? id = none) (t : Tree) (ruleId : String) :
    r.unclassify t id ruleId = (.ok false, r, t) := by
  rw [unclassify, absent]

theorem unclassify_eq {n : NodeRecord} (found : r.get? id = some n) (here : t.element? id = some e)
    (ruleId : String) :
    r.unclassify t id ruleId =
      (.ok (reverted (·.ruleId == ruleId) n.entries).isSome,
        r.alter t id e (reverted (·.ruleId == ruleId) n.entries)) := by
  have absent : (n.entryFor? ruleId).isNone = true ↔
      n.entries.filter (·.ruleId == ruleId) = [] := by
    rw [Option.isNone_iff_eq_none, NodeRecord.entryFor?, List.find?_eq_none,
      List.filter_eq_nil_iff]
  simp only [unclassify, found, absent, reverted]
  split
  · rfl
  · rw [Tree.reconcile_eq here]
    by_cases empty : n.entries.filter (·.ruleId != ruleId) = []
    · have dropped : (n.entries.filter fun x => !(x.ruleId == ruleId)) = [] := empty
      simp only [alter, found, kept, if_pos dropped]
      exact congrArg (fun r => (_, r, _)) (if_pos (List.isEmpty_iff.mpr empty))
    · have filled : (n.entries.filter fun x => !(x.ruleId == ruleId)) ≠ [] := empty
      simp only [alter, found, kept, if_neg filled]
      exact congrArg (fun r => (_, r, _)) (if_neg fun left => empty (List.isEmpty_iff.mp left))

/-! ## All nodes -/

/-- A step of a pass over all records that puts entries in the place of others and marks the node
anew. -/
def Changes (marker : String) (f : List Classification → Option (List Classification))
    (step : Tree → NodeId → NodeRecord → Sweep × NodeRecord × Tree) : Prop :=
  ∀ (t : Tree) (id : NodeId) (e : Element) (n : NodeRecord), t.element? id = some e →
    (step t id n).2 =
      match f n.entries with
      | none => (n, t)
      | some entries =>
        ((renewed marker (some n) e entries).reconciled,
          t.put id (remarked marker (some n) e entries))

theorem changes_revertNode (marker : String) (p : Classification → Bool) :
    Changes marker (reverted p) (revertNode marker p) := by
  intro t id e n here
  rw [revertNode, reverted]
  simp only [List.isEmpty_iff]
  split
  · rfl
  · rw [Tree.reconcile_eq here]
    rfl

theorem changes_updateNode (marker : String) (f : List Classification → List Classification) :
    Changes marker (ifChanged f) (updateNode marker f) := by
  intro t id e n here
  rw [updateNode, ifChanged]
  split
  · rfl
  · rw [Tree.reconcile_eq here]
    rfl

/-- What a pass leaves of a record. -/
def touched (f : List Classification → Option (List Classification)) (n : NodeRecord) : NodeRecord :=
  match f n.entries with
  | none => n
  | some entries => { n with entries }.reconciled

/-- What a pass leaves of an element that is recorded. -/
def touchedElement (marker : String) (f : List Classification → Option (List Classification))
    (n : NodeRecord) (e : Element) : Element :=
  match f n.entries with
  | none => e
  | some entries => (remarked marker (some n) e entries).element

variable {marker : String} {f : List Classification → Option (List Classification)}
  {step : Tree → NodeId → NodeRecord → Sweep × NodeRecord × Tree}

/-- One step on an element: the record and the tree that it leaves. -/
theorem Changes.on_element (changes : Changes marker f step) (here : t.element? id = some e)
    (n : NodeRecord) :
    (step t id n).2.1 = touched f n ∧ t.SameFrame (step t id n).2.2 ∧
      ∀ other, (step t id n).2.2.element? other =
        if other = id then some (touchedElement marker f n e) else t.element? other := by
  have isElement : t.isElement id = true := Tree.isElement_iff.mpr ⟨e, here⟩
  rw [changes t id e n here, touched, touchedElement]
  cases f n.entries with
  | none =>
    refine ⟨rfl, .refl t, fun other => ?_⟩
    by_cases same : other = id
    · rw [if_pos same, same, here]
    · rw [if_neg same]
  | some entries => exact ⟨rfl, .put isElement, Tree.element?_put isElement⟩

/-- A pass over all records changes each of them by itself. -/
theorem visit_eq (changes : Changes marker f step) (entries : List (NodeId × NodeRecord))
    (elements : ∀ x ∈ entries, t.isElement x.1 = true) :
    (visit step t entries).2.1 = entries.map (fun x => (x.1, touched f x.2)) ∧
      t.SameFrame (visit step t entries).2.2 := by
  induction entries generalizing t with
  | nil => exact ⟨rfl, .refl t⟩
  | cons x rest ih =>
    obtain ⟨id, n⟩ := x
    obtain ⟨e, here⟩ := Tree.isElement_iff.mp (elements (id, n) List.mem_cons_self)
    obtain ⟨record, frame, -⟩ := changes.on_element here n
    have restElements : ∀ x ∈ rest, (step t id n).2.2.isElement x.1 = true := fun x later =>
      (frame.isElement x.1).trans (elements x (List.mem_cons_of_mem _ later))
    obtain ⟨records, restFrame⟩ := ih restElements
    refine ⟨?_, frame.trans restFrame⟩
    show (id, (step t id n).2.1) :: (visit step (step t id n).2.2 rest).2.1 = _
    rw [records, record]
    rfl

/-- A pass over all records writes to the recorded elements only, to each according to its record. -/
theorem element?_visit (changes : Changes marker f step) (entries : List (NodeId × NodeRecord))
    (elements : ∀ x ∈ entries, t.isElement x.1 = true) (distinct : (entries.map (·.1)).Nodup)
    (id : NodeId) :
    (visit step t entries).2.2.element? id =
      match (entries.find? (·.1 == id)).map (·.2) with
      | none => t.element? id
      | some n => (t.element? id).map (touchedElement marker f n) := by
  induction entries generalizing t with
  | nil => rfl
  | cons x rest ih =>
    obtain ⟨head, n⟩ := x
    obtain ⟨e, here⟩ := Tree.isElement_iff.mp (elements (head, n) List.mem_cons_self)
    obtain ⟨fresh, distinctRest⟩ := List.nodup_cons.mp distinct
    obtain ⟨-, frame, element?⟩ := changes.on_element here n
    have restElements : ∀ x ∈ rest, (step t head n).2.2.isElement x.1 = true := fun x later =>
      (frame.isElement x.1).trans (elements x (List.mem_cons_of_mem _ later))
    have later := ih restElements distinctRest
    show (visit step (step t head n).2.2 rest).2.2.element? id = _
    rw [later, element?, List.find?_cons]
    by_cases same : head = id
    · subst same
      have unseen : rest.find? (·.1 == head) = none := by
        refine List.find?_eq_none.mpr fun x member key => fresh ?_
        exact List.mem_map.mpr ⟨x, member, by simpa using key⟩
      simp [unseen, here]
    · simp [beq_false_of_ne same, Ne.symm same]

/-- What a pass over all records does to one node. -/
theorem sweep_at (changes : Changes marker f step) (stands : r.Stands t) (id : NodeId) :
    (r.sweep t step).2.1.get? id = (r.get? id).map (touched f) ∧
      (r.sweep t step).2.2.element? id =
        match r.get? id with
        | none => t.element? id
        | some n => (t.element? id).map (touchedElement marker f n) := by
  have elements : ∀ x ∈ r.nodes.entries, t.isElement x.1 = true := fun x member =>
    (stands x.1 x.2 (r.nodes.get?_eq_some_iff.mpr member)).1
  constructor
  · have records := (visit_eq changes _ elements).1
    show ((visit step t r.nodes.entries).2.1.find? (·.1 == id)).map (·.2) = _
    rw [records, List.find?_map, get?, SortedMap.get?, Option.map_map, Option.map_map]
    rfl
  · exact element?_visit changes _ elements r.nodes.nodup_keys id

theorem sameFrame_sweep (changes : Changes marker f step) (stands : r.Stands t) :
    t.SameFrame (r.sweep t step).2.2 :=
  (visit_eq changes _ fun x member =>
    (stands x.1 x.2 (r.nodes.get?_eq_some_iff.mpr member)).1).2

/-- A pass over all records, with the nodes forgotten that no entry is left on. -/
theorem turn_sweep (empty : f [] = none) (changes : Changes r.marker f step) (stands : r.Stands t)
    (id : NodeId) :
    Turn r.marker (f (r.entriesAt id)) (r.get? id) (t.element? id)
      (((r.get? id).map (touched f)).filter (!·.entries.isEmpty))
      ((r.sweep t step).2.2.element? id) := by
  rw [(sweep_at changes stands id).2, entriesAt]
  cases found : r.get? id with
  | none => exact .left empty rfl rfl
  | some n =>
    obtain ⟨isElement, filled⟩ := stands id n found
    obtain ⟨e, here⟩ := Tree.isElement_iff.mp isElement
    simp only [here, Option.map_some, Option.getD_some, touched, touchedElement]
    cases change : f n.entries with
    | none =>
      refine .left rfl ?_ rfl
      rw [Option.filter_some, if_pos (by simpa using filled)]
    | some entries =>
      refine .marked entries e rfl rfl ?_ rfl
      cases entries <;> rfl

/-- A pass that leaves an entry on every node forgets none. -/
theorem filter_touched (filled : ∀ entries left, f entries = some left → entries ≠ [] → left ≠ [])
    (stands : r.Stands t) (id : NodeId) :
    ((r.get? id).map (touched f)).filter (!·.entries.isEmpty) = (r.get? id).map (touched f) := by
  cases found : r.get? id with
  | none => rfl
  | some n =>
    have before := (stands id n found).2
    rw [Option.map_some, Option.filter_some, if_pos]
    rw [touched]
    split
    · simpa using before
    · rename_i change
      simpa [NodeRecord.reconciled] using filled _ _ change before

theorem ifChanged_nil {g : List Classification → List Classification} (empty : g [] = []) :
    ifChanged g [] = none :=
  if_pos empty

theorem ne_nil_of_ifChanged {g : List Classification → List Classification}
    (length : ∀ entries, (g entries).length = entries.length) (entries left : List Classification)
    (change : ifChanged g entries = some left) (filled : entries ≠ []) : left ≠ [] := by
  rw [ifChanged] at change
  split at change
  · cases change
  · cases change
    exact List.ne_nil_of_length_pos (length entries ▸ List.length_pos_iff.mpr filled)

theorem length_retarget (kind : EntryKind) (cls : String) (entries : List Classification) :
    (NodeRecord.retarget kind cls entries).length = entries.length :=
  List.length_map _

theorem length_rerank (rank? : String → Option Nat) (entries : List Classification) :
    (NodeRecord.rerank rank? entries).length = entries.length := by
  simp only [NodeRecord.rerank]
  split
  · rfl
  · rw [NodeRecord.sorted, List.length_mergeSort, List.length_map]

theorem turn_revertWhere (p : Classification → Bool) (stands : r.Stands t) (id : NodeId) :
    Turn r.marker (reverted p (r.entriesAt id)) (r.get? id) (t.element? id)
      ((r.revertWhere t p).2.1.get? id) ((r.revertWhere t p).2.2.element? id) := by
  have changes := changes_revertNode r.marker p
  have turn := turn_sweep (f := reverted p) rfl changes stands id
  rw [← (sweep_at changes stands id).1] at turn
  have forgotten : (r.revertWhere t p).2.1.get? id =
      ((r.sweep t (revertNode r.marker p)).2.1.get? id).filter (!·.entries.isEmpty) :=
    SortedMap.get?_filter ..
  rw [forgotten]
  exact turn

/-! ## Operations -/

namespace Operation

/-- Every operation treats each node by itself: it leaves the node as it is, or gives it other
entries and marks it anew. -/
theorem apply_at (o : Operation) (stands : r.Stands t) (onElement : o.OnElement t) (id : NodeId) :
    Turn r.marker (o.change id (r.entriesAt id)) (r.get? id) (t.element? id)
      ((o.apply r t).1.get? id) ((o.apply r t).2.element? id) := by
  cases o with
  | classify here c =>
    obtain ⟨e, found⟩ := Tree.isElement_iff.mp onElement
    have turn := turn_alter (r := r) found (admitted c (r.entriesAt here)) id
    simp only [apply, change, classify_eq found]
    split
    · rename_i same
      simpa only [same, if_true] using turn
    · rename_i other
      simpa only [other, if_false] using turn
  | unclassify here ruleId =>
    simp only [apply, change]
    cases found : r.get? here with
    | none =>
      rw [unclassify_of_absent found]
      refine .left ?_ rfl rfl
      split
      · rename_i same
        rw [same, entriesAt, found]
        rfl
      · rfl
    | some n =>
      obtain ⟨e, element⟩ := Tree.isElement_iff.mp (stands here n found).1
      have turn := turn_alter (r := r) element (reverted (·.ruleId == ruleId) n.entries) id
      rw [unclassify_eq found element]
      split
      · rename_i same
        simpa only [same, entriesAt, found, if_true, Option.map_some, Option.getD_some] using turn
      · rename_i other
        simpa only [other, if_false] using turn
  | revertWhere p => exact turn_revertWhere p stands id
  | revertAll => exact turn_revertWhere (fun _ => true) stands id
  | retarget kind cls =>
    have changes := changes_updateNode r.marker (NodeRecord.retarget kind cls)
    have turn := turn_sweep (ifChanged_nil rfl) changes stands id
    rwa [filter_touched (ne_nil_of_ifChanged (length_retarget kind cls)) stands,
      ← (sweep_at changes stands id).1] at turn
  | rerank rank? =>
    have changes := changes_updateNode r.marker (NodeRecord.rerank rank?)
    have turn := turn_sweep (ifChanged_nil rfl) changes stands id
    rwa [filter_touched (ne_nil_of_ifChanged (length_rerank rank?)) stands,
      ← (sweep_at changes stands id).1] at turn

theorem sameFrame_apply (o : Operation) (stands : r.Stands t) (onElement : o.OnElement t) :
    t.SameFrame (o.apply r t).2 := by
  cases o with
  | classify here c =>
    obtain ⟨e, found⟩ := Tree.isElement_iff.mp onElement
    rw [apply, classify_eq found]
    exact sameFrame_alter found _
  | unclassify here ruleId =>
    rw [apply]
    cases found : r.get? here with
    | none =>
      rw [unclassify_of_absent found]
      exact .refl t
    | some n =>
      obtain ⟨e, element⟩ := Tree.isElement_iff.mp (stands here n found).1
      rw [unclassify_eq found element]
      exact sameFrame_alter element _
  | revertWhere p => exact sameFrame_sweep (changes_revertNode r.marker p) stands
  | revertAll => exact sameFrame_sweep (changes_revertNode r.marker fun _ => true) stands
  | retarget kind cls =>
    exact sameFrame_sweep (changes_updateNode r.marker (NodeRecord.retarget kind cls)) stands
  | rerank rank? =>
    exact sameFrame_sweep (changes_updateNode r.marker (NodeRecord.rerank rank?)) stands

theorem marker_apply (o : Operation) (stands : r.Stands t) (onElement : o.OnElement t) :
    (o.apply r t).1.marker = r.marker := by
  cases o with
  | classify here c =>
    obtain ⟨e, found⟩ := Tree.isElement_iff.mp onElement
    rw [apply, classify_eq found, marker_alter]
  | unclassify here ruleId =>
    rw [apply]
    cases found : r.get? here with
    | none => rw [unclassify_of_absent found]
    | some n =>
      obtain ⟨e, element⟩ := Tree.isElement_iff.mp (stands here n found).1
      rw [unclassify_eq found element, marker_alter]
  | _ => rfl

/-- The entries of a node after an operation are those that the operation leaves it with. -/
theorem entriesAt_apply (o : Operation) (stands : r.Stands t) (onElement : o.OnElement t)
    (id : NodeId) :
    (o.apply r t).1.entriesAt id = o.after id (r.entriesAt id) := by
  rw [after]
  cases o.apply_at stands onElement id with
  | left unchanged record =>
    rw [entriesAt, record, unchanged]
    rfl
  | marked entries old changed _ record =>
    rw [entriesAt, record, changed, kept]
    split
    · rename_i empty
      rw [empty]
      rfl
    · rfl

/-- Operations enter elements only, and forget those without entries. -/
theorem stands_apply (o : Operation) (stands : r.Stands t) (onElement : o.OnElement t) :
    (o.apply r t).1.Stands (o.apply r t).2 := by
  intro id n found
  rw [(o.sameFrame_apply stands onElement).isElement id]
  cases o.apply_at stands onElement id with
  | left _ record => exact stands id n (record ▸ found)
  | marked entries old _ before record =>
    rw [record, kept] at found
    split at found
    · cases found
    · rename_i filled
      cases found
      exact ⟨Tree.isElement_iff.mpr ⟨old, before⟩, filled⟩

end Operation

end Record

end NoiseFilter
