import NoiseFilter.Markup.Plant
import NoiseFilter.Proofs.Tree.Journal
import NoiseFilter.Proofs.Tree.Place
import NoiseFilter.Proofs.Tree.Preorder

/-!
# Planted pages

The rows of a page are its nodes in preorder, without processing instructions, each with its parent and
what it is; their indexes are handed out in that order (`Node.rows`). Planting is never refused, since
each node is linked below one that is there, before anything hangs below it (`grow_planted`). What
planting does to a tree is kept in `Planted`: the new nodes are the rows, and from above they show as
further children of one node; all that was there before stays. Two plantings one after the other are
one (`Planted.append`), and so are a node and what is planted below it (`Planted.under`).
-/

namespace NoiseFilter

/-! ## Rows -/

namespace Markup

/-- A node of a tree with its parent and what it is. -/
structure Row where
  id : NodeId
  parent : NodeId
  data : NodeData
  deriving DecidableEq

/-- The record that the linking of a row leaves. -/
def Row.mutation (r : Row) : Mutation := { target := r.parent, added := [r.id] }

/-- What an element of a page is in a tree: its name is in lower case, and its attributes are set one
after the other. -/
def elementData (name : String) (attributes : List (String × String)) : NodeData :=
  .element (attributes.foldl (fun e a => e.set a.1 a.2) { name := Text.lower name })

mutual

/-- The rows of a node and of what is below it, in preorder, with indexes from `next` on. -/
def Node.rows (parent : NodeId) (next : Nat) : Node → List Row
  | .doctype name => [⟨⟨next⟩, parent, .doctype name⟩]
  | .text s => [⟨⟨next⟩, parent, .text s⟩]
  | .comment s => [⟨⟨next⟩, parent, .comment s⟩]
  | .instruction _ _ => []
  | .element name attributes children =>
    ⟨⟨next⟩, parent, elementData name attributes⟩ :: rowsAll ⟨next⟩ (next + 1) children

/-- The rows of several nodes, one after the other. -/
def rowsAll (parent : NodeId) (next : Nat) : List Node → List Row
  | [] => []
  | n :: rest =>
    n.rows parent next ++ rowsAll parent (next + (n.rows parent next).length) rest

end

/-- The rows of a page below the document. -/
def Page.rows (p : Page) : List Row := rowsAll .root 1 p.nodes

end Markup

/-- The row of a node that hangs somewhere. -/
def Tree.row? (t : Tree) (id : NodeId) : Option Markup.Row := do
  return ⟨id, ← t.parent? id, ← t.data? id⟩

theorem Tree.row?_eq_some_iff {t : Tree} {id : NodeId} {r : Markup.Row} :
    t.row? id = some r ↔ r.id = id ∧ t.parent? id = some r.parent ∧ t.data? id = some r.data := by
  rw [row?]
  cases t.parent? id with
  | none => simp
  | some p =>
    cases t.data? id with
    | none => simp
    | some data =>
      obtain ⟨id', parent, data'⟩ := r
      simp [eq_comm]

/-! ## Subtrees that stay as they are -/

namespace Forest

variable {α : Type} {f f' : Forest α}

/-- The preorder below a node depends on the child lists there only. -/
theorem Preorder.congr {id : NodeId} {l : List NodeId} (preorder : f.Preorder id l)
    (same : ∀ x, x = id ∨ x ∈ l → f'.children x = f.children x) : f'.Preorder id l := by
  induction preorder with
  | @node id under each ih =>
    have here := same id (.inl rfl)
    rw [← here]
    refine .node under fun c child => ih c (here ▸ child) fun x inside => same x (.inr ?_)
    refine List.mem_flatMap.mpr ⟨c, here ▸ child, List.mem_cons.mpr inside⟩

theorem Linked.descendants_congr (linked : f.Linked) (linked' : f'.Linked) {id : NodeId}
    (same : ∀ x, x = id ∨ x ∈ f.descendants id → f'.children x = f.children x) :
    f'.descendants id = f.descendants id :=
  (((linked.preorder_descendants id).congr same).eq_descendants linked').symm

end Forest

namespace Tree

variable {t : Tree}

theorem index_lt_of_isElement {id : NodeId} (element : t.isElement id = true) :
    id.index < t.size := by
  obtain ⟨e, found⟩ := isElement_iff.mp element
  obtain ⟨n, there, -⟩ := Option.map_eq_some_iff.mp (data?_eq_of_element? found)
  exact of_decide_eq_true (t.forest.has_iff.mpr ⟨n, there⟩)

namespace Linked

variable {t' : Tree} {parent : NodeId} {data : NodeData} (linked : t.Linked)

include linked

theorem create (data : NodeData) : ((t.create data).2).Linked := linked.edit (.create data)

/-- A node that has just been created contains nothing, so it can be linked below any node. -/
theorem append_created (data : NodeData) (here : parent.index < t.size) :
    ∃ t', (t.create data).2.append parent ⟨t.size⟩ = .ok t' := by
  have created := linked.create data
  have size : (t.create data).2.forest.size = t.size + 1 := Edit.size_apply (.create data) t
  have parentHere : (t.create data).2.forest.has parent = true := by
    rw [Forest.has, size]
    exact decide_eq_true (Nat.lt_succ_of_lt here)
  have childHere : (t.create data).2.forest.has ⟨t.size⟩ = true := by
    rw [Forest.has, size]
    exact decide_eq_true (Nat.lt_succ_self _)
  have apart : ¬ (t.create data).2.isInclusiveAncestor ⟨t.size⟩ parent = true := by
    rw [isInclusiveAncestor_iff]
    rintro (same | above)
    · rw [← same] at here
      exact Nat.lt_irrefl _ here
    · obtain ⟨c, child, -⟩ := created.forest.exists_child_of_mem_ancestors above
      have old : t.forest.parent? c = some ⟨t.size⟩ :=
        (t.forest.target?_create data .parent c).symm.trans child
      have holds := linked.forest.threads.has_of_holds ((linked.forest.mem_children _ c).mpr old)
      exact Nat.lt_irrefl _ (of_decide_eq_true holds)
  rw [append, parentHere, childHere, if_neg (by decide), if_neg (by decide), if_neg apart]
  exact ⟨_, rfl⟩

variable (done : (t.create data).2.append parent ⟨t.size⟩ = .ok t')

include done

theorem of_append_created : t'.Linked :=
  Edit.apply_append_of_ok done ▸ (linked.create data).edit (.append parent ⟨t.size⟩)

theorem parent?_append_created (id : NodeId) :
    t'.parent? id = if id = ⟨t.size⟩ then some parent else t.parent? id := by
  obtain ⟨parentHere, childHere, -, rfl⟩ := append_ok done
  refine ((linked.create data).forest.parent?_append parentHere childHere id).trans ?_
  exact if_congr .rfl rfl (t.forest.target?_create data .parent id)

theorem children_append_created (id : NodeId) :
    t'.children id = if id = parent then t.children id ++ [⟨t.size⟩] else t.children id := by
  obtain ⟨parentHere, childHere, -, rfl⟩ := append_ok done
  have loose : (⟨t.size⟩ : NodeId) ∉ t.children id := fun member =>
    Nat.lt_irrefl _ (of_decide_eq_true (linked.forest.threads.has_of_mem member))
  have lists : (t.create data).2.forest.children id = t.children id :=
    (linked.forest.threads.of_same (t.forest.target?_create data)).children_eq id
  refine ((linked.create data).forest.children_append parentHere childHere id).trans ?_
  rw [lists, List.erase_of_not_mem loose]

/-- Nothing hangs below a node that has just been linked. -/
theorem descendants_append_created (here : parent.index < t.size) :
    t'.descendants ⟨t.size⟩ = [] := by
  have other : (⟨t.size⟩ : NodeId) ≠ parent := by
    rintro rfl
    exact Nat.lt_irrefl _ here
  have childless : t.children ⟨t.size⟩ = [] := by
    refine List.eq_nil_iff_forall_not_mem.mpr fun c member => ?_
    exact Nat.lt_irrefl _ (of_decide_eq_true (linked.forest.threads.has_of_holds member))
  have none : t'.children ⟨t.size⟩ = [] :=
    (linked.children_append_created done _).trans ((if_neg other).trans childless)
  exact ((linked.of_append_created done).forest.descendants_eq _).trans
    (congrArg (List.flatMap _) none)

omit linked in
theorem data?_append_created (id : NodeId) :
    t'.data? id = if id = ⟨t.size⟩ then some data else t.data? id := by
  have same : t'.data? id = (t.create data).2.data? id :=
    Edit.apply_append_of_ok done ▸ Edit.data?_append parent _
  have pushed : (t.forest.create data).2.get? ⟨t.size⟩ = some { data } := Array.getElem?_push_size
  rw [same]
  split
  · rename_i new
    rw [new]
    exact congrArg (Option.map Forest.Node.data) pushed
  · rename_i old
    exact t.forest.data?_create data old

end Linked

end Tree

namespace Markup

/-! ## Planting -/

namespace Planting

variable {α β : Type} {t t' : Tree}

theorem start_pure (a : α) (t : Tree) : (pure a : Planting α).start t = (.ok a, t) := rfl

/-- Planting goes on with what has come of it. -/
theorem start_bind {p : Planting α} {a : α} (done : p.start t = (.ok a, t')) (f : α → Planting β) :
    (p >>= f).start t = (f a).start t' := by
  have run : p.run.run t = (.ok a, t') := done
  rw [start, ExceptT.run_bind, StateT.run_bind, run]
  rfl

theorem start_link {parent child : NodeId} (done : t.append parent child = .ok t') :
    (link parent child).start t = (.ok (), t') := by
  have got : (get : Planting Tree).start t = (.ok t, t) := rfl
  rw [link, start_bind got, done]
  rfl

theorem start_grow {parent : NodeId} {data : NodeData}
    (done : (t.create data).2.append parent ⟨t.size⟩ = .ok t') :
    (grow parent data).start t = (.ok ⟨t.size⟩, t') := by
  have created : (modifyGet (·.create data) : Planting NodeId).start t =
      (.ok ⟨t.size⟩, (t.create data).2) := rfl
  rw [grow, start_bind created, start_bind (start_link done), start_pure]

end Planting

/-- What has come of a tree by planting rows below `parent`: the new nodes are the rows, `roots` are
those that hang below `parent` itself, and nothing else has changed. -/
structure Planted (t : Tree) (parent : NodeId) (roots : List NodeId) (rows : List Row) (t' : Tree) :
    Prop where
  linked : t'.Linked
  size : t'.size = t.size + rows.length
  ids : rows.map (·.id) = (List.range' t.size rows.length).map NodeId.mk
  shown : ∀ r ∈ rows, t'.row? r.id = some r
  data : ∀ id : NodeId, id.index < t.size → t'.data? id = t.data? id
  parents : ∀ id : NodeId, id.index < t.size → t'.parent? id = t.parent? id
  children : ∀ id : NodeId, id.index < t.size →
    t'.children id = if id = parent then t.children id ++ roots else t.children id
  below : (roots.flatMap fun c => c :: t'.descendants c) = rows.map (·.id)
  journal : t'.journal = t.journal ++ if t.observing then rows.map Row.mutation else []
  observing : t'.observing = t.observing
  generation : t'.generation = t.generation + rows.length

namespace Planted

variable {t t' t'' : Tree} {parent : NodeId} {roots roots' : List NodeId} {rows rows' : List Row}

theorem nil (linked : t.Linked) (parent : NodeId) : Planted t parent [] [] t := by
  constructor <;> simp [linked]

/-- The index of a new node is one of those that were free. -/
theorem index_of_mem (planted : Planted t parent roots rows t') {id : NodeId}
    (member : id ∈ rows.map (·.id)) : t.size ≤ id.index ∧ id.index < t'.size := by
  rw [planted.ids] at member
  obtain ⟨i, inside, rfl⟩ := List.mem_map.mp member
  rw [planted.size]
  exact List.mem_range'_1.mp inside

/-- What was there before is found as it was. -/
theorem row?_of_lt (planted : Planted t parent roots rows t') {id : NodeId} (old : id.index < t.size) :
    t'.row? id = t.row? id := by
  rw [Tree.row?, Tree.row?, planted.data id old, planted.parents id old]

/-- Below the document order of the roots stand the rows. -/
theorem map_row? (planted : Planted t parent roots rows t') :
    (roots.flatMap fun c => c :: t'.descendants c).map t'.row? = rows.map some := by
  rw [planted.below, List.map_map]
  exact List.map_congr_left planted.shown

/-- Rows planted below a node, and then further rows below the same node. -/
theorem append (first : Planted t parent roots rows t') (second : Planted t' parent roots' rows' t'')
    (here : parent.index < t.size) : Planted t parent (roots ++ roots') (rows ++ rows') t'' := by
  have older {id : NodeId} (old : id.index < t.size) : id.index < t'.size := by
    rw [first.size]
    omega
  -- below the roots of the first planting nothing changes in the second
  have still {c : NodeId} (root : c ∈ roots) : t''.descendants c = t'.descendants c := by
    refine first.linked.forest.descendants_congr second.linked.forest fun x inside => ?_
    have new : x ∈ rows.map (·.id) :=
      first.below ▸ List.mem_flatMap.mpr ⟨c, root, List.mem_cons.mpr inside⟩
    obtain ⟨from_, before⟩ := first.index_of_mem new
    refine (second.children x before).trans (if_neg fun same => ?_)
    rw [same] at from_
    omega
  refine
    { linked := second.linked
      size := ?size
      ids := ?ids
      shown := ?shown
      data := fun id old => (second.data id (older old)).trans (first.data id old)
      parents := fun id old => (second.parents id (older old)).trans (first.parents id old)
      children := ?children
      below := ?below
      journal := ?journal
      observing := second.observing.trans first.observing
      generation := ?generation }
  case size => rw [second.size, first.size, List.length_append, Nat.add_assoc]
  case ids =>
    rw [List.map_append, first.ids, second.ids, first.size, ← List.map_append, List.length_append,
      List.range'_append_1]
  case shown =>
    intro r member
    rcases List.mem_append.mp member with member | member
    · have inside := (first.index_of_mem (List.mem_map_of_mem member)).2
      rw [second.row?_of_lt inside, first.shown r member]
    · exact second.shown r member
  case children =>
    intro id old
    rw [second.children id (older old), first.children id old]
    split <;> simp
  case below =>
    rw [List.flatMap_append, second.below, List.map_append, ← first.below]
    refine congrArg (· ++ _) (List.flatMap_congr fun c root => ?_)
    rw [still root]
  case journal =>
    rw [second.journal, first.journal, first.observing]
    cases t.observing <;> simp
  case generation => rw [second.generation, first.generation, List.length_append, Nat.add_assoc]

/-- A node that is planted, and then rows below it. -/
theorem under {r : Row} (first : Planted t parent [r.id] [r] t')
    (second : Planted t' r.id roots' rows' t'') : Planted t parent [r.id] (r :: rows') t'' := by
  have size : t'.size = t.size + 1 := first.size
  obtain ⟨free, inside⟩ : t.size ≤ r.id.index ∧ r.id.index < t'.size :=
    first.index_of_mem (List.mem_singleton.mpr rfl)
  have older {id : NodeId} (old : id.index < t.size) : id.index < t'.size := by omega
  have childless : t'.children r.id = [] := by
    have below : [r.id].flatMap (fun c => c :: t'.descendants c) = [r.id] := first.below
    have nothing : t'.descendants r.id = [] := by simpa using below
    have all := first.linked.forest.descendants_eq r.id
    rw [show t'.forest.descendants r.id = [] from nothing] at all
    cases children : t'.forest.children r.id with
    | nil => exact children
    | cons c rest =>
      rw [children] at all
      cases all
  refine
    { linked := second.linked
      size := ?size
      ids := ?ids
      shown := ?shown
      data := fun id old => (second.data id (older old)).trans (first.data id old)
      parents := fun id old => (second.parents id (older old)).trans (first.parents id old)
      children := ?children
      below := ?below
      journal := ?journal
      observing := second.observing.trans first.observing
      generation := ?generation }
  case size => rw [second.size, size, List.length_cons]; omega
  case ids =>
    have head : [r.id] = [⟨t.size⟩] := first.ids
    rw [List.map_cons, second.ids, size, List.length_cons, List.range'_succ, List.map_cons]
    exact congrArg (· :: _) (List.singleton_inj.mp head)
  case shown =>
    intro s member
    rcases List.mem_cons.mp member with rfl | member
    · rw [second.row?_of_lt inside]
      exact first.shown s (List.mem_singleton.mpr rfl)
    · exact second.shown s member
  case children =>
    intro id old
    have other : id ≠ r.id := by
      rintro rfl
      omega
    rw [second.children id (older old), if_neg other, first.children id old]
  case below =>
    have children : t''.children r.id = roots' := by
      rw [second.children r.id inside, if_pos rfl, childless, List.nil_append]
    have all : t''.descendants r.id = (t''.children r.id).flatMap fun c => c :: t''.descendants c :=
      second.linked.forest.descendants_eq r.id
    rw [List.flatMap_singleton, all, children, second.below, List.map_cons]
  case journal =>
    rw [second.journal, first.journal, first.observing]
    cases t.observing <;> simp
  case generation =>
    rw [second.generation, first.generation, List.length_singleton, List.length_cons]
    omega

end Planted

variable {t : Tree} {parent : NodeId}

/-- A single node is never refused, and shows as one more child. -/
theorem grow_planted (linked : t.Linked) (here : parent.index < t.size) (data : NodeData) :
    ∃ t', (Planting.grow parent data).start t = (.ok ⟨t.size⟩, t') ∧
      Planted t parent [⟨t.size⟩] [⟨⟨t.size⟩, parent, data⟩] t' := by
  obtain ⟨t', done⟩ := linked.append_created data here
  obtain ⟨-, -, -, result⟩ := Tree.append_ok done
  have size : t'.size = t.size + 1 := by
    rw [← Edit.apply_append_of_ok done, Edit.size_apply]
    exact Edit.size_apply (.create data) t
  have parents := linked.parent?_append_created done
  have datum := Tree.Linked.data?_append_created done
  have older {id : NodeId} (old : id.index < t.size) : id ≠ ⟨t.size⟩ := by
    rintro rfl
    exact Nat.lt_irrefl _ old
  refine ⟨t', Planting.start_grow done,
    { linked := linked.of_append_created done
      size := size
      ids := rfl
      shown := ?shown
      data := fun id old => (datum id).trans (if_neg (older old))
      parents := fun id old => (parents id).trans (if_neg (older old))
      children := fun id _ => linked.children_append_created done id
      below := ?below
      journal := ?journal
      observing := by rw [result, Tree.record, Tree.create]
      generation := by rw [result, Tree.record, Tree.create, List.length_singleton] }⟩
  case shown =>
    intro r member
    rw [List.mem_singleton.mp member, Tree.row?_eq_some_iff]
    exact ⟨rfl, (parents _).trans (if_pos rfl), (datum _).trans (if_pos rfl)⟩
  case below =>
    rw [List.flatMap_singleton, linked.descendants_append_created done here]
    rfl
  case journal =>
    rw [result, Edit.journal_record]
    rfl

mutual

/-- A node is planted with all its rows. -/
theorem start_plant (n : Node) {t : Tree} {parent : NodeId} (linked : t.Linked)
    (here : parent.index < t.size) :
    ∃ id t', (n.plant parent).start t = (.ok id, t') ∧
      Planted t parent id.toList (n.rows parent t.size) t' := by
  have leaf (data : NodeData) : ∃ id t',
      (do return some (← Planting.grow parent data) : Planting (Option NodeId)).start t =
        (.ok id, t') ∧ Planted t parent id.toList [⟨⟨t.size⟩, parent, data⟩] t' := by
    obtain ⟨t', done, planted⟩ := grow_planted linked here data
    exact ⟨some ⟨t.size⟩, t', by rw [Planting.start_bind done]; rfl, planted⟩
  cases n with
  | doctype name => exact leaf _
  | text s => exact leaf _
  | comment s => exact leaf _
  | instruction target data => exact ⟨none, t, rfl, .nil linked parent⟩
  | element name attributes children =>
    obtain ⟨t', done, planted⟩ := grow_planted linked here (elementData name attributes)
    have size : t'.size = t.size + 1 := planted.size
    have inside : (⟨t.size⟩ : NodeId).index < t'.size := size ▸ Nat.lt_succ_self _
    obtain ⟨ids, t'', more, below⟩ := start_plantAll children planted.linked inside
    refine ⟨some ⟨t.size⟩, t'', ?_, ?_⟩
    · rw [Node.plant]
      have done : (Planting.grow parent (.element (.ofAttributes name attributes))).start t =
        (.ok ⟨t.size⟩, t') := done
      rw [Planting.start_bind done, Planting.start_bind more]
      rfl
    · rw [size] at below
      rw [Node.rows]
      exact planted.under (r := ⟨⟨t.size⟩, parent, elementData name attributes⟩) below

/-- Nodes are planted one behind the other, with all their rows. -/
theorem start_plantAll (nodes : List Node) {t : Tree} {parent : NodeId} (linked : t.Linked)
    (here : parent.index < t.size) :
    ∃ ids t', (plantAll parent nodes).start t = (.ok ids, t') ∧
      Planted t parent ids (rowsAll parent t.size nodes) t' := by
  cases nodes with
  | nil => exact ⟨[], t, rfl, .nil linked parent⟩
  | cons n rest =>
    obtain ⟨id, t', done, planted⟩ := start_plant n linked here
    have inside : parent.index < t'.size := by
      rw [planted.size]
      omega
    obtain ⟨ids, t'', more, others⟩ := start_plantAll rest planted.linked inside
    refine ⟨id.toList ++ ids, t'', ?_, ?_⟩
    · rw [plantAll, Planting.start_bind done, Planting.start_bind more]
      rfl
    · rw [planted.size] at others
      exact planted.append others here

end

/-- Nothing is given up where all nodes can be planted. -/
theorem plantNodes_eq (nodes : List Node) (linked : t.Linked) (here : NodeId.root.index < t.size) :
    ∃ ids, (plantAll .root nodes).start t = (.ok ids, t.plantNodes nodes) := by
  induction nodes generalizing t with
  | nil => exact ⟨[], rfl⟩
  | cons n rest ih =>
    obtain ⟨id, t', done, planted⟩ := start_plant n linked here
    have inside : NodeId.root.index < t'.size := by
      rw [planted.size]
      omega
    obtain ⟨ids, more⟩ := ih planted.linked inside
    have next : t.plantNodes (n :: rest) = t'.plantNodes rest := by
      rw [Tree.plantNodes, List.foldl_cons, done]
      rfl
    refine ⟨id.toList ++ ids, ?_⟩
    rw [plantAll, Planting.start_bind done, Planting.start_bind more, next]
    rfl

theorem tree_ofPage (page : Page) (url : String) :
    (Document.ofPage page url).tree = Tree.empty.plantNodes page.nodes := by
  rw [Document.ofPage, Document.locate]
  split <;> rfl

theorem plantBody_eq (page : Page) (linked : t.Linked) (element : t.isElement parent = true) :
    ∃ roots t', t.plantBody parent page = .ok (roots, t') ∧
      Planted t parent roots (rowsAll parent t.size page.body) t' := by
  have here := Tree.index_lt_of_isElement element
  obtain ⟨roots, t', done, planted⟩ := start_plantAll page.body linked here
  refine ⟨roots, t', ?_, planted⟩
  rw [Tree.plantBody, if_pos element, done]

/-- Pages are planted faithfully. Of a page that becomes a document no node is refused: in document
order the tree holds the rows of the page, numbered from 1, and no further node. And whatever edits
a tree has seen, the content of a body comes behind the children of an element, numbered in document
order with the indexes that come next; the answer names its nodes; all other nodes keep what they are
and their children; and while the tree is observed each new node leaves one record. -/
theorem planted_in_order (page : Page) :
    (∀ url, let t := (Document.ofPage page url).tree
      (∃ roots, (plantAll .root page.nodes).start .empty = (.ok roots, t)) ∧
      (t.descendants .root).map t.row? = page.rows.map some ∧
      page.rows.map (·.id) = (List.range' 1 page.rows.length).map NodeId.mk ∧
      t.size = 1 + page.rows.length) ∧
    ∀ (ws : List Edit) (parent : NodeId), (Tree.edited ws).isElement parent = true →
      let t := Tree.edited ws
      let rows := rowsAll parent t.size page.body
      ∃ roots t', t.plantBody parent page = .ok (roots, t') ∧
        t'.children parent = t.children parent ++ roots ∧
        (roots.flatMap fun c => c :: t'.descendants c).map t'.row? = rows.map some ∧
        rows.map (·.id) = (List.range' t.size rows.length).map NodeId.mk ∧
        t'.size = t.size + rows.length ∧
        (∀ id : NodeId, id.index < t.size → t'.data? id = t.data? id ∧
          t'.parent? id = t.parent? id ∧ (id ≠ parent → t'.children id = t.children id)) ∧
        t'.journal = t.journal ++ if t.observing then rows.map Row.mutation else [] := by
  constructor
  · intro url
    have linked := Tree.Linked.empty
    have here : NodeId.root.index < Tree.empty.size := Nat.one_pos
    obtain ⟨roots, t', done, planted⟩ := start_plantAll page.nodes linked here
    obtain ⟨ids, all⟩ := plantNodes_eq page.nodes linked here
    obtain ⟨-, same⟩ := Prod.mk.inj (done.symm.trans all)
    have childless : Tree.empty.children .root = [] :=
      (Forest.Threads.single NodeData.document).children_eq .root
    have children : t'.children .root = roots := by
      rw [planted.children .root here, if_pos rfl, childless, List.nil_append]
    have all : t'.descendants .root = roots.flatMap fun c => c :: t'.descendants c :=
      (planted.linked.forest.descendants_eq .root).trans
        (congrArg (List.flatMap fun c => c :: t'.descendants c) children)
    rw [tree_ofPage, ← same]
    exact ⟨⟨roots, done⟩, all ▸ planted.map_row?, planted.ids, planted.size⟩
  · intro ws parent element
    have linked := Tree.linked_edited ws
    obtain ⟨roots, t', done, planted⟩ := plantBody_eq page linked element
    have here := Tree.index_lt_of_isElement element
    refine ⟨roots, t', done, (planted.children parent here).trans (if_pos rfl), planted.map_row?,
      planted.ids, planted.size, fun id old => ⟨planted.data id old, planted.parents id old, ?_⟩,
      planted.journal⟩
    exact fun other => (planted.children id old).trans (if_neg other)

/-- A page whose body holds a bold word and a comment, and an instruction inside the first. -/
def boldPage : Page :=
  ⟨[.element "html" [] [.element "head" [] [],
    .element "body" []
      [.element "B" [("ID", "x")] [.text "word", .instruction "a" "b"], .comment "c"]]]⟩

/-- An entry of a list with a text in it, under observation. -/
def entryMoves : List Edit :=
  [.create (.element (.ofName "li")), .create (.text "a"), .observe true, .append .root ⟨1⟩,
    .append ⟨1⟩ ⟨2⟩]

/-- The bold word comes behind the text, and the comment behind the bold word. -/
theorem planted_in_order_boldWord :
    (Tree.edited entryMoves).isElement ⟨1⟩ = true ∧
    ∃ roots t', (Tree.edited entryMoves).plantBody ⟨1⟩ boldPage = .ok (roots, t') ∧
      t'.children ⟨1⟩ = [⟨2⟩] ++ roots ∧
      (roots.flatMap fun c => c :: t'.descendants c).map t'.row? =
        [some ⟨⟨3⟩, ⟨1⟩, elementData "B" [("ID", "x")]⟩, some ⟨⟨4⟩, ⟨3⟩, .text "word"⟩,
          some ⟨⟨5⟩, ⟨1⟩, .comment "c"⟩] ∧
      t'.journal = [⟨.root, [⟨1⟩], []⟩, ⟨⟨1⟩, [⟨2⟩], []⟩, ⟨⟨1⟩, [⟨3⟩], []⟩, ⟨⟨3⟩, [⟨4⟩], []⟩,
        ⟨⟨1⟩, [⟨5⟩], []⟩] := by
  have element : (Tree.edited entryMoves).isElement ⟨1⟩ = true := by decide +kernel
  obtain ⟨roots, t', done, children, below, -, -, -, journal⟩ :=
    (planted_in_order boldPage).2 entryMoves ⟨1⟩ element
  have size : (Tree.edited entryMoves).size = 3 := by decide +kernel
  have held : (Tree.edited entryMoves).children ⟨1⟩ = [⟨2⟩] := by decide +kernel
  have told : (Tree.edited entryMoves).journal = [⟨.root, [⟨1⟩], []⟩, ⟨⟨1⟩, [⟨2⟩], []⟩] := by
    decide +kernel
  have observing : (Tree.edited entryMoves).observing = true := by decide +kernel
  rw [size] at below journal
  rw [held] at children
  rw [told, observing] at journal
  exact ⟨element, roots, t', done, children, below, journal⟩

end Markup

end NoiseFilter
