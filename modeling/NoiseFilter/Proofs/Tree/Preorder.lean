import NoiseFilter.Proofs.Tree.Lineage

/-!
# The walk below a node

The nodes below a node in preorder are its children, each followed by what lies below it
(`Forest.Preorder`). The walk that finds them is no recursion: it has a cursor and the links. Below a
node with `n` descendants it comes back from each of them up to the node in `2 * n` steps, having
visited them in preorder (`Preorder.tour_step`), and then it is over. So the bound on its steps is
never what ends it, and `descendants` is the recursion that it is not defined by (`descendants_eq`).
-/

namespace NoiseFilter

namespace Forest

variable {α : Type} {f : Forest α}

/-- What lies below a node in preorder: each child, followed by what lies below that. -/
inductive Preorder (f : Forest α) : NodeId → List NodeId → Prop
  | node {id : NodeId} (under : NodeId → List NodeId)
      (each : ∀ c ∈ f.children id, Preorder f c (under c)) :
    Preorder f id ((f.children id).flatMap fun c => c :: under c)

/-! ## Steps one after the other -/

section

variable {top : NodeId} {cursor next last : Option Cursor} {l l' : List NodeId} {m n : Nat}

theorem tour_none (f : Forest α) (top : NodeId) (steps : Nat) : f.tour top steps none = ([], none) := by
  cases steps <;> rfl

theorem tour_trans (first : f.tour top m cursor = (l, next))
    (second : f.tour top n next = (l', last)) : f.tour top (m + n) cursor = (l ++ l', last) := by
  induction m generalizing cursor l with
  | zero =>
    obtain ⟨rfl, rfl⟩ := Prod.mk.inj first
    rw [Nat.zero_add]
    exact second
  | succ m ih =>
    rw [Nat.succ_add]
    cases cursor with
    | none =>
      obtain ⟨rfl, rfl⟩ := Prod.mk.inj first
      rw [tour_none] at second ⊢
      exact second
    | some c =>
      obtain ⟨visited, rest⟩ := Prod.mk.inj first
      have later := ih (Prod.ext rfl rest)
      rw [tour, later, ← visited, List.append_assoc]

/-- A step that visits nothing. -/
theorem tour_leave (f : Forest α) (top id : NodeId) :
    f.tour top 1 (some (.leave id)) = ([], f.step top (.leave id)) := rfl

theorem tour_visit {id : NodeId} (later : f.tour top n (f.step top (.visit id)) = (l, last)) :
    f.tour top (n + 1) (some (.visit id)) = (id :: l, last) := by
  rw [tour, later]
  rfl

end

namespace Linked

variable (linked : f.Linked)

include linked

theorem exists_preorder (id : NodeId) : ∃ l, f.Preorder id l := by
  induction id using linked.down_induction with
  | step id ih =>
    choose! under each using ih
    exact ⟨_, .node under each⟩

end Linked

namespace Preorder

variable {id : NodeId} {l : List NodeId} (linked : f.Linked)

include linked

theorem mem_iff (preorder : f.Preorder id l) {x : NodeId} : x ∈ l ↔ id ∈ f.ancestors x := by
  induction preorder generalizing x with
  | @node id under each ih =>
    rw [List.mem_flatMap]
    simp only [List.mem_cons]
    constructor
    · rintro ⟨c, child, rfl | inside⟩
      · have parent := (linked.mem_children id x).mp child
        exact linked.mem_ancestors.mpr ⟨id, parent, .inl rfl⟩
      · have parent := (linked.mem_children id c).mp child
        have above := linked.mem_ancestors.mpr ⟨id, parent, .inl rfl⟩
        exact linked.ancestors_trans above ((ih c child).mp inside)
    · intro above
      obtain ⟨c, parent, place⟩ := linked.exists_child_of_mem_ancestors above
      have child := (linked.mem_children id c).mpr parent
      exact ⟨c, child, place.imp Eq.symm (ih c child).mpr⟩

theorem nodup (preorder : f.Preorder id l) : l.Nodup := by
  induction preorder with
  | @node id under each ih =>
    have place {c x : NodeId} (child : c ∈ f.children id) (inside : x ∈ c :: under c) :
        c = x ∨ c ∈ f.ancestors x :=
      (List.mem_cons.mp inside).imp Eq.symm ((each c child).mem_iff linked).mp
    refine List.nodup_flatMap.mpr ⟨fun c child => List.nodup_cons.mpr ⟨fun circle => ?_, ih c child⟩,
      (linked.nodup id).imp_of_mem fun {c d} childC childD different x inC inD => ?_⟩
    · exact linked.not_mem_ancestors_self c (((each c child).mem_iff linked).mp circle)
    · exact linked.siblings_apart childC childD different (place childC inC) (place childD inD)

/-- From the first of some siblings to the last, and back up to their parent. -/
theorem tour_siblings {top p c : NodeId} {before behind : List NodeId}
    (halves : f.children p = before ++ c :: behind) (notTop : top ∉ f.children p)
    {under : NodeId → List NodeId}
    (each : ∀ d ∈ f.children p, f.tour top (2 * (under d).length + 1) (some (.visit d)) =
      (d :: under d, some (.leave d))) :
    f.tour top (2 * ((c :: behind).flatMap fun d => d :: under d).length) (some (.visit c)) =
      ((c :: behind).flatMap fun d => d :: under d, some (.leave p)) := by
  have child : c ∈ f.children p := halves ▸ List.mem_append_right before List.mem_cons_self
  have other : c ≠ top := fun same => notTop (same ▸ child)
  have parent := (linked.mem_children p c).mp child
  have next : f.next? c = behind.head? := linked.threads.next?_of_halves halves
  induction behind generalizing before c with
  | nil =>
    have up : f.step top (.leave c) = some (.leave p) := by
      simp only [step, if_neg other, next, List.head?_nil, parent, Option.map_some]
    have way := tour_trans (each c child) (f.tour_leave top c)
    rw [up, List.append_nil] at way
    rw [List.flatMap_singleton, List.length_cons]
    exact way
  | cons d rest ih =>
    have onward : f.step top (.leave c) = some (.visit d) := by
      simp only [step, if_neg other, next, List.head?_cons]
    have way := tour_trans (each c child) (f.tour_leave top c)
    rw [onward, List.append_nil] at way
    have halvesThen : f.children p = (before ++ [c]) ++ d :: rest := by simpa using halves
    have childThen : d ∈ f.children p := by simp [halves]
    have later := ih halvesThen childThen (fun same => notTop (same ▸ childThen))
      ((linked.mem_children p d).mp childThen) (linked.threads.next?_of_halves halvesThen)
    rw [List.flatMap_cons, List.length_append, List.length_cons, Nat.mul_add, Nat.mul_succ]
    exact tour_trans way later

/-- From a node through all that lies below it, and back. -/
theorem tour_step (preorder : f.Preorder id l) {top : NodeId} (notTop : top ∉ l) :
    f.tour top (2 * l.length) (f.step top (.visit id)) = (l, some (.leave id)) := by
  induction preorder with
  | @node id under each ih =>
    have firstChild : f.firstChild? id = (f.children id).head? := linked.threads.firstChild id
    rw [List.mem_flatMap] at notTop
    push Not at notTop
    have below : ∀ d ∈ f.children id, f.tour top (2 * (under d).length + 1) (some (.visit d)) =
        (d :: under d, some (.leave d)) := fun d child =>
      tour_visit (ih d child fun inside => notTop d child (List.mem_cons_of_mem d inside))
    have outside : top ∉ f.children id := fun child => notTop top child List.mem_cons_self
    cases children : f.children id with
    | nil =>
      have still : f.step top (.visit id) = some (.leave id) := by
        simp only [step, firstChild, children, List.head?_nil]
      rw [still]
      rfl
    | cons c behind =>
      have down : f.step top (.visit id) = some (.visit c) := by
        simp only [step, firstChild, children, List.head?_cons]
      have halves : f.children id = [] ++ c :: behind := children
      rw [down]
      exact tour_siblings linked halves outside below

theorem length_lt (preorder : f.Preorder id l) (here : f.has id = true) : l.length < f.size := by
  have distinct : (id :: l).Nodup := List.nodup_cons.mpr
    ⟨fun circle => linked.not_mem_ancestors_self id ((preorder.mem_iff linked).mp circle),
      preorder.nodup linked⟩
  refine length_le_of_nodup distinct fun x member => ?_
  rcases List.mem_cons.mp member with rfl | inside
  · exact of_decide_eq_true here
  · obtain ⟨p, parent, -⟩ := linked.mem_ancestors.mp ((preorder.mem_iff linked).mp inside)
    exact of_decide_eq_true (f.has_of_target? parent)

/-- The walk below a node visits what lies below in preorder, and is over within its bound. -/
theorem tour_entry (preorder : f.Preorder id l) :
    f.tour id (2 * f.size) (f.entry id) = (l, none) := by
  have notTop : id ∉ l := fun circle =>
    linked.not_mem_ancestors_self id ((preorder.mem_iff linked).mp circle)
  have back := preorder.tour_step linked notTop
  cases first : f.firstChild? id with
  | none =>
    have childless : f.children id = [] := by
      rw [← List.head?_eq_none_iff, ← linked.threads.firstChild, first]
    obtain ⟨under, -⟩ := preorder
    rw [entry, first, childless]
    exact tour_none ..
  | some c =>
    have down : f.step id (.visit id) = f.entry id := by
      simp only [step, entry, first, Option.map_some]
    have ended : f.step id (.leave id) = none := if_pos rfl
    have way := tour_trans back (f.tour_leave id id)
    rw [down, ended, List.append_nil] at way
    obtain ⟨more, enough⟩ : ∃ more, 2 * f.size = 2 * l.length + 1 + more :=
      Nat.exists_eq_add_of_le (by have := preorder.length_lt linked (f.has_of_target? first); omega)
    have whole := tour_trans way (f.tour_none id more)
    rw [enough, whole, List.append_nil]

theorem eq_descendants (preorder : f.Preorder id l) : l = f.descendants id := by
  rw [descendants, preorder.tour_entry linked]

end Preorder

namespace Linked

variable (linked : f.Linked)

include linked

theorem preorder_descendants (id : NodeId) : f.Preorder id (f.descendants id) := by
  obtain ⟨l, preorder⟩ := linked.exists_preorder id
  exact preorder.eq_descendants linked ▸ preorder

/-- The walk below a node ends by itself. -/
theorem tour_entry (id : NodeId) :
    f.tour id (2 * f.size) (f.entry id) = (f.descendants id, none) :=
  (linked.preorder_descendants id).tour_entry linked

/-- The descendants of a node are its children, each followed by its own descendants. -/
theorem descendants_eq (id : NodeId) :
    f.descendants id = (f.children id).flatMap fun c => c :: f.descendants c :=
  ((Preorder.node f.descendants fun c _ => linked.preorder_descendants c).eq_descendants linked).symm

theorem mem_descendants {a id : NodeId} : id ∈ f.descendants a ↔ a ∈ f.ancestors id :=
  (linked.preorder_descendants a).mem_iff linked

theorem nodup_descendants (a : NodeId) : (f.descendants a).Nodup :=
  (linked.preorder_descendants a).nodup linked

end Linked

end Forest

end NoiseFilter
