import NoiseFilter.Proofs.Tree.ChildLists

/-!
# Replaying the journal

Who takes the records of an observed tree knows its child lists without looking at the tree. Each edit
that links or unlinks a node leaves one record, no other edit leaves any, and the records carried out in
order on the child lists from before (`Mutation.replay`) give those of the tree (`replay_told`).

Records may wait from the time before observation was asked for once more. They tell what the child lists
already show, and carrying records out twice does no more than carrying them out once
(`replayAll_again`): a node that they move comes to the end of a list, behind all that they leave alone.
-/

namespace NoiseFilter

/-! ## Records on child lists -/

namespace Mutation

/-- Whether a record leaves a node in the list of `p`, if it is there. -/
def keeps (m : Mutation) (p c : NodeId) : Bool :=
  !m.added.contains c && !(p == m.target && m.removed.contains c)

/-- Carry a record out: what it removed leaves the list of the target, and what it added leaves
every list and comes to the end of that one. -/
def replay (m : Mutation) (lists : NodeId → List NodeId) (p : NodeId) : List NodeId :=
  (lists p).filter (m.keeps p) ++ if p = m.target then m.added else []

/-- Carry records out in order. -/
def replayAll (ms : List Mutation) (lists : NodeId → List NodeId) : NodeId → List NodeId :=
  ms.foldl (fun lists m => m.replay lists) lists

variable {ms ms' : List Mutation} {lists : NodeId → List NodeId}

theorem replayAll_append : replayAll (ms ++ ms') lists = replayAll ms' (replayAll ms lists) :=
  List.foldl_append ..

theorem replay_added (target child : NodeId) (p : NodeId) :
    replay { target, added := [child] } lists p =
      (lists p).filter (· != child) ++ if p = target then [child] else [] := by
  have keeps : keeps { target, added := [child] } p = (· != child) := by
    funext c
    simp [Mutation.keeps, bne, beq_eq_decide]
  rw [replay, keeps]

theorem replay_removed (target id : NodeId) (p : NodeId) :
    replay { target, removed := [id] } lists p =
      if p = target then (lists p).filter (· != id) else lists p := by
  rw [replay]
  split
  · rename_i here
    have keeps : keeps { target, removed := [id] } p = (· != id) := by
      funext c
      simp [Mutation.keeps, bne, beq_eq_decide, here]
    rw [keeps, List.append_nil]
  · rename_i elsewhere
    have keeps : keeps { target, removed := [id] } p = fun _ => true := by
      funext c
      simp [Mutation.keeps, elsewhere]
    rw [keeps, List.filter_true, List.append_nil]

/-- All that records do to a list: some nodes leave it, and some of those that they move come to stand
behind the others. -/
theorem exists_replayAll (ms : List Mutation) :
    ∃ (stays : NodeId → NodeId → Bool) (tail : NodeId → List NodeId),
      (∀ p, ∀ c ∈ tail p, stays p c = false) ∧
      ∀ lists p, replayAll ms lists p = (lists p).filter (stays p) ++ tail p := by
  induction ms using List.reverseRecOn with
  | nil => exact ⟨fun _ _ => true, fun _ => [], by simp, by simp [replayAll]⟩
  | append_singleton ms m ih =>
    obtain ⟨stays, tail, moved, all⟩ := ih
    refine ⟨fun p c => stays p c && m.keeps p c,
      fun p => (tail p).filter (m.keeps p) ++ if p = m.target then m.added else [],
      fun p c member => ?_, fun lists p => ?_⟩
    · rcases List.mem_append.mp member with member | member
      · simp [moved p c (List.mem_filter.mp member).1]
      · split at member
        · simp [keeps, member]
        · cases member
    · rw [replayAll_append]
      show replay m (replayAll ms lists) p = _
      rw [replay, all, List.filter_append, List.filter_filter, List.append_assoc]
      simp only [Bool.and_comm]

/-- Carrying records out once more changes nothing. -/
theorem replayAll_again (ms : List Mutation) (lists : NodeId → List NodeId) :
    replayAll ms (replayAll ms lists) = replayAll ms lists := by
  obtain ⟨stays, tail, moved, all⟩ := exists_replayAll ms
  funext p
  have gone : (tail p).filter (stays p) = [] :=
    List.filter_eq_nil_iff.mpr fun c member => by simp [moved p c member]
  rw [all, all, List.filter_append, gone, List.append_nil, List.filter_filter]
  simp only [Bool.and_self]

end Mutation

/-! ## Records of edits -/

namespace Edit

/-- The edit is let through and links a node, or unlinks one that was linked. -/
def Relinks (t : Tree) : Edit → Prop
  | append parent child => ∃ t', t.append parent child = .ok t'
  | detach id => (∃ t', t.detach id = .ok t') ∧ t.parent? id ≠ none
  | _ => False

/-- The records that an edit leaves while the tree is observed. -/
def records (t : Tree) : Edit → List Mutation
  | append parent child =>
    match t.append parent child with
    | .ok _ => [{ target := parent, added := [child] }]
    | .error _ => []
  | detach id => (t.parent? id).toList.map fun p => { target := p, removed := [id] }
  | _ => []

variable {t : Tree}

theorem detach_of_parent? {id p : NodeId} (parent : t.parent? id = some p) :
    t.detach id = .ok ({ t with forest := t.forest.unlink id }.record
      { target := p, removed := [id] }) := by
  have here : t.forest.has id = true := t.forest.has_of_target? parent
  rw [Tree.detach, here, parent]
  rfl

theorem apply_detach_of_root {id : NodeId} (root : t.parent? id = none) : (detach id).apply t = t := by
  rw [apply, Tree.detach, root]
  split <;> rfl

/-- One record for an edit that links or unlinks a node. -/
theorem exists_records_of_relinks {w : Edit} (relinks : w.Relinks t) : ∃ m, w.records t = [m] := by
  cases w with
  | append parent child =>
    obtain ⟨t', done⟩ := relinks
    exact ⟨_, by rw [records, done]⟩
  | detach id =>
    obtain ⟨p, parent⟩ := Option.ne_none_iff_exists'.mp relinks.2
    exact ⟨_, by rw [records, parent]; rfl⟩
  | _ => cases relinks

/-- No record for any other edit. -/
theorem records_of_not_relinks {w : Edit} (not : ¬ w.Relinks t) : w.records t = [] := by
  cases w with
  | append parent child =>
    rw [records]
    split
    · next t' done => exact absurd ⟨t', done⟩ not
    · rfl
  | detach id =>
    cases parent : t.parent? id with
    | none => rw [records, parent]; rfl
    | some p =>
      exact absurd ⟨⟨_, detach_of_parent? parent⟩, by simp [parent]⟩ not
  | _ => rfl

/-- Carried out on the child lists, the records of an edit do what the edit does. -/
theorem replayAll_records (linked : t.Linked) (w : Edit) :
    Mutation.replayAll (w.records t) t.children = (w.apply t).children := by
  funext p
  have distinct : (t.children p).Nodup := linked.forest.nodup p
  cases w with
  | create data =>
    exact ((linked.forest.threads.of_same (t.forest.target?_create data)).children_eq p).symm
  | append parent child =>
    cases done : t.append parent child with
    | error error =>
      rw [records, done, apply_append_of_error done]
      rfl
    | ok t' =>
      rw [records, done, apply_append_of_ok done]
      obtain ⟨parentHere, childHere, -, rfl⟩ := Tree.append_ok done
      show Mutation.replay _ _ p = (t.forest.append parent child).children p
      rw [Mutation.replay_added, linked.forest.children_append parentHere childHere, ← distinct.erase_eq_filter]
      split <;> simp [Tree.children]
  | detach id =>
    cases parent : t.parent? id with
    | none =>
      rw [records, parent, apply_detach_of_root parent]
      rfl
    | some q =>
      rw [records, parent, apply_detach_of_ok (detach_of_parent? parent)]
      have erased : (t.forest.unlink id).children p = (t.children p).filter (· != id) :=
        (linked.forest.children_unlink id p).trans (distinct.erase_eq_filter id)
      refine Eq.trans ?_ erased.symm
      show Mutation.replay _ _ p = _
      rw [Mutation.replay_removed]
      split
      · rfl
      · rename_i elsewhere
        refine (List.filter_eq_self.mpr fun c member => bne_iff_ne.mpr ?_).symm
        rintro rfl
        have held := (linked.forest.mem_children p c).mp member
        exact elsewhere (Option.some.inj (held.symm.trans parent))
  | write id w => exact ((sameFrame_write id w).children p).symm
  | observe enabled => rfl
  | takeJournal => rfl

theorem journal_record (m : Mutation) :
    (t.record m).journal = t.journal ++ if t.observing then [m] else [] := by
  rw [Tree.record]
  cases t.observing <;> simp

/-- An edit puts its records at the end of the journal if the tree is observed. -/
theorem journal_apply (w : Edit) (kept : w ≠ .observe false) (notTaken : w ≠ .takeJournal) :
    (w.apply t).journal = t.journal ++ if t.observing then w.records t else [] := by
  have unrecorded : t.journal = t.journal ++ if t.observing then [] else [] := by simp
  cases w with
  | create data => exact unrecorded
  | append parent child =>
    cases done : t.append parent child with
    | error error =>
      rw [apply_append_of_error done, records, done]
      exact unrecorded
    | ok t' =>
      rw [apply_append_of_ok done, records, done]
      obtain ⟨-, -, -, rfl⟩ := Tree.append_ok done
      exact journal_record _
  | detach id =>
    cases parent : t.parent? id with
    | none =>
      rw [apply_detach_of_root parent, records, parent]
      exact unrecorded
    | some p =>
      rw [apply_detach_of_ok (detach_of_parent? parent), records, parent]
      exact journal_record _
  | write id w => exact (sameFrame_write id w).journal.trans unrecorded
  | observe enabled =>
    cases enabled with
    | true => exact unrecorded
    | false => exact absurd rfl kept
  | takeJournal => exact absurd rfl notTaken

end Edit

/-! ## Runs -/

/-- A tree with all records that were taken from it. -/
structure Transcript where
  tree : Tree
  taken : List Mutation := []

namespace Transcript

open Mutation (replayAll replayAll_append replayAll_again)

/-- Carry an edit out, and keep the records if it takes them. -/
def step (r : Transcript) (w : Edit) : Transcript where
  tree := w.apply r.tree
  taken :=
    match w with
    | .takeJournal => r.taken ++ r.tree.takeJournal.1
    | _ => r.taken

def run (r : Transcript) (ws : List Edit) : Transcript := ws.foldl step r

/-- The records that were taken and those still in the journal. -/
def told (r : Transcript) : List Mutation := r.taken ++ r.tree.journal

/-- Observation of a tree begins. -/
def start (t : Tree) : Transcript := { tree := t.observe true }

variable {r : Transcript}

/-- While the tree is observed, an edit adds to what is told just its own records. -/
theorem told_step (w : Edit) (kept : w ≠ .observe false) (observed : r.tree.observing = true) :
    (r.step w).told = r.told ++ w.records r.tree := by
  by_cases takes : w = .takeJournal
  · subst takes
    rfl
  · have untouched : (r.step w).taken = r.taken := by
      cases w with
      | takeJournal => exact absurd rfl takes
      | _ => rfl
    show (r.step w).taken ++ (w.apply r.tree).journal = _
    rw [untouched, w.journal_apply kept takes, if_pos observed, told, List.append_assoc]

theorem run_concat (ws : List Edit) (w : Edit) : r.run (ws ++ [w]) = (r.run ws).step w :=
  List.foldl_concat ..

/-- While the tree is observed, what is told stays in step with the child lists. -/
theorem run_told (linked : r.tree.Linked) (observed : r.tree.observing = true)
    {lists : NodeId → List NodeId} (agree : replayAll r.told lists = r.tree.children)
    (ws : List Edit) (kept : .observe false ∉ ws) :
    (r.run ws).tree.Linked ∧ (r.run ws).tree.observing = true ∧
      replayAll (r.run ws).told lists = (r.run ws).tree.children := by
  induction ws using List.reverseRecOn with
  | nil => exact ⟨linked, observed, agree⟩
  | append_singleton ws w ih =>
    rw [List.mem_append, not_or, List.mem_singleton] at kept
    obtain ⟨linked, observed, agree⟩ := ih kept.1
    have kept : w ≠ .observe false := Ne.symm kept.2
    rw [run_concat]
    refine ⟨linked.edit w, Tree.observing_apply kept observed, ?_⟩
    rw [told_step w kept observed, replayAll_append, agree, w.replayAll_records linked]
    rfl

end Transcript

namespace Tree

open Mutation (replayAll replayAll_again)

/-- The records in the journal tell how the child lists came about. -/
structure Journaled (t : Tree) : Prop where
  idle : t.observing = false → t.journal = []
  told : ∃ lists, replayAll t.journal lists = t.children

theorem Journaled.of_nothing {t : Tree} (nothing : t.journal = []) : t.Journaled :=
  ⟨fun _ => nothing, t.children, by rw [nothing]; rfl⟩

theorem Journaled.edit {t : Tree} (linked : t.Linked) (journaled : t.Journaled) (w : Edit) :
    (w.apply t).Journaled := by
  by_cases stops : w = .observe false
  · exact .of_nothing (by rw [stops]; rfl)
  by_cases takes : w = .takeJournal
  · exact .of_nothing (by rw [takes]; rfl)
  have journal := w.journal_apply (t := t) stops takes
  cases observed : t.observing with
  | false =>
    rw [observed, journaled.idle observed] at journal
    exact .of_nothing journal
  | true =>
    obtain ⟨lists, told⟩ := journaled.told
    rw [observed, if_pos rfl] at journal
    have still := observing_apply stops observed
    refine ⟨fun stopped => absurd (still.symm.trans stopped) (by decide), lists, ?_⟩
    rw [journal, Mutation.replayAll_append, told, w.replayAll_records linked]

theorem journaled_edited (ws : List Edit) : (edited ws).Journaled := by
  induction ws using List.reverseRecOn with
  | nil => exact .of_nothing rfl
  | append_singleton ws w ih =>
    rw [edited_concat]
    exact ih.edit (linked_edited ws) w

/-- From the moment at which a tree is observed, the records that were taken from it and those still in
its journal, carried out in order on the child lists of that moment, give the child lists of the tree,
as long as observation does not stop. An edit that links or unlinks a node adds one record, and any other
edit adds none. -/
theorem replay_told (before ws : List Edit) (kept : .observe false ∉ ws) :
    replayAll ((Transcript.start (edited before)).run ws).told (edited before).children =
        ((Transcript.start (edited before)).run ws).tree.children ∧
      ∀ front w, front ++ [w] <+: ws →
        (w.Relinks ((Transcript.start (edited before)).run front).tree →
          ∃ m, ((Transcript.start (edited before)).run (front ++ [w])).told =
            ((Transcript.start (edited before)).run front).told ++ [m]) ∧
        (¬ w.Relinks ((Transcript.start (edited before)).run front).tree →
          ((Transcript.start (edited before)).run (front ++ [w])).told =
            ((Transcript.start (edited before)).run front).told) := by
  obtain ⟨lists, told⟩ := (journaled_edited before).told
  have linked : (Transcript.start (edited before)).tree.Linked := (linked_edited before).edit (.observe true)
  have waiting : replayAll (Transcript.start (edited before)).told (edited before).children =
      (edited before).children := by
    show replayAll (edited before).journal _ = _
    rw [← told, replayAll_again]
  refine ⟨(Transcript.run_told linked rfl waiting ws kept).2.2, fun front w reached => ?_⟩
  have inside : ∀ e ∈ front ++ [w], e ≠ .observe false := by
    rintro e member rfl
    exact kept (reached.subset member)
  obtain ⟨-, observed, -⟩ := Transcript.run_told linked rfl waiting front
    fun member => inside _ (List.mem_append_left _ member) rfl
  rw [Transcript.run_concat, Transcript.told_step w (inside w (by simp)) observed]
  refine ⟨fun relinks => ?_, fun not => ?_⟩
  · obtain ⟨m, alone⟩ := Edit.exists_records_of_relinks relinks
    exact ⟨m, by rw [alone]⟩
  · rw [Edit.records_of_not_relinks not, List.append_nil]

/-- A division on the page, and a span that hangs nowhere. -/
def looseSpan : List Edit :=
  [.create (.element (.ofName "div")), .create (.element (.ofName "span")), .append .root ⟨1⟩]

/-- The span is put into the division, the records are taken, a circle is refused, the span is moved to the
end of the page, and the division is taken out. -/
def spanMoves : List Edit :=
  [.append ⟨1⟩ ⟨2⟩, .takeJournal, .append ⟨2⟩ ⟨1⟩, .append .root ⟨2⟩, .detach ⟨1⟩]

/-- The three records of the moves, one taken and two waiting, tell where the span is. -/
theorem replay_told_looseSpan : Edit.observe false ∉ spanMoves ∧
    ((Transcript.start (edited looseSpan)).run spanMoves).told =
      [{ target := ⟨1⟩, added := [⟨2⟩] }, { target := .root, added := [⟨2⟩] },
        { target := .root, removed := [⟨1⟩] }] ∧
    replayAll ((Transcript.start (edited looseSpan)).run spanMoves).told (edited looseSpan).children =
      ((Transcript.start (edited looseSpan)).run spanMoves).tree.children := by
  have kept : Edit.observe false ∉ spanMoves := by simp [spanMoves]
  exact ⟨kept, by decide +kernel, (replay_told looseSpan spanMoves kept).1⟩

end Tree

end NoiseFilter
