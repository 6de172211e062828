import NoiseFilter.Proofs.Record.Operation

/-!
# The entries of one element

The entries of an element stand in the order of their ranks, and a rule has one at most. Every
operation on a record keeps this (`Ranked.change`), and for each it is said which entries there are
afterwards.
-/

namespace NoiseFilter

/-- Entries by rank, one for each rule at most. -/
structure Ranked (entries : List Classification) : Prop where
  ascending : entries.Pairwise (·.rank ≤ ·.rank)
  distinct : (entries.map (·.ruleId)).Nodup

theorem Ranked.nil : Ranked [] := ⟨.nil, .nil⟩

namespace NodeRecord

variable {e c : Classification} {entries : List Classification}

theorem perm_sorted (entries : List Classification) : (sorted entries).Perm entries :=
  entries.mergeSort_perm _

theorem ascending_sorted (entries : List Classification) :
    (sorted entries).Pairwise (·.rank ≤ ·.rank) := by
  refine (List.pairwise_mergeSort ?_ ?_ entries).imp fun below => of_decide_eq_true below
  · intro a b c ab bc
    simp only [decide_eq_true_eq] at *
    omega
  · intro a b
    simp only [Bool.or_eq_true, decide_eq_true_eq]
    omega

/-- Putting new values under the same rules keeps the rules. -/
theorem map_ruleId_map {f : Classification → Classification}
    (same : ∀ x, (f x).ruleId = x.ruleId) (entries : List Classification) :
    (entries.map f).map (·.ruleId) = entries.map (·.ruleId) := by
  rw [List.map_map]
  exact List.map_congr_left fun x _ => same x

theorem ranked_sorted (distinct : (entries.map (·.ruleId)).Nodup) : Ranked (sorted entries) :=
  ⟨ascending_sorted entries, ((perm_sorted entries).map _).nodup_iff.mpr distinct⟩

/-! ## One entry let in -/

theorem ruleId_replacement (e old : Classification) :
    (if old.ruleId = e.ruleId then e else old).ruleId = old.ruleId := by
  split
  · rename_i same
    exact same.symm
  · rfl

theorem ranked_replace (ranked : Ranked entries) : Ranked (replace e entries) :=
  ranked_sorted (map_ruleId_map (ruleId_replacement e) entries ▸ ranked.distinct)

theorem perm_place (e : Classification) (entries : List Classification) :
    (place e entries).Perm (e :: entries) := by
  have split := entries.takeWhile_append_dropWhile (p := (·.rank ≤ e.rank))
  rw [place]
  exact List.perm_middle.trans (.cons e (.of_eq split))

theorem ascending_place (ascending : entries.Pairwise (·.rank ≤ ·.rank)) :
    (place e entries).Pairwise (·.rank ≤ ·.rank) := by
  induction entries with
  | nil => exact List.pairwise_singleton _ _
  | cons x rest ih =>
    obtain ⟨below, restAscending⟩ := List.pairwise_cons.mp ascending
    by_cases low : x.rank ≤ e.rank
    · have step : place e (x :: rest) = x :: place e rest := by
        simp [place, low]
      rw [step]
      refine List.pairwise_cons.mpr ⟨fun y member => ?_, ih restAscending⟩
      rcases List.mem_cons.mp ((perm_place e rest).mem_iff.mp member) with rfl | later
      · exact low
      · exact below y later
    · have step : place e (x :: rest) = e :: x :: rest := by
        simp [place, low]
      rw [step]
      refine List.pairwise_cons.mpr ⟨fun y member => ?_, ascending⟩
      rcases List.mem_cons.mp member with rfl | later
      · exact Nat.le_of_not_le low
      · exact Nat.le_trans (Nat.le_of_not_le low) (below y later)

theorem ranked_letIn (e : Classification) (ranked : Ranked entries) : Ranked (letIn e entries) := by
  rw [letIn]
  split
  · exact ranked_replace ranked
  · rename_i fresh
    refine ⟨ascending_place ranked.ascending, ?_⟩
    refine ((perm_place e entries).map _).nodup_iff.mpr (List.nodup_cons.mpr ⟨?_, ranked.distinct⟩)
    intro there
    obtain ⟨x, member, same⟩ := List.mem_map.mp there
    exact fresh (List.any_eq_true.mpr ⟨x, member, beq_iff_eq.mpr same⟩)

/-- An entry that is let in takes the place of that of its rule. -/
theorem mem_letIn : c ∈ letIn e entries ↔ c = e ∨ c ∈ entries ∧ c.ruleId ≠ e.ruleId := by
  rw [letIn]
  split
  · rename_i there
    obtain ⟨x, member, same⟩ := List.any_eq_true.mp there
    rw [replace, (perm_sorted _).mem_iff, List.mem_map]
    constructor
    · rintro ⟨old, oldMember, rfl⟩
      split
      · exact .inl rfl
      · rename_i other
        exact .inr ⟨oldMember, other⟩
    · rintro (rfl | ⟨kept, other⟩)
      · exact ⟨x, member, if_pos (beq_iff_eq.mp same)⟩
      · exact ⟨c, kept, if_neg other⟩
  · rename_i fresh
    rw [(perm_place e entries).mem_iff, List.mem_cons]
    refine or_congr_right ⟨fun member => ⟨member, fun same => fresh ?_⟩, And.left⟩
    exact List.any_eq_true.mpr ⟨c, member, beq_iff_eq.mpr same⟩

/-! ## All entries changed -/

theorem ranked_filter (p : Classification → Bool) (ranked : Ranked entries) :
    Ranked (entries.filter p) :=
  ⟨ranked.ascending.filter p, ranked.distinct.sublist ((List.filter_sublist).map _)⟩

theorem map_ruleId_retarget (kind : EntryKind) (cls : String) (entries : List Classification) :
    (retarget kind cls entries).map (·.ruleId) = entries.map (·.ruleId) :=
  map_ruleId_map (fun x => by split <;> rfl) entries

theorem ranked_retarget (kind : EntryKind) (cls : String) (ranked : Ranked entries) :
    Ranked (retarget kind cls entries) where
  ascending := by
    refine List.pairwise_map.mpr (ranked.ascending.imp fun {a b} below => ?_)
    split <;> split <;> exact below
  distinct := map_ruleId_retarget kind cls entries ▸ ranked.distinct

/-- Entries of other kinds stay as they are. -/
theorem filter_retarget (kind : EntryKind) (cls : String) (entries : List Classification) :
    (retarget kind cls entries).filter (·.kind != kind) = entries.filter (·.kind != kind) := by
  induction entries with
  | nil => rfl
  | cons e rest ih =>
    rw [retarget] at ih ⊢
    by_cases same : e.kind = kind <;> simp [same, ih]

theorem ranked_rerank (rank? : String → Option Nat) (ranked : Ranked entries) :
    Ranked (rerank rank? entries) := by
  rw [rerank]
  split
  · exact ranked
  · refine ranked_sorted ?_
    rw [map_ruleId_map (f := fun e => { e with rank := (rank? e.ruleId).getD e.rank }) fun _ => rfl]
    exact ranked.distinct

theorem mem_rerank {rank? : String → Option Nat} :
    c ∈ rerank rank? entries ↔
      ∃ x ∈ entries, { x with rank := (rank? x.ruleId).getD x.rank } = c := by
  rw [rerank]
  split
  · rename_i same
    conv => lhs; rw [← same]
    exact List.mem_map
  · rw [(perm_sorted _).mem_iff]
    exact List.mem_map

end NodeRecord

namespace Record

namespace Operation

variable {id : NodeId} {entries : List Classification}

theorem getD_reverted (p : Classification → Bool) (entries : List Classification) :
    (reverted p entries).getD entries = entries.filter (!p ·) := by
  rw [reverted]
  split
  · rename_i untouched
    refine (List.filter_eq_self.mpr fun x member => ?_).symm
    simpa using List.filter_eq_nil_iff.mp untouched x member
  · rfl

theorem getD_ifChanged (f : List Classification → List Classification)
    (entries : List Classification) : (ifChanged f entries).getD entries = f entries := by
  rw [ifChanged]
  split
  · rename_i same
    exact same.symm
  · rfl

theorem mem_after_classify (ranked : Ranked entries) {e c : Classification} :
    c ∈ (classify id e).after id entries ↔ c = e ∨ c ∈ entries ∧ c.ruleId ≠ e.ruleId := by
  rw [after, change, if_pos rfl, admitted]
  split
  · rename_i there
    obtain ⟨member, -⟩ := (SortedMap.find?_key_eq_some_iff ranked.distinct).mp there
    have alone (same : c.ruleId = e.ruleId) (other : c ∈ entries) : c = e :=
      Option.some.inj <|
        ((SortedMap.find?_key_eq_some_iff ranked.distinct).mpr ⟨other, same⟩).symm.trans there
    constructor
    · intro old
      by_cases same : c.ruleId = e.ruleId
      · exact .inl (alone same old)
      · exact .inr ⟨old, same⟩
    · rintro (rfl | ⟨old, -⟩)
      · exact member
      · exact old
  · exact NodeRecord.mem_letIn

theorem mem_after_unclassify {ruleId : String} {c : Classification} :
    c ∈ (unclassify id ruleId).after id entries ↔ c ∈ entries ∧ c.ruleId ≠ ruleId := by
  rw [after, change, if_pos rfl, getD_reverted, List.mem_filter]
  simp

theorem after_classify_of_ne {here : NodeId} (other : id ≠ here) (e : Classification) :
    (classify here e).after id entries = entries := by
  rw [after, change, if_neg other]
  rfl

theorem after_unclassify_of_ne {here : NodeId} (other : id ≠ here) (ruleId : String) :
    (unclassify here ruleId).after id entries = entries := by
  rw [after, change, if_neg other]
  rfl

theorem after_revertWhere (p : Classification → Bool) :
    (revertWhere p).after id entries = entries.filter (!p ·) :=
  getD_reverted p entries

theorem after_revertAll : revertAll.after id entries = [] :=
  (getD_reverted _ entries).trans (by simp)

theorem after_retarget (kind : EntryKind) (cls : String) :
    (retarget kind cls).after id entries = NodeRecord.retarget kind cls entries :=
  getD_ifChanged _ entries

theorem after_rerank (rank? : String → Option Nat) :
    (rerank rank?).after id entries = NodeRecord.rerank rank? entries :=
  getD_ifChanged _ entries

/-- Operations keep the entries of a node in order. -/
theorem ranked_after (o : Operation) (ranked : Ranked entries) : Ranked (o.after id entries) := by
  cases o with
  | classify here e =>
    by_cases same : id = here
    · rw [after, change, if_pos same, admitted]
      split
      · exact ranked
      · exact NodeRecord.ranked_letIn e ranked
    · exact after_classify_of_ne same e ▸ ranked
  | unclassify here ruleId =>
    by_cases same : id = here
    · rw [after, change, if_pos same, getD_reverted]
      exact NodeRecord.ranked_filter _ ranked
    · exact after_unclassify_of_ne same ruleId ▸ ranked
  | revertWhere p => exact after_revertWhere p ▸ NodeRecord.ranked_filter _ ranked
  | revertAll => exact after_revertAll ▸ .nil
  | retarget kind cls => exact after_retarget kind cls ▸ NodeRecord.ranked_retarget kind cls ranked
  | rerank rank? => exact after_rerank rank? ▸ NodeRecord.ranked_rerank rank? ranked

theorem ranked_change (o : Operation) (ranked : Ranked entries) {left : List Classification}
    (change : o.change id entries = some left) : Ranked left := by
  have after : Ranked (o.after id entries) := o.ranked_after ranked
  rwa [Operation.after, change] at after

/-- An operation that goes over all records. -/
def IsSweep : Operation → Prop
  | classify _ _ | unclassify _ _ => False
  | _ => True

theorem IsSweep.onElement {o : Operation} (sweep : o.IsSweep) (t : Tree) : o.OnElement t := by
  cases o with
  | classify _ _ => cases sweep
  | _ => trivial

/-- Sweeps bring in no entries; they may drop some and change the ranks and the classes of others. -/
theorem IsSweep.exists_of_mem_after {o : Operation} (sweep : o.IsSweep) {c : Classification}
    (there : c ∈ o.after id entries) : ∃ x ∈ entries, x.kind = c.kind ∧ x.color = c.color := by
  cases o with
  | classify _ _ => cases sweep
  | unclassify _ _ => cases sweep
  | revertWhere p =>
    rw [after_revertWhere] at there
    exact ⟨c, (List.mem_filter.mp there).1, rfl, rfl⟩
  | revertAll =>
    rw [after_revertAll] at there
    cases there
  | retarget kind cls =>
    rw [after_retarget] at there
    obtain ⟨x, old, rfl⟩ := List.mem_map.mp there
    exact ⟨x, old, by split <;> rfl, by split <;> rfl⟩
  | rerank rank? =>
    rw [after_rerank] at there
    obtain ⟨x, old, rfl⟩ := NodeRecord.mem_rerank.mp there
    exact ⟨x, old, rfl, rfl⟩

end Operation

/-- What is recorded are elements, and their entries stand in order. -/
structure Sound (r : Record) (t : Tree) : Prop where
  stands : r.Stands t
  ranked : ∀ id, Ranked (r.entriesAt id)

namespace Sound

variable {r : Record} {t : Tree}

theorem apply (sound : r.Sound t) (o : Operation) (onElement : o.OnElement t) :
    (o.apply r t).1.Sound (o.apply r t).2 where
  stands := o.stands_apply sound.stands onElement
  ranked id := o.entriesAt_apply sound.stands onElement id ▸ o.ranked_after (sound.ranked id)

/-- The entry of a rule is the only one that names the rule. -/
theorem entryFor?_eq_some_iff (sound : r.Sound t) {id : NodeId} {ruleId : String}
    {c : Classification} :
    r.entryFor? id ruleId = some c ↔ c ∈ r.entriesAt id ∧ c.ruleId = ruleId := by
  have found : r.entryFor? id ruleId = (r.entriesAt id).find? (·.ruleId == ruleId) := by
    rw [entryFor?, entriesAt]
    cases r.get? id <;> rfl
  rw [found]
  exact SortedMap.find?_key_eq_some_iff (sound.ranked id).distinct

end Sound

end Record

end NoiseFilter
