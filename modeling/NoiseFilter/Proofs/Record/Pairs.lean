import Mathlib.Data.Finset.Card
import NoiseFilter.Proofs.Record.Entries

/-!
# Entries in number

Here the entries of a record are taken all together. No two of them have the same node and the same
rule, so there are as many entries as there are pairs of a node and a rule (`card_pairs`). A
classification brings in one pair at most and dropping one takes one out at most; a pass over all
records either leaves every node as many entries as it had, or drops those that satisfy a condition
and counts them.
-/

namespace NoiseFilter.Record

/-- All entries, each with its node. -/
def all (r : Record) : List (NodeId × Classification) :=
  r.nodes.entries.flatMap fun x => x.2.entries.map (x.1, ·)

/-- The node and the rule of each entry. -/
def pairs (r : Record) : Finset (NodeId × String) :=
  (r.all.map fun x => (x.1, x.2.ruleId)).toFinset

variable {r : Record} {t : Tree}

theorem mem_all {x : NodeId × Classification} : x ∈ r.all ↔ x.2 ∈ r.entriesAt x.1 := by
  obtain ⟨id, c⟩ := x
  rw [all, List.mem_flatMap]
  constructor
  · rintro ⟨⟨_, n⟩, member, inside⟩
    obtain ⟨_, there, same⟩ := List.mem_map.mp inside
    cases same
    rwa [entriesAt_of_get? (r.nodes.get?_eq_some_iff.mpr member)]
  · intro there
    cases found : r.get? id with
    | none =>
      rw [entriesAt, found] at there
      cases there
    | some n =>
      rw [entriesAt_of_get? found] at there
      exact ⟨(id, n), r.nodes.get?_eq_some_iff.mp found, List.mem_map.mpr ⟨c, there, rfl⟩⟩

theorem mem_pairs {x : NodeId × String} :
    x ∈ r.pairs ↔ ∃ c ∈ r.entriesAt x.1, c.ruleId = x.2 := by
  rw [pairs, List.mem_toFinset, List.mem_map]
  constructor
  · rintro ⟨⟨id, c⟩, member, rfl⟩
    exact ⟨c, mem_all.mp member, rfl⟩
  · rintro ⟨c, there, same⟩
    exact ⟨(x.1, c), mem_all.mpr there, Prod.ext rfl same⟩

theorem mem_pairs_iff_isSome (sound : r.Sound t) {x : NodeId × String} :
    x ∈ r.pairs ↔ (r.entryFor? x.1 x.2).isSome = true := by
  simp only [mem_pairs, Option.isSome_iff_exists, sound.entryFor?_eq_some_iff]

/-- No two entries share node and rule. -/
theorem nodup_pairs (ranked : ∀ id, Ranked (r.entriesAt id)) :
    (r.all.map fun x => (x.1, x.2.ruleId)).Nodup := by
  rw [all, List.map_flatMap]
  refine List.nodup_flatMap.mpr ⟨fun x member => ?_, ?_⟩
  · have here := entriesAt_of_get? (r.nodes.get?_eq_some_iff.mpr member)
    have distinct : ((r.entriesAt x.1).map (·.ruleId)).Nodup := (ranked x.1).distinct
    rw [here] at distinct
    simpa [List.map_map, Function.comp_def] using distinct.map (Prod.mk_right_injective x.1)
  · refine (List.pairwise_map.mp r.nodes.nodup_keys).imp fun {x y} different pair inX inY => ?_
    simp only [List.map_map, List.mem_map, Function.comp_apply] at inX inY
    obtain ⟨_, -, rfl⟩ := inX
    obtain ⟨_, -, same⟩ := inY
    exact different (congrArg Prod.fst same).symm

theorem card_pairs (sound : r.Sound t) : r.pairs.card = r.all.length := by
  rw [pairs, List.toFinset_card_of_nodup (nodup_pairs sound.ranked), List.length_map]

/-! ## One entry in or out -/

section

variable (sound : r.Sound t) (id : NodeId)

include sound

theorem pairs_classify (isElement : t.isElement id = true) (c : Classification) :
    ((Operation.classify id c).apply r t).1.pairs = insert (id, c.ruleId) r.pairs := by
  ext ⟨other, ruleId⟩
  rw [mem_pairs, Finset.mem_insert, mem_pairs,
    Operation.entriesAt_apply (.classify id c) sound.stands isElement]
  by_cases same : other = id
  · subst same
    simp only [Operation.mem_after_classify (sound.ranked other), Prod.mk.injEq, true_and]
    constructor
    · rintro ⟨x, rfl | ⟨there, -⟩, rfl⟩
      · exact .inl rfl
      · exact .inr ⟨x, there, rfl⟩
    · rintro (rfl | ⟨x, there, rfl⟩)
      · exact ⟨c, .inl rfl, rfl⟩
      · by_cases own : x.ruleId = c.ruleId
        · exact ⟨c, .inl rfl, own.symm⟩
        · exact ⟨x, .inr ⟨there, own⟩, rfl⟩
  · simp [Operation.after_classify_of_ne same, same]

theorem pairs_unclassify (ruleId : String) :
    ((Operation.unclassify id ruleId).apply r t).1.pairs = r.pairs.erase (id, ruleId) := by
  ext ⟨other, ruleId'⟩
  rw [mem_pairs, Finset.mem_erase, mem_pairs,
    Operation.entriesAt_apply (.unclassify id ruleId) sound.stands trivial]
  by_cases same : other = id
  · subst same
    simp only [Operation.mem_after_unclassify, ne_eq, Prod.mk.injEq, true_and]
    constructor
    · rintro ⟨x, ⟨there, differs⟩, rfl⟩
      exact ⟨differs, x, there, rfl⟩
    · rintro ⟨differs, x, there, rfl⟩
      exact ⟨x, ⟨there, differs⟩, rfl⟩
  · simp [Operation.after_unclassify_of_ne same, same]

/-- Where the only entry that a rule may have on a node is the one that is let in, a change is
reported if and only if the rule had none. -/
theorem classify_counts (isElement : t.isElement id = true) {c : Classification}
    (own : ∀ x, r.entryFor? id c.ruleId = some x → x = c) :
    (r.classify t id c).1 = .ok (decide ((id, c.ruleId) ∉ r.pairs)) := by
  obtain ⟨e, here⟩ := Tree.isElement_iff.mp isElement
  rw [classify_eq here, admitted]
  refine congrArg Except.ok (Bool.eq_iff_iff.mpr ?_)
  rw [decide_eq_true_iff, mem_pairs]
  split
  · rename_i found
    obtain ⟨there, -⟩ := (SortedMap.find?_key_eq_some_iff (sound.ranked id).distinct).mp found
    exact iff_of_false Bool.false_ne_true fun absent => absent ⟨c, there, rfl⟩
  · rename_i missing
    refine iff_of_true rfl ?_
    rintro ⟨x, there, same⟩
    cases own x (sound.entryFor?_eq_some_iff.mpr ⟨there, same⟩)
    exact missing ((SortedMap.find?_key_eq_some_iff (sound.ranked id).distinct).mpr ⟨there, rfl⟩)

/-- Dropping an entry is reported as a change if and only if there was one. -/
theorem unclassify_counts (ruleId : String) :
    (r.unclassify t id ruleId).1 = .ok (decide ((id, ruleId) ∈ r.pairs)) := by
  cases found : r.get? id with
  | none =>
    rw [unclassify_of_absent found]
    refine congrArg Except.ok (decide_eq_false ?_).symm
    simp [mem_pairs, entriesAt, found]
  | some n =>
    obtain ⟨e, here⟩ := Tree.isElement_iff.mp (sound.stands id n found).1
    rw [unclassify_eq found here, reverted]
    refine congrArg Except.ok (Bool.eq_iff_iff.mpr ?_)
    rw [decide_eq_true_iff, mem_pairs, entriesAt_of_get? found]
    split
    · rename_i none
      refine iff_of_false Bool.false_ne_true ?_
      rintro ⟨x, there, same⟩
      exact List.filter_eq_nil_iff.mp none x there (beq_iff_eq.mpr same)
    · rename_i some
      obtain ⟨x, member⟩ := List.exists_mem_of_ne_nil _ some
      obtain ⟨there, same⟩ := List.mem_filter.mp member
      exact iff_of_true rfl ⟨x, there, beq_iff_eq.mp same⟩

end

/-! ## Passes over all records -/

/-- Forgetting nodes forgets their entries. -/
theorem all_prune (r : Record) (t : Tree) :
    (r.prune t).2.all = r.all.filter fun x => t.isConnected x.1 := by
  rw [all, all, List.filter_flatMap]
  show (r.nodes.entries.filter fun x => t.isConnected x.1).flatMap _ = _
  induction r.nodes.entries with
  | nil => rfl
  | cons x rest ih =>
    cases connected : t.isConnected x.1 <;>
      simp [List.filter_map, Function.comp_def, connected, ih]

section

variable {f : List Classification → Option (List Classification)}
  {step : Tree → NodeId → NodeRecord → Sweep × NodeRecord × Tree}

theorem entries_touched (n : NodeRecord) : (touched f n).entries = (f n.entries).getD n.entries := by
  rw [touched]
  cases f n.entries <;> rfl

variable (stands : r.Stands t)

include stands

theorem isElement_of_mem_nodes {x : NodeId × NodeRecord} (member : x ∈ r.nodes.entries) :
    t.isElement x.1 = true :=
  (stands x.1 x.2 (r.nodes.get?_eq_some_iff.mpr member)).1

/-- What a pass over all records leaves. -/
theorem all_sweep (changes : Changes r.marker f step) :
    (r.sweep t step).2.1.all = r.nodes.entries.flatMap fun x =>
      ((f x.2.entries).getD x.2.entries).map (x.1, ·) := by
  have records := (visit_eq changes r.nodes.entries fun x => isElement_of_mem_nodes stands).1
  show (visit step t r.nodes.entries).2.1.flatMap _ = _
  rw [records, List.flatMap_map]
  simp only [entries_touched]

/-- The pass that drops entries leaves the others. -/
theorem all_revertWhere (p : Classification → Bool) :
    (r.revertWhere t p).2.1.all = r.all.filter fun x => !p x.2 := by
  have filled (nodes : List (NodeId × NodeRecord)) :
      (nodes.filter fun x => !x.2.entries.isEmpty).flatMap (fun x => x.2.entries.map (x.1, ·)) =
        nodes.flatMap fun x => x.2.entries.map (x.1, ·) := by
    induction nodes with
    | nil => rfl
    | cons x rest ih =>
      cases empty : x.2.entries <;> simp [empty, ih]
  have left := all_sweep stands (changes_revertNode r.marker p)
  show List.flatMap _ (List.filter _ (r.sweep t (revertNode r.marker p)).2.1.nodes.entries) = _
  rw [filled]
  refine left.trans ?_
  simp only [Operation.getD_reverted, all, List.filter_flatMap, List.filter_map, Function.comp_def]

/-- A pass that leaves each node as many entries as it has leaves them on the same nodes. -/
theorem map_fst_all_update {g : List Classification → List Classification}
    (length : ∀ entries, (g entries).length = entries.length) :
    (r.sweep t (updateNode r.marker g)).2.1.all.map (·.1) = r.all.map (·.1) := by
  rw [all_sweep stands (changes_updateNode r.marker g), all]
  simp only [Operation.getD_ifChanged, List.map_flatMap, List.map_map, Function.comp_def,
    List.map_const', length]

end

theorem changed_visit (marker : String) (p : Classification → Bool)
    (nodes : List (NodeId × NodeRecord)) (elements : ∀ x ∈ nodes, t.isElement x.1 = true) :
    (visit (revertNode marker p) t nodes).1.changed =
      (nodes.flatMap fun x => (x.2.entries.filter p)).length := by
  induction nodes generalizing t with
  | nil => rfl
  | cons x rest ih =>
    obtain ⟨id, n⟩ := x
    obtain ⟨e, here⟩ := Tree.isElement_iff.mp (elements (id, n) List.mem_cons_self)
    obtain ⟨-, frame, -⟩ := (changes_revertNode marker p).on_element here n
    have later := ih fun x member =>
      (frame.isElement x.1).trans (elements x (List.mem_cons_of_mem _ member))
    have now : (revertNode marker p t id n).1.changed = (n.entries.filter p).length := by
      rw [revertNode]
      split
      · rename_i none
        rw [List.isEmpty_iff.mp none]
        rfl
      · simp only [Tree.reconcile_eq here]
    show (revertNode marker p t id n).1.changed +
      (visit (revertNode marker p) (revertNode marker p t id n).2.2 rest).1.changed = _
    rw [now, later, List.flatMap_cons, List.length_append]

/-- The pass that drops entries counts them. -/
theorem changed_revertWhere (stands : r.Stands t) (p : Classification → Bool) :
    (r.revertWhere t p).1.changed = (r.all.filter fun x => p x.2).length := by
  refine (changed_visit r.marker p _ fun x => isElement_of_mem_nodes stands).trans ?_
  simp only [all, List.filter_flatMap, List.filter_map, Function.comp_def, List.length_flatMap,
    List.length_map]

end NoiseFilter.Record
