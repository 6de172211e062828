import NoiseFilter.Proofs.Engine.Confined
import NoiseFilter.Proofs.Engine.Load
import NoiseFilter.Proofs.Record.Pairs

/-!
# Reports count exactly

While a batch is looked at, a rule lets its entry in or drops it, node by node, and counts what it
does. Since an entry that is there is always the one that its rule writes, nothing is ever replaced;
and since no two rules share an id, no pair of a node and a rule comes and goes in one pass. So at
any time the counts are the numbers of pairs that came and that went since the pass began (`Tallied`).
Passes over all records count the entries that they drop. Together the counts of a report account
for all entries before and after a call (`counts_exact`).
-/

namespace NoiseFilter

section Sets

variable {β : Type} [DecidableEq β] {P S : Finset β} {x : β}

theorem card_insert_sdiff (undropped : x ∈ S → x ∈ P) :
    (insert x P \ S).card = (P \ S).card + (decide (x ∉ P)).toNat ∧ S \ insert x P = S \ P := by
  by_cases here : x ∈ P
  · simp [Finset.insert_eq_of_mem here, here]
  · have new : x ∉ S := fun there => here (undropped there)
    have fresh : x ∉ P \ S := fun inside => here (Finset.mem_sdiff.mp inside).1
    rw [Finset.insert_sdiff_of_notMem _ new, Finset.card_insert_of_notMem fresh,
      Finset.sdiff_insert, Finset.erase_eq_of_notMem fun inside => new (Finset.mem_sdiff.mp inside).1]
    simp [here]

theorem card_sdiff_erase (known : x ∈ P → x ∈ S) :
    P.erase x \ S = P \ S ∧ (S \ P.erase x).card = (S \ P).card + (decide (x ∈ P)).toNat := by
  by_cases here : x ∈ P
  · have fresh : x ∉ S \ P := fun inside => (Finset.mem_sdiff.mp inside).2 here
    rw [Finset.sdiff_erase (known here), Finset.card_insert_of_notMem fresh,
      Finset.erase_sdiff_comm,
      Finset.erase_eq_of_notMem fun inside => (Finset.mem_sdiff.mp inside).2 (known here)]
    simp [here]
  · simp [here]

/-- What is there in the end is what was there, less what went, and what came. -/
theorem card_add_card_sdiff (P S : Finset β) : P.card + (S \ P).card = S.card + (P \ S).card := by
  have left := Finset.card_sdiff_add_card S P
  have right := Finset.card_sdiff_add_card P S
  rw [Finset.union_comm] at right
  omega

end Sets

/-! ## Passes -/

namespace Pass

/-- A pass that began with a record has counted the pairs that came since, and those that went. -/
structure Tallied (start : Record) (p : Pass) : Prop where
  classified : p.report.classified = (p.record.pairs \ start.pairs).card
  reverted : p.report.reverted = (start.pairs \ p.record.pairs).card

variable {start : Record} {engine : Engine} {candidates ids : List NodeId} {c : Classification}
  {p : Pass}

/-- Where nothing has been done there is nothing to count. -/
theorem Tallied.of_nothing (same : p.record.pairs = start.pairs)
    (classified : p.report.classified = 0) (reverted : p.report.reverted = 0) :
    Tallied start p := by
  refine ⟨?_, ?_⟩
  · rw [same, classified, sdiff_self, Finset.bot_eq_empty, Finset.card_empty]
  · rw [same, reverted, sdiff_self, Finset.bot_eq_empty, Finset.card_empty]

theorem Tallied.countError (tallied : Tallied start p) (fine : Bool) :
    Tallied start (if fine then p
      else { p with report := { p.report with errors := p.report.errors + 1 } }) := by
  cases fine
  · exact ⟨tallied.classified, tallied.reverted⟩
  · exact tallied

theorem Tallied.unclassify (tallied : Tallied start p) (sound : p.record.Sound p.tree) {id : NodeId}
    {ruleId : String} (known : (id, ruleId) ∈ p.record.pairs → (id, ruleId) ∈ start.pairs)
    {changed : Bool} {s : State} (done : p.record.unclassify p.tree id ruleId = (.ok changed, s)) :
    Tallied start ⟨s.1, s.2, { p.report with reverted := p.report.reverted + changed.toNat }⟩ := by
  have counts := Record.unclassify_counts sound id ruleId
  have pairs := Record.pairs_unclassify sound id ruleId
  rw [Record.Operation.apply, done] at pairs
  rw [done] at counts
  obtain ⟨came, went⟩ := card_sdiff_erase known
  refine ⟨?_, ?_⟩
  · rw [pairs, came]
    exact tallied.classified
  · rw [pairs, went, Except.ok.inj counts, tallied.reverted]

/-- While a rule lets its entry in, no node has another one of it, and it has dropped none. -/
structure LetsIn (start : Record) (c : Classification) (p : Pass) : Prop where
  tallied : Tallied start p
  sound : p.record.Sound p.tree
  own : ∀ id x, p.record.entryFor? id c.ruleId = some x → x = c
  undropped : ∀ id, (id, c.ruleId) ∈ start.pairs → (id, c.ruleId) ∈ p.record.pairs

namespace LetsIn

variable (lets : LetsIn start c p) {id : NodeId} (isElement : p.tree.isElement id = true)

include lets isElement

theorem classify {changed : Bool} {s : State}
    (done : p.record.classify p.tree id c = (.ok changed, s)) :
    LetsIn start c
      ⟨s.1, s.2, { p.report with classified := p.report.classified + changed.toNat }⟩ := by
  have sound := lets.sound.apply (.classify id c) isElement
  have counts := Record.classify_counts lets.sound id isElement (lets.own id)
  have pairs := Record.pairs_classify lets.sound id isElement c
  have entries := entryFor?_classify lets.sound isElement c
  rw [Record.Operation.apply, done] at sound pairs entries
  rw [done] at counts
  obtain ⟨came, went⟩ := card_insert_sdiff (lets.undropped id)
  refine ⟨⟨?_, ?_⟩, sound, fun other x found => ?_, fun other there => ?_⟩
  · rw [pairs, came, Except.ok.inj counts, lets.tallied.classified]
  · rw [pairs, went]
    exact lets.tallied.reverted
  · rw [entries] at found
    split at found
    · exact (Option.some.inj found).symm
    · exact lets.own other x found
  · rw [pairs]
    exact Finset.mem_insert_of_mem (lets.undropped other there)

/-- To ask the scorer leaves the record and its counts as they are. -/
theorem judge {flagged : Option Bool} {p' : Pass} (judged : p.judge engine id = .ok (flagged, p')) :
    p.tree.SameFrame p'.tree ∧ LetsIn start c p' := by
  have steps := judge_steps (c := c) (List.mem_singleton_self id) isElement judged
  refine ⟨Steps.sameFrame steps lets.sound, ?_⟩
  have sound := Steps.sound steps lets.sound
  rw [Pass.judge] at judged
  split at judged
  · cases judged
    exact lets
  · split at judged
    · cases judged
      exact lets
    · simp only at judged
      split at judged
      · cases judged
      · cases judged
        exact ⟨⟨lets.tallied.classified, lets.tallied.reverted⟩, sound, lets.own, lets.undropped⟩

end LetsIn

/-! ### Elements one after the other -/

theorem classifyEach_letsIn (lets : LetsIn start c p)
    (elements : ∀ id ∈ ids, p.tree.isElement id = true) :
    ∃ p', classifyEach c ids p = (true, p') ∧ p.tree.SameFrame p'.tree ∧ LetsIn start c p' := by
  induction ids generalizing p with
  | nil => exact ⟨p, rfl, .refl _, lets⟩
  | cons id rest ih =>
    obtain ⟨here, later⟩ := List.forall_mem_cons.mp elements
    obtain ⟨changed, done⟩ := classify_ok (r := p.record) here c
    have frame := Record.Operation.sameFrame_apply (.classify id c) lets.sound.stands here
    rw [classifyEach, done]
    obtain ⟨p', finished, frameRest, letsThen⟩ := ih (lets.classify here done) fun other member =>
      (frame.isElement other).trans (later other member)
    exact ⟨p', finished, frame.trans frameRest, letsThen⟩

theorem judgeEach_letsIn (lets : LetsIn start c p)
    (elements : ∀ id ∈ ids, p.tree.isElement id = true) :
    LetsIn start c (judgeEach engine c ids p).2 := by
  induction ids generalizing p with
  | nil => exact lets
  | cons post rest ih =>
    obtain ⟨here, later⟩ := List.forall_mem_cons.mp elements
    rw [judgeEach]
    split
    · exact lets
    · rename_i flagged p₁ judged
      obtain ⟨frame₁, lets₁⟩ := lets.judge here judged
      have elements₁ : ∀ id ∈ post :: rest, p₁.tree.isElement id = true := fun id member =>
        (frame₁.isElement id).trans (elements id member)
      split
      · obtain ⟨p₂, done, frame₂, lets₂⟩ := classifyEach_letsIn lets₁
          (List.forall_mem_singleton.mpr (elements₁ post List.mem_cons_self))
        rw [done]
        exact ih lets₂ fun id member =>
          (frame₂.isElement id).trans (elements₁ id (List.mem_cons_of_mem post member))
      · exact ih lets₁ fun id member => elements₁ id (List.mem_cons_of_mem post member)

/-- Entries are dropped where the rule had one when the pass began. -/
theorem unclassifyEach_tallied {ruleId : String} (tallied : Tallied start p)
    (sound : p.record.Sound p.tree)
    (known : ∀ id ∈ ids, (id, ruleId) ∈ p.record.pairs → (id, ruleId) ∈ start.pairs) :
    Tallied start (unclassifyEach ruleId ids p).2 := by
  induction ids generalizing p with
  | nil => exact tallied
  | cons id rest ih =>
    obtain ⟨here, later⟩ := List.forall_mem_cons.mp known
    obtain ⟨changed, done⟩ := unclassify_ok (fun n found => (sound.stands id n found).1) ruleId
    have pairs := Record.pairs_unclassify sound id ruleId
    rw [unclassifyEach, done]
    refine ih (tallied.unclassify sound here done) (sound.apply (.unclassify id ruleId) trivial)
      fun other member there => later other member ?_
    exact Finset.mem_of_mem_erase (pairs ▸ there)

/-! ### Rules -/

/-- A rule that has not acted yet, and whose entries are those that it writes, counts what it does. -/
theorem applySelector_tallied (lets : LetsIn start c p)
    (unadded : ∀ id, (id, c.ruleId) ∈ p.record.pairs → (id, c.ruleId) ∈ start.pairs)
    (x : ExtendedSelector) : Tallied start (applySelector x candidates c p).2 := by
  cases read : x.read with
  | error cause =>
    have failed : x.select p.tree candidates = .error cause := by
      rw [ExtendedSelector.select, read]
      rfl
    rw [applySelector, failed]
    exact lets.tallied
  | ok q =>
    have selected : x.select p.tree candidates = .ok (candidates.filter (q.accepts p.tree)) := by
      rw [ExtendedSelector.select, read]
      rfl
    have elements : ∀ id ∈ candidates.filter (q.accepts p.tree), p.tree.isElement id = true :=
      fun id member => isElement_of_accepts (List.mem_filter.mp member).2
    rw [applySelector, selected]
    generalize candidates.filter (q.accepts p.tree) = matched at elements
    obtain ⟨p₁, done, -, lets₁⟩ := classifyEach_letsIn lets elements
    have candidates : ∀ id ∈ matched, id ∈ matched ∧ p.tree.isElement id = true :=
      fun id member => ⟨member, elements id member⟩
    obtain ⟨_, done', -, entries⟩ := classifyEach_spec "" c lets.sound candidates
    cases done.symm.trans done'
    simp only [done, if_true]
    refine unclassifyEach_tallied lets₁.tallied lets₁.sound fun id member there => ?_
    -- on what does not match, the rule has not acted yet
    have unmatched : id ∉ matched := by simpa using (List.mem_filter.mp member).2
    rw [Record.mem_pairs_iff_isSome lets₁.sound, entries, if_neg unmatched] at there
    exact unadded id ((Record.mem_pairs_iff_isSome lets.sound).mpr there)

theorem applyRule_tallied {r : Rule} {rank : Nat} (lets : LetsIn start c p)
    (unadded : ∀ id, (id, c.ruleId) ∈ p.record.pairs → (id, c.ruleId) ∈ start.pairs)
    (elements : ∀ id ∈ candidates, p.tree.isElement id = true)
    (entry : r.entryFor? engine.config engine.mode rank = some c) :
    Tallied start (applyRule engine candidates rank r p) := by
  rw [applyRule, entry]
  cases selector : r.action.selector? with
  | some x => exact (applySelector_tallied lets unadded x).countError _
  | none =>
    exact (judgeEach_letsIn lets fun id member =>
      elements id (List.mem_filter.mp member).1).tallied.countError _

/-- Rules with different ids, none of which has acted yet, count what they do. -/
theorem letLook_tallied (distinct : (engine.rules.map (·.id)).Nodup) {rules : List (Rule × Nat)}
    (inForce : ∀ x ∈ rules, engine.rules[x.2]? = some x.1)
    (apart : (rules.map (·.1.id)).Nodup)
    (elements : ∀ id ∈ candidates, p.tree.isElement id = true) (tallied : Tallied start p)
    (sound : p.record.Sound p.tree) (written : ∀ id, ∀ x ∈ p.record.entriesAt id, engine.Writes x)
    (untouched : ∀ x ∈ rules, ∀ id,
      (id, x.1.id) ∈ p.record.pairs ↔ (id, x.1.id) ∈ start.pairs) :
    Tallied start (letLook engine candidates rules p) := by
  induction rules generalizing p with
  | nil => exact tallied
  | cons y rest ih =>
    obtain ⟨r, rank⟩ := y
    obtain ⟨here, later⟩ := List.forall_mem_cons.mp inForce
    obtain ⟨alone, apartRest⟩ := List.nodup_cons.mp apart
    obtain ⟨untouchedHere, untouchedRest⟩ := List.forall_mem_cons.mp untouched
    show Tallied start (letLook engine candidates rest (applyRule engine candidates rank r p))
    cases entry : r.entryFor? engine.config engine.mode rank with
    | none =>
      rw [applyRule, entry]
      exact ih later apartRest elements tallied sound written untouchedRest
    | some c =>
      have named := Rule.ruleId_of_entryFor? entry
      have ranked := Rule.rank_of_entryFor? entry
      have writes : engine.Writes c := ⟨r, ranked ▸ here, ranked ▸ entry⟩
      have lets : LetsIn start c p := by
        refine ⟨tallied, sound, fun id x found => ?_, fun id there => ?_⟩
        · obtain ⟨there, same⟩ := sound.entryFor?_eq_some_iff.mp found
          exact (written id x there).eq_of_ruleId_eq distinct writes same
        · rw [named] at there ⊢
          exact (untouchedHere id).mpr there
      have steps : Steps engine.config.aiCheckedAttribute candidates (· = c) p.state
          (applyRule engine candidates rank r p).state := applyRule_steps sound entry
      have soundThen := Steps.sound steps sound
      refine ih later apartRest (fun id member => ?_) ?_ soundThen (fun id x there => ?_)
        fun y member id => ?_
      · exact ((Steps.sameFrame steps sound).isElement id).trans (elements id member)
      · refine applyRule_tallied lets (fun id there => ?_) elements entry
        rw [named] at there ⊢
        exact (untouchedHere id).mp there
      · rcases Engine.mem_entriesAt_of_steps steps sound there with old | rfl
        · exact written id x old
        · exact writes
      · have other : y.1.id ≠ c.ruleId := fun same =>
          alone (List.mem_map.mpr ⟨y, member, same.trans named⟩)
        have same := Steps.entryFor?_of_ne steps sound (fun _ only => only ▸ other) id
        rw [← untouchedRest y member id, Record.mem_pairs_iff_isSome sound]
        exact (Record.mem_pairs_iff_isSome soundThen).trans
          (iff_of_eq (congrArg (·.isSome = true) same))

end Pass

/-! ## Batches -/

namespace Engine

variable {e : Engine} {t : Tree}

/-- While the mode is off there are no entries. -/
theorem UpToDate.all_of_off (upToDate : UpToDate e t) (off : e.mode = .off) : e.record.all = [] := by
  refine List.eq_nil_iff_forall_not_mem.mpr fun x member => ?_
  have there := Record.mem_all.mp member
  rw [Record.entriesAt, upToDate.get?_of_off off] at there
  cases there

/-- What a batch finds recorded is what was recorded of the page. -/
theorem all_prepare (e : Engine) (t : Tree) (batch : ChangeBatch) :
    (e.prepare t batch).record.all =
      e.record.all.filter fun x => !batch.navigation || t.isConnected x.1 := by
  rw [prepare]
  split
  · rename_i whole
    simp only [whole, Bool.not_true, Bool.false_or]
    exact Record.all_prune e.record t
  · rename_i part
    simp [part]

theorem pairs_prepare (e : Engine) (t : Tree) (batch : ChangeBatch) :
    (e.prepare t batch).record.pairs =
      e.record.pairs.filter fun x => (!batch.navigation || t.isConnected x.1) = true := by
  ext x
  simp only [Record.pairs, all_prepare, List.mem_toFinset, Finset.mem_filter, List.mem_map,
    List.mem_filter]
  constructor
  · rintro ⟨y, ⟨member, stays⟩, rfl⟩
    exact ⟨⟨y, member, rfl⟩, stays⟩
  · rintro ⟨⟨y, member, rfl⟩, stays⟩
    exact ⟨y, ⟨member, stays⟩, rfl⟩

/-- What a batch leaves and reports, as a pass. -/
def passOf (done : BatchReport × Engine × Tree) : Pass where
  record := done.2.1.record
  tree := done.2.2
  report := done.1

theorem passOf_processBatch (on : e.mode ≠ .off) {batch : ChangeBatch}
    (nonempty : batch.candidates t ≠ []) :
    passOf (e.processBatch t batch) =
      Pass.letLook { e with record := (e.prepare t batch).record } (batch.candidates t)
        e.rules.zipIdx (e.firstPass t batch) := by
  rw [passOf, report_processBatch on nonempty, processBatch_eq on nonempty]
  rfl

/-- What a batch reports are the pairs that came and went since it forgot what it forgets. -/
theorem tallied_processBatch (upToDate : UpToDate e t) (batch : ChangeBatch) :
    Pass.Tallied (e.prepare t batch).record (passOf (e.processBatch t batch)) := by
  by_cases nothing : e.mode = .off ∨ batch.candidates t = []
  · have report := report_processBatch_of_nothing nothing
    refine .of_nothing ?_ (congrArg (·.classified) report) (congrArg (·.reverted) report)
    by_cases off : e.mode = .off
    · have same : (e.processBatch t batch).2.1 = e := by rw [processBatch, if_pos off]
      rw [passOf, same, pairs_prepare, Record.pairs, upToDate.all_of_off off]
      rfl
    · rw [passOf, processBatch_of_nil off (nothing.resolve_left off)]
  · obtain ⟨on, nonempty⟩ := not_or.mp nothing
    have ids : e.rules.zipIdx.map (·.1.id) = e.rules.map (·.id) := by
      conv => rhs; rw [← List.zipIdx_map_fst 0 e.rules, List.map_map]
      rfl
    rw [passOf_processBatch on nonempty]
    refine Pass.letLook_tallied ?_ (fun _ => Pass.inForce_of_mem_zipIdx) ?_
      (fun _ => isElement_of_mem_candidates) (.of_nothing rfl rfl rfl)
      (sound_prepare upToDate.sound batch) (fun id x there => ?_) fun _ _ _ => Iff.rfl
    · exact upToDate.distinct
    · exact ids ▸ upToDate.distinct
    · exact upToDate.written id x (mem_entriesAt_of_prepare there)

/-- A batch accounts for the entries before and after it. -/
theorem balance_processBatch (upToDate : UpToDate e t) (batch : ChangeBatch) :
    let done := e.processBatch t batch
    done.2.1.record.all.length +
        (e.record.all.filter fun x => batch.navigation && !t.isConnected x.1).length +
        done.1.reverted =
      e.record.all.length + done.1.classified := by
  intro done
  have tallied : Pass.Tallied _ (passOf done) := tallied_processBatch upToDate batch
  have classified : done.1.classified = _ := tallied.classified
  have reverted : done.1.reverted = _ := tallied.reverted
  have now : (passOf done).record.pairs.card = done.2.1.record.all.length :=
    Record.card_pairs (upToDate.processBatch batch).sound
  have before := Record.card_pairs (sound_prepare upToDate.sound batch)
  rw [all_prepare] at before
  have parts := List.length_eq_length_filter_add (l := e.record.all)
    fun x => !batch.navigation || t.isConnected x.1
  simp only [Bool.not_or, Bool.not_not] at parts
  have sets := card_add_card_sdiff (passOf done).record.pairs (e.prepare t batch).record.pairs
  omega

/-- A batch brings back nothing that it has forgotten: it looks at the page only. -/
theorem Run.mem_prepare_of_mem {config : Config} {catalog : Catalog} {page : Tree}
    (run : Run (fun _ _ => True) config catalog page e t) (linked : t.Linked) (batch : ChangeBatch)
    {x : NodeId × String} (now : x ∈ (e.processBatch t batch).2.1.record.pairs)
    (before : x ∈ e.record.pairs) : x ∈ (e.prepare t batch).record.pairs := by
  by_cases off : e.mode = .off
  · rw [Record.pairs, run.upToDate.all_of_off off] at before
    cases before
  · obtain ⟨c, there, same⟩ := Record.mem_pairs.mp before
    refine Record.mem_pairs.mpr ?_
    by_cases candidate : x.1 ∈ batch.candidates t
    · have connected := isConnected_of_candidate linked candidate
      rw [Record.entriesAt, get?_prepare_of_connected connected]
      exact ⟨c, there, same⟩
    · obtain ⟨-, record⟩ := (run.confined off t batch).elsewhere x.1 candidate
      rw [Record.entriesAt, ← record]
      exact Record.mem_pairs.mp now

/-! ## Options -/

/-- Changing the mode counts the entries that it drops, and leaves the others on their nodes. -/
theorem count_switchMode (upToDate : UpToDate e t) (mode : Mode) :
    let done := e.switchMode t mode
    done.2.1.record.all.length + done.1.changed = e.record.all.length ∧
      (mode ≠ .off → done.2.1.record.all.map (·.1) = e.record.all.map (·.1)) := by
  rw [switchMode]
  split
  · exact ⟨rfl, fun _ => rfl⟩
  · split
    · rename_i none
      have off : mode = .off := by
        cases mode <;> first | rfl | cases none
      have dropped := Record.changed_revertWhere upToDate.sound.stands fun _ => true
      have left := Record.all_revertWhere upToDate.sound.stands fun _ => true
      refine ⟨?_, fun on => absurd off on⟩
      show (e.record.revertWhere t fun _ => true).2.1.all.length +
        (e.record.revertWhere t fun _ => true).1.changed = _
      rw [left, dropped, Nat.add_comm]
      exact (List.length_eq_length_filter_add _).symm
    · rename_i toggle class?
      have same := Record.map_fst_all_update upToDate.sound.stands
        (Record.length_retarget .toggle toggle)
      have length := congrArg List.length same
      rw [List.length_map, List.length_map] at length
      exact ⟨length, fun _ => same⟩

/-- Putting rules in force counts the entries that it drops, and leaves the others on their nodes. -/
theorem count_load (sound : e.record.Sound t) (rules : List Rule) :
    let left := (e.load t rules).1.record.all
    left.length + (e.record.revertWhere t fun c => !rules.any (·.produces c)).1.changed =
        e.record.all.length ∧
      left.map (·.1) =
        (e.record.all.filter fun x => rules.any (·.produces x.2)).map (·.1) := by
  intro left
  have soundDropped := sound.apply (dropStale rules) trivial
  have dropped : ((dropStale rules).apply e.record t).1.all = _ :=
    Record.all_revertWhere sound.stands _
  have ranked : left.map (·.1) = _ := Record.map_fst_all_update soundDropped.stands
    (Record.length_rerank fun id => rules.findIdx? (·.id == id))
  simp only [dropped, Bool.not_not] at ranked
  refine ⟨?_, ranked⟩
  have length := congrArg List.length ranked
  rw [List.length_map, List.length_map] at length
  rw [length, Record.changed_revertWhere sound.stands]
  exact (List.length_eq_length_filter_add _).symm

/-- Where the same nodes have as many entries, as many of these are on nodes of a kind. -/
theorem length_filter_fst {l l' : List (NodeId × Classification)}
    (same : l.map (·.1) = l'.map (·.1)) (p : NodeId → Bool) :
    (l.filter fun x => p x.1).length = (l'.filter fun x => p x.1).length := by
  have counted (l : List (NodeId × Classification)) :
      (l.filter fun x => p x.1).length = ((l.map (·.1)).filter p).length := by
    rw [List.filter_map, List.length_map]
    rfl
  rw [counted, counted, same]

/-- What has left the page and still is recorded when the rules and the mode of options are in
force. -/
theorem count_gone (upToDate : UpToDate e t) {o : Options} (on : o.mode ≠ .off) :
    ((e.turn t o).1.record.all.filter fun x => !(e.turn t o).2.isConnected x.1).length =
      (e.record.all.filter fun x =>
        (e.rulesOf o).any (·.produces x.2) && !t.isConnected x.1).length := by
  have kept := (count_load upToDate.sound (e.rulesOf o)).2
  have same : (e.turn t o).1.record.all.map (·.1) = _ :=
    ((count_switchMode (upToDate.loaded o) o.mode).2 on).trans kept
  have frame : t.SameFrame (e.turn t o).2 := sameFrame_enter upToDate (.applyOptions o)
  simp only [frame.isConnected]
  rw [length_filter_fst same fun id => !t.isConnected id, List.filter_filter]
  simp only [Bool.and_comm]

/-- What options report as reverted are the entries that are dropped before the page is looked at. -/
theorem count_turn (upToDate : UpToDate e t) (o : Options) :
    (e.turn t o).1.record.all.length + (e.applyOptions t o).1.reverted = e.record.all.length := by
  have loaded := (count_load upToDate.sound (e.rulesOf o)).1
  have switched := (count_switchMode (upToDate.loaded o) o.mode).1
  have reverted : (e.applyOptions t o).1.reverted =
      (e.record.revertWhere t fun c => !(e.rulesOf o).any (·.produces c)).1.changed +
        ((e.load t (e.rulesOf o)).1.switchMode (e.load t (e.rulesOf o)).2 o.mode).1.changed := rfl
  rw [reverted, ← loaded]
  exact (Nat.add_left_comm ..).trans ((congrArg _ switched).trans (Nat.add_comm ..))

/-- Options account for the entries before and after they are applied. -/
theorem balance_applyOptions (upToDate : UpToDate e t) (o : Options) :
    let done := e.applyOptions t o
    done.2.1.record.all.length + done.1.reverted +
        (e.record.all.filter fun x => o.mode != .off && (e.rulesOf o).any (·.produces x.2) &&
          !t.isConnected x.1).length +
        done.1.batch.reverted =
      e.record.all.length + done.1.batch.classified := by
  intro done
  have turned := count_turn upToDate o
  obtain ⟨batch, state⟩ := Prod.ext_iff.mp (applyOptions_look e t o)
  rw [Call.batch?] at batch state
  by_cases off : o.mode = .off
  · rw [if_pos off] at batch state
    have quiet : done.1.batch = {} := batch
    have here : done.2 = e.turn t o := state
    rw [quiet, here]
    simpa [off] using turned
  · rw [if_neg off] at batch state
    have report : done.1.batch = ((e.turn t o).1.processBatch (e.turn t o).2 .wholePage).1 := batch
    have here : done.2 = ((e.turn t o).1.processBatch (e.turn t o).2 .wholePage).2 := state
    have balance := balance_processBatch (upToDate.turn o) .wholePage
    have gone := count_gone upToDate off
    simp only [ChangeBatch.wholePage, Bool.true_and] at balance
    simp only [bne_iff_ne.mpr off, Bool.true_and, report, here]
    simp only [ChangeBatch.wholePage]
    have reverted : done.1.reverted = (e.applyOptions t o).1.reverted := rfl
    omega

/-! ## Runs -/

/-- Whatever has been done and whoever else has written to the page: a batch reports as classified
the pairs of a node and a rule that are newly recorded, and as reverted those that are recorded no
more, except on nodes that it has forgotten because they left the page; with these all entries before
and after it are accounted for. Options account for all entries as well: they report those that they
drop beside what their look at the page reports. -/
theorem counts_exact {config : Config} {catalog : Catalog} {page : Tree} (linked : page.Linked)
    (run : Run (fun _ _ => True) config catalog page e t) :
    (∀ batch : ChangeBatch,
      let done := e.processBatch t batch
      let now := done.2.1.record
      let forgotten (id : NodeId) : Bool := batch.navigation && !t.isConnected id
      now.all.length + (e.record.all.filter fun x => forgotten x.1).length + done.1.reverted =
          e.record.all.length + done.1.classified ∧
        done.1.classified = (now.pairs \ e.record.pairs).card ∧
        done.1.reverted =
          ((e.record.pairs \ now.pairs).filter fun x => forgotten x.1 = false).card) ∧
    ∀ o : Options,
      let done := e.applyOptions t o
      let now := done.2.1.record
      let forgotten (x : NodeId × Classification) : Bool :=
        o.mode != .off && (e.rulesOf o).any (·.produces x.2) && !t.isConnected x.1
      now.all.length + done.1.reverted + (e.record.all.filter forgotten).length +
          done.1.batch.reverted =
        e.record.all.length + done.1.batch.classified := by
  have upToDate := run.upToDate
  refine ⟨fun batch => ?_, balance_applyOptions upToDate⟩
  intro done now forgotten
  have tallied : Pass.Tallied _ (passOf done) := tallied_processBatch upToDate batch
  refine ⟨balance_processBatch upToDate batch, ?_, ?_⟩
  · refine tallied.classified.trans (congrArg Finset.card ?_)
    ext x
    rw [Finset.mem_sdiff, Finset.mem_sdiff]
    refine and_congr_right fun here => not_congr ⟨fun there => ?_, fun there => ?_⟩
    · rw [pairs_prepare] at there
      exact (Finset.mem_filter.mp there).1
    · exact run.mem_prepare_of_mem (run.linked linked) batch here there
  · refine tallied.reverted.trans (congrArg Finset.card ?_)
    have stays (id : NodeId) :
        (!batch.navigation || t.isConnected id) = true ↔ forgotten id = false := by
      show _ ↔ (batch.navigation && !t.isConnected id) = false
      cases batch.navigation <;> simp
    ext x
    simp only [pairs_prepare, Finset.mem_sdiff, Finset.mem_filter, stays, and_right_comm]
    rfl

/-- A paragraph is classified and then leaves the page. The next look at the whole page forgets its
entry, which is the only one. -/
theorem counts_exact_of_leaving :
    let looked := paragraphEngine.processBatch paragraphPage { added := [⟨1⟩] }
    let left := (Edit.detach ⟨1⟩).apply looked.2.2
    let whole := looked.2.1.processBatch left .wholePage
    Tree.empty.Linked ∧ Run (fun _ _ => True) smallConfig {} .empty looked.2.1 left ∧
      looked.1.classified = 1 ∧ looked.2.1.record.all.length = 1 ∧
      whole.2.1.record.all.length + 1 + whole.1.reverted = 1 + whole.1.classified := by
  intro looked left whole
  have linked : Tree.empty.Linked := .empty
  have run : Run (fun _ _ => True) smallConfig {} .empty looked.2.1 left :=
    .edit _ (.call (.processBatch { added := [⟨1⟩] }) (run_paragraphPage.mono fun _ _ _ => trivial))
      trivial
  have one : looked.2.1.record.all.length = 1 := by decide +kernel
  have gone : (looked.2.1.record.all.filter fun x => true && !left.isConnected x.1).length = 1 := by
    decide +kernel
  obtain ⟨balance, -⟩ := (counts_exact linked run).1 .wholePage
  simp only [ChangeBatch.wholePage, gone, one] at balance
  exact ⟨linked, run, by decide +kernel, one, balance⟩

end Engine

end NoiseFilter
