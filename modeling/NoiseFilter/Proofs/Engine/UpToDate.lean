import NoiseFilter.Proofs.Engine.Pass
import NoiseFilter.Proofs.Engine.Run
import NoiseFilter.Proofs.Settings.Merge

/-!
# Recorded entries are those that the rules write now

Whatever the engine is asked to do, afterwards each recorded entry is the one that its rule writes
from its present place, under the present mode. Loading options comes to this in three moves: entries
that no new rule would write are dropped, the others take the places of their rules, and only then
are they brought from the old mode to the new one. The invariant `UpToDate` holds between the
second move and the third as well, with the new rules and the old mode.
-/

namespace NoiseFilter

/-! ## What a rule writes -/

namespace Rule

variable {r old : Rule} {config : Config} {mode mode' : Mode} {rank : Nat} {c : Classification}

/-- A rule that would still write an entry of another writes it from its own place. -/
theorem entryFor?_of_produces (written : old.entryFor? config mode rank = some c)
    (produces : r.produces c = true) (place : Nat) :
    r.entryFor? config mode place = some { c with rank := place } := by
  obtain ⟨toggle, class?, rfl⟩ := Option.map_eq_some_iff.mp written
  rw [Rule.produces, Bool.and_eq_true] at produces
  obtain ⟨sameId, sameAction⟩ := produces
  rw [entryFor?, class?]
  obtain ⟨id, action⟩ := r
  obtain ⟨oldId, oldAction⟩ := old
  cases oldAction <;> cases action <;> simp_all

/-- Under another mode a rule writes the class of that mode, if it writes that of the mode at all. -/
theorem entryFor?_retarget (written : r.entryFor? config mode rank = some c) {toggle : String}
    (class? : mode'.toggleClass? config = some toggle) :
    r.entryFor? config mode' rank =
      some (if c.kind = .toggle then { c with cls := toggle } else c) := by
  obtain ⟨_, -, rfl⟩ := Option.map_eq_some_iff.mp written
  rw [entryFor?, class?]
  obtain ⟨id, action⟩ := r
  cases action <;> rfl

/-- While the mode is on every rule writes an entry. -/
theorem exists_entryFor? (r : Rule) (config : Config) {mode : Mode} (on : mode ≠ .off)
    (rank : Nat) : ∃ c, r.entryFor? config mode rank = some c := by
  cases mode with
  | off => exact absurd rfl on
  | normal => exact ⟨_, rfl⟩
  | extreme => exact ⟨_, rfl⟩

theorem id_of_ofSpec {spec : RuleSpec} (read : ofSpec config spec = .ok (some r)) :
    r.id = spec.id := by
  simp only [ofSpec, bind, Except.bind, pure, Except.pure] at read
  split at read
  · cases read
    rfl
  · split at read
    · cases read
    · split at read
      · cases read
      · cases read
        rfl

end Rule

/-! ## The rules in force -/

namespace Engine

theorem ids_readRules (config : Config) (specs : List RuleSpec) :
    ((readRules config specs).1.map (·.id)).Sublist (specs.map (·.id)) := by
  induction specs with
  | nil => exact .slnil
  | cons spec rest ih =>
    rw [readRules]
    generalize readRules config rest = read at ih ⊢
    obtain ⟨rules, report⟩ := read
    have skip : (rules.map (·.id)).Sublist ((spec :: rest).map (·.id)) := ih.cons spec.id
    cases spec.status with
    | delete => exact skip
    | disabled => exact skip
    | enabled =>
      simp only
      split
      · rename_i read
        rw [List.map_cons, List.map_cons, Rule.id_of_ofSpec read]
        exact ih.cons_cons spec.id
      · exact skip
      · exact skip

/-- No two rules that options put in force have the same id. -/
theorem nodup_readRules (config : Config) (o : Options) (catalog : Catalog) :
    ((readRules config (o.merge catalog)).1.map (·.id)).Nodup :=
  (o.nodup_ids_merge catalog).sublist (ids_readRules _ _)

/-- What is recorded is sound, no two rules share an id, and every entry is one that a rule writes
now. -/
structure UpToDate (e : Engine) (t : Tree) : Prop where
  sound : e.record.Sound t
  distinct : (e.rules.map (·.id)).Nodup
  written : ∀ id, ∀ c ∈ e.record.entriesAt id, e.Writes c

variable {e : Engine} {t : Tree}

/-- Where ids are distinct a rule is found at its own place. -/
theorem index_eq_of_id_eq {rules : List Rule} (distinct : (rules.map (·.id)).Nodup) {i j : Nat}
    {r r' : Rule} (here : rules[i]? = some r) (there : rules[j]? = some r') (same : r.id = r'.id) :
    i = j := by
  have below := (List.getElem?_eq_some_iff.mp here).1
  refine (List.getElem?_inj (by simpa using below) distinct).mp ?_
  rw [List.getElem?_map, List.getElem?_map, here, there]
  exact congrArg some same

theorem findIdx?_id {rules : List Rule} (distinct : (rules.map (·.id)).Nodup) {i : Nat} {r : Rule}
    (here : rules[i]? = some r) : rules.findIdx? (·.id == r.id) = some i := by
  obtain ⟨below, there⟩ := List.getElem?_eq_some_iff.mp here
  refine List.findIdx?_eq_some_iff_getElem.mpr ⟨below, by simp [there], fun j before named => ?_⟩
  have other := List.getElem?_eq_getElem (Nat.lt_trans before below)
  exact Nat.ne_of_lt before (index_eq_of_id_eq distinct other here (by simpa using named))

/-- At one place there is one entry. -/
theorem Writes.eq_of_rank_eq {c c' : Classification} (written : e.Writes c)
    (written' : e.Writes c') (same : c.rank = c'.rank) : c = c' := by
  obtain ⟨r, inForce, entry⟩ := written
  obtain ⟨r', inForce', entry'⟩ := written'
  rw [same] at inForce entry
  cases inForce.symm.trans inForce'
  exact Option.some.inj (entry.symm.trans entry')

/-- A rule has one entry to write. -/
theorem Writes.eq_of_ruleId_eq (distinct : (e.rules.map (·.id)).Nodup) {c c' : Classification}
    (written : e.Writes c) (written' : e.Writes c') (same : c.ruleId = c'.ruleId) : c = c' := by
  refine written.eq_of_rank_eq written' ?_
  obtain ⟨r, inForce, entry⟩ := written
  obtain ⟨r', inForce', entry'⟩ := written'
  refine index_eq_of_id_eq distinct inForce inForce' ?_
  rw [← Rule.ruleId_of_entryFor? entry, ← Rule.ruleId_of_entryFor? entry', same]

/-! ## Calls -/

theorem sound_edit {r : Record} (sound : r.Sound t) (w : Edit) : r.Sound (w.apply t) where
  stands id n found := (sound.stands id n found).imp_left w.isElement_apply
  ranked := sound.ranked

/-- Forgetting whole elements leaves the others as they are. -/
theorem get?_prune (r : Record) (t : Tree) (id : NodeId) :
    (r.prune t).2.get? id = (r.get? id).filter fun _ => t.isConnected id :=
  r.nodes.get?_filter _ id

theorem entriesAt_prune (r : Record) (t : Tree) (id : NodeId) :
    (r.prune t).2.entriesAt id = if t.isConnected id then r.entriesAt id else [] := by
  rw [Record.entriesAt, get?_prune, Record.entriesAt]
  cases r.get? id with
  | none => simp
  | some n => cases t.isConnected id <;> rfl

theorem sound_prune {r : Record} (sound : r.Sound t) : (r.prune t).2.Sound t where
  stands id n found := by
    rw [get?_prune, Option.filter_eq_some_iff] at found
    exact sound.stands id n found.1
  ranked id := by
    rw [entriesAt_prune]
    split
    · exact sound.ranked id
    · exact .nil

/-- The acts of rules leave the entries that they write, and entries that were there. -/
theorem mem_entriesAt_of_steps {candidates : List NodeId} {writes : Classification → Prop}
    {s s' : Pass.State} {scored : String} (steps : Pass.Steps scored candidates writes s s')
    (sound : s.1.Sound s.2)
    {id : NodeId} {c : Classification} (member : c ∈ s'.1.entriesAt id) :
    c ∈ s.1.entriesAt id ∨ writes c := by
  induction steps with
  | refl => exact .inl member
  | tail steps last ih =>
    obtain ⟨x, written, step⟩ := last
    have soundBefore := Pass.Steps.sound steps sound
    cases step with
    | @classify r t here _ isElement =>
      rw [Record.Operation.entriesAt_apply (.classify ..) soundBefore.stands isElement] at member
      by_cases same : id = here
      · subst same
        rcases (Record.Operation.mem_after_classify (soundBefore.ranked id)).mp member with new | old
        · exact .inr (new ▸ written)
        · exact ih old.1
      · rw [Record.Operation.after_classify_of_ne same] at member
        exact ih member
    | @unclassify r t here _ =>
      rw [Record.Operation.entriesAt_apply (.unclassify ..) soundBefore.stands trivial] at member
      by_cases same : id = here
      · subst same
        exact ih (Record.Operation.mem_after_unclassify.mp member).1
      · rw [Record.Operation.after_unclassify_of_ne same] at member
        exact ih member
    | judge _ _ _ => exact ih member

theorem prepare_eq (e : Engine) (t : Tree) (batch : ChangeBatch) :
    e.prepare t batch = { e with record := (e.prepare t batch).record } := by
  rw [prepare]
  split <;> rfl

theorem sound_prepare (sound : e.record.Sound t) (batch : ChangeBatch) :
    (e.prepare t batch).record.Sound t := by
  rw [prepare]
  split
  · exact sound_prune sound
  · exact sound

theorem marker_prepare (e : Engine) (t : Tree) (batch : ChangeBatch) :
    (e.prepare t batch).record.marker = e.record.marker := by
  rw [prepare]
  split <;> rfl

theorem get?_of_prepare {batch : ChangeBatch} {id : NodeId} {n : NodeRecord}
    (found : (e.prepare t batch).record.get? id = some n) : e.record.get? id = some n := by
  rw [prepare] at found
  split at found
  · exact (Option.filter_eq_some_iff.mp ((get?_prune ..).symm.trans found)).1
  · exact found

/-- What is part of the page is not forgotten. -/
theorem get?_prepare_of_connected {id : NodeId} (connected : t.isConnected id = true)
    (batch : ChangeBatch) : (e.prepare t batch).record.get? id = e.record.get? id := by
  rw [prepare]
  split
  · rw [get?_prune, connected]
    cases e.record.get? id <;> rfl
  · rfl

theorem mem_entriesAt_of_prepare {batch : ChangeBatch} {id : NodeId} {c : Classification}
    (member : c ∈ (e.prepare t batch).record.entriesAt id) : c ∈ e.record.entriesAt id := by
  rw [prepare] at member
  split at member
  · simp only [entriesAt_prune] at member
    split at member
    · exact member
    · cases member
  · exact member

/-- The pass that a batch starts with. -/
def firstPass (e : Engine) (t : Tree) (batch : ChangeBatch) : Pass where
  record := (e.prepare t batch).record
  tree := t
  report := { candidates := (batch.candidates t).length }

/-- Unless there is nothing to look at, all rules look at the batch. -/
theorem processBatch_eq (on : e.mode ≠ .off) {batch : ChangeBatch}
    (nonempty : batch.candidates t ≠ []) :
    (e.processBatch t batch).2 =
      let p := Pass.applyRules { e with record := (e.prepare t batch).record } (batch.candidates t)
        (e.firstPass t batch)
      ({ e with record := p.record }, p.tree) := by
  rw [processBatch, if_neg on]
  simp only [List.isEmpty_iff, if_neg nonempty]
  rw [prepare_eq]
  rfl

theorem report_processBatch (on : e.mode ≠ .off) {batch : ChangeBatch}
    (nonempty : batch.candidates t ≠ []) :
    (e.processBatch t batch).1 = (Pass.applyRules { e with record := (e.prepare t batch).record }
      (batch.candidates t) (e.firstPass t batch)).report := by
  rw [processBatch, if_neg on]
  simp only [List.isEmpty_iff, if_neg nonempty]
  rw [prepare_eq]
  rfl

/-- Where there is nothing to look at, there is nothing to report. -/
theorem report_processBatch_of_nothing {batch : ChangeBatch}
    (nothing : e.mode = .off ∨ batch.candidates t = []) : (e.processBatch t batch).1 = {} := by
  rw [processBatch]
  rcases nothing with off | empty
  · rw [if_pos off]
  · split
    · rfl
    · simp only [List.isEmpty_iff, if_pos empty]

/-- Where there is nothing to look at, the tree stays as it is. -/
theorem tree_processBatch_of_nothing {batch : ChangeBatch}
    (nothing : e.mode = .off ∨ batch.candidates t = []) : (e.processBatch t batch).2.2 = t := by
  rw [processBatch]
  rcases nothing with off | empty
  · rw [if_pos off]
  · split
    · rfl
    · simp only [List.isEmpty_iff, if_pos empty]

theorem processBatch_of_nil (on : e.mode ≠ .off) {batch : ChangeBatch}
    (empty : batch.candidates t = []) :
    (e.processBatch t batch).2 = ({ e with record := (e.prepare t batch).record }, t) := by
  rw [processBatch, if_neg on]
  simp only [List.isEmpty_iff, if_pos empty]
  rw [prepare_eq]

/-- A batch is dealt with by acts of the rules. -/
theorem processBatch_steps (on : e.mode ≠ .off) (sound : e.record.Sound t) (batch : ChangeBatch) :
    ∃ s : Pass.State, (e.processBatch t batch).2 = ({ e with record := s.1 }, s.2) ∧
      Pass.Steps e.config.aiCheckedAttribute (batch.candidates t) e.Writes
        ((e.prepare t batch).record, t) s := by
  by_cases none : batch.candidates t = []
  · exact ⟨_, processBatch_of_nil on none, .refl⟩
  · have steps := Pass.applyRules_steps { e with record := (e.prepare t batch).record }
      (batch.candidates t) (p := e.firstPass t batch) (sound_prepare sound batch)
    exact ⟨Pass.state _, processBatch_eq on none, steps⟩

namespace UpToDate

theorem start {config : Config} {catalog : Catalog} (made : ofConfig config catalog = .ok e)
    (t : Tree) : UpToDate e t := by
  obtain ⟨-, -, rules, record⟩ := eq_of_ofConfig made
  have empty (id : NodeId) : e.record.entriesAt id = [] := by
    rw [record]
    rfl
  refine ⟨⟨fun id n found => ?_, fun id => empty id ▸ .nil⟩, by simp [rules], fun id c member => ?_⟩
  · rw [record] at found
    cases found
  · rw [empty id] at member
    cases member

theorem edit (upToDate : UpToDate e t) (w : Edit) : UpToDate e (w.apply t) :=
  ⟨sound_edit upToDate.sound w, upToDate.distinct, upToDate.written⟩

theorem processBatch (upToDate : UpToDate e t) (batch : ChangeBatch) :
    UpToDate (e.processBatch t batch).2.1 (e.processBatch t batch).2.2 := by
  by_cases off : e.mode = .off
  · rw [Engine.processBatch, if_pos off]
    exact upToDate
  · have soundBefore := sound_prepare upToDate.sound batch
    obtain ⟨s, result, steps⟩ := processBatch_steps off upToDate.sound batch
    rw [result]
    refine ⟨Pass.Steps.sound steps soundBefore, upToDate.distinct, fun id c member => ?_⟩
    rcases mem_entriesAt_of_steps steps soundBefore member with old | written
    · exact upToDate.written id c (mem_entriesAt_of_prepare old)
    · exact written

/-- The rules of new options are put in force while the old mode still holds. -/
theorem load (upToDate : UpToDate e t) (rules : List Rule) (distinct : (rules.map (·.id)).Nodup) :
    let dropped := (Record.Operation.revertWhere fun c => !rules.any (·.produces c)).apply e.record t
    let ranked := (Record.Operation.rerank fun id => rules.findIdx? (·.id == id)).apply
      dropped.1 dropped.2
    UpToDate { e with rules, record := ranked.1 } ranked.2 := by
  intro dropped ranked
  have sound₁ : dropped.1.Sound dropped.2 := upToDate.sound.apply _ trivial
  refine ⟨sound₁.apply _ trivial, distinct, fun id c member => ?_⟩
  have entries := Record.Operation.entriesAt_apply
    (.rerank fun id => rules.findIdx? (·.id == id)) sound₁.stands trivial id
  have entries₁ := Record.Operation.entriesAt_apply
    (.revertWhere fun c => !rules.any (·.produces c)) upToDate.sound.stands trivial id
  rw [entries, Record.Operation.after_rerank, NodeRecord.mem_rerank] at member
  obtain ⟨x, kept, rfl⟩ := member
  rw [entries₁, Record.Operation.after_revertWhere, List.mem_filter] at kept
  obtain ⟨recorded, produced⟩ := kept
  simp only [Bool.not_not, List.any_eq_true] at produced
  obtain ⟨r, inForce, produces⟩ := produced
  obtain ⟨old, -, written⟩ := upToDate.written id x recorded
  have sameId : r.id = x.ruleId := by
    rw [Rule.produces, Bool.and_eq_true, beq_iff_eq] at produces
    exact produces.1
  obtain ⟨i, here⟩ := List.getElem?_of_mem inForce
  have place : rules.findIdx? (·.id == x.ruleId) = some i := sameId ▸ findIdx?_id distinct here
  simp only [place, Option.getD_some]
  exact ⟨r, here, Rule.entryFor?_of_produces written produces i⟩

/-- The mode is changed under rules that stay. -/
theorem switchMode (upToDate : UpToDate e t) (mode : Mode) :
    UpToDate (e.switchMode t mode).2.1 (e.switchMode t mode).2.2 := by
  rw [Engine.switchMode]
  split
  · exact upToDate
  · split
    · have entries := Record.Operation.entriesAt_apply .revertAll upToDate.sound.stands trivial
      refine ⟨upToDate.sound.apply .revertAll trivial, upToDate.distinct, fun id c member => ?_⟩
      have left : c ∈ Record.Operation.revertAll.after id (e.record.entriesAt id) :=
        entries id ▸ member
      rw [Record.Operation.after_revertAll] at left
      cases left
    · rename_i toggle class?
      have entries :=
        Record.Operation.entriesAt_apply (.retarget .toggle toggle) upToDate.sound.stands trivial
      refine ⟨upToDate.sound.apply (.retarget .toggle toggle) trivial, upToDate.distinct,
        fun id c member => ?_⟩
      have old : c ∈ (Record.Operation.retarget .toggle toggle).after id (e.record.entriesAt id) :=
        entries id ▸ member
      rw [Record.Operation.after_retarget, NodeRecord.retarget, List.mem_map] at old
      obtain ⟨x, recorded, rfl⟩ := old
      obtain ⟨r, inForce, written⟩ := upToDate.written id x recorded
      have sameRank : (if x.kind = .toggle then { x with cls := toggle } else x).rank = x.rank := by
        split <;> rfl
      refine ⟨r, ?_, ?_⟩
      · rw [sameRank]
        exact inForce
      · rw [sameRank]
        exact Rule.entryFor?_retarget written class?

theorem perform (upToDate : UpToDate e t) (k : Call) :
    UpToDate (k.perform e t).1 (k.perform e t).2 := by
  cases k with
  | applyOptions o =>
    have loaded := upToDate.load _ (nodup_readRules e.config o e.catalog)
    have switched := loaded.switchMode o.mode
    rw [Call.perform, Engine.applyOptions]
    simp only
    split
    · exact switched
    · exact switched.processBatch .wholePage
  | setMode mode =>
    have switched := upToDate.switchMode mode
    rw [Call.perform, Engine.setMode]
    simp only
    split
    · exact switched.processBatch .wholePage
    · exact switched
  | processBatch batch => exact upToDate.processBatch batch

end UpToDate

/-! ## Runs -/

theorem Run.upToDate {allowed : Record → Edit → Prop} {config : Config} {catalog : Catalog}
    {page : Tree} (run : Run allowed config catalog page e t) : UpToDate e t := by
  induction run with
  | start made => exact .start made page
  | call k _ ih => exact ih.perform k
  | edit w _ _ ih => exact ih.edit w

/-- What holds of the engine between any two calls. -/
structure Consistent (e : Engine) (t : Tree) : Prop where
  elements : ∀ id n, e.record.get? id = some n → t.isElement id = true ∧ n.entries ≠ []
  distinct : (e.rules.map (·.id)).Nodup
  /-- Every entry is the one that its rule writes now. -/
  current : ∀ id n c, e.record.get? id = some n → c ∈ n.entries →
    ∃ below : c.rank < e.rules.length, e.rules[c.rank].entryFor? e.config e.mode c.rank = some c
  ascending : ∀ id n, e.record.get? id = some n → n.entries.Pairwise (·.rank < ·.rank)
  off : e.mode = .off → e.record.isEmpty = true

/-- Between any two calls, whatever the page and whoever else writes to it, recorded nodes are
elements with entries, and the entries are exactly those that the rules write now, in their order. -/
theorem consistent_of_run {config : Config} {catalog : Catalog} {page : Tree}
    (run : Run (fun _ _ => True) config catalog page e t) : Consistent e t := by
  have upToDate := run.upToDate
  have entriesAt {id : NodeId} {n : NodeRecord} (found : e.record.get? id = some n) :
      e.record.entriesAt id = n.entries := by
    rw [Record.entriesAt, found]
    rfl
  have written {id : NodeId} {n : NodeRecord} {c : Classification}
      (found : e.record.get? id = some n) (member : c ∈ n.entries) : e.Writes c :=
    upToDate.written id c (entriesAt found ▸ member)
  refine ⟨upToDate.sound.stands, upToDate.distinct, fun id n c found member => ?_,
    fun id n found => ?_, fun off => ?_⟩
  · obtain ⟨r, inForce, entry⟩ := written found member
    obtain ⟨below, here⟩ := List.getElem?_eq_some_iff.mp inForce
    exact ⟨below, here ▸ entry⟩
  · have ranked : Ranked n.entries := entriesAt found ▸ upToDate.sound.ranked id
    refine (ranked.ascending.and (List.pairwise_map.mp ranked.distinct)).imp_of_mem ?_
    rintro a b memberA memberB ⟨below, different⟩
    obtain ⟨r, inForce, entry⟩ := written found memberA
    obtain ⟨r', inForce', entry'⟩ := written found memberB
    refine Nat.lt_of_le_of_ne below fun same => different ?_
    rw [same, inForce'] at inForce
    rw [Rule.ruleId_of_entryFor? entry, Rule.ruleId_of_entryFor? entry', Option.some.inj inForce]
  · refine List.isEmpty_iff.mpr (List.eq_nil_iff_forall_not_mem.mpr fun x member => ?_)
    have found : e.record.get? x.1 = some x.2 := e.record.nodes.get?_eq_some_iff.mpr member
    obtain ⟨c, there⟩ := List.exists_mem_of_ne_nil _ (upToDate.sound.stands x.1 x.2 found).2
    obtain ⟨r, -, entry⟩ := written found there
    rw [off] at entry
    cases entry

/-- A rule is loaded, a paragraph comes into the page, and the mode is changed. -/
theorem consistent_of_newParagraph :
    let loaded := (Call.applyOptions paragraphRule).perform smallEngine .empty
    let edited := newParagraph.foldl (fun t w => w.apply t) loaded.2
    let looked := (Call.processBatch { added := [⟨1⟩] }).perform loaded.1 edited
    let changed := (Call.setMode .extreme).perform looked.1 looked.2
    Run (fun _ _ => True) smallConfig {} .empty changed.1 changed.2 ∧
      Consistent changed.1 changed.2 ∧
      (changed.1.record.entriesAt ⟨1⟩).map (·.cls) = [smallConfig.extremeClass] := by
  intro loaded edited looked changed
  have loadedRun : Run (fun _ _ => True) smallConfig {} .empty loaded.1 loaded.2 :=
    .call _ (.start ofConfig_smallConfig)
  have run : Run (fun _ _ => True) smallConfig {} .empty changed.1 changed.2 :=
    .call _ (.call _ (loadedRun.edits newParagraph fun _ _ => trivial))
  exact ⟨run, consistent_of_run run, by decide +kernel⟩

end Engine

end NoiseFilter
