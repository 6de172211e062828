import NoiseFilter.Proofs.Engine.Batches
import NoiseFilter.Proofs.Engine.Load

/-!
# Applying options a second time

When options have been applied, the engine rests: every entry is what its rule writes now, every
rule is settled on every element of the page, and nothing is recorded of elements that are not part
of it. An engine at rest writes nothing, neither when the same options are applied again nor for any
batch, and reports that it did nothing. A page that is watched for changes comes to a stop.
-/

namespace NoiseFilter

namespace Record

/-! ## Operations that find nothing to do -/

variable {r : Record} {t : Tree}

theorem visit_eq_self {step : Tree → NodeId → NodeRecord → Sweep × NodeRecord × Tree}
    {entries : List (NodeId × NodeRecord)}
    (still : ∀ x ∈ entries, step t x.1 x.2 = ({}, x.2, t)) :
    visit step t entries = ({}, entries, t) := by
  induction entries with
  | nil => rfl
  | cons x rest ih =>
    obtain ⟨here, later⟩ := List.forall_mem_cons.mp still
    rw [visit, here]
    simp only [ih later]
    rfl

theorem sweep_eq_self {step : Tree → NodeId → NodeRecord → Sweep × NodeRecord × Tree}
    (still : ∀ id n, r.get? id = some n → step t id n = ({}, n, t)) :
    r.sweep t step = ({}, r, t) := by
  have visited : visit step t r.nodes.entries = ({}, r.nodes.entries, t) :=
    visit_eq_self fun x member => still x.1 x.2 (r.nodes.get?_eq_some_iff.mpr member)
  have same : (r.sweep t step).2.1 = r := by
    refine ext_get? rfl fun id => ?_
    show ((visit step t r.nodes.entries).2.1.find? (·.1 == id)).map (·.2) = _
    rw [visited]
    rfl
  refine Prod.ext ?_ (Prod.ext same ?_)
  · exact congrArg (·.1) visited
  · exact congrArg (·.2.2) visited

theorem revertWhere_eq_self (stands : r.Stands t) {p : Classification → Bool}
    (none : ∀ id, ∀ c ∈ r.entriesAt id, p c = false) : r.revertWhere t p = ({}, r, t) := by
  have swept : r.sweep t (revertNode r.marker p) = ({}, r, t) := by
    refine sweep_eq_self fun id n found => ?_
    have nothing : n.entries.filter p = [] := List.filter_eq_nil_iff.mpr fun c member =>
      Bool.eq_false_iff.mp (none id c (entriesAt_of_get? found ▸ member))
    rw [revertNode]
    simp only [nothing, List.isEmpty_nil, if_true]
  have filled : r.nodes.filter (fun e => !e.2.entries.isEmpty) = r.nodes :=
    SortedMap.filter_eq_self fun id n found => by simpa using (stands id n found).2
  rw [revertWhere, swept]
  simp only [filled]

theorem rerank_eq_self {rank? : String → Option Nat}
    (same : ∀ id, ∀ c ∈ r.entriesAt id, rank? c.ruleId = some c.rank) :
    r.rerank t rank? = ({}, r, t) := by
  refine sweep_eq_self fun id n found => ?_
  have ranked : n.entries.map (fun c => { c with rank := (rank? c.ruleId).getD c.rank }) =
      n.entries := by
    refine (List.map_congr_left fun c member => ?_).trans (List.map_id _)
    rw [same id c (entriesAt_of_get? found ▸ member)]
    rfl
  have kept : NodeRecord.rerank rank? n.entries = n.entries := by
    rw [NodeRecord.rerank]
    exact if_pos ranked
  rw [updateNode]
  simp only [kept, if_true]

theorem prune_eq_self (connected : ∀ id n, r.get? id = some n → t.isConnected id = true) :
    (r.prune t).2 = r := by
  have kept : r.nodes.filter (fun e => t.isConnected e.1) = r.nodes :=
    SortedMap.filter_eq_self connected
  simp only [prune, kept]

end Record

/-! ## Rules that find nothing to do -/

namespace Pass

open Record (entriesOf)
open Engine (Settled)

variable {p : Pass} {ids : List NodeId} {c : Classification}

theorem classifyEach_of_mem (sound : p.record.Sound p.tree)
    (there : ∀ id ∈ ids, p.tree.isElement id = true ∧ c ∈ p.record.entriesAt id) :
    classifyEach c ids p = (true, p) := by
  induction ids with
  | nil => rfl
  | cons id rest ih =>
    obtain ⟨⟨isElement, member⟩, later⟩ := List.forall_mem_cons.mp there
    obtain ⟨e, here⟩ := Tree.isElement_iff.mp isElement
    have nothing : Record.admitted c (p.record.entriesAt id) = none :=
      if_pos ((SortedMap.find?_key_eq_some_iff (sound.ranked id).distinct).mpr ⟨member, rfl⟩)
    rw [classifyEach, Record.classify_eq here, nothing]
    exact ih later

theorem unclassifyEach_of_absent {ruleId : String} (sound : p.record.Sound p.tree)
    (absent : ∀ id ∈ ids, ∀ x ∈ p.record.entriesAt id, x.ruleId ≠ ruleId) :
    unclassifyEach ruleId ids p = (true, p) := by
  induction ids with
  | nil => rfl
  | cons id rest ih =>
    obtain ⟨here, later⟩ := List.forall_mem_cons.mp absent
    have same : p.record.unclassify p.tree id ruleId = (.ok false, p.record, p.tree) := by
      cases found : p.record.get? id with
      | none => exact Record.unclassify_of_absent found _ _
      | some n =>
        obtain ⟨e, element⟩ := Tree.isElement_iff.mp (sound.stands id n found).1
        have nothing : Record.reverted (·.ruleId == ruleId) n.entries = none := by
          refine if_pos (List.filter_eq_nil_iff.mpr fun x member => ?_)
          simpa using here x (Record.entriesAt_of_get? found ▸ member)
        rw [Record.unclassify_eq found element, nothing]
        rfl
    rw [unclassifyEach, same]
    exact ih later

section

variable {engine : Engine} {rank : Nat} {r : Rule}

/-- The rule is settled on all candidates, as the page stands. -/
def SettledOn (engine : Engine) (ids : List NodeId) (rank : Nat) (r : Rule) (p : Pass) : Prop :=
  ∀ id ∈ ids, ∃ e, p.tree.element? id = some e ∧
    Settled engine p.tree rank r id (p.record.get? id) e

theorem applySelector_of_settled {x : ExtendedSelector} {q : Query}
    (sound : p.record.Sound p.tree) (settled : SettledOn engine ids rank r p)
    (entry : r.entryFor? engine.config engine.mode rank = some c)
    (selector : r.action.selector? = some x) (read : x.read = .ok q) :
    applySelector x ids c p = (true, p) := by
  have selected : x.select p.tree ids = .ok (ids.filter (q.accepts p.tree)) := by
    rw [ExtendedSelector.select, read]
    rfl
  have classified : classifyEach c (ids.filter (q.accepts p.tree)) p = (true, p) := by
    refine classifyEach_of_mem sound fun id member => ?_
    obtain ⟨candidate, accepted⟩ := List.mem_filter.mp member
    obtain ⟨e, here, settled⟩ := settled id candidate
    have there := settled.selected c x q entry selector read
    rw [if_pos accepted] at there
    exact ⟨Tree.isElement_iff.mpr ⟨e, here⟩, there⟩
  have unclassified : unclassifyEach c.ruleId
      (ids.filter (!(ids.filter (q.accepts p.tree)).contains ·)) p = (true, p) := by
    refine unclassifyEach_of_absent sound fun id member => ?_
    obtain ⟨candidate, refused⟩ := List.mem_filter.mp member
    obtain ⟨e, here, settled⟩ := settled id candidate
    have absent := settled.selected c x q entry selector read
    have notAccepted : q.accepts p.tree id ≠ true := fun accepted => by
      simp [List.mem_filter, candidate, accepted] at refused
    rw [if_neg notAccepted] at absent
    exact absent
  rw [applySelector, selected]
  simp only [classified, unclassified, if_true]

theorem judgeEach_of_settled (sound : p.record.Sound p.tree)
    (settled : SettledOn engine ids rank r p)
    (entry : r.entryFor? engine.config engine.mode rank = some c)
    (asksScorer : r.action.selector? = none)
    (posts : ∀ id ∈ ids, engine.post.accepts p.tree none id = true) :
    judgeEach engine c ids p = (true, p) := by
  induction ids with
  | nil => rfl
  | cons post rest ih =>
    obtain ⟨⟨e, here, settledHere⟩, settledLater⟩ := List.forall_mem_cons.mp settled
    obtain ⟨isPost, postsLater⟩ := List.forall_mem_cons.mp posts
    obtain ⟨silent, flagged⟩ := settledHere.scored c entry asksScorer isPost
    have judged : p.judge engine post =
        .ok ((e.get? engine.config.aiCheckedAttribute).map (· == flaggedWord), p) := by
      rw [judge, Tree.attribute?_of_element? here]
      cases marked : e.get? engine.config.aiCheckedAttribute with
      | some word => rfl
      | none =>
        have noText : engine.postText.queryFirst p.tree post = none :=
          Option.map_eq_none_iff.mp (silent marked)
        simp only [noText]
        rfl
    have rest := ih settledLater postsLater
    rw [judgeEach, judged]
    simp only
    split
    · rename_i isFlagged
      obtain ⟨word, marked, same⟩ := Option.map_eq_some_iff.mp isFlagged
      rw [beq_iff_eq.mp same] at marked
      have classified : classifyEach c [post] p = (true, p) := by
        refine classifyEach_of_mem sound (List.forall_mem_singleton.mpr ?_)
        exact ⟨Tree.isElement_iff.mpr ⟨e, here⟩, flagged marked⟩
      rw [classified]
      exact rest
    · exact rest

/-- A settled rule at most counts that its selector cannot be read. -/
theorem applyRule_of_settled (sound : p.record.Sound p.tree)
    (settled : SettledOn engine ids rank r p) :
    ∃ errors, applyRule engine ids rank r p = { p with report := { p.report with errors } } := by
  cases entry : r.entryFor? engine.config engine.mode rank with
  | none =>
    refine ⟨p.report.errors, ?_⟩
    rw [applyRule, entry]
  | some c =>
    rw [applyRule, entry]
    cases selector : r.action.selector? with
    | some x =>
      cases read : x.read with
      | error cause =>
        have failed : x.select p.tree ids = .error cause := by
          rw [ExtendedSelector.select, read]
          rfl
        simp only [applySelector, failed]
        exact ⟨_, rfl⟩
      | ok q =>
        simp only [applySelector_of_settled sound settled entry selector read, if_true]
        exact ⟨p.report.errors, rfl⟩
    | none =>
      have judged : judgeEach engine c (ids.filter (engine.post.accepts p.tree none)) p =
          (true, p) := by
        refine judgeEach_of_settled sound (fun id member => settled id ?_) entry selector
          fun id member => (List.mem_filter.mp member).2
        exact (List.mem_filter.mp member).1
      simp only [judged, if_true]
      exact ⟨p.report.errors, rfl⟩

theorem letLook_of_settled {rules : List (Rule × Nat)} (sound : p.record.Sound p.tree)
    (settled : ∀ x ∈ rules, SettledOn engine ids x.2 x.1 p) :
    ∃ errors, letLook engine ids rules p =
      { p with report := { p.report with errors } } := by
  induction rules generalizing p with
  | nil => exact ⟨p.report.errors, rfl⟩
  | cons x rest ih =>
    obtain ⟨r, rank⟩ := x
    obtain ⟨here, later⟩ := List.forall_mem_cons.mp settled
    obtain ⟨errors, first⟩ := applyRule_of_settled sound here
    obtain ⟨errors', last⟩ :=
      ih (p := { p with report := { p.report with errors } }) sound later
    exact ⟨errors', (congrArg (letLook engine ids rest) first).trans last⟩

end

end Pass

/-- The entry that a rule writes is one that it would write. -/
theorem Rule.produces_of_entryFor? {r : Rule} {config : Config} {mode : Mode} {rank : Nat}
    {c : Classification} (entry : r.entryFor? config mode rank = some c) : r.produces c = true := by
  obtain ⟨toggle, -, rfl⟩ := Option.map_eq_some_iff.mp entry
  obtain ⟨id, action⟩ := r
  cases action <;> simp [produces]

namespace Engine

open Record (each)

variable {e : Engine} {t : Tree}

/-- Where nothing is recorded but of elements that are part of the page, nothing is forgotten. -/
theorem prepare_eq_self (connected : ∀ id n, e.record.get? id = some n → t.isConnected id = true)
    (batch : ChangeBatch) : e.prepare t batch = e := by
  rw [prepare, Record.prune_eq_self connected]
  split <;> rfl

/-! ## Engines at rest -/

/-- Every entry is what its rule writes now, nothing is recorded of elements that are not part of
the page, and unless the mode is off every rule is settled on every element of the page. -/
structure Resting (e : Engine) (t : Tree) : Prop where
  upToDate : UpToDate e t
  linked : t.Linked
  connected : ∀ id n, e.record.get? id = some n → t.isConnected id = true
  settled : e.mode ≠ .off → ∀ x ∈ e.rules.zipIdx, ∀ id ∈ t.elements, ∀ el,
    t.element? id = some el → Settled e t x.2 x.1 id (e.record.get? id) el

namespace Resting

/-- A batch finds nothing to do for an engine at rest. -/
theorem processBatch (resting : Resting e t) (batch : ChangeBatch) :
    ∃ candidates errors, e.processBatch t batch = ({ candidates, errors }, e, t) := by
  rw [Engine.processBatch]
  split
  · exact ⟨0, 0, rfl⟩
  · rename_i on
    have prepared := prepare_eq_self resting.connected batch
    rw [prepared]
    simp only
    split
    · exact ⟨0, 0, rfl⟩
    · have settled : ∀ x ∈ e.rules.zipIdx,
          Pass.SettledOn e (batch.candidates t) x.2 x.1 (e.firstPass t batch) := by
        intro x inForce id candidate
        have inside := candidates_subset_elements resting.linked batch candidate
        obtain ⟨el, here⟩ := Tree.isElement_iff.mp (resting.linked.mem_elements.mp inside).1
        refine ⟨el, here, ?_⟩
        rw [firstPass, prepared]
        exact resting.settled on x inForce id inside el here
      obtain ⟨errors, done⟩ := Pass.letLook_of_settled
        (sound_prepare resting.upToDate.sound batch) settled
      rw [firstPass, prepared] at done
      refine ⟨(batch.candidates t).length, errors, ?_⟩
      rw [Pass.applyRules_eq_letLook, done]

/-- All rules that have written an entry are in force. -/
theorem revertWhere (resting : Resting e t) :
    e.record.revertWhere t (fun c => !e.rules.any (·.produces c)) = ({}, e.record, t) := by
  refine Record.revertWhere_eq_self resting.upToDate.sound.stands fun id c member => ?_
  obtain ⟨r, inForce, entry⟩ := resting.upToDate.written id c member
  rw [Bool.not_eq_false', List.any_eq_true]
  exact ⟨r, List.mem_of_getElem? inForce, Rule.produces_of_entryFor? entry⟩

/-- All entries have the ranks of their rules. -/
theorem rerank (resting : Resting e t) :
    e.record.rerank t (fun id => e.rules.findIdx? (·.id == id)) = ({}, e.record, t) := by
  refine Record.rerank_eq_self fun id c member => ?_
  obtain ⟨r, inForce, entry⟩ := resting.upToDate.written id c member
  rw [Rule.ruleId_of_entryFor? entry]
  exact findIdx?_id resting.upToDate.distinct inForce

/-- Options that put the same rules in force, in the same mode, find nothing to do. -/
theorem applyOptions (resting : Resting e t) {o : Options} (rules : e.rulesOf o = e.rules)
    (mode : o.mode = e.mode) :
    (e.applyOptions t o).2 = (e, t) ∧ (e.applyOptions t o).1.reverted = 0 ∧
      ∃ candidates errors, (e.applyOptions t o).1.batch = { candidates, errors } := by
  obtain ⟨candidates, errors, batch⟩ := resting.processBatch .wholePage
  have switched : e.switchMode t o.mode = ({}, e, t) := by
    rw [switchMode, if_pos mode.symm]
  have inForce : (readRules e.config (o.merge e.catalog)).1 = e.rules := rules
  rw [Engine.applyOptions]
  simp only [inForce, resting.revertWhere, resting.rerank, switched]
  split
  · exact ⟨rfl, trivial, 0, 0, rfl⟩
  · rw [batch]
    exact ⟨rfl, trivial, candidates, errors, rfl⟩

end Resting

/-! ## How an engine comes to rest -/

/-- A rule that is settled as the page stood is settled as the page stands, if no selector sees the
difference. -/
theorem Settled.of_like {tests : List Test} {start : Tree} {rank : Nat} {r : Rule} {id : NodeId}
    {n : Option NodeRecord} {el : Element} (settled : Settled e start rank r id n el)
    (inForce : e.rules[rank]? = some r) (tested : ∀ x ∈ e.testsInUse, x ∈ tests)
    (like : start.Like tests t) : Settled e t rank r id n el := by
  refine ⟨fun c x q entry selector read => ?_, fun c entry asksScorer isPost => ?_⟩
  · have inUse : ∀ y ∈ q.tests, y ∈ tests := fun y there =>
      tested y (mem_testsInUse_of_read inForce selector read there)
    rw [q.accepts_congr like inUse]
    exact settled.selected c x q entry selector read
  · rw [e.post.accepts_congr like fun x there => tested x (mem_testsInUse_of_post there)] at isPost
    rw [spoken_congr like tested]
    exact settled.scored c entry asksScorer isPost

/-- It does not matter what is recorded of other nodes. -/
theorem Settled.record {rank : Nat} {r : Rule} {id : NodeId} {n : Option NodeRecord} {el : Element}
    (settled : Settled e t rank r id n el) (records : Record) :
    Settled { e with record := records } t rank r id n el :=
  ⟨settled.selected, settled.scored⟩

/-- A batch settles every rule on each of its candidates. -/
theorem settled_processBatch {tests : List Test} {start : Tree} (on : e.mode ≠ .off)
    (distinct : (e.rules.map (·.id)).Nodup) (linked : t.Linked)
    (discreet : Discreet e.config tests e.Writes) (tested : ∀ x ∈ e.testsInUse, x ∈ tests)
    {batch : ChangeBatch}
    (unseen : Unseen e.config.classificationAttribute tests start
      ((e.prepare t batch).record, t)) {id : NodeId} (candidate : id ∈ batch.candidates t)
    {el : Element} (here : (e.processBatch t batch).2.2.element? id = some el) :
    ∀ x ∈ e.rules.zipIdx,
      Settled e start x.2 x.1 id ((e.processBatch t batch).2.1.record.get? id) el := by
  intro x inForce
  obtain ⟨old, there⟩ := Tree.isElement_iff.mp (isElement_of_candidate linked candidate)
  obtain ⟨record, element⟩ := processBatch_at on discreet tested linked unseen candidate there
  cases here.symm.trans element
  rw [record]
  exact settled_passAct discreet (unseen.sound.ranked id) distinct x inForce

/-- A look at the whole page brings the engine to rest. -/
theorem resting_processBatch {tests : List Test} (on : e.mode ≠ .off) (upToDate : UpToDate e t)
    (linked : t.Linked) (discreet : Discreet e.config tests e.Writes)
    (tested : ∀ x ∈ e.testsInUse, x ∈ tests)
    (unseen : Unseen e.config.classificationAttribute tests t
      ((e.prepare t .wholePage).record, t)) :
    Resting (e.processBatch t .wholePage).2.1 (e.processBatch t .wholePage).2.2 := by
  have seen := unseen_processBatch on discreet upToDate.sound unseen
  have now := upToDate.processBatch .wholePage
  have done := processBatch_eq_each on discreet tested linked unseen
  have settled {id : NodeId} (candidate : id ∈ t.elements) {el : Element}
      (here : (e.processBatch t .wholePage).2.2.element? id = some el) :=
    settled_processBatch on upToDate.distinct linked discreet tested unseen candidate here
  have frame : t.SameFrame (e.processBatch t .wholePage).2.2 := by
    rw [done]
    exact Record.sameFrame_each _ _ (_, t)
  refine ⟨now, linked.of_sameFrame frame, fun id n found => ?_,
    fun _ x inForce id inside el here => ?_⟩
  · rw [frame.isConnected]
    by_cases inside : id ∈ t.elements
    · exact (linked.mem_elements.mp inside).2
    · -- no candidate, so it is recorded only if it has not been forgotten
      have untouched : (e.processBatch t .wholePage).2.1.record.get? id =
          (e.record.prune t).2.get? id := by
        rw [done]
        exact Record.get?_each_of_not_mem inside _ _
      rw [untouched, get?_prune, Option.filter_eq_some_iff] at found
      exact found.2
  · rw [processBatch_engine] at inForce ⊢
    rw [frame.elements] at inside
    have here := settled inside here x inForce
    exact (here.of_like (Pass.inForce_of_mem_zipIdx inForce) tested seen.like).record _

/-- When options have put their rules and their mode in force, the page is in order. -/
theorem unseen_turn (upToDate : UpToDate e t)
    (agree : MarkersAgree e.config.classificationAttribute e.record t)
    (host : HostClasses e.record t) (words : ∀ c, e.Writes c → Text.IsWord c.cls) {o : Options}
    {tests : List Test} (discreet : Discreet e.config tests (e.turn t o).1.Writes) :
    Unseen e.config.classificationAttribute tests (e.turn t o).2
      ((e.turn t o).1.record, (e.turn t o).2) := by
  have now := upToDate.turn o
  have start : Unseen e.config.classificationAttribute [] t (e.record, t) :=
    unseen_prepare upToDate agree host (fun c written => ⟨words c written, by simp⟩) {}
  have blind : Record.Blind e.config.classificationAttribute [] := ⟨by simp, discreet.marker.2⟩
  have turned := (Unseen.keptBySweeps discreet.marker.1 blind).turn start o fun id x member =>
    ⟨discreet.words x (now.written id x member), by simp⟩
  refine turned.restart fun id x member => ?_
  have written := now.written id x member
  exact ⟨discreet.words x written, discreet.classes x written⟩

/-- To apply options brings the engine to rest. -/
theorem resting_applyOptions (upToDate : UpToDate e t) (linked : t.Linked)
    (agree : MarkersAgree e.config.classificationAttribute e.record t)
    (host : HostClasses e.record t) (words : ∀ c, e.Writes c → Text.IsWord c.cls) {o : Options}
    (discreet : Discreet (e.turn t o).1.config (e.turn t o).1.testsInUse (e.turn t o).1.Writes) :
    Resting (e.applyOptions t o).2.1 (e.applyOptions t o).2.2 := by
  have now := upToDate.turn o
  have engine := turn_engine e t o
  have config : (e.turn t o).1.config = e.config := by rw [engine]
  have linkedNow := (Run.keptBy_linked "").turn upToDate linked o
  rw [applyOptions_eq]
  split
  · rename_i off
    have mode : (e.turn t o).1.mode = .off := by
      rw [engine]
      exact off
    refine ⟨now, linkedNow, fun id n found => ?_, fun on => absurd mode on⟩
    cases (now.get?_of_off mode id).symm.trans found
  · rename_i on
    refine resting_processBatch (engine ▸ on) now linkedNow discreet (fun _ => id) ?_
    rw [config] at discreet ⊢
    exact (unseen_turn upToDate agree host words discreet).prepare .wholePage

/-- Directly after options have been applied, nothing is left to do: neither applying them a second
time nor any batch changes what is recorded or writes to the tree, and nothing is reported to have
been classified, reverted or scored. -/
theorem applyOptions_again {config : Config} {catalog : Catalog} {page : Tree}
    (run : Run Record.SparesMarks config catalog page e t) (linked : page.Linked)
    (host : HostClasses e.record t) (words : ∀ c, e.Writes c → Text.IsWord c.cls) (o : Options)
    (discreet : let done := (e.applyOptions t o).2.1
      Discreet done.config done.testsInUse done.Writes) :
    let done := (e.applyOptions t o).2
    let again := done.1.applyOptions done.2 o
    (again.2 = done ∧ again.1.reverted = 0 ∧ again.1.batch.classified = 0 ∧
      again.1.batch.reverted = 0 ∧ again.1.batch.scored = 0) ∧
    ∀ batch, let looked := done.1.processBatch done.2 batch
      looked.2 = done ∧ looked.1.classified = 0 ∧ looked.1.reverted = 0 ∧ looked.1.scored = 0 := by
  intro done again
  have engine : done.1 = _ := applyOptions_engine e t o
  have sameConfig : done.1.config = config := by rw [engine, ← run.config_eq]
  have discreet : Discreet done.1.config done.1.testsInUse done.1.Writes := discreet
  have agree := run.markersAgree (sameConfig ▸ discreet.marker.1) (sameConfig ▸ discreet.scored.1)
  rw [← run.config_eq] at agree
  have resting : Resting done.1 done.2 := by
    refine resting_applyOptions run.upToDate (run.linked linked) agree host words ?_
    rw [engine] at discreet
    rw [turn_engine]
    exact discreet
  constructor
  · have rules : done.1.rulesOf o = done.1.rules := by
      rw [engine]
      rfl
    obtain ⟨same, reverted, candidates, errors, batch⟩ :=
      resting.applyOptions (o := o) rules (by rw [engine])
    have batch : again.1.batch = { candidates, errors } := batch
    exact ⟨same, reverted, by rw [batch], by rw [batch], by rw [batch]⟩
  · intro batch looked
    obtain ⟨candidates, errors, nothing⟩ := resting.processBatch batch
    have nothing : looked = _ := nothing
    rw [nothing]
    exact ⟨rfl, rfl, rfl, rfl⟩

/-- A rule that has been applied to a page with a paragraph is applied again, and then the paragraph
is reported as new. -/
theorem applyOptions_again_paragraph :
    let done := (paragraphEngine.applyOptions paragraphPage paragraphRule).2
    let again := done.1.applyOptions done.2 paragraphRule
    (done.1.record.entriesAt ⟨1⟩).map (·.ruleId) = ["r"] ∧ again.2 = done ∧
      (done.1.processBatch done.2 { added := [⟨1⟩] }).2 = done := by
  intro done again
  have discreet : Discreet done.1.config done.1.testsInUse done.1.Writes := by
    have before := discreet_paragraphEngine
    have loaded : paragraphEngine = _ := applyOptions_engine smallEngine .empty paragraphRule
    have engine : done.1 = _ := applyOptions_engine paragraphEngine paragraphPage paragraphRule
    rw [engine]
    rw [loaded] at before ⊢
    exact before
  obtain ⟨⟨same, -⟩, batches⟩ := applyOptions_again run_paragraphPage .empty
    hostClasses_paragraphPage discreet_paragraphEngine.words paragraphRule discreet
  exact ⟨by decide +kernel, same, (batches _).1⟩

end Engine

end NoiseFilter
