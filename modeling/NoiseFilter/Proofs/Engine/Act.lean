import NoiseFilter.Proofs.Engine.Candidates
import NoiseFilter.Proofs.Engine.Classification
import NoiseFilter.Proofs.Engine.NodeActs

/-!
# A pass as acts on nodes

A batch lets each rule in turn go through all candidates. If no selector sees what the engine
writes, the same comes of going through the candidates once and letting all rules act on each: what
a rule does to a candidate follows from the page at the start and from the candidate alone
(`ruleAct`). So a pass is one act, carried out on each candidate (`applyRules_eq_each`), and the
order of candidates does not matter.
-/

namespace NoiseFilter

open Record (Act on each)

/-! ## What selectors in use test -/

/-- The tests of the selector of a rule; none, if it cannot be read. -/
def Rule.tests (r : Rule) : List Test :=
  ((r.action.selector?.bind (·.read.toOption)).map Query.tests).getD []

theorem Rule.tests_of_read {r : Rule} {x : ExtendedSelector} {q : Query}
    (selector : r.action.selector? = some x) (read : x.read = .ok q) : r.tests = q.tests := by
  rw [tests, selector, Option.bind_some, read]
  rfl

namespace Engine

/-- The tests of all selectors that the engine uses: those for posts and their texts, and those of
the rules. -/
def testsInUse (e : Engine) : List Test :=
  e.post.tests ++ e.postText.tests ++ e.rules.flatMap Rule.tests

theorem mem_testsInUse_of_post {e : Engine} {x : Test} (there : x ∈ e.post.tests) :
    x ∈ e.testsInUse :=
  List.mem_append_left _ (List.mem_append_left _ there)

theorem mem_testsInUse_of_postText {e : Engine} {x : Test} (there : x ∈ e.postText.tests) :
    x ∈ e.testsInUse :=
  List.mem_append_left _ (List.mem_append_right _ there)

theorem mem_testsInUse_of_read {e : Engine} {rank : Nat} {r : Rule} {s : ExtendedSelector}
    {q : Query} {x : Test} (inForce : e.rules[rank]? = some r)
    (selector : r.action.selector? = some s) (read : s.read = .ok q) (there : x ∈ q.tests) :
    x ∈ e.testsInUse :=
  List.mem_append_right _ (List.mem_flatMap.mpr
    ⟨r, List.mem_of_getElem? inForce, Rule.tests_of_read selector read ▸ there⟩)

/-- What the engine writes is not seen by selectors with these tests. The two attributes that it
writes are none of `class`, `style` and `id`, and different from each other; the classes that it
writes are words. -/
structure Discreet (config : Config) (tests : List Test) (writes : Classification → Prop) :
    Prop where
  marker : Apart config.classificationAttribute
  scored : Apart config.aiCheckedAttribute
  markerNotStyle : Text.lower config.classificationAttribute ≠ "style"
  scoredNotStyle : Text.lower config.aiCheckedAttribute ≠ "style"
  different : Text.lower config.classificationAttribute ≠ Text.lower config.aiCheckedAttribute
  words : ∀ c, writes c → Text.IsWord c.cls
  classes : ∀ c, writes c → .cls c.cls ∉ tests
  attributes : ∀ a, .attribute a ∈ tests →
    Text.lower a ≠ "class" ∧ Text.lower a ≠ "style" ∧
      Text.lower a ≠ Text.lower config.classificationAttribute ∧
      Text.lower a ≠ Text.lower config.aiCheckedAttribute

namespace Discreet

variable {config : Config} {tests : List Test} {writes : Classification → Prop}

theorem markerBlind (discreet : Discreet config tests writes) :
    Record.Blind config.classificationAttribute tests where
  attributes a tested :=
    have ⟨notClass, notStyle, notMarker, _⟩ := discreet.attributes a tested
    ⟨notClass, notStyle, notMarker⟩
  notId := discreet.marker.2

theorem scoredBlind (discreet : Discreet config tests writes) :
    Record.Blind config.aiCheckedAttribute tests where
  attributes a tested :=
    have ⟨notClass, notStyle, _, notScored⟩ := discreet.attributes a tested
    ⟨notClass, notStyle, notScored⟩
  notId := discreet.scored.2

theorem mono (discreet : Discreet config tests writes) {writes' : Classification → Prop}
    (fewer : ∀ c, writes' c → writes c) : Discreet config tests writes' :=
  { discreet with
    words := fun c written => discreet.words c (fewer c written)
    classes := fun c written => discreet.classes c (fewer c written) }

/-- Acts of rules are not seen. -/
theorem steps (discreet : Discreet config tests writes) {start : Tree} {s s' : Pass.State}
    {candidates : List NodeId}
    (unseen : Unseen config.classificationAttribute tests start s)
    (steps : Pass.Steps config.aiCheckedAttribute candidates writes s s') :
    Unseen config.classificationAttribute tests start s' :=
  unseen.steps discreet.marker.1 discreet.markerBlind discreet.scored.1 discreet.scoredBlind
    (fun c written => ⟨discreet.words c written, discreet.classes c written⟩) steps

end Discreet

/-! ## What a rule does to a node -/

section

variable {engine : Engine} {tests : List Test} {start t : Tree} (like : start.Like tests t)
  (tested : ∀ x ∈ engine.testsInUse, x ∈ tests)

include like tested

theorem spoken_congr (post : NodeId) : engine.spoken t post = engine.spoken start post := by
  have text : ∀ x ∈ engine.postText.tests, x ∈ tests := fun x there =>
    tested x (mem_testsInUse_of_postText there)
  rw [spoken, spoken, engine.postText.queryFirst_congr like text]
  simp only [like.renderedText]

theorem scorerAct_congr (c : Classification) (post : NodeId) :
    engine.scorerAct t c post = engine.scorerAct start c post := by
  rw [scorerAct, scorerAct, spoken_congr like tested]

theorem selectorAct_congr {rank : Nat} {r : Rule} {x : ExtendedSelector}
    (inForce : engine.rules[rank]? = some r) (selector : r.action.selector? = some x)
    (c : Classification) (id : NodeId) :
    engine.selectorAct t c x id = engine.selectorAct start c x id := by
  rw [selectorAct, selectorAct]
  cases read : x.read with
  | error cause => rfl
  | ok q =>
    have inUse : ∀ y ∈ q.tests, y ∈ tests := fun y there =>
      tested y (mem_testsInUse_of_read inForce selector read there)
    simp only [q.accepts_congr like inUse id]

end

variable (engine : Engine) (start : Tree)

/-- What a rule does to a node. -/
def ruleAct (rank : Nat) (r : Rule) (id : NodeId) : Act :=
  match r.entryFor? engine.config engine.mode rank, r.action.selector? with
  | none, _ => .idle
  | some c, some x => engine.selectorAct start c x id
  | some c, none => if engine.post.accepts start none id then engine.scorerAct start c id else .idle

/-- What some rules, one after the other, do to a node. -/
def rulesAct : List (Rule × Nat) → NodeId → Act
  | [], _ => .idle
  | (r, rank) :: rest, id => (engine.ruleAct start rank r id).andThen (rulesAct rest id)

/-- What a pass does to a candidate. -/
def passAct (id : NodeId) : Act := engine.rulesAct start engine.rules.zipIdx id

/-- What a pass does does not depend on what is recorded. -/
theorem passAct_record (r : Record) :
    ({ engine with record := r } : Engine).passAct start = engine.passAct start := by
  have same (rules : List (Rule × Nat)) (id : NodeId) :
      ({ engine with record := r } : Engine).rulesAct start rules id =
        engine.rulesAct start rules id := by
    induction rules with
    | nil => rfl
    | cons x rest ih =>
      rw [rulesAct, rulesAct, ih]
      rfl
  exact funext (same _)

end Engine

namespace Pass

open Engine (Discreet Unseen)

variable {engine : Engine} {start : Tree} {tests : List Test} {p : Pass} {ids : List NodeId}
  {c : Classification}

/-- Posts that are gone through one after the other. -/
theorem judgeEach_eq_each {writes : Classification → Prop}
    (discreet : Discreet engine.config tests writes)
    (tested : ∀ x ∈ engine.testsInUse, x ∈ tests) (written : writes c)
    (unseen : Unseen engine.config.classificationAttribute tests start p.state)
    (elements : ∀ id ∈ ids, p.tree.isElement id = true) :
    (judgeEach engine c ids p).2.state = each (engine.scorerAct start c) ids p.state := by
  induction ids generalizing p with
  | nil => rfl
  | cons post rest ih =>
    obtain ⟨here, later⟩ := List.forall_mem_cons.mp elements
    obtain ⟨p', first, acted, -⟩ := judgeEach_cons (c := c) unseen.named here
    have steps : Steps engine.config.aiCheckedAttribute [post] (· = c) p.state p'.state := by
      have only : ∀ id ∈ [post], id ∈ [post] ∧ p.tree.isElement id = true :=
        List.forall_mem_singleton.mpr ⟨List.mem_cons_self, here⟩
      have alone : Steps engine.config.aiCheckedAttribute [post] (· = c) p.state
          (judgeEach engine c [post] p).2.state := judgeEach_steps unseen.sound only
      rwa [first] at alone
    have unseen' := discreet.steps unseen (steps.mono fun _ same => same ▸ written)
    have rest := ih unseen' fun other member =>
      ((frame_of_on acted).2.isElement other).trans (later other member)
    have like : start.Like tests p.tree := unseen.like
    rw [Engine.scorerAct_congr like tested] at acted
    rw [first]
    exact rest.trans (congrArg _ acted)

/-! ## All rules -/

section

variable {rank : Nat} {r : Rule} (inForce : engine.rules[rank]? = some r)
  (tested : ∀ x ∈ engine.testsInUse, x ∈ tests)
  (unseen : Unseen engine.config.classificationAttribute tests start p.state)
  (discreet : Discreet engine.config tests engine.Writes)
  (elements : ∀ id ∈ ids, p.tree.isElement id = true)

include inForce tested unseen discreet elements

theorem applyRule_of_scorer (entry : r.entryFor? engine.config engine.mode rank = some c)
    (asksScorer : r.action.selector? = none) :
    (applyRule engine ids rank r p).state =
      each (fun id => if engine.post.accepts start none id then engine.scorerAct start c id
        else .idle) ids p.state := by
  have sameRank := Rule.rank_of_entryFor? entry
  have written : engine.Writes c := ⟨r, sameRank ▸ inForce, sameRank ▸ entry⟩
  have accepted : engine.post.accepts p.tree none = engine.post.accepts start none :=
    funext (engine.post.accepts_congr unseen.like
      (fun x there => tested x (Engine.mem_testsInUse_of_post there)) none)
  rw [applyRule, entry]
  simp only [asksScorer, state_countError, accepted]
  rw [judgeEach_eq_each discreet tested written unseen fun id member =>
    elements id (List.mem_filter.mp member).1, Record.each_filter]

/-- What a rule does to the candidates is to act on each of them by itself. -/
theorem applyRule_eq_each :
    (applyRule engine ids rank r p).state = each (engine.ruleAct start rank r) ids p.state := by
  cases entry : r.entryFor? engine.config engine.mode rank with
  | none =>
    rw [applyRule, entry]
    refine (Record.each_eq_self fun id _ e _ => ?_).symm
    simp only [Engine.ruleAct, entry]
  | some c =>
    cases selector : r.action.selector? with
    | some x =>
      rw [applyRule_of_selector unseen.named elements entry selector]
      refine Record.each_congr (fun id _ => ?_) _
      simp only [Engine.ruleAct, entry, selector]
      exact Engine.selectorAct_congr unseen.like tested inForce selector c id
    | none =>
      rw [applyRule_of_scorer inForce tested unseen discreet elements entry selector]
      refine Record.each_congr (fun id _ => ?_) _
      simp only [Engine.ruleAct, entry, selector]

end

/-- To let the rules in turn go through all candidates is to let all of them act on each. -/
theorem letLook_eq_each {rules : List (Rule × Nat)}
    (inForce : ∀ x ∈ rules, engine.rules[x.2]? = some x.1)
    (discreet : Discreet engine.config tests engine.Writes)
    (tested : ∀ x ∈ engine.testsInUse, x ∈ tests) (distinct : ids.Nodup)
    (unseen : Unseen engine.config.classificationAttribute tests start p.state)
    (elements : ∀ id ∈ ids, p.tree.isElement id = true) :
    (letLook engine ids rules p).state = each (engine.rulesAct start rules) ids p.state := by
  induction rules generalizing p with
  | nil => exact (Record.each_eq_self fun _ _ _ _ => rfl).symm
  | cons x rest ih =>
    obtain ⟨r, rank⟩ := x
    obtain ⟨here, later⟩ := List.forall_mem_cons.mp inForce
    have steps := letLook_steps ids unseen.sound
      (List.forall_mem_singleton.mpr here : ∀ x ∈ [(r, rank)], engine.rules[x.2]? = some x.1)
    have unseen₁ := discreet.steps unseen (steps.mono fun _ => And.left)
    have frame := Steps.sameFrame steps unseen.sound
    have rest := ih later unseen₁ fun id member =>
      (frame.isElement id).trans (elements id member)
    refine rest.trans ?_
    show each _ ids (p.applyRule engine ids rank r).state = _
    rw [applyRule_eq_each here tested unseen discreet elements]
    exact (Record.each_andThen distinct _ _ _).symm

/-- A pass is one act, carried out on each candidate. -/
theorem applyRules_eq_each (discreet : Discreet engine.config tests engine.Writes)
    (tested : ∀ x ∈ engine.testsInUse, x ∈ tests) (distinct : ids.Nodup)
    (unseen : Unseen engine.config.classificationAttribute tests start p.state)
    (elements : ∀ id ∈ ids, p.tree.isElement id = true) :
    (applyRules engine ids p).state = each (engine.passAct start) ids p.state :=
  letLook_eq_each (fun _ => inForce_of_mem_zipIdx) discreet tested distinct unseen elements

end Pass

namespace Engine

variable {e : Engine} {t start : Tree} {tests : List Test}

/-- A batch starts with a page that is in order, where others have spared the marks. -/
theorem Run.unseen_prepare {config : Config} {catalog : Catalog} {page : Tree}
    (run : Run Record.SparesMarks config catalog page e t)
    (discreet : Discreet e.config tests e.Writes) (host : HostClasses e.record t)
    (batch : ChangeBatch) :
    Unseen e.config.classificationAttribute tests t ((e.prepare t batch).record, t) := by
  have config_eq := run.config_eq
  subst config_eq
  exact Engine.unseen_prepare run.upToDate (run.markersAgree discreet.marker.1 discreet.scored.1) host
    (fun c written => ⟨discreet.words c written, discreet.classes c written⟩) batch

/-- A batch lets the act of a pass be carried out on each of its candidates. -/
theorem processBatch_eq_each (on : e.mode ≠ .off)
    (discreet : Discreet e.config tests e.Writes) (tested : ∀ x ∈ e.testsInUse, x ∈ tests)
    (linked : t.Linked) {batch : ChangeBatch}
    (unseen : Unseen e.config.classificationAttribute tests start
      ((e.prepare t batch).record, t)) :
    (e.processBatch t batch).2 =
      let s := each (e.passAct start) (batch.candidates t) ((e.prepare t batch).record, t)
      ({ e with record := s.1 }, s.2) := by
  by_cases none : batch.candidates t = []
  · rw [processBatch_of_nil on none, none]
    rfl
  · have state : (Pass.applyRules { e with record := (e.prepare t batch).record }
        (batch.candidates t) (e.firstPass t batch)).state = _ :=
      Pass.applyRules_eq_each discreet tested (nodup_candidates linked batch) unseen
        fun id candidate => isElement_of_candidate linked candidate
    rw [passAct_record] at state
    rw [processBatch_eq on none]
    exact congrArg (fun s : Pass.State => (({ e with record := s.1 } : Engine), s.2)) state

/-- What a batch makes of a candidate. -/
theorem processBatch_at (on : e.mode ≠ .off) (discreet : Discreet e.config tests e.Writes)
    (tested : ∀ x ∈ e.testsInUse, x ∈ tests) (linked : t.Linked) {batch : ChangeBatch}
    (unseen : Unseen e.config.classificationAttribute tests start
      ((e.prepare t batch).record, t)) {id : NodeId} (candidate : id ∈ batch.candidates t)
    {el : Element} (here : t.element? id = some el) :
    let made := e.passAct start id ((e.prepare t batch).record.get? id) el
    (e.processBatch t batch).2.1.record.get? id = made.1 ∧
      (e.processBatch t batch).2.2.element? id = some made.2.element := by
  rw [processBatch_eq_each on discreet tested linked unseen]
  exact Record.each_at (s := ((e.prepare t batch).record, t)) (nodup_candidates linked batch) candidate
    here (e.passAct start)

/-! ## A small engine with a rule -/

/-- The small engine when it has loaded a rule for paragraphs, before there are any. -/
def paragraphEngine : Engine := ((Call.applyOptions paragraphRule).perform smallEngine .empty).1

/-- The page when a paragraph has come into it. -/
def paragraphPage : Tree :=
  newParagraph.foldl (fun t w => w.apply t)
    ((Call.applyOptions paragraphRule).perform smallEngine .empty).2

theorem get?_paragraphEngine (id : NodeId) : paragraphEngine.record.get? id = none := by
  have empty : paragraphEngine.record.nodes.entries = [] := by decide +kernel
  rw [Record.get?, SortedMap.get?, empty]
  rfl

theorem run_paragraphPage :
    Run Record.SparesMarks smallConfig {} .empty paragraphEngine paragraphPage := by
  refine (Run.call (.applyOptions paragraphRule) (.start ofConfig_smallConfig)).edits _ ?_
  intro w _ id n found
  cases (get?_paragraphEngine id).symm.trans found

theorem hostClasses_paragraphPage : HostClasses paragraphEngine.record paragraphPage :=
  ⟨fun id e _ here => Tree.forall_element? (by decide +kernel) here, fun id n found => by
    cases (get?_paragraphEngine id).symm.trans found⟩

theorem testsInUse_paragraphEngine :
    paragraphEngine.testsInUse = [.cls "a", .attribute "title"] := by decide +kernel

theorem discreet_paragraphEngine :
    Discreet paragraphEngine.config paragraphEngine.testsInUse paragraphEngine.Writes := by
  rw [testsInUse_paragraphEngine]
  refine ⟨by decide +kernel, by decide +kernel, by decide +kernel, by decide +kernel,
    by decide +kernel, forall_writes (by decide +kernel), forall_writes (by decide +kernel),
    fun a tested => ?_⟩
  have title : a = "title" := by simpa using tested
  rw [title]
  decide +kernel

end Engine

end NoiseFilter
