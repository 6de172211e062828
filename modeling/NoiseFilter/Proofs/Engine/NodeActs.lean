import NoiseFilter.Proofs.Engine.Pass
import NoiseFilter.Proofs.Record.Act

/-!
# What a rule does, node by node

A rule goes through elements one after the other, and what it does to each is an act on that node. A
rule with a selector has chosen what to do before it does anything: it carries out one act for each
candidate (`applyRule_of_selector`). A rule that asks the scorer looks again at the page before each
post (`judgeEach_cons`). Neither depends on what is recorded of other nodes, and neither stops
half-way, because all nodes are elements.
-/

namespace NoiseFilter

open Record (Act on each)

namespace Record.Act

/-- Leave a word on an element, unless there is one. -/
def leave (scored : String) (word : Option String) : Act := fun n e =>
  match e.get? scored, word with
  | none, some word => (n, ⟨e.set scored word, 1⟩)
  | _, _ => idle n e

/-- Act on an element that is flagged. -/
def ifFlagged (scored : String) (f : Act) : Act := fun n e =>
  if e.get? scored = some flaggedWord then f n e else idle n e

theorem get?_leave (scored : String) (word : Option String) (n : Option NodeRecord) (e : Element) :
    (leave scored word n e).2.element.get? scored = (e.get? scored).or word := by
  unfold leave
  cases marked : e.get? scored with
  | some old => exact marked
  | none =>
    cases word with
    | none => exact marked
    | some word => exact (e.get?_set scored word scored).trans (if_pos rfl)

end Record.Act

namespace Engine

variable (engine : Engine) (t : Tree)

/-- What the scorer says of a post on a page; nothing, if the post has no text. -/
def spoken (post : NodeId) : Option String :=
  (engine.postText.queryFirst t post).map fun body =>
    if (Score.score engine.config.thresholds (t.renderedText body)).isFlagged then flaggedWord
    else cleanWord

/-- The scorer is asked about a post that has a text and no word yet. -/
def asks (post : NodeId) : Bool :=
  (t.attribute? post engine.config.aiCheckedAttribute).isNone &&
    (engine.postText.queryFirst t post).isSome

/-- What the scorer does to a post. -/
def scorerAct (c : Classification) (post : NodeId) : Act :=
  (Act.leave engine.config.aiCheckedAttribute (engine.spoken t post)).andThen
    (.ifFlagged engine.config.aiCheckedAttribute (.enter engine.config.classificationAttribute c))

/-- What a selector does to a node: it lets the entry in or drops it. -/
def selectorAct (c : Classification) (x : ExtendedSelector) (id : NodeId) : Act :=
  match x.read with
  | .error _ => .idle
  | .ok q =>
    if q.accepts t id then .enter engine.config.classificationAttribute c
    else .drop engine.config.classificationAttribute c.ruleId

end Engine

namespace Pass

variable {engine : Engine} {p p' : Pass} {ids : List NodeId} {c : Classification}

/-- An act on a node writes to elements only, under the same name. -/
theorem frame_of_on {f : Act} {id : NodeId} (acted : p'.state = on f id p.state) :
    p'.record.marker = p.record.marker ∧ p.tree.SameFrame p'.tree := by
  have named := (congrArg (fun s => s.1.marker) acted).trans (Record.marker_on f id p.state)
  have frame := Record.sameFrame_on f id p.state
  rw [← acted] at frame
  exact ⟨named, frame⟩

/-! ## Elements one after the other -/

theorem classifyEach_eq_each (elements : ∀ id ∈ ids, p.tree.isElement id = true) :
    (classifyEach c ids p).1 = true ∧ (classifyEach c ids p).2.state =
      each (fun _ => .enter p.record.marker c) ids p.state := by
  induction ids generalizing p with
  | nil => exact ⟨rfl, rfl⟩
  | cons id rest ih =>
    have here := elements id List.mem_cons_self
    obtain ⟨changed, done⟩ := classify_ok (r := p.record) here c
    rw [classifyEach, done, Record.classify_apply here]
    obtain ⟨fine, same⟩ := ih (p := ⟨_, _, { p.report with classified := _ }⟩) fun other later =>
      ((Record.sameFrame_on _ id p.state).isElement other).trans
        (elements other (List.mem_cons_of_mem id later))
    rw [Record.marker_on] at same
    exact ⟨fine, same⟩

theorem unclassifyEach_eq_each (ruleId : String)
    (elements : ∀ id ∈ ids, p.tree.isElement id = true) :
    (unclassifyEach ruleId ids p).1 = true ∧ (unclassifyEach ruleId ids p).2.state =
      each (fun _ => .drop p.record.marker ruleId) ids p.state := by
  induction ids generalizing p with
  | nil => exact ⟨rfl, rfl⟩
  | cons id rest ih =>
    have here := elements id List.mem_cons_self
    obtain ⟨changed, done⟩ := unclassify_ok (r := p.record) (fun _ _ => here) ruleId
    rw [unclassifyEach, done, Record.unclassify_apply here]
    obtain ⟨fine, same⟩ := ih (p := ⟨_, _, { p.report with reverted := _ }⟩) fun other later =>
      ((Record.sameFrame_on _ id p.state).isElement other).trans
        (elements other (List.mem_cons_of_mem id later))
    rw [Record.marker_on] at same
    exact ⟨fine, same⟩

/-- To act in one way on the nodes that are told apart and in another way on the others. -/
theorem each_partition (accepts : NodeId → Bool) (f g : Act) (ids : List NodeId) (s : State) :
    each (fun _ => g) (ids.filter (!accepts ·)) (each (fun _ => f) (ids.filter accepts) s) =
      each (fun id => if accepts id then f else g) ids s := by
  have first : each (fun _ => f) (ids.filter accepts) s =
      each (fun id => if accepts id then f else g) (ids.filter accepts) s :=
    Record.each_congr (fun id member => (if_pos (List.mem_filter.mp member).2).symm) s
  have second (s : State) : each (fun _ => g) (ids.filter (!accepts ·)) s =
      each (fun id => if accepts id then f else g) (ids.filter (!accepts ·)) s := by
    refine Record.each_congr (fun id member => (if_neg ?_).symm) s
    simpa using (List.mem_filter.mp member).2
  rw [first, second, ← Record.each_append]
  exact Record.each_perm (List.filter_append_perm accepts ids) _ s

theorem applySelector_eq_each {x : ExtendedSelector} {q : Query} (read : x.read = .ok q)
    (elements : ∀ id ∈ ids, p.tree.isElement id = true) :
    (applySelector x ids c p).1 = true ∧ (applySelector x ids c p).2.state =
      each (fun id => if q.accepts p.tree id then .enter p.record.marker c
        else .drop p.record.marker c.ruleId) ids p.state := by
  have selected : x.select p.tree ids = .ok (ids.filter (q.accepts p.tree)) := by
    rw [ExtendedSelector.select, read]
    rfl
  have others : ids.filter (!(ids.filter (q.accepts p.tree)).contains ·) =
      ids.filter (!q.accepts p.tree ·) := by
    refine List.filter_congr fun id member => congrArg (!·) (Bool.eq_iff_iff.mpr ?_)
    rw [List.contains_iff_mem, List.mem_filter]
    exact and_iff_right member
  have elementsOf (accepts : NodeId → Bool) :
      ∀ id ∈ ids.filter accepts, p.tree.isElement id = true := fun id member =>
    elements id (List.mem_filter.mp member).1
  obtain ⟨fine, same⟩ := classifyEach_eq_each (c := c) (elementsOf (q.accepts p.tree))
  rw [applySelector, selected]
  simp only [others]
  generalize classifyEach c (ids.filter (q.accepts p.tree)) p = done at fine same
  obtain ⟨good, p'⟩ := done
  obtain rfl : good = true := fine
  have frame : p.tree.SameFrame p'.tree := by
    have whole := Record.sameFrame_each (fun _ => .enter p.record.marker c)
      (ids.filter (q.accepts p.tree)) p.state
    rwa [← same] at whole
  have sameMarker : p'.record.marker = p.record.marker :=
    (congrArg (fun s => s.1.marker) same).trans (Record.marker_each ..)
  obtain ⟨fine', same'⟩ := unclassifyEach_eq_each (p := p') c.ruleId fun id member =>
    (frame.isElement id).trans (elementsOf (!q.accepts p.tree ·) id member)
  refine ⟨fine', ?_⟩
  rw [if_pos rfl, same', sameMarker, same, each_partition]

/-! ## Rules with a selector -/

variable {rank : Nat} {r : Rule}

/-- A rule with a selector that cannot be read is given up before it does anything. -/
theorem applySelector_of_unread {x : ExtendedSelector} {cause : EvaluationError}
    (unread : x.read = .error cause) (candidates : List NodeId) (c : Classification) (p : Pass) :
    applySelector x candidates c p = (false, p) := by
  have failed : x.select p.tree candidates = .error cause := by
    rw [ExtendedSelector.select, unread]
    rfl
  rw [applySelector, failed]

theorem applyRule_of_selector {x : ExtendedSelector}
    (named : p.record.marker = engine.config.classificationAttribute)
    (elements : ∀ id ∈ ids, p.tree.isElement id = true)
    (entry : r.entryFor? engine.config engine.mode rank = some c)
    (selector : r.action.selector? = some x) :
    (applyRule engine ids rank r p).state = each (engine.selectorAct p.tree c x) ids p.state := by
  rw [applyRule, entry]
  simp only [selector, state_countError]
  cases read : x.read with
  | error cause =>
    rw [applySelector_of_unread read]
    refine (Record.each_eq_self fun id _ e _ => ?_).symm
    simp only [Engine.selectorAct, read]
  | ok q =>
    rw [(applySelector_eq_each read elements).2, named]
    refine Record.each_congr (fun id _ => ?_) _
    simp only [Engine.selectorAct, read]

/-! ## Posts -/

theorem word_beq_flaggedWord (flagged : Bool) :
    ((if flagged then flaggedWord else cleanWord) == flaggedWord) = flagged := by
  cases flagged <;> decide

theorem judge_eq {post : NodeId} (isElement : p.tree.isElement post = true) :
    ∃ p', p.judge engine post =
        .ok (((p.tree.attribute? post engine.config.aiCheckedAttribute).or
          (engine.spoken p.tree post)).map (· == flaggedWord), p') ∧
      p'.state = on (Act.leave engine.config.aiCheckedAttribute (engine.spoken p.tree post))
        post p.state ∧
      p'.report =
        { p.report with scored := p.report.scored + (engine.asks p.tree post).toNat } := by
  obtain ⟨e, here⟩ := Tree.isElement_iff.mp isElement
  have nothing {word : Option String} (same : Act.leave engine.config.aiCheckedAttribute word
      (p.record.get? post) e = Act.idle (p.record.get? post) e) :
      p.state = on (Act.leave engine.config.aiCheckedAttribute word) post p.state := by
    refine ((Record.on_congr fun e' there => ?_).trans (Record.on_idle post p.state)).symm
    cases here.symm.trans there
    exact same
  rw [judge, Engine.asks, Tree.attribute?_of_element? here]
  cases marked : e.get? engine.config.aiCheckedAttribute with
  | some word =>
    refine ⟨p, rfl, nothing ?_, rfl⟩
    simp only [Act.leave, marked]
  | none =>
    rw [Engine.spoken]
    cases engine.postText.queryFirst p.tree post with
    | none =>
      refine ⟨p, rfl, nothing ?_, rfl⟩
      simp only [Act.leave, marked, Option.map_none]
    | some body =>
      simp only [Tree.setAttribute, Tree.write_eq here, Option.map_some, Option.none_or,
        word_beq_flaggedWord]
      refine ⟨_, rfl, ?_, rfl⟩
      rw [Record.on_of_element _ here]
      simp only [Act.leave, marked, state, Record.lay_get?]

/-- A post whose text the scorer has seen is let in if it is flagged. -/
theorem on_scorer {post : NodeId} {e : Element} {s s' : State} {scored : String}
    {word : Option String} (here : s.2.element? post = some e)
    (left : s' = on (Act.leave scored word) post s) (f : Act) :
    on ((Act.leave scored word).andThen (.ifFlagged scored f)) post s =
      if (e.get? scored).or word = some flaggedWord then on f post s' else s' := by
  have element : s'.2.element? post = some (Act.leave scored word (s.1.get? post) e).2.element := by
    rw [left, Record.element?_on, if_pos rfl, here]
    rfl
  rw [Record.on_andThen, ← left]
  split
  · rename_i flagged
    refine Record.on_congr fun e' there => ?_
    cases element.symm.trans there
    rw [Act.ifFlagged, Act.get?_leave, if_pos flagged]
  · rename_i passed
    refine (Record.on_congr fun e' there => ?_).trans (Record.on_idle post s')
    cases element.symm.trans there
    rw [Act.ifFlagged, Act.get?_leave, if_neg passed]

theorem classifyEach_report (c : Classification) (ids : List NodeId) (p : Pass) :
    ∃ n, (classifyEach c ids p).2.report = { p.report with classified := n } := by
  induction ids generalizing p with
  | nil => exact ⟨_, rfl⟩
  | cons id rest ih =>
    rw [classifyEach]
    split
    · exact ⟨_, rfl⟩
    · obtain ⟨n, same⟩ := ih ⟨_, _, { p.report with classified := _ }⟩
      exact ⟨n, same⟩

/-- The first of the posts is acted on, and then it is the turn of the others. -/
theorem judgeEach_cons {post : NodeId}
    (named : p.record.marker = engine.config.classificationAttribute)
    (isElement : p.tree.isElement post = true) :
    ∃ p', (∀ rest, judgeEach engine c (post :: rest) p = judgeEach engine c rest p') ∧
      p'.state = on (engine.scorerAct p.tree c post) post p.state ∧
      p'.report.scored = p.report.scored + (engine.asks p.tree post).toNat := by
  obtain ⟨e, here⟩ := Tree.isElement_iff.mp isElement
  obtain ⟨p₁, judged, left, report⟩ : ∃ p₁, p.judge engine post = .ok (_, p₁) ∧ _ ∧ _ :=
    judge_eq isElement
  obtain ⟨sameMarker, frame₁⟩ := frame_of_on left
  have acted := on_scorer here left (.enter engine.config.classificationAttribute c)
  simp only [judgeEach, judged]
  -- whether the entry is let in is read off the word that is on the post by then
  rw [Tree.attribute?_of_element? here]
  by_cases flagged : (e.get? engine.config.aiCheckedAttribute).or (engine.spoken p.tree post) =
      some flaggedWord
  · have alone : ∀ id ∈ [post], p₁.tree.isElement id = true :=
      List.forall_mem_singleton.mpr ((frame₁.isElement post).trans isElement)
    obtain ⟨fine, same⟩ := classifyEach_eq_each (c := c) alone
    obtain ⟨classified, only⟩ := classifyEach_report c [post] p₁
    rw [if_pos flagged] at acted
    rw [sameMarker, named] at same
    simp only [flagged, Option.map_some, beq_self_eq_true, if_true]
    generalize classifyEach c [post] p₁ = done at fine same only
    obtain ⟨good, p₂⟩ := done
    obtain rfl : good = true := fine
    exact ⟨p₂, fun _ => rfl, same.trans acted.symm, (congrArg (·.scored) only).trans
      (congrArg (·.scored) report)⟩
  · have passed : ((e.get? engine.config.aiCheckedAttribute).or (engine.spoken p.tree post)).map
        (· == flaggedWord) ≠ some true := by
      intro same
      obtain ⟨word, there, equal⟩ := Option.map_eq_some_iff.mp same
      exact flagged (there.trans (congrArg some (beq_iff_eq.mp equal)))
    simp only [if_neg passed]
    rw [if_neg flagged] at acted
    exact ⟨p₁, fun _ => rfl, acted.symm, congrArg (·.scored) report⟩

/-- The scorer's posts are all dealt with. -/
theorem judgeEach_fine (named : p.record.marker = engine.config.classificationAttribute)
    (elements : ∀ id ∈ ids, p.tree.isElement id = true) : (judgeEach engine c ids p).1 = true := by
  induction ids generalizing p with
  | nil => rfl
  | cons post rest ih =>
    obtain ⟨here, later⟩ := List.forall_mem_cons.mp elements
    obtain ⟨p', first, acted, -⟩ := judgeEach_cons (c := c) named here
    obtain ⟨sameMarker, frame⟩ := frame_of_on acted
    rw [first]
    exact ih (sameMarker.trans named) fun id member => (frame.isElement id).trans (later id member)

/-! ## What acts keep -/

/-- A property of record and tree that no rule takes away when it acts on a candidate. -/
structure KeptByActs (engine : Engine) (candidates : List NodeId) (I : State → Prop) : Prop where
  selected : ∀ {r : Rule} {rank : Nat} {c : Classification} {x : ExtendedSelector},
    r.entryFor? engine.config engine.mode rank = some c → r.action.selector? = some x →
      ∀ t, ∀ id ∈ candidates, ∀ s, I s → I (on (engine.selectorAct t c x id) id s)
  scored : ∀ {r : Rule} {rank : Nat} {c : Classification},
    r.entryFor? engine.config engine.mode rank = some c → r.action.selector? = none →
      ∀ id ∈ candidates, ∀ s, I s → I (on (engine.scorerAct s.2 c id) id s)

namespace KeptByActs

variable {candidates : List NodeId} {I : State → Prop} (kept : KeptByActs engine candidates I)

include kept

theorem judgeEach (entry : r.entryFor? engine.config engine.mode rank = some c)
    (asksScorer : r.action.selector? = none)
    (named : p.record.marker = engine.config.classificationAttribute)
    (posts : ∀ id ∈ ids, id ∈ candidates ∧ p.tree.isElement id = true) (before : I p.state) :
    I (Pass.judgeEach engine c ids p).2.state := by
  induction ids generalizing p with
  | nil => exact before
  | cons post rest ih =>
    obtain ⟨⟨candidate, isElement⟩, later⟩ := List.forall_mem_cons.mp posts
    obtain ⟨p', first, acted, -⟩ := judgeEach_cons (c := c) named isElement
    obtain ⟨sameMarker, frame⟩ := frame_of_on acted
    rw [first]
    refine ih (sameMarker.trans named) (fun id member => ?_) ?_
    · exact (later id member).imp_right (frame.isElement id).trans
    · rw [acted]
      exact kept.scored entry asksScorer post candidate p.state before

variable (named : p.record.marker = engine.config.classificationAttribute)
  (elements : ∀ id ∈ candidates, p.tree.isElement id = true) (before : I p.state)

include named elements before

theorem applyRule (rank : Nat) (r : Rule) :
    I (Pass.applyRule engine candidates rank r p).state := by
  cases entry : r.entryFor? engine.config engine.mode rank with
  | none =>
    rw [Pass.applyRule, entry]
    exact before
  | some c =>
    cases selector : r.action.selector? with
    | some x =>
      rw [applyRule_of_selector named elements entry selector]
      exact Record.each_induction (fun id candidate => kept.selected entry selector _ id candidate)
        before
    | none =>
      rw [Pass.applyRule, entry]
      simp only [selector, state_countError]
      refine kept.judgeEach entry selector named (fun id member => ?_) before
      have candidate := (List.mem_filter.mp member).1
      exact ⟨candidate, elements id candidate⟩

end KeptByActs

/-- Rules go on to name themselves in the same attribute, and write to elements only. -/
theorem keptByActs_frame (engine : Engine) (candidates : List NodeId) (marker : String) (t : Tree) :
    KeptByActs engine candidates fun s => s.1.marker = marker ∧ t.SameFrame s.2 where
  selected _ _ _ id _ s before :=
    ⟨(Record.marker_on _ id s).trans before.1, before.2.trans (Record.sameFrame_on _ id s)⟩
  scored _ _ id _ s before :=
    ⟨(Record.marker_on _ id s).trans before.1, before.2.trans (Record.sameFrame_on _ id s)⟩

theorem frame_applyRule {candidates : List NodeId}
    (named : p.record.marker = engine.config.classificationAttribute)
    (elements : ∀ id ∈ candidates, p.tree.isElement id = true) (rank : Nat) (r : Rule) :
    (applyRule engine candidates rank r p).record.marker = engine.config.classificationAttribute ∧
      p.tree.SameFrame (applyRule engine candidates rank r p).tree :=
  (keptByActs_frame engine candidates _ p.tree).applyRule named elements ⟨named, .refl _⟩ rank r

theorem KeptByActs.letLook {candidates : List NodeId} {I : State → Prop}
    (kept : KeptByActs engine candidates I)
    (named : p.record.marker = engine.config.classificationAttribute)
    (elements : ∀ id ∈ candidates, p.tree.isElement id = true) (before : I p.state)
    (rules : List (Rule × Nat)) : I (Pass.letLook engine candidates rules p).state := by
  induction rules generalizing p with
  | nil => exact before
  | cons x rest ih =>
    obtain ⟨namedThen, frame⟩ := frame_applyRule named elements x.2 x.1
    exact ih namedThen (fun id member => (frame.isElement id).trans (elements id member))
      (kept.applyRule named elements before x.2 x.1)

end Pass

end NoiseFilter
