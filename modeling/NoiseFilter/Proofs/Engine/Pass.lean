import Mathlib.Logic.Relation
import NoiseFilter.Engine.Basic
import NoiseFilter.Proofs.Record.Entries

/-!
# What a rule does to the page

When a rule looks at a batch it lets its entry in on some candidates, drops it from others, and may
leave on a post what the scorer said. `Pass.Step` is one such act, and `Steps` any number of them:
whatever holds of the record and the tree through every step holds when the rule is done
(`applyRule_steps`). No write fails on the way, since all of them are to elements.

A rule with a selector is done only when every candidate has been dealt with.
`applySelector_spec` says on which of them its entry stands then.
-/

namespace NoiseFilter

namespace Pass

open Relation

/-- The record and the tree of a pass. -/
abbrev State := Record × Tree

def state (p : Pass) : State := (p.record, p.tree)

/-- One act of a rule that writes the entry `c`, where `scored` is the attribute for what the scorer
says. -/
inductive Step (scored : String) (candidates : List NodeId) (c : Classification) :
    State → State → Prop
  | classify {r : Record} {t : Tree} {id : NodeId} (candidate : id ∈ candidates)
      (isElement : t.isElement id = true) :
    Step scored candidates c (r, t) ((Record.Operation.classify id c).apply r t)
  | unclassify {r : Record} {t : Tree} {id : NodeId} (candidate : id ∈ candidates) :
    Step scored candidates c (r, t) ((Record.Operation.unclassify id c.ruleId).apply r t)
  | judge {r : Record} {t : Tree} {id : NodeId} {e : Element} (candidate : id ∈ candidates)
      (here : t.element? id = some e) (word : String) :
    Step scored candidates c (r, t)
      (r, t.put id ⟨e.set scored word, 1⟩)

/-- Any number of acts of rules whose entries are as told. -/
abbrev Steps (scored : String) (candidates : List NodeId) (writes : Classification → Prop) :
    State → State → Prop :=
  ReflTransGen fun s s' => ∃ c, writes c ∧ Step scored candidates c s s'

variable {scored : String} {candidates : List NodeId} {c : Classification} {s s' : State}
  {writes : Classification → Prop}

theorem Step.sound (step : Step scored candidates c s s') (sound : s.1.Sound s.2) :
    s'.1.Sound s'.2 := by
  cases step with
  | classify _ isElement => exact sound.apply _ isElement
  | unclassify _ => exact sound.apply (.unclassify ..) trivial
  | judge _ here word =>
    refine ⟨fun id n found => ?_, sound.ranked⟩
    obtain ⟨isElement, filled⟩ := sound.stands id n found
    exact ⟨(Tree.isElement_put (Tree.isElement_iff.mpr ⟨_, here⟩) id).trans isElement, filled⟩

theorem Step.sameFrame (step : Step scored candidates c s s') (sound : s.1.Sound s.2) :
    s.2.SameFrame s'.2 := by
  cases step with
  | classify _ isElement => exact Record.Operation.sameFrame_apply _ sound.stands isElement
  | unclassify _ => exact Record.Operation.sameFrame_apply (.unclassify ..) sound.stands trivial
  | judge _ here word => exact .put (Tree.isElement_iff.mpr ⟨_, here⟩)

/-- A rule leaves the entries of other rules alone. -/
theorem Step.entryFor?_of_ne (step : Step scored candidates c s s') (sound : s.1.Sound s.2)
    {ruleId : String} (other : ruleId ≠ c.ruleId) (id : NodeId) :
    s'.1.entryFor? id ruleId = s.1.entryFor? id ruleId := by
  apply Option.ext
  intro x
  rw [(step.sound sound).entryFor?_eq_some_iff, sound.entryFor?_eq_some_iff]
  refine and_congr_left fun same => ?_
  have differs : x.ruleId ≠ c.ruleId := fun equal => other (same.symm.trans equal)
  cases step with
  | @classify r t here _ isElement =>
    rw [Record.Operation.entriesAt_apply (.classify ..) sound.stands isElement]
    by_cases there : id = here
    · subst there
      refine (Record.Operation.mem_after_classify (sound.ranked id)).trans ?_
      simp only [differs, ne_eq, not_false_eq_true, and_true, or_iff_right_iff_imp]
      exact fun same => absurd (congrArg (·.ruleId) same) differs
    · rw [Record.Operation.after_classify_of_ne there]
  | @unclassify r t here _ =>
    rw [Record.Operation.entriesAt_apply (.unclassify ..) sound.stands trivial]
    by_cases there : id = here
    · subst there
      exact Record.Operation.mem_after_unclassify.trans (and_iff_left differs)
    · rw [Record.Operation.after_unclassify_of_ne there]
  | judge _ _ _ => rfl

namespace Steps

theorem mono {writes' : Classification → Prop} (steps : Steps scored candidates writes s s')
    (more : ∀ c, writes c → writes' c) : Steps scored candidates writes' s s' :=
  ReflTransGen.mono (fun _ _ ⟨c, written, step⟩ => ⟨c, more c written, step⟩) _ _ steps

theorem sound (steps : Steps scored candidates writes s s') (sound : s.1.Sound s.2) :
    s'.1.Sound s'.2 := by
  induction steps with
  | refl => exact sound
  | tail _ last ih =>
    obtain ⟨c, -, step⟩ := last
    exact step.sound ih

theorem sameFrame (steps : Steps scored candidates writes s s') (sound : s.1.Sound s.2) :
    s.2.SameFrame s'.2 := by
  induction steps with
  | refl => exact .refl _
  | tail steps last ih =>
    obtain ⟨c, -, step⟩ := last
    exact ih.trans (step.sameFrame (Steps.sound steps sound))

theorem entryFor?_of_ne (steps : Steps scored candidates writes s s') (sound : s.1.Sound s.2)
    {ruleId : String} (others : ∀ c, writes c → ruleId ≠ c.ruleId) (id : NodeId) :
    s'.1.entryFor? id ruleId = s.1.entryFor? id ruleId := by
  induction steps with
  | refl => rfl
  | tail steps last ih =>
    obtain ⟨c, written, step⟩ := last
    exact (step.entryFor?_of_ne (Steps.sound steps sound) (others c written) id).trans ih

end Steps

/-! ## Elements one after the other -/

section

variable {r : Record} {t : Tree}

theorem classify_ok {id : NodeId} (isElement : t.isElement id = true) (c : Classification) :
    ∃ changed, r.classify t id c = (.ok changed, (Record.Operation.classify id c).apply r t) := by
  obtain ⟨e, here⟩ := Tree.isElement_iff.mp isElement
  rw [Record.Operation.apply, Record.classify_eq here]
  exact ⟨_, rfl⟩

theorem unclassify_ok {id : NodeId} (known : ∀ n, r.get? id = some n → t.isElement id = true)
    (ruleId : String) : ∃ changed, r.unclassify t id ruleId =
      (.ok changed, (Record.Operation.unclassify id ruleId).apply r t) := by
  rw [Record.Operation.apply]
  cases found : r.get? id with
  | none =>
    rw [Record.unclassify_of_absent found]
    exact ⟨_, rfl⟩
  | some n =>
    obtain ⟨e, here⟩ := Tree.isElement_iff.mp (known n found)
    rw [Record.unclassify_eq found here]
    exact ⟨_, rfl⟩

theorem entryFor?_classify (sound : r.Sound t) {id : NodeId} (isElement : t.isElement id = true)
    (c : Classification) (other : NodeId) :
    ((Record.Operation.classify id c).apply r t).1.entryFor? other c.ruleId =
      if other = id then some c else r.entryFor? other c.ruleId := by
  have soundAfter := sound.apply (.classify id c) isElement
  have entries :=
    Record.Operation.entriesAt_apply (.classify id c) sound.stands isElement other
  split
  · rename_i same
    subst same
    rw [soundAfter.entryFor?_eq_some_iff, entries]
    exact ⟨(Record.Operation.mem_after_classify (sound.ranked other)).mpr (.inl rfl), rfl⟩
  · rename_i elsewhere
    apply Option.ext
    intro x
    rw [soundAfter.entryFor?_eq_some_iff, sound.entryFor?_eq_some_iff, entries,
      Record.Operation.after_classify_of_ne elsewhere]

theorem entryFor?_unclassify (sound : r.Sound t) (id : NodeId) (ruleId : String) (other : NodeId) :
    ((Record.Operation.unclassify id ruleId).apply r t).1.entryFor? other ruleId =
      if other = id then none else r.entryFor? other ruleId := by
  have soundAfter := sound.apply (.unclassify id ruleId) trivial
  have entries :=
    Record.Operation.entriesAt_apply (.unclassify id ruleId) sound.stands trivial other
  apply Option.ext
  intro x
  rw [soundAfter.entryFor?_eq_some_iff, entries]
  split
  · rename_i same
    subst same
    rw [Record.Operation.mem_after_unclassify]
    exact ⟨fun both => absurd both.2 both.1.2, fun absurd => by cases absurd⟩
  · rename_i elsewhere
    rw [sound.entryFor?_eq_some_iff, Record.Operation.after_unclassify_of_ne elsewhere]

end

variable {p : Pass} {ids : List NodeId}

/-- Classifying elements gives all of them the entry. -/
theorem classifyEach_spec (scored : String) (c : Classification) (sound : p.record.Sound p.tree)
    (elements : ∀ id ∈ ids, id ∈ candidates ∧ p.tree.isElement id = true) :
    ∃ p', classifyEach c ids p = (true, p') ∧ Steps scored candidates (· = c) p.state p'.state ∧
      ∀ id, p'.record.entryFor? id c.ruleId =
        if id ∈ ids then some c else p.record.entryFor? id c.ruleId := by
  induction ids generalizing p with
  | nil => exact ⟨p, rfl, .refl, fun id => by simp⟩
  | cons id rest ih =>
    obtain ⟨candidate, isElement⟩ := elements id List.mem_cons_self
    obtain ⟨changed, done⟩ := classify_ok (r := p.record) isElement c
    have step : Step scored candidates c p.state _ := .classify candidate isElement
    have restElements : ∀ other ∈ rest, other ∈ candidates ∧
        ((Record.Operation.classify id c).apply p.record p.tree).2.isElement other = true :=
      fun other later =>
        (elements other (List.mem_cons_of_mem id later)).imp_right
          ((step.sameFrame sound).isElement other).trans
    rw [classifyEach, done]
    obtain ⟨p', finished, steps, entries⟩ := ih (p := ⟨_, _, _⟩) (step.sound sound) restElements
    refine ⟨p', finished, .head ⟨c, rfl, step⟩ steps, fun other => ?_⟩
    rw [entries, entryFor?_classify sound isElement]
    by_cases later : other ∈ rest <;> by_cases same : other = id <;> simp [later, same]

/-- Unclassifying elements takes the entry from all of them. -/
theorem unclassifyEach_spec (scored : String) (c : Classification) (sound : p.record.Sound p.tree)
    (inside : ∀ id ∈ ids, id ∈ candidates) :
    ∃ p', unclassifyEach c.ruleId ids p = (true, p') ∧
      Steps scored candidates (· = c) p.state p'.state ∧
      ∀ id, p'.record.entryFor? id c.ruleId =
        if id ∈ ids then none else p.record.entryFor? id c.ruleId := by
  induction ids generalizing p with
  | nil => exact ⟨p, rfl, .refl, fun id => by simp⟩
  | cons id rest ih =>
    have known : ∀ n, p.record.get? id = some n → p.tree.isElement id = true := fun n found =>
      (sound.stands id n found).1
    obtain ⟨changed, done⟩ := unclassify_ok known c.ruleId
    have step : Step scored candidates c p.state _ := .unclassify (inside id List.mem_cons_self)
    have restInside : ∀ other ∈ rest, other ∈ candidates := fun other later =>
      inside other (List.mem_cons_of_mem id later)
    rw [unclassifyEach, done]
    obtain ⟨p', finished, steps, entries⟩ := ih (p := ⟨_, _, _⟩) (step.sound sound) restInside
    refine ⟨p', finished, .head ⟨c, rfl, step⟩ steps, fun other => ?_⟩
    rw [entries, entryFor?_unclassify sound]
    by_cases later : other ∈ rest <;> by_cases same : other = id <;> simp [later, same]

/-! ## Rules with a selector -/

/-- What a selector accepts are elements. -/
theorem isElement_of_accepts {q : Query} {t : Tree} {id : NodeId}
    (accepted : q.accepts t id = true) : t.isElement id = true := by
  rw [Query.accepts, Selector.accepts, Bool.and_assoc, Bool.and_assoc, Bool.and_eq_true] at accepted
  exact accepted.1

/-- A rule with a selector that can be read gives its entry to exactly those candidates that the
selector accepts in the tree that the rule finds. -/
theorem applySelector_spec (scored : String) (candidates : List NodeId) (c : Classification)
    {x : ExtendedSelector} {q : Query} (read : x.read = .ok q) (sound : p.record.Sound p.tree) :
    ∃ p', applySelector x candidates c p = (true, p') ∧
      Steps scored candidates (· = c) p.state p'.state ∧
      ∀ id ∈ candidates, p'.record.entryFor? id c.ruleId =
        if q.accepts p.tree id = true then some c else none := by
  have selected : x.select p.tree candidates = .ok (candidates.filter (q.accepts p.tree)) := by
    rw [ExtendedSelector.select, read]
    rfl
  have elements : ∀ id ∈ candidates.filter (q.accepts p.tree),
      id ∈ candidates ∧ p.tree.isElement id = true := fun id member =>
    (List.mem_filter.mp member).imp_right isElement_of_accepts
  have others : ∀ id ∈ candidates.filter (!(candidates.filter (q.accepts p.tree)).contains ·),
      id ∈ candidates := fun id member => (List.mem_filter.mp member).1
  obtain ⟨p₁, classified, steps₁, entries₁⟩ := classifyEach_spec scored c sound elements
  obtain ⟨p₂, unclassified, steps₂, entries₂⟩ :=
    unclassifyEach_spec scored c (Steps.sound steps₁ sound) others
  refine ⟨p₂, ?_, steps₁.trans steps₂, fun id candidate => ?_⟩
  · rw [applySelector, selected]
    simp only [classified, unclassified, if_true]
  · rw [entries₂, entries₁]
    by_cases accepted : q.accepts p.tree id = true <;> simp [candidate, accepted]

/-! ## Rules that ask the scorer -/

section

variable {engine : Engine}

/-- What the scorer says of a post is written to the post. -/
theorem judge_steps {post : NodeId} {flagged : Option Bool} {p' : Pass}
    (candidate : post ∈ candidates) (isElement : p.tree.isElement post = true)
    (judged : p.judge engine post = .ok (flagged, p')) :
    Steps engine.config.aiCheckedAttribute candidates (· = c) p.state p'.state := by
  obtain ⟨e, here⟩ := Tree.isElement_iff.mp isElement
  rw [judge] at judged
  split at judged
  · cases judged
    exact .refl
  · split at judged
    · cases judged
      exact .refl
    · simp only [Tree.setAttribute, Tree.write_eq here] at judged
      cases judged
      exact .single ⟨c, rfl, .judge candidate here _⟩

theorem judgeEach_steps (sound : p.record.Sound p.tree)
    (elements : ∀ id ∈ ids, id ∈ candidates ∧ p.tree.isElement id = true) :
    Steps engine.config.aiCheckedAttribute candidates (· = c) p.state
      (judgeEach engine c ids p).2.state := by
  induction ids generalizing p with
  | nil => exact .refl
  | cons post rest ih =>
    obtain ⟨candidate, isElement⟩ := elements post List.mem_cons_self
    have later {p' : Pass}
        (steps : Steps engine.config.aiCheckedAttribute candidates (· = c) p.state p'.state) :
        Steps engine.config.aiCheckedAttribute candidates (· = c) p.state
          (judgeEach engine c rest p').2.state :=
      steps.trans <| ih (Steps.sound steps sound) fun other member =>
        (elements other (List.mem_cons_of_mem post member)).imp_right
          ((Steps.sameFrame steps sound).isElement other).trans
    rw [judgeEach]
    split
    · exact .refl
    · rename_i flagged p₁ judged
      have steps₁ := judge_steps (c := c) candidate isElement judged
      have elements₁ : ∀ id ∈ [post], id ∈ candidates ∧ p₁.tree.isElement id = true := by
        intro id member
        rw [List.mem_singleton.mp member]
        exact ⟨candidate, ((Steps.sameFrame steps₁ sound).isElement post).trans isElement⟩
      obtain ⟨p₂, classified, steps₂, -⟩ :=
        classifyEach_spec _ c (Steps.sound steps₁ sound) elements₁
      split
      · rw [classified]
        exact later (steps₁.trans steps₂)
      · exact later steps₁

/-! ## All rules -/

theorem state_countError (fine : Bool) (p : Pass) :
    (if fine then p else { p with report := { p.report with errors := p.report.errors + 1 } }).state =
      p.state := by
  cases fine <;> rfl

/-- A rule with a selector that can be read deals with every candidate. -/
theorem applyRule_spec (engine : Engine) (candidates : List NodeId) {rank : Nat} {r : Rule}
    {x : ExtendedSelector} {q : Query} (sound : p.record.Sound p.tree)
    (entry : r.entryFor? engine.config engine.mode rank = some c)
    (selector : r.action.selector? = some x) (read : x.read = .ok q) :
    Steps engine.config.aiCheckedAttribute candidates (· = c) p.state
        (applyRule engine candidates rank r p).state ∧
      ∀ id ∈ candidates, (applyRule engine candidates rank r p).record.entryFor? id c.ruleId =
        if q.accepts p.tree id = true then some c else none := by
  obtain ⟨p', done, steps, entries⟩ :=
    applySelector_spec engine.config.aiCheckedAttribute candidates c read sound
  have applied : applyRule engine candidates rank r p = p' := by
    rw [applyRule, entry]
    simp only [selector, done]
    rfl
  rw [applied]
  exact ⟨steps, entries⟩

/-- Whatever a rule does is done by its acts. -/
theorem applyRule_steps {rank : Nat} {r : Rule} (sound : p.record.Sound p.tree)
    (entry : r.entryFor? engine.config engine.mode rank = some c) :
    Steps engine.config.aiCheckedAttribute candidates (· = c) p.state
      (applyRule engine candidates rank r p).state := by
  cases selector : r.action.selector? with
  | some x =>
    cases read : x.read with
    | error cause =>
      have failed : x.select p.tree candidates = .error cause := by
        rw [ExtendedSelector.select, read]
        rfl
      rw [applyRule, entry]
      simp only [selector, state_countError, applySelector, failed]
      exact .refl
    | ok q => exact (applyRule_spec engine candidates sound entry selector read).1
  | none =>
    rw [applyRule, entry]
    simp only [selector, state_countError]
    refine judgeEach_steps sound fun id member => ?_
    obtain ⟨candidate, accepted⟩ := List.mem_filter.mp member
    rw [Selector.accepts, Bool.and_eq_true] at accepted
    exact ⟨candidate, accepted.1⟩

end

end Pass

namespace Engine

/-- An entry is one that a rule in force writes now. -/
def Writes (e : Engine) (c : Classification) : Prop :=
  ∃ r, e.rules[c.rank]? = some r ∧ r.entryFor? e.config e.mode c.rank = some c

/-- What the rules write can be looked through. -/
theorem forall_writes {e : Engine} {P : Classification → Prop}
    (each : ∀ x ∈ e.rules.zipIdx, ∀ c ∈ x.1.entryFor? e.config e.mode x.2, P c)
    (c : Classification) (written : e.Writes c) : P c := by
  obtain ⟨r, inForce, entry⟩ := written
  exact each (r, c.rank) (List.mem_zipIdx_iff_getElem?.mpr inForce) c entry

end Engine

namespace Rule

variable {r : Rule} {config : Config} {mode : Mode} {rank : Nat} {c : Classification}

theorem ruleId_of_entryFor? (entry : r.entryFor? config mode rank = some c) : c.ruleId = r.id := by
  obtain ⟨toggle, -, rfl⟩ := Option.map_eq_some_iff.mp entry
  split <;> rfl

theorem rank_of_entryFor? (entry : r.entryFor? config mode rank = some c) : c.rank = rank := by
  obtain ⟨toggle, -, rfl⟩ := Option.map_eq_some_iff.mp entry
  split <;> rfl

end Rule

namespace Pass

variable {engine : Engine} {candidates : List NodeId} {p : Pass}

/-- Some rules look at the candidates, in order. -/
def letLook (engine : Engine) (candidates : List NodeId) (rules : List (Rule × Nat)) (p : Pass) :
    Pass :=
  rules.foldl (fun p (r, rank) => p.applyRule engine candidates rank r) p

theorem applyRules_eq_letLook (engine : Engine) (candidates : List NodeId) (p : Pass) :
    applyRules engine candidates p = letLook engine candidates engine.rules.zipIdx p := rfl

/-- Some rules, one after the other, act with the entries that they write now. -/
theorem letLook_steps (candidates : List NodeId) {rules : List (Rule × Nat)}
    (sound : p.record.Sound p.tree) (inForce : ∀ x ∈ rules, engine.rules[x.2]? = some x.1) :
    Steps engine.config.aiCheckedAttribute candidates
      (fun c => engine.Writes c ∧ c.rank ∈ rules.map (·.2)) p.state
      (letLook engine candidates rules p).state := by
  induction rules generalizing p with
  | nil => exact .refl
  | cons x rest ih =>
    obtain ⟨r, rank⟩ := x
    have here : engine.rules[rank]? = some r := inForce (r, rank) List.mem_cons_self
    have restInForce : ∀ x ∈ rest, engine.rules[x.2]? = some x.1 := fun x later =>
      inForce x (List.mem_cons_of_mem _ later)
    have steps : Steps engine.config.aiCheckedAttribute candidates
        (fun c => engine.Writes c ∧ c.rank = rank) p.state
        (p.applyRule engine candidates rank r).state := by
      cases entry : r.entryFor? engine.config engine.mode rank with
      | none => rw [applyRule, entry]
      | some c =>
        refine (applyRule_steps sound entry).mono ?_
        rintro _ rfl
        have sameRank := Rule.rank_of_entryFor? entry
        exact ⟨⟨r, sameRank ▸ here, sameRank ▸ entry⟩, sameRank⟩
    have restSteps := ih (Steps.sound steps sound) restInForce
    refine (steps.mono ?_).trans (restSteps.mono ?_)
    · rintro c ⟨written, rfl⟩
      exact ⟨written, List.mem_cons_self⟩
    · rintro c ⟨written, later⟩
      exact ⟨written, List.mem_cons_of_mem _ later⟩

theorem inForce_of_mem_zipIdx {x : Rule × Nat} (member : x ∈ engine.rules.zipIdx) :
    engine.rules[x.2]? = some x.1 :=
  List.mem_zipIdx_iff_getElem?.mp member

theorem applyRules_steps (engine : Engine) (candidates : List NodeId) {p : Pass}
    (sound : p.record.Sound p.tree) :
    Steps engine.config.aiCheckedAttribute candidates engine.Writes p.state
      (applyRules engine candidates p).state :=
  (letLook_steps candidates sound fun _ => inForce_of_mem_zipIdx).mono fun _ => And.left

/-- Where one rule comes among the others: others act before it and behind it, and none of those
behind it writes its rank. -/
theorem applyRules_at (engine : Engine) (candidates : List NodeId) {p : Pass}
    (sound : p.record.Sound p.tree) {rank : Nat} {r : Rule}
    (inForce : engine.rules[rank]? = some r) :
    ∃ before : Pass,
      Steps engine.config.aiCheckedAttribute candidates engine.Writes p.state before.state ∧
      Steps engine.config.aiCheckedAttribute candidates
        (fun c => engine.Writes c ∧ c.rank ≠ rank)
        (applyRule engine candidates rank r before).state
        (applyRules engine candidates p).state := by
  obtain ⟨first, last, split⟩ := List.append_of_mem
    (List.mem_zipIdx_iff_getElem?.mpr inForce : (r, rank) ∈ engine.rules.zipIdx)
  have ranks : ((first ++ (r, rank) :: last).map (·.2)).Nodup := by
    rw [← split, List.zipIdx_map_snd]
    exact List.nodup_range' ..
  have fresh : rank ∉ last.map (·.2) := by
    rw [List.map_append, List.map_cons] at ranks
    exact (List.nodup_cons.mp (List.nodup_append.mp ranks).2.1).1
  have inForceAll : ∀ x ∈ first ++ (r, rank) :: last, engine.rules[x.2]? = some x.1 :=
    fun x there => inForce_of_mem_zipIdx (split ▸ there)
  obtain ⟨inForce₁, inForce₂₃⟩ := List.forall_mem_append.mp inForceAll
  obtain ⟨inForce₂, inForce₃⟩ := List.forall_mem_cons.mp inForce₂₃
  have steps₁ := letLook_steps candidates sound inForce₁
  have steps₂ := letLook_steps candidates (Steps.sound steps₁ sound)
    (List.forall_mem_singleton.mpr inForce₂)
  have steps₃ := letLook_steps candidates
    (Steps.sound steps₂ (Steps.sound steps₁ sound)) inForce₃
  refine ⟨_, steps₁.mono fun _ => And.left, ?_⟩
  rw [applyRules, split, List.foldl_append]
  exact steps₃.mono fun c written => ⟨written.1, fun same => fresh (same ▸ written.2)⟩

end Pass

end NoiseFilter
