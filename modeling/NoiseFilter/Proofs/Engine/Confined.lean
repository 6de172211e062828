import NoiseFilter.Proofs.Engine.Act
import NoiseFilter.Proofs.Engine.Marks

/-!
# What a batch leaves alone

All that rules do to a page is acts on the candidates of a batch, and all that these acts write to
is `class`, `style` and the two attributes that the configuration names. `Pass.Confined` says so of
two states; it holds of each act and adds up over any number of them, so that it holds of a batch as
a whole (`processBatch_confined`). The page need not be the one that the engine has seen before, and
nothing is asked of its links.
-/

namespace NoiseFilter

open Record (Act on each)

/-- The attributes that the engine writes to, in any letters. -/
def IsMark (marker scored name : String) : Prop :=
  Text.lower name ∈ ["class", "style", Text.lower marker, Text.lower scored]

/-! ## Acts that write to marks only -/

namespace Record.Act

/-- An act shows in the marks only. -/
def MarksOnly (marker scored : String) (f : Act) : Prop :=
  ∀ n e, (f n e).2.element.name = e.name ∧
    ∀ name, ¬ IsMark marker scored name → (f n e).2.element.get? name = e.get? name

variable {marker scored : String} {f g : Act}

theorem MarksOnly.idle : MarksOnly marker scored idle := fun _ _ => ⟨rfl, fun _ _ => rfl⟩

theorem MarksOnly.andThen (first : MarksOnly marker scored f) (second : MarksOnly marker scored g) :
    MarksOnly marker scored (f.andThen g) := by
  intro n e
  obtain ⟨name₁, rest₁⟩ := first n e
  obtain ⟨name₂, rest₂⟩ := second (f n e).1 (f n e).2.element
  exact ⟨name₂.trans name₁, fun name other => (rest₂ name other).trans (rest₁ name other)⟩

theorem marksOnly_change (f : List Classification → Option (List Classification)) :
    MarksOnly marker scored (change marker f) := by
  refine fun n e => ⟨?_, fun name other => ?_⟩
  · rw [change]
    split
    · rfl
    · exact Draft.name_reconcile _ _ _
  · simp only [IsMark, List.mem_cons, List.not_mem_nil, or_false, not_or] at other
    exact get?_change_of_ne other.1 other.2.1 other.2.2.1

theorem marksOnly_leave (word : Option String) : MarksOnly marker scored (leave scored word) := by
  intro n e
  unfold leave
  split
  · refine ⟨e.name_set _ _, fun name other => (e.get?_set _ _ name).trans (if_neg fun same => ?_)⟩
    exact other (by simp [IsMark, same])
  · exact MarksOnly.idle n e

theorem MarksOnly.ifFlagged (always : MarksOnly marker scored f) (word : String) :
    MarksOnly marker scored (ifFlagged word f) := by
  intro n e
  rw [Act.ifFlagged]
  split
  · exact always n e
  · exact MarksOnly.idle n e

end Record.Act

namespace Engine

variable (engine : Engine) (t : Tree) (c : Classification)

/-- A selector does not write to the attribute for the scorer's word, whichever that is. -/
theorem marksOnly_selectorAct (scored : String) (x : ExtendedSelector) (id : NodeId) :
    Act.MarksOnly engine.config.classificationAttribute scored (engine.selectorAct t c x id) := by
  rw [selectorAct]
  split
  · exact .idle
  · split
    · exact Act.marksOnly_change _
    · exact Act.marksOnly_change _

theorem marksOnly_scorerAct (post : NodeId) :
    Act.MarksOnly engine.config.classificationAttribute engine.config.aiCheckedAttribute
      (engine.scorerAct t c post) :=
  (Act.marksOnly_leave _).andThen (.ifFlagged (Act.marksOnly_change _) _)

end Engine

/-! ## Passes -/

namespace Pass

/-- Between two states nothing was done but to write marks to candidates, and to their records. -/
structure Confined (marker scored : String) (candidates : List NodeId) (s s' : State) : Prop where
  named : s'.1.marker = s.1.marker
  frame : s.2.SameFrame s'.2
  tag? : ∀ id, s'.2.tag? id = s.2.tag? id
  attribute? : ∀ id name, ¬ IsMark marker scored name →
    s'.2.attribute? id name = s.2.attribute? id name
  elsewhere : ∀ id, id ∉ candidates → s'.2.data? id = s.2.data? id ∧ s'.1.get? id = s.1.get? id

variable {marker scored : String} {candidates : List NodeId} {s s' s'' : State}

namespace Confined

theorem refl (s : State) : Confined marker scored candidates s s :=
  ⟨rfl, .refl _, fun _ => rfl, fun _ _ _ => rfl, fun _ _ => ⟨rfl, rfl⟩⟩

theorem trans (left : Confined marker scored candidates s s')
    (right : Confined marker scored candidates s' s'') :
    Confined marker scored candidates s s'' where
  named := right.named.trans left.named
  frame := left.frame.trans right.frame
  tag? id := (right.tag? id).trans (left.tag? id)
  attribute? id name other := (right.attribute? id name other).trans (left.attribute? id name other)
  elsewhere id other :=
    ⟨(right.elsewhere id other).1.trans (left.elsewhere id other).1,
      (right.elsewhere id other).2.trans (left.elsewhere id other).2⟩

/-- An act on a candidate. -/
theorem on {id : NodeId} (candidate : id ∈ candidates) {f : Act} (marks : f.MarksOnly marker scored)
    (s : State) : Confined marker scored candidates s (Record.on f id s) := by
  cases here : s.2.element? id with
  | none =>
    rw [Record.on_of_none f here]
    exact refl s
  | some e =>
    obtain ⟨tag, attributes⟩ := marks (s.1.get? id) e
    have element (other : NodeId) : (Record.on f id s).2.element? other =
        if other = id then some (f (s.1.get? id) e).2.element else s.2.element? other := by
      rw [Record.element?_on, here]
      rfl
    refine ⟨Record.marker_on f id s, Record.sameFrame_on f id s, fun other => ?_,
      fun other name plain => ?_, fun other elsewhere => ?_⟩
    · rw [Tree.tag?, Tree.tag?, element]
      split
      · rename_i same
        rw [same, here]
        exact congrArg some tag
      · rfl
    · rw [Tree.attribute?, Tree.attribute?, element]
      split
      · rename_i same
        rw [same, here]
        exact attributes name plain
      · rfl
    · have different : other ≠ id := fun same => elsewhere (same ▸ candidate)
      rw [Record.on_of_element f here]
      exact ⟨(Tree.data?_put (Tree.isElement_iff.mpr ⟨e, here⟩) other).trans (if_neg different),
        (Record.get?_lay ..).trans (if_neg different)⟩

end Confined

variable {engine : Engine} {p : Pass}

/-- Rules write marks to candidates. -/
theorem keptByActs_confined (engine : Engine) (candidates : List NodeId) (start : State) :
    KeptByActs engine candidates (Confined engine.config.classificationAttribute
      engine.config.aiCheckedAttribute candidates start) where
  selected _ _ t _ candidate s before :=
    before.trans (.on candidate (engine.marksOnly_selectorAct t _ _ _ _) s)
  scored _ _ _ candidate s before :=
    before.trans (.on candidate (engine.marksOnly_scorerAct s.2 _ _) s)

/-- Rules with a selector leave even the attribute for the scorer's word alone. -/
theorem applyRule_confined_of_selector {r : Rule} {rank : Nat} {c : Classification}
    {x : ExtendedSelector} (named : p.record.marker = engine.config.classificationAttribute)
    (elements : ∀ id ∈ candidates, p.tree.isElement id = true)
    (entry : r.entryFor? engine.config engine.mode rank = some c)
    (selector : r.action.selector? = some x) :
    Confined engine.config.classificationAttribute engine.config.classificationAttribute candidates
      p.state (applyRule engine candidates rank r p).state := by
  rw [applyRule_of_selector named elements entry selector]
  exact Record.each_induction (fun id candidate s before =>
    before.trans (.on candidate (engine.marksOnly_selectorAct _ c _ x id) s)) (.refl _)

end Pass

/-! ## Batches -/

theorem Tree.text?_of_isElement {t : Tree} {id : NodeId} (isElement : t.isElement id = true) :
    t.text? id = none := by
  obtain ⟨e, here⟩ := Tree.isElement_iff.mp isElement
  rw [Tree.text?, Tree.data?_eq_of_element? here]
  rfl

section

variable {t : Tree} {batch : ChangeBatch} {id : NodeId}

/-- Whatever the tree, a batch looks at elements only. -/
theorem isElement_of_mem_candidates (candidate : id ∈ batch.candidates t) :
    t.isElement id = true := by
  rw [ChangeBatch.candidates] at candidate
  split at candidate
  · exact (List.mem_filter.mp candidate).2
  · obtain ⟨root, member, place⟩ := List.mem_flatMap.mp candidate
    rcases List.mem_cons.mp place with rfl | below
    · exact (mem_batchRoots.mp member).1.2.1
    · exact (List.mem_filter.mp below).2

/-- Unless it covers the whole page, a batch looks at the connected elements that it names and at
elements inside these. -/
theorem exists_added_of_mem_candidates (part : batch.navigation = false)
    (candidate : id ∈ batch.candidates t) :
    ∃ a ∈ batch.added, t.Counts a ∧ (id = a ∨ id ∈ t.descendants a) := by
  rw [ChangeBatch.candidates, part] at candidate
  obtain ⟨root, member, place⟩ := List.mem_flatMap.mp candidate
  obtain ⟨named, counts⟩ := (mem_batchRoots.mp member).1
  exact ⟨root, named, counts, (List.mem_cons.mp place).imp_right fun below =>
    (List.mem_filter.mp below).1⟩

end

namespace Engine

variable {config : Config} {catalog : Catalog} {page t₀ : Tree} {e : Engine}

/-- What a batch does is confined to its candidates, once it has forgotten what it forgets. -/
theorem Run.confined {allowed : Record → Edit → Prop} (run : Run allowed config catalog page e t₀)
    (on : e.mode ≠ .off) (t : Tree) (batch : ChangeBatch) :
    Pass.Confined config.classificationAttribute config.aiCheckedAttribute (batch.candidates t)
      ((e.prepare t batch).record, t)
      ((e.processBatch t batch).2.1.record, (e.processBatch t batch).2.2) := by
  have named : (e.prepare t batch).record.marker = e.config.classificationAttribute := by
    rw [run.config_eq, marker_prepare, run.named]
  rw [← run.config_eq]
  by_cases none : batch.candidates t = []
  · rw [processBatch_of_nil on none]
    exact .refl _
  · rw [processBatch_eq on none]
    exact (Pass.keptByActs_confined { e with record := (e.prepare t batch).record } _ _).letLook
      (p := e.firstPass t batch) named (fun _ => isElement_of_mem_candidates) (.refl _)
      e.rules.zipIdx

/-- A batch makes no node and moves none, leaves texts, tags, lists of children and all attributes
but four as they are, changes nothing outside the connected elements that it names, unless it covers
the whole page, and nothing at all while the mode is off. -/
theorem processBatch_confined (run : Run (fun _ _ => True) config catalog page e t₀) (t : Tree)
    (batch : ChangeBatch) :
    let after := (e.processBatch t batch).2
    t.SameFrame after.2 ∧
      (∀ id, after.2.children id = t.children id ∧ after.2.text? id = t.text? id ∧
        after.2.tag? id = t.tag? id) ∧
      (∀ id name,
        ¬ IsMark config.classificationAttribute config.aiCheckedAttribute name →
        after.2.attribute? id name = t.attribute? id name) ∧
      (batch.navigation = false → ∀ id,
        ¬ (t.isElement id = true ∧
          ∃ a ∈ batch.added, t.Counts a ∧ (id = a ∨ id ∈ t.descendants a)) →
        after.2.data? id = t.data? id ∧ after.1.record.get? id = e.record.get? id) ∧
      (e.mode = .off → e.processBatch t batch = ({}, e, t)) := by
  intro after
  by_cases off : e.mode = .off
  · have rests : e.processBatch t batch = ({}, e, t) := by rw [processBatch, if_pos off]
    have same : after = (e, t) := congrArg Prod.snd rests
    rw [same, rests]
    exact ⟨.refl t, fun _ => ⟨rfl, rfl, rfl⟩, fun _ _ _ => rfl, fun _ _ _ => ⟨rfl, rfl⟩,
      fun _ => rfl⟩
  have confined := run.confined off t batch
  have frame : t.SameFrame after.2 := confined.frame
  refine ⟨frame, fun id => ⟨frame.children id, ?_, confined.tag? id⟩, confined.attribute?,
    fun part id outside => ?_, fun now => absurd now off⟩
  · cases isElement : t.isElement id with
    | false => rw [Tree.text?, Tree.text?, frame.data? id isElement]
    | true => rw [Tree.text?_of_isElement isElement,
        Tree.text?_of_isElement ((frame.isElement id).trans isElement)]
  · have elsewhere : id ∉ batch.candidates t := fun candidate =>
      outside ⟨isElement_of_mem_candidates candidate, exists_added_of_mem_candidates part candidate⟩
    have whole : (e.prepare t batch).record = e.record := by simp [prepare, part]
    exact whole ▸ confined.elsewhere id elsewhere

/-- A page with two paragraphs that the rule matches. -/
def twoParagraphs : Tree :=
  [Edit.create (.element (.ofAttributes "p" [("class", "a"), ("title", "c")])),
    .append .root ⟨2⟩].foldl (fun t w => w.apply t) pageWithParagraph

/-- A batch that names the first, and a node that does not exist. -/
theorem processBatch_confined_twoParagraphs :
    let after := (paragraphEngine.processBatch twoParagraphs { added := [⟨1⟩, ⟨7⟩] }).2
    Run (fun _ _ => True) smallConfig {} .empty paragraphEngine paragraphPage ∧
      after.2.attribute? ⟨1⟩ "class" = some "a sift-dim" ∧
      after.2.attribute? ⟨1⟩ "Title" = twoParagraphs.attribute? ⟨1⟩ "Title" ∧
      after.2.data? ⟨2⟩ = twoParagraphs.data? ⟨2⟩ := by
  intro after
  have run : Run (fun _ _ => True) smallConfig {} .empty paragraphEngine paragraphPage :=
    (Run.call (.applyOptions paragraphRule) (.start ofConfig_smallConfig)).edits _
      fun _ _ => trivial
  obtain ⟨-, -, attribute?, elsewhere, -⟩ :=
    processBatch_confined run twoParagraphs { added := [⟨1⟩, ⟨7⟩] }
  have outside : ¬ (twoParagraphs.isElement ⟨2⟩ = true ∧ ∃ a ∈ [(⟨1⟩ : NodeId), ⟨7⟩],
      twoParagraphs.Counts a ∧ (⟨2⟩ = a ∨ ⟨2⟩ ∈ twoParagraphs.descendants a)) := by
    simp only [Tree.Counts]
    decide +kernel
  refine ⟨run, by decide +kernel, attribute? ⟨1⟩ "Title" (by unfold IsMark; decide +kernel), ?_⟩
  exact (elsewhere rfl ⟨2⟩ outside).1

end Engine

end NoiseFilter
