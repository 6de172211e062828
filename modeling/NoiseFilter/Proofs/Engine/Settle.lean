import NoiseFilter.Proofs.Engine.Act

/-!
# Rules that have nothing left to do

A rule is settled on a node if the node holds the entry of the rule where the rule asks for it, and,
of a post, if the scorer has been asked and what it said has been followed. Each rule settles the
nodes that it acts on (`settled_ruleAct`), and rules with other ids leave it settled
(`Settled.kept`). So after a pass all rules are settled on every candidate, and a settled rule does
nothing (`Settled.ruleAct_eq`): a second pass finds nothing to do.
-/

namespace NoiseFilter.Engine

open Record (Act entriesOf)

variable {engine : Engine} {start : Tree} {rank : Nat} {r : Rule} {id : NodeId}
  {n : Option NodeRecord} {e : Element} {c : Classification}

/-! ## What a rule can do to a node -/

/-- The acts of a rule on a node, each with what makes the rule act so. -/
inductive Deed (engine : Engine) (start : Tree) (rank : Nat) (r : Rule) (id : NodeId) : Act → Prop
  | nothing : Deed engine start rank r id .idle
  | admitted {c : Classification} {x : ExtendedSelector} {q : Query}
      (entry : r.entryFor? engine.config engine.mode rank = some c)
      (selector : r.action.selector? = some x) (read : x.read = .ok q)
      (accepted : q.accepts start id = true) :
    Deed engine start rank r id (.enter engine.config.classificationAttribute c)
  | dropped {c : Classification} {x : ExtendedSelector} {q : Query}
      (entry : r.entryFor? engine.config engine.mode rank = some c)
      (selector : r.action.selector? = some x) (read : x.read = .ok q)
      (refused : q.accepts start id = false) :
    Deed engine start rank r id (.drop engine.config.classificationAttribute c.ruleId)
  | scored {c : Classification} (entry : r.entryFor? engine.config engine.mode rank = some c)
      (asksScorer : r.action.selector? = none)
      (isPost : engine.post.accepts start none id = true) :
    Deed engine start rank r id (engine.scorerAct start c id)

theorem deed (engine : Engine) (start : Tree) (rank : Nat) (r : Rule) (id : NodeId) :
    Deed engine start rank r id (engine.ruleAct start rank r id) := by
  rw [ruleAct]
  split
  · exact .nothing
  · rename_i entry selector
    rw [selectorAct]
    split
    · exact .nothing
    · rename_i read
      split
      · rename_i accepted
        exact .admitted entry selector read accepted
      · rename_i refused
        exact .dropped entry selector read (Bool.eq_false_iff.mpr refused)
  · rename_i entry selector
    split
    · rename_i isPost
      exact .scored entry selector isPost
    · exact .nothing

/-- What the scorer does to a post: the word is left there, and the entry is let in if the post is
flagged. -/
theorem scorerAct_cases (engine : Engine) (start : Tree) (c : Classification) (post : NodeId)
    (n : Option NodeRecord) (e : Element) :
    let marker := engine.config.classificationAttribute
    let scored := engine.config.aiCheckedAttribute
    let word := engine.spoken start post
    let left := (Act.leave scored word n e).2.element
    left.get? scored = (e.get? scored).or word ∧
      (left.get? scored = some flaggedWord ∧
          (engine.scorerAct start c post n e).1 = (Act.enter marker c n left).1 ∧
          (engine.scorerAct start c post n e).2.element = (Act.enter marker c n left).2.element ∨
        left.get? scored ≠ some flaggedWord ∧ (engine.scorerAct start c post n e).1 = n ∧
          (engine.scorerAct start c post n e).2.element = left) := by
  intro marker scored word left
  have record : (Act.leave scored word n e).1 = n := by
    unfold Act.leave
    split <;> rfl
  have result : engine.scorerAct start c post n e =
      (Act.leave scored word).andThen (.ifFlagged scored (.enter marker c)) n e := rfl
  refine ⟨Record.Act.get?_leave .., ?_⟩
  rw [result, Act.andThen]
  simp only [record, Act.ifFlagged]
  split
  · rename_i flagged
    exact .inl ⟨flagged, rfl, rfl⟩
  · rename_i passed
    exact .inr ⟨passed, rfl, rfl⟩

section

variable {f : Act} {tests : List Test} {writes : Classification → Prop}

theorem Deed.ranked (deed : Deed engine start rank r id f) (ranked : Ranked (entriesOf n)) :
    Ranked (entriesOf (f n e).1) := by
  cases deed with
  | nothing => exact ranked
  | admitted _ _ _ _ => exact Act.ranked_enter ranked
  | dropped _ _ _ _ => exact Act.ranked_drop ranked
  | scored _ _ _ =>
    obtain ⟨-, ⟨-, record, -⟩ | ⟨-, record, -⟩⟩ := scorerAct_cases engine start _ id n e
    · rw [record]
      exact Act.ranked_enter ranked
    · rw [record]
      exact ranked

/-- A rule leaves the entries of others alone. -/
theorem Deed.mem_of_ne (deed : Deed engine start rank r id f) (ranked : Ranked (entriesOf n))
    (other : c.ruleId ≠ r.id) : c ∈ entriesOf (f n e).1 ↔ c ∈ entriesOf n := by
  have admitted {c' : Classification} {e' : Element} {marker : String}
      (entry : r.entryFor? engine.config engine.mode rank = some c') :
      c ∈ entriesOf (Act.enter marker c' n e').1 ↔ c ∈ entriesOf n := by
    have differs : c.ruleId ≠ c'.ruleId := Rule.ruleId_of_entryFor? entry ▸ other
    rw [Act.mem_enter ranked, and_iff_left differs]
    refine or_iff_right fun same => ?_
    exact differs (congrArg (·.ruleId) same)
  cases deed with
  | nothing => exact Iff.rfl
  | admitted entry _ _ _ => exact admitted entry
  | dropped entry _ _ _ =>
    rw [Act.mem_drop, Rule.ruleId_of_entryFor? entry]
    exact and_iff_left other
  | scored entry _ _ =>
    obtain ⟨-, ⟨-, record, -⟩ | ⟨-, record, -⟩⟩ := scorerAct_cases engine start _ id n e
    · rw [record]
      exact admitted entry
    · rw [record]

/-- Marks are not written over what the scorer said. -/
theorem get?_scored_change (discreet : Discreet engine.config tests writes)
    (f : List Classification → Option (List Classification)) :
    (Act.change engine.config.classificationAttribute f n e).2.element.get?
      engine.config.aiCheckedAttribute = e.get? engine.config.aiCheckedAttribute :=
  Act.get?_change_of_ne discreet.scored.1 discreet.scoredNotStyle discreet.different.symm

/-- What the scorer said of a post stays, and is added only where the scorer is asked. -/
theorem Deed.get?_scored (deed : Deed engine start rank r id f)
    (discreet : Discreet engine.config tests writes) :
    (f n e).2.element.get? engine.config.aiCheckedAttribute =
        e.get? engine.config.aiCheckedAttribute ∨
      engine.post.accepts start none id = true ∧
        (f n e).2.element.get? engine.config.aiCheckedAttribute =
          (e.get? engine.config.aiCheckedAttribute).or (engine.spoken start id) := by
  cases deed with
  | nothing => exact .inl rfl
  | admitted _ _ _ _ => exact .inl (get?_scored_change discreet _)
  | dropped _ _ _ _ => exact .inl (get?_scored_change discreet _)
  | scored _ _ isPost =>
    obtain ⟨left, ⟨-, -, element⟩ | ⟨-, -, element⟩⟩ := scorerAct_cases engine start _ id n e
    · exact .inr ⟨isPost, element ▸ (get?_scored_change discreet _).trans left⟩
    · exact .inr ⟨isPost, element ▸ left⟩

end

/-! ## Settled rules -/

/-- A rule has nothing left to do to a node. -/
structure Settled (engine : Engine) (start : Tree) (rank : Nat) (r : Rule) (id : NodeId)
    (n : Option NodeRecord) (e : Element) : Prop where
  selected : ∀ c x q, r.entryFor? engine.config engine.mode rank = some c →
    r.action.selector? = some x → x.read = .ok q →
      if q.accepts start id = true then c ∈ entriesOf n else ∀ y ∈ entriesOf n, y.ruleId ≠ c.ruleId
  /-- The scorer has nothing to say any more, and what it said has been followed. -/
  scored : ∀ c, r.entryFor? engine.config engine.mode rank = some c →
    r.action.selector? = none → engine.post.accepts start none id = true →
      (e.get? engine.config.aiCheckedAttribute = none → engine.spoken start id = none) ∧
      (e.get? engine.config.aiCheckedAttribute = some flaggedWord → c ∈ entriesOf n)

section

variable {tests : List Test} {writes : Classification → Prop}
  (discreet : Discreet engine.config tests writes) (ranked : Ranked (entriesOf n))

include discreet ranked

/-- A rule settles the nodes that it acts on. -/
theorem settled_ruleAct :
    Settled engine start rank r id (engine.ruleAct start rank r id n e).1
      (engine.ruleAct start rank r id n e).2.element := by
  refine ⟨fun c x q entry selector read => ?_, fun c entry asksScorer isPost => ?_⟩
  · simp only [ruleAct, entry, selector, selectorAct, read]
    split
    · exact (Act.mem_enter ranked).mpr (.inl rfl)
    · exact fun y there => (Act.mem_drop.mp there).2
  · simp only [ruleAct, entry, asksScorer, isPost, if_true]
    obtain ⟨left, ⟨flagged, record, element⟩ | ⟨passed, record, element⟩⟩ :=
      scorerAct_cases engine start c id n e
    · have word := get?_scored_change discreet (n := n)
        (e := (Act.leave engine.config.aiCheckedAttribute (engine.spoken start id) n e).2.element)
        (Record.admitted c)
      rw [element, record]
      refine ⟨fun silent => ?_, fun _ => (Act.mem_enter ranked).mpr (.inl rfl)⟩
      cases (word.symm.trans silent).symm.trans flagged
    · rw [element]
      refine ⟨fun silent => ?_, fun flagged => absurd flagged passed⟩
      exact (Option.or_eq_none_iff.mp (left.symm.trans silent)).2

/-- A rule stays settled while rules with other ids act. -/
theorem Settled.kept {rank' : Nat} {r' : Rule} (settled : Settled engine start rank r id n e)
    {f : Act} (deed : Deed engine start rank' r' id f) (other : r.id ≠ r'.id) :
    Settled engine start rank r id (f n e).1 (f n e).2.element := by
  have differs {c : Classification} (entry : r.entryFor? engine.config engine.mode rank = some c) :
      c.ruleId ≠ r'.id := Rule.ruleId_of_entryFor? entry ▸ other
  refine ⟨fun c x q entry selector read => ?_, fun c entry asksScorer isPost => ?_⟩
  · have before := settled.selected c x q entry selector read
    split
    · rename_i accepted
      rw [if_pos accepted] at before
      exact (deed.mem_of_ne ranked (differs entry)).mpr before
    · rename_i refused
      rw [if_neg refused] at before
      intro y there same
      have old := (deed.mem_of_ne ranked (same ▸ differs entry)).mp there
      exact before y old same
  · obtain ⟨silent, flagged⟩ := settled.scored c entry asksScorer isPost
    have word : (f n e).2.element.get? engine.config.aiCheckedAttribute =
        e.get? engine.config.aiCheckedAttribute := by
      rcases deed.get?_scored (n := n) (e := e) discreet with same | ⟨-, said⟩
      · exact same
      · rw [said]
        cases before : e.get? engine.config.aiCheckedAttribute with
        | none => rw [silent before]; rfl
        | some word => rfl
    rw [word]
    exact ⟨silent, fun here => (deed.mem_of_ne ranked (differs entry)).mpr (flagged here)⟩

omit discreet

/-- A settled rule does nothing. -/
theorem Settled.ruleAct_eq (settled : Settled engine start rank r id n e) :
    engine.ruleAct start rank r id n e = Act.idle n e := by
  have made := deed engine start rank r id
  generalize engine.ruleAct start rank r id = f at made
  cases made with
  | nothing => rfl
  | admitted entry selector read accepted =>
    have there := settled.selected _ _ _ entry selector read
    rw [if_pos accepted] at there
    exact Act.enter_of_mem ranked there
  | dropped entry selector read refused =>
    have absent := settled.selected _ _ _ entry selector read
    rw [if_neg (Bool.eq_false_iff.mp refused)] at absent
    exact Act.drop_of_absent absent
  | scored entry asksScorer isPost =>
    obtain ⟨silent, flagged⟩ := settled.scored _ entry asksScorer isPost
    have left : Act.leave engine.config.aiCheckedAttribute (engine.spoken start id) n e =
        Act.idle n e := by
      unfold Act.leave
      split
      · rename_i word before said
        cases (silent before).symm.trans said
      · rfl
    rw [scorerAct, Act.andThen]
    simp only [left, Act.idle, Act.ifFlagged]
    split
    · rename_i here
      rw [Act.enter_of_mem ranked (flagged here)]
      rfl
    · rfl

end

/-! ## All rules -/

section

variable {tests : List Test} {writes : Classification → Prop} {rules : List (Rule × Nat)}

theorem ranked_rulesAct (ranked : Ranked (entriesOf n)) :
    Ranked (entriesOf (engine.rulesAct start rules id n e).1) := by
  induction rules generalizing n e with
  | nil => exact ranked
  | cons x rest ih => exact ih ((deed engine start x.2 x.1 id).ranked ranked)

theorem Settled.rulesAct (settled : Settled engine start rank r id n e)
    (discreet : Discreet engine.config tests writes) (ranked : Ranked (entriesOf n))
    (others : ∀ x ∈ rules, r.id ≠ x.1.id) :
    Settled engine start rank r id (engine.rulesAct start rules id n e).1
      (engine.rulesAct start rules id n e).2.element := by
  induction rules generalizing n e with
  | nil => exact settled
  | cons x rest ih =>
    obtain ⟨other, later⟩ := List.forall_mem_cons.mp others
    have made := deed engine start x.2 x.1 id
    exact ih (settled.kept discreet ranked made other) (made.ranked ranked) later

/-- When rules with different ids have acted on a node, all of them are settled there. -/
theorem settled_rulesAct (discreet : Discreet engine.config tests writes)
    (ranked : Ranked (entriesOf n)) (distinct : (rules.map (·.1.id)).Nodup) :
    ∀ x ∈ rules, Settled engine start x.2 x.1 id (engine.rulesAct start rules id n e).1
      (engine.rulesAct start rules id n e).2.element := by
  induction rules generalizing n e with
  | nil => exact fun _ member => by cases member
  | cons x rest ih =>
    obtain ⟨fresh, distinctRest⟩ := List.nodup_cons.mp distinct
    have rankedFirst := (deed engine start x.2 x.1 id).ranked (e := e) ranked
    have later := ih (e := (engine.ruleAct start x.2 x.1 id n e).2.element) rankedFirst distinctRest
    -- the first rule has settled the node, and those behind it have other ids
    refine List.forall_mem_cons.mpr ⟨?_, later⟩
    have first : Settled engine start x.2 x.1 id _ _ := settled_ruleAct (e := e) discreet ranked
    exact first.rulesAct discreet rankedFirst fun y member same =>
      fresh (List.mem_map.mpr ⟨y, member, same.symm⟩)

/-- Settled rules do nothing. -/
theorem rulesAct_of_settled (ranked : Ranked (entriesOf n))
    (settled : ∀ x ∈ rules, Settled engine start x.2 x.1 id n e) :
    engine.rulesAct start rules id n e = Act.idle n e := by
  induction rules with
  | nil => rfl
  | cons x rest ih =>
    obtain ⟨here, later⟩ := List.forall_mem_cons.mp settled
    rw [rulesAct, Act.andThen, here.ruleAct_eq ranked]
    simp only [Act.idle, Nat.zero_add]
    exact ih later

end

section

variable {tests : List Test} {writes : Classification → Prop}
  (discreet : Discreet engine.config tests writes) (ranked : Ranked (entriesOf n))
  (distinct : (engine.rules.map (·.id)).Nodup)

include discreet ranked distinct

/-- After a pass all rules are settled on the node. -/
theorem settled_passAct : ∀ x ∈ engine.rules.zipIdx,
    Settled engine start x.2 x.1 id (engine.passAct start id n e).1
      (engine.passAct start id n e).2.element := by
  have ids : engine.rules.zipIdx.map (·.1.id) = engine.rules.map (·.id) := by
    conv => rhs; rw [← List.zipIdx_map_fst 0 engine.rules, List.map_map]
    rfl
  exact settled_rulesAct discreet ranked (ids ▸ distinct)

/-- A second pass finds nothing to do. -/
theorem passAct_passAct :
    let left := engine.passAct start id n e
    engine.passAct start id left.1 left.2.element = Act.idle left.1 left.2.element :=
  rulesAct_of_settled (ranked_rulesAct ranked) (settled_passAct discreet ranked distinct)

end

end NoiseFilter.Engine
