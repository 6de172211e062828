import NoiseFilter.Proofs.Engine.Explained
import NoiseFilter.Proofs.Engine.Scoring

/-!
# What carries an entry of the scorer

All that carries an entry of the scorer is flagged, however selectors are made and whatever others
do to the page, as long as they leave the scorer's words alone (`Run.flags`). But it need not be a
post. The rule that asks the scorer looks at posts only, and lets its entry in on those that are
flagged; it never drops the entry again, as a rule with a selector would. So what has been flagged
as a post and is none any more carries the entry for as long as it is part of the page
(`isSome_entryFor?_wholePage`).
-/

namespace NoiseFilter

open Record (Act on entriesOf)

/-! ## Entries of the scorer are on flagged elements -/

/-- A node carries entries of the scorer only if it is flagged. -/
structure Record.Flagged (scored : String) (n : Option NodeRecord) (e : Element) : Prop where
  ranked : Ranked (entriesOf n)
  flagged : ∀ c ∈ entriesOf n, c.kind = .ai → e.get? scored = some flaggedWord

namespace Record.Flagged

/-- Other entries are on the node afterwards; those of the scorer were there before, unless the node
is flagged anyway. -/
theorem change {scored marker : String} {n : Option NodeRecord} {e : Element}
    (flagged : Flagged scored n e) (other : ¬ IsMark marker marker scored)
    {f : List Classification → Option (List Classification)}
    (ranked : Ranked (entriesOf (Act.change marker f n e).1))
    (known : ∀ c ∈ entriesOf (Act.change marker f n e).1, c.kind = .ai →
      c ∈ entriesOf n ∨ e.get? scored = some flaggedWord) :
    Flagged scored (Act.change marker f n e).1 (Act.change marker f n e).2.element := by
  have marks : Act.MarksOnly marker marker (Act.change marker f) := Act.marksOnly_change f
  have word := (marks n e).2 scored other
  refine ⟨ranked, fun c there kind => word.trans ?_⟩
  rcases known c there kind with old | here
  · exact flagged.flagged c old kind
  · exact here

end Record.Flagged

/-- An act after which nodes carry entries of the scorer only if they are flagged. -/
def Record.Act.KeepsFlags (scored : String) (f : Act) : Prop :=
  ∀ n e, Flagged scored n e → Flagged scored (f n e).1 (f n e).2.element

namespace Engine

variable {engine : Engine} {c : Classification} (apart : engine.config.WordsApart)

include apart

theorem keepsFlags_selectorAct (kind : c.kind ≠ .ai) (t : Tree) (x : ExtendedSelector)
    (id : NodeId) :
    Act.KeepsFlags engine.config.aiCheckedAttribute (engine.selectorAct t c x id) := by
  rw [selectorAct]
  split
  · exact fun _ _ flagged => flagged
  · split
    · refine fun n e flagged => flagged.change apart.not_isMark (Act.ranked_enter flagged.ranked) ?_
      intro y there kindY
      rcases (Act.mem_enter flagged.ranked).mp there with rfl | ⟨old, -⟩
      · exact absurd kindY kind
      · exact .inl old
    · refine fun n e flagged => flagged.change apart.not_isMark (Act.ranked_drop flagged.ranked) ?_
      exact fun y there _ => .inl (Act.mem_drop.mp there).1

theorem keepsFlags_scorerAct (t : Tree) (c : Classification) (post : NodeId) :
    Act.KeepsFlags engine.config.aiCheckedAttribute (engine.scorerAct t c post) := by
  intro n e flagged
  obtain ⟨word, acted⟩ := scorerAct_cases engine t c post n e
  generalize (Act.leave engine.config.aiCheckedAttribute (engine.spoken t post) n e).2.element =
    left at word acted
  have stays : Record.Flagged engine.config.aiCheckedAttribute n left :=
    ⟨flagged.ranked, fun c there kind => by rw [word, flagged.flagged c there kind]; rfl⟩
  rcases acted with ⟨here, record, element⟩ | ⟨-, record, element⟩
  · rw [record, element]
    exact stays.change apart.not_isMark (Act.ranked_enter stays.ranked) fun _ _ _ => .inr here
  · rw [record, element]
    exact stays

end Engine

namespace Pass

/-- Entries of the scorer are on flagged elements only. -/
def Flags (scored : String) (s : State) : Prop :=
  ∀ id e, s.2.element? id = some e → Record.Flagged scored (s.1.get? id) e

theorem Flags.on {scored : String} {s : State} (flags : Flags scored s) {f : Act}
    (keeps : f.KeepsFlags scored) (id : NodeId) : Flags scored (Record.on f id s) := by
  intro other e' there
  rw [Record.element?_on] at there
  rw [Record.get?_on]
  cases here : s.2.element? id with
  | none =>
    split at there
    · rw [here] at there
      cases there
    · exact flags other e' there
  | some e =>
    simp only
    split at there
    · rename_i same
      rw [here] at there
      cases there
      rw [if_pos same]
      exact keeps _ e (flags id e here)
    · rename_i different
      rw [if_neg different]
      exact flags other e' there

theorem keptByActs_flags (engine : Engine) (apart : engine.config.WordsApart)
    (candidates : List NodeId) :
    KeptByActs engine candidates (Flags engine.config.aiCheckedAttribute) where
  selected entry selector t id _ s flags := by
    refine flags.on (Engine.keepsFlags_selectorAct apart (fun scorer => ?_) t _ id) id
    rw [Rule.kind_of_entryFor? entry, selector] at scorer
    cases scorer
  scored _ _ id _ s flags := flags.on (Engine.keepsFlags_scorerAct apart s.2 _ id) id

end Pass

namespace Engine

open Pass (Flags)

variable {config : Config} {catalog : Catalog} {page t : Tree} {e : Engine}

/-- Sweeps bring in no entries of the scorer, and do not touch its word. -/
theorem keptBySweeps_flags {marker scored : String} (other : ¬ IsMark marker marker scored) :
    KeptBySweeps (fun _ => True)
      fun s => s.1.Sound s.2 ∧ s.1.marker = marker ∧ Flags scored s where
  ranks _ _ _ := trivial
  sound _ before := before.1
  entries _ _ _ _ _ := trivial
  sweep s o sweep before _ := by
    obtain ⟨sound, rfl, flags⟩ := before
    have onElement := sweep.onElement s.2
    have soundThen := sound.apply o onElement
    refine ⟨soundThen, o.marker_apply sound.stands onElement, fun id e' there => ?_⟩
    refine ⟨soundThen.ranked id, fun c member kind => ?_⟩
    obtain ⟨e, here⟩ := Tree.isElement_iff.mp <|
      ((o.sameFrame_apply sound.stands onElement).isElement id).symm.trans
        (Tree.isElement_iff.mpr ⟨e', there⟩)
    have member : c ∈ o.after id (s.1.entriesAt id) :=
      o.entriesAt_apply sound.stands onElement id ▸ member
    obtain ⟨x, old, sameKind, -⟩ := sweep.exists_of_mem_after member
    have word := (keptByOperations_attribute? other s.2).operate o s.1 s.2 sound onElement
      ⟨rfl, fun _ => rfl⟩
    rw [← Tree.attribute?_of_element? there, word.2, Tree.attribute?_of_element? here]
    exact (flags id e here).flagged x old (sameKind.trans kind)

/-- A batch keeps entries of the scorer to flagged elements. -/
theorem flags_processBatch (apart : e.config.WordsApart)
    (named : e.record.marker = e.config.classificationAttribute)
    (sound : e.record.Sound t) (flags : Flags e.config.aiCheckedAttribute (e.record, t))
    (batch : ChangeBatch) :
    Flags e.config.aiCheckedAttribute
      ((e.processBatch t batch).2.1.record, (e.processBatch t batch).2.2) := by
  by_cases off : e.mode = .off
  · rw [processBatch, if_pos off]
    exact flags
  have prepared : Flags e.config.aiCheckedAttribute ((e.prepare t batch).record, t) :=
    fun id el here => ⟨(sound_prepare sound batch).ranked id, fun c member =>
      (flags id el here).flagged c (mem_entriesAt_of_prepare member)⟩
  by_cases none : batch.candidates t = []
  · rw [processBatch_of_nil off none]
    exact prepared
  · rw [processBatch_eq off none]
    exact (Pass.keptByActs_flags { e with record := (e.prepare t batch).record } apart _).letLook
      (p := e.firstPass t batch) ((marker_prepare ..).trans named)
      (fun _ => isElement_of_mem_candidates) prepared e.rules.zipIdx

/-- Whatever selectors see, what carries an entry of the scorer is flagged, as long as others leave
the scorer's word alone. -/
theorem Run.flags
    (run : Run (fun _ w => ∀ id, w.Keeps id config.aiCheckedAttribute) config catalog page e t)
    (apart : config.WordsApart) : Flags config.aiCheckedAttribute (e.record, t) := by
  induction run with
  | start made =>
    obtain ⟨-, -, -, record⟩ := eq_of_ofConfig made
    rw [record]
    exact fun _ _ _ => ⟨.nil, fun _ there => by cases there⟩
  | @call e t k before ih =>
    have config_eq := before.config_eq
    subst config_eq
    have entered := (keptBySweeps_flags apart.not_isMark).enter
      ⟨before.upToDate.sound, before.named, ih⟩ k fun _ _ _ => trivial
    obtain ⟨sound, named, flags⟩ := entered
    have sameConfig := k.config_enter e t
    rw [k.perform_eq]
    cases k.batch? e with
    | none => exact flags
    | some batch =>
      rw [← sameConfig] at apart named flags ⊢
      exact flags_processBatch apart named sound flags batch
  | @edit e t w before keeps ih =>
    have sound := before.upToDate.sound
    refine fun id e' there => ⟨sound.ranked id, fun c member kind => ?_⟩
    obtain ⟨n, found⟩ := Option.isSome_iff_exists.mp
      ((sound.stands.isSome_get? id).mpr (List.ne_nil_of_mem member))
    obtain ⟨old, here⟩ := Tree.isElement_iff.mp (sound.stands id n found).1
    cases (w.element?_apply here).symm.trans there
    rw [w.get?_onElement (keeps id)]
    exact (ih id old here).flagged c member kind

theorem Discreet.wordsApart {tests : List Test} {writes : Classification → Prop}
    (discreet : Discreet config tests writes) : config.WordsApart :=
  ⟨discreet.scored.1, discreet.scoredNotStyle, discreet.different.symm⟩

/-! ## The rule of the scorer -/

/-- The node carries an entry of a rule. -/
def Carries (ruleId : String) (n : Option NodeRecord) : Prop := ∃ c ∈ entriesOf n, c.ruleId = ruleId

theorem Carries.exists_get? {r : Record} {id : NodeId} {ruleId : String}
    (carries : Carries ruleId (r.get? id)) : ∃ n, r.get? id = some n := by
  obtain ⟨c, there, -⟩ := carries
  cases found : r.get? id with
  | none =>
    rw [found] at there
    cases there
  | some n => exact ⟨n, rfl⟩

theorem isSome_entryFor? {r : Record} (sound : r.Sound t) {id : NodeId} {ruleId : String} :
    (r.entryFor? id ruleId).isSome = true ↔ Carries ruleId (r.get? id) := by
  rw [Option.isSome_iff_exists]
  exact exists_congr fun c => sound.entryFor?_eq_some_iff

section

variable {engine : Engine} {start : Tree} {id : NodeId} {n : Option NodeRecord} {el : Element}
  {ruleId : String}

section

variable {rank : Nat} {r : Rule} {f : Act} (made : Deed engine start rank r id f)
  (ranked : Ranked (entriesOf n)) (own : r.id = ruleId → r.action.selector? = none)

include made ranked own

/-- An entry of the scorer is not dropped. -/
theorem Deed.carries (before : Carries ruleId n) : Carries ruleId (f n el).1 := by
  obtain ⟨c, there, same⟩ := before
  by_cases mine : r.id = ruleId
  -- the rule of the entry asks the scorer, which lets in or does nothing
  · cases made with
    | nothing => exact ⟨c, there, same⟩
    | admitted _ selector _ _ => cases (own mine).symm.trans selector
    | dropped _ selector _ _ => cases (own mine).symm.trans selector
    | @scored x entry _ _ =>
      obtain ⟨-, ⟨-, record, -⟩ | ⟨-, record, -⟩⟩ := scorerAct_cases engine start x id n el
      · refine ⟨x, ?_, (Rule.ruleId_of_entryFor? entry).trans mine⟩
        rw [record]
        exact (Act.mem_enter ranked).mpr (.inl rfl)
      · rw [record]
        exact ⟨c, there, same⟩
  · exact ⟨c, (made.mem_of_ne ranked fun equal => mine (equal.symm.trans same)).mpr there, same⟩

/-- An entry of the scorer is let in on posts only. -/
theorem Deed.carries_or_accepts (after : Carries ruleId (f n el).1) :
    Carries ruleId n ∨ engine.post.accepts start none id = true := by
  by_cases mine : r.id = ruleId
  · cases made with
    | nothing => exact .inl after
    | admitted _ selector _ _ => cases (own mine).symm.trans selector
    | dropped _ selector _ _ => cases (own mine).symm.trans selector
    | scored _ _ isPost => exact .inr isPost
  · obtain ⟨c, there, same⟩ := after
    exact .inl ⟨c, (made.mem_of_ne ranked fun equal => mine (equal.symm.trans same)).mp there, same⟩

end

variable {rules : List (Rule × Nat)} (ranked : Ranked (entriesOf n))
  (own : ∀ x ∈ rules, x.1.id = ruleId → x.1.action.selector? = none)

include ranked own

theorem carries_rulesAct (before : Carries ruleId n) :
    Carries ruleId (engine.rulesAct start rules id n el).1 := by
  induction rules generalizing n el with
  | nil => exact before
  | cons x rest ih =>
    obtain ⟨ownHere, ownLater⟩ := List.forall_mem_cons.mp own
    have made := deed engine start x.2 x.1 id
    exact ih (made.ranked ranked) ownLater (made.carries ranked ownHere before)

theorem carries_or_accepts_of_rulesAct
    (after : Carries ruleId (engine.rulesAct start rules id n el).1) :
    Carries ruleId n ∨ engine.post.accepts start none id = true := by
  induction rules generalizing n el with
  | nil => exact .inl after
  | cons x rest ih =>
    obtain ⟨ownHere, ownLater⟩ := List.forall_mem_cons.mp own
    have made := deed engine start x.2 x.1 id
    rcases ih (made.ranked ranked) ownLater after with carried | isPost
    · exact made.carries_or_accepts ranked ownHere carried
    · exact .inr isPost

end

/-- The scorer's rule is the only rule of its id. -/
theorem selector?_of_id_eq (distinct : (e.rules.map (·.id)).Nodup) {r r' : Rule} {i : Nat}
    (inForce : r ∈ e.rules) (asksScorer : r.action = .aiFlag) (there : e.rules[i]? = some r')
    (same : r'.id = r.id) : r'.action.selector? = none := by
  obtain ⟨j, here⟩ := List.mem_iff_getElem?.mp inForce
  have index := index_eq_of_id_eq distinct there here same
  cases (index ▸ there).symm.trans here
  rw [asksScorer]
  rfl

/-- What carries an entry of the scorer's rule is flagged. -/
theorem Run.attribute?_of_carries
    (run : Run (fun _ w => ∀ id, w.Keeps id config.aiCheckedAttribute) config catalog page e t)
    (apart : config.WordsApart) {r : Rule} (inForce : r ∈ e.rules) (asksScorer : r.action = .aiFlag)
    {id : NodeId} (carried : Carries r.id (e.record.get? id)) :
    t.attribute? id config.aiCheckedAttribute = some flaggedWord := by
  have upToDate := run.upToDate
  obtain ⟨n, found⟩ := carried.exists_get?
  obtain ⟨el, here⟩ := Tree.isElement_iff.mp (upToDate.sound.stands id n found).1
  obtain ⟨c, member, same⟩ := carried
  obtain ⟨r', there, entry⟩ := upToDate.written id c member
  have kind : c.kind = .ai := (Rule.kind_of_entryFor? entry).mpr <|
    selector?_of_id_eq upToDate.distinct inForce asksScorer there
      ((Rule.ruleId_of_entryFor? entry).symm.trans same)
  rw [Tree.attribute?_of_element? here]
  exact (run.flags apart id el here).flagged c member kind

section

variable {r : Rule} {batch : ChangeBatch} {id : NodeId} (on : e.mode ≠ .off)
  (upToDate : UpToDate e t) (linked : t.Linked)
  (discreet : Discreet e.config e.testsInUse e.Writes)
  (unseen : Unseen e.config.classificationAttribute e.testsInUse t
    ((e.prepare t batch).record, t))
  (inForce : r ∈ e.rules) (asksScorer : r.action = .aiFlag) (candidate : id ∈ batch.candidates t)

include on upToDate linked discreet unseen inForce asksScorer candidate

/-- A batch takes no entry of the scorer's rule away, and brings entries to posts only. -/
theorem carries_processBatch :
    let looked := (e.processBatch t batch).2.1.record.get? id
    (Carries r.id (e.record.get? id) → Carries r.id looked) ∧
      (Carries r.id looked →
        Carries r.id (e.record.get? id) ∨ e.post.accepts t none id = true) := by
  intro looked
  obtain ⟨el, here⟩ := Tree.isElement_iff.mp (isElement_of_candidate linked candidate)
  have made := (processBatch_at on discreet (fun _ there => there) linked unseen candidate here).1
  rw [get?_prepare_of_connected (isConnected_of_candidate linked candidate)] at made
  have own : ∀ x ∈ e.rules.zipIdx, x.1.id = r.id → x.1.action.selector? = none := fun x member =>
    selector?_of_id_eq upToDate.distinct inForce asksScorer (Pass.inForce_of_mem_zipIdx member)
  have ranked := upToDate.sound.ranked id
  rw [show looked = _ from made]
  exact ⟨carries_rulesAct ranked own, carries_or_accepts_of_rulesAct ranked own⟩

/-- After a batch flagged posts carry an entry of the scorer's rule. -/
theorem carries_of_isPost (isPost : e.post.accepts t none id = true)
    (flagged : (e.processBatch t batch).2.2.attribute? id e.config.aiCheckedAttribute =
      some flaggedWord) : Carries r.id ((e.processBatch t batch).2.1.record.get? id) := by
  obtain ⟨el, there, word⟩ := Option.bind_eq_some_iff.mp flagged
  obtain ⟨i, here⟩ := List.mem_iff_getElem?.mp inForce
  obtain ⟨c, entry⟩ := r.exists_entryFor? e.config on i
  have settled := settled_processBatch on upToDate.distinct linked discreet (fun _ there => there)
    unseen candidate there (r, i) (List.mem_zipIdx_iff_getElem?.mpr here)
  refine ⟨c, (settled.scored c entry (congrArg _ asksScorer) isPost).2 word, ?_⟩
  exact Rule.ruleId_of_entryFor? entry

end

/-- After a look at the whole page those flagged elements of it carry an entry of the scorer's rule
which are posts or carried the entry before. -/
theorem carries_wholePage {r : Rule} (on : e.mode ≠ .off) (upToDate : UpToDate e t)
    (linked : t.Linked) (discreet : Discreet e.config e.testsInUse e.Writes)
    (unseen : Unseen e.config.classificationAttribute e.testsInUse t
      ((e.prepare t .wholePage).record, t))
    (inForce : r ∈ e.rules) (asksScorer : r.action = .aiFlag)
    (flags : ∀ id, Carries r.id ((e.processBatch t .wholePage).2.1.record.get? id) →
      (e.processBatch t .wholePage).2.2.attribute? id e.config.aiCheckedAttribute =
        some flaggedWord) (id : NodeId) :
    let looked := (e.processBatch t .wholePage).2
    Carries r.id (looked.1.record.get? id) ↔
      t.isConnected id = true ∧
        looked.2.attribute? id e.config.aiCheckedAttribute = some flaggedWord ∧
        (e.post.accepts t none id = true ∨ Carries r.id (e.record.get? id)) := by
  intro looked
  have frame : t.SameFrame looked.2 :=
    (unseen_processBatch on discreet upToDate.sound unseen).like.frame
  have resting : Resting looked.1 looked.2 :=
    resting_processBatch on upToDate linked discreet (fun _ there => there) unseen
  -- a look at the whole page has every element of it among its candidates
  have candidate (isElement : looked.2.isElement id = true) (connected : t.isConnected id = true) :
      id ∈ t.elements :=
    linked.mem_elements.mpr ⟨(frame.isElement id).symm.trans isElement, connected⟩
  constructor
  · intro carried
    obtain ⟨n, found⟩ := carried.exists_get?
    have isElement := (resting.upToDate.sound.stands id n found).1
    have connected : t.isConnected id = true :=
      (frame.isConnected id).symm.trans (resting.connected id n found)
    have came := (carries_processBatch on upToDate linked discreet unseen inForce asksScorer
      (candidate isElement connected)).2 carried
    exact ⟨connected, flags id carried, came.symm⟩
  · rintro ⟨connected, flagged, isPost | carried⟩
    · obtain ⟨el, there, -⟩ := Option.bind_eq_some_iff.mp flagged
      exact carries_of_isPost on upToDate linked discreet unseen inForce asksScorer
        (candidate (Tree.isElement_iff.mpr ⟨el, there⟩) connected) isPost flagged
    · obtain ⟨n, found⟩ := carried.exists_get?
      have isElement := (upToDate.sound.stands id n found).1
      exact (carries_processBatch on upToDate linked discreet unseen inForce asksScorer
        (candidate ((frame.isElement id).trans isElement) connected)).1 carried

/-- What carries an entry of the scorer's rule after a look at the whole page: the flagged elements
of the page that are posts, and those that carried the entry before, posts or not. -/
theorem isSome_entryFor?_wholePage
    (run : Run (fun _ w => w.IsStructural) config catalog page e t) (linked : page.Linked)
    (on : e.mode ≠ .off) (discreet : Discreet e.config e.testsInUse e.Writes)
    (host : HostClasses e.record t) {r : Rule} (inForce : r ∈ e.rules)
    (asksScorer : r.action = .aiFlag) (id : NodeId) :
    let looked := (e.processBatch t .wholePage).2
    (looked.1.record.entryFor? id r.id).isSome = true ↔
      looked.2.isConnected id = true ∧
        looked.2.attribute? id e.config.aiCheckedAttribute = some flaggedWord ∧
        (e.post.accepts looked.2 none id = true ∨ (e.record.entryFor? id r.id).isSome = true) := by
  intro looked
  have config_eq := run.config_eq
  subst config_eq
  have upToDate := run.upToDate
  have unseen := (run.mono fun _ w structural _ _ _ =>
    ⟨structural.keeps _ _, structural.keeps _ _, structural.keeps _ _⟩).unseen_prepare discreet host
      .wholePage
  have seen := unseen_processBatch on discreet upToDate.sound unseen
  have posts : e.post.accepts looked.2 none id = e.post.accepts t none id :=
    e.post.accepts_congr seen.like (fun _ => mem_testsInUse_of_post) none id
  -- the look is itself a call of the run, so that what is true of any engine is true of this one
  have lookedRun : Run (fun _ w => ∀ id, w.Keeps id e.config.aiCheckedAttribute) e.config catalog
      page looked.1 looked.2 :=
    .call (.processBatch .wholePage) (run.mono fun _ w structural id => structural.keeps id _)
  have sameRules : looked.1.rules = e.rules := congrArg (·.rules) (processBatch_engine ..)
  have flags (id : NodeId) (carried : Carries r.id (looked.1.record.get? id)) :
      looked.2.attribute? id e.config.aiCheckedAttribute = some flaggedWord :=
    lookedRun.attribute?_of_carries discreet.wordsApart (sameRules ▸ inForce) asksScorer carried
  rw [isSome_entryFor? lookedRun.upToDate.sound, isSome_entryFor? upToDate.sound, posts,
    seen.like.frame.isConnected]
  exact carries_wholePage on upToDate (run.linked linked) discreet unseen inForce asksScorer flags
    id

/-! ## A post that is moved -/

/-- Posts are children of `u`. -/
def nestedConfig : Config := { smallConfig with postSelector := "u > a" }

def nestedEngine : Engine := (ofConfig nestedConfig {}).toOption.get (by decide +kernel)

/-- A page with a post that is flagged already. -/
def pageWithPost : Tree :=
  [Edit.create (.element (.ofAttributes "u" [])),
    .create (.element (.ofAttributes "a" [(nestedConfig.aiCheckedAttribute, flaggedWord)])),
    .append ⟨1⟩ ⟨2⟩, .append .root ⟨1⟩].foldl (fun t w => w.apply t) .empty

/-- The engine when it has seen the post. -/
def postEngine : Engine := ((Call.applyOptions scorerRule).perform nestedEngine pageWithPost).1

/-- The page when the post has been moved out of its place. -/
def pageWithoutPost : Tree :=
  (Edit.append .root ⟨2⟩).apply ((Call.applyOptions scorerRule).perform nestedEngine pageWithPost).2

theorem mem_rules_postEngine : ⟨"ai", .aiFlag⟩ ∈ postEngine.rules := by
  have rules :
      (postEngine.rules.map fun r => (r.id, r.action.selector?.isNone)) = [("ai", true)] := by
    decide +kernel
  obtain ⟨r, inForce, same⟩ := List.mem_map.mp (rules ▸ List.mem_singleton_self ("ai", true))
  obtain ⟨id, action⟩ := r
  cases action with
  | aiFlag =>
    cases same
    exact inForce
  | toggle _ => cases same
  | style _ _ _ => cases same

theorem run_pageWithoutPost :
    Run (fun _ w => w.IsStructural) nestedConfig {} pageWithPost postEngine pageWithoutPost :=
  .edit _ (.call (.applyOptions scorerRule) (.start (eq_ok_of_toOption (Option.some_get _).symm)))
    trivial

theorem linked_pageWithPost : pageWithPost.Linked := Tree.Linked.empty.edits _

theorem discreet_postEngine :
    Discreet postEngine.config postEngine.testsInUse postEngine.Writes := by
  have untested : postEngine.testsInUse = [] := by decide +kernel
  rw [untested]
  exact ⟨by decide +kernel, by decide +kernel, by decide +kernel, by decide +kernel,
    by decide +kernel, forall_writes (by decide +kernel), by simp, by simp⟩

theorem hostClasses_pageWithoutPost : HostClasses postEngine.record pageWithoutPost := by
  refine ⟨fun id e _ here => Tree.forall_element? (by decide +kernel) here, fun id n found => ?_⟩
  have recorded : ∀ x ∈ postEngine.record.nodes.entries, x.2.baseline.Parsed := by decide +kernel
  exact recorded (id, n) (postEngine.record.nodes.get?_eq_some_iff.mp found)

/-- The element that was flagged as a post still carries the entry, although it is a post no more.
-/
theorem isSome_entryFor?_wholePage_pageWithoutPost :
    let looked := (postEngine.processBatch pageWithoutPost .wholePage).2
    (looked.1.record.entryFor? ⟨2⟩ "ai").isSome = true ∧
      postEngine.post.accepts looked.2 none ⟨2⟩ = false := by
  intro looked
  have carries := isSome_entryFor?_wholePage run_pageWithoutPost linked_pageWithPost
    (by decide +kernel) discreet_postEngine hostClasses_pageWithoutPost mem_rules_postEngine rfl ⟨2⟩
  exact ⟨carries.mpr (by decide +kernel), by decide +kernel⟩

/-- Entries of the scorer's rule would follow the selector for posts, as entries of a rule with a
selector follow that. -/
def FollowsPosts (e : Engine) (t : Tree) (r : Rule) : Prop :=
  let looked := (e.processBatch t .wholePage).2
  ∀ id, (looked.1.record.entryFor? id r.id).isSome = true ↔
    looked.2.isConnected id = true ∧ e.post.accepts looked.2 none id = true ∧
      looked.2.attribute? id e.config.aiCheckedAttribute = some flaggedWord

/-- They do not: the moved element is looked at again, and its entry stays. -/
theorem not_followsPosts :
    Run (fun _ w => w.IsStructural) nestedConfig {} pageWithPost postEngine pageWithoutPost ∧
      pageWithPost.Linked ∧ postEngine.mode ≠ .off ∧
      Discreet postEngine.config postEngine.testsInUse postEngine.Writes ∧
      HostClasses postEngine.record pageWithoutPost ∧
      ∃ r ∈ postEngine.rules, r.action = .aiFlag ∧ ¬ FollowsPosts postEngine pageWithoutPost r := by
  refine ⟨run_pageWithoutPost, linked_pageWithPost, by decide +kernel, discreet_postEngine,
    hostClasses_pageWithoutPost, ⟨"ai", .aiFlag⟩, mem_rules_postEngine, rfl,
    fun follows => ?_⟩
  obtain ⟨-, isPost, -⟩ := (follows ⟨2⟩).mp (by decide +kernel)
  revert isPost
  decide +kernel

end Engine

end NoiseFilter
