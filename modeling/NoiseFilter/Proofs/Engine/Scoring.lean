import NoiseFilter.Proofs.Engine.Confined
import NoiseFilter.Proofs.Engine.Load
import Mathlib.Data.Set.Card

/-!
# The scorer is asked once

The scorer is asked about a post that has no word yet, and leaves a word on it. Nothing else that
the engine does writes to the attribute for this word or takes it away: not the marks of entries,
nor their being dropped when rules go, when the mode is off or when a node has left the page. So the
word is there to stay (`Judged`), the scorer is asked about no element twice, and what is reported
as scored adds up to the elements with a word that others did not give them (`scored_once`).
-/

namespace NoiseFilter

open Record (Act on)

/-! ## Words that are left on elements -/

/-- Between two trees the posts that the scorer was asked about got a word, which they did not have,
and no other words came, went or changed. -/
structure Judged (scored : String) (asked : List NodeId) (t t' : Tree) : Prop where
  distinct : asked.Nodup
  fresh : ∀ id ∈ asked, t.attribute? id scored = none
  given : ∀ id ∈ asked, (t'.attribute? id scored).isSome = true
  kept : ∀ id, id ∉ asked → t'.attribute? id scored = t.attribute? id scored

namespace Judged

variable {scored : String} {asked asked' : List NodeId} {t t' t'' : Tree}

theorem of_same (same : ∀ id, t'.attribute? id scored = t.attribute? id scored) :
    Judged scored [] t t' :=
  ⟨.nil, fun _ none => (by cases none), fun _ none => (by cases none), fun id _ => same id⟩

theorem refl (t : Tree) : Judged scored [] t t := of_same fun _ => rfl

/-- What has a word is not asked about. -/
theorem not_mem_of_isSome (judged : Judged scored asked t t') {id : NodeId}
    (worded : (t.attribute? id scored).isSome = true) : id ∉ asked := by
  intro member
  rw [judged.fresh id member] at worded
  cases worded

/-- A word stays as it is. -/
theorem stays (judged : Judged scored asked t t') {id : NodeId} {word : String}
    (here : t.attribute? id scored = some word) : t'.attribute? id scored = some word :=
  (judged.kept id (judged.not_mem_of_isSome (here ▸ rfl))).trans here

theorem trans (first : Judged scored asked t t') (second : Judged scored asked' t' t'') :
    Judged scored (asked ++ asked') t t'' := by
  have apart : ∀ id ∈ asked, id ∉ asked' := fun id member =>
    second.not_mem_of_isSome (first.given id member)
  refine ⟨List.nodup_append.mpr ⟨first.distinct, second.distinct, ?_⟩, fun id member => ?_,
    fun id member => ?_, fun id neither => ?_⟩
  · rintro id before _ behind rfl
    exact apart id before behind
  · rcases List.mem_append.mp member with before | behind
    · exact first.fresh id before
    · exact (first.kept id fun before => apart id before behind).symm.trans (second.fresh id behind)
  · rcases List.mem_append.mp member with before | behind
    · rw [second.kept id (apart id before)]
      exact first.given id before
    · exact second.given id behind
  · obtain ⟨notBefore, notBehind⟩ := not_or.mp (mt List.mem_append.mpr neither)
    exact (second.kept id notBehind).trans (first.kept id notBefore)

/-- Those who were asked about are those who got a word. -/
theorem mem_iff (judged : Judged scored asked t t') (id : NodeId) :
    id ∈ asked ↔ t.attribute? id scored = none ∧ (t'.attribute? id scored).isSome = true := by
  refine ⟨fun member => ⟨judged.fresh id member, judged.given id member⟩, fun ⟨before, after⟩ => ?_⟩
  by_contra elsewhere
  rw [judged.kept id elsewhere, before] at after
  cases after

/-- An edit that spares the words is one of both trees alike. -/
theorem edit (judged : Judged scored asked t t') (size : t'.size = t.size) {w : Edit}
    (spares : ∀ id, w.Keeps id scored) : Judged scored asked (w.apply t) (w.apply t') := by
  -- the node that the edit may create is none that was asked about
  have old : ∀ id ∈ asked, id ≠ ⟨t.size⟩ := by
    rintro id member rfl
    have worded := judged.given _ member
    rw [← size, Tree.attribute?, t'.element?_size] at worded
    cases worded
  refine ⟨judged.distinct, fun id member => ?_, fun id member => ?_, fun id elsewhere => ?_⟩
  · rw [w.attribute?_apply (spares id), if_neg (old id member)]
    exact judged.fresh id member
  · rw [w.attribute?_apply (spares id), size, if_neg (old id member)]
    exact judged.given id member
  · rw [w.attribute?_apply (spares id), w.attribute?_apply (spares id), size,
      judged.kept id elsewhere]

end Judged

/-- The attribute for the scorer's word is none of those that marks are written to. -/
structure Config.WordsApart (config : Config) : Prop where
  notClass : Text.lower config.aiCheckedAttribute ≠ "class"
  notStyle : Text.lower config.aiCheckedAttribute ≠ "style"
  notMarker : Text.lower config.aiCheckedAttribute ≠ Text.lower config.classificationAttribute

theorem Config.WordsApart.not_isMark {config : Config} (apart : config.WordsApart) :
    ¬ IsMark config.classificationAttribute config.classificationAttribute
      config.aiCheckedAttribute := by
  simp [IsMark, apart.notClass, apart.notStyle, apart.notMarker]

/-! ## Passes -/

namespace Pass

variable {engine : Engine} {candidates ids : List NodeId} {c : Classification} {p p' : Pass}

/-- The posts among some that the scorer is asked about while they are gone through. -/
def askedPosts (engine : Engine) (c : Classification) : List NodeId → Pass → List NodeId
  | [], _ => []
  | post :: rest, p =>
    (if engine.asks p.tree post then [post] else []) ++
      askedPosts engine c rest (judgeEach engine c [post] p).2

/-- The posts that the scorer is asked about while a rule looks at the candidates. -/
def askedBy (engine : Engine) (candidates : List NodeId) (rank : Nat) (r : Rule) (p : Pass) :
    List NodeId :=
  match r.entryFor? engine.config engine.mode rank, r.action.selector? with
  | some c, none => askedPosts engine c (candidates.filter (engine.post.accepts p.tree none)) p
  | _, _ => []

/-- The posts that the scorer is asked about while rules look at the candidates. -/
def askedByAll (engine : Engine) (candidates : List NodeId) : List (Rule × Nat) → Pass → List NodeId
  | [], _ => []
  | (r, rank) :: rest, p =>
    askedBy engine candidates rank r p ++
      askedByAll engine candidates rest (p.applyRule engine candidates rank r)

/-- A post is asked about if it has no word, and has one afterwards. -/
theorem judged_post (apart : engine.config.WordsApart) {post : NodeId}
    (isElement : p.tree.isElement post = true)
    (acted : p'.state = on (engine.scorerAct p.tree c post) post p.state) :
    Judged engine.config.aiCheckedAttribute (if engine.asks p.tree post then [post] else [])
      p.tree p'.tree := by
  obtain ⟨e, here⟩ := Tree.isElement_iff.mp isElement
  have tree : p'.tree = (on (engine.scorerAct p.tree c post) post p.state).2 :=
    congrArg Prod.snd acted
  have element (id : NodeId) : p'.tree.element? id =
      if id = post then some (engine.scorerAct p.tree c post (p.record.get? post) e).2.element
      else p.tree.element? id := by
    have on := Record.element?_on (engine.scorerAct p.tree c post) post id p.state
    rw [tree, on]
    exact congrArg (fun x => if id = post then x else p.tree.element? id)
      (congrArg (Option.map _) here)
  have entering : Act.MarksOnly engine.config.classificationAttribute
      engine.config.classificationAttribute (.ifFlagged engine.config.aiCheckedAttribute
        (.enter engine.config.classificationAttribute c)) := (Act.marksOnly_change _).ifFlagged _
  have word : p'.tree.attribute? post engine.config.aiCheckedAttribute =
      (p.tree.attribute? post engine.config.aiCheckedAttribute).or (engine.spoken p.tree post) := by
    rw [Tree.attribute?_of_element? ((element post).trans (if_pos rfl)),
      Tree.attribute?_of_element? here, ← Act.get?_leave _ _ (p.record.get? post)]
    exact (entering _ _).2 _ apart.not_isMark
  have elsewhere {id : NodeId} (other : id ≠ post) :
      p'.tree.attribute? id engine.config.aiCheckedAttribute =
        p.tree.attribute? id engine.config.aiCheckedAttribute := by
    rw [Tree.attribute?, Tree.attribute?, element, if_neg other]
  have said : (engine.spoken p.tree post).isSome =
      (engine.postText.queryFirst p.tree post).isSome := by
    rw [Engine.spoken, Option.isSome_map]
  by_cases asks : engine.asks p.tree post = true
  · obtain ⟨wordless, text⟩ := (Bool.and_eq_true _ _).mp asks
    have none := Option.isNone_iff_eq_none.mp wordless
    rw [if_pos asks]
    refine ⟨List.nodup_singleton post, List.forall_mem_singleton.mpr none,
      List.forall_mem_singleton.mpr ?_, fun id other => elsewhere (mt List.mem_singleton.mpr other)⟩
    rw [word, none, Option.none_or, said, text]
  · rw [if_neg asks]
    refine .of_same fun id => ?_
    by_cases same : id = post
    · subst same
      rw [word]
      cases worded : p.tree.attribute? id engine.config.aiCheckedAttribute with
      | some old => rfl
      | none =>
        have silent : (engine.postText.queryFirst p.tree id).isSome = false := by
          simpa [Engine.asks, worded] using asks
        rw [← said, Option.isSome_eq_false_iff, Option.isNone_iff_eq_none] at silent
        rw [silent]
        rfl
    · exact elsewhere same

section

variable (apart : engine.config.WordsApart)
  (named : p.record.marker = engine.config.classificationAttribute)

include apart named

theorem judgeEach_judged (elements : ∀ id ∈ ids, p.tree.isElement id = true) :
    Judged engine.config.aiCheckedAttribute (askedPosts engine c ids p) p.tree
        (judgeEach engine c ids p).2.tree ∧
      (judgeEach engine c ids p).2.report.scored =
        p.report.scored + (askedPosts engine c ids p).length := by
  induction ids generalizing p with
  | nil => exact ⟨.refl _, rfl⟩
  | cons post rest ih =>
    obtain ⟨here, later⟩ := List.forall_mem_cons.mp elements
    obtain ⟨p', first, acted, counted⟩ := judgeEach_cons (c := c) named here
    obtain ⟨sameMarker, frame⟩ := frame_of_on acted
    obtain ⟨judgedRest, countedRest⟩ := ih (sameMarker.trans named) fun id member =>
      (frame.isElement id).trans (later id member)
    have alone : judgeEach engine c [post] p = (true, p') := first []
    rw [first, askedPosts, alone]
    refine ⟨(judged_post apart here acted).trans judgedRest, ?_⟩
    rw [countedRest, counted, List.length_append, Nat.add_assoc]
    cases engine.asks p.tree post <;> rfl

end

theorem unclassifyEach_report (ruleId : String) (ids : List NodeId) (p : Pass) :
    ∃ n, (unclassifyEach ruleId ids p).2.report = { p.report with reverted := n } := by
  induction ids generalizing p with
  | nil => exact ⟨_, rfl⟩
  | cons id rest ih =>
    rw [unclassifyEach]
    split
    · exact ⟨_, rfl⟩
    · obtain ⟨n, same⟩ := ih ⟨_, _, { p.report with reverted := _ }⟩
      exact ⟨n, same⟩

/-- A selector asks nobody. -/
theorem scored_applySelector (x : ExtendedSelector) (p : Pass) :
    (applySelector x candidates c p).2.report.scored = p.report.scored := by
  rw [applySelector]
  split
  · rfl
  · rename_i matched _
    obtain ⟨n, report⟩ := classifyEach_report c matched p
    generalize classifyEach c matched p = done at report
    obtain ⟨fine, p₁⟩ := done
    have counted : p₁.report.scored = p.report.scored := congrArg (·.scored) report
    cases fine with
    | false => exact counted
    | true =>
      obtain ⟨n', report'⟩ := unclassifyEach_report c.ruleId
        (candidates.filter (!matched.contains ·)) p₁
      exact (congrArg (·.scored) report').trans counted

theorem scored_countError (fine : Bool) (p : Pass) :
    (if fine then p else
      { p with report := { p.report with errors := p.report.errors + 1 } }).report.scored =
      p.report.scored := by
  cases fine <;> rfl

section

variable (apart : engine.config.WordsApart)
  (named : p.record.marker = engine.config.classificationAttribute)
  (elements : ∀ id ∈ candidates, p.tree.isElement id = true)

include apart named elements

theorem applyRule_judged (rank : Nat) (r : Rule) :
    Judged engine.config.aiCheckedAttribute (askedBy engine candidates rank r p) p.tree
        (applyRule engine candidates rank r p).tree ∧
      (applyRule engine candidates rank r p).report.scored =
        p.report.scored + (askedBy engine candidates rank r p).length := by
  cases entry : r.entryFor? engine.config engine.mode rank with
  | none =>
    simp only [applyRule, askedBy, entry]
    exact ⟨.refl _, rfl⟩
  | some c =>
    cases selector : r.action.selector? with
    | some x =>
      have confined := applyRule_confined_of_selector named elements entry selector
      simp only [askedBy, entry, selector]
      refine ⟨.of_same fun id => confined.attribute? id _ apart.not_isMark, ?_⟩
      rw [applyRule, entry]
      simp only [selector]
      exact (scored_countError _ _).trans (scored_applySelector x p)
    | none =>
      have tree (fine : Bool) (p : Pass) : (if fine then p else { p with
          report := { p.report with errors := p.report.errors + 1 } }).tree = p.tree :=
        congrArg Prod.snd (state_countError fine p)
      simp only [applyRule, askedBy, entry, selector, scored_countError, tree]
      exact judgeEach_judged apart named fun id member => elements id (List.mem_filter.mp member).1

variable (engine) in
theorem letLook_judged (rules : List (Rule × Nat)) :
    Judged engine.config.aiCheckedAttribute (askedByAll engine candidates rules p) p.tree
        (letLook engine candidates rules p).tree ∧
      (letLook engine candidates rules p).report.scored =
        p.report.scored + (askedByAll engine candidates rules p).length := by
  induction rules generalizing p with
  | nil => exact ⟨.refl _, rfl⟩
  | cons x rest ih =>
    obtain ⟨r, rank⟩ := x
    obtain ⟨namedThen, frame⟩ := frame_applyRule named elements rank r
    obtain ⟨judged, counted⟩ := applyRule_judged apart named elements rank r
    obtain ⟨judgedRest, countedRest⟩ := ih namedThen fun id member =>
      (frame.isElement id).trans (elements id member)
    refine ⟨judged.trans judgedRest, countedRest.trans ?_⟩
    rw [counted, askedByAll, List.length_append, Nat.add_assoc]

end

end Pass

/-! ## Calls -/

namespace Engine

/-- The posts that the scorer is asked about while a batch is looked at. -/
def asked (e : Engine) (t : Tree) (batch : ChangeBatch) : List NodeId :=
  if e.mode = .off ∨ batch.candidates t = [] then []
  else Pass.askedByAll { e with record := (e.prepare t batch).record } (batch.candidates t)
    e.rules.zipIdx (e.firstPass t batch)

/-- The posts that the scorer is asked about while a call is dealt with. -/
def Call.asked (e : Engine) (t : Tree) (k : Call) : List NodeId :=
  ((k.batch? e).map (Engine.asked (k.enter e t).1 (k.enter e t).2)).getD []

variable {e : Engine} {t : Tree}

theorem processBatch_judged (apart : e.config.WordsApart)
    (named : e.record.marker = e.config.classificationAttribute) (t : Tree) (batch : ChangeBatch) :
    Judged e.config.aiCheckedAttribute (e.asked t batch) t (e.processBatch t batch).2.2 ∧
      (e.processBatch t batch).1.scored = (e.asked t batch).length := by
  rw [asked]
  split
  · rename_i nothing
    rw [report_processBatch_of_nothing nothing, tree_processBatch_of_nothing nothing]
    exact ⟨.refl t, rfl⟩
  · rename_i something
    obtain ⟨on, nonempty⟩ := not_or.mp something
    have elements : ∀ id ∈ batch.candidates t, t.isElement id = true := fun _ =>
      isElement_of_mem_candidates
    obtain ⟨judged, counted⟩ := Pass.letLook_judged { e with record := (e.prepare t batch).record }
      (p := e.firstPass t batch) apart ((marker_prepare ..).trans named) elements e.rules.zipIdx
    rw [report_processBatch on nonempty, processBatch_eq on nonempty]
    exact ⟨judged, counted.trans (Nat.zero_add _)⟩

/-- Operations on the record write to marks only. -/
theorem keptByOperations_attribute? {marker name : String} (other : ¬ IsMark marker marker name)
    (t : Tree) :
    KeptByOperations fun r t' =>
      r.marker = marker ∧ ∀ id, t'.attribute? id name = t.attribute? id name where
  operate o r t' sound onElement before := by
    obtain ⟨rfl, same⟩ := before
    refine ⟨o.marker_apply sound.stands onElement, fun id => .trans ?_ (same id)⟩
    simp only [IsMark, List.mem_cons, List.not_mem_nil, or_false, or_self, not_or] at other
    obtain ⟨notClass, notStyle, notMarker⟩ := other
    cases o.apply_at sound.stands onElement id with
    | left _ _ element => exact congrFun (Tree.attribute?_congr element) name
    | marked entries old _ here _ marked =>
      rw [Tree.attribute?_of_element? marked, Tree.attribute?_of_element? here]
      exact Draft.get?_reconcile_of_ne _ _ _ notClass notStyle notMarker

variable {config : Config} {catalog : Catalog} {page : Tree} {allowed : Record → Edit → Prop}

theorem Call.judged (run : Run allowed config catalog page e t) (apart : config.WordsApart)
    (k : Call) :
    Judged config.aiCheckedAttribute (k.asked e t) t (k.perform e t).2 ∧
      (k.report e t).scored = (k.asked e t).length := by
  have config_eq := run.config_eq
  subst config_eq
  have entered : Judged e.config.aiCheckedAttribute [] t (k.enter e t).2 :=
    .of_same (((keptByOperations_attribute? apart.not_isMark t).enter run.upToDate
      ⟨run.named, fun _ => rfl⟩ k).2)
  rw [perform_eq, scored_report, asked]
  cases k.batch? e with
  | none => exact ⟨entered, rfl⟩
  | some batch =>
    obtain ⟨judged, counted⟩ := processBatch_judged (k.config_enter e t ▸ apart) (run.named_enter k)
      (k.enter e t).2 batch
    rw [k.config_enter e t] at judged
    exact ⟨entered.trans judged, counted⟩

/-! ## Runs -/

/-- An edit that does not write to an attribute of any node. -/
def Event.Spares (name : String) : Event → Prop
  | call _ => True
  | edit w => ∀ id, w.Keeps id name

/-- The posts that the scorer is asked about during an event. -/
def Event.asked (s : Engine × Tree) : Event → List NodeId
  | call k => k.asked s.1 s.2
  | edit _ => []

/-- The number of texts that are reported as scored at an event. -/
def Event.scored (s : Engine × Tree) : Event → Nat
  | call k => (k.report s.1 s.2).scored
  | edit _ => 0

/-- The posts that the scorer is asked about during events, as often as it is asked. -/
def askedIn : List Event → Engine × Tree → List NodeId
  | [], _ => []
  | x :: rest, s => x.asked s ++ askedIn rest (x.perform s)

/-- The number of texts that are reported as scored at events. -/
def scoredIn : List Event → Engine × Tree → Nat
  | [], _ => 0
  | x :: rest, s => x.scored s + scoredIn rest (x.perform s)

/-- The page of others, where there is no engine, after an event. -/
def Event.onHost (host : Tree) : Event → Tree
  | call _ => host
  | edit w => w.apply host

/-- The page of others after events. -/
def hostPage (host : Tree) (events : List Event) : Tree := events.foldl Event.onHost host

variable {s : Engine × Tree} {host : Tree} {asked : List NodeId}

/-- What the scorer has said and what it says at an event add up. -/
theorem Event.judged (run : Run (fun _ _ => True) config catalog page s.1 s.2)
    (apart : config.WordsApart) (size : s.2.size = host.size)
    (judged : Judged config.aiCheckedAttribute asked host s.2) (x : Event)
    (spares : x.Spares config.aiCheckedAttribute) :
    (x.perform s).2.size = (x.onHost host).size ∧
      Judged config.aiCheckedAttribute (asked ++ x.asked s) (x.onHost host) (x.perform s).2 ∧
      x.scored s = (x.asked s).length := by
  cases x with
  | call k =>
    obtain ⟨judgedNow, counted⟩ := Call.judged run apart k
    exact ⟨(sameFrame_perform run.upToDate k).size.trans size, judged.trans judgedNow, counted⟩
  | edit w =>
    refine ⟨?_, (List.append_nil asked).symm ▸ judged.edit size spares, rfl⟩
    show (w.apply s.2).size = (w.apply host).size
    rw [w.size_apply, w.size_apply, size]

/-- What the scorer has said and what it says at events add up. -/
theorem judged_after (run : Run (fun _ _ => True) config catalog page s.1 s.2)
    (apart : config.WordsApart) (size : s.2.size = host.size)
    (judged : Judged config.aiCheckedAttribute asked host s.2) (events : List Event)
    (spare : ∀ x ∈ events, x.Spares config.aiCheckedAttribute) :
    Judged config.aiCheckedAttribute (asked ++ askedIn events s) (hostPage host events)
        (Event.after s events).2 ∧
      scoredIn events s = (askedIn events s).length := by
  induction events generalizing s host asked with
  | nil => exact ⟨(List.append_nil asked).symm ▸ judged, rfl⟩
  | cons x rest ih =>
    obtain ⟨spares, sparesLater⟩ := List.forall_mem_cons.mp spare
    obtain ⟨sizeThen, judgedThen, counted⟩ := Event.judged run apart size judged x spares
    obtain ⟨judgedRest, countedRest⟩ := ih (run.event x) sizeThen judgedThen sparesLater
    rw [askedIn, ← List.append_assoc]
    refine ⟨judgedRest, ?_⟩
    rw [scoredIn, counted, countedRest, List.length_append]

/-- Edits that spare the words leave them where they are. -/
theorem attribute?_hostPage {name word : String} {events : List Event}
    (spare : ∀ x ∈ events, x.Spares name) {id : NodeId}
    (here : host.attribute? id name = some word) :
    (hostPage host events).attribute? id name = some word := by
  induction events generalizing host with
  | nil => exact here
  | cons x rest ih =>
    obtain ⟨spares, sparesLater⟩ := List.forall_mem_cons.mp spare
    refine ih sparesLater ?_
    cases x with
    | call k => exact here
    | edit w =>
      have old : id ≠ ⟨host.size⟩ := by
        rintro rfl
        rw [Tree.attribute?, host.element?_size] at here
        cases here
      exact (w.attribute?_apply (spares id) host).trans ((if_neg old).trans here)

/-- The scorer is asked about no post twice; a word that it has left stays as it is, whatever comes
later; and the numbers of texts that are reported as scored add up to the number of elements that
have a word, but would not have one without the engine. -/
theorem scored_once {e : Engine} (made : ofConfig config catalog = .ok e)
    (apart : config.WordsApart) (page : Tree) (before later : List Event)
    (spare : ∀ x ∈ before ++ later, x.Spares config.aiCheckedAttribute) :
    let word (t : Tree) (id : NodeId) := t.attribute? id config.aiCheckedAttribute
    let between := (Event.after (e, page) before).2
    let whole := (Event.after (e, page) (before ++ later)).2
    let gained := { id | word (hostPage page (before ++ later)) id = none ∧ (word whole id).isSome }
    (askedIn (before ++ later) (e, page)).Nodup ∧
      (∀ id, id ∈ askedIn (before ++ later) (e, page) ↔ id ∈ gained) ∧
      (∀ id said, word between id = some said → word whole id = some said) ∧
      scoredIn (before ++ later) (e, page) = gained.ncard := by
  intro word between whole gained
  obtain ⟨judged, counted⟩ := judged_after (s := (e, page)) (.start made) apart rfl (.refl page)
    (before ++ later) spare
  rw [List.nil_append] at judged
  have gained_eq : gained = ↑(askedIn (before ++ later) (e, page)).toFinset := by
    ext id
    rw [List.coe_toFinset]
    exact (judged.mem_iff id).symm
  refine ⟨judged.distinct, judged.mem_iff, fun id said here => ?_, ?_⟩
  -- what comes later is a run of its own, on the page that it finds
  · have spareLater : ∀ x ∈ later, x.Spares config.aiCheckedAttribute := fun x member =>
      spare x (List.mem_append_right before member)
    obtain ⟨judgedLater, -⟩ := judged_after (Run.after (s := (e, page)) (.start made) before) apart
      rfl (.refl between) later spareLater
    rw [← Event.after_append] at judgedLater
    exact judgedLater.stays (attribute?_hostPage spareLater here)
  · rw [counted, gained_eq, Set.ncard_coe_finset, List.toFinset_card_of_nodup judged.distinct]

/-- The rule that asks the scorer. -/
def scorerRule : Options := { rules := .ofList [("ai", { status := .enabled })] }

/-- A post with a text is put into the page. -/
def newPost : List Event :=
  [.create (.element (.ofAttributes "a" [])), .create (.element (.ofAttributes "b" [])),
    .append ⟨1⟩ ⟨2⟩, .append .root ⟨1⟩].map .edit

/-- The scorer is asked, the mode is changed to and fro, and the post leaves the page and comes
back. -/
def toAndFro : List Event :=
  [.call (.setMode .off), .edit (.detach ⟨1⟩), .call (.setMode .normal), .edit (.append .root ⟨1⟩),
    .call (.processBatch .wholePage)]

theorem scored_once_toAndFro :
    let before := newPost ++ [.call (.applyOptions scorerRule)]
    let whole := (Event.after (smallEngine, .empty) (before ++ toAndFro)).2
    smallConfig.WordsApart ∧ (∀ x ∈ before ++ toAndFro, x.Spares smallConfig.aiCheckedAttribute) ∧
      askedIn (before ++ toAndFro) (smallEngine, .empty) = [⟨1⟩] ∧
      whole.attribute? ⟨1⟩ smallConfig.aiCheckedAttribute = some cleanWord := by
  intro before whole
  have apart : smallConfig.WordsApart := ⟨by decide, by decide, by decide⟩
  have spare : ∀ x ∈ before ++ toAndFro, x.Spares smallConfig.aiCheckedAttribute := by
    simp [before, newPost, toAndFro, Event.Spares, Edit.Keeps]
  obtain ⟨-, -, stays, -⟩ := scored_once ofConfig_smallConfig apart .empty before toAndFro spare
  refine ⟨apart, spare, by decide +kernel, stays ⟨1⟩ cleanWord ?_⟩
  decide +kernel

end Engine

end NoiseFilter
