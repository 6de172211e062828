import NoiseFilter.Proofs.Engine.Explained

/-!
# What options leave does not depend on what came before

However an engine has been called before, when options are applied it ends up as a new engine does
to which they are applied on the untouched page: with the same entries on every node, and the page
looks the same. For when options have been applied every rule is settled on every element of the
page, as the page was at first. So an entry is there if its rule asks for it on the page, and no
entry is there for another reason.
-/

namespace NoiseFilter.Engine

open Record (entriesOf ShowAlike)

/-! ## Rules that have been in force -/

/-- The rules that some options put in force. -/
def rulesOfAll (fresh : Engine) (os : List Options) : List Rule := os.flatMap fresh.rulesOf

/-- The tests of all selectors that an engine uses to which these options are applied. -/
def testsOfAll (fresh : Engine) (os : List Options) : List Test :=
  fresh.post.tests ++ fresh.postText.tests ++ (fresh.rulesOfAll os).flatMap Rule.tests

/-- An entry that a rule of these options writes in some mode, from some place. -/
def MayWrite (fresh : Engine) (os : List Options) (c : Classification) : Prop :=
  ∃ r ∈ fresh.rulesOfAll os, ∃ mode rank, r.entryFor? fresh.config mode rank = some c

/-- What rules may write can be looked through, whatever their places. -/
theorem forall_mayWrite {fresh : Engine} {os : List Options} {P : Classification → Prop}
    (ranks : ∀ c rank, P { c with rank } → P c)
    (each : ∀ r ∈ fresh.rulesOfAll os, ∀ mode ∈ [Mode.normal, .extreme],
      ∀ c ∈ r.entryFor? fresh.config mode 0, P c)
    (c : Classification) (may : fresh.MayWrite os c) : P c := by
  obtain ⟨r, known, mode, rank, entry⟩ := may
  have first := Rule.entryFor?_of_produces entry (Rule.produces_of_entryFor? entry) 0
  have on : mode ∈ [Mode.normal, .extreme] := by
    cases mode with
    | off => cases entry
    | normal => exact List.mem_cons_self
    | extreme => exact List.mem_cons_of_mem _ List.mem_cons_self
  exact ranks c 0 (each r known mode on _ first)

section

variable {fresh e : Engine} {os : List Options} (make : SameMake fresh e)
  (rules : ∀ r ∈ e.rules, r ∈ fresh.rulesOfAll os)

include make rules

theorem mayWrite_of_rules {c : Classification} (written : e.Writes c) : fresh.MayWrite os c := by
  obtain ⟨r, inForce, entry⟩ := written
  rw [make.config] at entry
  exact ⟨r, rules r (List.mem_of_getElem? inForce), e.mode, c.rank, entry⟩

theorem testsInUse_subset_of_rules : ∀ x ∈ e.testsInUse, x ∈ fresh.testsOfAll os := by
  intro x there
  rw [testsInUse, make.post, make.postText, List.mem_append] at there
  rcases there with posts | inRules
  · exact List.mem_append_left _ posts
  · obtain ⟨r, inForce, there⟩ := List.mem_flatMap.mp inRules
    exact List.mem_append_right _ (List.mem_flatMap.mpr ⟨r, rules r inForce, there⟩)

end

/-- An engine after calls that apply some of these options. -/
structure History (fresh : Engine) (os : List Options) (page : Tree) (e : Engine) (t : Tree) :
    Prop where
  make : SameMake fresh e
  rules : ∀ r ∈ e.rules, r ∈ fresh.rulesOfAll os
  upToDate : UpToDate e t
  accounted : Accounted fresh (fresh.testsOfAll os) page (e.record, t)

/-- The options that a call applies. -/
def Call.options : Call → List Options
  | applyOptions o => [o]
  | _ => []

namespace History

variable {fresh e : Engine} {os : List Options} {page t : Tree}

theorem start {config : Config} {catalog : Catalog} (made : ofConfig config catalog = .ok fresh)
    (parsed : PageParsed page) : History fresh os page fresh page := by
  obtain ⟨config_eq, -, rules, record⟩ := eq_of_ofConfig made
  refine ⟨⟨rfl, rfl, rfl, rfl⟩, by simp [rules], .start made page, .start parsed _ ?_ fun id => ?_⟩
  · rw [record, config_eq]
  · rw [record]
    rfl

section

variable (history : History fresh os page e t) (parsed : PageParsed page)
  (discreet : Discreet fresh.config (fresh.testsOfAll os) (fresh.MayWrite os))

include history parsed discreet

theorem turn {o : Options} (known : o ∈ os) :
    History fresh os page (e.turn t o).1 (e.turn t o).2 := by
  have make := history.make.turn t o
  have upToDate := history.upToDate.turn o
  have rules : ∀ r ∈ (e.turn t o).1.rules, r ∈ fresh.rulesOfAll os := by
    rw [turn_engine]
    intro r inForce
    exact List.mem_flatMap.mpr ⟨o, known, history.make.rulesOf o ▸ inForce⟩
  refine ⟨make, rules, upToDate, ?_⟩
  refine (Accounted.keptBySweeps parsed discreet).turn history.accounted o fun id c there => ?_
  have may := mayWrite_of_rules make rules (upToDate.written id c there)
  exact ⟨discreet.words c may, discreet.classes c may⟩

theorem switchMode (mode : Mode) :
    History fresh os page (e.switchMode t mode).2.1 (e.switchMode t mode).2.2 := by
  have make := history.make.switchMode t mode
  have upToDate := history.upToDate.switchMode mode
  have rules : ∀ r ∈ (e.switchMode t mode).2.1.rules, r ∈ fresh.rulesOfAll os := by
    rw [switchMode_engine]
    exact history.rules
  refine ⟨make, rules, upToDate, ?_⟩
  refine (Accounted.keptBySweeps parsed discreet).switchMode history.accounted mode
    fun id c there => ?_
  have may := mayWrite_of_rules make rules (upToDate.written id c there)
  exact ⟨discreet.words c may, discreet.classes c may⟩

variable (linked : page.Linked)
  (colors : ∀ c, fresh.MayWrite os c → ∀ color, c.color = some color → IsPlainValue color)

include linked colors

theorem processBatch (batch : ChangeBatch) :
    History fresh os page (e.processBatch t batch).2.1 (e.processBatch t batch).2.2 := by
  have make := history.make.processBatch t batch
  have upToDate := history.upToDate.processBatch batch
  have rules : ∀ r ∈ (e.processBatch t batch).2.1.rules, r ∈ fresh.rulesOfAll os := by
    rw [processBatch_engine]
    exact history.rules
  refine ⟨make, rules, upToDate, ?_⟩
  by_cases off : e.mode = .off
  · rw [Engine.processBatch, if_pos off]
    exact history.accounted
  · have may {c : Classification} (written : e.Writes c) : fresh.MayWrite os c :=
      mayWrite_of_rules history.make history.rules written
    exact history.accounted.processBatch parsed linked history.make off
      (discreet.mono fun _ written => may written)
      (testsInUse_subset_of_rules history.make history.rules)
      (fun c written => ⟨discreet.words c (may written), colors c (may written)⟩) batch

theorem perform (k : Call) (known : ∀ o ∈ k.options, o ∈ os) :
    History fresh os page (k.perform e t).1 (k.perform e t).2 := by
  cases k with
  | applyOptions o =>
    have turned := history.turn parsed discreet (known o (List.mem_singleton_self o))
    rw [Call.perform, applyOptions_eq]
    split
    · exact turned
    · exact turned.processBatch parsed discreet linked colors .wholePage
  | setMode mode =>
    have switched := history.switchMode parsed discreet mode
    rw [Call.perform, Engine.setMode]
    simp only
    split
    · exact switched.processBatch parsed discreet linked colors .wholePage
    · exact switched
  | processBatch batch => exact history.processBatch parsed discreet linked colors batch

theorem calls (ks : List Call) (known : ∀ k ∈ ks, ∀ o ∈ k.options, o ∈ os) :
    let s := ks.foldl (fun s k => k.perform s.1 s.2) (e, t)
    History fresh os page s.1 s.2 := by
  induction ks generalizing e t with
  | nil => exact history
  | cons k rest ih =>
    obtain ⟨here, later⟩ := List.forall_mem_cons.mp known
    exact ih (history.perform parsed discreet linked colors k here) later

end

end History

/-! ## When options have been applied -/

/-- An engine to which options have been applied: their rules and their mode are in force, and every
rule is settled on every element of the page, as the page was at first. -/
structure Arrived (fresh : Engine) (os : List Options) (page : Tree) (o : Options) (e : Engine)
    (t : Tree) : Prop where
  history : History fresh os page e t
  rules : e.rules = fresh.rulesOf o
  mode : e.mode = o.mode
  settled : e.mode ≠ .off → ∀ x ∈ e.rules.zipIdx, ∀ id ∈ page.elements, ∀ el,
    t.element? id = some el → Settled e page x.2 x.1 id (e.record.get? id) el

namespace History

variable {fresh e : Engine} {os : List Options} {page t : Tree}
  (history : History fresh os page e t) (parsed : PageParsed page)
  (discreet : Discreet fresh.config (fresh.testsOfAll os) (fresh.MayWrite os))
  (linked : page.Linked)

include history discreet linked

/-- A look at the whole page settles every rule, on the page as it was at first. -/
theorem settled_wholePage (on : e.mode ≠ .off) :
    let looked := (e.processBatch t .wholePage).2
    ∀ x ∈ looked.1.rules.zipIdx, ∀ id ∈ page.elements, ∀ el, looked.2.element? id = some el →
      Settled looked.1 page x.2 x.1 id (looked.1.record.get? id) el := by
  intro looked x inForce id inside el here
  have engine : looked.1 = { e with record := looked.1.record } :=
    processBatch_engine e t .wholePage
  have frame := history.accounted.unseen.like.frame
  have unseen := history.accounted.unseen_prepare history.make .wholePage
  have discreetNow : Discreet e.config (fresh.testsOfAll os) e.Writes :=
    history.make.config ▸ discreet.mono fun _ => mayWrite_of_rules history.make history.rules
  have candidate : id ∈ ChangeBatch.wholePage.candidates t := by
    show id ∈ t.elements
    rwa [frame.elements]
  have rules : looked.1.rules = e.rules := by rw [engine]
  have settled := settled_processBatch on history.upToDate.distinct (linked.of_sameFrame frame)
    discreetNow (testsInUse_subset_of_rules history.make history.rules) unseen candidate here x
    (rules ▸ inForce)
  rw [engine]
  exact settled.record _

include parsed

/-- To apply options arrives where they lead. -/
theorem applyOptions
    (colors : ∀ c, fresh.MayWrite os c → ∀ color, c.color = some color → IsPlainValue color)
    {o : Options} (known : o ∈ os) :
    Arrived fresh os page o (e.applyOptions t o).2.1 (e.applyOptions t o).2.2 := by
  have engine := applyOptions_engine e t o
  have after := history.perform parsed discreet linked colors (.applyOptions o)
    (List.forall_mem_singleton.mpr known)
  refine ⟨after, ?_, by rw [engine], fun on => ?_⟩
  · rw [engine]
    exact history.make.rulesOf o
  · have turned := history.turn parsed discreet known
    have mode : (e.turn t o).1.mode = o.mode := by rw [turn_engine]
    have on : o.mode ≠ .off := by rwa [engine] at on
    rw [applyOptions_eq, if_neg on]
    exact turned.settled_wholePage discreet linked (mode ▸ on)

end History

/-- A rule asks for its entry on an element of the page. -/
inductive Asks (fresh : Engine) (page : Tree) (id : NodeId) (given : Element) (r : Rule) : Prop
  | selector {x : ExtendedSelector} {q : Query} (selector : r.action.selector? = some x)
      (read : x.read = .ok q) (accepted : q.accepts page id = true)
  | scorer (asksScorer : r.action.selector? = none)
      (isPost : fresh.post.accepts page none id = true)
      (flagged : fresh.verdict page id given = some flaggedWord)

/-- An entry is due on an element of the page if the rule in its place writes it and asks for it. -/
structure Due (fresh : Engine) (page : Tree) (o : Options) (id : NodeId) (c : Classification) :
    Prop where
  inside : id ∈ page.elements
  asked : ∃ given r, page.element? id = some given ∧ (fresh.rulesOf o)[c.rank]? = some r ∧
    r.entryFor? fresh.config o.mode c.rank = some c ∧ Asks fresh page id given r

namespace Arrived

variable {fresh e e' : Engine} {os : List Options} {page t t' : Tree} {o : Options}
  {id : NodeId} {c : Classification} (arrived : Arrived fresh os page o e t)

include arrived

theorem due_of_mem (linked : page.Linked)
    (evaluates : ∀ r ∈ fresh.rulesOf o, ∀ x, r.action.selector? = some x → ∃ q, x.read = .ok q)
    (there : c ∈ e.record.entriesAt id) : Due fresh page o id c := by
  obtain ⟨⟨make, -, upToDate, accounted⟩, rules, mode, settled⟩ := arrived
  obtain ⟨r, inForce, entry⟩ := upToDate.written id c there
  have recorded : e.record.get? id ≠ none := fun absent => by
    rw [Record.entriesAt, absent] at there
    cases there
  obtain ⟨n, found⟩ := Option.ne_none_iff_exists'.mp recorded
  obtain ⟨el, here⟩ := Tree.isElement_iff.mp (upToDate.sound.stands id n found).1
  obtain ⟨given, before, explained⟩ := accounted.exists_given here
  have inside : id ∈ page.elements :=
    linked.mem_elements.mpr ⟨Tree.isElement_iff.mpr ⟨given, before⟩, explained.connected recorded⟩
  refine ⟨inside, given, r, before, rules ▸ inForce, by rwa [← mode, ← make.config], ?_⟩
  cases selector : r.action.selector? with
  | some x =>
    -- a rule whose selector cannot be read leaves old entries where they are
    obtain ⟨q, read⟩ := evaluates r (rules ▸ List.mem_of_getElem? inForce) x selector
    have on : e.mode ≠ .off := fun off => by
      rw [off] at entry
      cases entry
    have known := (settled on (r, c.rank) (List.mem_zipIdx_iff_getElem?.mpr inForce) id inside el
      here).selected c x q entry selector read
    split at known
    · rename_i accepted
      exact .selector selector read accepted
    · exact absurd rfl (known c there)
  | none =>
    obtain ⟨isPost, flagged⟩ :=
      explained.flagged c there ((Rule.kind_of_entryFor? entry).mpr selector)
    exact .scorer selector isPost flagged

theorem mem_of_due (due : Due fresh page o id c) : c ∈ e.record.entriesAt id := by
  obtain ⟨⟨make, -, -, accounted⟩, rules, mode, settled⟩ := arrived
  obtain ⟨inside, given, r, before, inForce, entry, asks⟩ := due
  obtain ⟨el, here⟩ := Tree.isElement_iff.mp <|
    (accounted.unseen.like.frame.isElement id).trans (Tree.isElement_iff.mpr ⟨given, before⟩)
  have explained := accounted.nodes id given el before here
  rw [← rules] at inForce
  rw [← mode, ← make.config] at entry
  have on : e.mode ≠ .off := fun off => by
    rw [off] at entry
    cases entry
  have settled := settled on (r, c.rank) (List.mem_zipIdx_iff_getElem?.mpr inForce) id inside el
    here
  cases asks with
  | selector selector read accepted =>
    have known := settled.selected c _ _ entry selector read
    rwa [if_pos accepted] at known
  | scorer asksScorer isPost flagged =>
    obtain ⟨silent, followed⟩ := settled.scored c entry asksScorer (make.post ▸ isPost)
    refine followed ?_
    rw [make.spoken] at silent
    have said := explained.verdict.trans flagged
    rw [make.config] at silent ⊢
    cases word : el.get? fresh.config.aiCheckedAttribute with
    | some _ => rwa [word] at said
    | none =>
      rw [word, silent word] at said
      cases said

end Arrived

section

variable {fresh e e' : Engine} {os : List Options} {page t t' : Tree} {o : Options}
  (arrived : Arrived fresh os page o e t) (arrived' : Arrived fresh os page o e' t')
  (linked : page.Linked)
  (evaluates : ∀ r ∈ fresh.rulesOf o, ∀ x, r.action.selector? = some x → ∃ q, x.read = .ok q)

include arrived arrived' linked evaluates

/-- Two engines that have arrived where the same options lead hold the same entries. -/
theorem Arrived.entriesAt_eq (id : NodeId) : e.record.entriesAt id = e'.record.entriesAt id := by
  have sound := arrived.history.upToDate.sound.ranked id
  have sound' := arrived'.history.upToDate.sound.ranked id
  have same : (e.record.entriesAt id).Perm (e'.record.entriesAt id) := by
    refine (List.perm_ext_iff_of_nodup sound.distinct.of_map sound'.distinct.of_map).mpr fun c => ?_
    exact ⟨fun there => arrived'.mem_of_due (arrived.due_of_mem linked evaluates there),
      fun there => arrived.mem_of_due (arrived'.due_of_mem linked evaluates there)⟩
  -- both lists go by rank, and at one rank there is one entry
  refine same.eq_of_pairwise (fun c c' there there' below above => ?_) sound.ascending
    sound'.ascending
  have written := arrived.history.upToDate.written id
  exact (written c there).eq_of_rank_eq (written c' (same.mem_iff.mpr there'))
    (Nat.le_antisymm below above)

/-- On their trees the same elements stand, and show alike. -/
theorem Arrived.alike (parsed : PageParsed page) (id : NodeId) :
    Option.Rel (ShowAlike fresh.config.classificationAttribute) (t.element? id)
      (t'.element? id) := by
  have isElement := arrived.history.accounted.unseen.like.frame.isElement id
  have isElement' := arrived'.history.accounted.unseen.like.frame.isElement id
  cases here : t.element? id with
  | none =>
    have absent : t.isElement id = false := by rw [Tree.isElement, here]; rfl
    have absent' : t'.isElement id = false := isElement'.trans (isElement.symm.trans absent)
    cases here' : t'.element? id with
    | none => exact .none
    | some e' => cases absent'.symm.trans (Tree.isElement_iff.mpr ⟨e', here'⟩)
  | some el =>
    obtain ⟨given, before, explained⟩ := arrived.history.accounted.exists_given here
    obtain ⟨el', here'⟩ := Tree.isElement_iff.mp
      (isElement'.trans (Tree.isElement_iff.mpr ⟨given, before⟩))
    have explained' := arrived'.history.accounted.nodes id given el' before here'
    have entries := arrived.entriesAt_eq arrived' linked evaluates id
    have recorded : (e.record.get? id).isSome = (e'.record.get? id).isSome := by
      rw [Bool.eq_iff_iff, arrived.history.upToDate.sound.stands.isSome_get?,
        arrived'.history.upToDate.sound.stands.isSome_get?, entries]
    rw [here']
    exact .some (explained.worn.alike explained'.worn (parsed.classes id given before)
      (parsed.styles id given before) recorded entries)

end

/-! ## Two engines, one with a past -/

/-- Another rule for paragraphs, with a class and a colour, where what it marks is hidden. -/
def colorRule : Options :=
  { mode := .extreme
    rules := .ofList [("q",
      { status := .enabled, selector := some "p", cls := some "odd", color := some "red" })] }

theorem discreet_colorRule :
    Discreet smallConfig (smallEngine.testsOfAll [colorRule, paragraphRule])
      (smallEngine.MayWrite [colorRule, paragraphRule]) := by
  have tests : smallEngine.testsOfAll [colorRule, paragraphRule] =
      [.cls "a", .attribute "title"] := by decide +kernel
  rw [tests]
  refine ⟨by decide +kernel, by decide +kernel, by decide +kernel, by decide +kernel,
    by decide +kernel, forall_mayWrite (fun _ _ => id) (by decide +kernel),
    forall_mayWrite (fun _ _ => id) (by decide +kernel), fun a tested => ?_⟩
  have title : a = "title" := by simpa using tested
  rw [title]
  decide +kernel

/-- Whatever calls have come before, options that are applied lead where they lead a new engine on
the untouched page: to the same mode, the same rules and the same entries on every node, and every
element shows alike. -/
theorem applyOptions_of_history {config : Config} {catalog : Catalog} {fresh : Engine} {page : Tree}
    (made : ofConfig config catalog = .ok fresh) (linked : page.Linked) (parsed : PageParsed page)
    (calls : List Call) (o : Options)
    (evaluates : ∀ r ∈ fresh.rulesOf o, ∀ x, r.action.selector? = some x → ∃ q, x.read = .ok q)
    (discreet : let os := calls.flatMap Call.options ++ [o]
      Discreet config (fresh.testsOfAll os) (fresh.MayWrite os))
    (colors : ∀ c, fresh.MayWrite (calls.flatMap Call.options ++ [o]) c →
      ∀ color, c.color = some color → IsPlainValue color) :
    let s := calls.foldl (fun s k => k.perform s.1 s.2) (fresh, page)
    let old := (s.1.applyOptions s.2 o).2
    let new := (fresh.applyOptions page o).2
    old.1.mode = new.1.mode ∧ old.1.rules = new.1.rules ∧
      (∀ id, old.1.record.entriesAt id = new.1.record.entriesAt id) ∧
      ∀ id, Option.Rel (ShowAlike config.classificationAttribute) (old.2.element? id)
        (new.2.element? id) := by
  intro s old new
  obtain ⟨sameConfig, -⟩ := eq_of_ofConfig made
  rw [← sameConfig] at discreet ⊢
  have known : o ∈ calls.flatMap Call.options ++ [o] := by simp
  have start : History fresh (calls.flatMap Call.options ++ [o]) page fresh page :=
    .start made parsed
  have history : History fresh _ page s.1 s.2 := start.calls parsed discreet linked colors calls
    fun k called o applied => List.mem_append_left _ (List.mem_flatMap.mpr ⟨k, called, applied⟩)
  have arrived : Arrived fresh _ page o old.1 old.2 :=
    history.applyOptions parsed discreet linked colors known
  have arrivedAtOnce : Arrived fresh _ page o new.1 new.2 :=
    start.applyOptions parsed discreet linked colors known
  exact ⟨arrived.mode.trans arrivedAtOnce.mode.symm, arrived.rules.trans arrivedAtOnce.rules.symm,
    arrived.entriesAt_eq arrivedAtOnce linked evaluates,
    arrived.alike arrivedAtOnce linked evaluates parsed⟩

/-- Another rule has coloured the paragraph, which has been reported as new, and the mode has been
changed, when the rule for paragraphs is applied: it comes to what it comes to at once. -/
theorem applyOptions_of_history_paragraph :
    let calls := [Call.applyOptions colorRule, .processBatch { added := [⟨1⟩] }, .setMode .normal]
    let s := calls.foldl (fun s k => k.perform s.1 s.2) (smallEngine, pageWithParagraph)
    let old := (s.1.applyOptions s.2 paragraphRule).2
    let new := (smallEngine.applyOptions pageWithParagraph paragraphRule).2
    s.2.attribute? ⟨1⟩ "class" = some "a odd" ∧ new.2.attribute? ⟨1⟩ "class" = some "a sift-dim" ∧
      old.1.record.entriesAt ⟨1⟩ = new.1.record.entriesAt ⟨1⟩ ∧
      Option.Rel (ShowAlike smallConfig.classificationAttribute) (old.2.element? ⟨1⟩)
        (new.2.element? ⟨1⟩) := by
  intro calls s old new
  have linked : pageWithParagraph.Linked := Tree.Linked.empty.edits newParagraph
  have parsed : PageParsed pageWithParagraph :=
    ⟨fun id e here => Tree.forall_element? (by decide +kernel) here,
      fun id e here => Tree.forall_element? (by decide +kernel) here⟩
  have evaluates : ∀ r ∈ smallEngine.rulesOf paragraphRule, ∀ x, r.action.selector? = some x →
      ∃ q, x.read = .ok q := by
    have read : ∀ r ∈ smallEngine.rulesOf paragraphRule, ∀ x ∈ r.action.selector?,
        x.read.toOption.isSome := by decide +kernel
    intro r inForce x selector
    obtain ⟨q, result⟩ := Option.isSome_iff_exists.mp (read r inForce x selector)
    exact ⟨q, eq_ok_of_toOption result⟩
  have colors : ∀ c, smallEngine.MayWrite [colorRule, paragraphRule] c →
      ∀ color ∈ c.color, IsPlainValue color :=
    forall_mayWrite (fun _ _ => id) (by decide +kernel)
  obtain ⟨-, -, entries, alike⟩ := applyOptions_of_history ofConfig_smallConfig linked parsed calls
    paragraphRule evaluates discreet_colorRule colors
  exact ⟨by decide +kernel, by decide +kernel, entries _, alike _⟩

end NoiseFilter.Engine
