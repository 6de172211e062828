import NoiseFilter.Proofs.Engine.Marks
import NoiseFilter.Proofs.Record.Blind
import NoiseFilter.Proofs.Selector.Like

/-!
# A batch classifies by what the page looked like

While rules look at a batch, the page changes under them: each rule finds the marks of those before
it. As long as a selector does not ask for marks this makes no difference. `Unseen` is what holds all
the way through a batch: the tree is one that the selector cannot tell from the tree at the start.
So each rule with such a selector ends up on exactly those candidates that the selector accepts, in
the tree before the batch and just as well in the tree after it.
-/

namespace NoiseFilter.Engine

/-! ## What holds throughout a batch -/

/-- What holds of the record and the tree throughout a batch that starts at `start`, for a selector
with these tests. -/
structure Unseen (marker : String) (tests : List Test) (start : Tree) (s : Pass.State) : Prop where
  sound : s.1.Sound s.2
  named : s.1.marker = marker
  inOrder : ∀ id e, s.2.element? id = some e → Record.InOrder (s.1.get? id) e
  plain : ∀ id, ∀ x ∈ s.1.entriesAt id, Text.IsWord x.cls ∧ .cls x.cls ∉ tests
  like : start.Like tests s.2

namespace Unseen

variable {marker scored : String} {tests : List Test} {start : Tree} {s s' : Pass.State}
  {candidates : List NodeId} {c : Classification}

/-- An operation that leaves plain entries is not seen. -/
theorem operate (unseen : Unseen marker tests start s) (notClass : Text.lower marker ≠ "class")
    (blind : Record.Blind marker tests) (o : Record.Operation) (onElement : o.OnElement s.2)
    (plain : ∀ id, ∀ x ∈ (o.apply s.1 s.2).1.entriesAt id,
      Text.IsWord x.cls ∧ .cls x.cls ∉ tests) :
    Unseen marker tests start (o.apply s.1 s.2) := by
  have sound := unseen.sound
  have frame := o.sameFrame_apply sound.stands onElement
  have changed (id : NodeId) (entries : List Classification)
      (change : o.change id (s.1.entriesAt id) = some entries) :
      (o.apply s.1 s.2).1.entriesAt id = entries := by
    rw [o.entriesAt_apply sound.stands onElement, Record.Operation.after, change]
    rfl
  have turn {id : NodeId} {e : Element} (here : s.2.element? id = some e) :
      Record.Turn marker (o.change id (s.1.entriesAt id)) (s.1.get? id) (some e)
        ((o.apply s.1 s.2).1.get? id) ((o.apply s.1 s.2).2.element? id) :=
    unseen.named ▸ here ▸ o.apply_at sound.stands onElement id
  refine ⟨sound.apply o onElement, (o.marker_apply sound.stands onElement).trans unseen.named, ?_,
    plain, unseen.like.trans ⟨frame, ?_⟩⟩
  · intro id left there
    obtain ⟨e, here⟩ := Tree.isElement_iff.mp <|
      (frame.isElement id).symm.trans (Tree.isElement_iff.mpr ⟨left, there⟩)
    obtain ⟨_, same, inOrder⟩ := (unseen.inOrder id e here).turn notClass
      (fun entries change x member => (plain id x (changed id entries change ▸ member)).1)
      (turn here)
    cases there.symm.trans same
    exact inOrder
  · intro id e here
    refine (unseen.inOrder id e here).like notClass blind (fun m found x member => ?_)
      (fun entries change x member => (plain id x (changed id entries change ▸ member)).2)
      (turn here)
    exact (unseen.plain id x (Record.entriesAt_of_get? found ▸ member)).2

/-- What the scorer says is not seen. -/
theorem judge (unseen : Unseen marker tests start s) (notClass : Text.lower scored ≠ "class")
    (blind : Record.Blind scored tests) {id : NodeId} {e : Element}
    (here : s.2.element? id = some e) (word : String) :
    Unseen marker tests start (s.1, s.2.put id ⟨e.set scored word, 1⟩) := by
  have isElement : s.2.isElement id = true := Tree.isElement_iff.mpr ⟨e, here⟩
  have classes : (e.set scored word).classes = e.classes :=
    (e.classes_set scored word).trans (if_neg notClass)
  have kept {other : String} (differs : Text.lower other ≠ Text.lower scored) :
      (e.set scored word).get? other = e.get? other :=
    (e.get?_set scored word other).trans (if_neg differs.symm)
  have text : (e.set scored word).get? "class" = e.get? "class" :=
    kept (by simpa using notClass.symm)
  refine ⟨⟨fun other n found => ?_, unseen.sound.ranked⟩, unseen.named, fun other e' there => ?_,
    unseen.plain, unseen.like.trans (.put here ⟨e.name_set scored word, ?_, ?_, ?_⟩)⟩
  · exact (unseen.sound.stands other n found).imp_left (Tree.isElement_put isElement other).trans
  · rw [Tree.element?_put isElement] at there
    split at there
    · rename_i same
      cases there
      obtain ⟨parsed, baseline, agree⟩ := unseen.inOrder other e (same ▸ here)
      exact ⟨parsed.of_same classes text, baseline, fun m found =>
        (agree m found).of_same classes text⟩
    · exact unseen.inOrder other e' there
  · have lowered : Text.lower "id" = "id" := by decide
    exact kept (lowered.symm ▸ blind.notId.symm)
  · intro c _
    exact classes ▸ Iff.rfl
  · intro a tested
    exact kept (blind.attributes a tested).2.2

theorem step (unseen : Unseen marker tests start s) (notClass : Text.lower marker ≠ "class")
    (blind : Record.Blind marker tests) (scoredNotClass : Text.lower scored ≠ "class")
    (scoredBlind : Record.Blind scored tests) (word : Text.IsWord c.cls)
    (untested : .cls c.cls ∉ tests) (step : Pass.Step scored candidates c s s') :
    Unseen marker tests start s' := by
  have plain (id : NodeId) (x : Classification) (member : x ∈ s'.1.entriesAt id) :
      Text.IsWord x.cls ∧ .cls x.cls ∉ tests := by
    have single : Pass.Steps scored candidates (· = c) s s' := .single ⟨c, rfl, step⟩
    rcases mem_entriesAt_of_steps single unseen.sound member with old | rfl
    · exact unseen.plain id x old
    · exact ⟨word, untested⟩
  cases step with
  | classify _ isElement => exact unseen.operate notClass blind (.classify ..) isElement plain
  | unclassify _ => exact unseen.operate notClass blind (.unclassify ..) trivial plain
  | judge _ here said => exact unseen.judge scoredNotClass scoredBlind here said

theorem steps {writes : Classification → Prop} (unseen : Unseen marker tests start s)
    (notClass : Text.lower marker ≠ "class") (blind : Record.Blind marker tests)
    (scoredNotClass : Text.lower scored ≠ "class") (scoredBlind : Record.Blind scored tests)
    (plain : ∀ c, writes c → Text.IsWord c.cls ∧ .cls c.cls ∉ tests)
    (steps : Pass.Steps scored candidates writes s s') : Unseen marker tests start s' := by
  induction steps with
  | refl => exact unseen
  | tail _ last ih =>
    obtain ⟨c, written, step⟩ := last
    obtain ⟨word, untested⟩ := plain c written
    exact ih.step notClass blind scoredNotClass scoredBlind word untested step

end Unseen

/-! ## What is asked of the page and of selectors -/

/-- An attribute that is neither the class list of an element nor its id. -/
def Apart (name : String) : Prop := Text.lower name ≠ "class" ∧ Text.lower name ≠ "id"

instance (name : String) : Decidable (Apart name) :=
  inferInstanceAs (Decidable (Text.lower name ≠ "class" ∧ Text.lower name ≠ "id"))

/-- The class lists of elements are read from the attributes that the page gave them: those of
recorded elements from the text that is kept, all others from the text that stands there. -/
structure HostClasses (r : Record) (t : Tree) : Prop where
  unrecorded : ∀ id e, r.get? id = none → t.element? id = some e → e.Parsed
  recorded : ∀ id n, r.get? id = some n → n.baseline.Parsed

/-- The tests of a selector ask for no class that the rules in force apply, and for no attribute that
the engine writes. -/
structure MarkerBlind (e : Engine) (tests : List Test) : Prop where
  classes : ∀ c, e.Writes c → .cls c.cls ∉ tests
  attributes : ∀ a, .attribute a ∈ tests →
    Text.lower a ≠ "class" ∧ Text.lower a ≠ "style" ∧
      Text.lower a ≠ Text.lower e.config.classificationAttribute ∧
      Text.lower a ≠ Text.lower e.config.aiCheckedAttribute

variable {e : Engine} {t : Tree}

theorem MarkerBlind.marker {tests : List Test} (blind : e.MarkerBlind tests)
    (apart : Apart e.config.classificationAttribute) :
    Record.Blind e.config.classificationAttribute tests where
  attributes a tested :=
    have ⟨notClass, notStyle, notMarker, _⟩ := blind.attributes a tested
    ⟨notClass, notStyle, notMarker⟩
  notId := apart.2

theorem MarkerBlind.scored {tests : List Test} (blind : e.MarkerBlind tests)
    (apart : Apart e.config.aiCheckedAttribute) :
    Record.Blind e.config.aiCheckedAttribute tests where
  attributes a tested :=
    have ⟨notClass, notStyle, _, notScored⟩ := blind.attributes a tested
    ⟨notClass, notStyle, notScored⟩
  notId := apart.2

/-- A batch starts with the page in order, elements that it forgets included. -/
theorem unseen_prepare {tests : List Test} {marker : String} (upToDate : UpToDate e t)
    (agree : MarkersAgree marker e.record t) (host : HostClasses e.record t)
    (plain : ∀ c, e.Writes c → Text.IsWord c.cls ∧ .cls c.cls ∉ tests) (batch : ChangeBatch) :
    Unseen marker tests t ((e.prepare t batch).record, t) := by
  have written {id : NodeId} {n : NodeRecord} {x : Classification}
      (found : e.record.get? id = some n) (member : x ∈ n.entries) : e.Writes x := by
    exact upToDate.written id x (Record.entriesAt_of_get? found ▸ member)
  have parsed {id : NodeId} {el : Element} (here : t.element? id = some el) : el.Parsed := by
    cases found : e.record.get? id with
    | none => exact host.unrecorded id el found here
    | some n =>
      exact (agree.2 id n el found here).parsed (host.recorded id n found)
        fun x member => (plain x (written found member)).1
  refine ⟨sound_prepare upToDate.sound batch, (marker_prepare ..).trans agree.1, fun id el here => ?_,
    fun id x member => plain x (upToDate.written id x (mem_entriesAt_of_prepare member)), .refl t⟩
  exact ⟨parsed here, fun n found => host.recorded id n (get?_of_prepare found),
    fun n found => agree.2 id n el (get?_of_prepare found) here⟩

/-- The rules in force act on a page without being seen. -/
theorem Unseen.rules {tests : List Test} {start : Tree} {s s' : Pass.State}
    {candidates : List NodeId} {writes : Classification → Prop}
    (unseen : Unseen e.config.classificationAttribute tests start s)
    (apart : Apart e.config.classificationAttribute)
    (apartScored : Apart e.config.aiCheckedAttribute) (blind : e.MarkerBlind tests)
    (words : ∀ c, e.Writes c → Text.IsWord c.cls)
    (steps : Pass.Steps e.config.aiCheckedAttribute candidates writes s s')
    (inForce : ∀ c, writes c → e.Writes c) :
    Unseen e.config.classificationAttribute tests start s' := by
  refine unseen.steps apart.1 (blind.marker apart) apartScored.1 (blind.scored apartScored) ?_ steps
  intro c written
  exact ⟨words c (inForce c written), blind.classes c (inForce c written)⟩

/-- Rules in different places write entries of different ids. -/
theorem UpToDate.ruleId_ne (upToDate : UpToDate e t) {i : Nat} {r : Rule} {c : Classification}
    (inForce : e.rules[i]? = some r) (written : e.Writes c) (elsewhere : c.rank ≠ i) :
    r.id ≠ c.ruleId := by
  obtain ⟨r', inForce', entry⟩ := written
  intro same
  refine elsewhere (index_eq_of_id_eq upToDate.distinct inForce' inForce ?_)
  rw [← Rule.ruleId_of_entryFor? entry, same]

/-! ## What a batch comes to -/

/-- After a batch every candidate holds the entry of a rule with a selector if the selector accepts
it, and none of that rule otherwise; and it does not matter whether the selector is asked before the
batch or after it. -/
theorem entryFor?_processBatch {config : Config} {catalog : Catalog} {page : Tree}
    (run : Run Record.SparesMarks config catalog page e t) (on : e.mode ≠ .off)
    (apart : Apart e.config.classificationAttribute)
    (apartScored : Apart e.config.aiCheckedAttribute)
    (words : ∀ c, e.Writes c → Text.IsWord c.cls) (host : HostClasses e.record t)
    {batch : ChangeBatch} {id : NodeId} (candidate : id ∈ batch.candidates t)
    {i : Nat} {r : Rule} {x : ExtendedSelector} {q : Query} (inForce : e.rules[i]? = some r)
    (selector : r.action.selector? = some x) (read : x.read = .ok q)
    (blind : e.MarkerBlind q.tests) :
    ∃ c, r.entryFor? e.config e.mode i = some c ∧
      (e.processBatch t batch).2.1.record.entryFor? id r.id =
        (if q.accepts t id = true then some c else none) ∧
      q.accepts (e.processBatch t batch).2.2 id = q.accepts t id := by
  have upToDate := run.upToDate
  have config_eq := run.config_eq
  have agree := run.markersAgree (config_eq ▸ apart.1) (config_eq ▸ apartScored.1)
  rw [← config_eq] at agree
  obtain ⟨c, entry⟩ := r.exists_entryFor? e.config on i
  have sameId : c.ruleId = r.id := Rule.ruleId_of_entryFor? entry
  have sameRank : c.rank = i := Rule.rank_of_entryFor? entry
  have written : e.Writes c := ⟨r, sameRank ▸ inForce, sameRank ▸ entry⟩
  have start := unseen_prepare upToDate agree host
    (fun c written => ⟨words c written, blind.classes c written⟩) batch
  obtain ⟨before, first, last⟩ := Pass.applyRules_at { e with record := (e.prepare t batch).record }
    (batch.candidates t) (p := e.firstPass t batch) start.sound inForce
  -- the rule finds a page that its selector cannot tell from the one at the start
  have found := start.rules apart apartScored blind words first fun _ inForce => inForce
  obtain ⟨acts, entries⟩ := Pass.applyRule_spec { e with record := (e.prepare t batch).record }
    (batch.candidates t) found.sound entry selector read
  have left := found.rules apart apartScored blind words acts fun _ same => same ▸ written
  have final := left.rules apart apartScored blind words last fun _ => And.left
  -- the rules behind it have other ids and do not touch what it wrote
  have kept := Pass.Steps.entryFor?_of_ne last left.sound
    (fun _ written => upToDate.ruleId_ne inForce written.1 written.2) id
  have accepts_eq {t' : Tree} (like : t.Like q.tests t') : q.accepts t' id = q.accepts t id :=
    q.accepts_congr like (fun _ there => there) id
  rw [processBatch_eq on (List.ne_nil_of_mem candidate)]
  refine ⟨c, entry, ?_, accepts_eq final.like⟩
  have asked : q.accepts before.tree id = q.accepts t id := accepts_eq found.like
  rw [← asked, ← entries id candidate, sameId]
  exact kept

/-- The engine has loaded a rule for paragraphs before there are any, and one comes into the page. -/
theorem entryFor?_newParagraph :
    let loaded := (Call.applyOptions paragraphRule).perform smallEngine .empty
    let page := newParagraph.foldl (fun t w => w.apply t) loaded.2
    let looked := loaded.1.processBatch page { added := [⟨1⟩] }
    Run Record.SparesMarks smallConfig {} .empty loaded.1 page ∧
      looked.2.1.record.entryFor? ⟨1⟩ "r" =
        some { ruleId := "r", rank := 0, kind := .toggle, cls := smallConfig.normalClass } := by
  intro loaded page looked
  have empty : loaded.1.record.nodes.entries = [] := by decide +kernel
  have unrecorded (id : NodeId) : loaded.1.record.get? id = none := by
    rw [Record.get?, SortedMap.get?, empty]
    rfl
  have run : Run Record.SparesMarks smallConfig {} .empty loaded.1 page := by
    refine (Run.call (.applyOptions paragraphRule) (.start ofConfig_smallConfig)).edits _ ?_
    intro w _ id n found
    cases (unrecorded id).symm.trans found
  have facts : (loaded.1.rules[0]?.bind fun r => r.action.selector?.bind fun x =>
      x.read.toOption.map fun q => (r.id, r.entryFor? loaded.1.config loaded.1.mode 0, q.tests,
        q.accepts page ⟨1⟩)) =
      some ("r", some { ruleId := "r", rank := 0, kind := .toggle, cls := smallConfig.normalClass },
        [.cls "a", .attribute "title"], true) := by decide +kernel
  obtain ⟨r, inForce, facts⟩ := Option.bind_eq_some_iff.mp facts
  obtain ⟨x, selector, facts⟩ := Option.bind_eq_some_iff.mp facts
  obtain ⟨q, read, facts⟩ := Option.map_eq_some_iff.mp facts
  simp only [Prod.mk.injEq] at facts
  obtain ⟨id_eq, entry, tests, accepted⟩ := facts
  have blind : loaded.1.MarkerBlind q.tests := by
    rw [tests]
    refine ⟨forall_writes (by decide +kernel), fun a tested => ?_⟩
    have title : a = "title" := by simpa using tested
    rw [title]
    decide +kernel
  have host : HostClasses loaded.1.record page :=
    ⟨fun id e _ here => Tree.forall_element? (by decide +kernel) here, fun id n found => by
      cases (unrecorded id).symm.trans found⟩
  have candidate : ⟨1⟩ ∈ ({ added := [⟨1⟩] } : ChangeBatch).candidates page := by decide +kernel
  obtain ⟨c, same, recorded, -⟩ := entryFor?_processBatch run (by decide +kernel)
    (by decide +kernel) (by decide +kernel) (forall_writes (by decide +kernel)) host candidate
    inForce selector (eq_ok_of_toOption read) blind
  rw [if_pos accepted, ← same, entry, id_eq] at recorded
  exact ⟨run, recorded⟩

end NoiseFilter.Engine
