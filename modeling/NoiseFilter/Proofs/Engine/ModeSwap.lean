import NoiseFilter.Proofs.Engine.History

/-!
# Changing the mode in place

When the mode is changed between two that are on, no rule is asked again: entries of the class of
the old mode get that of the new one, and the elements are marked anew. This is all there is to do.
A rule that is settled stays settled (`Settled.retarget`), since it writes its entry under either
mode, on the same elements; so the engine rests in the new mode as it did in the old one, and
options that ask for the same rules in the new mode find nothing left to do.
-/

namespace NoiseFilter.Engine

open Record (entriesOf)

variable {e : Engine} {t : Tree} {mode : Mode} {toggle : String}

/-! ## Settled rules -/

/-- A rule that is settled in one mode is settled in another when the entries have taken the class
of that mode. -/
theorem Settled.retarget {rank : Nat} {r : Rule} {id : NodeId} {n n' : Option NodeRecord}
    {el el' : Element} (settled : Settled e t rank r id n el) (on : e.mode ≠ .off)
    (class? : mode.toggleClass? e.config = some toggle)
    (entries : entriesOf n' = NodeRecord.retarget .toggle toggle (entriesOf n))
    (word : el'.get? e.config.aiCheckedAttribute = el.get? e.config.aiCheckedAttribute) :
    Settled { e with mode } t rank r id n' el' := by
  obtain ⟨c, written⟩ := r.exists_entryFor? e.config on rank
  have swapped := Rule.entryFor?_retarget written class?
  have there (member : c ∈ entriesOf n) :
      (if c.kind = .toggle then { c with cls := toggle } else c) ∈ entriesOf n' :=
    entries ▸ List.mem_map_of_mem member
  refine ⟨fun c' x q entry selector read => ?_, fun c' entry asksScorer isPost => ?_⟩
  · have before := settled.selected c x q written selector read
    split
    · rename_i accepted
      rw [if_pos accepted] at before
      cases swapped.symm.trans entry
      exact there before
    · rename_i refused
      rw [if_neg refused] at before
      intro y member same
      -- the entries name the rules that they named before
      have named : y.ruleId ∈ (entriesOf n).map (·.ruleId) := by
        rw [← NodeRecord.map_ruleId_retarget .toggle toggle, ← entries]
        exact List.mem_map_of_mem member
      obtain ⟨old, recorded, sameRule⟩ := List.mem_map.mp named
      refine before old recorded (sameRule.trans (same.trans ?_))
      rw [Rule.ruleId_of_entryFor? entry, Rule.ruleId_of_entryFor? written]
  · obtain ⟨silent, flagged⟩ := settled.scored c written asksScorer isPost
    cases swapped.symm.trans entry
    show (el'.get? e.config.aiCheckedAttribute = none → _) ∧
      (el'.get? e.config.aiCheckedAttribute = _ → _)
    rw [word]
    exact ⟨silent, fun here => there (flagged here)⟩

/-! ## Engines at rest -/

theorem exists_toggleClass? (on : mode ≠ .off) (config : Config) :
    ∃ toggle, mode.toggleClass? config = some toggle := by
  cases mode with
  | off => exact absurd rfl on
  | normal => exact ⟨_, rfl⟩
  | extreme => exact ⟨_, rfl⟩

/-- Under a mode that is on, entries of the class of the mode have its class, and others stay. -/
theorem UpToDate.entriesAt_switchMode (upToDate : UpToDate e t)
    (class? : mode.toggleClass? e.config = some toggle) (id : NodeId) :
    (e.switchMode t mode).2.1.record.entriesAt id =
      NodeRecord.retarget .toggle toggle (e.record.entriesAt id) := by
  rw [Engine.switchMode]
  split
  · rename_i same
    refine ((List.map_congr_left fun c member => ?_).trans (List.map_id _)).symm
    obtain ⟨r, -, written⟩ := upToDate.written id c member
    have again := Rule.entryFor?_retarget written class?
    rw [← same, written] at again
    exact (Option.some.inj again).symm
  · rw [class?]
    have entries := (Record.Operation.retarget .toggle toggle).entriesAt_apply
      upToDate.sound.stands trivial id
    rwa [Record.Operation.after_retarget] at entries

/-- The mode of an engine that is on is changed in place. -/
theorem setMode_of_on (on : e.mode ≠ .off) (t : Tree) (mode : Mode) :
    (e.setMode t mode).2 = (e.switchMode t mode).2 := by
  rw [setMode]
  simp only [on, false_and, if_false]

/-- Changing the mode is seen by no selector in use, and by none that asks for the word of the
scorer. -/
theorem Unseen.like_switchMode
    (unseen : Unseen e.config.classificationAttribute e.testsInUse t (e.record, t))
    (upToDate : UpToDate e t)
    (discreet : Discreet e.config e.testsInUse (e.switchMode t mode).2.1.Writes) :
    t.Like (.attribute e.config.aiCheckedAttribute :: e.testsInUse) (e.switchMode t mode).2.2 := by
  have blind : Record.Blind e.config.classificationAttribute
      (.attribute e.config.aiCheckedAttribute :: e.testsInUse) := by
    refine ⟨fun a tested => ?_, discreet.marker.2⟩
    rcases List.mem_cons.mp tested with scored | inUse
    · cases scored
      exact ⟨discreet.scored.1, discreet.scoredNotStyle, discreet.different.symm⟩
    · exact discreet.markerBlind.attributes a inUse
  have untested {cls : String} (absent : .cls cls ∉ e.testsInUse) :
      .cls cls ∉ .attribute e.config.aiCheckedAttribute :: e.testsInUse := by
    simpa using absent
  have before : Unseen e.config.classificationAttribute _ t (e.record, t) :=
    unseen.restart fun id c member => (unseen.plain id c member).imp_right untested
  have after := (Unseen.keptBySweeps discreet.marker.1 blind).switchMode before mode
    fun id c member => by
      have written := (upToDate.switchMode mode).written id c member
      exact ⟨discreet.words c written, untested (discreet.classes c written)⟩
  exact after.like

namespace Resting

variable (resting : Resting e t)

include resting

/-- The rules of an engine at rest are in force already. -/
theorem load : e.load t e.rules = (e, t) := by
  have dropped : (dropStale e.rules).apply e.record t = (e.record, t) :=
    congrArg (·.2) resting.revertWhere
  have ranked : (takeRanks e.rules).apply e.record t = (e.record, t) :=
    congrArg (·.2) resting.rerank
  simp only [Engine.load, dropped, ranked]

/-- An engine that rests in one mode that is on rests in another when its mode has been changed. -/
theorem switchMode (on : e.mode ≠ .off) (onThen : mode ≠ .off)
    (unseen : Unseen e.config.classificationAttribute e.testsInUse t (e.record, t))
    (discreet : Discreet e.config e.testsInUse (e.switchMode t mode).2.1.Writes) :
    Resting (e.switchMode t mode).2.1 (e.switchMode t mode).2.2 := by
  obtain ⟨toggle, class?⟩ := exists_toggleClass? onThen e.config
  have upToDate := resting.upToDate.switchMode mode
  have entries := resting.upToDate.entriesAt_switchMode class?
  have like := unseen.like_switchMode resting.upToDate discreet
  refine ⟨upToDate, resting.linked.of_sameFrame like.frame, fun id n found => ?_,
    fun _ x inForce id inside el here => ?_⟩
  · -- what is recorded now was recorded before
    have filled : (e.switchMode t mode).2.1.record.entriesAt id ≠ [] :=
      (upToDate.sound.stands.isSome_get? id).mp (found ▸ rfl)
    have known : (e.record.get? id).isSome = true := by
      refine (resting.upToDate.sound.stands.isSome_get? id).mpr fun empty => filled ?_
      rw [entries, empty]
      rfl
    obtain ⟨m, before⟩ := Option.isSome_iff_exists.mp known
    exact (like.frame.isConnected id).trans (resting.connected id m before)
  · rw [switchMode_engine] at inForce ⊢
    rw [like.frame.elements] at inside
    obtain ⟨old, before⟩ := Tree.isElement_iff.mp (resting.linked.mem_elements.mp inside).1
    obtain ⟨left, after, alike⟩ := like.element id old before
    cases here.symm.trans after
    have word := alike.attributes _ List.mem_cons_self
    have settled := (resting.settled on x inForce id inside old before).retarget on class?
      (entries id) word
    exact (settled.of_like (Pass.inForce_of_mem_zipIdx inForce)
      (fun y there => List.mem_cons_of_mem _ there) like).record _

/-- Options that put the same rules in force come to a change of the mode. -/
theorem applyOptions_eq_switchMode {o : Options} (rules : e.rulesOf o = e.rules)
    (switched : Resting (e.switchMode t o.mode).2.1 (e.switchMode t o.mode).2.2) :
    (e.applyOptions t o).2 = (e.switchMode t o.mode).2 := by
  have turned : e.turn t o = (e.switchMode t o.mode).2 := by
    rw [turn, rules, resting.load]
  rw [applyOptions_eq, turned]
  split
  · rfl
  · obtain ⟨candidates, errors, done⟩ := switched.processBatch .wholePage
    rw [done]

end Resting

/-! ## Names of rules -/

/-- What a recorded element reads for its name. -/
theorem MarkersName.attribute? {marker : String} {r : Record} (named : MarkersName marker r t)
    (stands : r.Stands t) {id : NodeId} (recorded : r.entriesAt id ≠ []) :
    t.attribute? id marker = ((r.entriesAt id).map (·.ruleId)).getLast? := by
  obtain ⟨n, found⟩ := Option.isSome_iff_exists.mp ((stands.isSome_get? id).mpr recorded)
  obtain ⟨el, here⟩ := Tree.isElement_iff.mp (stands id n found).1
  rw [Tree.attribute?_of_element? here, named.2 id n el found here, Record.entriesAt_of_get? found,
    List.getLast?_map]

/-- When the mode is changed nothing is written to elements that are not recorded. -/
theorem UpToDate.element?_switchMode (upToDate : UpToDate e t) {id : NodeId}
    (unrecorded : e.record.entriesAt id = []) :
    (e.switchMode t mode).2.2.element? id = t.element? id := by
  have sweeps {o : Record.Operation} (nothing : o.change id [] = none)
      (onElement : o.OnElement t) : (o.apply e.record t).2.element? id = t.element? id := by
    cases o.apply_at upToDate.sound.stands onElement id with
    | left _ _ element => exact element
    | marked entries _ changed =>
      rw [unrecorded, nothing] at changed
      cases changed
  rw [Engine.switchMode]
  split
  · rfl
  · split
    · exact sweeps (o := .revertAll) rfl trivial
    · rename_i toggle _
      exact sweeps (o := .retarget .toggle toggle) (Record.ifChanged_nil rfl) trivial

/-- When the mode is changed to another that is on, elements name the rules that they named. -/
theorem attribute?_switchMode {config : Config} {catalog : Catalog} {page : Tree}
    (run : Run Record.SparesMarks config catalog page e t)
    (different : Text.lower config.classificationAttribute ≠ Text.lower config.aiCheckedAttribute)
    (onThen : mode ≠ .off) (id : NodeId) :
    (e.switchMode t mode).2.2.attribute? id config.classificationAttribute =
      t.attribute? id config.classificationAttribute := by
  obtain ⟨toggle, class?⟩ := exists_toggleClass? onThen e.config
  have upToDate := run.upToDate
  have named := run.markersName different
  have namedThen := KeptByOperations.switchMode (keptBy_markersName different).toKeptByOperations
    upToDate.sound named mode
  have entries := upToDate.entriesAt_switchMode class? id
  by_cases unrecorded : e.record.entriesAt id = []
  · exact congrFun (Tree.attribute?_congr (upToDate.element?_switchMode unrecorded)) _
  · have recorded : (e.switchMode t mode).2.1.record.entriesAt id ≠ [] := by
      rw [entries]
      exact fun empty => unrecorded (List.map_eq_nil_iff.mp empty)
    rw [named.attribute? upToDate.sound.stands unrecorded,
      namedThen.attribute? (upToDate.switchMode mode).sound.stands recorded, entries,
      NodeRecord.map_ruleId_retarget]

/-! ## The mode is changed after options have been applied -/

/-- When options have been applied the page is in order. -/
theorem unseen_applyOptions (upToDate : UpToDate e t)
    (agree : MarkersAgree e.config.classificationAttribute e.record t)
    (host : HostClasses e.record t) (words : ∀ c, e.Writes c → Text.IsWord c.cls) {o : Options}
    (on : o.mode ≠ .off) {tests : List Test}
    (discreet : Discreet e.config tests (e.turn t o).1.Writes) :
    let done := (e.applyOptions t o).2
    Unseen e.config.classificationAttribute tests done.2 (done.1.record, done.2) := by
  intro done
  have engine := turn_engine e t o
  have config : (e.turn t o).1.config = e.config := by rw [engine]
  have looked : done = ((e.turn t o).1.processBatch (e.turn t o).2 .wholePage).2 := by
    show (e.applyOptions t o).2 = _
    rw [applyOptions_eq, if_neg on]
  have turned := (unseen_turn upToDate agree host words discreet).prepare .wholePage
  rw [← config] at discreet turned ⊢
  have seen := unseen_processBatch (engine ▸ on) discreet (upToDate.turn o).sound turned
  rw [looked]
  exact seen.restart seen.plain

/-- Engines of one make that have the rules of options in force use the selectors of these rules,
and write what they may write. -/
theorem SameMake.of_rules {done : Engine} {o : Options} (make : SameMake e done)
    (rules : done.rules = e.rulesOf o) :
    done.testsInUse = e.testsOfAll [o] ∧ ∀ c, done.Writes c → e.MayWrite [o] c := by
  constructor
  · rw [testsInUse, testsOfAll, rulesOfAll, make.post, make.postText, rules,
      List.flatMap_singleton]
  · exact fun c => mayWrite_of_rules make fun r inForce =>
      List.mem_flatMap.mpr ⟨o, List.mem_singleton_self o, rules ▸ inForce⟩

/-- The rules that options put in force do not depend on their mode. -/
theorem rulesOf_mode (e : Engine) (o : Options) (mode : Mode) :
    e.rulesOf { o with mode } = e.rulesOf o :=
  rfl

/-- When options have been applied under a mode that is on, changing the mode to another that is on
comes to the same, in record and tree, as applying the options with that mode. The names of rules
stay on all elements, and so do all entries but those of the class of the mode. -/
theorem setMode_eq_applyOptions {config : Config} {catalog : Catalog} {page : Tree}
    (run : Run Record.SparesMarks config catalog page e t) (linked : page.Linked)
    (host : HostClasses e.record t) (words : ∀ c, e.Writes c → Text.IsWord c.cls) {o : Options}
    (on : o.mode ≠ .off) (discreet : Discreet config (e.testsOfAll [o]) (e.MayWrite [o]))
    (onThen : mode ≠ .off) :
    let done := (e.applyOptions t o).2
    let swapped := (done.1.setMode done.2 mode).2
    swapped = (done.1.applyOptions done.2 { o with mode }).2 ∧
      (∀ id, swapped.2.attribute? id config.classificationAttribute =
        done.2.attribute? id config.classificationAttribute) ∧
      ∀ id, (swapped.1.record.entriesAt id).filter (·.kind != .toggle) =
        (done.1.record.entriesAt id).filter (·.kind != .toggle) := by
  intro done swapped
  have config_eq := run.config_eq
  subst config_eq
  have runThen : Run Record.SparesMarks e.config catalog page done.1 done.2 :=
    .call (.applyOptions o) run
  have agree := run.markersAgree discreet.marker.1 discreet.scored.1
  have engine : done.1 = _ := applyOptions_engine e t o
  have make : SameMake e done.1 := by
    rw [engine]
    exact ⟨rfl, rfl, rfl, rfl⟩
  have makeTurned : SameMake e (e.turn t o).1 := SameMake.turn ⟨rfl, rfl, rfl, rfl⟩ t o
  have rules : done.1.rules = e.rulesOf o := by rw [engine]
  have onNow : done.1.mode ≠ .off := by rwa [engine]
  obtain ⟨tests, -⟩ := make.of_rules rules
  obtain ⟨testsTurned, writesTurned⟩ := makeTurned.of_rules (o := o) (by rw [turn_engine])
  have resting : Resting done.1 done.2 := by
    refine resting_applyOptions run.upToDate (run.linked linked) agree host words ?_
    rw [testsTurned, makeTurned.config]
    exact discreet.mono writesTurned
  have unseen : Unseen _ _ done.2 (done.1.record, done.2) :=
    unseen_applyOptions run.upToDate agree host words on (discreet.mono writesTurned)
  clear_value done
  obtain ⟨-, writesSwapped⟩ := (make.switchMode done.2 mode).of_rules (o := o) <| by
    rw [switchMode_engine]
    exact rules
  have inPlace : swapped = (done.1.switchMode done.2 mode).2 := setMode_of_on onNow done.2 mode
  rw [inPlace]
  refine ⟨(resting.applyOptions_eq_switchMode (o := { o with mode }) ?_ ?_).symm, fun id => ?_,
    fun id => ?_⟩
  · rw [rules, rulesOf_mode, make.rulesOf]
  · refine resting.switchMode onNow onThen ?_ ?_
    · rw [tests, make.config]
      exact unseen
    · rw [tests, make.config]
      exact discreet.mono writesSwapped
  · exact attribute?_switchMode runThen discreet.different onThen id
  · obtain ⟨toggle, class?⟩ := exists_toggleClass? onThen done.1.config
    rw [resting.upToDate.entriesAt_switchMode class?, NodeRecord.filter_retarget]

/-- A page with a paragraph that has the class of the extreme mode already. -/
def hiddenParagraph : Tree :=
  [Edit.create (.element (.ofAttributes "p" [("class", "a sift-remove"), ("title", "b")])),
    .append .root ⟨1⟩].foldl (fun t w => w.apply t) .empty

theorem discreet_paragraphRule :
    Discreet smallConfig (smallEngine.testsOfAll [paragraphRule])
      (smallEngine.MayWrite [paragraphRule]) := by
  have tests : smallEngine.testsOfAll [paragraphRule] =
      smallEngine.testsOfAll [colorRule, paragraphRule] := by decide +kernel
  rw [tests]
  refine discreet_colorRule.mono fun c => ?_
  rintro ⟨r, known, written⟩
  exact ⟨r, List.mem_append_right (smallEngine.rulesOf colorRule) known, written⟩

/-- The mode becomes extreme, whose class the paragraph has from the page: it is not added, and the
class of the normal mode is taken away. -/
theorem setMode_eq_applyOptions_hiddenParagraph :
    let done := (smallEngine.applyOptions hiddenParagraph paragraphRule).2
    let swapped := (done.1.setMode done.2 .extreme).2
    done.2.attribute? ⟨1⟩ "class" = some "a sift-remove sift-dim" ∧
      swapped.2.attribute? ⟨1⟩ "class" = some "a sift-remove" ∧
      swapped = (done.1.applyOptions done.2 { paragraphRule with mode := .extreme }).2 := by
  intro done swapped
  have linked : hiddenParagraph.Linked := Tree.Linked.empty.edits _
  have unrecorded (id : NodeId) : smallEngine.record.get? id = none := by
    rw [(eq_of_ofConfig ofConfig_smallConfig).2.2.2]
    rfl
  have host : HostClasses smallEngine.record hiddenParagraph :=
    ⟨fun id e _ here => Tree.forall_element? (by decide +kernel) here, fun id n found => by
      cases (unrecorded id).symm.trans found⟩
  have words : ∀ c, smallEngine.Writes c → Text.IsWord c.cls := forall_writes (by decide +kernel)
  have extremeOn : Mode.extreme ≠ .off := by decide
  obtain ⟨same, -⟩ := setMode_eq_applyOptions (.start ofConfig_smallConfig) linked host words
    (by decide) discreet_paragraphRule extremeOn
  exact ⟨by decide +kernel, by decide +kernel, same⟩

end NoiseFilter.Engine
