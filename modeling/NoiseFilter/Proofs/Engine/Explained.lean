import NoiseFilter.Proofs.Engine.Repeat
import NoiseFilter.Proofs.Record.Worn

/-!
# What can be explained by the page

An engine that has been called in whatever way holds entries of rules that are gone, of other modes
and of selectors that have changed, and the scorer has left its words. Yet all that is on a node
follows from the page that the host gave and from the entries on the node (`Explained`): the marks,
the scorer's word, which is what the scorer says of the page, and that a post with an entry of the
scorer is flagged. Acts of rules and sweeps over all records keep this up (`Accounted`).
-/

namespace NoiseFilter

/-- The entries of the scorer are those of rules without a selector. -/
theorem Rule.kind_of_entryFor? {r : Rule} {config : Config} {mode : Mode} {rank : Nat}
    {c : Classification} (entry : r.entryFor? config mode rank = some c) :
    c.kind = .ai ↔ r.action.selector? = none := by
  obtain ⟨toggle, -, rfl⟩ := Option.map_eq_some_iff.mp entry
  obtain ⟨id, action⟩ := r
  cases action <;> simp [RuleAction.selector?]

namespace Engine

open Record (Act Worn entriesOf each)

/-! ## Engines of one make -/

/-- The engines were made from the same settings; they may differ in rules, mode and record. -/
structure SameMake (fresh e : Engine) : Prop where
  config : e.config = fresh.config
  catalog : e.catalog = fresh.catalog
  post : e.post = fresh.post
  postText : e.postText = fresh.postText

namespace SameMake

variable {fresh e : Engine} {t : Tree} (make : SameMake fresh e)

include make

theorem spoken (page : Tree) : e.spoken page = fresh.spoken page := by
  funext post
  rw [Engine.spoken, Engine.spoken, make.postText, make.config]

theorem rulesOf (o : Options) : e.rulesOf o = fresh.rulesOf o := by
  rw [Engine.rulesOf, Engine.rulesOf, make.config, make.catalog]

theorem turn (t : Tree) (o : Options) : SameMake fresh (e.turn t o).1 := by
  rw [turn_engine]
  exact ⟨make.config, make.catalog, make.post, make.postText⟩

theorem switchMode (t : Tree) (mode : Mode) : SameMake fresh (e.switchMode t mode).2.1 := by
  rw [switchMode_engine]
  exact ⟨make.config, make.catalog, make.post, make.postText⟩

theorem processBatch (t : Tree) (batch : ChangeBatch) :
    SameMake fresh (e.processBatch t batch).2.1 := by
  rw [processBatch_engine]
  exact ⟨make.config, make.catalog, make.post, make.postText⟩

end SameMake

/-! ## One node -/

/-- What is said of a post on the page: the word that the host has left there, or what the scorer
says. -/
def verdict (fresh : Engine) (page : Tree) (post : NodeId) (given : Element) : Option String :=
  (given.get? fresh.config.aiCheckedAttribute).or (fresh.spoken page post)

/-- What is on a node follows from the page and from the entries on the node. -/
structure Explained (fresh : Engine) (page : Tree) (id : NodeId) (given : Element)
    (n : Option NodeRecord) (e : Element) : Prop where
  worn : Worn fresh.config.classificationAttribute given n e
  plain : ∀ c ∈ entriesOf n, Record.IsPlain c
  verdict : (e.get? fresh.config.aiCheckedAttribute).or (fresh.spoken page id) =
    fresh.verdict page id given
  /-- Posts that carry an entry of the scorer are flagged. -/
  flagged : ∀ c ∈ entriesOf n, c.kind = .ai →
    fresh.post.accepts page none id = true ∧ fresh.verdict page id given = some flaggedWord
  connected : n ≠ none → page.isConnected id = true

namespace Explained

variable {fresh engine : Engine} {page : Tree} {id : NodeId} {given e : Element}
  {n n' : Option NodeRecord} {tests : List Test} {writes : Classification → Prop}

theorem start (parsed : given.Parsed) (styleParsed : given.StyleParsed) :
    Explained fresh page id given none given :=
  ⟨.start parsed styleParsed, fun _ there => (by cases there), rfl, fun _ there => (by cases there),
    fun recorded => absurd rfl recorded⟩

section

variable (explained : Explained fresh page id given n e) (parsed : given.Parsed)
  (styleParsed : given.StyleParsed) (discreet : Discreet fresh.config tests writes)

include explained parsed styleParsed discreet

/-- A change of entries, from which on the entries are still plain and those of the scorer right. -/
theorem turn {change : Option (List Classification)} {after : Option Element}
    (turn : Record.Turn fresh.config.classificationAttribute change n (some e) n' after)
    (plain : ∀ c ∈ change.getD (entriesOf n), Record.IsPlain c)
    (flagged : ∀ c ∈ change.getD (entriesOf n), c.kind = .ai →
      fresh.post.accepts page none id = true ∧ fresh.verdict page id given = some flaggedWord)
    (connected : change.getD (entriesOf n) ≠ [] → page.isConnected id = true) :
    ∃ left, after = some left ∧ Explained fresh page id given n' left := by
  obtain ⟨left, same, worn⟩ := explained.worn.turn parsed styleParsed discreet.marker.1
    discreet.markerNotStyle (fun entries changed x there => plain x (by rwa [changed])) turn
  refine ⟨left, same, ?_⟩
  cases turn with
  | left _ record element =>
    cases same.symm.trans element
    exact record ▸ explained
  | marked entries old changed before record after =>
    cases before
    cases same.symm.trans after
    rw [changed] at plain flagged connected
    have left : entriesOf n' = entries := record ▸ Act.entriesOf_kept ..
    refine ⟨worn, left ▸ plain, ?_, left ▸ flagged,
      fun recorded => connected fun empty => recorded ?_⟩
    · rw [Record.remarked, Draft.get?_reconcile_of_ne _ _ _ discreet.scored.1
        discreet.scoredNotStyle discreet.different.symm]
      exact explained.verdict
    · rw [record, Record.kept]
      exact if_pos empty

/-- A sweep that leaves words for classes. The entries that it leaves come from entries of the same
kind and colour. -/
theorem sweep {o : Record.Operation} (sweep : o.IsSweep)
    (words : ∀ c ∈ (o.change id (entriesOf n)).getD (entriesOf n), Text.IsWord c.cls)
    {after : Option Element}
    (turn : Record.Turn fresh.config.classificationAttribute (o.change id (entriesOf n)) n
      (some e) n' after) :
    ∃ left, after = some left ∧ Explained fresh page id given n' left := by
  refine explained.turn parsed styleParsed discreet turn (fun c there => ?_) (fun c there => ?_)
    fun filled => ?_
  · obtain ⟨x, old, -, color⟩ := sweep.exists_of_mem_after there
    exact ⟨words c there, color ▸ (explained.plain x old).color⟩
  · obtain ⟨x, old, kind, -⟩ := sweep.exists_of_mem_after there
    exact kind ▸ explained.flagged x old
  · obtain ⟨c, there⟩ := List.exists_mem_of_ne_nil _ filled
    obtain ⟨x, old, -⟩ := sweep.exists_of_mem_after there
    refine explained.connected fun unrecorded => ?_
    rw [unrecorded] at old
    cases old

/-- A change of entries that leaves entries of which the page can tell. -/
theorem change {f : List Classification → Option (List Classification)}
    (connected : page.isConnected id = true)
    (sorted : ∀ c ∈ entriesOf (Act.change fresh.config.classificationAttribute f n e).1,
      Record.IsPlain c ∧ (c.kind = .ai →
        fresh.post.accepts page none id = true ∧ fresh.verdict page id given = some flaggedWord)) :
    Explained fresh page id given (Act.change fresh.config.classificationAttribute f n e).1
      (Act.change fresh.config.classificationAttribute f n e).2.element := by
  rw [Act.entriesOf_change] at sorted
  obtain ⟨left, same, after⟩ := explained.turn parsed styleParsed discreet
    (Act.turn_change fresh.config.classificationAttribute f n e) (fun c there => (sorted c there).1)
    (fun c there => (sorted c there).2) fun _ => connected
  cases same
  exact after

/-- An entry is let in. -/
theorem enter (ranked : Ranked (entriesOf n)) (connected : page.isConnected id = true)
    {c : Classification} (plain : Record.IsPlain c)
    (flagged : c.kind = .ai →
      fresh.post.accepts page none id = true ∧ fresh.verdict page id given = some flaggedWord) :
    Explained fresh page id given (Act.enter fresh.config.classificationAttribute c n e).1
      (Act.enter fresh.config.classificationAttribute c n e).2.element := by
  refine explained.change parsed styleParsed discreet connected fun x there => ?_
  rcases (Act.mem_enter ranked).mp there with rfl | ⟨old, -⟩
  · exact ⟨plain, flagged⟩
  · exact ⟨explained.plain x old, explained.flagged x old⟩

omit parsed styleParsed

/-- What the scorer says of the page is left on the post. -/
theorem leave :
    Explained fresh page id given n
      (Act.leave fresh.config.aiCheckedAttribute (fresh.spoken page id) n e).2.element := by
  have left := Record.Act.get?_leave fresh.config.aiCheckedAttribute (fresh.spoken page id) n e
  generalize made :
    (Act.leave fresh.config.aiCheckedAttribute (fresh.spoken page id) n e).2.element = e' at left ⊢
  refine ⟨?_, explained.plain, ?_, explained.flagged, explained.connected⟩
  · unfold Act.leave at made
    split at made
    · subst made
      have kept {name : String}
          (other : Text.lower fresh.config.aiCheckedAttribute ≠ Text.lower name) (word : String) :
          (e.set fresh.config.aiCheckedAttribute word).get? name = e.get? name :=
        (e.get?_set ..).trans (if_neg other)
      refine explained.worn.of_same ((e.classes_set ..).trans (if_neg discreet.scored.1))
        ((e.style_set ..).trans (if_neg discreet.scoredNotStyle)) (kept ?_ _) (kept ?_ _)
        (kept discreet.different.symm _)
      · simpa using discreet.scored.1
      · simpa using discreet.scoredNotStyle
    · subst made
      exact explained.worn
  · rw [left, ← explained.verdict, Option.or_assoc, Option.or_self]

include parsed styleParsed

/-- What a rule does to a connected node can be explained. -/
theorem deed (make : SameMake fresh engine) (connected : page.isConnected id = true)
    (ranked : Ranked (entriesOf n)) {rank : Nat} {r : Rule}
    (plain : ∀ c, r.entryFor? engine.config engine.mode rank = some c → Record.IsPlain c) {f : Act}
    (made : Deed engine page rank r id f) :
    Explained fresh page id given (f n e).1 (f n e).2.element := by
  cases made with
  | nothing => exact explained
  | admitted entry selector _ _ =>
    rw [make.config]
    refine explained.enter parsed styleParsed discreet ranked connected (plain _ entry)
      fun scorer => ?_
    rw [Rule.kind_of_entryFor? entry, selector] at scorer
    cases scorer
  | dropped entry _ _ _ =>
    rw [make.config]
    refine explained.change parsed styleParsed discreet connected fun x there => ?_
    obtain ⟨old, -⟩ := Act.mem_drop.mp there
    exact ⟨explained.plain x old, explained.flagged x old⟩
  | @scored c entry asksScorer isPost =>
    obtain ⟨-, acted⟩ := scorerAct_cases engine page c id n e
    rw [make.config, make.spoken] at acted
    have left := explained.leave discreet
    generalize (Act.leave fresh.config.aiCheckedAttribute (fresh.spoken page id) n e).2.element = e₁
      at acted left
    rcases acted with ⟨flagged, record, element⟩ | ⟨-, record, element⟩
    · rw [record, element]
      refine left.enter parsed styleParsed discreet ranked connected (plain _ entry) fun _ => ?_
      rw [← left.verdict, flagged, ← make.post]
      exact ⟨isPost, rfl⟩
    · rw [record, element]
      exact left

/-- A pass over a connected node can be explained. -/
theorem rulesAct (make : SameMake fresh engine) (connected : page.isConnected id = true)
    (ranked : Ranked (entriesOf n)) {rules : List (Rule × Nat)}
    (plain : ∀ x ∈ rules, ∀ c, x.1.entryFor? engine.config engine.mode x.2 = some c →
      Record.IsPlain c) :
    Explained fresh page id given (engine.rulesAct page rules id n e).1
      (engine.rulesAct page rules id n e).2.element := by
  induction rules generalizing n e with
  | nil => exact explained
  | cons x rest ih =>
    obtain ⟨here, later⟩ := List.forall_mem_cons.mp plain
    have made := Engine.deed engine page x.2 x.1 id
    exact ih (explained.deed parsed styleParsed discreet make connected ranked here made)
      (made.ranked ranked) later

end

end Explained

/-! ## The whole page -/

/-- What is recorded and what is on the tree can be explained by the page, and selectors with these
tests cannot tell the tree from the page. -/
structure Accounted (fresh : Engine) (tests : List Test) (page : Tree) (s : Pass.State) : Prop where
  unseen : Unseen fresh.config.classificationAttribute tests page s
  nodes : ∀ id given e, page.element? id = some given → s.2.element? id = some e →
    Explained fresh page id given (s.1.get? id) e

/-- What the page has to be like: every class list and every style is what its attribute reads as.
-/
structure PageParsed (page : Tree) : Prop where
  classes : ∀ id e, page.element? id = some e → e.Parsed
  styles : ∀ id e, page.element? id = some e → e.StyleParsed

namespace Accounted

variable {fresh e : Engine} {page t : Tree} {tests : List Test} {writes : Classification → Prop}
  {s : Pass.State}

theorem start (parsed : PageParsed page) (record : Record)
    (named : record.marker = fresh.config.classificationAttribute)
    (empty : ∀ id, record.get? id = none) : Accounted fresh tests page (record, page) := by
  have none (id : NodeId) : record.entriesAt id = [] := by
    rw [Record.entriesAt, empty]
    rfl
  refine ⟨⟨⟨fun id n found => ?_, fun id => none id ▸ .nil⟩, named, fun id e here => ?_,
    fun id c there => ?_, .refl page⟩, fun id given e here there => ?_⟩
  · cases (empty id).symm.trans found
  · rw [empty]
    exact ⟨parsed.classes id e here, by simp, by simp⟩
  · rw [none] at there
    cases there
  · cases here.symm.trans there
    rw [empty]
    exact .start (parsed.classes id given here) (parsed.styles id given here)

/-- Each element of the tree is one of the page, with what can be explained there. -/
theorem exists_given (accounted : Accounted fresh tests page s) {id : NodeId} {e : Element}
    (here : s.2.element? id = some e) :
    ∃ given, page.element? id = some given ∧ Explained fresh page id given (s.1.get? id) e := by
  have isElement : page.isElement id = true :=
    (accounted.unseen.like.frame.isElement id).symm.trans (Tree.isElement_iff.mpr ⟨e, here⟩)
  obtain ⟨given, there⟩ := Tree.isElement_iff.mp isElement
  exact ⟨given, there, accounted.nodes id given e there here⟩

/-- Nothing is recorded but of elements that are part of the page. -/
theorem connected (accounted : Accounted fresh tests page s) {id : NodeId} {n : NodeRecord}
    (found : s.1.get? id = some n) : s.2.isConnected id = true := by
  obtain ⟨e, here⟩ := Tree.isElement_iff.mp (accounted.unseen.sound.stands id n found).1
  obtain ⟨given, -, explained⟩ := accounted.exists_given here
  rw [accounted.unseen.like.frame.isConnected]
  exact explained.connected (by simp [found])

/-- No look at the whole page forgets anything. -/
theorem prepare_eq (accounted : Accounted fresh tests page (e.record, t)) (batch : ChangeBatch) :
    e.prepare t batch = e :=
  prepare_eq_self (fun _ _ found => accounted.connected found) batch

theorem unseen_prepare (accounted : Accounted fresh tests page (e.record, t))
    (make : SameMake fresh e) (batch : ChangeBatch) :
    Unseen e.config.classificationAttribute tests page ((e.prepare t batch).record, t) := by
  rw [accounted.prepare_eq, make.config]
  exact accounted.unseen

/-- Sweeps that leave plain entries leave what can be explained. -/
theorem keptBySweeps (parsed : PageParsed page) (discreet : Discreet fresh.config tests writes) :
    KeptBySweeps (fun c => Text.IsWord c.cls ∧ .cls c.cls ∉ tests)
      (Accounted fresh tests page) where
  ranks _ _ plain := plain
  sound _ accounted := accounted.unseen.sound
  entries _ accounted := accounted.unseen.plain
  sweep s o sweep accounted plain := by
    have sound := accounted.unseen.sound
    have onElement := sweep.onElement s.2
    refine ⟨accounted.unseen.operate discreet.marker.1 discreet.markerBlind o onElement plain,
      fun id given e here there => ?_⟩
    obtain ⟨old, before⟩ := Tree.isElement_iff.mp <|
      ((o.sameFrame_apply sound.stands onElement).isElement id).symm.trans
        (Tree.isElement_iff.mpr ⟨e, there⟩)
    have entries := o.entriesAt_apply sound.stands onElement id
    have turn := o.apply_at sound.stands onElement id
    rw [accounted.unseen.named, before] at turn
    obtain ⟨left, same, after⟩ := (accounted.nodes id given old here before).sweep
      (parsed.classes id given here) (parsed.styles id given here) discreet sweep
      (fun c member => (plain id c (entries.symm ▸ member)).1) turn
    cases there.symm.trans same
    exact after

/-- A batch leaves what can be explained. -/
theorem processBatch (accounted : Accounted fresh tests page (e.record, t))
    (parsed : PageParsed page) (linked : page.Linked) (make : SameMake fresh e) (on : e.mode ≠ .off)
    (discreet : Discreet fresh.config tests e.Writes) (tested : ∀ x ∈ e.testsInUse, x ∈ tests)
    (plain : ∀ c, e.Writes c → Record.IsPlain c) (batch : ChangeBatch) :
    Accounted fresh tests page
      ((e.processBatch t batch).2.1.record, (e.processBatch t batch).2.2) := by
  -- what is recorded is part of the page, so a look at the whole page forgets none of it
  have prepared := accounted.prepare_eq batch
  have unseen := accounted.unseen_prepare make batch
  have frame := accounted.unseen.like.frame
  have linkedNow : t.Linked := linked.of_sameFrame frame
  have discreetNow : Discreet e.config tests e.Writes := make.config ▸ discreet
  have after := unseen_processBatch on discreetNow accounted.unseen.sound unseen
  refine ⟨make.config ▸ after, fun id given el here there => ?_⟩
  rw [processBatch_eq_each on discreetNow tested linkedNow unseen, prepared] at there ⊢
  by_cases candidate : id ∈ batch.candidates t
  · obtain ⟨old, before⟩ := Tree.isElement_iff.mp (isElement_of_candidate linkedNow candidate)
    obtain ⟨record, element⟩ := Record.each_at (s := (e.record, t))
      (nodup_candidates linkedNow batch) candidate before (e.passAct page)
    cases there.symm.trans element
    show Explained fresh page id given ((each (e.passAct page) _ _).1.get? id) _
    rw [record]
    have connected : page.isConnected id = true :=
      (frame.isConnected id).symm.trans (isConnected_of_candidate linkedNow candidate)
    refine (accounted.nodes id given old here before).rulesAct (parsed.classes id given here)
      (parsed.styles id given here) discreet make connected (accounted.unseen.sound.ranked id)
      fun x inForce c entry => plain c ⟨x.1, ?_, ?_⟩
    · rw [Rule.rank_of_entryFor? entry]
      exact Pass.inForce_of_mem_zipIdx inForce
    · rwa [Rule.rank_of_entryFor? entry]
  · have element : t.element? id = some el :=
      (Record.element?_each_of_not_mem candidate (e.passAct page) (e.record, t)).symm.trans there
    show Explained fresh page id given ((each (e.passAct page) _ _).1.get? id) _
    rw [Record.get?_each_of_not_mem candidate]
    exact accounted.nodes id given el here element

end Accounted

end Engine

end NoiseFilter
