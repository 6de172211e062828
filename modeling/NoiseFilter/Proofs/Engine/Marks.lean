import NoiseFilter.Proofs.Engine.UpToDate
import NoiseFilter.Proofs.Record.Agreement
import NoiseFilter.Proofs.Tree.Linked

/-!
# Marks through a run of the engine

All that a call does to the record and the tree is operations on the record, what the scorer says
written to posts, and elements forgotten that are no longer part of the page. What each of these
keeps, every call keeps (`perform_induction`). Relations between recorded elements and their records
can be of this kind (`OnRecorded`): the classes agree with the record, and the marker names the rule
of the last entry, as long as others spare the marks and the scorer's word is kept elsewhere.
-/

namespace NoiseFilter.Engine

/-! ## What calls keep -/

section

variable {e : Engine} {t : Tree} {I : Record → Tree → Prop}

/-- A property of record and tree that no operation on the record takes away. -/
structure KeptByOperations (I : Record → Tree → Prop) : Prop where
  operate : ∀ (o : Record.Operation) (r : Record) (t : Tree), r.Sound t → o.OnElement t → I r t →
    I (o.apply r t).1 (o.apply r t).2

/-- A property of record and tree that nothing takes away that a call writes. -/
structure KeptByWrites (scored : String) (I : Record → Tree → Prop) : Prop
    extends KeptByOperations I where
  judge : ∀ (r : Record) (t : Tree) (id : NodeId) (e : Element) (word : String),
    t.element? id = some e → I r t → I r (t.put id ⟨e.set scored word, 1⟩)

/-- A property of record and tree that none of the acts of a call takes away. -/
structure KeptBy (scored : String) (I : Record → Tree → Prop) : Prop
    extends KeptByWrites scored I where
  prune : ∀ (r : Record) (t : Tree), I r t → I (r.prune t).2 t

theorem KeptByWrites.steps {scored : String} (kept : KeptByWrites scored I)
    {candidates : List NodeId} {writes : Classification → Prop} {s s' : Pass.State}
    (steps : Pass.Steps scored candidates writes s s') (sound : s.1.Sound s.2)
    (before : I s.1 s.2) : I s'.1 s'.2 := by
  induction steps with
  | refl => exact before
  | tail steps last ih =>
    obtain ⟨c, -, step⟩ := last
    have soundBefore := Pass.Steps.sound steps sound
    cases step with
    | classify _ isElement => exact kept.operate (.classify ..) _ _ soundBefore isElement ih
    | unclassify _ => exact kept.operate (.unclassify ..) _ _ soundBefore trivial ih
    | judge _ here word => exact kept.judge _ _ _ _ word here ih

/-- A batch keeps what its writes keep, if forgetting keeps it where the batch forgets. -/
theorem KeptByWrites.processBatch (kept : KeptByWrites e.config.aiCheckedAttribute I)
    (sound : e.record.Sound t) (before : I e.record t) {batch : ChangeBatch}
    (pruned : e.mode ≠ .off → batch.navigation = true → I (e.record.prune t).2 t) :
    I (e.processBatch t batch).2.1.record (e.processBatch t batch).2.2 := by
  by_cases off : e.mode = .off
  · rw [Engine.processBatch, if_pos off]
    exact before
  · have prepared : I (e.prepare t batch).record t := by
      rw [Engine.prepare]
      split
      · rename_i navigation
        exact pruned off navigation
      · exact before
    obtain ⟨s, result, steps⟩ := processBatch_steps off sound batch
    rw [result]
    exact kept.steps steps (sound_prepare sound batch) prepared

theorem KeptBy.processBatch (kept : KeptBy e.config.aiCheckedAttribute I)
    (sound : e.record.Sound t) (before : I e.record t) (batch : ChangeBatch) :
    I (e.processBatch t batch).2.1.record (e.processBatch t batch).2.2 :=
  kept.toKeptByWrites.processBatch sound before fun _ _ => kept.prune _ _ before

theorem KeptByOperations.switchMode (kept : KeptByOperations I) (sound : e.record.Sound t)
    (before : I e.record t) (mode : Mode) :
    I (e.switchMode t mode).2.1.record (e.switchMode t mode).2.2 := by
  rw [Engine.switchMode]
  split
  · exact before
  · split
    · exact kept.operate .revertAll _ _ sound trivial before
    · exact kept.operate (.retarget ..) _ _ sound trivial before

theorem KeptByOperations.load (kept : KeptByOperations I) {r : Record} (sound : r.Sound t)
    (before : I r t) (rules : List Rule) :
    let dropped := (Record.Operation.revertWhere fun c => !rules.any (·.produces c)).apply r t
    let ranked := (Record.Operation.rerank fun id => rules.findIdx? (·.id == id)).apply
      dropped.1 dropped.2
    I ranked.1 ranked.2 := by
  intro dropped ranked
  have keptDropped : I dropped.1 dropped.2 := kept.operate _ _ _ sound trivial before
  exact kept.operate _ _ _ (sound.apply _ trivial) trivial keptDropped

theorem config_processBatch (e : Engine) (t : Tree) (batch : ChangeBatch) :
    (e.processBatch t batch).2.1.config = e.config := by
  rw [Engine.processBatch]
  split
  · rfl
  · rw [prepare_eq]
    simp only
    split <;> rfl

theorem config_switchMode (e : Engine) (t : Tree) (mode : Mode) :
    (e.switchMode t mode).2.1.config = e.config := by
  rw [Engine.switchMode]
  split
  · rfl
  · split <;> rfl

theorem config_perform (e : Engine) (t : Tree) (k : Call) :
    (k.perform e t).1.config = e.config := by
  cases k with
  | applyOptions o =>
    rw [Call.perform, Engine.applyOptions]
    simp only
    split
    · rw [config_switchMode]
    · rw [config_processBatch, config_switchMode]
  | setMode mode =>
    rw [Call.perform, Engine.setMode]
    simp only
    split
    · rw [config_processBatch, config_switchMode]
    · rw [config_switchMode]
  | processBatch batch => exact config_processBatch e t batch

/-- What operations, the scorer's words and forgetting keep, every call keeps. -/
theorem perform_induction (kept : KeptBy e.config.aiCheckedAttribute I) (upToDate : UpToDate e t)
    (before : I e.record t) (k : Call) : I (k.perform e t).1.record (k.perform e t).2 := by
  cases k with
  | applyOptions o =>
    have loaded := upToDate.load _ (nodup_readRules e.config o e.catalog)
    have switched := loaded.switchMode o.mode
    have keptLoaded := kept.load upToDate.sound before
      (readRules e.config (o.merge e.catalog)).1
    have keptSwitched :=
      KeptByOperations.switchMode (e := { e with record := _, rules := _ }) kept.toKeptByOperations
        loaded.sound keptLoaded o.mode
    rw [Call.perform, Engine.applyOptions]
    simp only
    split
    · exact keptSwitched
    · refine KeptBy.processBatch ?_ switched.sound keptSwitched .wholePage
      rw [config_switchMode]
      exact kept
  | setMode mode =>
    have switched := kept.switchMode upToDate.sound before mode
    rw [Call.perform, Engine.setMode]
    simp only
    split
    · refine KeptBy.processBatch ?_ (upToDate.switchMode mode).sound switched .wholePage
      rw [config_switchMode]
      exact kept
    · exact switched
  | processBatch batch => exact kept.processBatch upToDate.sound before batch

end

/-- Calls write to elements only. -/
theorem keptBy_sameFrame (scored : String) (t : Tree) : KeptBy scored fun _ t' => t.SameFrame t' where
  operate o _ _ sound onElement frame := frame.trans (o.sameFrame_apply sound.stands onElement)
  judge _ _ _ e _ here frame := frame.trans (.put (Tree.isElement_iff.mpr ⟨e, here⟩))
  prune _ _ frame := frame

theorem sameFrame_perform {e : Engine} {t : Tree} (upToDate : UpToDate e t) (k : Call) :
    t.SameFrame (k.perform e t).2 :=
  perform_induction (keptBy_sameFrame _ t) upToDate (.refl t) k

/-- Calls go on to name rules in the same attribute. -/
theorem keptBy_named (scored marker : String) : KeptBy scored fun r _ => r.marker = marker where
  operate o _ _ sound onElement named := (o.marker_apply sound.stands onElement).trans named
  judge _ _ _ _ _ _ named := named
  prune _ _ named := named

/-! ## Recorded elements -/

/-- Rules are named by `marker`, and every recorded element stands in a relation to its record. -/
def OnRecorded (marker : String) (P : NodeRecord → Element → Prop) (r : Record) (t : Tree) : Prop :=
  r.marker = marker ∧ ∀ id n e, r.get? id = some n → t.element? id = some e → P n e

/-- What every change of a node brings about, and the scorer's word does not take away, every call
keeps. -/
theorem keptBy_onRecorded {marker scored : String} {P : NodeRecord → Element → Prop}
    (turn : ∀ {change n e n' e'}, (∀ m, n = some m → P m e) →
      Record.Turn marker change n (some e) (some n') (some e') → P n' e')
    (said : ∀ n e word, P n e → P n (e.set scored word)) :
    KeptBy scored (OnRecorded marker P) where
  operate o r t sound onElement before := by
    obtain ⟨rfl, holds⟩ := before
    refine ⟨o.marker_apply sound.stands onElement, fun id n' e' found there => ?_⟩
    obtain ⟨e, here⟩ := Tree.isElement_iff.mp <|
      ((o.sameFrame_apply sound.stands onElement).isElement id).symm.trans
        (Tree.isElement_iff.mpr ⟨e', there⟩)
    have turned := o.apply_at sound.stands onElement id
    rw [here, found, there] at turned
    exact turn (fun m recorded => holds id m e recorded here) turned
  judge r t id e word here before := by
    refine ⟨before.1, fun other n e' found there => ?_⟩
    rw [Tree.element?_put (Tree.isElement_iff.mpr ⟨e, here⟩)] at there
    split at there
    · rename_i same
      cases there
      exact said n e word (before.2 other n e found (same ▸ here))
    · exact before.2 other n e' found there
  prune r t before := by
    refine ⟨before.1, fun id n e found there => ?_⟩
    rw [get?_prune, Option.filter_eq_some_iff] at found
    exact before.2 id n e found.1 there

/-- Rules are named by `marker`, and the classes of every recorded element agree with its record. -/
def MarkersAgree (marker : String) (r : Record) (t : Tree) : Prop :=
  r.marker = marker ∧
    ∀ id n e, r.get? id = some n → t.element? id = some e → ClassesAgree n e

theorem keptBy_markersAgree {marker scored : String} (notClass : Text.lower marker ≠ "class")
    (scoredNotClass : Text.lower scored ≠ "class") : KeptBy scored (MarkersAgree marker) := by
  refine keptBy_onRecorded (fun before turn => ?_) fun n e word agree => agree.of_same ?_ ?_
  · obtain ⟨left, same, agree⟩ := ClassesAgree.turn before notClass turn
    cases same
    exact agree _ rfl
  · exact (e.classes_set scored word).trans (if_neg scoredNotClass)
  · exact (e.get?_set scored word "class").trans (if_neg (by simpa using scoredNotClass))

/-- Rules are named by `marker`, which names the rule of the last entry on every recorded element. -/
def MarkersName (marker : String) : Record → Tree → Prop :=
  OnRecorded marker fun n e => e.get? marker = n.entries.getLast?.map (·.ruleId)

theorem keptBy_markersName {marker scored : String}
    (different : Text.lower marker ≠ Text.lower scored) : KeptBy scored (MarkersName marker) := by
  refine keptBy_onRecorded (fun before turn => ?_) fun n e word named => ?_
  · cases turn with
    | left _ record element =>
      cases element
      exact before _ record.symm
    | marked entries old _ same record after =>
      cases same
      cases after
      rw [Record.kept] at record
      split at record
      · cases record
      · rename_i filled
        cases record
        exact Draft.get?_reconcile_marker _ marker filled
  · exact ((e.get?_set scored word marker).trans (if_neg different.symm)).trans named

namespace Run

variable {config : Config} {catalog : Catalog} {page : Tree} {e : Engine} {t : Tree}

theorem config_eq {allowed : Record → Edit → Prop} (run : Run allowed config catalog page e t) :
    e.config = config := by
  induction run with
  | start made => exact (eq_of_ofConfig made).1
  | call k _ ih => exact (config_perform _ _ k).trans ih
  | edit _ _ _ ih => exact ih

/-- The record names rules in the attribute of the configuration. -/
theorem named {allowed : Record → Edit → Prop} (run : Run allowed config catalog page e t) :
    e.record.marker = config.classificationAttribute := by
  induction run with
  | start made => rw [(eq_of_ofConfig made).2.2.2]
  | call k before ih => exact perform_induction (keptBy_named _ _) before.upToDate ih k
  | edit _ _ _ ih => exact ih

/-- What calls keep of recorded elements, and edits that spare the marks, holds throughout. -/
theorem onRecorded {P : NodeRecord → Element → Prop}
    (run : Run Record.SparesMarks config catalog page e t)
    (kept : KeptBy config.aiCheckedAttribute (OnRecorded config.classificationAttribute P))
    (edited : ∀ (w : Edit) (id : NodeId) n e, w.Keeps id "class" →
      w.Keeps id config.classificationAttribute → P n e → P n (w.onElement id e)) :
    OnRecorded config.classificationAttribute P e.record t := by
  induction run with
  | start made =>
    obtain ⟨-, -, -, record⟩ := eq_of_ofConfig made
    rw [record]
    exact ⟨rfl, fun id n e found => by cases found⟩
  | call k before ih => exact perform_induction (before.config_eq ▸ kept) before.upToDate ih k
  | @edit e t w before spares ih =>
    refine ⟨ih.1, fun id n e' found there => ?_⟩
    obtain ⟨old, here⟩ := Tree.isElement_iff.mp (before.upToDate.sound.stands id n found).1
    obtain ⟨keepsClass, -, keepsMarker⟩ := spares id n found
    cases (w.element?_apply here).symm.trans there
    exact edited w id n old keepsClass (ih.1 ▸ keepsMarker) (ih.2 id n old found here)

/-- As long as others spare the marks, the classes of recorded elements agree with the record. -/
theorem markersAgree (run : Run Record.SparesMarks config catalog page e t)
    (notClass : Text.lower config.classificationAttribute ≠ "class")
    (scoredNotClass : Text.lower config.aiCheckedAttribute ≠ "class") :
    MarkersAgree config.classificationAttribute e.record t :=
  run.onRecorded (keptBy_markersAgree notClass scoredNotClass) fun w _ _ _ keepsClass _ agree =>
    agree.of_same (w.classes_onElement keepsClass) (w.get?_onElement keepsClass)

/-- As long as others spare the marks, every recorded element names the rule of its last entry. -/
theorem markersName (run : Run Record.SparesMarks config catalog page e t)
    (different : Text.lower config.classificationAttribute ≠
      Text.lower config.aiCheckedAttribute) :
    MarkersName config.classificationAttribute e.record t :=
  run.onRecorded (keptBy_markersName different) fun w _ _ _ _ keepsMarker named =>
    (w.get?_onElement keepsMarker).trans named

/-! ## Links -/

/-- Calls do not touch the links between nodes. -/
theorem keptBy_linked (scored : String) : KeptBy scored fun _ t => t.Linked where
  operate o _ _ sound onElement linked :=
    linked.of_sameFrame (o.sameFrame_apply sound.stands onElement)
  judge _ _ _ e _ here linked := linked.of_sameFrame (.put (Tree.isElement_iff.mpr ⟨e, here⟩))
  prune _ _ linked := linked

/-- A page stays well linked, whatever is done to it. -/
theorem linked {allowed : Record → Edit → Prop} (run : Run allowed config catalog page e t)
    (linked : page.Linked) : t.Linked := by
  induction run with
  | start _ => exact linked
  | call k before ih => exact perform_induction (keptBy_linked _) before.upToDate ih k
  | edit w _ _ ih => exact ih.edit w

end Run

end NoiseFilter.Engine
