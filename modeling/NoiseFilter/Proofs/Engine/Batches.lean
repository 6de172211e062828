import NoiseFilter.Proofs.Engine.Settle

/-!
# Batches that are split, merged and swapped

Nodes that are added to a page may be reported in one batch or in several, in any order, and more
than once. What becomes of the page is the same: a batch is one act on each of its candidates, acts
on different candidates do not see each other, and an act that has been carried out comes to nothing
the second time.
-/

namespace NoiseFilter.Engine

open Record (each)

variable {e : Engine} {t start : Tree} {tests : List Test}

/-- A batch is not seen by the selectors in use. -/
theorem unseen_processBatch (on : e.mode ≠ .off) (discreet : Discreet e.config tests e.Writes)
    {batch : ChangeBatch} (sound : e.record.Sound t)
    (unseen : Unseen e.config.classificationAttribute tests start
      ((e.prepare t batch).record, t)) :
    Unseen e.config.classificationAttribute tests start
      ((e.processBatch t batch).2.1.record, (e.processBatch t batch).2.2) := by
  obtain ⟨s, result, steps⟩ := processBatch_steps on sound batch
  rw [result]
  exact discreet.steps unseen steps

/-- One batch of added nodes after another does what a batch does that looks at the candidates of
both. -/
theorem processBatch_processBatch (on : e.mode ≠ .off) (upToDate : UpToDate e t)
    (linked : t.Linked) (discreet : Discreet e.config tests e.Writes)
    (tested : ∀ x ∈ e.testsInUse, x ∈ tests)
    (unseen : Unseen e.config.classificationAttribute tests t (e.record, t))
    {first second both : List NodeId} (distinct : (batchCandidates t both).Nodup)
    (members : ∀ id, id ∈ batchCandidates t both ↔
      id ∈ batchCandidates t first ∨ id ∈ batchCandidates t second) :
    let once := e.processBatch t { added := first }
    (once.2.1.processBatch once.2.2 { added := second }).2 =
      (e.processBatch t { added := both }).2 := by
  intro once
  have distinctFirst := nodup_batchCandidates linked first
  have firstDone : once.2 =
      let s := each (e.passAct t) (batchCandidates t first) (e.record, t)
      ({ e with record := s.1 }, s.2) :=
    processBatch_eq_each on discreet tested linked unseen
  have unseenOnce : Unseen e.config.classificationAttribute tests t (once.2.1.record, once.2.2) :=
    unseen_processBatch on discreet upToDate.sound unseen
  have bothDone : (e.processBatch t { added := both }).2 =
      let s := each (e.passAct t) (batchCandidates t both) (e.record, t)
      ({ e with record := s.1 }, s.2) :=
    processBatch_eq_each on discreet tested linked unseen
  rw [bothDone]
  rw [firstDone] at unseenOnce ⊢
  generalize reached : each (e.passAct t) (batchCandidates t first) (e.record, t) = s at *
  have frame : t.SameFrame s.2 := reached ▸ Record.sameFrame_each _ _ (e.record, t)
  have secondDone : (({ e with record := s.1 } : Engine).processBatch s.2 { added := second }).2 =
      let s' := each (({ e with record := s.1 } : Engine).passAct t) (batchCandidates s.2 second) s
      ({ e with record := s'.1 }, s'.2) :=
    processBatch_eq_each (e := { e with record := s.1 }) on discreet tested
      (linked.of_sameFrame frame) unseenOnce
  have together {ids : List NodeId} (distinctSecond : ids.Nodup)
      (membersSecond : ∀ id, id ∈ ids ↔ id ∈ batchCandidates t second) :
      each (e.passAct t) ids s = each (e.passAct t) (batchCandidates t both) (e.record, t) := by
    rw [← reached]
    refine Record.each_each distinctFirst distinctSecond distinct (fun id => ?_) fun id _ el _ => ?_
    · rw [members, membersSecond]
    · exact passAct_passAct discreet (upToDate.sound.ranked id) upToDate.distinct
  rw [passAct_record] at secondDone
  rw [secondDone, together (nodup_batchCandidates (linked.of_sameFrame frame) second)
    fun id => frame.mem_batchCandidates linked]

/-- Two batches of added nodes, whatever they have in common, do the same one after the other, the
other way round, and as one batch: the same is recorded and the trees are equal, down to the text of
attributes and the count of writes. -/
theorem processBatch_append {config : Config} {catalog : Catalog} {page : Tree}
    (run : Run Record.SparesMarks config catalog page e t) (linked : page.Linked)
    (on : e.mode ≠ .off) (discreet : Discreet e.config e.testsInUse e.Writes)
    (host : HostClasses e.record t) (first second : List NodeId) :
    let one := e.processBatch t { added := first }
    let other := e.processBatch t { added := second }
    let merged := e.processBatch t { added := first ++ second }
    (one.2.1.processBatch one.2.2 { added := second }).2 = merged.2 ∧
      (other.2.1.processBatch other.2.2 { added := first }).2 = merged.2 := by
  have upToDate := run.upToDate
  have linkedNow := run.linked linked
  have config_eq := run.config_eq
  have agree := run.markersAgree (config_eq ▸ discreet.marker.1) (config_eq ▸ discreet.scored.1)
  rw [← config_eq] at agree
  have unseen : Unseen e.config.classificationAttribute e.testsInUse t (e.record, t) :=
    unseen_prepare upToDate agree host
      (fun c written => ⟨discreet.words c written, discreet.classes c written⟩)
      { added := first ++ second }
  have distinct := nodup_batchCandidates linkedNow (first ++ second)
  have members (id : NodeId) : id ∈ batchCandidates t (first ++ second) ↔ _ :=
    mem_batchCandidates_append linkedNow
  constructor
  · exact processBatch_processBatch on upToDate linkedNow discreet (fun _ => id) unseen distinct
      members
  · exact processBatch_processBatch on upToDate linkedNow discreet (fun _ => id) unseen distinct
      fun id => (members id).trans or_comm

/-- A paragraph is reported twice, and with it a node that there is not. -/
theorem processBatch_append_paragraph :
    let one := paragraphEngine.processBatch paragraphPage { added := [⟨1⟩] }
    let merged := paragraphEngine.processBatch paragraphPage { added := [⟨1⟩, ⟨9⟩, ⟨1⟩] }
    (one.2.1.processBatch one.2.2 { added := [⟨9⟩, ⟨1⟩] }).2 = merged.2 ∧
      (merged.2.1.record.entriesAt ⟨1⟩).map (·.ruleId) = ["r"] := by
  intro one merged
  have both := processBatch_append run_paragraphPage .empty (by decide +kernel)
    discreet_paragraphEngine hostClasses_paragraphPage [⟨1⟩] [⟨9⟩, ⟨1⟩]
  exact ⟨both.1, by decide +kernel⟩

end NoiseFilter.Engine
