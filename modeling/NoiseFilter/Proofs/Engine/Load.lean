import NoiseFilter.Proofs.Engine.Act

/-!
# Loading options, move by move

Loading options puts new rules in force while the old mode holds (`load`), changes the mode (`turn`)
and, unless the mode is off, looks at the whole page. Each move is taken by itself here: what it
leaves of the engine, which entries it leaves, and that selectors do not see it. Every other call is
made of such moves as well: it enters with passes over all records, and then may look at a batch.
-/

namespace NoiseFilter.Engine

/-- The rules that options put in force. -/
def rulesOf (e : Engine) (o : Options) : List Rule := (readRules e.config (o.merge e.catalog)).1

/-- Drop the entries that no rule would write. -/
def dropStale (rules : List Rule) : Record.Operation :=
  .revertWhere fun c => !rules.any (·.produces c)

/-- Give entries the ranks of their rules. -/
def takeRanks (rules : List Rule) : Record.Operation :=
  .rerank fun id => rules.findIdx? (·.id == id)

/-- Put rules in force: entries that none of them would write are dropped, the others take the ranks
of their rules. -/
def load (e : Engine) (t : Tree) (rules : List Rule) : Engine × Tree :=
  let dropped := (dropStale rules).apply e.record t
  let ranked := (takeRanks rules).apply dropped.1 dropped.2
  ({ e with rules, record := ranked.1 }, ranked.2)

/-- Put the rules of options in force, and their mode. -/
def turn (e : Engine) (t : Tree) (o : Options) : Engine × Tree :=
  let loaded := e.load t (e.rulesOf o)
  (loaded.1.switchMode loaded.2 o.mode).2

variable {e : Engine} {t : Tree}

/-! ## What is left of the engine -/

/-- Changing the mode changes the mode and what is recorded. -/
theorem switchMode_engine (e : Engine) (t : Tree) (mode : Mode) :
    (e.switchMode t mode).2.1 =
      { e with mode, record := (e.switchMode t mode).2.1.record } := by
  rw [switchMode]
  split
  · rename_i same
    exact same ▸ rfl
  · split <;> rfl

/-- A batch changes what is recorded only. -/
theorem processBatch_engine (e : Engine) (t : Tree) (batch : ChangeBatch) :
    (e.processBatch t batch).2.1 = { e with record := (e.processBatch t batch).2.1.record } := by
  rw [processBatch]
  split
  · rfl
  · rw [prepare_eq]
    simp only
    split <;> rfl

theorem turn_engine (e : Engine) (t : Tree) (o : Options) :
    (e.turn t o).1 =
      { e with mode := o.mode, rules := e.rulesOf o, record := (e.turn t o).1.record } := by
  rw [turn, switchMode_engine]
  rfl

/-! ## Entries -/

/-- Entries that rules would write stay when the rules are put in force, with the ranks of the
rules, and no others. -/
theorem mem_entriesAt_load (sound : e.record.Sound t) {rules : List Rule} {id : NodeId}
    {c : Classification} (member : c ∈ (e.load t rules).1.record.entriesAt id) :
    ∃ x ∈ e.record.entriesAt id, rules.any (·.produces x) = true ∧
      c = { x with rank := (rules.findIdx? (·.id == x.ruleId)).getD x.rank } := by
  have soundDropped := sound.apply (dropStale rules) trivial
  have ranked := (takeRanks rules).entriesAt_apply soundDropped.stands trivial id
  have dropped := (dropStale rules).entriesAt_apply sound.stands trivial id
  rw [dropStale, Record.Operation.after_revertWhere, ← dropStale] at dropped
  rw [takeRanks, Record.Operation.after_rerank, ← takeRanks, dropped] at ranked
  obtain ⟨x, kept, same⟩ := NodeRecord.mem_rerank.mp (ranked ▸ member)
  obtain ⟨there, produced⟩ := List.mem_filter.mp kept
  exact ⟨x, there, by simpa using produced, same.symm⟩

theorem UpToDate.loaded (upToDate : UpToDate e t) (o : Options) :
    UpToDate (e.load t (e.rulesOf o)).1 (e.load t (e.rulesOf o)).2 :=
  upToDate.load _ (nodup_readRules e.config o e.catalog)

theorem UpToDate.turn (upToDate : UpToDate e t) (o : Options) :
    UpToDate (e.turn t o).1 (e.turn t o).2 :=
  (upToDate.loaded o).switchMode o.mode

/-- While the mode is off nothing is recorded. -/
theorem UpToDate.get?_of_off (upToDate : UpToDate e t) (off : e.mode = .off) (id : NodeId) :
    e.record.get? id = none := by
  cases found : e.record.get? id with
  | none => rfl
  | some n =>
    obtain ⟨c, member⟩ := List.exists_mem_of_ne_nil _ (upToDate.sound.stands id n found).2
    obtain ⟨r, -, entry⟩ := upToDate.written id c (Record.entriesAt_of_get? found ▸ member)
    rw [off] at entry
    cases entry

theorem KeptByOperations.turn {I : Record → Tree → Prop} (kept : KeptByOperations I)
    (upToDate : UpToDate e t) (before : I e.record t) (o : Options) :
    I (e.turn t o).1.record (e.turn t o).2 :=
  KeptByOperations.switchMode (e := (e.load t (e.rulesOf o)).1) kept (upToDate.loaded o).sound
    (kept.load upToDate.sound before (e.rulesOf o)) o.mode

/-! ## Calls -/

/-- What a call does before it looks at a batch. -/
def Call.enter (e : Engine) (t : Tree) : Call → Engine × Tree
  | applyOptions o => e.turn t o
  | setMode mode => (e.switchMode t mode).2
  | processBatch _ => (e, t)

/-- The batch that a call looks at. -/
def Call.batch? (e : Engine) : Call → Option ChangeBatch
  | applyOptions o => if o.mode = .off then none else some .wholePage
  | setMode mode => if e.mode = .off ∧ mode ≠ .off then some .wholePage else none
  | processBatch batch => some batch

/-- What a call reports of a batch. -/
def Call.report (e : Engine) (t : Tree) : Call → BatchReport
  | applyOptions o => (e.applyOptions t o).1.batch
  | setMode mode => (e.setMode t mode).1
  | processBatch batch => (e.processBatch t batch).1

/-- What a batch does, if there is one. -/
def look (s : Engine × Tree) : Option ChangeBatch → BatchReport × Engine × Tree
  | none => ({}, s)
  | some batch => s.1.processBatch s.2 batch

section

variable (e : Engine) (t : Tree) (k : Call)

theorem applyOptions_look (o : Options) :
    ((e.applyOptions t o).1.batch, (e.applyOptions t o).2) =
      look (e.turn t o) ((Call.applyOptions o).batch? e) := by
  have mode : (e.turn t o).1.mode = o.mode := by rw [turn_engine]
  rw [Call.batch?, ← mode, applyOptions]
  simp only
  show ((if (e.turn t o).1.mode = .off then (({} : BatchReport), e.turn t o)
    else (e.turn t o).1.processBatch (e.turn t o).2 .wholePage).1,
    (if (e.turn t o).1.mode = .off then (({} : BatchReport), e.turn t o)
    else (e.turn t o).1.processBatch (e.turn t o).2 .wholePage).2) = _
  split <;> rfl

theorem setMode_look (mode : Mode) :
    e.setMode t mode =
      let sweep := (e.switchMode t mode).1
      let looked := look (e.switchMode t mode).2 ((Call.setMode mode).batch? e)
      ({ looked.1 with
        reverted := looked.1.reverted + sweep.changed, errors := looked.1.errors + sweep.failed },
        looked.2) := by
  rw [setMode, Call.batch?]
  simp only
  split <;> rfl

theorem applyOptions_eq (o : Options) :
    (e.applyOptions t o).2 =
      if o.mode = .off then e.turn t o
      else ((e.turn t o).1.processBatch (e.turn t o).2 .wholePage).2 := by
  refine (congrArg Prod.snd (applyOptions_look e t o)).trans ?_
  rw [Call.batch?]
  split <;> rfl

/-- Options leave behind their rules and their mode. -/
theorem applyOptions_engine (o : Options) :
    (e.applyOptions t o).2.1 =
      { e with
        mode := o.mode, rules := e.rulesOf o, record := (e.applyOptions t o).2.1.record } := by
  rw [applyOptions_eq]
  split
  · exact turn_engine e t o
  · rw [processBatch_engine, turn_engine]

/-- A call enters, and then looks at its batch. -/
theorem Call.perform_eq : k.perform e t = (look (k.enter e t) (k.batch? e)).2 := by
  cases k with
  | applyOptions o => exact congrArg Prod.snd (applyOptions_look e t o)
  | setMode mode => rw [perform, setMode_look]; rfl
  | processBatch batch => rfl

theorem Call.scored_report :
    (k.report e t).scored = (look (k.enter e t) (k.batch? e)).1.scored := by
  cases k with
  | applyOptions o => exact congrArg (·.1.scored) (applyOptions_look e t o)
  | setMode mode => rw [report, setMode_look]; rfl
  | processBatch batch => rfl

theorem Call.config_enter : (k.enter e t).1.config = e.config := by
  cases k with
  | applyOptions o => rw [enter, turn_engine]
  | setMode mode => exact config_switchMode e t mode
  | processBatch batch => rfl

end

theorem KeptByOperations.enter {I : Record → Tree → Prop} (kept : KeptByOperations I)
    (upToDate : UpToDate e t) (before : I e.record t) (k : Call) :
    I (k.enter e t).1.record (k.enter e t).2 := by
  cases k with
  | applyOptions o => exact kept.turn upToDate before o
  | setMode mode => exact kept.switchMode upToDate.sound before mode
  | processBatch batch => exact before

theorem sameFrame_enter (upToDate : UpToDate e t) (k : Call) : t.SameFrame (k.enter e t).2 :=
  (keptBy_sameFrame e.config.aiCheckedAttribute t).enter upToDate (.refl t) k

theorem Run.named_enter {allowed : Record → Edit → Prop} {config : Config} {catalog : Catalog}
    {page : Tree} (run : Run allowed config catalog page e t) (k : Call) :
    (k.enter e t).1.record.marker = (k.enter e t).1.config.classificationAttribute := by
  rw [Call.config_enter, run.config_eq]
  exact (keptBy_named e.config.aiCheckedAttribute _).enter run.upToDate run.named k

/-! ## What sweeps keep -/

/-- A property of record and tree that sweeps over all records keep, as long as they leave entries
of some sort, where the rank of an entry does not matter to its sort. -/
structure KeptBySweeps (sort : Classification → Prop) (I : Pass.State → Prop) : Prop where
  ranks : ∀ c rank, sort c → sort { c with rank }
  sound : ∀ s, I s → s.1.Sound s.2
  entries : ∀ s, I s → ∀ id, ∀ c ∈ s.1.entriesAt id, sort c
  sweep : ∀ (s : Pass.State) (o : Record.Operation), o.IsSweep → I s →
    (∀ id, ∀ c ∈ (o.apply s.1 s.2).1.entriesAt id, sort c) → I (o.apply s.1 s.2)

namespace KeptBySweeps

variable {sort : Classification → Prop} {I : Pass.State → Prop} (kept : KeptBySweeps sort I)
  (before : I (e.record, t))

include kept before

theorem load (rules : List Rule) : I ((e.load t rules).1.record, (e.load t rules).2) := by
  have sound : e.record.Sound t := kept.sound _ before
  have sorted := kept.entries _ before
  have dropped := kept.sweep _ (dropStale rules) trivial before fun id c member => by
    have left := (dropStale rules).entriesAt_apply sound.stands trivial id
    rw [dropStale, Record.Operation.after_revertWhere, ← dropStale] at left
    exact sorted id c (List.mem_filter.mp (left ▸ member)).1
  refine kept.sweep _ (takeRanks rules) trivial dropped fun id c member => ?_
  obtain ⟨old, there, -, rfl⟩ := mem_entriesAt_load sound member
  exact kept.ranks old _ (sorted id old there)

theorem switchMode (mode : Mode)
    (after : ∀ id, ∀ c ∈ (e.switchMode t mode).2.1.record.entriesAt id, sort c) :
    I ((e.switchMode t mode).2.1.record, (e.switchMode t mode).2.2) := by
  rw [Engine.switchMode] at after ⊢
  split at after
  · rename_i same
    rw [if_pos same]
    exact before
  · rename_i different
    rw [if_neg different]
    split at after
    · exact kept.sweep _ .revertAll trivial before after
    · rename_i toggle class?
      exact kept.sweep _ (.retarget .toggle toggle) trivial before after

theorem turn (o : Options) (after : ∀ id, ∀ c ∈ (e.turn t o).1.record.entriesAt id, sort c) :
    I ((e.turn t o).1.record, (e.turn t o).2) :=
  kept.switchMode (kept.load before (e.rulesOf o)) o.mode after

theorem enter (k : Call) (after : ∀ id, ∀ c ∈ (k.enter e t).1.record.entriesAt id, sort c) :
    I ((k.enter e t).1.record, (k.enter e t).2) := by
  cases k with
  | applyOptions o => exact kept.turn before o after
  | setMode mode => exact kept.switchMode before mode after
  | processBatch batch => exact before

end KeptBySweeps

/-! ## What selectors see -/

namespace Unseen

variable {marker : String} {tests : List Test} {start : Tree}

/-- Sweeps that leave plain entries are not seen. -/
theorem keptBySweeps (notClass : Text.lower marker ≠ "class") (blind : Record.Blind marker tests) :
    KeptBySweeps (fun c => Text.IsWord c.cls ∧ .cls c.cls ∉ tests)
      (Unseen marker tests start) where
  ranks _ _ plain := plain
  sound _ unseen := unseen.sound
  entries _ unseen := unseen.plain
  sweep _ o sweep unseen plain := unseen.operate notClass blind o (sweep.onElement _) plain

/-- Elements that are forgotten are not seen to be. -/
theorem prepare (unseen : Unseen marker tests start (e.record, t)) (batch : ChangeBatch) :
    Unseen marker tests start ((e.prepare t batch).record, t) := by
  refine ⟨sound_prepare unseen.sound batch, (marker_prepare ..).trans unseen.named,
    fun id el here => ?_,
    fun id x member => unseen.plain id x (mem_entriesAt_of_prepare member), unseen.like⟩
  obtain ⟨parsed, baseline, agree⟩ := unseen.inOrder id el here
  exact ⟨parsed, fun n found => baseline n (get?_of_prepare found),
    fun n found => agree n (get?_of_prepare found)⟩

/-- What holds of a page that has come about without being seen holds of it as a page to start with,
for any selectors that its entries are plain for. -/
theorem restart {s : Pass.State} {tests' : List Test} (unseen : Unseen marker tests start s)
    (plain : ∀ id, ∀ x ∈ s.1.entriesAt id, Text.IsWord x.cls ∧ .cls x.cls ∉ tests') :
    Unseen marker tests' s.2 s :=
  ⟨unseen.sound, unseen.named, unseen.inOrder, plain, .refl _⟩

end Unseen

end NoiseFilter.Engine
