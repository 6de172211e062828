import NoiseFilter.Proofs.Engine.Confined
import NoiseFilter.Proofs.Engine.Load

/-!
# What can fail

The engine writes to candidates and to recorded nodes. All of them are elements, whatever others do
to the page, so that no write is refused: passes over all records do not fail (`failed_sweep`), and
a rule of which all selectors can be read is never given up. A rule with a selector that is none is
given up before it writes anything. A batch therefore counts the broken rules, and does what the
other rules do by themselves (`letLook_withErrors`).
-/

namespace NoiseFilter

/-! ## Broken rules -/

/-- Whether the base and all selectors inside `:has(…)` are selectors. -/
def ExtendedSelector.isReadable (s : ExtendedSelector) : Bool :=
  (Selector.ofString s.base).isOk &&
    s.has.all fun clause => clause.all fun h => (Selector.ofString h.query).isOk

/-- Whether a rule has a selector of which some part is no selector. -/
def Rule.isBroken (r : Rule) : Bool := r.action.selector?.any fun s => !s.isReadable

section

variable {ε α β : Type}

theorem isOk_bind (x : Except ε α) (f : α → β) : (x >>= fun a => pure (f a)).isOk = x.isOk := by
  cases x <;> rfl

theorem isOk_mapM (f : α → Except ε β) (l : List α) :
    (l.mapM f).isOk = l.all fun a => (f a).isOk := by
  induction l with
  | nil => rfl
  | cons a rest ih =>
    rw [List.mapM_cons, List.all_cons, ← ih]
    cases f a with
    | error _ => rfl
    | ok b => exact isOk_bind ..

end

theorem isOk_readNamed (name text : String) :
    (readNamed name text).isOk = (Selector.ofString text).isOk := by
  rw [readNamed]
  cases Selector.ofString text <;> rfl

theorem ExtendedSelector.isOk_read (s : ExtendedSelector) : s.read.isOk = s.isReadable := by
  have probes (clause : HasClause) : (clause.mapM Probe.ofHasTest).isOk =
      clause.all fun h => (Selector.ofString h.query).isOk := by
    rw [isOk_mapM]
    refine congrArg clause.all (funext fun h => ?_)
    rw [Probe.ofHasTest, isOk_bind, HasTest.selector, isOk_readNamed]
  have clauses : (s.has.mapM fun clause : HasClause => clause.mapM Probe.ofHasTest).isOk =
      s.has.all fun clause => clause.all fun h => (Selector.ofString h.query).isOk := by
    rw [isOk_mapM]
    exact congrArg s.has.all (funext probes)
  have base : s.structural.isOk = (Selector.ofString s.base).isOk := isOk_readNamed ..
  rw [isReadable, ← clauses, ← base, read]
  cases s.structural with
  | error _ => rfl
  | ok x => exact isOk_bind ..

theorem Rule.isBroken_of_selector {r : Rule} {s : ExtendedSelector}
    (selector : r.action.selector? = some s) : r.isBroken = !s.read.isOk := by
  rw [isBroken, selector, s.isOk_read]
  rfl

/-! ## Passes over all records -/

namespace Record

variable {r : Record} {t : Tree} {marker : String}
  {f : List Classification → Option (List Classification)}
  {step : Tree → NodeId → NodeRecord → Sweep × NodeRecord × Tree}

/-- A step that does not fail on elements. -/
def Succeeds (step : Tree → NodeId → NodeRecord → Sweep × NodeRecord × Tree) : Prop :=
  ∀ (t : Tree) (id : NodeId) (n : NodeRecord), t.isElement id = true → (step t id n).1.failed = 0

theorem succeeds_revertNode (marker : String) (p : Classification → Bool) :
    Succeeds (revertNode marker p) := by
  intro t id n isElement
  obtain ⟨e, here⟩ := Tree.isElement_iff.mp isElement
  rw [revertNode]
  split
  · rfl
  · simp only [Tree.reconcile_eq here]

theorem succeeds_updateNode (marker : String) (f : List Classification → List Classification) :
    Succeeds (updateNode marker f) := by
  intro t id n isElement
  obtain ⟨e, here⟩ := Tree.isElement_iff.mp isElement
  rw [updateNode]
  split
  · rfl
  · simp only [Tree.reconcile_eq here]

theorem failed_visit (changes : Changes marker f step) (succeeds : Succeeds step)
    (entries : List (NodeId × NodeRecord)) (elements : ∀ x ∈ entries, t.isElement x.1 = true) :
    (visit step t entries).1.failed = 0 := by
  induction entries generalizing t with
  | nil => rfl
  | cons x rest ih =>
    obtain ⟨id, n⟩ := x
    have isElement := elements (id, n) List.mem_cons_self
    obtain ⟨e, here⟩ := Tree.isElement_iff.mp isElement
    obtain ⟨-, frame, -⟩ := changes.on_element here n
    have later : (visit step (step t id n).2.2 rest).1.failed = 0 := ih fun x member =>
      (frame.isElement x.1).trans (elements x (List.mem_cons_of_mem _ member))
    show (step t id n).1.failed + (visit step (step t id n).2.2 rest).1.failed = 0
    rw [succeeds t id n isElement, later]

variable (stands : r.Stands t)

include stands

theorem failed_sweep (changes : Changes marker f step) (succeeds : Succeeds step) :
    (r.sweep t step).1.failed = 0 :=
  failed_visit changes succeeds _ fun x member =>
    (stands x.1 x.2 (r.nodes.get?_eq_some_iff.mpr member)).1

theorem failed_revertWhere (p : Classification → Bool) : (r.revertWhere t p).1.failed = 0 :=
  failed_sweep stands (changes_revertNode r.marker p) (succeeds_revertNode r.marker p)

theorem failed_retarget (kind : EntryKind) (cls : String) : (r.retarget t kind cls).1.failed = 0 :=
  failed_sweep stands (changes_updateNode r.marker (NodeRecord.retarget kind cls))
    (succeeds_updateNode _ _)

theorem failed_rerank (rank? : String → Option Nat) : (r.rerank t rank?).1.failed = 0 :=
  failed_sweep stands (changes_updateNode r.marker (NodeRecord.rerank rank?))
    (succeeds_updateNode _ _)

end Record

/-! ## Passes of rules -/

namespace Pass

/-- Count other errors. -/
def withErrors (n : Nat) (p : Pass) : Pass := { p with report := { p.report with errors := n } }

variable {engine : Engine} {candidates : List NodeId} {c : Classification} {p : Pass}

/-! ### Errors counted so far do not matter -/

section

variable (n : Nat)

theorem classifyEach_withErrors (ids : List NodeId) (p : Pass) :
    classifyEach c ids (p.withErrors n) = (classifyEach c ids p).map id (withErrors n) := by
  induction ids generalizing p with
  | nil => rfl
  | cons id rest ih =>
    simp only [classifyEach, withErrors]
    split
    · rfl
    · rename_i changed record tree _
      exact ih ⟨record, tree, { p.report with classified := p.report.classified + changed.toNat }⟩

theorem unclassifyEach_withErrors (ruleId : String) (ids : List NodeId) (p : Pass) :
    unclassifyEach ruleId ids (p.withErrors n) =
      (unclassifyEach ruleId ids p).map id (withErrors n) := by
  induction ids generalizing p with
  | nil => rfl
  | cons id rest ih =>
    simp only [unclassifyEach, withErrors]
    split
    · rfl
    · rename_i changed record tree _
      exact ih ⟨record, tree, { p.report with reverted := p.report.reverted + changed.toNat }⟩

theorem applySelector_withErrors (x : ExtendedSelector) (p : Pass) :
    applySelector x candidates c (p.withErrors n) =
      (applySelector x candidates c p).map id (withErrors n) := by
  have same : (p.withErrors n).tree = p.tree := rfl
  rw [applySelector, applySelector, same]
  cases x.select p.tree candidates with
  | error _ => rfl
  | ok matched =>
    simp only [classifyEach_withErrors]
    generalize classifyEach c matched p = done
    obtain ⟨fine, p'⟩ := done
    cases fine with
    | false => rfl
    | true => exact unclassifyEach_withErrors ..

theorem judge_withErrors (post : NodeId) (p : Pass) :
    judge engine post (p.withErrors n) =
      (judge engine post p).map fun answer => answer.map id (withErrors n) := by
  have same : (p.withErrors n).tree = p.tree := rfl
  simp only [judge, same]
  cases p.tree.attribute? post engine.config.aiCheckedAttribute with
  | some word => rfl
  | none =>
    cases engine.postText.queryFirst p.tree post with
    | none => rfl
    | some body =>
      simp only
      cases p.tree.setAttribute post engine.config.aiCheckedAttribute _ <;> rfl

theorem judgeEach_withErrors (ids : List NodeId) (p : Pass) :
    judgeEach engine c ids (p.withErrors n) =
      (judgeEach engine c ids p).map id (withErrors n) := by
  induction ids generalizing p with
  | nil => rfl
  | cons post rest ih =>
    simp only [judgeEach, judge_withErrors]
    cases judge engine post p with
    | error _ => rfl
    | ok answer =>
      obtain ⟨flagged, p₁⟩ := answer
      simp only [Except.map, Prod.map, id_eq, classifyEach_withErrors]
      generalize classifyEach c [post] p₁ = done
      obtain ⟨fine, p₂⟩ := done
      cases fine <;> split <;> first | rfl | exact ih _

end

/-! ### Rules -/

variable {rank : Nat} {r : Rule}

/-- A broken rule is counted, and that is all. -/
theorem applyRule_of_isBroken (on : engine.mode ≠ .off) (broken : r.isBroken = true) (p : Pass) :
    applyRule engine candidates rank r p = p.withErrors (p.report.errors + 1) := by
  obtain ⟨c, entry⟩ := r.exists_entryFor? engine.config on rank
  cases selector : r.action.selector? with
  | none =>
    rw [Rule.isBroken, selector] at broken
    cases broken
  | some x =>
    rw [Rule.isBroken_of_selector selector] at broken
    cases read : x.read with
    | ok q =>
      rw [read] at broken
      cases broken
    | error cause =>
      rw [applyRule, entry]
      simp only [selector, applySelector_of_unread read]
      rfl

variable (named : p.record.marker = engine.config.classificationAttribute)
  (elements : ∀ id ∈ candidates, p.tree.isElement id = true)

include named elements

/-- A rule that is not broken counts no error, and does the same whatever was counted before. -/
theorem applyRule_withErrors (whole : r.isBroken = false) (n : Nat) :
    applyRule engine candidates rank r (p.withErrors n) =
      (applyRule engine candidates rank r p).withErrors n := by
  cases entry : r.entryFor? engine.config engine.mode rank with
  | none => simp only [applyRule, entry]
  | some c =>
    simp only [applyRule, entry]
    cases selector : r.action.selector? with
    | some x =>
      rw [Rule.isBroken_of_selector selector] at whole
      cases read : x.read with
      | error cause =>
        rw [read] at whole
        cases whole
      | ok q =>
        have fine := (applySelector_eq_each (c := c) read elements).1
        simp only [applySelector_withErrors]
        generalize applySelector x candidates c p = done at fine
        obtain ⟨good, p'⟩ := done
        obtain rfl : good = true := fine
        rfl
    | none =>
      have same : (p.withErrors n).tree = p.tree := rfl
      have fine := judgeEach_fine (c := c) named fun id member =>
        elements id (List.mem_filter (p := engine.post.accepts p.tree none).mp member).1
      simp only [judgeEach_withErrors, same]
      generalize judgeEach engine c _ p = done at fine
      obtain ⟨good, p'⟩ := done
      obtain rfl : good = true := fine
      rfl

/-- Rules one after the other do what those that are not broken do by themselves, and count one
error for each of the others. -/
theorem letLook_withErrors (on : engine.mode ≠ .off) (rules : List (Rule × Nat)) (n : Nat) :
    letLook engine candidates rules (p.withErrors n) =
      (letLook engine candidates (rules.filter fun x => !x.1.isBroken) p).withErrors
        (n + rules.countP fun x => x.1.isBroken) := by
  induction rules generalizing p n with
  | nil => rfl
  | cons x rest ih =>
    obtain ⟨r, rank⟩ := x
    show letLook engine candidates rest (applyRule engine candidates rank r (p.withErrors n)) = _
    cases broken : r.isBroken with
    | true =>
      have skipped : applyRule engine candidates rank r (p.withErrors n) = p.withErrors (n + 1) :=
        applyRule_of_isBroken on broken _
      have counted := ih named elements (n + 1)
      rw [skipped]
      rw [List.filter_cons_of_neg (by simp [broken]), List.countP_cons_of_pos (by simp [broken])]
      simpa only [Nat.add_assoc, Nat.add_comm 1] using counted
    | false =>
      obtain ⟨namedThen, frame⟩ := frame_applyRule named elements rank r
      have counted := ih namedThen
        (fun id member => (frame.isElement id).trans (elements id member)) n
      rw [applyRule_withErrors named elements broken, List.filter_cons_of_pos (by simp [broken]),
        List.countP_cons_of_neg (by simp [broken])]
      exact counted

end Pass

/-! ## Calls -/

namespace Engine

variable {e : Engine} {t : Tree}

theorem failed_switchMode (stands : e.record.Stands t) (mode : Mode) :
    (e.switchMode t mode).1.failed = 0 := by
  rw [switchMode]
  split
  · rfl
  · split
    · exact Record.failed_revertWhere stands _
    · exact Record.failed_retarget stands ..

theorem errors_applyOptions (sound : e.record.Sound t) (o : Options) :
    (e.applyOptions t o).1.errors = 0 := by
  have soundDropped := sound.apply (dropStale (e.rulesOf o)) trivial
  have soundLoaded := soundDropped.apply (takeRanks (e.rulesOf o)) trivial
  have dropped : (e.record.revertWhere t fun c => !(e.rulesOf o).any (·.produces c)).1.failed = 0 :=
    Record.failed_revertWhere sound.stands _
  have ranked := Record.failed_rerank soundDropped.stands fun id =>
    (e.rulesOf o).findIdx? (·.id == id)
  have switched := failed_switchMode (e := (e.load t (e.rulesOf o)).1) soundLoaded.stands o.mode
  show _ + _ + _ = 0
  exact congrArg₂ (· + ·) (congrArg₂ (· + ·) dropped ranked) switched

variable {batch : ChangeBatch}

/-- A batch does what the rules that are not broken do, and counts the others. -/
theorem processBatch_eq_letLook (named : e.record.marker = e.config.classificationAttribute)
    (on : e.mode ≠ .off) (nonempty : batch.candidates t ≠ []) :
    let p := Pass.letLook (e.prepare t batch) (batch.candidates t)
      (e.rules.zipIdx.filter fun x => !x.1.isBroken) (e.firstPass t batch)
    p.report.errors = 0 ∧ e.processBatch t batch =
      ({ p.report with errors := e.rules.countP Rule.isBroken }, { e with record := p.record },
        p.tree) := by
  intro p
  have prepared := prepare_eq e t batch
  have same : (e.firstPass t batch).record.marker =
      (e.prepare t batch).config.classificationAttribute := by
    rw [prepared]
    exact (marker_prepare ..).trans named
  have onNow : (e.prepare t batch).mode ≠ .off := by rwa [prepared]
  have split (rules : List (Rule × Nat)) :
      Pass.letLook (e.prepare t batch) (batch.candidates t) rules (e.firstPass t batch) =
        (Pass.letLook (e.prepare t batch) (batch.candidates t)
        (rules.filter fun x => !x.1.isBroken) (e.firstPass t batch)).withErrors
          (0 + rules.countP fun x => x.1.isBroken) :=
    Pass.letLook_withErrors (p := e.firstPass t batch) same
      (fun _ => isElement_of_mem_candidates) onNow rules 0
  constructor
  -- among the rules that are not broken none is counted
  · have whole := split (e.rules.zipIdx.filter fun x => !x.1.isBroken)
    refine (congrArg (·.report.errors) whole).trans ?_
    simp [Pass.withErrors, List.countP_filter]
  · have counted :
        (e.rules.zipIdx.countP fun x => x.1.isBroken) = e.rules.countP Rule.isBroken := by
      conv_rhs => rw [← List.zipIdx_map_fst 0 e.rules, List.countP_map]
      rfl
    have all : Pass.applyRules { e with record := (e.prepare t batch).record } (batch.candidates t)
        (e.firstPass t batch) = p.withErrors (e.rules.countP Rule.isBroken) := by
      have rules : (e.prepare t batch).rules = e.rules := by rw [prepared]
      rw [← prepared, Pass.applyRules, rules, ← counted]
      exact (split e.rules.zipIdx).trans (by rw [Nat.zero_add])
    refine Prod.ext ((report_processBatch on nonempty).trans (congrArg (·.report) all)) ?_
    rw [processBatch_eq on nonempty, all]
    rfl

/-- A batch counts the broken rules, if it looks at anything. -/
theorem errors_processBatch (named : e.record.marker = e.config.classificationAttribute)
    (t : Tree) (batch : ChangeBatch) : (e.processBatch t batch).1.errors =
      if e.mode = .off ∨ batch.candidates t = [] then 0 else e.rules.countP Rule.isBroken := by
  split
  · rename_i nothing
    rw [report_processBatch_of_nothing nothing]
  · rename_i something
    obtain ⟨on, nonempty⟩ := not_or.mp something
    rw [(processBatch_eq_letLook named on nonempty).2]

section

variable {config : Config} {catalog : Catalog} {page : Tree}
  (run : Run (fun _ _ => True) config catalog page e t)

include run

/-- Recorded nodes and candidates are elements, so that they can be written to. -/
theorem Run.writable {id : NodeId}
    (known : (e.record.get? id).isSome = true ∨ ∃ batch : ChangeBatch, id ∈ batch.candidates t)
    (f : Element → Element) : ∃ t', t.write id f = .ok t' := by
  have isElement : t.isElement id = true := by
    rcases known with recorded | ⟨batch, candidate⟩
    · obtain ⟨n, found⟩ := Option.isSome_iff_exists.mp recorded
      exact (run.upToDate.sound.stands id n found).1
    · exact isElement_of_mem_candidates candidate
  obtain ⟨el, here⟩ := Tree.isElement_iff.mp isElement
  exact ⟨_, Tree.write_eq here f⟩

/-- When a call looks at the whole page, it counts the broken rules that are in force by then. -/
theorem Run.errors_enter (k : Call) :
    ((k.enter e t).1.processBatch (k.enter e t).2 .wholePage).1.errors =
      if (k.enter e t).1.mode = .off ∨ t.elements = [] then 0
      else (k.enter e t).1.rules.countP Rule.isBroken := by
  have elements : ChangeBatch.wholePage.candidates (k.enter e t).2 = t.elements :=
    (sameFrame_enter run.upToDate k).elements
  rw [errors_processBatch (run.named_enter k), elements]

theorem Run.errors_batch_applyOptions (o : Options) : (e.applyOptions t o).1.batch.errors =
    if o.mode = .off ∨ t.elements = [] then 0 else (e.rulesOf o).countP Rule.isBroken := by
  have mode : (e.turn t o).1.mode = o.mode := by rw [turn_engine]
  have rules : (e.turn t o).1.rules = e.rulesOf o := by rw [turn_engine]
  have counted := run.errors_enter (.applyOptions o)
  rw [Call.enter, mode, rules] at counted
  refine (congrArg (·.1.errors) (applyOptions_look e t o)).trans ?_
  rw [Call.batch?]
  split
  · rename_i off
    rw [if_pos (.inl off)]
    rfl
  · exact counted

theorem Run.errors_setMode (mode : Mode) : (e.setMode t mode).1.errors =
    if (e.mode = .off ∧ mode ≠ .off) ∧ t.elements ≠ [] then e.rules.countP Rule.isBroken
    else 0 := by
  have succeeds := failed_switchMode run.upToDate.sound.stands mode
  have modeThen : (e.switchMode t mode).2.1.mode = mode := by rw [switchMode_engine]
  have rules : (e.switchMode t mode).2.1.rules = e.rules := by rw [switchMode_engine]
  have counted := run.errors_enter (.setMode mode)
  rw [Call.enter, modeThen, rules] at counted
  rw [setMode_look, Call.batch?]
  simp only [succeeds, Nat.add_zero]
  -- the page is looked at only when the engine is turned on
  by_cases entering : e.mode = .off ∧ mode ≠ .off
  · rw [if_pos entering]
    refine counted.trans ?_
    by_cases empty : t.elements = []
    · rw [if_pos (.inr empty), if_neg fun both => both.2 empty]
    · rw [if_neg (not_or.mpr ⟨entering.2, empty⟩), if_pos ⟨entering, empty⟩]
  · rw [if_neg entering, if_neg fun both => entering both.1]
    rfl

end

/-- What is reported as failed when the engine is called. -/
structure FailsByRulesOnly (e : Engine) (t : Tree) : Prop where
  /-- Whatever is recorded, or looked at by some batch, can be written to. -/
  writable : ∀ id,
    (e.record.get? id).isSome = true ∨ (∃ batch : ChangeBatch, id ∈ batch.candidates t) →
      ∀ f, ∃ t', t.write id f = .ok t'
  /-- Loading options fails nowhere, and its batch counts the broken rules among the new ones. -/
  options : ∀ o, (e.applyOptions t o).1.errors = 0 ∧ (e.applyOptions t o).1.batch.errors =
    if o.mode = .off ∨ t.elements = [] then 0 else (e.rulesOf o).countP Rule.isBroken
  /-- Changing the mode fails nowhere, and its batch counts the broken rules. -/
  mode : ∀ mode, (e.switchMode t mode).1.failed = 0 ∧ (e.setMode t mode).1.errors =
    if (e.mode = .off ∧ mode ≠ .off) ∧ t.elements ≠ [] then e.rules.countP Rule.isBroken else 0
  batch : ∀ batch, (e.processBatch t batch).1.errors =
    if e.mode = .off ∨ batch.candidates t = [] then 0 else e.rules.countP Rule.isBroken
  /-- A batch does what it would do without the broken rules, where the others keep their ranks. -/
  alone : ∀ batch, e.mode ≠ .off → batch.candidates t ≠ [] →
    let p := Pass.letLook (e.prepare t batch) (batch.candidates t)
      (e.rules.zipIdx.filter fun x => !x.1.isBroken) (e.firstPass t batch)
    p.report.errors = 0 ∧ e.processBatch t batch =
      ({ p.report with errors := e.rules.countP Rule.isBroken }, { e with record := p.record },
        p.tree)

/-- Whatever others do to the page between calls, no write of the engine is refused. What is
reported as failed are the broken rules, and they change nothing else. -/
theorem failsByRulesOnly_of_run {config : Config} {catalog : Catalog} {page : Tree}
    (run : Run (fun _ _ => True) config catalog page e t) : FailsByRulesOnly e t := by
  have sound := run.upToDate.sound
  have named : e.record.marker = e.config.classificationAttribute := run.config_eq ▸ run.named
  refine ⟨fun _ => run.writable, fun o => ?_, fun mode => ?_, errors_processBatch named t,
    fun _ on nonempty => processBatch_eq_letLook named on nonempty⟩
  · exact ⟨errors_applyOptions sound o, run.errors_batch_applyOptions o⟩
  · exact ⟨failed_switchMode sound.stands mode, run.errors_setMode mode⟩

/-- A rule with a selector that compiles, but is none. -/
def brokenRule : Options :=
  { rules := .ofList [("r", { status := .enabled, selector := some "p > > p" })] }

/-- The rule is counted whenever the paragraph is looked at, and leaves it as it is. -/
theorem failsByRulesOnly_of_brokenRule :
    let loaded := (Call.applyOptions brokenRule).perform smallEngine pageWithParagraph
    Run (fun _ _ => True) smallConfig {} pageWithParagraph loaded.1 loaded.2 ∧
      FailsByRulesOnly loaded.1 loaded.2 ∧
      (loaded.1.processBatch loaded.2 { added := [⟨1⟩] }).1.errors = 1 ∧
      loaded.2.attribute? ⟨1⟩ "class" = some "a" := by
  intro loaded
  have run : Run (fun _ _ => True) smallConfig {} pageWithParagraph loaded.1 loaded.2 :=
    .call (.applyOptions brokenRule) (.start ofConfig_smallConfig)
  have fails : FailsByRulesOnly loaded.1 loaded.2 := failsByRulesOnly_of_run run
  refine ⟨run, fails, ?_, by decide +kernel⟩
  rw [fails.batch { added := [⟨1⟩] }]
  decide +kernel

end Engine

end NoiseFilter
