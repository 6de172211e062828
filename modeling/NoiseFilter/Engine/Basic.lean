import NoiseFilter.Engine.Feed
import NoiseFilter.Engine.Ratio
import NoiseFilter.Engine.Rule
import NoiseFilter.Extended.Select

/-!
# The engine

The rules in force, the mode and the record of classifications. Loading options makes the rules anew
and brings the page in line; a batch of changes is looked at by every rule in turn. What fails is
counted and skipped, and never stops the rest.
-/

namespace NoiseFilter

/-- The state of the engine. -/
structure Engine where
  config : Config
  catalog : Catalog
  post : Selector
  postText : Selector
  unit : Selector
  mode : Mode := .normal
  rules : List Rule := []
  record : Record

/-- What became of a batch. -/
structure BatchReport where
  /-- Elements looked at. -/
  candidates : Nat := 0
  /-- Entries added or changed. -/
  classified : Nat := 0
  /-- Entries dropped. -/
  reverted : Nat := 0
  /-- Texts scored. -/
  scored : Nat := 0
  /-- Rules given up. -/
  errors : Nat := 0
  deriving DecidableEq, Inhabited

/-- What became of loading options. -/
structure OptionsReport where
  /-- Rules marked for deletion. -/
  purged : List String := []
  /-- Rules whose selector does not compile. -/
  invalid : List String := []
  reverted : Nat := 0
  errors : Nat := 0
  batch : BatchReport := {}
  deriving DecidableEq, Inhabited

/-- What is remembered of a post that the scorer flags. -/
def flaggedWord : String := "flagged"

/-- What is remembered of a post that the scorer lets through. -/
def cleanWord : String := "clean"

/-! ## Candidates -/

/-- The connected elements among the nodes of a batch that lie in no other, in document order. -/
def batchRoots (t : Tree) (added : List NodeId) : List NodeId :=
  let roots := (added.filter fun id => t.isElement id && t.isConnected id).eraseDups
  let outermost := roots.filter fun id => !(t.ancestors id).any roots.contains
  outermost.mergeSort fun a b => !t.isBefore b a

/-- The elements that a batch of added nodes asks to look at, in document order. -/
def batchCandidates (t : Tree) (added : List NodeId) : List NodeId :=
  (batchRoots t added).flatMap fun id => id :: t.descendantElements id

/-- The elements that a batch asks to look at, in document order. -/
def ChangeBatch.candidates (b : ChangeBatch) (t : Tree) : List NodeId :=
  if b.navigation then t.elements else batchCandidates t b.added

/-! ## Passes -/

/-- What changes while rules look at a batch. -/
structure Pass where
  record : Record
  tree : Tree
  report : BatchReport := {}

namespace Pass

/-- Classify elements one after the other, until one cannot be written; the answer says whether all
could be. -/
def classifyEach (e : Classification) : List NodeId → Pass → Bool × Pass
  | [], p => (true, p)
  | id :: rest, p =>
    match p.record.classify p.tree id e with
    | (.error _, record, tree) => (false, { p with record, tree })
    | (.ok changed, record, tree) =>
      let classified := p.report.classified + changed.toNat
      classifyEach e rest { record, tree, report := { p.report with classified } }

/-- Drop the entry of a rule from elements one after the other. -/
def unclassifyEach (ruleId : String) : List NodeId → Pass → Bool × Pass
  | [], p => (true, p)
  | id :: rest, p =>
    match p.record.unclassify p.tree id ruleId with
    | (.error _, record, tree) => (false, { p with record, tree })
    | (.ok changed, record, tree) =>
      let reverted := p.report.reverted + changed.toNat
      unclassifyEach ruleId rest { record, tree, report := { p.report with reverted } }

/-- Let a rule with a selector look at the candidates: those that match get its entry, the others
lose it. -/
def applySelector (s : ExtendedSelector) (candidates : List NodeId) (e : Classification)
    (p : Pass) : Bool × Pass :=
  match s.select p.tree candidates with
  | .error _ => (false, p)
  | .ok matched =>
    let (fine, p) := classifyEach e matched p
    if fine then unclassifyEach e.ruleId (candidates.filter (!matched.contains ·)) p
    else (false, p)

/-- Whether the text of a post is flagged; `none` if it has none. A post is scored once: what was
said is remembered on the post. -/
def judge (engine : Engine) (post : NodeId) (p : Pass) : Except TreeError (Option Bool × Pass) :=
  let marker := engine.config.aiCheckedAttribute
  match p.tree.attribute? post marker with
  | some value => .ok (some (value == flaggedWord), p)
  | none =>
    match engine.postText.queryFirst p.tree post with
    | none => .ok (none, p)
    | some body =>
      let flagged := (Score.score engine.config.thresholds (p.tree.renderedText body)).isFlagged
      let report := { p.report with scored := p.report.scored + 1 }
      match p.tree.setAttribute post marker (if flagged then flaggedWord else cleanWord) with
      | .error e => .error e
      | .ok tree => .ok (some flagged, { p with tree, report })

/-- Let the scorer look at posts one after the other, until one cannot be written. -/
def judgeEach (engine : Engine) (e : Classification) : List NodeId → Pass → Bool × Pass
  | [], p => (true, p)
  | post :: rest, p =>
    match p.judge engine post with
    | .error _ => (false, p)
    | .ok (flagged, p) =>
      if flagged = some true then
        match classifyEach e [post] p with
        | (false, p) => (false, p)
        | (true, p) => judgeEach engine e rest p
      else judgeEach engine e rest p

/-- Let a rule look at the candidates. A rule that fails is given up and counted. -/
def applyRule (engine : Engine) (candidates : List NodeId) (rank : Nat) (r : Rule) (p : Pass) :
    Pass :=
  match r.entryFor? engine.config engine.mode rank with
  | none => p
  | some e =>
    let (fine, p) :=
      match r.action.selector? with
      | some s => p.applySelector s candidates e
      | none =>
        let posts := candidates.filter (engine.post.accepts p.tree none)
        p.judgeEach engine e posts
    if fine then p else { p with report := { p.report with errors := p.report.errors + 1 } }

/-- Let all rules look at the candidates, in order. -/
def applyRules (engine : Engine) (candidates : List NodeId) (p : Pass) : Pass :=
  engine.rules.zipIdx.foldl (fun p (r, rank) => p.applyRule engine candidates rank r) p

end Pass

/-! ## Operations -/

namespace Engine

/-- An engine without rules. The selectors of the configuration are read in order. -/
def ofConfig (config : Config) (catalog : Catalog) : Except ConfigSelectorError Engine := do
  let post ← readConfigured "post" config.postSelector
  let postText ← readConfigured "post text" config.postTextSelector
  let unit ← config.unit
  return {
    config, catalog, post, postText, unit
    record := { marker := config.classificationAttribute } }

def rule? (e : Engine) (id : String) : Option Rule := e.rules.find? (·.id == id)

/-- Where a batch covers the whole page, forget the elements that are no longer part of it. -/
def prepare (e : Engine) (t : Tree) (batch : ChangeBatch) : Engine :=
  if batch.navigation then { e with record := (e.record.prune t).2 } else e

/-- Let every rule look at what a batch names. -/
def processBatch (e : Engine) (t : Tree) (batch : ChangeBatch) : BatchReport × Engine × Tree :=
  if e.mode = .off then ({}, e, t)
  else
    let e := e.prepare t batch
    let candidates := batch.candidates t
    if candidates.isEmpty then ({}, e, t)
    else
      let report : BatchReport := { candidates := candidates.length }
      let p := Pass.applyRules e candidates { record := e.record, tree := t, report }
      (p.report, { e with record := p.record }, p.tree)

/-- Change the mode. Off drops every entry; another class of the mode is put in place. -/
def switchMode (e : Engine) (t : Tree) (mode : Mode) : Record.Sweep × Engine × Tree :=
  if e.mode = mode then ({}, e, t)
  else
    match mode.toggleClass? e.config with
    | none =>
      let (sweep, record, t) := e.record.revertAll t
      (sweep, { e with mode, record }, t)
    | some cls =>
      let (sweep, record, t) := e.record.retarget t .toggle cls
      ({ failed := sweep.failed }, { e with mode, record }, t)

/-- Change the mode, and look at the whole page if it was off. -/
def setMode (e : Engine) (t : Tree) (mode : Mode) : BatchReport × Engine × Tree :=
  let wasOff := e.mode = .off
  let (sweep, e, t) := e.switchMode t mode
  let (report, e, t) :=
    if wasOff ∧ mode ≠ .off then e.processBatch t .wholePage else ({}, e, t)
  let report :=
    { report with
      reverted := report.reverted + sweep.changed, errors := report.errors + sweep.failed }
  (report, e, t)

/-- The rules that are on, with those that do not compile and those marked for deletion. -/
def readRules (config : Config) : List RuleSpec → List Rule × OptionsReport
  | [] => ([], {})
  | spec :: rest =>
    let (rules, report) := readRules config rest
    match spec.status with
    | .delete => (rules, { report with purged := spec.id :: report.purged })
    | .disabled => (rules, report)
    | .enabled =>
      match Rule.ofSpec config spec with
      | .ok (some r) => (r :: rules, report)
      | .ok none => (rules, report)
      | .error _ => (rules, { report with invalid := spec.id :: report.invalid })

/-- Load options: entries that no rule would write any more are dropped, the others take the ranks
of their rules, the mode is changed, and the whole page is looked at. -/
def applyOptions (e : Engine) (t : Tree) (o : Options) : OptionsReport × Engine × Tree :=
  let (rules, report) := readRules e.config (o.merge e.catalog)
  let (reverted, record, t) := e.record.revertWhere t fun c => !rules.any (·.produces c)
  let (reranked, record, t) := record.rerank t fun id => rules.findIdx? (·.id == id)
  let (switched, e, t) := { e with rules, record }.switchMode t o.mode
  let (batch, e, t) :=
    if e.mode = .off then ({}, e, t) else e.processBatch t .wholePage
  let report :=
    { report with
      reverted := reverted.changed + switched.changed
      errors := reverted.failed + reranked.failed + switched.failed
      batch }
  (report, e, t)

/-- The noise ratio of a page. -/
def noiseRatio (e : Engine) (t : Tree) : Nat := (RatioCounts.ofTree e.config e.unit t).ratio

end Engine

end NoiseFilter
