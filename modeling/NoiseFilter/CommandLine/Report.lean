import NoiseFilter.Engine.Basic
import NoiseFilter.Json.Printer

/-!
# Reports

What commands print, line by line.
-/

namespace NoiseFilter.CommandLine

open Json

/-! ## Scores -/

def scoreJson (r : Score.Result) : Value :=
  let s := r.signals
  let member (name : String) (n : Number) : Member := (some name, .number n)
  .object [
    member "score" (.ofNat r.score),
    (some "isFlagged", .bool r.isFlagged),
    (some "signals", .object [
      member "sentenceVariance" (.ofFloat s.sentenceVariance),
      member "formulaicCount" (.ofNat s.formulaicCount),
      member "buzzwordDensity" (.ofFloat s.buzzwordDensity),
      member "emDashDensity" (.ofFloat s.emDashDensity),
      member "curlyQuoteRatio" (.ofFloat s.curlyQuoteRatio)])]

/-! ## Selectors -/

/-- The tests of a clause, each with the selector in front of it. -/
def clauseLines (clause : HasClause) (i : Nat) : List String :=
  clause.map fun h => "has[" ++ Text.digits i ++ "]: " ++ h.sub ++ " => " ++ h.test.render

/-- The parts of an extended selector. -/
def selectorLines (s : ExtendedSelector) : List String :=
  let complaint :=
    match s.structural with
    | .ok _ => []
    | .error e => ["  (structural part does not evaluate: " ++ e.message ++ ")"]
  ("base: " ++ s.base) :: complaint
    ++ s.has.zipIdx.flatMap (fun (clause, i) => clauseLines clause i)
    ++ s.contains.map fun t => "contains: " ++ t.render

/-! ## Pages -/

/-- One classified element: its tag, the rule that names it, and all its rules and classes. -/
def elementLine (t : Tree) (marker : String) (id : NodeId) (r : NodeRecord) : String :=
  "\t".intercalate [
    id.text,
    "<" ++ (t.tag? id).getD "?" ++ ">",
    marker ++ "=" ++ (t.attribute? id marker).getD "",
    "[" ++ ",".intercalate (r.entries.map (·.ruleId)) ++ "]",
    " ".intercalate (r.entries.map (·.cls))]

/-- How much of the page is classified. -/
def summaryLine (e : Engine) (t : Tree) (batch : BatchReport) : String :=
  "classified " ++ Text.digits e.record.size ++ " nodes ("
    ++ Text.digits batch.candidates ++ " candidates, "
    ++ Text.digits batch.scored ++ " scored, "
    ++ Text.digits batch.errors ++ " errors), noise ratio "
    ++ Text.digits (e.noiseRatio t) ++ "%"

/-- The page after options have been applied to it. -/
def pageLines (e : Engine) (t : Tree) (report : OptionsReport) : List String :=
  let purged :=
    if report.purged.isEmpty then [] else ["purged: " ++ ", ".intercalate report.purged]
  e.record.nodes.entries.map (fun (id, r) => elementLine t e.record.marker id r)
    ++ summaryLine e t report.batch :: purged

end NoiseFilter.CommandLine
