import NoiseFilter.Json.Decode
import NoiseFilter.Settings.Options

/-!
# Loading settings

Configurations, catalogs and stored options as JSON. Unknown members are passed over; a known one
must have the right form and be there once only. Configurations and thresholds fall back to their
defaults.
-/

namespace NoiseFilter

open Json

/-! ## Thresholds and configurations -/

/-- The largest number that a byte holds. -/
def byteLimit : Nat := 255

def Score.Thresholds.ofJson? (v : Value) : Option Score.Thresholds :=
  let d : Score.Thresholds := {}
  match v.fields? ["sentenceVariance", "formulaicPhrases", "buzzwordDensity", "emDashDensity",
    "curlyQuoteRatio", "finalScore"] with
  | some [variance, phrases, buzzwords, dashes, quotes, final] => do
    return {
      sentenceVariance := ← Value.orElse Value.float? d.sentenceVariance variance
      formulaicPhrases :=
        ← Value.orElse (Value.natural? Number.wordLimit) d.formulaicPhrases phrases
      buzzwordDensity := ← Value.orElse Value.float? d.buzzwordDensity buzzwords
      emDashDensity := ← Value.orElse Value.float? d.emDashDensity dashes
      curlyQuoteRatio := ← Value.orElse Value.float? d.curlyQuoteRatio quotes
      finalScore := ← Value.orElse (Value.natural? byteLimit) d.finalScore final }
  | _ => none

def Score.Thresholds.ofString? (text : String) : Option Score.Thresholds :=
  Value.ofString? text >>= ofJson?

def Config.ofJson? (v : Value) : Option Config :=
  let d : Config := {}
  let string (default : String) : Option Value → Option String :=
    Value.orElse Value.string? default
  match v.fields? ["normalClass", "extremeClass", "customClass", "highlightClass", "aiClass",
    "classificationAttribute", "aiCheckedAttribute", "aiRuleId", "postSelector",
    "postTextSelector", "unitSelector", "placeholder", "badgeIntervalMs", "badgeTitle",
    "thresholds"] with
  | some [normal, extreme, custom, highlight, ai, marker, checked, rule, post, postText, unit,
      placeholder, interval, title, thresholds] => do
    return {
      normalClass := ← string d.normalClass normal
      extremeClass := ← string d.extremeClass extreme
      customClass := ← string d.customClass custom
      highlightClass := ← string d.highlightClass highlight
      aiClass := ← string d.aiClass ai
      classificationAttribute := ← string d.classificationAttribute marker
      aiCheckedAttribute := ← string d.aiCheckedAttribute checked
      aiRuleId := ← string d.aiRuleId rule
      postSelector := ← string d.postSelector post
      postTextSelector := ← string d.postTextSelector postText
      unitSelector := ← string d.unitSelector unit
      placeholder := ← string d.placeholder placeholder
      badgeIntervalMs :=
        ← Value.orElse (Value.natural? Number.wordLimit) d.badgeIntervalMs interval
      badgeTitle := ← string d.badgeTitle title
      thresholds := ← Value.orElse Score.Thresholds.ofJson? d.thresholds thresholds }
  | _ => none

def Config.ofString? (text : String) : Option Config := Value.ofString? text >>= ofJson?

/-! ## Catalogs -/

/-- A member that may be missing or `null`. -/
def optionalString : Option Value → Option (Option String) :=
  Value.orElse (Value.optional? Value.string?) none

def Catalog.Entry.ofJson? (v : Value) : Option Catalog.Entry :=
  match v.fields? ["id", "label", "selector", "class", "color", "status"] with
  | some [id, label, selector, cls, color, status] => do
    return {
      id := ← Value.required Value.string? id
      label := ← Value.orElse Value.string? "" label
      selector := ← optionalString selector
      cls := ← optionalString cls
      color := ← optionalString color
      status := ← Value.orElse (Value.optional? Value.bool?) none status }
  | _ => none

def Catalog.Group.ofJson? (v : Value) : Option Catalog.Group :=
  match v.fields? ["group", "settings"] with
  | some [group, settings] => do
    return {
      group := ← Value.required Value.string? group
      settings := ← Value.required (Value.list? Catalog.Entry.ofJson?) settings }
  | _ => none

/-- The catalog that a text stands for, under a configuration. -/
def Catalog.ofString? (config : Config) (text : String) : Option Catalog := do
  let groups ← (← Value.ofString? text).list? Catalog.Group.ofJson?
  return .ofGroups config groups

/-! ## Options -/

/-- Why stored options do not load. -/
inductive OptionsError where
  | malformed
  /-- The mode is a byte, but stands for no mode. -/
  | mode (n : Nat)
  /-- The status of a rule is a word, but not the one for deletion. -/
  | status (word : String)
  deriving DecidableEq

def modeMessage (n : Nat) : String := "mode must be 0, 1 or 2, got " ++ Text.digits n

def OptionsError.message : OptionsError → String
  | malformed => "stored options are malformed"
  | mode n => modeMessage n
  | status word => "rule status must be a boolean or \"delete\", got \"" ++ word ++ "\""

/-- The word that marks a rule for deletion. -/
def deleteWord : String := "delete"

def orMalformed {α : Type} : Option α → Except OptionsError α
  | some a => .ok a
  | none => .error .malformed

def Mode.ofJson (v : Value) : Except OptionsError Mode := do
  let n ← orMalformed (v.natural? byteLimit)
  match Mode.ofNat? n with
  | some mode => .ok mode
  | none => .error (.mode n)

def RuleStatus.ofJson : Value → Except OptionsError RuleStatus
  | .bool b => .ok (.ofBool b)
  | .string (some word) => if word = deleteWord then .ok .delete else .error (.status word)
  | _ => .error .malformed

/-- The members of a stored rule, in the order in which an array gives them. -/
def StoredRule.memberNames : List String := ["status", "selector", "class", "color"]

/-- Read one member of a stored rule. -/
def StoredRule.withMember (r : StoredRule) (name : String) (v : Value) :
    Except OptionsError StoredRule :=
  let text : Except OptionsError (Option String) := orMalformed (v.optional? Value.string?)
  match name with
  | "status" => (RuleStatus.ofJson v).map fun status => { r with status }
  | "selector" => text.map fun selector => { r with selector }
  | "class" => text.map fun cls => { r with cls }
  | "color" => text.map fun color => { r with color }
  | _ => .ok r

/-- Read the members of a stored rule in order. The first that is wrong counts, or that repeats one
of those `seen`. -/
def StoredRule.readMembers (seen : List String) (r : StoredRule) :
    List Member → Except OptionsError StoredRule
  | [] => .ok r
  | (none, _) :: _ => .error .malformed
  | (some name, v) :: rest =>
    if seen.contains name then .error .malformed
    else
      match r.withMember name v with
      | .error e => .error e
      | .ok r =>
        readMembers (if memberNames.contains name then name :: seen else seen) r rest

def StoredRule.ofJson : Value → Except OptionsError StoredRule
  | .object members => readMembers [] {} members
  | .array items => do
    let r ← readMembers [] {} ((memberNames.map some).zip items)
    if items.length ≤ memberNames.length then .ok r else .error .malformed
  | _ => .error .malformed

/-- The key of the mode among the rules. -/
def modeKey : String := "mode"

/-- How deep the value of a rule may be nested. -/
def nestingLimit : Nat := 126

/-- Go through the members in order. The mode is read where it stands, rules are kept for later. -/
def Options.gather (mode : Option Mode) (rules : List (String × Value)) :
    List Member → Except OptionsError (Option Mode × List (String × Value))
  | [] => .ok (mode, rules)
  | (key, v) :: rest =>
    match key with
    | none => .error .malformed
    | some key =>
      if key = modeKey then
        if mode.isSome then .error .malformed
        else do
          let mode ← Mode.ofJson v
          gather (some mode) rules rest
      else if v.isSound nestingLimit then gather mode (rules ++ [(key, v)]) rest
      else .error .malformed

/-- The options that a text stands for: an object that holds the mode and the rules side by side.
The mode counts where it is met; rules count once the whole object has been read; what follows the
object counts last. -/
def Options.ofString (text : String) : Except OptionsError Options := do
  let run ← orMalformed (MemberRun.ofString? text)
  let (mode, rules) ← gather none [] run.members
  let rest ← orMalformed run.rest
  let rules ← rules.mapM fun (key, v) => do
    let r ← StoredRule.ofJson v
    return (key, r)
  if (skipBlanks rest).isEmpty then
    return { mode := mode.getD .normal, rules := .ofList rules }
  else .error .malformed

end NoiseFilter
