import NoiseFilter.Engine.Record
import NoiseFilter.Extended.Compile
import NoiseFilter.Settings.Options

/-!
# Rules

A rule that is on: what it looks for and what it does to what it finds.
-/

namespace NoiseFilter

/-- What a rule looks for and does. -/
inductive RuleAction where
  /-- Give elements the class of the mode. -/
  | toggle (selector : ExtendedSelector)
  /-- Give elements a class and perhaps a colour. -/
  | style (selector : ExtendedSelector) (cls : String) (color : Option String)
  /-- Mark the posts whose text the scorer flags. -/
  | aiFlag

structure Rule where
  id : String
  action : RuleAction

namespace RuleAction

/-- What a rule looks for; the scorer needs no selector. -/
def selector? : RuleAction → Option ExtendedSelector
  | toggle s | style s _ _ => some s
  | aiFlag => none

end RuleAction

/-- The class of a mode. -/
def Mode.toggleClass? (config : Config) : Mode → Option String
  | off => none
  | normal => some config.normalClass
  | extreme => some config.extremeClass

namespace Rule

def isToggle (r : Rule) : Bool :=
  match r.action with
  | .toggle _ => true
  | _ => false

/-- The rule that settings describe; `none` if there is nothing to look for. The selector has to
compile. -/
def ofSpec (config : Config) (spec : RuleSpec) : Except CompileError (Option Rule) :=
  if spec.id = config.aiRuleId then .ok (some ⟨spec.id, .aiFlag⟩)
  else
    let source := Text.trim (spec.selector.getD "")
    if source.isEmpty then .ok none
    else do
      let s ← ExtendedSelector.compile source
      let cls := spec.cls.getD ""
      let action :=
        if cls.isEmpty then .toggle s
        else .style s cls (spec.color.filter (!·.isEmpty))
      return some ⟨spec.id, action⟩

/-- The entry that a rule writes from its place among the rules; none while the mode is off. -/
def entryFor? (r : Rule) (config : Config) (mode : Mode) (rank : Nat) : Option Classification :=
  (mode.toggleClass? config).map fun toggle =>
    match r.action with
    | .toggle _ => { ruleId := r.id, rank, kind := .toggle, cls := toggle }
    | .style _ cls color => { ruleId := r.id, rank, kind := .style, cls, color }
    | .aiFlag => { ruleId := r.id, rank, kind := .ai, cls := config.aiClass }

/-- Whether the rule would still write an entry, up to its rank and the class of the mode. -/
def produces (r : Rule) (e : Classification) : Bool :=
  r.id == e.ruleId &&
    match r.action, e.kind with
    | .toggle _, .toggle => true
    | .aiFlag, .ai => true
    | .style _ cls color, .style => cls == e.cls && color == e.color
    | _, _ => false

end Rule

end NoiseFilter
