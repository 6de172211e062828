import NoiseFilter.Json.Printer
import NoiseFilter.Settings.Load

/-!
# Saving options

Options as the JSON object that loading reads: the mode first, then the rules in the order of ids.
What a rule does not override is left out.
-/

namespace NoiseFilter

open Json

def RuleStatus.toJson : RuleStatus → Value
  | enabled => .bool true
  | disabled => .bool false
  | delete => .string (some deleteWord)

/-- A member that is left out if there is no value. -/
def optionalMember (name : String) (value : Option String) : List Member :=
  value.toList.map fun s => (some name, .string (some s))

def StoredRule.toJson (r : StoredRule) : Value :=
  .object <|
    (some "status", r.status.toJson) :: optionalMember "selector" r.selector
      ++ optionalMember "class" r.cls ++ optionalMember "color" r.color

def Options.toJson (o : Options) : Value :=
  .object <|
    (some modeKey, .number (.ofNat o.mode.toNat))
      :: o.rules.entries.map fun e => (some e.1, e.2.toJson)

/-- The text of stored options. -/
def Options.render (o : Options) : String := o.toJson.render

end NoiseFilter
