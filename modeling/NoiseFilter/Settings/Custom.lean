import NoiseFilter.Extended.TextTest
import NoiseFilter.Settings.Options

/-!
# Custom filters

Filters that the user writes: a pattern, looked for in posts, and a colour.
-/

namespace NoiseFilter

/-- The selector of a custom filter. The pattern has to be a regular expression. -/
def customSelector (config : Config) (pattern : String) : Except CompileError String := do
  let _ ← TextTest.ofRegex pattern
  return config.postSelector ++ ":contains(/" ++ pattern ++ "/)"

/-- The pattern in what follows `:contains(/`: on one line, up to a last `/)` with nothing but
blanks behind it. -/
def patternIn (s : List Char) : Option (List Char) :=
  match Text.trimStart s.reverse with
  | ')' :: '/' :: body => if body.contains '\n' then none else some body.reverse
  | _ => none

/-- What opens the pattern of a custom filter. -/
def patternOpening : List Char := ":contains(/".toList

/-- The pattern behind the first opening that is closed at the end of the text. -/
def findPattern : List Char → Option (List Char)
  | [] => none
  | c :: rest =>
    let here :=
      if patternOpening.isPrefixOf (c :: rest) then
        patternIn ((c :: rest).drop patternOpening.length)
      else none
    here.or (findPattern rest)

/-- The pattern of a custom filter with this selector. -/
def extractPattern (selector : String) : Option String :=
  (findPattern selector.toList).map String.ofList

namespace Options

/-- The numbers of the filters; an id that is no filter's has none. -/
def indexes (o : Options) : List Nat := o.rules.keys.filterMap customIndex?

/-- The number of the next filter: one more than the largest there is. -/
def nextIndex (o : Options) : Nat :=
  if o.indexes.isEmpty then 1 else o.indexes.foldl max 0 + 1

/-- An id for a new filter. -/
def nextCustomId (o : Options) : String := customStart ++ Text.digits o.nextIndex

def defaultPattern : String := "example"

def defaultColor : String := "#0078D4"

/-- The rule of a filter that has just been added. -/
def addedRule (config : Config) (selector : String) : StoredRule :=
  { selector := some selector, cls := some config.customClass, color := some defaultColor }

/-- The rule of a filter that has just been saved; it keeps its status. -/
def savedRule (old : StoredRule) (config : Config) (selector color : String) : StoredRule :=
  { old with selector := some selector, cls := some config.customClass, color := some color }

namespace Writing

/-- Add a filter, switched off; the answer names it. -/
def addCustom (config : Config) : Writing CompileError String := do
  let id := (← get).nextCustomId
  let selector ← ofExcept (customSelector config defaultPattern)
  modify (·.put id (addedRule config selector))
  return id

/-- Store pattern and colour of a filter, which is added if it is not there. -/
def saveCustom (config : Config) (id pattern color : String) : Writing CompileError Unit := do
  let selector ← ofExcept (customSelector config pattern)
  let old := ((← get).get? id).getD {}
  modify (·.put id (savedRule old config selector color))

end Writing

def addCustom (o : Options) (config : Config) : Except CompileError (String × Options) :=
  (Writing.addCustom config).outcome o

def saveCustom (o : Options) (config : Config) (id pattern color : String) :
    Except CompileError Options :=
  (Writing.saveCustom config id pattern color).written o

end Options

end NoiseFilter
