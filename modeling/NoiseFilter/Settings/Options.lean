import NoiseFilter.Settings.Catalog

/-!
# Stored options

What the user has chosen: a mode, and for each rule whether it is on, and what it overrides. Merging
with a catalog gives the rules in the order in which they apply: those of the catalog in its order,
then custom filters by number, then all others.
-/

namespace NoiseFilter

/-- How much is done to noise. -/
inductive Mode where
  | off
  | normal
  | extreme
  deriving DecidableEq, Inhabited

namespace Mode

def toNat : Mode → Nat
  | off => 0
  | normal => 1
  | extreme => 2

/-- The mode with a number. -/
def ofNat? : Nat → Option Mode
  | 0 => some off
  | 1 => some normal
  | 2 => some extreme
  | _ => none

end Mode

/-- Whether a rule is on; a rule marked for deletion is dropped when options are applied. -/
inductive RuleStatus where
  | enabled
  | disabled
  | delete
  deriving DecidableEq, Inhabited

def RuleStatus.ofBool (enabled : Bool) : RuleStatus := if enabled then .enabled else .disabled

/-- What is stored of a rule. -/
structure StoredRule where
  status : RuleStatus := .disabled
  selector : Option String := none
  cls : Option String := none
  color : Option String := none
  deriving DecidableEq, Inhabited

structure Options where
  mode : Mode := .normal
  rules : SortedMap String StoredRule := {}

/-- There is no stored rule with this id. -/
structure UnknownRule where
  id : String
  deriving DecidableEq

def UnknownRule.message (e : UnknownRule) : String := "no stored rule '" ++ e.id ++ "'"

/-! ## Custom filters -/

/-- The largest number of a custom filter. -/
def customLimit : Nat := 4294967295

/-- What the ids of custom filters start with. -/
def customStart : String := "custom_"

/-- The number that digits stand for, a plus in front allowed. -/
def readIndex (cs : List Char) : Option Nat :=
  let digits := if cs.head? = some '+' then cs.tail else cs
  if digits.isEmpty || !digits.all Char.isDigit then none
  else
    let n := digits.foldl (fun n c => n * 10 + (c.toNat - 48)) 0
    if n ≤ customLimit then some n else none

/-- The number of a custom filter. -/
def customIndex? (id : String) : Option Nat :=
  if customStart.toList.isPrefixOf id.toList then readIndex (id.toList.drop customStart.length)
  else none

def isCustom (id : String) : Bool := (customIndex? id).isSome

/-! ## Options -/

namespace Options

/-- What the catalog chooses. A rule keeps the selector of its entry only if it is a custom
filter. -/
def ofCatalog (c : Catalog) : Options where
  rules := .ofList <| c.entries.map fun e =>
    (e.id,
      { status := .ofBool (e.status.getD false)
        selector := if isCustom e.id then e.selector else none
        cls := e.cls
        color := e.color })

def get? (o : Options) (id : String) : Option StoredRule := o.rules.get? id

/-- Store a rule, in the place of the one with its id if there is one. -/
def put (o : Options) (id : String) (r : StoredRule) : Options :=
  { o with rules := o.rules.insert id r }

/-- A change of stored options that may be refused on the way; what was written by then stays. -/
abbrev Writing (ε : Type) := ExceptT ε (StateM Options)

namespace Writing

variable {ε α : Type}

/-- What comes of writing, and the options as they are then. -/
def start (w : Writing ε α) (o : Options) : Except ε α × Options := w.run.run o

/-- The answer and the options behind it, where nothing is refused. -/
def outcome (w : Writing ε α) (o : Options) : Except ε (α × Options) :=
  let (answer, o) := w.start o
  answer.map fun a => (a, o)

/-- The options behind what is not refused. -/
def written (w : Writing ε Unit) (o : Options) : Except ε Options := (w.outcome o).map (·.2)

/-- Set the status of a rule, which has to be there, and keep all else of it. -/
def setStatus (id : String) (status : RuleStatus) : Writing UnknownRule Unit := do
  match (← get).get? id with
  | none => throw ⟨id⟩
  | some r => modify (·.put id { r with status })

def disable (id : String) : Writing UnknownRule Unit := setStatus id .disabled

def markForDeletion (id : String) : Writing UnknownRule Unit := setStatus id .delete

end Writing

def setStatus (o : Options) (id : String) (status : RuleStatus) : Except UnknownRule Options :=
  (Writing.setStatus id status).written o

def disable (o : Options) (id : String) : Except UnknownRule Options :=
  (Writing.disable id).written o

def markForDeletion (o : Options) (id : String) : Except UnknownRule Options :=
  (Writing.markForDeletion id).written o

/-- Drop rules. -/
def purge (o : Options) (ids : List String) : Options :=
  { o with rules := ids.foldl SortedMap.erase o.rules }

end Options

/-! ## Merging -/

/-- A rule with all that is known of it. -/
structure RuleSpec where
  id : String
  status : RuleStatus
  selector : Option String
  cls : Option String
  color : Option String
  deriving DecidableEq

/-- The place of a rule among the others. -/
structure RulePlace where
  /-- The place in the catalog; behind all of it for others. -/
  position : Nat
  /-- The number of a custom filter; the largest for others. -/
  index : Nat
  id : String

namespace RulePlace

def of (c : Catalog) (id : String) : RulePlace where
  position := (c.position? id).getD c.entries.length
  index := (customIndex? id).getD customLimit
  id := id

/-- The order of rules: by catalog, then by number, then by id. -/
def le (a b : RulePlace) : Bool :=
  a.position < b.position ||
    (a.position == b.position &&
      (a.index < b.index || (a.index == b.index && decide (a.id ≤ b.id))))

end RulePlace

/-- What a rule gives itself, unless it is empty, and else what the catalog gives. -/
def pick (own default : Option String) : Option String := (own.filter (!·.isEmpty)).or default

/-- The stored rules, completed from the catalog, in the order in which they apply. -/
def Options.merge (o : Options) (c : Catalog) : List RuleSpec :=
  let defaults := c.defaults
  let sorted := o.rules.entries.mergeSort fun a b => (RulePlace.of c a.1).le (RulePlace.of c b.1)
  sorted.map fun (id, r) =>
    let d := (defaults.get? id).getD {}
    { id
      status := r.status
      selector := pick r.selector d.selector
      cls := pick r.cls d.cls
      color := pick r.color d.color }

end NoiseFilter
