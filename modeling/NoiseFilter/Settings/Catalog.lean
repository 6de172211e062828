import NoiseFilter.Settings.Config
import NoiseFilter.SortedMap
import NoiseFilter.Text.Replace

/-!
# Catalogs

The rules that come with the program, in groups. The order of entries is the order in which rules
apply. An entry gives what stored options may leave out.
-/

namespace NoiseFilter

namespace Catalog

/-- A rule of the catalog. -/
structure Entry where
  id : String
  label : String := ""
  selector : Option String := none
  cls : Option String := none
  color : Option String := none
  /-- Whether the rule is on unless the options say otherwise. -/
  status : Option Bool := none
  deriving DecidableEq, Inhabited

/-- Entries under a common heading. -/
structure Group where
  group : String
  settings : List Entry
  deriving DecidableEq, Inhabited

/-- What an entry gives to a rule that leaves it out. -/
structure Defaults where
  selector : Option String := none
  cls : Option String := none
  color : Option String := none
  deriving DecidableEq, Inhabited

end Catalog

structure Catalog where
  groups : List Catalog.Group := []
  deriving DecidableEq, Inhabited

namespace Catalog

/-- Put the post selector in place of the placeholder. -/
def Entry.resolve (config : Config) (e : Entry) : Entry :=
  { e with selector := e.selector.map (Text.replace · config.placeholder config.postSelector) }

/-- The catalog of some groups, under a configuration. -/
def ofGroups (config : Config) (groups : List Group) : Catalog :=
  ⟨groups.map fun g => { g with settings := g.settings.map (·.resolve config) }⟩

/-- All entries in order. -/
def entries (c : Catalog) : List Entry := c.groups.flatMap (·.settings)

/-- The first entry with an id. -/
def get? (c : Catalog) (id : String) : Option Entry := c.entries.find? (·.id == id)

/-- The place of the first entry with an id. -/
def position? (c : Catalog) (id : String) : Option Nat := c.entries.findIdx? (·.id == id)

def Entry.defaults (e : Entry) : Defaults :=
  { selector := e.selector, cls := e.cls, color := e.color }

/-- Whether an entry gives nothing. -/
def Entry.isBare (e : Entry) : Bool := e.selector.isNone && e.cls.isNone && e.color.isNone

/-- What the entries give, by id. Of entries with the same id the last that gives anything
counts. -/
def defaults (c : Catalog) : SortedMap String Defaults :=
  .ofList ((c.entries.filter (!·.isBare)).map fun e => (e.id, e.defaults))

end Catalog

end NoiseFilter
