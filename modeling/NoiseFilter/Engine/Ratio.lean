import NoiseFilter.Selector.Match
import NoiseFilter.Selector.Reader
import NoiseFilter.Settings.Config

/-!
# Noise ratio

The share of a page that is noise: the elements marked by either class of the modes, among those
and the units of the page. A marked element inside a unit is not counted on top of it.
-/

namespace NoiseFilter

/-- A selector of the configuration that is none. -/
structure ConfigSelectorError where
  /-- What the selector is for. -/
  what : String
  cause : SelectorError

def ConfigSelectorError.message (e : ConfigSelectorError) : String :=
  "configured " ++ e.what ++ " selector does not parse: " ++ e.cause.message

/-- Read a selector of the configuration. -/
def readConfigured (what text : String) : Except ConfigSelectorError Selector :=
  (Selector.ofString text).mapError fun cause => { what, cause }

/-- The selector of units. -/
def Config.unit (config : Config) : Except ConfigSelectorError Selector :=
  readConfigured "unit" config.unitSelector

/-- What a ratio is made of. -/
structure RatioCounts where
  /-- Marked elements. -/
  classified : Nat
  /-- Units. -/
  items : Nat
  /-- Marked elements inside a unit. -/
  classifiedInUnits : Nat
  deriving DecidableEq

namespace RatioCounts

def whole (c : RatioCounts) : Nat := c.items + c.classified - c.classifiedInUnits

/-- The ratio in percent, rounded, and 100 at most; 0 where there is nothing to count. -/
def ratio (c : RatioCounts) : Nat :=
  if c.whole = 0 then 0
  else min 100 (c.classified.toFloat / c.whole.toFloat * 100).round.toUInt64.toNat

/-- Whether an element is marked. -/
def isMarked (config : Config) (t : Tree) (id : NodeId) : Bool :=
  t.hasClass id config.normalClass || t.hasClass id config.extremeClass

/-- Whether an element lies inside a unit. -/
def isInUnit (unit : Selector) (t : Tree) (id : NodeId) : Bool :=
  (t.ancestors id).any (unit.accepts t none)

/-- Count on a page. -/
def ofTree (config : Config) (unit : Selector) (t : Tree) : RatioCounts :=
  let elements := t.elements
  let marked := elements.filter (isMarked config t)
  { classified := marked.length
    items := (elements.filter (unit.accepts t none)).length
    classifiedInUnits := (marked.filter (isInUnit unit t)).length }

end RatioCounts

end NoiseFilter
