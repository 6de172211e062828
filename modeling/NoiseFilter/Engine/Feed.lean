import NoiseFilter.Tree.Basic

/-!
# Change feed

Batches of changes to a page: the nodes added since the last look, or the word that the page is a
new one and has to be looked at as a whole.
-/

namespace NoiseFilter

/-- What has changed. -/
structure ChangeBatch where
  added : List NodeId := []
  /-- Look at the whole page; the nodes added do not matter then. -/
  navigation : Bool := false
  deriving DecidableEq, Inhabited

namespace ChangeBatch

/-- The batch that asks for a look at the whole page. -/
def wholePage : ChangeBatch := { navigation := true }

/-- The nodes that entered child lists, in the order in which they did. -/
def ofJournal (journal : List Mutation) : ChangeBatch := { added := journal.flatMap (·.added) }

def isEmpty (b : ChangeBatch) : Bool := !b.navigation && b.added.isEmpty

end ChangeBatch

/-- A feed remembers the address of the page at the last look. -/
structure ChangeFeed where
  lastUrl : Option String := none
  deriving DecidableEq, Inhabited

/-- Take what has changed out of the journal. Another address than at the last look, and any at the
first, is a navigation; the journal is emptied all the same. -/
def ChangeFeed.poll (f : ChangeFeed) (t : Tree) (url : String) : ChangeBatch × ChangeFeed × Tree :=
  let (journal, t) := t.takeJournal
  if f.lastUrl = some url then (.ofJournal journal, f, t)
  else (.wholePage, { lastUrl := some url }, t)

end NoiseFilter
