import NoiseFilter.Text.Blank

/-!
# Class lists

The classes of one element: an ordered list of tokens without repetition, none of them empty. Reading
splits at blanks; writing joins with single spaces.
-/

namespace NoiseFilter

/-- The class tokens of an element, in the order they were added. -/
@[ext] structure ClassList where
  tokens : List String := []
  distinct : tokens.Nodup := by exact List.nodup_nil
  nonempty : "" ∉ tokens := by exact List.not_mem_nil
  deriving DecidableEq

namespace ClassList

instance : Inhabited ClassList := ⟨{}⟩

/-- Whether a token is in the list; tokens are compared exactly. -/
def contains (l : ClassList) (token : String) : Bool := l.tokens.contains token

/-- Append a token that is not empty and not yet there. -/
def insert (l : ClassList) (token : String) : ClassList :=
  if skip : token = "" ∨ token ∈ l.tokens then l
  else
    { tokens := l.tokens ++ [token]
      distinct := by
        rw [List.nodup_append]
        refine ⟨l.distinct, by simp, fun a old b new same => skip (.inr ?_)⟩
        rwa [← List.mem_singleton.mp new, ← same]
      nonempty := by
        rw [List.mem_append, List.mem_singleton]
        exact fun empty => empty.elim l.nonempty fun same => skip (.inl same.symm) }

/-- Append several tokens, one after the other. -/
def insertAll (l : ClassList) (tokens : List String) : ClassList := tokens.foldl insert l

/-- Take out every token that is in `tokens`. -/
def eraseAll (l : ClassList) (tokens : List String) : ClassList :=
  { tokens := l.tokens.filter fun t => !tokens.contains t
    distinct := l.distinct.filter _
    nonempty := fun empty => l.nonempty ((List.mem_filter.mp empty).1) }

/-- Take out one token. -/
def erase (l : ClassList) (token : String) : ClassList := l.eraseAll [token]

/-- The list that the value of a `class` attribute stands for. -/
def ofString (value : String) : ClassList := insertAll {} (Text.words value)

/-- The tokens joined by single spaces. -/
def render (l : ClassList) : String := " ".intercalate l.tokens

def size (l : ClassList) : Nat := l.tokens.length

def isEmpty (l : ClassList) : Bool := l.tokens.isEmpty

/-- The text of the attribute that holds the list; an empty list has no attribute. -/
def text? (l : ClassList) : Option String := if l.isEmpty then none else some l.render

end ClassList

end NoiseFilter
