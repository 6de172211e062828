import NoiseFilter.Extended.Basic
import NoiseFilter.Extended.Tidy

/-!
# Taking text tests out of a selector

A selector without `:contains(` is its own base and always compiles. Any other is walked from the
left. Quoted texts are passed over; a test is cut out; an argument of `:has(…)` that mentions
tests is stripped of them and stays in the base. What is left is tidied.
-/

namespace NoiseFilter

namespace Extended

open Text (byteSize)

/-- Any element, where nothing is left. -/
def orAny (s : List Char) : List Char := if s.isEmpty then ['*'] else s

/-- A step over the front of a text: the part passed over. -/
def passed (s next : List Char) : List Char := s.take (s.length - next.length)

/-- Strip the argument of a `:has(…)` of its tests. `kept` is what has been kept so far, and each
test is paired with it. -/
def strip (offset : Nat) (kept s : List Char) : Except CompileError (List Char × HasClause) :=
  match s with
  | [] => .ok (kept, [])
  | c :: rest =>
    if isQuote c then
      have := length_skipQuoted_le c rest
      let next := skipQuoted c rest
      let text := passed (c :: rest) next
      strip (offset + byteSize text) (kept ++ text) next
    else
      match h : afterContains (c :: rest) with
      | none => strip (offset + c.utf8Size) (kept ++ [c]) rest
      | some inner => do
        have := length_lt_of_afterContains h
        let read ← readTest offset inner
        have := read.short
        let sub := String.ofList (orAny (Text.trimChars kept))
        let (kept, tests) ←
          strip (offset + byteSize (passed (c :: rest) read.rest)) kept read.rest
        return (kept, { sub, test := read.value } :: tests)
termination_by s.length
decreasing_by all_goals simp_all <;> omega

/-- What a walk over a selector finds. -/
structure Found where
  base : List Char := []
  has : List HasClause := []
  contains : List TextTest := []

/-- Put text in front of the base. -/
def Found.keep (text : List Char) (f : Found) : Found := { f with base := text ++ f.base }

/-- Walk over a selector; `offset` is the place of what remains. -/
def walk (offset : Nat) (s : List Char) : Except CompileError Found :=
  match s with
  | [] => .ok {}
  | c :: rest =>
    if isQuote c then
      have := length_skipQuoted_le c rest
      let next := skipQuoted c rest
      let text := passed (c :: rest) next
      (walk (offset + byteSize text) next).map (.keep text)
    else
      match h : afterHas (c :: rest) with
      | some inner => do
        have := length_lt_of_afterHas h
        let inside := offset + byteSize hasToken
        let argument ← readArgument offset inside 0 inner
        have := argument.short
        let text := passed (c :: rest) argument.rest
        let after := offset + byteSize text
        if Text.occursIn containsToken argument.value then
          let (kept, tests) ← strip inside [] argument.value
          let found ← walk after argument.rest
          let found := { found with has := tests :: found.has }
          return found.keep (hasToken ++ orAny (Text.trimChars kept) ++ [')'])
        else
          let found ← walk after argument.rest
          return found.keep text
      | none =>
        match h : afterContains (c :: rest) with
        | some inner => do
          have := length_lt_of_afterContains h
          let read ← readTest offset inner
          have := read.short
          let found ← walk (offset + byteSize (passed (c :: rest) read.rest)) read.rest
          return { found with contains := read.value :: found.contains }
        | none => (walk (offset + c.utf8Size) rest).map (.keep [c])
termination_by s.length
decreasing_by all_goals simp_all <;> omega

end Extended

namespace ExtendedSelector

/-- Compile a selector that may hold text tests. -/
def compile (source : String) : Except CompileError ExtendedSelector :=
  if Text.occursIn Extended.containsToken source.toList then do
    let found ← Extended.walk 0 source.toList
    return {
      source
      base := String.ofList (Extended.tidy found.base)
      has := found.has
      contains := found.contains }
  else .ok { source, base := source }

end ExtendedSelector

/-- Selectors compiled so far, by source. Those that do not compile are not kept. -/
structure SelectorCache where
  entries : List ExtendedSelector := []

namespace SelectorCache

def find? (cache : SelectorCache) (source : String) : Option ExtendedSelector :=
  cache.entries.find? (·.source == source)

def size (cache : SelectorCache) : Nat := cache.entries.length

/-- Compile a selector, unless this has been done before. -/
def compile (cache : SelectorCache) (source : String) :
    Except CompileError ExtendedSelector × SelectorCache :=
  match cache.find? source with
  | some s => (.ok s, cache)
  | none =>
    match ExtendedSelector.compile source with
    | .ok s => (.ok s, ⟨cache.entries ++ [s]⟩)
    | .error e => (.error e, cache)

end SelectorCache

end NoiseFilter
