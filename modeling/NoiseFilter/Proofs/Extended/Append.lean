import NoiseFilter.Proofs.Extended.Escape
import NoiseFilter.Proofs.Extended.Tidy
import NoiseFilter.Proofs.Extended.Walk

/-!
# A text test behind a selector

The reader of selectors knows backslashes everywhere and lets quotes hide anything. The scanners know
backslashes in quotes only, and logic without argument is taken out of quoted texts as well. Where a
selector gives no occasion for this (`Transparent`), putting a text test behind it changes nothing of
what it means: the test is found, and the base is read as the selector.
-/

namespace NoiseFilter

namespace Extended

open Selector (Reads)
open Text (skipBlanks)

/-- The scanners see the same in a text as the reader of selectors: no name holds a character that
makes a difference to the layout, nothing looks like logic without argument, and behind a `:has(` no
text test is mentioned. -/
structure Transparent (s : List Char) : Prop where
  names : Avoids isStructural s
  logic : ∀ t ∈ s.tails, afterEmptyLogic t = none
  quiet : Quiet s

/-- A test for a literal text, in single quotes. -/
def literalTest (text : String) : List Char :=
  containsToken ++ '\'' :: escape '\'' text.toList ++ ['\'', ')']

theorem testRead_literalTest (text : String) (t : List Char) :
    ∃ s, literalTest text ++ t = containsToken ++ s ∧ TestRead s (.literal text) t := by
  have read := testRead_literal (q := '\'') rfl text.toList t
  rw [String.ofList_toList] at read
  exact ⟨_, by simp [literalTest], read⟩

/-- A selector is orderly, also with a test behind it. -/
theorem orderly_of_reads {cs : List Complex} {s : List Char} (reads : Reads (.list cs) s [])
    (names : Avoids isMark s) (t : List Char) : Orderly true s (containsToken ++ t) := by
  obtain ⟨⟨front, halves, orderly⟩, -⟩ := passed_of_reads (fun _ mark => mark) reads names
  rw [List.append_nil] at halves
  subst halves
  exact orderly.before_colon (t := "contains(".toList ++ t)

/-- A walk over orderly text and one test behind it keeps the text. -/
theorem walks_append_test {s t : List Char} {test : TextTest}
    (orderly : Orderly true s (containsToken ++ t)) (quiet : Quiet s) (read : TestRead t test []) :
    Walks (s ++ (containsToken ++ t)) { base := s, contains := [test] } := by
  have found := orderly.walks quiet (walks_test read walks_nil)
  rwa [Found.keep, List.append_nil] at found

end Extended

namespace ExtendedSelector

open Extended
open Selector (Reads)
open Text (isBlank skipBlanks)

theorem compile_of_walks {s : String} {found : Found} (mentions : containsToken <:+: s.toList)
    (walks : Walks s.toList found) :
    compile s = .ok
      { source := s
        base := String.ofList (tidy found.base)
        has := found.has
        contains := found.contains } := by
  rw [compile, if_pos (occursIn_eq_true_iff.mpr mentions), walks 0]
  rfl

/-- A selector with a test for a literal text behind it. -/
def withLiteral (s text : String) : String := s ++ String.ofList (literalTest text)

theorem compile_withLiteral_of_orderly {s text : String}
    (orderly : ∀ t, Orderly true s.toList (containsToken ++ t)) (quiet : Quiet s.toList) :
    compile (withLiteral s text) = .ok
      { source := withLiteral s text
        base := String.ofList (tidy s.toList)
        contains := [.literal text] } := by
  obtain ⟨t, there, read⟩ := testRead_literalTest text []
  rw [List.append_nil] at there
  have whole : (withLiteral s text).toList = s.toList ++ (containsToken ++ t) := by
    simp [withLiteral, there]
  have walks := walks_append_test (orderly t) quiet read
  rw [← whole] at walks
  exact compile_of_walks (whole ▸ ⟨s.toList, t, by simp⟩) walks

/-- Behind a selector that the scanners see as it is read, a test for a literal text compiles to this
test and a base that is read as the selector. -/
theorem compile_withLiteral {s : String} {x : Selector} (accepted : Selector.ofString s = .ok x)
    (transparent : Transparent s.toList) (text : String) :
    ∃ e, compile (withLiteral s text) = .ok e ∧ e.has = [] ∧ e.contains = [.literal text] ∧
      Selector.ofString e.base = .ok x := by
  have reads := Selector.ofChars_eq_ok_iff.mp accepted
  have orderly := orderly_of_reads reads (transparent.names.mono structural_of_isMark)
  refine ⟨_, compile_withLiteral_of_orderly orderly transparent.quiet, rfl, rfl, ?_⟩
  rw [Selector.ofString, String.toList_ofList, Selector.ofChars_eq_ok_iff]
  exact reads_tidy reads transparent.names transparent.logic

/-- A list of selectors is kept as it is, and so is the quote in the text behind it. -/
theorem compile_withLiteral_quote :
    (Selector.ofString "p, .a" =
      .ok ⟨[.compound [.type "p"], .compound [.cls "a"]]⟩ ∧ Transparent "p, .a".toList) ∧
    ∃ e, compile (withLiteral "p, .a" "it's") = .ok e ∧ e.has = [] ∧
      e.contains = [.literal "it's"] ∧
      Selector.ofString e.base = .ok ⟨[.compound [.type "p"], .compound [.cls "a"]]⟩ := by
  have tag : Reads (.compound [.type "p"]) ['p', ',', ' ', '.', 'a'] [',', ' ', '.', 'a'] :=
    .compoundType rfl (show _ = some (['p'], _) from rfl) (.simplesEnd rfl)
  have name : Reads (.compound [.cls "a"]) ['.', 'a'] [] :=
    .compoundSimple (.simpleClass (show _ = some (['a'], _) from rfl) (by decide)) (.simplesEnd rfl)
  have reads : Reads (.list [.compound [.type "p"], .compound [.cls "a"]])
      ['p', ',', ' ', '.', 'a'] [] :=
    .listMore (.complex tag (.joinsEnd (by simp [Selector.Ends, skipBlanks, isBlank]))) rfl
      (.last (.complex name .joins_nil))
  have accepted : Selector.ofString "p, .a" =
      .ok ⟨[.compound [.type "p"], .compound [.cls "a"]]⟩ :=
    Selector.ofChars_eq_ok_iff.mpr reads
  have transparent : Transparent "p, .a".toList :=
    ⟨by decide +kernel, by decide +kernel, .of_absent (by decide +kernel)⟩
  exact ⟨⟨accepted, transparent⟩, compile_withLiteral accepted transparent "it's"⟩

/-- Behind a class name with an escaped comma the base falls apart: what was one class is a class and
a tag inside. -/
theorem not_compile_withLiteral : ¬ ∀ (s : String) (x : Selector), Selector.ofString s = .ok x →
    ∀ text, ∃ e, compile (withLiteral s text) = .ok e ∧ e.has = [] ∧
      e.contains = [.literal text] ∧ Selector.ofString e.base = .ok x := by
  intro all
  have word : ∀ c ∈ ['.', 'a', '\\'], isMark c = false ∧ c ≠ ':' := by simp [isMark, isQuote]
  have name : Reads (.list [.compound [.cls "a,b"]]) ['.', 'a', '\\', ',', 'b'] [] :=
    .last (.complex (.compoundSimple
      (.simpleClass (show _ = some (['a', ',', 'b'], _) from rfl) (by decide))
      (.simplesEnd rfl)) .joins_nil)
  have split : Reads (.list [.join (.compound [.cls "a,"]) .descendant [.type "b"]])
      ['.', 'a', '\\', ',', ' ', 'b'] [] :=
    .last (.complex (.compoundSimple
      (.simpleClass (show _ = some (['a', ','], _) from rfl) (by decide)) (.simplesEnd rfl))
      (.joinsBlank (by decide) (.compoundType rfl (show _ = some (['b'], _) from rfl)
        (.simplesEnd rfl)) .joins_nil))
  obtain ⟨e, compiles, -, -, same⟩ :=
    all ".a\\,b" ⟨[.compound [.cls "a,b"]]⟩ (Selector.ofChars_eq_ok_iff.mpr name) "x"
  have orderly (t : List Char) : Orderly true ".a\\,b".toList (containsToken ++ t) :=
    (Orderly.of_plain (s := ['.', 'a', '\\']) word).trans
      (.comma (.of_plain (s := ['b']) (by simp [isMark, isQuote])))
  have apart : tidy ".a\\,b".toList = ['.', 'a', '\\', ',', ' ', 'b'] := by
    rw [tidy, dropAllEmptyLogic_eq_self (by decide +kernel)]
    show [',', ' '].intercalate ((splitTopLevel 0 [] (['.', 'a', '\\'] ++ ',' :: (['b'] ++ []))).map
      tidyPart) = _
    rw [splitTopLevel_plain fun c member => (word c member).1, splitTopLevel_comma,
      splitTopLevel_plain (by simp [isMark, isQuote]), splitTopLevel]
    decide +kernel
  rw [compile_withLiteral_of_orderly orderly (.of_absent (by decide +kernel))] at compiles
  cases compiles
  rw [apart, Selector.ofString, String.toList_ofList] at same
  have alike := split.unique_list (Selector.ofChars_eq_ok_iff.mp same)
  cases alike.1

end ExtendedSelector

end NoiseFilter
