import NoiseFilter.Proofs.Extended.Append
import NoiseFilter.Settings.Custom

/-!
# Custom filters

A pattern is put between slashes behind the post selector as it is. If no slash in it stands by itself,
the filter compiles to the pattern, and if it is on one line it is found again in the selector.
-/

namespace NoiseFilter

open Extended Selector

/-- Between slashes the pattern ends at its end: each slash in it has a backslash in front, and no
backslash is left over. -/
def Enclosable (p : String) : Prop :=
  scanDelimited '/' (p.toList ++ ['/']) = some (p.toList, [])

instance (p : String) : Decidable (Enclosable p) := inferInstanceAs (Decidable (_ = _))

section

variable {config : Config} {p : String} {test : TextTest}

theorem customSelector_eq_ok_iff {s : String} : customSelector config p = .ok s ↔
    (∃ test, TextTest.ofRegex p = .ok test) ∧ s = config.postSelector ++ ":contains(/" ++ p ++ "/)" := by
  unfold customSelector
  cases TextTest.ofRegex p with
  | error e => simp [bind, Except.bind]
  | ok test => simp [bind, Except.bind, pure, Except.pure, eq_comm]

theorem exists_ofRegex_iff :
    (∃ test, TextTest.ofRegex p = .ok test) ↔ (Pattern.ofString? p).isSome = true := by
  unfold TextTest.ofRegex
  cases Pattern.ofString? p with
  | none => simp
  | some pattern => simp

theorem toList_enclosed (s p : String) : (s ++ ":contains(/" ++ p ++ "/)").toList =
    s.toList ++ (patternOpening ++ (p.toList ++ ['/', ')'])) := by
  have opening : ":contains(/".toList = patternOpening := rfl
  have closing : "/)".toList = ['/', ')'] := rfl
  simp only [String.toList_append, opening, closing, List.append_assoc]

/-! ## Finding the pattern again -/

theorem patternIn_append (oneLine : '\n' ∉ p.toList) :
    patternIn (p.toList ++ ['/', ')']) = some p.toList := by
  have trimmed : Text.trimStart (p.toList ++ ['/', ')']).reverse = ')' :: '/' :: p.toList.reverse := by
    rw [List.reverse_append]
    exact List.dropWhile_cons_of_neg (by decide)
  rw [patternIn, trimmed]
  simp [oneLine]

/-- The first opening is the one behind the post selector. -/
theorem findPattern_append {s body q : List Char} (absent : Text.occursIn containsToken s = false)
    (found : patternIn body = some q) : findPattern (s ++ (patternOpening ++ body)) = some q := by
  have opening : patternOpening = containsToken ++ ['/'] := rfl
  induction s with
  | nil =>
    have here : patternOpening ++ body = ':' :: ("contains(/".toList ++ body) := rfl
    have opened : patternOpening.isPrefixOf (patternOpening ++ body) = true :=
      List.isPrefixOf_iff_prefix.mpr (List.prefix_append ..)
    have behind : (patternOpening ++ body).drop patternOpening.length = body := List.drop_left
    rw [here] at opened behind
    rw [List.nil_append, here, findPattern, opened, if_pos rfl, behind, found]
    rfl
  | cons c s ih =>
    have later := ih <| occursIn_eq_false_of_infix (List.suffix_cons c s).isInfix absent
    have closed : ¬ patternOpening.isPrefixOf (c :: (s ++ (patternOpening ++ body))) = true := by
      rw [List.isPrefixOf_iff_prefix]
      rintro ⟨rest, there⟩
      have begins : afterContains (c :: s ++ ':' :: ("contains(/".toList ++ body)) = some ('/' :: rest) :=
        afterContains_eq_some_iff.mpr (there.symm.trans (by rw [opening, List.append_assoc]; rfl))
      have first : afterContains (c :: s) = none := afterContains_of_absent absent
      rw [afterContains_before rfl (by decide) (List.cons_ne_nil _ _) first] at begins
      cases begins
    rw [List.cons_append, findPattern, later, if_neg closed]
    rfl

theorem extractPattern_enclosed {s : String} (absent : Text.occursIn containsToken s.toList = false)
    (oneLine : '\n' ∉ p.toList) : extractPattern (s ++ ":contains(/" ++ p ++ "/)") = some p := by
  have found := findPattern_append absent (patternIn_append oneLine)
  rw [extractPattern, toList_enclosed, found, Option.map_some, String.ofList_toList]

/-! ## Compiling the filter -/

/-- A filter compiles to the test that its pattern stands for between slashes. -/
theorem compile_enclosed {s : String} {x : Selector} (accepted : Selector.ofString s = .ok x)
    (names : Avoids isMark s.toList) (absent : Text.occursIn containsToken s.toList = false)
    (enclosable : Enclosable p) (means : TextTest.ofDelimited '/' p.toList = .ok test) :
    ∃ e, ExtendedSelector.compile (s ++ ":contains(/" ++ p ++ "/)") = .ok e ∧ e.has = [] ∧
      e.contains = [test] := by
  have front : skipAsciiBlanks ('/' :: (p.toList ++ ['/', ')'])) = '/' :: (p.toList ++ ['/', ')']) :=
    List.dropWhile_cons_of_neg (by decide)
  have scan : scanDelimited '/' (p.toList ++ ['/', ')']) = some (p.toList, [')']) := by
    have scan := scanDelimited_append enclosable [')']
    rwa [List.append_assoc] at scan
  have read : TestRead ('/' :: (p.toList ++ ['/', ')'])) test [] :=
    testRead_delimited rfl front scan (List.dropWhile_cons_of_neg (by decide)) means
  have whole : (s ++ ":contains(/" ++ p ++ "/)").toList =
      s.toList ++ (containsToken ++ '/' :: (p.toList ++ ['/', ')'])) := toList_enclosed s p
  have reads := Selector.ofChars_eq_ok_iff.mp accepted
  have walks := walks_append_test (orderly_of_reads reads names _) (.of_absent absent) read
  rw [← whole] at walks
  refine ⟨_, ExtendedSelector.compile_of_walks ?_ walks, rfl, rfl⟩
  rw [whole]
  exact ⟨s.toList, _, List.append_assoc ..⟩

/-- Where there is no slash, none has to be taken back. -/
theorem unescape_of_not_mem {s : List Char} (absent : '/' ∉ s) : TextTest.unescape '/' s = s := by
  fun_induction TextTest.unescape '/' s with
  | case1 => rfl
  | case2 => rfl
  | case3 d rest _ ih => rw [ih (by simp_all)]
  | case4 d rest slash => simp_all
  | case5 c rest _ ih => rw [ih (by simp_all)]

/-- A custom filter keeps its pattern. If the pattern ends where its slashes say, the filter compiles
to one test, which accepts the texts that the pattern accepts; and a pattern on one line is found
again in the filter. -/
theorem compile_customSelector {s : String} {x : Selector}
    (accepted : Selector.ofString config.postSelector = .ok x)
    (names : Avoids isMark config.postSelector.toList)
    (absent : Text.occursIn containsToken config.postSelector.toList = false)
    (made : customSelector config p = .ok s) :
    (Enclosable p → '/' ∉ p.toList → ∃ e test own, ExtendedSelector.compile s = .ok e ∧ e.has = [] ∧
      e.contains = [test] ∧ test.isRegex = true ∧ TextTest.ofRegex p = .ok own ∧
      ∀ text, test.accepts text = own.accepts text) ∧
    ('\n' ∉ p.toList → extractPattern s = some p) := by
  obtain ⟨⟨own, means⟩, rfl⟩ := customSelector_eq_ok_iff.mp made
  refine ⟨fun enclosable noSlash => ?_, extractPattern_enclosed absent⟩
  have inside : TextTest.ofDelimited '/' p.toList = .ok own := by
    simp [TextTest.ofDelimited, unescape_of_not_mem noSlash, means]
  have isRegex : own.isRegex = true := by
    unfold TextTest.ofRegex at means
    split at means
    · cases means
      rfl
    · cases means
  obtain ⟨e, compiles, noHas, one⟩ := compile_enclosed accepted names absent enclosable inside
  exact ⟨e, own, own, compiles, noHas, one, isRegex, means, fun _ => rfl⟩

/-- Posts are the elements of one class. -/
def classConfig : Config := { postSelector := ".p" }

theorem accepted_classConfig :
    Selector.ofString classConfig.postSelector = .ok ⟨[.compound [.cls "p"]]⟩ := by
  have name : Reads (.compound [.cls "p"]) ['.', 'p'] [] :=
    .compoundSimple (.simpleClass (show _ = some (['p'], _) from rfl) (by decide)) (.simplesEnd rfl)
  exact Selector.ofChars_eq_ok_iff.mpr (.last (.complex name .joins_nil))

/-- A choice of two words is kept. -/
theorem compile_customSelector_choice :
    (∃ e test own, ExtendedSelector.compile ".p:contains(/hiring|rocket/)" = .ok e ∧ e.has = [] ∧
      e.contains = [test] ∧ test.isRegex = true ∧ TextTest.ofRegex "hiring|rocket" = .ok own ∧
      ∀ text, test.accepts text = own.accepts text) ∧
    extractPattern ".p:contains(/hiring|rocket/)" = some "hiring|rocket" := by
  have made : customSelector classConfig "hiring|rocket" = .ok ".p:contains(/hiring|rocket/)" :=
    customSelector_eq_ok_iff.mpr ⟨exists_ofRegex_iff.mpr (by decide +kernel), rfl⟩
  obtain ⟨compiles, extracts⟩ := compile_customSelector accepted_classConfig (by decide +kernel)
    (by decide +kernel) made
  exact ⟨compiles (by decide +kernel) (by decide +kernel), extracts (by decide +kernel)⟩

/-- A lone slash is a pattern, but it ends the test in front of itself. -/
theorem not_compile_customSelector : ¬ ∀ (config : Config) (p s : String) (x : Selector),
    Selector.ofString config.postSelector = .ok x →
    Text.occursIn containsToken config.postSelector.toList = false →
    customSelector config p = .ok s →
    (∃ e test own, ExtendedSelector.compile s = .ok e ∧ e.has = [] ∧ e.contains = [test] ∧
      test.isRegex = true ∧ TextTest.ofRegex p = .ok own ∧
      ∀ text, test.accepts text = own.accepts text) ∧
    extractPattern s = some p := by
  intro all
  have made : customSelector classConfig "/" = .ok ".p:contains(///)" :=
    customSelector_eq_ok_iff.mpr ⟨exists_ofRegex_iff.mpr (by decide +kernel), rfl⟩
  obtain ⟨⟨e, -, -, compiles, -⟩, -⟩ :=
    all classConfig "/" _ _ accepted_classConfig (by decide +kernel) made
  have refused : (ExtendedSelector.compile ".p:contains(///)").toOption.isNone = true := by
    decide +kernel
  rw [compiles] at refused
  cases refused

end

end NoiseFilter
