import Mathlib.Data.List.Flatten
import NoiseFilter.Extended.Select
import NoiseFilter.Proofs.Extended.Append
import NoiseFilter.Proofs.Selector.Row

/-!
# Selectors put together from parts

A tag, literal texts, and clauses: each clause is a row of tags with a literal text for each. Written as
an extended selector, with the texts in single quotes, they select what the parts say, whatever the
texts hold (`Recipe.queryAll_source`). The walk finds the texts and, for each step of a clause, the
tags up to there; what remains is the tag with one `:has(…)` for each clause.
-/

namespace NoiseFilter

open Extended Selector
open Text (isBlank skipBlanks)

/-- A tag in small letters. -/
structure TagName where
  text : String
  filled : text.toList ≠ []
  small : ∀ c ∈ text.toList, c.isLower = true

/-- A step of a clause: a tag, and a text that the element has to hold. -/
structure Step where
  tag : TagName
  text : String

/-- The steps of a clause; there is one at least. -/
structure Clause where
  first : Step
  rest : List Step

/-- The parts of an extended selector. -/
structure Recipe where
  tag : TagName
  texts : List String
  clauses : List Clause

namespace TagName

def chars (tag : TagName) : List Char := tag.text.toList

section

variable (tag : TagName) {c : Char} {s r : List Char} {parts : List Simple}

/-- A small letter is a letter and nothing else. -/
theorem facts (member : c ∈ tag.chars) : isNameStart c = true ∧ c ≠ '\\' ∧ c ≠ ':' ∧
    isStructural c = false ∧ c.toLower = c := by
  have lower := tag.small c member
  have other {d : Char} (notLower : d.isLower = false) : c ≠ d := by
    rintro rfl
    rw [lower] at notLower
    cases notLower
  have alpha : c.isAlpha = true := Text.isAlpha_iff.mpr (.inr lower)
  refine ⟨by simp [isNameStart, alpha], other rfl, other rfl, isStructural_of_isAlpha alpha, ?_⟩
  rcases Text.toNat_toLower c with ⟨-, -, high⟩ | same
  · have := Text.isLower_iff.mp lower
    omega
  · exact same

theorem lower_text : Text.lower tag.text = tag.text := by
  have same : tag.text.toList.map Char.toLower = tag.text.toList :=
    (List.map_congr_left fun c member => (tag.facts member).2.2.2.2).trans (List.map_id _)
  rw [Text.lower, same, String.ofList_toList]

/-- A tag is read in front of what is no name. -/
theorem reads (stop : ∀ c ∈ s.head?, isNameChar c = false) (more : Reads (.simples parts) s r) :
    Reads (.compound (.type tag.text :: parts)) (tag.chars ++ s) r := by
  have scan : scanName (tag.chars ++ s) = some (tag.chars, s) :=
    scanName_append (fun c member => ⟨by simp [isNameChar, (tag.facts member).1],
      (tag.facts member).2.1⟩) stop
  obtain ⟨c, rest, there⟩ := List.exists_cons_of_ne_nil tag.filled
  have start := (tag.facts (c := c) (by rw [chars, there]; exact List.mem_cons_self ..)).1
  have reads := Reads.compoundType start (by rw [← List.cons_append, ← there]; exact scan) more
  rwa [← List.cons_append, ← there, chars, String.ofList_toList, lower_text] at reads

theorem exists_cons : ∃ c rest, tag.chars = c :: rest ∧ isNameStart c = true ∧
    isStructural c = false := by
  obtain ⟨c, rest, there⟩ := List.exists_cons_of_ne_nil tag.filled
  have facts := tag.facts (c := c) (by rw [chars, there]; exact List.mem_cons_self ..)
  exact ⟨c, rest, there, facts.1, facts.2.2.2.1⟩

end

end TagName

/-! ## Rows of tags -/

/-- Tags with a blank in front of each. -/
def spaced (row : List TagName) : List Char := row.flatMap fun tag => ' ' :: tag.chars

/-- Tags with a blank between each and the next. -/
def words : List TagName → List Char
  | [] => []
  | first :: rest => first.chars ++ spaced rest

section

variable (first : TagName) (rest : List TagName) (tag : TagName) {row : List TagName} {r : List Char}

theorem words_concat :
    words (first :: (rest ++ [tag])) = words (first :: rest) ++ ' ' :: tag.chars := by
  simp [words, spaced]

theorem words_cons_head : ∃ c s, words (first :: rest) = c :: s ∧ isNameStart c = true ∧
    isStructural c = false := by
  obtain ⟨c, s, there, start, good⟩ := first.exists_cons
  exact ⟨c, _, by rw [words, there, List.cons_append], start, good⟩

theorem words_getLast? : ∀ c ∈ (words (first :: rest)).getLast?, isBlank c = false := by
  have good (tag : TagName) : ∀ c ∈ tag.chars.getLast?, isBlank c = false := fun c last =>
    (good_of_isStructural (tag.facts (List.mem_of_mem_getLast? last)).2.2.2.1).1
  induction rest using List.reverseRecOn with
  | nil => simpa [words, spaced] using good first
  | append_singleton rest tag _ =>
    rw [words_concat, List.getLast?_append_of_ne_nil _ (List.cons_ne_nil _ _),
      show (' ' :: tag.chars).getLast? = tag.chars.getLast? from
        List.getLast?_cons_of_ne_nil tag.filled]
    exact good tag

theorem trimChars_words : Text.trimChars (words (first :: rest)) = words (first :: rest) := by
  obtain ⟨c, s, there, -, good⟩ := words_cons_head first rest
  have whole : Text.trimChars ([] ++ words (first :: rest) ++ []) = words (first :: rest) :=
    Text.trimChars_between (by simp) (by simp)
      (by simpa [there] using (good_of_isStructural good).1) (words_getLast? first rest)
  rwa [List.nil_append, List.append_nil] at whole

/-- A row of tags is left when it is trimmed. -/
theorem orAny_words (filled : row ≠ []) : orAny (Text.trimChars (words row)) = words row := by
  obtain ⟨first, rest, rfl⟩ := List.exists_cons_of_ne_nil filled
  obtain ⟨c, s, there, -⟩ := words_cons_head first rest
  rw [trimChars_words, orAny, there, if_neg (by simp)]

/-- A row of tags is read as the selector with these tags, in front of what ends a selector. -/
theorem reads_words (stop : r = [] ∨ r.head? = some ')') : Reads
    (.complex (.ofTags ((first :: rest).map TagName.text))) (words (first :: rest) ++ r) r := by
  have facts : skipBlanks r = r ∧ Ends r ∧ (∀ c ∈ r.head?, isNameChar c = false) ∧
      startsSimple r = false := by
    rcases stop with rfl | paren
    · simp [skipBlanks, Ends, startsSimple]
    · obtain ⟨s, rfl⟩ := List.head?_eq_some_iff.mp paren
      simp [skipBlanks, Ends, startsSimple, isBlank, isNameChar, isNameStart]
  have compound (tag : TagName) (more : List TagName) :
      Reads (.compound [.type tag.text]) (tag.chars ++ (spaced more ++ r)) (spaced more ++ r) := by
    cases more with
    | nil => exact tag.reads facts.2.2.1 (.simplesEnd facts.2.2.2)
    | cons next more => exact tag.reads (by simp [spaced, isNameChar, isNameStart]) (.simplesEnd rfl)
  have joined (left : Complex) :
      Reads (.joins left (left.inside (rest.map TagName.text))) (spaced rest ++ r) r := by
    induction rest generalizing left with
    | nil =>
      have ends : Reads (.joins left left) r (skipBlanks r) :=
        .joinsEnd (by simpa [facts.1] using facts.2.1)
      rwa [facts.1] at ends
    | cons tag rest ih =>
      obtain ⟨c, s, there, -, good⟩ := tag.exists_cons
      have skipped : skipBlanks (' ' :: (tag.chars ++ (spaced rest ++ r))) =
          tag.chars ++ (spaced rest ++ r) := by
        rw [there]
        exact skipBlanks_append (b := [' ']) (by simp [isBlank]) _ |>.trans
          (skipBlanks_of_head? (by simpa using (good_of_isStructural good).1))
      have right := compound tag rest
      rw [← skipped] at right
      simpa [spaced] using Reads.joinsBlank (by simp [skipped]) right (ih _)
  obtain ⟨c, s, there, -, good⟩ := first.exists_cons
  refine .complex ?_ (joined _)
  rw [skipBlanks_of_head? (by simpa [words, there] using (good_of_isStructural good).1), words,
    List.append_assoc]
  exact compound first rest

end

/-! ## What the walk finds -/

/-- What a step asks for: an element at the end of a row with these tags, that holds the text. -/
structure Goal where
  row : List TagName
  text : String

namespace Goal

/-- The test that the walk finds for it. -/
def test (g : Goal) : HasTest := { sub := String.ofList (words g.row), test := .literal g.text }

end Goal

namespace Step

/-- A step as it is written. -/
def chars (s : Step) : List Char := s.tag.chars ++ literalTest s.text

/-- What steps ask for that stand behind these tags. -/
def goals (front : List TagName) : List Step → List Goal
  | [] => []
  | s :: rest => ⟨front ++ [s.tag], s.text⟩ :: goals (front ++ [s.tag]) rest

/-- A step asks for the tags up to there. -/
theorem mem_goals {g : Goal} {front : List TagName} {steps : List Step} : g ∈ goals front steps ↔
    ∃ k s, steps[k]? = some s ∧ g = ⟨front ++ (steps.map Step.tag).take (k + 1), s.text⟩ := by
  induction steps generalizing front with
  | nil => simp [goals]
  | cons s rest ih =>
    rw [goals, List.mem_cons, ih]
    constructor
    · rintro (rfl | ⟨k, s', there, rfl⟩)
      · exact ⟨0, s, rfl, rfl⟩
      · exact ⟨k + 1, s', there, by simp⟩
    · rintro ⟨k, s', there, rfl⟩
      cases k with
      | zero =>
        cases there
        exact .inl rfl
      | succ k => exact .inr ⟨k, s', there, by simp⟩

end Step

section

variable {s r u kept out argument : List Char} {tests : HasClause} {found : Found} {depth : Nat}

theorem TagName.plain (tag : TagName) {c : Char} (member : c ∈ tag.chars) :
    isMark c = false ∧ c ≠ ':' :=
  ⟨(isMark_of_isStructural (tag.facts member).2.2.2.1).1, (tag.facts member).2.2.1⟩

theorem TagName.unquoted (tag : TagName) : ∀ c ∈ tag.chars, isQuote c = false ∧ c ≠ ':' :=
  fun _ member => ⟨isQuote_eq_false (tag.plain member).1, (tag.plain member).2⟩

theorem TagName.ordinary (tag : TagName) : ∀ c ∈ tag.chars, isOrdinary c = true := fun c member =>
  isOrdinary_iff.mpr ⟨(tag.facts member).2.1, (tag.unquoted c member).1,
    fun _ => (tag.facts member).2.2.2.1⟩

/-- A step in an argument gives its test, with the tags up to there. -/
theorem Step.strips (s : Step) (front : List TagName)
    (whole : kept ++ s.tag.chars = words (front ++ [s.tag]))
    (rest : Strips (words (front ++ [s.tag])) r out tests) :
    Strips kept (s.chars ++ r) out (Goal.test ⟨front ++ [s.tag], s.text⟩ :: tests) := by
  obtain ⟨t, there, read⟩ := testRead_literalTest s.text r
  rw [Step.chars, List.append_assoc, there]
  refine strips_plain s.tag.unquoted ?_
  rw [whole]
  have found := strips_test read rest
  rwa [orAny_words (by simp)] at found

theorem Step.argumentRead (s : Step) (more : ArgumentRead depth r argument u) :
    ArgumentRead depth (s.chars ++ r) (s.chars ++ argument) u := by
  obtain ⟨t, there, read⟩ := testRead_literalTest s.text r
  have test := argumentRead_test read more
  rw [← there, passed_append] at test
  rw [Step.chars, List.append_assoc, List.append_assoc]
  exact argumentRead_plain (fun _ member => s.tag.plain member) test

theorem walks_texts (texts : List String) (rest : Walks r found) :
    Walks (texts.flatMap literalTest ++ r)
      { found with contains := texts.map .literal ++ found.contains } := by
  induction texts with
  | nil => exact rest
  | cons text texts ih =>
    obtain ⟨t, there, read⟩ := testRead_literalTest text (texts.flatMap literalTest ++ r)
    rw [List.flatMap_cons, List.append_assoc, there]
    exact walks_test read ih

end

namespace Clause

variable (c : Clause) {r : List Char} {found : Found}

def steps : List Step := c.first :: c.rest

def tags : List TagName := c.steps.map Step.tag

theorem tags_ne_nil : c.tags ≠ [] := List.cons_ne_nil _ _

/-- The argument of the `:has(…)` that the clause is written as. -/
def argument : List Char := c.first.chars ++ c.rest.flatMap fun s => ' ' :: s.chars

/-- A clause as it is written. -/
def chars : List Char := hasToken ++ c.argument ++ [')']

/-- A clause without its texts. -/
def bare : List Char := hasToken ++ words c.tags ++ [')']

/-- What the steps of the clause ask for. -/
def goals : List Goal := Step.goals [] c.steps

theorem strips_argument : Strips [] c.argument (words c.tags) (c.goals.map Goal.test) := by
  have behind (front : List TagName) (rest : List Step) :
      Strips (words (c.first.tag :: front)) (rest.flatMap fun s => ' ' :: s.chars)
        (words (c.first.tag :: front ++ rest.map Step.tag))
        ((Step.goals (c.first.tag :: front) rest).map Goal.test) := by
    induction rest generalizing front with
    | nil => simpa [Step.goals] using strips_nil
    | cons s rest ih =>
      have whole : words (c.first.tag :: front) ++ [' '] ++ s.tag.chars =
          words (c.first.tag :: front ++ [s.tag]) := by
        simp [words_concat]
      have step := s.strips (c.first.tag :: front) whole (by simpa using ih (front ++ [s.tag]))
      simpa [Step.goals] using strips_char rfl (afterContains_of_ne (by decide) _) step
  exact c.first.strips [] (by simp [words, spaced]) (by simpa [tags, steps] using behind [] c.rest)

theorem argumentRead : ArgumentRead 0 (c.argument ++ ')' :: r) c.argument r := by
  have behind (rest : List Step) : ArgumentRead 0 ((rest.flatMap fun s => ' ' :: s.chars) ++ ')' :: r)
      (rest.flatMap fun s => ' ' :: s.chars) r := by
    induction rest with
    | nil => exact argumentRead_close
    | cons s rest ih =>
      simpa using argumentRead_char rfl (by decide) (by decide) (afterContains_of_ne (by decide) _)
        (s.argumentRead ih)
  simpa [argument] using c.first.argumentRead (behind c.rest)

theorem mentions : containsToken <:+: c.argument := by
  obtain ⟨t, there, -⟩ := testRead_literalTest c.first.text (c.rest.flatMap fun s => ' ' :: s.chars)
  exact ⟨c.first.tag.chars, t, by rw [argument, Step.chars, List.append_assoc, ← there]; simp⟩

/-- A walk over a clause leaves the tags in `:has(…)` and finds the tests. -/
theorem walks (rest : Walks r found) : Walks (c.chars ++ r)
    (({ found with has := c.goals.map Goal.test :: found.has } : Found).keep c.bare) := by
  have opened := afterHas_append (c.argument ++ ')' :: r)
  have walks := walks_has_tests (s := hasToken.tail ++ (c.argument ++ ')' :: r)) opened c.argumentRead
    (occursIn_eq_true_iff.mpr c.mentions) c.strips_argument rest
  rw [orAny_words c.tags_ne_nil] at walks
  simpa [chars, bare, hasToken] using walks

/-- The structural selector that a clause without its texts is read as. -/
def relation : Simple := .pseudo (.has [.ofComplex .descendant (.ofTags (c.tags.map TagName.text))])

theorem reads_bare : Reads (.simple c.relation) (c.bare ++ r) r := by
  have scan : scanName ("has".toList ++ '(' :: (words c.tags ++ ')' :: r)) =
      some ("has".toList, '(' :: (words c.tags ++ ')' :: r)) :=
    scanName_append (List.all_iff_forall_prop.mp (by decide)) (by simp [isNameChar, isNameStart])
  have row : Reads (.complex (.ofTags (c.tags.map TagName.text)))
      (words c.tags ++ ')' :: r) (')' :: r) :=
    reads_words c.first.tag (c.rest.map Step.tag) (.inr rfl)
  have reads := Reads.pseudoHas scan (by rw [String.ofList_toList]; rfl)
    (row.descendants (by simp [skipBlanks, isBlank])) rfl
  simpa [bare, hasToken, relation] using Reads.simplePseudo reads

end Clause

namespace Recipe

variable (recipe : Recipe)

/-- The parts written as an extended selector. -/
def source : String := String.ofList
  (recipe.tag.chars ++ recipe.texts.flatMap literalTest ++ recipe.clauses.flatMap Clause.chars)

/-- What is left without the texts. -/
def bare : List Char := recipe.tag.chars ++ recipe.clauses.flatMap Clause.bare

/-- The selector that the recipe without its texts is read as. -/
def structural : Selector :=
  ⟨[.compound (.type recipe.tag.text :: recipe.clauses.map Clause.relation)]⟩

theorem walks_source : Walks recipe.source.toList
    { base := recipe.bare
      has := recipe.clauses.map fun clause => clause.goals.map Goal.test
      contains := recipe.texts.map .literal } := by
  have clauses (rest : List Clause) : Walks (rest.flatMap Clause.chars)
      { base := rest.flatMap Clause.bare
        has := rest.map fun clause => clause.goals.map Goal.test } := by
    induction rest with
    | nil => exact walks_nil
    | cons clause rest ih => simpa [Found.keep] using clause.walks ih
  have walks := walks_plain recipe.tag.unquoted (walks_texts recipe.texts (clauses recipe.clauses))
  simpa [source, bare, Found.keep] using walks

theorem reads_bare : Reads (.list recipe.structural.alternatives) recipe.bare [] := by
  have clauses (rest : List Clause) : Reads (.simples (rest.map Clause.relation))
      (rest.flatMap Clause.bare) [] ∧
        ∀ c ∈ (rest.flatMap Clause.bare).head?, isNameChar c = false := by
    induction rest with
    | nil => exact ⟨.simplesEnd rfl, by simp⟩
    | cons clause rest ih =>
      exact ⟨.simplesMore clause.reads_bare ih.1, by simp [Clause.bare, hasToken]; decide⟩
  obtain ⟨more, stop⟩ := clauses recipe.clauses
  obtain ⟨c, s, there, -, good⟩ := recipe.tag.exists_cons
  refine .last (.complex ?_ .joins_nil)
  rw [skipBlanks_of_head? (by simpa [bare, there] using (good_of_isStructural good).1)]
  exact recipe.tag.reads stop more

theorem ordinary_bare : ∀ c ∈ recipe.bare, isOrdinary c = true := by
  have signs : ∀ c ∈ hasToken ++ [')', ' '], isOrdinary c = true := List.all_eq_true.mp rfl
  have rows (row : List TagName) : ∀ c ∈ words row, isOrdinary c = true := by
    cases row with
    | nil => simp [words]
    | cons first rest =>
      intro c member
      rcases List.mem_append.mp member with member | member
      · exact first.ordinary c member
      · obtain ⟨tag, -, member⟩ := List.mem_flatMap.mp member
        rcases List.mem_cons.mp member with rfl | member
        · exact signs _ (by simp)
        · exact tag.ordinary c member
  intro c member
  rcases List.mem_append.mp member with member | member
  · exact recipe.tag.ordinary c member
  · obtain ⟨clause, -, member⟩ := List.mem_flatMap.mp member
    rw [Clause.bare, List.mem_append, List.mem_append] at member
    rcases member with (member | member) | member
    · exact signs c (List.mem_append_left _ member)
    · exact rows clause.tags c member
    · exact signs c (List.mem_append_right _ (List.mem_append_left [' '] member))

theorem mentions (some : ¬ (recipe.texts = [] ∧ recipe.clauses = [])) :
    containsToken <:+: recipe.source.toList := by
  have texts (text : String) (member : text ∈ recipe.texts) :
      containsToken <:+: recipe.source.toList := by
    obtain ⟨front, back, halves⟩ := List.append_of_mem member
    obtain ⟨t, there, -⟩ := testRead_literalTest text
      (back.flatMap literalTest ++ recipe.clauses.flatMap Clause.chars)
    refine ⟨recipe.tag.chars ++ front.flatMap literalTest, t, ?_⟩
    rw [List.append_assoc, ← there]
    simp [source, halves]
  have clauses (clause : Clause) (member : clause ∈ recipe.clauses) :
      containsToken <:+: recipe.source.toList := by
    obtain ⟨front, back, halves⟩ := List.append_of_mem member
    refine clause.mentions.trans ⟨recipe.tag.chars ++ recipe.texts.flatMap literalTest ++
      front.flatMap Clause.chars ++ hasToken, ')' :: back.flatMap Clause.chars, ?_⟩
    simp [source, halves, Clause.chars]
  cases there : recipe.texts with
  | cons text _ => exact texts text (by simp [there])
  | nil =>
    cases there' : recipe.clauses with
    | cons clause _ => exact clauses clause (by simp [there'])
    | nil => exact absurd ⟨there, there'⟩ some

theorem compile_source : ∃ e, ExtendedSelector.compile recipe.source = .ok e ∧
    e.has = recipe.clauses.map (fun clause => clause.goals.map Goal.test) ∧
    e.contains = recipe.texts.map .literal ∧ Selector.ofString e.base = .ok recipe.structural := by
  by_cases plain : recipe.texts = [] ∧ recipe.clauses = []
  · have whole : recipe.source = String.ofList recipe.bare := by simp [source, bare, plain]
    have absent : Text.occursIn containsToken recipe.source.toList = false := by
      refine Bool.eq_false_iff.mpr fun present => ?_
      have colon := (occursIn_eq_true_iff.mp present).subset (show ':' ∈ containsToken by decide)
      rw [source, String.toList_ofList] at colon
      exact (recipe.tag.plain (by simpa [plain] using colon)).2 rfl
    refine ⟨{ source := recipe.source, base := recipe.source }, ?_, by simp [plain],
      by simp [plain], ?_⟩
    · rw [ExtendedSelector.compile, absent]
      rfl
    · rw [whole, Selector.ofString, String.toList_ofList]
      exact Selector.ofChars_eq_ok_iff.mpr recipe.reads_bare
  · refine ⟨_, ExtendedSelector.compile_of_walks (recipe.mentions plain) recipe.walks_source, rfl, rfl,
      ?_⟩
    have ordinary := fun c member => isOrdinary_iff.mp (recipe.ordinary_bare c member)
    have names : Avoids isStructural recipe.bare := .of_forall ordinary
    rw [Selector.ofString, String.toList_ofList, Selector.ofChars_eq_ok_iff]
    have filled := filled_of_reads recipe.reads_bare (names.mono structural_of_isMark)
      fun c member => (ordinary c member).2.1
    exact reads_tidy recipe.reads_bare names filled.noEmptyLogic

end Recipe

/-! ## What is selected -/

/-- An element matches the selector with this text. -/
def Selector.Matches (t : Tree) (text : List Char) (e : NodeId) : Prop :=
  ∃ x, ofChars text = .ok x ∧ x.accepts t none e = true

/-- What a reader sees of the node holds this text. -/
def Tree.Shows (t : Tree) (e : NodeId) (text : String) : Prop :=
  text.toList <:+: (t.renderedText e).toList

theorem TextTest.accepts_literal {t : Tree} {e : NodeId} {text : String} :
    (TextTest.literal text).accepts (t.renderedText e) = true ↔ t.Shows e text := occursIn_eq_true_iff

theorem Selector.matches_iff {t : Tree} {text : List Char} {c : Complex} {e : NodeId}
    (reads : Reads (.list [c]) text []) :
    Matches t text e ↔ t.isElement e = true ∧ c.holds t none e = true := by
  have read : ofChars text = .ok ⟨[c]⟩ := ofChars_eq_ok_iff.mpr reads
  simp [Matches, read, accepts, holdsAny]

section

variable {t : Tree} {e : NodeId}

/-- A row of tags is matched by the last element of each row with these tags. -/
theorem matches_words (linked : t.Linked) (first : TagName) (rest : List TagName) :
    Matches t (words (first :: rest)) e ↔
      ∃ row, t.Row ((first :: rest).map TagName.text) row ∧ row.getLast? = some e := by
  have reads := reads_words first rest (.inl rfl)
  rw [List.append_nil] at reads
  rw [matches_iff (.last reads)]
  constructor
  · rintro ⟨element, holds⟩
    exact (Complex.holds_ofTags linked _ _ element).mp holds
  · rintro ⟨row, line, last⟩
    have element := Complex.isElement_of_mem line.tags (List.mem_of_mem_getLast? last)
    exact ⟨element, (Complex.holds_ofTags linked _ _ element).mpr ⟨row, line, last⟩⟩

theorem mapM_map_eq_ok {α β γ ε : Type} {f : β → Except ε γ} {g : α → β} {h : α → γ} {l : List α}
    (each : ∀ a ∈ l, f (g a) = .ok (h a)) : (l.map g).mapM f = .ok (l.map h) := by
  induction l with
  | nil => rfl
  | cons a l ih =>
    rw [List.forall_mem_cons] at each
    rw [List.map_cons, List.mapM_cons, each.1, ih each.2]
    rfl

namespace Goal

/-- The probe for it. -/
def probe (g : Goal) : Probe :=
  { reach := .descendant, selector := ⟨[.ofTags (g.row.map TagName.text)]⟩, test := .literal g.text }

variable {g : Goal}

theorem ofHasTest_test (filled : g.row ≠ []) : Probe.ofHasTest g.test = .ok g.probe := by
  obtain ⟨row, text⟩ := g
  obtain ⟨first, rest, rfl⟩ := List.exists_cons_of_ne_nil filled
  obtain ⟨c, s, there, -, good⟩ := words_cons_head first rest
  have reads := reads_words first rest (.inl rfl)
  rw [List.append_nil] at reads
  have reach : (Goal.test ⟨first :: rest, text⟩).reach = .descendant := by
    have notSign := (good_of_isStructural good).2
    simp only [HasTest.reach, test, String.toList_ofList, there]
    split
    all_goals first | rfl | (next same => cases (List.cons.inj same).1; cases notSign)
  have read : Selector.ofString (Goal.test ⟨first :: rest, text⟩).query =
      .ok ⟨[.ofTags ((first :: rest).map TagName.text)]⟩ := by
    rw [HasTest.query, if_pos reach, Selector.ofString, test, String.toList_ofList]
    exact ofChars_eq_ok_iff.mpr (.last reads)
  rw [Probe.ofHasTest, HasTest.selector, readNamed, read, reach]
  rfl

theorem holds_probe (linked : t.Linked) (filled : g.row ≠ []) : g.probe.holds t e = true ↔
    ∃ d, t.forest.Below e d ∧ Matches t (words g.row) d ∧ t.Shows d g.text := by
  obtain ⟨row, text⟩ := g
  obtain ⟨first, rest, rfl⟩ := List.exists_cons_of_ne_nil filled
  rw [Probe.holds, List.any_eq_true]
  refine exists_congr fun d => ?_
  rw [Selector.queryRelative, List.mem_filter, probe, Combinator.candidates,
    linked.mem_descendantElements_iff, matches_words linked, TextTest.accepts_literal]
  constructor
  · rintro ⟨⟨⟨element, below⟩, accepted⟩, occurs⟩
    simp only [Selector.accepts, holdsAny, Bool.or_false, Bool.and_eq_true] at accepted
    exact ⟨below, (Complex.holds_ofTags linked _ _ element).mp accepted.2, occurs⟩
  · rintro ⟨below, ⟨row, line, last⟩, occurs⟩
    have element := Complex.isElement_of_mem line.tags (List.mem_of_mem_getLast? last)
    have holds : (Complex.ofTags ((first :: rest).map TagName.text)).holds t (some e) d = true :=
      (Complex.holds_ofTags linked _ _ element).mpr ⟨row, line, last⟩
    refine ⟨⟨⟨element, below⟩, ?_⟩, occurs⟩
    simpa [Selector.accepts, holdsAny, element] using holds

end Goal

namespace Clause

variable (c : Clause)

theorem matches_bare : Matches t c.bare e ↔
    t.isElement e = true ∧ c.relation.holds t none e = true := by
  have reads : Reads (.compound [c.relation]) (skipBlanks c.bare) [] := by
    have reads := Reads.compoundSimple (c.reads_bare (r := [])) (.simplesEnd rfl)
    rw [List.append_nil] at reads
    exact reads
  rw [matches_iff (.last (.complex reads .joins_nil)), Complex.holds]
  simp [holdsAll]

/-- Without its texts, a clause asks for a row with its tags inside. -/
theorem matches_bare_iff_row (linked : t.Linked) : Matches t c.bare e ↔ t.isElement e = true ∧
    ∃ row, t.Row (c.tags.map TagName.text) row ∧ ∀ d ∈ row.head?, t.forest.Below e d := by
  rw [matches_bare]
  refine and_congr_right fun element => ?_
  have lands := Complex.lands_ofTags linked c.first.tag.text (c.rest.map (·.tag.text)) element
  simpa [relation, Simple.holds, Pseudo.holds, landsAny, tags, steps, Function.comp_def] using lands

/-- For each step of the clause there is an element inside that matches the tags up to there and shows
the text of the step. -/
def Answered (t : Tree) (e : NodeId) : Prop := ∀ k s, c.steps[k]? = some s →
  ∃ d, t.forest.Below e d ∧ Matches t (words (c.tags.take (k + 1))) d ∧ t.Shows d s.text

theorem holds_probes (linked : t.Linked) :
    (∀ g ∈ c.goals, g.probe.holds t e = true) ↔ c.Answered t e := by
  have filled (k : Nat) : c.tags.take (k + 1) ≠ [] := by simp [tags, steps]
  constructor
  · intro all k s there
    exact (Goal.holds_probe linked (filled k)).mp (all _ (Step.mem_goals.mpr ⟨k, s, there, rfl⟩))
  · intro all g member
    obtain ⟨k, s, there, rfl⟩ := Step.mem_goals.mp member
    exact (Goal.holds_probe linked (filled k)).mpr (all k s there)

theorem mapM_goals : (c.goals.map Goal.test).mapM Probe.ofHasTest = .ok (c.goals.map Goal.probe) := by
  refine mapM_map_eq_ok fun g member => Goal.ofHasTest_test ?_
  obtain ⟨k, s, -, rfl⟩ := Step.mem_goals.mp member
  simp [steps]

end Clause

end

namespace Recipe

variable (recipe : Recipe) {t : Tree}

/-- The query that the parts make. -/
def query : Query :=
  { base := recipe.structural
    contains := recipe.texts.map .literal
    clauses := recipe.clauses.map fun clause => clause.goals.map Goal.probe }

theorem read_source : ∃ e, ExtendedSelector.compile recipe.source = .ok e ∧
    e.read = .ok recipe.query := by
  obtain ⟨e, compiled, has, contains, base⟩ := recipe.compile_source
  have structural : e.structural = .ok recipe.structural := by
    rw [ExtendedSelector.structural, readNamed, base]
    rfl
  have clauses : (e.has.mapM fun clause => clause.mapM Probe.ofHasTest) =
      .ok (recipe.clauses.map fun clause => clause.goals.map Goal.probe) := by
    rw [has]
    exact mapM_map_eq_ok fun clause _ => clause.mapM_goals
  refine ⟨e, compiled, ?_⟩
  rw [ExtendedSelector.read, structural, clauses, contains]
  rfl

/-- Whether an element is what the parts say. -/
theorem accepts_query (linked : t.Linked) {el : NodeId} : recipe.query.accepts t el = true ↔
    t.tag? el = some recipe.tag.text ∧
    (recipe.texts = [] ∨ ∃ text ∈ recipe.texts, t.Shows el text) ∧
    (∀ clause ∈ recipe.clauses, Matches t clause.bare el) ∧
    (recipe.clauses = [] ∨ ∃ clause ∈ recipe.clauses, clause.Answered t el) := by
  have base : recipe.structural.accepts t none el = true ↔ t.tag? el = some recipe.tag.text ∧
      ∀ clause ∈ recipe.clauses, Matches t clause.bare el := by
    simp only [structural, Selector.accepts, holdsAny, Bool.or_false, Bool.and_eq_true, Complex.holds,
      holdsAll, Simple.holds, beq_iff_eq, holdsAll_iff, List.forall_mem_map, Clause.matches_bare]
    constructor
    · rintro ⟨element, tagged, holds⟩
      exact ⟨tagged, fun clause member => ⟨element, holds clause member⟩⟩
    · rintro ⟨tagged, holds⟩
      exact ⟨Complex.isElement_of_tag? tagged, tagged, fun clause member => (holds clause member).2⟩
  have contains : recipe.query.passesContains t el = true ↔
      recipe.texts = [] ∨ ∃ text ∈ recipe.texts, t.Shows el text := by
    simp [Query.passesContains, query, TextTest.accepts_literal]
  have clauses : recipe.query.passesClauses t el = true ↔
      recipe.clauses = [] ∨ ∃ clause ∈ recipe.clauses, clause.Answered t el := by
    simp only [Query.passesClauses, query, Bool.or_eq_true, List.isEmpty_iff, List.map_eq_nil_iff,
      List.any_map, List.any_eq_true, Function.comp_apply, List.all_map, List.all_eq_true,
      Clause.holds_probes _ linked]
  rw [Query.accepts, Bool.and_eq_true, Bool.and_eq_true, contains, clauses,
    show recipe.query.base = recipe.structural from rfl, base]
  constructor
  · rintro ⟨⟨⟨tagged, bare⟩, texts⟩, answered⟩
    exact ⟨tagged, texts, bare, answered⟩
  · rintro ⟨tagged, texts, bare, answered⟩
    exact ⟨⟨⟨tagged, bare⟩, texts⟩, answered⟩

/-- The selector written from the parts compiles, and a query with it returns the elements with the
tag that are strictly inside its root and hold one of the texts, that have for each clause a row with
its tags inside, and for one clause at each step also a match of the tags up to there with the text of
the step. It returns them in document order and each once. -/
theorem queryAll_source (grown : t.Grown) (root : NodeId) :
    ∃ e found, ExtendedSelector.compile recipe.source = .ok e ∧ e.queryAll t root = .ok found ∧
      found.Nodup ∧ found.Pairwise t.forest.Precedes ∧
      ∀ el, el ∈ found ↔ t.forest.Below root el ∧ t.tag? el = some recipe.tag.text ∧
        (recipe.texts = [] ∨ ∃ text ∈ recipe.texts, t.Shows el text) ∧
        (∀ clause ∈ recipe.clauses, Matches t clause.bare el) ∧
        (recipe.clauses = [] ∨ ∃ clause ∈ recipe.clauses, clause.Answered t el) := by
  obtain ⟨e, compiled, read⟩ := recipe.read_source
  have found : e.queryAll t root =
      .ok ((t.descendantElements root).filter (recipe.query.accepts t)) := by
    rw [ExtendedSelector.queryAll, ExtendedSelector.select, read]
    rfl
  have linked := grown.linked
  refine ⟨e, _, compiled, found, ((linked.forest.nodup_descendants root).filter _).filter _,
    ((linked.forest.pairwise_descendants root).filter _).filter _, fun el => ?_⟩
  rw [List.mem_filter, linked.mem_descendantElements_iff, recipe.accepts_query linked]
  constructor
  · rintro ⟨⟨-, below⟩, parts⟩
    exact ⟨below, parts⟩
  · rintro ⟨below, parts⟩
    exact ⟨⟨Complex.isElement_of_tag? parts.1, below⟩, parts⟩

/-- A page with a paragraph in a division. -/
def quotedPage : Tree :=
  [.create (.element (.ofName "div")), .create (.element (.ofName "p")), .create (.text "it's (a"),
    .append .root ⟨1⟩, .append ⟨1⟩ ⟨2⟩, .append ⟨2⟩ ⟨3⟩].foldl (fun t w => Edit.apply t w) .empty

/-- A division with a quote in its text and a paragraph with an open parenthesis. -/
def quotedParts : Recipe :=
  let paragraph : TagName := ⟨"p", List.cons_ne_nil _ _, List.all_eq_true.mp rfl⟩
  { tag := ⟨"div", List.cons_ne_nil _ _, List.all_eq_true.mp rfl⟩
    texts := ["it's"]
    clauses := [⟨⟨paragraph, "(a"⟩, []⟩] }

/-- The division is found, whatever its quote and the parenthesis look like. -/
theorem queryAll_source_quotedParts : quotedPage.Grown ∧
    quotedParts.source = "div:contains('it\\'s'):has(p:contains('(a'))" ∧
    ∃ e found, ExtendedSelector.compile quotedParts.source = .ok e ∧
      e.queryAll quotedPage .root = .ok found ∧ ⟨1⟩ ∈ found := by
  have grown : quotedPage.Grown := ⟨_, rfl⟩
  have up : quotedPage.forest.parent? ⟨2⟩ = some ⟨1⟩ ∧ quotedPage.forest.parent? ⟨1⟩ = some .root := by
    decide +kernel
  have tags : quotedPage.tag? ⟨1⟩ = some "div" ∧ quotedPage.tag? ⟨2⟩ = some "p" := by decide +kernel
  have row : quotedPage.Row ["p"] [⟨2⟩] := ⟨by rw [List.map_singleton, tags.2]; rfl, .singleton _⟩
  have inside : quotedPage.forest.Below ⟨1⟩ ⟨2⟩ := .single up.1
  obtain ⟨e, found, compiled, queried, -, -, selected⟩ := quotedParts.queryAll_source grown .root
  refine ⟨grown, by decide +kernel, e, found, compiled, queried, (selected ⟨1⟩).mpr
    ⟨.single up.2, tags.1, .inr ⟨"it's", List.mem_singleton.mpr rfl, ?_⟩, ?_,
      .inr ⟨_, List.mem_singleton.mpr rfl, ?_⟩⟩⟩
  · exact occursIn_eq_true_iff.mp (by decide +kernel)
  · refine List.forall_mem_singleton.mpr ((Clause.matches_bare_iff_row _ grown.linked).mpr
      ⟨Complex.isElement_of_tag? tags.1, [⟨2⟩], row, by simpa using inside⟩)
  · intro k s there
    cases k with
    | zero =>
      cases there
      exact ⟨⟨2⟩, inside, (matches_words grown.linked _ _).mpr ⟨[⟨2⟩], row, rfl⟩,
        occursIn_eq_true_iff.mp (by decide +kernel)⟩
    | succ k => cases there

end Recipe

end NoiseFilter
