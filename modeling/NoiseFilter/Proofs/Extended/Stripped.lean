import NoiseFilter.Extended.Select
import NoiseFilter.Proofs.Extended.Append
import NoiseFilter.Proofs.Extended.Asked
import NoiseFilter.Proofs.Extended.Mend

/-!
# Selectors that are stripped of their tests

A selector is cut into alternatives, and each alternative into texts and holes: a text test, logic that
holds nothing but tests, or the argument of a `:has(…)`. Without its tests the alternative is meant to
have any element where one is missing. If what is meant can be read, the base is read as it
(`ExtendedSelector.select_of_branches`).
-/

namespace NoiseFilter

namespace Extended

open Selector (Item Reads)
open Text (isBlank skipBlanks trimChars)

/-! ## Texts with gaps -/

/-- Texts with something between each and the next. -/
structure Gapped (α : Type) where
  pieces : List (List Char × α)
  tail : List Char

namespace Gapped

variable {α : Type}

def texts (g : Gapped α) : List (List Char) := g.pieces.map Prod.fst ++ [g.tail]

/-- The texts with something written in the gaps. -/
def render (write : α → List Char) (g : Gapped α) : List Char :=
  (g.pieces.flatMap fun p => p.1 ++ write p.2) ++ g.tail

end Gapped

/-! ## Tests and arguments -/

/-- A text test as it is written: what stands behind `:contains(`, up to its parenthesis. -/
structure WrittenTest where
  body : List Char
  test : TextTest
  reads : ∀ r, TestRead (body ++ r) test r

def WrittenTest.chars (t : WrittenTest) : List Char := containsToken ++ t.body

/-- A literal text in single quotes. -/
def WrittenTest.ofText (text : String) : WrittenTest where
  body := '\'' :: escape '\'' text.toList ++ ['\'', ')']
  test := .literal text
  reads r := by
    have read := testRead_literal (q := '\'') rfl text.toList r
    rw [String.ofList_toList] at read
    simpa using read

/-- An argument or an alternative of texts, without what stands between them. -/
def Gapped.bare {α : Type} (g : Gapped α) : List Char := g.render fun _ => []

/-- The places of the tests in an argument: all texts in front of each, and all behind it. -/
def placesOf (kept tail : List Char) : List (List Char × WrittenTest) → List (List Char × List Char)
  | [] => []
  | (s, _) :: rest => (kept ++ s, Gapped.bare ⟨rest, tail⟩) :: placesOf (kept ++ s) tail rest

/-- The argument of a `:has(…)`: texts and tests. Without the tests its parentheses are balanced, and
each test stands behind whole selectors. -/
structure Argument where
  parts : Gapped WrittenTest
  ordinary : ∀ s ∈ parts.texts, Ordinary s ∧ Text.occursIn containsToken s = false
  enclosed : depthAfter '(' ')' 0 parts.bare = some 0
  placed : ∀ place ∈ placesOf [] parts.tail parts.pieces, Placed place.1 place.2

/-- The tests of an argument, each with what is kept in front of it. -/
def clauseOf (kept : List Char) : List (List Char × WrittenTest) → HasClause
  | [] => []
  | (s, t) :: rest =>
    { sub := String.ofList (orAny (trimChars (kept ++ s))), test := t.test } :: clauseOf (kept ++ s) rest

namespace Argument

def chars (a : Argument) : List Char := a.parts.render WrittenTest.chars

def clause (a : Argument) : HasClause := clauseOf [] a.parts.pieces

end Argument

section

variable {s t r u kept out argument : List Char} {tests : HasClause} {depth depth' : Nat}

/-- An argument goes on behind a text in which no test begins. -/
theorem argumentRead_text (unquoted : Unquoted s)
    (closed : ∀ t, t ≠ [] → t <:+ s → afterContains (t ++ r) = none)
    (level : depthAfter '(' ')' depth s = some depth') (more : ArgumentRead depth' r argument u) :
    ArgumentRead depth (s ++ r) (s ++ argument) u := by
  fun_induction depthAfter '(' ')' depth s with
  | case1 =>
    cases level
    exact more
  | case2 depth s ih =>
    exact argumentRead_open (ih (fun c member => unquoted c (by simp [member]))
      (fun t nonempty suffix => closed t nonempty (suffix.trans (List.suffix_cons _ _))) level)
  | case3 => cases level
  | case4 s notOpen depth ih =>
    exact argumentRead_closing (ih (fun c member => unquoted c (by simp [member]))
      (fun t nonempty suffix => closed t nonempty (suffix.trans (List.suffix_cons _ _))) level)
  | case5 depth c s notOpen notClose ih =>
    exact argumentRead_char (unquoted c (by simp)) notOpen notClose
      (closed _ (List.cons_ne_nil _ _) (List.suffix_refl _))
      (ih (fun c member => unquoted c (by simp [member]))
        (fun t nonempty suffix => closed t nonempty (suffix.trans (List.suffix_cons _ _))) level)

theorem unquoted_of_ordinary (ordinary : Ordinary s) : Unquoted s :=
  fun c member => (isOrdinary_iff.mp (ordinary c member)).2.1

theorem Argument.plain (a : Argument) : ∀ s ∈ a.parts.texts,
    Unquoted s ∧ Text.occursIn containsToken s = false :=
  fun s member => (a.ordinary s member).imp_left unquoted_of_ordinary

/-- Where no test begins in a text, none begins in front of what ends a name. -/
theorem noTest_before {d : Char} (absent : Text.occursIn containsToken s = false)
    (stop : Selector.isNameChar d = false) (notOpen : d ≠ '(') :
    ∀ u, u ≠ [] → u <:+ s → afterContains (u ++ d :: t) = none := fun _ nonempty suffix =>
  afterContains_before stop notOpen nonempty (afterContains_of_suffix suffix absent)

end

namespace WrittenTest

variable (t : WrittenTest)

theorem chars_append (r : List Char) : t.chars ++ r = ':' :: ("contains(".toList ++ (t.body ++ r)) := by
  rw [chars, List.append_assoc]
  rfl

theorem walks {r : List Char} {found : Found} (rest : Walks r found) :
    Walks (t.chars ++ r) { found with contains := t.test :: found.contains } := by
  rw [chars, List.append_assoc]
  exact walks_test (t.reads r) rest

end WrittenTest

section

variable {g : Gapped WrittenTest} {pieces : List (List Char × WrittenTest)} {s r tail : List Char}
  {p : List Char × WrittenTest}

@[simp] theorem Gapped.render_nil {α : Type} (write : α → List Char) :
    Gapped.render write ⟨[], tail⟩ = tail := rfl

@[simp] theorem Gapped.render_cons {α : Type} (write : α → List Char) (p : List Char × α)
    (pieces : List (List Char × α)) : Gapped.render write ⟨p :: pieces, tail⟩ =
      p.1 ++ (write p.2 ++ Gapped.render write ⟨pieces, tail⟩) := by
  simp [Gapped.render]

@[simp] theorem Gapped.bare_nil {α : Type} : Gapped.bare (α := α) ⟨[], tail⟩ = tail := rfl

@[simp] theorem Gapped.bare_cons {α : Type} (p : List Char × α) (pieces : List (List Char × α)) :
    Gapped.bare ⟨p :: pieces, tail⟩ = p.1 ++ Gapped.bare ⟨pieces, tail⟩ := by
  simp [Gapped.bare]

@[simp] theorem Gapped.forall_mem_texts_cons {α : Type} {P : List Char → Prop} {p : List Char × α}
    {pieces : List (List Char × α)} : (∀ s ∈ Gapped.texts ⟨p :: pieces, tail⟩, P s) ↔
      P p.1 ∧ ∀ s ∈ Gapped.texts ⟨pieces, tail⟩, P s := by
  simp [Gapped.texts]

/-- Of an argument its texts are kept, and the tests are found. -/
theorem strips_render (kept : List Char) (plain : ∀ s ∈ Gapped.texts ⟨pieces, tail⟩,
      Unquoted s ∧ Text.occursIn containsToken s = false) :
    Strips kept (Gapped.render WrittenTest.chars ⟨pieces, tail⟩)
      (kept ++ Gapped.bare ⟨pieces, tail⟩) (clauseOf kept pieces) := by
  induction pieces generalizing kept with
  | nil =>
    obtain ⟨unquoted, absent⟩ := plain tail (by simp [Gapped.texts])
    have whole : Strips kept (tail ++ []) (kept ++ tail) [] := by
      refine strips_text unquoted (fun t _ suffix => ?_) strips_nil
      rw [List.append_nil]
      exact afterContains_of_suffix suffix absent
    simpa [clauseOf] using whole
  | cons p pieces ih =>
    rw [Gapped.forall_mem_texts_cons] at plain
    obtain ⟨⟨unquoted, absent⟩, plain⟩ := plain
    have found := strips_test (p.2.reads _) (ih (kept ++ p.1) plain)
    rw [← List.append_assoc, ← WrittenTest.chars, WrittenTest.chars_append] at found
    have whole := strips_text unquoted (noTest_before absent rfl (by decide)) found
    rw [← WrittenTest.chars_append] at whole
    simpa [clauseOf] using whole

theorem argumentRead_render {depth : Nat} (plain : ∀ s ∈ Gapped.texts ⟨pieces, tail⟩,
      Unquoted s ∧ Text.occursIn containsToken s = false)
    (enclosed : depthAfter '(' ')' depth (Gapped.bare ⟨pieces, tail⟩) = some 0) :
    ArgumentRead depth (Gapped.render WrittenTest.chars ⟨pieces, tail⟩ ++ ')' :: r)
      (Gapped.render WrittenTest.chars ⟨pieces, tail⟩) r := by
  induction pieces generalizing depth with
  | nil =>
    obtain ⟨unquoted, absent⟩ := plain tail (by simp [Gapped.texts])
    simpa using argumentRead_text unquoted
      (noTest_before absent rfl (by decide)) enclosed argumentRead_close
  | cons p pieces ih =>
    rw [Gapped.forall_mem_texts_cons] at plain
    obtain ⟨⟨unquoted, absent⟩, plain⟩ := plain
    rw [Gapped.bare_cons, depthAfter_append, Option.bind_eq_some_iff] at enclosed
    obtain ⟨depth', level, enclosed⟩ := enclosed
    have test := argumentRead_test (p.2.reads _) (ih plain enclosed)
    rw [← List.append_assoc, passed_append, ← WrittenTest.chars, WrittenTest.chars_append] at test
    have whole := argumentRead_text unquoted (noTest_before absent rfl (by decide))
      level test
    rw [← WrittenTest.chars_append] at whole
    simpa using whole

end

/-! ## Holes -/

/-- The word of a `:has(…)`, in any case of letters. -/
structure HasWord where
  chars : List Char
  spells : chars.map Char.toLower = "has".toList

/-- An argument of which nothing is left but blanks: tests, and logic of the same kind. -/
inductive Hollow
  | nil
  | blank (c : Char) (isBlank : isBlank c = true) (rest : Hollow)
  | test (t : WrittenTest) (rest : Hollow)
  | logic (w : LogicWord) (inside rest : Hollow)

namespace Hollow

def chars : Hollow → List Char
  | nil => []
  | blank c _ rest => c :: rest.chars
  | test t rest => t.chars ++ rest.chars
  | logic w inside rest => w.call inside.chars ++ rest.chars

/-- What is left without the tests. -/
def left : Hollow → List Char
  | nil => []
  | blank c _ rest => c :: rest.left
  | test _ rest => rest.left
  | logic w inside rest => w.call inside.left ++ rest.left

/-- What is left without the tests and the logic. -/
def blanks : Hollow → List Char
  | nil => []
  | blank c _ rest => c :: rest.blanks
  | test _ rest => rest.blanks
  | logic _ _ rest => rest.blanks

def tests : Hollow → List TextTest
  | nil => []
  | blank _ _ rest => rest.tests
  | test t rest => t.test :: rest.tests
  | logic _ inside rest => inside.tests ++ rest.tests

theorem blank_of_mem_blanks (h : Hollow) : ∀ c ∈ h.blanks, Text.isBlank c = true := by
  induction h with
  | nil => exact List.forall_mem_nil _
  | blank c isBlank _ ih => exact List.forall_mem_cons.mpr ⟨isBlank, ih⟩
  | test _ _ ih => exact ih
  | logic _ _ _ _ ih => exact ih

/-- All its logic can be taken out, from the inside. -/
theorem drops (h : Hollow) : Relation.ReflTransGen Drops h.left h.blanks := by
  induction h with
  | nil => exact .refl
  | blank c _ rest ih => exact ih.lift (c :: ·) fun s t drops => by simpa using drops.around [c] []
  | test _ _ ih => exact ih
  | logic w inside rest ihInside ih =>
    have inner : Relation.ReflTransGen Drops (w.call inside.left ++ rest.left)
        (w.call inside.blanks ++ rest.left) := by
      refine ihInside.lift (fun s => w.call s ++ rest.left) fun s t drops => ?_
      simpa [LogicWord.call] using drops.around (':' :: w.chars) (')' :: rest.left)
    exact (inner.tail ⟨[], w.call inside.blanks, rest.left,
      ⟨w, inside.blanks, inside.blank_of_mem_blanks, rfl⟩, rfl, rfl⟩).trans ih

end Hollow

/-- What interrupts the texts of an alternative. -/
inductive Hole
  | test (t : WrittenTest)
  | logic (w : LogicWord) (inside : Hollow)
  | has (w : HasWord) (argument : Argument)

namespace Hole

def chars : Hole → List Char
  | test t => t.chars
  | logic w inside => w.call inside.chars
  | has w a => ':' :: w.chars ++ '(' :: a.chars ++ [')']

/-- What a walk finds in a hole. An argument with tests in it is written anew. -/
def found : Hole → Found
  | test t => { contains := [t.test] }
  | logic w inside => { base := w.call inside.left, contains := inside.tests }
  | has w a =>
    if a.parts.pieces.isEmpty then { base := ':' :: w.chars ++ '(' :: a.chars ++ [')'] }
    else { base := hasToken ++ orAny (trimChars a.parts.bare) ++ [')'], has := [a.clause] }

/-- What the hole is meant to be without its tests. -/
def meant : Hole → List Char
  | test _ => []
  | logic _ _ => []
  | has w a => (has w a).found.base

end Hole

/-- Whether nothing opens in a text. -/
def Unopened (s : List Char) : Prop := ∀ t ∈ s.tails, afterContains t = none ∧ afterHas t = none

instance (s : List Char) : Decidable (Unopened s) := inferInstanceAs (Decidable (∀ _ ∈ _, _))

/-- One of the selectors between commas: texts and holes. Without the tests it holds no comma outside
parentheses. -/
structure Branch where
  parts : Gapped Hole
  ordinary : ∀ s ∈ parts.texts, Ordinary s ∧ Unopened s
  level : IsAlternative (parts.render Hole.meant)

/-- What is found in two texts, one behind the other. -/
def Found.append (f g : Found) : Found :=
  { base := f.base ++ g.base, has := f.has ++ g.has, contains := f.contains ++ g.contains }

instance : Append Found := ⟨Found.append⟩

namespace Branch

def chars (b : Branch) : List Char := b.parts.render Hole.chars

/-- What a walk finds in texts with holes. -/
def foundIn (pieces : List (List Char × Hole)) (tail : List Char) : Found :=
  pieces.foldr (fun p g => { base := p.1 } ++ (p.2.found ++ g)) { base := tail }

def found (b : Branch) : Found := foundIn b.parts.pieces b.parts.tail

/-- The branch without its tests, and without any element where one is missing. -/
def meant (b : Branch) : List Char := b.parts.render Hole.meant

end Branch

section

variable {s r : List Char} {f g found : Found}

theorem Found.append_eq (f g : Found) : f ++ g =
    { base := f.base ++ g.base, has := f.has ++ g.has, contains := f.contains ++ g.contains } := rfl

theorem Found.keep_eq (s : List Char) (f : Found) :
    f.keep s = { base := s ++ f.base, has := f.has, contains := f.contains } := rfl

theorem Hollow.walks (h : Hollow) (rest : Walks r found) :
    Walks (h.chars ++ r) ({ base := h.left, contains := h.tests } ++ found) := by
  induction h generalizing r found with
  | nil => exact rest
  | blank c blank more ih =>
    have walks := walks_char (isQuote_eq_false (isMark_of_isBlank blank))
      (afterHas_of_ne (ne_of_isBlank blank rfl) _) (afterContains_of_ne (ne_of_isBlank blank rfl) _)
      (ih rest)
    simpa [Hollow.chars, Hollow.left, Hollow.tests, Found.append_eq, Found.keep_eq] using walks
  | test t more ih =>
    have walks := t.walks (ih rest)
    rwa [← List.append_assoc] at walks
  | logic w inside more ihInside ih =>
    have close := walks_char (c := ')') rfl (afterHas_of_ne (by decide) _)
      (afterContains_of_ne (by decide) _) (ih rest)
    have within := ihInside close
    have walks := walks_text (s := ':' :: w.chars) w.unquoted (fun t nonempty suffix =>
      w.noOpenings nonempty suffix) within
    simpa [Hollow.chars, Hollow.left, Hollow.tests, LogicWord.call, Found.append_eq, Found.keep_eq]
      using walks

theorem HasWord.opened (w : HasWord) (t : List Char) :
    afterHas (':' :: (w.chars ++ '(' :: t)) = some t :=
  afterHas_colon_iff.mpr ⟨w.chars, rfl, w.spells⟩

theorem Hole.walks (h : Hole) (rest : Walks r found) : Walks (h.chars ++ r) (h.found ++ found) := by
  cases h with
  | test t => exact t.walks rest
  | logic w inside =>
    have close := walks_char (c := ')') rfl (afterHas_of_ne (by decide) _)
      (afterContains_of_ne (by decide) _) rest
    have walks := walks_text (s := ':' :: w.chars) w.unquoted (fun t nonempty suffix =>
      w.noOpenings nonempty suffix) (inside.walks close)
    simpa [Hole.chars, Hole.found, LogicWord.call, Found.append_eq, Found.keep_eq] using walks
  | has w a =>
    have read : ArgumentRead 0 (a.chars ++ ')' :: r) a.chars r :=
      argumentRead_render a.plain a.enclosed
    have whole : ':' :: (w.chars ++ '(' :: (a.chars ++ ')' :: r)) =
        ':' :: w.chars ++ '(' :: a.chars ++ [')'] ++ r := by simp
    rw [Hole.chars, ← whole, Hole.found]
    cases nothing : a.parts.pieces.isEmpty with
    | true =>
      have absent : Text.occursIn containsToken a.chars = false := by
        have bare : a.chars = a.parts.tail := by
          rw [Argument.chars, Gapped.render, List.isEmpty_iff.mp nothing]
          rfl
        rw [bare]
        exact (a.ordinary _ (by simp [Gapped.texts])).2
      have walks := walks_has (w.opened _) read absent rest
      rw [whole, passed_append, ← whole] at walks
      simpa [Found.append_eq, Found.keep_eq] using walks
    | false =>
      have mentions : Text.occursIn containsToken a.chars = true := by
        obtain ⟨p, pieces, there⟩ := List.exists_cons_of_ne_nil (by simpa using nothing)
        rw [occursIn_eq_true_iff, Argument.chars, Gapped.render, there]
        exact ⟨p.1, p.2.body ++ (pieces.flatMap (fun p => p.1 ++ p.2.chars) ++ a.parts.tail),
          by simp [WrittenTest.chars]⟩
      have walks := walks_has_tests (w.opened _) read mentions (strips_render [] a.plain) rest
      simpa [Found.append_eq, Found.keep_eq, Gapped.bare, Argument.clause] using walks

/-- Every hole begins with a colon. -/
theorem Hole.exists_cons (h : Hole) : ∃ s, h.chars = ':' :: s := by
  cases h with
  | test t => exact ⟨_, rfl⟩
  | logic => exact ⟨_, rfl⟩
  | has => exact ⟨_, rfl⟩

/-- Where nothing opens in a text, nothing opens in front of what ends a name. -/
theorem unopened_before {d : Char} (unopened : Unopened s) (stop : Selector.isNameChar d = false)
    (notOpen : d ≠ '(') : ∀ u, u ≠ [] → u <:+ s →
      afterContains (u ++ d :: r) = none ∧ afterHas (u ++ d :: r) = none := by
  intro u nonempty suffix
  have here := unopened u ((List.mem_tails _ _).mpr suffix)
  exact ⟨afterContains_before stop notOpen nonempty here.1, afterHas_before stop notOpen nonempty here.2⟩

/-- A walk keeps a text in which nothing opens, up to its end or to what ends a name. -/
theorem walks_unopened (unquoted : Unquoted s) (unopened : Unopened s)
    (stop : ∀ c ∈ r.head?, Selector.isNameChar c = false ∧ c ≠ '(') (rest : Walks r found) :
    Walks (s ++ r) (found.keep s) := by
  refine walks_text unquoted (fun u nonempty suffix => ?_) rest
  cases r with
  | nil =>
    rw [List.append_nil]
    exact unopened u ((List.mem_tails _ _).mpr suffix)
  | cons c r =>
    obtain ⟨stop, notOpen⟩ := stop c rfl
    exact unopened_before unopened stop notOpen u nonempty suffix

theorem walks_foundIn {pieces : List (List Char × Hole)} {tail : List Char}
    (ordinary : ∀ s ∈ Gapped.texts ⟨pieces, tail⟩, Ordinary s ∧ Unopened s)
    (stop : r = [] ∨ r.head? = some ',') (rest : Walks r found) :
    Walks (Gapped.render Hole.chars ⟨pieces, tail⟩ ++ r) (Branch.foundIn pieces tail ++ found) := by
  induction pieces with
  | nil =>
    obtain ⟨plain, unopened⟩ := ordinary tail (by simp [Gapped.texts])
    have ends : ∀ c ∈ r.head?, Selector.isNameChar c = false ∧ c ≠ '(' := by
      rcases stop with rfl | comma
      · simp
      · rw [comma]
        rintro c first
        obtain rfl := Option.some.inj first
        exact ⟨rfl, by decide⟩
    have walks := walks_unopened (unquoted_of_ordinary plain) unopened ends rest
    simpa [Branch.foundIn, Found.append_eq, Found.keep_eq] using walks
  | cons p pieces ih =>
    rw [Gapped.forall_mem_texts_cons] at ordinary
    obtain ⟨⟨plain, unopened⟩, ordinary⟩ := ordinary
    have hole := p.2.walks (ih ordinary)
    obtain ⟨u, there⟩ := p.2.exists_cons
    rw [there, List.cons_append] at hole
    have walks := walks_unopened (unquoted_of_ordinary plain) unopened (by simp; decide) hole
    rw [← List.cons_append, ← there] at walks
    simpa [Branch.foundIn, Found.append_eq, Found.keep_eq] using walks

/-- A selector written in branches. -/
def joined (branches : List Branch) : List Char := [','].intercalate (branches.map Branch.chars)

/-- A walk finds in a selector what it finds in its branches. -/
theorem walks_joined {branches : List Branch} (nonempty : branches ≠ []) :
    Walks (joined branches)
      { base := [','].intercalate (branches.map fun b => b.found.base)
        has := branches.flatMap fun b => b.found.has
        contains := branches.flatMap fun b => b.found.contains } := by
  induction branches with
  | nil => exact absurd rfl nonempty
  | cons b branches ih =>
    cases branches with
    | nil =>
      have walks := walks_foundIn b.ordinary (.inl rfl) walks_nil
      simpa [joined, Branch.chars, Branch.found, Found.append_eq] using walks
    | cons b' branches =>
      have comma := walks_char (c := ',') rfl (afterHas_of_ne (by decide) _)
        (afterContains_of_ne (by decide) _) (ih (List.cons_ne_nil _ _))
      have walks := walks_foundIn b.ordinary (.inr rfl) comma
      rw [joined, List.map_cons, List.intercalate_cons_of_ne_nil (by simp), List.append_assoc]
      simpa [joined, Branch.chars, Branch.found, Found.append_eq, Found.keep_eq,
        List.intercalate_cons_of_ne_nil] using walks

end

/-! ## What is left and what is meant -/

section

variable {s : List Char}

theorem LogicWord.drops (w : LogicWord) (inside : Hollow) :
    Relation.ReflTransGen Drops (w.call inside.left) [] := by
  have inner : Relation.ReflTransGen Drops (w.call inside.left) (w.call inside.blanks) := by
    refine inside.drops.lift w.call fun s t drops => ?_
    simpa [Function.onFun, LogicWord.call] using drops.around (':' :: w.chars) [')']
  exact inner.tail ⟨[], w.call inside.blanks, [], ⟨w, inside.blanks, inside.blank_of_mem_blanks, rfl⟩,
    by simp, rfl⟩

/-- Of a hole that is left which is meant, and logic that can be taken out. -/
theorem Hole.drops (h : Hole) : Relation.ReflTransGen Drops h.found.base h.meant := by
  cases h with
  | test t => exact .refl
  | logic w inside => exact w.drops inside
  | has w a => exact .refl

theorem drops_foundIn (pieces : List (List Char × Hole)) (tail : List Char) :
    Relation.ReflTransGen Drops (Branch.foundIn pieces tail).base
      (Gapped.render Hole.meant ⟨pieces, tail⟩) := by
  induction pieces with
  | nil => exact .refl
  | cons p pieces ih =>
    have whole : (Branch.foundIn (p :: pieces) tail).base =
        p.1 ++ (p.2.found.base ++ (Branch.foundIn pieces tail).base) := rfl
    rw [whole, Gapped.render_cons]
    refine (p.2.drops.lift (fun s => p.1 ++ (s ++ _)) fun s t drops => ?_).trans
      (ih.lift (fun s => p.1 ++ (p.2.meant ++ s)) fun s t drops => ?_)
    · simpa using drops.around p.1 (Branch.foundIn pieces tail).base
    · simpa using drops.around (p.1 ++ p.2.meant) []

theorem ordinary_trim (ordinary : Ordinary s) : Ordinary (orAny (trimChars s)) := by
  unfold orAny
  split
  · exact List.all_eq_true.mp rfl
  · exact fun c member => ordinary c (Text.mem_of_mem_trimChars member)

theorem ordinary_render {α : Type} {g : Gapped α} {write : α → List Char}
    (texts : ∀ s ∈ g.texts, Ordinary s)
    (written : ∀ p ∈ g.pieces, Ordinary (write p.2)) :
    Ordinary (g.render write) := by
  intro c member
  rw [Gapped.render, List.mem_append, List.mem_flatMap] at member
  rcases member with ⟨p, there, member⟩ | member
  · rcases List.mem_append.mp member with member | member
    · exact texts p.1 (List.mem_append_left _ (List.mem_map_of_mem there)) c member
    · exact written p there c member
  · exact texts _ (List.mem_append_right _ (List.mem_singleton.mpr rfl)) c member

theorem Hole.ordinary (h : Hole) : Ordinary h.meant := by
  have call (word argument : List Char) (word' : Ordinary word) (argument' : Ordinary argument) :
      Ordinary (':' :: word ++ '(' :: argument ++ [')']) := by
    simp only [Ordinary, List.cons_append, List.forall_mem_cons, List.forall_mem_append, List.not_mem_nil,
      false_implies, implies_true, and_true]
    exact ⟨rfl, ⟨word', rfl, argument'⟩, rfl⟩
  cases h with
  | test => exact List.forall_mem_nil _
  | logic => exact List.forall_mem_nil _
  | has w a =>
    have bare : Ordinary a.parts.bare :=
      ordinary_render (fun s member => (a.ordinary s member).1) fun _ _ => List.forall_mem_nil _
    rw [Hole.meant, Hole.found]
    split
    · next nothing =>
      have same : a.chars = a.parts.bare := by
        simp [Argument.chars, Gapped.bare, Gapped.render, List.isEmpty_iff.mp nothing]
      rw [same]
      exact call _ _ (fun c member => isOrdinary_of_isAlpha (isAlpha_of_has w.spells c member)) bare
    · exact call "has".toList _ (List.all_eq_true.mp (by decide)) (ordinary_trim bare)

theorem Branch.ordinary_meant (b : Branch) : Ordinary b.meant :=
  ordinary_render (fun s member => (b.ordinary s member).1) fun p _ => p.2.ordinary

end

section

theorem exists_mapM_eq_ok {α β ε : Type} {f : α → Except ε β} {l : List α}
    (each : ∀ a ∈ l, ∃ b, f a = .ok b) : ∃ bs, l.mapM f = .ok bs := by
  induction l with
  | nil => exact ⟨[], rfl⟩
  | cons a l ih =>
    rw [List.forall_mem_cons] at each
    obtain ⟨b, here⟩ := each.1
    obtain ⟨bs, more⟩ := ih each.2
    exact ⟨b :: bs, by rw [List.mapM_cons, here, more]; rfl⟩

end

/-! ## Tests that can be asked -/

section

variable {s : List Char} {item : Item}

/-- A test of an argument stands in one of its places. -/
theorem exists_place {kept : List Char} (tail : List Char) {pieces : List (List Char × WrittenTest)}
    {h : HasTest} (member : h ∈ clauseOf kept pieces) : ∃ place ∈ placesOf kept tail pieces,
      h.sub.toList = orAny (trimChars place.1) ∧
        place.1 ++ place.2 = kept ++ Gapped.bare ⟨pieces, tail⟩ := by
  induction pieces generalizing kept with
  | nil => cases member
  | cons p pieces ih =>
    rcases List.mem_cons.mp member with rfl | member
    · exact ⟨_, List.mem_cons_self, String.toList_ofList, by simp⟩
    · obtain ⟨place, there, sub, whole⟩ := ih member
      exact ⟨place, List.mem_cons_of_mem _ there, sub, by simp [whole]⟩

/-- Clauses come from arguments with tests, which stand in what is meant. -/
theorem exists_argument {pieces : List (List Char × Hole)} {tail : List Char} {clause : HasClause}
    (member : clause ∈ (Branch.foundIn pieces tail).has) : ∃ a : Argument, clause = a.clause ∧
      hasToken ++ orAny (trimChars a.parts.bare) ++ [')'] <:+: Gapped.render Hole.meant ⟨pieces, tail⟩ := by
  induction pieces with
  | nil => cases member
  | cons p pieces ih =>
    have split : (Branch.foundIn (p :: pieces) tail).has =
        p.2.found.has ++ (Branch.foundIn pieces tail).has := rfl
    rw [split, List.mem_append] at member
    rw [Gapped.render_cons]
    rcases member with here | later
    · cases hole : p.2 with
      | test t => rw [hole] at here; cases here
      | logic w inside => rw [hole] at here; cases here
      | has w a =>
        rw [hole, Hole.found] at here
        rw [Hole.meant, Hole.found]
        split at here
        · cases here
        · next filled =>
          rw [if_neg filled]
          exact ⟨a, List.mem_singleton.mp here, p.1, _, List.append_assoc ..⟩
    · obtain ⟨a, same, inside⟩ := ih later
      exact ⟨a, same, inside.trans ⟨p.1 ++ p.2.meant, [], by simp⟩⟩

/-- What stands in a text, blanks aside, stands in it when it is filled. -/
theorem infix_fill {t : List Char} (inside : s <:+: t) {c : Char} (member : c ∈ s)
    (filled : isBlank c = false) : s <:+: fill t := by
  have nonempty : trimChars t ≠ [] := by
    intro nothing
    obtain ⟨lead, trail, halves, leads, trails, -⟩ := Text.exists_trimChars t
    have there := inside.subset member
    rw [halves, nothing, List.append_nil, List.mem_append] at there
    rw [there.elim (leads c) (trails c)] at filled
    cases filled
  rw [fill, if_neg nonempty]
  exact inside.trans ⟨opening (trimChars t), closing (trimChars t), rfl⟩

/-- Where what is meant can be read, every test in an argument can be asked. -/
theorem Branch.asks {b : Branch} (reads : Reads item s []) (ordinary : Ordinary s)
    (inside : fill b.meant <:+: s) : ∀ clause ∈ b.found.has, ∀ h ∈ clause, Asks h.sub.toList := by
  intro clause member h there
  obtain ⟨a, rfl, argument⟩ := exists_argument member
  obtain ⟨place, member, sub, whole⟩ := exists_place a.parts.tail there
  have filled := infix_fill argument (c := ':') (by simp [hasToken]) rfl
  rw [List.nil_append] at whole
  rw [← whole] at filled
  exact sub ▸ asks_of_argument reads ordinary (a.placed place member) (filled.trans inside)

end

end Extended

namespace ExtendedSelector

open Extended

/-- Where the base and all sub-selectors can be read, selecting answers. -/
theorem exists_select_eq_ok {e : ExtendedSelector} {x : Selector} (base : Selector.ofString e.base = .ok x)
    (asked : ∀ clause ∈ e.has, ∀ h ∈ clause, ∃ y, h.selector = .ok y) (t : Tree)
    (candidates : List NodeId) : ∃ found, e.select t candidates = .ok found := by
  have structural : e.structural = .ok x := by
    rw [ExtendedSelector.structural, readNamed, base]
    rfl
  obtain ⟨clauses, read⟩ : ∃ clauses, (e.has.mapM fun clause => clause.mapM Probe.ofHasTest) = .ok clauses :=
    exists_mapM_eq_ok fun clause member => exists_mapM_eq_ok fun h inside => by
      obtain ⟨y, selector⟩ := asked clause member h inside
      exact ⟨⟨h.reach, y, h.test⟩, by rw [Probe.ofHasTest, selector]; rfl⟩
  refine ⟨candidates.filter (Query.accepts ⟨x, e.contains, clauses⟩ t), ?_⟩
  rw [ExtendedSelector.select, ExtendedSelector.read, structural, read]
  rfl

/-- The selector that is meant by branches. -/
def meantBy (branches : List Branch) : String :=
  String.ofList ([','].intercalate (branches.map fun b => fill b.meant))

theorem select_of_branches {branches : List Branch} (nonempty : branches ≠ [])
    (mentions : Text.occursIn containsToken (joined branches) = true)
    {x : Selector} (meant : Selector.ofString (meantBy branches) = .ok x) :
    ∃ e, compile (String.ofList (joined branches)) = .ok e ∧ Selector.ofString e.base = .ok x ∧
      (∀ clause ∈ e.has, ∀ h ∈ clause, ∃ y, h.selector = .ok y) ∧
      ∀ t candidates, ∃ found, e.select t candidates = .ok found := by
  have reads := Selector.ofChars_eq_ok_iff.mp meant
  rw [meantBy, String.toList_ofList] at reads
  have ordinary : Ordinary ([','].intercalate (branches.map fun b => fill b.meant)) :=
    forall_mem_intercalate rfl (List.forall_mem_map.mpr fun b _ => forall_mem_fill rfl rfl b.ordinary_meant)
  have names : Avoids isStructural ([','].intercalate (branches.map fun b => fill b.meant)) :=
    .of_forall fun c member => isOrdinary_iff.mp (ordinary c member)
  have tidied : tidy ([','].intercalate (branches.map fun b => b.found.base)) =
      tidy ([','].intercalate (branches.map fun b => fill b.meant)) := by
    have same := @tidy_eq (branches.map fun b => (b.found.base, b.meant)) x.alternatives
      (by simpa using nonempty) (List.forall_mem_map.mpr fun b _ =>
        ⟨drops_foundIn _ _, unquoted_of_ordinary b.ordinary_meant, b.level⟩)
      (by simpa [List.map_map, Function.comp_def] using reads)
      (by simpa [List.map_map, Function.comp_def] using names.mono structural_of_isMark)
    simpa [List.map_map, Function.comp_def] using same
  have filled := filled_of_reads reads (names.mono structural_of_isMark) (unquoted_of_ordinary ordinary)
  have compiles := compile_of_walks (s := String.ofList (joined branches))
    (by rw [String.toList_ofList]; exact occursIn_eq_true_iff.mp mentions)
    (by rw [String.toList_ofList]; exact walks_joined nonempty)
  have base : Selector.ofString (String.ofList (tidy ([','].intercalate
      (branches.map fun b => b.found.base)))) = .ok x := by
    rw [tidied, Selector.ofString, String.toList_ofList, Selector.ofChars_eq_ok_iff]
    exact reads_tidy reads names filled.noEmptyLogic
  have asked : ∀ clause ∈ branches.flatMap (fun b => b.found.has), ∀ h ∈ clause,
      ∃ y, h.selector = .ok y := by
    intro clause member h inside
    obtain ⟨b, there, member⟩ := List.mem_flatMap.mp member
    have part : fill b.meant <:+: [','].intercalate (branches.map fun b => fill b.meant) :=
      infix_intercalate (List.mem_map_of_mem there)
    exact selector_of_asks (b.asks reads ordinary part clause member h inside)
  exact ⟨_, compiles, base, asked, exists_select_eq_ok base asked⟩

/-- One branch ends in a test behind a combinator, the other has tests in logic and in an argument. -/
def listBranches : List Branch :=
  [{ parts := ⟨[("ul > ".toList, .test (.ofText "x"))], []⟩
     ordinary := by decide +kernel
     level := by decide +kernel },
   { parts := ⟨[("li".toList, .logic (.small "not(".toList (by decide)) (.test (.ofText "y") .nil)),
       ([], .has ⟨"has".toList, by decide⟩
         { parts := ⟨[("b".toList, .ofText "z")], []⟩
           ordinary := by decide +kernel
           enclosed := by decide +kernel
           placed := by decide +kernel })], []⟩
     ordinary := by decide +kernel
     level := by decide +kernel }]

/-- The test behind the combinator leaves any element, and the logic goes. -/
theorem select_of_branches_list : meantBy listBranches = "ul >  *,li:has(b)" ∧
    ∃ e x, compile "ul > :contains('x'),li:not(:contains('y')):has(b:contains('z'))" = .ok e ∧
      Selector.ofString (meantBy listBranches) = .ok x ∧ Selector.ofString e.base = .ok x ∧
      (∀ clause ∈ e.has, ∀ h ∈ clause, ∃ y, h.selector = .ok y) ∧
      ∀ t candidates, ∃ found, e.select t candidates = .ok found := by
  have accepted : (Selector.ofString (meantBy listBranches)).toOption.isSome = true := by
    decide +kernel
  have same : String.ofList (joined listBranches) =
      "ul > :contains('x'),li:not(:contains('y')):has(b:contains('z'))" := by decide +kernel
  cases meant : Selector.ofString (meantBy listBranches) with
  | error e =>
    rw [meant] at accepted
    cases accepted
  | ok x =>
    have nonempty : listBranches ≠ [] := List.cons_ne_nil _ _
    obtain ⟨e, compiles, rest⟩ := select_of_branches nonempty (by decide +kernel) meant
    exact ⟨by decide +kernel, e, x, same ▸ compiles, rfl, rest⟩

/-- Between two combinators nothing is put where the test stood. -/
theorem not_select_of_branches : ¬ ∀ (g : Gapped (WrittenTest × Bool)) (e : ExtendedSelector)
    (x : Selector), (∀ s ∈ g.texts, Ordinary s) →
    compile (String.ofList (g.render fun t => t.1.chars)) = .ok e →
    Selector.ofString (String.ofList (g.render fun t => if t.2 then ['*'] else [])) = .ok x →
    ∀ t candidates, ∃ found, e.select t candidates = .ok found := by
  intro all
  let source : Gapped (WrittenTest × Bool) := ⟨[("a > ".toList, .ofText "x", true)], " > b".toList⟩
  have accepted : (Selector.ofString (String.ofList
      (source.render fun t => if t.2 then ['*'] else []))).toOption.isSome = true := by decide +kernel
  have base : (compile (String.ofList (source.render fun t => t.1.chars))).toOption.map
      ExtendedSelector.base = some "a > > b" := by decide +kernel
  have refused : (Selector.ofString "a > > b").toOption.isNone = true := by decide +kernel
  cases meant : Selector.ofString (String.ofList (source.render fun t => if t.2 then ['*'] else [])) with
  | error cause =>
    rw [meant] at accepted
    cases accepted
  | ok x =>
    cases compiles : compile (String.ofList (source.render fun t => t.1.chars)) with
    | error cause =>
      rw [compiles] at base
      cases base
    | ok e =>
      obtain ⟨found, selected⟩ := all source e x (by decide +kernel) compiles meant .empty []
      rw [compiles] at base
      obtain base : e.base = "a > > b" := Option.some.inj base
      cases read : Selector.ofString "a > > b" with
      | ok y =>
        rw [read] at refused
        cases refused
      | error cause =>
        rw [select, ExtendedSelector.read, structural, readNamed, base, read] at selected
        cases selected

end ExtendedSelector

end NoiseFilter
