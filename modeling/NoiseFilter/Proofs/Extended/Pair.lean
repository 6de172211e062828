import NoiseFilter.Proofs.Extended.Stripped
import NoiseFilter.Proofs.Selector.Scoped
import NoiseFilter.Proofs.Selector.Trailing

/-!
# What a pair asks

A test in the argument of a `:has(…)` is kept as a pair with the text in front of it. The text is read
twice: as the argument of `:has(…)` by itself, where it is a relative selector, and as what the pair
asks. Behind a combinator both find the same elements. Otherwise a pair asks for an element inside the
candidate at which the selector ends, and `:has(…)` asks that the selector begins inside the candidate
as well (`ExtendedSelector.compared_pair`).
-/

namespace NoiseFilter

namespace Extended

open Selector (Item Reads combinatorOf readLead runsOn)
open Text (isBlank skipBlanks trimChars)

/-- A text without commas, quotes, backslashes and parentheses. -/
def Bare (s : List Char) : Prop := ∀ c ∈ s, c ∉ [',', '"', '\'', '\\', '(', ')']

instance (s : List Char) : Decidable (Bare s) :=
  decidable_of_iff (s.all fun c => decide (c ∉ [',', '"', '\'', '\\', '(', ')'])) (by simp [Bare])

/-- The pair of a test with what has been kept in front of it. -/
def pairOf (kept : List Char) (test : TextTest) : HasTest :=
  { sub := String.ofList (orAny (trimChars kept)), test }

section

variable {s t r u z : List Char} {c : Char} {base : Selector}

theorem Bare.not_mem (bare : Bare s) (mark : c ∈ [',', '"', '\'', '\\', '(', ')']) : c ∉ s :=
  fun member => bare c member mark

theorem Bare.unquoted (bare : Bare s) : Unquoted s := by
  intro c member
  have other : c ≠ '"' ∧ c ≠ '\'' := by
    constructor <;> rintro rfl <;> exact bare _ member (by decide)
  simpa [isQuote] using other

theorem Bare.occursIn (bare : Bare s) : Text.occursIn containsToken s = false :=
  Bool.eq_false_iff.mpr fun mentions =>
    bare.not_mem (c := '(') (by decide) ((occursIn_eq_true_iff.mp mentions).subset (by decide))

/-! ## The two readings -/

/-- A text that begins with a colon begins with a pseudo-class. -/
theorem exists_pseudo {cs : List Complex} (reads : Reads (.list cs) (':' :: s) r) :
    ∃ p t, Reads (.pseudo p) s t := by
  have first {c : Complex} {t : List Char} (first : Reads (.complex c) (':' :: s) t) :
      ∃ p t, Reads (.pseudo p) s t := by
    cases first with
    | complex compound _ =>
      rw [skipBlanks_of_head? (by simp; rfl)] at compound
      generalize whole : ':' :: s = s' at compound
      cases compound with
      | compoundAny => cases whole
      | compoundType start =>
        cases whole
        cases start
      | compoundSimple simple _ =>
        cases simple with
        | simplePseudo read =>
          cases whole
          exact ⟨_, _, read⟩
        | _ => cases whole
  cases reads with
  | listOne start => exact first start
  | listMore start => exact first start

/-- A text in `:has(…)` is one relative selector. -/
theorem reads_has {rs : List Relative} (argument : Reads (.relatives rs) s u) (close : skipBlanks u = [')']) :
    Reads (.list [.compound [.pseudo (.has rs)]]) (hasToken ++ s) [] := by
  obtain ⟨scan, small⟩ := scanName_has s
  have start : skipBlanks (hasToken ++ s) = ':' :: ("has".toList ++ '(' :: s) :=
    (skipBlanks_of_head? (by simp [hasToken, isBlank])).trans (by simp [hasToken])
  have pseudo : Reads (.compound [.pseudo (.has rs)]) (skipBlanks (hasToken ++ s)) [] :=
    start ▸ .compoundSimple (.simplePseudo (.pseudoHas scan small argument close)) (.simplesEnd rfl)
  exact .last (.complex pseudo .joins_nil)

/-- A character that is nowhere in front stands at the end only. -/
theorem eq_nil_of_suffix_concat (suffix : c :: t <:+ s ++ [c]) (absent : c ∉ s) : t = [] := by
  obtain ⟨x, halves⟩ := suffix
  rcases List.eq_nil_or_concat t with rfl | ⟨t, d, rfl⟩
  · rfl
  · rw [List.concat_eq_append, ← List.cons_append, ← List.append_assoc] at halves
    obtain ⟨rfl, -⟩ := List.append_inj' halves rfl
    exact absurd (by simp) absent

theorem exists_relative (bare : Bare s)
    (accepted : Selector.ofChars (hasToken ++ s ++ [')']) = .ok base) :
    ∃ inner, Reads (.complex inner) (readLead (skipBlanks s)).2 [] ∧ base.alternatives =
      [.compound [.pseudo (.has [.ofComplex (readLead (skipBlanks s)).1 inner])]] := by
  have reads := Selector.ofChars_eq_ok_iff.mp accepted
  have whole : hasToken ++ s ++ [')'] = ':' :: ("has".toList ++ '(' :: (s ++ [')'])) := by simp [hasToken]
  obtain ⟨p, v, pseudo⟩ := exists_pseudo (whole ▸ reads)
  obtain ⟨rs, u, -, argument, close⟩ := relatives_of_pseudo pseudo
  rw [argument.skipBlanks_relatives] at close
  subst close
  obtain rfl := eq_nil_of_suffix_concat argument.lookahead.suffix (bare.not_mem (by decide))
  have has := reads_has argument argument.skipBlanks_relatives
  rw [← List.append_assoc] at has
  obtain ⟨same, -⟩ := reads.unique_list has
  rw [same]
  have inside : Reads (.relatives rs) s [] := argument.lookahead.cut (t := [])
  have behind := (Selector.Lookahead.readLead (skipBlanks s)).suffix.trans (suffix_skipBlanks s)
  generalize nothing : ([] : List Char) = rest at inside
  cases inside with
  | relativesOne first =>
    rw [first.skipBlanks_complex] at nothing
    subst nothing
    exact ⟨_, first, rfl⟩
  | relativesMore first comma =>
    have there := (comma ▸ suffix_skipBlanks _).trans (first.lookahead.suffix.trans behind)
    exact absurd (there.subset List.mem_cons_self) (bare.not_mem (by decide))

/-- Of a selector at the end of a text that does not run on, the blanks behind it are trimmed away. -/
theorem exists_trimmed {inner : Complex} (there : skipBlanks s = z ++ t) (unescaped : '\\' ∉ s)
    (stops : runsOn s = false) (reads : Reads (.complex inner) t []) :
    ∃ w, trimChars s = z ++ w ∧ w ≠ [] ∧ Reads (.complex inner) w [] := by
  obtain ⟨b, leads, halves⟩ := exists_skipBlanks s
  have first := isBlank_head?_skipBlanks s
  rw [there] at first halves
  obtain ⟨w, solid, front⟩ := reads.exists_front fun member => unescaped (by rw [halves]; simp [member])
  obtain ⟨t, rfl, trails⟩ := front.halves
  have filled : w ≠ [] := by
    rintro rfl
    obtain ⟨c, member, -⟩ := solid
    cases member
  refine ⟨w, ?_, filled, front.reads⟩
  rw [← List.append_assoc, ← List.append_assoc] at halves
  rw [halves, List.append_assoc b]
  refine Text.trimChars_between leads trails (fun c member => first c ?_) ?_
  · rw [← List.append_assoc, List.head?_append_of_ne_nil _ (by simp [filled])]
    exact member
  · rw [List.getLast?_append_of_ne_nil _ filled]
    exact front.firm.getLast?_eq solid trails ⟨b ++ z, by rw [halves]; simp⟩ stops

theorem readLead_eq (s : List Char) : readLead s = (.descendant, s) ∨
    ∃ sign t k, s = sign :: t ∧ combinatorOf sign = some k ∧ readLead s = (k, t) := by
  cases s with
  | nil => exact .inl rfl
  | cons sign t =>
    cases means : combinatorOf sign with
    | none => exact .inl (by rw [readLead, means])
    | some k => exact .inr ⟨sign, t, k, rfl, means, by rw [readLead, means]⟩

/-- The selector that is asked by a pair: behind a combinator it starts at the candidate. -/
def askedOf (k : Combinator) (inner : Complex) : Complex :=
  if k = .descendant then inner else inner.fromScope k

/-- A pair asks the selector that is read in `:has(…)`. -/
theorem pair_asks {inner : Complex} (bare : Bare s) (stops : runsOn s = false)
    (reads : Reads (.complex inner) (readLead (skipBlanks s)).2 []) (test : TextTest) :
    (pairOf s test).reach = (readLead (skipBlanks s)).1 ∧
      (pairOf s test).selector = .ok ⟨[askedOf (pairOf s test).reach inner]⟩ := by
  have unescaped : '\\' ∉ s := bare.not_mem (by decide)
  have sub {x : List Char} (trimmed : trimChars s = x) (filled : x ≠ []) :
      (pairOf s test).sub.toList = x := by
    rw [pairOf, String.toList_ofList, trimmed, orAny, if_neg (by simpa using filled)]
  rcases readLead_eq (skipBlanks s) with lead | ⟨sign, t, k, there, means, lead⟩
  · rw [lead] at reads ⊢
    obtain ⟨w, trimmed, filled, asked⟩ := exists_trimmed (z := []) rfl unescaped stops reads
    rw [List.nil_append] at trimmed
    rw [← sub trimmed filled] at asked
    obtain ⟨reach, query⟩ := reach_of_reads asked.last
    refine ⟨reach, ?_⟩
    rw [reach, askedOf, if_pos rfl]
    exact selector_of_reads (query ▸ asked.last)
  · rw [lead] at reads ⊢
    obtain ⟨w, trimmed, -, asked⟩ := exists_trimmed (z := [sign]) there unescaped stops reads
    obtain ⟨reach, tied, query⟩ := reach_of_sign (sub trimmed (List.cons_ne_nil _ _)) means
    refine ⟨reach, ?_⟩
    rw [reach, askedOf, if_neg tied]
    exact selector_of_reads (query ▸ (reads_fromScope means asked).last)

/-! ## The pair -/

/-- The argument of a `:has(…)` with one test makes one pair. -/
theorem walks_pair {found : Found} (bare : Bare s) (test : WrittenTest) (rest : Walks r found) :
    Walks (':' :: ("has(".toList ++ (s ++ (test.chars ++ ')' :: r))))
      (({ found with has := [pairOf s test.test] :: found.has } : Found).keep
        (hasToken ++ orAny (trimChars s) ++ [')'])) := by
  have plain : ∀ u ∈ Gapped.texts ⟨[(s, test)], []⟩, Unquoted u ∧ Text.occursIn containsToken u = false := by
    rw [Gapped.forall_mem_texts_cons]
    exact ⟨⟨bare.unquoted, bare.occursIn⟩, by simp [Gapped.texts, Unquoted]; decide⟩
  have level : depthAfter '(' ')' 0 s = some 0 :=
    depthAfter_of_not_mem (bare.not_mem (by decide)) (bare.not_mem (by decide))
  have argument := argumentRead_render (r := r) plain (by simpa using level)
  have mentions : Text.occursIn containsToken (s ++ (test.chars ++ [])) = true :=
    occursIn_eq_true_iff.mpr ⟨s, test.body, by simp [WrittenTest.chars]⟩
  have opened {u : List Char} : afterHas (':' :: ("has(".toList ++ u)) = some u := afterHas_append u
  have walks := walks_has_tests opened argument (by simpa using mentions) (strips_render [] plain) rest
  simpa [clauseOf, pairOf] using walks

end

end Extended

/-! ## What is found -/

/-- A list holds the elements at which a relative selector ends from an element. -/
def Relative.Ends (r : Relative) (t : Tree) (el : NodeId) (found : List NodeId) : Prop :=
  ∀ c, c ∈ found ↔ t.isElement c = true ∧ r.selector.holds t (some el) c = true

/-- What is found from an element, against the relative selector that joins `inner` to the element. -/
structure Compared (t : Tree) (el : NodeId) (k : Combinator) (inner : Complex) (found : List NodeId) :
    Prop where
  /-- The relative selector ends where a line ends of which the element is joined to the first one. -/
  ends : ∀ c, t.isElement c = true ∧ (Relative.ofComplex k inner).selector.holds t (some el) c = true ↔
    ∃ path, inner.Line t (some el) path ∧ path.getLast? = some c ∧
      ∃ first, path.head? = some first ∧ k.Joins t el first
  /-- Without a combinator all is found inside the element at which some line ends. -/
  inside : k = .descendant → ∀ c, c ∈ found ↔
    t.forest.Below el c ∧ ∃ path, inner.Line t (some el) path ∧ path.getLast? = some c
  within : ∀ c, t.isElement c = true →
    (Relative.ofComplex k inner).selector.holds t (some el) c = true → c ∈ found
  tied : k ≠ .descendant → (Relative.ofComplex k inner).Ends t el found
  sideways : (∀ k' ∈ inner.combinators, k'.Sideways) → (Relative.ofComplex k inner).Ends t el found

/-- Both ask for lines; they differ in where a line begins, which for lines of siblings makes no
difference. -/
theorem compared_queryRelative {t : Tree} (linked : t.Linked) {el : NodeId} (element : t.isElement el = true)
    (k : Combinator) (inner : Complex) :
    Compared t el k inner (Selector.queryRelative ⟨[Extended.askedOf k inner]⟩ t el k) := by
  have ends (c : NodeId) := inner.holds_fromScope_iff linked k element (e := c)
  by_cases outside : k = .descendant
  · subst outside
    have found (c : NodeId) : c ∈ Selector.queryRelative ⟨[inner]⟩ t el .descendant ↔ _ :=
      Selector.mem_queryRelative_descendant linked inner
    have within (c : NodeId) (here : t.isElement c = true)
        (holds : (inner.fromScope .descendant).holds t (some el) c = true) :
        c ∈ Selector.queryRelative ⟨[inner]⟩ t el .descendant := by
      obtain ⟨path, line, last, -⟩ := (ends c).mp ⟨here, holds⟩
      have tried := inner.mem_candidates_of_holds linked .descendant here holds
      exact (found c).mpr ⟨((Combinator.mem_candidates linked _).mp tried).2, path, line, last⟩
    exact {
      ends
      inside := fun _ => found
      within
      tied := fun tied => absurd rfl tied
      sideways := fun sideways c => by
        refine ⟨fun member => ?_, fun ⟨here, holds⟩ => within c here holds⟩
        obtain ⟨below, path, line, last⟩ := (found c).mp member
        obtain ⟨first, head⟩ : ∃ first, path.head? = some first := by
          cases path with
          | nil => cases last
          | cons first path => exact ⟨first, rfl⟩
        exact (ends c).mpr ⟨path, line, last, first, head,
          inner.below_head_of_sideways linked sideways line head last below⟩ }
  · have tied (c : NodeId) : c ∈ Selector.queryRelative ⟨[inner.fromScope k]⟩ t el k ↔ _ :=
      Selector.mem_queryRelative_fromScope linked k inner
    rw [Extended.askedOf, if_neg outside]
    exact {
      ends
      inside := fun inside => absurd inside outside
      within := fun c here holds => (tied c).mpr ⟨here, holds⟩
      tied := fun _ => tied
      sideways := fun _ => tied }

namespace ExtendedSelector

open Extended
open Selector (Reads)

/-- A text that is read in `:has(…)` by itself and has a test behind it in the `:has(…)` of an extended
selector: the relative selector and the pair, and what the pair finds from any element of any page. -/
theorem compared_pair {s f k : List Char} {base : Selector} (bare : Bare s)
    (stops : Selector.runsOn s = false)
    (accepted : Selector.ofChars (hasToken ++ s ++ [')']) = .ok base) (test : WrittenTest)
    (before : Unquoted f ∧ Unopened f) (after : Unquoted k ∧ Unopened k) :
    ∃ e asked inner,
      compile (String.ofList (f ++ hasToken ++ s ++ test.chars ++ [')'] ++ k)) = .ok e ∧
      e.has = [[pairOf s test.test]] ∧ (pairOf s test.test).selector = .ok asked ∧
      base.alternatives =
        [.compound [.pseudo (.has [.ofComplex (pairOf s test.test).reach inner])]] ∧
      ∀ t : Tree, t.Grown → ∀ el, t.isElement el = true →
        Compared t el (pairOf s test.test).reach inner
          (asked.queryRelative t el (pairOf s test.test).reach) := by
  obtain ⟨inner, reads, alternatives⟩ := exists_relative bare accepted
  obtain ⟨reach, asks⟩ := pair_asks bare stops reads test.test
  rw [← reach] at alternatives
  have tail := walks_unopened after.1 after.2 (r := []) (by simp) walks_nil
  rw [List.append_nil] at tail
  have walks := walks_unopened before.1 before.2 (by simp; decide) (walks_pair bare test tail)
  have whole : f ++ hasToken ++ s ++ test.chars ++ [')'] ++ k =
      f ++ ':' :: ("has(".toList ++ (s ++ (test.chars ++ ')' :: k))) := by simp [hasToken]
  rw [← whole] at walks
  have mentions : containsToken <:+: f ++ hasToken ++ s ++ test.chars ++ [')'] ++ k :=
    ⟨f ++ hasToken ++ s, test.body ++ [')'] ++ k, by simp [WrittenTest.chars]⟩
  have compiles := compile_of_walks (s := String.ofList (f ++ hasToken ++ s ++ test.chars ++ [')'] ++ k))
    (by rwa [String.toList_ofList]) (by rwa [String.toList_ofList])
  exact ⟨_, _, inner, compiles, rfl, asks, alternatives, fun t grown el element =>
    compared_queryRelative grown.linked element _ inner⟩

/-- A link in a paragraph. -/
def linkWithin : Complex := .join (.compound [.type "p"]) .descendant [.type "a"]

/-- What is read in front of a parenthesis is one relative selector in `:has(…)`, and is asked by a pair. -/
theorem readings {s : List Char} {c : Complex} (reads : Reads (.complex c) (s ++ [')']) [')']) :
    Selector.ofChars (hasToken ++ s ++ [')']) =
        .ok ⟨[.compound [.pseudo (.has [.ofComplex .descendant c])]]⟩ ∧
      Reads (.complex c) s [] := by
  have argument := reads.descendants (by simp [Text.skipBlanks, Text.isBlank])
  have has := reads_has argument argument.skipBlanks_relatives
  rw [← List.append_assoc] at has
  exact ⟨Selector.ofChars_eq_ok_iff.mpr has, reads.lookahead.cut (t := [])⟩

theorem reads_linkWithin : Reads (.complex linkWithin) ("p a".toList ++ [')']) [')'] := by
  have paragraph : Reads (.compound [.type "p"]) ['p', ' ', 'a', ')'] [' ', 'a', ')'] :=
    .compoundType rfl (show _ = some (['p'], _) from rfl) (.simplesEnd rfl)
  have link : Reads (.compound [.type "a"]) ['a', ')'] [')'] :=
    .compoundType rfl (show _ = some (['a'], _) from rfl) (.simplesEnd rfl)
  have ends : Selector.Ends (Text.skipBlanks [')']) := fun c first => .inr (Option.some.inj first).symm
  exact .complex paragraph (.joinsBlank (by decide) link (.joinsEnd ends))

/-- A paragraph with a division that holds a link and another paragraph with a link. -/
def linkPage : Tree :=
  [.create (.element (.ofName "p")), .create (.element (.ofName "div")),
    .create (.element (.ofName "a")), .create (.element (.ofName "p")),
    .create (.element (.ofName "a")), .append .root ⟨1⟩, .append ⟨1⟩ ⟨2⟩, .append ⟨2⟩ ⟨3⟩,
    .append ⟨2⟩ ⟨4⟩, .append ⟨4⟩ ⟨5⟩].foldl (fun t w => Edit.apply t w) .empty

/-- From the division a pair finds both links, and one of them lies in a paragraph inside it. -/
theorem compared_pair_links : linkPage.Grown ∧ ∃ e asked inner,
    compile "div:has(p a:contains('x'))" = .ok e ∧ e.has = [[pairOf "p a".toList (.literal "x")]] ∧
      (pairOf "p a".toList (.literal "x")).selector = .ok asked ∧
      asked.queryRelative linkPage ⟨2⟩ .descendant = [⟨3⟩, ⟨5⟩] ∧
      Compared linkPage ⟨2⟩ .descendant inner [⟨3⟩, ⟨5⟩] := by
  have grown : linkPage.Grown := ⟨_, rfl⟩
  obtain ⟨accepted, reads⟩ := readings reads_linkWithin
  have before : Unquoted "div".toList ∧ Unopened "div".toList :=
    ⟨unquoted_of_ordinary (by decide +kernel), by decide +kernel⟩
  obtain ⟨e, asked, inner, compiles, has, asks, -, compared⟩ :=
    compared_pair (s := "p a".toList) (k := []) (by decide) (by decide +kernel) accepted
      (.ofText "x") before ⟨List.forall_mem_nil _, by decide +kernel⟩
  have whole : String.ofList ("div".toList ++ hasToken ++ "p a".toList ++ (WrittenTest.ofText "x").chars ++
      [')'] ++ []) = "div:has(p a:contains('x'))" := by decide +kernel
  have reach : (pairOf "p a".toList (WrittenTest.ofText "x").test).reach = .descendant := by decide +kernel
  have same : asked = ⟨[linkWithin]⟩ := by
    have query : (pairOf "p a".toList (WrittenTest.ofText "x").test).query.toList = "p a".toList := by
      decide +kernel
    rw [selector_of_reads (query ▸ reads.last)] at asks
    exact (Except.ok.inj asks).symm
  have found : asked.queryRelative linkPage ⟨2⟩ .descendant = [⟨3⟩, ⟨5⟩] := by
    rw [same]
    decide +kernel
  have compared := compared linkPage grown ⟨2⟩ (by decide +kernel)
  rw [reach, found] at compared
  exact ⟨grown, e, asked, inner, whole ▸ compiles, has, asks, found, compared⟩

/-- What a pair finds is where the relative selector ends. -/
def Faithful (s : List Char) : Prop :=
  ∀ (base asked : Selector) (r : Relative) (test : TextTest),
    Selector.ofChars (hasToken ++ s ++ [')']) = .ok base →
    base.alternatives = [.compound [.pseudo (.has [r])]] → (pairOf s test).selector = .ok asked →
    ∀ t : Tree, t.Grown → ∀ el, t.isElement el = true →
      r.Ends t el (asked.queryRelative t el (pairOf s test).reach)

/-- A pair that finds an element at which the relative selector does not end. -/
theorem not_faithful_of_found {s : List Char} {c c' : Complex} {t : Tree} (el e : NodeId)
    (reads : Reads (.complex c) (s ++ [')']) [')'])
    (asked : Reads (.complex c') (pairOf s (.literal "x")).query.toList []) (grown : t.Grown)
    (element : t.isElement el = true)
    (found : e ∈ Selector.queryRelative ⟨[c']⟩ t el (pairOf s (.literal "x")).reach)
    (misses : (c.fromScope .descendant).holds t (some el) e = false) : ¬ Faithful s := by
  intro faithful
  have ends := faithful _ _ _ _ (readings reads).1 rfl (selector_of_reads asked.last) t grown el element e
  have holds := (ends.mp found).2
  rw [Relative.ofComplex, Relative.selector, misses] at holds
  cases holds

/-- The first link lies in a paragraph, but in none inside the division. And where a blank that does not
break is trimmed away behind a name, it would be the last character of the name. -/
theorem not_faithful : (Bare "p a".toList ∧ ¬ Faithful "p a".toList) ∧
    Bare ['a', '\u00a0'] ∧ ¬ Faithful ['a', '\u00a0'] := by
  refine ⟨⟨by decide, ?_⟩, by decide, ?_⟩
  · have query : (pairOf "p a".toList (.literal "x")).query.toList = "p a".toList := by decide +kernel
    exact not_faithful_of_found (t := linkPage) ⟨2⟩ ⟨3⟩ reads_linkWithin
      (query ▸ (readings reads_linkWithin).2) ⟨_, rfl⟩ (by decide +kernel) (by decide +kernel)
      (by decide +kernel)
  · have name : Reads (.complex (.compound [.type "a\u00a0"])) ['a', '\u00a0', ')'] [')'] :=
      .complex (.compoundType rfl (show _ = some (['a', '\u00a0'], _) from rfl) (.simplesEnd rfl))
        (.joinsEnd (s := [')']) fun c first => .inr (Option.some.inj first).symm)
    have trimmed : Reads (.complex (.compound [.type "a"])) ['a'] [] :=
      .complex (.compoundType rfl (show _ = some (['a'], _) from rfl) (.simplesEnd rfl)) .joins_nil
    have query : (pairOf ['a', '\u00a0'] (.literal "x")).query.toList = ['a'] := by decide +kernel
    exact not_faithful_of_found (t := linkPage) ⟨2⟩ ⟨3⟩ name (query ▸ trimmed) ⟨_, rfl⟩
      (by decide +kernel) (by decide +kernel) (by decide +kernel)

end ExtendedSelector

end NoiseFilter
