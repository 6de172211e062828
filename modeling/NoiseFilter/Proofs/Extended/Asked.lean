import NoiseFilter.Extended.Compile
import NoiseFilter.Proofs.Extended.Cut

/-!
# What is asked inside a candidate

In ordinary text that can be read every colon begins a pseudo-class (`colons_of_reads`), so the argument
of what looks like a `:has(…)` is read as one. A test in such an argument that stands behind whole
selectors asks for elements that are selected by them (`asks_of_argument`).
-/

namespace NoiseFilter.Extended

open Selector (Item Reads Yields isNameChar scanName readAttribute combinatorOf)
open Text (isBlank skipBlanks trimChars trimStart trimEnd)

/-! ## Colons -/

/-- A pseudo-class is read behind every colon in front of a rest. -/
def Colons (s r : List Char) : Prop :=
  ∀ t, ':' :: t <:+ s → (∃ p u, Reads (.pseudo p) t u) ∨ ':' :: t <:+ r

section

variable {c : Char} {s t r w name : List Char} {item : Item}

namespace Colons

theorem refl : Colons s s := fun _ suffix => .inr suffix

theorem trans (front : Colons s t) (back : Colons t r) : Colons s r := by
  intro u suffix
  rcases front u suffix with reads | suffix
  · exact .inl reads
  · exact back u suffix

theorem cons (other : c ≠ ':') (more : Colons s r) : Colons (c :: s) r := by
  intro t suffix
  rcases List.suffix_cons_iff.mp suffix with same | suffix
  · exact absurd (List.cons.inj same).1.symm other
  · exact more t suffix

theorem append (plain : ∀ c ∈ w, c ≠ ':') : Colons (w ++ r) r := by
  induction w with
  | nil => exact refl
  | cons c w ih =>
    rw [List.forall_mem_cons] at plain
    exact (ih plain.2).cons plain.1

theorem skipBlanks (s : List Char) : Colons s (skipBlanks s) := by
  obtain ⟨b, blank, halves⟩ := exists_skipBlanks s
  have plain := append (r := Text.skipBlanks s) fun c member => ne_of_isBlank (blank c member) (rfl : isBlank ':' = false)
  rwa [← halves] at plain

theorem skips (there : Text.skipBlanks s = c :: t) (other : c ≠ ':') : Colons s t := by
  have skipped := skipBlanks s
  rw [there] at skipped
  exact skipped.trans (refl.cons other)

theorem scanName (scan : scanName s = some (name, r)) (ordinary : Ordinary s) : Colons s r := by
  obtain ⟨w, rfl, letters⟩ := exists_scanName scan ordinary
  exact append fun c member => ne_of_isNameChar (letters c member) rfl

theorem readOperator {op : AttributeOperator} (read : Yields (Selector.readOperator s) op r) : Colons s r := by
  rcases Selector.yields_readOperator.mp read with ⟨rfl, -⟩ | ⟨c, -, means, rfl⟩
  · exact refl.cons (by decide)
  · exact (refl.cons (by decide)).cons (by rintro rfl; cases means)

theorem readValue {value : List Char} (read : Yields (Selector.readValue s) value r) (ordinary : Ordinary s) :
    Colons s r := by
  rcases Selector.yields_readValue.mp read with ⟨q, t, quote, rfl, -⟩ | ⟨-, -, rfl⟩
  · have plain := (isOrdinary_iff.mp (ordinary q (by simp))).2.1
    rcases quote with rfl | rfl <;> cases plain
  · have plain := append (r := s.dropWhile isNameChar) fun c (member : c ∈ s.takeWhile isNameChar) =>
      ne_of_isNameChar (List.mem_takeWhile_imp member) (rfl : isNameChar ':' = false)
    rwa [List.takeWhile_append_dropWhile] at plain

theorem readFlag (s : List Char) : Colons s (Selector.readFlag s).2 := by
  unfold Selector.readFlag
  split
  · exact refl
  · split
    · next flag => exact (skipBlanks _).cons (by rcases flag with rfl | rfl <;> decide)
    · split
      · next flag => exact (skipBlanks _).cons (by rcases flag with rfl | rfl <;> decide)
      · exact refl

theorem readTest {test : AttributeTest} (read : Yields (Selector.readTest s) test r) (ordinary : Ordinary s) :
    Colons s r := by
  obtain ⟨op, t, value, u, operator, operand, flag, -⟩ := Selector.yields_readTest.mp read
  have rest := (ordinary.of_suffix (Selector.Lookahead.readOperator operator).suffix).of_suffix
    (suffix_skipBlanks t)
  have flagged := readFlag (Text.skipBlanks u)
  rw [flag] at flagged
  exact (readOperator operator).trans <| (skipBlanks t).trans <| (readValue operand rest).trans <|
    (skipBlanks u).trans flagged

theorem readAttribute {a : AttributeSelector} (read : Yields (readAttribute s) a r) (ordinary : Ordinary s) :
    Colons s r := by
  obtain ⟨name, t, scan, -, -, rest⟩ := Selector.yields_readAttribute.mp read
  have skipped := ordinary.of_suffix (suffix_skipBlanks s)
  have named := (skipBlanks s).trans ((scanName scan skipped).trans (skipBlanks t))
  have behind := (skipped.of_suffix (suffix_of_scanName scan)).of_suffix (suffix_skipBlanks t)
  have close : Colons (']' :: r) r := refl.cons (by decide)
  rcases rest with ⟨closed, -⟩ | ⟨test, -, read, -⟩
  · exact named.trans (closed ▸ close)
  · exact named.trans ((readTest read behind).trans close)

theorem readLead (s : List Char) : Colons s (Selector.readLead s).2 := by
  unfold Selector.readLead
  split
  · exact refl
  · split
    · next means => exact refl.cons (facts_of_combinatorOf means).2.2
    · exact refl

theorem takeNth {e : Nth} (argument : Nth.ofChars (s.takeWhile (· != ')')) = some e) :
    Colons s (s.dropWhile (· != ')')) := by
  have plain : ∀ c ∈ s.takeWhile (· != ')'), c ≠ ':' := by
    rintro c member rfl
    rcases Selector.isNthChar_of_ofChars argument _ member with blank | nth
    · cases blank
    · cases nth
  have whole := append (r := s.dropWhile (· != ')')) plain
  rwa [List.takeWhile_append_dropWhile] at whole

end Colons

/-- Every colon in a part of a selector begins a pseudo-class. -/
theorem colons_of_reads (reads : Reads item s r) (ordinary : Ordinary s) : Colons s r := by
  have call {s t r name : List Char} (scan : scanName s = some (name, '(' :: t)) (ordinary : Ordinary s)
      (inside : Colons t (')' :: r)) : Colons s r :=
    (Colons.scanName scan ordinary).trans <| (inside.cons (by decide)).trans (Colons.refl.cons (by decide))
  induction reads with
  | @listOne s t c first last ih => exact (ih ordinary).trans (.skipBlanks t)
  | @listMore s t u r c cs first comma more ih ihMore =>
    have rest := (ordinary.of_suffix first.lookahead.suffix).skips comma
    exact (ih ordinary).trans ((Colons.skips comma (by decide)).trans (ihMore rest))
  | @complex s t r parts c first joined ih ihJoined =>
    have skipped := ordinary.of_suffix (suffix_skipBlanks s)
    exact (Colons.skipBlanks s).trans <| (ih skipped).trans <|
      ihJoined (skipped.of_suffix first.lookahead.suffix)
  | joinsEnd => exact .skipBlanks _
  | @joinsSign s t u r left c sign k parts there means right joined ih ihJoined =>
    have rest := (ordinary.skips there).of_suffix (suffix_skipBlanks t)
    exact (Colons.skips there (facts_of_combinatorOf means).2.2).trans <| (Colons.skipBlanks t).trans <|
      (ih rest).trans (ihJoined (rest.of_suffix right.lookahead.suffix))
  | @joinsBlank s u r left c parts blank right joined ih ihJoined =>
    have rest := ordinary.of_suffix (suffix_skipBlanks s)
    exact (Colons.skipBlanks s).trans <| (ih rest).trans <|
      ihJoined (rest.of_suffix right.lookahead.suffix)
  | compoundAny more ih => exact (ih (ordinary.of_suffix (List.suffix_cons _ _))).cons (by decide)
  | compoundType start tag more ih =>
    exact (Colons.scanName tag ordinary).trans (ih (ordinary.of_suffix (suffix_of_scanName tag)))
  | compoundSimple first more ih ihMore =>
    exact (ih ordinary).trans (ihMore (ordinary.of_suffix first.lookahead.suffix))
  | simplesEnd => exact .refl
  | simplesMore first more ih ihMore =>
    exact (ih ordinary).trans (ihMore (ordinary.of_suffix first.lookahead.suffix))
  | simpleId scan =>
    exact (Colons.scanName scan (ordinary.of_suffix (List.suffix_cons _ _))).cons (by decide)
  | simpleClass scan =>
    exact (Colons.scanName scan (ordinary.of_suffix (List.suffix_cons _ _))).cons (by decide)
  | simpleAttribute read =>
    exact (Colons.readAttribute read (ordinary.of_suffix (List.suffix_cons _ _))).cons (by decide)
  | simplePseudo read ih =>
    intro t suffix
    rcases List.suffix_cons_iff.mp suffix with same | suffix
    · obtain rfl := (List.cons.inj same).2
      exact .inl ⟨_, _, read⟩
    · exact ih (ordinary.of_suffix (List.suffix_cons _ _)) t suffix
  | pseudoPlain scan => exact Colons.scanName scan ordinary
  | pseudoLogical scan _ _ close ih =>
    exact call scan ordinary ((ih (ordinary.argument scan)).trans (close ▸ .skipBlanks _))
  | pseudoNth scan _ argument close =>
    exact call scan ordinary (close ▸ Colons.takeNth argument)
  | pseudoHas scan _ _ close ih =>
    exact call scan ordinary ((ih (ordinary.argument scan)).trans (close ▸ .skipBlanks _))
  | @relativesOne s t c first last ih =>
    have rest := (ordinary.of_suffix (suffix_skipBlanks s)).of_suffix (Selector.Lookahead.readLead _).suffix
    exact (Colons.skipBlanks s).trans <| (Colons.readLead _).trans <| (ih rest).trans (.skipBlanks t)
  | @relativesMore s t u r c rs first comma more ih ihMore =>
    have rest := (ordinary.of_suffix (suffix_skipBlanks s)).of_suffix (Selector.Lookahead.readLead _).suffix
    have behind := (rest.of_suffix first.lookahead.suffix).skips comma
    exact (Colons.skipBlanks s).trans <| (Colons.readLead _).trans <| (ih rest).trans <|
      (Colons.skips comma (by decide)).trans (ihMore behind)

theorem scanName_has (t : List Char) :
    scanName ("has".toList ++ '(' :: t) = some ("has".toList, '(' :: t) ∧
      Text.lower (String.ofList "has".toList) = "has" :=
  ⟨scanName_append (List.all_iff_forall_prop.mp (by decide)) (by simp; decide), by decide +kernel⟩

/-- What is read behind `:has(` is its argument. -/
theorem relatives_of_pseudo {p : Pseudo} (reads : Reads (.pseudo p) ("has".toList ++ '(' :: t) r) :
    ∃ rs u, p = .has rs ∧ Reads (.relatives rs) t u ∧ skipBlanks u = ')' :: r := by
  obtain ⟨scan, small⟩ := scanName_has t
  cases reads with
  | pseudoPlain scan' closed =>
    rw [scan] at scan'
    obtain ⟨-, rfl⟩ := Prod.mk.inj (Option.some.inj scan')
    exact absurd rfl (closed t)
  | pseudoLogical scan' known =>
    rw [scan] at scan'
    obtain ⟨rfl, -⟩ := Prod.mk.inj (Option.some.inj scan')
    rw [small] at known
    cases known
  | pseudoNth scan' known =>
    rw [scan] at scan'
    obtain ⟨rfl, -⟩ := Prod.mk.inj (Option.some.inj scan')
    rw [small] at known
    cases known
  | pseudoHas scan' known argument close =>
    rw [scan] at scan'
    obtain ⟨-, same⟩ := Prod.mk.inj (Option.some.inj scan')
    obtain rfl := (List.cons.inj same).2
    exact ⟨_, _, rfl, argument, close⟩

/-- Where a `:has(` stands in a selector, its argument is read. -/
theorem relatives_of_reads (reads : Reads item s []) (ordinary : Ordinary s)
    (inside : ':' :: ("has".toList ++ '(' :: t) <:+ s) :
    ∃ rs u v, Reads (.relatives rs) t u ∧ skipBlanks u = ')' :: v := by
  rcases colons_of_reads reads ordinary _ inside with ⟨p, v, pseudo⟩ | nothing
  · obtain ⟨rs, u, -, argument, close⟩ := relatives_of_pseudo pseudo
    exact ⟨rs, u, v, argument, close⟩
  · cases List.suffix_nil.mp nothing

end

/-! ## Tests in arguments -/

section

variable {left c : Complex} {s r : List Char}

/-- Behind `:scope` and a combinator a selector goes on. -/
theorem reads_fromScope {sign : Char} {k : Combinator} (means : Selector.combinatorOf sign = some k)
    (reads : Reads (.complex c) s r) :
    Reads (.complex (c.fromScope k)) (":scope ".toList ++ sign :: s) r := by
  have skipped : skipBlanks (' ' :: sign :: s) = sign :: s := by
    rw [skipBlanks, List.dropWhile_cons_of_pos (by decide)]
    rcases Selector.combinatorOf_eq_some means with rfl | rfl | rfl <;> rfl
  have scope : Reads (.compound [.pseudo .scope]) (':' :: ("scope".toList ++ ' ' :: sign :: s))
      (' ' :: sign :: s) := by
    have scan : Selector.scanName ("scope".toList ++ ' ' :: sign :: s) =
        some ("scope".toList, ' ' :: sign :: s) :=
      scanName_append (List.all_iff_forall_prop.mp (by decide)) (by simp; decide)
    have known : Selector.plainPseudo (Text.lower (String.ofList "scope".toList)) = some .scope := by
      rw [show Text.lower (String.ofList "scope".toList) = "scope" by decide +kernel]
      rfl
    exact .compoundSimple (.simplePseudo (.pseudoPlain scan (by simp) known)) (.simplesEnd rfl)
  cases reads with
  | complex compound joined =>
    have start : skipBlanks (":scope ".toList ++ sign :: s) =
        ':' :: ("scope".toList ++ ' ' :: sign :: s) :=
      (skipBlanks_of_head? (by simp [isBlank])).trans (by simp)
    exact .complex (start ▸ scope) (.joinsSign skipped means compound (joined.fromScope k))

/-- So does a list of selectors. -/
theorem reads_scope {sign : Char} {k : Combinator} {cs : List Complex}
    (means : Selector.combinatorOf sign = some k) (reads : Reads (.list cs) s r) :
    ∃ cs', Reads (.list cs') (":scope ".toList ++ sign :: s) r := by
  cases reads with
  | listOne first last => exact ⟨_, .listOne (reads_fromScope means first) last⟩
  | listMore first comma more => exact ⟨_, .listMore (reads_fromScope means first) comma more⟩

/-- A list of selectors does not begin with a combinator. -/
theorem combinatorOf_of_reads {c : Char} {cs : List Complex} (reads : Reads (.list cs) (c :: s) r) :
    Selector.combinatorOf c = none := by
  have first {c' : Complex} {t : List Char} (first : Reads (.complex c') (c :: s) t) :
      Selector.combinatorOf c = none := by
    cases first with
    | complex compound _ =>
      cases blank : isBlank c with
      | true =>
        refine Option.eq_none_iff_forall_ne_some.mpr fun k means => ?_
        rcases Selector.combinatorOf_eq_some means with rfl | rfl | rfl <;> cases blank
      | false =>
        rw [skipBlanks_of_head? (by simpa using blank)] at compound
        obtain ⟨d, u, there, -, none⟩ := compound.starts
        obtain ⟨rfl, -⟩ := List.cons.inj there
        exact none
  cases reads with
  | listOne start => exact first start
  | listMore start => exact first start

/-- A test whose query can be read asks it. -/
theorem selector_of_reads {h : HasTest} {cs : List Complex} (reads : Reads (.list cs) h.query.toList []) :
    h.selector = .ok ⟨cs⟩ := by
  have ok : Selector.ofString h.query = .ok ⟨cs⟩ := Selector.ofChars_eq_ok_iff.mpr reads
  rw [HasTest.selector, readNamed, ok]
  rfl

/-- What can be read by itself is asked of everything inside. -/
theorem reach_of_reads {h : HasTest} {cs : List Complex} (reads : Reads (.list cs) h.sub.toList []) :
    h.reach = .descendant ∧ h.query = h.sub := by
  have outside : h.reach = .descendant := by
    rw [HasTest.reach]
    split
    · next there => exact absurd (combinatorOf_of_reads (there ▸ reads)) (by decide)
    · next there => exact absurd (combinatorOf_of_reads (there ▸ reads)) (by decide)
    · next there => exact absurd (combinatorOf_of_reads (there ▸ reads)) (by decide)
    · rfl
  exact ⟨outside, by rw [HasTest.query, if_pos outside]⟩

/-- What begins with a combinator is asked from the candidate itself. -/
theorem reach_of_sign {h : HasTest} {sign : Char} {k : Combinator} (there : h.sub.toList = sign :: s)
    (means : Selector.combinatorOf sign = some k) :
    h.reach = k ∧ k ≠ .descendant ∧ h.query.toList = ":scope ".toList ++ sign :: s := by
  have reach : h.reach = k ∧ k ≠ .descendant := by
    rw [HasTest.reach, there]
    rcases Selector.combinatorOf_eq_some means with rfl | rfl | rfl <;> cases means <;>
      exact ⟨rfl, by decide⟩
  refine ⟨reach.1, reach.2, ?_⟩
  rw [HasTest.query, reach.1, if_neg reach.2, String.toList_append, there]

/-- A test in an argument can be asked. -/
theorem selector_of_asks {h : HasTest} (asks : Asks h.sub.toList) : ∃ x, h.selector = .ok x := by
  rcases asks with ⟨cs, reads⟩ | ⟨sign, k, rest, cs, there, means, reads⟩
  · exact ⟨⟨cs⟩, selector_of_reads (by rwa [(reach_of_reads reads).2])⟩
  · obtain ⟨cs', reads⟩ := reads_scope means reads
    exact ⟨⟨cs'⟩, selector_of_reads (by rwa [(reach_of_sign there means).2.2])⟩

/-- A test may stand between two texts of an argument: in front of it there is nothing, or there are
whole selectors, of which the first alone may begin with a combinator. -/
def Placed (front back : List Char) : Prop :=
  trimChars front = [] ∨
    Cut (trimChars front) ((trimStart front).rtakeWhile isBlank ++ back) ∧ Unled (trimChars front)

instance (front back : List Char) : Decidable (Placed front back) :=
  inferInstanceAs (Decidable (_ ∨ _ ∧ _))

/-- If something stands in front, it is left as it is when the whole is trimmed. -/
theorem exists_trimChars_append {front : List Char} (filled : trimChars front ≠ []) (back : List Char) :
    ∃ t, trimChars (front ++ back) = trimChars front ++ t ∧
      t <+: (trimStart front).rtakeWhile isBlank ++ back := by
  obtain ⟨-, -, -, -, -, first, last⟩ := Text.exists_trimChars front
  generalize rest : (trimStart front).rtakeWhile isBlank ++ back = y
  refine ⟨y.rdropWhile isBlank, ?_, List.rdropWhile_prefix isBlank y⟩
  have halves : front ++ back =
      front.takeWhile isBlank ++ (trimChars front ++ y.rdropWhile isBlank) ++ y.rtakeWhile isBlank := by
    rw [List.append_assoc, List.append_assoc, List.rdropWhile_append_rtakeWhile, ← rest,
      ← List.append_assoc (trimChars front), trimChars, Text.trimEnd_eq, List.rdropWhile_append_rtakeWhile,
      ← List.append_assoc, trimStart, List.takeWhile_append_dropWhile]
  rw [halves]
  refine Text.trimChars_between (fun _ => List.mem_takeWhile_imp) (fun _ => List.mem_rtakeWhile_imp)
    (fun c member => first c (by rwa [List.head?_append_of_ne_nil _ filled] at member)) fun c member => ?_
  by_cases nothing : y.rdropWhile isBlank = []
  · rw [nothing, List.append_nil] at member
    exact last c member
  · rw [List.getLast?_append_of_ne_nil _ nothing, List.getLast?_eq_some_getLast nothing] at member
    cases member
    exact Bool.eq_false_iff.mpr (List.rdropWhile_last_not isBlank y nothing)

/-- The argument of a pseudo-class is read up to a parenthesis outside those it opens, so not before a cut. -/
theorem suffix_of_close {rs : List Relative} {f k u v : List Char} (reads : Reads (.relatives rs) (f ++ k) u)
    (close : skipBlanks u = ')' :: v) (ordinary : Ordinary (f ++ k)) (cut : Cut f k) : u <:+ k := by
  have skipped : skipBlanks u = u := reads.skipBlanks_relatives
  have passes : Passes true (f ++ k) u := passed_of_ordinary reads ordinary
  rcases List.suffix_or_suffix_of_suffix (List.suffix_append f k) passes.suffix with ⟨x, rfl⟩ | behind
  · cases x with
    | nil => exact List.suffix_refl k
    | cons c x =>
      obtain ⟨w, rfl, level⟩ := exists_of_passes passes ordinary
      rw [skipped] at close
      obtain ⟨rfl, -⟩ := List.cons.inj close
      have whole := cut.parens
      rw [depthAfter_append, level (.inl ⟨rfl, rfl⟩)] at whole
      cases whole
  · exact behind

/-- Where the argument of a `:has(…)` can be read, what stands in front of a test in it can be asked. -/
theorem asks_of_argument {item : Item} {s front back : List Char} (reads : Reads item s [])
    (ordinary : Ordinary s) (placed : Placed front back)
    (inside : hasToken ++ orAny (trimChars (front ++ back)) ++ [')'] <:+: s) :
    Asks (orAny (trimChars front)) := by
  by_cases nothing : trimChars front = []
  · rw [nothing]
    exact .inl ⟨_, .last (.complex (.compoundAny (.simplesEnd rfl)) .joins_nil)⟩
  obtain ⟨cut, unled⟩ := placed.resolve_left nothing
  obtain ⟨t, trimmed, rest⟩ := exists_trimChars_append nothing back
  obtain ⟨x, z, whole⟩ := inside
  have call : ':' :: ("has".toList ++ '(' :: (trimChars front ++ (t ++ ')' :: z))) <:+ s := by
    refine ⟨x, ?_⟩
    rw [← whole, trimmed, orAny, if_neg (by simpa using fun none => absurd none nothing)]
    simp [hasToken]
  have argument : Ordinary (trimChars front ++ (t ++ ')' :: z)) :=
    ordinary.of_suffix (List.IsSuffix.trans ⟨':' :: ("has".toList ++ ['(']), by simp⟩ call)
  obtain ⟨rs, u, v, relatives, close⟩ := relatives_of_reads reads ordinary call
  have next : Cut (trimChars front) (t ++ ')' :: z) := { cut with
    next := fun c first => by
      cases t with
      | nil =>
        obtain rfl : ')' = c := Option.some.inj first
        exact ⟨rfl, by decide⟩
      | cons d t =>
        obtain ⟨w, there⟩ := rest
        exact cut.next c (by rwa [← there]) }
  have asks := asks_of_cut relatives argument rfl (suffix_of_close relatives close argument next) next
    nothing unled
  rw [orAny, if_neg (by simpa using nothing)]
  rwa [skipBlanks, ← trimStart, Text.trimStart_trimChars] at asks

end

end NoiseFilter.Extended
