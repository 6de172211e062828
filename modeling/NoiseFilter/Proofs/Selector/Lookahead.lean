import NoiseFilter.Proofs.Extended.Respaced

/-!
# Looking ahead

A reader of selectors looks no further than one character ahead: what it reads in front of a rest it
reads in front of any other that begins with the same character, and at the end of the text
(`Reads.lookahead`).
-/

namespace NoiseFilter.Selector

open Extended (exists_skipBlanks skipBlanks_append skipBlanks_of_head? isBlank_head?_skipBlanks
  scanName_stop scanDelimited_of_scanQuoted eq_of_scanDelimited)
open Text (isBlank skipBlanks)

/-- One rest may stand for another: it is empty, or begins with the same character. -/
def Stands (r' r : List Char) : Prop := r' = [] ∨ r'.head? = r.head?

/-- `reads` holds of a text and its rest, and stays true in front of any rest that stands for it. -/
def Lookahead (reads : List Char → List Char → Prop) (s r : List Char) : Prop :=
  ∃ w, s = w ++ r ∧ ∀ r', Stands r' r → reads (w ++ r') r'

section

variable {s t r r' name : List Char} {p q : List Char → List Char → Prop}

namespace Stands

theorem head? (stands : Stands r' r) : ∀ c ∈ r'.head?, c ∈ r.head? := by
  rcases stands with rfl | same
  · simp
  · rw [same]
    exact fun _ first => first

theorem eq_nil (stands : Stands r' []) : r' = [] := by
  rcases stands with rfl | same
  · rfl
  · exact List.head?_eq_none_iff.mp same

theorem append (b : List Char) (stands : Stands r' r) : Stands (b ++ r') (b ++ r) := by
  cases b with
  | nil => exact stands
  | cons c b => exact .inr rfl

theorem of_front (front : r' <+: r) : Stands r' r := by
  obtain ⟨t, rfl⟩ := front
  cases r' with
  | nil => exact .inl rfl
  | cons c r' => exact .inr rfl

end Stands

namespace Lookahead

theorem refl (always : ∀ r', Stands r' r → p r' r') : Lookahead p r r := ⟨[], rfl, always⟩

theorem cons (c : Char) (t : List Char) : Lookahead (fun s t => s = c :: t) (c :: t) t :=
  ⟨[c], rfl, fun _ _ => rfl⟩

theorem followed (front : Lookahead p s t) (back : Lookahead q t r) :
    Lookahead (fun s r => ∃ t, p s t ∧ q t r) s r := by
  obtain ⟨w, rfl, here⟩ := front
  obtain ⟨v, rfl, there⟩ := back
  refine ⟨w ++ v, (List.append_assoc ..).symm, fun r' stands => ⟨v ++ r', ?_, there r' stands⟩⟩
  rw [List.append_assoc]
  exact here _ (stands.append v)

theorem imp (looks : Lookahead p s r) (implies : ∀ s r', Stands r' r → p s r' → q s r') :
    Lookahead q s r := by
  obtain ⟨w, rfl, here⟩ := looks
  exact ⟨w, rfl, fun r' stands => implies _ r' stands (here r' stands)⟩

theorem suffix (looks : Lookahead p s r) : r <:+ s := by
  obtain ⟨w, rfl, -⟩ := looks
  exact List.suffix_append w r

/-- What stops inside a text stops there if only a rest is missing behind it. -/
theorem cut {f k : List Char} (looks : Lookahead p (f ++ k) (t ++ k)) : p f t := by
  obtain ⟨w, halves, here⟩ := looks
  obtain rfl : f = w ++ t := List.append_cancel_right (by rw [halves, List.append_assoc])
  exact here t (.of_front (List.prefix_append t k))

/-- Blanks in front are skipped as far as before. -/
theorem skipBlanks (s : List Char) : Lookahead (fun s t => skipBlanks s = t) s (skipBlanks s) := by
  obtain ⟨b, blank, halves⟩ := exists_skipBlanks s
  refine ⟨b, halves, fun r' stands => (skipBlanks_append blank r').trans ?_⟩
  exact skipBlanks_of_head? fun c first => isBlank_head?_skipBlanks s c (stands.head? c first)

theorem skips (there : Text.skipBlanks s = t) : Lookahead (fun s t => Text.skipBlanks s = t) s t :=
  there ▸ skipBlanks s

/-- Some blanks are skipped where some were. -/
theorem skipsSome (blank : (Text.skipBlanks s).length < s.length) :
    Lookahead (fun s t => Text.skipBlanks s = t ∧ t.length < s.length) s (Text.skipBlanks s) := by
  obtain ⟨w, halves, skipped⟩ := skipBlanks s
  have some : 0 < w.length := by
    have := congrArg List.length halves
    rw [List.length_append] at this
    omega
  exact ⟨w, halves, fun r' stands => ⟨skipped r' stands, by simpa using some⟩⟩

theorem scanName (scan : scanName s = some (name, r)) :
    Lookahead (fun s r => scanName s = some (name, r)) s r := by
  fun_induction Selector.scanName s generalizing name r with
  | case1 =>
    cases scan
    exact refl fun r' stands => scanName_stop fun c first => absurd (stands.head? c first) (by simp)
  | case2 => cases scan
  | case3 d rest ih =>
    obtain ⟨⟨inner, u⟩, found, same⟩ := Option.map_eq_some_iff.mp scan
    cases same
    obtain ⟨w, rfl, again⟩ := ih found
    refine ⟨'\\' :: d :: w, rfl, fun r' stands => ?_⟩
    have inner := again r' stands
    dsimp only at inner ⊢
    rw [List.cons_append, List.cons_append, scanName.eq_def]
    simp [inner]
  | case4 c rest notEscape char ih =>
    obtain ⟨⟨inner, u⟩, found, same⟩ := Option.map_eq_some_iff.mp scan
    cases same
    obtain ⟨w, rfl, again⟩ := ih found
    refine ⟨c :: w, rfl, fun r' stands => ?_⟩
    have inner := again r' stands
    dsimp only at inner ⊢
    rw [List.cons_append, scanName.eq_def]
    simp [notEscape, char, inner]
  | case5 c rest notEscape notChar =>
    cases scan
    refine refl fun r' stands => scanName_stop fun d first => ?_
    obtain rfl : c = d := by simpa using stands.head? d first
    simpa using notChar

/-- A name that begins with a character still begins with it. -/
theorem scanTag {c : Char} (start : isNameStart c = true) (scan : Selector.scanName (c :: s) = some (name, r)) :
    Lookahead (fun u r => ∃ s, u = c :: s ∧ Selector.scanName u = some (name, r)) (c :: s) r := by
  obtain ⟨w, halves, again⟩ := scanName scan
  cases w with
  | nil =>
    have filled := List.length_pos_iff.mpr (scanName_ne_nil start scan)
    have size := length_le_of_scanName scan
    rw [halves, List.nil_append] at size
    omega
  | cons d w =>
    obtain ⟨rfl, -⟩ := List.cons.inj halves
    exact ⟨c :: w, halves, fun r' stands => ⟨w ++ r', rfl, again r' stands⟩⟩

theorem readLead (s : List Char) :
    Lookahead (fun t r => readLead t = ((readLead s).1, r)) s (readLead s).2 := by
  cases s with
  | nil =>
    refine refl fun r' stands => ?_
    rw [stands.eq_nil]
    rfl
  | cons c s =>
    cases means : combinatorOf c with
    | none =>
      have lead {t : List Char} : Selector.readLead (c :: t) = (.descendant, c :: t) := by
        rw [Selector.readLead, means]
      rw [lead]
      refine refl fun r' stands => ?_
      cases r' with
      | nil => rfl
      | cons d r' =>
        obtain rfl : c = d := by simpa using stands.head? d rfl
        exact lead
    | some k =>
      have lead {t : List Char} : Selector.readLead (c :: t) = (k, t) := by
        rw [Selector.readLead, means]
      rw [lead]
      exact ⟨[c], rfl, fun r' _ => lead⟩

theorem takeNth {e : Nth} (argument : Nth.ofChars (s.takeWhile (· != ')')) = some e)
    (close : s.dropWhile (· != ')') = ')' :: r) : Lookahead (fun s r =>
      Nth.ofChars (s.takeWhile (· != ')')) = some e ∧ s.dropWhile (· != ')') = ')' :: r) s r := by
  have front : ∀ c ∈ s.takeWhile (· != ')'), (c != ')') = true := fun _ => List.mem_takeWhile_imp
  refine ⟨s.takeWhile (· != ')') ++ [')'], ?_, fun r' _ => ⟨?_, ?_⟩⟩
  · rw [List.append_assoc, List.singleton_append, ← close, List.takeWhile_append_dropWhile]
  · rw [List.append_assoc, List.takeWhile_append_of_pos front]
    simpa using argument
  · rw [List.append_assoc, List.dropWhile_append_of_pos front]
    rfl

/-! ## Brackets -/

theorem readOperator {op : AttributeOperator} (read : Yields (readOperator s) op r) :
    Lookahead (fun s r => Yields (readOperator s) op r) s r := by
  rcases yields_readOperator.mp read with ⟨rfl, same⟩ | ⟨c, other, means, rfl⟩
  · exact ⟨['='], rfl, fun r' _ => yields_readOperator.mpr (.inl ⟨rfl, same⟩)⟩
  · exact ⟨[c, '='], rfl, fun r' _ => yields_readOperator.mpr (.inr ⟨c, other, means, rfl⟩)⟩

theorem readValue {value : List Char} (read : Yields (readValue s) value r) :
    Lookahead (fun s r => Yields (readValue s) value r) s r := by
  rcases yields_readValue.mp read with ⟨q, t, quote, rfl, scan⟩ | ⟨filled, rfl, rfl⟩
  · obtain ⟨body, passed, again⟩ := scanDelimited_of_scanQuoted scan
    refine ⟨q :: (body ++ [q]), by simp [eq_of_scanDelimited passed], fun r' _ => ?_⟩
    exact yields_readValue.mpr (.inl ⟨q, body ++ q :: r', quote, by simp, again r'⟩)
  · refine ⟨s.takeWhile isNameChar, List.takeWhile_append_dropWhile.symm, fun r' stands => ?_⟩
    have letters : ∀ c ∈ s.takeWhile isNameChar, isNameChar c = true := fun _ => List.mem_takeWhile_imp
    have stop : ∀ c ∈ r'.head?, ¬ isNameChar c = true := fun c first => by
      obtain ⟨t, there⟩ := List.head?_eq_some_iff.mp (stands.head? c first)
      have := List.head_dropWhile_not (p := isNameChar) (l := s) (by simp [there])
      simpa [there] using this
    have nothing : r'.takeWhile isNameChar = [] ∧ r'.dropWhile isNameChar = r' := by
      cases r' with
      | nil => exact ⟨rfl, rfl⟩
      | cons c r' =>
        exact ⟨List.takeWhile_cons_of_neg (stop c rfl), List.dropWhile_cons_of_neg (stop c rfl)⟩
    refine yields_readValue.mpr (.inr ⟨filled, ?_, ?_⟩)
    · rw [List.takeWhile_append_of_pos letters, nothing.1, List.append_nil]
    · rw [List.dropWhile_append_of_pos letters, nothing.2]

theorem readFlag {ignore : Bool} (read : readFlag s = (ignore, r)) :
    Lookahead (fun s r => readFlag s = (ignore, r)) s r := by
  unfold Selector.readFlag at read
  split at read
  · obtain ⟨rfl, rfl⟩ := Prod.mk.inj read
    exact refl fun r' stands => stands.eq_nil ▸ rfl
  · next c rest =>
    split at read
    · next flag =>
      obtain ⟨rfl, rfl⟩ := Prod.mk.inj read
      refine ((cons c rest).followed (skipBlanks rest)).imp ?_
      rintro _ r' _ ⟨t, rfl, skipped⟩
      rw [Selector.readFlag, if_pos flag, skipped]
    · next notFlag =>
      split at read
      · next flag =>
        obtain ⟨rfl, rfl⟩ := Prod.mk.inj read
        refine ((cons c rest).followed (skipBlanks rest)).imp ?_
        rintro _ r' _ ⟨t, rfl, skipped⟩
        rw [Selector.readFlag, if_neg notFlag, if_pos flag, skipped]
      · next notFlag' =>
        obtain ⟨rfl, rfl⟩ := Prod.mk.inj read
        refine refl fun r' stands => ?_
        cases r' with
        | nil => rfl
        | cons d r' =>
          obtain rfl : c = d := by simpa using stands.head? d rfl
          rw [Selector.readFlag, if_neg notFlag, if_neg notFlag']

theorem readTest {test : AttributeTest} (read : Yields (readTest s) test r) :
    Lookahead (fun s r => Yields (readTest s) test r) s r := by
  obtain ⟨op, t, value, u, operator, operand, flag, same⟩ := yields_readTest.mp read
  refine ((readOperator operator).followed <| (skipBlanks t).followed <|
    (readValue operand).followed <| (skipBlanks u).followed (readFlag flag)).imp ?_
  rintro s r' _ ⟨t, operator, _, rfl, u, operand, _, rfl, flag⟩
  exact yields_readTest.mpr ⟨op, t, value, u, operator, operand, flag, same⟩

theorem readAttribute {a : AttributeSelector} (read : Yields (readAttribute s) a r) :
    Lookahead (fun s r => Yields (readAttribute s) a r) s r := by
  obtain ⟨name, t, scan, filled, lowered, rest⟩ := yields_readAttribute.mp read
  have named := (skipBlanks s).followed (scanName scan)
  rcases rest with ⟨closed, none⟩ | ⟨test, other, read, some⟩
  · refine (named.followed ((skips closed).followed (cons ']' r))).imp ?_
    rintro s r' _ ⟨t, ⟨_, rfl, scan⟩, _, closed, rfl⟩
    exact yields_readAttribute.mpr ⟨name, t, scan, filled, lowered, .inl ⟨closed, none⟩⟩
  · refine (named.followed ((skipBlanks t).followed ((readTest read).followed (cons ']' r)))).imp ?_
    rintro s r' _ ⟨t, ⟨_, rfl, scan⟩, _, rfl, _, read, rfl⟩
    refine yields_readAttribute.mpr ⟨name, t, scan, filled, lowered, .inr ⟨test, ?_, read, some⟩⟩
    obtain ⟨op, _, _, _, operator, -⟩ := yields_readTest.mp read
    rcases yields_readOperator.mp operator with ⟨there, -⟩ | ⟨c, -, means, there⟩
    · simp [there]
    · rw [there]
      rintro closed
      obtain rfl := Option.some.inj closed
      cases means

end Lookahead

end

/-! ## Selectors -/

/-- What is read as an item is read in front of any rest that stands for what remains. -/
theorem Reads.lookahead {item : Item} {s r : List Char} (reads : Reads item s r) :
    Lookahead (Reads item) s r := by
  have noComma {r r' : List Char} (last : ∀ u, r ≠ ',' :: u) (stands : Stands r' r) :
      ∀ u, r' ≠ ',' :: u := by
    rintro u rfl
    obtain ⟨v, there⟩ := List.head?_eq_some_iff.mp (stands.head? ',' rfl)
    exact last v there
  induction reads with
  | @listOne s t c first last ih =>
    refine (ih.followed (.skipBlanks t)).imp ?_
    rintro s _ stands ⟨t, first, rfl⟩
    exact .listOne first (noComma last stands)
  | @listMore s t u r c cs first comma more ih ihMore =>
    refine (ih.followed <| (Lookahead.skips comma).followed <| (Lookahead.cons ',' u).followed ihMore).imp ?_
    rintro s r' _ ⟨t, first, _, comma, u, rfl, more⟩
    exact .listMore first comma more
  | @complex s t r parts c first joined ih ihJoined =>
    refine ((Lookahead.skipBlanks s).followed (ih.followed ihJoined)).imp ?_
    rintro s r' _ ⟨_, rfl, t, first, joined⟩
    exact .complex first joined
  | @joinsEnd s left ends =>
    refine (Lookahead.skipBlanks s).imp ?_
    rintro s _ stands rfl
    exact .joinsEnd fun c first => ends c (stands.head? c first)
  | @joinsSign s t u r left c sign k parts there means right joined ih ihJoined =>
    refine ((Lookahead.skips there).followed <| (Lookahead.cons sign t).followed <|
      (Lookahead.skipBlanks t).followed <| ih.followed ihJoined).imp ?_
    rintro s r' _ ⟨_, there, t, rfl, _, rfl, u, right, joined⟩
    exact .joinsSign there means right joined
  | @joinsBlank s u r left c parts blank right joined ih ihJoined =>
    refine ((Lookahead.skipsSome blank).followed (ih.followed ihJoined)).imp ?_
    rintro s r' _ ⟨_, ⟨rfl, blank⟩, u, right, joined⟩
    exact .joinsBlank blank right joined
  | compoundAny more ih =>
    refine ((Lookahead.cons '*' _).followed ih).imp ?_
    rintro _ r' _ ⟨s, rfl, more⟩
    exact .compoundAny more
  | @compoundType s t r name c parts start tag more ih =>
    refine ((Lookahead.scanTag start tag).followed ih).imp ?_
    rintro _ r' _ ⟨t, ⟨s, rfl, tag⟩, more⟩
    exact .compoundType start tag more
  | compoundSimple first more ih ihMore =>
    refine (ih.followed ihMore).imp ?_
    rintro s r' _ ⟨t, first, more⟩
    exact .compoundSimple first more
  | @simplesEnd s stop =>
    refine .refl fun r' stands => .simplesEnd ?_
    cases r' with
    | nil => rfl
    | cons c r' =>
      obtain ⟨t, rfl⟩ := List.head?_eq_some_iff.mp (stands.head? c rfl)
      exact stop
  | simplesMore first more ih ihMore =>
    refine (ih.followed ihMore).imp ?_
    rintro s r' _ ⟨t, first, more⟩
    exact .simplesMore first more
  | simpleId scan filled =>
    refine ((Lookahead.cons '#' _).followed (.scanName scan)).imp ?_
    rintro _ r' _ ⟨s, rfl, scan⟩
    exact .simpleId scan filled
  | simpleClass scan filled =>
    refine ((Lookahead.cons '.' _).followed (.scanName scan)).imp ?_
    rintro _ r' _ ⟨s, rfl, scan⟩
    exact .simpleClass scan filled
  | simpleAttribute read =>
    refine ((Lookahead.cons '[' _).followed (.readAttribute read)).imp ?_
    rintro _ r' _ ⟨s, rfl, read⟩
    exact .simpleAttribute read
  | simplePseudo _ ih =>
    refine ((Lookahead.cons ':' _).followed ih).imp ?_
    rintro _ r' _ ⟨s, rfl, read⟩
    exact .simplePseudo read
  | @pseudoPlain s r name p scan closed known =>
    refine (Lookahead.scanName scan).imp fun s r' stands scan => .pseudoPlain scan ?_ known
    rintro t rfl
    obtain ⟨v, there⟩ := List.head?_eq_some_iff.mp (stands.head? '(' rfl)
    exact closed v there
  | @pseudoLogical s t u r name f cs scan known argument close ih =>
    refine ((Lookahead.scanName scan).followed <| (Lookahead.cons '(' t).followed <| ih.followed <|
      (Lookahead.skips close).followed (.cons ')' r)).imp ?_
    rintro s r' _ ⟨_, scan, t, rfl, u, argument, _, close, rfl⟩
    exact .pseudoLogical scan known argument close
  | @pseudoNth s t r name f e scan known argument close =>
    refine ((Lookahead.scanName scan).followed <| (Lookahead.cons '(' t).followed <|
      .takeNth argument close).imp ?_
    rintro s r' _ ⟨_, scan, t, rfl, argument, close⟩
    exact .pseudoNth scan known argument close
  | @pseudoHas s t u r name rs scan known argument close ih =>
    refine ((Lookahead.scanName scan).followed <| (Lookahead.cons '(' t).followed <| ih.followed <|
      (Lookahead.skips close).followed (.cons ')' r)).imp ?_
    rintro s r' _ ⟨_, scan, t, rfl, u, argument, _, close, rfl⟩
    exact .pseudoHas scan known argument close
  | @relativesOne s t c first last ih =>
    refine ((Lookahead.skipBlanks s).followed <| (Lookahead.readLead _).followed <|
      ih.followed (.skipBlanks t)).imp ?_
    rintro s' _ stands ⟨_, rfl, v, lead, t, first, rfl⟩
    have one := Reads.relativesOne (s := s') (by rwa [lead]) (noComma last stands)
    rwa [lead] at one
  | @relativesMore s t u r c rs first comma more ih ihMore =>
    refine ((Lookahead.skipBlanks s).followed <| (Lookahead.readLead _).followed <|
      ih.followed <| (Lookahead.skips comma).followed <| (Lookahead.cons ',' u).followed ihMore).imp ?_
    rintro s' r' _ ⟨_, rfl, v, lead, t, first, _, comma, u, rfl, more⟩
    have all := Reads.relativesMore (s := s') (by rwa [lead]) comma more
    rwa [lead] at all

end NoiseFilter.Selector
