import NoiseFilter.Proofs.Extended.Names
import NoiseFilter.Proofs.Selector.Printer

/-!
# Reading back what has been written

Reading is shown part by part, for any rest that may stand behind the part: the text of the part is
taken off, and the rest remains. What may stand there differs: behind a simple selector no name goes on
(`Stops`), behind a compound nothing that stands in one compound (`Over`), and behind a complex selector
a comma, a closing parenthesis or nothing (`Ends`). A whole text read thereby gives the selector again
(`ofString_text`).
-/

namespace NoiseFilter.Selector

open Extended (escape scanName_append)
open Text (skipBlanks)

/-! ## What stands in front and behind -/

/-- No name goes on here, and no parenthesis opens. -/
def Stops (s : List Char) : Prop := ∀ c ∈ s.head?, isNameChar c = false ∧ c ≠ '('

/-- A compound is over here. -/
structure Over (s : List Char) : Prop where
  stops : Stops s
  none : startsSimple s = false

/-- A simple selector other than a tag begins with one of four characters. -/
theorem exists_simpleText {x : Simple} (noTag : x.isTag = false) :
    ∃ c s, x.text = c :: s ∧ (c = '#' ∨ c = '.' ∨ c = '[' ∨ c = ':') := by
  cases x with
  | universal => cases noTag
  | type name => cases noTag
  | _ => exact ⟨_, _, rfl, by decide⟩

/-- Behind a simple selector the others of its compound may stand. -/
theorem stops_partsText {parts : List Simple} {r : List Char} (formed : WellFormedParts parts)
    (stops : Stops r) : Stops (partsText parts ++ r) := by
  cases parts with
  | nil => exact stops
  | cons x rest =>
    obtain ⟨c, s, there, start⟩ := exists_simpleText formed.1.1
    rw [partsText, there]
    intro d first
    cases first
    rcases start with rfl | rfl | rfl | rfl <;> decide

theorem exists_escapeName {name : String} (filled : name ≠ "") :
    ∃ s, escapeName name = '\\' :: s := by
  obtain ⟨c, rest, there⟩ := List.exists_cons_of_ne_nil (l := name.toList) (by simpa using filled)
  exact ⟨c :: rest.flatMap fun c => ['\\', c], by rw [escapeName, there]; rfl⟩

/-- A compound begins with a character that is no blank and no combinator. -/
theorem exists_compoundText {parts : List Simple} (formed : WellFormedCompound parts) :
    ∃ c s, partsText parts = c :: s ∧ Text.isBlank c = false ∧ combinatorOf c = none := by
  cases parts with
  | nil => exact formed.elim
  | cons x rest =>
    rw [partsText]
    by_cases tag : x.isTag = true
    · cases x with
      | universal => exact ⟨_, _, rfl, by decide⟩
      | type name =>
        obtain ⟨s, there⟩ := exists_escapeName formed.1.1
        exact ⟨'\\', s ++ partsText rest, by rw [Simple.text, there]; rfl, by decide⟩
      | _ => cases tag
    · obtain ⟨c, s, there, start⟩ := exists_simpleText (Bool.eq_false_iff.mpr tag)
      refine ⟨c, s ++ partsText rest, by rw [there]; rfl, ?_⟩
      rcases start with rfl | rfl | rfl | rfl <;> decide

theorem exists_complexText : ∀ {c : Complex}, c.WellFormed →
    ∃ d s, c.text = d :: s ∧ Text.isBlank d = false ∧ combinatorOf d = none
  | .compound _, formed => exists_compoundText formed
  | .join left k parts, formed => by
    obtain ⟨d, s, there, plain⟩ := exists_complexText formed.1
    exact ⟨d, s ++ k.text ++ partsText parts, by rw [Complex.text, there]; rfl, plain⟩

/-! ## Names, values and brackets -/

/-- An escaped name is read whatever its characters are. -/
theorem scanName_escapeName (name : String) {r : List Char}
    (stop : ∀ c ∈ r.head?, isNameChar c = false) :
    scanName (escapeName name ++ r) = some (name.toList, r) := by
  rw [escapeName]
  induction name.toList with
  | nil => exact scanName_append (by simp) stop
  | cons c rest ih =>
    rw [List.flatMap_cons, List.append_assoc]
    show scanName ('\\' :: c :: _) = _
    rw [scanName.eq_def]
    simp [ih]

/-- An escaped value is read up to the quote behind it. -/
theorem scanQuoted_escape (value r : List Char) :
    scanQuoted '"' (escape '"' value ++ '"' :: r) = some (value, r) := by
  induction value with
  | nil => rw [escape, List.flatMap_nil, List.nil_append, scanQuoted.eq_def]; rfl
  | cons c rest ih =>
    by_cases special : c = '"' ∨ c = '\\'
    · rw [Extended.escape_cons_special special, List.cons_append, List.cons_append,
        scanQuoted.eq_def]
      simp [ih]
    · rw [Extended.escape_cons_plain special, List.cons_append, scanQuoted.eq_def]
      simp [not_or.mp special, ih]

theorem yields_operatorText (op : AttributeOperator) (r : List Char) :
    Yields (readOperator (op.text ++ r)) op r := by
  refine yields_readOperator.mpr ?_
  cases op with
  | exact => exact .inl ⟨rfl, rfl⟩
  | _ => exact .inr ⟨_, by decide, rfl, rfl⟩

theorem yields_testText (t : AttributeTest) (r : List Char) :
    Yields (readTest (t.text ++ ']' :: r)) t (']' :: r) := by
  let flag := (if t.ignoreCase then [' ', 'i'] else []) ++ ']' :: r
  have halves : t.text ++ ']' :: r =
      t.operator.text ++ '"' :: (escape '"' t.value.toList ++ '"' :: flag) := by
    simp [AttributeTest.text, flag]
  have read : readFlag (skipBlanks flag) = (t.ignoreCase, ']' :: r) := by
    obtain ⟨operator, value, ignoreCase⟩ := t
    cases ignoreCase <;> rfl
  rw [halves]
  refine yields_readTest.mpr ⟨t.operator, _, t.value.toList, flag, yields_operatorText t.operator _,
    yields_readValue.mpr (.inl ⟨'"', _, .inl rfl, rfl, scanQuoted_escape _ _⟩), read, ?_⟩
  rw [String.ofList_toList]

/-- A comparison begins with a sign. -/
theorem exists_testText (t : AttributeTest) :
    ∃ c s, t.text = c :: s ∧ isNameChar c = false ∧ Text.isBlank c = false ∧ c ≠ ']' := by
  obtain ⟨operator, value, ignoreCase⟩ := t
  cases operator <;> exact ⟨_, _, rfl, by decide⟩

/-- An attribute selector is read from its text, with the bracket behind it. -/
theorem yields_attributeText {a : AttributeSelector} (filled : a.name ≠ "")
    (lowered : Text.Lowered a.name) (r : List Char) :
    Yields (readAttribute (a.text ++ ']' :: r)) a r := by
  obtain ⟨s, there⟩ := exists_escapeName filled
  have front : skipBlanks (a.text ++ ']' :: r) =
      escapeName a.name ++ (a.test.elim [] AttributeTest.text ++ ']' :: r) := by
    rw [AttributeSelector.text, there, List.append_assoc]
    rfl
  have same : a.name = Text.lower (String.ofList a.name.toList) := by
    rw [String.ofList_toList, Text.lowered_iff.mp lowered]
  refine yields_readAttribute.mpr ⟨a.name.toList, _, front ▸ scanName_escapeName a.name ?_,
    by simpa using filled, same, ?_⟩
  · cases a.test with
    | none => exact .inl ⟨rfl, rfl⟩
    | some t =>
      obtain ⟨c, u, begins, -, filled, open_⟩ := exists_testText t
      have still : skipBlanks (t.text ++ ']' :: r) = t.text ++ ']' :: r := by
        rw [begins]
        exact List.dropWhile_cons_of_neg (by simp [filled])
      refine .inr ⟨t, ?_, ?_, rfl⟩
      · rw [Option.elim_some, still, begins]
        exact fun same => open_ (Option.some.inj same)
      · rw [Option.elim_some, still]
        exact yields_testText t r
  · cases a.test with
    | none => exact fun c first => by cases first; rfl
    | some t =>
      obtain ⟨c, u, begins, other, -, -⟩ := exists_testText t
      rw [Option.elim_some, begins]
      exact fun d first => by cases first; exact other

/-! ## The round trip -/

/-- A word that a pseudo-class may be called by: small letters and hyphens. -/
structure Keyword (word : String) : Prop where
  small : Text.lower word = word
  letters : (word.toList.all fun c => isNameChar c && c != '\\') = true

section

variable {word : String} {r : List Char}

theorem Keyword.lower_eq (keyword : Keyword word) :
    Text.lower (String.ofList word.toList) = word := by
  rw [String.ofList_toList, keyword.small]

theorem Keyword.scan (keyword : Keyword word) (stop : ∀ c ∈ r.head?, isNameChar c = false) :
    scanName (word.toList ++ r) = some (word.toList, r) :=
  scanName_append (by simpa using keyword.letters) stop

theorem reads_plain (word : String) {p : Pseudo} (keyword : Keyword word) (known : plainPseudo word = some p)
    (stops : Stops r) : Reads (.pseudo p) (word.toList ++ r) r := by
  refine .pseudoPlain (keyword.scan fun c first => (stops c first).1) ?_
    (by rw [keyword.lower_eq, known])
  rintro t rfl
  exact (stops '(' rfl).2 rfl

theorem callText_append (word : String) (argument r : List Char) :
    callText word argument ++ r = word.toList ++ '(' :: (argument ++ ')' :: r) := by
  simp [callText]

theorem scanName_callText (keyword : Keyword word) (argument r : List Char) :
    scanName (callText word argument ++ r) = some (word.toList, '(' :: (argument ++ ')' :: r)) := by
  rw [callText_append]
  exact keyword.scan fun c first => by cases first; rfl

theorem reads_nth {f : Nth → Pseudo} {e : Nth} (keyword : Keyword word)
    (known : nthPseudo word = some f) (fits : e.Fits) (r : List Char) :
    Reads (.pseudo (f e)) (callText word e.text ++ r) r := by
  have inside : ∀ c ∈ e.text, (c != ')') = true :=
    fun c member => bne_iff_ne.mpr (Nth.plain_of_mem_text member).2.2
  refine .pseudoNth (scanName_callText keyword e.text r) (by rw [keyword.lower_eq, known]) ?_ ?_
  · rw [List.takeWhile_append_of_pos inside, List.takeWhile_cons_of_neg (by decide), List.append_nil]
    exact Nth.ofChars_text fits
  · rw [List.dropWhile_append_of_pos inside, List.dropWhile_cons_of_neg (by decide)]

theorem reads_logical {f : List Complex → Pseudo} {cs : List Complex} (keyword : Keyword word)
    (known : logicalPseudo word = some f)
    (argument : Reads (.list cs) (listText cs ++ ')' :: r) (')' :: r)) :
    Reads (.pseudo (f cs)) (callText word (listText cs) ++ r) r :=
  .pseudoLogical (scanName_callText keyword _ r) (by rw [keyword.lower_eq, known]) argument rfl

end

/-- The text ends here, or a parenthesis closes. -/
def Closes (s : List Char) : Prop := ∀ c ∈ s.head?, c = ')'

section

variable {s t u r : List Char} {c left : Complex} {cs : List Complex} {rs : List Relative}
  {parts : List Simple}

theorem Closes.ends (closes : Closes s) : Ends s := fun d first => .inr (closes d first)

theorem Ends.skipBlanks (ends : Ends s) : skipBlanks s = s := by
  cases s with
  | nil => rfl
  | cons d s =>
    rcases ends d rfl with rfl | rfl <;> exact List.dropWhile_cons_of_neg (by decide)

theorem Closes.noComma (closes : Closes s) (t : List Char) : Text.skipBlanks s ≠ ',' :: t := by
  rw [closes.ends.skipBlanks]
  rintro rfl
  cases closes ',' rfl

/-- Nothing more is joined where a complex selector ends. -/
theorem Reads.joins_here (ends : Ends s) : Reads (.joins c c) s s := by
  have reads : Reads (.joins c c) s (Text.skipBlanks s) := .joinsEnd (ends.skipBlanks.symm ▸ ends)
  rwa [ends.skipBlanks] at reads

/-- In front of a blank or a comma, and where something closes, a compound has ended. -/
theorem over_of_head? (other : ∀ d ∈ s.head?, d = ' ' ∨ d = ',' ∨ d = ')') : Over s := by
  cases s with
  | nil => exact ⟨by simp [Stops], rfl⟩
  | cons d s =>
    constructor
    · rintro _ ⟨rfl⟩
      rcases other d rfl with rfl | rfl | rfl <;> decide
    · rcases other d rfl with rfl | rfl | rfl <;> rfl

theorem over_combinatorText (k : Combinator) (s : List Char) : Over (k.text ++ s) :=
  over_of_head? fun d first => .inl (by cases first; rfl)

theorem Ends.over (ends : Ends s) : Over s := over_of_head? fun d first => .inr (ends d first)

theorem Reads.blank_complex (reads : Reads (.complex c) s r) : Reads (.complex c) (' ' :: s) r := by
  cases reads with
  | complex first joined => exact .complex first joined

theorem Reads.blank_list (reads : Reads (.list cs) s r) : Reads (.list cs) (' ' :: s) r := by
  cases reads with
  | listOne first last => exact .listOne first.blank_complex last
  | listMore first comma more => exact .listMore first.blank_complex comma more

theorem Reads.blank_relatives (reads : Reads (.relatives rs) s r) :
    Reads (.relatives rs) (' ' :: s) r := by
  cases reads with
  | relativesOne first last => exact .relativesOne (s := ' ' :: s) first last
  | relativesMore first comma more => exact .relativesMore (s := ' ' :: s) first comma more

/-- A compound is joined to what is in front of it by the combinator as it is written. -/
theorem reads_joined (k : Combinator) (still : skipBlanks s = s) (right : Reads (.compound parts) s u)
    (joined : Reads (.joins (.join left k parts) c) u r) : Reads (.joins left c) (k.text ++ s) r := by
  have blank : skipBlanks (' ' :: s) = s := still
  cases k with
  | descendant =>
    refine .joinsBlank (s := ' ' :: s) ?_ (blank.symm ▸ right) joined
    rw [blank]
    exact Nat.lt_succ_self _
  | child => exact .joinsSign (s := ' ' :: '>' :: ' ' :: s) rfl rfl (blank.symm ▸ right) joined
  | next => exact .joinsSign (s := ' ' :: '+' :: ' ' :: s) rfl rfl (blank.symm ▸ right) joined
  | subsequent => exact .joinsSign (s := ' ' :: '~' :: ' ' :: s) rfl rfl (blank.symm ▸ right) joined

theorem skipBlanks_append_of_text {d : Char} (there : s = d :: u) (filled : Text.isBlank d = false) :
    skipBlanks (s ++ r) = s ++ r := by
  rw [there]
  exact List.dropWhile_cons_of_neg (by simp [filled])

end

mutual

theorem reads_simpleText : (x : Simple) → x.isTag = false → x.WellFormed → {r : List Char} →
    Stops r → Reads (.simple x) (x.text ++ r) r
  | .id name, _, filled, r, stops => by
    have named : name.toList ≠ [] := by simpa [Simple.WellFormed] using filled
    have reads := Reads.simpleId (scanName_escapeName name fun c first => (stops c first).1) named
    rwa [String.ofList_toList] at reads
  | .cls name, _, filled, r, stops => by
    have named : name.toList ≠ [] := by simpa [Simple.WellFormed] using filled
    have reads := Reads.simpleClass (scanName_escapeName name fun c first => (stops c first).1) named
    rwa [String.ofList_toList] at reads
  | .attribute a, _, formed, r, _ => by
    have reads := Reads.simpleAttribute (yields_attributeText formed.1 formed.2 r)
    rwa [Simple.text, List.append_assoc, List.singleton_append, List.cons_append]
  | .pseudo p, _, formed, r, stops => .simplePseudo (reads_pseudoText p formed stops)

theorem reads_pseudoText : (p : Pseudo) → p.WellFormed → {r : List Char} → Stops r →
    Reads (.pseudo p) (p.text ++ r) r
  | .root, _, r, stops => reads_plain "root" ⟨rfl, rfl⟩ rfl stops
  | .scope, _, r, stops => reads_plain "scope" ⟨rfl, rfl⟩ rfl stops
  | .empty, _, r, stops => reads_plain "empty" ⟨rfl, rfl⟩ rfl stops
  | .firstChild, _, r, stops => reads_plain "first-child" ⟨rfl, rfl⟩ rfl stops
  | .lastChild, _, r, stops => reads_plain "last-child" ⟨rfl, rfl⟩ rfl stops
  | .onlyChild, _, r, stops => reads_plain "only-child" ⟨rfl, rfl⟩ rfl stops
  | .firstOfType, _, r, stops => reads_plain "first-of-type" ⟨rfl, rfl⟩ rfl stops
  | .lastOfType, _, r, stops => reads_plain "last-of-type" ⟨rfl, rfl⟩ rfl stops
  | .onlyOfType, _, r, stops => reads_plain "only-of-type" ⟨rfl, rfl⟩ rfl stops
  | .nthChild e, fits, r, _ => reads_nth ⟨rfl, rfl⟩ rfl fits r
  | .nthLastChild e, fits, r, _ => reads_nth ⟨rfl, rfl⟩ rfl fits r
  | .nthOfType e, fits, r, _ => reads_nth ⟨rfl, rfl⟩ rfl fits r
  | .nthLastOfType e, fits, r, _ => reads_nth ⟨rfl, rfl⟩ rfl fits r
  | .negation cs, formed, r, _ =>
    reads_logical ⟨rfl, rfl⟩ rfl (reads_listText cs formed.1 formed.2 (by simp [Closes]))
  | .oneOf cs, formed, r, _ =>
    reads_logical ⟨rfl, rfl⟩ rfl (reads_listText cs formed.1 formed.2 (by simp [Closes]))
  | .whereOneOf cs, formed, r, _ =>
    reads_logical ⟨rfl, rfl⟩ rfl (reads_listText cs formed.1 formed.2 (by simp [Closes]))
  | .has rs, formed, r, _ =>
    .pseudoHas (scanName_callText ⟨rfl, rfl⟩ _ r) (Keyword.lower_eq ⟨rfl, rfl⟩)
      (reads_relativesText rs formed.1 formed.2 (by simp [Closes])) rfl

theorem reads_partsText : (parts : List Simple) → WellFormedParts parts → {r : List Char} → Over r →
    Reads (.simples parts) (partsText parts ++ r) r
  | [], _, r, behind => .simplesEnd behind.none
  | x :: rest, formed, r, behind => by
    rw [partsText, List.append_assoc]
    exact .simplesMore (reads_simpleText x formed.1.1 formed.1.2 (stops_partsText formed.2 behind.stops))
      (reads_partsText rest formed.2 behind)

theorem reads_compoundText : (parts : List Simple) → WellFormedCompound parts → {r : List Char} →
    Over r → Reads (.compound parts) (partsText parts ++ r) r
  | x :: rest, formed, r, behind => by
    have stops := stops_partsText formed.2 behind.stops
    have more := reads_partsText rest formed.2 behind
    rw [partsText, List.append_assoc]
    by_cases tag : x.isTag = true
    · cases x with
      | universal => exact .compoundAny more
      | type name =>
        obtain ⟨filled, lowered⟩ := formed.1
        obtain ⟨s, there⟩ := exists_escapeName filled
        have scan := scanName_escapeName name fun c first => (stops c first).1
        rw [there] at scan
        have reads := Reads.compoundType (s := s ++ (partsText rest ++ r)) rfl scan more
        rw [String.ofList_toList, Text.lowered_iff.mp lowered, ← List.cons_append, ← there] at reads
        exact reads
      | _ => cases tag
    · exact .compoundSimple (reads_simpleText x (Bool.eq_false_iff.mpr tag) formed.1 stops) more

theorem reads_complexText : (c : Complex) → c.WellFormed → {c' : Complex} → {t r : List Char} →
    Over t → Reads (.joins c c') t r → Reads (.complex c') (c.text ++ t) r
  | .compound parts, formed, c', t, r, behind, joined => by
    obtain ⟨d, s, there, filled, -⟩ := exists_compoundText formed
    have first := reads_compoundText parts formed behind
    rw [Complex.text]
    refine .complex ?_ joined
    rwa [skipBlanks_append_of_text there filled]
  | .join left k parts, formed, c', t, r, behind, joined => by
    obtain ⟨d, s, there, filled, -⟩ := exists_compoundText formed.2
    have right := reads_compoundText parts formed.2 behind
    rw [Complex.text, List.append_assoc, List.append_assoc]
    exact reads_complexText left formed.1 (over_combinatorText k _)
      (reads_joined k (skipBlanks_append_of_text there filled) right joined)

theorem reads_listText : (cs : List Complex) → cs ≠ [] → WellFormedAll cs → {r : List Char} →
    Closes r → Reads (.list cs) (listText cs ++ r) r
  | [], filled, _, _, _ => absurd rfl filled
  | [c], _, formed, r, closes => by
    have reads := reads_complexText c formed.1 closes.ends.over (.joins_here closes.ends)
    have last := Reads.listOne reads closes.noComma
    rwa [closes.ends.skipBlanks] at last
  | c :: c' :: rest, _, formed, r, closes => by
    have more := reads_listText (c' :: rest) (List.cons_ne_nil _ _) formed.2 closes
    have first := reads_complexText c formed.1 (over_of_head? (by simp))
      (.joins_here (s := ',' :: ' ' :: (listText (c' :: rest) ++ r)) (by simp [Ends]))
    rw [listText, List.append_assoc]
    exact .listMore first rfl more.blank_list

theorem reads_relativeText : (x : Relative) → x.WellFormed → {t : List Char} → Ends t →
    ∃ k c u, x = .ofComplex k c ∧ readLead (skipBlanks (x.text ++ t)) = (k, u) ∧
      Reads (.complex c) u t
  | .mk k c, formed, t, ends => by
    obtain ⟨c', rfl⟩ := Complex.exists_fromScope formed.1 formed.2.1
    -- The selector without the subject is no part of this one, but it is smaller.
    have smaller := Complex.sizeOf_fromScope k c'
    have inner := formed.2.2.of_fromScope
    have reads := reads_complexText c' inner ends.over (.joins_here ends)
    have blank := reads.blank_complex
    obtain ⟨d, s, there, filled, other⟩ := exists_complexText inner
    have text : (Relative.mk k (c'.fromScope k)).text = k.lead ++ c'.text := Relative.text_ofComplex k c'
    rw [text]
    cases k with
    | descendant =>
      refine ⟨_, c', c'.text ++ t, rfl, ?_, reads⟩
      rw [Combinator.lead, List.nil_append, skipBlanks_append_of_text there filled, there,
        List.cons_append, readLead, other]
    | child => exact ⟨_, c', _, rfl, rfl, blank⟩
    | next => exact ⟨_, c', _, rfl, rfl, blank⟩
    | subsequent => exact ⟨_, c', _, rfl, rfl, blank⟩

theorem reads_relativesText : (rs : List Relative) → rs ≠ [] → WellFormedRelatives rs →
    {r : List Char} → Closes r → Reads (.relatives rs) (relativesText rs ++ r) r
  | [], filled, _, _, _ => absurd rfl filled
  | [x], _, formed, r, closes => by
    obtain ⟨k, c, u, same, lead, reads⟩ := reads_relativeText x formed.1 closes.ends
    have last := Reads.relativesOne (s := x.text ++ r) (by rw [lead]; exact reads) closes.noComma
    rwa [lead, ← same, closes.ends.skipBlanks] at last
  | x :: x' :: rest, _, formed, r, closes => by
    have more := reads_relativesText (x' :: rest) (List.cons_ne_nil _ _) formed.2 closes
    obtain ⟨k, c, u, same, lead, reads⟩ := reads_relativeText x formed.1
      (t := ',' :: ' ' :: (relativesText (x' :: rest) ++ r)) (by simp [Ends])
    rw [relativesText, List.append_assoc, List.cons_append, List.cons_append]
    have all := Reads.relativesMore (by rw [lead]; exact reads) rfl more.blank_relatives
    rwa [lead, ← same] at all

end

/-- Whatever is read as a selector is well-formed; and every well-formed selector is read from its
canonical text, exactly as it is. -/
theorem ofString_text : (∀ s x, ofString s = .ok x → x.WellFormed) ∧
    ∀ x : Selector, x.WellFormed → ofString x.text = .ok x := by
  constructor
  · intro s x read
    exact (ofChars_eq_ok_iff.mp read).wellFormed
  · intro x formed
    have reads := reads_listText x.alternatives formed.1 formed.2 (r := []) (by simp [Closes])
    rw [List.append_nil] at reads
    rw [ofString, text, String.toList_ofList]
    exact ofChars_eq_ok_iff.mpr reads

/-- Two alternatives with an argument of `:has`, an index, and a value that ignores case. -/
def writtenSelector : Selector :=
  ⟨[.join (.compound [.type "é b", .pseudo (.has [.ofComplex .next (.compound [.id "#"])])]) .child
      [.universal, .attribute ⟨"x", some ⟨.start, "a\"\\", true⟩⟩],
    .compound [.pseudo (.nthChild ⟨-2147483648, 2147483647⟩),
      .pseudo (.negation [.compound [.cls ":"]])]]⟩

/-- It is well-formed, so it is read from its text; and what has been read is well-formed. -/
theorem ofString_text_writtenSelector : writtenSelector.WellFormed ∧
    ofString writtenSelector.text = .ok writtenSelector := by
  have lowered : Text.Lowered "é b" ∧ Text.Lowered "x" :=
    ⟨Text.lowered_iff.mpr rfl, Text.lowered_iff.mpr rfl⟩
  have fits : Nth.Fits ⟨-2147483648, 2147483647⟩ := ⟨by decide, by decide⟩
  have beside : (Relative.ofComplex .next (.compound [.id "#"])).WellFormed :=
    Complex.WellFormed.ofComplex .next (c := .compound [.id "#"]) ⟨by simp [Simple.WellFormed], trivial⟩
  have formed : writtenSelector.WellFormed := by
    simp [writtenSelector, Selector.WellFormed, WellFormedAll, Complex.WellFormed, WellFormedCompound,
      WellFormedParts, Simple.isTag, Simple.WellFormed, Pseudo.WellFormed, WellFormedRelatives,
      beside, lowered, fits]
  have read := ofString_text.2 writtenSelector formed
  exact ⟨ofString_text.1 _ _ read, read⟩

end NoiseFilter.Selector
