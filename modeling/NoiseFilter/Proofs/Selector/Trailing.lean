import NoiseFilter.Proofs.Extended.Cut

/-!
# Blanks behind a selector

Blanks behind a complex selector are skipped, and the selector is the same without them
(`Reads.exists_front`). They are not skipped where a name goes on into them: blanks beyond ASCII are
characters for names (`runsOn`).
-/

namespace NoiseFilter.Selector

open Extended (exists_scanName_of_unescaped suffix_skipBlanks suffix_of_scanName isBlank_head?_skipBlanks)
open Text (isBlank skipBlanks)

/-! ## Ends of texts -/

/-- Whether a name may go on behind a character. -/
def leadsName (c : Char) : Bool := isNameChar c || "#.:".toList.contains c

/-- Whether a name goes on into the blanks at the end of a text. -/
def runsOn (s : List Char) : Bool :=
  (s.rdropWhile isBlank).getLast?.any leadsName && (s.rtakeWhile isBlank).head?.any isNameChar

/-- A text runs on into the blanks at its end, if it has any. -/
def Firm (w : List Char) : Prop := ∀ d c b, d :: c :: b <:+ w → isBlank d = false →
  (∀ x ∈ c :: b, isBlank x = true) → leadsName d = true ∧ isNameChar c = true

/-- Not all of a text is blank. -/
def Solid (w : List Char) : Prop := ∃ c ∈ w, isBlank c = false

section

variable {c d : Char} {s t r u v w b name : List Char} {item : Item}

theorem leadsName_of_isNameChar (char : isNameChar c = true) : leadsName c = true := by
  rw [leadsName, char, Bool.true_or]

theorem runsOn_eq_true (ends : d :: c :: b <:+ s) (notBlank : isBlank d = false)
    (blank : ∀ x ∈ c :: b, isBlank x = true) (leads : leadsName d = true) (char : isNameChar c = true) :
    runsOn s = true := by
  obtain ⟨u, rfl⟩ := ends
  have dropped : (u ++ d :: c :: b).rdropWhile isBlank = u ++ [d] := by
    rw [List.append_cons, List.rdropWhile, List.reverse_append, List.dropWhile_append_of_pos
      (by simpa [or_comm] using blank), ← List.rdropWhile,
      List.rdropWhile_concat_neg _ _ _ (by simp [notBlank])]
  have taken : (u ++ d :: c :: b).rtakeWhile isBlank = c :: b := by
    have halves := List.rdropWhile_append_rtakeWhile (p := isBlank) (l := u ++ d :: c :: b)
    rw [dropped] at halves
    exact List.append_cancel_left (halves.trans (List.append_cons ..))
  rw [runsOn, dropped, taken, List.getLast?_concat]
  simp [leads, char]

/-- What is solid and ends in a blank has a last character that is not blank. -/
theorem Solid.exists_end (solid : Solid w) (blank : ∀ c ∈ w.getLast?, isBlank c = true) :
    ∃ d c b, d :: c :: b <:+ w ∧ isBlank d = false ∧ ∀ x ∈ c :: b, isBlank x = true := by
  obtain ⟨x, member, notBlank⟩ := solid
  have halves := List.rdropWhile_append_rtakeWhile (p := isBlank) (l := w)
  have front : w.rdropWhile isBlank ≠ [] := by
    intro nothing
    rw [List.rdropWhile_eq_nil_iff.mp nothing x member] at notBlank
    cases notBlank
  have back : w.rtakeWhile isBlank ≠ [] := by
    intro nothing
    have nonempty := List.ne_nil_of_mem member
    have last := List.rtakeWhile_eq_nil_iff.mp nothing nonempty
    exact last (blank _ (List.getLast?_eq_some_getLast nonempty))
  have last := List.rdropWhile_last_not isBlank w front
  rw [← List.dropLast_append_getLast front, List.append_assoc, List.singleton_append] at halves
  obtain ⟨c, b, there⟩ := List.exists_cons_of_ne_nil back
  rw [there] at halves
  exact ⟨_, c, b, ⟨_, halves⟩, Bool.eq_false_iff.mpr last, fun x member =>
    List.mem_rtakeWhile_imp (there ▸ member)⟩

/-- A firm text that does not run on ends in what is not blank. -/
theorem Firm.getLast?_eq (firm : Firm w) (solid : Solid w) (blank : ∀ c ∈ t, isBlank c = true)
    (suffix : w ++ t <:+ s) (stops : runsOn s = false) : ∀ c ∈ w.getLast?, isBlank c = false := by
  intro e last
  refine Bool.eq_false_iff.mpr fun blank' => ?_
  obtain ⟨d, c, b, ⟨u, rfl⟩, notBlank, blanks⟩ := solid.exists_end fun x same =>
    Option.some.inj (last.symm.trans same) ▸ blank'
  obtain ⟨leads, char⟩ := firm d c b (List.suffix_append _ _) notBlank blanks
  have runs := runsOn_eq_true (s := s) (d := d) (c := c) (b := b ++ t)
    (List.IsSuffix.trans ⟨u, by simp⟩ suffix) notBlank (fun x member => ?_) leads char
  · rw [stops] at runs
    cases runs
  · rcases List.mem_append.mp (List.cons_append ▸ member : x ∈ (c :: b) ++ t) with member | member
    · exact blanks x member
    · exact blank x member

namespace Firm

theorem nil : Firm [] := fun _ _ _ suffix => by cases List.suffix_nil.mp suffix

/-- What is solid and firm may stand behind anything. -/
theorem behind (solid : Solid v) (firm : Firm v) (u : List Char) : Firm (u ++ v) := by
  intro d c b suffix notBlank blank
  obtain ⟨x, member, notBlank'⟩ := solid
  rcases List.suffix_or_suffix_of_suffix suffix (List.suffix_append u v) with inside | outside
  · exact firm d c b inside notBlank blank
  · rcases List.suffix_cons_iff.mp outside with rfl | outside
    · exact firm d c b (List.suffix_refl _) notBlank blank
    · rw [blank x (outside.subset member)] at notBlank'
      cases notBlank'

theorem concat (notBlank : isBlank c = false) (w : List Char) : Firm (w ++ [c]) :=
  behind ⟨c, List.mem_singleton.mpr rfl, notBlank⟩ (fun d c b suffix => by
    have short := suffix.length_le
    simp at short) w

/-- A name is firm, with the sign in front of it. -/
theorem names (leads : leadsName c = true) (letters : ∀ x ∈ w, isNameChar x = true) : Firm (c :: w) := by
  intro d e b suffix _ _
  have first : leadsName d = true := by
    rcases List.mem_cons.mp (suffix.subset List.mem_cons_self) with rfl | member
    · exact leads
    · exact leadsName_of_isNameChar (letters d member)
  rcases List.suffix_cons_iff.mp suffix with same | inside
  · obtain ⟨-, rfl⟩ := List.cons.inj same
    exact ⟨first, letters e List.mem_cons_self⟩
  · exact ⟨first, letters e (inside.subset (by simp))⟩

end Firm

/-! ## Parts of selectors -/

/-- What stands between a text and its rest is firm. -/
def Tight (s r : List Char) : Prop := ∃ w, s = w ++ r ∧ Firm w

namespace Tight

theorem refl : Tight s s := ⟨[], rfl, .nil⟩

/-- What follows begins with something that is not blank, if there is anything. -/
theorem trans (front : Tight s t) (back : Tight t r)
    (start : t = r ∨ ∀ c ∈ t.head?, isBlank c = false) : Tight s r := by
  obtain ⟨u, rfl, firm⟩ := front
  obtain ⟨v, rfl, firm'⟩ := back
  match v with
  | [] => exact ⟨u, rfl, firm⟩
  | c :: v =>
    have notBlank : isBlank c = false := by
      rcases start with same | start
      · exact absurd (List.append_left_eq_self.mp same) (List.cons_ne_nil _ _)
      · exact start c rfl
    exact ⟨u ++ c :: v, by simp, firm'.behind ⟨c, List.mem_cons_self, notBlank⟩ u⟩

theorem of_last (suffix : c :: r <:+ s) (notBlank : isBlank c = false) : Tight s r := by
  obtain ⟨w, rfl⟩ := suffix
  exact ⟨w ++ [c], by simp, .concat notBlank w⟩

/-- A name behind a sign. -/
theorem sign (leads : leadsName c = true) (scan : scanName s = some (name, r)) (unescaped : '\\' ∉ s) :
    Tight (c :: s) r := by
  obtain ⟨w, rfl, letters⟩ := exists_scanName_of_unescaped scan unescaped
  exact ⟨c :: w, rfl, .names leads letters⟩

theorem scanName (scan : scanName s = some (name, r)) (unescaped : '\\' ∉ s) : Tight s r := by
  obtain ⟨w, rfl, letters⟩ := exists_scanName_of_unescaped scan unescaped
  match w with
  | [] => exact refl
  | c :: w =>
    rw [List.forall_mem_cons] at letters
    exact ⟨c :: w, rfl, .names (leadsName_of_isNameChar letters.1) letters.2⟩

end Tight

/-- An attribute selector ends in its bracket. -/
theorem close_of_readAttribute {a : AttributeSelector} (read : Yields (readAttribute s) a r) :
    ']' :: r <:+ s := by
  obtain ⟨name, t, scan, -, -, rest⟩ := yields_readAttribute.mp read
  have behind := (suffix_skipBlanks t).trans ((suffix_of_scanName scan).trans (suffix_skipBlanks s))
  rcases rest with ⟨closed, -⟩ | ⟨test, -, read, -⟩
  · exact closed ▸ behind
  · exact (Lookahead.readTest read).suffix.trans behind

/-- What a reader for a part of a compound leaves, it leaves behind something firm. -/
def Item.TightTo (s r : List Char) : Item → Prop
  | .compound _ | .simples _ | .simple _ => Tight s r
  | .pseudo _ => Tight (':' :: s) r
  | .list _ | .complex _ | .joins _ _ | .relatives _ => True

/-- Simple selectors begin with a sign, if there are any. -/
theorem Reads.head?_simples {parts : List Simple} (reads : Reads (.simples parts) s r) :
    s = r ∨ ∀ c ∈ s.head?, isBlank c = false := by
  cases reads with
  | simplesEnd => exact .inl rfl
  | simplesMore first =>
    obtain ⟨c, t, rfl, start⟩ := first.startsSimple
    right
    rintro d same
    obtain rfl := Option.some.inj same
    rcases start with rfl | rfl | rfl | rfl <;> decide

theorem unescaped_of_suffix (unescaped : '\\' ∉ s) (suffix : t <:+ s) : '\\' ∉ t :=
  fun member => unescaped (suffix.subset member)

theorem Reads.tightTo (reads : Reads item s r) (unescaped : '\\' ∉ s) : item.TightTo s r := by
  have call {s t r name : List Char} (scan : scanName s = some (name, '(' :: t))
      (inside : ')' :: r <:+ t) : Tight (':' :: s) r :=
    .of_last ((inside.trans ((List.suffix_cons _ _).trans (suffix_of_scanName scan))).trans
      (List.suffix_cons _ _)) (by decide)
  induction reads with
  | compoundAny more ih =>
    exact (Tight.of_last (List.suffix_refl _) (by decide)).trans
      (ih (unescaped_of_suffix unescaped (List.suffix_cons _ _))) more.head?_simples
  | compoundType start tag more ih =>
    exact (Tight.scanName tag unescaped).trans (ih (unescaped_of_suffix unescaped (suffix_of_scanName tag)))
      more.head?_simples
  | compoundSimple first more ih ihMore =>
    exact (ih unescaped).trans (ihMore (unescaped_of_suffix unescaped first.lookahead.suffix))
      more.head?_simples
  | simplesEnd => exact .refl
  | simplesMore first more ih ihMore =>
    exact (ih unescaped).trans (ihMore (unescaped_of_suffix unescaped first.lookahead.suffix))
      more.head?_simples
  | simpleId scan => exact .sign (by decide) scan (unescaped_of_suffix unescaped (List.suffix_cons _ _))
  | simpleClass scan => exact .sign (by decide) scan (unescaped_of_suffix unescaped (List.suffix_cons _ _))
  | simpleAttribute read =>
    exact .of_last ((close_of_readAttribute read).trans (List.suffix_cons _ _)) (by decide)
  | simplePseudo read ih => exact ih (unescaped_of_suffix unescaped (List.suffix_cons _ _))
  | pseudoPlain scan => exact .sign (by decide) scan unescaped
  | pseudoLogical scan known argument close =>
    exact call scan ((close ▸ suffix_skipBlanks _).trans argument.lookahead.suffix)
  | pseudoNth scan known argument close => exact call scan (close ▸ List.dropWhile_suffix _)
  | pseudoHas scan known argument close =>
    exact call scan ((close ▸ suffix_skipBlanks _).trans argument.lookahead.suffix)
  | listOne | listMore | complex | joinsEnd | joinsSign | joinsBlank | relativesOne | relativesMore =>
    trivial

/-! ## Whole selectors -/

/-- A firm text that is read by itself as an item, with blanks behind it. -/
structure Front (item : Item) (s w : List Char) : Prop where
  halves : ∃ t, s = w ++ t ∧ ∀ c ∈ t, isBlank c = true
  firm : Firm w
  solid : w = [] ∨ Solid w
  reads : Reads item w []

/-- A compound behind skipped blanks and signs is put in front of what is joined to it. -/
theorem Front.behind {item' : Item} {parts : List Simple} {q : List Char → List Char → Prop}
    (front : Front item u w) (skips : Lookahead q s t) (right : Reads (.compound parts) t u)
    (start : ∀ c ∈ t.head?, isBlank c = false) (unescaped : '\\' ∉ t)
    (puts : ∀ s' t', q s' t' → Reads (.compound parts) t' w → Reads item' s' []) :
    ∃ v, Solid v ∧ Front item' s v := by
  obtain ⟨z, rfl, skips⟩ := skips
  obtain ⟨y, rfl, again⟩ := right.lookahead
  obtain ⟨y', same, firm⟩ : Tight (y ++ u) u := right.tightTo unescaped
  obtain rfl := List.append_cancel_right same
  obtain ⟨short, -⟩ := right.yielded
  have solid : Solid y := by
    match y with
    | [] => exact absurd short (Nat.lt_irrefl _)
    | c :: y => exact ⟨c, List.mem_cons_self, start c rfl⟩
  obtain ⟨t, rfl, blank⟩ := front.halves
  have stands : Stands w (w ++ t) := .of_front (List.prefix_append w t)
  have solid' : Solid (z ++ (y ++ w)) := by
    obtain ⟨c, member, notBlank⟩ := solid
    exact ⟨c, by simp [member], notBlank⟩
  refine ⟨z ++ (y ++ w), solid', ⟨t, by simp, blank⟩, ?_, .inr solid',
    puts _ _ (skips _ (stands.append y)) (again w stands)⟩
  rcases front.solid with rfl | more
  · rw [List.append_nil]
    exact firm.behind solid z
  · rw [← List.append_assoc]
    exact front.firm.behind more (z ++ y)

theorem Reads.exists_front_joins {left c : Complex} (reads : Reads (.joins left c) s [])
    (unescaped : '\\' ∉ s) : ∃ w, Front (.joins left c) s w := by
  generalize same : Item.joins left c = item at reads
  generalize nothing : ([] : List Char) = r at reads
  induction reads generalizing left c with
  | @joinsEnd s _ ends =>
    cases same
    exact ⟨[], ⟨s, rfl, List.dropWhile_eq_nil_iff.mp nothing.symm⟩, .nil, .inl rfl, .joins_nil⟩
  | @joinsSign s t u r _ _ sign k parts there means right joined _ ih =>
    cases same
    have rest := unescaped_of_suffix unescaped (there ▸ suffix_skipBlanks s)
    have behind := unescaped_of_suffix rest ((suffix_skipBlanks t).trans (List.suffix_cons _ _))
    obtain ⟨w, front⟩ := ih (unescaped_of_suffix behind right.lookahead.suffix) rfl nothing
    have skips := (Lookahead.skips there).followed ((Lookahead.cons sign t).followed (.skipBlanks t))
    refine (front.behind skips right (isBlank_head?_skipBlanks t) behind ?_).imp fun v => And.right
    rintro s' _ ⟨_, there, t', rfl, rfl⟩ right
    exact .joinsSign there means right front.reads
  | @joinsBlank s u r _ _ parts blank right joined _ ih =>
    cases same
    have behind := unescaped_of_suffix unescaped (suffix_skipBlanks s)
    obtain ⟨w, front⟩ := ih (unescaped_of_suffix behind right.lookahead.suffix) rfl nothing
    refine (front.behind (.skipsSome blank) right (isBlank_head?_skipBlanks s) behind ?_).imp fun v =>
      And.right
    rintro s' _ ⟨rfl, blank⟩ right
    exact .joinsBlank blank right front.reads
  | _ => cases same

/-- A complex selector at the end of a text is the same without the blanks behind it. -/
theorem Reads.exists_front {c : Complex} (reads : Reads (.complex c) s []) (unescaped : '\\' ∉ s) :
    ∃ w, Solid w ∧ Front (.complex c) s w := by
  cases reads with
  | complex first joined =>
    have behind := unescaped_of_suffix unescaped (suffix_skipBlanks s)
    obtain ⟨w, front⟩ := joined.exists_front_joins (unescaped_of_suffix behind first.lookahead.suffix)
    refine front.behind (.skipBlanks s) first (isBlank_head?_skipBlanks s) behind ?_
    rintro s' _ rfl first
    exact .complex first front.reads

end

end NoiseFilter.Selector
