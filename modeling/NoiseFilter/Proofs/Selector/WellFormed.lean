import NoiseFilter.Proofs.Selector.Arguments
import NoiseFilter.Proofs.Selector.Line
import NoiseFilter.Proofs.Text.Trim

/-!
# Well-formed selectors

What the readers promise of a selector, at every depth: no list and no compound is empty, a tag stands
only in front of its compound, names are not empty, names that are compared in lower case are in lower
case, coefficients take 32 bits, and an argument of `:has` starts at the subject, by the combinator that
is stored with it. That there is one combinator less than compounds (`Complex.length_compounds`), and
that only a comparison can ignore case, is in the types. Whatever has been read is well-formed
(`Reads.wellFormed`), by induction on the grammar.
-/

namespace NoiseFilter

/-! ## Coefficients -/

/-- Both coefficients take 32 bits. -/
structure Nth.Fits (e : Nth) : Prop where
  step : -2147483648 ≤ e.step ∧ e.step ≤ 2147483647
  offset : -2147483648 ≤ e.offset ∧ e.offset ≤ 2147483647

namespace Nth

theorem fits_of_readInt {cs : List Char} {n : Int} (read : readInt cs = some n) :
    -2147483648 ≤ n ∧ n ≤ 2147483647 := by
  unfold readInt at read
  dsimp only at read
  split at read <;>
    obtain ⟨m, -, read⟩ := Option.bind_eq_some_iff.mp read <;>
    obtain ⟨fits, read⟩ := Option.ite_none_right_eq_some.mp read <;>
    exact Option.some.inj read ▸ fits

theorem fits_of_readStep {cs : List Char} {n : Int} (read : readStep cs = some n) :
    -2147483648 ≤ n ∧ n ≤ 2147483647 := by
  unfold readStep at read
  split at read
  · cases read
    decide
  · cases read
    decide
  · cases read
    decide
  · exact fits_of_readInt read

theorem fits_of_readOffset {cs : List Char} {n : Int} (read : readOffset cs = some n) :
    -2147483648 ≤ n ∧ n ≤ 2147483647 := by
  unfold readOffset at read
  split at read
  · cases read
    decide
  · exact fits_of_readInt read
  · exact fits_of_readInt read
  · cases read

theorem fits_of_ofChars {cs : List Char} {e : Nth} (read : ofChars cs = some e) : e.Fits := by
  rw [ofChars, readPlain] at read
  split at read
  · cases read
    exact ⟨by decide, by decide⟩
  · split at read
    · cases read
      exact ⟨by decide, by decide⟩
    · split at read
      · next n readInt =>
        cases read
        exact ⟨⟨by simp, by simp⟩, fits_of_readInt readInt⟩
      · split at read
        · obtain ⟨step, readStep, read⟩ := Option.bind_eq_some_iff.mp read
          obtain ⟨offset, readOffset, read⟩ := Option.bind_eq_some_iff.mp read
          cases read
          exact ⟨fits_of_readStep readStep, fits_of_readOffset readOffset⟩
        · cases read

end Nth

/-! ## Selectors -/

/-- Whether a simple selector may only stand in front of its compound. -/
def Simple.isTag : Simple → Bool
  | .universal | .type _ => true
  | _ => false

mutual

def Simple.WellFormed : Simple → Prop
  | .universal => True
  | .type name => name ≠ "" ∧ Text.Lowered name
  | .id name | .cls name => name ≠ ""
  | .attribute a => a.name ≠ "" ∧ Text.Lowered a.name
  | .pseudo p => p.WellFormed

def Pseudo.WellFormed : Pseudo → Prop
  | .root | .scope | .empty | .firstChild | .lastChild | .onlyChild | .firstOfType | .lastOfType
  | .onlyOfType => True
  | .nthChild e | .nthLastChild e | .nthOfType e | .nthLastOfType e => e.Fits
  | .negation alternatives | .oneOf alternatives | .whereOneOf alternatives =>
    alternatives ≠ [] ∧ WellFormedAll alternatives
  | .has alternatives => alternatives ≠ [] ∧ WellFormedRelatives alternatives

def Complex.WellFormed : Complex → Prop
  | .compound parts => WellFormedCompound parts
  | .join left _ parts => left.WellFormed ∧ WellFormedCompound parts

/-- A relative selector is a complex selector whose first compound is the subject, with the stored
combinator behind it. -/
def Relative.WellFormed : Relative → Prop
  | .mk k c => c.compounds.head? = some [.pseudo .scope] ∧ c.combinators.head? = some k ∧ c.WellFormed

/-- A compound that is not empty, with a tag at most in front. -/
def WellFormedCompound : List Simple → Prop
  | [] => False
  | x :: rest => x.WellFormed ∧ WellFormedParts rest

/-- Simple selectors other than tags. -/
def WellFormedParts : List Simple → Prop
  | [] => True
  | x :: rest => (x.isTag = false ∧ x.WellFormed) ∧ WellFormedParts rest

def WellFormedAll : List Complex → Prop
  | [] => True
  | c :: rest => c.WellFormed ∧ WellFormedAll rest

def WellFormedRelatives : List Relative → Prop
  | [] => True
  | r :: rest => r.WellFormed ∧ WellFormedRelatives rest

end

/-- A selector: one alternative at least, and all of them well-formed. -/
def Selector.WellFormed (x : Selector) : Prop := x.alternatives ≠ [] ∧ WellFormedAll x.alternatives

/-! ## What has been read -/

theorem Complex.head?_compounds_fromScope (k : Combinator) :
    ∀ c : Complex, (c.fromScope k).compounds.head? = some [.pseudo .scope]
  | .compound _ => rfl
  | .join left _ _ => by
    rw [fromScope, compounds, List.head?_append, head?_compounds_fromScope k left]
    rfl

theorem Complex.head?_combinators_fromScope (k : Combinator) :
    ∀ c : Complex, (c.fromScope k).combinators.head? = some k
  | .compound _ => rfl
  | .join left _ _ => by
    rw [fromScope, combinators, List.head?_append, head?_combinators_fromScope k left]
    rfl

theorem Complex.WellFormed.fromScope (k : Combinator) :
    ∀ {c : Complex}, c.WellFormed → (c.fromScope k).WellFormed
  | .compound _, formed => ⟨⟨trivial, trivial⟩, formed⟩
  | .join _ _ _, formed => ⟨formed.1.fromScope k, formed.2⟩

theorem Complex.WellFormed.ofComplex (k : Combinator) {c : Complex} (formed : c.WellFormed) :
    (Relative.ofComplex k c).WellFormed :=
  ⟨c.head?_compounds_fromScope k, c.head?_combinators_fromScope k, formed.fromScope k⟩

namespace Selector

/-- What is promised of an item that has been read. -/
def Item.WellFormed : Item → Prop
  | list alternatives => alternatives ≠ [] ∧ WellFormedAll alternatives
  | complex c => c.WellFormed
  | joins left c => left.WellFormed → c.WellFormed
  | compound parts => WellFormedCompound parts
  | simples parts => WellFormedParts parts
  | simple x => x.isTag = false ∧ x.WellFormed
  | pseudo p => p.WellFormed
  | relatives alternatives => alternatives ≠ [] ∧ WellFormedRelatives alternatives

theorem ofList_ne_empty {name : List Char} (filled : name ≠ []) : String.ofList name ≠ "" := by
  simpa using filled

theorem lower_ne_empty {name : List Char} (filled : name ≠ []) :
    Text.lower (String.ofList name) ≠ "" := by
  simpa [Text.lower] using filled

theorem wellFormed_plainPseudo {name : String} {p : Pseudo} (known : plainPseudo name = some p) :
    p.WellFormed := by
  unfold plainPseudo at known
  split at known <;> cases known <;> exact trivial

theorem wellFormed_nthPseudo {name : String} {f : Nth → Pseudo} {e : Nth}
    (known : nthPseudo name = some f) (fits : e.Fits) : (f e).WellFormed := by
  unfold nthPseudo at known
  split at known <;> cases known <;> exact fits

theorem wellFormed_logicalPseudo {name : String} {f : List Complex → Pseudo} {cs : List Complex}
    (known : logicalPseudo name = some f) (formed : cs ≠ [] ∧ WellFormedAll cs) :
    (f cs).WellFormed := by
  unfold logicalPseudo at known
  split at known <;> cases known <;> exact formed

/-- Whatever has been read is well-formed. -/
theorem Reads.wellFormed {item : Item} {s r : List Char} (reads : Reads item s r) :
    item.WellFormed := by
  induction reads with
  | listOne _ _ ih => exact ⟨List.cons_ne_nil _ _, ih, trivial⟩
  | listMore _ _ _ ih ihMore => exact ⟨List.cons_ne_nil _ _, ih, ihMore.2⟩
  | complex _ _ ih ihJoined => exact ihJoined ih
  | joinsEnd _ => exact id
  | joinsSign _ _ _ _ ih ihJoined => exact fun left => ihJoined ⟨left, ih⟩
  | joinsBlank _ _ _ ih ihJoined => exact fun left => ihJoined ⟨left, ih⟩
  | compoundAny _ ih => exact ⟨trivial, ih⟩
  | compoundType start tag _ ih =>
    exact ⟨⟨lower_ne_empty (scanName_ne_nil start tag), Text.lowered_lower _⟩, ih⟩
  | compoundSimple _ _ ih ihMore => exact ⟨ih.2, ihMore⟩
  | simplesEnd _ => exact trivial
  | simplesMore _ _ ih ihMore => exact ⟨ih, ihMore⟩
  | simpleId _ filled => exact ⟨rfl, ofList_ne_empty filled⟩
  | simpleClass _ filled => exact ⟨rfl, ofList_ne_empty filled⟩
  | simpleAttribute read =>
    obtain ⟨name, t, -, filled, lowered, -⟩ := yields_readAttribute.mp read
    refine ⟨rfl, ?_⟩
    rw [Simple.WellFormed, lowered]
    exact ⟨lower_ne_empty filled, Text.lowered_lower _⟩
  | simplePseudo _ ih => exact ⟨rfl, ih⟩
  | pseudoPlain _ _ known => exact wellFormed_plainPseudo known
  | pseudoLogical _ known _ _ ih => exact wellFormed_logicalPseudo known ih
  | pseudoNth _ known argument _ => exact wellFormed_nthPseudo known (Nth.fits_of_ofChars argument)
  | pseudoHas _ _ _ _ ih => exact ih
  | relativesOne _ _ ih => exact ⟨List.cons_ne_nil _ _, ih.ofComplex _, trivial⟩
  | relativesMore _ _ _ ih ihMore => exact ⟨List.cons_ne_nil _ _, ih.ofComplex _, ihMore.2⟩

end Selector

end NoiseFilter
