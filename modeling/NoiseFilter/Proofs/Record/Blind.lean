import NoiseFilter.Proofs.Record.Agreement
import NoiseFilter.Proofs.Selector.Tests
import NoiseFilter.Proofs.Tree.Parsed

/-!
# Marks that no selector sees

Marking an element changes its classes, its style and the attribute that names rules. A selector that
tests none of this cannot tell the element from what it was. For classes this takes two facts: what
is added on top of the baseline is not tested, and a baseline that is given back is read from the
same text as at first. `InOrder` says what has to hold of an element for the second.
-/

namespace NoiseFilter

/-! ## Class lists that stay readable -/

namespace Draft

variable {d : Draft}

theorem parsed_withoutClass (parsed : d.element.Parsed) (cls : String) :
    (d.withoutClass cls).element.Parsed := by
  rw [withoutClass]
  split
  · exact parsed.removeClass cls
  · exact parsed

theorem parsed_withClass (parsed : d.element.Parsed) {cls : String} (word : Text.IsWord cls) :
    (d.withClass cls).element.Parsed := by
  rw [withClass]
  split
  · exact parsed
  · exact parsed.addClass word

theorem parsed_foldl_withoutClass (parsed : d.element.Parsed) (classes : List String) :
    (classes.foldl withoutClass d).element.Parsed := by
  induction classes generalizing d with
  | nil => exact parsed
  | cons cls rest ih => exact ih (parsed_withoutClass parsed cls)

theorem parsed_foldl_withClass (parsed : d.element.Parsed) {classes : List String}
    (words : ∀ cls ∈ classes, Text.IsWord cls) : (classes.foldl withClass d).element.Parsed := by
  induction classes generalizing d with
  | nil => exact parsed
  | cons cls rest ih =>
    obtain ⟨word, restWords⟩ := List.forall_mem_cons.mp words
    exact ih (parsed_withClass parsed word) restWords

theorem parsed_restore {marker : String} (notClass : Text.lower marker ≠ "class")
    (parsed : d.element.Parsed) (b : Baseline) : (d.restore marker b).element.Parsed := by
  rw [Element.Parsed, classes_restore _ notClass, get?_restore]
  simp only [Element.lower_class, notClass, if_false, if_true]
  split
  · rename_i same
    exact same ▸ parsed
  · rfl

/-- Marking an element keeps its class list readable, if the classes of the entries are words. -/
theorem parsed_reconcile {marker : String} (notClass : Text.lower marker ≠ "class")
    (parsed : d.element.Parsed) {n : NodeRecord} (words : ∀ x ∈ n.entries, Text.IsWord x.cls) :
    (d.reconcile marker n).element.Parsed := by
  rw [reconcile]
  split
  · exact parsed_restore notClass parsed _
  · have wanted : ∀ cls ∈ n.wantedClasses, Text.IsWord cls := by
      intro cls member
      obtain ⟨-, x, there, rfl⟩ := NodeRecord.mem_wantedClasses.mp member
      exact words x there
    have exchanged : (d.exchange n.added n.wantedClasses).element.Parsed :=
      parsed_foldl_withClass (parsed_foldl_withoutClass parsed _) wanted
    refine exchanged.of_same ?_ ?_
    · rw [classes_withMarker _ _ _ notClass, classes_withColor]
    · rw [get?_withMarker, if_neg (by simpa using notClass), get?_withColor_of_ne _ _ (by simp)]

end Draft

/-- The class list of a baseline is read from its text. -/
def Baseline.Parsed (b : Baseline) : Prop :=
  b.classes = (ClassList.ofString (b.classText.getD "")).tokens

instance (b : Baseline) : Decidable b.Parsed :=
  inferInstanceAs (Decidable (b.classes = (ClassList.ofString (b.classText.getD "")).tokens))

/-- On top of a baseline that is read from its text, the classes of entries are read from theirs. -/
theorem ClassesAgree.parsed {n : NodeRecord} {e : Element} (agree : ClassesAgree n e)
    (baseline : n.baseline.Parsed) (words : ∀ x ∈ n.entries, Text.IsWord x.cls) : e.Parsed := by
  rcases agree.text with ⟨text, classes⟩ | worded
  · exact ClassList.ext (by rw [classes, text, baseline])
  · rw [Element.Parsed, worded]
    refine (ClassList.ofString_text? fun c member => ?_).symm
    rcases (agree.tokens c).mp member with before | ⟨-, x, there, rfl⟩
    · exact ClassList.isWord_of_mem_ofString (baseline ▸ before)
    · exact words x there

namespace Record

/-- The class lists of a node are read from their texts, that of the element and that of its
baseline, and the classes agree with what is recorded. -/
structure InOrder (n : Option NodeRecord) (e : Element) : Prop where
  parsed : e.Parsed
  baseline : ∀ m, n = some m → m.baseline.Parsed
  agree : ∀ m, n = some m → ClassesAgree m e

/-- Selectors with these tests do not see what marking an element changes. -/
structure Blind (marker : String) (tests : List Test) : Prop where
  attributes : ∀ a, .attribute a ∈ tests →
    Text.lower a ≠ "class" ∧ Text.lower a ≠ "style" ∧ Text.lower a ≠ Text.lower marker
  notId : Text.lower marker ≠ "id"

namespace InOrder

variable {marker : String} {tests : List Test} {n n' : Option NodeRecord} {e : Element}
  {e' : Option Element} {change : Option (List Classification)}

/-- What a change of the node starts from. -/
theorem current (order : InOrder n e) (marker : String) :
    (n.getD { baseline := .ofElement e marker }).baseline.Parsed ∧
      ClassesAgree (n.getD { baseline := .ofElement e marker }) e := by
  cases n with
  | none => exact ⟨congrArg ClassList.tokens order.parsed, .fresh e marker⟩
  | some m => exact ⟨order.baseline m rfl, order.agree m rfl⟩

/-- An operation keeps a node in order. -/
theorem turn (order : InOrder n e) (notClass : Text.lower marker ≠ "class")
    (words : ∀ entries, change = some entries → ∀ x ∈ entries, Text.IsWord x.cls)
    (turn : Turn marker change n (some e) n' e') : ∃ left, e' = some left ∧ InOrder n' left := by
  obtain ⟨left, same, agree⟩ := ClassesAgree.turn order.agree notClass turn
  cases turn with
  | left _ record element => exact ⟨e, element, record ▸ order⟩
  | marked entries old changed before record after =>
    cases before
    cases after.symm.trans same
    refine ⟨_, after, Draft.parsed_reconcile notClass order.parsed (words entries changed),
      fun m found => ?_, agree⟩
    rw [record, kept] at found
    split at found
    · cases found
    · cases found
      exact (order.current marker).1

/-- A class that no entry asks for is there if the baseline has it. -/
theorem mem_tokens_iff {m : NodeRecord} (agree : ClassesAgree m e) {c : String}
    (unasked : ∀ x ∈ m.entries, x.cls ≠ c) :
    c ∈ e.classes.tokens ↔ c ∈ m.baseline.classes := by
  rw [agree.tokens c]
  refine or_iff_left ?_
  rintro ⟨-, x, there, same⟩
  exact unasked x there same

/-- A class that no entry asks for, before or after, is there after a change if it was before. -/
theorem mem_tokens_remarked (order : InOrder n e) (notClass : Text.lower marker ≠ "class")
    {entries : List Classification} {c : String}
    (unaskedBefore : ∀ m, n = some m → ∀ x ∈ m.entries, x.cls ≠ c)
    (unasked : ∀ x ∈ entries, x.cls ≠ c) :
    c ∈ (remarked marker n e entries).element.classes.tokens ↔ c ∈ e.classes.tokens := by
  obtain ⟨baseline, agree⟩ := order.current marker
  have before : c ∈ e.classes.tokens ↔ c ∈ (renewed marker n e entries).baseline.classes := by
    refine mem_tokens_iff agree fun x there => ?_
    cases n with
    | none => cases there
    | some m => exact unaskedBefore m rfl x there
  rw [before]
  by_cases empty : entries = []
  · subst empty
    have restore : remarked marker n e [] =
        Draft.restore { element := e } marker (renewed marker n e []).baseline := rfl
    rw [restore, Draft.classes_restore _ notClass]
    split
    · exact before
    · exact baseline ▸ Iff.rfl
  · exact mem_tokens_iff (agree.reconcile notClass empty) unasked

/-- A selector that is blind to marks does not see an operation. -/
theorem like (order : InOrder n e) (notClass : Text.lower marker ≠ "class")
    (blind : Blind marker tests)
    (unseenBefore : ∀ m, n = some m → ∀ x ∈ m.entries, .cls x.cls ∉ tests)
    (unseen : ∀ entries, change = some entries → ∀ x ∈ entries, .cls x.cls ∉ tests)
    (turn : Turn marker change n (some e) n' e') :
    ∃ left, e' = some left ∧ e.Like tests left := by
  cases turn with
  | left _ record element => exact ⟨e, element, .refl e⟩
  | marked entries old changed before record after =>
    cases before
    refine ⟨_, after, Draft.name_reconcile _ _ _, ?_, fun c tested => ?_, fun a tested => ?_⟩
    · exact Draft.get?_reconcile_of_ne _ _ _ (by decide) (by decide) (Ne.symm blind.notId)
    · refine order.mem_tokens_remarked notClass (fun m found x there same => ?_)
        fun x there same => ?_
      · exact unseenBefore m found x there (same ▸ tested)
      · exact unseen entries changed x there (same ▸ tested)
    · obtain ⟨notClass, notStyle, notMarker⟩ := blind.attributes a tested
      exact Draft.get?_reconcile_of_ne _ _ _ notClass notStyle notMarker

end InOrder

end Record

end NoiseFilter
