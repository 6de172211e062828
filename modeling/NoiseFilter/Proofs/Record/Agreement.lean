import NoiseFilter.Proofs.Record.Entries
import NoiseFilter.Proofs.Record.Run

/-!
# Marks agree with the record

Marks are written as differences only, so that a mark that was missed once would stay wrong. What
rules this out is that the record knows which classes it has added: they are those that the entries
ask for and the baseline does not have (`ClassesAgree`). The other marks are written from the
entries alone. Together they are `Marked`, which holds of every recorded element at every stage of a
run, as long as nobody else writes to the attributes that the marks show in.
-/

namespace NoiseFilter

/-! ## Classes -/

theorem NodeRecord.mem_foldl_wanted {baseline : List String} {entries : List Classification}
    {wanted : List String} {c : String} :
    c ∈ entries.foldl (fun wanted e =>
        if baseline.contains e.cls || wanted.contains e.cls then wanted else wanted ++ [e.cls]) wanted ↔
      c ∈ wanted ∨ c ∉ baseline ∧ ∃ x ∈ entries, x.cls = c := by
  induction entries generalizing wanted with
  | nil => simp
  | cons e rest ih =>
    rw [List.foldl_cons, ih]
    split
    · rename_i known
      simp only [Bool.or_eq_true, List.contains_iff_mem] at known
      grind
    · rename_i unknown
      simp only [Bool.or_eq_true, List.contains_iff_mem, not_or] at unknown
      grind

/-- The classes that are wanted on top of the baseline are those of the entries. -/
theorem NodeRecord.mem_wantedClasses {n : NodeRecord} {c : String} :
    c ∈ n.wantedClasses ↔ c ∉ n.baseline.classes ∧ ∃ x ∈ n.entries, x.cls = c := by
  rw [wantedClasses, mem_foldl_wanted]
  simp

/-- The classes of an element are those it had and those of its entries, and the record knows which
of them were added. -/
structure ClassesAgree (n : NodeRecord) (e : Element) : Prop where
  added : n.added = n.wantedClasses
  tokens : ∀ c, c ∈ e.classes.tokens ↔
    c ∈ n.baseline.classes ∨ c ≠ "" ∧ ∃ x ∈ n.entries, x.cls = c
  /-- The attribute stands as it was, or it is the class list put into words. -/
  text : e.get? "class" = n.baseline.classText ∧ e.classes.tokens = n.baseline.classes ∨
    e.get? "class" = e.classes.text?

namespace ClassesAgree

variable {n : NodeRecord} {e : Element} {marker : String}

theorem fresh (e : Element) (marker : String) : ClassesAgree { baseline := .ofElement e marker } e :=
  ⟨rfl, fun c => by simp [Baseline.ofElement], .inl ⟨rfl, rfl⟩⟩

/-- Writes elsewhere do not matter to the classes. -/
theorem of_same (agree : ClassesAgree n e) {e' : Element} (classes : e'.classes = e.classes)
    (text : e'.get? "class" = e.get? "class") : ClassesAgree n e' where
  added := agree.added
  tokens := classes ▸ agree.tokens
  text := by
    rw [classes, text]
    exact agree.text

/-- Other entries, with the marks written anew. -/
theorem reconcile (agree : ClassesAgree n e) (notClass : Text.lower marker ≠ "class")
    {entries : List Classification} (filled : entries ≠ []) :
    ClassesAgree { n with entries }.reconciled
      (Draft.reconcile { element := e } marker { n with entries }).element := by
  have written := Draft.reconcile_of_ne_nil { element := e } marker (n := { n with entries }) filled
  have exchanged := Draft.classesOnly_exchange { element := e } n.added
    (NodeRecord.wantedClasses { n with entries })
  refine of_same (e := (Draft.exchange { element := e } n.added
    (NodeRecord.wantedClasses { n with entries })).element) ⟨rfl, fun c => ?_, ?_⟩ ?_ ?_
  · rw [Draft.mem_exchange]
    simp only [agree.tokens, agree.added, NodeRecord.mem_wantedClasses, NodeRecord.reconciled]
    by_cases before : c ∈ n.baseline.classes
    · simp [before]
    · by_cases wanted : ∃ x ∈ entries, x.cls = c
      · simp only [before, wanted, not_false_eq_true, true_and, false_or, not_true_eq_false,
          and_false, and_true]
        exact ⟨fun either => either.elim (·.1) id, .inr⟩
      · grind
  · rcases exchanged.text with ⟨sameText, sameClasses⟩ | worded
    · rw [sameText, sameClasses]
      exact agree.text
    · exact .inr worded
  · rw [written, Draft.classes_withMarker _ _ _ notClass, Draft.classes_withColor]
  · rw [written, Draft.get?_withMarker, if_neg (by simpa using notClass),
      Draft.get?_withColor_of_ne _ _ (by simp)]

/-- What an operation does to a node keeps its classes in agreement. -/
theorem turn {change : Option (List Classification)} {n n' : Option NodeRecord} {e' : Option Element}
    (agree : ∀ m, n = some m → ClassesAgree m e) (notClass : Text.lower marker ≠ "class")
    (turn : Record.Turn marker change n (some e) n' e') :
    ∃ left, e' = some left ∧ ∀ m, n' = some m → ClassesAgree m left := by
  cases turn with
  | left _ record element => exact ⟨e, element, record ▸ agree⟩
  | marked entries old _ before record after =>
    cases before
    refine ⟨_, after, fun m found => ?_⟩
    rw [record, Record.kept] at found
    split at found
    · cases found
    · rename_i filled
      cases found
      cases n with
      | none => exact (fresh e marker).reconcile notClass filled
      | some m => exact (agree m rfl).reconcile notClass filled

end ClassesAgree

namespace Record

/-! ## All marks -/

/-- The marks on an element are those that its record asks for, on top of what the element looked
like when it entered the record. -/
structure Marked (marker : String) (entered : Element) (n : NodeRecord) (e : Element) : Prop where
  baseline : n.baseline = .ofElement entered marker
  filled : n.entries ≠ []
  ranked : Ranked n.entries
  classes : ClassesAgree n e
  color : e.style.get? colorProperty =
    (n.entries.reverse.findSome? (·.color)).or n.baseline.color
  otherDeclarations : e.style.otherDeclarations = entered.style.otherDeclarations
  named : e.get? marker = n.entries.getLast?.map (·.ruleId)

namespace Marked

variable {marker : String} {entered e : Element} {n : NodeRecord}

theorem of_reconcile (baseline : n.baseline = .ofElement entered marker)
    (classes : ClassesAgree n e)
    (otherDeclarations : e.style.otherDeclarations = entered.style.otherDeclarations)
    (notClass : Text.lower marker ≠ "class") (notStyle : Text.lower marker ≠ "style")
    {entries : List Classification} (filled : entries ≠ []) (ranked : Ranked entries) :
    Marked marker entered { n with entries }.reconciled
      (Draft.reconcile { element := e } marker { n with entries }).element := by
  have written := Draft.reconcile_of_ne_nil { element := e } marker (n := { n with entries }) filled
  refine ⟨baseline, filled, ranked, classes.reconcile notClass filled, ?_, ?_, ?_⟩
  · rw [written, Draft.style_withMarker _ _ _ notStyle, Draft.color_withColor]
    rfl
  · rw [written, Draft.style_withMarker _ _ _ notStyle, Draft.otherDeclarations_withColor,
      (Draft.classesOnly_exchange _ _ _).style]
    exact otherDeclarations
  · exact Draft.get?_reconcile_marker _ marker (n := { n with entries }) filled

/-- Writes to other attributes leave the marks as they are. -/
theorem of_same (marked : Marked marker entered n e) {e' : Element}
    (classes : e'.classes = e.classes) (text : e'.get? "class" = e.get? "class")
    (style : e'.style = e.style) (named : e'.get? marker = e.get? marker) :
    Marked marker entered n e' where
  baseline := marked.baseline
  filled := marked.filled
  ranked := marked.ranked
  classes := marked.classes.of_same classes text
  color := style ▸ marked.color
  otherDeclarations := style ▸ marked.otherDeclarations
  named := named.trans marked.named

end Marked

/-- An edit does not write to the marks of a recorded element. -/
def SparesMarks (r : Record) (w : Edit) : Prop :=
  ∀ id n, r.get? id = some n →
    w.Keeps id "class" ∧ w.Keeps id "style" ∧ w.Keeps id r.marker

/-- Every recorded node is an element with the marks that its record asks for. -/
def Stage.Marked (s : Stage) : Prop :=
  ∀ id n, s.record.get? id = some n → ∃ e entered, s.tree.element? id = some e ∧
    s.entered id = some entered ∧ Record.Marked s.record.marker entered n e

namespace Stage.Marked

variable {s : Stage}

theorem start (marker : String) (t : Tree) : (Stage.start marker t).Marked :=
  fun _ _ found => by cases found

/-- Edits that spare the marks keep them in agreement. -/
theorem edit (marked : s.Marked) {w : Edit} (spares : s.record.SparesMarks w) :
    (s.edit w).Marked := by
  intro id n found
  obtain ⟨e, entered, here, since, agrees⟩ := marked id n found
  obtain ⟨keepsClass, keepsStyle, keepsMarker⟩ := spares id n found
  refine ⟨w.onElement id e, entered, w.element?_apply here, since, agrees.of_same ?_ ?_ ?_ ?_⟩
  · exact w.classes_onElement keepsClass
  · exact w.get?_onElement keepsClass
  · exact w.style_onElement keepsStyle
  · exact w.get?_onElement keepsMarker

/-- Every operation brings the marks into agreement again. -/
theorem operate (marked : s.Marked) (notClass : Text.lower s.record.marker ≠ "class")
    (notStyle : Text.lower s.record.marker ≠ "style") (stands : s.record.Stands s.tree)
    {o : Operation} (onElement : o.OnElement s.tree) : (s.operate o).Marked := by
  intro id n' found
  have sameMarker : (s.operate o).record.marker = s.record.marker :=
    o.marker_apply stands onElement
  have since : (s.operate o).entered id =
      if (s.record.get? id).isSome then s.entered id else s.tree.element? id := by
    show s.enter (s.operate o).record id = _
    rw [Stage.enter, found]
    cases s.record.get? id <;> rfl
  rw [sameMarker, since]
  cases o.apply_at stands onElement id with
  | left _ record element =>
    have before : s.record.get? id = some n' := record.symm.trans found
    obtain ⟨e, entered, here, since, agrees⟩ := marked id n' before
    exact ⟨e, entered, element.trans here, by rw [before]; exact since, agrees⟩
  | marked entries old change here record after =>
    have filled : entries ≠ [] := by
      rintro rfl
      exact Option.some_ne_none _ (found.symm.trans record)
    have new : n' = (renewed s.record.marker (s.record.get? id) old entries).reconciled :=
      Option.some.inj (found.symm.trans (record.trans (if_neg filled)))
    rw [new]
    cases before : s.record.get? id with
    | none =>
      rw [before] at after
      rw [entriesAt, before] at change
      have agrees := Marked.of_reconcile rfl (.fresh old s.record.marker) rfl notClass notStyle
        filled (o.ranked_change .nil change)
      exact ⟨_, old, after, here, agrees⟩
    | some n =>
      obtain ⟨e, entered, element, since, agrees⟩ := marked id n before
      cases Option.some.inj (here.symm.trans element)
      rw [before] at after
      rw [entriesAt, before] at change
      have agrees := Marked.of_reconcile agrees.baseline agrees.classes agrees.otherDeclarations
        notClass notStyle filled (o.ranked_change agrees.ranked change)
      exact ⟨_, entered, after, since, agrees⟩

end Stage.Marked

/-- After each operation of a run, and after each edit that spares the marks, every recorded element
carries the marks that its record asks for. -/
theorem marked_of_run {marker : String} {t : Tree} {s : Stage}
    (notClass : Text.lower marker ≠ "class") (notStyle : Text.lower marker ≠ "style")
    (run : Run (fun s w => s.record.SparesMarks w) marker t s) : s.Marked := by
  induction run with
  | start => exact .start marker t
  | operation o before onElement ih =>
    have marker_eq := before.marker_eq
    exact ih.operate (marker_eq ▸ notClass) (marker_eq ▸ notStyle) before.stands onElement
  | edit w _ spares ih => exact ih.edit spares

/-- A page with one element that has classes, a colour and another declaration. -/
def paintedPage : Tree :=
  [Edit.create (.element (.ofName "p")), .write ⟨1⟩ (.setAttribute "class" "a b"),
    .write ⟨1⟩ (.setAttribute "style" "margin: 0; color: red")].foldl (fun t w => w.apply t) .empty

/-- Two rules come to share a class, where one of them had shared one with the page. -/
def sharedClasses : List Operation :=
  [.classify ⟨1⟩ { ruleId := "r", rank := 0, kind := .toggle, cls := "b" },
    .classify ⟨1⟩ { ruleId := "q", rank := 1, kind := .style, cls := "x", color := some "blue" },
    .retarget .toggle "x"]

theorem marked_of_sharedClasses :
    let s := sharedClasses.foldl Stage.operate (.start "data-rule" paintedPage)
    Run (fun s w => s.record.SparesMarks w) "data-rule" paintedPage s ∧ s.Marked ∧
      (s.record.entriesAt ⟨1⟩).map (·.ruleId) = ["r", "q"] := by
  have run : Run (fun s w => s.record.SparesMarks w) "data-rule" paintedPage
      (sharedClasses.foldl Stage.operate (.start "data-rule" paintedPage)) :=
    Run.start.operations sharedClasses (by decide +kernel)
  exact ⟨run, marked_of_run (by decide) (by decide) run, by decide +kernel⟩

end Record

end NoiseFilter
