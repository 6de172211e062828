import NoiseFilter.Proofs.Record.Run

/-!
# A record gives back what it took

While an element is recorded its attributes change; once no entry is left on it, every attribute reads
as it did before the first operation, spaces and all. What carries this through a run is `LeadsBack`:
the baseline of a recorded node holds the raw text of the three attributes that marks show in, and
all other attributes are never touched. This needs nothing of the attribute that names rules, which
may well be `class` or `style` itself.
-/

namespace NoiseFilter.Record

/-- What is recorded of a node and what the node reads lead back to the attributes it had at first. -/
structure LeadsBack (marker : String) (original : String → Option String) (n : Option NodeRecord)
    (now : String → Option String) : Prop where
  recorded : ∀ n', n = some n' → n'.baseline.classText = original "class" ∧
    n'.baseline.styleText = original "style" ∧ n'.baseline.marker = original marker
  others : ∀ name, Text.lower name ≠ "class" → Text.lower name ≠ "style" →
    Text.lower name ≠ Text.lower marker → now name = original name
  unrecorded : n = none → ∀ name, now name = original name

namespace LeadsBack

variable {marker : String} {original : String → Option String} {n n' : Option NodeRecord}
  {e e' : Option Element} {change : Option (List Classification)}

/-- A node with a new baseline takes it from attributes that still read as at first. -/
theorem renewed {old : Element} (back : LeadsBack marker original n old.get?)
    (entries : List Classification) :
    (Record.renewed marker n old entries).baseline.classText = original "class" ∧
      (Record.renewed marker n old entries).baseline.styleText = original "style" ∧
      (Record.renewed marker n old entries).baseline.marker = original marker := by
  cases n with
  | none =>
    have same := back.unrecorded rfl
    exact ⟨same "class", same "style", same marker⟩
  | some n => exact back.recorded n rfl

/-- A node that lost its last entry reads as it did at first. -/
theorem restored {old : Element} (back : LeadsBack marker original n old.get?)
    (spelling : ∀ {name other}, Text.lower name = Text.lower other → original name = original other)
    (name : String) :
    (remarked marker n old []).element.get? name = original name := by
  obtain ⟨classText, styleText, markerText⟩ := back.renewed []
  have restore : remarked marker n old [] =
      Draft.restore { element := old } marker (Record.renewed marker n old []).baseline := rfl
  rw [restore, Draft.get?_restore]
  split
  · rename_i same
    rw [markerText, spelling same]
  · rename_i notMarker
    split
    · rename_i same
      rw [styleText, spelling (Element.lower_style.trans same)]
    · rename_i notStyle
      split
      · rename_i same
        rw [classText, spelling (Element.lower_class.trans same)]
      · rename_i notClass
        exact back.others name (Ne.symm notClass) (Ne.symm notStyle) (Ne.symm notMarker)

/-- Operations keep the way back. -/
theorem turn (back : LeadsBack marker original n fun name => e.bind (·.get? name))
    (spelling : ∀ {name other}, Text.lower name = Text.lower other → original name = original other)
    (turn : Turn marker change n e n' e') :
    LeadsBack marker original n' fun name => e'.bind (·.get? name) := by
  cases turn with
  | left _ record element =>
    subst record element
    exact back
  | marked entries old _ before record after =>
    subst before record after
    refine ⟨fun n' found => ?_, fun name notClass notStyle notMarker => ?_, fun gone => ?_⟩
    · rw [kept] at found
      split at found
      · cases found
      · cases found
        exact back.renewed entries
    · exact (Draft.get?_reconcile_of_ne _ marker _ notClass notStyle notMarker).trans
        (back.others name notClass notStyle notMarker)
    · have empty : entries = [] := by
        rw [kept] at gone
        split at gone
        · assumption
        · cases gone
      subst empty
      exact back.restored spelling

end LeadsBack

variable {marker : String} {t : Tree} {s : Stage} {id : NodeId}

theorem Run.leadsBack (run : Run (fun s w => w.Spares s.tree id) marker t s) :
    LeadsBack marker (t.attribute? id) (s.record.get? id) (s.tree.attribute? id) := by
  have spelling {name other} (same : Text.lower name = Text.lower other) :
      t.attribute? id name = t.attribute? id other := by
    rw [Tree.attribute?, Tree.attribute?]
    cases t.element? id with
    | none => rfl
    | some e => exact e.get?_congr same
  induction run with
  | start => exact ⟨fun _ found => (by cases found), fun _ _ _ _ => rfl, fun _ _ => rfl⟩
  | operation o before onElement ih => exact ih.turn spelling (before.turn o onElement id)
  | @edit w s _ spared ih =>
    have same : (w.apply s.tree).attribute? id = s.tree.attribute? id := by
      funext name
      exact congrArg (·.bind (·.get? name)) (w.element?_apply_of_spares spared)
    exact same ▸ ih

/-- Whenever a node that nobody else writes to is not in the record, every attribute of it reads as
it did before the first operation, whatever attribute names the rules. -/
theorem attribute?_of_unrecorded (run : Run (fun s w => w.Spares s.tree id) marker t s)
    (unrecorded : s.record.get? id = none) (name : String) :
    s.tree.attribute? id name = t.attribute? id name :=
  run.leadsBack.unrecorded unrecorded name

/-- A page with one element whose classes stand between more spaces than they need. -/
def spacedPage : Tree :=
  [Edit.create (.element (.ofName "p")), .write ⟨1⟩ (.setAttribute "class" " a  b "),
    .write ⟨1⟩ (.setAttribute "style" "COLOR:red")].foldl (fun t w => w.apply t) .empty

/-- Two rules come and go on the element, while the attribute that names rules is `class`. -/
def comeAndGo : List Operation :=
  [.classify ⟨1⟩ { ruleId := "r", rank := 1, kind := .toggle, cls := "a" },
    .classify ⟨1⟩ { ruleId := "q", rank := 0, kind := .style, cls := "", color := some "blue" },
    .unclassify ⟨1⟩ "r", .revertAll]

theorem attribute?_after_comeAndGo :
    let s := comeAndGo.foldl Stage.operate (.start "class" spacedPage)
    Run (fun s w => w.Spares s.tree ⟨1⟩) "class" spacedPage s ∧ s.record.get? ⟨1⟩ = none ∧
      s.tree.attribute? ⟨1⟩ "class" = some " a  b " := by
  have run : Run (fun s w => w.Spares s.tree ⟨1⟩) "class" spacedPage
      (comeAndGo.foldl Stage.operate (.start "class" spacedPage)) :=
    Run.start.operations comeAndGo (by decide +kernel)
  have unrecorded :
      (comeAndGo.foldl Stage.operate (.start "class" spacedPage)).record.get? ⟨1⟩ = none := by
    decide +kernel
  have original : spacedPage.attribute? ⟨1⟩ "class" = some " a  b " := by decide +kernel
  exact ⟨run, unrecorded, (attribute?_of_unrecorded run unrecorded "class").trans original⟩

end NoiseFilter.Record
