import NoiseFilter.Proofs.Engine.Load
import NoiseFilter.Proofs.Record.RoundTrip

/-!
# Switching the engine off gives the page back

Beside each run of the engine there is the page as it would be if the engine had never been there,
made by the same edits. While the mode is off, an element reads as it does on that page, apart from
the word that the scorer left. This holds of every element that the engine has not lost sight of. A
look at the whole page forgets the elements that are not part of it, marks and all; if such an
element is put back into the page its marks stay there for good (`residue_of_forgotten`).
-/

namespace NoiseFilter

/-! ## The way back past the scorer -/

namespace Record

/-- What is recorded of a node and what the node reads lead back to the attributes that the host
gave it, the one for the scorer's word aside. -/
def LeadsToHost (marker scored : String) (host : String → Option String) (n : Option NodeRecord)
    (now : String → Option String) : Prop :=
  ∃ original : String → Option String,
    (∀ {name other}, Text.lower name = Text.lower other → original name = original other) ∧
    (∀ name, Text.lower name ≠ Text.lower scored → original name = host name) ∧
    LeadsBack marker original n now

namespace LeadsToHost

variable {marker scored : String} {host : String → Option String} {n n' : Option NodeRecord}
  {e e' : Option Element} {change : Option (List Classification)}

/-- A node of which nothing is recorded reads as the host left it. -/
theorem start (e : Option Element) :
    LeadsToHost marker scored (fun name => e.bind (·.get? name)) none
      fun name => e.bind (·.get? name) := by
  refine ⟨fun name => e.bind (·.get? name), fun same => ?_, fun _ _ => rfl, ?_⟩
  · cases e with
    | none => rfl
    | some e => exact e.get?_congr same
  · exact ⟨fun _ found => (by cases found), fun _ _ _ _ => rfl, fun _ _ => rfl⟩

theorem turn (leads : LeadsToHost marker scored host n fun name => e.bind (·.get? name))
    (turn : Turn marker change n e n' e') :
    LeadsToHost marker scored host n' fun name => e'.bind (·.get? name) := by
  obtain ⟨original, spelling, same, back⟩ := leads
  exact ⟨original, spelling, same, back.turn spelling turn⟩

/-- What the scorer says is added to what the node read at first. -/
theorem judge {e : Element} (leads : LeadsToHost marker scored host n e.get?)
    (notClass : Text.lower scored ≠ "class") (notStyle : Text.lower scored ≠ "style")
    (notMarker : Text.lower scored ≠ Text.lower marker) (word : String) :
    LeadsToHost marker scored host n (e.set scored word).get? := by
  obtain ⟨original, spelling, same, back⟩ := leads
  have kept {name : String} (other : Text.lower scored ≠ Text.lower name) :
      (if Text.lower scored = Text.lower name then some word else original name) =
        original name :=
    if_neg other
  refine ⟨fun name => if Text.lower scored = Text.lower name then some word else original name,
    fun alike => ?_, fun name other => (kept other.symm).trans (same name other), ?_⟩
  · simp only [alike, spelling alike]
  · refine ⟨fun m found => ?_, fun name classApart styleApart markerApart => ?_,
      fun unrecorded name => ?_⟩
    · rw [kept (by simpa using notClass), kept (by simpa using notStyle), kept notMarker]
      exact back.recorded m found
    · rw [e.get?_set]
      split
      · rfl
      · exact back.others name classApart styleApart markerApart
    · rw [e.get?_set]
      split
      · rfl
      · exact back.unrecorded unrecorded name

end LeadsToHost

end Record

namespace Engine

/-! ## Runs beside the page of the host -/

/-- The engine and the tree in which a call looks at the whole page, if it does. -/
def Call.look? (e : Engine) (t : Tree) : Call → Option (Engine × Tree)
  | applyOptions o => if o.mode = .off then none else some (e.turn t o)
  | setMode mode => if e.mode = .off ∧ mode ≠ .off then some (e.switchMode t mode).2 else none
  | processBatch batch => if batch.navigation then some (e, t) else none

/-- The call forgets a node that carries marks, because it is not part of the page. -/
def Call.Forgets (e : Engine) (t : Tree) (k : Call) (id : NodeId) : Prop :=
  ∃ s ∈ k.look? e t, s.1.mode ≠ .off ∧ s.2.isConnected id = false ∧
    (s.1.record.get? id).isSome = true

instance (e : Engine) (t : Tree) (k : Call) (id : NodeId) : Decidable (k.Forgets e t id) :=
  inferInstanceAs (Decidable (∃ s ∈ k.look? e t, s.1.mode ≠ .off ∧ s.2.isConnected id = false ∧
    (s.1.record.get? id).isSome = true))

variable {e : Engine} {t host : Tree} {I : Record → Tree → Prop}

/-- What a call does not forget is still recorded after it has looked at the whole page. -/
theorem Call.get?_prune_of_not_forgets {k : Call} {id : NodeId} (remembered : ¬ k.Forgets e t id)
    {s : Engine × Tree} (looked : s ∈ k.look? e t) (on : s.1.mode ≠ .off) :
    (s.1.record.prune s.2).2.get? id = s.1.record.get? id := by
  rw [get?_prune]
  cases found : s.1.record.get? id with
  | none => rfl
  | some n =>
    cases connected : s.2.isConnected id with
    | true => rfl
    | false => exact absurd ⟨s, looked, on, connected, found ▸ rfl⟩ remembered

/-- Nothing is recorded of a node before it comes into being. -/
theorem UpToDate.get?_of_unborn (upToDate : UpToDate e t) : e.record.get? ⟨t.size⟩ = none := by
  cases found : e.record.get? ⟨t.size⟩ with
  | none => rfl
  | some n =>
    obtain ⟨old, here⟩ := Tree.isElement_iff.mp (upToDate.sound.stands _ n found).1
    cases here.symm.trans t.element?_size

/-- A call keeps what its writes keep, if forgetting keeps it where the call looks at the whole
page. -/
theorem KeptByWrites.perform (kept : KeptByWrites e.config.aiCheckedAttribute I)
    (upToDate : UpToDate e t) (before : I e.record t) {k : Call}
    (pruned : ∀ s ∈ k.look? e t, s.1.mode ≠ .off → I s.1.record s.2 →
      I (s.1.record.prune s.2).2 s.2) :
    I (k.perform e t).1.record (k.perform e t).2 := by
  cases k with
  | applyOptions o =>
    have turned := kept.turn upToDate before o
    have config : (e.turn t o).1.config = e.config := by rw [turn_engine]
    rw [Call.perform, applyOptions_eq]
    split
    · exact turned
    · rename_i on
      refine KeptByWrites.processBatch (config ▸ kept) (upToDate.turn o).sound turned fun _ _ => ?_
      exact pruned _ (by simp [Call.look?, on]) ‹_› turned
  | setMode mode =>
    have switched := kept.switchMode upToDate.sound before mode
    rw [Call.perform, Engine.setMode]
    simp only
    split
    · rename_i leaves
      refine KeptByWrites.processBatch (config_switchMode e t mode ▸ kept)
        (upToDate.switchMode mode).sound switched fun _ _ => ?_
      exact pruned _ (by simp [Call.look?, leaves]) ‹_› switched
    · exact switched
  | processBatch batch =>
    refine kept.processBatch upToDate.sound before fun on navigation => ?_
    exact pruned (e, t) (by simp [Call.look?, navigation]) on before

/-- A run of the engine beside the page of the host, on which the same edits are made and there is
no engine. The nodes that the engine has lost sight of are those that some call has forgotten. -/
inductive Beside (config : Config) (catalog : Catalog) (page : Tree) :
    Engine → Tree → Tree → (NodeId → Prop) → Prop
  | start {e : Engine} (made : ofConfig config catalog = .ok e) :
    Beside config catalog page e page page fun _ => False
  | call {e : Engine} {t host : Tree} {lost : NodeId → Prop} (k : Call)
      (before : Beside config catalog page e t host lost) :
    Beside config catalog page (k.perform e t).1 (k.perform e t).2 host
      fun id => lost id ∨ k.Forgets e t id
  | edit {e : Engine} {t host : Tree} {lost : NodeId → Prop} (w : Edit)
      (structural : w.IsStructural)
      (before : Beside config catalog page e t host lost) :
    Beside config catalog page e (w.apply t) (w.apply host) lost

namespace Beside

variable {config : Config} {catalog : Catalog} {page : Tree} {lost : NodeId → Prop}

theorem run (beside : Beside config catalog page e t host lost) :
    Run (fun _ _ => True) config catalog page e t := by
  induction beside with
  | start made => exact .start made
  | call k _ ih => exact .call k ih
  | edit w _ _ ih => exact .edit w ih trivial

theorem edits (beside : Beside config catalog page e t host lost) (ws : List Edit)
    (structural : ∀ w ∈ ws, w.IsStructural) :
    Beside config catalog page e (ws.foldl (fun t w => w.apply t) t)
      (ws.foldl (fun t w => w.apply t) host) lost := by
  induction ws generalizing t host with
  | nil => exact beside
  | cons w rest ih =>
    obtain ⟨here, later⟩ := List.forall_mem_cons.mp structural
    exact ih (.edit w here beside) later

/-- The engine brings no nodes into being. -/
theorem size_eq (beside : Beside config catalog page e t host lost) : t.size = host.size := by
  induction beside with
  | start _ => rfl
  | call k before ih => exact (sameFrame_perform before.run.upToDate k).size.trans ih
  | edit w _ _ ih => rw [w.size_apply, w.size_apply, ih]

/-- What operations and the scorer keep of a node. -/
theorem keptByWrites_leadsToHost {marker scored : String} (given : String → Option String)
    (id : NodeId) (notClass : Text.lower scored ≠ "class") (notStyle : Text.lower scored ≠ "style")
    (notMarker : Text.lower scored ≠ Text.lower marker) :
    KeptByWrites scored fun r t => r.marker = marker ∧
      Record.LeadsToHost marker scored given (r.get? id) (t.attribute? id) where
  operate o r t sound onElement before := by
    obtain ⟨rfl, leads⟩ := before
    refine ⟨o.marker_apply sound.stands onElement, ?_⟩
    exact leads.turn (o.apply_at sound.stands onElement id)
  judge r t post e word here before := by
    refine ⟨before.1, ?_⟩
    have element := Tree.element?_put (d := ⟨e.set scored word, 1⟩)
      (Tree.isElement_iff.mpr ⟨e, here⟩) id
    split at element
    · rename_i same
      subst same
      rw [funext (Tree.attribute?_of_element? element)]
      refine Record.LeadsToHost.judge ?_ notClass notStyle notMarker word
      rw [← funext (Tree.attribute?_of_element? here)]
      exact before.2
    · rw [Tree.attribute?_congr element]
      exact before.2

/-- Every node that the engine has not lost sight of leads back to what the host made of it. -/
theorem leadsToHost (beside : Beside config catalog page e t host lost)
    (notClass : Text.lower config.aiCheckedAttribute ≠ "class")
    (notStyle : Text.lower config.aiCheckedAttribute ≠ "style")
    (notMarker : Text.lower config.aiCheckedAttribute ≠ Text.lower config.classificationAttribute)
    (id : NodeId) (kept : ¬ lost id) :
    e.record.marker = config.classificationAttribute ∧
      Record.LeadsToHost config.classificationAttribute config.aiCheckedAttribute
        (host.attribute? id) (e.record.get? id) (t.attribute? id) := by
  induction beside with
  | start made =>
    obtain ⟨-, -, -, record⟩ := eq_of_ofConfig made
    rw [record]
    exact ⟨rfl, .start (page.element? id)⟩
  | @call e t host lost k before ih =>
    obtain ⟨notLost, remembered⟩ := not_or.mp kept
    have config_eq := before.run.config_eq
    subst config_eq
    refine KeptByWrites.perform (keptByWrites_leadsToHost _ id notClass notStyle notMarker)
      before.run.upToDate (ih notLost) fun s looked on now => ?_
    refine ⟨now.1, ?_⟩
    rw [Call.get?_prune_of_not_forgets remembered looked on]
    exact now.2
  | @edit e t host lost w structural before ih =>
    obtain ⟨named, leads⟩ := ih kept
    refine ⟨named, ?_⟩
    have born := w.element?_apply_of_isStructural structural
    by_cases new : id = ⟨t.size⟩
    · -- the edit brings the node into being, in both trees alike
      have newHost : id = ⟨host.size⟩ := before.size_eq ▸ new
      have same : (w.apply t).element? id = (w.apply host).element? id := by
        rw [born t, born host, if_pos new, if_pos newHost]
      rw [new, before.run.upToDate.get?_of_unborn, ← new, Tree.attribute?_congr same]
      exact .start _
    · have oldHost : id ≠ ⟨host.size⟩ := before.size_eq ▸ new
      rw [Tree.attribute?_congr ((born t id).trans (if_neg new)),
        Tree.attribute?_congr ((born host id).trans (if_neg oldHost))]
      exact leads

end Beside

/-- While the mode is off, every element that the engine has not lost sight of reads as it does on
the page of the host, in every attribute but the one for the scorer's word: the raw text, or no
text. -/
theorem attribute?_of_off {config : Config} {catalog : Catalog} {page : Tree} {lost : NodeId → Prop}
    (beside : Beside config catalog page e t host lost)
    (notClass : Text.lower config.aiCheckedAttribute ≠ "class")
    (notStyle : Text.lower config.aiCheckedAttribute ≠ "style")
    (notMarker : Text.lower config.aiCheckedAttribute ≠ Text.lower config.classificationAttribute)
    (off : e.mode = .off) {id : NodeId} (kept : ¬ lost id) {name : String}
    (notScored : Text.lower name ≠ Text.lower config.aiCheckedAttribute) :
    t.attribute? id name = host.attribute? id name := by
  obtain ⟨-, original, -, same, back⟩ := beside.leadsToHost notClass notStyle notMarker id kept
  rw [← same name notScored]
  exact back.unrecorded (beside.run.upToDate.get?_of_off off id) name

theorem beside_pageWithParagraph :
    Beside smallConfig {} .empty smallEngine pageWithParagraph pageWithParagraph fun _ => False :=
  (Beside.start ofConfig_smallConfig).edits newParagraph (by simp [newParagraph, Edit.IsStructural])

/-- The mode is switched off under a rule that has been applied. -/
theorem attribute?_of_off_paragraph :
    let applied := (Call.applyOptions paragraphRule).perform smallEngine pageWithParagraph
    let off := (Call.setMode .off).perform applied.1 applied.2
    applied.2.attribute? ⟨1⟩ "class" = some "a sift-dim" ∧
      off.2.attribute? ⟨1⟩ "class" = some "a" := by
  intro applied off
  have beside : Beside smallConfig {} .empty off.1 off.2 pageWithParagraph _ :=
    .call (.setMode .off) (.call (.applyOptions paragraphRule) beside_pageWithParagraph)
  have kept :
      ¬ ((False ∨ (Call.applyOptions paragraphRule).Forgets smallEngine pageWithParagraph ⟨1⟩) ∨
        (Call.setMode .off).Forgets applied.1 applied.2 ⟨1⟩) := by decide +kernel
  have same : off.2.attribute? ⟨1⟩ "class" = pageWithParagraph.attribute? ⟨1⟩ "class" :=
    attribute?_of_off beside (by decide +kernel) (by decide +kernel) (by decide +kernel)
      (by decide +kernel) kept (by decide +kernel)
  exact ⟨by decide +kernel, same.trans (by decide +kernel)⟩

/-- A marked paragraph is taken out of the page, the page is looked at as a whole, and the paragraph
is put back: its marks stay when the mode is switched off. -/
theorem residue_of_forgotten :
    let applied := (Call.applyOptions paragraphRule).perform smallEngine pageWithParagraph
    let looked :=
      (Call.processBatch .wholePage).perform applied.1 ((Edit.detach ⟨1⟩).apply applied.2)
    let back := (Edit.append .root ⟨1⟩).apply looked.2
    let off := (Call.setMode .off).perform looked.1 back
    let host := (Edit.append .root ⟨1⟩).apply ((Edit.detach ⟨1⟩).apply pageWithParagraph)
    (∃ lost, Beside smallConfig {} .empty off.1 off.2 host lost) ∧
      (∀ c, applied.1.Writes c → c.cls ≠ "") ∧ off.1.mode = .off ∧
      off.2.isConnected ⟨1⟩ = true ∧ off.2.attribute? ⟨1⟩ "class" = some "a sift-dim" ∧
      host.attribute? ⟨1⟩ "class" = some "a" := by
  intro applied looked back off host
  refine ⟨⟨_, .call (.setMode .off) (.edit (.append .root ⟨1⟩) trivial
    (.call (.processBatch .wholePage) (.edit (.detach ⟨1⟩) trivial
      (.call (.applyOptions paragraphRule) beside_pageWithParagraph))))⟩, ?_, ?_⟩
  · exact forall_writes (by decide +kernel)
  · decide +kernel

end Engine

end NoiseFilter
