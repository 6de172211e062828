import NoiseFilter.Engine.Feed
import NoiseFilter.Proofs.Engine.Candidates
import NoiseFilter.Proofs.Engine.Marks
import NoiseFilter.Proofs.Tree.Place

/-!
# Nothing is missed between looks

A feed is polled now and then, and the engine deals with each batch at once. In between the page is
edited, as often as others like: nodes are linked, moved, taken out and put back, and the page may
become another one, at which point the records in the journal are thrown away. Still no element is
missed: after each look every connected element has been among the candidates of some look since it
was last moved, itself or with something that it hangs at (`Watch.covered_of_look`).

What carries this through the edits in between is that an element which has not been looked at since
then hangs at a node that is named in the journal (`Watch.Abreast`).
-/

namespace NoiseFilter

namespace Tree

/-- The nodes that the next batch will name, if it does not look at the whole page. -/
def pending (t : Tree) : List NodeId := (ChangeBatch.ofJournal t.journal).added

theorem pending_record (t : Tree) (m : Mutation) :
    (t.record m).pending = if t.observing then t.pending ++ m.added else t.pending := by
  rw [pending, record]
  split
  · simp [pending, ChangeBatch.ofJournal]
  · rfl

theorem pending_append {t t' : Tree} {parent child : NodeId}
    (done : t.append parent child = .ok t') :
    t'.pending = if t.observing then t.pending ++ [child] else t.pending := by
  obtain ⟨-, -, -, rfl⟩ := append_ok done
  rw [pending_record]
  simp only [pending]

theorem pending_detach {t t' : Tree} {id : NodeId} (done : t.detach id = .ok t') :
    t'.pending = t.pending := by
  obtain ⟨-, ⟨-, rfl⟩ | ⟨p, -, rfl⟩⟩ := detach_ok done
  · rfl
  · rw [pending_record, List.append_nil, ite_self]
    simp only [pending]

end Tree

namespace Edit

/-- Unless records are dropped or taken, an edit leaves those that are there, and names no node but
one that it links. -/
theorem pending_apply (w : Edit) (t : Tree) :
    (w = .observe false ∨ w = .takeJournal) ∧ (w.apply t).pending = [] ∨
      (w.apply t).pending = t.pending ∨
      ∃ parent child, w = .append parent child ∧ (w.apply t).pending = t.pending ++ [child] := by
  cases w with
  | create _ => exact .inr (.inl rfl)
  | append parent child =>
    cases done : t.append parent child with
    | error _ => exact .inr (.inl (by rw [apply_append_of_error done]))
    | ok t' =>
      have named := Tree.pending_append done
      rw [apply_append_of_ok done]
      split at named
      · exact .inr (.inr ⟨parent, child, rfl, named⟩)
      · exact .inr (.inl named)
  | detach id =>
    refine .inr (.inl ?_)
    cases done : t.detach id with
    | error _ => rw [apply_detach_of_error done]
    | ok t' => rw [apply_detach_of_ok done, Tree.pending_detach done]
  | write id w =>
    refine .inr (.inl ?_)
    rw [Tree.pending, (sameFrame_write id w).journal]
    rfl
  | observe enabled =>
    cases enabled with
    | false => exact .inl ⟨.inl rfl, rfl⟩
    | true => exact .inr (.inl rfl)
  | takeJournal => exact .inl ⟨.inr rfl, rfl⟩

end Edit

/-- What happens to a page, as far as it matters for what has been looked at. -/
inductive Moment where
  /-- A node was linked, which makes the tree. -/
  | moved (tree : Tree) (child : NodeId)
  /-- The engine dealt with a batch. -/
  | looked (candidates : List NodeId)

namespace Moment

/-- A node is moved, itself or with a node that it lies below. -/
def Carries (id : NodeId) : Moment → Prop
  | moved tree child => tree.isInclusiveAncestor child id = true
  | looked _ => False

/-- What an edit leaves in memory: that it linked a node, if it was not refused. -/
def ofEdit (t : Tree) : Edit → List Moment
  | .append parent child =>
    match t.append parent child with
    | .ok t' => [moved t' child]
    | .error _ => []
  | _ => []

theorem mem_ofEdit {t : Tree} {w : Edit} {m : Moment} : m ∈ ofEdit t w ↔
    ∃ parent child, w = .append parent child ∧ t.append parent child = .ok (w.apply t) ∧
      m = .moved (w.apply t) child := by
  cases w with
  | append parent child =>
    rw [ofEdit, Edit.apply]
    cases done : t.append parent child with
    | error error => simp [done]
    | ok t' =>
      rw [List.mem_singleton]
      constructor
      · rintro rfl
        exact ⟨parent, child, rfl, done, rfl⟩
      · rintro ⟨_, _, ⟨⟩, -, moved⟩
        exact moved
  | _ => simp [ofEdit]

end Moment

/-- The elements that an engine looks at when it is given a batch. -/
def Engine.looksAt (e : Engine) (t : Tree) (batch : ChangeBatch) : List NodeId :=
  if e.mode = .off then [] else batch.candidates t

/-- An engine with its feed beside the page, and all that has happened, the latest first. -/
structure Watch where
  engine : Engine
  tree : Tree
  feed : ChangeFeed := {}
  history : List Moment := []

namespace Watch

/-- The page is edited. -/
def edit (s : Watch) (w : Edit) : Watch :=
  { s with tree := w.apply s.tree, history := Moment.ofEdit s.tree w ++ s.history }

/-- The engine is called. -/
def call (s : Watch) (k : Engine.Call) : Watch :=
  let done := k.perform s.engine s.tree
  { s with engine := done.1, tree := done.2 }

/-- The engine deals with a batch. -/
def deal (s : Watch) (batch : ChangeBatch) : Watch :=
  { s.call (.processBatch batch) with
    history := .looked (s.engine.looksAt s.tree batch) :: s.history }

/-- The feed is polled, and the engine deals with the batch at once. -/
def look (s : Watch) (url : String) : Watch :=
  let (batch, feed, tree) := s.feed.poll s.tree url
  { s with feed, tree }.deal batch

/-- A node was looked at, and not moved since. -/
def Covered (s : Watch) (id : NodeId) : Prop :=
  ∃ since candidates before, s.history = since ++ .looked candidates :: before ∧
    id ∈ candidates ∧ ∀ m ∈ since, ¬ m.Carries id

/-- All that can happen to an engine and a page. Records are kept at the latest from the first look
on, nobody else takes them, and the mode is not off at any look. -/
inductive Reached (config : Config) (catalog : Catalog) : Watch → Prop
  | start {e : Engine} (made : Engine.ofConfig config catalog = .ok e) :
    Reached config catalog { engine := e, tree := .empty }
  | edit {s : Watch} (w : Edit) (before : Reached config catalog s) (ordinary : w.Ordinary s.tree)
      (early : w = .observe false → s.feed.lastUrl = none) (untaken : w ≠ .takeJournal) :
    Reached config catalog (s.edit w)
  | call {s : Watch} (k : Engine.Call) (before : Reached config catalog s) :
    Reached config catalog (s.call k)
  | look {s : Watch} (url : String) (before : Reached config catalog s)
      (observing : s.tree.observing = true) (on : s.engine.mode ≠ .off) :
    Reached config catalog (s.look url)

/-- An element that was not looked at since it was moved hangs at a node that the journal names. -/
structure Abreast (s : Watch) : Prop where
  rooted : s.tree.Rooted
  upToDate : Engine.UpToDate s.engine s.tree
  notRoot : ∀ a ∈ s.tree.pending, a ≠ .root
  observing : s.feed.lastUrl ≠ none → s.tree.observing = true
  reached : s.feed.lastUrl ≠ none → ∀ id, s.tree.Counts id →
    s.Covered id ∨ ∃ a ∈ s.tree.pending, s.tree.isInclusiveAncestor a id = true

variable {s : Watch}

/-! ## Edits -/

theorem Covered.edit {id : NodeId} (covered : s.Covered id) {w : Edit}
    (still : ∀ m ∈ Moment.ofEdit s.tree w, ¬ m.Carries id) : (s.edit w).Covered id := by
  obtain ⟨since, candidates, before, history, member, unmoved⟩ := covered
  refine ⟨Moment.ofEdit s.tree w ++ since, candidates, before, ?_, member, fun m inside => ?_⟩
  · rw [Watch.edit, history, List.append_assoc]
  · exact (List.mem_append.mp inside).elim (still m) (unmoved m)

theorem Abreast.edit (abreast : s.Abreast) {w : Edit} (ordinary : w.Ordinary s.tree)
    (early : w = .observe false → s.feed.lastUrl = none) (untaken : w ≠ .takeJournal) :
    (s.edit w).Abreast where
  rooted := abreast.rooted.edit ordinary
  upToDate := abreast.upToDate.edit w
  notRoot a member := by
    obtain ⟨-, none⟩ | same | ⟨parent, child, rfl, more⟩ := w.pending_apply s.tree
    · exact absurd (none ▸ member) List.not_mem_nil
    · exact abreast.notRoot a (same ▸ member)
    · rcases List.mem_append.mp (more ▸ member) with old | new
      · exact abreast.notRoot a old
      · exact List.mem_singleton.mp new ▸ ordinary.1
  observing polled :=
    Tree.observing_apply (fun stopped => polled (early stopped)) (abreast.observing polled)
  reached polled id counts := by
    by_cases moved : ∃ m ∈ Moment.ofEdit s.tree w, m.Carries id
    · obtain ⟨m, member, carries⟩ := moved
      obtain ⟨parent, child, rfl, done, rfl⟩ := Moment.mem_ofEdit.mp member
      have named := Tree.pending_append done
      rw [if_pos (abreast.observing polled)] at named
      exact .inr ⟨child, named ▸ List.mem_append_right _ (List.mem_singleton.mpr rfl), carries⟩
    · have still : ∀ m ∈ Moment.ofEdit s.tree w, ¬ m.Carries id := fun m member carries =>
        moved ⟨m, member, carries⟩
      obtain ⟨parent, child, rfl, done, inside⟩ | ⟨element, connected, line⟩ :=
        abreast.rooted.moved_or_same ordinary counts.1 counts.2
      · have member := Moment.mem_ofEdit.mpr ⟨parent, child, rfl, done, rfl⟩
        exact absurd inside (still _ member)
      · rcases abreast.reached polled id ⟨element, connected⟩ with covered | ⟨a, member, above⟩
        · exact .inl (covered.edit still)
        · refine .inr ⟨a, ?_, ?_⟩
          · obtain ⟨rfl | rfl, -⟩ | same | ⟨_, child, -, more⟩ := w.pending_apply s.tree
            · exact absurd (early rfl) polled
            · exact absurd rfl untaken
            · exact same ▸ member
            · exact more ▸ List.mem_append_left _ member
          · rw [Tree.isInclusiveAncestor_iff] at above ⊢
            exact above.imp_right (line ▸ ·)

/-! ## Calls -/

theorem Abreast.call (abreast : s.Abreast) (k : Engine.Call) : (s.call k).Abreast := by
  have frame : s.tree.SameFrame (s.call k).tree := Engine.sameFrame_perform abreast.upToDate k
  have named : (s.call k).tree.pending = s.tree.pending := by
    rw [Tree.pending, frame.journal]
    rfl
  refine ⟨abreast.rooted.of_sameFrame frame, abreast.upToDate.perform k, ?_, fun polled => ?_,
    fun polled id counts => ?_⟩
  · rw [named]
    exact abreast.notRoot
  · exact frame.observing.trans (abreast.observing polled)
  · rw [Tree.Counts, frame.isElement, frame.isConnected] at counts
    simp only [named, Tree.isInclusiveAncestor_iff, frame.ancestors]
    have before := abreast.reached polled id counts
    simp only [Tree.isInclusiveAncestor_iff] at before
    exact before

/-! ## Looks -/

theorem look_of_navigation {url : String} (new : s.feed.lastUrl ≠ some url) :
    s.look url =
      { s with feed := { lastUrl := some url }, tree := s.tree.takeJournal.2 }.deal .wholePage := by
  rw [look, ChangeFeed.poll, Tree.takeJournal]
  simp only [if_neg new]

theorem look_of_same {url : String} (same : s.feed.lastUrl = some url) :
    s.look url = { s with tree := s.tree.takeJournal.2 }.deal { added := s.tree.pending } := by
  rw [look, ChangeFeed.poll, Tree.takeJournal]
  simp only [if_pos same]
  rfl

/-- Whatever the batch, the engine is given the tree with an empty journal. -/
theorem look_cases (s : Watch) (url : String) :
    ∃ batch feed, s.look url = { s with feed, tree := s.tree.takeJournal.2 }.deal batch := by
  by_cases same : s.feed.lastUrl = some url
  · exact ⟨_, _, look_of_same same⟩
  · exact ⟨_, _, look_of_navigation same⟩

theorem Covered.deal_of_mem {batch : ChangeBatch} {id : NodeId} (on : s.engine.mode ≠ .off)
    (member : id ∈ batch.candidates s.tree) : (s.deal batch).Covered id := by
  refine ⟨[], _, _, rfl, ?_, nofun⟩
  rw [Engine.looksAt, if_neg on]
  exact member

theorem Covered.deal {id : NodeId} (covered : s.Covered id) (batch : ChangeBatch) :
    (s.deal batch).Covered id := by
  obtain ⟨since, candidates, before, history, member, unmoved⟩ := covered
  refine ⟨.looked (s.engine.looksAt s.tree batch) :: since, candidates, before, ?_, member,
    fun m inside => ?_⟩
  · rw [Watch.deal, history, List.cons_append]
  · rcases List.mem_cons.mp inside with rfl | inside
    · exact not_false
    · exact unmoved m inside

namespace Abreast

variable (abreast : s.Abreast)

include abreast

theorem sameFrame_look (url : String) :
    s.tree.takeJournal.2.SameFrame (s.look url).tree ∧
      Engine.UpToDate (s.look url).engine (s.look url).tree := by
  have upToDate : Engine.UpToDate s.engine s.tree.takeJournal.2 :=
    abreast.upToDate.edit .takeJournal
  obtain ⟨batch, feed, result⟩ := s.look_cases url
  rw [result]
  exact ⟨Engine.sameFrame_perform upToDate (.processBatch batch),
    upToDate.perform (.processBatch batch)⟩

/-- An element that hangs at a node that the journal names is a candidate. -/
theorem mem_batchCandidates {id a : NodeId} (counts : s.tree.Counts id)
    (member : a ∈ s.tree.pending) (above : s.tree.isInclusiveAncestor a id = true) :
    id ∈ batchCandidates s.tree.takeJournal.2 s.tree.pending := by
  have linked : s.tree.takeJournal.2.Linked := abreast.rooted.linked.edit .takeJournal
  have connected := abreast.rooted.isConnected_above counts.2 above
  rw [Tree.isInclusiveAncestor_iff] at above
  have element : s.tree.isElement a = true := by
    rcases above with rfl | above
    · exact counts.1
    · exact (abreast.rooted.isElement_above above).resolve_left (abreast.notRoot a member)
  exact (NoiseFilter.mem_batchCandidates linked).mpr
    ⟨counts.1, a, ⟨member, element, connected⟩, above⟩

/-- After a look, every connected element has been looked at since it was moved. -/
theorem covered_look (on : s.engine.mode ≠ .off) (url : String) {id : NodeId}
    (counts : (s.look url).tree.Counts id) : (s.look url).Covered id := by
  have linked : s.tree.takeJournal.2.Linked := abreast.rooted.linked.edit .takeJournal
  obtain ⟨frame, -⟩ := abreast.sameFrame_look url
  rw [Tree.Counts, frame.isElement, frame.isConnected] at counts
  by_cases same : s.feed.lastUrl = some url
  · rw [look_of_same same]
    rcases abreast.reached (by simp [same]) id counts with covered | ⟨a, member, above⟩
    · exact Covered.deal (s := { s with tree := s.tree.takeJournal.2 }) covered _
    · exact .deal_of_mem on (abreast.mem_batchCandidates counts member above)
  · rw [look_of_navigation same]
    exact .deal_of_mem on (linked.mem_elements.mpr counts)

theorem look (observing : s.tree.observing = true) (on : s.engine.mode ≠ .off) (url : String) :
    (s.look url).Abreast := by
  obtain ⟨frame, upToDate⟩ := abreast.sameFrame_look url
  have rooted : s.tree.takeJournal.2.Rooted := abreast.rooted.edit (w := .takeJournal) trivial
  have none : (s.look url).tree.pending = [] := by
    rw [Tree.pending, frame.journal]
    rfl
  refine ⟨rooted.of_sameFrame frame, upToDate, ?_, fun _ => frame.observing.trans observing,
    fun _ id counts => .inl (abreast.covered_look on url counts)⟩
  rw [none]
  exact nofun

end Abreast

/-! ## Runs -/

section

variable {config : Config} {catalog : Catalog}

theorem Reached.abreast (run : Reached config catalog s) : s.Abreast := by
  induction run with
  | start made => exact ⟨.empty, .start made _, nofun, fun polled => absurd rfl polled,
      fun polled => absurd rfl polled⟩
  | edit w _ ordinary early untaken ih => exact ih.edit ordinary early untaken
  | call k _ ih => exact ih.call k
  | look url _ observing on ih => exact ih.look observing on url

/-- However the page is edited and the engine called between looks, after each look every connected
element has been a candidate of some look since it was last moved. -/
theorem covered_of_look (run : Reached config catalog s) (observing : s.tree.observing = true)
    (on : s.engine.mode ≠ .off) (url : String) :
    Reached config catalog (s.look url) ∧
      ∀ id, (s.look url).tree.isElement id = true → (s.look url).tree.isConnected id = true →
        (s.look url).Covered id :=
  ⟨run.look url observing on, fun _ element connected =>
    run.abreast.covered_look on url ⟨element, connected⟩⟩

end

/-- A paragraph has come into the page, which is watched. -/
def newPage : Watch :=
  (.observe true :: Engine.newParagraph).foldl edit { engine := Engine.smallEngine, tree := .empty }

/-- The page was looked at, and then the paragraph was taken out and put back. -/
def movedParagraph : Watch := [.detach ⟨1⟩, .append .root ⟨1⟩].foldl edit (newPage.look "a")

/-- The next look comes to the paragraph again. -/
theorem covered_of_look_movedParagraph :
    Reached Engine.smallConfig {} movedParagraph ∧ movedParagraph.tree.observing = true ∧
      movedParagraph.engine.mode ≠ .off ∧ (movedParagraph.look "a").Covered ⟨1⟩ := by
  have started : Reached Engine.smallConfig {} { engine := Engine.smallEngine, tree := .empty } :=
    .start Engine.ofConfig_smallConfig
  have new : Reached Engine.smallConfig {} newPage :=
    ((started.edit (.observe true) trivial nofun nofun).edit (.create _) trivial nofun nofun).edit
      (.append .root ⟨1⟩) ⟨by decide, .inl rfl⟩ nofun nofun
  have seen := new.look "a" (by decide +kernel) (by decide +kernel)
  have run : Reached Engine.smallConfig {} movedParagraph :=
    (seen.edit (.detach ⟨1⟩) trivial nofun nofun).edit (.append .root ⟨1⟩) ⟨by decide, .inl rfl⟩
      nofun nofun
  have observing : movedParagraph.tree.observing = true := by decide +kernel
  have on : movedParagraph.engine.mode ≠ .off := by decide +kernel
  exact ⟨run, observing, on, (covered_of_look run observing on "a").2 ⟨1⟩ (by decide +kernel)
    (by decide +kernel)⟩

end Watch

end NoiseFilter
