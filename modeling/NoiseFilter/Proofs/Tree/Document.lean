import Mathlib.Data.List.Basic
import Mathlib.Data.List.Induction
import NoiseFilter.Proofs.Tree.Edit
import NoiseFilter.Tree.Document

/-!
# Handles of a document

Locating reads the `html` element off the tree, then its head and body, and the title follows the head. The
handle of the `html` element is always what the tree shows. Those of the head and the body are not touched
where there is no `html` element: they keep what the last tree that had one showed, or what the document
began with (`keeps_after`), although these nodes may hang nowhere. So what has been located can be relied
on exactly if there is an `html` element, or nothing to keep (`isLocated_iff`).
-/

namespace NoiseFilter

namespace Tree

/-- The first child of a node that is an element with this tag, or none if there is none. -/
inductive FirstNamed (t : Tree) (parent : NodeId) (tag : String) : Option NodeId → Prop where
  | found {before after : List NodeId} {c : NodeId} (all : t.children parent = before ++ c :: after)
      (named : t.tag? c = some tag) (others : ∀ b ∈ before, t.tag? b ≠ some tag) :
      FirstNamed t parent tag (some c)
  | missing (others : ∀ c ∈ t.children parent, t.tag? c ≠ some tag) : FirstNamed t parent tag none

/-- The same below a node that may be missing itself. -/
def FirstBelow (t : Tree) (parent : Option NodeId) (tag : String) (child : Option NodeId) : Prop :=
  match parent with
  | some parent => t.FirstNamed parent tag child
  | none => child = none

variable {t : Tree} {parent : NodeId} {tag : String} {child child' : Option NodeId}

/-- A node with a tag is an element. -/
theorem isElement_of_tag? {id : NodeId} (named : t.tag? id = some tag) : t.isElement id = true := by
  obtain ⟨e, here, -⟩ := Option.map_eq_some_iff.mp named
  rw [isElement, here]
  rfl

theorem childNamed_eq (t : Tree) (parent : NodeId) (tag : String) : Document.childNamed t parent tag =
    (t.children parent).find? fun c => t.tag? c == some tag := by
  rw [Document.childNamed, elementChildren, List.find?_filter]
  congr 1
  funext c
  rw [Bool.eq_iff_iff, decide_eq_true_iff, beq_iff_eq, and_iff_right_iff_imp]
  exact isElement_of_tag?

/-- The search for a child finds the first of its tag. -/
theorem childNamed_eq_iff : Document.childNamed t parent tag = child ↔ t.FirstNamed parent tag child := by
  rw [childNamed_eq]
  cases child with
  | none =>
    rw [List.find?_eq_none]
    constructor
    · exact fun others => .missing fun c member => by simpa using others c member
    · intro missing c member
      cases missing with
      | missing others => simpa using others c member
  | some c =>
    rw [List.find?_eq_some_iff_append]
    constructor
    · rintro ⟨named, before, after, all, others⟩
      exact .found all (by simpa using named) fun b member => by simpa using others b member
    · rintro ⟨all, named, others⟩
      exact ⟨by simpa using named, _, _, all, fun b member => by simpa using others b member⟩

theorem FirstNamed.unique (first : t.FirstNamed parent tag child) (first' : t.FirstNamed parent tag child') :
    child = child' :=
  (childNamed_eq_iff.mpr first).symm.trans (childNamed_eq_iff.mpr first')

theorem FirstBelow.unique {parent : Option NodeId} (first : t.FirstBelow parent tag child)
    (first' : t.FirstBelow parent tag child') : child = child' := by
  cases parent with
  | none => exact Eq.trans first (Eq.symm first')
  | some parent => exact FirstNamed.unique first first'

end Tree

namespace Document

/-! ## What the tree shows -/

/-- A title is the trimmed text of a node, or empty without one. -/
def titleText (t : Tree) : Option NodeId → String
  | some id => Text.trim (t.textContent id)
  | none => ""

/-- The handles and the title are what the tree shows. -/
structure IsLocated (d : Document) : Prop where
  html : d.tree.FirstNamed .root "html" d.html
  head : d.tree.FirstBelow d.html "head" d.head
  body : d.tree.FirstBelow d.html "body" d.body
  title : ∃ title, d.tree.FirstBelow d.head "title" title ∧ d.title = titleText d.tree title

/-- Two documents show the same. -/
structure Agrees (d d' : Document) : Prop where
  html : d.html = d'.html
  head : d.head = d'.head
  body : d.body = d'.body
  title : d.title = d'.title

variable {d d' : Document}

/-- The title goes by the handle of the head, wherever this leads. -/
theorem exists_title (d : Document) :
    ∃ title, d.tree.FirstBelow d.head "title" title ∧ d.title = titleText d.tree title := by
  refine ⟨d.head.bind fun head => childNamed d.tree head "title", ?_, ?_⟩
  · cases d.head with
    | none => rfl
    | some head => exact Tree.childNamed_eq_iff.mp rfl
  · rw [Document.title]
    split <;> rename_i found <;> rw [found] <;> rfl

/-- On one tree, documents that lead to the same nodes have the same title. -/
theorem title_congr (same : d.tree = d'.tree) (head : d.head = d'.head) : d.title = d'.title := by
  obtain ⟨title, first, text⟩ := d.exists_title
  obtain ⟨title', first', text'⟩ := d'.exists_title
  rw [same, head] at first
  rw [text, text', same, first.unique first']

/-- What is located depends on nothing but the tree. -/
theorem IsLocated.agrees (located : d.IsLocated) (located' : d'.IsLocated) (same : d.tree = d'.tree) :
    d.Agrees d' := by
  have html := located.html
  rw [same] at html
  have html := html.unique located'.html
  have head := located.head
  rw [same, html] at head
  have head := head.unique located'.head
  have body := located.body
  rw [same, html] at body
  exact ⟨html, head, body.unique located'.body, title_congr same head⟩

/-! ## Locating -/

theorem locate_of_found {html : NodeId} (found : d.tree.FirstNamed .root "html" (some html)) :
    d.locate = { d with
      html := some html
      head := childNamed d.tree html "head"
      body := childNamed d.tree html "body" } := by
  rw [locate, Tree.childNamed_eq_iff.mpr found]

theorem locate_of_missing (missing : d.tree.FirstNamed .root "html" none) :
    d.locate = { d with html := none } := by
  rw [locate, Tree.childNamed_eq_iff.mpr missing]

theorem tree_locate (d : Document) : d.locate.tree = d.tree := by
  rw [locate]
  split <;> rfl

/-- There is an `html` element, or there is none. -/
theorem found_or_missing (d : Document) : (∃ html, d.tree.FirstNamed .root "html" (some html)) ∨
    d.tree.FirstNamed .root "html" none := by
  cases found : childNamed d.tree .root "html" with
  | none => exact .inr (Tree.childNamed_eq_iff.mp found)
  | some html => exact .inl ⟨html, Tree.childNamed_eq_iff.mp found⟩

/-- The `html` element is always located. -/
theorem firstNamed_html (d : Document) : d.tree.FirstNamed .root "html" d.locate.html := by
  obtain ⟨html, found⟩ | missing := d.found_or_missing
  · rw [locate_of_found found]
    exact found
  · rw [locate_of_missing missing]
    exact missing

/-- Where there is an `html` element, all is located. -/
theorem isLocated_of_found {html : NodeId} (found : d.tree.FirstNamed .root "html" (some html)) :
    d.locate.IsLocated where
  html := d.tree_locate ▸ d.firstNamed_html
  head := by
    rw [locate_of_found found]
    exact Tree.childNamed_eq_iff.mp rfl
  body := by
    rw [locate_of_found found]
    exact Tree.childNamed_eq_iff.mp rfl
  title := d.locate.exists_title

/-- All is located exactly if there is an `html` element, or there was neither a head nor a body before. -/
theorem isLocated_iff (d : Document) : d.locate.IsLocated ↔
    (∃ html, d.tree.FirstNamed .root "html" (some html)) ∨ d.head = none ∧ d.body = none := by
  constructor
  · intro located
    refine d.found_or_missing.imp_right fun missing => ?_
    rw [locate_of_missing missing] at located
    exact ⟨located.head, located.body⟩
  · rintro (⟨html, found⟩ | ⟨noHead, noBody⟩)
    · exact isLocated_of_found found
    · obtain ⟨html, found⟩ | missing := d.found_or_missing
      · exact isLocated_of_found found
      · rw [locate_of_missing missing]
        exact ⟨missing, noHead, noBody, exists_title _⟩

/-- On one tree, documents agree on the `html` element, and on all exactly if there is one or if they had
the same head and body before. -/
theorem agrees_locate_iff (same : d.tree = d'.tree) : d.locate.html = d'.locate.html ∧
    (d.locate.Agrees d'.locate ↔ (∃ html, d.tree.FirstNamed .root "html" (some html)) ∨
      d.head = d'.head ∧ d.body = d'.body) := by
  have trees : d.locate.tree = d'.locate.tree := by rw [tree_locate, tree_locate, same]
  have html : d.locate.html = d'.locate.html := (same ▸ d.firstNamed_html).unique d'.firstNamed_html
  refine ⟨html, fun agrees => ?_, ?_⟩
  · refine d.found_or_missing.imp_right fun missing => ?_
    have head := agrees.head
    have body := agrees.body
    rw [locate_of_missing missing, locate_of_missing (same ▸ missing)] at head body
    exact ⟨head, body⟩
  · rintro (⟨html, found⟩ | ⟨head, body⟩)
    · exact (isLocated_of_found found).agrees (isLocated_of_found (same ▸ found)) trees
    · obtain ⟨html, found⟩ | missing := d.found_or_missing
      · exact (isLocated_of_found found).agrees (isLocated_of_found (same ▸ found)) trees
      · have heads : d.locate.head = d'.locate.head := by
          rwa [locate_of_missing missing, locate_of_missing (same ▸ missing)]
        refine ⟨html, heads, ?_, title_congr trees heads⟩
        rwa [locate_of_missing missing, locate_of_missing (same ▸ missing)]

/-! ## Runs -/

/-- What is done to a document: its tree is edited, or the handles are located. -/
inductive Act where
  | edit (w : Edit)
  | locate

/-- The document after an act. -/
def Act.run (d : Document) : Act → Document
  | edit w => { d with tree := w.apply d.tree }
  | locate => d.locate

/-- The document after acts, one after the other. -/
def after (d : Document) (acts : List Act) : Document := acts.foldl Act.run d

theorem after_append (d : Document) (acts more : List Act) :
    d.after (acts ++ more) = (d.after acts).after more :=
  List.foldl_append

theorem after_concat (d : Document) (acts : List Act) (act : Act) :
    d.after (acts ++ [act]) = act.run (d.after acts) :=
  List.foldl_concat ..

/-- Whenever the handles are located, there is no `html` element. -/
def Misses (d : Document) (acts : List Act) : Prop :=
  ∀ front back, acts = front ++ .locate :: back → (d.after front).tree.FirstNamed .root "html" none

/-- These are the head and the body of the last `html` element that was met when the handles were located.
If none ever was, they are what the document began with. -/
def Keeps (start : Document) (acts : List Act) (head body : Option NodeId) : Prop :=
  (∃ early late html, acts = early ++ .locate :: late ∧
    (start.after early).tree.FirstNamed .root "html" (some html) ∧
    (start.after (early ++ [.locate])).Misses late ∧
    (start.after early).tree.FirstNamed html "head" head ∧
    (start.after early).tree.FirstNamed html "body" body) ∨
  start.Misses acts ∧ head = start.head ∧ body = start.body

theorem misses_concat {acts : List Act} {act : Act} (misses : d.Misses acts)
    (last : act = .locate → (d.after acts).tree.FirstNamed .root "html" none) :
    d.Misses (acts ++ [act]) := by
  intro front back halves
  rcases List.eq_nil_or_concat' back with rfl | ⟨back, act', rfl⟩
  · obtain ⟨rfl, same⟩ := List.append_inj' halves rfl
    exact last (List.singleton_inj.mp same)
  · rw [← List.cons_append, ← List.append_assoc] at halves
    exact misses front back (List.append_inj' halves rfl).1

/-- What is kept is kept on by an act that meets no `html` element. -/
theorem Keeps.concat {start : Document} {acts : List Act} {head body : Option NodeId} {act : Act}
    (keeps : start.Keeps acts head body)
    (last : act = .locate → (start.after acts).tree.FirstNamed .root "html" none) :
    start.Keeps (acts ++ [act]) head body := by
  obtain ⟨early, late, html, rfl, met, misses, shown⟩ | ⟨misses, begun⟩ := keeps
  · refine .inl ⟨early, late ++ [act], html, by simp, met, misses_concat misses ?_, shown⟩
    rwa [← after_append, List.append_assoc, List.singleton_append]
  · exact .inr ⟨misses_concat misses last, begun⟩

/-- The handles of the head and the body are what is kept. -/
theorem keeps_after (start : Document) (acts : List Act) :
    start.Keeps acts (start.after acts).head (start.after acts).body := by
  induction acts using List.reverseRecOn with
  | nil => exact .inr ⟨fun front back halves => by simp at halves, rfl, rfl⟩
  | append_singleton acts act ih =>
    rw [after_concat]
    cases act with
    | edit w => exact ih.concat nofun
    | locate =>
      rw [Act.run]
      obtain ⟨html, met⟩ | missing := (start.after acts).found_or_missing
      · rw [locate_of_found met]
        refine .inl ⟨acts, [], html, rfl, met, fun front back halves => by simp at halves, ?_⟩
        exact ⟨Tree.childNamed_eq_iff.mp rfl, Tree.childNamed_eq_iff.mp rfl⟩
      · rw [locate_of_missing missing]
        exact ih.concat fun _ => missing

/-- Whatever is done to a document, right after locating the handle of the `html` element is what the tree
shows, and the title is that of the head that is kept or found. So are the handles of the head and the body
if there is an `html` element or nothing was kept, and only then: where there is none they lead to what was
kept. Two documents with the same tree agree on the `html` element, and on all if there is one or if they
keep the same. -/
theorem isLocated_of_acts (start : Document) (acts : List Act) :
    let before := start.after acts
    let located := start.after (acts ++ [.locate])
    start.Keeps acts before.head before.body ∧
    located.tree = before.tree ∧
    located.tree.FirstNamed .root "html" located.html ∧
    (∃ title, located.tree.FirstBelow located.head "title" title ∧
      located.title = titleText located.tree title) ∧
    (located.IsLocated ↔ (∃ html, located.tree.FirstNamed .root "html" (some html)) ∨
      before.head = none ∧ before.body = none) ∧
    (located.tree.FirstNamed .root "html" none →
      located.head = before.head ∧ located.body = before.body) ∧
    ∀ (other : Document) (acts' : List Act),
      let before' := other.after acts'
      let located' := other.after (acts' ++ [.locate])
      located.tree = located'.tree → located.html = located'.html ∧
        (located.Agrees located' ↔ (∃ html, located.tree.FirstNamed .root "html" (some html)) ∨
          before.head = before'.head ∧ before.body = before'.body) := by
  simp only [after_concat, Act.run, tree_locate]
  refine ⟨keeps_after start acts, trivial, firstNamed_html _, ?_, isLocated_iff _, fun missing => ?_, ?_⟩
  · have title := (start.after acts).locate.exists_title
    rwa [tree_locate] at title
  · rw [locate_of_missing missing]
    exact ⟨rfl, rfl⟩
  · intro other acts' same
    exact agrees_locate_iff same

/-- An empty page whose `html` element has been taken out keeps its head when it is located. -/
theorem not_isLocated : ¬ ∀ (url : String) (acts : List Act),
    ((skeleton url).after (acts ++ [.locate])).IsLocated := by
  intro always
  have located := always "about:blank" [.edit (.detach ⟨1⟩)]
  have html : ((skeleton "about:blank").after [.edit (.detach ⟨1⟩), .locate]).html = none := by
    decide +kernel
  have head : ((skeleton "about:blank").after [.edit (.detach ⟨1⟩), .locate]).head = some ⟨2⟩ := by
    decide +kernel
  have shown := located.head
  rw [List.singleton_append, html, head] at shown
  cases shown

end Document

end NoiseFilter
