import Mathlib.Data.List.Chain
import NoiseFilter.Proofs.Tree.Rendered

/-!
# What rendering keeps

Tidying decides about blanks only. What it writes is made of lines (`IsLine`): none is empty, none
begins or ends with a blank, and inside a line there are single spaces between words. And it writes
every character that is not a blank, in its place (`visible_tidyFrom`). What a node shows before it is
tidied is put together from what its children show, with blanks around it, so a text is seen from a
node exactly if all nodes on the way down to it show their content (`Seen`). Both together say what a
reader sees of a node (`renderedText_visible`).
-/

namespace NoiseFilter.Tree

open Text (isBlank wordsOf)

/-! ## Lines -/

/-- A line of tidy text: words with single spaces between them. -/
structure IsLine (line : List Char) : Prop where
  filled : line ≠ []
  first : ∀ c ∈ line.head?, isBlank c = false
  last : ∀ c ∈ line.getLast?, isBlank c = false
  /-- There is no other blank than the space. -/
  spaces : ∀ c ∈ line, isBlank c = true → c = ' '
  /-- No two blanks stand side by side. -/
  single : line.IsChain fun a b => isBlank a = false ∨ isBlank b = false

namespace IsLine

theorem of_word {word : List Char} (filled : word ≠ [])
    (plain : ∀ c ∈ word, isBlank c = false) : IsLine word where
  filled := filled
  first c here := plain c (List.mem_of_mem_head? here)
  last c here := plain c (List.mem_of_mem_getLast? here)
  spaces c member blank := absurd blank (Bool.eq_false_iff.mp (plain c member))
  single := (List.pairwise_of_forall_mem_list fun a member _ _ => .inl (plain a member)).isChain

/-- Two lines with a space between them are one. -/
theorem join {left right : List Char} (isLeft : IsLine left) (isRight : IsLine right) :
    IsLine (left ++ ' ' :: right) where
  filled := List.append_ne_nil_of_left_ne_nil isLeft.filled _
  first c here := by
    rw [List.head?_append_of_ne_nil _ isLeft.filled] at here
    exact isLeft.first c here
  last c here := by
    rw [List.getLast?_append_of_ne_nil _ (List.cons_ne_nil _ _),
      List.getLast?_cons_of_ne_nil isRight.filled] at here
    exact isRight.last c here
  spaces c member blank := by
    rcases List.mem_append.mp member with inLeft | inRight
    · exact isLeft.spaces c inLeft blank
    · rcases List.mem_cons.mp inRight with here | inRight
      · exact here
      · exact isRight.spaces c inRight blank
  single := by
    refine List.isChain_append.mpr ⟨isLeft.single, ?_, fun a here b _ => .inl (isLeft.last a here)⟩
    exact List.isChain_cons.mpr ⟨fun b here => .inr (isRight.first b here), isRight.single⟩

theorem of_words {words : List (List Char)} (some : words ≠ [])
    (plain : ∀ word ∈ words, word ≠ [] ∧ ∀ c ∈ word, isBlank c = false) :
    IsLine ([' '].intercalate words) := by
  induction words with
  | nil => exact absurd rfl some
  | cons word rest ih =>
    have isWord : IsLine word := of_word (plain word List.mem_cons_self).1
      (plain word List.mem_cons_self).2
    cases rest with
    | nil => rwa [List.intercalate_singleton]
    | cons next others =>
      rw [List.intercalate_cons_cons, List.append_assoc, List.singleton_append]
      exact isWord.join (ih (List.cons_ne_nil _ _)
        fun word later => plain word (List.mem_cons_of_mem _ later))

end IsLine

theorem plain_of_mem_wordsOf {cs word : List Char} (member : word ∈ wordsOf cs) :
    word ≠ [] ∧ ∀ c ∈ word, isBlank c = false := by
  obtain ⟨part, filled⟩ := List.mem_filter.mp member
  exact ⟨by simpa using filled, fun c inside => Text.not_isBlank_of_mem_splitOnP part inside⟩

/-- Tidy text is made of lines; there is none if it is empty. -/
theorem exists_lines_tidyLines (cs : List Char) :
    ∃ lines : List String, (∀ line ∈ lines, IsLine line.toList) ∧
      tidyLines cs = "\n".intercalate lines := by
  refine ⟨_, fun line member => ?_, rfl⟩
  obtain ⟨written, filled⟩ := List.mem_filter.mp member
  obtain ⟨part, -, rfl⟩ := List.mem_map.mp written
  have blank : " ".toList = [' '] := by decide
  have same : String.toList ∘ String.ofList = id := funext fun _ => String.toList_ofList
  have toList : (" ".intercalate ((wordsOf part).map String.ofList)).toList =
      [' '].intercalate (wordsOf part) := by
    rw [String.toList_intercalate, blank, List.map_map, same, List.map_id]
  have some : wordsOf part ≠ [] := by
    intro none
    rw [none] at filled
    cases filled
  rw [toList]
  exact .of_words some fun word => plain_of_mem_wordsOf

example : tidyLines "\n one\t two \n \n\u00a0three".toList = "one two\nthree" := by decide +kernel

/-! ## Visible characters -/

/-- The characters of a text that are not blank. -/
def visible (cs : List Char) : List Char := cs.filter (!isBlank ·)

theorem visible_append (cs ds : List Char) : visible (cs ++ ds) = visible cs ++ visible ds :=
  List.filter_append ..

theorem visible_flatMap {α : Type} (xs : List α) (f : α → List Char) :
    visible (xs.flatMap f) = xs.flatMap fun x => visible (f x) :=
  List.filter_flatMap ..

theorem visible_cons_of_blank {c : Char} (blank : isBlank c = true) (cs : List Char) :
    visible (c :: cs) = visible cs :=
  List.filter_cons_of_neg (by simpa using blank)

theorem visible_gap (g : Gap) : visible g.text = [] := by cases g <;> rfl

/-- Tidying keeps all characters but blanks. -/
theorem visible_tidyFrom (g : Gap) (cs : List Char) : visible (tidyFrom g cs) = visible cs := by
  induction cs generalizing g with
  | nil => rfl
  | cons c cs ih =>
    rw [tidyFrom]
    split
    · rename_i blank
      rw [ih, visible_cons_of_blank blank]
    · rename_i shows
      rw [visible_append, visible_gap, List.nil_append, visible, visible,
        List.filter_cons_of_pos (by simpa using shows), List.filter_cons_of_pos (by simpa using shows)]
      exact congrArg (c :: ·) (ih .word)

theorem visible_map_showChar (cs : List Char) : visible (cs.map showChar) = visible cs := by
  induction cs with
  | nil => rfl
  | cons c cs ih =>
    rw [List.map_cons, showChar]
    split
    · rename_i blank
      rw [visible_cons_of_blank blank, visible_cons_of_blank (by decide), ih]
    · rename_i shows
      rw [visible, visible, List.filter_cons_of_pos (by simpa using shows),
        List.filter_cons_of_pos (by simpa using shows)]
      exact congrArg (c :: ·) ih

/-! ## What is seen of a node -/

variable {t : Tree}

/-- The visible characters of a text node. -/
def visibleText (t : Tree) (id : NodeId) : List Char := visible ((t.text? id).getD "").toList

/-- The text nodes that are seen of a node, in document order: the node itself, or those inside it
with nothing on the way down to them that hides its content. -/
structure Seen (t : Tree) (id : NodeId) (texts : List NodeId) : Prop where
  ordered : texts.Pairwise t.forest.Precedes
  mem_iff : ∀ x, x ∈ texts ↔ (t.text? x).isSome = true ∧ t.isInclusiveAncestor id x = true ∧
    ∀ a ∈ t.ancestors x, t.isInclusiveAncestor id a = true → t.ShowsContent a

theorem ShowsContent.not_text {id : NodeId} (shows : t.ShowsContent id) :
    ¬ (t.text? id).isSome = true := by
  rw [text?]
  rcases shows with document | ⟨e, element, -⟩
  · rw [document]
    exact Bool.false_ne_true
  · rw [element]
    exact Bool.false_ne_true

theorem data?_of_text? {id : NodeId} {s : String} (text : t.text? id = some s) :
    t.data? id = some (.text s) := by
  obtain ⟨data, here, isText⟩ := Option.bind_eq_some_iff.mp text
  cases data with
  | text _ =>
    cases isText
    exact here
  | document | doctype _ | element _ | comment _ => cases isText

/-- Of a node that shows its content what its children show is visible. -/
theorem visible_shown_of_showsContent {id : NodeId} (shows : t.ShowsContent id) (bound : Nat) :
    visible (t.shown (bound + 1) id) =
      (t.children id).flatMap fun c => visible (t.shown bound c) := by
  rw [shown, ← visible_flatMap]
  obtain document | ⟨e, element, rendered, noBreak⟩ := shows
  · rw [document]
  · have newline : visible ['\n'] = [] := by decide
    have space : visible [' '] = [] := by decide
    simp only [element, rendered, Bool.false_eq_true, if_false, if_neg noBreak]
    split
    · rw [visible_append, visible_cons_of_blank (by decide), newline, List.append_nil]
    · split
      · rw [visible_append, space, List.append_nil]
      · rfl

/-- Of a text node its own text is visible. -/
theorem visible_shown_of_text {id : NodeId} {s : String} (text : t.data? id = some (.text s))
    (bound : Nat) : visible (t.shown (bound + 1) id) = t.visibleText id := by
  rw [shown, visibleText, text?, text]
  exact visible_map_showChar s.toList

/-- Of any other node nothing is. -/
theorem visible_shown_of_hidden {id : NodeId} (hides : ¬ t.ShowsContent id)
    (noText : ¬ (t.text? id).isSome = true) (bound : Nat) : visible (t.shown bound id) = [] := by
  cases bound with
  | zero => rfl
  | succ bound =>
    rw [shown]
    split
    · rename_i s text
      exact absurd (by rw [text?, text]; rfl) noText
    · rename_i e element
      split
      · rfl
      · rename_i rendered
        split
        · rfl
        · rename_i noBreak
          exact absurd (.inr ⟨e, element, Bool.eq_false_iff.mpr rendered, noBreak⟩) hides
    · rename_i document
      exact absurd (.inl document) hides
    · rfl

/-- Of a node that hides its content, and is no text, nothing is seen. -/
theorem seen_of_hidden {id : NodeId} (hides : ¬ t.ShowsContent id) (noText : ¬ (t.text? id).isSome = true) :
    t.Seen id [] where
  ordered := .nil
  mem_iff x := by
    refine iff_of_false List.not_mem_nil ?_
    rintro ⟨text, inside, way⟩
    rcases isInclusiveAncestor_iff.mp inside with rfl | above
    · exact noText text
    · exact hides (way id above (isInclusiveAncestor_iff.mpr (.inl rfl)))

namespace Linked

variable (linked : t.Linked) {id x : NodeId}

include linked

theorem not_above_of_above {a b : NodeId} (above : a ∈ t.ancestors b) :
    t.isInclusiveAncestor b a ≠ true := by
  intro circle
  rcases isInclusiveAncestor_iff.mp circle with rfl | higher
  · exact linked.forest.not_mem_ancestors_self b above
  · exact linked.forest.not_mem_ancestors_self a (linked.forest.ancestors_trans above higher)

/-- Of a text node the node itself is seen. -/
theorem seen_of_text (text : (t.text? id).isSome = true) : t.Seen id [id] where
  ordered := List.pairwise_singleton ..
  mem_iff x := by
    rw [List.mem_singleton]
    constructor
    · rintro rfl
      exact ⟨text, isInclusiveAncestor_iff.mpr (.inl rfl), fun a above inside =>
        absurd inside (linked.not_above_of_above above)⟩
    · rintro ⟨-, inside, way⟩
      rcases isInclusiveAncestor_iff.mp inside with rfl | above
      · rfl
      · exact absurd text (way id above (isInclusiveAncestor_iff.mpr (.inl rfl))).not_text

/-- Of the nodes above `x` those at or below a node are the node itself and those at or below its
child on the way. -/
theorem isInclusiveAncestor_iff_of_child {a c : NodeId} (child : c ∈ t.children id)
    (inside : t.isInclusiveAncestor c x = true) (above : a ∈ t.ancestors x) :
    t.isInclusiveAncestor id a = true ↔ id = a ∨ t.isInclusiveAncestor c a = true := by
  have line : t.forest.ancestors c = id :: t.forest.ancestors id :=
    linked.forest.ancestors_of_parent ((linked.forest.mem_children id c).mp child)
  rw [isInclusiveAncestor_iff, isInclusiveAncestor_iff]
  refine or_congr_right' fun different => ⟨fun lower => ?_, fun place => ?_⟩
  · rcases linked.forest.line_up (isInclusiveAncestor_iff.mp inside) (.inr above)
      with same | lowerC | higher
    · exact .inl same
    · exact .inr lowerC
    · rcases List.mem_cons.mp (line ▸ higher) with same | higher
      · exact absurd same.symm different
      · exact absurd (isInclusiveAncestor_iff.mpr (.inr higher)) (linked.not_above_of_above lower)
  · have aboveC : id ∈ t.forest.ancestors c := line ▸ List.mem_cons_self
    rcases place with rfl | lower
    · exact aboveC
    · exact linked.forest.ancestors_trans aboveC lower

/-- Of a node that shows its content what is seen of its children is seen. -/
theorem seen_of_showsContent (shows : t.ShowsContent id) {under : NodeId → List NodeId}
    (seen : ∀ c ∈ t.children id, t.Seen c (under c)) :
    t.Seen id ((t.children id).flatMap under) where
  ordered := by
    have within {c x : NodeId} (child : c ∈ t.children id) (member : x ∈ under c) :
        x = c ∨ t.forest.Below c x := by
      have inside := (((seen c child).mem_iff x).mp member).2.1
      exact (isInclusiveAncestor_iff.mp inside).imp Eq.symm linked.forest.mem_ancestors_iff.mp
    refine List.pairwise_flatMap.mpr ⟨fun c child => (seen c child).ordered,
      List.pairwise_iff_forall_sublist.mpr fun {c d} siblings x inC y inD => ?_⟩
    exact .aside siblings (within (siblings.subset (by simp)) inC)
      (within (siblings.subset (by simp)) inD)
  mem_iff x := by
    have around {c : NodeId} (child : c ∈ t.children id)
        (inside : t.isInclusiveAncestor c x = true) : t.isInclusiveAncestor id x = true := by
      have atChild : c = id ∨ t.forest.Below id c :=
        .inr (.single ((linked.forest.mem_children id c).mp child))
      have atNode := Forest.below_of_inside
        ((isInclusiveAncestor_iff.mp inside).imp Eq.symm linked.forest.mem_ancestors_iff.mp) atChild
      exact isInclusiveAncestor_iff.mpr
        (atNode.imp Eq.symm linked.forest.mem_ancestors_iff.mpr)
    rw [List.mem_flatMap]
    constructor
    · rintro ⟨c, child, member⟩
      obtain ⟨text, inside, way⟩ := ((seen c child).mem_iff x).mp member
      refine ⟨text, around child inside, fun a above insideA => ?_⟩
      rcases (linked.isInclusiveAncestor_iff_of_child child inside above).mp insideA
        with rfl | lower
      · exact shows
      · exact way a above lower
    · rintro ⟨text, inside, way⟩
      rcases isInclusiveAncestor_iff.mp inside with rfl | above
      · exact absurd text shows.not_text
      · obtain ⟨c, parent, place⟩ := linked.forest.exists_child_of_mem_ancestors above
        have child : c ∈ t.children id := (linked.forest.mem_children id c).mpr parent
        have insideC : t.isInclusiveAncestor c x = true := isInclusiveAncestor_iff.mpr place
        refine ⟨c, child, ((seen c child).mem_iff x).mpr ⟨text, insideC, fun a above lower => ?_⟩⟩
        exact way a above
          ((linked.isInclusiveAncestor_iff_of_child child insideC above).mpr (.inr lower))

/-- The visible characters of what a node shows are those of the texts that are seen of it. -/
theorem exists_seen (id : NodeId) : ∃ texts, t.Seen id texts ∧
    visible (t.shown t.size id) = texts.flatMap t.visibleText := by
  induction id using linked.forest.down_induction with
  | step id ih =>
    by_cases shows : t.ShowsContent id
    · choose! under seen same using ih
      refine ⟨_, linked.seen_of_showsContent shows seen, ?_⟩
      rw [← linked.shown_succ (Nat.le_add_right ..), visible_shown_of_showsContent shows,
        List.flatMap_assoc]
      exact List.flatMap_congr same
    · by_cases text : (t.text? id).isSome = true
      · refine ⟨_, linked.seen_of_text text, ?_⟩
        obtain ⟨s, found⟩ := Option.isSome_iff_exists.mp text
        rw [← linked.shown_succ (Nat.le_add_right ..),
          visible_shown_of_text (data?_of_text? found), List.flatMap_singleton]
      · exact ⟨_, seen_of_hidden shows text, visible_shown_of_hidden shows text _⟩

end Linked

/-- However a tree has come about by edits: what a reader sees of a node is empty or is made of lines
that are joined by single line breaks, each of them made of words with single spaces between them.
And its characters that are not blank are those of the text nodes that are seen of the node, in
document order. -/
theorem renderedText_visible (ws : List Edit) (id : NodeId) :
    let t := edited ws
    (∃ lines : List String, (∀ line ∈ lines, IsLine line.toList) ∧
      t.renderedText id = "\n".intercalate lines) ∧
    ∃ texts, t.Seen id texts ∧
      visible (t.renderedText id).toList = texts.flatMap t.visibleText := by
  intro t
  refine ⟨exists_lines_tidyLines _, ?_⟩
  obtain ⟨texts, seen, same⟩ := (linked_edited ws).exists_seen id
  exact ⟨texts, seen, by rw [renderedText, toList_tidyLines, visible_tidyFrom, same]⟩

end NoiseFilter.Tree
