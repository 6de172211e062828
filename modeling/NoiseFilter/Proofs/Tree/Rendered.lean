import NoiseFilter.Proofs.Extended.Scan
import NoiseFilter.Proofs.Text.Words
import NoiseFilter.Proofs.Tree.ChildLists
import NoiseFilter.Proofs.Tree.Order
import NoiseFilter.Proofs.Tree.Place
import NoiseFilter.Tree.Text

/-!
# What a reader sees

The text of a node is gathered first and tidied afterwards: it is cut into lines, the lines into
words, and what is left is put together again. The same comes about in one pass from left to right
that writes each character it can see, after the gap that the blanks in front of it leave (`tidyFrom`).
What has been written before makes a difference to that gap only, so a part of a text is tidied to
a part of what the text is tidied to (`infix_tidyLines`). So what a reader sees of a node is part of
what a reader sees of the nodes around it, as long as these show their content
(`renderedText_inside`).
-/

namespace NoiseFilter.Tree

open Text (isBlank wordsOf)

/-! ## Tidying in one pass -/

/-- What stands between the last character that was written and the next. -/
inductive Gap where
  /-- Nothing has been written. -/
  | start
  /-- Nothing stands between them. -/
  | word
  /-- They are in one line, but not in one word. -/
  | space
  /-- They are in different lines. -/
  | line

namespace Gap

/-- How a gap is written. -/
def text : Gap → List Char
  | start | word => []
  | space => [' ']
  | line => ['\n']

/-- The gap with one more blank in it. -/
def widen : Gap → Char → Gap
  | start, _ => start
  | line, _ => line
  | word, c | space, c => if c = '\n' then line else space

/-- The gap after one more character. -/
def next (g : Gap) (c : Char) : Gap := if isBlank c then g.widen c else word

end Gap

/-- Write the characters that are not blank, each after its gap. -/
def tidyFrom : Gap → List Char → List Char
  | _, [] => []
  | g, c :: cs => if isBlank c then tidyFrom (g.widen c) cs else g.text ++ c :: tidyFrom .word cs

theorem tidyFrom_append (g : Gap) (cs ds : List Char) :
    tidyFrom g (cs ++ ds) = tidyFrom g cs ++ tidyFrom (cs.foldl Gap.next g) ds := by
  induction cs generalizing g with
  | nil => rfl
  | cons c cs ih =>
    rw [List.cons_append, tidyFrom, tidyFrom, List.foldl_cons, Gap.next]
    split
    · exact ih _
    · rw [ih, List.append_assoc, List.cons_append]

/-- What comes before a text makes a difference to the gap in front of it only. -/
theorem tidyFrom_start_suffix (g : Gap) (cs : List Char) : tidyFrom .start cs <:+ tidyFrom g cs := by
  induction cs generalizing g with
  | nil => exact List.suffix_rfl
  | cons c cs ih =>
    rw [tidyFrom, tidyFrom]
    split
    · exact ih _
    · exact List.suffix_append g.text _

theorem infix_tidyFrom {part cs : List Char} (inside : part <:+: cs) :
    tidyFrom .start part <:+: tidyFrom .start cs := by
  obtain ⟨before, behind, rfl⟩ := inside
  obtain ⟨gap, ending⟩ := tidyFrom_start_suffix (before.foldl Gap.next .start) part
  rw [tidyFrom_append, tidyFrom_append, ← ending, ← List.append_assoc]
  exact ⟨tidyFrom .start before ++ gap, _, rfl⟩

/-! ### Lines and words -/

section Words

variable {c : Char} {cs : List Char}

theorem wordsOf_cons_of_blank (blank : isBlank c = true) : wordsOf (c :: cs) = wordsOf cs := by
  simp [wordsOf, List.splitOnP_cons_eq_if_modifyHead, blank]

/-- The first word and those behind it. -/
theorem wordsOf_cons_of_not_blank (visible : isBlank c = false) :
    wordsOf (c :: cs) =
      (c :: cs.takeWhile (!isBlank ·)) :: wordsOf (cs.dropWhile (!isBlank ·)) := by
  have plain : ∀ x ∈ c :: cs.takeWhile (!isBlank ·), isBlank x = false := by
    refine List.forall_mem_cons.mpr ⟨visible, fun x member => ?_⟩
    simpa using List.mem_takeWhile_imp member
  conv => lhs; rw [← List.takeWhile_append_dropWhile (p := (!isBlank ·)) (l := cs)]
  rw [← List.cons_append]
  cases rest : cs.dropWhile (!isBlank ·) with
  | nil =>
    rw [List.append_nil, wordsOf, List.splitOnP_eq_singleton plain]
    rfl
  | cons b others =>
    have blank : isBlank b = true := by
      have stopped := List.head_dropWhile_not (p := (!isBlank ·)) (l := cs) (by simp [rest])
      simpa [rest] using stopped
    rw [Text.wordsOf_append_cons (List.cons_ne_nil _ _) plain blank, wordsOf_cons_of_blank blank]

end Words

/-- Parts, each with a separator in front. -/
def led (sep : Char) (parts : List (List Char)) : List Char := parts.flatMap (sep :: ·)

theorem intercalate_cons (sep : Char) (part : List Char) (parts : List (List Char)) :
    [sep].intercalate (part :: parts) = part ++ led sep parts := by
  induction parts generalizing part with
  | nil => simp [led]
  | cons next rest ih => simp [List.intercalate_cons_cons, ih, led]

/-- The words of a line with single spaces between them. -/
def tidyLine (line : List Char) : List Char := [' '].intercalate (wordsOf line)

/-- Lines that hold words, tidied. -/
def tidied (lines : List (List Char)) : List (List Char) :=
  (lines.map tidyLine).filter (!·.isEmpty)

/-- What is written after a gap: the rest of a line, and lines behind it. -/
def written : Gap → List Char → List (List Char) → List Char
  | .start, line, lines => ['\n'].intercalate (tidied (line :: lines))
  | .line, line, lines => led '\n' (tidied (line :: lines))
  | .space, line, lines => led ' ' (wordsOf line) ++ led '\n' (tidied lines)
  | .word, line, lines =>
    line.takeWhile (!isBlank ·) ++ led ' ' (wordsOf (line.dropWhile (!isBlank ·))) ++
      led '\n' (tidied lines)

section Written

variable (g : Gap) {c : Char} (line : List Char) (lines : List (List Char))

theorem tidied_cons_of_blank (blank : isBlank c = true) :
    tidied ((c :: line) :: lines) = tidied (line :: lines) := by
  simp only [tidied, List.map_cons, tidyLine, wordsOf_cons_of_blank blank]

theorem written_newline : written (g.widen '\n') line lines = written g [] (line :: lines) := by
  have nothing : tidied ([] :: line :: lines) = tidied (line :: lines) := rfl
  cases g with
  | start => simp only [Gap.widen, written, nothing]
  | word => rfl
  | space => rfl
  | line => simp only [Gap.widen, written, nothing]

theorem written_blank (blank : isBlank c = true) (sameLine : c ≠ '\n') :
    written (g.widen c) line lines = written g (c :: line) lines := by
  cases g with
  | start => simp only [Gap.widen, written, tidied_cons_of_blank line lines blank]
  | line => simp only [Gap.widen, written, tidied_cons_of_blank line lines blank]
  | word => simp [Gap.widen, written, sameLine, blank, wordsOf_cons_of_blank]
  | space => simp [Gap.widen, written, sameLine, blank, wordsOf_cons_of_blank]

theorem written_visible (visible : isBlank c = false) :
    g.text ++ c :: written .word line lines = written g (c :: line) lines := by
  have words : wordsOf (c :: line) =
      (c :: line.takeWhile (!isBlank ·)) :: wordsOf (line.dropWhile (!isBlank ·)) :=
    wordsOf_cons_of_not_blank visible
  have first : tidied ((c :: line) :: lines) = tidyLine (c :: line) :: tidied lines := by
    rw [tidied, List.map_cons, List.filter_cons, if_pos]
    · rfl
    · simp [tidyLine, words, intercalate_cons]
  cases g with
  | start => simp [written, first, tidyLine, words, intercalate_cons, Gap.text]
  | line => simp [written, first, tidyLine, words, intercalate_cons, Gap.text, led]
  | word => simp [written, visible, Gap.text]
  | space => simp [written, words, Gap.text, led]

end Written

/-- One pass writes what cutting into lines and words and joining these comes to. -/
theorem tidyFrom_eq_written (g : Gap) {cs line : List Char} {lines : List (List Char)}
    (cut : cs.splitOn '\n' = line :: lines) : tidyFrom g cs = written g line lines := by
  induction cs generalizing g line lines with
  | nil =>
    cases cut
    cases g <;> rfl
  | cons c cs ih =>
    obtain ⟨line', lines', rest⟩ := List.exists_cons_of_ne_nil (List.splitOnP_ne_nil (· == '\n') cs)
    rw [List.splitOn, List.splitOnP_cons_eq_if_modifyHead, rest] at cut
    have later (g : Gap) : tidyFrom g cs = written g line' lines' := ih g rest
    rw [tidyFrom]
    by_cases newline : c = '\n'
    · subst newline
      cases cut
      rw [if_pos (by decide), later, written_newline]
    · rw [if_neg (by simpa using newline)] at cut
      cases cut
      split
      · rename_i blank
        rw [later, written_blank g _ _ blank newline]
      · rename_i visible
        rw [later, written_visible g _ _ (Bool.eq_false_iff.mpr visible)]

theorem toList_tidyLines (cs : List Char) : (tidyLines cs).toList = tidyFrom .start cs := by
  obtain ⟨line, lines, cut⟩ := List.exists_cons_of_ne_nil (List.splitOnP_ne_nil (· == '\n') cs)
  have newline : "\n".toList = ['\n'] := by decide
  have blank : " ".toList = [' '] := by decide
  have empty (s : String) : s.isEmpty = s.toList.isEmpty := by
    rw [Bool.eq_iff_iff, String.isEmpty_iff, List.isEmpty_iff, String.toList_eq_nil_iff]
  have tidy (line : List Char) :
      (" ".intercalate ((wordsOf line).map String.ofList)).toList = tidyLine line := by
    have same : String.toList ∘ String.ofList = id := funext fun _ => String.toList_ofList
    rw [String.toList_intercalate, blank, List.map_map, same, List.map_id, tidyLine]
  rw [tidyFrom_eq_written .start cut, written, ← cut, tidyLines, String.toList_intercalate, newline,
    tidied, List.filter_map, List.filter_map, List.map_map]
  simp only [Function.comp_def, empty, tidy]
  rfl

theorem infix_tidyLines {part cs : List Char} (inside : part <:+: cs) :
    (tidyLines part).toList <:+: (tidyLines cs).toList := by
  rw [toList_tidyLines, toList_tidyLines]
  exact infix_tidyFrom inside

/-! ## What a node shows -/

variable {t : Tree}

/-- A node whose content is shown: the document, or an element that is not skipped and no line
break. -/
def ShowsContent (t : Tree) (id : NodeId) : Prop :=
  t.data? id = some .document ∨
    ∃ e, t.data? id = some (.element e) ∧ isHidden e.name = false ∧ e.name ≠ "br"

/-- What the children of a node show is part of what the node shows. -/
theorem infix_shown_of_flatMap {id : NodeId} (shows : t.ShowsContent id) (bound : Nat) :
    (t.children id).flatMap (t.shown bound) <:+: t.shown (bound + 1) id := by
  rw [shown]
  obtain document | ⟨e, element, rendered, noBreak⟩ := shows
  · rw [document]
  · simp only [element, rendered, Bool.false_eq_true, if_false, if_neg noBreak]
    split
    · exact List.infix_append ['\n'] _ ['\n']
    · split
      · exact List.infix_append [] _ [' ']
      · exact List.infix_rfl

theorem shown_of_data?_eq_none {id : NodeId} (absent : t.data? id = none) (bound : Nat) :
    t.shown bound id = [] := by
  cases bound with
  | zero => rfl
  | succ bound => rw [shown, absent]

namespace Linked

variable (linked : t.Linked)

include linked

theorem length_ancestors_of_child {c id : NodeId} (child : c ∈ t.children id) :
    (t.ancestors c).length = (t.ancestors id).length + 1 :=
  congrArg List.length
    (linked.forest.ancestors_of_parent ((linked.forest.mem_children id c).mp child))

/-- Nothing lies so deep below a node that a higher bound would show more. -/
theorem shown_succ {bound : Nat} {id : NodeId} (deep : t.size ≤ bound + (t.ancestors id).length) :
    t.shown (bound + 1) id = t.shown bound id := by
  induction bound generalizing id with
  | zero =>
    have absent : t.data? id = none := by
      refine Option.eq_none_iff_forall_ne_some.mpr fun data here => ?_
      obtain ⟨n, found, -⟩ := Option.map_eq_some_iff.mp here
      have short : (t.ancestors id).length < t.size :=
        linked.forest.length_ancestors_lt ((Forest.has_iff t.forest).mpr ⟨n, found⟩)
      omega
    rw [shown_of_data?_eq_none absent, shown_of_data?_eq_none absent]
  | succ bound ih =>
    have below : (t.children id).flatMap (t.shown (bound + 1)) =
        (t.children id).flatMap (t.shown bound) := by
      refine List.flatMap_congr fun c child => ih ?_
      have := linked.length_ancestors_of_child child
      omega
    rw [shown, below, shown]

/-- What a node shows is part of what its parent shows. -/
theorem infix_shown_of_child {c id : NodeId} (child : c ∈ t.children id)
    (shows : t.ShowsContent id) : t.shown t.size c <:+: t.shown t.size id := by
  have length := linked.length_ancestors_of_child child
  cases size : t.size with
  | zero => exact List.nil_infix
  | succ bound =>
    have deep : t.size ≤ bound + (t.ancestors c).length := by omega
    rw [linked.shown_succ deep]
    refine List.IsInfix.trans ?_ (infix_shown_of_flatMap shows bound)
    obtain ⟨before, behind, halves⟩ := List.append_of_mem child
    rw [halves, List.flatMap_append, List.flatMap_cons, ← List.append_assoc]
    exact List.infix_append _ _ _

/-- What a node shows is part of what the nodes above it show that all show their content. -/
theorem infix_shown {el d : NodeId} (inside : t.isInclusiveAncestor el d = true)
    (shows : ∀ x ∈ t.ancestors d, t.isInclusiveAncestor el x = true → t.ShowsContent x) :
    t.shown t.size d <:+: t.shown t.size el := by
  induction d using linked.forest.up_induction with
  | step d ih =>
    rcases isInclusiveAncestor_iff.mp inside with rfl | above
    · exact List.infix_rfl
    · obtain ⟨p, parent, place⟩ := linked.forest.mem_ancestors.mp above
      have line : t.ancestors d = p :: t.ancestors p := linked.forest.ancestors_of_parent parent
      have inside' : t.isInclusiveAncestor el p = true := isInclusiveAncestor_iff.mpr place
      have higher := ih p parent inside' fun x above' => shows x (line ▸ List.mem_cons_of_mem p above')
      have opens : t.ShowsContent p := shows p (line ▸ List.mem_cons_self) inside'
      exact (linked.infix_shown_of_child ((linked.forest.mem_children p d).mpr parent) opens).trans
        higher

end Linked

/-- However a tree has come about by edits: what a reader sees of a node is part of what a reader sees
of a node around it, as long as that node and all between them show their content. So a text that
occurs in the one occurs in the other. -/
theorem renderedText_inside (ws : List Edit) (el d : NodeId)
    (inside : (edited ws).isInclusiveAncestor el d = true)
    (shows : ∀ x ∈ (edited ws).ancestors d, (edited ws).isInclusiveAncestor el x = true →
      (edited ws).ShowsContent x) :
    let t := edited ws
    (∃ before behind, t.renderedText el = before ++ t.renderedText d ++ behind) ∧
      ∀ text, (TextTest.literal text).accepts (t.renderedText d) = true →
        (TextTest.literal text).accepts (t.renderedText el) = true := by
  intro t
  have part : (t.renderedText d).toList <:+: (t.renderedText el).toList :=
    infix_tidyLines ((linked_edited ws).infix_shown inside shows)
  refine ⟨?_, fun text accepted => ?_⟩
  · obtain ⟨before, behind, whole⟩ := part
    refine ⟨String.ofList before, String.ofList behind, String.toList_inj.mp ?_⟩
    rw [String.toList_append, String.toList_append, String.toList_ofList, String.toList_ofList, whole]
  · exact Extended.occursIn_eq_true_iff.mpr
      ((Extended.occursIn_eq_true_iff.mp accepted).trans part)

/-- A paragraph whose first and last words are cut in two by an element, with lines around it. -/
def cutWords : List Edit :=
  [.create (.element (.ofName "div")), .create (.text "un"), .create (.element (.ofName "b")),
    .create (.text "do  and\n re"), .create (.text "do"), .append .root ⟨1⟩, .append ⟨1⟩ ⟨2⟩,
    .append ⟨1⟩ ⟨3⟩, .append ⟨3⟩ ⟨4⟩, .append ⟨1⟩ ⟨5⟩]

theorem renderedText_inside_cutWords :
    (edited cutWords).renderedText .root = "undo and redo" ∧
      (edited cutWords).renderedText ⟨3⟩ = "do and re" ∧
      (TextTest.literal "and").accepts ((edited cutWords).renderedText .root) = true := by
  have inside : (edited cutWords).isInclusiveAncestor .root ⟨3⟩ = true := by decide +kernel
  have line : (edited cutWords).ancestors ⟨3⟩ = [⟨1⟩, .root] := by decide +kernel
  have shows : ∀ x ∈ (edited cutWords).ancestors ⟨3⟩,
      (edited cutWords).isInclusiveAncestor .root x = true → (edited cutWords).ShowsContent x := by
    rw [line]
    rintro x member -
    rcases List.mem_pair.mp member with rfl | rfl
    · exact .inr ⟨.ofName "div", by decide +kernel, by decide, by decide⟩
    · exact .inl (by decide +kernel)
  refine ⟨by decide +kernel, by decide +kernel, ?_⟩
  exact (renderedText_inside cutWords .root ⟨3⟩ inside shows).2 "and" (by decide +kernel)

end NoiseFilter.Tree
