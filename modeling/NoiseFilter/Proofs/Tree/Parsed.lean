import NoiseFilter.Proofs.Text.Words
import NoiseFilter.Proofs.Tree.Element

/-!
# Class lists that are read from their attribute

The class list of an element is kept beside the text of its attribute. An element is `Parsed` if the
list is what the text reads as. Every write keeps this up, as long as the classes that are added are
words.
-/

namespace NoiseFilter

namespace ClassList

variable {l : ClassList}

theorem tokens_insertAll {tokens : List String} (fresh : (l.tokens ++ tokens).Nodup)
    (nonempty : "" ∉ tokens) : (l.insertAll tokens).tokens = l.tokens ++ tokens := by
  rw [insertAll]
  induction tokens generalizing l with
  | nil => simp
  | cons token rest ih =>
    obtain ⟨notToken, notRest⟩ := not_or.mp (mt List.mem_cons.mpr nonempty)
    have new : ¬(token = "" ∨ token ∈ l.tokens) := by
      rintro (empty | old)
      · exact notToken empty.symm
      · exact (List.nodup_append.mp fresh).2.2 token old token List.mem_cons_self rfl
    have inserted : (l.insert token).tokens = l.tokens ++ [token] := by
      rw [insert, dif_neg new]
    have split : l.tokens ++ token :: rest = (l.insert token).tokens ++ rest := by
      rw [inserted, List.append_assoc, List.singleton_append]
    rw [List.foldl_cons, ih (split ▸ fresh) notRest, ← split]

theorem mem_insertAll {tokens : List String} {c : String} :
    c ∈ (l.insertAll tokens).tokens ↔ c ∈ l.tokens ∨ c ∈ tokens ∧ c ≠ "" := by
  rw [insertAll]
  induction tokens generalizing l with
  | nil => simp
  | cons token rest ih =>
    rw [List.foldl_cons, ih, mem_insert, List.mem_cons, or_assoc, or_and_right]

theorem isWord_of_mem_ofString {value c : String} (member : c ∈ (ofString value).tokens) :
    Text.IsWord c := by
  rcases mem_insertAll.mp member with none | ⟨word, -⟩
  · cases none
  · exact Text.isWord_of_mem_words word

/-- A list of words is read back from its text. -/
theorem ofString_render (words : ∀ c ∈ l.tokens, Text.IsWord c) : ofString l.render = l := by
  have read : (ofString l.render).tokens = [] ++ l.tokens := by
    rw [ofString, render, Text.words_intercalate words]
    exact tokens_insertAll (l := {}) l.distinct l.nonempty
  exact ClassList.ext read

theorem ofString_text? (words : ∀ c ∈ l.tokens, Text.IsWord c) :
    ofString (l.text?.getD "") = l := by
  rw [text?]
  split
  · rename_i empty
    have nothing : l.tokens = [] := List.isEmpty_iff.mp empty
    exact ClassList.ext nothing.symm
  · exact ofString_render words

end ClassList

namespace Element

/-- The class list is what the attribute reads as. -/
def Parsed (e : Element) : Prop := e.classes = .ofString ((e.get? "class").getD "")

instance (e : Element) : Decidable e.Parsed :=
  inferInstanceAs (Decidable (e.classes = .ofString ((e.get? "class").getD "")))

variable {e : Element}

theorem Parsed.isWord (parsed : e.Parsed) {c : String} (member : c ∈ e.classes.tokens) :
    Text.IsWord c :=
  ClassList.isWord_of_mem_ofString (parsed ▸ member)

theorem Parsed.of_same (parsed : e.Parsed) {e' : Element} (classes : e'.classes = e.classes)
    (text : e'.get? "class" = e.get? "class") : e'.Parsed := by
  rw [Parsed, classes, text]
  exact parsed

/-- A class list of words that is written back is read as it is. -/
theorem parsed_storeClasses (words : ∀ c ∈ e.classes.tokens, Text.IsWord c) :
    e.storeClasses.Parsed := by
  rw [Parsed, classes_storeClasses, get?_storeClasses, if_pos lower_class]
  exact (ClassList.ofString_text? words).symm

theorem Parsed.addClass (parsed : e.Parsed) {token : String} (word : Text.IsWord token) :
    (e.addClass token).Parsed := by
  refine parsed_storeClasses fun c member => ?_
  rcases ClassList.mem_insert.mp member with old | ⟨rfl, -⟩
  · exact parsed.isWord old
  · exact word

theorem Parsed.removeClass (parsed : e.Parsed) (token : String) : (e.removeClass token).Parsed :=
  parsed_storeClasses fun _ member => parsed.isWord (ClassList.mem_erase.mp member).1

namespace Parsed

variable (parsed : e.Parsed)

include parsed

theorem set (name value : String) : (e.set name value).Parsed := by
  rw [Parsed, classes_set, get?_set, lower_class]
  split
  · rfl
  · exact parsed

theorem erase (name : String) : (e.erase name).Parsed := by
  rw [Parsed, classes_erase, get?_erase, lower_class]
  by_cases isClass : Text.lower name = "class"
  · rw [if_pos isClass]
    split
    · rfl
    · rename_i notThere
      have absent : e.get? "class" = none := by
        have missing : ¬ e.has name := fun there => notThere ⟨isClass, there⟩
        rw [← e.get?_congr (isClass.trans lower_class.symm)]
        simpa [has] using missing
      rw [parsed, absent]
  · rw [if_neg isClass, if_neg fun both => isClass both.1]
    exact parsed

theorem storeStyle (style : InlineStyle) : { e with style }.storeStyle.Parsed := by
  refine of_same parsed (classes_storeStyle _) ?_
  exact (get?_storeStyle _ "class").trans (if_neg (by decide))

end Parsed

end Element

end NoiseFilter
