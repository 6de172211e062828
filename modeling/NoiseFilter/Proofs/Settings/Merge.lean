import Mathlib.Data.Prod.Lex
import Mathlib.Data.String.Basic
import NoiseFilter.Proofs.Ascending
import NoiseFilter.Proofs.SortedMap
import NoiseFilter.Settings.Options

/-!
# Merged rules

Rules are put in order by a key of three parts: the place in the catalog, the number of a custom filter,
and the id. No two rules have the same key, so the order is given by the stored ids, and it does not
matter that they were kept in another one. The options that a catalog chooses forget where its entries
stand and which of them give nothing; merged with the catalog they are its entries again
(`merge_ofCatalog`).
-/

namespace NoiseFilter

/-! ## Keys -/

namespace RulePlace

/-- What places are compared by. -/
def key (p : RulePlace) : ℕ ×ₗ ℕ ×ₗ String := toLex (p.position, toLex (p.index, p.id))

theorem le_iff (a b : RulePlace) : a.le b = true ↔ a.key ≤ b.key := by
  simp [le, key, Prod.Lex.toLex_le_toLex]

theorem key_lt_iff {a b : RulePlace} : a.key < b.key ↔ a.position < b.position ∨
    a.position = b.position ∧ (a.index < b.index ∨ a.index = b.index ∧ a.id < b.id) := by
  simp [key, Prod.Lex.toLex_lt_toLex]

theorem id_eq_of_key_eq {a b : RulePlace} (same : a.key = b.key) : a.id = b.id :=
  congrArg (fun k => (ofLex (ofLex k).2).2) same

end RulePlace

namespace Catalog

/-- What the place of a rule with an id is compared by. -/
def key (c : Catalog) (id : String) : ℕ ×ₗ ℕ ×ₗ String := (RulePlace.of c id).key

variable {c : Catalog} {a b : String}

/-- Places in the catalog decide. -/
theorem key_lt_of_position {i j : Nat} (here : c.position? a = some i)
    (there : c.position? b = some j) (less : i < j) : c.key a < c.key b := by
  rw [key, key, RulePlace.key_lt_iff]
  left
  rwa [RulePlace.of, RulePlace.of, here, there]

theorem key_lt_of_unlisted {i : Nat} (here : c.position? a = some i) (there : c.position? b = none) :
    c.key a < c.key b := by
  obtain ⟨inside, -⟩ := List.findIdx?_eq_some_iff_getElem.mp here
  rw [key, key, RulePlace.key_lt_iff]
  left
  rwa [RulePlace.of, RulePlace.of, here, there]

/-- Other rules go by number and id. -/
theorem key_lt_iff_of_unlisted (here : c.position? a = none) (there : c.position? b = none) :
    c.key a < c.key b ↔ (customIndex? a).getD customLimit < (customIndex? b).getD customLimit ∨
      (customIndex? a).getD customLimit = (customIndex? b).getD customLimit ∧ a < b := by
  rw [key, key, RulePlace.key_lt_iff, RulePlace.of, RulePlace.of, here, there]
  simp

theorem key_inj : c.key a = c.key b ↔ a = b :=
  ⟨RulePlace.id_eq_of_key_eq, congrArg c.key⟩

end Catalog

/-! ## Stored rules in order -/

namespace Options

/-- The stored rules in the order in which they apply. -/
def inOrder (o : Options) (c : Catalog) : List (String × StoredRule) :=
  o.rules.entries.mergeSort fun a b => (RulePlace.of c a.1).le (RulePlace.of c b.1)

/-- A stored rule with what the catalog gives it. -/
def completed (c : Catalog) (id : String) (r : StoredRule) : RuleSpec :=
  let d := (c.defaults.get? id).getD {}
  { id
    status := r.status
    selector := pick r.selector d.selector
    cls := pick r.cls d.cls
    color := pick r.color d.color }

theorem merge_eq (o : Options) (c : Catalog) :
    o.merge c = (o.inOrder c).map fun p => completed c p.1 p.2 := rfl

theorem ids_merge_eq (o : Options) (c : Catalog) :
    (o.merge c).map (·.id) = (o.inOrder c).map (·.1) := by
  rw [merge_eq, List.map_map]
  rfl

theorem perm_inOrder (o : Options) (c : Catalog) : (o.inOrder c).Perm o.rules.entries :=
  List.mergeSort_perm _ _

/-- No two rules share an id, so their keys ascend strictly. -/
theorem ascending_inOrder (o : Options) (c : Catalog) :
    (o.inOrder c).Pairwise fun a b => c.key a.1 < c.key b.1 := by
  have sorted : (o.inOrder c).Pairwise fun a b => c.key a.1 ≤ c.key b.1 := by
    refine (List.pairwise_mergeSort (fun a b d ab bd => ?_) (fun a b => ?_) _).imp
      fun {a b} le => (RulePlace.le_iff _ _).mp le
    · rw [RulePlace.le_iff] at ab bd ⊢
      exact ab.trans bd
    · rw [Bool.or_eq_true, RulePlace.le_iff, RulePlace.le_iff]
      exact le_total _ _
  have distinct : ((o.inOrder c).map (·.1)).Nodup :=
    ((o.perm_inOrder c).map _).nodup_iff.mpr o.rules.nodup_keys
  exact (sorted.and (List.pairwise_map.mp distinct)).imp fun {a b} ⟨le, different⟩ =>
    le.lt_of_ne fun same => different (Catalog.key_inj.mp same)

end Options

/-! ## Ids of the catalog -/

section

variable {l : List String} {a b : String}

theorem idxOf_lt_of_filter {p : String → Bool} (keepsA : p a = true) (keepsB : p b = true)
    (less : (l.filter p).idxOf a < (l.filter p).idxOf b) : l.idxOf a < l.idxOf b := by
  induction l with
  | nil => exact absurd less (Nat.lt_irrefl _)
  | cons head rest ih =>
    by_cases kept : p head = true
    · rw [List.filter_cons_of_pos kept, List.idxOf_cons, List.idxOf_cons] at less
      rw [List.idxOf_cons, List.idxOf_cons]
      cases here : head == b
      · rw [here] at less
        cases there : head == a
        · rw [there] at less
          exact Nat.succ_lt_succ (ih (Nat.lt_of_succ_lt_succ less))
        · exact Nat.succ_pos _
      · rw [here] at less
        exact absurd less (Nat.not_lt_zero _)
    · have otherA : head ≠ a := fun same => kept (same ▸ keepsA)
      have otherB : head ≠ b := fun same => kept (same ▸ keepsB)
      rw [List.filter_cons_of_neg kept] at less
      rw [List.idxOf_cons_ne _ otherA, List.idxOf_cons_ne _ otherB]
      exact Nat.succ_lt_succ (ih less)

/-- Without repetitions a list keeps the order in which its members come for the first time. -/
theorem pairwise_eraseDups (l : List String) :
    l.eraseDups.Pairwise fun a b => l.idxOf a < l.idxOf b := by
  induction h : l.length using Nat.strongRecOn generalizing l with
  | ind n ih =>
    cases l with
    | nil => exact .nil
    | cons head rest =>
      rw [List.eraseDups_cons]
      have shorter : (rest.filter fun b => !b == head).length < n := by
        rw [← h, List.length_cons]
        exact Nat.lt_succ_of_le (List.length_filter_le _ _)
      have other {b : String} (member : b ∈ (rest.filter fun b => !b == head).eraseDups) :
          head ≠ b := by
        intro same
        simpa [same] using List.mem_filter.mp (List.mem_eraseDups.mp member)
      refine List.pairwise_cons.mpr ⟨fun b member => ?_, ?_⟩
      · rw [List.idxOf_cons_self, List.idxOf_cons_ne _ (other member)]
        exact Nat.succ_pos _
      · refine (ih _ shorter _ rfl).imp_of_mem fun {a b} memberA memberB less => ?_
        have keepsA := other memberA
        have keepsB := other memberB
        rw [List.idxOf_cons_ne _ keepsA, List.idxOf_cons_ne _ keepsB]
        refine Nat.succ_lt_succ (idxOf_lt_of_filter ?_ ?_ less)
        · simpa using keepsA.symm
        · simpa using keepsB.symm

theorem eraseDups_of_nodup (distinct : l.Nodup) : l.eraseDups = l := by
  induction l with
  | nil => rfl
  | cons head rest ih =>
    obtain ⟨fresh, distinctRest⟩ := List.nodup_cons.mp distinct
    have kept : (rest.filter fun b => !b == head) = rest := by
      refine List.filter_eq_self.mpr fun b member => ?_
      have other : b ≠ head := fun same => fresh (same ▸ member)
      simpa using other
    rw [List.eraseDups_cons, kept, ih distinctRest]

end

namespace Catalog

variable {c : Catalog} {a b : String}

/-- The ids of a catalog in its order, each where it comes first. -/
def ids (c : Catalog) : List String := (c.entries.map (·.id)).eraseDups

theorem mem_ids : a ∈ c.ids ↔ c.position? a ≠ none := by
  rw [ids, List.mem_eraseDups, position?, Ne, List.findIdx?_eq_none_iff]
  simp

/-- The ids of a catalog go by their places. -/
theorem ascending_ids (c : Catalog) : c.ids.Pairwise fun a b => c.key a < c.key b := by
  have place {a : String} (member : a ∈ c.ids) :
      c.position? a = some ((c.entries.map (·.id)).idxOf a) := by
    obtain ⟨e, listed, rfl⟩ := List.mem_map.mp (List.mem_eraseDups.mp member)
    rw [List.idxOf, List.findIdx_map]
    exact List.findIdx?_eq_some_of_exists ⟨e, listed, beq_self_eq_true e.id⟩
  refine (pairwise_eraseDups _).imp_of_mem fun {a b} memberA memberB less => ?_
  exact key_lt_of_position (place memberA) (place memberB) less

end Catalog

/-! ## Merging -/

namespace Options

variable {c : Catalog} {o : Options}

theorem nodup_ids_merge (o : Options) (c : Catalog) : ((o.merge c).map (·.id)).Nodup := by
  rw [ids_merge_eq]
  exact ((o.perm_inOrder c).map _).nodup_iff.mpr o.rules.nodup_keys

/-- The rules that are merged are those that are stored. -/
theorem mem_ids_merge {id : String} :
    id ∈ (o.merge c).map (·.id) ↔ (o.get? id).isSome = true := by
  rw [ids_merge_eq, ((o.perm_inOrder c).map _).mem_iff, List.mem_map, Option.isSome_iff_exists]
  constructor
  · rintro ⟨e, member, rfl⟩
    exact ⟨e.2, (o.rules.get?_eq_some_iff).mpr member⟩
  · rintro ⟨r, found⟩
    exact ⟨(id, r), (o.rules.get?_eq_some_iff).mp found, rfl⟩

/-- The ids of merged rules: those of the catalog in its order, then the others by number and id. -/
theorem ids_merge (o : Options) (c : Catalog) : ∃ others,
    (o.merge c).map (·.id) = c.ids.filter (fun id => (o.get? id).isSome) ++ others ∧
      (∀ id ∈ others, c.position? id = none) ∧
      others.Pairwise fun a b =>
        (customIndex? a).getD customLimit < (customIndex? b).getD customLimit ∨
          (customIndex? a).getD customLimit = (customIndex? b).getD customLimit ∧ a < b := by
  have ascending : ((o.merge c).map (·.id)).Pairwise fun a b => c.key a < c.key b := by
    rw [ids_merge_eq]
    exact List.pairwise_map.mpr (o.ascending_inOrder c)
  let listed := c.ids.filter fun id => (o.get? id).isSome
  let others := ((o.merge c).map (·.id)).filter fun id => c.position? id = none
  have unlisted {id : String} (member : id ∈ others) : c.position? id = none :=
    of_decide_eq_true (List.mem_filter.mp member).2
  refine ⟨others, ?_, fun id => unlisted, ?_⟩
  · refine eq_of_ascending ascending (List.pairwise_append.mpr
      ⟨c.ascending_ids.filter _, ascending.filter _, fun a memberA b memberB => ?_⟩) fun id => ?_
    · have here := Catalog.mem_ids.mp (List.mem_filter.mp memberA).1
      obtain ⟨i, here⟩ := Option.ne_none_iff_exists'.mp here
      exact Catalog.key_lt_of_unlisted here (unlisted memberB)
    · rw [List.mem_append, List.mem_filter, List.mem_filter, Catalog.mem_ids, mem_ids_merge,
        decide_eq_true_eq]
      tauto
  · refine (ascending.filter _).imp_of_mem fun {a b} memberA memberB less => ?_
    exact (Catalog.key_lt_iff_of_unlisted (unlisted memberA) (unlisted memberB)).mp less

end Options

/-! ## The options that a catalog chooses -/

theorem pick_self (value : Option String) : pick value value = value := by
  cases value with
  | none => rfl
  | some s =>
    rw [pick, Option.filter_some]
    split <;> rfl

theorem pick_none (value : Option String) : pick none value = value := rfl

namespace Catalog

/-- The rule of an entry, as the entry has it. -/
def Entry.spec (e : Entry) : RuleSpec where
  id := e.id
  status := if e.status = some true then .enabled else .disabled
  selector := e.selector
  cls := e.cls
  color := e.color

/-- What is stored of the rule of an entry unless the user chooses otherwise. -/
def Entry.stored (e : Entry) : StoredRule where
  status := .ofBool (e.status.getD false)
  selector := if isCustom e.id then e.selector else none
  cls := e.cls
  color := e.color

variable {c : Catalog} (distinct : (c.entries.map (·.id)).Nodup)

include distinct

/-- An entry gives what it has, also if that is nothing and it is left out. -/
theorem get?_defaults {e : Entry} (member : e ∈ c.entries) :
    (c.defaults.get? e.id).getD {} = e.defaults := by
  have ids : (((c.entries.filter (!·.isBare)).map fun e => (e.id, e.defaults)).map (·.1)).Nodup := by
    rw [List.map_map]
    exact distinct.sublist (List.filter_sublist.map _)
  cases bare : e.isBare with
  | false =>
    have given : c.defaults.get? e.id = some e.defaults :=
      (SortedMap.get?_ofList_eq_some_iff ids).mpr
        (List.mem_map.mpr ⟨e, List.mem_filter.mpr ⟨member, by simp [bare]⟩, rfl⟩)
    rw [given]
    rfl
  | true =>
    have nothing : c.defaults.get? e.id = none := by
      refine Option.eq_none_iff_forall_ne_some.mpr fun d given => ?_
      obtain ⟨e', there, same⟩ := List.mem_map.mp ((SortedMap.get?_ofList_eq_some_iff ids).mp given)
      obtain ⟨there, filled⟩ := List.mem_filter.mp there
      have here : e' = e := List.inj_on_of_nodup_map distinct there member (congrArg Prod.fst same)
      rw [here, bare] at filled
      cases filled
    simp only [Entry.isBare, Bool.and_eq_true, Option.isNone_iff_eq_none] at bare
    rw [nothing, Entry.defaults, bare.1.1, bare.1.2, bare.2]
    rfl

/-- The rules that a catalog chooses apply in its order. -/
theorem inOrder_ofCatalog :
    (Options.ofCatalog c).inOrder c = c.entries.map fun e => (e.id, e.stored) := by
  have ids : ((c.entries.map fun e => (e.id, e.stored)).map (·.1)).Nodup := by
    rwa [List.map_map]
  refine eq_of_ascending ((Options.ofCatalog c).ascending_inOrder c) ?_ fun p => ?_
  · have order := c.ascending_ids
    rw [Catalog.ids, eraseDups_of_nodup distinct] at order
    have entries := List.pairwise_map.mp order
    exact List.pairwise_map.mpr entries
  · rw [((Options.ofCatalog c).perm_inOrder c).mem_iff]
    exact SortedMap.mem_entries_ofList ids

omit distinct in
theorem Entry.status_stored (e : Entry) : e.stored.status = e.spec.status := by
  rcases e with ⟨_, _, _, _, _, _ | _ | _⟩ <;> rfl

/-- Completed from the catalog, the rule of an entry is as the entry has it. -/
theorem completed_stored {e : Entry} (member : e ∈ c.entries) :
    Options.completed c e.id e.stored = e.spec := by
  have selector : pick e.stored.selector e.selector = e.selector := by
    rw [Entry.stored]
    split
    · exact pick_self _
    · exact pick_none _
  rw [Options.completed, get?_defaults distinct member, e.status_stored]
  show RuleSpec.mk _ _ (pick e.stored.selector e.selector) (pick e.cls e.cls) (pick e.color e.color) = _
  rw [selector, pick_self, pick_self]
  rfl

/-- The options that a catalog chooses, merged with it, are its entries. -/
theorem merge_ofCatalog : (Options.ofCatalog c).merge c = c.entries.map Entry.spec := by
  rw [Options.merge_eq, inOrder_ofCatalog distinct, List.map_map]
  exact List.map_congr_left fun e member => completed_stored distinct member

end Catalog

/-- The options that a catalog chooses give its entries back when they are merged with it, in its order
and with what they have; an entry is on if it says so. Whatever options are merged with a catalog, every
stored rule is listed once: those of the catalog in its order, then all others by number and id. -/
theorem merge_listed (c : Catalog) :
    ((c.entries.map (·.id)).Nodup →
      (Options.ofCatalog c).merge c = c.entries.map fun e =>
        { id := e.id
          status := if e.status = some true then .enabled else .disabled
          selector := e.selector
          cls := e.cls
          color := e.color }) ∧
    ∀ o : Options, ((o.merge c).map (·.id)).Nodup ∧
      (∀ id, id ∈ (o.merge c).map (·.id) ↔ (o.get? id).isSome = true) ∧
      ∃ others, (o.merge c).map (·.id) = c.ids.filter (fun id => (o.get? id).isSome) ++ others ∧
        (∀ id ∈ others, c.position? id = none) ∧
        others.Pairwise fun a b =>
          (customIndex? a).getD customLimit < (customIndex? b).getD customLimit ∨
            (customIndex? a).getD customLimit = (customIndex? b).getD customLimit ∧ a < b :=
  ⟨Catalog.merge_ofCatalog, fun o =>
    ⟨o.nodup_ids_merge c, fun _ => Options.mem_ids_merge, o.ids_merge c⟩⟩

/-- A rule, a custom filter with an empty class, a rule that gives nothing and one that is off, in another
order than that of their ids. -/
def mixedCatalog : Catalog :=
  ⟨[⟨"posts", [{ id := "promoted", selector := some "p:contains('Promoted')", status := some true },
      { id := "custom_2", selector := some "p", cls := some "", color := some "#0078D4" }]⟩,
    ⟨"others", [{ id := "ai" }, { id := "brands", cls := some "sift-highlight", status := some false }]⟩]⟩

theorem merge_listed_mixedCatalog :
    (mixedCatalog.entries.map (·.id)).Nodup ∧
      (Options.ofCatalog mixedCatalog).merge mixedCatalog =
        [⟨"promoted", .enabled, some "p:contains('Promoted')", none, none⟩,
          ⟨"custom_2", .disabled, some "p", some "", some "#0078D4"⟩,
          ⟨"ai", .disabled, none, none, none⟩,
          ⟨"brands", .disabled, none, some "sift-highlight", none⟩] :=
  ⟨by decide, (merge_listed mixedCatalog).1 (by decide)⟩

end NoiseFilter
