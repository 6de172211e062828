import Mathlib.Data.List.Induction
import Mathlib.Data.List.Nodup
import NoiseFilter.SortedMap

/-!
# Looking up in a sorted map after a change
-/

namespace NoiseFilter.SortedMap

variable {κ α : Type} [LT κ]

/-- A key has one entry at most. -/
theorem nodup_keys [Std.Irrefl (α := κ) (· < ·)] (m : SortedMap κ α) : m.keys.Nodup := by
  refine List.pairwise_map.mpr (m.sorted.imp fun {a b} below same => ?_)
  rw [same] at below
  exact Std.Irrefl.irrefl _ below

variable [DecidableEq κ]

omit [LT κ] in
/-- Where no two elements share a key, looking one up by its key finds it. -/
theorem find?_key_eq_some_iff {β : Type} {key : β → κ} {l : List β} (distinct : (l.map key).Nodup)
    {k : κ} {x : β} : l.find? (key · == k) = some x ↔ x ∈ l ∧ key x = k := by
  constructor
  · intro found
    exact ⟨List.mem_of_find?_eq_some found, by simpa using List.find?_some found⟩
  · rintro ⟨member, rfl⟩
    induction l with
    | nil => cases member
    | cons head rest ih =>
      obtain ⟨fresh, distinctRest⟩ := List.nodup_cons.mp distinct
      rcases List.mem_cons.mp member with rfl | later
      · simp
      · have other : key head ≠ key x := fun same =>
          fresh (List.mem_map.mpr ⟨x, later, same.symm⟩)
        simpa [List.find?_cons, other] using ih distinctRest later

variable [Std.Irrefl (α := κ) (· < ·)]

/-- Looking up finds exactly the entries. -/
theorem get?_eq_some_iff (m : SortedMap κ α) {key : κ} {value : α} :
    m.get? key = some value ↔ (key, value) ∈ m.entries := by
  constructor
  · intro found
    obtain ⟨e, here, rfl⟩ := Option.map_eq_some_iff.mp found
    obtain ⟨member, rfl⟩ := (find?_key_eq_some_iff m.nodup_keys).mp here
    exact member
  · intro member
    rw [get?, (find?_key_eq_some_iff m.nodup_keys).mpr ⟨member, rfl⟩]
    rfl

theorem get?_filter (m : SortedMap κ α) (p : κ × α → Bool) (key : κ) :
    (m.filter p).get? key = (m.get? key).filter fun value => p (key, value) := by
  apply Option.ext
  intro value
  rw [get?_eq_some_iff, Option.filter_eq_some_iff, get?_eq_some_iff]
  exact List.mem_filter

theorem get?_erase (m : SortedMap κ α) (key other : κ) :
    (m.erase key).get? other = if other = key then none else m.get? other := by
  rw [erase, get?_filter]
  split
  · rename_i same
    simp [same]
  · rename_i different
    cases m.get? other <;> simp [different]

variable [DecidableLT κ]

omit [Std.Irrefl (α := κ) (· < ·)] in
theorem find?_insertInto_self (key : κ) (value : α) (entries : List (κ × α)) :
    (insertInto key value entries).find? (·.1 == key) = some (key, value) := by
  induction entries with
  | nil => simp [insertInto]
  | cons e rest ih =>
    rw [insertInto]
    split
    · simp
    · split
      · simp
      · rename_i different
        simpa [List.find?_cons, Ne.symm different] using ih

omit [Std.Irrefl (α := κ) (· < ·)] in
theorem find?_insertInto_of_ne {key other : κ} (different : other ≠ key) (value : α)
    (entries : List (κ × α)) :
    (insertInto key value entries).find? (·.1 == other) = entries.find? (·.1 == other) := by
  have passed : (key == other) = false := beq_false_of_ne different.symm
  induction entries with
  | nil => simp [insertInto, passed]
  | cons e rest ih =>
    rw [insertInto]
    split
    · simp [List.find?_cons, passed]
    · split
      · rename_i same
        have passedHead : (e.1 == other) = false := same ▸ passed
        simp [passed, passedHead]
      · simp [List.find?_cons, ih]

variable [Trans (α := κ) (· < ·) (· < ·) (· < ·)] [Std.Trichotomous (α := κ) (· < ·)]

omit [Std.Irrefl (α := κ) (· < ·)] in
theorem get?_insert (m : SortedMap κ α) (key : κ) (value : α) (other : κ) :
    (m.insert key value).get? other = if other = key then some value else m.get? other := by
  rw [get?, get?, insert]
  split
  · rename_i same
    rw [same, find?_insertInto_self]
    rfl
  · rename_i different
    rw [find?_insertInto_of_ne different]

omit [Std.Irrefl (α := κ) (· < ·)] in
/-- Of pairs with the same key the last counts. -/
theorem get?_ofList (pairs : List (κ × α)) (key : κ) :
    (ofList pairs).get? key = (pairs.reverse.find? (·.1 == key)).map (·.2) := by
  induction pairs using List.reverseRecOn with
  | nil => rfl
  | append_singleton pairs p ih =>
    have last : ofList (pairs ++ [p]) = (ofList pairs).insert p.1 p.2 := by
      rw [ofList, List.foldl_append]
      rfl
    rw [last, get?_insert, ih, List.reverse_append, List.reverse_singleton, List.singleton_append,
      List.find?_cons]
    split
    · rename_i same
      rw [same, beq_self_eq_true]
      rfl
    · rename_i different
      rw [beq_false_of_ne (Ne.symm different)]

omit [Std.Irrefl (α := κ) (· < ·)] in
/-- Where no two pairs share a key, all of them count. -/
theorem get?_ofList_eq_some_iff {pairs : List (κ × α)} (distinct : (pairs.map (·.1)).Nodup) {key : κ}
    {value : α} : (ofList pairs).get? key = some value ↔ (key, value) ∈ pairs := by
  have reversed : (pairs.reverse.map (·.1)).Nodup := by
    rw [List.map_reverse]
    exact List.nodup_reverse.mpr distinct
  rw [get?_ofList, Option.map_eq_some_iff]
  simp only [find?_key_eq_some_iff reversed, List.mem_reverse]
  constructor
  · rintro ⟨p, ⟨member, rfl⟩, rfl⟩
    exact member
  · intro member
    exact ⟨_, ⟨member, rfl⟩, rfl⟩

/-- A map of pairs that share no key has these as its entries. -/
theorem mem_entries_ofList {pairs : List (κ × α)} (distinct : (pairs.map (·.1)).Nodup)
    {e : κ × α} : e ∈ (ofList pairs).entries ↔ e ∈ pairs := by
  rw [← get?_eq_some_iff, get?_ofList_eq_some_iff distinct]

omit [DecidableLT κ] [Std.Trichotomous (α := κ) (· < ·)] in
/-- Maps that answer alike are the same. -/
theorem ext_get? {m m' : SortedMap κ α} (same : ∀ key, m.get? key = m'.get? key) : m = m' := by
  have members (e : κ × α) : e ∈ m.entries ↔ e ∈ m'.entries := by
    rw [← get?_eq_some_iff, ← get?_eq_some_iff, same]
  have perm : m.entries.Perm m'.entries :=
    (List.perm_ext_iff_of_nodup (List.Nodup.of_map _ m.nodup_keys)
      (List.Nodup.of_map _ m'.nodup_keys)).mpr members
  have entries : m.entries = m'.entries := by
    refine perm.eq_of_pairwise (fun a b _ _ below above => ?_) m.sorted m'.sorted
    exact absurd (Trans.trans below above) (Std.Irrefl.irrefl a.1)
  cases m
  cases m'
  cases entries
  rfl

omit [DecidableLT κ] [Std.Trichotomous (α := κ) (· < ·)] in
/-- A condition that all entries satisfy takes none away. -/
theorem filter_eq_self {m : SortedMap κ α} {p : κ × α → Bool}
    (all : ∀ key value, m.get? key = some value → p (key, value) = true) : m.filter p = m := by
  refine ext_get? fun key => Option.ext fun value => ?_
  rw [get?_filter, Option.filter_eq_some_iff]
  exact and_iff_left_of_imp (all key value)

/-! ## Keys -/

omit [DecidableLT κ] [Trans (α := κ) (· < ·) (· < ·) (· < ·)] [Std.Trichotomous (α := κ) (· < ·)]
  [Std.Irrefl (α := κ) (· < ·)] in
theorem mem_keys_iff (m : SortedMap κ α) {key : κ} :
    key ∈ m.keys ↔ (m.get? key).isSome = true := by
  simp [keys, get?]

omit [Std.Irrefl (α := κ) (· < ·)] in
theorem mem_keys_insert (m : SortedMap κ α) {key other : κ} {value : α} :
    other ∈ (m.insert key value).keys ↔ other = key ∨ other ∈ m.keys := by
  rw [mem_keys_iff, mem_keys_iff, get?_insert]
  split
  · rename_i same
    simp [same]
  · rename_i different
    simp [different]

omit [DecidableLT κ] [Trans (α := κ) (· < ·) (· < ·) (· < ·)]
  [Std.Trichotomous (α := κ) (· < ·)] in
theorem mem_keys_of_mem_foldl_erase {keys : List κ} {m : SortedMap κ α} {key : κ}
    (member : key ∈ (keys.foldl erase m).keys) : key ∈ m.keys := by
  induction keys generalizing m with
  | nil => exact member
  | cons first keys ih =>
    have kept := ih member
    rw [mem_keys_iff, get?_erase] at kept
    split at kept
    · cases kept
    · exact m.mem_keys_iff.mpr kept

omit [Std.Irrefl (α := κ) (· < ·)] in
theorem mem_keys_ofList {pairs : List (κ × α)} {key : κ} :
    key ∈ (ofList pairs).keys ↔ ∃ value, (key, value) ∈ pairs := by
  rw [mem_keys_iff, get?_ofList]
  simp

/-- A new key adds one entry and leaves the others. -/
theorem perm_insert (m : SortedMap κ α) {key : κ} (fresh : key ∉ m.keys) (value : α) :
    (m.insert key value).entries.Perm ((key, value) :: m.entries) := by
  have distinct : ((key, value) :: m.entries).Nodup :=
    List.nodup_cons.mpr ⟨fun there => fresh (List.mem_map.mpr ⟨_, there, rfl⟩),
      .of_map _ m.nodup_keys⟩
  refine (List.perm_ext_iff_of_nodup (.of_map _ (m.insert key value).nodup_keys) distinct).mpr ?_
  rintro ⟨other, value'⟩
  rw [← get?_eq_some_iff, get?_insert, List.mem_cons, ← get?_eq_some_iff, Prod.mk.injEq]
  split
  · rename_i same
    subst same
    have absent : m.get? other = none := by
      rw [← Option.not_isSome_iff_eq_none, ← mem_keys_iff]
      exact fresh
    simp [absent, eq_comm]
  · rename_i different
    simp [different]

/-- A map is that of its own entries. -/
theorem ofList_entries (m : SortedMap κ α) : ofList m.entries = m :=
  ext_get? fun key => Option.ext fun value => by
    rw [get?_ofList_eq_some_iff m.nodup_keys, get?_eq_some_iff]

end NoiseFilter.SortedMap
