/-!
# Sorted maps

Keys with values, in strictly ascending order of keys. The order is part of the type, so that a
key has one value at most, and two maps that answer alike are the same map.
-/

namespace NoiseFilter

instance transStringLt : Trans (α := String) (· < ·) (· < ·) (· < ·) := ⟨String.lt_trans⟩

instance irreflStringLt : Std.Irrefl (α := String) (· < ·) := ⟨String.lt_irrefl⟩

instance trichotomousStringLt : Std.Trichotomous (α := String) (· < ·) where
  trichotomous _ _ below above :=
    String.le_antisymm (String.not_lt.mp above) (String.not_lt.mp below)

theorem SortedMap.sorted_nil {κ α : Type} [LT κ] :
    ([] : List (κ × α)).Pairwise (fun a b => a.1 < b.1) := .nil

/-- A map whose entries stand in ascending order of keys. -/
structure SortedMap (κ α : Type) [LT κ] where
  entries : List (κ × α) := []
  sorted : entries.Pairwise (fun a b => a.1 < b.1) := by exact SortedMap.sorted_nil

namespace SortedMap

variable {κ α : Type} [LT κ]

instance : Inhabited (SortedMap κ α) := ⟨{}⟩

def size (m : SortedMap κ α) : Nat := m.entries.length

def isEmpty (m : SortedMap κ α) : Bool := m.entries.isEmpty

def keys (m : SortedMap κ α) : List κ := m.entries.map (·.1)

/-- Keep the entries that satisfy a condition. -/
def filter (m : SortedMap κ α) (p : κ × α → Bool) : SortedMap κ α :=
  ⟨m.entries.filter p, m.sorted.filter p⟩

/-- Other values for the same keys. -/
def withValues (m : SortedMap κ α) (entries : List (κ × α)) (same : entries.map (·.1) = m.keys) :
    SortedMap κ α :=
  ⟨entries, List.pairwise_map.mp (same ▸ List.pairwise_map.mpr m.sorted)⟩

section

variable [DecidableEq κ]

def get? (m : SortedMap κ α) (key : κ) : Option α :=
  (m.entries.find? (·.1 == key)).map (·.2)

def erase (m : SortedMap κ α) (key : κ) : SortedMap κ α := m.filter (·.1 != key)

variable [DecidableLT κ]

/-- Put an entry in its place; it takes the place of one with the same key. -/
def insertInto (key : κ) (value : α) : List (κ × α) → List (κ × α)
  | [] => [(key, value)]
  | e :: rest =>
    if key < e.1 then (key, value) :: e :: rest
    else if key = e.1 then (key, value) :: rest
    else e :: insertInto key value rest

theorem mem_insertInto {key : κ} {value : α} {e : κ × α} {entries : List (κ × α)}
    (member : e ∈ insertInto key value entries) : e = (key, value) ∨ e ∈ entries := by
  induction entries with
  | nil => simpa [insertInto] using member
  | cons head rest ih =>
    rw [insertInto] at member
    split at member
    · simpa using member
    · split at member
      · rcases List.mem_cons.mp member with rfl | later
        · exact .inl rfl
        · exact .inr (List.mem_cons_of_mem _ later)
      · rcases List.mem_cons.mp member with rfl | later
        · exact .inr List.mem_cons_self
        · exact (ih later).imp_right (List.mem_cons_of_mem _)

variable [Trans (α := κ) (· < ·) (· < ·) (· < ·)] [Std.Trichotomous (α := κ) (· < ·)]

theorem sorted_insertInto (key : κ) (value : α) {entries : List (κ × α)}
    (sorted : entries.Pairwise fun a b => a.1 < b.1) :
    (insertInto key value entries).Pairwise fun a b => a.1 < b.1 := by
  induction entries with
  | nil => simp [insertInto]
  | cons head rest ih =>
    obtain ⟨below, sortedRest⟩ := List.pairwise_cons.mp sorted
    rw [insertInto]
    split
    · rename_i less
      refine List.pairwise_cons.mpr ⟨fun e member => ?_, sorted⟩
      rcases List.mem_cons.mp member with rfl | later
      · exact less
      · exact Trans.trans less (below e later)
    · rename_i notLess
      split
      · rename_i same
        exact List.pairwise_cons.mpr ⟨fun e member => same ▸ below e member, sortedRest⟩
      · rename_i different
        refine List.pairwise_cons.mpr ⟨fun e member => ?_, ih sortedRest⟩
        rcases mem_insertInto member with rfl | later
        · rcases Std.lt_trichotomy key head.1 with less | same | greater
          · exact absurd less notLess
          · exact absurd same different
          · exact greater
        · exact below e later

def insert (m : SortedMap κ α) (key : κ) (value : α) : SortedMap κ α :=
  ⟨insertInto key value m.entries, sorted_insertInto key value m.sorted⟩

/-- The map of some pairs; of two with the same key the later one counts. -/
def ofList (pairs : List (κ × α)) : SortedMap κ α :=
  pairs.foldl (fun m p => m.insert p.1 p.2) {}

end

end SortedMap

end NoiseFilter
