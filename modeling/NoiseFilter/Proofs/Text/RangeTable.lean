import NoiseFilter.Text.RangeTable

/-!
# What a search in a table finds

Whatever a search finds is an entry of the table on the place that was asked for. That there is nothing to
be found shows in the entries, in whatever order they stand (`contains_eq_false`). In a table in order every
entry is found (`contains_of_ascending`).
-/

namespace NoiseFilter.Text

section

variable {α : Type} {entries : Array α} {place : α → Ordering} {entry : α}

/-- What a search finds is an entry of the table, on the right place. -/
theorem hit_of_findBetween {low high : Nat}
    (found : findBetween entries place low high = some entry) :
    entry ∈ entries ∧ place entry = .eq := by
  fun_induction findBetween entries place low high with
  | case1 => cases found
  | case2 low high less middle other there side ih => exact ih found
  | case3 low high less middle other there side ih => exact ih found
  | case4 low high less middle other there side =>
    cases found
    exact ⟨Array.mem_of_getElem? there, side⟩
  | case5 => cases found

theorem mem_of_findEntry (found : findEntry entries place = some entry) : entry ∈ entries :=
  (hit_of_findBetween found).1

theorem place_of_findEntry (found : findEntry entries place = some entry) : place entry = .eq :=
  (hit_of_findBetween found).2

/-- What lies in front of an entry lies in front of all behind it, and what lies behind an entry lies
behind all in front of it. -/
def Ordered (entries : Array α) (place : α → Ordering) : Prop :=
  ∀ (i j : Nat) (a b : α), i < j → entries[i]? = some a → entries[j]? = some b →
    (place a = .lt → place b = .lt) ∧ (place b = .gt → place a = .gt)

/-- In a table in order an entry on the right place is found. -/
theorem isSome_findBetween (ordered : Ordered entries place) {low high i : Nat} (from_ : low ≤ i)
    (below : i < high) (inside : high ≤ entries.size) (here : entries[i]? = some entry)
    (hit : place entry = .eq) : (findBetween entries place low high).isSome = true := by
  fun_induction findBetween entries place low high with
  | case1 low high less middle missing =>
    have behind := Array.getElem?_eq_none_iff.mp missing
    omega
  | case2 low high less middle other there side ih =>
    refine ih from_ (Nat.lt_of_not_le fun behind => ?_) (by omega)
    rcases Nat.eq_or_lt_of_le behind with rfl | behind
    · rw [here] at there
      cases there
      rw [hit] at side
      cases side
    · rw [(ordered _ _ _ _ behind there here).1 side] at hit
      cases hit
  | case3 low high less middle other there side ih =>
    refine ih (Nat.lt_of_not_le fun front => ?_) below inside
    rcases Nat.eq_or_lt_of_le front with rfl | front
    · rw [here] at there
      cases there
      rw [hit] at side
      cases side
    · rw [(ordered _ _ _ _ front here there).2 side] at hit
      cases hit
  | case4 => rfl
  | case5 low high notLess => exact absurd (Nat.lt_of_le_of_lt from_ below) notLess

end

theorem placeIn_eq_iff {n first last : Nat} : placeIn n first last = .eq ↔ first ≤ n ∧ n ≤ last := by
  unfold placeIn
  split <;> rename_i front
  · exact ⟨nofun, fun within => absurd front (Nat.not_lt.mpr within.1)⟩
  · split <;> rename_i behind
    · exact ⟨nofun, fun within => absurd behind (Nat.not_lt.mpr within.2)⟩
    · exact ⟨fun _ => ⟨Nat.not_lt.mp front, Nat.not_lt.mp behind⟩, fun _ => rfl⟩

theorem placeIn_eq_lt_iff {n first last : Nat} : placeIn n first last = .lt ↔ n < first := by
  unfold placeIn
  split <;> rename_i front
  · exact ⟨fun _ => front, fun _ => rfl⟩
  · refine ⟨fun side => ?_, fun less => absurd less front⟩
    split at side <;> cases side

theorem placeIn_eq_gt_iff {n first last : Nat} :
    placeIn n first last = .gt ↔ first ≤ n ∧ last < n := by
  unfold placeIn
  split <;> rename_i front
  · exact ⟨nofun, fun behind => absurd front (Nat.not_lt.mpr behind.1)⟩
  · split <;> rename_i behind
    · exact ⟨fun _ => ⟨Nat.not_lt.mp front, behind⟩, fun _ => rfl⟩
    · exact ⟨nofun, fun less => absurd less.2 behind⟩

namespace RangeTable

variable {t : RangeTable} {c : Char}

/-! ## Characters outside a table -/

/-- Whether no range of a table meets one of these. -/
def avoids (t : RangeTable) (spans : List (Nat × Nat)) : Bool :=
  t.ranges.toList.all fun r => spans.all fun span => span.2 < r.1 || r.2 < span.1

/-- A character of a span that no range meets is not in the table. -/
theorem contains_eq_false {spans : List (Nat × Nat)} (apart : t.avoids spans = true)
    (inside : ∃ span ∈ spans, span.1 ≤ c.toNat ∧ c.toNat ≤ span.2) : t.contains c = false := by
  obtain ⟨span, member, low, high⟩ := inside
  refine Bool.eq_false_iff.mpr fun found => ?_
  obtain ⟨r, found⟩ := Option.isSome_iff_exists.mp found
  have place := place_of_findEntry found
  obtain ⟨first, last⟩ := placeIn_eq_iff.mp place
  have around := List.all_eq_true.mp apart r (Array.mem_toList_iff.mpr (mem_of_findEntry found))
  have around := List.all_eq_true.mp around span member
  rw [Bool.or_eq_true, decide_eq_true_iff, decide_eq_true_iff] at around
  omega

theorem any_contains_eq_false {tables : List RangeTable} {spans : List (Nat × Nat)}
    (apart : tables.all (·.avoids spans) = true)
    (inside : ∃ span ∈ spans, span.1 ≤ c.toNat ∧ c.toNat ≤ span.2) :
    tables.any (·.contains c) = false := by
  refine List.any_eq_false.mpr fun t member => ?_
  rw [contains_eq_false (List.all_eq_true.mp apart t member) inside]
  exact Bool.false_ne_true

/-! ## Characters in a table -/

/-- Whether ranges stand in order and hold no number in front of `low`. -/
def ascendingFrom : Nat → List (Nat × Nat) → Bool
  | _, [] => true
  | low, r :: rest => low ≤ r.1 && r.1 ≤ r.2 && ascendingFrom (r.2 + 1) rest

theorem bounds_of_ascendingFrom {low : Nat} {ranges : List (Nat × Nat)}
    (ascending : ascendingFrom low ranges = true) {r : Nat × Nat} (member : r ∈ ranges) :
    low ≤ r.1 ∧ r.1 ≤ r.2 := by
  induction ranges generalizing low with
  | nil => cases member
  | cons first rest ih =>
    simp only [ascendingFrom, Bool.and_eq_true, decide_eq_true_eq] at ascending
    obtain ⟨⟨lower, whole⟩, later⟩ := ascending
    rcases List.mem_cons.mp member with rfl | member
    · exact ⟨lower, whole⟩
    · have bounds := ih later member
      omega

theorem pairwise_of_ascendingFrom {low : Nat} {ranges : List (Nat × Nat)}
    (ascending : ascendingFrom low ranges = true) :
    ranges.Pairwise fun a b => a.1 ≤ a.2 ∧ a.2 < b.1 ∧ b.1 ≤ b.2 := by
  induction ranges generalizing low with
  | nil => exact .nil
  | cons first rest ih =>
    simp only [ascendingFrom, Bool.and_eq_true, decide_eq_true_eq] at ascending
    obtain ⟨⟨-, whole⟩, later⟩ := ascending
    refine .cons (fun r member => ⟨whole, ?_⟩) (ih later)
    exact bounds_of_ascendingFrom later member

/-- In a table in order all characters of a range are found. -/
theorem contains_of_ascending {low : Nat} (ascending : ascendingFrom low t.ranges.toList = true)
    {r : Nat × Nat} (member : r ∈ t.ranges.toList) (first : r.1 ≤ c.toNat) (last : c.toNat ≤ r.2) :
    t.contains c = true := by
  obtain ⟨i, inside, rfl⟩ := List.getElem_of_mem member
  have apart := List.pairwise_iff_getElem.mp (pairwise_of_ascendingFrom ascending)
  have ordered : Ordered t.ranges fun r => placeIn c.toNat r.1 r.2 := by
    intro j k a b less there there'
    obtain ⟨inside, rfl⟩ := Array.getElem?_eq_some_iff.mp there
    obtain ⟨inside', rfl⟩ := Array.getElem?_eq_some_iff.mp there'
    have order := apart j k inside inside' less
    simp only [Array.getElem_toList] at order
    simp only [placeIn_eq_lt_iff, placeIn_eq_gt_iff]
    omega
  refine isSome_findBetween ordered (Nat.zero_le i) inside (Nat.le_refl _) ?_ 
    (placeIn_eq_iff.mpr ⟨first, last⟩)
  exact Array.getElem?_eq_getElem inside

end RangeTable

end NoiseFilter.Text
