import NoiseFilter.Tree.NamedValues

/-!
# Reading named values after a write

A write to one name is read back under every spelling of that name, and no other name notices. The
second half is kept twice: as a value that is read back, and as the entries that are left standing.
-/

namespace NoiseFilter.NamedValues

/-! ## Lists of entries -/

theorem find?_assign (name value other : String) (entries : List NamedValue) :
    (assign name value entries).find? (·.name == other) =
      if name = other then some ⟨name, value⟩ else entries.find? (·.name == other) := by
  induction entries with
  | nil => by_cases same : name = other <;> simp [assign, same]
  | cons e rest ih =>
    rw [assign]
    by_cases head : e.name = name
    · by_cases same : name = other <;> simp [head, same]
    · by_cases same : name = other
      · have passed : e.name ≠ other := same ▸ head
        rw [if_neg head, List.find?_cons_of_neg (by simpa using passed), ih, if_pos same,
          if_pos same]
      · simp only [head, if_false, List.find?_cons, ih, same]

theorem filter_assign (name value : String) (entries : List NamedValue) :
    (assign name value entries).filter (·.name != name) = entries.filter (·.name != name) := by
  induction entries with
  | nil => simp [assign]
  | cons e rest ih =>
    rw [assign]
    by_cases head : e.name = name
    · simp [head]
    · simp [head, ih]

/-! ## The laws of writes -/

theorem get?_congr (v : NamedValues) {name other : String}
    (same : Text.lower name = Text.lower other) :
    v.get? name = v.get? other := by
  rw [get?, get?, same]

theorem get?_set (v : NamedValues) (name value other : String) :
    (v.set name value).get? other =
      if Text.lower name = Text.lower other then some value else v.get? other := by
  rw [get?, get?, set, find?_assign]
  split <;> rfl

theorem get?_erase (v : NamedValues) (name other : String) :
    (v.erase name).get? other =
      if Text.lower name = Text.lower other then none else v.get? other := by
  rw [get?, get?, erase, List.find?_filter]
  split
  · rename_i same
    simp [same]
  · rename_i different
    congr 2
    funext e
    by_cases here : e.name = Text.lower other
    · simp [here, Ne.symm different]
    · simp [here]

/-- Setting a value leaves all other entries as they stand. -/
theorem filter_set (v : NamedValues) (name value : String) :
    (v.set name value).entries.filter (·.name != Text.lower name) =
      v.entries.filter (·.name != Text.lower name) :=
  filter_assign _ _ _

/-- Taking out a name leaves all other entries as they stand. -/
theorem filter_erase (v : NamedValues) (name : String) :
    (v.erase name).entries.filter (·.name != Text.lower name) =
      v.entries.filter (·.name != Text.lower name) := by
  rw [erase, List.filter_filter]
  simp

/-! ## Writes that come to the same -/

theorem ext_entries {v v' : NamedValues} (same : v.entries = v'.entries) : v = v' := by
  cases v
  cases v'
  cases same
  rfl

theorem assign_assign (name value value' : String) (entries : List NamedValue) :
    assign name value' (assign name value entries) = assign name value' entries := by
  induction entries with
  | nil => simp [assign]
  | cons e rest ih =>
    by_cases head : e.name = name
    · simp [assign, head]
    · simp [assign, head, ih]

/-- Of two values for one name the later one counts. -/
theorem set_set (v : NamedValues) (name value value' : String) :
    (v.set name value).set name value' = v.set name value' :=
  ext_entries (assign_assign ..)

theorem erase_set (v : NamedValues) (name value : String) :
    (v.set name value).erase name = v.erase name :=
  ext_entries (v.filter_set name value)

/-- To take out a name that is not there is to do nothing. -/
theorem erase_of_absent {v : NamedValues} {name : String} (absent : v.get? name = none) :
    v.erase name = v := by
  refine ext_entries (List.filter_eq_self.mpr fun e member => ?_)
  have missing := List.find?_eq_none.mp (Option.map_eq_none_iff.mp absent) e member
  simpa using missing

theorem assign_of_there {name value : String} {entries : List NamedValue}
    (there : (entries.find? (·.name == name)).map (·.value) = some value) :
    assign name value entries = entries := by
  induction entries with
  | nil => cases there
  | cons e rest ih =>
    rw [assign]
    by_cases head : e.name = name
    · rw [List.find?_cons_of_pos (by simpa using head)] at there
      cases there
      rw [if_pos head, ← head]
    · rw [List.find?_cons_of_neg (by simpa using head)] at there
      rw [if_neg head, ih there]

/-- To set a value that is there is to do nothing. -/
theorem set_of_there {v : NamedValues} {name value : String} (there : v.get? name = some value) :
    v.set name value = v :=
  ext_entries (assign_of_there there)

/-! ## Lists of values -/

theorem assign_of_absent {name value : String} {entries : List NamedValue}
    (absent : name ∉ entries.map (·.name)) :
    assign name value entries = entries ++ [⟨name, value⟩] := by
  induction entries with
  | nil => rfl
  | cons e rest ih =>
    obtain ⟨notHead, notRest⟩ := not_or.mp (mt List.mem_cons.mpr absent)
    rw [assign, if_neg (Ne.symm notHead), ih notRest, List.cons_append]

/-- Values that are set in order, each name for the first time, stand in that order. -/
theorem entries_foldl_set {v : NamedValues} {entries : List NamedValue}
    (lowered : ∀ e ∈ entries, Text.lower e.name = e.name)
    (distinct : ((v.entries ++ entries).map (·.name)).Nodup) :
    (entries.foldl (fun v e => v.set e.name e.value) v).entries = v.entries ++ entries := by
  induction entries generalizing v with
  | nil => simp
  | cons e rest ih =>
    obtain ⟨lowerHere, lowerRest⟩ := List.forall_mem_cons.mp lowered
    have absent : Text.lower e.name ∉ v.entries.map (·.name) := by
      rw [lowerHere]
      intro there
      rw [List.map_append, List.nodup_append] at distinct
      exact distinct.2.2 _ there _ (List.mem_map_of_mem List.mem_cons_self) rfl
    have set : (v.set e.name e.value).entries = v.entries ++ [e] :=
      (assign_of_absent absent).trans (by rw [lowerHere])
    rw [List.foldl_cons, ih lowerRest (by simpa [set] using distinct), set, List.append_assoc,
      List.singleton_append]

end NoiseFilter.NamedValues
