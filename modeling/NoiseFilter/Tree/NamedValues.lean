import NoiseFilter.Text.Ascii

/-!
# Named values

Values by name, in the order in which the names were first set. Names are in lower case and no name
occurs twice. The attributes of an element are such a list, and so are the declarations of a style.
-/

namespace NoiseFilter

/-- A value with its name. -/
structure NamedValue where
  name : String
  value : String
  deriving DecidableEq, Inhabited

theorem NamedValues.lowered_nil : ∀ e ∈ ([] : List NamedValue), Text.lower e.name = e.name :=
  List.forall_mem_nil _

/-- A list of named values, the names in lower case and each there once. -/
structure NamedValues where
  entries : List NamedValue := []
  lowered : ∀ e ∈ entries, Text.lower e.name = e.name := by exact NamedValues.lowered_nil
  distinct : (entries.map (·.name)).Nodup := by exact List.nodup_nil
  deriving DecidableEq

namespace NamedValues

instance : Inhabited NamedValues := ⟨{}⟩

/-- The value of a name, whatever the case of the name asked for. -/
def get? (v : NamedValues) (name : String) : Option String :=
  (v.entries.find? (·.name == Text.lower name)).map (·.value)

def isEmpty (v : NamedValues) : Bool := v.entries.isEmpty

def size (v : NamedValues) : Nat := v.entries.length

/-- Give the entry called `name` a value, or add one at the end. -/
def assign (name value : String) : List NamedValue → List NamedValue
  | [] => [⟨name, value⟩]
  | e :: rest => if e.name = name then ⟨name, value⟩ :: rest else e :: assign name value rest

theorem mem_assign {name value : String} {e : NamedValue} {entries : List NamedValue}
    (member : e ∈ assign name value entries) : e = ⟨name, value⟩ ∨ e ∈ entries := by
  induction entries with
  | nil => simpa [assign] using member
  | cons head rest ih =>
    rw [assign] at member
    split at member
    · rcases List.mem_cons.mp member with rfl | later
      · exact .inl rfl
      · exact .inr (List.mem_cons_of_mem _ later)
    · rcases List.mem_cons.mp member with rfl | later
      · exact .inr List.mem_cons_self
      · exact (ih later).imp_right (List.mem_cons_of_mem _)

theorem distinct_assign (name value : String) {entries : List NamedValue}
    (distinct : (entries.map (·.name)).Nodup) :
    ((assign name value entries).map (·.name)).Nodup := by
  induction entries with
  | nil => simp [assign]
  | cons head rest ih =>
    obtain ⟨fresh, distinctRest⟩ := List.nodup_cons.mp distinct
    rw [assign]
    split
    · rename_i same
      subst same
      exact distinct
    · rename_i different
      refine List.nodup_cons.mpr ⟨fun member => ?_, ih distinctRest⟩
      obtain ⟨e, assigned, name_eq⟩ := List.mem_map.mp member
      rcases mem_assign assigned with rfl | old
      · exact different name_eq.symm
      · exact fresh (name_eq ▸ List.mem_map_of_mem old)

/-- Set a value; the name is lowered. -/
def set (v : NamedValues) (name value : String) : NamedValues where
  entries := assign (Text.lower name) value v.entries
  lowered e member := by
    rcases mem_assign member with rfl | old
    · exact Text.lower_lower name
    · exact v.lowered e old
  distinct := distinct_assign _ _ v.distinct

/-- Take out a name, whatever its case. -/
def erase (v : NamedValues) (name : String) : NamedValues where
  entries := v.entries.filter (·.name != Text.lower name)
  lowered e member := v.lowered e (List.mem_filter.mp member).1
  distinct := v.distinct.sublist (List.filter_sublist.map _)

end NamedValues

end NoiseFilter
