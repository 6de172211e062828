import NoiseFilter.Proofs.Json.RoundTrip
import NoiseFilter.Proofs.Settings.Calls
import NoiseFilter.Settings.Save

/-!
# Saved options are loaded again

The text that options are saved as gives the same options, unless there is a rule under the key of the
mode. Mode and rules stand side by side in one object: with such a rule the key is there twice, and
the text is refused.
-/

namespace NoiseFilter

open Json

/-! ## What is saved is well written -/

theorem Mode.ofJson_number (mode : Mode) : Mode.ofJson (.number (.ofNat mode.toNat)) = .ok mode := by
  cases mode <;> rfl

theorem RuleStatus.ofJson_toJson (status : RuleStatus) : RuleStatus.ofJson status.toJson = .ok status := by
  cases status <;> rfl

namespace StoredRule

/-- Each part of a rule is read into its place, and one that is left out stays empty. -/
theorem ofJson_toJson (r : StoredRule) : StoredRule.ofJson r.toJson = .ok r := by
  obtain ⟨status, selector, cls, color⟩ := r
  cases status <;> cases selector <;> cases cls <;> cases color <;> rfl

theorem written_toJson (r : StoredRule) : r.toJson.Written := by
  have optional (name : String) (value : Option String) (m : Member)
      (member : m ∈ optionalMember name value) : m.1.isSome = true ∧ m.2.Written := by
    obtain ⟨s, -, rfl⟩ := List.mem_map.mp member
    exact ⟨rfl, .string s⟩
  have each (m : Member) (member : m ∈ (some "status", r.status.toJson) ::
      optionalMember "selector" r.selector ++ optionalMember "class" r.cls ++
        optionalMember "color" r.color) : m.1.isSome = true ∧ m.2.Written := by
    rcases List.mem_append.mp member with others | color
    · rcases List.mem_append.mp others with first | cls
      · rcases List.mem_cons.mp first with rfl | selector
        · refine ⟨rfl, ?_⟩
          cases r.status with
          | enabled => exact .bool true
          | disabled => exact .bool false
          | delete => exact .string deleteWord
        · exact optional _ _ m selector
      · exact optional _ _ m cls
    · exact optional _ _ m color
  exact .object (fun m member => (each m member).1) fun m member => (each m member).2

theorem isSound_toJson (r : StoredRule) : r.toJson.isSound nestingLimit = true := by
  obtain ⟨status, selector, cls, color⟩ := r
  cases status <;> cases selector <;> cases cls <;> cases color <;> rfl

end StoredRule

namespace Options

variable {o start : Options}

/-- The members of saved options. -/
def members (o : Options) : List Member :=
  (some modeKey, .number (.ofNat o.mode.toNat)) ::
    o.rules.entries.map fun e => (some e.1, e.2.toJson)

theorem written_toJson (o : Options) : (Value.object o.members).Written := by
  have each (m : Member) (member : m ∈ o.members) : m.1.isSome = true ∧ m.2.Written := by
    rcases List.mem_cons.mp member with rfl | rule
    · exact ⟨rfl, .number (Number.written_ofNat _)⟩
    · obtain ⟨e, -, rfl⟩ := List.mem_map.mp rule
      exact ⟨rfl, e.2.written_toJson⟩
  exact .object (fun m member => (each m member).1) fun m member => (each m member).2

/-! ## Loading -/

/-- Behind the mode, rules are gathered one by one; one under the key of the mode is refused. -/
theorem gather_rules (mode : Mode) (gathered : List (String × Value))
    (entries : List (String × StoredRule)) :
    gather (some mode) gathered (entries.map fun e => (some e.1, e.2.toJson)) =
      if modeKey ∈ entries.map (·.1) then .error .malformed
      else .ok (some mode, gathered ++ entries.map fun e => (e.1, e.2.toJson)) := by
  induction entries generalizing gathered with
  | nil => simp [gather]
  | cons e entries ih =>
    rw [List.map_cons, gather]
    by_cases same : e.1 = modeKey
    · simp [same]
    · have other : modeKey ∈ e.1 :: entries.map (·.1) ↔ modeKey ∈ entries.map (·.1) := by
        rw [List.mem_cons, or_iff_right (Ne.symm same)]
      rw [if_neg same, if_pos e.2.isSound_toJson, ih]
      simp only [other, List.append_assoc, List.map_cons, List.singleton_append]

theorem mapM_ofJson (entries : List (String × StoredRule)) :
    ((entries.map fun e => (e.1, e.2.toJson)).mapM fun (key, v) => do
      let r ← StoredRule.ofJson v
      return (key, r)) = (.ok entries : Except OptionsError (List (String × StoredRule))) := by
  induction entries with
  | nil => rfl
  | cons e entries ih =>
    rw [List.map_cons, List.mapM_cons, ih]
    simp [StoredRule.ofJson_toJson, bind, Except.bind, pure, Except.pure]

/-- Saved options are loaded as they were, unless a rule has the key of the mode. -/
theorem ofString_render_eq (o : Options) : Options.ofString o.render =
    if modeKey ∈ o.rules.keys then .error .malformed else .ok o := by
  have run : MemberRun.ofString? o.render = some { members := o.members, rest := some [] } :=
    MemberRun.ofString?_render o.written_toJson
  have gathers : gather none [] o.members = if modeKey ∈ o.rules.keys then .error .malformed
      else .ok (some o.mode, o.rules.entries.map fun e => (e.1, e.2.toJson)) := by
    rw [members, gather, if_pos rfl, Mode.ofJson_number]
    exact gather_rules o.mode [] o.rules.entries
  rw [Options.ofString, run]
  show (gather none [] o.members >>= _) = _
  rw [gathers]
  split
  · rfl
  · show (List.mapM (m := Except OptionsError) _
      (o.rules.entries.map fun e => (e.1, e.2.toJson)) >>= _) = _
    rw [mapM_ofJson]
    show Except.ok ({ mode := o.mode, rules := .ofList o.rules.entries } : Options) = _
    rw [SortedMap.ofList_entries]

/-! ## Which options have a rule under the key of the mode -/

/-- A computation that goes on from another succeeds where both do. -/
theorem exists_of_bind_eq_ok {α β : Type} {x : Except OptionsError α}
    {f : α → Except OptionsError β} {b : β} (all : x >>= f = .ok b) :
    ∃ a, x = .ok a ∧ f a = .ok b := by
  cases x with
  | error => cases all
  | ok a => exact ⟨a, rfl, all⟩

theorem not_mem_gather {mode mode' : Option Mode} {gathered rules : List (String × Value)}
    {read : List Member} (apart : ∀ p ∈ gathered, p.1 ≠ modeKey)
    (all : gather mode gathered read = .ok (mode', rules)) : ∀ p ∈ rules, p.1 ≠ modeKey := by
  fun_induction gather mode gathered read with
  | case1 mode gathered =>
    cases all
    exact apart
  | case2 => cases all
  | case3 => cases all
  | case4 mode gathered v rest none_ ih =>
    obtain ⟨mode, -, others⟩ := exists_of_bind_eq_ok all
    exact ih mode apart others
  | case5 mode gathered v rest key other sound ih =>
    refine ih (fun p member => ?_) all
    rcases List.mem_append.mp member with old | new
    · exact apart p old
    · rw [List.mem_singleton.mp new]
      exact other
  | case6 => cases all

/-- Reading the rules keeps their keys. -/
theorem keys_of_mapM {entries : List (String × Value)} {rules : List (String × StoredRule)}
    (all : (entries.mapM fun (key, v) => do
      let r ← StoredRule.ofJson v
      return (key, r)) = (.ok rules : Except OptionsError _)) :
    rules.map (·.1) = entries.map (·.1) := by
  induction entries generalizing rules with
  | nil =>
    cases all
    rfl
  | cons e entries ih =>
    rw [List.mapM_cons] at all
    obtain ⟨first, read, all⟩ := exists_of_bind_eq_ok all
    obtain ⟨others, later, all⟩ := exists_of_bind_eq_ok all
    obtain ⟨r, -, same⟩ := exists_of_bind_eq_ok read
    cases same
    cases all
    rw [List.map_cons, List.map_cons, ih later]

/-- Options that were loaded have no such rule. -/
theorem not_mem_keys_of_ofString {text : String} (loaded : Options.ofString text = .ok o) :
    modeKey ∉ o.rules.keys := by
  obtain ⟨run, -, loaded⟩ := exists_of_bind_eq_ok loaded
  obtain ⟨⟨mode, gathered⟩, gathers, loaded⟩ := exists_of_bind_eq_ok loaded
  obtain ⟨rest, -, loaded⟩ := exists_of_bind_eq_ok loaded
  obtain ⟨rules, read, loaded⟩ := exists_of_bind_eq_ok loaded
  have apart := not_mem_gather (fun _ absent => absurd absent List.not_mem_nil) gathers
  split at loaded
  · cases loaded
    intro member
    obtain ⟨r, there⟩ := SortedMap.mem_keys_ofList.mp member
    have key : modeKey ∈ gathered.map (·.1) := by
      rw [← keys_of_mapM read]
      exact List.mem_map.mpr ⟨_, there, rfl⟩
    obtain ⟨p, inside, same⟩ := List.mem_map.mp key
    exact apart p inside same
  · cases loaded

/-- Options from a catalog have the ids of its entries. -/
theorem mem_keys_ofCatalog {c : Catalog} {id : String} :
    id ∈ (Options.ofCatalog c).rules.keys ↔ ∃ e ∈ c.entries, e.id = id := by
  refine SortedMap.mem_keys_ofList.trans ⟨?_, ?_⟩
  · rintro ⟨r, member⟩
    obtain ⟨e, inside, same⟩ := List.mem_map.mp member
    exact ⟨e, inside, congrArg Prod.fst same⟩
  · rintro ⟨e, inside, rfl⟩
    exact ⟨_, List.mem_map.mpr ⟨e, inside, rfl⟩⟩

/-- A rule under the key of the mode is that of a catalog, or a filter was saved under this key. -/
theorem collides_of_run (initial : Initial start) {calls : List Call}
    (taken : modeKey ∈ (start.run calls).rules.keys) :
    (∃ c e, start = .ofCatalog c ∧ e ∈ c.entries ∧ e.id = modeKey) ∨
      ∃ config pattern color, Call.saveCustom config modeKey pattern color ∈ calls := by
  rcases mem_keys_of_run taken with here | named | saved
  · cases initial with
    | empty => cases here
    | ofCatalog c =>
      obtain ⟨e, inside, same⟩ := mem_keys_ofCatalog.mp here
      exact .inl ⟨c, e, rfl, inside, same⟩
    | ofString loaded => exact absurd here (not_mem_keys_of_ofString loaded)
  · exact absurd named (by decide)
  · exact .inr saved

/-! ## Loading what was saved -/

/-- Whatever is done to stored options, saving and loading gives them back, unless there is a rule
under the key of the mode; then the text is refused. Such a rule is there only if a catalog lists it or
a filter was saved under this key. -/
theorem ofString_render_run (initial : Initial start) (calls : List Call) :
    (Options.ofString (start.run calls).render = .ok (start.run calls) ↔
      modeKey ∉ (start.run calls).rules.keys) ∧
    (modeKey ∈ (start.run calls).rules.keys →
      Options.ofString (start.run calls).render = .error .malformed ∧
      ((∃ c e, start = .ofCatalog c ∧ e ∈ c.entries ∧ e.id = modeKey) ∨
        ∃ config pattern color, Call.saveCustom config modeKey pattern color ∈ calls)) := by
  rw [ofString_render_eq]
  refine ⟨?_, fun taken => ⟨if_pos taken, collides_of_run initial taken⟩⟩
  by_cases taken : modeKey ∈ (start.run calls).rules.keys
  · simp [taken]
  · simp [taken]

/-- A filter that is added, switched on and saved anew. -/
def filterCalls : List Call :=
  [.addCustom {}, .setStatus "custom_1" .enabled, .saveCustom {} "custom_1" "a\"b" "red",
    .setMode .extreme]

theorem ofString_render_filterCalls :
    Options.ofString (Options.run {} filterCalls).render = .ok (Options.run {} filterCalls) :=
  (ofString_render_run .empty filterCalls).1.mpr (by decide +kernel)

/-- A filter that is saved under the key of the mode makes the text one that is refused. -/
theorem not_ofString_render : ¬ ∀ (start : Options) (calls : List Call), Initial start →
    Options.ofString (start.run calls).render = .ok (start.run calls) := by
  intro all
  have loads := all {} [.saveCustom {} modeKey "a" "red"] .empty
  rw [ofString_render_eq, if_pos (by decide +kernel)] at loads
  cases loads

end Options

end NoiseFilter
