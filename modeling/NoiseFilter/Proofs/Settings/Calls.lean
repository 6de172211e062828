import NoiseFilter.Proofs.SortedMap
import NoiseFilter.Settings.Custom
import NoiseFilter.Settings.Load

/-!
# Calls on stored options

Stored options start from a catalog, from a text or with nothing, and then change by one call after
another. A call that is refused leaves them as they are. What matters later is where ids come from:
only the two ways to write a custom filter bring new ones in, and only a purge takes any away.
-/

namespace NoiseFilter.Options

/-- What is done to stored options. -/
inductive Call where
  | setStatus (id : String) (status : RuleStatus)
  | disable (id : String)
  | markForDeletion (id : String)
  | purge (ids : List String)
  | addCustom (config : Config)
  | saveCustom (config : Config) (id pattern color : String)
  | setMode (mode : Mode)

variable {o o' : Options} {id : String}

/-! ## What writing does -/

namespace Writing

variable {ε α : Type}

/-- Whether writing succeeds, and the options behind it. -/
def tried (w : Writing ε α) (o : Options) : Bool × Options := ((w.start o).1.isOk, (w.start o).2)

/-- Writing succeeds, or nothing has been written. -/
def Careful (w : Writing ε α) : Prop := ∀ o, (w.tried o).1 = true ∨ (w.tried o).2 = o

theorem outcome_eq_ok_iff {w : Writing ε α} {a : α} :
    w.outcome o = .ok (a, o') ↔ w.start o = (.ok a, o') := by
  rw [outcome]
  obtain ⟨answer, behind⟩ := w.start o
  cases answer with
  | error => simp [Except.map]
  | ok => simp [Except.map]

theorem start_setStatus (o : Options) (id : String) (status : RuleStatus) :
    (setStatus id status).start o = match o.get? id with
      | none => (.error ⟨id⟩, o)
      | some r => (.ok (), o.put id { r with status }) := by
  have run : (setStatus id status).start o = (match o.get? id with
      | none => throw ⟨id⟩
      | some r => modify (·.put id { r with status }) : Writing UnknownRule Unit).start o := rfl
  rw [run]
  cases o.get? id with
  | none => rfl
  | some r => rfl

theorem start_addCustom (o : Options) (config : Config) :
    (addCustom config).start o = match customSelector config defaultPattern with
      | .error e => (.error e, o)
      | .ok selector => (.ok o.nextCustomId, o.put o.nextCustomId (addedRule config selector)) := by
  unfold addCustom
  cases customSelector config defaultPattern with
  | error e => rfl
  | ok selector => rfl

theorem start_saveCustom (o : Options) (config : Config) (id pattern color : String) :
    (saveCustom config id pattern color).start o = match customSelector config pattern with
      | .error e => (.error e, o)
      | .ok selector =>
        (.ok (), o.put id (savedRule ((o.get? id).getD {}) config selector color)) := by
  unfold saveCustom
  cases customSelector config pattern with
  | error e => rfl
  | ok selector => rfl

theorem careful_setStatus (id : String) (status : RuleStatus) : (setStatus id status).Careful := by
  intro o
  rw [tried, start_setStatus]
  cases o.get? id with
  | none => exact .inr rfl
  | some r => exact .inl rfl

theorem careful_addCustom (config : Config) : (addCustom config).Careful := by
  intro o
  rw [tried, start_addCustom]
  cases customSelector config defaultPattern with
  | error e => exact .inr rfl
  | ok selector => exact .inl rfl

theorem careful_saveCustom (config : Config) (id pattern color : String) :
    (saveCustom config id pattern color).Careful := by
  intro o
  rw [tried, start_saveCustom]
  cases customSelector config pattern with
  | error e => exact .inr rfl
  | ok selector => exact .inl rfl

end Writing

theorem addCustom_eq_ok_iff {config : Config} : o.addCustom config = .ok (id, o') ↔
    ∃ selector, customSelector config defaultPattern = .ok selector ∧ id = o.nextCustomId ∧
      o' = o.put o.nextCustomId (addedRule config selector) := by
  rw [addCustom, Writing.outcome_eq_ok_iff, Writing.start_addCustom]
  cases customSelector config defaultPattern with
  | error e => simp
  | ok selector => simp [eq_comm]

/-! ## What calls do -/

namespace Call

/-- Whether a call succeeds, and the options behind it. -/
def tried (o : Options) : Call → Bool × Options
  | setStatus id status => (Writing.setStatus id status).tried o
  | disable id => (Writing.disable id).tried o
  | markForDeletion id => (Writing.markForDeletion id).tried o
  | purge ids => (true, o.purge ids)
  | addCustom config => (Writing.addCustom config).tried o
  | saveCustom config id pattern color => (Writing.saveCustom config id pattern color).tried o
  | setMode mode => (true, { o with mode })

/-- The options behind a call. -/
def after (o : Options) (call : Call) : Options := (call.tried o).2

/-- Whether a call drops rules. -/
def isPurge : Call → Bool
  | purge _ => true
  | _ => false

/-- A call succeeds, or it changes nothing. -/
theorem careful (o : Options) (call : Call) : (call.tried o).1 = true ∨ call.after o = o := by
  cases call with
  | setStatus id status => exact Writing.careful_setStatus id status o
  | disable id => exact Writing.careful_setStatus id .disabled o
  | markForDeletion id => exact Writing.careful_setStatus id .delete o
  | addCustom config => exact Writing.careful_addCustom config o
  | saveCustom config id pattern color => exact Writing.careful_saveCustom config id pattern color o
  | purge ids => exact .inl rfl
  | setMode mode => exact .inl rfl

/-- What a call does to the rules. -/
inductive Effect (o : Options) : Call → Options → Prop
  /-- The call is refused, or it is about the mode. -/
  | kept {call : Call} {o' : Options} (rules : o'.rules = o.rules) : Effect o call o'
  | purged (ids : List String) : Effect o (.purge ids) (o.purge ids)
  /-- A rule that is there is written anew. -/
  | rewritten {call : Call} {id : String} {r : StoredRule} (there : (o.get? id).isSome = true) :
      Effect o call (o.put id r)
  | added (config : Config) (selector : String) :
      Effect o (.addCustom config) (o.put o.nextCustomId (addedRule config selector))
  | saved (config : Config) (id pattern color : String) (r : StoredRule) :
      Effect o (.saveCustom config id pattern color) (o.put id r)

theorem effect_setStatus (call : Call) (id : String) (status : RuleStatus) :
    Effect o call ((Writing.setStatus id status).start o).2 := by
  rw [Writing.start_setStatus]
  cases found : o.get? id with
  | none => exact .kept rfl
  | some r => exact .rewritten (by rw [found]; rfl)

theorem effect (o : Options) (call : Call) : Effect o call (call.after o) := by
  cases call with
  | setStatus id status => exact effect_setStatus _ id status
  | disable id => exact effect_setStatus _ id .disabled
  | markForDeletion id => exact effect_setStatus _ id .delete
  | purge ids => exact .purged ids
  | setMode mode => exact .kept rfl
  | addCustom config =>
    show Effect o _ ((Writing.addCustom config).start o).2
    rw [Writing.start_addCustom]
    cases customSelector config defaultPattern with
    | error => exact .kept rfl
    | ok selector => exact .added config selector
  | saveCustom config id pattern color =>
    show Effect o _ ((Writing.saveCustom config id pattern color).start o).2
    rw [Writing.start_saveCustom]
    cases customSelector config pattern with
    | error => exact .kept rfl
    | ok selector => exact .saved config id pattern color _

theorem after_addCustom {config : Config} (added : o.addCustom config = .ok (id, o')) :
    (Call.addCustom config).after o = o' :=
  congrArg Prod.snd (Writing.outcome_eq_ok_iff.mp added)

/-! ## Where ids come from, and where they go -/

variable {call : Call} {key : String}

/-- An id that is new behind a call is that of a filter that was added, or of one that was saved. -/
theorem mem_keys_of_after (member : key ∈ (call.after o).rules.keys) :
    key ∈ o.rules.keys ∨ key = o.nextCustomId ∨
      ∃ config pattern color, call = .saveCustom config key pattern color := by
  have effect := call.effect o
  generalize call.after o = o' at effect member
  cases effect with
  | kept rules => exact .inl (rules ▸ member)
  | purged ids => exact .inl (SortedMap.mem_keys_of_mem_foldl_erase member)
  | rewritten there =>
    rcases o.rules.mem_keys_insert.mp member with rfl | old
    · exact .inl (o.rules.mem_keys_iff.mpr there)
    · exact .inl old
  | added config selector => exact (o.rules.mem_keys_insert.mp member).symm.imp_right .inl
  | saved config id pattern color r =>
    rcases o.rules.mem_keys_insert.mp member with rfl | old
    · exact .inr (.inr ⟨config, pattern, color, rfl⟩)
    · exact .inl old

/-- Only a purge takes ids away. -/
theorem mem_keys_after (keeps : call.isPurge = false) (member : key ∈ o.rules.keys) :
    key ∈ (call.after o).rules.keys := by
  have effect := call.effect o
  generalize call.after o = o' at effect
  cases effect with
  | kept rules => exact rules ▸ member
  | purged ids => cases keeps
  | rewritten there => exact o.rules.mem_keys_insert.mpr (.inr member)
  | added config selector => exact o.rules.mem_keys_insert.mpr (.inr member)
  | saved config id pattern color r => exact o.rules.mem_keys_insert.mpr (.inr member)

end Call

/-! ## Runs -/

/-- The options behind some calls. -/
def run (o : Options) (calls : List Call) : Options := calls.foldl Call.after o

/-- What stored options start from. -/
inductive Initial : Options → Prop
  | empty : Initial {}
  | ofCatalog (c : Catalog) : Initial (.ofCatalog c)
  | ofString {text : String} {o : Options} (loaded : Options.ofString text = .ok o) : Initial o

theorem run_cons (o : Options) (call : Call) (calls : List Call) :
    o.run (call :: calls) = (call.after o).run calls := rfl

theorem run_append (o : Options) (before later : List Call) :
    o.run (before ++ later) = (o.run before).run later :=
  List.foldl_append

/-- An id that is there behind some calls was there before them, or names a filter, or a call saved a
filter under it. -/
theorem mem_keys_of_run {calls : List Call} {key : String}
    (member : key ∈ (o.run calls).rules.keys) :
    key ∈ o.rules.keys ∨ customStart.toList <+: key.toList ∨
      ∃ config pattern color, Call.saveCustom config key pattern color ∈ calls := by
  induction calls generalizing o with
  | nil => exact .inl member
  | cons call calls ih =>
    rcases ih (run_cons o call calls ▸ member) with here | named | ⟨config, pattern, color, later⟩
    · rcases Call.mem_keys_of_after here with old | rfl | ⟨config, pattern, color, rfl⟩
      · exact .inl old
      · refine .inr (.inl ?_)
        rw [nextCustomId, String.toList_append]
        exact List.prefix_append _ _
      · exact .inr (.inr ⟨config, pattern, color, List.mem_cons_self⟩)
    · exact .inr (.inl named)
    · exact .inr (.inr ⟨config, pattern, color, List.mem_cons_of_mem _ later⟩)

theorem mem_keys_run {calls : List Call} {key : String}
    (keeps : ∀ call ∈ calls, call.isPurge = false) (member : key ∈ o.rules.keys) :
    key ∈ (o.run calls).rules.keys := by
  induction calls generalizing o with
  | nil => exact member
  | cons call calls ih =>
    have kept := Call.mem_keys_after (keeps call List.mem_cons_self) member
    exact ih (fun later there => keeps later (List.mem_cons_of_mem _ there)) kept

end NoiseFilter.Options
