import NoiseFilter.Proofs.Settings.Calls
import NoiseFilter.Proofs.Settings.Custom

/-!
# New filters get new ids

The id of a new filter is written from a number, and reading the number back gives one above those of
all filters there are. Other ids may share a number, or have none: what counts is that no id at all
reads as this number. So a new filter takes no place that is taken, and two that are added get different
ids as long as nothing is dropped between them.
-/

namespace NoiseFilter

/-! ## Numbers in ids -/

theorem readIndex_toDigits {n : Nat} (fits : n ≤ customLimit) :
    readIndex (Nat.toDigits 10 n) = some n := by
  have digit (c : Char) (member : c ∈ Nat.toDigits 10 n) : c.isDigit = true :=
    Nat.isDigit_of_mem_toDigits (by decide) (by decide) member
  have filled : Nat.toDigits 10 n ≠ [] := Nat.toDigits_ne_nil
  have noPlus : (Nat.toDigits 10 n).head? ≠ some '+' := fun plus => by
    have digitPlus := digit '+' (List.mem_of_head? plus)
    cases digitPlus
  have all : ((Nat.toDigits 10 n).isEmpty || !(Nat.toDigits 10 n).all Char.isDigit) = false := by
    simpa [filled] using digit
  unfold readIndex
  simp only [if_neg noPlus, all, Bool.false_eq_true, if_false, Text.foldl_toDigits,
    if_pos fits]

/-- The number of a filter is found in its id. -/
theorem customIndex?_digits {n : Nat} (fits : n ≤ customLimit) :
    customIndex? (customStart ++ Text.digits n) = some n := by
  have chars : (customStart ++ Text.digits n).toList = customStart.toList ++ Nat.toDigits 10 n := by
    rw [String.toList_append, Text.digits, String.toList_ofList]
  have begins : customStart.toList.isPrefixOf (customStart.toList ++ Nat.toDigits 10 n) = true :=
    List.isPrefixOf_iff_prefix.mpr (List.prefix_append _ _)
  rw [customIndex?, chars, if_pos begins]
  exact (congrArg readIndex List.drop_left).trans (readIndex_toDigits fits)

theorem foldl_max_le_iff {l : List Nat} {a b : Nat} :
    l.foldl max a ≤ b ↔ a ≤ b ∧ ∀ n ∈ l, n ≤ b := by
  induction l generalizing a with
  | nil => simp
  | cons n l ih => rw [List.foldl_cons, ih, Nat.max_le, List.forall_mem_cons, and_assoc]

namespace Options

variable {o : Options}

/-- There is a number above those of all filters. -/
def HasRoom (o : Options) : Prop := ∀ n ∈ o.indexes, n < customLimit

instance (o : Options) : Decidable o.HasRoom :=
  inferInstanceAs (Decidable (∀ n ∈ o.indexes, n < customLimit))

theorem lt_nextIndex {n : Nat} (member : n ∈ o.indexes) : n < o.nextIndex := by
  have some_ : ¬ o.indexes.isEmpty = true := by
    rw [List.isEmpty_iff]
    exact List.ne_nil_of_mem member
  rw [nextIndex, if_neg some_]
  exact Nat.lt_succ_of_le ((foldl_max_le_iff.mp (Nat.le_refl _)).2 n member)

theorem nextIndex_le (room : o.HasRoom) : o.nextIndex ≤ customLimit := by
  unfold nextIndex
  split
  · decide
  · have below : o.indexes.foldl max 0 ≤ customLimit - 1 :=
      foldl_max_le_iff.mpr ⟨Nat.zero_le _, fun n member => Nat.le_sub_one_of_lt (room n member)⟩
    have positive : 0 < customLimit := by decide
    omega

theorem customIndex?_nextCustomId (room : o.HasRoom) :
    customIndex? o.nextCustomId = some o.nextIndex :=
  customIndex?_digits (nextIndex_le room)

/-- An id whose number is above all others is not there. -/
theorem nextCustomId_not_mem (room : o.HasRoom) : o.nextCustomId ∉ o.rules.keys := fun member =>
  Nat.lt_irrefl _ <| lt_nextIndex <|
    List.mem_filterMap.mpr ⟨_, member, customIndex?_nextCustomId room⟩

/-! ## Adding -/

/-- The pattern of new filters compiles, so that adding one is never refused. -/
theorem exists_addCustom (o : Options) (config : Config) : ∃ selector,
    o.addCustom config = .ok (o.nextCustomId, o.put o.nextCustomId (addedRule config selector)) := by
  have compiles : ∃ test, TextTest.ofRegex defaultPattern = .ok test :=
    exists_ofRegex_iff.mpr (by decide +kernel)
  exact ⟨_, addCustom_eq_ok_iff.mpr ⟨_, customSelector_eq_ok_iff.mpr ⟨compiles, rfl⟩, rfl, rfl⟩⟩

/-- Some options hold what others do and one rule besides, under an id that is new and whose number is
above those of all filters. -/
structure Gains (o : Options) (id : String) (o' : Options) : Prop where
  fresh : id ∉ o.rules.keys
  number : ∃ n, customIndex? id = some n ∧
    ∀ other ∈ o.rules.keys, ∀ m, customIndex? other = some m → m < n
  one : ∃ r, o'.rules.entries.Perm ((id, r) :: o.rules.entries)
  others : ∀ other r, o.get? other = some r → o'.get? other = some r
  mode : o'.mode = o.mode

theorem gains_addCustom (room : o.HasRoom) {config : Config} {id : String} {o' : Options}
    (added : o.addCustom config = .ok (id, o')) : o.Gains id o' := by
  obtain ⟨selector, -, rfl, rfl⟩ := addCustom_eq_ok_iff.mp added
  have fresh := nextCustomId_not_mem room
  refine ⟨fresh, ⟨_, customIndex?_nextCustomId room, fun other member m index => ?_⟩,
    ⟨_, o.rules.perm_insert fresh _⟩, fun other r there => ?_, rfl⟩
  · exact lt_nextIndex (List.mem_filterMap.mpr ⟨other, member, index⟩)
  · have different : other ≠ o.nextCustomId := by
      rintro rfl
      refine fresh (o.rules.mem_keys_iff.mpr ?_)
      rw [show o.rules.get? o.nextCustomId = some r from there]
      rfl
    exact (o.rules.get?_insert _ _ _).trans ((if_neg different).trans there)

/-- Filters that are added with no purge between them have different ids. -/
theorem ne_of_added {first second : Config} {calls : List Call} {id later : String}
    {o' o'' : Options} (keeps : ∀ call ∈ calls, call.isPurge = false)
    (added : o.addCustom first = .ok (id, o')) (room : (o'.run calls).HasRoom)
    (next : (o'.run calls).addCustom second = .ok (later, o'')) : later ≠ id := by
  obtain ⟨selector, -, rfl, rfl⟩ := addCustom_eq_ok_iff.mp added
  rintro rfl
  refine (gains_addCustom room next).fresh (mem_keys_run keeps ?_)
  exact o.rules.mem_keys_insert.mpr (.inl rfl)

/-- Along any calls on stored options, a call that is refused changes nothing. Where the filters leave
room for a number, adding one succeeds, and all that it does is to put one more rule under an id that
was not there and whose number is above all others; and a filter that is added later, with no purge in
between, gets another id. -/
theorem addCustom_of_run (start : Options) (before : List Call) :
    (∀ call : Call, (call.tried (start.run before)).1 = false →
      start.run (before ++ [call]) = start.run before) ∧
    ((start.run before).HasRoom → ∀ config : Config,
      ∃ id o', (start.run before).addCustom config = .ok (id, o') ∧
        id = (start.run before).nextCustomId ∧ (start.run before).Gains id o' ∧
        o' = start.run (before ++ [.addCustom config]) ∧
        ∀ (between : List Call) (second : Config), (∀ call ∈ between, call.isPurge = false) →
          (o'.run between).HasRoom →
          ∃ later o'', (o'.run between).addCustom second = .ok (later, o'') ∧ later ≠ id) := by
  refine ⟨fun call refused => ?_, fun room config => ?_⟩
  · have kept : call.after (start.run before) = start.run before :=
      (call.careful _).resolve_left (ne_true_of_eq_false refused)
    rw [run_append, run_cons, kept]
    rfl
  · obtain ⟨selector, added⟩ := exists_addCustom (start.run before) config
    refine ⟨_, _, added, rfl, gains_addCustom room added, ?_, fun between second keeps later => ?_⟩
    · rw [run_append, run_cons, Call.after_addCustom added]
      rfl
    · obtain ⟨_, next⟩ := exists_addCustom _ second
      exact ⟨_, _, next, ne_of_added keeps added later next⟩

/-- Filters saved under ids that share a number, or have none; one of them is dropped. -/
def savedByHand : List Call :=
  [.saveCustom {} "custom_007" "x" "red", .saveCustom {} "custom_+7" "y" "red",
    .saveCustom {} "custom_9" "z" "red", .saveCustom {} "custom_x" "z" "red", .purge ["custom_9"]]

theorem addCustom_of_savedByHand :
    (Options.run {} savedByHand).HasRoom ∧
      ∃ o', (Options.run {} savedByHand).addCustom {} = .ok ("custom_8", o') ∧
        (Options.run {} savedByHand).Gains "custom_8" o' ∧
        ∃ later o'', o'.addCustom {} = .ok (later, o'') ∧ later ≠ "custom_8" := by
  have room : (Options.run {} savedByHand).HasRoom := by decide +kernel
  have next : (Options.run {} savedByHand).nextCustomId = "custom_8" := by decide +kernel
  obtain ⟨id, o', added, named, gains, after, again⟩ :=
    (addCustom_of_run {} savedByHand).2 room {}
  rw [next] at named
  subst named
  refine ⟨room, o', added, gains, again [] {} (by simp) ?_⟩
  rw [after]
  decide +kernel

end Options

end NoiseFilter
