import Mathlib.Data.List.Basic
import Mathlib.Order.Lattice

/-!
# Lists in ascending order of keys

A list in which keys ascend strictly is given by its members (`eq_of_ascending`), and the keys tell which
of two members comes first.
-/

namespace NoiseFilter

variable {β γ : Type} [LinearOrder γ] {key : β → γ} {l : List β} {a b : β}

/-- Of two members of a list one comes first. -/
theorem pair_sublist_or (inA : a ∈ l) (inB : b ∈ l) (different : a ≠ b) :
    [a, b].Sublist l ∨ [b, a].Sublist l := by
  obtain ⟨before, behind, rfl⟩ := List.append_of_mem inA
  rcases List.mem_append.mp inB with first | later
  · exact .inr ((List.singleton_sublist.mpr first).append
      (List.singleton_sublist.mpr List.mem_cons_self))
  · have behindA : b ∈ behind := (List.mem_cons.mp later).resolve_left different.symm
    exact .inl (((List.singleton_sublist.mpr behindA).cons_cons a).trans
      (List.sublist_append_right ..))

variable (ascending : l.Pairwise fun x y => key x < key y) (inA : a ∈ l) (inB : b ∈ l)

include ascending inA inB

/-- In a list of ascending keys the keys tell which member comes first. -/
theorem key_lt_iff_sublist : key a < key b ↔ [a, b].Sublist l := by
  have smaller {x y : β} (pair : [x, y].Sublist l) : key x < key y :=
    List.pairwise_iff_forall_sublist.mp ascending pair
  refine ⟨fun less => ?_, smaller⟩
  have different : a ≠ b := fun same => less.ne (same ▸ rfl)
  exact (pair_sublist_or inA inB different).resolve_right fun pair => less.not_gt (smaller pair)

/-- In a list of ascending keys no two members share a key. -/
theorem key_inj : key a = key b ↔ a = b := by
  refine ⟨fun same => ?_, fun same => same ▸ rfl⟩
  by_contra different
  rcases pair_sublist_or inA inB different with pair | pair
  · exact (List.pairwise_iff_forall_sublist.mp ascending pair).ne same
  · exact (List.pairwise_iff_forall_sublist.mp ascending pair).ne same.symm

omit inA inB in
/-- Lists of ascending keys with the same members are the same. -/
theorem eq_of_ascending {l' : List β} (ascending' : l'.Pairwise fun x y => key x < key y)
    (members : ∀ x, x ∈ l ↔ x ∈ l') : l = l' := by
  have distinct {l : List β} (ascending : l.Pairwise fun x y => key x < key y) : l.Nodup :=
    ascending.imp fun {x y} less (same : x = y) => less.ne (congrArg key same)
  have perm : l.Perm l' :=
    (List.perm_ext_iff_of_nodup (distinct ascending) (distinct ascending')).mpr members
  exact perm.eq_of_pairwise (fun x y _ _ less more => absurd less more.not_gt) ascending ascending'

end NoiseFilter
