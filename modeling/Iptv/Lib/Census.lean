import Mathlib.Algebra.BigOperators.Group.Finset.Basic
import Mathlib.Algebra.Order.BigOperators.Group.Finset
import Mathlib.Algebra.Order.BigOperators.Group.List
import Mathlib.Algebra.Order.Group.Nat

namespace Iptv
universe u v

section Rearrangement
variable {ι : Type u} {β : Type v}

/-- Two maps with the same values up to order agree everywhere, if the second never
weighs more than the first and weighs as much only where they agree. -/
theorem eq_of_map_perm {xs : List ι} {f g : ι → β} (weight : β → Nat) (perm : (xs.map f).Perm (xs.map g))
    (below : ∀ x ∈ xs, weight (g x) ≤ weight (f x))
    (tight : ∀ x ∈ xs, weight (g x) = weight (f x) → f x = g x) : ∀ x ∈ xs, f x = g x := by
  have total := (perm.map weight).sum_eq
  rw [List.map_map, List.map_map] at total
  by_contra apart
  simp only [not_forall] at apart
  obtain ⟨x, member, differ⟩ := apart
  have strict : weight (g x) < weight (f x) := by
    have bound := below x member
    have unequal : weight (g x) ≠ weight (f x) := fun same => differ (tight x member same)
    omega
  have less := List.sum_lt_sum (weight ∘ g) (weight ∘ f) below ⟨x, member, strict⟩
  omega

open Classical in
/-- Whether a value differs from the default. -/
noncomputable def departs (value default : β) : Nat := if value = default then 0 else 1

theorem departs_of_eq_or {value kept default : β} (near : value = kept ∨ value = default) :
    departs value default ≤ departs kept default ∧
      (departs value default = departs kept default → value = kept) := by
  unfold departs
  rcases near with rfl | rfl
  · exact ⟨le_rfl, fun _ => rfl⟩
  · by_cases same : kept = value
    · exact ⟨by simp [same], fun _ => same.symm⟩
    · simp [same]

end Rearrangement

variable {ι : Type u} {κ : Type v} [Fintype ι]

/-- The sum of a weight over finitely many threads. -/
def tally (weight : κ → Nat) (threads : ι → κ) : Nat := ∑ i, weight (threads i)

/-- How many of finitely many threads are in a state that `p` accepts. -/
def census (p : κ → Bool) (threads : ι → κ) : Nat :=
  ∑ i, (p (threads i)).toNat

theorem census_pos {p : κ → Bool} {threads : ι → κ} (positive : 0 < census p threads) :
    ∃ i, p (threads i) = true := by
  by_contra none
  simp only [not_exists, Bool.not_eq_true] at none
  simp [census, none] at positive

/-- One thread changes: both sides weigh every other thread alike. -/
theorem tally_update [DecidableEq ι] (weight : κ → Nat) (threads : ι → κ) (i : ι) (state : κ) :
    tally weight (Function.update threads i state) + weight (threads i) =
      tally weight threads + weight state := by
  have same : ∑ j ∈ Finset.univ.erase i, weight (Function.update threads i state j) =
      ∑ j ∈ Finset.univ.erase i, weight (threads j) :=
    Finset.sum_congr rfl fun j member => by
      rw [Function.update_of_ne (Finset.ne_of_mem_erase member)]
  unfold tally
  rw [← Finset.sum_erase_add _ _ (Finset.mem_univ i), same,
    ← Finset.sum_erase_add (a := i) _ (fun j => weight (threads j)) (Finset.mem_univ i),
    Function.update_self]
  omega

theorem census_update [DecidableEq ι] (p : κ → Bool) (threads : ι → κ) (i : ι) (state : κ) :
    census p (Function.update threads i state) + (p (threads i)).toNat =
      census p threads + (p state).toNat :=
  tally_update (fun state => (p state).toNat) threads i state

end Iptv
