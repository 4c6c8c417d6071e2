import Mathlib.Algebra.Order.BigOperators.Group.List
import Mathlib.Algebra.Order.Ring.Int

namespace Iptv

/-- The sum of two values of a type with the given range; `none` stands for an overflow. -/
def checkedAdd (low high a b : Int) : Option Int :=
  if low ≤ a + b ∧ a + b ≤ high then some (a + b) else none

/-- A sum of which every intermediate value has to be in the range. -/
def checkedSum (low high : Int) (start : Option Int) (summands : List Int) : Option Int :=
  summands.foldl (fun sum n => sum.bind (checkedAdd low high · n)) start

variable {low high : Int}

theorem checkedAdd_eq_some {a b sum : Int} :
    checkedAdd low high a b = some sum ↔ sum = a + b ∧ low ≤ sum ∧ sum ≤ high := by
  unfold checkedAdd
  split
  · rename_i inside
    simp only [Option.some.injEq]
    exact ⟨fun same => ⟨same.symm, same ▸ inside⟩, fun exact => exact.1.symm⟩
  · rename_i outside
    exact ⟨fun none => (by cases none), fun exact => absurd (exact.1 ▸ exact.2) outside⟩

theorem checkedSum_append (start : Option Int) (first second : List Int) :
    checkedSum low high start (first ++ second) = checkedSum low high (checkedSum low high start first) second :=
  List.foldl_append

theorem checkedSum_none (summands : List Int) : checkedSum low high none summands = none := by
  induction summands with
  | nil => rfl
  | cons n rest ih => exact ih

/-- Summands that are not negative overflow on the way exactly when their sum does. -/
theorem checkedSum_natural (lowest : low ≤ 0) {start : Int} (within : 0 ≤ start ∧ start ≤ high)
    {summands : List Int} (natural : ∀ n ∈ summands, 0 ≤ n) :
    checkedSum low high (some start) summands =
      if start + summands.sum ≤ high then some (start + summands.sum) else none := by
  induction summands generalizing start with
  | nil =>
    simp only [checkedSum, List.foldl_nil, List.sum_nil, Int.add_zero]
    rw [if_pos within.2]
  | cons n rest ih =>
    obtain ⟨first, others⟩ := List.forall_mem_cons.mp natural
    have positive : 0 ≤ rest.sum := List.sum_nonneg others
    have step : checkedSum low high (some start) (n :: rest) =
        checkedSum low high (checkedAdd low high start n) rest := rfl
    rw [step, List.sum_cons, ← Int.add_assoc]
    by_cases fits : start + n ≤ high
    · rw [checkedAdd, if_pos ⟨by omega, fits⟩, ih ⟨by omega, fits⟩ others]
    · rw [checkedAdd, if_neg (fun inside => fits inside.2), checkedSum_none, if_neg (by omega)]

end Iptv
