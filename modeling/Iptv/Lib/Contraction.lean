import Mathlib.Algebra.Order.Archimedean.Basic
import Mathlib.Tactic.Linarith

namespace Iptv
universe u
variable {K : Type u} [Field K] [LinearOrder K] [IsStrictOrderedRing K]

/-- A value that is no further than `distance` outside of the band from `low` to `high`. -/
structure Near (low high distance x : K) : Prop where
  lower : low - distance ≤ x
  upper : x ≤ high + distance

variable {low high distance further x measurement weight margin : K}

theorem Near.mono (near : Near low high distance x) (order : distance ≤ further) : Near low high further x :=
  ⟨by linarith [near.lower], by linarith [near.upper]⟩

/-- A value inside of the band is as near as one likes. -/
theorem near_inside (lower : low ≤ measurement) (upper : measurement ≤ high) (order : 0 ≤ distance) :
    Near low high distance measurement :=
  ⟨by linarith, by linarith⟩

/-- A weighted mean with a value of the band brings the distance down by the other weight. -/
theorem Near.mix (near : Near low high distance x) (lower : low ≤ measurement) (upper : measurement ≤ high)
    (positive : 0 ≤ weight) (most : weight ≤ 1) :
    Near low high ((1 - weight) * distance) (weight * measurement + (1 - weight) * x) := by
  have rest : 0 ≤ 1 - weight := by linarith
  have fromBelow := mul_le_mul_of_nonneg_left lower positive
  have fromAbove := mul_le_mul_of_nonneg_left upper positive
  have keptBelow := mul_le_mul_of_nonneg_left near.lower rest
  have keptAbove := mul_le_mul_of_nonneg_left near.upper rest
  rw [mul_sub] at keptBelow
  rw [mul_add] at keptAbove
  exact ⟨by linarith, by linarith⟩

/-- The distance of a mean that is taken over and over again. -/
theorem shrunk_le (positive : 0 ≤ weight) (most : weight ≤ 1) (order : 0 ≤ distance) {n m : Nat} (later : n ≤ m)
    (enough : (1 - weight) ^ n * distance ≤ margin) : (1 - weight) ^ m * distance ≤ margin := by
  have rest : 0 ≤ 1 - weight := by linarith
  have small : 1 - weight ≤ 1 := by linarith
  exact (mul_le_mul_of_nonneg_right (pow_le_pow_of_le_one rest small later) order).trans enough

theorem exists_shrunk [Archimedean K] (positive : 0 < weight) (order : 0 ≤ distance) (room : 0 < margin) :
    ∃ n : Nat, (1 - weight) ^ n * distance ≤ margin := by
  rcases order.eq_or_lt with zero | more
  · exact ⟨0, by rw [← zero, mul_zero]; exact room.le⟩
  · obtain ⟨n, small⟩ := exists_pow_lt_of_lt_one (div_pos room more) (by linarith : 1 - weight < 1)
    exact ⟨n, ((lt_div_iff₀ more).mp small).le⟩

end Iptv
