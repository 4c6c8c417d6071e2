import Mathlib.Tactic.Linarith
import Mathlib.Data.Int.ModEq

namespace Iptv

/-- How far `x` lies behind `base` on a circle of the given length. -/
def arcPosition (circle base x : Int) : Int := (x - base) % circle

/-- The linear comparison of two values, turned around when they are more than
half a circle apart. -/
def isLater (half x y : Int) : Bool :=
  if half < |x - y| then decide (x < y) else decide (y < x)

/-- On an arc shorter than half the circle the comparison is the order of the
arc, wherever the arc lies and whether or not it contains the wrap. -/
theorem isLater_iff (half base x y : Int) (xs : 0 ≤ x ∧ x < 2 * half) (ys : 0 ≤ y ∧ y < 2 * half)
    (xArc : arcPosition (2 * half) base x < half) (yArc : arcPosition (2 * half) base y < half) :
    isLater half x y = true ↔ arcPosition (2 * half) base y < arcPosition (2 * half) base x := by
  unfold arcPosition at *
  have xSplit := Int.emod_add_mul_ediv (x - base) (2 * half)
  have ySplit := Int.emod_add_mul_ediv (y - base) (2 * half)
  have xLow := Int.emod_nonneg (x - base) (by omega : 2 * half ≠ 0)
  have yLow := Int.emod_nonneg (y - base) (by omega : 2 * half ≠ 0)
  generalize (x - base) % (2 * half) = px at *
  generalize (y - base) % (2 * half) = py at *
  generalize (x - base) / (2 * half) = qx at *
  generalize (y - base) / (2 * half) = qy at *
  have gap : x - y = px - py + 2 * half * (qx - qy) := by linarith [mul_sub (2 * half) qx qy]
  have lower : -1 ≤ qx - qy := by
    by_contra below
    have double : 2 * half * (qx - qy) ≤ 2 * half * (-2) :=
      mul_le_mul_of_nonneg_left (by omega) (by omega)
    omega
  have upper : qx - qy ≤ 1 := by
    by_contra above
    have double : 2 * half * 2 ≤ 2 * half * (qx - qy) :=
      mul_le_mul_of_nonneg_left (by omega) (by omega)
    omega
  -- the two values lie in the same turn, or the arc holds the wrap between them
  have turns : qx - qy = -1 ∨ qx - qy = 0 ∨ qx - qy = 1 := by omega
  unfold isLater
  rcases turns with turn | turn | turn <;> rw [turn] at gap <;> split <;>
    rename_i apart <;> rw [lt_abs] at apart <;> simp only [decide_eq_true_eq] <;> omega

/-- Whatever two values are, one of them is later, unless they are equal. -/
theorem isLater_total {half x y : Int} (first : isLater half x y = false) (second : isLater half y x = false) :
    x = y := by
  unfold isLater at first second
  rw [abs_sub_comm y x] at second
  split at first <;> rename_i apart
  · rw [if_pos apart] at second
    simp only [decide_eq_false_iff_not] at first second
    omega
  · rw [if_neg apart] at second
    simp only [decide_eq_false_iff_not] at first second
    omega

/-- Of three values, the later of the later one is later, if no value lies within
half a circle of two others that do not. -/
theorem isLater_trans {half x y z : Int} (throughX : |y - x| ≤ half → |x - z| ≤ half → |y - z| ≤ half)
    (throughY : |x - y| ≤ half → |y - z| ≤ half → |x - z| ≤ half)
    (throughZ : |x - z| ≤ half → |z - y| ≤ half → |x - y| ≤ half) (first : isLater half x y = true)
    (second : isLater half y z = true) : isLater half x z = true := by
  unfold isLater at *
  simp only [abs_le] at throughX throughY throughZ
  simp only [lt_abs] at *
  split at first <;> split at second <;> split <;> simp only [decide_eq_true_eq] at * <;> omega

/-- A value within half a circle of two others that are further apart closes a cycle. -/
theorem isLater_cycle {half x y z : Int} (first : |x - y| ≤ half) (second : |y - z| ≤ half)
    (apart : half < |x - z|) :
    isLater half x y = true ∧ isLater half y z = true ∧ isLater half z x = true ∨
      isLater half z y = true ∧ isLater half y x = true ∧ isLater half x z = true := by
  unfold isLater
  rw [abs_sub_comm z x, abs_sub_comm z y, abs_sub_comm y x]
  simp only [not_lt.mpr first, not_lt.mpr second, apart, if_true, if_false, decide_eq_true_eq]
  rw [abs_le] at first second
  rw [lt_abs] at apart
  omega

end Iptv
