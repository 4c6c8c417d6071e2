import Mathlib.Data.List.Basic

namespace Iptv
universe u
variable {α : Type u}

/-- Rows of one width, laid out one behind the other. -/
def raster (rows width : Nat) (sample : Nat → Nat → α) : List α :=
  (List.range rows).flatMap fun row => (List.range width).map (sample row)

theorem raster_succ (rows width : Nat) (sample : Nat → Nat → α) :
    raster (rows + 1) width sample = raster rows width sample ++ (List.range width).map (sample rows) := by
  simp [raster, List.range_succ]

theorem raster_length (rows width : Nat) (sample : Nat → Nat → α) :
    (raster rows width sample).length = rows * width := by
  induction rows with
  | zero => simp [raster]
  | succ rows ih =>
    rw [raster_succ, List.length_append, ih, List.length_map, List.length_range, Nat.succ_mul]

/-- The sample of a row and a column stands behind the rows in front of it. -/
theorem raster_getElem? {rows width row column : Nat} (sample : Nat → Nat → α) (inRows : row < rows)
    (inWidth : column < width) : (raster rows width sample)[row * width + column]? = some (sample row column) := by
  induction rows with
  | zero => omega
  | succ rows ih =>
    rw [raster_succ]
    rcases Nat.lt_succ_iff_lt_or_eq.mp inRows with earlier | rfl
    · have whole : (row + 1) * width ≤ rows * width := Nat.mul_le_mul_right width earlier
      rw [Nat.succ_mul] at whole
      rw [List.getElem?_append_left (by rw [raster_length]; omega)]
      exact ih earlier
    · rw [List.getElem?_append_right (by rw [raster_length]; omega), raster_length, Nat.add_sub_cancel_left]
      simp [inWidth]

/-- Writes, each with its start and its size, that follow each other without a gap or an overlap. -/
inductive Tiles (first : Nat) : List (Nat × Nat) → Nat → Prop
  | nil : Tiles first [] first
  | snoc {writes : List (Nat × Nat)} {last : Nat} (front : Tiles first writes last) (size : Nat) :
      Tiles first (writes ++ [(last, size)]) (last + size)

/-- A buffer with bytes written over it from `start` on. -/
def overwrite (buffer : List α) (start : Nat) (bytes : List α) : List α :=
  buffer.take start ++ bytes ++ buffer.drop (start + bytes.length)

/-- Writing directly behind what has been filled in. -/
theorem overwrite_filled (front bytes : List α) (rest : Nat) (blank : α) :
    overwrite (front ++ List.replicate rest blank) front.length bytes =
      (front ++ bytes) ++ List.replicate (rest - bytes.length) blank := by
  unfold overwrite
  rw [List.take_left, List.drop_append, List.drop_of_length_le (Nat.le_add_right _ _), List.nil_append,
    Nat.add_sub_cancel_left, List.drop_replicate]

end Iptv
