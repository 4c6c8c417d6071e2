import Mathlib.Data.List.Basic

namespace Iptv

/-- The third list merges the other two, each of which keeps its order. -/
inductive Interleaving {α : Type*} : List α → List α → List α → Prop
  | nil : Interleaving [] [] []
  | left {x xs ys zs} : Interleaving xs ys zs → Interleaving (x :: xs) ys (x :: zs)
  | right {y xs ys zs} : Interleaving xs ys zs → Interleaving xs (y :: ys) (y :: zs)

variable {α : Type*} {xs ys zs : List α}

theorem Interleaving.append_left (woven : Interleaving xs ys zs) (x : α) :
    Interleaving (xs ++ [x]) ys (zs ++ [x]) := by
  induction woven with
  | nil => exact .left .nil
  | left _ ih => exact .left ih
  | right _ ih => exact .right ih

theorem Interleaving.append_right (woven : Interleaving xs ys zs) (y : α) :
    Interleaving xs (ys ++ [y]) (zs ++ [y]) := by
  induction woven with
  | nil => exact .right .nil
  | left _ ih => exact .left ih
  | right _ ih => exact .right ih

/-- The pieces lie in a buffer one behind the other, none over another one. -/
inductive LaidOut : List (List α) → List α → Prop
  | nil (buffer : List α) : LaidOut [] buffer
  | cons (gap : List α) {piece rest : List α} {pieces : List (List α)} :
      LaidOut pieces rest → LaidOut (piece :: pieces) (gap ++ piece ++ rest)

theorem LaidOut.prepend {pieces : List (List α)} {buffer : List α} (laid : LaidOut pieces buffer)
    (front : List α) : LaidOut pieces (front ++ buffer) := by
  cases laid with
  | nil => exact .nil _
  | cons gap laid =>
    rw [List.append_assoc gap, ← List.append_assoc front, ← List.append_assoc (front ++ gap)]
    exact .cons _ laid

theorem LaidOut.part {piece front buffer : List α} {pieces : List (List α)} (inside : piece <:+: front)
    (laid : LaidOut pieces buffer) : LaidOut (piece :: pieces) (front ++ buffer) := by
  obtain ⟨before, after, rfl⟩ := inside
  rw [List.append_assoc (before ++ piece)]
  exact .cons before (laid.prepend after)

/-- Pieces may be forgotten. -/
theorem LaidOut.sublist {pieces fewer : List (List α)} {buffer : List α} (part : fewer.Sublist pieces)
    (laid : LaidOut pieces buffer) : LaidOut fewer buffer := by
  induction part generalizing buffer with
  | slnil => exact .nil _
  | cons piece _ ih =>
    cases laid with
    | cons gap laid => exact (ih laid).prepend _
  | cons_cons piece _ ih =>
    cases laid with
    | cons gap laid => exact .cons gap (ih laid)

theorem LaidOut.inside {pieces : List (List α)} {buffer : List α} (laid : LaidOut pieces buffer) :
    ∀ piece ∈ pieces, piece <:+: buffer := by
  induction laid with
  | nil => simp
  | @cons gap piece rest _ _ ih =>
    refine List.forall_mem_cons.mpr ⟨⟨gap, rest, rfl⟩, fun later member => ?_⟩
    exact (ih later member).trans (List.suffix_append _ _).isInfix

end Iptv
