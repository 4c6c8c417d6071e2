import Mathlib.Data.List.TakeWhile

namespace Iptv
universe u
variable {α : Type u} {p : α → Bool} {l : List α}

/-- A cut between what is accepted and a refused entry is where the scan stops. -/
theorem span_until {front rest : List α} (inside : ∀ a ∈ front, p a = true)
    (stop : ∀ a, rest.head? = some a → p a = false) :
    (front ++ rest).takeWhile p = front ∧ (front ++ rest).dropWhile p = rest := by
  rw [List.takeWhile_append_of_pos inside, List.dropWhile_append_of_pos inside]
  cases rest with
  | nil => simp
  | cons a rest => simp [stop a rfl]

/-- The scan up to the first refusal accepts each of the entries it has passed. -/
theorem accepted_of_lt_takeWhile {i : Nat} {a : α} (before : i < (l.takeWhile p).length)
    (entry : l[i]? = some a) : p a = true := by
  obtain ⟨rest, split⟩ := List.takeWhile_prefix (l := l) p
  rw [← split, List.getElem?_append_left before] at entry
  exact List.mem_takeWhile_imp (List.mem_of_getElem? entry)

/-- A scan that accepts more passes more. -/
theorem takeWhile_length_mono {q : α → Bool} (weaker : ∀ a, p a = true → q a = true) (l : List α) :
    (l.takeWhile p).length ≤ (l.takeWhile q).length := by
  have inner : (l.takeWhile q).takeWhile p = l.takeWhile p := by
    rw [List.takeWhile_takeWhile]
    congr 1
    funext a
    cases accepted : p a with
    | true => simp [weaker a accepted]
    | false => simp
  rw [← inner]
  exact (List.takeWhile_prefix p).length_le

/-- On a list in which acceptance is inherited by everything that stands before,
the scan up to the first refusal passes all that is accepted. -/
theorem lt_takeWhile_of_accepted {i : Nat} {a : α}
    (ordered : l.Pairwise fun a b => p b = true → p a = true) (entry : l[i]? = some a)
    (accepted : p a = true) : i < (l.takeWhile p).length := by
  induction l generalizing i with
  | nil => simp at entry
  | cons b l ih =>
    obtain ⟨first, rest⟩ := List.pairwise_cons.mp ordered
    cases i with
    | zero =>
      cases entry
      simp [accepted]
    | succ i =>
      have earlier : p b = true := first a (List.mem_of_getElem? entry) accepted
      have found := ih rest entry
      simp only [List.takeWhile_cons, earlier, if_true, List.length_cons]
      omega

end Iptv
