import Mathlib.Data.List.Basic
import Mathlib.Order.Lattice

namespace Iptv
universe u v
variable {α : Type u} {comp : α → α → Bool}

/-- The comparator is a strict weak ordering of the listed values, as the
standard defines it: it is irreflexive and transitive, and so is "neither
before the other". -/
structure StrictWeakOn (comp : α → α → Bool) (values : List α) : Prop where
  irrefl : ∀ a ∈ values, comp a a = false
  trans : ∀ a ∈ values, ∀ b ∈ values, ∀ c ∈ values,
    comp a b = true → comp b c = true → comp a c = true
  equiv : ∀ a ∈ values, ∀ b ∈ values, ∀ c ∈ values, comp a b = false → comp b a = false →
    comp b c = false → comp c b = false → comp a c = false ∧ comp c a = false

/-- A range is a heap when no element is ordered behind its parent. -/
def IsHeap (comp : α → α → Bool) (values : List α) : Prop :=
  ∀ i (bound : i < values.length), 0 < i →
    comp (values.get ⟨(i - 1) / 2, by omega⟩) (values.get ⟨i, bound⟩) = false

/-- What `std::push_heap` and `std::pop_heap` promise of a comparator that
orders the range strictly and weakly; of any other range nothing is known. -/
structure StdHeap (α : Type u) where
  pushHeap : (α → α → Bool) → List α → List α
  popHeap : (α → α → Bool) → List α → List α
  pushHeap_spec : ∀ {comp : α → α → Bool} {values : List α} {last : α},
    StrictWeakOn comp (values ++ [last]) → IsHeap comp values →
      (pushHeap comp (values ++ [last])).Perm (values ++ [last]) ∧
        IsHeap comp (pushHeap comp (values ++ [last]))
  popHeap_spec : ∀ {comp : α → α → Bool} {first : α} {rest : List α},
    StrictWeakOn comp (first :: rest) → IsHeap comp (first :: rest) →
      ∃ remaining, popHeap comp (first :: rest) = remaining ++ [first] ∧
        remaining.Perm rest ∧ IsHeap comp remaining

/-- Both operations rearrange whatever range they are given. -/
structure StdHeap.Permutes {α : Type u} (heap : StdHeap α) : Prop where
  pushHeap : ∀ (comp : α → α → Bool) values, (heap.pushHeap comp values).Perm values
  popHeap : ∀ (comp : α → α → Bool) values, (heap.popHeap comp values).Perm values

theorem StrictWeakOn.mono {values more : List α} (order : StrictWeakOn comp more)
    (subset : ∀ a ∈ values, a ∈ more) : StrictWeakOn comp values where
  irrefl a inA := order.irrefl a (subset a inA)
  trans a inA b inB c inC := order.trans a (subset a inA) b (subset b inB) c (subset c inC)
  equiv a inA b inB c inC := order.equiv a (subset a inA) b (subset b inB) c (subset c inC)

theorem StrictWeakOn.asymm {values : List α} (order : StrictWeakOn comp values) {a b : α}
    (inA : a ∈ values) (inB : b ∈ values) (before : comp a b = true) : comp b a = false := by
  by_contra both
  have loop := order.trans a inA b inB a inA before (by simpa using both)
  rw [order.irrefl a inA] at loop
  simp at loop

/-- "Not before" is transitive. -/
theorem StrictWeakOn.negTrans {values : List α} (order : StrictWeakOn comp values) {a b c : α}
    (inA : a ∈ values) (inB : b ∈ values) (inC : c ∈ values) (first : comp a b = false)
    (second : comp b c = false) : comp a c = false := by
  by_contra before
  have strict : comp a c = true := by simpa using before
  cases back : comp c b with
  | true =>
    have reach := order.trans a inA c inC b inB strict back
    rw [first] at reach
    simp at reach
  | false =>
    cases front : comp b a with
    | true =>
      have reach := order.trans b inB a inA c inC front strict
      rw [second] at reach
      simp at reach
    | false =>
      have same := (order.equiv a inA b inB c inC first front second back).1
      rw [strict] at same
      simp at same

/-- A comparator that reads off a key of a linear order orders strictly and weakly. -/
theorem strictWeakOn_of_key {κ : Type v} [LinearOrder κ] {values : List α} (key : α → κ)
    (agrees : ∀ a ∈ values, ∀ b ∈ values, comp a b = true ↔ key b < key a) : StrictWeakOn comp values := by
  have missing : ∀ a ∈ values, ∀ b ∈ values, comp a b = false ↔ key a ≤ key b := by
    intro a inA b inB
    rw [← not_lt, ← agrees a inA b inB, Bool.not_eq_true]
  constructor
  · intro a inA
    exact (missing a inA a inA).mpr le_rfl
  · intro a inA b inB c inC first second
    rw [agrees a inA b inB] at first
    rw [agrees b inB c inC] at second
    exact (agrees a inA c inC).mpr (second.trans first)
  · intro a inA b inB c inC ab ba bc cb
    rw [missing a inA b inB] at ab
    rw [missing b inB a inA] at ba
    rw [missing b inB c inC] at bc
    rw [missing c inC b inB] at cb
    exact ⟨(missing a inA c inC).mpr (ab.trans bc), (missing c inC a inA).mpr (cb.trans ba)⟩

/-- Nothing in a heap is ordered behind its root. -/
theorem IsHeap.root {first : α} {rest : List α} (heap : IsHeap comp (first :: rest))
    (order : StrictWeakOn comp (first :: rest)) {value : α} (member : value ∈ first :: rest) :
    comp first value = false := by
  obtain ⟨i, bound, rfl⟩ := List.mem_iff_getElem.mp member
  clear member
  induction i using Nat.strongRecOn with
  | _ i ih =>
    rcases Nat.eq_zero_or_pos i with rfl | positive
    · exact order.irrefl first (by simp)
    · have parent := ih ((i - 1) / 2) (by omega) (by omega)
      exact order.negTrans (by simp) (List.getElem_mem _) (List.getElem_mem _) parent
        (heap i bound positive)

theorem isHeap_of_pairwise {values : List α} (sorted : values.Pairwise fun a b => comp a b = false) :
    IsHeap comp values := by
  intro i bound positive
  exact List.pairwise_iff_getElem.mp sorted _ _ _ bound (by omega)

/-- Puts a value in front of the first one that is ordered behind it. -/
def insertBy (comp : α → α → Bool) (value : α) : List α → List α
  | [] => [value]
  | head :: rest => if comp head value then value :: head :: rest else head :: insertBy comp value rest

def sortBy (comp : α → α → Bool) (values : List α) : List α := values.foldr (insertBy comp) []

theorem insertBy_perm (value : α) (values : List α) : (insertBy comp value values).Perm (value :: values) := by
  induction values with
  | nil => exact List.Perm.refl _
  | cons head rest ih =>
    unfold insertBy
    split
    · exact List.Perm.refl _
    · exact (ih.cons head).trans (List.Perm.swap value head rest)

theorem sortBy_perm (values : List α) : (sortBy comp values).Perm values := by
  induction values with
  | nil => exact List.Perm.refl _
  | cons head rest ih => exact (insertBy_perm head _).trans (ih.cons head)

theorem insertBy_sorted {value : α} {values : List α} (order : StrictWeakOn comp (value :: values))
    (sorted : values.Pairwise fun a b => comp a b = false) :
    (insertBy comp value values).Pairwise fun a b => comp a b = false := by
  induction values with
  | nil => simp [insertBy]
  | cons head rest ih =>
    obtain ⟨headFirst, restSorted⟩ := List.pairwise_cons.mp sorted
    unfold insertBy
    split
    · rename_i behind
      have first := order.asymm (by simp) (by simp) behind
      refine List.pairwise_cons.mpr ⟨?_, sorted⟩
      intro other member
      rcases List.mem_cons.mp member with rfl | later
      · exact first
      · exact order.negTrans (by simp) (by simp) (by simp [later]) first (headFirst other later)
    · rename_i front
      have small : StrictWeakOn comp (value :: rest) := order.mono fun a member => by
        rcases List.mem_cons.mp member with rfl | later
        · simp
        · simp [later]
      refine List.pairwise_cons.mpr ⟨?_, ih small restSorted⟩
      intro other member
      rcases List.mem_cons.mp ((insertBy_perm value rest).mem_iff.mp member) with rfl | later
      · simpa using front
      · exact headFirst other later

theorem sortBy_sorted {values : List α} (order : StrictWeakOn comp values) :
    (sortBy comp values).Pairwise fun a b => comp a b = false := by
  induction values with
  | nil => exact List.Pairwise.nil
  | cons head rest ih =>
    have tail := ih (order.mono fun a member => List.mem_cons_of_mem head member)
    refine insertBy_sorted (order.mono fun a member => ?_) tail
    rcases List.mem_cons.mp member with rfl | later
    · simp
    · exact List.mem_cons_of_mem head ((sortBy_perm rest).mem_iff.mp later)

/-- An executable instance that keeps the whole range sorted. -/
def StdHeap.sorting (α : Type u) : StdHeap α where
  pushHeap := sortBy
  popHeap comp values := match values with
    | [] => []
    | first :: rest => sortBy comp rest ++ [first]
  pushHeap_spec order _ := ⟨sortBy_perm _, isHeap_of_pairwise (sortBy_sorted order)⟩
  popHeap_spec {_ first rest} order _ := ⟨sortBy _ rest, rfl, sortBy_perm rest,
    isHeap_of_pairwise (sortBy_sorted (order.mono fun _ member => List.mem_cons_of_mem first member))⟩

theorem StdHeap.sorting_permutes (α : Type u) : (StdHeap.sorting α).Permutes where
  pushHeap _ values := sortBy_perm values
  popHeap comp values := by
    cases values with
    | nil => exact List.Perm.refl _
    | cons first rest => exact (List.perm_append_singleton first _).trans ((sortBy_perm rest).cons first)

end Iptv
