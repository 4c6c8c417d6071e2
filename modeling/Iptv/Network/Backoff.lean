import Mathlib.Algebra.Order.Ring.Int
import Mathlib.Data.List.Iterate
import Iptv.Network.RetryLoop

namespace Iptv.Network

/-- The number of backoffs of a download: that of its retried attempts, up to the
first one that ends it. -/
def backoffs (policy : RetryPolicy) (attempts : Nat → Attempt) : Nat :=
  (List.range policy.maxRetries.toNat).findIdx fun k => !(attempts k).retried

theorem download_backoffs (policy : RetryPolicy) (attempts : Nat → Attempt) :
    (download policy attempts).attempts = backoffs policy attempts + 1 := by
  obtain ⟨some, bound, retried, last, _, _⟩ := download_ran policy attempts
  simp only [Nat.zero_add] at bound retried last
  suffices found : backoffs policy attempts = (download policy attempts).attempts - 1 by omega
  rcases Nat.lt_or_ge ((download policy attempts).attempts - 1) policy.maxRetries.toNat with early | full
  · have ended := last.resolve_right (by omega)
    refine (List.findIdx_eq (by simpa using early)).mpr ⟨by simp [ended], fun k before => ?_⟩
    simp [retried k (by omega)]
  · have count : (download policy attempts).attempts - 1 = policy.maxRetries.toNat := by omega
    rw [count, backoffs, List.findIdx_eq_length_of_false, List.length_range]
    intro k inside
    simp [retried k (by rw [List.mem_range] at inside; omega)]

/-- The sleeps of a download, by the delay that each of them is drawn from. -/
theorem download_sleeps {policy : RetryPolicy} (sleeping : policy.strategy ≠ .none) (attempts : Nat → Attempt) :
    (download policy attempts).sleeps =
      List.iterate (fun current => applyBackoffDelay policy.strategy current policy.maxDelay) policy.initialDelay
        (backoffs policy attempts) := by
  rw [(download_ran policy attempts).sleeps sleeping, download_backoffs, Nat.add_sub_cancel]

theorem getElem?_sleeps {policy : RetryPolicy} (sleeping : policy.strategy ≠ .none) {attempts : Nat → Attempt}
    {k : Nat} (inside : k < backoffs policy attempts) :
    (download policy attempts).sleeps[k]? =
      some ((fun current => applyBackoffDelay policy.strategy current policy.maxDelay)^[k] policy.initialDelay) := by
  rw [download_sleeps sleeping]
  exact List.getElem?_iterate _ _ _ _ inside

/-- Behind the first backoff the delay is capped, whatever the initial one was. -/
theorem delay_succ {initial maxDelay : Int} (nonneg : 0 ≤ initial) (positive : 0 ≤ maxDelay) (k : Nat) :
    (fun current => applyBackoffDelay .exponential current maxDelay)^[k + 1] initial =
      min (initial * 2 ^ (k + 1)) maxDelay := by
  induction k with
  | zero => simp [applyBackoffDelay]
  | succ k ih =>
    have power : initial * 2 ^ (k + 1 + 1) = initial * 2 ^ (k + 1) * 2 := by rw [pow_succ, mul_assoc]
    have grown : 0 ≤ initial * 2 ^ (k + 1) := mul_nonneg nonneg (pow_nonneg (by decide) _)
    rw [Function.iterate_succ_apply', ih, power]
    simp only [applyBackoffDelay]
    omega

theorem delay_capped {initial maxDelay : Int} (nonneg : 0 ≤ initial) (below : initial ≤ maxDelay) (k : Nat) :
    (fun current => applyBackoffDelay .exponential current maxDelay)^[k] initial = min (initial * 2 ^ k) maxDelay := by
  cases k with
  | zero =>
    rw [Function.iterate_zero_apply, pow_zero, mul_one, min_eq_left below]
  | succ k => exact delay_succ nonneg (nonneg.trans below) k

/-- The k-th sleep, counted from zero, is drawn from zero up to the smaller of the
doubled initial delay and the ceiling, and no doubling leaves 64 bits. -/
structure Capped (policy : RetryPolicy) (sleeps : List Int) : Prop where
  drawn : ∀ k bound, sleeps[k]? = some bound → bound = min (policy.initialDelay * 2 ^ k) policy.maxDelay
  fits : ∀ bound ∈ sleeps, bound * 2 < 9223372036854775808

/-- A download that backs off keeps to the ceiling exactly when the initial delay,
which is slept for before it is capped, and its last doubling do. -/
theorem download_capped_iff {policy : RetryPolicy} (exponential : policy.strategy = .exponential)
    (nonneg : 0 ≤ policy.initialDelay) (positive : 0 ≤ policy.maxDelay) (attempts : Nat → Attempt) :
    Capped policy (download policy attempts).sleeps ↔
      backoffs policy attempts = 0 ∨ (policy.initialDelay ≤ policy.maxDelay ∧
        min (policy.initialDelay * 2 ^ (backoffs policy attempts - 1)) policy.maxDelay < 4611686018427387904) := by
  have sleeping : policy.strategy ≠ .none := by simp [exponential]
  have entry {k : Nat} (inside : k < backoffs policy attempts) := getElem?_sleeps sleeping inside
  rw [exponential] at entry
  constructor
  · intro capped
    rcases Nat.eq_zero_or_pos (backoffs policy attempts) with none | backs
    · exact Or.inl none
    · have first := capped.drawn 0 _ (entry backs)
      have below : policy.initialDelay ≤ policy.maxDelay := by
        simp only [Function.iterate_zero_apply, pow_zero, mul_one] at first
        omega
      have last := entry (by omega : backoffs policy attempts - 1 < backoffs policy attempts)
      have doubled := capped.fits _ (List.mem_of_getElem? last)
      rw [delay_capped nonneg below] at doubled
      exact Or.inr ⟨below, by omega⟩
  · intro condition
    have inside {k : Nat} {bound : Int} (found : (download policy attempts).sleeps[k]? = some bound) :
        k < backoffs policy attempts := by
      have index := (List.getElem?_eq_some_iff.mp found).1
      rwa [download_sleeps sleeping, List.length_iterate] at index
    have value {k : Nat} {bound : Int} (found : (download policy attempts).sleeps[k]? = some bound) :
        bound = min (policy.initialDelay * 2 ^ k) policy.maxDelay := by
      have before := inside found
      obtain ⟨below, _⟩ := condition.resolve_left (by omega)
      rw [entry before, delay_capped nonneg below] at found
      exact (Option.some.inj found).symm
    refine ⟨fun k bound found => value found, fun bound member => ?_⟩
    obtain ⟨k, found⟩ := List.getElem?_of_mem member
    have before := inside found
    obtain ⟨_, fits⟩ := condition.resolve_left (by omega)
    have smaller : policy.initialDelay * 2 ^ k ≤ policy.initialDelay * 2 ^ (backoffs policy attempts - 1) :=
      mul_le_mul_of_nonneg_left (pow_le_pow_right₀ (by decide) (by omega)) nonneg
    have known := value found
    omega

/-- A server that never answers. -/
def timedOut (_ : Nat) : Attempt where
  events := []
  code := .operationTimedOut
  status := 0

theorem download_capped_defaults : Capped {} (download {} timedOut).sleeps :=
  (download_capped_iff rfl (by decide) (by decide) timedOut).mpr (Or.inr (by decide))

/-- The first sleep may take as long as an initial delay above the ceiling. -/
theorem not_download_capped_initial :
    ¬ ∀ policy : RetryPolicy, policy.strategy = .exponential → 0 ≤ policy.initialDelay → 0 ≤ policy.maxDelay →
      policy.initialDelay < 9223372036854775808 → policy.maxDelay < 9223372036854775808 →
      ∀ attempts, Capped policy (download policy attempts).sleeps := by
  intro all
  have capped := all { initialDelay := 20000 } rfl (by decide) (by decide) (by decide) (by decide) timedOut
  have first := capped.drawn 0 _ (getElem?_sleeps (by decide) (by decide))
  exact absurd first (by decide)

end Iptv.Network
