import Mathlib.Data.List.Basic
import Mathlib.Logic.Function.Iterate

namespace Iptv
universe u v w
variable {σ : Type u} {α : Type v}

/-- The calls of an iterator from `s` up to the first one that delivers nothing:
what they deliver, and where the last one leaves the iterator. -/
inductive Yields (next : σ → Option α × σ) : σ → List α → σ → Prop
  | done {s t} : next s = (none, t) → Yields next s [] t
  | more {s s' t a rest} : next s = (some a, s') → Yields next s' rest t → Yields next s (a :: rest) t

/-- What an iterator delivers in at most so many calls. -/
def deliveries (next : σ → Option α × σ) : Nat → σ → List α
  | 0, _ => []
  | turns + 1, s =>
    match next s with
    | (none, _) => []
    | (some a, s') => a :: deliveries next turns s'

variable {next : σ → Option α × σ} {s t : σ}

/-- With a call for each of them, everything that the iterator has is delivered. -/
theorem Yields.deliveries_eq {items : List α} (yields : Yields next s items t) {turns : Nat}
    (enough : items.length ≤ turns) : deliveries next turns s = items := by
  induction yields generalizing turns with
  | done ended =>
    cases turns with
    | zero => rfl
    | succ turns => simp only [deliveries, ended]
  | more called _ ih =>
    cases turns with
    | zero => simp at enough
    | succ turns => simp only [deliveries, called, ih (by simpa using enough)]

theorem Yields.unique {one other : List α} {u : σ} (left : Yields next s one t) (right : Yields next s other u) :
    one = other ∧ t = u := by
  induction left generalizing other with
  | done ended =>
    cases right with
    | done again =>
      rw [ended] at again
      cases again
      exact ⟨rfl, rfl⟩
    | more again _ =>
      rw [ended] at again
      cases again
  | more called _ ih =>
    cases right with
    | done again =>
      rw [called] at again
      cases again
    | more again rest =>
      rw [called] at again
      cases again
      obtain ⟨rfl, rfl⟩ := ih rest
      exact ⟨rfl, rfl⟩

/-- An iterator whose every delivery lowers a rank ends, after no more deliveries than its rank. -/
theorem Yields.of_rank (rank : σ → Nat)
    (lower : ∀ {s s' a}, next s = (some a, s') → rank s' < rank s) (s : σ) :
    ∃ items t, Yields next s items t ∧ items.length ≤ rank s := by
  induction bound : rank s using Nat.strongRecOn generalizing s with
  | _ n ih =>
    obtain ⟨delivered, s', called⟩ : ∃ delivered s', next s = (delivered, s') := ⟨_, _, rfl⟩
    cases delivered with
    | none => exact ⟨[], s', .done called, Nat.zero_le n⟩
    | some a =>
      have less := lower called
      obtain ⟨rest, t, yields, short⟩ := ih (rank s') (bound ▸ less) s' rfl
      refine ⟨a :: rest, t, .more called yields, ?_⟩
      rw [List.length_cons]
      omega

/-- A relation between an iterator and the sources of what it has yet to deliver,
kept by each call, says what the whole iteration delivers. -/
theorem Yields.of_pending {β : Type w} (Pending : List β → σ → Prop) (item : β → α)
    (finish : ∀ {s}, Pending [] s → ∃ t, next s = (none, t) ∧ Pending [] t)
    (deliver : ∀ {s b rest}, Pending (b :: rest) s → ∃ s', next s = (some (item b), s') ∧ Pending rest s')
    {pending : List β} (start : Pending pending s) :
    ∃ t, Yields next s (pending.map item) t ∧ Pending [] t := by
  induction pending generalizing s with
  | nil =>
    obtain ⟨t, called, ended⟩ := finish start
    exact ⟨t, .done called, ended⟩
  | cons b rest ih =>
    obtain ⟨s', called, kept⟩ := deliver start
    obtain ⟨t, yields, ended⟩ := ih kept
    exact ⟨t, .more called yields, ended⟩

/-- An iterator that stays at its end delivers nothing any more. -/
theorem next_ended (Ended : σ → Prop) (finish : ∀ {s}, Ended s → ∃ t, next s = (none, t) ∧ Ended t)
    (ended : Ended s) (n : Nat) : (next ((fun s => (next s).2)^[n] s)).1 = none := by
  have kept : Ended ((fun s => (next s).2)^[n] s) := by
    refine Function.Iterate.rec Ended ended (fun s ended => ?_) n
    obtain ⟨t, called, still⟩ := finish ended
    rw [called]
    exact still
  obtain ⟨t, called, _⟩ := finish kept
  rw [called]

end Iptv
