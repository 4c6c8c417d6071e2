import Iptv.Concurrency.ConcurrentQueue
import Iptv.Lib.Census

namespace Iptv.ConcurrentQueue
universe u v
variable {ι : Type u} {T : Type v}

/-- No state in which an item sits in the queue, an uncancelled consumer
sleeps, and no other thread inside `pop` is left to take the item. -/
def State.NoStranded (s : State ι T) : Prop :=
  s.queue ≠ [] → ∀ i, s.point i = .asleep → s.stopped i = false →
    ∃ j, j ≠ i ∧ (s.point j).awake = true

def Event.stops : Event ι T → Option ι
  | .requestStop i => some i
  | _ => none

/-- The stop request does not fall between the return of a thread's `cv_.wait`
and its separate `stop_requested()` test while another thread sleeps. -/
def HandoverKept (s : State ι T) (e : Event ι T) : Prop :=
  ∀ i, e.stops = some i → s.point i = .returned → s.stopped i = true ∨ ∀ j, s.point j ≠ .asleep

instance [Fintype ι] [DecidableEq ι] (s : State ι T) (e : Event ι T) : Decidable (HandoverKept s e) :=
  inferInstanceAs (Decidable (∀ _, _ → _ → _ ∨ ∀ _, _ ≠ _))

/-- A consumer that will look at the queue before it sleeps or leaves, and take an item. -/
def Consumer.ready (c : Consumer) : Bool :=
  match c.point with
  | .checking | .woken | .leaving | .returned => !c.stopRequested
  | .taking => true
  | _ => false

/-- What every step keeps: a sleeper's stop was not requested, a thread about
to sleep holds the mutex over an empty queue, and while anyone sleeps there are
at least as many ready consumers as items. -/
structure State.Sound [Fintype ι] (s : State ι T) : Prop where
  sleepers : ∀ i, s.point i = .asleep → s.stopped i = false
  locked : ∀ i, (s.point i).locked = true → s.holder = some i
  parked : ∀ i, s.point i = .parking → s.queue = []
  covered : (∃ i, s.point i = .asleep) → s.queue.length ≤ census Consumer.ready s.consumers

theorem State.notifyAll_awake (s : State ι T) (i : ι) : s.notifyAll.point i ≠ .asleep := by
  rw [State.point_notifyAll]
  split <;> simp_all

section Consequences
variable [Fintype ι]

theorem init_sound : (init ι T).Sound where
  sleepers := by simp [init, State.point]
  locked := by simp [init, State.point, PopPoint.locked]
  parked := by simp [init, State.point]
  covered := by simp [init, State.point]

theorem State.Sound.noStranded {s : State ι T} (sound : s.Sound) : s.NoStranded := by
  intro items i asleep _
  have enough := sound.covered ⟨i, asleep⟩
  have positive := List.length_pos_iff.mpr items
  obtain ⟨j, ready⟩ := census_pos (lt_of_lt_of_le positive enough)
  refine ⟨j, ?_, ?_⟩
  · rintro rfl
    rw [State.point] at asleep
    simp [Consumer.ready, asleep] at ready
  · unfold State.point
    unfold Consumer.ready at ready
    split at ready <;> simp_all [PopPoint.awake]

theorem State.Sound.exclusive {s : State ι T} (sound : s.Sound) : s.Exclusive := sound.locked

/-- A critical section of a producer or of `tryPop`, during which no consumer moves. -/
theorem State.Sound.requeue {s : State ι T} (sound : s.Sound) (free : s.holder = none) {queue : List T}
    (items : (∀ i, s.point i ≠ .asleep) ∨ queue.length ≤ s.queue.length) :
    ({ s with queue := queue } : State ι T).Sound where
  sleepers := sound.sleepers
  locked := sound.locked
  parked j parking := by
    have lock := sound.exclusive.unlocked free j
    change s.point j = .parking at parking
    simp [parking, PopPoint.locked] at lock
  covered := by
    rintro ⟨j, asleep⟩
    rcases items with none | shorter
    · exact absurd asleep (none j)
    · exact shorter.trans (sound.covered ⟨j, asleep⟩)

end Consequences

variable [DecidableEq ι]

variable [Fintype ι]

theorem State.census_move (s : State ι T) (i : ι) (p : PopPoint) :
    census Consumer.ready (s.move i p).consumers + (s.consumers i).ready.toNat =
      census Consumer.ready s.consumers + (Consumer.ready ⟨p, s.stopped i⟩).toNat :=
  census_update _ _ _ _

/-- One thread moves and possibly changes the queue and the mutex. The queue
stays covered if it is empty, or if it shrinks along with the ready threads. -/
theorem State.Sound.move {s : State ι T} (sound : s.Sound) {i : ι} {p : PopPoint}
    {queue : List T} {holder : Option ι} (sleeping : p = .asleep → s.stopped i = false)
    (own : p.locked = true → holder = some i) (park : p = .parking → queue = [])
    (others : ∀ j, j ≠ i → (s.point j).locked = true → holder = some j ∧ queue = s.queue)
    (items : queue = [] ∨ p ≠ .asleep ∧ queue.length + (s.consumers i).ready.toNat ≤
      s.queue.length + (Consumer.ready ⟨p, s.stopped i⟩).toNat) :
    ({ s.move i p with queue := queue, holder := holder } : State ι T).Sound where
  sleepers j asleep := by
    change (s.move i p).stopped j = false
    change (s.move i p).point j = .asleep at asleep
    rw [State.point_move] at asleep
    rw [State.stopped_move]
    split at asleep
    · rename_i same; subst same; exact sleeping asleep
    · exact sound.sleepers j asleep
  locked j lock := by
    change ((s.move i p).point j).locked = true at lock
    rw [State.point_move] at lock
    split at lock
    · rename_i same; subst same; exact own lock
    · rename_i other; exact (others j other lock).1
  parked j parking := by
    change (s.move i p).point j = .parking at parking
    rw [State.point_move] at parking
    split at parking
    · exact park parking
    · rename_i other
      have old := others j other (by simp [parking, PopPoint.locked])
      exact old.2.trans (sound.parked j parking)
  covered := by
    rintro ⟨j, asleep⟩
    change (s.move i p).point j = .asleep at asleep
    change queue.length ≤ census Consumer.ready (s.move i p).consumers
    rcases items with empty | ⟨stays, items⟩
    · simp [empty]
    · have old : s.point j = .asleep := by
        rw [State.point_move] at asleep
        split at asleep
        · exact absurd asleep stays
        · exact asleep
      have enough := sound.covered ⟨j, old⟩
      have count := s.census_move i p
      omega

theorem State.Sound.push {s s' : State ι T} (sound : s.Sound) (free : s.holder = none) {item : T}
    {woken : Option ι} (run : { s with queue := s.queue ++ [item] }.notifyOne woken = some s') :
    s'.Sound := by
  cases woken with
  | none =>
    simp only [State.notifyOne] at run
    split at run
    · rename_i none
      cases Option.some.inj run
      exact sound.requeue free (Or.inl none)
    · simp at run
  | some i =>
    simp only [State.notifyOne] at run
    split at run
    · rename_i asleep
      cases Option.some.inj run
      change s.point i = .asleep at asleep
      have running := sound.sleepers i asleep
      refine sound.move (i := i) (by simp) (by simp [PopPoint.locked]) (by simp) ?_ (Or.inr ⟨by simp, ?_⟩)
      · intro j _ lock
        simp [sound.exclusive.unlocked free j] at lock
      · unfold State.point at asleep
        simp [Consumer.ready, asleep, running]
    · simp at run

/-- A stop request inside the wait call wakes every sleeper, so the cover is
vacuous; elsewhere only a thread in the returned window can lose readiness. -/
theorem State.Sound.stop {s : State ι T} (sound : s.Sound) {i : ι} (fresh : s.stopped i = false)
    (met : s.point i = .returned → ∀ j, s.point j ≠ .asleep) : (s.stop i).Sound := by
  have flagged : ∀ j, ({ s with consumers := Function.update s.consumers i ⟨s.point i, true⟩ } :
      State ι T).point j = s.point j := by
    intro j
    by_cases same : j = i
    · subst same; simp [State.point]
    · simp [State.point, same]
  unfold State.stop
  by_cases inside : (s.point i).waiting = true
  · rw [if_pos inside]
    constructor
    · intro j asleep
      exact absurd asleep (State.notifyAll_awake _ j)
    · intro j lock
      rw [State.point_notifyAll, flagged] at lock
      split at lock
      · simp [PopPoint.locked] at lock
      · exact sound.locked j lock
    · intro j parking
      rw [State.point_notifyAll, flagged] at parking
      split at parking
      · simp at parking
      · exact sound.parked j parking
    · rintro ⟨j, asleep⟩
      exact absurd asleep (State.notifyAll_awake _ j)
  · rw [if_neg inside]
    constructor
    · intro j asleep
      rw [flagged] at asleep
      by_cases same : j = i
      · subst same; simp [asleep, PopPoint.waiting] at inside
      · simpa [State.stopped, same] using sound.sleepers j asleep
    · intro j lock
      rw [flagged] at lock
      exact sound.locked j lock
    · intro j parking
      rw [flagged] at parking
      exact sound.parked j parking
    · rintro ⟨j, asleep⟩
      rw [flagged] at asleep
      have enough := sound.covered ⟨j, asleep⟩
      have count := census_update Consumer.ready s.consumers i ⟨s.point i, true⟩
      have kept : (s.consumers i).ready = Consumer.ready ⟨s.point i, true⟩ := by
        have window := fun returned => met returned j asleep
        unfold State.point at inside window ⊢
        unfold Consumer.ready
        cases point : (s.consumers i).point <;> simp_all [PopPoint.waiting]
      change s.queue.length ≤ census Consumer.ready (Function.update s.consumers i ⟨s.point i, true⟩)
      rw [kept] at count
      omega

theorem State.Sound.step {s s' : State ι T} {e : Event ι T} {seen : List (Seen ι T)} (sound : s.Sound)
    (met : HandoverKept s e) (run : step s e = some (s', seen)) : s'.Sound := by
  cases step_cases run with
  | pushed free notified => exact sound.push free notified
  | refused => exact sound
  | tried free queue => exact sound.requeue free (Or.inr (by simp [queue]))
  | cleared free => exact sound.requeue free (Or.inr (Nat.zero_le _))
  | called outside =>
    refine sound.move (by simp) (by simp [PopPoint.locked]) (by simp)
      (fun j _ lock => ⟨sound.locked j lock, rfl⟩) (Or.inr ⟨by simp, ?_⟩)
    unfold State.point at outside
    simp [Consumer.ready, outside]
  | acquired free waits =>
    refine sound.move (by simp) (by simp) (by simp)
      (fun j _ lock => by simp [sound.exclusive.unlocked free j] at lock) (Or.inr ⟨by simp, ?_⟩)
    unfold State.point at waits
    rcases waits with point | point <;> simp [Consumer.ready, point, State.stopped]
  | @decided i checking tests =>
    have lock : (s.point i).locked = true := by rw [checking]; rfl
    refine sound.move (by simp) (fun _ => sound.locked i lock) (by simp)
      (fun _ other also => (sound.exclusive.alone lock other also).elim) (Or.inr ⟨by simp, ?_⟩)
    unfold State.point at checking
    simp [Consumer.ready, checking, State.stopped]
  | @blocked i checking empty =>
    have lock : (s.point i).locked = true := by rw [checking]; rfl
    exact sound.move (by simp) (fun _ => sound.locked i lock) (fun _ => empty)
      (fun _ other also => (sound.exclusive.alone lock other also).elim) (Or.inl empty)
  | @parked i parking =>
    have lock : (s.point i).locked = true := by rw [parking]; rfl
    refine sound.move ?_ ?_ ?_ (fun _ other also => (sound.exclusive.alone lock other also).elim)
      (Or.inl (sound.parked i parking))
    · cases s.stopped i <;> simp
    · cases s.stopped i <;> simp [PopPoint.locked]
    · cases s.stopped i <;> simp
  | woke asleep =>
    refine sound.move (by simp) (by simp [PopPoint.locked]) (by simp)
      (fun j _ lock => ⟨sound.locked j lock, rfl⟩) (Or.inr ⟨by simp, ?_⟩)
    unfold State.point at asleep
    simp [Consumer.ready, asleep]
  | @left i leaving =>
    have lock : (s.point i).locked = true := by rw [leaving]; rfl
    refine sound.move (by simp) (fun _ => sound.locked i lock) (by simp)
      (fun _ other also => (sound.exclusive.alone lock other also).elim) (Or.inr ⟨by simp, ?_⟩)
    unfold State.point at leaving
    simp [Consumer.ready, leaving, State.stopped]
  | @cancelled i returned stopped =>
    have lock : (s.point i).locked = true := by rw [returned]; rfl
    refine sound.move (by simp) (by simp [PopPoint.locked]) (by simp)
      (fun _ other also => (sound.exclusive.alone lock other also).elim) (Or.inr ⟨by simp, ?_⟩)
    unfold State.point at returned
    unfold State.stopped at stopped
    simp [Consumer.ready, returned, stopped]
  | @passed i returned running =>
    have lock : (s.point i).locked = true := by rw [returned]; rfl
    refine sound.move (by simp) (fun _ => sound.locked i lock) (by simp)
      (fun _ other also => (sound.exclusive.alone lock other also).elim) (Or.inr ⟨by simp, ?_⟩)
    unfold State.point at returned
    unfold State.stopped at running
    simp [Consumer.ready, returned, running]
  | @taken i _ _ taking queue =>
    have lock : (s.point i).locked = true := by rw [taking]; rfl
    refine sound.move (by simp) (by simp [PopPoint.locked]) (by simp)
      (fun _ other also => (sound.exclusive.alone lock other also).elim) (Or.inr ⟨by simp, ?_⟩)
    unfold State.point at taking
    simp [Consumer.ready, taking, queue]
  | repeated => exact sound
  | stopped fresh =>
    exact sound.stop fresh fun returned => (met _ rfl returned).resolve_left (by simp [fresh])

/-- In every run in which no stop request falls into the window between the
return of `cv_.wait` and the stop test while another consumer sleeps, no
reachable state strands an item. -/
theorem noStranded_of_handoverKept {seen : List (Seen ι T)} {s : State ι T}
    (reach : Reach step HandoverKept (init ι T) seen s) : s.NoStranded := by
  have sound : s.Sound := reach.invariant State.Sound init_sound fun old met run => old.step met run
  exact sound.noStranded

/-- A stop request while `cv_.wait` is still on the stack wakes the other sleeper. -/
def earlyCancellation : List (Event (Fin 2) Nat) :=
  [.callPop 0, .acquire 0, .check 0, .park 0, .callPop 1, .acquire 1, .check 1, .park 1,
    .push 7 (some 0), .acquire 0, .check 0, .requestStop 0, .returnFromWait 0, .testStop 0]

theorem noStranded_of_earlyCancellation :
    ∃ seen, ∃ s : State (Fin 2) Nat, Reach step HandoverKept (init (Fin 2) Nat) seen s ∧
      s.queue = [7] ∧ s.NoStranded := by
  obtain ⟨seen, s, reach, items⟩ := reach_of_exec step HandoverKept
    (init (Fin 2) Nat) earlyCancellation (fun r => r.2.queue == [7]) (by decide)
  exact ⟨seen, s, reach, by simpa using items, noStranded_of_handoverKept reach⟩

/-- The run of the defect: both consumers sleep, a push wakes the first, and its
token is stopped after `cv_.wait` has returned and before the test. -/
def cancelledHandover : List (Event (Fin 2) Nat) :=
  [.callPop 0, .acquire 0, .check 0, .park 0, .callPop 1, .acquire 1, .check 1, .park 1,
    .push 7 (some 0), .acquire 0, .check 0, .returnFromWait 0, .requestStop 0, .testStop 0]

theorem stranded_reachable :
    ∃ seen, ∃ s : State (Fin 2) Nat, Reach step anyStep (init (Fin 2) Nat) seen s ∧ ¬ s.NoStranded := by
  obtain ⟨seen, s, reach, passed⟩ := reach_of_exec step anyStep
    (init (Fin 2) Nat) cancelledHandover
    (fun r => r.2.queue == [7] && r.2.consumers 1 == ⟨.asleep, false⟩ &&
      r.2.consumers 0 == ⟨.outside, true⟩) (by decide)
  refine ⟨seen, s, reach, fun fine => ?_⟩
  simp only [Bool.and_eq_true, beq_iff_eq] at passed
  obtain ⟨⟨items, sleeper⟩, gone⟩ := passed
  obtain ⟨j, other, awake⟩ := fine (by simp [items]) 1 (by simp [State.point, sleeper])
    (by simp [State.stopped, sleeper])
  have first : j = 0 := by omega
  simp [first, State.point, gone, PopPoint.awake] at awake

end Iptv.ConcurrentQueue
