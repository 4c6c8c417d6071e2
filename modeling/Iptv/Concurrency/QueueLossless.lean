import Mathlib.Data.List.Flatten
import Iptv.Concurrency.ConcurrentQueue

namespace Iptv.ConcurrentQueue
universe u v
variable {ι : Type u} {T : Type v}

/-- What an observed event adds to the queue. -/
def Seen.entered : Seen ι T → List T
  | .pushed item => [item]
  | _ => []

/-- What an observed event hands to its caller. -/
def Seen.received : Seen ι T → List T
  | .popped _ item => [item]
  | .tried item => item.toList
  | _ => []

/-- What an observed event takes out of the queue, handed out or discarded. -/
def Seen.removed : Seen ι T → List T
  | .cleared items => items
  | e => e.received

/-- The thread whose call of `pop` takes the step. -/
def Event.popping : Event ι T → Option ι
  | .callPop i | .acquire i | .check i | .park i | .wakeSpuriously i | .returnFromWait i | .testStop i
  | .take i => some i
  | _ => none

/-- What an atomic piece does to the queue, and what of it is seen. -/
inductive Effect : List T → Event ι T → List (Seen ι T) → List T → Prop
  | push (queue item woken) : Effect queue (.push item woken) [.pushed item] (queue ++ [item])
  | tryPop (item rest) : Effect (item :: rest) .tryPop [.tried (some item)] rest
  | refuse : Effect [] .tryPop [.tried none] []
  | clear (queue) : Effect queue .clear [.cleared queue] []
  | take (item rest i) : Effect (item :: rest) (.take i) [.popped i item] rest
  | cancel (queue i) : Effect queue (.testStop i) [.cancelled i] queue
  | silent (queue e) : Effect queue e [] queue

theorem Effect.balance {queue queue' : List T} {e : Event ι T} {new : List (Seen ι T)}
    (effect : Effect queue e new queue') :
    queue ++ new.flatMap Seen.entered = new.flatMap Seen.removed ++ queue' := by
  cases effect <;> simp [Seen.entered, Seen.removed, Seen.received]

/-- A step of a thread inside `pop` removes the item it returns, or nothing. -/
theorem Effect.popping {queue queue' : List T} {e : Event ι T} {new : List (Seen ι T)}
    (effect : Effect queue e new queue') {i : ι} (own : e.popping = some i) :
    (queue' = queue ∧ ∀ item, .popped i item ∉ new) ∨ ∃ item, new = [.popped i item] ∧ queue = item :: queue' := by
  cases effect with
  | push | tryPop | refuse | clear => simp [Event.popping] at own
  | take item rest j =>
    cases own
    exact Or.inr ⟨item, rfl, rfl⟩
  | cancel | silent => exact Or.inl ⟨rfl, by simp⟩

theorem Effect.cancelled {queue queue' : List T} {e : Event ι T} {new : List (Seen ι T)}
    (effect : Effect queue e new queue') {i : ι} (cancelled : .cancelled i ∈ new) :
    e.popping = some i ∧ queue' = queue := by
  cases effect with
  | cancel queue j =>
    cases List.mem_singleton.mp cancelled
    exact ⟨rfl, rfl⟩
  | silent => simp at cancelled
  | push | tryPop | refuse | clear | take => simp at cancelled

/-- The wait has returned to a thread only over an item or a requested stop, and
past its stop test the item is still there: its mutex is held all along. -/
structure State.Guarded (s : State ι T) : Prop where
  locked : s.Exclusive
  decided : ∀ i, s.point i = .leaving ∨ s.point i = .returned → s.stopped i = true ∨ s.queue ≠ []
  taking : ∀ i, s.point i = .taking → s.queue ≠ []

theorem init_guarded : (init ι T).Guarded where
  locked := by simp [State.Exclusive, init, State.point, PopPoint.locked]
  decided := by simp [init, State.point]
  taking := by simp [init, State.point]

/-- A critical section during which no consumer is past its acquisition. -/
theorem State.Guarded.requeue {s : State ι T} (guarded : s.Guarded) (free : s.holder = none) (queue : List T) :
    ({ s with queue := queue } : State ι T).Guarded where
  locked := guarded.locked
  decided i point := by
    have unlocked := guarded.locked.unlocked free i
    change s.point i = .leaving ∨ s.point i = .returned at point
    rcases point with point | point <;> simp [point, PopPoint.locked] at unlocked
  taking i point := by
    have unlocked := guarded.locked.unlocked free i
    change s.point i = .taking at point
    simp [point, PopPoint.locked] at unlocked

/-- A stop request and its notification move no thread forward inside `pop`. -/
theorem State.Guarded.disturb {s s' : State ι T} (guarded : s.Guarded) (queue : s'.queue = s.queue)
    (holder : s'.holder = s.holder) (points : ∀ i, s'.point i = s.point i ∨ (s'.point i) = .woken)
    (stops : ∀ i, s.stopped i = true → s'.stopped i = true) : s'.Guarded where
  locked i lock := by
    rcases points i with same | woken
    · rw [same] at lock
      rw [holder]
      exact guarded.locked i lock
    · simp [woken, PopPoint.locked] at lock
  decided i point := by
    rw [queue]
    rcases points i with same | woken
    · rw [same] at point
      exact (guarded.decided i point).imp_left (stops i)
    · simp [woken] at point
  taking i point := by
    rw [queue]
    rcases points i with same | woken
    · exact guarded.taking i (same ▸ point)
    · simp [woken] at point

variable [DecidableEq ι]

/-- One thread moves and possibly changes the queue and the mutex. -/
theorem State.Guarded.move {s : State ι T} (guarded : s.Guarded) {i : ι} {p : PopPoint} {queue : List T}
    {holder : Option ι} (own : p.locked = true → holder = some i)
    (decided : p = .leaving ∨ p = .returned → s.stopped i = true ∨ queue ≠ [])
    (taking : p = .taking → queue ≠ [])
    (others : ∀ j, j ≠ i → (s.point j).locked = true → holder = some j ∧ queue = s.queue) :
    ({ s.move i p with queue := queue, holder := holder } : State ι T).Guarded where
  locked j lock := by
    change ((s.move i p).point j).locked = true at lock
    rw [State.point_move] at lock
    split at lock
    · rename_i same; subst same; exact own lock
    · rename_i other; exact (others j other lock).1
  decided j point := by
    change (s.move i p).stopped j = true ∨ queue ≠ []
    change (s.move i p).point j = .leaving ∨ (s.move i p).point j = .returned at point
    rw [State.stopped_move]
    rw [State.point_move] at point
    split at point
    · rename_i same; subst same; exact decided point
    · rename_i other
      have lock : (s.point j).locked = true := by
        rcases point with point | point <;> rw [point] <;> rfl
      rw [(others j other lock).2]
      exact guarded.decided j point
  taking j point := by
    change queue ≠ []
    change (s.move i p).point j = .taking at point
    rw [State.point_move] at point
    split at point
    · exact taking point
    · rename_i other
      have lock : (s.point j).locked = true := by rw [point]; rfl
      rw [(others j other lock).2]
      exact guarded.taking j point

theorem State.queue_stop (s : State ι T) (i : ι) : (s.stop i).queue = s.queue := by
  unfold State.stop
  split <;> rfl

theorem State.Guarded.stop {s : State ι T} (guarded : s.Guarded) (i : ι) : (s.stop i).Guarded := by
  have points : ∀ j, (s.stop i).point j = s.point j ∨ (s.stop i).point j = .woken := by
    intro j
    have flagged : ({ s with consumers := Function.update s.consumers i ⟨s.point i, true⟩ } :
        State ι T).point j = s.point j := by
      by_cases same : j = i
      · subst same; simp [State.point]
      · simp [State.point, same]
    unfold State.stop
    split
    · rw [State.point_notifyAll, flagged]
      split
      · exact Or.inr rfl
      · exact Or.inl rfl
    · exact Or.inl flagged
  have stops : ∀ j, s.stopped j = true → (s.stop i).stopped j = true := by
    intro j stopped
    have flagged : ({ s with consumers := Function.update s.consumers i ⟨s.point i, true⟩ } :
        State ι T).stopped j = true := by
      by_cases same : j = i
      · subst same; simp [State.stopped]
      · simpa [State.stopped, same] using stopped
    unfold State.stop
    split
    · rw [State.stopped_notifyAll]; exact flagged
    · exact flagged
  have holder : (s.stop i).holder = s.holder := by
    unfold State.stop
    split <;> rfl
  exact guarded.disturb (s.queue_stop i) holder points stops

variable [Fintype ι]

theorem State.notifyOne_cases {s s' : State ι T} {woken : Option ι} (run : s.notifyOne woken = some s') :
    s' = s ∨ ∃ i, s' = s.move i .woken := by
  cases woken with
  | none =>
    simp only [State.notifyOne] at run
    split at run
    · exact Or.inl (Option.some.inj run).symm
    · simp at run
  | some i =>
    simp only [State.notifyOne] at run
    split at run
    · exact Or.inr ⟨i, (Option.some.inj run).symm⟩
    · simp at run

theorem step_effect {s s' : State ι T} {e : Event ι T} {new : List (Seen ι T)} (run : step s e = some (s', new)) :
    Effect s.queue e new s'.queue := by
  cases step_cases run with
  | pushed _ notified =>
    rcases State.notifyOne_cases notified with rfl | ⟨i, rfl⟩
    · exact .push s.queue _ _
    · exact .push s.queue _ _
  | refused _ empty =>
    rw [empty]
    exact .refuse
  | tried _ queue =>
    rw [queue]
    exact .tryPop _ _
  | cleared => exact .clear s.queue
  | cancelled => exact .cancel s.queue _
  | taken _ queue =>
    rw [queue]
    exact .take _ _ _
  | called | acquired | decided | blocked | parked | woke | left | passed | repeated => exact .silent s.queue _
  | stopped =>
    rw [State.queue_stop]
    exact .silent s.queue _

theorem State.Guarded.step {s s' : State ι T} {e : Event ι T} {new : List (Seen ι T)} (guarded : s.Guarded)
    (run : step s e = some (s', new)) : s'.Guarded := by
  cases step_cases run with
  | @pushed item _ _ free notified =>
    have pushing := guarded.requeue free (s.queue ++ [item])
    rcases State.notifyOne_cases notified with rfl | ⟨i, rfl⟩
    · exact pushing
    · exact pushing.move (by simp [PopPoint.locked]) (by simp) (by simp)
        fun j _ lock => ⟨pushing.locked j lock, rfl⟩
  | refused => exact guarded
  | tried free => exact guarded.requeue free _
  | cleared free => exact guarded.requeue free _
  | called | woke =>
    exact guarded.move (by simp [PopPoint.locked]) (by simp) (by simp)
      fun j _ lock => ⟨guarded.locked j lock, rfl⟩
  | acquired free =>
    exact guarded.move (fun _ => rfl) (by simp) (by simp)
      fun j _ lock => by simp [guarded.locked.unlocked free j] at lock
  | @decided i checking tests =>
    have lock : (s.point i).locked = true := by rw [checking]; rfl
    exact guarded.move (fun _ => guarded.locked i lock) (fun _ => tests) (by simp)
      fun _ other also => (guarded.locked.alone lock other also).elim
  | @blocked i checking =>
    have lock : (s.point i).locked = true := by rw [checking]; rfl
    exact guarded.move (fun _ => guarded.locked i lock) (by simp) (by simp)
      fun _ other also => (guarded.locked.alone lock other also).elim
  | @parked i parking =>
    have lock : (s.point i).locked = true := by rw [parking]; rfl
    refine guarded.move ?_ ?_ ?_ fun _ other also => (guarded.locked.alone lock other also).elim
    · cases s.stopped i <;> simp [PopPoint.locked]
    · cases s.stopped i <;> simp
    · cases s.stopped i <;> simp
  | @left i leaving =>
    have lock : (s.point i).locked = true := by rw [leaving]; rfl
    exact guarded.move (fun _ => guarded.locked i lock) (fun _ => guarded.decided i (Or.inl leaving)) (by simp)
      fun _ other also => (guarded.locked.alone lock other also).elim
  | @cancelled i returned =>
    have lock : (s.point i).locked = true := by rw [returned]; rfl
    exact guarded.move (by simp [PopPoint.locked]) (by simp) (by simp)
      fun _ other also => (guarded.locked.alone lock other also).elim
  | @passed i returned running =>
    have lock : (s.point i).locked = true := by rw [returned]; rfl
    have item := (guarded.decided i (Or.inr returned)).resolve_left (by simp [running])
    exact guarded.move (fun _ => guarded.locked i lock) (by simp) (fun _ => item)
      fun _ other also => (guarded.locked.alone lock other also).elim
  | @taken i _ _ taking =>
    have lock : (s.point i).locked = true := by rw [taking]; rfl
    exact guarded.move (by simp [PopPoint.locked]) (by simp) (by simp)
      fun _ other also => (guarded.locked.alone lock other also).elim
  | repeated => exact guarded
  | stopped => exact guarded.stop _

omit [DecidableEq ι] [Fintype ι] in
/-- Without a `clear`, what leaves the queue is what its callers receive. -/
theorem removed_eq_received {seen : List (Seen ι T)} (kept : ∀ items, .cleared items ∉ seen) :
    seen.flatMap Seen.removed = seen.flatMap Seen.received := by
  refine List.flatMap_congr fun event mem => ?_
  cases event with
  | cleared items => exact absurd mem (kept items)
  | _ => rfl

/-- The queue is a lossless FIFO: in lock order, what was pushed is what was
removed, each item by one event, followed by what is queued; the front is never
taken from an empty queue; a step of `pop` removes the item it returns or
nothing, and nothing when it reports cancellation; and without `clear`, whatever
calls belong to one consumer receive their items in push order. -/
theorem lossless_fifo {seen : List (Seen ι T)} {s : State ι T}
    (reach : Reach step anyStep (init ι T) seen s) :
    seen.flatMap Seen.entered = seen.flatMap Seen.removed ++ s.queue ∧
    (∀ i, s.point i = .taking → s.queue ≠ []) ∧
    (∀ e s' new, step s e = some (s', new) → ∀ i, e.popping = some i →
      (s'.queue = s.queue ∧ ∀ item, .popped i item ∉ new) ∨
      ∃ item, new = [.popped i item] ∧ s.queue = item :: s'.queue) ∧
    (∀ e s' new, step s e = some (s', new) → ∀ i, .cancelled i ∈ new →
      e.popping = some i ∧ s'.queue = s.queue) ∧
    ((∀ items, .cleared items ∉ seen) → ∀ calls : List (Seen ι T), calls.Sublist seen →
      (calls.flatMap Seen.received).Sublist (seen.flatMap Seen.entered)) := by
  have balance := reach.balance Seen.entered Seen.removed State.queue rfl fun run => (step_effect run).balance
  have guarded : s.Guarded := reach.invariant State.Guarded init_guarded fun old _ run => old.step run
  refine ⟨balance, guarded.taking, ?_, ?_, ?_⟩
  · intro e s' new run i own
    exact (step_effect run).popping own
  · intro e s' new run i cancelled
    exact (step_effect run).cancelled cancelled
  · intro kept calls own
    rw [balance, removed_eq_received kept]
    exact (own.flatMap Seen.received).trans (List.sublist_append_left _ _)

/-- Two consumers at work: one sleeps, is woken by a push and takes its item; the
other is stopped inside the wait and leaves the second item to `try_pop`. -/
def cancelledConsumer (i j : ι) : List (Event ι Nat) :=
  [.callPop i, .acquire i, .check i, .park i, .push 7 (some i), .acquire i, .check i, .returnFromWait i,
    .testStop i, .take i, .callPop j, .acquire j, .check j, .requestStop j, .park j, .push 8 none, .acquire j,
    .check j, .returnFromWait j, .testStop j, .push 9 none, .tryPop]

theorem lossless_fifo_of_cancelledConsumer :
    ∃ seen, ∃ s : State (Fin 2) Nat, Reach step anyStep (init (Fin 2) Nat) seen s ∧
      .cancelled 1 ∈ seen ∧ s.queue = [9] ∧ seen.flatMap Seen.entered = seen.flatMap Seen.removed ++ s.queue ∧
      (seen.flatMap Seen.received).Sublist (seen.flatMap Seen.entered) := by
  obtain ⟨seen, s, reach, passed⟩ := reach_of_exec step anyStep (init (Fin 2) Nat) (cancelledConsumer 0 1)
    (fun r => r.2.queue == [9] &&
      r.1 == [.pushed 7, .popped 0 7, .pushed 8, .cancelled 1, .pushed 9, .tried (some 8)]) (by decide)
  simp only [Bool.and_eq_true, beq_iff_eq] at passed
  obtain ⟨left, trace⟩ := passed
  obtain ⟨account, _, _, _, ordered⟩ := lossless_fifo reach
  have kept : ∀ items, .cleared items ∉ seen := by simp [trace]
  exact ⟨seen, s, reach, by simp [trace], left, account, ordered kept seen (List.Sublist.refl seen)⟩

end Iptv.ConcurrentQueue
