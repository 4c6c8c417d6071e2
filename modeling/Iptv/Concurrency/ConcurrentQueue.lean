import Mathlib.Data.Fintype.Basic
import Iptv.Lib.Machine

namespace Iptv.ConcurrentQueue
universe u v

/-- Where a consumer thread stands in `pop`. It blocks on the mutex while
`entering` or `woken`; it is inside `cv_.wait`, with its stop callback
registered, from `checking` to `leaving`; the separate `stop_requested()` test
follows in `returned`, and the move-out of the front item in `taking`. -/
inductive PopPoint
  | outside
  | entering
  | checking
  | parking
  | asleep
  | woken
  | leaving
  | returned
  | taking
  deriving DecidableEq

def PopPoint.awake : PopPoint → Bool
  | .outside | .asleep => false
  | _ => true

def PopPoint.waiting : PopPoint → Bool
  | .checking | .parking | .asleep | .woken | .leaving => true
  | _ => false

def PopPoint.locked : PopPoint → Bool
  | .checking | .parking | .leaving | .returned | .taking => true
  | _ => false

structure Consumer where
  point : PopPoint
  stopRequested : Bool
  deriving DecidableEq

/-- The queue with the threads that pop from it, each with its own stop token.
`push`, `tryPop` and `clear` hold the mutex from their first statement to their
last, so `holder` names a consumer only. -/
structure State (ι : Type u) (T : Type v) where
  queue : List T
  holder : Option ι
  consumers : ι → Consumer

/-- The critical sections of a producer, the atomic pieces of `pop`, and what
may happen to a thread. A push carries the sleeper its `notify_one` wakes. -/
inductive Event (ι : Type u) (T : Type v)
  | push (item : T) (woken : Option ι)
  | tryPop
  | clear
  | callPop (i : ι)
  | acquire (i : ι)
  | check (i : ι)
  | park (i : ι)
  | wakeSpuriously (i : ι)
  | returnFromWait (i : ι)
  | testStop (i : ι)
  | take (i : ι)
  | requestStop (i : ι)

inductive Seen (ι : Type u) (T : Type v)
  | pushed (item : T)
  | popped (i : ι) (item : T)
  | cancelled (i : ι)
  | tried (item : Option T)
  | cleared (items : List T)
  deriving DecidableEq

variable {ι : Type u} {T : Type v}

def init (ι : Type u) (T : Type v) : State ι T where
  queue := []
  holder := none
  consumers _ := ⟨.outside, false⟩

def State.point (s : State ι T) (i : ι) : PopPoint := (s.consumers i).point

def State.stopped (s : State ι T) (i : ι) : Bool := (s.consumers i).stopRequested

def Consumer.wake (c : Consumer) : Consumer :=
  if c.point = .asleep then { c with point := .woken } else c

def State.notifyAll (s : State ι T) : State ι T :=
  { s with consumers := fun i => (s.consumers i).wake }

/-- The mutex is held by the thread that stands past its acquisition. -/
def State.Exclusive (s : State ι T) : Prop := ∀ i, (s.point i).locked = true → s.holder = some i

/-- A thread that holds the mutex excludes every other holder. -/
theorem State.Exclusive.alone {s : State ι T} (exclusive : s.Exclusive) {i j : ι}
    (lock : (s.point i).locked = true) (other : j ≠ i) (also : (s.point j).locked = true) : False := by
  have mine := exclusive i lock
  have theirs := exclusive j also
  rw [mine] at theirs
  exact other (Option.some.inj theirs).symm

/-- While the mutex is free no thread is between its acquisition and release. -/
theorem State.Exclusive.unlocked {s : State ι T} (exclusive : s.Exclusive) (free : s.holder = none) (j : ι) :
    (s.point j).locked = false := by
  by_contra lock
  have held := exclusive j (by simpa using lock)
  simp [free] at held

variable [DecidableEq ι]

def State.move (s : State ι T) (i : ι) (point : PopPoint) : State ι T :=
  { s with consumers := Function.update s.consumers i ⟨point, s.stopped i⟩ }

/-- `notify_one` wakes some sleeper; it is lost only when there is none. -/
def State.notifyOne [Fintype ι] (s : State ι T) : Option ι → Option (State ι T)
  | some i => if s.point i = .asleep then some (s.move i .woken) else none
  | none => if ∀ i, s.point i ≠ .asleep then some s else none

/-- `request_stop` on a token that was not stopped yet: the flag is set, and the
callback of a wait call in progress notifies every sleeper. -/
def State.stop (s : State ι T) (i : ι) : State ι T :=
  let flagged := { s with consumers := Function.update s.consumers i ⟨s.point i, true⟩ }
  if (s.point i).waiting then flagged.notifyAll else flagged

/-- One atomic piece. The loop test is that of `wait(lock, stop_token, pred)`:
`while (!stop_requested()) { if (pred()) return true; wait(lock); } return pred();`.
A stop request that falls between the test and the sleep reaches the thread
through its registered callback, so `park` wakes it at once. -/
def step [Fintype ι] (s : State ι T) : Event ι T → Option (State ι T × List (Seen ι T))
  | .push item woken =>
    if s.holder = none then
      ({ s with queue := s.queue ++ [item] }.notifyOne woken).map fun s' => (s', [.pushed item])
    else none
  | .tryPop =>
    if s.holder = none then
      match s.queue with
      | [] => some (s, [.tried none])
      | item :: rest => some ({ s with queue := rest }, [.tried (some item)])
    else none
  | .clear =>
    if s.holder = none then some ({ s with queue := [] }, [.cleared s.queue]) else none
  | .callPop i => if s.point i = .outside then some (s.move i .entering, []) else none
  | .acquire i =>
    if s.holder = none ∧ (s.point i = .entering ∨ s.point i = .woken) then
      some ({ s.move i .checking with holder := some i }, [])
    else none
  | .check i =>
    if s.point i = .checking then
      if s.stopped i = true ∨ s.queue ≠ [] then some (s.move i .leaving, [])
      else some (s.move i .parking, [])
    else none
  | .park i =>
    if s.point i = .parking then
      some ({ s.move i (if s.stopped i then .woken else .asleep) with holder := none }, [])
    else none
  | .wakeSpuriously i => if s.point i = .asleep then some (s.move i .woken, []) else none
  | .returnFromWait i => if s.point i = .leaving then some (s.move i .returned, []) else none
  | .testStop i =>
    if s.point i = .returned then
      if s.stopped i then some ({ s.move i .outside with holder := none }, [.cancelled i])
      else some (s.move i .taking, [])
    else none
  | .take i =>
    if s.point i = .taking then
      match s.queue with
      | [] => none
      | item :: rest =>
        some ({ s.move i .outside with queue := rest, holder := none }, [.popped i item])
    else none
  | .requestStop i => some (if s.stopped i then s else s.stop i, [])

/-- Everything a step can do. -/
inductive Transition [Fintype ι] (s : State ι T) : Event ι T → State ι T → List (Seen ι T) → Prop
  | pushed {item woken s'} (free : s.holder = none)
      (notified : ({ s with queue := s.queue ++ [item] } : State ι T).notifyOne woken = some s') :
      Transition s (.push item woken) s' [.pushed item]
  | refused (free : s.holder = none) (empty : s.queue = []) : Transition s .tryPop s [.tried none]
  | tried {item rest} (free : s.holder = none) (queue : s.queue = item :: rest) :
      Transition s .tryPop { s with queue := rest } [.tried (some item)]
  | cleared (free : s.holder = none) : Transition s .clear { s with queue := [] } [.cleared s.queue]
  | called {i} (outside : s.point i = .outside) : Transition s (.callPop i) (s.move i .entering) []
  | acquired {i} (free : s.holder = none) (waits : s.point i = .entering ∨ s.point i = .woken) :
      Transition s (.acquire i) { s.move i .checking with holder := some i } []
  | decided {i} (checking : s.point i = .checking) (tests : s.stopped i = true ∨ s.queue ≠ []) :
      Transition s (.check i) (s.move i .leaving) []
  | blocked {i} (checking : s.point i = .checking) (empty : s.queue = []) :
      Transition s (.check i) (s.move i .parking) []
  | parked {i} (parking : s.point i = .parking) :
      Transition s (.park i) { s.move i (if s.stopped i then .woken else .asleep) with holder := none } []
  | woke {i} (asleep : s.point i = .asleep) : Transition s (.wakeSpuriously i) (s.move i .woken) []
  | left {i} (leaving : s.point i = .leaving) : Transition s (.returnFromWait i) (s.move i .returned) []
  | cancelled {i} (returned : s.point i = .returned) (stopped : s.stopped i = true) :
      Transition s (.testStop i) { s.move i .outside with holder := none } [.cancelled i]
  | passed {i} (returned : s.point i = .returned) (running : s.stopped i = false) :
      Transition s (.testStop i) (s.move i .taking) []
  | taken {i item rest} (taking : s.point i = .taking) (queue : s.queue = item :: rest) :
      Transition s (.take i) { s.move i .outside with queue := rest, holder := none } [.popped i item]
  | repeated {i} (stopped : s.stopped i = true) : Transition s (.requestStop i) s []
  | stopped {i} (fresh : s.stopped i = false) : Transition s (.requestStop i) (s.stop i) []

/-- The inversion of a step. -/
theorem step_cases [Fintype ι] {s s' : State ι T} {e : Event ι T} {new : List (Seen ι T)}
    (run : step s e = some (s', new)) : Transition s e s' new := by
  cases e with
  | push item woken =>
    simp only [step] at run
    split at run <;> rename_i free
    · obtain ⟨pushed, notified, same⟩ := Option.map_eq_some_iff.mp run
      cases same
      exact .pushed free notified
    · cases run
  | tryPop =>
    simp only [step] at run
    split at run <;> rename_i free
    · split at run <;> rename_i queue <;> cases run
      · exact .refused free queue
      · exact .tried free queue
    · cases run
  | clear =>
    simp only [step] at run
    split at run <;> rename_i free <;> cases run
    exact .cleared free
  | callPop i =>
    simp only [step] at run
    split at run <;> rename_i outside <;> cases run
    exact .called outside
  | acquire i =>
    simp only [step] at run
    split at run <;> rename_i enabled <;> cases run
    exact .acquired enabled.1 enabled.2
  | check i =>
    simp only [step] at run
    split at run <;> rename_i checking
    · split at run <;> rename_i tests <;> cases run
      · exact .decided checking tests
      · exact .blocked checking (not_not.mp (not_or.mp tests).2)
    · cases run
  | park i =>
    simp only [step] at run
    split at run <;> rename_i parking <;> cases run
    exact .parked parking
  | wakeSpuriously i =>
    simp only [step] at run
    split at run <;> rename_i asleep <;> cases run
    exact .woke asleep
  | returnFromWait i =>
    simp only [step] at run
    split at run <;> rename_i leaving <;> cases run
    exact .left leaving
  | testStop i =>
    simp only [step] at run
    split at run <;> rename_i returned
    · split at run <;> rename_i stopped <;> cases run
      · exact .cancelled returned stopped
      · exact .passed returned (by simpa using stopped)
    · cases run
  | take i =>
    simp only [step] at run
    split at run <;> rename_i taking
    · split at run <;> rename_i queue <;> cases run
      exact .taken taking queue
    · cases run
  | requestStop i =>
    simp only [step] at run
    split at run <;> rename_i stopped <;> cases run
    · exact .repeated stopped
    · exact .stopped (by simpa using stopped)

omit [DecidableEq ι] in
theorem State.point_notifyAll (s : State ι T) (i : ι) :
    s.notifyAll.point i = if s.point i = .asleep then .woken else s.point i := by
  by_cases asleep : (s.consumers i).point = .asleep <;>
    simp [State.notifyAll, State.point, Consumer.wake, asleep]

omit [DecidableEq ι] in
theorem State.stopped_notifyAll (s : State ι T) (i : ι) : s.notifyAll.stopped i = s.stopped i := by
  by_cases asleep : (s.consumers i).point = .asleep <;>
    simp [State.notifyAll, State.stopped, Consumer.wake, asleep]

@[simp] theorem State.point_move (s : State ι T) (i j : ι) (p : PopPoint) :
    (s.move i p).point j = if j = i then p else s.point j := by
  by_cases same : j = i <;> simp [State.move, State.point, same]

@[simp] theorem State.stopped_move (s : State ι T) (i j : ι) (p : PopPoint) :
    (s.move i p).stopped j = s.stopped j := by
  by_cases same : j = i <;> simp [State.move, State.stopped, same]

@[simp] theorem State.queue_move (s : State ι T) (i : ι) (p : PopPoint) :
    (s.move i p).queue = s.queue := rfl

end Iptv.ConcurrentQueue
