import Mathlib.Data.Fintype.Basic
import Iptv.Renderer.PtsFrameBuffer

namespace Iptv.Renderer.BufferThreads
open Iptv.Decoder
universe u

inductive Call
  | push (frame : DecodedFrame)
  | pop
  deriving DecidableEq

/-- `cv_full_` and `cv_empty_`. -/
inductive CondVar
  | full
  | empty
  deriving DecidableEq

/-- The condition variable a call waits on. -/
def Call.waitsOn : Call → CondVar
  | .push _ => .full
  | .pop => .empty

/-- The condition variable a call notifies once its critical section went through. -/
def Call.notifies : Call → CondVar
  | .push _ => .empty
  | .pop => .full

def Call.event : Call → Renderer.Event
  | .push frame => .push frame
  | .pop => .pop

/-- What a call answers once the buffer is aborted. -/
def Call.refusal : Call → Seen
  | .push frame => .refused frame
  | .pop => .nothing

/-- Where a thread stands. It blocks on the mutex while `entering` or `woken`;
while `notifying` it has released the mutex with its `notify_one` still to come. -/
inductive Thread
  | outside
  | entering (call : Call)
  | asleep (call : Call)
  | woken (call : Call)
  | notifying (call : Call)
  deriving DecidableEq

def Thread.sleepsOn (cv : CondVar) : Thread → Bool
  | .asleep call => call.waitsOn == cv
  | _ => false

theorem Thread.sleepsOn_iff {cv : CondVar} {thread : Thread} :
    thread.sleepsOn cv = true ↔ ∃ call, thread = .asleep call ∧ call.waitsOn = cv := by
  cases thread <;> simp [Thread.sleepsOn]

def Thread.wake : Thread → Thread
  | .asleep call => .woken call
  | thread => thread

structure State (ι : Type u) where
  buffer : PtsFrameBuffer
  threads : ι → Thread

/-- `enter` is one critical section from the acquisition of the mutex to its
release, be it by `unlock` or by going to sleep. A `notify_one` carries the
sleeper it wakes. -/
inductive Event (ι : Type u)
  | call (i : ι) (call : Call)
  | enter (i : ι)
  | notifyOne (i : ι) (target : Option ι)
  | wakeSpuriously (i : ι)
  | abort

variable {ι : Type u}

/-- All threads outside. -/
def idle (ι : Type u) (buffer : PtsFrameBuffer) : State ι where
  buffer := buffer
  threads _ := .outside

def init (ι : Type u) (maxCapacity : Nat) : State ι := idle ι { maxCapacity }

variable [DecidableEq ι]

def State.move (s : State ι) (i : ι) (thread : Thread) : State ι :=
  { s with threads := Function.update s.threads i thread }

/-- The predicate of `wait` and what follows it. An aborted call returns at
once, without a notification. -/
def State.enter (heap : StdHeap QueueItem) (s : State ι) (i : ι) (call : Call) : State ι × List Seen :=
  match Renderer.step heap s.buffer call.event with
  | none => (s.move i (.asleep call), [])
  | some (buffer, seen) =>
    ({ s.move i (if s.buffer.aborted then .outside else .notifying call) with buffer }, seen)

/-- `notify_one` wakes some sleeper of its condition variable; it is lost only when there is none. -/
def State.notifyOne [Fintype ι] (s : State ι) (cv : CondVar) : Option ι → Option (State ι)
  | some i => if (s.threads i).sleepsOn cv then some (s.move i (s.threads i).wake) else none
  | none => if ∀ i, (s.threads i).sleepsOn cv = false then some s else none

def step [Fintype ι] (heap : StdHeap QueueItem) (s : State ι) : Event ι → Option (State ι × List Seen)
  | .call i call => if s.threads i = .outside then some (s.move i (.entering call), []) else none
  | .enter i =>
    match s.threads i with
    | .entering call | .woken call => some (s.enter heap i call)
    | _ => none
  | .notifyOne i target =>
    match s.threads i with
    | .notifying call =>
      ((s.move i .outside).notifyOne call.notifies target).map fun s' => (s', [])
    | _ => none
  | .wakeSpuriously i =>
    match s.threads i with
    | .asleep call => some (s.move i (.woken call), [])
    | _ => none
  | .abort => some ({ buffer := s.buffer.abort, threads := fun i => (s.threads i).wake }, [])

theorem idle_move (i : ι) (buffer buffer' : PtsFrameBuffer) :
    { (idle ι buffer).move i .outside with buffer := buffer' } = idle ι buffer' := by
  simp [idle, State.move]

variable {s s' : State ι}

/-- A sleeper after a move of one thread is that thread, or it slept before. -/
theorem State.sleeper_move {i j : ι} {thread : Thread} {cv : CondVar}
    (asleep : ((s.move i thread).threads j).sleepsOn cv = true) :
    (j = i ∧ thread.sleepsOn cv = true) ∨ (j ≠ i ∧ (s.threads j).sleepsOn cv = true) := by
  by_cases same : j = i
  · subst same
    exact Or.inl ⟨rfl, by simpa [State.move] using asleep⟩
  · exact Or.inr ⟨same, by simpa [State.move, same] using asleep⟩

/-- Once a thread has returned, who sleeps has slept before. -/
theorem State.sleeper_outside {i j : ι} {cv : CondVar}
    (asleep : ((s.move i .outside).threads j).sleepsOn cv = true) : (s.threads j).sleepsOn cv = true := by
  rcases State.sleeper_move asleep with ⟨_, sleeps⟩ | ⟨_, old⟩
  · cases sleeps
  · exact old

variable {heap : StdHeap QueueItem} {new : List Seen}

/-- Everything a step can do. -/
inductive Transition (heap : StdHeap QueueItem) (s : State ι) : Event ι → State ι → List Seen → Prop
  | called {i call} (outside : s.threads i = .outside) :
      Transition heap s (.call i call) (s.move i (.entering call)) []
  | slept {i call} (inside : s.threads i = .entering call ∨ s.threads i = .woken call)
      (blocked : Renderer.step heap s.buffer call.event = none) :
      Transition heap s (.enter i) (s.move i (.asleep call)) []
  | answered {i call buffer new} (inside : s.threads i = .entering call ∨ s.threads i = .woken call)
      (ran : Renderer.step heap s.buffer call.event = some (buffer, new)) :
      Transition heap s (.enter i)
        { s.move i (if s.buffer.aborted then .outside else .notifying call) with buffer } new
  | unheard {i call} (notifying : s.threads i = .notifying call)
      (nobody : ∀ j, ((s.move i .outside).threads j).sleepsOn call.notifies = false) :
      Transition heap s (.notifyOne i none) (s.move i .outside) []
  | heard {i j call woken} (notifying : s.threads i = .notifying call)
      (asleep : (s.move i .outside).threads j = .asleep woken) (waits : woken.waitsOn = call.notifies) :
      Transition heap s (.notifyOne i (some j)) ((s.move i .outside).move j (.woken woken)) []
  | woke {i call} (asleep : s.threads i = .asleep call) :
      Transition heap s (.wakeSpuriously i) (s.move i (.woken call)) []
  | aborted :
      Transition heap s .abort { buffer := s.buffer.abort, threads := fun i => (s.threads i).wake } []

theorem enter_cases {i : ι} {call : Call} (inside : s.threads i = .entering call ∨ s.threads i = .woken call)
    (run : s.enter heap i call = (s', new)) : Transition heap s (.enter i) s' new := by
  unfold State.enter at run
  split at run
  · rename_i blocked
    cases run
    exact .slept inside blocked
  · rename_i ran
    cases run
    exact .answered inside ran

variable [Fintype ι]

/-- The inversion of a step. -/
theorem step_cases {e : Event ι} (run : step heap s e = some (s', new)) : Transition heap s e s' new := by
  cases e with
  | call i call =>
    simp only [step] at run
    split at run <;> rename_i outside <;> cases run
    exact .called outside
  | enter i =>
    simp only [step] at run
    split at run
    · rename_i entering
      exact enter_cases (.inl entering) (Option.some.inj run)
    · rename_i woken
      exact enter_cases (.inr woken) (Option.some.inj run)
    · cases run
  | notifyOne i target =>
    simp only [step] at run
    split at run
    · rename_i notifying
      obtain ⟨notified, wakes, same⟩ := Option.map_eq_some_iff.mp run
      cases same
      cases target with
      | none =>
        simp only [State.notifyOne] at wakes
        split at wakes <;> rename_i nobody <;> cases wakes
        exact .unheard notifying nobody
      | some j =>
        simp only [State.notifyOne] at wakes
        split at wakes <;> rename_i sleeping <;> cases wakes
        obtain ⟨woken, asleep, waits⟩ := Thread.sleepsOn_iff.mp sleeping
        rw [asleep]
        exact .heard notifying asleep waits
    · cases run
  | wakeSpuriously i =>
    simp only [step] at run
    split at run
    · rename_i asleep
      cases run
      exact .woke asleep
    · cases run
  | abort =>
    cases run
    exact .aborted

/-- Every interleaving of the threads is a run of critical sections. -/
theorem buffer_reach {seen : List Seen} {t : State ι} (reach : Reach (step heap) anyStep s seen t) :
    Reach (Renderer.step heap) anyStep s.buffer seen t.buffer := by
  refine reach.simulate State.buffer fun _ run => ?_
  cases step_cases run with
  | called | slept | unheard | heard | woke => exact .start
  | answered _ ran => exact .next .start trivial ran
  | aborted => exact .next (e := .abort) .start trivial rfl

theorem lone_call (i : ι) (call : Call) {buffer buffer' : PtsFrameBuffer}
    (run : Renderer.step heap buffer call.event = some (buffer', new)) :
    Reach (step heap) anyStep (idle ι buffer) new (idle ι buffer') := by
  have called : step heap (idle ι buffer) (.call i call) =
      some ((idle ι buffer).move i (.entering call), []) := rfl
  have inside : Reach (step heap) anyStep (idle ι buffer) [] ((idle ι buffer).move i (.entering call)) :=
    .next .start trivial called
  by_cases aborted : buffer.aborted = true
  · have entered : step heap ((idle ι buffer).move i (.entering call)) (.enter i) =
        some ({ (idle ι buffer).move i .outside with buffer := buffer' }, new) := by
      simp [step, State.move, State.enter, idle, run, aborted]
    rw [idle_move] at entered
    simpa using Reach.next inside trivial entered
  · have entered : step heap ((idle ι buffer).move i (.entering call)) (.enter i) =
        some ({ (idle ι buffer).move i (.notifying call) with buffer := buffer' }, new) := by
      simp [step, State.move, State.enter, idle, run, aborted]
    have notified : step heap { (idle ι buffer).move i (.notifying call) with buffer := buffer' }
        (.notifyOne i none) = some (idle ι buffer', []) := by
      simp [step, State.move, State.notifyOne, idle, Thread.sleepsOn]
    simpa using Reach.next (Reach.next inside trivial entered) trivial notified

/-- A single thread reproduces every run of critical sections. -/
theorem lone_reach (i : ι) {buffer buffer' : PtsFrameBuffer} {seen : List Seen}
    (reach : Reach (Renderer.step heap) anyStep buffer seen buffer') :
    Reach (step heap) anyStep (idle ι buffer) seen (idle ι buffer') := by
  refine reach.simulate (idle ι) fun {_ _ e _} _ run => ?_
  cases e with
  | push frame => exact lone_call i (.push frame) run
  | pop => exact lone_call i .pop run
  | abort =>
    cases run
    exact .next (e := .abort) .start trivial rfl

end Iptv.Renderer.BufferThreads
