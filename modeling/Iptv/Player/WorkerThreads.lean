import Iptv.Player.PlaybackOrchestrator

namespace Iptv.Player
open Iptv.Manifest Iptv.Network Iptv.Abr

/-- One thread that `start` has created, with its stop token. -/
structure WorkerThread (Double : Type) where
  stopRequested : Bool := false
  point : Point Double

/-- The orchestrator with every worker it has ever created, alive or not. A bundle
in the queue is tagged with the number of the worker that pushed it. -/
structure WorkerThreads (Double : Type) where
  abrManager : AbrManager := {}
  segmentQueue : List (Nat × QueuedSegment) := []
  workers : List (WorkerThread Double) := []
  workerThread : Option Nat := none
  control : Control := .idle

/-- The calls of the owner and their statements, the steps of any worker, and the consumer. -/
inductive Action
  | start (masterPlaylistUrl : Text)
  | stop
  | join
  | clear
  | spawn
  | work (worker : Nat) (event : Event)
  | pop

inductive Traffic
  | pushed (worker : Nat) (queued : QueuedSegment)
  | popped (worker : Nat) (queued : QueuedSegment)
  deriving DecidableEq

variable {Double : Type}

/-- What one worker sees of the orchestrator. -/
def WorkerThreads.view (t : WorkerThreads Double) (worker : WorkerThread Double) : Session Double where
  abrManager := t.abrManager
  segmentQueue := t.segmentQueue.map (·.2)
  stopRequested := worker.stopRequested
  point := worker.point

/-- The bundle that a step of the worker pushes. -/
def Point.pushes : Point Double → Event → Option QueuedSegment
  | .pushSegment _ _ _ queued, .worker => some queued
  | _, _ => none

/-- The tagged queue behind a step of a worker. -/
def Point.enqueue (worker : Nat) (queue : List (Nat × QueuedSegment)) :
    Point Double → Event → List (Nat × QueuedSegment)
  | .pushSegment _ _ _ queued, .worker => queue ++ [(worker, queued)]
  | .clearQueue _ _ _, .worker => []
  | _, _ => queue

/-- The worker's own events; the others belong to the owner and to the consumer. -/
def Event.own : Event → Bool
  | .worker | .transferDone _ => true
  | .pop | .requestStop => false

def WorkerThreads.beginStop (t : WorkerThreads Double) (url : Option Text) : WorkerThreads Double :=
  match t.workerThread with
  | some i =>
    { t with
      workers := t.workers.modify i fun worker => { worker with stopRequested := true }
      control := .joining url }
  | none => { t with control := .clearing url }

def WorkerThreads.Alive (t : WorkerThreads Double) (i : Nat) : Prop :=
  ∃ worker, t.workers[i]? = some worker ∧ worker.point ≠ .finished

variable [Zero Double]

def WorkerThreads.step (lib : CxxStd Double) (policy : RetryPolicy) (t : WorkerThreads Double) :
    Action → Option (WorkerThreads Double × List Traffic)
  | .start url => if t.control = .idle then some (t.beginStop (some url), []) else none
  | .stop => if t.control = .idle then some (t.beginStop none, []) else none
  | .join =>
    match t.control, t.workerThread.bind (t.workers[·]?) with
    | .joining url, some worker =>
      match worker.point with
      | .finished => some ({ t with workerThread := none, control := .clearing url }, [])
      | _ => none
    | _, _ => none
  | .clear =>
    match t.control with
    | .clearing url => some ({ t with segmentQueue := [], control := afterStop url }, [])
    | _ => none
  | .spawn =>
    match t.control with
    | .spawning url =>
      some ({ t with
        workers := t.workers ++ [{ point := .fetch (.master url) (.start policy url) }]
        workerThread := some t.workers.length
        control := .idle }, [])
    | _ => none
  | .work i event =>
    if event.own then
      t.workers[i]?.bind fun worker =>
        (Player.step lib policy (t.view worker) event).map fun r =>
          ({ t with
              abrManager := r.1.abrManager
              segmentQueue := worker.point.enqueue i t.segmentQueue event
              workers := t.workers.set i ⟨r.1.stopRequested, r.1.point⟩ },
            ((worker.point.pushes event).map (Traffic.pushed i)).toList)
    else none
  | .pop =>
    match t.segmentQueue with
    | [] => none
    | (worker, queued) :: rest => some ({ t with segmentQueue := rest }, [.popped worker queued])

inductive ThreadTransition (lib : CxxStd Double) (policy : RetryPolicy) (t : WorkerThreads Double) :
    Action → WorkerThreads Double → List Traffic → Prop
  | started {url} (idle : t.control = .idle) : ThreadTransition lib policy t (.start url) (t.beginStop (some url)) []
  | stopping (idle : t.control = .idle) : ThreadTransition lib policy t .stop (t.beginStop none) []
  | joined {url i worker} (control : t.control = .joining url) (handle : t.workerThread = some i)
      (here : t.workers[i]? = some worker) (ended : worker.point = .finished) :
      ThreadTransition lib policy t .join { t with workerThread := none, control := .clearing url } []
  | emptied {url} (control : t.control = .clearing url) :
      ThreadTransition lib policy t .clear { t with segmentQueue := [], control := afterStop url } []
  | spawned {url} (control : t.control = .spawning url) :
      ThreadTransition lib policy t .spawn
        { t with
          workers := t.workers ++ [{ point := .fetch (.master url) (.start policy url) }]
          workerThread := some t.workers.length
          control := .idle } []
  | worked {i event worker session new} (own : event.own = true) (here : t.workers[i]? = some worker)
      (run : Player.step lib policy (t.view worker) event = some (session, new)) :
      ThreadTransition lib policy t (.work i event)
        { t with
          abrManager := session.abrManager
          segmentQueue := worker.point.enqueue i t.segmentQueue event
          workers := t.workers.set i ⟨session.stopRequested, session.point⟩ }
        ((worker.point.pushes event).map (Traffic.pushed i)).toList
  | popped {worker queued rest} (queue : t.segmentQueue = (worker, queued) :: rest) :
      ThreadTransition lib policy t .pop { t with segmentQueue := rest } [.popped worker queued]

theorem thread_cases {lib : CxxStd Double} {policy : RetryPolicy} {t t' : WorkerThreads Double} {action : Action}
    {new : List Traffic} (run : t.step lib policy action = some (t', new)) :
    ThreadTransition lib policy t action t' new := by
  cases action with
  | start url =>
    simp only [WorkerThreads.step] at run
    split at run <;> rename_i idle <;> cases run
    exact .started idle
  | stop =>
    simp only [WorkerThreads.step] at run
    split at run <;> rename_i idle <;> cases run
    exact .stopping idle
  | join =>
    simp only [WorkerThreads.step] at run
    split at run
    · rename_i url worker control handle
      split at run
      · rename_i ended
        cases run
        obtain ⟨i, handle, here⟩ := Option.bind_eq_some_iff.mp handle
        exact .joined control handle here ended
      · cases run
    · cases run
  | clear =>
    simp only [WorkerThreads.step] at run
    split at run
    · rename_i url control
      cases run
      exact .emptied control
    · cases run
  | spawn =>
    simp only [WorkerThreads.step] at run
    split at run
    · rename_i url control
      cases run
      exact .spawned control
    · cases run
  | work i event =>
    simp only [WorkerThreads.step] at run
    split at run
    · rename_i own
      obtain ⟨worker, here, inner⟩ := Option.bind_eq_some_iff.mp run
      obtain ⟨r, stepped, same⟩ := Option.map_eq_some_iff.mp inner
      cases same
      exact .worked own here stepped
    · cases run
  | pop =>
    simp only [WorkerThreads.step] at run
    split at run
    · cases run
    · rename_i worker queued rest queue
      cases run
      exact .popped queue

end Iptv.Player
