import Iptv.Player.SessionIsolation

namespace Iptv.Player
open Iptv.Manifest Iptv.Network Iptv.Abr
variable {Double : Type}

/-- The orchestrator with its latest worker as the only session. -/
def WorkerThreads.orchestrator (t : WorkerThreads Double) : PlaybackOrchestrator Double where
  session := t.view (t.workers.getLast?.getD { point := .finished })
  joinable := t.workerThread.isSome
  control := t.control

def Action.command : Action → Command
  | .start url => .start url
  | .stop => .stop
  | .join => .join
  | .clear => .clear
  | .spawn => .spawn
  | .work _ event => .session event
  | .pop => .session .pop

/-- The joinable worker is the latest one. -/
def Latest (t : WorkerThreads Double) : Prop := ∀ i, t.workerThread = some i → i + 1 = t.workers.length

theorem Latest.getLast {t : WorkerThreads Double} (latest : Latest t) {i : Nat} (handle : t.workerThread = some i) :
    t.workers.getLast? = t.workers[i]? := by
  have last := latest i handle
  rw [List.getLast?_eq_getElem?, ← last, Nat.add_sub_cancel]

theorem Latest.beginStop {t : WorkerThreads Double} (latest : Latest t) (url : Option Text) :
    Latest (t.beginStop url) ∧ (t.beginStop url).orchestrator = t.orchestrator.beginStop url := by
  cases handle : t.workerThread with
  | none =>
    have begun : t.beginStop url = { t with control := .clearing url } := by
      simp only [WorkerThreads.beginStop, handle]
    rw [begun]
    refine ⟨latest, ?_⟩
    simp [WorkerThreads.orchestrator, WorkerThreads.view, PlaybackOrchestrator.beginStop, handle]
  | some i =>
    have last := latest i handle
    have begun : t.beginStop url =
        { t with
          workers := t.workers.modify i fun worker => { worker with stopRequested := true }
          control := .joining url } := by
      simp only [WorkerThreads.beginStop, handle]
    have before := latest.getLast handle
    have after : (t.workers.modify i fun worker => { worker with stopRequested := true }).getLast? =
        t.workers[i]?.map fun worker => { worker with stopRequested := true } := by
      rw [List.getLast?_eq_getElem?, List.length_modify, ← last, Nat.add_sub_cancel, List.getElem?_modify]
      simp
    obtain ⟨worker, here⟩ : ∃ worker, t.workers[i]? = some worker :=
      ⟨_, List.getElem?_eq_getElem (by omega)⟩
    rw [begun]
    refine ⟨fun j there => by simpa using latest j there, ?_⟩
    simp [WorkerThreads.orchestrator, WorkerThreads.view, PlaybackOrchestrator.beginStop, handle, before, after, here]

variable [Zero Double] {lib : CxxStd Double} {policy : RetryPolicy}

/-- Without its tags the queue behind a worker's step is the queue of the session. -/
theorem enqueue_untag {s s' : Session Double} {queue : List (Nat × QueuedSegment)} {event : Event}
    {new : List Seen} (untagged : queue.map (·.2) = s.segmentQueue) (own : event.own = true)
    (run : Player.step lib policy s event = some (s', new)) (i : Nat) :
    (s.point.enqueue i queue event).map (·.2) = s'.segmentQueue := by
  cases step_cases run with
  | popped | stopped => cases own
  | began point | retried point | masterRejected point | masterThrew point | masterAccepted point
  | variantFailed point | variantLoaded point | segmentFailed point | segmentLoaded point
  | variantStarted point | segmentsEnded point | segmentSkipped point | segmentStarted point
  | threw point | kept point | switched point =>
    rw [point]
    exact untagged
  | cancelled _ point =>
    rcases point with ⟨_, point⟩ | ⟨_, _, _, _, point⟩ <;> rw [point] <;> exact untagged
  | pushed point =>
    rw [point]
    simp [Point.enqueue, untagged]
  | cleared point =>
    rw [point]
    rfl

theorem Latest.step {t t' : WorkerThreads Double} {action : Action} {new : List Traffic} (old : Latest t)
    (run : t.step lib policy action = some (t', new)) : Latest t' := by
  cases thread_cases run with
  | started | stopping => exact (old.beginStop _).1
  | joined => rintro i ⟨⟩
  | emptied | popped => exact old
  | spawned =>
    intro i handle
    obtain rfl := Option.some.inj handle
    simp
  | worked =>
    intro i handle
    simpa using old i handle

/-- Every step of the threads is a step of the orchestrator with a single session. -/
theorem orchestrator_step {t t' : WorkerThreads Double} {action : Action} {new : List Traffic}
    (isolated : Isolated t) (latest : Latest t) (run : t.step lib policy action = some (t', new)) :
    ∃ seen, t.orchestrator.step lib policy action.command = some (t'.orchestrator, seen) := by
  cases thread_cases run with
  | started idle | stopping idle =>
    have calling : t.orchestrator.control = .idle := idle
    rw [(latest.beginStop _).2]
    simp only [Action.command, PlaybackOrchestrator.step, calling, if_true]
    exact ⟨[], rfl⟩
  | @joined url i worker control handle here ended =>
    have point : t.orchestrator.session.point = .finished := by
      simp [WorkerThreads.orchestrator, WorkerThreads.view, latest.getLast handle, here, ended]
    have calling : t.orchestrator.control = .joining url := control
    simp only [Action.command, PlaybackOrchestrator.step, calling, point]
    exact ⟨[], rfl⟩
  | @emptied url control =>
    have calling : t.orchestrator.control = .clearing url := control
    simp only [Action.command, PlaybackOrchestrator.step, calling]
    exact ⟨_, rfl⟩
  | @spawned url control =>
    have calling : t.orchestrator.control = .spawning url := control
    simp only [Action.command, PlaybackOrchestrator.step, calling]
    refine ⟨[], ?_⟩
    simp [WorkerThreads.orchestrator, WorkerThreads.view, Session.start]
  | @worked i event worker session seen own here inner =>
    obtain ⟨handle, _⟩ := isolated.handle own here inner
    have last := latest.getLast handle
    have bound := latest i handle
    have view : t.orchestrator.session = t.view worker := by
      simp [WorkerThreads.orchestrator, last, here]
    have untagged : (worker.point.enqueue i t.segmentQueue event).map (·.2) = session.segmentQueue :=
      enqueue_untag rfl own inner i
    have after : (t.workers.set i ⟨session.stopRequested, session.point⟩).getLast? =
        some ⟨session.stopRequested, session.point⟩ := by
      rw [List.getLast?_eq_getElem?, List.length_set, ← bound, Nat.add_sub_cancel,
        List.getElem?_set_self (by omega)]
    have stepped : t.orchestrator.step lib policy (.session event) =
        some ({ t.orchestrator with session := session }, seen) := by
      cases event with
      | worker | transferDone =>
        simp only [PlaybackOrchestrator.step, view, inner]
        rfl
      | pop | requestStop => cases own
    refine ⟨seen, stepped.trans ?_⟩
    simp [WorkerThreads.orchestrator, WorkerThreads.view, after, untagged]
  | @popped worker queued rest queue =>
    have stored : t.orchestrator.session.segmentQueue = queued :: rest.map (·.2) := by
      simp [WorkerThreads.orchestrator, WorkerThreads.view, queue]
    refine ⟨[.delivered queued.sequenceIndex], ?_⟩
    simp only [Action.command, PlaybackOrchestrator.step, Player.step, stored]
    rfl

/-- Every run of the threads is a run of the orchestrator with a single session. -/
theorem orchestrator_reach {seen : List Traffic} {t : WorkerThreads Double}
    (reach : Reach (WorkerThreads.step lib policy) anyStep {} seen t) :
    ∃ seen', Reach (PlaybackOrchestrator.step lib policy) anyStep {} seen' t.orchestrator := by
  have both : Latest t ∧ ∃ seen', Reach (PlaybackOrchestrator.step lib policy) anyStep {} seen' t.orchestrator := by
    induction reach with
    | start =>
      refine ⟨?_, [], .start⟩
      rintro i ⟨⟩
    | @next s s' seen new action earlier met run ih =>
      obtain ⟨latest, seen', same⟩ := ih
      obtain ⟨more, stepped⟩ := orchestrator_step (isolated_reach earlier) latest run
      exact ⟨latest.step run, _, .next same trivial stepped⟩
  exact both.2

end Iptv.Player
