import Iptv.Player.ServedRuns
import Iptv.Player.WorkerThreads

namespace Iptv.Player
open Iptv.Manifest Iptv.Network Iptv.Abr
variable {Double : Type}

/-- Only the joinable worker is alive, and it is the one that the queue comes from;
a call behind its join has none. -/
structure Isolated (t : WorkerThreads Double) : Prop where
  running : ∀ i, t.Alive i → t.workerThread = some i
  joined : t.control.behindJoin = true → t.workerThread = none
  owned : t.control.behindJoin = false → ∀ entry ∈ t.segmentQueue, t.workerThread = some entry.1
  emptied : ∀ url, t.control = .spawning url → t.segmentQueue = []

theorem Isolated.initial : Isolated ({} : WorkerThreads Double) where
  running := by
    rintro i ⟨worker, here, _⟩
    simp at here
  joined := by simp
  owned := by simp
  emptied := by simp

/-- Both calls begin in the same way, whatever the worker does. -/
theorem Isolated.beginStop {t : WorkerThreads Double} (isolated : Isolated t) (idle : t.control = .idle)
    (url : Option Text) : Isolated (t.beginStop url) := by
  have owned := isolated.owned (by rw [idle]; rfl)
  unfold WorkerThreads.beginStop
  split
  · rename_i i handle
    refine ⟨?_, by simp [Control.behindJoin], fun _ => owned, by simp⟩
    rintro j ⟨worker, here, active⟩
    refine isolated.running j ?_
    rw [List.getElem?_modify] at here
    obtain ⟨before, there, rfl⟩ := Option.map_eq_some_iff.mp here
    refine ⟨before, there, ?_⟩
    split at active <;> exact active
  · rename_i handle
    exact ⟨isolated.running, fun _ => handle, by simp [Control.behindJoin], by simp⟩

theorem mem_enqueue {worker : Nat} {queue : List (Nat × QueuedSegment)} {point : Point Double} {event : Event}
    {entry : Nat × QueuedSegment} (member : entry ∈ point.enqueue worker queue event) :
    entry ∈ queue ∨ entry.1 = worker := by
  unfold Point.enqueue at member
  split at member
  · rcases List.mem_append.mp member with old | new
    · exact .inl old
    · obtain rfl := List.mem_singleton.mp new
      exact .inr rfl
  · cases member
  · exact .inl member

/-- The guard of the runs before the next `start`. -/
def NoStart (_ : WorkerThreads Double) : Action → Prop
  | .start _ => False
  | .stop | .join | .clear | .spawn | .work _ _ | .pop => True

/-- The guard of the runs before the next call of the owner. -/
def NoCall (_ : WorkerThreads Double) : Action → Prop
  | .start _ | .stop => False
  | .join | .clear | .spawn | .work _ _ | .pop => True

/-- Between the return of `stop` and the next `start`. -/
structure Retired (t : WorkerThreads Double) : Prop where
  isolated : Isolated t
  handle : t.workerThread = none
  empty : t.segmentQueue = []
  control : t.control = .idle ∨ t.control = .clearing none

theorem Retired.quiet {t : WorkerThreads Double} (retired : Retired t) (i : Nat) : ¬ t.Alive i := by
  intro alive
  have handle := retired.isolated.running i alive
  rw [retired.handle] at handle
  cases handle

/-- Between the return of `start` and the next call. -/
structure Serving (i : Nat) (t : WorkerThreads Double) : Prop where
  isolated : Isolated t
  handle : t.workerThread = some i
  control : t.control = .idle

variable [Zero Double] {lib : CxxStd Double} {policy : RetryPolicy}

/-- A worker behind its thread function takes no step. -/
theorem active_of_own {s s' : Session Double} {event : Event} {new : List Seen} (own : event.own = true)
    (run : Player.step lib policy s event = some (s', new)) : s.point ≠ .finished := by
  intro ended
  cases event with
  | worker => simp [Player.step, Session.work, ended] at run
  | transferDone transfer => simp [Player.step, Session.transferDone, ended] at run
  | pop | requestStop => cases own

theorem Isolated.handle {t : WorkerThreads Double} (isolated : Isolated t) {i : Nat}
    {worker : WorkerThread Double} {event : Event} {session : Session Double} {new : List Seen}
    (own : event.own = true) (here : t.workers[i]? = some worker)
    (run : Player.step lib policy (t.view worker) event = some (session, new)) :
    t.workerThread = some i ∧ t.control.behindJoin = false := by
  have handle := isolated.running i ⟨worker, here, active_of_own own run⟩
  refine ⟨handle, ?_⟩
  by_contra behind
  rw [isolated.joined (by simpa using behind)] at handle
  cases handle

theorem Isolated.step {t t' : WorkerThreads Double} {action : Action} {new : List Traffic} (old : Isolated t)
    (run : t.step lib policy action = some (t', new)) : Isolated t' := by
  cases thread_cases run with
  | started idle | stopping idle => exact old.beginStop idle _
  | @joined url i worker control handle here ended =>
    refine ⟨?_, fun _ => rfl, by simp [Control.behindJoin], by simp⟩
    rintro j ⟨other, there, active⟩
    have same := old.running j ⟨other, there, active⟩
    obtain rfl : i = j := Option.some.inj (handle.symm.trans same)
    obtain rfl : worker = other := Option.some.inj (here.symm.trans there)
    exact absurd ended active
  | emptied control =>
    exact ⟨old.running, fun _ => old.joined (by rw [control]; rfl), by simp, by simp⟩
  | @spawned url control =>
    have none := old.joined (by rw [control]; rfl)
    refine ⟨?_, by simp [Control.behindJoin], by simp [old.emptied url control], by simp⟩
    rintro i ⟨worker, here, active⟩
    rcases Nat.lt_or_ge i t.workers.length with before | after
    · rw [List.getElem?_append_left before] at here
      have handle := old.running i ⟨worker, here, active⟩
      rw [none] at handle
      cases handle
    · have bound := (List.getElem?_eq_some_iff.mp here).1
      rw [List.length_append, List.length_singleton] at bound
      have last : t.workers.length = i := by omega
      rw [last]
  | @worked i event worker session _ own here inner =>
    obtain ⟨handle, between⟩ := old.handle own here inner
    refine ⟨?_, ?_, ?_, ?_⟩
    · rintro j ⟨other, there, active⟩
      by_cases same : i = j
      · rw [← same]
        exact handle
      · rw [List.getElem?_set_ne same] at there
        exact old.running j ⟨other, there, active⟩
    · intro behind
      rw [between] at behind
      cases behind
    · intro _ entry member
      rcases mem_enqueue member with earlier | mine
      · exact old.owned between entry earlier
      · rw [mine]
        exact handle
    · intro url control
      dsimp only at control
      rw [control] at between
      cases between
  | popped queue =>
    refine ⟨old.running, old.joined, fun between entry member => old.owned between entry ?_, fun url control => ?_⟩
    · rw [queue]
      exact List.mem_cons_of_mem _ member
    · have empty := old.emptied url control
      rw [queue] at empty
      cases empty

theorem isolated_reach {guard : WorkerThreads Double → Action → Prop} {seen : List Traffic}
    {t : WorkerThreads Double} (reach : Reach (WorkerThreads.step lib policy) guard {} seen t) : Isolated t := by
  refine reach.invariant Isolated .initial ?_
  intro state state' action new old _ run
  exact old.step run

theorem Retired.step {t t' : WorkerThreads Double} {action : Action} {new : List Traffic} (old : Retired t)
    (met : NoStart t action) (run : t.step lib policy action = some (t', new)) : Retired t' ∧ new = [] := by
  have isolated := old.isolated.step run
  cases thread_cases run with
  | started => exact met.elim
  | stopping =>
    have begun : t.beginStop none = { t with control := .clearing none } := by
      simp only [WorkerThreads.beginStop, old.handle]
    rw [begun] at isolated ⊢
    exact ⟨⟨isolated, old.handle, old.empty, .inr rfl⟩, rfl⟩
  | joined control =>
    rcases old.control with idle | clearing
    · rw [idle] at control
      cases control
    · rw [clearing] at control
      cases control
  | @emptied url control =>
    rcases old.control with idle | clearing
    · rw [idle] at control
      cases control
    · rw [clearing] at control
      cases control
      exact ⟨⟨isolated, old.handle, rfl, .inl rfl⟩, rfl⟩
  | spawned control =>
    rcases old.control with idle | clearing
    · rw [idle] at control
      cases control
    · rw [clearing] at control
      cases control
  | @worked i event worker session _ own here inner =>
    exact absurd ⟨worker, here, active_of_own own inner⟩ (old.quiet i)
  | popped queue =>
    rw [old.empty] at queue
    cases queue

theorem Serving.step {i : Nat} {t t' : WorkerThreads Double} {action : Action} {new : List Traffic}
    (old : Serving i t) (met : NoCall t action) (run : t.step lib policy action = some (t', new)) :
    Serving i t' ∧ ∀ worker queued, .popped worker queued ∈ new → worker = i := by
  have isolated := old.isolated.step run
  cases thread_cases run with
  | started | stopping => exact met.elim
  | joined control | emptied control | spawned control =>
    rw [old.control] at control
    cases control
  | worked own here inner =>
    refine ⟨⟨isolated, old.handle, old.control⟩, fun worker queued member => ?_⟩
    obtain ⟨pushed, _, same⟩ := Option.map_eq_some_iff.mp (Option.mem_toList.mp member)
    cases same
  | @popped worker queued rest queue =>
    refine ⟨⟨isolated, old.handle, old.control⟩, fun owner other member => ?_⟩
    obtain ⟨rfl, rfl⟩ := Traffic.popped.inj (List.mem_singleton.mp member)
    have owned := old.isolated.owned (by rw [old.control]; rfl) (owner, other) (by simp [queue])
    exact Option.some.inj (owned.symm.trans old.handle)

theorem Retired.reach {t t' : WorkerThreads Double} {seen : List Traffic} (retired : Retired t)
    (reach : Reach (WorkerThreads.step lib policy) NoStart t seen t') : Retired t' ∧ seen = [] := by
  refine reach.traced (fun past state => Retired state ∧ past = []) ⟨retired, rfl⟩ ?_
  intro past state state' action new old met run
  obtain ⟨later, silent⟩ := old.1.step met run
  exact ⟨later, by rw [old.2, silent]; rfl⟩

theorem Serving.reach {i : Nat} {t t' : WorkerThreads Double} {seen : List Traffic} (serving : Serving i t)
    (reach : Reach (WorkerThreads.step lib policy) NoCall t seen t') :
    ∀ worker queued, .popped worker queued ∈ seen → worker = i := by
  have both : Serving i t' ∧ ∀ o ∈ seen, ∀ worker queued, o = .popped worker queued → worker = i := by
    refine reach.observed (Serving i) _ serving ?_
    intro state state' action new here met run
    obtain ⟨later, mine⟩ := here.step met run
    exact ⟨later, fun o fresh worker queued same => mine worker queued (same ▸ fresh)⟩
  exact fun worker queued member => both.2 _ member worker queued rfl

/-- Whatever the owner calls and however the threads interleave: at most one worker
is alive; behind the return of `stop` none is, and the queue stays empty without a
push until the next `start`; and behind the return of `start`, until the next
call, the consumer pops bundles of the new worker only. -/
theorem sessions_isolated {guard : WorkerThreads Double → Action → Prop} {seen : List Traffic}
    {t : WorkerThreads Double} (reach : Reach (WorkerThreads.step lib policy) guard {} seen t) :
    (∀ i j, t.Alive i → t.Alive j → i = j) ∧
    (∀ t₁ new, t.control = .clearing none → t.step lib policy .clear = some (t₁, new) →
      ∀ more t₂, Reach (WorkerThreads.step lib policy) NoStart t₁ more t₂ →
        (∀ i, ¬ t₂.Alive i) ∧ t₂.segmentQueue = [] ∧ more = []) ∧
    ∀ url t₁ new, t.control = .spawning url → t.step lib policy .spawn = some (t₁, new) →
      t₁.workers = t.workers ++ [{ point := .fetch (.master url) (.start policy url) }] ∧
      ∀ more t₂, Reach (WorkerThreads.step lib policy) NoCall t₁ more t₂ →
        ∀ worker queued, .popped worker queued ∈ more → worker = t.workers.length := by
  have isolated := isolated_reach reach
  refine ⟨?_, ?_, ?_⟩
  · intro i j first second
    exact Option.some.inj ((isolated.running i first).symm.trans (isolated.running j second))
  · intro t₁ new control run more t₂ later
    have none := isolated.joined (by rw [control]; rfl)
    have kept := isolated.step run
    simp only [WorkerThreads.step, control, Option.some.injEq, Prod.mk.injEq] at run
    obtain ⟨rfl, rfl⟩ := run
    have retired : Retired { t with segmentQueue := [], control := afterStop Option.none } :=
      ⟨kept, none, rfl, .inl rfl⟩
    obtain ⟨still, silent⟩ := retired.reach later
    exact ⟨still.quiet, still.empty, silent⟩
  · intro url t₁ new control run
    have kept := isolated.step run
    simp only [WorkerThreads.step, control, Option.some.injEq, Prod.mk.injEq] at run
    obtain ⟨rfl, rfl⟩ := run
    exact ⟨rfl, fun more t₂ later => Serving.reach ⟨kept, rfl, rfl⟩ later⟩

instance (t : WorkerThreads Double) (action : Action) : Decidable (NoCall t action) :=
  match action with
  | .start _ | .stop => inferInstanceAs (Decidable False)
  | .join | .clear | .spawn | .work _ _ | .pop => inferInstanceAs (Decidable True)

/-- A call of `start` up to the new thread, while no worker is alive. -/
def startFresh (url : Text) : List Action := [.start url, .clear]

/-- A worker loads two playlists and pushes the first segment. -/
def pushFirst (worker : Nat) : List Action :=
  (loadFirstVariant twoSegments ++ loadSegment 1000000).map (.work worker)

/-- The second `start` stops the worker of the first one between two segments. -/
def restart (url : Text) : List Action := [.start url, .work 0 .worker, .join, .clear]

def Traffic.isPop : Traffic → Bool
  | .popped _ _ => true
  | .pushed _ _ => false

/-- The first bundle that is popped behind the second `start` is not the one the
first worker has left in the queue. -/
theorem sessions_isolated_restart :
    ∃ seen t t₁ new more t₂,
      Reach (WorkerThreads.step CxxStd.plain {}) anyStep {} seen t ∧
      t.control = .spawning (text "http://i/m.m3u8") ∧ t.step CxxStd.plain {} .spawn = some (t₁, new) ∧
      Reach (WorkerThreads.step CxxStd.plain {}) NoCall t₁ more t₂ ∧
      (∃ worker queued, .popped worker queued ∈ more) ∧
      ∀ worker queued, .popped worker queued ∈ more → worker = 1 := by
  obtain ⟨seen, t, reach, test⟩ := reach_of_exec (WorkerThreads.step CxxStd.plain {}) anyStep {}
    (startFresh (text "http://h/m.m3u8") ++ [.spawn] ++ pushFirst 0 ++ restart (text "http://i/m.m3u8"))
    (fun r => r.2.control == .spawning (text "http://i/m.m3u8") && r.2.workers.length == 1 &&
      ((r.2.step CxxStd.plain {} .spawn).bind fun spawned =>
        (exec (WorkerThreads.step CxxStd.plain {}) NoCall spawned.1 (pushFirst 1 ++ [.pop])).map
          fun later => later.1.any Traffic.isPop) == some true) (by decide +kernel)
  simp only [Bool.and_eq_true, beq_iff_eq, Option.bind_eq_some_iff, Option.map_eq_some_iff,
    List.any_eq_true] at test
  obtain ⟨⟨control, one⟩, ⟨t₁, new⟩, run, ⟨more, t₂⟩, later, traffic, member, popped⟩ := test
  have behind := exec_reach later
  have mine := ((sessions_isolated reach).2.2 _ t₁ new control run).2 more t₂ behind
  rw [one] at mine
  cases traffic with
  | popped worker queued =>
    exact ⟨seen, t, t₁, new, more, t₂, reach, control, run, behind, ⟨worker, queued, member⟩, mine⟩
  | pushed => cases popped

end Iptv.Player
