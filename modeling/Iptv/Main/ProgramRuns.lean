import Iptv.Main.Shutdown
import Iptv.Player.GapFreeDelivery

namespace Iptv.Main
open Iptv.Manifest Iptv.Network Iptv.Player
variable {Double : Type}

def Seen.iteration? : Seen → Option (QueuedSegment × Iteration)
  | .processed queued iteration => some (queued, iteration)
  | .finalMetrics _ _ => none

/-- The bundles that the consumer has processed, each with its iteration. -/
def processed (seen : Trace) : List (QueuedSegment × Iteration) :=
  (seen.filterMap Joint.own?).filterMap Seen.iteration?

/-- The bundles that `pop` has returned. -/
def received (seen : Trace) : List QueuedSegment :=
  (seen.filterMap Joint.right?).flatMap ConcurrentQueue.Seen.received

/-- The bundles that the worker has pushed. -/
def pushed (seen : Trace) : List QueuedSegment :=
  (seen.filterMap Joint.right?).flatMap ConcurrentQueue.Seen.entered

/-- The bundles that have left the queue, popped or cleared. -/
def removed (seen : Trace) : List QueuedSegment :=
  (seen.filterMap Joint.right?).flatMap ConcurrentQueue.Seen.removed

/-- The bundle that the consumer has popped and not yet processed. -/
def inHand : Option ConsumerPoint → List QueuedSegment
  | some (.popped bundle) => bundle.toList
  | _ => []

def Program.inHand (p : Program Double) : List QueuedSegment :=
  Main.inHand (p.control.consumerThread.map (·.point))

theorem processed_append (seen new : Trace) : processed (seen ++ new) = processed seen ++ processed new := by
  simp [processed]

theorem pushed_append (seen new : Trace) : pushed (seen ++ new) = pushed seen ++ pushed new := by
  simp [pushed]

theorem received_append (seen new : Trace) : received (seen ++ new) = received seen ++ received new := by
  simp [received]

variable [Zero Double] {lib : CxxStd Double} {policy : RetryPolicy}
  {avutil : Decoder.AvUtil} {url : Text} {p p' : Program Double}
  {action : Action} {seen new : Trace} {move : ProgramMove}

theorem Moved.received_eq (moved : Moved lib policy p p' move new) :
    received new = move.right.elim [] (·.receives p.right.queue) := by
  have run := moved.right
  unfold received
  cases taken : move.right with
  | none =>
    rw [taken] at run
    have silent : [] = new.filterMap Joint.right? := congrArg Prod.snd (Option.some.inj run)
    rw [← silent]
    rfl
  | some e =>
    rw [taken] at run
    exact ConcurrentQueue.step_received run

theorem Moved.processed_eq (moved : Moved lib policy p p' move new) :
    processed new = move.seen.filterMap Seen.iteration? := by
  unfold processed
  rw [moved.seen]

omit [Zero Double] in
/-- A bundle is processed in one iteration. -/
theorem bundle_iteration {c c' : Consumer} {reply : BundleReply} {its : List Iteration}
    (run : consumerStep avutil c (.bundle reply) = some (c', its)) : ∃ it, its = [it] := by
  unfold consumerStep at run
  split at run
  · cases run
  · obtain ⟨⟨consumer, it⟩, _, same⟩ := Option.map_eq_some_iff.mp run
    cases same
    exact ⟨it, rfl⟩

/-- What a step takes from the queue is in the consumer's hand until it is processed. -/
theorem Moved.balance (moved : Moved lib policy p p' move new) (planned : Planned avutil url p action move)
    (sound : p.Sound policy) : p.inHand ++ received new = (processed new).map (·.1) ++ p'.inHand := by
  rw [moved.received_eq, moved.processed_eq]
  unfold Program.inHand
  rw [moved.control]
  cases planned with
  | @statement next main call =>
    cases control : p.left.control <;> rw [control] at call <;> cases call <;>
      simp [ConcurrentQueue.Event.receives]
  | constructed main =>
    have stage := sound.stage
    rw [main] at stage
    have fresh : p.control.consumerThread = none := stage
    simp [fresh, inHand]
  | turned created turn =>
    rw [created]
    cases turn with
    | loopEnded point | broke point | yielded point => simp [point, inHand]
  | popCalled created point =>
    rw [created]
    simp [point, inHand, ConcurrentQueue.Event.receives]
  | popMoved created point next stays =>
    rw [created]
    cases here : p.right.point () <;> rw [here] at next stays <;> cases next <;>
      first
      | exact absurd rfl stays
      | simp [point, inHand, ConcurrentQueue.Event.receives]
  | popCancelled created point =>
    rw [created]
    simp [point, inHand, ConcurrentQueue.Event.receives]
  | popTook created point =>
    rw [created]
    simp [point, inHand, ConcurrentQueue.Event.receives]
  | processed created point run =>
    obtain ⟨it, rfl⟩ := bundle_iteration run
    rw [created]
    simp [point, inHand, Seen.iteration?]
  | interrupted | startCalled | stopCalled | consumerJoined | exited | constructionThrew | worked | transferred
  | processingThrew => simp
  | reported => simp [Seen.iteration?, Threads.finalMetrics]
  | consumerStopped | pushed | cleared | woke => simp [ConcurrentQueue.Event.receives]

/-- The consumer thread as a run of its loop, and where its bundles have come from. -/
structure Accounted (avutil : Decoder.AvUtil) (seen : Trace)
    (p : Program Double) : Prop where
  taken : received seen = (processed seen).map (·.1) ++ p.inHand
  unborn : p.control.consumerThread = none → processed seen = []
  consumer : ∀ thread, p.control.consumerThread = some thread → ∃ video audio now start,
    Consumer.start video audio now = .ok start ∧
      Reach (consumerStep avutil) anyStep start ((processed seen).map (·.2)) thread.consumer

theorem Accounted.step (old : Accounted avutil seen p) (sound : p.Sound policy)
    (run : p.step avutil lib policy url action = some (p', new)) : Accounted avutil (seen ++ new) p' := by
  obtain ⟨move, _, planned, moved⟩ := program_cases run
  have now := moved.processed_eq
  have thread (kept : move.control.consumerThread = p.control.consumerThread)
      (silent : move.seen.filterMap Seen.iteration? = []) :
      (p'.control.consumerThread = none → processed (seen ++ new) = []) ∧
        ∀ thread, p'.control.consumerThread = some thread → ∃ video audio now start,
          Consumer.start video audio now = .ok start ∧
            Reach (consumerStep avutil) anyStep start ((processed (seen ++ new)).map (·.2)) thread.consumer := by
    rw [moved.control, kept, processed_append, now, silent, List.append_nil]
    exact ⟨old.unborn, old.consumer⟩
  have goesOn {before after : ConsumerThread} (created : p.control.consumerThread = some before)
      (moves : move.control.consumerThread = some after)
      (steps : Reach (consumerStep avutil) anyStep before.consumer ((processed new).map (·.2)) after.consumer) :
      (p'.control.consumerThread = none → processed (seen ++ new) = []) ∧
        ∀ thread, p'.control.consumerThread = some thread → ∃ video audio now start,
          Consumer.start video audio now = .ok start ∧
            Reach (consumerStep avutil) anyStep start ((processed (seen ++ new)).map (·.2)) thread.consumer := by
    rw [moved.control, moves]
    refine ⟨by simp, ?_⟩
    rintro thread ⟨⟩
    obtain ⟨video, audio, time, start, made, reach⟩ := old.consumer before created
    rw [processed_append, List.map_append]
    exact ⟨video, audio, time, start, made, reach.trans steps⟩
  have both : (p'.control.consumerThread = none → processed (seen ++ new) = []) ∧
      ∀ thread, p'.control.consumerThread = some thread → ∃ video audio now start,
        Consumer.start video audio now = .ok start ∧
          Reach (consumerStep avutil) anyStep start ((processed (seen ++ new)).map (·.2)) thread.consumer := by
    cases planned with
    | interrupted | startCalled | statement | stopCalled | consumerStopped | consumerJoined | exited
    | constructionThrew | pushed | cleared | worked | transferred | popMoved | processingThrew | woke
    | reported => exact thread rfl rfl
    | @constructed video audio time consumer main returned made =>
      have stage := sound.stage
      rw [main] at stage
      have nothing := old.unborn stage
      rw [moved.control, processed_append, now, nothing]
      refine ⟨by simp, ?_⟩
      rintro thread ⟨⟩
      exact ⟨video, audio, time, consumer, made, .start⟩
    | @turned before event consumer point created turn stepped =>
      refine goesOn created rfl ?_
      rw [now]
      exact Reach.next .start trivial stepped
    | popCalled created | popCancelled created | popTook created =>
      refine goesOn created rfl ?_
      rw [now]
      exact .start
    | @processed before queued reply consumer its created point stepped =>
      obtain ⟨it, rfl⟩ := bundle_iteration stepped
      refine goesOn created rfl ?_
      rw [now]
      exact Reach.next .start trivial stepped
  refine ⟨?_, both.1, both.2⟩
  rw [received_append, processed_append, old.taken, List.map_append, List.append_assoc, List.append_assoc,
    moved.balance planned sound]

theorem accounted_reach
    (reach : Reach (Program.step avutil lib policy url) anyStep (Program.start Double) seen p) :
    Accounted avutil seen p := by
  have both : p.Sound policy ∧ Accounted avutil seen p := by
    refine reach.traced (fun past s => s.Sound policy ∧ Accounted avutil past s) ⟨start_sound policy, ?_⟩ ?_
    · exact ⟨rfl, fun _ => rfl, by rintro thread ⟨⟩⟩
    · intro past s s' e new old _ run
      exact ⟨old.1.step run, old.2.step old.1 run⟩
  exact both.2

theorem queue_reach
    (reach : Reach (Program.step avutil lib policy url) anyStep (Program.start Double) seen p) :
    Reach ConcurrentQueue.step ConcurrentQueue.HandoverKept (ConcurrentQueue.init Unit QueuedSegment)
      (seen.filterMap Joint.right?) p.right :=
  reach.right fun {s _ _ event} _ _ _ => ConcurrentQueue.handoverKept s.right event

/-- Every run of the program is a run of the orchestrator, a run of the queue in which no
hand-over is lost, and a run of the consumer's loop, over one and the same queue; what the
queue hands out is what the consumer processes, but for the bundle in its hand. -/
theorem program_refines
    (reach : Reach (Program.step avutil lib policy url) anyStep (Program.start Double) seen p) :
    Reach (PlaybackOrchestrator.step lib policy) anyStep {} (seen.filterMap Joint.left?) p.left ∧
      Reach ConcurrentQueue.step ConcurrentQueue.HandoverKept (ConcurrentQueue.init Unit QueuedSegment)
        (seen.filterMap Joint.right?) p.right ∧
      p.left.session.segmentQueue = p.right.queue ∧
      (∀ thread, p.control.consumerThread = some thread → ∃ video audio now start,
        Consumer.start video audio now = .ok start ∧
          Reach (consumerStep avutil) anyStep start ((processed seen).map (·.2)) thread.consumer) ∧
      received seen = (processed seen).map (·.1) ++ p.inHand := by
  have accounted := accounted_reach reach
  exact ⟨reach.left fun _ _ _ => trivial, queue_reach reach, (sound_reach reach).queue, accounted.consumer,
    accounted.taken⟩

/-- The program up to its loop on the flag. -/
def startUp : List Action :=
  [.main, .main, .main, .construct ⟨⟨true, true, true⟩, true, true⟩ ⟨⟨true, true, true⟩, true, true⟩ 0]

/-- A transport stream without streams. -/
def emptyBundle : BundleReply := { refusedBundle with opening := .opened ⟨[], []⟩ }

/-- The consumer falls asleep, and the push of the first bundle wakes it. -/
def firstBundleOf (playlist : Text) : List Action :=
  startUp ++ [.consumer, .consumer, .consumer, .consumer] ++
    (loadFirstVariant playlist ++ .worker :: serve (text "ts") 32).map (.worker · none) ++
    [.worker .worker (some ()), .consumer, .consumer, .consumer, .consumer, .consumer]

def firstBundle : List Action := firstBundleOf twoSegments

theorem program_refines_firstBundle :
    ∃ seen p, Reach (Program.step .plain CxxStd.plain {} (text "http://h/m.m3u8")) anyStep
        (Program.start Rat) seen p ∧ (processed seen).length = 1 ∧
      Reach ConcurrentQueue.step ConcurrentQueue.HandoverKept (ConcurrentQueue.init Unit QueuedSegment)
        (seen.filterMap Joint.right?) p.right ∧
      received seen = (processed seen).map (·.1) ++ p.inHand := by
  obtain ⟨seen, p, reach, one⟩ := reach_of_exec
    (Program.step .plain CxxStd.plain {} (text "http://h/m.m3u8")) anyStep (Program.start Rat)
    (firstBundle ++ [.process emptyBundle]) (fun r => (processed r.1).length == 1) (by decide +kernel)
  have refines := program_refines reach
  exact ⟨seen, p, reach, by simpa using one, refines.2.1, refines.2.2.2.2⟩

omit [Zero Double] in
/-- What leaves the queue is handed out or cleared. -/
theorem received_sublist (seen : Trace) : (received seen).Sublist (removed seen) := by
  refine List.Sublist.flatMap_right _ fun event _ => ?_
  cases event with
  | cleared => exact List.nil_sublist _
  | pushed | popped | cancelled | tried => exact .refl _

theorem owner_delivered {o o' : PlaybackOrchestrator Double} {command : Command} {seen : List Player.Seen}
    (other : command ≠ .session .pop) (run : o.step lib policy command = some (o', seen)) : delivered seen = [] := by
  cases owner_cases run with
  | started | stopping | joined | emptied | spawned => rfl
  | @worked event session seen inner =>
    cases step_cases inner with
    | popped => exact absurd rfl other
    | stopped | began | retried | masterRejected | masterThrew | masterAccepted | variantFailed | variantLoaded
    | segmentFailed | segmentLoaded | cancelled | variantStarted | segmentsEnded | segmentSkipped | segmentStarted
    | pushed | threw | kept | switched | cleared => rfl

/-- The orchestrator sees the same bundles go as the queue does. -/
theorem Moved.delivered_eq (moved : Moved lib policy p p' move new) (planned : Planned avutil url p action move)
    (same : p.left.session.segmentQueue = p.right.queue) :
    delivered (new.filterMap Joint.left?) = (received new).map (·.sequenceIndex.toNat) := by
  have left := moved.left
  have quiet (others : ∀ command, move.left = some command → command ≠ .session .pop) :
      delivered (new.filterMap Joint.left?) = [] := by
    cases taken : move.left with
    | none =>
      rw [taken] at left
      have silent : [] = new.filterMap Joint.left? := congrArg Prod.snd (Option.some.inj left)
      rw [← silent]
      rfl
    | some command =>
      rw [taken] at left
      exact owner_delivered (others command taken) left
  rw [moved.received_eq]
  cases planned with
  | popTook =>
    have popped : Player.step lib policy p.left.session .pop =
        some (p'.left.session, new.filterMap Joint.left?) := by
      have stepped : p.left.step lib policy (.session .pop) = some (p'.left, new.filterMap Joint.left?) := left
      have transition := owner_cases stepped
      generalize p'.left = o', new.filterMap Joint.left? = seen at transition
      cases transition with
      | worked inner => exact inner
    simp only [Option.elim_some, ConcurrentQueue.Event.receives, ← same]
    generalize new.filterMap Joint.left? = seen, p'.left.session = s' at popped
    cases step_cases popped with
    | popped queue =>
      rw [queue]
      rfl
  | @statement next main call =>
    rw [quiet]
    · cases control : p.left.control <;> rw [control] at call <;> cases call <;> rfl
    · rintro command ⟨⟩ pop
      cases control : p.left.control <;> rw [control] at call <;> cases call <;> cases pop
  | popMoved created point piece stays =>
    rw [quiet (by rintro command ⟨⟩)]
    cases here : p.right.point () <;> rw [here] at piece stays <;> cases piece <;> first | rfl | exact absurd rfl stays
  | interrupted | startCalled | stopCalled | reported | consumerStopped | consumerJoined | exited | constructed
  | constructionThrew | pushed | cleared | worked | transferred | turned | popCalled | popCancelled | processed
  | processingThrew | woke =>
    rw [quiet (by rintro command ⟨⟩ ⟨⟩)]
    rfl

/-- What has become of the bundles that were pushed. -/
theorem accounts
    (reach : Reach (Program.step avutil lib policy url) anyStep (Program.start Double) seen p) :
    pushed seen = removed seen ++ p.right.queue ∧ received seen = (processed seen).map (·.1) ++ p.inHand :=
  ⟨(queue_reach reach).balance ConcurrentQueue.Seen.entered ConcurrentQueue.Seen.removed ConcurrentQueue.State.queue rfl
    fun run => (ConcurrentQueue.step_effect run).balance, (accounted_reach reach).taken⟩

/-- What has been processed was pushed, and in that order. -/
theorem processed_sublist
    (reach : Reach (Program.step avutil lib policy url) anyStep (Program.start Double) seen p) :
    ((processed seen).map (·.1)).Sublist (pushed seen) := by
  obtain ⟨balance, taken⟩ := accounts reach
  have first : ((processed seen).map (·.1)).Sublist (received seen) := by
    rw [taken]
    exact List.sublist_append_left _ _
  rw [balance]
  exact (first.trans (received_sublist seen)).trans (List.sublist_append_left _ _)

/-- The bundles of a whole run: those pushed have been removed from the queue in their
order or are still in it, those popped are the ones that the orchestrator sees delivered
and have been processed once each in their order, but for one in the consumer's hand, and
nothing is left over when the process exits. -/
theorem bundles_processed_once
    (reach : Reach (Program.step avutil lib policy url) anyStep (Program.start Double) seen p) :
    pushed seen = removed seen ++ p.left.session.segmentQueue ∧
      received seen = (processed seen).map (·.1) ++ p.inHand ∧
      ((processed seen).map (·.1)).Sublist (pushed seen) ∧
      delivered (seen.filterMap Joint.left?) = (received seen).map (·.sequenceIndex.toNat) ∧
      (p.control.main = .exited → pushed seen = removed seen ∧ received seen = (processed seen).map (·.1)) := by
  have sound := sound_reach reach
  obtain ⟨balance, taken⟩ := accounts reach
  have told : delivered (seen.filterMap Joint.left?) = (received seen).map (·.sequenceIndex.toNat) := by
    have both : p.Sound policy ∧
        delivered (seen.filterMap Joint.left?) = (received seen).map (·.sequenceIndex.toNat) := by
      refine reach.traced (fun past s => s.Sound policy ∧
        delivered (past.filterMap Joint.left?) = (received past).map (·.sequenceIndex.toNat))
        ⟨start_sound policy, rfl⟩ ?_
      intro past s s' e new old _ run
      obtain ⟨move, _, planned, moved⟩ := program_cases run
      refine ⟨old.1.step run, ?_⟩
      rw [List.filterMap_append, delivered_append, received_append, List.map_append, old.2,
        moved.delivered_eq planned old.1.queue]
    exact both.2
  refine ⟨sound.queue ▸ balance, taken, processed_sublist reach, told, fun exited => ?_⟩
  have shut := sound.shutDown exited
  have empty : p.inHand = [] := by
    have ended : p.control.consumerThread.map (·.point) = some .ended := shut.consumer
    rw [Program.inHand, ended]
    rfl
  rw [balance, taken, shut.queue.2, empty, List.append_nil, List.append_nil]
  exact ⟨rfl, rfl⟩

/-- The worker keeps its variant and downloads the second segment. -/
def secondDownload : List Player.Event := .worker :: .worker :: serve (text "ts") 32 ++ [.worker]

/-- A second bundle stays behind in the queue when the first one has been processed. -/
theorem bundles_processed_once_queued :
    ∃ seen p, Reach (Program.step .plain CxxStd.plain {} (text "http://h/m.m3u8")) anyStep
        (Program.start Rat) seen p ∧ (processed seen).length = 1 ∧ p.left.session.segmentQueue.length = 1 ∧
      received seen = (processed seen).map (·.1) ++ p.inHand := by
  obtain ⟨seen, p, reach, test⟩ := reach_of_exec
    (Program.step .plain CxxStd.plain {} (text "http://h/m.m3u8")) anyStep (Program.start Rat)
    (firstBundle ++ [.process emptyBundle] ++ secondDownload.map (.worker · none))
    (fun r => (processed r.1).length == 1 && r.2.left.session.segmentQueue.length == 1) (by decide +kernel)
  simp only [Bool.and_eq_true, beq_iff_eq] at test
  exact ⟨seen, p, reach, test.1, test.2, (bundles_processed_once reach).2.1⟩

/-- How many more bundles a consumer may process once the flag is set. -/
def allowance : Option ConsumerPoint → Nat
  | some .popping | some (.popped (some _)) => 1
  | none | some .loopTest | some (.popped none) | some .ended => 0

def Program.allowance (p : Program Double) : Nat := Main.allowance (p.control.consumerThread.map (·.point))

/-- A step under the flag spends what the consumer is allowed. -/
theorem Moved.spends (moved : Moved lib policy p p' move new) (planned : Planned avutil url p action move)
    (sound : p.Sound policy) (flag : p.control.stopFlag = true) :
    p'.control.stopFlag = true ∧ (processed new).length + p'.allowance ≤ p.allowance := by
  rw [moved.processed_eq]
  unfold Program.allowance
  rw [moved.control]
  cases planned with
  | interrupted fresh =>
    rw [flag] at fresh
    cases fresh
  | constructed main =>
    have stage := sound.stage
    rw [main] at stage
    have fresh : p.control.consumerThread = none := stage
    simp [fresh, flag, allowance]
  | turned created turn =>
    rw [created]
    cases turn <;> simp [flag, allowance]
  | popCalled created point running =>
    rw [Program.stopping, flag] at running
    cases running
  | popCancelled created point =>
    rw [created]
    simp [flag, point, allowance]
  | popTook created point =>
    rw [created]
    cases p.right.queue.head? <;> simp [flag, point, allowance]
  | processed created point run =>
    obtain ⟨it, rfl⟩ := bundle_iteration run
    rw [created]
    simp [flag, point, allowance, Seen.iteration?]
  | startCalled | statement | stopCalled | consumerStopped | consumerJoined | exited | constructionThrew | pushed
  | cleared | worked | transferred | popMoved | processingThrew | woke => exact ⟨flag, by simp⟩
  | reported => exact ⟨flag, by simp [Seen.iteration?, Threads.finalMetrics]⟩

/-- The consumer is on its way out of its loop: it stands at the test, behind an empty
answer of the queue or behind the loop; the test ends it, and the answer leads to the test. -/
structure LeavesLoop (avutil : Decoder.AvUtil) (lib : CxxStd Double)
    (policy : RetryPolicy) (url : Text) (p : Program Double) (thread : ConsumerThread) : Prop where
  point : thread.point = .loopTest ∨ thread.point = .popped none ∨ thread.point = .ended
  test : thread.point = .loopTest → ∀ p' new, p.step avutil lib policy url .consumer = some (p', new) →
    p'.control.consumerThread.map (·.point) = some .ended
  answer : thread.point = .popped none → ∀ p' new, p.step avutil lib policy url .consumer = some (p', new) →
    p'.control.consumerThread.map (·.point) = some .ended ∨
      p'.control.consumerThread.map (·.point) = some .loopTest

/-- Under the flag, a consumer with nothing left to process leaves its loop. -/
theorem leavesLoop_of_spent {thread : ConsumerThread} (flag : p.control.stopFlag = true) (spent : p.allowance = 0)
    (created : p.control.consumerThread = some thread) : LeavesLoop avutil lib policy url p thread where
  point := by
    rw [Program.allowance, created] at spent
    cases point : thread.point with
    | loopTest => exact .inl rfl
    | ended => exact .inr (.inr rfl)
    | popping => simp [point, allowance] at spent
    | popped bundle =>
      cases bundle with
      | none => exact .inr (.inl rfl)
      | some queued => simp [point, allowance] at spent
  test point p' new run := by
    obtain ⟨move, _, planned, moved⟩ := program_cases run
    rw [moved.control]
    cases planned with
    | turned here turn =>
      rw [created] at here
      cases here
      cases turn with
      | loopEnded => rfl
      | broke behind | yielded behind =>
        rw [point] at behind
        cases behind
    | popCalled _ _ running =>
      rw [Program.stopping, flag] at running
      cases running
    | popMoved here behind | popCancelled here behind | popTook here behind =>
      rw [created] at here
      cases here
      rw [point] at behind
      cases behind
  answer point p' new run := by
    obtain ⟨move, _, planned, moved⟩ := program_cases run
    rw [moved.control]
    cases planned with
    | turned _ turn =>
      cases turn with
      | loopEnded | broke => exact .inl rfl
      | yielded => exact .inr rfl
    | popCalled here behind | popMoved here behind | popCancelled here behind | popTook here behind =>
      rw [created] at here
      cases here
      rw [point] at behind
      cases behind

/-- From every state in which the signal has come, whatever the threads still do, the
consumer processes at most the one bundle that it has popped or waits for; then it
leaves its loop. -/
theorem processed_afterSignal {origin : Program Double} {before : Trace}
    (reach : Reach (Program.step avutil lib policy url) anyStep (Program.start Double) before origin)
    (flag : origin.control.stopFlag = true)
    (later : Reach (Program.step avutil lib policy url) anyStep origin seen p) :
    (processed seen).length + p.allowance ≤ origin.allowance ∧ (processed seen).length ≤ 1 ∧
      (p.allowance = 0 → ∀ thread, p.control.consumerThread = some thread →
        LeavesLoop avutil lib policy url p thread) := by
  have all : p.Sound policy ∧ p.control.stopFlag = true ∧
      (processed seen).length + p.allowance ≤ origin.allowance := by
    refine later.traced (fun past s => s.Sound policy ∧ s.control.stopFlag = true ∧
      (processed past).length + s.allowance ≤ origin.allowance) ⟨sound_reach reach, flag, by simp [processed]⟩ ?_
    intro past s s' e new old _ run
    obtain ⟨move, _, planned, moved⟩ := program_cases run
    obtain ⟨kept, spent⟩ := moved.spends planned old.1 old.2.1
    refine ⟨old.1.step run, kept, ?_⟩
    have bound := old.2.2
    rw [processed_append, List.length_append]
    omega
  obtain ⟨_, raised, bound⟩ := all
  have one : origin.allowance ≤ 1 := by
    unfold Program.allowance allowance
    split <;> omega
  exact ⟨bound, by omega, fun spent _ created => leavesLoop_of_spent raised spent created⟩

/-- The signal comes while the consumer sleeps; the next bundle still wakes it. -/
theorem processed_afterSignal_asleep :
    ∃ before origin seen p, Reach (Program.step .plain CxxStd.plain {} (text "http://h/m.m3u8")) anyStep
        (Program.start Rat) before origin ∧ origin.control.stopFlag = true ∧
      Reach (Program.step .plain CxxStd.plain {} (text "http://h/m.m3u8")) anyStep origin seen p ∧
      (processed seen).length = 1 ∧ (processed seen).length + p.allowance ≤ origin.allowance ∧
      ∃ thread, p.control.consumerThread = some thread ∧ thread.point = .loopTest ∧
        LeavesLoop .plain CxxStd.plain {} (text "http://h/m.m3u8") p thread := by
  have run : ((exec (Program.step .plain CxxStd.plain {} (text "http://h/m.m3u8")) anyStep
      (Program.start Rat) (firstBundle.take 8 ++ [.interrupt])).bind fun b =>
        (exec (Program.step .plain CxxStd.plain {} (text "http://h/m.m3u8")) anyStep b.2
          (firstBundle.drop 8 ++ [.process emptyBundle])).map fun r =>
            b.2.control.stopFlag && ((processed r.1).length == 1 &&
              r.2.control.consumerThread.map (·.point) == some .loopTest)) = some true := by
    decide +kernel
  obtain ⟨before, started, run⟩ := Option.bind_eq_some_iff.mp run
  obtain ⟨r, went, test⟩ := Option.map_eq_some_iff.mp run
  simp only [Bool.and_eq_true, beq_iff_eq] at test
  obtain ⟨flag, one, stands⟩ := test
  obtain ⟨thread, created, point⟩ := Option.map_eq_some_iff.mp stands
  obtain ⟨bound, _, leaves⟩ := processed_afterSignal (exec_reach started) flag (exec_reach went)
  have spent : r.2.allowance = 0 := by
    rw [Program.allowance, stands, allowance]
  exact ⟨before.1, before.2, r.1, r.2, exec_reach started, flag, exec_reach went, one, bound, thread, created,
    point, leaves spent thread created⟩

end Iptv.Main
