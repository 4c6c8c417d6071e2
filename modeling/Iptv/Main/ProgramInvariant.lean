import Iptv.Main.Program
import Iptv.Player.Playable

namespace Iptv.Main
open Iptv.Manifest Iptv.Network Iptv.Player
open ConcurrentQueue (popPiece)
variable {Double : Type}

/-- What a worker's step makes of the queue. -/
def pointQueueAfter : Point Double → List QueuedSegment → List QueuedSegment
  | .pushSegment _ _ _ queued, queue => queue ++ [queued]
  | .clearQueue _ _ _, _ => []
  | _, queue => queue

/-- What a command makes of the queue of the orchestrator. -/
def commandQueueAfter (point : Point Double) : Command → List QueuedSegment → List QueuedSegment
  | .clear, _ => []
  | .session .worker, queue => pointQueueAfter point queue
  | .session .pop, queue => queue.tail
  | _, queue => queue

/-- No download is in an attempt that the policy does not allow. -/
def WithinRetries (policy : RetryPolicy) : Point Double → Prop
  | .fetch _ download => download.attempt ≤ policy.maxRetries.toNat
  | _ => True

/-- The worker will end as soon as it looks at its stop token. -/
def Halted (s : Session Double) : Prop := s.stopRequested = true ∨ s.point = .finished

/-- The URL that a call goes on with behind its `stop`. -/
def restart : Control → Option Text
  | .idle => none
  | .joining url | .clearing url => url
  | .spawning url => some url

def Program.consumerEnded (p : Program Double) : Prop :=
  p.control.consumerThread.map (·.point) = some .ended

/-- What `main` relies on at each of its points. -/
def Program.Stage (p : Program Double) : MainPoint → Prop
  | .starting => p.left.control = .idle ∧ p.control.consumerThread = none
  | .inStart => p.control.consumerThread = none
  | .waiting => p.left.control = .idle ∧ p.control.consumerThread ≠ none
  | .inStop => (p.left.control = .idle → p.left.joinable = false) ∧ p.control.consumerThread ≠ none
  | .leaving => p.left.control = .idle ∧ p.left.joinable = false ∧ p.control.consumerThread ≠ none
  | .joiningConsumer =>
    p.left.control = .idle ∧ p.left.joinable = false ∧ p.control.consumerThread ≠ none ∧ p.right.stopped () = true
  | .inDestructor =>
    (p.left.control = .idle → p.right.queue = []) ∧ p.left.joinable = false ∧ p.consumerEnded
  | .exited => p.left.control = .idle ∧ p.right.queue = [] ∧ p.left.joinable = false ∧ p.consumerEnded
  | .terminated => True

/-- `main` has left its loop on the flag. -/
def MainPoint.late : MainPoint → Bool
  | .starting | .inStart | .waiting | .terminated => false
  | .inStop | .leaving | .joiningConsumer | .inDestructor | .exited => true

/-- What every step of the program keeps. -/
structure Program.Sound (policy : RetryPolicy) (p : Program Double) : Prop where
  solo : p.right.Solo
  parked : Parked p.left
  queue : p.left.session.segmentQueue = p.right.queue
  popping : p.control.consumerThread.map (·.point) = some .popping ↔ p.right.point () ≠ .outside
  running : ∀ thread, p.control.consumerThread = some thread →
    (thread.consumer.running = false ↔ thread.point = .ended)
  playable : p.left.session.point.Playable
  attempts : WithinRetries policy p.left.session.point
  stage : p.Stage p.control.main
  halted : p.control.main.late = true →
    p.control.stopFlag = true ∧ restart p.left.control = none ∧ Halted p.left.session

theorem start_sound (policy : RetryPolicy) : (Program.start Double).Sound policy where
  solo := ConcurrentQueue.init_solo
  parked := ⟨fun _ => rfl, fun _ => rfl⟩
  queue := rfl
  popping := ⟨(by rintro ⟨⟩), fun inside => absurd rfl inside⟩
  running _ created := by cases created
  playable := trivial
  attempts := trivial
  stage := ⟨rfl, rfl⟩
  halted late := by cases late

theorem beginStop_session (o : PlaybackOrchestrator Double) (url : Option Text) :
    (o.beginStop url).session.segmentQueue = o.session.segmentQueue ∧
      (o.beginStop url).session.point = o.session.point ∧ (o.beginStop url).joinable = o.joinable := by
  unfold PlaybackOrchestrator.beginStop
  split <;> exact ⟨rfl, rfl, rfl⟩

theorem beginStop_control (o : PlaybackOrchestrator Double) (url : Option Text) :
    restart (o.beginStop url).control = url ∧ (o.beginStop url).control ≠ .idle := by
  unfold PlaybackOrchestrator.beginStop
  split <;> exact ⟨rfl, by simp⟩

/-- A call of `stop` reaches the worker that is still there. -/
theorem beginStop_halted {o : PlaybackOrchestrator Double} (parked : Parked o) (url : Option Text) :
    Halted (o.beginStop url).session := by
  unfold PlaybackOrchestrator.beginStop
  split
  · exact .inl rfl
  · rename_i none
    exact .inr (parked.ended (by simpa using none))

theorem finish_retry_within {policy : RetryPolicy} {stopped : Bool} {download next : Download} {transfer : Transfer}
    (within : download.attempt ≤ policy.maxRetries.toNat)
    (run : download.finish policy stopped transfer = .retry next) : next.attempt ≤ policy.maxRetries.toNat := by
  obtain ⟨_, _, attempt, _⟩ := finish_retry run
  unfold Download.finish at run
  dsimp only at run
  split at run
  · cases run
  · split at run
    · cases run
    · rename_i goesOn
      have notLast : download.attempt ≠ policy.maxRetries.toNat := by
        rintro last
        refine goesOn ?_
        simp [shouldStopRetrying, last]
      omega

variable [Zero Double] {lib : CxxStd Double} {policy : RetryPolicy}

theorem worker_queue {s s' : Session Double} {new : List Player.Seen}
    (run : Player.step lib policy s .worker = some (s', new)) :
    s'.segmentQueue = pointQueueAfter s.point s.segmentQueue := by
  cases step_cases run with
  | pushed point | cleared point =>
    rw [point]
    rfl
  | cancelled _ point =>
    rcases point with ⟨_, point⟩ | ⟨_, _, _, _, point⟩ <;> rw [point] <;> rfl
  | began point | variantStarted point | segmentsEnded point | segmentSkipped point | segmentStarted point
  | threw point | kept point | switched point =>
    rw [point]
    rfl

theorem transferDone_queue {s s' : Session Double} {transfer : Transfer} {new : List Player.Seen}
    (run : Player.step lib policy s (.transferDone transfer) = some (s', new)) :
    s'.segmentQueue = s.segmentQueue := by
  cases step_cases run <;> rfl

theorem WithinRetries.step {s s' : Session Double} {e : Player.Event} {new : List Player.Seen}
    (within : WithinRetries policy s.point) (run : Player.step lib policy s e = some (s', new)) :
    WithinRetries policy s'.point := by
  cases step_cases run with
  | popped | stopped => exact within
  | began point =>
    rw [point] at within
    exact within
  | retried point _ attempt =>
    rw [point] at within
    exact finish_retry_within within attempt
  | variantStarted | segmentStarted => exact Nat.zero_le _
  | segmentsEnded | cleared =>
    dsimp only [Session.goto]
    unfold afterSegments
    split <;> trivial
  | masterRejected | masterThrew | masterAccepted | variantFailed | variantLoaded | segmentFailed | segmentLoaded
  | cancelled | segmentSkipped | pushed | threw | kept | switched => trivial

/-- A stop request is never taken back. -/
theorem Halted.step {s s' : Session Double} {e : Player.Event} {new : List Player.Seen} (halted : Halted s)
    (run : Player.step lib policy s e = some (s', new)) : Halted s' := by
  rcases halted with stop | ended
  · refine .inl ?_
    cases step_cases run with
    | stopped => rfl
    | popped | began | retried | masterRejected | masterThrew | masterAccepted | variantFailed | variantLoaded
    | segmentFailed | segmentLoaded | cancelled | variantStarted | segmentsEnded | segmentSkipped | segmentStarted
    | pushed | threw | kept | switched | cleared => exact stop
  · exact .inr (finished_step ended run)

theorem owner_queue {o o' : PlaybackOrchestrator Double} {command : Command} {new : List Player.Seen}
    (run : o.step lib policy command = some (o', new)) :
    o'.session.segmentQueue = commandQueueAfter o.session.point command o.session.segmentQueue := by
  cases owner_cases run with
  | started | stopping => exact (beginStop_session o _).1
  | joined | emptied | spawned => rfl
  | @worked event session new inner =>
    cases event with
    | worker => exact worker_queue inner
    | transferDone => exact transferDone_queue inner
    | pop =>
      cases step_cases inner with
      | popped queue =>
        rw [commandQueueAfter, queue]
        rfl
    | requestStop => cases step_cases inner; rfl

/-- A property of the worker's point that its steps keep is kept by the orchestrator. -/
theorem owner_point {P : Point Double → Prop} {o o' : PlaybackOrchestrator Double} {command : Command}
    {new : List Player.Seen} (old : P o.session.point)
    (spawned : ∀ url, P (.fetch (.master url) (.start policy url)))
    (worked : ∀ {s s' e new}, P s.point → Player.step lib policy s e = some (s', new) → P s'.point)
    (run : o.step lib policy command = some (o', new)) : P o'.session.point := by
  cases owner_cases run with
  | started | stopping =>
    rw [(beginStop_session o _).2.1]
    exact old
  | joined | emptied => exact old
  | spawned => exact spawned _
  | worked inner => exact worked old inner

section
variable {avutil : Decoder.AvUtil} {url : Text} {p p' : Program Double}
  {action : Action} {new : Trace} {move : ProgramMove}

/-- A step of the two components along with a move of the threads. -/
abbrev Moved (lib : CxxStd Double) (policy : RetryPolicy) (p p' : Program Double) (move : ProgramMove)
    (new : Trace) : Prop :=
  JoinedTransition (PlaybackOrchestrator.step lib policy) ConcurrentQueue.step p p' move new

theorem program_cases (run : p.step avutil lib policy url action = some (p', new)) :
    ∃ move, p.over = false ∧ Planned avutil url p action move ∧ Moved lib policy p p' move new := by
  obtain ⟨move, planned, moved⟩ := joined_cases run
  obtain ⟨alive, planned⟩ := plan_cases planned
  exact ⟨move, alive, planned, moved⟩

theorem Moved.left_kept (moved : Moved lib policy p p' move new) (stays : move.left = none) : p'.left = p.left := by
  have same := moved.left
  rw [stays] at same
  exact (congrArg Prod.fst (Option.some.inj same)).symm

theorem Moved.right_kept (moved : Moved lib policy p p' move new) (stays : move.right = none) : p'.right = p.right := by
  have same := moved.right
  rw [stays] at same
  exact (congrArg Prod.fst (Option.some.inj same)).symm

theorem Moved.command {command : Command} (moved : Moved lib policy p p' move new) (taken : move.left = some command) :
    ∃ seen, p.left.step lib policy command = some (p'.left, seen) := by
  have run := moved.left
  rw [taken] at run
  exact ⟨_, run⟩

theorem Moved.event {event : ConcurrentQueue.Event Unit QueuedSegment} (moved : Moved lib policy p p' move new)
    (taken : move.right = some event) : ∃ seen, ConcurrentQueue.step p.right event = some (p'.right, seen) := by
  have run := moved.right
  rw [taken] at run
  exact ⟨_, run⟩

theorem Moved.session {event : Player.Event} (moved : Moved lib policy p p' move new)
    (taken : move.left = some (.session event)) :
    ∃ seen, Player.step lib policy p.left.session event = some (p'.left.session, seen) ∧
      p'.left.control = p.left.control ∧ p'.left.joinable = p.left.joinable := by
  obtain ⟨seen, run⟩ := moved.command taken
  have transition := owner_cases run
  generalize p'.left = o' at transition
  cases transition with
  | worked inner => exact ⟨_, inner, rfl, rfl⟩

theorem Moved.solo (moved : Moved lib policy p p' move new) (solo : p.right.Solo) : p'.right.Solo := by
  cases taken : move.right with
  | none =>
    rw [moved.right_kept taken]
    exact solo
  | some event =>
    obtain ⟨seen, run⟩ := moved.event taken
    exact solo.step run

theorem Moved.parked (moved : Moved lib policy p p' move new) (parked : Parked p.left) : Parked p'.left := by
  cases taken : move.left with
  | none =>
    rw [moved.left_kept taken]
    exact parked
  | some command =>
    obtain ⟨seen, run⟩ := moved.command taken
    exact parked.step run

theorem Moved.point {P : Point Double → Prop} (moved : Moved lib policy p p' move new) (old : P p.left.session.point)
    (spawned : ∀ url, P (.fetch (.master url) (.start policy url)))
    (worked : ∀ {s s' e new}, P s.point → Player.step lib policy s e = some (s', new) → P s'.point) :
    P p'.left.session.point := by
  cases taken : move.left with
  | none =>
    rw [moved.left_kept taken]
    exact old
  | some command =>
    obtain ⟨seen, run⟩ := moved.command taken
    exact owner_point old spawned worked run

omit [Zero Double] in
/-- Both components do the same to their queues. -/
theorem Planned.queues_agree (planned : Planned avutil url p action move) (queue : List QueuedSegment) :
    move.left.elim queue (commandQueueAfter p.left.session.point · queue) =
      move.right.elim queue (·.queueAfter queue) := by
  cases planned with
  | @statement next main call =>
    cases control : p.left.control <;> rw [control] at call <;> cases call <;> rfl
  | pushed point | cleared point =>
    simp only [Option.elim_some, commandQueueAfter, point]
    rfl
  | worked keeps =>
    simp only [Option.elim_some, Option.elim_none, commandQueueAfter]
    cases point : p.left.session.point <;> first | rfl | simp [touchesQueue, point] at keeps
  | popMoved created point next stays =>
    simp only [Option.elim_some, Option.elim_none]
    cases here : p.right.point () <;> rw [here] at next stays <;> cases next <;> first | rfl | exact absurd rfl stays
  | _ => rfl

theorem Moved.queue (moved : Moved lib policy p p' move new) (planned : Planned avutil url p action move)
    (same : p.left.session.segmentQueue = p.right.queue) : p'.left.session.segmentQueue = p'.right.queue := by
  have left : p'.left.session.segmentQueue =
      move.left.elim p.left.session.segmentQueue
        (commandQueueAfter p.left.session.point · p.left.session.segmentQueue) := by
    cases taken : move.left with
    | none => rw [moved.left_kept taken]; rfl
    | some command =>
      obtain ⟨seen, run⟩ := moved.command taken
      exact owner_queue run
  have right : p'.right.queue = move.right.elim p.right.queue (·.queueAfter p.right.queue) := by
    cases taken : move.right with
    | none => rw [moved.right_kept taken]; rfl
    | some event =>
      obtain ⟨seen, run⟩ := moved.event taken
      exact ConcurrentQueue.step_queue run
  rw [left, right, same]
  exact planned.queues_agree p.right.queue

/-- What others do to the queue brings no thread into `pop` or out of it. -/
theorem outside_iff {s s' : ConcurrentQueue.State Unit QueuedSegment} (solo : s.Solo)
    {e : ConcurrentQueue.Event Unit QueuedSegment} {seen : List (ConcurrentQueue.Seen Unit QueuedSegment)}
    (others : (∃ item woken, e = .push item woken) ∨ e = .clear ∨ e = .requestStop () ∨ e = .wakeSpuriously ())
    (run : ConcurrentQueue.step s e = some (s', seen)) : s'.point () ≠ .outside ↔ s.point () ≠ .outside := by
  obtain ⟨taken, point, _⟩ := ConcurrentQueue.solo_cases solo.sleeper run
  rw [point]
  rcases others with ⟨item, woken, rfl⟩ | rfl | rfl | rfl
  · cases woken with
    | none => rfl
    | some i => simp [ConcurrentQueue.nextPoint, taken (by simp)]
  · rfl
  · unfold ConcurrentQueue.nextPoint
    dsimp only
    split
    · rename_i asleep
      simp [asleep]
    · rfl
  · have asleep : s.point () = .asleep := taken
    simp [ConcurrentQueue.nextPoint, asleep]

/-- A move of `main` or of the worker leaves the consumer where it is. -/
theorem Moved.popping_kept (moved : Moved lib policy p p' move new) (solo : p.right.Solo)
    (popping : p.control.consumerThread.map (·.point) = some .popping ↔ p.right.point () ≠ .outside)
    (thread : move.control.consumerThread.map (·.point) = p.control.consumerThread.map (·.point))
    (others : ∀ e, move.right = some e →
      (∃ item woken, e = .push item woken) ∨ e = .clear ∨ e = .requestStop () ∨ e = .wakeSpuriously ()) :
    p'.control.consumerThread.map (·.point) = some .popping ↔ p'.right.point () ≠ .outside := by
  rw [moved.control, thread, popping]
  cases taken : move.right with
  | none => rw [moved.right_kept taken]
  | some e =>
    obtain ⟨seen, run⟩ := moved.event taken
    exact (outside_iff solo (others e taken) run).symm

theorem Moved.popping (moved : Moved lib policy p p' move new) (planned : Planned avutil url p action move)
    (sound : p.Sound policy) :
    p'.control.consumerThread.map (·.point) = some .popping ↔ p'.right.point () ≠ .outside := by
  have solo := sound.solo
  have popping := sound.popping
  have outside {point : Option ConsumerPoint} (here : p.control.consumerThread.map (·.point) = point)
      (elsewhere : point ≠ some .popping) : p.right.point () = .outside := by
    by_contra inside
    exact elsewhere (here.symm.trans (popping.mpr inside))
  have next {e : ConcurrentQueue.Event Unit QueuedSegment} (taken : move.right = some e) :
      p'.right.point () = ConcurrentQueue.nextPoint p.right e := by
    obtain ⟨seen, run⟩ := moved.event taken
    exact (ConcurrentQueue.solo_cases solo.sleeper run).2.1
  cases planned with
  | interrupted | startCalled | stopCalled | reported | consumerJoined | exited | constructionThrew | worked
  | transferred | processingThrew =>
    exact moved.popping_kept solo popping rfl (by rintro e ⟨⟩)
  | @statement call main here =>
    refine moved.popping_kept solo popping rfl fun e taken => ?_
    cases control : p.left.control <;> rw [control] at here <;> cases here <;> cases taken
    exact .inr (.inl rfl)
  | consumerStopped =>
    refine moved.popping_kept solo popping rfl ?_
    rintro e ⟨⟩
    exact .inr (.inr (.inl rfl))
  | pushed =>
    refine moved.popping_kept solo popping rfl ?_
    rintro e ⟨⟩
    exact .inl ⟨_, _, rfl⟩
  | cleared =>
    refine moved.popping_kept solo popping rfl ?_
    rintro e ⟨⟩
    exact .inr (.inl rfl)
  | woke =>
    refine moved.popping_kept solo popping rfl ?_
    rintro e ⟨⟩
    exact .inr (.inr (.inr rfl))
  | constructed main returned made =>
    have stage := sound.stage
    rw [main] at stage
    have fresh : p.control.consumerThread = none := stage
    have away := outside (congrArg (Option.map (·.point)) fresh) (by simp)
    rw [moved.control, moved.right_kept rfl]
    simp [away]
  | @turned thread event consumer point created turn =>
    have away : p.right.point () = .outside := by
      cases turn with
      | loopEnded here => exact outside (by rw [created, Option.map_some, here]) (by simp)
      | broke here | yielded here => exact outside (by rw [created, Option.map_some, here]) (by simp)
    rw [moved.control, moved.right_kept rfl]
    cases turn <;> simp [away]
  | processed created point =>
    have away := outside (by rw [created, Option.map_some, point]) (by simp)
    rw [moved.control, moved.right_kept rfl]
    simp [away]
  | popCalled =>
    rw [moved.control, next rfl]
    simp [ConcurrentQueue.nextPoint]
  | popMoved created point piece stays goesOn =>
    rw [moved.control, next rfl, created, Option.map_some, point]
    refine ⟨fun _ => ?_, fun _ => rfl⟩
    cases here : p.right.point () <;> rw [here] at piece stays goesOn <;> cases piece
    · simp [ConcurrentQueue.nextPoint]
    · simp only [ConcurrentQueue.nextPoint]
      split <;> simp
    · simp only [ConcurrentQueue.nextPoint]
      split <;> simp
    · simp [ConcurrentQueue.nextPoint]
    · simp [ConcurrentQueue.nextPoint]
    · simp [ConcurrentQueue.nextPoint, goesOn rfl]
    · exact absurd rfl stays
  | popCancelled created point returned stopped =>
    rw [moved.control, next rfl]
    simp [ConcurrentQueue.nextPoint, stopped]
  | popTook =>
    rw [moved.control, next rfl]
    simp [ConcurrentQueue.nextPoint]

omit [Zero Double] in
theorem processBundle_running {c c' : Consumer} {reply : BundleReply} {it : Iteration}
    (run : c.processBundle avutil reply = some (c', it)) : c'.running = c.running := by
  unfold Consumer.processBundle at run
  split at run
  · cases run
  · split at run
    · cases run
    · split at run
      · cases run
      · simp only [Option.some.injEq, Consumer.updateMetrics] at run
        split at run <;> cases run <;> rfl

omit [Zero Double] in
/-- Only a stop request ends the loop of the consumer. -/
theorem consumerStep_running {c c' : Consumer} {event : ConsumerEvent} {its : List Iteration}
    (run : consumerStep avutil c event = some (c', its)) :
    c.running = true ∧ (c'.running = false ↔ event = .stopRequested) := by
  unfold consumerStep at run
  split at run
  · cases run
  · rename_i running
    have before : c.running = true := by simpa using running
    refine ⟨before, ?_⟩
    cases event with
    | stopRequested =>
      cases run
      simp
    | noBundle =>
      cases run
      simp [before]
    | bundle reply =>
      obtain ⟨⟨consumer, it⟩, processed, same⟩ := Option.map_eq_some_iff.mp run
      cases same
      simp [processBundle_running processed, before]

omit [Zero Double] in
theorem start_running {video audio : Decoder.ConstructionReply} {now : Int} {c : Consumer}
    (made : Consumer.start video audio now = .ok c) : c.running = true := by
  unfold Consumer.start at made
  cases videoRun : Decoder.construct "" video with
  | error exception => simp [videoRun, Except.bind] at made
  | ok videoDecoder =>
    cases audioRun : Decoder.Audio.construct "aac" audio with
    | error exception => simp [videoRun, audioRun, Except.bind, Except.map] at made
    | ok audioDecoder =>
      simp only [videoRun, audioRun, Except.bind, Except.map, Except.ok.injEq] at made
      rw [← made]

theorem Moved.running (moved : Moved lib policy p p' move new) (planned : Planned avutil url p action move)
    (sound : p.Sound policy) (thread : ConsumerThread) (created' : p'.control.consumerThread = some thread) :
    thread.consumer.running = false ↔ thread.point = .ended := by
  rw [moved.control] at created'
  have old := sound.running
  cases planned with
  | constructed main returned made =>
    cases created'
    simp [start_running made]
  | turned created turn run =>
    cases created'
    rw [(consumerStep_running run).2]
    cases turn <;> simp
  | processed created point run =>
    cases created'
    simp [(consumerStep_running run).2]
  | popCalled created point =>
    cases created'
    rw [old _ created, point]
    simp
  | popCancelled created point | popTook created point =>
    cases created'
    rw [old _ created, point]
    simp
  | interrupted | startCalled | statement | stopCalled | reported | consumerStopped | consumerJoined | exited
  | constructionThrew | pushed | cleared | worked | transferred | popMoved | processingThrew | woke =>
    exact old thread created'

omit [Zero Double] in
/-- What a point of `main` relies on outlasts the steps of the other threads. -/
theorem Program.Stage.kept {main : MainPoint} (stage : p.Stage main) (control : p'.left.control = p.left.control)
    (joinable : p'.left.joinable = p.left.joinable)
    (created : p'.control.consumerThread = none ↔ p.control.consumerThread = none)
    (ended : p.consumerEnded → p'.consumerEnded)
    (stopped : p.right.stopped () = true → p'.right.stopped () = true)
    (queue : p.left.joinable = false → p.right.queue = [] → p'.right.queue = []) : p'.Stage main := by
  cases main with
  | starting => exact ⟨control.trans stage.1, created.mpr stage.2⟩
  | inStart => exact created.mpr stage
  | waiting => exact ⟨control.trans stage.1, mt created.mp stage.2⟩
  | inStop => exact ⟨fun idle => joinable.trans (stage.1 (control.symm.trans idle)), mt created.mp stage.2⟩
  | leaving => exact ⟨control.trans stage.1, joinable.trans stage.2.1, mt created.mp stage.2.2⟩
  | joiningConsumer =>
    obtain ⟨idle, released, present, stop⟩ := stage
    exact ⟨control.trans idle, joinable.trans released, mt created.mp present, stopped stop⟩
  | inDestructor =>
    obtain ⟨emptied, released, gone⟩ := stage
    exact ⟨fun idle => queue released (emptied (control.symm.trans idle)), joinable.trans released, ended gone⟩
  | exited =>
    obtain ⟨idle, empty, released, gone⟩ := stage
    exact ⟨control.trans idle, queue released empty, joinable.trans released, ended gone⟩
  | terminated => trivial

/-- What a step of the worker, of the consumer or of the environment leaves alone. -/
structure OthersKept (p p' : Program Double) : Prop where
  control : p'.left.control = p.left.control
  joinable : p'.left.joinable = p.left.joinable
  created : p'.control.consumerThread = none ↔ p.control.consumerThread = none
  ended : p.consumerEnded → p'.consumerEnded
  flag : p.control.stopFlag = true → p'.control.stopFlag = true
  main : p'.control.main = p.control.main
  halted : Halted p.left.session → Halted p'.left.session

/-- The actions of `main`, with the end of the process. -/
def MainMove (p : Program Double) (action : Action) (move : ProgramMove) : Prop :=
  action = .main ∨ (∃ video audio now, action = .construct video audio now) ∨ move.control.main ≠ p.control.main

theorem Moved.session_kept (moved : Moved lib policy p p' move new)
    (taken : move.left = none ∨ ∃ e, move.left = some (.session e)) :
    p'.left.control = p.left.control ∧ p'.left.joinable = p.left.joinable ∧
      (Halted p.left.session → Halted p'.left.session) := by
  rcases taken with none | ⟨e, some⟩
  · rw [moved.left_kept none]
    exact ⟨rfl, rfl, id⟩
  · obtain ⟨seen, run, control, joinable⟩ := moved.session some
    exact ⟨control, joinable, fun halted => halted.step run⟩

theorem Moved.othersKept (moved : Moved lib policy p p' move new) (planned : Planned avutil url p action move)
    (others : ¬MainMove p action move) : OthersKept p p' := by
  have session : move.left = none ∨ ∃ e, move.left = some (.session e) := by
    cases planned with
    | startCalled | statement | stopCalled | reported | consumerStopped | consumerJoined | exited =>
      exact absurd (.inl rfl) others
    | constructed | constructionThrew => exact absurd (.inr (.inl ⟨_, _, _, rfl⟩)) others
    | interrupted | turned | popCalled | popMoved | popCancelled | processed | processingThrew | woke => exact .inl rfl
    | pushed | cleared | worked | transferred | popTook => exact .inr ⟨_, rfl⟩
  obtain ⟨control, joinable, halted⟩ := moved.session_kept session
  have main : p'.control.main = p.control.main := by
    rw [moved.control]
    by_contra differs
    exact others (.inr (.inr differs))
  have thread : (p'.control.consumerThread = none ↔ p.control.consumerThread = none) ∧
      (p.consumerEnded → p'.consumerEnded) ∧ (p.control.stopFlag = true → p'.control.stopFlag = true) := by
    unfold Program.consumerEnded
    rw [moved.control]
    cases planned with
    | startCalled | statement | stopCalled | reported | consumerStopped | consumerJoined | exited =>
      exact absurd (.inl rfl) others
    | constructed | constructionThrew => exact absurd (.inr (.inl ⟨_, _, _, rfl⟩)) others
    | interrupted => exact ⟨Iff.rfl, id, fun _ => rfl⟩
    | pushed | cleared | worked | transferred | popMoved | processingThrew | woke => exact ⟨Iff.rfl, id, id⟩
    | turned created turn =>
      rw [created]
      cases turn with
      | loopEnded | broke => simp
      | yielded point => simp [point]
    | popCalled created point | popCancelled created point | popTook created point | processed created point =>
      rw [created]
      simp [point]
  exact ⟨control, joinable, thread.1, thread.2.1, thread.2.2, main, halted⟩

/-- Once the worker has been joined, no step but one of `main` fills the queue. -/
theorem Moved.stays_empty (moved : Moved lib policy p p' move new) (planned : Planned avutil url p action move)
    (parked : Parked p.left) (released : p.left.joinable = false) (empty : p.right.queue = []) :
    p'.right.queue = [] := by
  cases taken : move.right with
  | none => rw [moved.right_kept taken, empty]
  | some e =>
    obtain ⟨seen, run⟩ := moved.event taken
    rw [ConcurrentQueue.step_queue run, empty]
    cases e with
    | push item woken =>
      cases planned with
      | pushed point => rw [parked.ended released] at point; cases point
      | @statement next main call =>
        cases control : p.left.control <;> rw [control] at call <;> cases call <;> cases taken
      | @popMoved thread piece created point next =>
        cases here : p.right.point () <;> rw [here] at next <;> cases next <;> cases taken
      | _ => cases taken
    | _ => rfl

theorem Moved.stopped_kept (moved : Moved lib policy p p' move new) (solo : p.right.Solo)
    (stopped : p.right.stopped () = true) : p'.right.stopped () = true := by
  cases taken : move.right with
  | none => rw [moved.right_kept taken, stopped]
  | some e =>
    obtain ⟨seen, run⟩ := moved.event taken
    rw [(ConcurrentQueue.solo_cases solo.sleeper run).2.2, stopped]
    rfl

/-- The stage of `main` and the halt of the worker, behind a step of another thread. -/
theorem Moved.others_staged (moved : Moved lib policy p p' move new) (planned : Planned avutil url p action move)
    (sound : p.Sound policy) (others : ¬MainMove p action move) :
    p'.Stage p'.control.main ∧ (p'.control.main.late = true →
      p'.control.stopFlag = true ∧ restart p'.left.control = none ∧ Halted p'.left.session) := by
  have kept := moved.othersKept planned others
  rw [kept.main, kept.control]
  refine ⟨sound.stage.kept kept.control kept.joinable kept.created kept.ended (moved.stopped_kept sound.solo)
    (moved.stays_empty planned sound.parked), fun late => ?_⟩
  obtain ⟨flag, none, halted⟩ := sound.halted late
  exact ⟨kept.flag flag, none, kept.halted halted⟩

/-- A statement of `stop`, which is not part of a `start`, leaves no worker to join, and
an empty queue at its end. -/
theorem Moved.stop_statement (moved : Moved lib policy p p' move new) (parked : Parked p.left)
    {next : Command × Option (ConcurrentQueue.Event Unit QueuedSegment)}
    (call : callStatement p.left.control = some next) (taken : move.left = some next.1) (queue : move.right = next.2)
    (stopOnly : restart p.left.control = none) :
    restart p'.left.control = none ∧ p'.left.joinable = false ∧ (p'.left.control = .idle → p'.right.queue = []) ∧
      (Halted p.left.session → Halted p'.left.session) := by
  obtain ⟨seen, run⟩ := moved.command taken
  cases control : p.left.control with
  | idle =>
    rw [control] at call
    cases call
  | joining url =>
    rw [control] at call stopOnly
    cases call
    have transition := owner_cases run
    generalize p'.left = o' at transition
    cases transition with
    | joined here ended =>
      rw [control] at here
      cases here
      exact ⟨stopOnly, rfl, (by rintro ⟨⟩), fun _ => .inr ended⟩
  | clearing url =>
    rw [control] at call stopOnly
    cases call
    obtain rfl : url = none := stopOnly
    obtain ⟨cleared, emptied⟩ := moved.event queue
    have empty : p'.right.queue = [] := ConcurrentQueue.step_queue emptied
    have transition := owner_cases run
    generalize p'.left = o' at transition
    cases transition with
    | emptied here =>
      rw [control] at here
      cases here
      exact ⟨rfl, parked.joined (by rw [control]; rfl), fun _ => empty, id⟩
  | spawning url =>
    rw [control] at stopOnly
    cases stopOnly

/-- A call of `stop` begins. -/
theorem Moved.stop_called (moved : Moved lib policy p p' move new) (parked : Parked p.left)
    (taken : move.left = some .stop) :
    restart p'.left.control = none ∧ p'.left.control ≠ .idle ∧ p'.left.joinable = p.left.joinable ∧
      Halted p'.left.session := by
  obtain ⟨seen, run⟩ := moved.command taken
  have transition := owner_cases run
  generalize p'.left = o' at transition
  cases transition with
  | stopping =>
    obtain ⟨none, busy⟩ := beginStop_control p.left none
    exact ⟨none, busy, (beginStop_session p.left _).2.2, beginStop_halted parked _⟩

/-- The same behind a step of `main`. -/
theorem Moved.main_staged (moved : Moved lib policy p p' move new) (planned : Planned avutil url p action move)
    (sound : p.Sound policy) (own : MainMove p action move) :
    p'.Stage p'.control.main ∧ (p'.control.main.late = true →
      p'.control.stopFlag = true ∧ restart p'.left.control = none ∧ Halted p'.left.session) := by
  have stage := sound.stage
  have halted := sound.halted
  rw [moved.control]
  cases planned with
  | startCalled main =>
    rw [main] at stage
    exact ⟨(congrArg Threads.consumerThread moved.control).trans stage.2, by rintro ⟨⟩⟩
  | @statement next main call =>
    have thread : p'.control.consumerThread = p.control.consumerThread := by rw [moved.control]
    rcases main with main | main | main <;> rw [main] at stage halted ⊢
    · exact ⟨thread.trans stage, by rintro ⟨⟩⟩
    · obtain ⟨flag, stopOnly, halt⟩ := halted rfl
      obtain ⟨none, released, _, keeps⟩ := moved.stop_statement sound.parked call rfl rfl stopOnly
      exact ⟨⟨fun _ => released, by rw [thread]; exact stage.2⟩, fun _ => ⟨flag, none, keeps halt⟩⟩
    · obtain ⟨flag, stopOnly, halt⟩ := halted rfl
      obtain ⟨none, released, empty, keeps⟩ := moved.stop_statement sound.parked call rfl rfl stopOnly
      refine ⟨⟨empty, released, ?_⟩, fun _ => ⟨flag, none, keeps halt⟩⟩
      unfold Program.consumerEnded
      rw [thread]
      exact stage.2.2
  | stopCalled main flag =>
    rw [main] at stage
    obtain ⟨none, busy, _, halt⟩ := moved.stop_called sound.parked rfl
    have thread : p'.control.consumerThread = p.control.consumerThread := by rw [moved.control]
    exact ⟨⟨fun idle => absurd idle busy, by rw [thread]; exact stage.2⟩, fun _ => ⟨flag, none, halt⟩⟩
  | reported main returned free =>
    rw [main] at stage halted
    obtain ⟨flag, none, halt⟩ := halted rfl
    have thread : p'.control.consumerThread = p.control.consumerThread := by rw [moved.control]
    rw [moved.left_kept rfl]
    refine ⟨⟨?_, ?_, by rw [thread]; exact stage.2⟩, fun _ => ⟨flag, none, halt⟩⟩
    · rw [moved.left_kept rfl, returned]
    · rw [moved.left_kept rfl, stage.1 returned]
  | consumerStopped main =>
    rw [main] at stage halted
    obtain ⟨flag, none, halt⟩ := halted rfl
    have thread : p'.control.consumerThread = p.control.consumerThread := by rw [moved.control]
    obtain ⟨seen, run⟩ := moved.event rfl
    have stop : p'.right.stopped () = true := by
      rw [(ConcurrentQueue.solo_cases sound.solo.sleeper run).2.2]
      exact Bool.or_true _
    rw [moved.left_kept rfl]
    refine ⟨⟨?_, ?_, by rw [thread]; exact stage.2.2, stop⟩, fun _ => ⟨flag, none, halt⟩⟩
    · rw [moved.left_kept rfl, stage.1]
    · rw [moved.left_kept rfl, stage.2.1]
  | consumerJoined main created ended =>
    rw [main] at stage halted
    obtain ⟨none, busy, released, halt⟩ := moved.stop_called sound.parked rfl
    refine ⟨⟨fun idle => absurd idle busy, released.trans stage.2.1, ?_⟩, fun _ => ⟨(halted rfl).1, none, halt⟩⟩
    unfold Program.consumerEnded
    rw [moved.control, created, Option.map_some, ended]
  | exited main returned =>
    rw [main] at stage halted
    obtain ⟨empty, released, gone⟩ := stage
    rw [moved.left_kept rfl]
    refine ⟨⟨?_, ?_, ?_, ?_⟩, fun _ => halted rfl⟩
    · rw [moved.left_kept rfl, returned]
    · rw [moved.right_kept rfl]
      exact empty returned
    · rw [moved.left_kept rfl, released]
    · unfold Program.consumerEnded at gone ⊢
      rw [moved.control]
      exact gone
  | constructed main returned made =>
    refine ⟨⟨?_, ?_⟩, by rintro ⟨⟩⟩
    · rw [moved.left_kept rfl, returned]
    · rw [moved.control]
      simp
  | constructionThrew | processingThrew => exact ⟨trivial, by rintro ⟨⟩⟩
  | interrupted | pushed | cleared | worked | transferred | turned | popCalled | popMoved | popCancelled | popTook
  | processed | woke =>
    rcases own with ⟨⟨⟩⟩ | ⟨_, _, _, ⟨⟩⟩ | differs
    exact absurd rfl differs

theorem Program.Sound.step (sound : p.Sound policy)
    (run : p.step avutil lib policy url action = some (p', new)) : p'.Sound policy := by
  obtain ⟨move, _, planned, moved⟩ := program_cases run
  have staged : p'.Stage p'.control.main ∧ (p'.control.main.late = true →
      p'.control.stopFlag = true ∧ restart p'.left.control = none ∧ Halted p'.left.session) := by
    by_cases own : MainMove p action move
    · exact moved.main_staged planned sound own
    · exact moved.others_staged planned sound own
  exact {
    solo := moved.solo sound.solo
    parked := moved.parked sound.parked
    queue := moved.queue planned sound.queue
    popping := moved.popping planned sound
    running := moved.running planned sound
    playable := moved.point sound.playable (fun _ => trivial) fun old inner => old.step inner
    attempts := moved.point sound.attempts (fun _ => Nat.zero_le _) fun old inner => old.step inner
    stage := staged.1
    halted := staged.2 }

theorem sound_reach {seen : Trace}
    (reach : Reach (Program.step avutil lib policy url) anyStep (Program.start Double) seen p) : p.Sound policy :=
  reach.invariant (Program.Sound policy) (start_sound policy) fun old _ run => old.step run

end

end Iptv.Main
