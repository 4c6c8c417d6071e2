import Iptv.Main.ProgramInvariant
import Iptv.Player.WorkerThreads

namespace Iptv.Main
open Iptv.Manifest Iptv.Network Iptv.Player
open ConcurrentQueue (popPiece)
variable {Double : Type}

/-- How many steps the worker takes at most before it ends, once its stop is
requested; a push counts the turn of the wait that it may cause. -/
def workerRank (policy : RetryPolicy) : Point Double → Nat
  | .finished | .terminated => 0
  | .variantLoop _ => 1
  | .segmentLoop _ _ _ | .clearQueue _ _ _ => 2
  | .evaluateAbrSwitch _ _ _ => 3
  | .pushSegment _ _ _ _ => 9
  | .fetch (.segment ..) download => if download.performing then 10 else 11
  | .fetch (.master _) download | .fetch (.variant _) download =>
    2 * (policy.maxRetries.toNat - download.attempt) + if download.performing then 3 else 4

/-- What the statement in front of the worker may cost the consumer. -/
def pushCost : Point Double → Player.Event → Nat
  | .pushSegment _ _ _ _, .worker => 5
  | _, _ => 0

def controlRank : Control → Nat
  | .joining _ => 2
  | .clearing _ => 1
  | .idle | .spawning _ => 0

def mainRank (control : Control) : MainPoint → Nat
  | .inStop => 11 + controlRank control
  | .leaving => 10
  | .joiningConsumer => 4
  | .inDestructor => 1 + controlRank control
  | .starting | .inStart | .waiting | .exited | .terminated => 0

/-- How many steps the consumer takes at most before it ends or sleeps, once the flag is set. -/
def consumerRank (popRank : Nat) : Option ConsumerPoint → Nat
  | none | some .ended => 0
  | some .loopTest => 1
  | some (.popped _) => 2
  | some .popping => 3 + popRank

def Program.potential (policy : RetryPolicy) (p : Program Double) : Nat :=
  workerRank policy p.left.session.point + mainRank p.left.control p.control.main +
    consumerRank p.right.popRank (p.control.consumerThread.map (·.point))

/-- A spurious wakeup makes the consumer go through its wait once more. -/
def Action.credit : Action → Nat
  | .wakeSpuriously => 6
  | .interrupt | .main | .construct _ _ _ | .worker _ _ | .consumer | .process _ => 0

theorem workerRank_le (policy : RetryPolicy) (point : Point Double) :
    workerRank policy point ≤ 11 + 2 * policy.maxRetries.toNat := by
  cases point with
  | fetch purpose download => cases purpose <;> simp only [workerRank] <;> split <;> omega
  | variantLoop | segmentLoop | pushSegment | evaluateAbrSwitch | clearQueue | finished | terminated =>
    simp only [workerRank]
    omega

theorem popRank_le (s : ConcurrentQueue.State Unit QueuedSegment) : s.popRank ≤ 6 := by
  unfold ConcurrentQueue.State.popRank ConcurrentQueue.popRank
  split <;> first | omega | (split <;> omega)

theorem potential_le (policy : RetryPolicy) (p : Program Double) :
    p.potential policy ≤ 33 + 2 * policy.maxRetries.toNat := by
  have worker := workerRank_le policy p.left.session.point
  have main : mainRank p.left.control p.control.main ≤ 13 := by
    cases p.control.main <;> cases p.left.control <;> simp [mainRank, controlRank]
  have consumer : consumerRank p.right.popRank (p.control.consumerThread.map (·.point)) ≤ 9 := by
    have pop := popRank_le p.right
    unfold consumerRank
    split <;> omega
  unfold Program.potential
  omega

theorem workerRank_afterSegments (policy : RetryPolicy) (ctx : PlaybackContext Double) (playlist : Playlist Double) :
    workerRank policy (afterSegments ctx playlist) ≤ 1 := by
  unfold afterSegments
  split <;> simp [workerRank]

variable [Zero Double] {lib : CxxStd Double} {policy : RetryPolicy}

/-- Every statement of a halted worker brings its end nearer. -/
theorem workerRank_step {s s' : Session Double} {e : Player.Event} {new : List Player.Seen} (halted : Halted s)
    (within : WithinRetries policy s.point) (own : e.own = true)
    (run : Player.step lib policy s e = some (s', new)) :
    workerRank policy s'.point + 1 + pushCost s.point e ≤ workerRank policy s.point := by
  have stop (alive : s.point ≠ .finished) : s.stopRequested = true := halted.resolve_right alive
  cases step_cases run with
  | popped | stopped => cases own
  | @began purpose download point ready =>
    rw [point]
    cases purpose <;> simp [workerRank, pushCost, ready]
  | @retried purpose download transfer next point performing attempt =>
    have stopping := stop (by rw [point]; simp)
    obtain ⟨running, _, later, waiting⟩ := finish_retry attempt
    rw [point] at within ⊢
    have bound : next.attempt ≤ policy.maxRetries.toNat := finish_retry_within within attempt
    cases purpose with
    | segment => simp [Purpose.stopped, stopping] at running
    | master | variant =>
      simp only [Session.goto_point, workerRank, pushCost, performing, waiting, if_true, Bool.false_eq_true, if_false]
      omega
  | masterRejected point performing | variantFailed point performing | segmentFailed point performing =>
    rw [point]
    simp [workerRank, pushCost, performing]
  | masterThrew point performing | masterAccepted point performing | variantLoaded point performing
  | segmentLoaded point performing =>
    rw [point]
    simp [workerRank, pushCost, performing]
  | cancelled _ point =>
    rcases point with ⟨_, point⟩ | ⟨_, _, _, _, point⟩ <;> rw [point] <;> simp [workerRank, pushCost]
  | variantStarted point running | segmentSkipped point running | segmentStarted point running =>
    rw [stop (by rw [point]; simp)] at running
    cases running
  | @segmentsEnded ctx playlist point =>
    rw [point]
    have after := workerRank_afterSegments policy ctx playlist
    change workerRank policy (afterSegments ctx playlist) + 1 + 0 ≤ 2
    omega
  | @cleared ctx playlist nextUri point =>
    rw [point]
    have after := workerRank_afterSegments policy { ctx with currentVariantUri := nextUri } playlist
    change workerRank policy (afterSegments { ctx with currentVariantUri := nextUri } playlist) + 1 + 0 ≤ 2
    omega
  | pushed point | threw point | kept point | switched point =>
    rw [point]
    simp [workerRank, pushCost]

section
variable {avutil : Decoder.AvUtil} {url : Text} {p p' : Program Double}
  {action : Action} {new : Trace} {move : ProgramMove}

omit [Zero Double] in
/-- What a step of the queue does to the rank of a consumer that stays where it is. -/
theorem consumerRank_le (solo : p.right.Solo) (point : Option ConsumerPoint)
    {e : ConcurrentQueue.Event Unit QueuedSegment} {seen : List (ConcurrentQueue.Seen Unit QueuedSegment)}
    (run : ConcurrentQueue.step p.right e = some (p'.right, seen)) :
    consumerRank p'.right.popRank point ≤ consumerRank p.right.popRank point + 5 := by
  have rank := solo.step_popRank run
  unfold consumerRank
  split <;> omega

/-- A step of the worker is paid for by its rank. -/
theorem Moved.workerRank (moved : Moved lib policy p p' move new) (sound : p.Sound policy)
    (halted : Halted p.left.session) {event : Player.Event} (own : event.own = true)
    (taken : move.left = some (.session event)) :
    workerRank policy p'.left.session.point + 1 + pushCost p.left.session.point event ≤
        workerRank policy p.left.session.point ∧
      p'.left.control = p.left.control := by
  obtain ⟨seen, run, control, _⟩ := moved.session taken
  exact ⟨workerRank_step halted sound.attempts own run, control⟩

/-- A statement of a call of `stop` is paid for by the rank of the call. -/
theorem Moved.controlRank (moved : Moved lib policy p p' move new)
    {next : Command × Option (ConcurrentQueue.Event Unit QueuedSegment)}
    (call : callStatement p.left.control = some next) (taken : move.left = some next.1)
    (stopOnly : restart p.left.control = none) :
    controlRank p'.left.control + 1 = controlRank p.left.control ∧
      p'.left.session.point = p.left.session.point := by
  obtain ⟨seen, run⟩ := moved.command taken
  cases control : p.left.control <;> rw [control] at call stopOnly <;> cases call
  · have transition := owner_cases run
    generalize p'.left = o' at transition
    cases transition
    exact ⟨rfl, rfl⟩
  · have transition := owner_cases run
    generalize p'.left = o' at transition
    cases transition with
    | emptied here =>
      rw [control] at here
      cases here
      obtain rfl := stopOnly
      exact ⟨rfl, rfl⟩
  · cases stopOnly

omit [Zero Double] in
theorem mainRank_pos (late : p.control.main.late = true) (alive : p.over = false) :
    1 ≤ mainRank p.left.control p.control.main := by
  cases main : p.control.main with
  | starting | inStart | waiting | terminated =>
    rw [main] at late
    cases late
  | exited => simp [Program.over, main] at alive
  | inStop | leaving | joiningConsumer | inDestructor =>
    simp only [mainRank]
    omega

/-- Behind the loop of `main` on the flag, each step is paid for. -/
theorem Program.Sound.pays (sound : p.Sound policy) (late : p.control.main.late = true)
    (run : p.step avutil lib policy url action = some (p', new)) :
    (p'.control.main.late = true ∨ p'.control.main = .terminated) ∧
      p'.potential policy + 1 ≤ p.potential policy + action.credit := by
  obtain ⟨move, alive, planned, moved⟩ := program_cases run
  obtain ⟨flag, stopOnly, halted⟩ := sound.halted late
  have solo := sound.solo
  unfold Program.potential
  cases planned with
  | interrupted fresh =>
    rw [flag] at fresh
    cases fresh
  | startCalled main | stopCalled main | constructed main | constructionThrew main =>
    rw [main] at late
    cases late
  | @statement next main call =>
    obtain ⟨control, point⟩ := moved.controlRank call rfl stopOnly
    have pop : p'.right.popRank = p.right.popRank := by
      cases here : p.left.control <;> rw [here] at call <;> cases call
      · rw [moved.right_kept rfl]
      · obtain ⟨seen, cleared⟩ := moved.event rfl
        exact solo.clear_popRank cleared
      · rw [moved.right_kept rfl]
    rw [moved.control, point, pop]
    refine ⟨.inl late, ?_⟩
    rcases main with main | main | main
    · rw [main] at late
      cases late
    · simp only [main, mainRank, Action.credit]
      omega
    · simp only [main, mainRank, Action.credit]
      omega
  | reported main returned =>
    rw [moved.control, moved.left_kept rfl, moved.right_kept rfl, main, returned]
    simp only [mainRank, Main.controlRank, Action.credit]
    exact ⟨.inl rfl, by omega⟩
  | consumerStopped main =>
    obtain ⟨seen, stopped⟩ := moved.event rfl
    have consumer := consumerRank_le solo (p.control.consumerThread.map (·.point)) stopped
    rw [moved.control, moved.left_kept rfl, main]
    simp only [mainRank, Action.credit]
    exact ⟨.inl rfl, by omega⟩
  | consumerJoined main =>
    obtain ⟨seen, called⟩ := moved.command rfl
    have left : p'.left.session.point = p.left.session.point ∧ Main.controlRank p'.left.control ≤ 2 := by
      have transition := owner_cases called
      generalize p'.left = o' at transition
      cases transition with
      | stopping =>
        refine ⟨(beginStop_session p.left none).2.1, ?_⟩
        cases (p.left.beginStop none).control <;> simp [Main.controlRank]
    rw [moved.control, left.1, moved.right_kept rfl, main]
    simp only [mainRank, Action.credit]
    exact ⟨.inl rfl, by omega⟩
  | exited main returned =>
    rw [moved.control, moved.left_kept rfl, moved.right_kept rfl, main, returned]
    simp only [mainRank, Main.controlRank, Action.credit]
    exact ⟨.inl rfl, by omega⟩
  | pushed point =>
    obtain ⟨worker, control⟩ := moved.workerRank sound halted rfl rfl
    obtain ⟨seen, pushed⟩ := moved.event rfl
    have consumer := consumerRank_le solo (p.control.consumerThread.map (·.point)) pushed
    rw [point] at worker
    simp only [pushCost] at worker
    rw [moved.control, control, point]
    exact ⟨.inl late, by simp only [Action.credit]; omega⟩
  | cleared point =>
    obtain ⟨worker, control⟩ := moved.workerRank sound halted rfl rfl
    obtain ⟨seen, cleared⟩ := moved.event rfl
    rw [moved.control, control, solo.clear_popRank cleared]
    exact ⟨.inl late, by simp only [Action.credit]; omega⟩
  | worked | transferred =>
    obtain ⟨worker, control⟩ := moved.workerRank sound halted rfl rfl
    rw [moved.control, control, moved.right_kept rfl]
    exact ⟨.inl late, by simp only [Action.credit]; omega⟩
  | turned created turn =>
    rw [moved.control, moved.left_kept rfl, moved.right_kept rfl, created]
    refine ⟨.inl late, ?_⟩
    cases turn with
    | loopEnded point | broke point | yielded point => simp [consumerRank, point, Action.credit]
  | popCalled created point running =>
    rw [Program.stopping, flag] at running
    cases running
  | popMoved created point piece =>
    obtain ⟨seen, popped⟩ := moved.event rfl
    have rank := solo.piece_popRank piece popped
    rw [moved.control, moved.left_kept rfl, created, Option.map_some, point]
    refine ⟨.inl late, ?_⟩
    simp only [consumerRank, Action.credit]
    omega
  | popCancelled created point =>
    rw [moved.control, moved.left_kept rfl, created]
    refine ⟨.inl late, ?_⟩
    simp only [Option.map_some, point, consumerRank, Action.credit]
    omega
  | popTook created point =>
    obtain ⟨seen, popped, control, _⟩ := moved.session rfl
    have left : p'.left.session.point = p.left.session.point := by
      generalize p'.left.session = s' at popped
      cases step_cases popped
      rfl
    rw [moved.control, left, control, created]
    refine ⟨.inl late, ?_⟩
    simp only [Option.map_some, point, consumerRank, Action.credit]
    omega
  | processed created point =>
    rw [moved.control, moved.left_kept rfl, created]
    refine ⟨.inl late, ?_⟩
    simp only [Option.map_some, point, consumerRank, Action.credit]
    omega
  | processingThrew =>
    rw [moved.control, moved.left_kept rfl, moved.right_kept rfl]
    refine ⟨.inr rfl, ?_⟩
    have running := mainRank_pos late alive
    simp only [mainRank, Action.credit] at running ⊢
    omega
  | woke =>
    obtain ⟨seen, woke⟩ := moved.event rfl
    have consumer := consumerRank_le solo (p.control.consumerThread.map (·.point)) woke
    rw [moved.control, moved.left_kept rfl]
    refine ⟨.inl late, ?_⟩
    simp only [Action.credit]
    omega

end

/-- A transfer that ends by itself, and a bundle that libavformat cannot open. -/
def refusedTransfer : Transfer := ⟨.couldntConnect, 0, [], 0, 0⟩

def refusedBundle : BundleReply where
  opening := .noAvioBuffer
  videoReply _ := ⟨true, none, ⟨true, true, true⟩, true, fun _ => ⟨none, []⟩⟩
  audioReply _ _ := ⟨none, []⟩
  now := 0
  queueSize := 0

section Progress
variable {avutil : Decoder.AvUtil} {url : Text} {p : Program Double}

/-- The action can be taken in this state. -/
def Enabled (avutil : Decoder.AvUtil) (lib : CxxStd Double)
    (policy : RetryPolicy) (url : Text) (p : Program Double) (action : Action) : Prop :=
  (p.step avutil lib policy url action).isSome = true

theorem enabled_of_plan {action : Action} (move : ProgramMove) (planned : p.plan avutil url action = some move)
    (left : ∀ command, move.left = some command → (p.left.step lib policy command).isSome = true)
    (right : ∀ e, move.right = some e → (ConcurrentQueue.step p.right e).isSome = true) :
    Enabled avutil lib policy url p action := by
  refine joinedStep_isSome planned ?_ ?_
  · cases taken : move.left with
    | none => rfl
    | some command => exact left command taken
  · cases taken : move.right with
    | none => rfl
    | some e => exact right e taken

/-- Inside of `pop` the consumer can go on, unless it sleeps. -/
theorem consumer_pops (sound : p.Sound policy) (alive : p.over = false)
    {piece : ConcurrentQueue.Event Unit QueuedSegment} (next : popPiece (p.right.point ()) = some piece) :
    Enabled avutil lib policy url p .consumer := by
  have inside : p.right.point () ≠ .outside := by
    intro outside
    rw [outside] at next
    cases next
  obtain ⟨thread, created, popping⟩ := Option.map_eq_some_iff.mp (sound.popping.mpr inside)
  obtain ⟨move, planned, left, right⟩ : ∃ move, p.plan avutil url .consumer = some move ∧
      (∀ command, move.left = some command → p.right.point () = .taking ∧ command = .session .pop) ∧
      move.right = some piece := by
    refine ⟨_, by simp [Program.plan, alive, created, Program.consumerMove, popping, next]; rfl, ?_, ?_⟩
    · split
      · rename_i taking
        rintro command ⟨⟩
        exact ⟨taking, rfl⟩
      · rintro command ⟨⟩
      · rintro command ⟨⟩
    · split <;> rfl
  refine enabled_of_plan move planned ?_ fun e taken => ?_
  · intro command taken
    obtain ⟨taking, rfl⟩ := left command taken
    obtain ⟨item, rest, queue⟩ := List.exists_cons_of_ne_nil (sound.solo.guarded.taking () taking)
    simp [PlaybackOrchestrator.step, Player.step, sound.queue, queue]
  · rw [right] at taken
    cases taken
    exact sound.solo.goes_on next

/-- The consumer goes on until it has ended, unless it sleeps. -/
theorem consumer_goes_on (sound : p.Sound policy) (alive : p.over = false) {thread : ConsumerThread}
    (created : p.control.consumerThread = some thread) (unended : thread.point ≠ .ended)
    (awake : p.right.point () ≠ .asleep) (reply : BundleReply) :
    Enabled avutil lib policy url p .consumer ∨ Enabled avutil lib policy url p (.process reply) := by
  have running : thread.consumer.running = true := by
    by_contra ended
    exact unended ((sound.running thread created).mp (by simpa using ended))
  have turn (event : ConsumerEvent) (point : ConsumerPoint) {consumer : Consumer}
      (run : consumerStep avutil thread.consumer event = some (consumer, []))
      (planned : p.plan avutil url .consumer = p.control.turn avutil thread event point) :
      Enabled avutil lib policy url p .consumer := by
    refine enabled_of_plan { control := { p.control with consumerThread := some ⟨consumer, point⟩ } }
      (planned.trans ?_) (by rintro command ⟨⟩) (by rintro e ⟨⟩)
    simp [Threads.turn, run]
  cases point : thread.point with
  | ended => exact absurd point unended
  | loopTest =>
    cases stopping : p.stopping with
    | true =>
      refine .inl (turn .stopRequested .ended (by simp [consumerStep, running]; rfl) ?_)
      simp [Program.plan, alive, created, Program.consumerMove, point, stopping]
    | false =>
      have outside : p.right.point () = .outside := by
        by_contra inside
        have popping := sound.popping.mpr inside
        rw [created, Option.map_some, point] at popping
        cases popping
      refine .inl (enabled_of_plan {
        right := some (.callPop ())
        control := { p.control with consumerThread := some { thread with point := .popping } } }
        ?_ (by rintro command ⟨⟩) ?_)
      · simp [Program.plan, alive, created, Program.consumerMove, point, stopping]
      · rintro e ⟨⟩
        simp [ConcurrentQueue.step, outside]
  | popping =>
    have inside : p.right.point () ≠ .outside := sound.popping.mp (by rw [created, Option.map_some, point])
    obtain ⟨piece, next⟩ : ∃ piece : ConcurrentQueue.Event Unit QueuedSegment,
        popPiece (p.right.point ()) = some piece := by
      cases here : p.right.point () with
      | outside => exact absurd here inside
      | asleep => exact absurd here awake
      | entering | checking | parking | woken | leaving | returned | taking => exact ⟨_, rfl⟩
    exact .inl (consumer_pops sound alive next)
  | popped bundle =>
    cases bundle with
    | none =>
      cases stopped : p.right.stopped () with
      | true =>
        refine .inl (turn .stopRequested .ended (by simp [consumerStep, running]; rfl) ?_)
        simp [Program.plan, alive, created, Program.consumerMove, point, stopped]
      | false =>
        refine .inl (turn .noBundle .loopTest (by simp [consumerStep, running]; rfl) ?_)
        simp [Program.plan, alive, created, Program.consumerMove, point, stopped]
    | some queued =>
      refine .inr ?_
      cases run : consumerStep avutil thread.consumer (.bundle reply) with
      | none =>
        refine enabled_of_plan { control := { p.control with main := .terminated } } ?_
          (by rintro command ⟨⟩) (by rintro e ⟨⟩)
        simp [Program.plan, alive, created, Program.processMove, point, run]
      | some result =>
        refine enabled_of_plan {
          control := { p.control with consumerThread := some { consumer := result.1 } }
          seen := result.2.map (.processed queued) } ?_ (by rintro command ⟨⟩) (by rintro e ⟨⟩)
        simp [Program.plan, alive, created, Program.processMove, point, run]

omit p in
/-- Outside of a transfer the worker can always go on. -/
theorem work_goes_on {s : Session Double} (playable : s.point.Playable) (unended : s.point ≠ .finished)
    (outside : ∀ purpose download, s.point = .fetch purpose download → download.performing = false) :
    (Player.step lib policy s .worker).isSome = true := by
  unfold Player.step Session.work
  dsimp only
  split
  · rename_i point
    simp [outside _ _ point]
  · split <;> rfl
  · rfl
  · split
    · rfl
    · split <;> rfl
  · rfl
  · split <;> rfl
  · rfl
  · rename_i point
    exact absurd point unended
  · rename_i point
    rw [point] at playable
    exact playable.elim

omit p in
/-- A transfer that no callback has aborted can end at any time. -/
theorem transfer_goes_on {s : Session Double} {purpose : Purpose Double} {download : Download}
    (point : s.point = .fetch purpose download) (performing : download.performing = true) {transfer : Transfer}
    (plain : transfer.code ≠ .abortedByCallback) :
    (Player.step lib policy s (.transferDone transfer)).isSome = true := by
  have enabled : download.performing = true ∧ (transfer.code = .abortedByCallback → purpose.stopped s = true) :=
    ⟨performing, fun aborted => absurd aborted plain⟩
  simp only [Player.step, Session.transferDone, point, if_pos enabled]
  split <;> rfl

/-- While the mutex is free, a worker that has not ended goes on. -/
theorem worker_goes_on (sound : p.Sound policy) (alive : p.over = false) (unended : p.left.session.point ≠ .finished)
    (free : p.right.holder = none) : ∃ event woken, Enabled avutil lib policy url p (.worker event woken) := by
  have command {event : Player.Event} (own : event.own = true)
      (run : (Player.step lib policy p.left.session event).isSome = true) :
      (p.left.step lib policy (.session event)).isSome = true := by
    cases event with
    | worker | transferDone => simpa [PlaybackOrchestrator.step] using run
    | pop | requestStop => cases own
  by_cases inside : ∃ purpose download, p.left.session.point = .fetch purpose download ∧ download.performing = true
  · obtain ⟨purpose, download, point, performing⟩ := inside
    refine ⟨.transferDone refusedTransfer, none, enabled_of_plan
      { left := some (.session (.transferDone refusedTransfer)), control := p.control }
      (by simp [Program.plan, alive, Program.workerMove]) ?_ (by rintro e ⟨⟩)⟩
    rintro c ⟨⟩
    exact command rfl (transfer_goes_on point performing (by simp [refusedTransfer]))
  · have works : (Player.step lib policy p.left.session .worker).isSome = true := by
      refine work_goes_on sound.playable unended fun purpose download point => ?_
      by_contra performing
      exact inside ⟨purpose, download, point, by simpa using performing⟩
    obtain ⟨woken, move, planned, left, right⟩ : ∃ woken move,
        p.plan avutil url (.worker .worker woken) = some move ∧ move.left = some (.session .worker) ∧
          ∀ e, move.right = some e → (ConcurrentQueue.step p.right e).isSome = true := by
      cases point : p.left.session.point with
      | pushSegment ctx playlist rest queued =>
        obtain ⟨woken, pushes⟩ := ConcurrentQueue.push_goes_on free queued
        refine ⟨woken, _, by simp [Program.plan, alive, Program.workerMove, point]; rfl, rfl, ?_⟩
        rintro e ⟨⟩
        exact pushes
      | clearQueue ctx playlist nextUri =>
        refine ⟨none, _, by simp [Program.plan, alive, Program.workerMove, point]; rfl, rfl, ?_⟩
        rintro e ⟨⟩
        simp [ConcurrentQueue.step, free]
      | fetch | variantLoop | segmentLoop | evaluateAbrSwitch | finished | terminated =>
        exact ⟨none, _, by simp [Program.plan, alive, Program.workerMove, point]; rfl, rfl, by rintro e ⟨⟩⟩
    refine ⟨.worker, woken, enabled_of_plan move planned ?_ right⟩
    intro c taken
    rw [left] at taken
    cases taken
    exact command rfl works

/-- Inside of `start`, `stop` or the destructor the next statement of the call can be
taken where the orchestrator and the queue allow it. -/
theorem statement_goes_on (alive : p.over = false)
    (main : p.control.main = .inStart ∨ p.control.main = .inStop ∨ p.control.main = .inDestructor)
    (next : Command × Option (ConcurrentQueue.Event Unit QueuedSegment))
    (call : callStatement p.left.control = some next) (left : (p.left.step lib policy next.1).isSome = true)
    (right : ∀ e, next.2 = some e → (ConcurrentQueue.step p.right e).isSome = true) :
    Enabled avutil lib policy url p .main := by
  refine enabled_of_plan { left := some next.1, right := next.2, control := p.control } ?_ ?_ right
  · rcases main with main | main | main <;> simp [Program.plan, alive, Program.mainMove, main, call]
  · rintro command ⟨⟩
    exact left

/-- A call that has not returned goes on, or the worker that it waits for does. -/
theorem call_goes_on (sound : p.Sound policy) (alive : p.over = false)
    (main : p.control.main = .inStart ∨ p.control.main = .inStop ∨ p.control.main = .inDestructor)
    (busy : p.left.control ≠ .idle) (free : p.right.holder = none) :
    ∃ action, action ≠ .interrupt ∧ action.credit = 0 ∧ Enabled avutil lib policy url p action := by
  cases control : p.left.control with
  | idle => exact absurd control busy
  | spawning =>
    refine ⟨.main, by simp, rfl, statement_goes_on alive main (.spawn, none) (by rw [control]; rfl) ?_ (by rintro e ⟨⟩)⟩
    simp [PlaybackOrchestrator.step, control]
  | clearing =>
    refine ⟨.main, by simp, rfl, statement_goes_on alive main (.clear, some .clear) (by rw [control]; rfl) ?_ ?_⟩
    · simp [PlaybackOrchestrator.step, control]
    · rintro e ⟨⟩
      simp [ConcurrentQueue.step, free]
  | joining =>
    by_cases ended : p.left.session.point = .finished
    · refine ⟨.main, by simp, rfl, statement_goes_on alive main (.join, none) (by rw [control]; rfl) ?_
        (by rintro e ⟨⟩)⟩
      simp [PlaybackOrchestrator.step, control, ended]
    · obtain ⟨event, woken, works⟩ : ∃ event woken, Enabled avutil lib policy url p (.worker event woken) :=
        worker_goes_on sound alive ended free
      exact ⟨_, by simp, rfl, works⟩

/-- A program that is shutting down never blocks before it has exited. -/
theorem Program.Sound.progress (sound : p.Sound policy) (late : p.control.main.late = true)
    (unfinished : p.control.main ≠ .exited) :
    ∃ action, action ≠ .interrupt ∧ action.credit = 0 ∧ Enabled avutil lib policy url p action := by
  have playable : p.left.session.point ≠ .terminated := by
    intro point
    have lost := sound.playable
    rwa [point] at lost
  have alive : p.over = false := by
    unfold Program.over
    split
    · rename_i main
      exact absurd main unfinished
    · rename_i main
      rw [main] at late
      cases late
    · exact absurd (by assumption) playable
    · rfl
  by_cases free : p.right.holder = none
  · have stage := sound.stage
    cases main : p.control.main with
    | starting | inStart | waiting | terminated =>
      rw [main] at late
      cases late
    | exited => exact absurd main unfinished
    | inStop =>
      by_cases returned : p.left.control = .idle
      · refine ⟨.main, by simp, rfl, enabled_of_plan {
          control := { p.control with main := .leaving }
          seen := [p.control.finalMetrics p.right.queue.length] } ?_ (by rintro command ⟨⟩) (by rintro e ⟨⟩)⟩
        simp [Program.plan, alive, Program.mainMove, main, returned, callStatement, free]
      · exact call_goes_on sound alive (.inr (.inl main)) returned free
    | leaving =>
      refine ⟨.main, by simp, rfl, enabled_of_plan
        { right := some (.requestStop ()), control := { p.control with main := .joiningConsumer } }
        ?_ (by rintro command ⟨⟩) ?_⟩
      · simp [Program.plan, alive, Program.mainMove, main]
      · rintro e ⟨⟩
        rfl
    | joiningConsumer =>
      rw [main] at stage
      obtain ⟨idle, _, present, stopped⟩ := stage
      obtain ⟨thread, created⟩ := Option.ne_none_iff_exists'.mp present
      by_cases ended : thread.point = .ended
      · refine ⟨.main, by simp, rfl, enabled_of_plan
          { left := some .stop, control := { p.control with main := .inDestructor } } ?_ ?_
          (by rintro e ⟨⟩)⟩
        · simp [Program.plan, alive, Program.mainMove, main, created, ended]
        · rintro command ⟨⟩
          simp [PlaybackOrchestrator.step, idle]
      · have awake : p.right.point () ≠ .asleep := by
          intro asleep
          rw [(sound.solo.asleep asleep).2] at stopped
          cases stopped
        rcases consumer_goes_on sound alive created ended awake refusedBundle with goes | processes
        · exact ⟨_, by simp, rfl, goes⟩
        · exact ⟨_, by simp, rfl, processes⟩
    | inDestructor =>
      by_cases returned : p.left.control = .idle
      · refine ⟨.main, by simp, rfl, enabled_of_plan { control := { p.control with main := .exited } } ?_
          (by rintro command ⟨⟩) (by rintro e ⟨⟩)⟩
        simp [Program.plan, alive, Program.mainMove, main, returned, callStatement]
      · exact call_goes_on sound alive (.inr (.inr main)) returned free
  · obtain ⟨piece, next, _⟩ := sound.solo.holder_goes_on free
    exact ⟨.consumer, by simp, rfl, consumer_pops sound alive next⟩

end Progress

/-- Everything that the threads held is gone. -/
structure Program.ShutDown (p : Program Double) : Prop where
  worker : p.left.joinable = false ∧ p.left.session.point = .finished
  consumer : p.consumerEnded
  queue : p.left.session.segmentQueue = [] ∧ p.right.queue = []
  mutex : p.right.holder = none

omit [Zero Double] in
theorem Program.Sound.shutDown {p : Program Double} (sound : p.Sound policy) (exited : p.control.main = .exited) :
    p.ShutDown := by
  have stage := sound.stage
  rw [exited] at stage
  obtain ⟨_, empty, released, ended⟩ := stage
  refine ⟨⟨released, sound.parked.ended released⟩, ended, ⟨sound.queue.trans empty, empty⟩, ?_⟩
  by_contra holds
  have inside : p.right.point () ≠ .outside := by
    intro outside
    have lock := sound.solo.held holds
    rw [outside] at lock
    cases lock
  have popping := sound.popping.mpr inside
  rw [ended] at popping
  cases popping

/-- From every state in which `main` has seen the signal, every schedule of the threads
is short: it ends after at most as many steps as the retries of one download and the
spurious wakeups allow. Where no thread can go on, the process has shut down, unless an
exception has ended it. -/
theorem shutdown_completes {url : Text} {avutil : Decoder.AvUtil}
    {seen : Trace} {origin : Program Double}
    {schedule : List Action}
    {r : Trace × Program Double}
    (reach : Reach (Program.step avutil lib policy url) anyStep (Program.start Double) seen origin)
    (late : origin.control.main.late = true)
    (run : exec (Program.step avutil lib policy url) anyStep origin schedule = some r) :
    schedule.length ≤ 33 + 2 * policy.maxRetries.toNat + (schedule.map Action.credit).sum ∧
      ((∀ action, action.credit = 0 → r.2.step avutil lib policy url action = none) →
        r.2.control.main = .terminated ∨ r.2.control.main = .exited ∧ r.2.ShutDown) := by
  have paid := exec_length_le
    (fun p => p.Sound policy ∧ (p.control.main.late = true ∨ p.control.main = .terminated))
    (Program.potential policy) Action.credit ⟨sound_reach reach, .inl late⟩
    (fun {p p' action new} old _ step => ?_) run
  · obtain ⟨⟨sound, behind⟩, bound⟩ := paid
    have most := potential_le policy origin
    refine ⟨by omega, fun stuck => ?_⟩
    rcases behind with still | threw
    · refine .inr ?_
      by_cases exited : r.2.control.main = .exited
      · exact ⟨exited, sound.shutDown exited⟩
      · obtain ⟨action, _, free, enabled⟩ : ∃ action, action ≠ .interrupt ∧ action.credit = 0 ∧
            Enabled avutil lib policy url r.2 action := sound.progress still exited
        rw [Enabled, stuck action free] at enabled
        cases enabled
    · exact .inl threw
  · rcases old.2 with still | threw
    · obtain ⟨behind, bound⟩ := old.1.pays still step
      exact ⟨⟨old.1.step step, behind⟩, bound⟩
    · obtain ⟨_, alive, _⟩ := program_cases step
      simp [Program.over, threw] at alive

/-- The program up to the signal, which comes before the first transfer. -/
def interruptedStart : List Action :=
  [.main, .main, .main, .construct ⟨⟨true, true, true⟩, true, true⟩ ⟨⟨true, true, true⟩, true, true⟩ 0, .interrupt,
    .main]

/-- The master playlist cannot be had, the worker ends, and `main` takes down the rest. -/
def refusedShutdown : List Action :=
  [.worker .worker none, .worker (.transferDone { refusedTransfer with code := .other 1 }) none, .main, .main, .main,
    .main, .consumer, .main, .main, .main]

theorem shutdown_completes_refused :
    ∃ seen origin r, Reach (Program.step .plain CxxStd.plain {} (text "http://h/m.m3u8")) anyStep
        (Program.start Rat) seen origin ∧ origin.control.main.late = true ∧
      exec (Program.step .plain CxxStd.plain {} (text "http://h/m.m3u8")) anyStep origin
        refusedShutdown = some r ∧
      r.2.control.main = .exited ∧ refusedShutdown.length ≤ 33 + 2 * 3 + (refusedShutdown.map Action.credit).sum := by
  have run : ((exec (Program.step .plain CxxStd.plain {} (text "http://h/m.m3u8")) anyStep
      (Program.start Rat) interruptedStart).bind fun b =>
        (exec (Program.step .plain CxxStd.plain {} (text "http://h/m.m3u8")) anyStep b.2
          refusedShutdown).map fun r => b.2.control.main.late && r.2.control.main == .exited) = some true := by
    decide +kernel
  obtain ⟨before, started, run⟩ := Option.bind_eq_some_iff.mp run
  obtain ⟨r, stopped, test⟩ := Option.map_eq_some_iff.mp run
  simp only [Bool.and_eq_true, beq_iff_eq] at test
  exact ⟨before.1, before.2, r, exec_reach started, test.1, stopped, test.2,
    (shutdown_completes (exec_reach started) test.1 stopped).1⟩

end Iptv.Main
