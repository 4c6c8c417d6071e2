import Iptv.Lib.Product
import Iptv.Concurrency.SingleConsumer
import Iptv.Main.ConsumerLoop
import Iptv.Player.PlaybackOrchestrator

namespace Iptv.Main
open Iptv.Manifest Iptv.Network Iptv.Player
open Iptv.Decoder (ConstructionReply)
open ConcurrentQueue (popPiece)

/-- Where `main` stands: in front of a statement, or inside a call of the orchestrator. -/
inductive MainPoint
  | starting
  | inStart
  | waiting
  | inStop
  | leaving
  | joiningConsumer
  | inDestructor
  | exited
  | terminated
  deriving DecidableEq

/-- Where the consumer thread stands: at the head of its loop, inside of `queue.pop`,
or in front of what it has got from there. -/
inductive ConsumerPoint
  | loopTest
  | popping
  | popped (bundle : Option QueuedSegment)
  | ended
  deriving DecidableEq

structure ConsumerThread where
  consumer : Consumer
  point : ConsumerPoint := .loopTest

/-- The flag of the signal handler and the threads of `main.cpp`. -/
structure Threads where
  stopFlag : Bool := false
  main : MainPoint := .starting
  consumerThread : Option ConsumerThread := none

/-- The orchestrator, its queue with the one thread that pops from it, and the threads of `main.cpp`. -/
abbrev Program (Double : Type) :=
  Joined (PlaybackOrchestrator Double) (ConcurrentQueue.State Unit QueuedSegment) Threads

def Program.start (Double : Type) : Program Double where
  left := {}
  right := ConcurrentQueue.init Unit QueuedSegment
  control := {}

/-- SIGINT, and the steps of the threads. A step of the worker says whom its
`notify_one` wakes, in case it pushes. -/
inductive Action
  | interrupt
  | main
  | construct (video audio : ConstructionReply) (now : Int)
  | worker (event : Player.Event) (woken : Option Unit)
  | consumer
  | process (reply : BundleReply)
  | wakeSpuriously

inductive Seen
  | processed (queued : QueuedSegment) (iteration : Iteration)
  | finalMetrics (totalDecodedFrames : Option Int) (queueDepth : Nat)

/-- What is seen of the orchestrator, of the queue, and of the threads of `main.cpp`. -/
abbrev Trace := List (Joint Player.Seen (ConcurrentQueue.Seen Unit QueuedSegment) Seen)

abbrev ProgramMove := Move Command (ConcurrentQueue.Event Unit QueuedSegment) Threads Seen

/-- The statement of `start` or `stop` that comes next in a call, with what it does to the queue. -/
def callStatement : Control → Option (Command × Option (ConcurrentQueue.Event Unit QueuedSegment))
  | .joining _ => some (.join, none)
  | .clearing _ => some (.clear, some .clear)
  | .spawning _ => some (.spawn, none)
  | .idle => none

def Threads.finalMetrics (c : Threads) (queueDepth : Nat) : Seen :=
  .finalMetrics (c.consumerThread.bind (·.consumer.totalDecodedFrames)) queueDepth

variable {Double : Type}

def Program.stopping (p : Program Double) : Bool := p.control.stopFlag || p.right.stopped ()

/-- The process is gone: `main` has returned, or an exception has left a thread function. -/
def Program.over (p : Program Double) : Bool :=
  match p.control.main, p.left.session.point with
  | .exited, _ | .terminated, _ | _, .terminated => true
  | _, _ => false

/-- `main` from the call of `start` to its return. The call inside of the statement
goes on until the orchestrator is idle again. -/
def Program.mainMove (url : Text) (p : Program Double) : Option ProgramMove :=
  let c := p.control
  let statement := (callStatement p.left.control).map fun next =>
    ({ left := some next.1, right := next.2, control := c } : ProgramMove)
  match c.main with
  | .starting => some { left := some (.start url), control := { c with main := .inStart } }
  | .inStart => statement
  | .waiting => if c.stopFlag then some { left := some .stop, control := { c with main := .inStop } } else none
  | .inStop =>
    statement <|>
      if p.left.control = .idle ∧ p.right.holder = none then
        some { control := { c with main := .leaving }, seen := [c.finalMetrics p.right.queue.length] }
      else none
  | .leaving => some { right := some (.requestStop ()), control := { c with main := .joiningConsumer } }
  | .joiningConsumer =>
    if c.consumerThread.map (·.point) = some .ended then
      some { left := some .stop, control := { c with main := .inDestructor } }
    else none
  | .inDestructor =>
    statement <|> if p.left.control = .idle then some { control := { c with main := .exited } } else none
  | .exited | .terminated => none

/-- The decoders and the consumer thread, once `start` has returned. -/
def Program.constructMove (p : Program Double) (video audio : ConstructionReply) (now : Int) : Option ProgramMove :=
  if p.control.main = .inStart ∧ p.left.control = .idle then
    match Consumer.start video audio now with
    | .error _ => some { control := { p.control with main := .terminated } }
    | .ok consumer => some { control := { p.control with main := .waiting, consumerThread := some { consumer } } }
  else none

def Program.workerMove (p : Program Double) (event : Player.Event) (woken : Option Unit) : Option ProgramMove :=
  match event with
  | .worker =>
    match p.left.session.point with
    | .pushSegment _ _ _ queued =>
      some { left := some (.session .worker), right := some (.push queued woken), control := p.control }
    | .clearQueue _ _ _ => some { left := some (.session .worker), right := some .clear, control := p.control }
    | _ => some { left := some (.session .worker), control := p.control }
  | .transferDone transfer => some { left := some (.session (.transferDone transfer)), control := p.control }
  | .pop | .requestStop => none

section
variable (avutil : Decoder.AvUtil)

/-- A turn of the consumer's loop that needs no bundle. -/
def Threads.turn (c : Threads) (thread : ConsumerThread) (event : ConsumerEvent) (point : ConsumerPoint) :
    Option ProgramMove :=
  (consumerStep avutil thread.consumer event).map fun r =>
    { control := { c with consumerThread := some ⟨r.1, point⟩ } }

def Program.consumerMove (p : Program Double) (thread : ConsumerThread) : Option ProgramMove :=
  let goto (point : ConsumerPoint) : Threads := { p.control with consumerThread := some { thread with point } }
  match thread.point with
  | .loopTest =>
    if p.stopping then p.control.turn avutil thread .stopRequested .ended
    else some { right := some (.callPop ()), control := goto .popping }
  | .popping =>
    (popPiece (p.right.point ())).map fun piece =>
      match p.right.point () with
      | .taking =>
        { left := some (.session .pop), right := some piece, control := goto (.popped p.right.queue.head?) }
      | .returned =>
        { right := some piece, control := if p.right.stopped () then goto (.popped none) else p.control }
      | _ => { right := some piece, control := p.control }
  | .popped none =>
    if p.right.stopped () then p.control.turn avutil thread .stopRequested .ended
    else p.control.turn avutil thread .noBundle .loopTest
  | .popped (some _) | .ended => none

/-- The rest of the loop's body behind a bundle. -/
def Program.processMove (p : Program Double) (thread : ConsumerThread) (reply : BundleReply) :
    Option ProgramMove :=
  match thread.point with
  | .popped (some queued) =>
    match consumerStep avutil thread.consumer (.bundle reply) with
    | none => some { control := { p.control with main := .terminated } }
    | some (consumer, iterations) =>
      some {
        control := { p.control with consumerThread := some { consumer } }
        seen := iterations.map (.processed queued) }
  | _ => none

def Program.plan (url : Text) (p : Program Double) (action : Action) : Option ProgramMove :=
  if p.over then none
  else match action with
    | .interrupt =>
      if p.control.stopFlag then none else some { control := { p.control with stopFlag := true } }
    | .main => p.mainMove url
    | .construct video audio now => p.constructMove video audio now
    | .worker event woken => p.workerMove event woken
    | .consumer => p.control.consumerThread.bind (p.consumerMove avutil)
    | .process reply => p.control.consumerThread.bind (p.processMove avutil · reply)
    | .wakeSpuriously => some { right := some (.wakeSpuriously ()), control := p.control }

def Program.step [Zero Double] (lib : CxxStd Double) (policy : RetryPolicy) (url : Text) (p : Program Double)
    (action : Action) : Option (Program Double × Trace) :=
  joinedStep (PlaybackOrchestrator.step lib policy) ConcurrentQueue.step (Program.plan avutil url) p action

end

/-- The worker stands in front of a statement that locks the queue. -/
def touchesQueue : Point Double → Bool
  | .pushSegment _ _ _ _ | .clearQueue _ _ _ => true
  | _ => false

/-- The turns of the consumer's loop that need no bundle. -/
inductive ConsumerThread.Turn (p : Program Double) (thread : ConsumerThread) : ConsumerEvent → ConsumerPoint → Prop
  | loopEnded (point : thread.point = .loopTest) (stop : p.stopping = true) : Turn p thread .stopRequested .ended
  | broke (point : thread.point = .popped none) (stop : p.right.stopped () = true) : Turn p thread .stopRequested .ended
  | yielded (point : thread.point = .popped none) (running : p.right.stopped () = false) :
      Turn p thread .noBundle .loopTest

/-- Everything that a step of the program can do, one case for each statement of its threads. -/
inductive Planned (avutil : Decoder.AvUtil) (url : Text) (p : Program Double) :
    Action → ProgramMove → Prop
  | interrupted (fresh : p.control.stopFlag = false) :
      Planned avutil url p .interrupt { control := { p.control with stopFlag := true } }
  | startCalled (main : p.control.main = .starting) :
      Planned avutil url p .main
        { left := some (.start url), control := { p.control with main := .inStart } }
  | statement {next} (main : p.control.main = .inStart ∨ p.control.main = .inStop ∨ p.control.main = .inDestructor)
      (call : callStatement p.left.control = some next) :
      Planned avutil url p .main { left := some next.1, right := next.2, control := p.control }
  | stopCalled (main : p.control.main = .waiting) (flag : p.control.stopFlag = true) :
      Planned avutil url p .main { left := some .stop, control := { p.control with main := .inStop } }
  | reported (main : p.control.main = .inStop) (returned : p.left.control = .idle) (free : p.right.holder = none) :
      Planned avutil url p .main
        { control := { p.control with main := .leaving }
          seen := [p.control.finalMetrics p.right.queue.length] }
  | consumerStopped (main : p.control.main = .leaving) :
      Planned avutil url p .main
        { right := some (.requestStop ()), control := { p.control with main := .joiningConsumer } }
  | consumerJoined {thread} (main : p.control.main = .joiningConsumer)
      (created : p.control.consumerThread = some thread) (ended : thread.point = .ended) :
      Planned avutil url p .main { left := some .stop, control := { p.control with main := .inDestructor } }
  | exited (main : p.control.main = .inDestructor) (returned : p.left.control = .idle) :
      Planned avutil url p .main { control := { p.control with main := .exited } }
  | constructed {video audio now consumer} (main : p.control.main = .inStart) (returned : p.left.control = .idle)
      (made : Consumer.start video audio now = .ok consumer) :
      Planned avutil url p (.construct video audio now)
        { control := { p.control with main := .waiting, consumerThread := some { consumer } } }
  | constructionThrew {video audio now exception} (main : p.control.main = .inStart)
      (returned : p.left.control = .idle) (failed : Consumer.start video audio now = .error exception) :
      Planned avutil url p (.construct video audio now) { control := { p.control with main := .terminated } }
  | pushed {ctx playlist rest queued woken} (point : p.left.session.point = .pushSegment ctx playlist rest queued) :
      Planned avutil url p (.worker .worker woken)
        { left := some (.session .worker), right := some (.push queued woken), control := p.control }
  | cleared {ctx playlist nextUri woken} (point : p.left.session.point = .clearQueue ctx playlist nextUri) :
      Planned avutil url p (.worker .worker woken)
        { left := some (.session .worker), right := some .clear, control := p.control }
  | worked {woken} (keeps : touchesQueue p.left.session.point = false) :
      Planned avutil url p (.worker .worker woken) { left := some (.session .worker), control := p.control }
  | transferred {transfer woken} :
      Planned avutil url p (.worker (.transferDone transfer) woken)
        { left := some (.session (.transferDone transfer)), control := p.control }
  | turned {thread event consumer point} (created : p.control.consumerThread = some thread)
      (turn : thread.Turn p event point)
      (run : consumerStep avutil thread.consumer event = some (consumer, [])) :
      Planned avutil url p .consumer
        { control := { p.control with consumerThread := some ⟨consumer, point⟩ } }
  | popCalled {thread} (created : p.control.consumerThread = some thread) (point : thread.point = .loopTest)
      (running : p.stopping = false) :
      Planned avutil url p .consumer
        { right := some (.callPop ())
          control := { p.control with consumerThread := some { thread with point := .popping } } }
  | popMoved {thread piece} (created : p.control.consumerThread = some thread) (point : thread.point = .popping)
      (next : popPiece (p.right.point ()) = some piece) (stays : p.right.point () ≠ .taking)
      (goesOn : p.right.point () = .returned → p.right.stopped () = false) :
      Planned avutil url p .consumer { right := some piece, control := p.control }
  | popCancelled {thread} (created : p.control.consumerThread = some thread) (point : thread.point = .popping)
      (returned : p.right.point () = .returned) (stopped : p.right.stopped () = true) :
      Planned avutil url p .consumer
        { right := some (.testStop ())
          control := { p.control with consumerThread := some { thread with point := .popped none } } }
  | popTook {thread} (created : p.control.consumerThread = some thread) (point : thread.point = .popping)
      (taking : p.right.point () = .taking) :
      Planned avutil url p .consumer
        { left := some (.session .pop)
          right := some (.take ())
          control := { p.control with consumerThread := some { thread with point := .popped p.right.queue.head? } } }
  | processed {thread queued reply consumer iterations} (created : p.control.consumerThread = some thread)
      (point : thread.point = .popped (some queued))
      (run : consumerStep avutil thread.consumer (.bundle reply) = some (consumer, iterations)) :
      Planned avutil url p (.process reply)
        { control := { p.control with consumerThread := some { consumer } }
          seen := iterations.map (.processed queued) }
  | processingThrew {thread queued reply} (created : p.control.consumerThread = some thread)
      (point : thread.point = .popped (some queued))
      (failed : consumerStep avutil thread.consumer (.bundle reply) = none) :
      Planned avutil url p (.process reply) { control := { p.control with main := .terminated } }
  | woke : Planned avutil url p .wakeSpuriously
      { right := some (.wakeSpuriously ()), control := p.control }

section
variable {avutil : Decoder.AvUtil} {url : Text} {p : Program Double}
  {move : ProgramMove}

theorem statement_cases
    (run : ((callStatement p.left.control).map fun next =>
      ({ left := some next.1, right := next.2, control := p.control } : ProgramMove)) = some move)
    (main : p.control.main = .inStart ∨ p.control.main = .inStop ∨ p.control.main = .inDestructor) :
    Planned avutil url p .main move := by
  obtain ⟨next, call, same⟩ := Option.map_eq_some_iff.mp run
  cases same
  exact .statement main call

theorem mainMove_cases (run : p.mainMove url = some move) : Planned avutil url p .main move := by
  unfold Program.mainMove at run
  dsimp only at run
  split at run
  · rename_i main
    cases run
    exact .startCalled main
  · rename_i main
    exact statement_cases run (.inl main)
  · rename_i main
    split at run <;> rename_i flag <;> cases run
    exact .stopCalled main flag
  · rename_i main
    rcases (Option.orElse_eq_some _ _ _).mp run with inside | ⟨_, after⟩
    · exact statement_cases inside (.inr (.inl main))
    · split at after <;> rename_i returned <;> cases after
      exact .reported main returned.1 returned.2
  · rename_i main
    cases run
    exact .consumerStopped main
  · rename_i main
    split at run <;> rename_i ended <;> cases run
    obtain ⟨thread, created, same⟩ := Option.map_eq_some_iff.mp ended
    exact .consumerJoined main created same
  · rename_i main
    rcases (Option.orElse_eq_some _ _ _).mp run with inside | ⟨_, after⟩
    · exact statement_cases inside (.inr (.inr main))
    · split at after <;> rename_i returned <;> cases after
      exact .exited main returned
  · cases run
  · cases run

theorem constructMove_cases {video audio : ConstructionReply} {now : Int}
    (run : p.constructMove video audio now = some move) :
    Planned avutil url p (.construct video audio now) move := by
  unfold Program.constructMove at run
  split at run
  · rename_i ready
    split at run <;> rename_i made <;> cases run
    · exact .constructionThrew ready.1 ready.2 made
    · exact .constructed ready.1 ready.2 made
  · cases run

theorem workerMove_cases {event : Player.Event} {woken : Option Unit} (run : p.workerMove event woken = some move) :
    Planned avutil url p (.worker event woken) move := by
  unfold Program.workerMove at run
  split at run
  · split at run
    · rename_i point
      cases run
      exact .pushed point
    · rename_i point
      cases run
      exact .cleared point
    · rename_i noPush noClear
      cases run
      refine .worked ?_
      cases point : p.left.session.point with
      | pushSegment => exact absurd point (noPush _ _ _ _)
      | clearQueue => exact absurd point (noClear _ _ _)
      | _ => rfl
  · cases run
    exact .transferred
  · cases run
  · cases run

/-- Without a bundle the consumer's turn reports nothing and never throws. -/
theorem turn_cases {thread : ConsumerThread} {event : ConsumerEvent} {point : ConsumerPoint}
    (run : p.control.turn avutil thread event point = some move) (created : p.control.consumerThread = some thread)
    (turn : thread.Turn p event point) : Planned avutil url p .consumer move := by
  obtain ⟨⟨consumer, iterations⟩, stepped, same⟩ := Option.map_eq_some_iff.mp run
  cases same
  have silent : iterations = [] := by
    unfold consumerStep at stepped
    split at stepped
    · cases stepped
    · cases turn <;> cases stepped <;> rfl
  subst silent
  exact .turned created turn stepped

theorem consumerMove_cases {thread : ConsumerThread} (run : p.consumerMove avutil thread = some move)
    (created : p.control.consumerThread = some thread) : Planned avutil url p .consumer move := by
  unfold Program.consumerMove at run
  dsimp only at run
  split at run
  · rename_i point
    split at run
    · rename_i stop
      exact turn_cases run created (.loopEnded point stop)
    · rename_i running
      cases run
      exact .popCalled created point (by simpa using running)
  · rename_i point
    obtain ⟨piece, next, same⟩ := Option.map_eq_some_iff.mp run
    split at same
    · rename_i taking
      rw [taking] at next
      cases next
      cases same
      exact .popTook created point taking
    · rename_i returned
      cases stopped : p.right.stopped () with
      | true =>
        rw [returned] at next
        cases next
        rw [stopped] at same
        cases same
        exact .popCancelled created point returned stopped
      | false =>
        rw [stopped] at same
        cases same
        exact .popMoved created point next (by simp [returned]) fun _ => stopped
    · rename_i stays other
      cases same
      exact .popMoved created point next stays fun returned => absurd returned other
  · rename_i point
    split at run
    · rename_i stop
      exact turn_cases run created (.broke point stop)
    · rename_i running
      exact turn_cases run created (.yielded point (by simpa using running))
  · cases run
  · cases run

theorem processMove_cases {thread : ConsumerThread} {reply : BundleReply}
    (run : p.processMove avutil thread reply = some move)
    (created : p.control.consumerThread = some thread) : Planned avutil url p (.process reply) move := by
  unfold Program.processMove at run
  split at run
  · rename_i point
    split at run
    · rename_i failed
      cases run
      exact .processingThrew created point failed
    · rename_i stepped
      cases run
      exact .processed created point stepped
  · cases run

/-- The inversion of the plan; later proofs never unfold it. -/
theorem plan_cases {action : Action} (run : p.plan avutil url action = some move) :
    p.over = false ∧ Planned avutil url p action move := by
  unfold Program.plan at run
  split at run
  · cases run
  · rename_i alive
    refine ⟨by simpa using alive, ?_⟩
    cases action with
    | interrupt =>
      dsimp only at run
      split at run <;> rename_i fresh <;> cases run
      exact .interrupted (by simpa using fresh)
    | main => exact mainMove_cases run
    | construct => exact constructMove_cases run
    | worker => exact workerMove_cases run
    | consumer =>
      obtain ⟨thread, created, moved⟩ := Option.bind_eq_some_iff.mp run
      exact consumerMove_cases moved created
    | process =>
      obtain ⟨thread, created, moved⟩ := Option.bind_eq_some_iff.mp run
      exact processMove_cases moved created
    | wakeSpuriously =>
      cases run
      exact .woke

end

end Iptv.Main
