import Iptv.Main.ProgramRuns

namespace Iptv.Main
open Iptv.Manifest Iptv.Network Iptv.Player
variable {Double : Type} [Zero Double] {lib : CxxStd Double} {policy : RetryPolicy}
  {avutil : Decoder.AvUtil} {url : Text} {p p' : Program Double}
  {action : Action} {seen new : Trace}

/-- The consumer thread has no step that it could take. -/
def Blocked (avutil : Decoder.AvUtil) (lib : CxxStd Double)
    (policy : RetryPolicy) (url : Text) (p : Program Double) : Prop :=
  ¬Enabled avutil lib policy url p .consumer ∧ ∀ reply, ¬Enabled avutil lib policy url p (.process reply)

theorem not_enabled (unplanned : p.plan avutil url action = none) :
    ¬Enabled avutil lib policy url p action := by
  simp [Enabled, Program.step, joinedStep, unplanned]

theorem blocked_of_point {thread : ConsumerThread} (created : p.control.consumerThread = some thread)
    (point : thread.point = .ended ∨ thread.point = .popping ∧ p.right.point () = .asleep) :
    Blocked avutil lib policy url p := by
  refine ⟨not_enabled ?_, fun reply => not_enabled ?_⟩
  · rcases point with ended | ⟨popping, asleep⟩
    · simp [Program.plan, created, Program.consumerMove, ended]
    · simp [Program.plan, created, Program.consumerMove, popping, asleep, ConcurrentQueue.popPiece]
  · rcases point with ended | ⟨popping, _⟩
    · simp [Program.plan, created, Program.processMove, ended]
    · simp [Program.plan, created, Program.processMove, popping]

theorem not_blocked (sound : p.Sound policy) (alive : p.over = false) {thread : ConsumerThread}
    (created : p.control.consumerThread = some thread) (unended : thread.point ≠ .ended)
    (awake : p.right.point () ≠ .asleep) : ¬Blocked avutil lib policy url p := by
  intro blocked
  rcases consumer_goes_on sound alive created unended awake refusedBundle with goes | processes
  · exact blocked.1 goes
  · exact blocked.2 _ processes

/-- A bundle in the queue is on its way: the consumer is blocked only when its loop has
ended or while it sleeps, and it sleeps only over an empty queue, with the mutex free and
no stop requested. -/
theorem consumer_blocked_iff {thread : ConsumerThread}
    (reach : Reach (Program.step avutil lib policy url) anyStep (Program.start Double) seen p)
    (alive : p.over = false) (created : p.control.consumerThread = some thread) :
    (Blocked avutil lib policy url p ↔ thread.point = .ended ∨ p.right.point () = .asleep) ∧
      (p.right.point () = .asleep →
        p.left.session.segmentQueue = [] ∧ p.right.holder = none ∧ p.right.stopped () = false) := by
  have sound := sound_reach reach
  refine ⟨⟨fun blocked => ?_, fun point => ?_⟩, fun asleep => ?_⟩
  · by_contra active
    obtain ⟨unended, awake⟩ := not_or.mp active
    exact not_blocked sound alive created unended awake blocked
  · refine blocked_of_point created (point.imp_right fun asleep => ⟨?_, asleep⟩)
    have inside : p.right.point () ≠ .outside := by simp [asleep]
    simpa [created] using sound.popping.mpr inside
  · obtain ⟨empty, running⟩ := sound.solo.asleep asleep
    refine ⟨sound.queue.trans empty, ?_, running⟩
    by_contra holds
    have lock := sound.solo.held holds
    rw [asleep] at lock
    cases lock

theorem consumer_blocked_asleep :
    ∃ seen p thread, Reach (Program.step .plain CxxStd.plain {} (text "http://h/m.m3u8")) anyStep
        (Program.start Rat) seen p ∧ p.over = false ∧ p.control.consumerThread = some thread ∧
      p.right.point () = .asleep ∧
      (Blocked .plain CxxStd.plain {} (text "http://h/m.m3u8") p ↔
        thread.point = .ended ∨ p.right.point () = .asleep) := by
  obtain ⟨seen, p, reach, test⟩ := reach_of_exec
    (Program.step .plain CxxStd.plain {} (text "http://h/m.m3u8")) anyStep (Program.start Rat)
    (startUp ++ [.consumer, .consumer, .consumer, .consumer])
    (fun r => !r.2.over && r.2.control.consumerThread.isSome && r.2.right.point () == .asleep) (by decide +kernel)
  simp only [Bool.and_eq_true, Bool.not_eq_true', beq_iff_eq] at test
  obtain ⟨⟨alive, present⟩, asleep⟩ := test
  obtain ⟨thread, created⟩ := Option.isSome_iff_exists.mp present
  exact ⟨seen, p, thread, reach, alive, created, asleep, (consumer_blocked_iff reach alive created).1⟩

/-- Nothing but the signal or a spurious wakeup can go on. -/
def Quiescent (avutil : Decoder.AvUtil) (lib : CxxStd Double)
    (policy : RetryPolicy) (url : Text) (p : Program Double) : Prop :=
  ∀ action, action ≠ .interrupt → action.credit = 0 → ¬Enabled avutil lib policy url p action

/-- The start of the program goes on, or what it waits for does. -/
theorem start_goes_on (sound : p.Sound policy) (alive : p.over = false) (main : p.control.main = .inStart)
    (free : p.right.holder = none) :
    ∃ action, action ≠ .interrupt ∧ action.credit = 0 ∧ Enabled avutil lib policy url p action := by
  by_cases returned : p.left.control = .idle
  · let video : Decoder.ConstructionReply := ⟨⟨true, true, true⟩, true, true⟩
    obtain ⟨threads, planned⟩ : ∃ threads, p.plan avutil url (.construct video video 0) =
        some { control := threads } := by
      unfold Program.plan Program.constructMove
      rw [alive, if_neg Bool.false_ne_true]
      dsimp only
      rw [if_pos ⟨main, returned⟩]
      split <;> exact ⟨_, rfl⟩
    exact ⟨_, by simp, rfl, enabled_of_plan _ planned (by rintro command ⟨⟩) (by rintro e ⟨⟩)⟩
  · exact call_goes_on sound alive (.inl main) returned free

/-- Without the signal no stop is requested of the consumer, and it does not end. -/
def Program.Signalled (p : Program Double) : Prop :=
  p.right.stopped () = true ∨ p.consumerEnded → p.control.stopFlag = true

theorem Program.Signalled.step (old : p.Signalled) (sound : p.Sound policy)
    (run : p.step avutil lib policy url action = some (p', new)) : p'.Signalled := by
  obtain ⟨move, _, planned, moved⟩ := program_cases run
  have flag : p.control.stopFlag = true → p'.control.stopFlag = true := by
    rw [moved.control]
    cases planned <;> first | exact id | exact fun _ => rfl
  rintro (stopped | ended)
  · by_cases before : p.right.stopped () = true
    · exact flag (old (.inl before))
    · cases taken : move.right with
      | none => exact absurd (moved.right_kept taken ▸ stopped) before
      | some e =>
        obtain ⟨seen, stepped⟩ := moved.event taken
        rw [(ConcurrentQueue.solo_cases sound.solo.sleeper stepped).2.2, Bool.or_eq_true] at stopped
        have requests := stopped.resolve_left before
        cases planned with
        | consumerStopped main => exact flag (sound.halted (by rw [main]; rfl)).1
        | @statement next main call =>
          cases control : p.left.control <;> rw [control] at call <;> cases call <;> cases taken
          cases requests
        | @popMoved thread piece created point next =>
          cases here : p.right.point () <;> rw [here] at next <;> cases next <;> cases taken <;> cases requests
        | _ => cases taken <;> cases requests
  · by_cases before : p.consumerEnded
    · exact flag (old (.inr before))
    · unfold Program.consumerEnded at ended before
      rw [moved.control] at ended
      cases planned with
      | @turned thread event consumer point created turn =>
        refine flag ?_
        cases turn with
        | loopEnded here stop =>
          unfold Program.stopping at stop
          cases signalled : p.control.stopFlag with
          | true => rfl
          | false =>
            rw [signalled, Bool.false_or] at stop
            rw [← signalled]
            exact old (.inl stop)
        | broke here stop => exact old (.inl stop)
        | yielded => cases ended
      | constructed | popCalled | popCancelled | popTook | processed => cases ended
      | interrupted | startCalled | statement | stopCalled | reported | consumerStopped | consumerJoined | exited
      | constructionThrew | pushed | cleared | worked | transferred | popMoved | processingThrew | woke =>
        exact absurd ended before

theorem signalled_reach
    (reach : Reach (Program.step avutil lib policy url) anyStep (Program.start Double) seen p) : p.Signalled := by
  have both : p.Sound policy ∧ p.Signalled := by
    refine reach.invariant (fun s => s.Sound policy ∧ s.Signalled) ⟨start_sound policy, ?_⟩
      fun old _ run => ⟨old.1.step run, old.2.step old.1 run⟩
    rintro (⟨⟨⟩⟩ | ⟨⟨⟩⟩)
  exact both.2

/-- All is played: `main` waits for the signal, the worker has ended, and the consumer sleeps. -/
structure Program.Idle (p : Program Double) : Prop where
  main : p.control.main = .waiting
  unsignalled : p.control.stopFlag = false
  ended : p.left.session.point = .finished
  asleep : p.right.point () = .asleep

/-- A program that is neither over nor idle goes on. -/
theorem Program.Sound.over_or_idle (sound : p.Sound policy) (signalled : p.Signalled)
    (quiescent : Quiescent avutil lib policy url p) : p.over = true ∨ p.Idle := by
  cases alive : p.over with
  | true => exact .inl rfl
  | false =>
    refine .inr ?_
    have free : p.right.holder = none := by
      by_contra holds
      obtain ⟨piece, next, _⟩ := sound.solo.holder_goes_on holds
      exact quiescent .consumer (by simp) rfl (consumer_pops sound alive next)
    have main : p.control.main = .waiting := by
      cases main : p.control.main with
      | waiting => rfl
      | starting =>
        have stage := sound.stage
        rw [main] at stage
        refine absurd (enabled_of_plan
          { left := some (.start url), control := { p.control with main := .inStart } } ?_ ?_
          (by rintro e ⟨⟩)) (quiescent .main (by simp) rfl)
        · simp [Program.plan, alive, Program.mainMove, main]
        · rintro command ⟨⟩
          simp [PlaybackOrchestrator.step, stage.1]
      | inStart =>
        obtain ⟨action, other, paid, enabled⟩ := start_goes_on sound alive main free
        exact absurd enabled (quiescent action other paid)
      | exited | terminated => simp [Program.over, main] at alive
      | inStop | leaving | joiningConsumer | inDestructor =>
        obtain ⟨action, other, paid, enabled⟩ := sound.progress (by rw [main]; rfl) (by rw [main]; simp)
        exact absurd enabled (quiescent action other paid)
    have ended : p.left.session.point = .finished := by
      by_contra unended
      obtain ⟨event, woken, works⟩ : ∃ event woken, Enabled avutil lib policy url p (.worker event woken) :=
        worker_goes_on sound alive unended free
      exact quiescent _ (by simp) rfl works
    have stage := sound.stage
    rw [main] at stage
    obtain ⟨thread, created⟩ := Option.ne_none_iff_exists'.mp stage.2
    have unsignalled : p.control.stopFlag ≠ true := by
      intro flag
      refine absurd (enabled_of_plan
        { left := some .stop, control := { p.control with main := .inStop } } ?_ ?_ (by rintro e ⟨⟩))
        (quiescent .main (by simp) rfl)
      · simp [Program.plan, alive, Program.mainMove, main, flag]
      · rintro command ⟨⟩
        simp [PlaybackOrchestrator.step, stage.1]
    have running : thread.point ≠ .ended := by
      intro gone
      refine unsignalled (signalled (.inr ?_))
      rw [Program.consumerEnded, created, Option.map_some, gone]
    have asleep : p.right.point () = .asleep := by
      by_contra awake
      exact not_blocked sound alive created running awake
        ⟨quiescent _ (by simp) rfl, fun reply => quiescent (.process reply) (by simp) rfl⟩
    exact ⟨main, by simpa using unsignalled, ended, asleep⟩

/-- An idle program can only be interrupted. -/
theorem Program.Idle.quiescent (idle : p.Idle) (sound : p.Sound policy) : Quiescent avutil lib policy url p := by
  obtain ⟨main, unsignalled, ended, asleep⟩ := idle
  have popping : p.control.consumerThread.map (·.point) = some .popping := sound.popping.mpr (by simp [asleep])
  obtain ⟨thread, created, point⟩ := Option.map_eq_some_iff.mp popping
  have blocked : Blocked avutil lib policy url p := blocked_of_point created (.inr ⟨point, asleep⟩)
  intro action other paid enabled
  cases action with
  | interrupt => exact other rfl
  | main => exact not_enabled (by simp [Program.plan, Program.mainMove, main, unsignalled]) enabled
  | construct => exact not_enabled (by simp [Program.plan, Program.constructMove, main]) enabled
  | consumer => exact blocked.1 enabled
  | process reply => exact blocked.2 reply enabled
  | wakeSpuriously => cases paid
  | worker event woken =>
    obtain ⟨⟨p', new⟩, run⟩ := Option.isSome_iff_exists.mp enabled
    obtain ⟨move, _, planned, moved⟩ := program_cases run
    cases planned with
    | pushed here | cleared here =>
      rw [ended] at here
      cases here
    | worked =>
      obtain ⟨seen, worked, _⟩ := moved.session rfl
      simp [Player.step, Session.work, ended] at worked
    | transferred =>
      obtain ⟨seen, worked, _⟩ := moved.session rfl
      simp [Player.step, Session.transferDone, ended] at worked

/-- What has been pushed by then was cleared or processed. -/
theorem Program.Idle.accounts (idle : p.Idle)
    (reach : Reach (Program.step avutil lib policy url) anyStep (Program.start Double) seen p) :
    pushed seen = removed seen ∧ received seen = (processed seen).map (·.1) := by
  have sound := sound_reach reach
  obtain ⟨balance, taken⟩ := Main.accounts reach
  have popping : p.control.consumerThread.map (·.point) = some .popping :=
    sound.popping.mpr (by simp [idle.asleep])
  rw [balance, (sound.solo.asleep idle.asleep).1, taken, Program.inHand, popping]
  exact ⟨List.append_nil _, List.append_nil _⟩

/-- The program never deadlocks: the states in which nothing can go on but the signal are
those in which the process is over or idle, and when it is idle, every bundle that was
pushed has been cleared or processed. -/
theorem quiescent_iff
    (reach : Reach (Program.step avutil lib policy url) anyStep (Program.start Double) seen p) :
    (Quiescent avutil lib policy url p ↔ p.over = true ∨ p.Idle) ∧
      (p.Idle → pushed seen = removed seen ∧ received seen = (processed seen).map (·.1)) := by
  have sound := sound_reach reach
  refine ⟨⟨sound.over_or_idle (signalled_reach reach), ?_⟩, fun idle => idle.accounts reach⟩
  rintro (ended | idle)
  · intro action _ _ enabled
    exact not_enabled (by simp [Program.plan, ended]) enabled
  · exact idle.quiescent sound

/-- Two segments are played to the end. -/
def playedToTheEnd : List Action :=
  firstBundleOf twoSegmentVod ++ [.process emptyBundle] ++ secondDownload.map (.worker · none) ++
    [.consumer, .consumer, .consumer, .consumer, .consumer, .consumer, .process emptyBundle, .worker .worker none,
      .worker .worker none, .consumer, .consumer, .consumer, .consumer]

theorem quiescent_iff_played :
    ∃ seen p, Reach (Program.step .plain CxxStd.plain {} (text "http://h/m.m3u8")) anyStep
        (Program.start Rat) seen p ∧ (processed seen).length = 2 ∧
      Quiescent .plain CxxStd.plain {} (text "http://h/m.m3u8") p ∧
      received seen = (processed seen).map (·.1) := by
  obtain ⟨seen, p, reach, test⟩ := reach_of_exec
    (Program.step .plain CxxStd.plain {} (text "http://h/m.m3u8")) anyStep (Program.start Rat)
    playedToTheEnd
    (fun r => (processed r.1).length == 2 && r.2.control.main == .waiting && !r.2.control.stopFlag &&
      r.2.left.session.point == .finished && r.2.right.point () == .asleep) (by decide +kernel)
  simp only [Bool.and_eq_true, Bool.not_eq_true', beq_iff_eq] at test
  obtain ⟨⟨⟨⟨two, main⟩, unsignalled⟩, ended⟩, asleep⟩ := test
  have idle : p.Idle := ⟨main, unsignalled, ended, asleep⟩
  obtain ⟨states, done⟩ := quiescent_iff reach
  exact ⟨seen, p, reach, two, states.mpr (.inr idle), (done idle).2⟩

end Iptv.Main
