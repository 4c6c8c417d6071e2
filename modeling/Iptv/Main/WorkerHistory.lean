import Iptv.Main.BundleIntegrity

namespace Iptv.Main
open Iptv.Manifest Iptv.Network Iptv.Player
variable {Double : Type}

/-- A condition on the events of the worker's session, for the steps of the program. -/
def OfSession (allowed : Session Double → Player.Event → Prop) (p : Program Double) : Action → Prop
  | .worker event _ => allowed p.left.session event
  | .interrupt | .main | .construct _ _ _ | .consumer | .process _ | .wakeSpuriously => True

instance (allowed : Session Double → Player.Event → Prop) [∀ s e, Decidable (allowed s e)] (p : Program Double)
    (action : Action) : Decidable (OfSession allowed p action) :=
  match action with
  | .worker event _ => inferInstanceAs (Decidable (allowed p.left.session event))
  | .interrupt | .main | .construct _ _ _ | .consumer | .process _ | .wakeSpuriously => inferInstanceAs (Decidable True)

/-- A property of what the worker has pushed, of its stop flag and of its point, that
holds when it starts and that its steps keep. -/
structure KeptByWorker [Zero Double] (lib : CxxStd Double) (policy : RetryPolicy) (url : Text)
    (allowed : Session Double → Player.Event → Prop) (Holds : List QueuedSegment → Bool → Point Double → Prop) :
    Prop where
  spawned : Holds [] false (.fetch (.master url) (.start policy url))
  stopped : ∀ {done stopRequested point}, Holds done stopRequested point → Holds done true point
  popAllowed : ∀ s, allowed s .pop
  worked : ∀ {done s s' e told}, Holds done s.stopRequested s.point → allowed s e →
    Player.step lib policy s e = some (s', told) →
    Holds (done ++ sent s.point (.session e)) s'.stopRequested s'.point

/-- Until `main` leaves its loop on the flag nobody disturbs the worker. -/
def Undisturbed (main : MainPoint) (o : PlaybackOrchestrator Double) : Prop :=
  main.late = false → main ≠ .terminated →
    o.control = .idle ∧ o.joinable = true ∧ o.session.stopRequested = false

/-- The program has one worker: before it is there nothing is pushed, and afterwards
none is started again. -/
inductive WorkerHistory (url : Text) (Holds : List QueuedSegment → Bool → Point Double → Prop)
    (done : List QueuedSegment) (main : MainPoint) (o : PlaybackOrchestrator Double) : Prop
  | unborn (nothing : done = []) (ended : o.session.point = .finished) (alone : o.joinable = false)
      (awaited : main = .starting ∨ main = .terminated ∨ restart o.control = some url)
  | born (started : main ≠ .starting) (once : restart o.control = none) (running : Undisturbed main o)
      (holds : Holds done o.session.stopRequested o.session.point)

section
variable {avutil : Decoder.AvUtil} {url : Text} {p p' : Program Double}
  {action : Action} {move : ProgramMove} {permits : Session Double → Player.Event → Prop}

/-- No step leads `main` back in front of `start`. -/
theorem Planned.never_starting (planned : Planned avutil url p action move)
    (started : p.control.main ≠ .starting) : move.control.main ≠ .starting := by
  cases planned <;> first | exact started | simp

/-- While `main` is in front of `start`, the call is all that it does. -/
theorem Planned.starting (planned : Planned avutil url p action move) (main : p.control.main = .starting) :
    move.left = some (.start url) ∨
      (move.control.main = .starting ∨ move.control.main = .terminated) ∧
        ∀ command, move.left = some command → ∃ e, command = .session e := by
  cases planned with
  | startCalled => exact .inl rfl
  | statement other => simp [main] at other
  | stopCalled other | reported other | consumerStopped other | consumerJoined other | exited other
  | constructed other | constructionThrew other => simp [main] at other
  | processingThrew => exact .inr ⟨.inr rfl, by simp⟩
  | pushed | cleared | worked | transferred | popTook =>
    refine .inr ⟨.inl main, ?_⟩
    rintro command ⟨⟩
    exact ⟨_, rfl⟩
  | interrupted | turned | popCalled | popMoved | popCancelled | processed | woke => exact .inr ⟨.inl main, by simp⟩

theorem Planned.start_once {masterUrl : Text} (planned : Planned avutil url p action move)
    (taken : move.left = some (.start masterUrl)) : masterUrl = url ∧ p.control.main = .starting := by
  cases planned with
  | startCalled main =>
    cases taken
    exact ⟨rfl, main⟩
  | @statement next main call => cases control : p.left.control <;> rw [control] at call <;> cases call <;> cases taken
  | _ => cases taken

theorem Planned.allowed {e : Player.Event} (planned : Planned avutil url p action move)
    (guarded : OfSession permits p action) (taken : move.left = some (.session e)) :
    e = .pop ∨ permits p.left.session e := by
  cases planned with
  | pushed | cleared | worked | transferred =>
    cases taken
    exact .inr guarded
  | popTook => exact .inl (by cases taken; rfl)
  | @statement next main call => cases control : p.left.control <;> rw [control] at call <;> cases call <;> cases taken
  | _ => cases taken

end

variable [Zero Double] {lib : CxxStd Double} {policy : RetryPolicy}
  {avutil : Decoder.AvUtil} {url : Text} {p p' : Program Double}
  {action : Action} {seen new : Trace} {allowed : Session Double → Player.Event → Prop}
  {Holds : List QueuedSegment → Bool → Point Double → Prop} {done : List QueuedSegment}

omit [Zero Double] in
theorem sent_finished (command : Command) : sent (.finished : Point Double) command = [] := by
  cases command with
  | session e => cases e <;> rfl
  | start | stop | join | clear | spawn => rfl

theorem restart_afterStop (next : Option Text) : restart (afterStop next) = next := by
  cases next <;> rfl

/-- A command that starts no worker keeps what holds of the one that is there. -/
theorem KeptByWorker.command {o o' : PlaybackOrchestrator Double} {command : Command} {told : List Player.Seen}
    (kept : KeptByWorker lib policy url allowed Holds) (holds : Holds done o.session.stopRequested o.session.point)
    (once : restart o.control = none) (other : ∀ masterUrl, command ≠ .start masterUrl)
    (guarded : ∀ e, command = .session e → e = .pop ∨ allowed o.session e)
    (run : o.step lib policy command = some (o', told)) :
    restart o'.control = none ∧
      Holds (done ++ sent o.session.point command) o'.session.stopRequested o'.session.point := by
  cases owner_cases run with
  | started => exact absurd rfl (other _)
  | stopping idle =>
    rw [sent, List.append_nil]
    refine ⟨(beginStop_control o none).1, ?_⟩
    unfold PlaybackOrchestrator.beginStop
    split
    · exact kept.stopped holds
    · exact holds
  | joined control =>
    rw [control] at once
    rw [sent, List.append_nil]
    exact ⟨once, holds⟩
  | emptied control =>
    rw [control] at once
    rw [sent, List.append_nil]
    exact ⟨(restart_afterStop _).trans once, holds⟩
  | spawned control =>
    rw [control] at once
    cases once
  | @worked e session told inner =>
    refine ⟨once, kept.worked holds ?_ inner⟩
    rcases guarded e rfl with rfl | permitted
    · exact kept.popAllowed _
    · exact permitted

theorem stopRequested_step {s s' : Session Double} {e : Player.Event} {told : List Player.Seen}
    (other : e ≠ .requestStop)
    (run : Player.step lib policy s e = some (s', told)) : s'.stopRequested = s.stopRequested := by
  cases step_cases run with
  | stopped => exact absurd rfl other
  | popped | began | retried | masterRejected | masterThrew | masterAccepted | variantFailed | variantLoaded
  | segmentFailed | segmentLoaded | cancelled | variantStarted | segmentsEnded | segmentSkipped | segmentStarted
  | pushed | threw | kept | switched | cleared => rfl

theorem Moved.undisturbed {move : ProgramMove} (moved : Moved lib policy p p' move new)
    (planned : Planned avutil url p action move) (old : Undisturbed p.control.main p.left)
    (started : p.control.main ≠ .starting) : Undisturbed move.control.main p'.left := by
  intro early alive
  have session {e : Player.Event} (taken : move.left = some (.session e)) (other : e ≠ .requestStop)
      (main : move.control.main = p.control.main) :
      p'.left.control = .idle ∧ p'.left.joinable = true ∧ p'.left.session.stopRequested = false := by
    obtain ⟨told, run, control, joinable⟩ := moved.session taken
    rw [main] at early alive
    rw [control, joinable, stopRequested_step other run]
    exact old early alive
  cases planned with
  | startCalled main => exact absurd main started
  | statement main call =>
    rw [(old early alive).1] at call
    cases call
  | stopCalled | consumerJoined | reported | consumerStopped | exited => cases early
  | constructionThrew | processingThrew => exact absurd rfl alive
  | constructed main =>
    rw [moved.left_kept rfl]
    rw [main] at old
    exact old rfl (by simp)
  | pushed | cleared | worked | transferred | popTook => exact session rfl (by simp) rfl
  | interrupted | turned | popCalled | popMoved | popCancelled | processed | woke =>
    rw [moved.left_kept rfl]
    exact old early alive

theorem WorkerHistory.step (kept : KeptByWorker lib policy url allowed Holds)
    (old : WorkerHistory url Holds done p.control.main p.left) (guarded : OfSession allowed p action)
    (run : p.step avutil lib policy url action = some (p', new)) :
    WorkerHistory url Holds (done ++ pushed new) p'.control.main p'.left := by
  obtain ⟨move, alive, planned, moved⟩ := program_cases run
  rw [moved.pushed_eq planned, moved.control]
  cases old with
  | born started once running holds =>
    have undisturbed := moved.undisturbed planned running started
    have never := planned.never_starting started
    cases taken : move.left with
    | none =>
      rw [moved.left_kept taken] at undisturbed ⊢
      rw [Option.elim_none, List.append_nil]
      exact .born never once undisturbed holds
    | some command =>
      obtain ⟨told, ran⟩ := moved.command taken
      have other (masterUrl : Text) : command ≠ .start masterUrl := by
        rintro rfl
        exact started (planned.start_once taken).2
      obtain ⟨none, holds⟩ := kept.command holds once other
        (fun e same => planned.allowed guarded (taken.trans (congrArg some same))) ran
      exact .born never none undisturbed holds
  | unborn nothing ended alone awaited =>
    subst nothing
    have gone : p.control.main ≠ .terminated := by
      intro gone
      simp [Program.over, gone] at alive
    have onwards (other : move.left ≠ some (.start url)) :
        move.control.main = .starting ∨ move.control.main = .terminated ∨ restart p.left.control = some url := by
      rcases awaited with main | terminated | waits
      · rcases planned.starting main with start | ⟨stays | exits, _⟩
        · exact absurd start other
        · exact .inl stays
        · exact .inr (.inl exits)
      · exact absurd terminated gone
      · exact .inr (.inr waits)
    cases taken : move.left with
    | none =>
      rw [moved.left_kept taken, Option.elim_none, List.append_nil]
      exact .unborn rfl ended alone (onwards (by simp [taken]))
    | some command =>
      have waits (other : ∀ masterUrl, command ≠ .start masterUrl) (own : ∀ e, command ≠ .session e) :
          p.control.main ≠ .starting ∧ restart p.left.control = some url := by
        have started : p.control.main ≠ .starting := by
          intro main
          rcases planned.starting main with start | ⟨_, sessions⟩
          · exact other url (Option.some.inj (taken.symm.trans start))
          · obtain ⟨e, same⟩ := sessions command taken
            exact own e same
        exact ⟨started, (awaited.resolve_left started).resolve_left gone⟩
      obtain ⟨told, ran⟩ := moved.command taken
      have transition := owner_cases ran
      rw [Option.elim_some, ended, sent_finished, List.append_nil]
      generalize p'.left = o' at transition
      cases transition with
      | @started masterUrl =>
        obtain ⟨rfl, _⟩ := planned.start_once taken
        obtain ⟨_, point, joinable⟩ := beginStop_session p.left (some masterUrl)
        exact .unborn rfl (point.trans ended) (joinable.trans alone) (.inr (.inr (beginStop_control p.left _).1))
      | stopping idle =>
        obtain ⟨_, waits⟩ := waits (by simp) (by simp)
        rw [idle] at waits
        cases waits
      | joined control =>
        obtain ⟨_, waits⟩ := waits (by simp) (by simp)
        rw [control] at waits
        exact .unborn rfl ended rfl (.inr (.inr waits))
      | emptied control =>
        obtain ⟨_, waits⟩ := waits (by simp) (by simp)
        rw [control] at waits
        exact .unborn rfl ended alone (.inr (.inr ((restart_afterStop _).trans waits)))
      | spawned control =>
        obtain ⟨started, waits⟩ := waits (by simp) (by simp)
        rw [control] at waits
        cases waits
        exact .born (planned.never_starting started) rfl (fun _ _ => ⟨rfl, rfl, rfl⟩) kept.spawned
      | worked inner =>
        exact .unborn rfl (finished_step ended inner) alone (onwards (by simp [taken]))

/-- What the steps of the worker keep holds of every run of the program. -/
theorem workerHistory_reach (kept : KeptByWorker lib policy url allowed Holds)
    (reach : Reach (Program.step avutil lib policy url) (OfSession allowed) (Program.start Double) seen p) :
    WorkerHistory url Holds (pushed seen) p.control.main p.left := by
  refine reach.traced (fun past s => WorkerHistory url Holds (pushed past) s.control.main s.left)
    (.unborn rfl rfl rfl (.inl rfl)) ?_
  intro past s s' e new old guarded run
  rw [pushed_append]
  exact old.step kept guarded run

end Iptv.Main
