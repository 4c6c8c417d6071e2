import Iptv.Main.Quiescence

namespace Iptv.Main
open Iptv.Manifest Iptv.Network Iptv.Player
variable {Double : Type}

/-- A variant playlist that has loaded is complete and has at most `most` segments. -/
def vodOnly (most : Nat) : PlaylistDownloadResult Double → Prop
  | .bundle playlist => playlist.hasEndlist = true ∧ playlist.segments.length ≤ most
  | .networkError _ | .parseError _ => True

def servesVod [Zero Double] (lib : CxxStd Double) (most : Nat) : Purpose Double × HttpResponse → Prop
  | (.variant _, response) => vodOnly most (playlistResult lib response)
  | (.master _, _) | (.segment .., _) => True

/-- Downloads end as they like, but a variant playlist that loads is one of video on demand. -/
def VodServed [Zero Double] (lib : CxxStd Double) (policy : RetryPolicy) (most : Nat) (s : Session Double) :
    Player.Event → Prop
  | .transferDone transfer => ∀ ended ∈ s.response policy transfer, servesVod lib most ended
  | .worker | .pop | .requestStop => True

/-- The same of a step of the program. -/
def VodProgram [Zero Double] (lib : CxxStd Double) (policy : RetryPolicy) (most : Nat) (p : Program Double) :
    Action → Prop
  | .worker event _ => VodServed lib policy most p.left.session event
  | .interrupt | .main | .construct _ _ _ | .consumer | .process _ | .wakeSpuriously => True

instance (most : Nat) (result : PlaylistDownloadResult Double) : Decidable (vodOnly most result) :=
  match result with
  | .bundle playlist => inferInstanceAs (Decidable (playlist.hasEndlist = true ∧ playlist.segments.length ≤ most))
  | .networkError _ | .parseError _ => inferInstanceAs (Decidable True)

instance [Zero Double] (lib : CxxStd Double) (most : Nat) (ended : Purpose Double × HttpResponse) :
    Decidable (servesVod lib most ended) :=
  match ended with
  | (.variant _, response) => inferInstanceAs (Decidable (vodOnly most (playlistResult lib response)))
  | (.master _, _) | (.segment .., _) => inferInstanceAs (Decidable True)

instance [Zero Double] (lib : CxxStd Double) (policy : RetryPolicy) (most : Nat) (s : Session Double)
    (e : Player.Event) : Decidable (VodServed lib policy most s e) :=
  match e with
  | .transferDone transfer =>
    inferInstanceAs (Decidable (∀ ended ∈ s.response policy transfer, servesVod lib most ended))
  | .worker | .pop | .requestStop => inferInstanceAs (Decidable True)

instance [Zero Double] (lib : CxxStd Double) (policy : RetryPolicy) (most : Nat) (p : Program Double)
    (action : Action) : Decidable (VodProgram lib policy most p action) :=
  match action with
  | .worker event _ => inferInstanceAs (Decidable (VodServed lib policy most p.left.session event))
  | .interrupt | .main | .construct _ _ _ | .consumer | .process _ | .wakeSpuriously =>
    inferInstanceAs (Decidable True)

/-- The playlist that the worker goes through is a complete one. -/
def VodPoint : Point Double → Prop
  | .fetch (.segment _ playlist _ _) _ | .segmentLoop _ playlist _ | .pushSegment _ playlist _ _
  | .evaluateAbrSwitch _ playlist _ | .clearQueue _ playlist _ => playlist.hasEndlist = true
  | .fetch (.master _) _ | .fetch (.variant _) _ | .variantLoop _ | .finished | .terminated => True

/-- How many steps a download takes at most. -/
def downloadRank (policy : RetryPolicy) (download : Download) : Nat :=
  2 * (policy.maxRetries.toNat - download.attempt) + if download.performing then 1 else 2

/-- What a segment of the playlist costs, with what its bundle costs the consumer. -/
def segmentRank (policy : RetryPolicy) : Nat := 2 * policy.maxRetries.toNat + 17

/-- How many steps the worker takes at most before it ends, and its bundles the consumer. -/
def streamRank (policy : RetryPolicy) (most : Nat) : Point Double → Nat
  | .finished | .terminated => 0
  | .clearQueue _ _ _ => 1
  | .segmentLoop _ _ rest => 1 + rest.length * segmentRank policy
  | .evaluateAbrSwitch _ _ rest => 2 + rest.length * segmentRank policy
  | .pushSegment _ _ rest _ => 15 + rest.length * segmentRank policy
  | .fetch (.segment _ _ _ rest) download => downloadRank policy download + 15 + rest.length * segmentRank policy
  | .fetch (.variant _) download => downloadRank policy download + 1 + most * segmentRank policy
  | .variantLoop _ => 2 * policy.maxRetries.toNat + 4 + most * segmentRank policy
  | .fetch (.master _) download =>
    downloadRank policy download + 2 * policy.maxRetries.toNat + 4 + most * segmentRank policy

/-- What the statement in front of the worker costs the consumer. -/
def bundleCost : Point Double → Player.Event → Nat
  | .pushSegment _ _ _ _, .worker => 12
  | _, _ => 0

theorem afterSegments_vod {ctx : PlaybackContext Double} {playlist : Playlist Double}
    (vod : playlist.hasEndlist = true) : afterSegments ctx playlist = .finished := by
  rw [afterSegments, if_pos vod]

theorem downloadRank_start (policy : RetryPolicy) (url : Text) :
    downloadRank policy (.start policy url) = 2 * policy.maxRetries.toNat + 2 := rfl

theorem downloadRank_pos (policy : RetryPolicy) (download : Download) : 1 ≤ downloadRank policy download := by
  unfold downloadRank
  split <;> omega

theorem downloadRank_began (policy : RetryPolicy) {download : Download} (ready : download.performing = false) :
    downloadRank policy { download with performing := true } + 1 = downloadRank policy download := by
  simp [downloadRank, ready]

theorem downloadRank_retry {policy : RetryPolicy} {stopped : Bool} {download next : Download} {transfer : Transfer}
    (within : download.attempt ≤ policy.maxRetries.toNat) (performing : download.performing = true)
    (attempt : download.finish policy stopped transfer = .retry next) :
    downloadRank policy next + 1 ≤ downloadRank policy download := by
  obtain ⟨_, _, later, waiting⟩ := finish_retry attempt
  have bound := finish_retry_within within attempt
  simp only [downloadRank, performing, waiting, if_true, Bool.false_eq_true, if_false]
  omega

variable [Zero Double] {lib : CxxStd Double} {policy : RetryPolicy} {most : Nat}

theorem VodServed.loaded {s : Session Double} {transfer : Transfer} {ctx : PlaybackContext Double}
    {download : Download} {response : HttpResponse} {playlist : Playlist Double}
    (served : VodServed lib policy most s (.transferDone transfer)) (point : s.point = .fetch (.variant ctx) download)
    (attempt : download.finish policy false transfer = .done response)
    (loaded : playlistResult lib response = .bundle playlist) :
    playlist.hasEndlist = true ∧ playlist.segments.length ≤ most := by
  have vod : servesVod lib most (.variant ctx, response) := by
    refine served _ ?_
    simp [Session.response, point, Purpose.stopped, attempt]
  rwa [servesVod, loaded] at vod

/-- Every statement of the worker brings its end nearer. -/
theorem streamRank_step {s s' : Session Double} {e : Player.Event} {new : List Player.Seen} (vod : VodPoint s.point)
    (within : WithinRetries policy s.point) (served : VodServed lib policy most s e) (own : e.own = true)
    (run : Player.step lib policy s e = some (s', new)) :
    VodPoint s'.point ∧
      streamRank policy most s'.point + 1 + bundleCost s.point e ≤ streamRank policy most s.point := by
  cases step_cases run with
  | popped | stopped => cases own
  | @began purpose download point ready =>
    have fewer := downloadRank_began policy ready
    rw [point] at vod ⊢
    refine ⟨by cases purpose <;> exact vod, ?_⟩
    cases purpose <;> simp only [Session.goto_point, streamRank, bundleCost] <;> omega
  | @retried purpose download transfer next point performing attempt =>
    rw [point] at vod within ⊢
    have fewer := downloadRank_retry within performing attempt
    refine ⟨by cases purpose <;> exact vod, ?_⟩
    cases purpose <;> simp only [Session.goto_point, streamRank, bundleCost] <;> omega
  | @masterRejected _ download _ _ point | @masterThrew _ download _ _ _ _ point | @variantFailed _ download _ _ point
  | @segmentFailed _ _ _ _ download _ _ point =>
    have pending := downloadRank_pos policy download
    rw [point]
    refine ⟨trivial, ?_⟩
    simp only [Session.goto_point, streamRank, bundleCost]
    omega
  | @masterAccepted _ download _ _ _ _ _ point =>
    have pending := downloadRank_pos policy download
    rw [point]
    refine ⟨trivial, ?_⟩
    simp only [streamRank, bundleCost]
    omega
  | @variantLoaded ctx download transfer response playlist point performing attempt loaded =>
    have pending := downloadRank_pos policy download
    obtain ⟨complete, few⟩ := served.loaded point attempt loaded
    have bound := Nat.mul_le_mul_right (segmentRank policy) few
    rw [point]
    refine ⟨complete, ?_⟩
    simp only [Session.goto_point, streamRank, bundleCost]
    omega
  | @segmentLoaded _ _ _ _ download _ _ _ point =>
    have pending := downloadRank_pos policy download
    rw [point] at vod ⊢
    refine ⟨vod, ?_⟩
    simp only [Session.goto_point, streamRank, bundleCost]
    omega
  | cancelled _ point =>
    refine ⟨trivial, ?_⟩
    rcases point with ⟨_, point⟩ | ⟨_, _, _, _, point⟩ <;> rw [point] <;>
      simp only [Session.goto_point, streamRank, bundleCost] <;> omega
  | variantStarted point =>
    rw [point]
    refine ⟨trivial, ?_⟩
    simp only [Session.goto_point, streamRank, bundleCost, downloadRank_start]
    omega
  | segmentsEnded point =>
    rw [point] at vod ⊢
    rw [Session.goto_point, afterSegments_vod vod]
    exact ⟨trivial, by simp [streamRank, bundleCost]⟩
  | segmentSkipped point =>
    rw [point] at vod ⊢
    refine ⟨vod, ?_⟩
    simp only [Session.goto_point, streamRank, bundleCost, List.length_cons, Nat.add_mul, segmentRank]
    omega
  | segmentStarted point =>
    rw [point] at vod ⊢
    refine ⟨vod, ?_⟩
    simp only [Session.goto_point, streamRank, bundleCost, downloadRank_start, List.length_cons, Nat.add_mul,
      segmentRank]
    omega
  | pushed point | kept point | switched point =>
    rw [point] at vod ⊢
    refine ⟨vod, ?_⟩
    simp only [streamRank, bundleCost]
    omega
  | threw point =>
    rw [point]
    refine ⟨trivial, ?_⟩
    simp only [Session.goto_point, streamRank, bundleCost]
    omega
  | @cleared ctx playlist nextUri point =>
    rw [point] at vod ⊢
    rw [show afterSegments { ctx with currentVariantUri := nextUri } playlist = .finished from afterSegments_vod vod]
    exact ⟨trivial, by simp [streamRank, bundleCost]⟩

/-- What a session that is started costs. -/
def launchCost (policy : RetryPolicy) (most : Nat) : Nat :=
  4 * policy.maxRetries.toNat + 6 + most * segmentRank policy

/-- What a call of the orchestrator still does, with the session that it starts. -/
def launchRank (policy : RetryPolicy) (most : Nat) (control : Control) : Nat :=
  controlRank control + (restart control).elim 0 fun _ => 1 + launchCost policy most

def lifeRank (policy : RetryPolicy) (most : Nat) (control : Control) : MainPoint → Nat
  | .starting => 25 + launchCost policy most
  | .inStart => 21 + launchRank policy most control
  | .waiting => 14
  | .inStop => 11 + launchRank policy most control
  | .leaving => 10
  | .joiningConsumer => 4
  | .inDestructor => 1 + launchRank policy most control
  | .exited | .terminated => 0

/-- How many steps the consumer takes at most before it ends, sleeps or takes another bundle. -/
def feedRank (popRank : Nat) : Option ConsumerPoint → Nat
  | none | some .ended => 0
  | some (.popped none) => 1
  | some .loopTest => 6
  | some (.popped (some _)) => 7
  | some .popping => popRank

def flagRank (stopFlag : Bool) : Nat := if stopFlag then 0 else 1

def Program.life (policy : RetryPolicy) (most : Nat) (p : Program Double) : Nat :=
  streamRank policy most p.left.session.point + lifeRank policy most p.left.control p.control.main +
    flagRank p.control.stopFlag + feedRank p.right.popRank (p.control.consumerThread.map (·.point)) +
    7 * p.right.queue.length

/-- What the steps of a program on video on demand keep. -/
structure Program.Streaming (policy : RetryPolicy) (p : Program Double) : Prop where
  sound : p.Sound policy
  vod : VodPoint p.left.session.point
  cancelled : p.control.consumerThread.map (·.point) = some (.popped none) → p.right.stopped () = true

section
variable {avutil : Decoder.AvUtil} {url : Text} {p p' : Program Double}
  {action : Action} {new : Trace} {move : ProgramMove}

omit [Zero Double] in
theorem streaming_start (policy : RetryPolicy) : (Program.start Double).Streaming policy where
  sound := start_sound policy
  vod := trivial
  cancelled := by rintro ⟨⟩

omit [Zero Double] in
theorem start_life (policy : RetryPolicy) (most : Nat) :
    (Program.start Double).life policy most =
      32 + 4 * policy.maxRetries.toNat + most * (2 * policy.maxRetries.toNat + 17) := by
  have launch : launchCost policy most =
      4 * policy.maxRetries.toNat + 6 + most * (2 * policy.maxRetries.toNat + 17) := rfl
  simp [Program.life, Program.start, streamRank, lifeRank, flagRank, feedRank, ConcurrentQueue.init]
  omega

omit [Zero Double] in
theorem feedRank_le (solo : p.right.Solo) (point : Option ConsumerPoint)
    {e : ConcurrentQueue.Event Unit QueuedSegment} {seen : List (ConcurrentQueue.Seen Unit QueuedSegment)}
    (run : ConcurrentQueue.step p.right e = some (p'.right, seen)) :
    feedRank p'.right.popRank point ≤ feedRank p.right.popRank point + 5 := by
  have rank := solo.step_popRank run
  unfold feedRank
  split <;> omega

omit [Zero Double] in
theorem lifeRank_pos (policy : RetryPolicy) (most : Nat) (alive : p.over = false) :
    1 ≤ lifeRank policy most p.left.control p.control.main := by
  cases main : p.control.main with
  | exited | terminated => simp [Program.over, main] at alive
  | starting | inStart | waiting | inStop | leaving | joiningConsumer | inDestructor =>
    simp only [lifeRank]
    omega

omit [Zero Double] in
theorem launchRank_stop (policy : RetryPolicy) (most : Nat) (o : PlaybackOrchestrator Double) :
    launchRank policy most (o.beginStop none).control ≤ 2 := by
  have none := (beginStop_control o none).1
  rw [launchRank, none]
  cases (o.beginStop .none).control <;> simp [controlRank]

omit [Zero Double] in
theorem launchRank_start (policy : RetryPolicy) (most : Nat) (o : PlaybackOrchestrator Double) (url : Text) :
    launchRank policy most (o.beginStop (some url)).control ≤ 3 + launchCost policy most := by
  have some := (beginStop_control o (.some url)).1
  rw [launchRank, some, Option.elim_some]
  cases (o.beginStop (.some url)).control <;> simp only [controlRank] <;> omega

/-- A statement of a call is paid for by the rank of the call. -/
theorem Moved.launchRank (most : Nat) (moved : Moved lib policy p p' move new) (vod : VodPoint p.left.session.point)
    {next : Command × Option (ConcurrentQueue.Event Unit QueuedSegment)}
    (call : callStatement p.left.control = some next) (taken : move.left = some next.1) :
    VodPoint p'.left.session.point ∧
      streamRank policy most p'.left.session.point + launchRank policy most p'.left.control + 1 ≤
        streamRank policy most p.left.session.point + launchRank policy most p.left.control := by
  obtain ⟨seen, run⟩ := moved.command taken
  cases control : p.left.control with
  | idle =>
    rw [control] at call
    cases call
  | joining url =>
    rw [control] at call
    cases call
    have transition := owner_cases run
    generalize p'.left = o' at transition
    cases transition with
    | joined here =>
      rw [control] at here
      cases here
      refine ⟨vod, ?_⟩
      simp only [Main.launchRank, restart, Main.controlRank]
      omega
  | clearing url =>
    rw [control] at call
    cases call
    have transition := owner_cases run
    generalize p'.left = o' at transition
    cases transition with
    | emptied here =>
      rw [control] at here
      cases here
      refine ⟨vod, ?_⟩
      cases url <;> simp only [Main.launchRank, afterStop, restart, Main.controlRank, Option.elim_none, Option.elim_some] <;>
        omega
  | spawning url =>
    rw [control] at call
    cases call
    have transition := owner_cases run
    generalize p'.left = o' at transition
    cases transition with
    | spawned here =>
      refine ⟨trivial, ?_⟩
      simp only [Main.launchRank, restart, Main.controlRank, Session.start, streamRank, downloadRank_start, Option.elim_none,
        Option.elim_some, launchCost]
      omega

/-- A step of the worker is paid for by what the session still costs. -/
theorem Moved.streamRank (most : Nat) (moved : Moved lib policy p p' move new) (streaming : p.Streaming policy)
    {event : Player.Event} (taken : move.left = some (.session event)) (own : event.own = true)
    (served : VodServed lib policy most p.left.session event) :
    VodPoint p'.left.session.point ∧
      streamRank policy most p'.left.session.point + 1 + bundleCost p.left.session.point event ≤
        streamRank policy most p.left.session.point ∧
      p'.left.control = p.left.control := by
  obtain ⟨seen, run, control, _⟩ := moved.session taken
  obtain ⟨vod, rank⟩ := streamRank_step streaming.vod streaming.sound.attempts served own run
  exact ⟨vod, rank, control⟩

/-- A call of `pop` comes back without a bundle only when a stop was requested. -/
theorem Moved.cancelled (moved : Moved lib policy p p' move new) (planned : Planned avutil url p action move)
    (streaming : p.Streaming policy) (none : p'.control.consumerThread.map (·.point) = some (.popped none)) :
    p'.right.stopped () = true := by
  have kept := moved.stopped_kept streaming.sound.solo
  rw [moved.control] at none
  cases planned with
  | popCancelled created point returned stopped => exact kept stopped
  | popTook created point taking =>
    obtain ⟨item, rest, queue⟩ := List.exists_cons_of_ne_nil (streaming.sound.solo.guarded.taking () taking)
    simp [queue] at none
  | turned created turn => cases turn <;> cases none
  | popCalled | constructed | processed => cases none
  | interrupted | startCalled | statement | stopCalled | reported | consumerStopped | consumerJoined | exited
  | constructionThrew | pushed | cleared | worked | transferred | popMoved | processingThrew | woke =>
    exact kept (streaming.cancelled none)

/-- On video on demand every step is paid for. -/
theorem Program.Streaming.pays (streaming : p.Streaming policy) (served : VodProgram lib policy most p action)
    (run : p.step avutil lib policy url action = some (p', new)) :
    p'.Streaming policy ∧ p'.life policy most + 1 ≤ p.life policy most + action.credit := by
  have sound := streaming.sound
  have sound' := sound.step run
  obtain ⟨move, alive, planned, moved⟩ := program_cases run
  have cancelled := moved.cancelled planned streaming
  have solo := sound.solo
  suffices VodPoint p'.left.session.point ∧ p'.life policy most + 1 ≤ p.life policy most + action.credit from
    ⟨⟨sound', this.1, cancelled⟩, this.2⟩
  unfold Program.life
  cases planned with
  | interrupted fresh =>
    rw [moved.control, moved.left_kept rfl, moved.right_kept rfl, fresh]
    refine ⟨streaming.vod, ?_⟩
    simp only [flagRank, if_true, Bool.false_eq_true, if_false]
    omega
  | startCalled main =>
    obtain ⟨seen, called⟩ := moved.command rfl
    have transition := owner_cases called
    generalize p'.left = o' at transition
    cases transition with
    | started =>
      have cost := launchRank_start policy most p.left url
      rw [moved.control, moved.right_kept rfl, main, (beginStop_session p.left _).2.1]
      refine ⟨streaming.vod, ?_⟩
      simp only [lifeRank]
      omega
  | @statement next main call =>
    obtain ⟨vod, paid⟩ := moved.launchRank most streaming.vod call rfl
    have queue : p'.right.popRank = p.right.popRank ∧ p'.right.queue.length ≤ p.right.queue.length := by
      cases here : p.left.control <;> rw [here] at call <;> cases call
      · rw [moved.right_kept rfl]
        exact ⟨rfl, le_rfl⟩
      · obtain ⟨seen, emptied⟩ := moved.event rfl
        rw [ConcurrentQueue.step_queue emptied]
        exact ⟨solo.clear_popRank emptied, Nat.zero_le _⟩
      · rw [moved.right_kept rfl]
        exact ⟨rfl, le_rfl⟩
    rw [moved.control, queue.1]
    refine ⟨vod, ?_⟩
    have fewer := queue.2
    rcases main with main | main | main <;> simp only [main, lifeRank] <;> omega
  | stopCalled main =>
    obtain ⟨seen, called⟩ := moved.command rfl
    have transition := owner_cases called
    generalize p'.left = o' at transition
    cases transition with
    | stopping =>
      have cost := launchRank_stop policy most p.left
      rw [moved.control, moved.right_kept rfl, main, (beginStop_session p.left _).2.1]
      refine ⟨streaming.vod, ?_⟩
      simp only [lifeRank]
      omega
  | reported main returned =>
    rw [moved.control, moved.left_kept rfl, moved.right_kept rfl, main]
    refine ⟨streaming.vod, ?_⟩
    simp only [lifeRank]
    omega
  | consumerStopped main =>
    obtain ⟨seen, stopped⟩ := moved.event rfl
    have consumer := feedRank_le solo (p.control.consumerThread.map (·.point)) stopped
    have queue : p'.right.queue = p.right.queue := ConcurrentQueue.step_queue stopped
    rw [moved.control, moved.left_kept rfl, main, queue]
    refine ⟨streaming.vod, ?_⟩
    simp only [lifeRank]
    omega
  | consumerJoined main =>
    obtain ⟨seen, called⟩ := moved.command rfl
    have transition := owner_cases called
    generalize p'.left = o' at transition
    cases transition with
    | stopping =>
      have cost := launchRank_stop policy most p.left
      rw [moved.control, moved.right_kept rfl, main, (beginStop_session p.left _).2.1]
      refine ⟨streaming.vod, ?_⟩
      simp only [lifeRank]
      omega
  | exited main returned =>
    rw [moved.control, moved.left_kept rfl, moved.right_kept rfl, main]
    refine ⟨streaming.vod, ?_⟩
    simp only [lifeRank]
    omega
  | constructed main returned made =>
    rw [moved.control, moved.left_kept rfl, moved.right_kept rfl, main]
    refine ⟨streaming.vod, ?_⟩
    simp only [lifeRank, Option.map_some, feedRank]
    omega
  | constructionThrew main returned =>
    rw [moved.control, moved.left_kept rfl, moved.right_kept rfl, main]
    refine ⟨streaming.vod, ?_⟩
    simp only [lifeRank]
    omega
  | pushed point =>
    obtain ⟨vod, worker, control⟩ := moved.streamRank most streaming rfl rfl served
    obtain ⟨seen, pushed⟩ := moved.event rfl
    have consumer := feedRank_le solo (p.control.consumerThread.map (·.point)) pushed
    rw [point] at worker
    simp only [bundleCost] at worker
    rw [moved.control, control, point, ConcurrentQueue.step_queue pushed]
    refine ⟨vod, ?_⟩
    simp only [ConcurrentQueue.Event.queueAfter, List.length_append, List.length_singleton]
    omega
  | cleared point =>
    obtain ⟨vod, worker, control⟩ := moved.streamRank most streaming rfl rfl served
    obtain ⟨seen, emptied⟩ := moved.event rfl
    rw [moved.control, control, solo.clear_popRank emptied, ConcurrentQueue.step_queue emptied]
    refine ⟨vod, ?_⟩
    simp only [ConcurrentQueue.Event.queueAfter, List.length_nil]
    omega
  | worked | transferred =>
    obtain ⟨vod, worker, control⟩ := moved.streamRank most streaming rfl rfl served
    rw [moved.control, control, moved.right_kept rfl]
    refine ⟨vod, ?_⟩
    dsimp only
    omega
  | turned created turn =>
    rw [moved.control, moved.left_kept rfl, moved.right_kept rfl, created]
    refine ⟨streaming.vod, ?_⟩
    cases turn with
    | loopEnded point | broke point =>
      simp only [Option.map_some, point, feedRank]
      omega
    | yielded point running =>
      have stopped := streaming.cancelled (by rw [created, Option.map_some, point])
      rw [running] at stopped
      cases stopped
  | popCalled created point =>
    obtain ⟨seen, called⟩ := moved.event rfl
    have entering : p'.right.popRank = 5 := by
      rw [ConcurrentQueue.State.popRank, (ConcurrentQueue.solo_cases solo.sleeper called).2.1]
      rfl
    rw [moved.control, moved.left_kept rfl, created, ConcurrentQueue.step_queue called]
    refine ⟨streaming.vod, ?_⟩
    simp only [Option.map_some, point, feedRank, entering, ConcurrentQueue.Event.queueAfter]
    omega
  | popMoved created point next stays =>
    obtain ⟨seen, popped⟩ := moved.event rfl
    have rank := solo.piece_popRank next popped
    have queue : p'.right.queue = p.right.queue := by
      rw [ConcurrentQueue.step_queue popped]
      cases here : p.right.point () <;> rw [here] at next stays <;> cases next <;> first | rfl | exact absurd rfl stays
    rw [moved.control, moved.left_kept rfl, created, queue]
    refine ⟨streaming.vod, ?_⟩
    simp only [Option.map_some, point, feedRank]
    omega
  | popCancelled created point returned =>
    obtain ⟨seen, popped⟩ := moved.event rfl
    have rank : p.right.popRank = 2 := by rw [ConcurrentQueue.State.popRank, returned]; rfl
    rw [moved.control, moved.left_kept rfl, created, ConcurrentQueue.step_queue popped]
    refine ⟨streaming.vod, ?_⟩
    simp only [Option.map_some, point, feedRank, rank, ConcurrentQueue.Event.queueAfter]
    omega
  | popTook created point taking =>
    obtain ⟨seen, popped, control, _⟩ := moved.session rfl
    obtain ⟨_, taken⟩ := moved.event rfl
    obtain ⟨item, rest, queue⟩ := List.exists_cons_of_ne_nil (solo.guarded.taking () taking)
    have left : p'.left.session.point = p.left.session.point := by
      generalize p'.left.session = s' at popped
      cases step_cases popped
      rfl
    have rank : p.right.popRank = 1 := by rw [ConcurrentQueue.State.popRank, taking]; rfl
    rw [moved.control, left, control, created, ConcurrentQueue.step_queue taken, queue]
    refine ⟨streaming.vod, ?_⟩
    simp only [Option.map_some, point, feedRank, rank, List.head?_cons, ConcurrentQueue.Event.queueAfter, List.tail_cons,
      List.length_cons]
    omega
  | processed created point =>
    rw [moved.control, moved.left_kept rfl, moved.right_kept rfl, created]
    refine ⟨streaming.vod, ?_⟩
    simp only [Option.map_some, point, feedRank]
    omega
  | processingThrew created point =>
    have running := lifeRank_pos policy most alive
    have gone : lifeRank policy most p.left.control .terminated = 0 := rfl
    rw [moved.control, moved.left_kept rfl, moved.right_kept rfl]
    refine ⟨streaming.vod, ?_⟩
    dsimp only
    omega
  | woke =>
    obtain ⟨seen, woke⟩ := moved.event rfl
    have consumer := feedRank_le solo (p.control.consumerThread.map (·.point)) woke
    rw [moved.control, moved.left_kept rfl, ConcurrentQueue.step_queue woke]
    refine ⟨streaming.vod, ?_⟩
    simp only [Action.credit, ConcurrentQueue.Event.queueAfter]
    omega

/-- Where a transfer can end at all, it can also be refused. -/
theorem refused_enabled {transfer : Transfer} {woken : Option Unit}
    (enabled : Enabled avutil lib policy url p (.worker (.transferDone transfer) woken)) :
    Enabled avutil lib policy url p (.worker (.transferDone refusedTransfer) none) := by
  obtain ⟨⟨p', new⟩, run⟩ := Option.isSome_iff_exists.mp enabled
  obtain ⟨move, alive, planned, moved⟩ := program_cases run
  cases planned with
  | transferred =>
    obtain ⟨purpose, download, point, performing⟩ : ∃ purpose download,
        p.left.session.point = .fetch purpose download ∧ download.performing = true := by
      obtain ⟨seen, ended, _⟩ := moved.session rfl
      generalize p'.left.session = s' at ended
      cases step_cases ended with
      | retried point performing | masterRejected point performing | masterThrew point performing
      | masterAccepted point performing | variantFailed point performing | variantLoaded point performing
      | segmentFailed point performing | segmentLoaded point performing => exact ⟨_, _, point, performing⟩
    refine enabled_of_plan { left := some (.session (.transferDone refusedTransfer)), control := p.control }
      (by simp [Program.plan, alive, Program.workerMove]) ?_ (by rintro e ⟨⟩)
    rintro command ⟨⟩
    simpa [PlaybackOrchestrator.step] using transfer_goes_on point performing (by simp [refusedTransfer])

/-- A refused transfer loads no playlist. -/
theorem refused_served (s : Session Double) : VodServed lib policy most s (.transferDone refusedTransfer) := by
  rintro ⟨purpose, response⟩ ended
  obtain ⟨download, point, attempt⟩ := response_cases ended
  obtain rfl := finish_done attempt
  cases purpose <;> trivial

end

/-- Nothing that the threads, or a server of video on demand, do can go on. -/
def VodQuiescent (avutil : Decoder.AvUtil) (lib : CxxStd Double)
    (policy : RetryPolicy) (url : Text) (most : Nat) (p : Program Double) : Prop :=
  ∀ action, VodProgram lib policy most p action → action ≠ .interrupt → action.credit = 0 →
    ¬Enabled avutil lib policy url p action

theorem VodQuiescent.quiescent {avutil : Decoder.AvUtil} {url : Text}
    {p : Program Double} (still : VodQuiescent avutil lib policy url most p) :
    Quiescent avutil lib policy url p := by
  intro action other paid enabled
  by_cases allowed : VodProgram lib policy most p action
  · exact still action allowed other paid enabled
  · cases action with
    | worker event woken =>
      cases event with
      | transferDone transfer =>
        exact still (.worker (.transferDone refusedTransfer) none) (refused_served p.left.session) (by simp) rfl
          (refused_enabled enabled)
      | worker | pop | requestStop => exact allowed trivial
    | interrupt | main | construct | consumer | process | wakeSpuriously => exact allowed trivial

/-- The program plays video on demand to its end: whatever the order of the threads, the
failures of the network and the moment of the signal, every schedule is short, and where
nothing but the signal can go on, the process is over, or every bundle that was pushed has
been processed or cleared and the program only waits for the signal. -/
theorem vod_completes {avutil : Decoder.AvUtil} {url : Text}
    {schedule : List Action} {r : Trace × Program Double}
    (run : exec (Program.step avutil lib policy url) (VodProgram lib policy most) (Program.start Double) schedule =
      some r) :
    schedule.length ≤
        32 + 4 * policy.maxRetries.toNat + most * (2 * policy.maxRetries.toNat + 17) +
          (schedule.map Action.credit).sum ∧
      (VodQuiescent avutil lib policy url most r.2 →
        r.2.over = true ∨ r.2.Idle ∧ pushed r.1 = removed r.1 ∧ received r.1 = (processed r.1).map (·.1)) := by
  obtain ⟨_, bound⟩ := exec_length_le (Program.Streaming policy) (Program.life policy most) Action.credit
    (streaming_start policy) (fun streaming served run => streaming.pays served run) run
  have whole := @start_life Double policy most
  refine ⟨by omega, fun still => ?_⟩
  have reach := (exec_reach run).unguarded
  refine ((sound_reach reach).over_or_idle (signalled_reach reach) still.quiescent).imp_right fun idle => ⟨idle, ?_⟩
  exact idle.accounts reach

/-- Two segments are played to the end. -/
theorem vod_completes_played :
    ∃ r, exec (Program.step .plain CxxStd.plain {} (text "http://h/m.m3u8"))
        (VodProgram CxxStd.plain {} 2) (Program.start Rat) playedToTheEnd = some r ∧ (processed r.1).length = 2 ∧
      playedToTheEnd.length ≤ 32 + 4 * 3 + 2 * (2 * 3 + 17) + (playedToTheEnd.map Action.credit).sum ∧
      (r.2.over = true ∨ r.2.Idle ∧ pushed r.1 = removed r.1 ∧ received r.1 = (processed r.1).map (·.1)) := by
  have run : ((exec (Program.step .plain CxxStd.plain {} (text "http://h/m.m3u8"))
      (VodProgram CxxStd.plain {} 2) (Program.start Rat) playedToTheEnd).map fun r =>
        (processed r.1).length == 2 && r.2.control.main == .waiting && !r.2.control.stopFlag &&
          r.2.left.session.point == .finished && r.2.right.point () == .asleep) = some true := by
    decide +kernel
  obtain ⟨r, played, test⟩ := Option.map_eq_some_iff.mp run
  simp only [Bool.and_eq_true, Bool.not_eq_true', beq_iff_eq] at test
  obtain ⟨⟨⟨⟨two, main⟩, unsignalled⟩, ended⟩, asleep⟩ := test
  have idle : r.2.Idle := ⟨main, unsignalled, ended, asleep⟩
  obtain ⟨short, done⟩ := vod_completes played
  exact ⟨r, played, two, short,
    done fun action _ => idle.quiescent (sound_reach (exec_reach played).unguarded) action⟩

end Iptv.Main
