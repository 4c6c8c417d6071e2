import Iptv.Main.ProgramRuns
import Iptv.Player.PublishedContent

namespace Iptv.Main
open Iptv.Manifest Iptv.Network Iptv.Player
variable {Double : Type}

/-- What a transfer leaves when it succeeds: the whole body, with the measured times. -/
def completeBundle (transfer : Transfer) : Option MediaSegmentBundle :=
  if transfer.code = .ok ∧ transfer.response.isSuccess = true then
    some ⟨transfer.body,
      { ttfb := transfer.ttfb, totalDuration := transfer.duration, bytesDownloaded := transfer.body.length }⟩
  else none

/-- The successful transfers of a schedule. -/
def Action.transferred : Action → Option MediaSegmentBundle
  | .worker (.transferDone transfer) _ => completeBundle transfer
  | .worker .worker _ | .worker .pop _ | .worker .requestStop _ | .interrupt | .main | .construct _ _ _ | .consumer
  | .process _ | .wakeSpuriously => none

variable [Zero Double] {lib : CxxStd Double} {policy : RetryPolicy}
  {avutil : Decoder.AvUtil} {url : Text} {p p' : Program Double}
  {action : Action} {seen new : Trace} {move : ProgramMove}

/-- Only a transfer that succeeded becomes a bundle. -/
theorem segment_complete {stopped : Bool} {download : Download} {transfer : Transfer} {response : HttpResponse}
    {bundle : MediaSegmentBundle} (attempt : download.finish policy stopped transfer = .done response)
    (loaded : segmentResult response stopped = .bundle bundle) : completeBundle transfer = some bundle := by
  obtain rfl := finish_done attempt
  unfold segmentResult at loaded
  split at loaded
  · rename_i success
    cases loaded
    rw [completeBundle, if_pos ⟨response_completed success, success⟩]
    rfl
  · split at loaded <;> cases loaded

/-- The transfer that a command of the orchestrator ends. -/
def transferredBy : Command → Option MediaSegmentBundle
  | .session (.transferDone transfer) => completeBundle transfer
  | .session .worker | .session .pop | .session .requestStop | .start _ | .stop | .join | .clear | .spawn => none

/-- What a step pushes, or leaves to be pushed, was there or is the transfer that has just ended. -/
theorem session_intact {s s' : Session Double} {e : Player.Event} {told : List Player.Seen}
    (run : Player.step lib policy s e = some (s', told)) :
    ((sent s.point (.session e) ++ toPush s'.point).map (·.bundle)).Sublist
      ((toPush s.point).map (·.bundle) ++ (transferredBy (.session e)).toList) := by
  cases step_cases run with
  | popped | stopped => simp [sent, transferredBy]
  | segmentLoaded point performing attempt loaded =>
    simp [sent, transferredBy, toPush, point, segment_complete attempt loaded]
  | pushed point => simp [sent, transferredBy, toPush, point]
  | cancelled _ point => rcases point with ⟨_, point⟩ | ⟨_, _, _, _, point⟩ <;> simp [sent, toPush, point]
  | segmentsEnded point =>
    rw [Session.goto_point, afterSegments]
    split <;> simp [sent, toPush, point]
  | cleared point =>
    rw [afterSegments]
    split <;> simp [sent, toPush, point]
  | began point | retried point | masterRejected point | masterThrew point | masterAccepted point | variantFailed point
  | variantLoaded point | segmentFailed point | variantStarted point | segmentSkipped point | segmentStarted point
  | threw point | kept point | switched point => simp [sent, toPush, point]

theorem owner_intact {o o' : PlaybackOrchestrator Double} {command : Command} {told : List Player.Seen}
    (run : o.step lib policy command = some (o', told)) :
    ((sent o.session.point command ++ toPush o'.session.point).map (·.bundle)).Sublist
      ((toPush o.session.point).map (·.bundle) ++ (transferredBy command).toList) := by
  cases owner_cases run with
  | started | stopping =>
    rw [(beginStop_session o _).2.1]
    simp [sent]
  | joined | emptied => simp [sent]
  | spawned => simp [sent, Session.start, toPush]
  | worked inner => exact session_intact inner

theorem Moved.entered_eq (moved : Moved lib policy p p' move new) :
    pushed new = move.right.elim [] ConcurrentQueue.Event.enters := by
  have run := moved.right
  unfold pushed
  cases taken : move.right with
  | none =>
    rw [taken] at run
    have silent : [] = new.filterMap Joint.right? := congrArg Prod.snd (Option.some.inj run)
    rw [← silent]
    rfl
  | some e =>
    rw [taken] at run
    exact ConcurrentQueue.step_entered run

/-- The queue is given what the orchestrator pushes. -/
theorem Moved.pushed_eq (moved : Moved lib policy p p' move new) (planned : Planned avutil url p action move) :
    pushed new = move.left.elim [] (sent p.left.session.point) := by
  rw [moved.entered_eq]
  cases planned with
  | @statement next main call => cases control : p.left.control <;> rw [control] at call <;> cases call <;> rfl
  | pushed point | cleared point => simp [sent, toPush, point, ConcurrentQueue.Event.enters]
  | worked keeps =>
    simp only [Option.elim_none, Option.elim_some, sent]
    cases point : p.left.session.point <;> first | rfl | simp [touchesQueue, point] at keeps
  | popMoved created point next => cases here : p.right.point () <;> rw [here] at next <;> cases next <;> rfl
  | interrupted | startCalled | stopCalled | reported | consumerStopped | consumerJoined | exited | constructed
  | constructionThrew | transferred | turned | popCalled | popCancelled | popTook | processed | processingThrew
  | woke => rfl

omit [Zero Double] in
theorem Planned.transferred_eq (planned : Planned avutil url p action move) :
    action.transferred = move.left.bind transferredBy := by
  cases planned with
  | @statement next main call => cases control : p.left.control <;> rw [control] at call <;> cases call <;> rfl
  | _ => rfl

theorem Moved.intact (moved : Moved lib policy p p' move new) (planned : Planned avutil url p action move) :
    ((pushed new ++ toPush p'.left.session.point).map (·.bundle)).Sublist
      ((toPush p.left.session.point).map (·.bundle) ++ action.transferred.toList) := by
  rw [moved.pushed_eq planned, planned.transferred_eq]
  cases taken : move.left with
  | none =>
    rw [moved.left_kept taken]
    simp
  | some command =>
    obtain ⟨told, run⟩ := moved.command taken
    exact owner_intact run

/-- What the program plays is what the server sent: the bundles that are pushed, and those
that are processed, are the bodies of successful transfers, each complete, with its own
metrics, in the order of the transfers, and no transfer is used twice. -/
theorem bundles_intact {schedule : List Action} {r : Trace × Program Double}
    (run : exec (Program.step avutil lib policy url) anyStep (Program.start Double) schedule = some r) :
    ((pushed r.1).map (·.bundle)).Sublist (schedule.filterMap Action.transferred) ∧
      ((processed r.1).map (·.1.bundle)).Sublist (schedule.filterMap Action.transferred) := by
  have intact : ((pushed r.1 ++ toPush r.2.left.session.point).map (·.bundle)).Sublist
      (schedule.filterMap Action.transferred) := by
    refine exec_traced (fun past seen s => ((pushed seen ++ toPush s.left.session.point).map (·.bundle)).Sublist
      (past.filterMap Action.transferred)) [] [] (List.Sublist.refl _) ?_ run
    intro past seen s s' e new old _ step
    obtain ⟨move, _, planned, moved⟩ := program_cases step
    have later := (List.Sublist.refl ((pushed seen).map (·.bundle))).append (moved.intact planned)
    rw [← List.append_assoc, ← List.map_append, ← List.map_append, ← List.append_assoc, ← pushed_append] at later
    rw [List.filterMap_append]
    refine later.trans (old.append ?_)
    cases ended : e.transferred <;> simp [ended]
  have first : ((pushed r.1).map (·.bundle)).Sublist (schedule.filterMap Action.transferred) := by
    refine List.Sublist.trans ?_ intact
    rw [List.map_append]
    exact List.sublist_append_left _ _
  have played := ((processed_sublist (exec_reach run)).map (·.bundle)).trans first
  rw [List.map_map] at played
  exact ⟨first, played⟩

/-- The first attempt at a segment ends with the text of a server error. -/
def busyServer : List Player.Event := [.worker, .worker, .transferDone ⟨.ok, 503, text "busy", 9, 0⟩]

def retriedBundle : List Action :=
  startUp ++ [.consumer, .consumer, .consumer, .consumer] ++
    (loadFirstVariant twoSegments ++ busyServer ++ serve (text "ts") 32).map (.worker · none) ++
    [.worker .worker (some ()), .consumer, .consumer, .consumer, .consumer, .consumer, .process emptyBundle]

theorem bundles_intact_retried :
    ∃ r, exec (Program.step .plain CxxStd.plain {} (text "http://h/m.m3u8")) anyStep (Program.start Rat)
        retriedBundle = some r ∧ (processed r.1).map (·.1.bundle.rawBuffer) = [text "ts"] ∧
      ((processed r.1).map (·.1.bundle)).Sublist (retriedBundle.filterMap Action.transferred) := by
  have run : ((exec (Program.step .plain CxxStd.plain {} (text "http://h/m.m3u8")) anyStep
      (Program.start Rat) retriedBundle).map fun r => (processed r.1).map (·.1.bundle.rawBuffer)) =
        some [text "ts"] := by
    decide +kernel
  obtain ⟨r, went, body⟩ := Option.map_eq_some_iff.mp run
  exact ⟨r, went, body, (bundles_intact went).2⟩

end Iptv.Main
