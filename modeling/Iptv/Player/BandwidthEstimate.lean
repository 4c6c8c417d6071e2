import Mathlib.Tactic.Linarith
import Iptv.Player.Playable
import Iptv.Player.ServedRuns
import Iptv.Player.PlaybackOrchestrator

namespace Iptv.Player
open Iptv.Manifest Iptv.Network Iptv.Abr
variable {Double : Type} {lib : CxxStd Double} {policy : RetryPolicy} {round : Rat → Rat}

/-- The throughputs of the segments that have been downloaded, in all sessions. -/
def measurements (seen : List Seen) : List Rat :=
  seen.filterMap fun
    | .segmentDownloaded _ throughputMbps => some throughputMbps
    | _ => none

theorem measurements_append (seen new : List Seen) :
    measurements (seen ++ new) = measurements seen ++ measurements new := by
  simp [measurements]

/-- The exponentially weighted moving average with the weight 0.3. -/
def average (round : Rat → Rat) (measured : List Rat) : Rat := measured.foldl (smooth round (3 / 10)) 0

theorem average_append (round : Rat → Rat) (measured : List Rat) (measurement : Rat) :
    average round (measured ++ [measurement]) = smooth round (3 / 10) (average round measured) measurement := by
  simp [average]

/-- In exact arithmetic the average is the fold that it is meant to be. -/
theorem average_exact (measured : List Rat) :
    average id measured =
      measured.foldl (fun s m => if s = 0 then m else 3 / 10 * m + 7 / 10 * s) 0 := by
  have weight : (1 : Rat) - 3 / 10 = 7 / 10 := by norm_num
  have same : smooth id (3 / 10) = fun s m => if s = 0 then m else 3 / 10 * m + 7 / 10 * s := by
    funext s m
    rw [smooth_exact, weight]
  rw [average, same]

/-- Between the download of a segment and the evaluation behind it, the newest
measurement has not reached the manager. -/
def evaluated (measured : List Rat) : Point Double → List Rat
  | .pushSegment _ _ _ _ | .evaluateAbrSwitch _ _ _ => measured.dropLast
  | _ => measured

/-- The placeholder 0.0 leaves an estimate that is unset as it is. -/
theorem smooth_placeholder (round : Rat → Rat) {estimate : Rat} (unset : estimate = 0) (alpha : Rat) :
    smooth round alpha estimate 0 = estimate := by
  rw [smooth, if_pos unset, unset]

/-- The estimate at a point, and the measurement that waits there for its evaluation. -/
def EstimateAt (round : Rat → Rat) (estimate : Rat) (measured : List Rat) : Point Double → Prop
  | .pushSegment ctx _ _ _ | .evaluateAbrSwitch ctx _ _ =>
    ∃ earlier, measured = earlier ++ [ctx.currentThroughput] ∧ estimate = average round earlier
  | _ => estimate = average round measured

theorem EstimateAt.average {estimate : Rat} {measured : List Rat} {point : Point Double}
    (here : EstimateAt round estimate measured point) : estimate = average round (evaluated measured point) := by
  cases point with
  | pushSegment ctx playlist rest queued =>
    obtain ⟨earlier, same, value⟩ := here
    rw [evaluated, same, List.dropLast_concat, value]
  | evaluateAbrSwitch ctx playlist rest =>
    obtain ⟨earlier, same, value⟩ := here
    rw [evaluated, same, List.dropLast_concat, value]
  | fetch | variantLoop | segmentLoop | clearQueue | finished | terminated => exact here

theorem afterSegments_estimate {estimate : Rat} {measured : List Rat} (ctx : PlaybackContext Double)
    (playlist : Playlist Double) :
    EstimateAt round estimate measured (afterSegments ctx playlist) ↔ estimate = average round measured := by
  unfold afterSegments
  split <;> exact Iff.rfl

structure Measured (round : Rat → Rat) (measured : List Rat) (s : Session Double) : Prop where
  alpha : s.abrManager.alpha = 3 / 10
  estimate : EstimateAt round s.abrManager.smoothedThroughput measured s.point
  playable : s.point.Playable

/-- An evaluation feeds the waiting measurement to the manager. -/
theorem Measured.evaluate {measured : List Rat} {s : Session Double} {ctx : PlaybackContext Double}
    {playlist : Playlist Double} {rest : List (MediaSegmentRef Double)} (old : Measured round measured s)
    (point : s.point = .evaluateAbrSwitch ctx playlist rest) (variants : List (VariantStreamRef Double)) :
    (observe round s.abrManager variants ctx.currentThroughput).alpha = 3 / 10 ∧
      (observe round s.abrManager variants ctx.currentThroughput).smoothedThroughput = average round measured := by
  obtain ⟨value, same⟩ := observe_estimate round s.abrManager variants ctx.currentThroughput
  have here := old.estimate
  rw [point] at here
  obtain ⟨earlier, split, before⟩ := here
  rw [same, value, old.alpha, before, split, average_append]
  exact ⟨rfl, rfl⟩

theorem Measured.move {measured more : List Rat} {s : Session Double} (alpha : s.abrManager.alpha = 3 / 10)
    (here : EstimateAt round s.abrManager.smoothedThroughput measured s.point) (playable : s.point.Playable)
    (nothing : more = []) : Measured round (measured ++ more) s := by
  rw [nothing, List.append_nil]
  exact ⟨alpha, here, playable⟩

variable [Zero Double]

def Purpose.acceptsMaster (lib : CxxStd Double) (response : HttpResponse) : Purpose Double → Bool
  | .master _ => (masterPlaylist (playlistResult lib response)).isSome
  | .variant _ | .segment .. => false

/-- A master playlist is accepted only while the estimate is unset. -/
def Session.StartsUnset (lib : CxxStd Double) (policy : RetryPolicy) (s : Session Double) : Event → Prop
  | .transferDone transfer => ∀ ended ∈ s.response policy transfer,
      ended.1.acceptsMaster lib ended.2 = true → s.abrManager.smoothedThroughput = 0
  | .worker | .pop | .requestStop => True

def StartsUnset (lib : CxxStd Double) (policy : RetryPolicy) (o : PlaybackOrchestrator Double) : Command → Prop
  | .session event => o.session.StartsUnset lib policy event
  | .start _ | .stop | .join | .clear | .spawn => True

instance (lib : CxxStd Double) (policy : RetryPolicy) (o : PlaybackOrchestrator Double) (command : Command) :
    Decidable (StartsUnset lib policy o command) :=
  match command with
  | .session (.transferDone transfer) => inferInstanceAs (Decidable
      (∀ ended ∈ o.session.response policy transfer,
        ended.1.acceptsMaster lib ended.2 = true → o.session.abrManager.smoothedThroughput = 0))
  | .session .worker | .session .pop | .session .requestStop => inferInstanceAs (Decidable True)
  | .start _ | .stop | .join | .clear | .spawn => inferInstanceAs (Decidable True)

theorem Measured.step {past new : List Seen} {s s' : Session Double} {e : Event}
    (old : Measured lib.round (measurements past) s) (unset : s.StartsUnset lib policy e)
    (run : Player.step lib policy s e = some (s', new)) : Measured lib.round (measurements (past ++ new)) s' := by
  have playable := old.playable.step run
  have here := old.estimate
  rw [measurements_append]
  cases step_cases run with
  | popped | stopped => exact .move old.alpha here playable rfl
  | began point | retried point | masterRejected point | variantFailed point | variantLoaded point
  | segmentFailed point | variantStarted point | segmentSkipped point | segmentStarted point | pushed point =>
    rw [point] at here
    exact .move old.alpha here playable rfl
  | masterThrew | threw => exact playable.elim
  | cancelled _ point =>
    refine .move old.alpha ?_ playable rfl
    rcases point with ⟨_, point⟩ | ⟨_, _, _, _, point⟩ <;> rw [point] at here <;> exact here
  | @masterAccepted masterUrl download transfer response playlist initialVariant abrManager point performing
      attempt accepted selected =>
    have zero : s.abrManager.smoothedThroughput = 0 := by
      refine unset (.master masterUrl, response) ?_ ?_
      · simp [Session.response, point, Purpose.stopped, attempt]
      · simp [Purpose.acceptsMaster, accepted]
    obtain ⟨rfl, _⟩ := selectVariant_manager selected
    obtain ⟨value, same⟩ := observe_estimate lib.round s.abrManager playlist.variants 0
    rw [point] at here
    refine .move (same.trans old.alpha) ?_ playable rfl
    have kept := smooth_placeholder lib.round zero s.abrManager.alpha
    rw [← value] at kept
    exact kept.trans here
  | segmentLoaded point =>
    rw [point] at here
    exact ⟨old.alpha, ⟨_, rfl, here⟩, playable⟩
  | segmentsEnded point | cleared point =>
    rw [point] at here
    exact .move old.alpha ((afterSegments_estimate _ _).mpr here) playable rfl
  | @kept ctx playlist rest idealVariant abrManager point selected
  | @switched ctx playlist rest idealVariant abrManager point selected =>
    obtain ⟨rfl, _⟩ := selectVariant_manager selected
    obtain ⟨alpha, value⟩ := old.evaluate point ctx.masterPlaylist.variants
    exact .move alpha value playable rfl

theorem Measured.owner {past new : List Seen} {o o' : PlaybackOrchestrator Double} {command : Command}
    (old : Measured lib.round (measurements past) o.session) (parked : Parked o)
    (unset : StartsUnset lib policy o command) (run : o.step lib policy command = some (o', new)) :
    Measured lib.round (measurements (past ++ new)) o'.session := by
  cases owner_cases run with
  | started | stopping =>
    rw [measurements_append]
    unfold PlaybackOrchestrator.beginStop
    split <;> exact .move old.alpha old.estimate old.playable rfl
  | joined | emptied =>
    rw [measurements_append]
    exact .move old.alpha old.estimate old.playable rfl
  | spawned control =>
    have ended := parked.ended (parked.joined (by rw [control]; rfl))
    have here := old.estimate
    rw [ended] at here
    rw [measurements_append]
    exact .move old.alpha here trivial rfl
  | worked inner => exact old.step unset inner

/-- In every history of sessions in which no master playlist is accepted behind a
measurement, the estimate is the average of the evaluated measurements, with the
rounding of the doubles; in exact arithmetic it is the plain fold over them. -/
theorem estimate_average {seen : List Seen} {o : PlaybackOrchestrator Double}
    (reach : Reach (PlaybackOrchestrator.step lib policy) (StartsUnset lib policy) {} seen o) :
    o.session.abrManager.smoothedThroughput = average lib.round (evaluated (measurements seen) o.session.point) ∧
      (lib.round = id → o.session.abrManager.smoothedThroughput =
        (evaluated (measurements seen) o.session.point).foldl
          (fun s m => if s = 0 then m else 3 / 10 * m + 7 / 10 * s) 0) := by
  have invariant : Measured lib.round (measurements seen) o.session ∧ Parked o := by
    refine reach.traced (fun past state => Measured lib.round (measurements past) state.session ∧ Parked state)
      ⟨⟨rfl, rfl, trivial⟩, ⟨fun _ => rfl, by simp [Control.behindJoin]⟩⟩ ?_
    intro past state state' command new old unset run
    exact ⟨old.1.owner old.2 unset run, old.2.step run⟩
  have folded := invariant.1.estimate.average
  refine ⟨folded, fun exactly => ?_⟩
  rw [folded, exactly, average_exact]

/-- A session that downloads one segment at 8 Mbps. -/
def firstSession : List Command :=
  [.start (text "http://h/m.m3u8"), .clear, .spawn] ++
    (loadFirstVariant twoSegmentVod ++ loadSegment 2 ++ [Event.worker]).map .session

/-- A session that downloads two segments, at 0.5 and at 0.25 Mbps. -/
def slowSession : List Command :=
  [.start (text "http://h/m.m3u8"), .clear, .spawn] ++
    (loadFirstVariant twoSegmentVod ++ loadSegment 32 ++ loadSegment 64 ++ [Event.worker]).map .session

/-- The next session, up to the transfer of its master playlist. -/
def secondSession : List Command :=
  [.start (text "http://h/m.m3u8"), .join, .clear, .spawn, .session .worker]

theorem estimate_average_beforeMaster :
    ∃ seen o, Reach (PlaybackOrchestrator.step CxxStd.plain {}) (StartsUnset CxxStd.plain {}) {} seen o ∧
      measurements seen = [1 / 2, 1 / 4] ∧ o.session.abrManager.smoothedThroughput = 17 / 40 ∧
      o.session.abrManager.smoothedThroughput =
        (evaluated (measurements seen) o.session.point).foldl
          (fun s m => if s = 0 then m else 3 / 10 * m + 7 / 10 * s) 0 := by
  obtain ⟨seen, o, reach, both⟩ := reach_of_exec (PlaybackOrchestrator.step CxxStd.plain {})
    (StartsUnset CxxStd.plain {}) {} (slowSession ++ secondSession)
    (fun r => measurements r.1 == [1 / 2, 1 / 4] && r.2.session.abrManager.smoothedThroughput == 17 / 40)
    (by decide +kernel)
  obtain ⟨measured, estimate⟩ : measurements seen = [1 / 2, 1 / 4] ∧
      o.session.abrManager.smoothedThroughput = 17 / 40 := by simpa using both
  exact ⟨seen, o, reach, measured, estimate, (estimate_average reach).2 rfl⟩

/-- Accepting the master playlist of the second session takes the estimate from 8
to 5.6, although nothing has been downloaded in between. -/
theorem estimate_diluted :
    ∃ seen o, Reach (PlaybackOrchestrator.step CxxStd.plain {}) anyStep {} seen o ∧
      o.session.abrManager.smoothedThroughput ≠ average id (evaluated (measurements seen) o.session.point) := by
  obtain ⟨seen, o, reach, passed⟩ := reach_of_exec (PlaybackOrchestrator.step CxxStd.plain {}) anyStep {}
    (firstSession ++ secondSession ++ [.session (.transferDone (served twoRates 1))])
    (fun r => r.2.session.abrManager.smoothedThroughput == 28 / 5 &&
      evaluated (measurements r.1) r.2.session.point == [8]) (by decide +kernel)
  obtain ⟨diluted, one⟩ : o.session.abrManager.smoothedThroughput = 28 / 5 ∧
      evaluated (measurements seen) o.session.point = [8] := by simpa using passed
  refine ⟨seen, o, reach, ?_⟩
  rw [diluted, one]
  norm_num [average, smooth_exact]

end Iptv.Player
