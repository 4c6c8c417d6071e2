import Iptv.Player.ServedRuns

namespace Iptv.Player
open Iptv.Manifest Iptv.Network Iptv.Abr
variable {Double : Type} {lib : CxxStd Double} {policy : RetryPolicy}

def Seen.isTransferStart : Seen → Bool
  | .transferStarted _ => true
  | _ => false

def transfersStarted (seen : List Seen) : Nat := seen.countP Seen.isTransferStart

/-- The attempt in flight would be retried after this transfer. -/
def Session.retries (policy : RetryPolicy) (s : Session Double) (transfer : Transfer) : Bool :=
  match s.point with
  | .fetch purpose download =>
    match download.finish policy (purpose.stopped s) transfer with
    | .retry _ => true
    | .done _ => false
  | _ => false

/-- An attempt other than the one that was in flight in `origin` is not retried. -/
def NoLateRetry (policy : RetryPolicy) (origin s : Session Double) : Event → Prop
  | .transferDone transfer => s.point ≠ origin.point → s.retries policy transfer = false
  | .worker | .pop | .requestStop => True

instance [DecidableEq Double] (origin s : Session Double) (e : Event) :
    Decidable (NoLateRetry policy origin s e) :=
  match e with
  | .transferDone transfer =>
    inferInstanceAs (Decidable (s.point ≠ origin.point → s.retries policy transfer = false))
  | .worker | .pop | .requestStop => inferInstanceAs (Decidable True)

/-- How far the worker has come since the stop request in `origin`: it stands
where it stood, or in front of the next attempt of the download it was in, or
in the one attempt it has started since, or outside of every download. -/
inductive Phase (origin : Session Double) (seen : List Seen) (s : Session Double) : Prop
  | unmoved (point : s.point = origin.point) (none : transfersStarted seen = 0)
  | ready {purpose download} (point : s.point = .fetch purpose download)
      (waiting : download.performing = false) (none : transfersStarted seen = 0)
      (moved : ∀ purpose' earlier, origin.point = .fetch purpose' earlier → earlier.attempt < download.attempt)
  | flying {purpose download} (point : s.point = .fetch purpose download)
      (performing : download.performing = true) (moved : s.point ≠ origin.point)
      (one : transfersStarted seen = 1)
  | out (point : ∀ purpose download, s.point ≠ .fetch purpose download) (few : transfersStarted seen ≤ 1)

theorem Phase.few {origin s : Session Double} {seen : List Seen} (phase : Phase origin seen s) :
    transfersStarted seen ≤ 1 := by
  cases phase with
  | unmoved _ none => omega
  | ready _ _ none _ => omega
  | flying _ _ _ one => omega
  | out _ few => exact few

theorem transfersStarted_append (seen new : List Seen) :
    transfersStarted (seen ++ new) = transfersStarted seen + transfersStarted new := by
  simp [transfersStarted]

/-- A step of another thread leaves the worker where it is. -/
theorem Phase.same {origin s s' : Session Double} {seen new : List Seen} (phase : Phase origin seen s)
    (point : s'.point = s.point) (quiet : transfersStarted new = 0) : Phase origin (seen ++ new) s' := by
  have count : transfersStarted (seen ++ new) = transfersStarted seen := by
    rw [transfersStarted_append, quiet, Nat.add_zero]
  cases phase with
  | unmoved stays none => exact .unmoved (point.trans stays) (count.trans none)
  | ready stays waiting none moved => exact .ready (point.trans stays) waiting (count.trans none) moved
  | flying stays performing moved one =>
    exact .flying (point.trans stays) performing (by rwa [point]) (count.trans one)
  | out stays few => exact .out (by simpa only [point] using stays) (by rwa [count])

theorem Phase.leave {origin s s' : Session Double} {seen new : List Seen} (phase : Phase origin seen s)
    (point : ∀ purpose download, s'.point ≠ .fetch purpose download)
    (quiet : transfersStarted new = 0) : Phase origin (seen ++ new) s' :=
  .out point (by rw [transfersStarted_append, quiet]; exact phase.few)

/-- The attempt that begins is the first one since the stop request. -/
theorem Phase.begin {origin s : Session Double} {seen : List Seen} (phase : Phase origin seen s)
    {purpose : Purpose Double} {download : Download} (point : s.point = .fetch purpose download)
    (waiting : download.performing = false) :
    Phase origin (seen ++ [.transferStarted download.url])
      (s.goto (.fetch purpose { download with performing := true })) := by
  have count : transfersStarted (seen ++ [.transferStarted download.url]) = transfersStarted seen + 1 :=
    transfersStarted_append seen _
  cases phase with
  | unmoved stays none =>
    refine .flying rfl rfl ?_ (by omega)
    intro same
    rw [← stays, point] at same
    injection same with _ equal
    rw [← equal] at waiting
    simp at waiting
  | @ready purpose' ready stays _ none moved =>
    refine .flying rfl rfl ?_ (by omega)
    intro same
    rw [point] at stays
    injection stays with _ equal
    have later := moved _ _ same.symm
    rw [← equal] at later
    exact Nat.lt_irrefl _ later
  | flying stays performing _ _ =>
    rw [point] at stays
    injection stays with _ equal
    rw [← equal, waiting] at performing
    simp at performing
  | out stays _ => exact absurd point (stays _ _)

/-- Only the attempt that was in flight at the stop request is followed by another one. -/
theorem Phase.retry {origin s : Session Double} {seen : List Seen} (phase : Phase origin seen s)
    {purpose : Purpose Double} {download next : Download} {transfer : Transfer}
    (point : s.point = .fetch purpose download) (performing : download.performing = true)
    (attempt : download.finish policy (purpose.stopped s) transfer = .retry next)
    (met : NoLateRetry policy origin s (.transferDone transfer)) :
    Phase origin (seen ++ []) (s.goto (.fetch purpose next)) := by
  obtain ⟨_, _, advanced, waiting⟩ := finish_retry attempt
  have retried : s.retries policy transfer = true := by simp [Session.retries, point, attempt]
  rw [List.append_nil]
  cases phase with
  | unmoved stays none =>
    refine .ready rfl waiting none ?_
    intro purpose' earlier origins
    rw [← stays, point] at origins
    injection origins with _ equal
    rw [advanced, equal]
    omega
  | ready stays idle _ _ =>
    rw [point] at stays
    injection stays with _ equal
    rw [← equal, performing] at idle
    simp at idle
  | flying _ _ moved _ =>
    have final := met moved
    rw [retried] at final
    simp at final
  | out stays _ => exact absurd point (stays _ _)

theorem afterSegments_ne_fetch (ctx : PlaybackContext Double) (playlist : Playlist Double)
    (purpose : Purpose Double) (download : Download) :
    afterSegments ctx playlist ≠ .fetch purpose download := by
  unfold afterSegments
  split <;> simp

variable [Zero Double]

theorem Phase.step {origin s s' : Session Double} {seen new : List Seen} {e : Event}
    (phase : Phase origin seen s) (stop : s.stopRequested = true) (met : NoLateRetry policy origin s e)
    (run : Player.step lib policy s e = some (s', new)) :
    Phase origin (seen ++ new) s' ∧ s'.stopRequested = true := by
  cases step_cases run with
  | popped queue => exact ⟨phase.same rfl rfl, stop⟩
  | stopped => exact ⟨phase.same rfl rfl, rfl⟩
  | began point ready => exact ⟨phase.begin point ready, stop⟩
  | retried point performing attempt => exact ⟨phase.retry point performing attempt met, stop⟩
  | masterRejected | masterThrew | variantFailed | segmentFailed | cancelled | threw =>
    exact ⟨phase.leave (by simp [Session.goto]) rfl, stop⟩
  | masterAccepted | kept | switched | pushed => exact ⟨phase.leave (by simp) rfl, stop⟩
  | variantLoaded | segmentLoaded => exact ⟨phase.leave (by simp [Session.goto]) rfl, stop⟩
  | segmentsEnded point => exact ⟨phase.leave (afterSegments_ne_fetch _ _) rfl, stop⟩
  | cleared point => exact ⟨phase.leave (afterSegments_ne_fetch _ _) rfl, stop⟩
  | variantStarted _ running => simp [stop] at running
  | segmentSkipped _ running => simp [stop] at running
  | segmentStarted _ running => simp [stop] at running

/-- From every state in which the stop is requested the worker starts at most
one more transfer attempt, as long as no attempt begun since is retried. -/
theorem transfersStarted_le_one {origin s : Session Double} {seen : List Seen}
    (stop : origin.stopRequested = true)
    (reach : Reach (Player.step lib policy) (NoLateRetry policy origin) origin seen s) :
    transfersStarted seen ≤ 1 := by
  have invariant : Phase origin seen s ∧ s.stopRequested = true := by
    refine reach.traced (fun past state => Phase origin past state ∧ state.stopRequested = true)
      ⟨.unmoved rfl rfl, stop⟩ ?_
    intro past state state' e new held met run
    exact held.1.step held.2 met run
  exact invariant.1.few

def timedOut : Transfer := ⟨.operationTimedOut, 0, [], 10000000, 0⟩

/-- The first master download is in flight when the stop is requested. -/
def stoppedInFlight : Session Rat where
  stopRequested := true
  point := .fetch (.master (text "http://h/m.m3u8"))
    { Download.start {} (text "http://h/m.m3u8") with performing := true }

/-- It times out and is retried once; the second attempt ends the session. -/
theorem transfersStarted_le_one_stoppedInFlight :
    ∃ seen s, Reach (Player.step CxxStd.plain {}) (NoLateRetry {} stoppedInFlight) stoppedInFlight seen s ∧
      s.point = .finished ∧ transfersStarted seen ≤ 1 := by
  obtain ⟨seen, s, reach, ended⟩ := reach_of_exec (Player.step CxxStd.plain {})
    (NoLateRetry {} stoppedInFlight) stoppedInFlight
    [.transferDone timedOut, .worker, .transferDone (served (text "#EXTM3U") 1)]
    (fun r => r.2.point == .finished) (by decide +kernel)
  exact ⟨seen, s, reach, by simpa using ended, transfersStarted_le_one rfl reach⟩

/-- The stop comes before the first attempt for the master playlist, and the
server never answers: the worker goes through every retry of the policy. -/
theorem transfersStarted_four :
    ∃ before origin seen s,
      Reach (Player.step CxxStd.plain {}) anyStep (Session.start {} (text "http://h/m.m3u8") {}) before origin ∧
        origin.stopRequested = true ∧
        Reach (Player.step CxxStd.plain {}) anyStep origin seen s ∧ transfersStarted seen = 4 := by
  obtain ⟨seen, s, reach, four⟩ := reach_of_exec (Player.step CxxStd.plain {}) anyStep
    { Session.start {} (text "http://h/m.m3u8") {} with stopRequested := true }
    [.worker, .transferDone timedOut, .worker, .transferDone timedOut, .worker, .transferDone timedOut,
      .worker, .transferDone timedOut]
    (fun r => transfersStarted r.1 == 4) (by decide +kernel)
  exact ⟨_, _, seen, s, .next (e := .requestStop) .start trivial rfl, rfl, reach, by simpa using four⟩

end Iptv.Player
