import Iptv.Player.Session

namespace Iptv.Player
open Iptv.Manifest Iptv.Network Iptv.Abr

/-- How far a call of `start` or `stop` has come; `start` goes on with its URL behind `stop`. -/
inductive Control
  | idle
  | joining (url : Option Text)
  | clearing (url : Option Text)
  | spawning (url : Text)
  deriving DecidableEq

/-- The orchestrator with the last worker it has started, if any. -/
structure PlaybackOrchestrator (Double : Type) where
  session : Session Double := { point := .finished }
  joinable : Bool := false
  control : Control := .idle

/-- The calls of the owner and their statements, and what happens in the session meanwhile. -/
inductive Command
  | start (masterPlaylistUrl : Text)
  | stop
  | join
  | clear
  | spawn
  | session (event : Event)

variable {Double : Type}

/-- The head of `stop`, up to the join. -/
def PlaybackOrchestrator.beginStop (o : PlaybackOrchestrator Double) (url : Option Text) :
    PlaybackOrchestrator Double :=
  if o.joinable then
    { o with
      session := { o.session with stopRequested := true }
      control := .joining url }
  else { o with control := .clearing url }

def afterStop : Option Text → Control
  | none => .idle
  | some url => .spawning url

/-- A call that has joined the worker, and not yet started another one, owns the members. -/
def Control.behindJoin : Control → Bool
  | .clearing _ | .spawning _ => true
  | .idle | .joining _ => false

structure Parked (o : PlaybackOrchestrator Double) : Prop where
  ended : o.joinable = false → o.session.point = .finished
  joined : o.control.behindJoin = true → o.joinable = false

theorem Parked.beginStop {o : PlaybackOrchestrator Double} (parked : Parked o) (url : Option Text) :
    Parked (o.beginStop url) := by
  unfold PlaybackOrchestrator.beginStop
  split
  · exact ⟨parked.ended, by simp [Control.behindJoin]⟩
  · rename_i none
    exact ⟨parked.ended, fun _ => by simpa using none⟩

variable [Zero Double]

/-- Only the owner's calls request a stop of the worker. -/
def PlaybackOrchestrator.step (lib : CxxStd Double) (policy : RetryPolicy) (o : PlaybackOrchestrator Double) :
    Command → Option (PlaybackOrchestrator Double × List Seen)
  | .start url => if o.control = .idle then some (o.beginStop (some url), []) else none
  | .stop => if o.control = .idle then some (o.beginStop none, []) else none
  | .join =>
    match o.control, o.session.point with
    | .joining url, .finished => some ({ o with joinable := false, control := .clearing url }, [])
    | _, _ => none
  | .clear =>
    match o.control with
    | .clearing url =>
      some ({ o with
        session := { o.session with segmentQueue := [] }
        control := afterStop url },
        [.discarded (o.session.segmentQueue.map (·.sequenceIndex))])
    | _ => none
  | .spawn =>
    match o.control with
    | .spawning url =>
      some ({ session :=
                { Session.start policy url o.session.abrManager with segmentQueue := o.session.segmentQueue }
              joinable := true
              control := .idle }, [])
    | _ => none
  | .session .requestStop => none
  | .session event =>
    (Player.step lib policy o.session event).map fun r => ({ o with session := r.1 }, r.2)

inductive OwnerTransition (lib : CxxStd Double) (policy : RetryPolicy) (o : PlaybackOrchestrator Double) :
    Command → PlaybackOrchestrator Double → List Seen → Prop
  | started {url} (idle : o.control = .idle) :
      OwnerTransition lib policy o (.start url) (o.beginStop (some url)) []
  | stopping (idle : o.control = .idle) : OwnerTransition lib policy o .stop (o.beginStop none) []
  | joined {url} (control : o.control = .joining url) (ended : o.session.point = .finished) :
      OwnerTransition lib policy o .join { o with joinable := false, control := .clearing url } []
  | emptied {url} (control : o.control = .clearing url) :
      OwnerTransition lib policy o .clear
        { o with
          session := { o.session with segmentQueue := [] }
          control := afterStop url }
        [.discarded (o.session.segmentQueue.map (·.sequenceIndex))]
  | spawned {url} (control : o.control = .spawning url) :
      OwnerTransition lib policy o .spawn
        { session :=
            { Session.start policy url o.session.abrManager with segmentQueue := o.session.segmentQueue }
          joinable := true
          control := .idle } []
  | worked {event session new} (run : Player.step lib policy o.session event = some (session, new)) :
      OwnerTransition lib policy o (.session event) { o with session } new

theorem owner_cases {lib : CxxStd Double} {policy : RetryPolicy} {o o' : PlaybackOrchestrator Double}
    {command : Command} {new : List Seen} (run : o.step lib policy command = some (o', new)) :
    OwnerTransition lib policy o command o' new := by
  cases command with
  | start url =>
    simp only [PlaybackOrchestrator.step] at run
    split at run <;> rename_i idle <;> cases run
    exact .started idle
  | stop =>
    simp only [PlaybackOrchestrator.step] at run
    split at run <;> rename_i idle <;> cases run
    exact .stopping idle
  | join =>
    simp only [PlaybackOrchestrator.step] at run
    split at run
    · rename_i url control ended
      cases run
      exact .joined control ended
    · simp at run
  | clear =>
    simp only [PlaybackOrchestrator.step] at run
    split at run
    · rename_i url control
      cases run
      exact .emptied control
    · simp at run
  | spawn =>
    simp only [PlaybackOrchestrator.step] at run
    split at run
    · rename_i url control
      cases run
      exact .spawned control
    · simp at run
  | session event =>
    have stepped : (Player.step lib policy o.session event).map (fun r => ({ o with session := r.1 }, r.2)) =
        some (o', new) := by
      cases event with
      | requestStop => simp [PlaybackOrchestrator.step] at run
      | worker | transferDone transfer | pop => exact run
    obtain ⟨r, inner, same⟩ := Option.map_eq_some_iff.mp stepped
    cases same
    exact .worked inner

/-- Behind the end of the worker only the consumer goes on. -/
theorem finished_step {lib : CxxStd Double} {policy : RetryPolicy} {s s' : Session Double} {e : Event}
    {new : List Seen} (ended : s.point = .finished) (run : Player.step lib policy s e = some (s', new)) :
    s'.point = .finished := by
  cases step_cases run with
  | popped | stopped => exact ended
  | cancelled => rfl
  | masterRejected | variantFailed | segmentFailed => rfl
  | began point | retried point | masterThrew point | masterAccepted point | variantLoaded point
  | segmentLoaded point | variantStarted point | segmentsEnded point | segmentSkipped point
  | segmentStarted point | pushed point | threw point | kept point | switched point | cleared point =>
    simp [ended] at point

theorem Parked.step {lib : CxxStd Double} {policy : RetryPolicy} {o o' : PlaybackOrchestrator Double}
    {command : Command} {new : List Seen} (parked : Parked o)
    (run : o.step lib policy command = some (o', new)) : Parked o' := by
  cases owner_cases run with
  | started | stopping => exact parked.beginStop _
  | joined control ended => exact ⟨fun _ => ended, fun _ => rfl⟩
  | emptied control =>
    have joined : o.joinable = false := parked.joined (by rw [control]; rfl)
    exact ⟨parked.ended, fun _ => joined⟩
  | spawned => exact ⟨by simp, by simp [Control.behindJoin]⟩
  | worked inner => exact ⟨fun idle => finished_step (parked.ended idle) inner, parked.joined⟩

end Iptv.Player
