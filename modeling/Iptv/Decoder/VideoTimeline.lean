import Iptv.Decoder.PacketTimestamps

namespace Iptv.Decoder
variable {avutil : AvUtil}

/-- Frames that follow one another without a gap, from the one time to the other. -/
def Marches : Int → List DecodedFrame → Int → Prop
  | start, [], finish => start = finish
  | start, frame :: frames, finish =>
    frame.pts = start ∧ Marches (frame.pts + max frame.duration kMinimumFrameStepMs) frames finish

theorem Marches.append {start between finish : Int} {first second : List DecodedFrame}
    (before : Marches start first between) (behind : Marches between second finish) :
    Marches start (first ++ second) finish := by
  induction first generalizing start with
  | nil =>
    obtain rfl : start = between := before
    exact behind
  | cons frame frames ih => exact ⟨before.1, ih before.2⟩

theorem Marches.head {start finish : Int} {frames : List DecodedFrame} (marches : Marches start frames finish) :
    ∀ frame, frames.head? = some frame → frame.pts = start := by
  intro frame first
  cases frames with
  | nil => cases first
  | cons _ frames =>
    cases first
    exact marches.1

theorem Marches.isChain {start finish : Int} {frames : List DecodedFrame} (marches : Marches start frames finish) :
    frames.IsChain fun frame next => next.pts = frame.pts + max frame.duration kMinimumFrameStepMs := by
  induction frames generalizing start with
  | nil => exact .nil
  | cons frame frames ih => exact List.isChain_cons.mpr ⟨marches.2.head, ih marches.2⟩

/-- Every frame is shown later than all that come before it. -/
theorem Marches.increasing {start finish : Int} {frames : List DecodedFrame}
    (marches : Marches start frames finish) : frames.Pairwise fun frame next => frame.pts < next.pts := by
  refine (marches.isChain.imp fun frame next step => ?_).pairwise
  have positive : 1 ≤ max frame.duration kMinimumFrameStepMs := Int.le_max_right _ _
  omega

/-- What a call packs until it ends, whether it returns these frames or loses
them to an exception. -/
structure PackedFrames where
  extracted : List DecodedFrame
  rest : List ReceiveResult
  nextPtsMs : Int

/-- The loop of `releaseReadyFrames` with the frames that it packs. `memory` is the
number of pictures whose payload can be allocated, if it is limited. -/
def packReadyFrames (avutil : AvUtil) (memory : Option Nat) : List ReceiveResult → Int → PackedFrames
  | [], nextPtsMs => ⟨[], [], nextPtsMs⟩
  | .error _ :: rest, nextPtsMs => ⟨[], rest, nextPtsMs⟩
  | .frame picture rate :: rest, nextPtsMs =>
    if memory = some 0 then ⟨[], rest, nextPtsMs⟩
    else match packReadyFrame avutil picture rate nextPtsMs with
      | .error _ => ⟨[], rest, nextPtsMs⟩
      | .ok (packed, later) =>
        let further := packReadyFrames avutil (memory.map Nat.pred) rest later
        ⟨packed :: further.extracted, further.rest, further.nextPtsMs⟩
termination_by structural results => results

def VideoCall.run (avutil : AvUtil) (impl : DetectingImpl) :
    VideoCall → Except Failure (List DecodedFrame) × DetectingImpl
  | .decode compressedData ptsUs dtsUs reply => Decoder.decode avutil impl compressedData ptsUs dtsUs reply
  | .flush reply => Decoder.flush avutil impl reply

/-- The decoder in front of the loop of `releaseReadyFrames` and the results that
are ready for it, if the call gets that far. -/
def VideoCall.releases (impl : DetectingImpl) : VideoCall → Option (DetectingImpl × List ReceiveResult)
  | .decode compressedData ptsUs dtsUs reply =>
    if reachesCodec impl compressedData reply then
      let answer := reply.send (makePacket compressedData ptsUs dtsUs)
      match detectCodec impl reply, answer.error with
      | .ok detected, none => some (detected, impl.results ++ answer.released)
      | _, _ => none
    else none
  | .flush reply =>
    if impl.isOpen && !impl.endOfStream && reply.refusal.isNone then
      some ({ impl with endOfStream := true }, impl.results ++ reply.released)
    else none

/-- A call, and how many pictures memory lasts for in it. -/
structure TimedCall where
  call : VideoCall
  memory : Option Nat := none

/-- A call of the decoder with the frames that it extracts. -/
def timelineStep (avutil : AvUtil) (impl : DetectingImpl) (c : TimedCall) :
    Option (DetectingImpl × List DecodedFrame) :=
  match c.call.releases impl with
  | none => some ((c.call.run avutil impl).2, [])
  | some (ready, results) =>
    let packed := packReadyFrames avutil c.memory results ready.nextPtsMs
    some ({ ready with codecContext := some ⟨packed.rest⟩, nextPtsMs := packed.nextPtsMs }, packed.extracted)

/-- The frames of a call march from its time to the next one, whatever ends it. -/
theorem packReadyFrames_marches (avutil : AvUtil) (memory : Option Nat) (results : List ReceiveResult)
    (nextPtsMs : Int) :
    Marches nextPtsMs (packReadyFrames avutil memory results nextPtsMs).extracted
      (packReadyFrames avutil memory results nextPtsMs).nextPtsMs := by
  induction results generalizing memory nextPtsMs with
  | nil => rfl
  | cons result rest ih =>
    cases result with
    | error status => rfl
    | frame picture rate =>
      by_cases exhausted : memory = some 0
      · simp [packReadyFrames, exhausted, Marches]
      · cases run : packReadyFrame avutil picture rate nextPtsMs with
        | error exception => simp [packReadyFrames, exhausted, run, Marches]
        | ok packed =>
          obtain ⟨packed, later⟩ := packed
          obtain ⟨pts, next, step⟩ := packReadyFrame_ok run
          have behind : later = packed.pts + max packed.duration kMinimumFrameStepMs := by rw [next, step, pts]
          simp only [packReadyFrames, if_neg exhausted, run]
          exact ⟨pts, behind ▸ ih _ later⟩

/-- With enough memory these are the frames that `releaseReadyFrames` appends. -/
theorem packReadyFrames_unlimited (avutil : AvUtil) (results : List ReceiveResult) (nextPtsMs : Int)
    (frames : List DecodedFrame) :
    (releaseReadyFrames avutil results nextPtsMs frames).rest = (packReadyFrames avutil none results nextPtsMs).rest ∧
      (releaseReadyFrames avutil results nextPtsMs frames).nextPtsMs =
        (packReadyFrames avutil none results nextPtsMs).nextPtsMs ∧
      ∀ shown, (releaseReadyFrames avutil results nextPtsMs frames).outcome = .ok shown →
        shown = frames ++ (packReadyFrames avutil none results nextPtsMs).extracted := by
  induction results generalizing nextPtsMs frames with
  | nil => simp [releaseReadyFrames, packReadyFrames, eq_comm]
  | cons result rest ih =>
    cases result with
    | error status => cases status <;> simp [releaseReadyFrames, packReadyFrames, eq_comm]
    | frame picture rate =>
      cases run : packReadyFrame avutil picture rate nextPtsMs with
      | error exception => simp [releaseReadyFrames, packReadyFrames, run]
      | ok packed =>
        obtain ⟨packed, later⟩ := packed
        simpa [releaseReadyFrames, packReadyFrames, run] using ih later (frames ++ [packed])

/-- A call that gets as far as the loop is that loop. -/
theorem VideoCall.run_released (avutil : AvUtil) {impl ready : DetectingImpl} {c : VideoCall}
    {results : List ReceiveResult} (released : c.releases impl = some (ready, results)) :
    ready.nextPtsMs = impl.nextPtsMs ∧
      c.run avutil impl =
        ((releaseReadyFrames avutil results ready.nextPtsMs []).outcome,
          { ready with
            codecContext := some ⟨(releaseReadyFrames avutil results ready.nextPtsMs []).rest⟩
            nextPtsMs := (releaseReadyFrames avutil results ready.nextPtsMs []).nextPtsMs }) := by
  cases c with
  | decode compressedData ptsUs dtsUs reply =>
    unfold VideoCall.releases at released
    dsimp only at released
    split at released
    · rename_i reaches
      obtain ⟨detected, context, detection, isOpen, received, next, allocated, sent⟩ :=
        decode_sent avutil reaches ptsUs dtsUs
      simp only [detection] at released
      cases status : (reply.send (makePacket compressedData ptsUs dtsUs)).error with
      | some error => simp [status] at released
      | none =>
        simp only [status, Option.some.injEq, Prod.mk.injEq] at released
        obtain ⟨rfl, rfl⟩ := released
        refine ⟨next, ?_⟩
        simp [VideoCall.run, sent, sendPacket, allocated, isOpen, status, requirePacketAccepted, received]
    · cases released
  | flush reply =>
    unfold VideoCall.releases at released
    dsimp only at released
    split at released
    · rename_i reaches
      simp only [Bool.and_eq_true, Bool.not_eq_true', Option.isNone_iff_eq_none] at reaches
      obtain ⟨⟨isOpen, running⟩, accepted⟩ := reaches
      obtain ⟨context, present⟩ := Option.isSome_iff_exists.mp isOpen
      cases released
      refine ⟨rfl, ?_⟩
      simp [VideoCall.run, Decoder.flush, drainRemainingFrames, running, present, accepted, DetectingImpl.results]
    · cases released

/-- Any other call returns nothing and leaves the clock alone. -/
theorem VideoCall.run_unreleased (avutil : AvUtil) {impl : DetectingImpl} {c : VideoCall}
    (unreleased : c.releases impl = none) :
    (c.run avutil impl).2.nextPtsMs = impl.nextPtsMs ∧ ∀ frames, (c.run avutil impl).1 = .ok frames → frames = [] := by
  cases c with
  | decode compressedData ptsUs dtsUs reply =>
    unfold VideoCall.releases at unreleased
    dsimp only at unreleased
    split at unreleased
    · rename_i reaches
      obtain ⟨detected, context, detection, isOpen, received, next, allocated, sent⟩ :=
        decode_sent avutil reaches ptsUs dtsUs
      simp only [detection] at unreleased
      cases status : (reply.send (makePacket compressedData ptsUs dtsUs)).error with
      | none => simp [status] at unreleased
      | some error =>
        cases error <;>
          simp [VideoCall.run, sent, sendPacket, allocated, isOpen, status, requirePacketAccepted, next]
    · rename_i stopped
      obtain ⟨nothing, _, next⟩ := decode_stopped (by simpa using stopped) ptsUs dtsUs reply.send
      refine ⟨next, fun frames returned => ?_⟩
      change (Decoder.decode avutil impl compressedData ptsUs dtsUs { reply with send := reply.send }).1 = _ at returned
      simpa [returned, Answer.ofFrames, Answer.frames] using nothing
  | flush reply =>
    cases reaches : impl.isOpen && !impl.endOfStream with
    | false =>
      obtain ⟨nothing, _, next⟩ := flush_stopped reaches reply
      refine ⟨next, fun frames returned => ?_⟩
      change (Decoder.flush avutil impl reply).1 = _ at returned
      simpa [returned, Answer.ofFrames, Answer.frames] using nothing
    | true =>
      cases refusal : reply.refusal with
      | none => simp [VideoCall.releases, reaches, refusal] at unreleased
      | some status =>
        rw [Bool.and_eq_true, Bool.not_eq_true'] at reaches
        obtain ⟨context, present⟩ := Option.isSome_iff_exists.mp reaches.1
        simp [VideoCall.run, Decoder.flush, drainRemainingFrames, reaches.2, present, refusal]

/-- As long as memory lasts, a step is the call, and a call that ends without an
exception returns the frames that it extracted. -/
theorem timelineStep_call (avutil : AvUtil) (impl : DetectingImpl) (c : VideoCall) :
    ∃ extracted, timelineStep avutil impl ⟨c, none⟩ = some ((c.run avutil impl).2, extracted) ∧
      ∀ frames, (c.run avutil impl).1 = .ok frames → frames = extracted := by
  unfold timelineStep
  cases released : c.releases impl with
  | none => exact ⟨[], rfl, (VideoCall.run_unreleased avutil released).2⟩
  | some entry =>
    obtain ⟨ready, results⟩ := entry
    obtain ⟨_, run⟩ := VideoCall.run_released avutil released
    obtain ⟨rest, next, outcome⟩ := packReadyFrames_unlimited avutil results ready.nextPtsMs []
    refine ⟨(packReadyFrames avutil none results ready.nextPtsMs).extracted, ?_, fun frames returned => ?_⟩
    · rw [run, rest, next]
    · rw [run] at returned
      simpa using outcome frames returned

theorem timelineStep_marches {impl impl' : DetectingImpl} {c : TimedCall} {extracted : List DecodedFrame}
    (run : timelineStep avutil impl c = some (impl', extracted)) :
    Marches impl.nextPtsMs extracted impl'.nextPtsMs := by
  unfold timelineStep at run
  cases released : c.call.releases impl with
  | none =>
    rw [released] at run
    cases run
    exact (VideoCall.run_unreleased avutil released).1.symm
  | some entry =>
    obtain ⟨ready, results⟩ := entry
    rw [released] at run
    cases run
    rw [← (VideoCall.run_released avutil released).1]
    exact packReadyFrames_marches avutil c.memory results ready.nextPtsMs

/-- Over every run of a decoder, whatever the codec reports and wherever an
extraction fails, the first frame has time zero, each further one follows on the
end of the one before, and so time increases strictly. -/
theorem timeline_marches {codecHint : String} {reply : ConstructionReply} {impl last : DetectingImpl}
    {extracted : List DecodedFrame} (accepted : construct codecHint reply = .ok impl)
    (run : Reach (timelineStep avutil) anyStep impl extracted last) :
    (∀ frame, extracted.head? = some frame → frame.pts = 0) ∧
      extracted.IsChain (fun frame next => next.pts = frame.pts + max frame.duration 1) ∧
      extracted.Pairwise fun frame next => frame.pts < next.pts := by
  have fresh : impl.nextPtsMs = 0 := (construct_ok accepted).2.1
  have marches : Marches 0 extracted last.nextPtsMs :=
    run.traced (fun past s => Marches 0 past s.nextPtsMs) fresh.symm
      fun past _ step => past.append (timelineStep_marches step)
  exact ⟨marches.head, marches.isChain, marches.increasing⟩

/-- A call that loses its first picture to a second one without rows, a call that memory
lasts for only one picture of, and a flush, under three frame rates. -/
def troubledCalls : List TimedCall :=
  [⟨.decode [0] (-1) (-1) ⟨true, none, everythingOpens, true, fun _ => ⟨none, [.frame smallPicture ⟨25, 1⟩,
      .frame { smallPicture with height := 0 } ⟨25, 1⟩, .frame smallPicture ⟨3000, 1⟩]⟩⟩, none⟩,
    ⟨.decode [1] (-1) (-1) ⟨true, none, everythingOpens, true,
      fun _ => ⟨none, [.frame smallPicture ⟨25, 1⟩]⟩⟩, some 1⟩,
    ⟨.flush ⟨none, [.frame smallPicture ⟨0, 1⟩, .frame smallPicture ⟨25, 1⟩]⟩, none⟩]

theorem timeline_marches_troubled :
    ∃ extracted last, Reach (timelineStep .plain) anyStep openVideo extracted last ∧
      extracted.map (·.pts) = [0, 40, 41, 42] ∧
      (∀ frame, extracted.head? = some frame → frame.pts = 0) ∧
      extracted.IsChain (fun frame next => next.pts = frame.pts + max frame.duration 1) ∧
      extracted.Pairwise fun frame next => frame.pts < next.pts := by
  obtain ⟨extracted, last, run, times⟩ := reach_of_exec (timelineStep .plain) anyStep openVideo troubledCalls
    (fun r => r.1.map (·.pts) == [0, 40, 41, 42]) (by decide)
  exact ⟨extracted, last, run, by simpa using times, timeline_marches openVideo_accepted run⟩

end Iptv.Decoder
