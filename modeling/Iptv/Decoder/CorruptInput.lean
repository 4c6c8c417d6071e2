import Iptv.Decoder.TimeBases

namespace Iptv.Decoder
universe u v
variable {avutil : AvUtil}

/-- A `decode` call with what the codec answered in it: the status of the send,
and the results that the call received. -/
structure Heard (R : Type u) (F : Type v) where
  sendError : Option AVError
  received : List R
  outcome : Except F (List DecodedFrame)

/-- The results at the front of those that were ready which are not left over. -/
def receivedOf {R : Type u} (ready rest : List R) : List R := ready.take (ready.length - rest.length)

theorem receivedOf_append {R : Type u} (consumed rest : List R) : receivedOf (consumed ++ rest) rest = consumed := by
  simp [receivedOf]

/-- A packet as the application gives it to a decoder. -/
structure PacketInput where
  compressedData : List UInt8
  ptsUs : Int
  dtsUs : Int

/-- The packet that each decoder makes of it. -/
def PacketInput.video (input : PacketInput) : AVPacket := makePacket input.compressedData input.ptsUs input.dtsUs

def PacketInput.audio (input : PacketInput) (impl : Audio.Impl) : AVPacket :=
  Audio.setPacket impl.packet input.compressedData input.ptsUs input.dtsUs

/-- The frames of the good results of a video call, and those of an audio call. -/
def videoFrames (avutil : AvUtil) (nextPtsMs : Int) (received : List ReceiveResult) : List DecodedFrame :=
  goodFrames avutil received nextPtsMs

def audioFrames (received : List Audio.ReceiveResult) : List DecodedFrame :=
  received.filterMap fun
    | .frame pts resampling => (Audio.resample pts resampling).toOption
    | .error _ => none

/-- A call that returns, with every good frame that it received among its frames. -/
def Heard.Tolerated {R : Type u} {F : Type v} (good : List R → List DecodedFrame) (heard : Heard R F) : Prop :=
  ∃ frames, heard.outcome = .ok frames ∧ (good heard.received).Sublist frames

/-- A video call stands in the trace next to the synthesized time it started from. -/
structure VideoHeard extends Heard ReceiveResult Failure where
  nextPtsMs : Int

def VideoHeard.Tolerated (avutil : AvUtil) (heard : VideoHeard) : Prop :=
  heard.toHeard.Tolerated (videoFrames avutil heard.nextPtsMs)

def videoDecodeStep (avutil : AvUtil) (impl : DetectingImpl) (call : PacketInput × PacketReply) :
    Option (DetectingImpl × List VideoHeard) :=
  let answer := decode avutil impl call.1.compressedData call.1.ptsUs call.1.dtsUs call.2
  let reply := call.2.send call.1.video
  some (answer.2,
    if reachesCodec impl call.1.compressedData call.2 then
      [⟨⟨reply.error, receivedOf (impl.results ++ reply.released) answer.2.results, answer.1⟩, impl.nextPtsMs⟩]
    else [⟨⟨none, [], answer.1⟩, impl.nextPtsMs⟩])

/-- The video packet has no data or gets as far as the codec, and the only
failing status there is that of corrupt input; frames are well formed. -/
structure VideoTolerable (impl : DetectingImpl) (call : PacketInput × PacketReply) : Prop where
  reaches : call.1.compressedData = [] ∨ reachesCodec impl call.1.compressedData call.2 = true
  status : (call.2.send call.1.video).error = none ∨ (call.2.send call.1.video).error = some .invalidData
  results : ∀ result ∈ (call.2.send call.1.video).released, result.raises = false

/-- Without exceptions a drain returns the good frames of all that it receives. -/
theorem releaseReadyFrames_calm (avutil : AvUtil) {results : List ReceiveResult} (nextPtsMs : Int)
    (frames : List DecodedFrame) (calm : ∀ result ∈ results, result.raises = false) :
    ∃ consumed, results = consumed ++ (releaseReadyFrames avutil results nextPtsMs frames).rest ∧
      (releaseReadyFrames avutil results nextPtsMs frames).outcome =
        .ok (frames ++ goodFrames avutil consumed nextPtsMs) := by
  induction results generalizing nextPtsMs frames with
  | nil => exact ⟨[], rfl, by simp [releaseReadyFrames, goodFrames]⟩
  | cons result rest ih =>
    obtain ⟨calmFirst, calmRest⟩ := List.forall_mem_cons.mp calm
    cases result with
    | error status =>
      refine ⟨[.error status], ?_, ?_⟩ <;> cases status <;>
        simp_all [releaseReadyFrames, goodFrames, ReceiveResult.raises]
    | frame picture rate =>
      have good : (ReceiveResult.frame picture rate).isGood = true := by
        simpa [ReceiveResult.raises, ReceiveResult.isGood] using calmFirst
      obtain ⟨packed, later, run⟩ := packReadyFrame_good avutil nextPtsMs good
      obtain ⟨consumed, split, outcome⟩ := ih later (frames ++ [packed]) calmRest
      refine ⟨.frame picture rate :: consumed, by simp [releaseReadyFrames, run, ← split], ?_⟩
      simp [releaseReadyFrames, run, outcome, goodFrames]

/-- The video decoder holds nothing that could raise. -/
def DetectingImpl.Calm (impl : DetectingImpl) : Prop := ∀ result ∈ impl.results, result.raises = false

theorem sendPacket_calm (avutil : AvUtil) {impl : DetectingImpl} {context : CodecContext} {packet : AVPacket}
    {reply : PacketReply} (isOpen : impl.codecContext = some context) (allocated : reply.packetAllocated = true)
    (status : (reply.send packet).error = none ∨ (reply.send packet).error = some .invalidData)
    (calm : ∀ result ∈ context.results ++ (reply.send packet).released, result.raises = false) :
    ∃ consumed, context.results ++ (reply.send packet).released =
        consumed ++ (sendPacket avutil impl packet reply).2.results ∧
      (sendPacket avutil impl packet reply).1 = .ok (goodFrames avutil consumed impl.nextPtsMs) := by
  unfold sendPacket
  simp only [allocated, Bool.true_eq_false, if_false, isOpen]
  generalize context.results ++ (reply.send packet).released = results at calm
  rcases status with taken | corrupt
  · obtain ⟨consumed, split, outcome⟩ := releaseReadyFrames_calm avutil impl.nextPtsMs [] calm
    simp only [taken, requirePacketAccepted]
    exact ⟨consumed, split, by simpa using outcome⟩
  · simp only [corrupt, requirePacketAccepted]
    exact ⟨[], rfl, rfl⟩

/-- The video decoder tolerates every call, corrupt or not. -/
theorem videoDecodeStep_tolerated {impl impl' : DetectingImpl} {call : PacketInput × PacketReply}
    {new : List VideoHeard} (calm : impl.Calm) (tolerable : VideoTolerable impl call)
    (run : videoDecodeStep avutil impl call = some (impl', new)) :
    impl'.Calm ∧ ∀ heard ∈ new, heard.Tolerated avutil := by
  obtain ⟨input, reply⟩ := call
  obtain ⟨arrives, status, released⟩ := tolerable
  cases run
  dsimp only at arrives status released ⊢
  by_cases reaches : reachesCodec impl input.compressedData reply = true
  · rw [if_pos reaches]
    obtain ⟨detected, context, _, isOpen, results, next, allocated, sent⟩ :=
      decode_sent avutil reaches input.ptsUs input.dtsUs
    have ready : ∀ result ∈ context.results ++ (reply.send input.video).released, result.raises = false := by
      intro result member
      rw [results] at member
      exact (List.mem_append.mp member).elim (calm result) (released result)
    obtain ⟨consumed, split, outcome⟩ := sendPacket_calm avutil isOpen allocated status ready
    change decode avutil impl input.compressedData input.ptsUs input.dtsUs reply =
      sendPacket avutil detected input.video reply at sent
    rw [← sent] at split outcome
    rw [results] at split ready
    refine ⟨fun result member => ready result (by rw [split]; exact List.mem_append_right _ member), ?_⟩
    rw [split, receivedOf_append, outcome, next]
    simp [VideoHeard.Tolerated, Heard.Tolerated, videoFrames]
  · have empty : input.compressedData = [] := arrives.resolve_right reaches
    rw [if_neg reaches, empty]
    refine ⟨calm, ?_⟩
    simp [VideoHeard.Tolerated, Heard.Tolerated, decode, videoFrames, goodFrames]

/-- The resampler succeeds on a frame in each of its steps. -/
structure Audio.Resampling.Succeeds (resampling : Audio.Resampling) : Prop where
  allocated : resampling.allocated = true
  initialized : resampling.initialized = true
  outSamples : 0 ≤ resampling.outSamples
  dataSize : 0 ≤ resampling.dataSize
  resampledSamples : 0 ≤ resampling.resampledSamples
  actualSize : 0 ≤ resampling.actualSize

/-- A frame that can be resampled, or a status other than an unexpected failure. -/
def Audio.ReceiveResult.Calm : Audio.ReceiveResult → Prop
  | .frame _ resampling => resampling.Succeeds
  | .error (.other _) => False
  | .error _ => True

theorem resample_succeeds {resampling : Audio.Resampling} (succeeds : resampling.Succeeds) (pts : Int) :
    ∃ frame, Audio.resample pts resampling = .ok frame := by
  obtain ⟨_, _, outSamples, dataSize, resampledSamples, actualSize⟩ := succeeds
  simp [Audio.resample, Int.not_lt.mpr outSamples, Int.not_lt.mpr dataSize, Int.not_lt.mpr resampledSamples,
    Int.not_lt.mpr actualSize]

def Audio.ReceiveResult.isCorrupt : Audio.ReceiveResult → Bool
  | .error .invalidData => true
  | _ => false

/-- A drain of the audio decoder returns the good frames of all that it receives,
unless it receives the status of corrupt input. -/
theorem drainFrames_calm {results : List Audio.ReceiveResult} (swrContext : Bool) (output : List DecodedFrame)
    (calm : ∀ result ∈ results, result.Calm) :
    ∃ consumed, results = consumed ++ (Audio.drainFrames results swrContext output).rest ∧
      if consumed.any (·.isCorrupt) then
        ∃ failure, (Audio.drainFrames results swrContext output).outcome = .error failure
      else (Audio.drainFrames results swrContext output).outcome = .ok (output ++ audioFrames consumed) := by
  induction results generalizing swrContext output with
  | nil => exact ⟨[], rfl, by simp [Audio.drainFrames, audioFrames]⟩
  | cons result rest ih =>
    obtain ⟨calmFirst, calmRest⟩ := List.forall_mem_cons.mp calm
    cases result with
    | error status =>
      refine ⟨[.error status], ?_, ?_⟩ <;> cases status <;>
        simp_all [Audio.drainFrames, audioFrames, Audio.ReceiveResult.isCorrupt, Audio.ReceiveResult.Calm]
    | frame pts resampling =>
      have init : Audio.initSwrContext swrContext resampling = .ok () := by
        simp [Audio.initSwrContext, calmFirst.allocated, calmFirst.initialized]
      obtain ⟨frame, run⟩ := resample_succeeds calmFirst pts
      obtain ⟨consumed, split, outcome⟩ := ih true (output ++ [frame]) calmRest
      refine ⟨.frame pts resampling :: consumed, by simp [Audio.drainFrames, init, run, ← split], ?_⟩
      have good : audioFrames (.frame pts resampling :: consumed) = frame :: audioFrames consumed := by
        simp [audioFrames, run, Except.toOption]
      simpa [Audio.drainFrames, init, run, good, Audio.ReceiveResult.isCorrupt] using outcome

abbrev AudioHeard := Heard Audio.ReceiveResult Audio.Failure

/-- In the call FFmpeg reported corrupt input, on the send or on a receive. -/
def Heard.reportsCorrupt (heard : AudioHeard) : Prop :=
  heard.sendError = some .invalidData ∨ heard.received.any (·.isCorrupt) = true

def audioDecodeStep (impl : Audio.Impl) (call : PacketInput × (AVPacket → Audio.SendReply)) :
    Option (Audio.Impl × List AudioHeard) :=
  let answer := Audio.decode impl call.1.compressedData call.1.ptsUs call.1.dtsUs call.2
  let reply := call.2 (call.1.audio impl)
  some (answer.2, [⟨reply.error, receivedOf (impl.results ++ reply.released) answer.2.results, answer.1⟩])

/-- The only failing status on the audio path is that of corrupt input; the resampler succeeds. -/
structure AudioTolerable (impl : Audio.Impl) (call : PacketInput × (AVPacket → Audio.SendReply)) : Prop where
  status : (call.2 (call.1.audio impl)).error = none ∨ (call.2 (call.1.audio impl)).error = some .invalidData
  results : ∀ result ∈ (call.2 (call.1.audio impl)).released, result.Calm

theorem audioDecode_calm {impl : Audio.Impl} (input : PacketInput) {send : AVPacket → Audio.SendReply}
    {reply : Audio.SendReply} (same : send (input.audio impl) = reply)
    (status : reply.error = none ∨ reply.error = some .invalidData)
    (calm : ∀ result ∈ impl.results ++ reply.released, result.Calm) :
    ∃ consumed, impl.results ++ reply.released =
        consumed ++ (Audio.decode impl input.compressedData input.ptsUs input.dtsUs send).2.results ∧
      if reply.error = some .invalidData ∨ consumed.any (·.isCorrupt) = true then
        ∃ failure, (Audio.decode impl input.compressedData input.ptsUs input.dtsUs send).1 = .error failure
      else (Audio.decode impl input.compressedData input.ptsUs input.dtsUs send).1 = .ok (audioFrames consumed) := by
  unfold PacketInput.audio at same
  unfold Audio.decode
  simp only [same]
  rcases status with taken | corrupt
  · obtain ⟨consumed, split, outcome⟩ := drainFrames_calm impl.swrContext [] calm
    simp only [taken]
    exact ⟨consumed, split, by simpa using outcome⟩
  · simp only [corrupt]
    exact ⟨[], rfl, by simp⟩

/-- The audio decoder tolerates a call exactly when nothing corrupt is reported in it. -/
theorem audioDecodeStep_tolerated {impl impl' : Audio.Impl} {call : PacketInput × (AVPacket → Audio.SendReply)}
    {new : List AudioHeard} (calm : ∀ result ∈ impl.results, result.Calm) (tolerable : AudioTolerable impl call)
    (run : audioDecodeStep impl call = some (impl', new)) :
    (∀ result ∈ impl'.results, result.Calm) ∧
      ∀ heard ∈ new, heard.Tolerated audioFrames ↔ ¬ heard.reportsCorrupt := by
  obtain ⟨input, send⟩ := call
  obtain ⟨status, released⟩ := tolerable
  cases run
  dsimp only at status released ⊢
  generalize same : send (input.audio impl) = reply at status released
  have ready : ∀ result ∈ impl.results ++ reply.released, result.Calm := fun result member =>
    (List.mem_append.mp member).elim (calm result) (released result)
  obtain ⟨consumed, split, outcome⟩ := audioDecode_calm input same status ready
  refine ⟨fun result member => ready result (by rw [split]; exact List.mem_append_right _ member), ?_⟩
  intro heard member
  rw [List.mem_singleton.mp member, split, receivedOf_append]
  unfold Heard.Tolerated Heard.reportsCorrupt
  dsimp only
  split at outcome
  · rename_i corrupt
    obtain ⟨failure, raised⟩ := outcome
    exact iff_of_false (by simp [raised]) (not_not.mpr corrupt)
  · rename_i clean
    exact iff_of_true ⟨_, outcome, List.Sublist.refl _⟩ clean

/-- In runs of both decoders in which corrupt input is the only failure that FFmpeg
reports, every call returns with all of its good frames exactly when the
audio codec never reports it. -/
theorem corruptTolerated_iff {videoHint audioHint : String} {videoReply audioReply : ConstructionReply}
    {videoImpl videoEnd : DetectingImpl} {audioImpl audioEnd : Audio.Impl} {video : List VideoHeard}
    {audio : List AudioHeard} (videoAccepted : construct videoHint videoReply = .ok videoImpl)
    (audioAccepted : Audio.construct audioHint audioReply = .ok audioImpl)
    (videoRun : Reach (videoDecodeStep avutil) VideoTolerable videoImpl video videoEnd)
    (audioRun : Reach audioDecodeStep AudioTolerable audioImpl audio audioEnd) :
    ((∀ heard ∈ video, heard.Tolerated avutil) ∧ ∀ heard ∈ audio, heard.Tolerated audioFrames) ↔
      ∀ heard ∈ audio, ¬ heard.reportsCorrupt := by
  have videoFresh : videoImpl.Calm := by
    rw [DetectingImpl.Calm, construct_results videoAccepted]
    simp
  have audioFresh : ∀ result ∈ audioImpl.results, result.Calm := by simp [Audio.construct_ok audioAccepted]
  have videoTolerated :=
    (videoRun.observed DetectingImpl.Calm (VideoHeard.Tolerated avutil) videoFresh videoDecodeStep_tolerated).2
  have audioTolerated := (audioRun.observed (fun impl => ∀ result ∈ impl.results, result.Calm)
    (fun heard => heard.Tolerated audioFrames ↔ ¬ heard.reportsCorrupt) audioFresh audioDecodeStep_tolerated).2
  exact ⟨fun tolerated heard member => (audioTolerated heard member).mp (tolerated.2 heard member),
    fun clean => ⟨videoTolerated, fun heard member => (audioTolerated heard member).mpr (clean heard member)⟩⟩

instance (impl : DetectingImpl) (call : PacketInput × PacketReply) : Decidable (VideoTolerable impl call) :=
  decidable_of_iff
    ((call.1.compressedData = [] ∨ reachesCodec impl call.1.compressedData call.2 = true) ∧
      ((call.2.send call.1.video).error = none ∨ (call.2.send call.1.video).error = some .invalidData) ∧
      ∀ result ∈ (call.2.send call.1.video).released, result.raises = false)
    ⟨fun ⟨reaches, status, results⟩ => ⟨reaches, status, results⟩,
      fun ⟨reaches, status, results⟩ => ⟨reaches, status, results⟩⟩

instance (resampling : Audio.Resampling) : Decidable resampling.Succeeds :=
  decidable_of_iff
    (resampling.allocated = true ∧ resampling.initialized = true ∧ 0 ≤ resampling.outSamples ∧
      0 ≤ resampling.dataSize ∧ 0 ≤ resampling.resampledSamples ∧ 0 ≤ resampling.actualSize)
    ⟨fun ⟨a, b, c, d, e, f⟩ => ⟨a, b, c, d, e, f⟩, fun ⟨a, b, c, d, e, f⟩ => ⟨a, b, c, d, e, f⟩⟩

instance (result : Audio.ReceiveResult) : Decidable result.Calm :=
  match result with
  | .frame _ resampling => inferInstanceAs (Decidable resampling.Succeeds)
  | .error (.other _) => inferInstanceAs (Decidable False)
  | .error .invalidData | .error .again | .error .endOfFile => inferInstanceAs (Decidable True)

instance (impl : Audio.Impl) (call : PacketInput × (AVPacket → Audio.SendReply)) :
    Decidable (AudioTolerable impl call) :=
  decidable_of_iff
    (((call.2 (call.1.audio impl)).error = none ∨ (call.2 (call.1.audio impl)).error = some .invalidData) ∧
      ∀ result ∈ (call.2 (call.1.audio impl)).released, result.Calm)
    ⟨fun ⟨status, results⟩ => ⟨status, results⟩, fun ⟨status, results⟩ => ⟨status, results⟩⟩

def twoSamples : Audio.Resampling := ⟨true, true, 2, 8, 2, 8, [0, 1, 2, 3, 4, 5, 6, 7]⟩

def somePacket : PacketInput := ⟨[0], -1, -1⟩

/-- Video packets of which the first is refused as corrupt, and the second gives a picture and then a corrupt one. -/
def corruptVideo : List (PacketInput × PacketReply) :=
  [(somePacket, ⟨true, none, everythingOpens, true, fun _ => ⟨some .invalidData, []⟩⟩),
    (somePacket, ⟨true, none, everythingOpens, true,
      fun _ => ⟨none, [.frame smallPicture ⟨25, 1⟩, .error .invalidData]⟩⟩)]

/-- The same for audio: both calls throw, and the frame in front of the second corrupt result is lost. -/
theorem not_corruptTolerated_audio :
    Audio.construct "aac" ⟨everythingOpens, true, true⟩ = .ok { results := [] } ∧
      ∃ audio audioEnd, Reach audioDecodeStep AudioTolerable { results := [] } audio audioEnd ∧ audio ≠ [] ∧
        ∀ heard ∈ audio, ¬ heard.Tolerated audioFrames := by
  obtain ⟨audio, audioEnd, run, raised⟩ := reach_of_exec audioDecodeStep AudioTolerable { results := [] }
    [(somePacket, fun _ => ⟨some .invalidData, []⟩),
      (somePacket, fun _ => ⟨none, [.frame 0 twoSamples, .error .invalidData]⟩)]
    (fun r => !r.1.isEmpty && r.1.all fun heard => heard.outcome.toOption.isNone) (by decide)
  simp only [Bool.and_eq_true, Bool.not_eq_true', List.isEmpty_eq_false_iff, List.all_eq_true] at raised
  refine ⟨openAudio_accepted, audio, audioEnd, run, raised.1, fun heard member tolerated => ?_⟩
  obtain ⟨frames, returned, _⟩ := tolerated
  have lost := raised.2 heard member
  rw [returned] at lost
  cases lost

theorem corruptTolerated_video :
    ∃ video videoEnd audio audioEnd, Reach (videoDecodeStep .plain) VideoTolerable openVideo video videoEnd ∧
      Reach audioDecodeStep AudioTolerable { results := [] } audio audioEnd ∧
      video.map (fun heard => heard.outcome.toOption.map (·.length)) = [some 0, some 1] ∧
      (((∀ heard ∈ video, heard.Tolerated .plain) ∧ ∀ heard ∈ audio, heard.Tolerated audioFrames) ↔
        ∀ heard ∈ audio, ¬ heard.reportsCorrupt) := by
  obtain ⟨video, videoEnd, videoRun, counts⟩ := reach_of_exec (videoDecodeStep .plain) VideoTolerable openVideo
    corruptVideo
    (fun r => r.1.map (fun heard => heard.outcome.toOption.map (·.length)) == [some 0, some 1]) (by decide)
  obtain ⟨audio, audioEnd, audioRun, _⟩ := reach_of_exec audioDecodeStep AudioTolerable { results := [] }
    [(somePacket, fun _ => ⟨none, [.frame 0 twoSamples]⟩)] (fun _ => true) (by decide)
  exact ⟨video, videoEnd, audio, audioEnd, videoRun, audioRun, by simpa using counts,
    corruptTolerated_iff openVideo_accepted openAudio_accepted videoRun audioRun⟩

end Iptv.Decoder
