import Iptv.Lib.Machine
import Iptv.Decoder.VideoClock
import Iptv.Decoder.FFmpegAudioDecoder

namespace Iptv.Decoder
variable {avutil : AvUtil}

/-- What the audio codec decodes from a packet, before the timestamp of that packet. -/
inductive DecodedAudio
  | frame (resampling : Audio.Resampling)
  | error (status : AVError)

def DecodedAudio.stamped (pts : Int) : DecodedAudio → Audio.ReceiveResult
  | .frame resampling => .frame pts resampling
  | .error status => .error status

def DecodedAudio.isFrame : DecodedAudio → Bool
  | .frame _ => true
  | .error _ => false

/-- The results as the audio decoder receives them, each frame stamped. -/
def deliver (entries : List (Int × DecodedAudio)) : List Audio.ReceiveResult :=
  entries.map fun entry => entry.2.stamped entry.1

def AVPacket.stamp (packet : AVPacket) : Int := packet.pts.getD Audio.noPtsValue

structure AudioState where
  impl : Audio.Impl
  codec : StampingCodec DecodedAudio := {}

inductive AudioEvent
  | decode (compressedData : List UInt8) (ptsUs dtsUs : Int) (feed : Feed DecodedAudio)
  | flush (remainder : Audio.Remainder)

/-- The call behind an event: the codec stamps with the timestamp of the packet it is sent. -/
def AudioEvent.call (s : AudioState) : AudioEvent → Except Audio.Failure (List DecodedFrame) × Audio.Impl
  | .decode compressedData ptsUs dtsUs feed =>
    Audio.decode s.impl compressedData ptsUs dtsUs fun packet =>
      ⟨feed.error, deliver ((s.codec.decoded packet.stamp feed).take feed.count)⟩
  | .flush remainder => Audio.flush s.impl (deliver s.codec.held) remainder

/-- The codec behind the event, before anything is received from it. -/
def AudioEvent.answered (codec : StampingCodec DecodedAudio) : AudioEvent → StampingCodec DecodedAudio
  | .decode _ ptsUs _ feed =>
    { ready := codec.ready ++ (codec.decoded ptsUs feed).take feed.count
      held := (codec.decoded ptsUs feed).drop feed.count }
  | .flush _ => { ready := codec.ready ++ codec.held }

/-- The frames of a call next to the packets that they were decoded from: a call
returns one for each of the first results. What the resampler still held at the
end comes from no packet. -/
def showAudio (ready : List (Int × DecodedAudio)) (frames : List DecodedFrame) : List Shown :=
  List.zipWith (fun entry frame => ⟨entry.1, frame⟩) (ready.takeWhile (·.2.isFrame)) frames

def audioStep (s : AudioState) (e : AudioEvent) : Option (AudioState × List Shown) :=
  let answer := e.call s
  let codec := e.answered s.codec
  let taken := codec.ready.length - answer.2.results.length
  some ({ impl := answer.2, codec := { codec with ready := codec.ready.drop taken } },
    showAudio codec.ready (answer.1.toOption.getD []))

/-- The caller gives the packet a timestamp. -/
def VideoEvent.Explicit (_ : VideoState) : VideoEvent → Prop
  | .decode _ ptsUs _ _ _ => ptsUs ≠ -1
  | .flush _ => True

def AudioEvent.Explicit (_ : AudioState) : AudioEvent → Prop
  | .decode _ ptsUs _ _ => ptsUs ≠ -1
  | .flush _ => True

instance (s : VideoState) (e : VideoEvent) : Decidable (e.Explicit s) :=
  match e with
  | .decode _ ptsUs _ _ _ => inferInstanceAs (Decidable (ptsUs ≠ -1))
  | .flush _ => inferInstanceAs (Decidable True)

instance (s : AudioState) (e : AudioEvent) : Decidable (e.Explicit s) :=
  match e with
  | .decode _ ptsUs _ _ => inferInstanceAs (Decidable (ptsUs ≠ -1))
  | .flush _ => inferInstanceAs (Decidable True)

/-- Equal packet timestamps give equal frame timestamps across the two kinds, and
any two frames are as far apart as their packets. -/
structure SharedTimeBase (video audio : List Shown) : Prop where
  aligned : ∀ v ∈ video, ∀ a ∈ audio, v.packetPts = a.packetPts → v.frame.pts = a.frame.pts
  differences : ∀ x ∈ video ++ audio, ∀ y ∈ video ++ audio,
    x.frame.pts - y.frame.pts = x.packetPts - y.packetPts

theorem resample_ok {pts : Int} {resampling : Audio.Resampling} {frame : DecodedFrame}
    (run : Audio.resample pts resampling = .ok frame) : frame.pts = pts := by
  unfold Audio.resample at run
  split at run
  · cases run
  · split at run
    · cases run
    · split at run
      · cases run
      · split at run <;> cases run
        rfl

/-- What a drain of the codec returns: a frame for each result up to the first
that is not one, with the timestamp of its packet. -/
structure Drained (ready : List (Int × DecodedAudio)) (frames : List DecodedFrame) : Prop where
  shown : (showAudio ready frames).map (·.frame) = frames
  count : frames.length = (ready.takeWhile (·.2.isFrame)).length
  stamps : ∀ shown ∈ showAudio ready frames, shown.frame.pts = shown.packetPts

theorem Drained.none {entry : Int × DecodedAudio} {rest : List (Int × DecodedAudio)}
    (other : entry.2.isFrame = false) : Drained (entry :: rest) [] where
  shown := by simp [showAudio]
  count := by simp [other]
  stamps := by simp [showAudio]

theorem Drained.cons {packetPts : Int} {resampling : Audio.Resampling} {rest : List (Int × DecodedAudio)}
    {frame : DecodedFrame} {frames : List DecodedFrame} (drained : Drained rest frames)
    (pts : frame.pts = packetPts) : Drained ((packetPts, .frame resampling) :: rest) (frame :: frames) := by
  have shown : showAudio ((packetPts, .frame resampling) :: rest) (frame :: frames) =
      ⟨packetPts, frame⟩ :: showAudio rest frames := by
    simp [showAudio, DecodedAudio.isFrame]
  constructor
  · rw [shown, List.map_cons, drained.shown]
  · simp [DecodedAudio.isFrame, drained.count]
  · rw [shown]
    intro entry member
    rcases List.mem_cons.mp member with rfl | behind
    · exact pts
    · exact drained.stamps entry behind

/-- Frames that come behind those of the codec are not attributed to its results. -/
theorem Drained.append {ready : List (Int × DecodedAudio)} {frames : List DecodedFrame}
    (drained : Drained ready frames) (more : List DecodedFrame) :
    showAudio ready (frames ++ more) = showAudio ready frames := by
  unfold showAudio
  calc List.zipWith _ (ready.takeWhile (·.2.isFrame)) (frames ++ more)
      = List.zipWith _ (ready.takeWhile (·.2.isFrame) ++ []) (frames ++ more) := by rw [List.append_nil]
    _ = _ ++ List.zipWith _ [] more := List.zipWith_append drained.count.symm
    _ = _ := by rw [List.zipWith_nil_left, List.append_nil]

/-- The drain takes results from the front, and its frames are those of the first of them. -/
theorem drainFrames_deliver (ready : List (Int × DecodedAudio)) (swrContext : Bool) (output : List DecodedFrame) :
    ((Audio.drainFrames (deliver ready) swrContext output).rest <:+ deliver ready) ∧
      ∀ frames, (Audio.drainFrames (deliver ready) swrContext output).outcome = .ok frames →
        ∃ new, frames = output ++ new ∧ Drained ready new := by
  induction ready generalizing swrContext output with
  | nil =>
    refine ⟨List.suffix_refl _, fun frames run => ⟨[], ?_, ⟨rfl, rfl, by simp [showAudio]⟩⟩⟩
    simpa [deliver, Audio.drainFrames, eq_comm] using run
  | cons entry rest ih =>
    obtain ⟨packetPts, result⟩ := entry
    cases result with
    | error status =>
      change _ <:+ .error status :: deliver rest ∧ _
      refine ⟨?_, ?_⟩
      · cases status <;> exact List.suffix_cons _ _
      · intro frames run
        refine ⟨[], ?_, Drained.none rfl⟩
        cases status <;> simp [deliver, DecodedAudio.stamped, Audio.drainFrames] at run <;> simp [run]
    | frame resampling =>
      have head : deliver ((packetPts, .frame resampling) :: rest) =
          .frame packetPts resampling :: deliver rest := rfl
      rw [head]
      cases init : Audio.initSwrContext swrContext resampling with
      | error exception => simp [Audio.drainFrames, init, List.suffix_cons]
      | ok _ =>
        cases run : Audio.resample packetPts resampling with
        | error failure => simp [Audio.drainFrames, init, run, List.suffix_cons]
        | ok frame =>
          obtain ⟨suffix, returned⟩ := ih true (output ++ [frame])
          simp only [Audio.drainFrames, init, run]
          refine ⟨suffix.trans (List.suffix_cons _ _), fun frames outcome => ?_⟩
          obtain ⟨new, rfl, drained⟩ := returned frames outcome
          exact ⟨frame :: new, by simp, drained.cons (resample_ok run)⟩

/-- What the codec holds ready is what the decoder will receive. -/
def AudioState.Sound (s : AudioState) : Prop := s.impl.results = deliver s.codec.ready

theorem setPacket_stamp (packet : AVPacket) (compressedData : List UInt8) {ptsUs : Int} (dtsUs : Int)
    (explicit : ptsUs ≠ -1) : (Audio.setPacket packet compressedData ptsUs dtsUs).stamp = ptsUs := by
  simp [Audio.setPacket, AVPacket.stamp, explicit]

theorem flushRemainder_pts {swrContext : Bool} {remainder : Audio.Remainder} {last : List DecodedFrame}
    (run : Audio.flushRemainder swrContext remainder = .ok last) :
    ∀ frame ∈ last, frame.pts = Audio.noPtsValue := by
  unfold Audio.flushRemainder at run
  split at run
  · split at run
    · cases run
    · split at run
      · cases run; simp
      · split at run <;> cases run
        simp [DecodedFrame.ofAudio]
  · cases run; simp

/-- A call takes results from the front of those that are ready. It returns
nothing, or the frames of the first of them and what the resampler still held. -/
theorem AudioEvent.receives {s : AudioState} (sound : s.Sound) {e : AudioEvent} (explicit : e.Explicit s) :
    (e.call s).2.results <:+ deliver (e.answered s.codec).ready ∧
      ((e.call s).1.toOption.getD [] = [] ∨
        ∃ frames last, (e.call s).1.toOption.getD [] = frames ++ last ∧
          Drained (e.answered s.codec).ready frames ∧ ∀ frame ∈ last, frame.pts = Audio.noPtsValue) := by
  cases e with
  | decode compressedData ptsUs dtsUs feed =>
    have stamp := setPacket_stamp s.impl.packet compressedData dtsUs explicit
    have ready : s.impl.results ++ deliver ((s.codec.decoded ptsUs feed).take feed.count) =
        deliver (s.codec.ready ++ (s.codec.decoded ptsUs feed).take feed.count) := by
      rw [sound, deliver, deliver, deliver, List.map_append]
    simp only [AudioEvent.call, AudioEvent.answered, Audio.decode, stamp, ready]
    generalize s.codec.ready ++ (s.codec.decoded ptsUs feed).take feed.count = entries
    obtain ⟨suffix, returned⟩ := drainFrames_deliver entries s.impl.swrContext []
    have drains : (Audio.drainFrames (deliver entries) s.impl.swrContext []).outcome.toOption.getD [] = [] ∨
        ∃ frames last, (Audio.drainFrames (deliver entries) s.impl.swrContext []).outcome.toOption.getD [] =
          frames ++ last ∧ Drained entries frames ∧ ∀ frame ∈ last, frame.pts = Audio.noPtsValue := by
      cases outcome : (Audio.drainFrames (deliver entries) s.impl.swrContext []).outcome with
      | error failure => exact Or.inl rfl
      | ok frames =>
        obtain ⟨new, rfl, drained⟩ := returned frames outcome
        exact Or.inr ⟨frames, [], by simp [Except.toOption], drained, by simp⟩
    split
    · exact ⟨suffix, drains⟩
    · exact ⟨suffix, drains⟩
    · exact ⟨List.suffix_refl _, Or.inl rfl⟩
  | flush remainder =>
    have ready : s.impl.results ++ deliver s.codec.held = deliver (s.codec.ready ++ s.codec.held) := by
      rw [sound, deliver, deliver, deliver, List.map_append]
    simp only [AudioEvent.call, AudioEvent.answered, Audio.flush, ready]
    generalize s.codec.ready ++ s.codec.held = entries
    obtain ⟨suffix, returned⟩ := drainFrames_deliver entries s.impl.swrContext []
    refine ⟨suffix, ?_⟩
    generalize Audio.drainFrames (deliver entries) s.impl.swrContext [] = drain at returned
    cases outcome : drain.outcome with
    | error failure => exact Or.inl rfl
    | ok frames =>
      obtain ⟨new, rfl, drained⟩ := returned frames outcome
      cases rest : Audio.flushRemainder drain.swrContext remainder with
      | error failure => exact Or.inl rfl
      | ok last => exact Or.inr ⟨frames, last, rfl, drained, flushRemainder_pts rest⟩

/-- A step shows the frames that its call returned and that come from packets,
each with the timestamp of its packet. -/
theorem audioStep_sound {s s' : AudioState} {e : AudioEvent} {shown : List Shown} (sound : s.Sound)
    (explicit : e.Explicit s) (run : audioStep s e = some (s', shown)) :
    s'.Sound ∧ (∃ last, (e.call s).1.toOption.getD [] = shown.map (·.frame) ++ last ∧
      ∀ frame ∈ last, frame.pts = Audio.noPtsValue) ∧ ∀ audio ∈ shown, audio.frame.pts = audio.packetPts := by
  obtain ⟨suffix, returned⟩ := AudioEvent.receives sound explicit
  cases run
  obtain ⟨consumed, split⟩ := suffix
  refine ⟨?_, ?_⟩
  · have lengths := congrArg List.length split
    rw [List.length_append, deliver, List.length_map] at lengths
    have count : (e.answered s.codec).ready.length - (e.call s).2.results.length = consumed.length := by omega
    change (e.call s).2.results = deliver ((e.answered s.codec).ready.drop _)
    rw [count, deliver, List.map_drop]
    rw [deliver] at split
    rw [← split, List.drop_left]
  · rcases returned with none | ⟨frames, last, returned, drained, remainder⟩
    · rw [none]
      exact ⟨⟨[], by simp [showAudio], by simp⟩, by simp [showAudio]⟩
    · rw [returned, drained.append last]
      exact ⟨⟨last, by rw [drained.shown], remainder⟩, drained.stamps⟩

/-- Two groups of frames, one with the timestamps of its packets and one with a
clock of its own, share a time base exactly when the clock keeps the distances of
the packets and, as soon as there is a frame of the first group, shows their timestamps. -/
theorem sharedTimeBase_iff {video : List ShownVideo} {audio : List Shown}
    (stamped : ∀ a ∈ audio, a.frame.pts = a.packetPts)
    (clocked : ∀ v ∈ video, v.frame.pts = clock avutil v.received) :
    SharedTimeBase (video.map (·.toShown)) audio ↔
      (∀ v ∈ video, ∀ w ∈ video, clock avutil v.received - clock avutil w.received = v.packetPts - w.packetPts) ∧
        (audio ≠ [] → ∀ v ∈ video, clock avutil v.received = v.packetPts) := by
  constructor
  · rintro ⟨_, differences⟩
    refine ⟨fun v inV w inW => ?_, fun some v inV => ?_⟩
    · have apart := differences v.toShown (by simp [List.mem_append]; exact Or.inl ⟨v, inV, rfl⟩)
        w.toShown (by simp [List.mem_append]; exact Or.inl ⟨w, inW, rfl⟩)
      rwa [clocked v inV, clocked w inW] at apart
    · obtain ⟨a, inA⟩ := List.exists_mem_of_ne_nil audio some
      have apart := differences v.toShown (by simp [List.mem_append]; exact Or.inl ⟨v, inV, rfl⟩) a
        (List.mem_append_right _ inA)
      rw [clocked v inV, stamped a inA] at apart
      omega
  · rintro ⟨steady, aligned⟩
    have shown : ∀ x ∈ video.map (·.toShown) ++ audio, audio ≠ [] → x.frame.pts = x.packetPts := by
      intro x member some
      rcases List.mem_append.mp member with inVideo | inAudio
      · obtain ⟨v, inV, rfl⟩ := List.mem_map.mp inVideo
        rw [clocked v inV, aligned some v inV]
      · exact stamped x inAudio
    refine ⟨fun v inVideo a inAudio same => ?_, fun x inX y inY => ?_⟩
    · have some := List.ne_nil_of_mem inAudio
      rw [shown v (List.mem_append_left _ inVideo) some, shown a (List.mem_append_right _ inAudio) some, same]
    · by_cases none : audio = []
      · subst none
        rw [List.append_nil] at inX inY
        obtain ⟨v, inV, rfl⟩ := List.mem_map.mp inX
        obtain ⟨w, inW, rfl⟩ := List.mem_map.mp inY
        rw [clocked v inV, clocked w inW]
        exact steady v inV w inW
      · rw [shown x inX none, shown y inY none]

/-- In runs of both decoders on packets with explicit timestamps, with codecs that
stamp each frame with the timestamp of its packet: an audio frame carries that
timestamp, a video frame the clock that the frame rates drive, and the two kinds
share a time base exactly when this clock agrees with the packets. -/
theorem timeBases_of_runs {videoHint audioHint : String} {videoReply audioReply : ConstructionReply}
    {videoImpl : DetectingImpl} {audioImpl : Audio.Impl}
    (videoAccepted : construct videoHint videoReply = .ok videoImpl)
    (audioAccepted : Audio.construct audioHint audioReply = .ok audioImpl) {video : List ShownVideo}
    {audio : List Shown} {videoEnd : VideoState} {audioEnd : AudioState}
    (videoRun : Reach (videoStep avutil) VideoEvent.Explicit { impl := videoImpl } video videoEnd)
    (audioRun : Reach audioStep AudioEvent.Explicit { impl := audioImpl } audio audioEnd) :
    (∀ a ∈ audio, a.frame.pts = a.packetPts) ∧ (∀ v ∈ video, v.frame.pts = clock avutil v.received) ∧
      (SharedTimeBase (video.map (·.toShown)) audio ↔
        (∀ v ∈ video, ∀ w ∈ video, clock avutil v.received - clock avutil w.received = v.packetPts - w.packetPts) ∧
          (audio ≠ [] → ∀ v ∈ video, clock avutil v.received = v.packetPts)) := by
  have videoFresh : VideoState.Sound avutil { impl := videoImpl } :=
    ⟨construct_results videoAccepted, (construct_ok videoAccepted).2.1⟩
  have clocked := (videoRun.observed (VideoState.Sound avutil) (fun v => v.frame.pts = clock avutil v.received)
    videoFresh
    fun sound _ run => by
      obtain ⟨kept, _, shown⟩ := videoStep_sound sound run
      exact ⟨kept, shown⟩).2
  have audioFresh : AudioState.Sound { impl := audioImpl } :=
    congrArg Audio.Impl.results (Audio.construct_ok audioAccepted)
  have stamped := (audioRun.observed AudioState.Sound (fun a => a.frame.pts = a.packetPts) audioFresh
    fun sound explicit run => by
      obtain ⟨kept, _, shown⟩ := audioStep_sound sound explicit run
      exact ⟨kept, shown⟩).2
  exact ⟨stamped, clocked, sharedTimeBase_iff stamped clocked⟩

def openVideo : DetectingImpl := { codecContext := some ⟨[]⟩, codecName := "h264" }

theorem openVideo_accepted : construct "h264" ⟨everythingOpens, true, true⟩ = .ok openVideo := rfl

theorem openAudio_accepted : Audio.construct "aac" ⟨everythingOpens, true, true⟩ = .ok { results := [] } := rfl

/-- A packet that is decoded at once to one picture of a stream with 25 frames a second. -/
def picturePacket (ptsUs : Int) : VideoEvent :=
  .decode [0] ptsUs (-1) ⟨true, none, everythingOpens, true, fun _ => ⟨none, []⟩⟩
    ⟨none, [.frame smallPicture ⟨25, 1⟩], 1⟩

/-- A packet that is decoded at once to two samples for each channel. -/
def soundPacket (ptsUs : Int) : AudioEvent :=
  .decode [0] ptsUs (-1) ⟨none, [.frame ⟨true, true, 2, 8, 2, 8, [0, 1, 2, 3, 4, 5, 6, 7]⟩], 1⟩

/-- Two packets of each kind, the second ones 40 milliseconds behind the first. -/
theorem twoPackets_run :
    ∃ video videoEnd audio audioEnd, Reach (videoStep .plain) VideoEvent.Explicit { impl := openVideo } video videoEnd ∧
      Reach audioStep AudioEvent.Explicit { impl := { results := [] } } audio audioEnd ∧
      (∃ v ∈ video, v.packetPts = 40000 ∧ v.frame.pts = 40) ∧
      ∃ a ∈ audio, a.packetPts = 40000 ∧ a.frame.pts = 40000 := by
  obtain ⟨video, videoEnd, videoRun, late⟩ := reach_of_exec (videoStep .plain) VideoEvent.Explicit { impl := openVideo }
    [picturePacket 0, picturePacket 40000]
    (fun r => r.1.any fun v => v.packetPts == 40000 && v.frame.pts == 40) (by decide)
  obtain ⟨audio, audioEnd, audioRun, sound⟩ := reach_of_exec audioStep AudioEvent.Explicit
    { impl := { results := [] } } [soundPacket 0, soundPacket 40000]
    (fun r => r.1.any fun a => a.packetPts == 40000 && a.frame.pts == 40000) (by decide)
  simp only [List.any_eq_true, Bool.and_eq_true, beq_iff_eq] at late sound
  exact ⟨video, videoEnd, audio, audioEnd, videoRun, audioRun, late, sound⟩

theorem timeBases_of_twoPackets :
    ∃ (video : List ShownVideo) (audio : List Shown),
      (∃ v ∈ video, v.frame.pts = 40) ∧ (∃ a ∈ audio, a.frame.pts = 40000) ∧
      (∀ a ∈ audio, a.frame.pts = a.packetPts) ∧ ∀ v ∈ video, v.frame.pts = clock .plain v.received := by
  obtain ⟨video, _, audio, _, videoRun, audioRun, ⟨v, inV, _, late⟩, a, inA, _, sound⟩ := twoPackets_run
  obtain ⟨stamped, clocked, _⟩ := timeBases_of_runs openVideo_accepted openAudio_accepted videoRun audioRun
  exact ⟨video, audio, ⟨v, inV, late⟩, ⟨a, inA, sound⟩, stamped, clocked⟩

/-- Packets with one timestamp give frames with different ones. -/
theorem timeBases_differ :
    ∃ video videoEnd audio audioEnd, Reach (videoStep .plain) VideoEvent.Explicit { impl := openVideo } video videoEnd ∧
      Reach audioStep AudioEvent.Explicit { impl := { results := [] } } audio audioEnd ∧
      ¬ SharedTimeBase (video.map (·.toShown)) audio := by
  obtain ⟨video, videoEnd, audio, audioEnd, videoRun, audioRun, ⟨v, inV, vPacket, late⟩, a, inA, aPacket, sound⟩ :=
    twoPackets_run
  refine ⟨video, videoEnd, audio, audioEnd, videoRun, audioRun, fun shared => ?_⟩
  have equal := shared.aligned v.toShown (List.mem_map_of_mem inV) a inA (vPacket.trans aPacket.symm)
  rw [late, sound] at equal
  cases equal

end Iptv.Decoder
