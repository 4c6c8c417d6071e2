import Iptv.Decoder.FlushDrain
import Iptv.Decoder.MissingContext

namespace Iptv.Decoder
universe u
variable {avutil : AvUtil}

/-- A codec without reordering. Each result carries the timestamp of the packet
that it was decoded from; `ready` ones wait to be received, `held` ones are not
handed out yet. -/
structure StampingCodec (R : Type u) where
  ready : List (Int × R) := []
  held : List (Int × R) := []

/-- What the codec makes of a packet: the results it decodes from it, and how
many of those it holds become ready. -/
structure Feed (R : Type u) where
  error : Option AVError
  decoded : List R
  count : Nat

variable {R : Type u}

/-- What the codec holds once it has a packet with the given timestamp. -/
def StampingCodec.decoded (codec : StampingCodec R) (pts : Int) (feed : Feed R) : List (Int × R) :=
  codec.held ++ feed.decoded.map fun result => (pts, result)

/-- A frame that a decoder returned, with the timestamp of its packet. -/
structure Shown where
  packetPts : Int
  frame : DecodedFrame

/-- How far a received result moves the clock of the video decoder: a picture
that can be extracted by the duration that its rate gives, at least one. -/
def ReceiveResult.clockStep (avutil : AvUtil) : ReceiveResult → Int
  | .frame picture rate =>
    if (requireExtractable picture).isOk then max (frameDurationMs avutil rate) kMinimumFrameStepMs else 0
  | .error _ => 0

/-- The millisecond clock of the video decoder behind the results received so far. -/
def clock (avutil : AvUtil) (received : List ReceiveResult) : Int := (received.map (·.clockStep avutil)).sum

/-- A returned video frame with what the codec had handed out in front of it. -/
structure ShownVideo extends Shown where
  received : List ReceiveResult

/-- The frames of a call next to the results that they were made of: a call
returns the pictures up to the first result that is not one. -/
def showVideo : List ReceiveResult → List (Int × ReceiveResult) → List DecodedFrame → List ShownVideo
  | received, (packetPts, result) :: rest, frame :: frames =>
    { packetPts, frame, received } :: showVideo (received ++ [result]) rest frames
  | _, _, _ => []

/-- The video decoder and its codec, with the results received so far. -/
structure VideoState where
  impl : DetectingImpl
  codec : StampingCodec ReceiveResult := {}
  received : List ReceiveResult := []

inductive VideoEvent
  | decode (compressedData : List UInt8) (ptsUs dtsUs : Int) (reply : PacketReply) (feed : Feed ReceiveResult)
  | flush (error : Option AVError)

/-- The packet of a `decode` call gets as far as `avcodec_send_packet`. -/
def reachesCodec (impl : DetectingImpl) (compressedData : List UInt8) (reply : PacketReply) : Bool :=
  !compressedData.isEmpty && !impl.endOfStream && compressedData.length ≤ maximumPacketSize &&
    (detectCodec impl reply).isOk && reply.packetAllocated

def DetectingImpl.results (impl : DetectingImpl) : List ReceiveResult :=
  (impl.codecContext.map CodecContext.results).getD []

theorem construct_results {codecHint : String} {reply : ConstructionReply} {impl : DetectingImpl}
    (accepted : construct codecHint reply = .ok impl) : impl.results = [] := by
  rw [DetectingImpl.results, (construct_ok accepted).1]
  split <;> rfl

def Answer.frames : Answer → List DecodedFrame
  | .returned frames => frames
  | _ => []

/-- The call of the decoder's interface behind an event, with the codec's answer. -/
def VideoEvent.call (codec : StampingCodec ReceiveResult) : VideoEvent → Call
  | .decode compressedData ptsUs dtsUs reply feed =>
    .decode compressedData ptsUs dtsUs { reply with
      send := fun _ => ⟨feed.error, (codec.held.map Prod.snd ++ feed.decoded).take feed.count⟩ }
  | .flush error => .flush ⟨error, codec.held.map Prod.snd⟩

/-- The codec behind the event, before anything is received from it; none when the
call does not get as far as the codec. -/
def VideoEvent.answered (s : VideoState) : VideoEvent → Option (StampingCodec ReceiveResult)
  | .decode compressedData ptsUs _ reply feed =>
    let decoded := s.codec.decoded ptsUs feed
    if reachesCodec s.impl compressedData reply then
      some { ready := s.codec.ready ++ decoded.take feed.count, held := decoded.drop feed.count }
    else none
  | .flush _ =>
    if s.impl.isOpen && !s.impl.endOfStream then some { ready := s.codec.ready ++ s.codec.held } else none

/-- The state behind a call that took its results from those that were ready. -/
def VideoState.receive (s : VideoState) (codec : StampingCodec ReceiveResult) (answer : Answer × DetectingImpl) :
    VideoState × List ShownVideo :=
  let taken := codec.ready.length - answer.2.results.length
  ({ impl := answer.2
     codec := { codec with ready := codec.ready.drop taken }
     received := s.received ++ (codec.ready.take taken).map Prod.snd },
    showVideo s.received codec.ready answer.1.frames)

def videoStep (avutil : AvUtil) (s : VideoState) (e : VideoEvent) : Option (VideoState × List ShownVideo) :=
  let answer := call avutil s.impl (e.call s.codec)
  match e.answered s with
  | none => some ({ s with impl := answer.2 }, [])
  | some codec => some (s.receive codec answer)

/-- What a call makes of the results that are ready for it: it receives the first
of them, its clock advances over these, and it returns nothing or the pictures
up to the first result that is not one. -/
structure Receives (avutil : AvUtil) (ready : List ReceiveResult) (nextPtsMs : Int) (frames : List DecodedFrame)
    (impl : DetectingImpl) : Prop where
  received : ∃ consumed, ready = consumed ++ impl.results ∧ impl.nextPtsMs = nextPtsMs + clock avutil consumed
  returned : frames = [] ∨ frames = goodFrames avutil (ready.takeWhile (·.isGood)) nextPtsMs

theorem clock_append (avutil : AvUtil) (first second : List ReceiveResult) :
    clock avutil (first ++ second) = clock avutil first + clock avutil second := by
  simp [clock]

theorem packReadyFrame_ok {picture : AVFrame} {rate : AVRational} {nextPtsMs later : Int} {packed : DecodedFrame}
    (run : packReadyFrame avutil picture rate nextPtsMs = .ok (packed, later)) :
    packed.pts = nextPtsMs ∧ later = nextPtsMs + (ReceiveResult.frame picture rate).clockStep avutil ∧
      (ReceiveResult.frame picture rate).clockStep avutil = max packed.duration kMinimumFrameStepMs := by
  unfold packReadyFrame extractDecodedFrame at run
  cases checked : requireExtractable picture with
  | error _ => simp [checked, Except.map] at run
  | ok _ =>
    simp only [checked, Except.map, Except.ok.injEq, Prod.mk.injEq] at run
    obtain ⟨rfl, rfl⟩ := run
    have step : (ReceiveResult.frame picture rate).clockStep avutil =
        max (frameDurationMs avutil rate) kMinimumFrameStepMs := by
      simp [ReceiveResult.clockStep, checked, Except.isOk, Except.toBool]
    exact ⟨rfl, by rw [step], step⟩

theorem packReadyFrame_error {picture : AVFrame} {rate : AVRational} {nextPtsMs : Int}
    {exception : DecoderException} (run : packReadyFrame avutil picture rate nextPtsMs = .error exception) :
    (ReceiveResult.frame picture rate).clockStep avutil = 0 := by
  unfold packReadyFrame extractDecodedFrame at run
  cases checked : requireExtractable picture with
  | error _ => simp [ReceiveResult.clockStep, checked, Except.isOk, Except.toBool]
  | ok _ => simp [checked, Except.map] at run

theorem releaseReadyFrames_received (avutil : AvUtil) (results : List ReceiveResult) (nextPtsMs : Int)
    (frames : List DecodedFrame) :
    ∃ consumed, results = consumed ++ (releaseReadyFrames avutil results nextPtsMs frames).rest ∧
      (releaseReadyFrames avutil results nextPtsMs frames).nextPtsMs = nextPtsMs + clock avutil consumed := by
  induction results generalizing nextPtsMs frames with
  | nil => exact ⟨[], rfl, by simp [releaseReadyFrames, clock]⟩
  | cons result rest ih =>
    cases result with
    | error status =>
      refine ⟨[.error status], ?_, ?_⟩ <;> cases status <;>
        simp [releaseReadyFrames, clock, ReceiveResult.clockStep]
    | frame picture rate =>
      cases run : packReadyFrame avutil picture rate nextPtsMs with
      | error exception =>
        refine ⟨[.frame picture rate], by simp [releaseReadyFrames, run], ?_⟩
        simp [releaseReadyFrames, run, clock, packReadyFrame_error run]
      | ok packed =>
        obtain ⟨packed, later⟩ := packed
        obtain ⟨_, rfl, _⟩ := packReadyFrame_ok run
        obtain ⟨consumed, split, advanced⟩ :=
          ih (nextPtsMs + (ReceiveResult.frame picture rate).clockStep avutil) (frames ++ [packed])
        refine ⟨.frame picture rate :: consumed, by simp [releaseReadyFrames, run, ← split], ?_⟩
        simp only [releaseReadyFrames, run]
        rw [advanced]
        simp only [clock, List.map_cons, List.sum_cons]
        omega

/-- A drain that ends without an exception returns the pictures up to the first other result. -/
theorem releaseReadyFrames_ok {results : List ReceiveResult} {nextPtsMs : Int} {frames : List DecodedFrame}
    (run : (releaseReadyFrames avutil results nextPtsMs []).outcome = .ok frames) :
    frames = goodFrames avutil (results.takeWhile (·.isGood)) nextPtsMs := by
  rcases releaseReadyFrames_ends avutil results nextPtsMs [] with ⟨_, failure, _, _, lost⟩ | ⟨_, returned⟩
  · rw [run] at lost
    cases lost
  · rw [run] at returned
    simpa using returned

/-- The frames of a call, next to their results, show the clock at their results. -/
theorem showVideo_clock (avutil : AvUtil) (received : List ReceiveResult) (ready : List (Int × ReceiveResult)) :
    ∀ shown ∈ showVideo received ready
        (goodFrames avutil ((ready.map Prod.snd).takeWhile (·.isGood)) (clock avutil received)),
      shown.frame.pts = clock avutil shown.received := by
  induction ready generalizing received with
  | nil => simp [showVideo]
  | cons entry rest ih =>
    obtain ⟨packetPts, result⟩ := entry
    cases good : result.isGood with
    | false => simp [good, goodFrames, showVideo]
    | true =>
      cases result with
      | error status => simp [ReceiveResult.isGood] at good
      | frame picture rate =>
        obtain ⟨packed, later, run⟩ := packReadyFrame_good avutil (clock avutil received) good
        obtain ⟨pts, rfl, _⟩ := packReadyFrame_ok run
        have advanced : clock avutil received + (ReceiveResult.frame picture rate).clockStep avutil =
            clock avutil (received ++ [.frame picture rate]) := by
          simp [clock]
        intro shown member
        simp only [List.map_cons, List.takeWhile_cons, good, if_true, goodFrames, run, showVideo, advanced,
          List.mem_cons] at member
        rcases member with rfl | behind
        · exact pts
        · exact ih _ shown behind

theorem showVideo_frames (received : List ReceiveResult) (ready : List (Int × ReceiveResult))
    {frames : List DecodedFrame} (enough : frames.length ≤ ready.length) :
    (showVideo received ready frames).map (·.frame) = frames := by
  induction ready generalizing received frames with
  | nil =>
    obtain rfl := List.length_eq_zero_iff.mp (Nat.le_zero.mp enough)
    rfl
  | cons entry rest ih =>
    cases frames with
    | nil => rfl
    | cons frame frames =>
      simp only [showVideo, List.map_cons, List.cons.injEq, true_and]
      exact ih _ (by simpa using enough)

theorem goodFrames_length_le (avutil : AvUtil) (results : List ReceiveResult) (nextPtsMs : Int) :
    (goodFrames avutil (results.takeWhile (·.isGood)) nextPtsMs).length ≤ results.length := by
  rw [goodFrames_length]
  exact List.countP_le_length.trans (List.takeWhile_sublist _).length_le

/-- A packet that an open codec takes, or refuses. -/
theorem sendPacket_receives {impl : DetectingImpl} {context : CodecContext} (packet : AVPacket)
    (reply : PacketReply) (isOpen : impl.codecContext = some context) (allocated : reply.packetAllocated = true) :
    Receives avutil (context.results ++ (reply.send packet).released) impl.nextPtsMs
      (Answer.ofFrames (sendPacket avutil impl packet reply).1).frames (sendPacket avutil impl packet reply).2 := by
  unfold sendPacket
  simp only [allocated, Bool.true_eq_false, if_false, isOpen]
  generalize context.results ++ (reply.send packet).released = results
  split
  · exact ⟨⟨[], rfl, by simp [clock]⟩, Or.inl rfl⟩
  · exact ⟨⟨[], rfl, by simp [clock]⟩, Or.inl rfl⟩
  · refine ⟨releaseReadyFrames_received avutil results impl.nextPtsMs [], ?_⟩
    cases outcome : (releaseReadyFrames avutil results impl.nextPtsMs []).outcome with
    | error failure => exact Or.inl rfl
    | ok frames => exact Or.inr (releaseReadyFrames_ok outcome)

/-- Detection hands over nothing and leaves the clock alone. -/
theorem detectCodec_results {impl detected : DetectingImpl} {reply : PacketReply}
    (run : detectCodec impl reply = .ok detected) :
    ∃ context, detected.codecContext = some context ∧ context.results = impl.results ∧
      detected.nextPtsMs = impl.nextPtsMs := by
  obtain ⟨context, _, rfl, origin⟩ := detectCodec_ok run
  refine ⟨context, rfl, ?_, rfl⟩
  rcases origin with present | ⟨missing, fresh⟩
  · simp [DetectingImpl.results, present]
  · simp [DetectingImpl.results, missing, fresh]

/-- A call that gets as far as the codec sends its packet to one that has what the decoder had. -/
theorem decode_sent (avutil : AvUtil) {impl : DetectingImpl} {compressedData : List UInt8} {reply : PacketReply}
    (reaches : reachesCodec impl compressedData reply = true) (ptsUs dtsUs : Int) :
    ∃ detected context, detectCodec impl reply = .ok detected ∧ detected.codecContext = some context ∧
      context.results = impl.results ∧ detected.nextPtsMs = impl.nextPtsMs ∧ reply.packetAllocated = true ∧
      decode avutil impl compressedData ptsUs dtsUs reply =
        sendPacket avutil detected (makePacket compressedData ptsUs dtsUs) reply := by
  simp only [reachesCodec, Bool.and_eq_true, Bool.not_eq_true', List.isEmpty_eq_false_iff,
    decide_eq_true_eq] at reaches
  obtain ⟨⟨⟨⟨some, running⟩, fits⟩, detection⟩, allocated⟩ := reaches
  have small : ¬ maximumPacketSize < compressedData.length := by omega
  cases run : detectCodec impl reply with
  | error exception => simp [run, Except.isOk, Except.toBool] at detection
  | ok detected =>
    obtain ⟨context, isOpen, results, next⟩ := detectCodec_results run
    refine ⟨detected, context, rfl, isOpen, results, next, allocated, ?_⟩
    simp [decode, decodePacket, some, running, small, run]

theorem decode_reaching {impl : DetectingImpl} {compressedData : List UInt8} {reply : PacketReply}
    (reaches : reachesCodec impl compressedData reply = true) (ptsUs dtsUs : Int) (send : AVPacket → SendReply) :
    Receives avutil (impl.results ++ (send (makePacket compressedData ptsUs dtsUs)).released) impl.nextPtsMs
      (Answer.ofFrames (decode avutil impl compressedData ptsUs dtsUs { reply with send }).1).frames
      (decode avutil impl compressedData ptsUs dtsUs { reply with send }).2 := by
  obtain ⟨detected, context, _, isOpen, results, next, allocated, sent⟩ :=
    @decode_sent avutil impl compressedData { reply with send } reaches ptsUs dtsUs
  rw [sent, ← results, ← next]
  exact sendPacket_receives _ { reply with send } isOpen allocated

/-- A call that does not get as far as the codec returns no frames. -/
theorem decode_stopped {impl : DetectingImpl} {compressedData : List UInt8} {reply : PacketReply}
    (stopped : reachesCodec impl compressedData reply = false) (ptsUs dtsUs : Int) (send : AVPacket → SendReply) :
    (Answer.ofFrames (decode avutil impl compressedData ptsUs dtsUs { reply with send }).1).frames = [] ∧
      (decode avutil impl compressedData ptsUs dtsUs { reply with send }).2.results = impl.results ∧
      (decode avutil impl compressedData ptsUs dtsUs { reply with send }).2.nextPtsMs = impl.nextPtsMs := by
  have same : detectCodec impl { reply with send } = detectCodec impl reply := rfl
  unfold decode
  by_cases empty : compressedData = []
  · rw [if_pos empty]
    exact ⟨rfl, rfl, rfl⟩
  by_cases ended : impl.endOfStream = true
  · rw [if_neg empty, if_pos ended]
    exact ⟨rfl, rfl, rfl⟩
  rw [if_neg empty, if_neg ended]
  unfold decodePacket
  by_cases large : maximumPacketSize < compressedData.length
  · rw [if_pos large]
    exact ⟨rfl, rfl, rfl⟩
  rw [if_neg large, same]
  cases run : detectCodec impl reply with
  | error exception => exact ⟨rfl, rfl, rfl⟩
  | ok detected =>
    obtain ⟨context, isOpen, results, next⟩ := detectCodec_results run
    have fits : compressedData.length ≤ maximumPacketSize := by omega
    have failed : reply.packetAllocated = false := by
      simpa [reachesCodec, empty, ended, fits, run, Except.isOk, Except.toBool] using stopped
    have kept : detected.results = impl.results := by
      rw [← results]
      simp [DetectingImpl.results, isOpen]
    simp [sendPacket, failed, Answer.ofFrames, Answer.frames, kept, next]

theorem flush_reaching {impl : DetectingImpl} (reaches : (impl.isOpen && !impl.endOfStream) = true)
    (reply : SendReply) :
    Receives avutil (impl.results ++ reply.released) impl.nextPtsMs (Answer.ofFrames (flush avutil impl reply).1).frames
      (flush avutil impl reply).2 := by
  simp only [Bool.and_eq_true, Bool.not_eq_true'] at reaches
  obtain ⟨isOpen, running⟩ := reaches
  obtain ⟨context, present⟩ := Option.isSome_iff_exists.mp isOpen
  have results : impl.results = context.results := by simp [DetectingImpl.results, present]
  unfold flush drainRemainingFrames
  rw [results]
  simp only [running, Bool.false_eq_true, if_false, present]
  generalize context.results ++ reply.released = ready
  split
  · exact ⟨⟨[], rfl, by simp [clock]⟩, Or.inl rfl⟩
  · refine ⟨releaseReadyFrames_received avutil ready impl.nextPtsMs [], ?_⟩
    cases outcome : (releaseReadyFrames avutil ready impl.nextPtsMs []).outcome with
    | error failure => exact Or.inl rfl
    | ok frames => exact Or.inr (releaseReadyFrames_ok outcome)

theorem flush_stopped {impl : DetectingImpl} (stopped : (impl.isOpen && !impl.endOfStream) = false)
    (reply : SendReply) :
    (Answer.ofFrames (flush avutil impl reply).1).frames = [] ∧ (flush avutil impl reply).2.results = impl.results ∧
      (flush avutil impl reply).2.nextPtsMs = impl.nextPtsMs := by
  unfold flush drainRemainingFrames
  by_cases ended : impl.endOfStream = true
  · rw [if_pos ended]
    exact ⟨rfl, rfl, rfl⟩
  · rw [if_neg ended]
    cases present : impl.codecContext with
    | none => exact ⟨rfl, by simp [DetectingImpl.results, present], rfl⟩
    | some context => simp [DetectingImpl.isOpen, present, ended] at stopped

theorem StampingCodec.decoded_results (codec : StampingCodec R) (pts : Int) (feed : Feed R) :
    (codec.decoded pts feed).map Prod.snd = codec.held.map Prod.snd ++ feed.decoded := by
  simp [StampingCodec.decoded, Function.comp_def]

/-- What the codec holds ready is what the decoder's context will deliver, and
the decoder's counter is the clock of what was received. -/
structure VideoState.Sound (avutil : AvUtil) (s : VideoState) : Prop where
  results : s.impl.results = s.codec.ready.map Prod.snd
  counter : s.impl.nextPtsMs = clock avutil s.received

/-- A call on the codec as it answered it, in either kind of call. -/
theorem VideoEvent.receives {s : VideoState} (sound : s.Sound avutil) (e : VideoEvent)
    {codec : StampingCodec ReceiveResult} (answered : e.answered s = some codec) :
    Receives avutil (codec.ready.map Prod.snd) (clock avutil s.received)
      (Decoder.call avutil s.impl (e.call s.codec)).1.frames (Decoder.call avutil s.impl (e.call s.codec)).2 := by
  cases e with
  | decode compressedData ptsUs dtsUs reply feed =>
    simp only [VideoEvent.answered] at answered
    split at answered
    · rename_i reaches
      cases answered
      rw [List.map_append, List.map_take, StampingCodec.decoded_results, ← sound.results, ← sound.counter]
      exact decode_reaching reaches ptsUs dtsUs
        fun _ => ⟨feed.error, (s.codec.held.map Prod.snd ++ feed.decoded).take feed.count⟩
    · cases answered
  | flush error =>
    simp only [VideoEvent.answered] at answered
    split at answered
    · rename_i reaches
      cases answered
      rw [List.map_append, ← sound.results, ← sound.counter]
      exact flush_reaching reaches ⟨error, s.codec.held.map Prod.snd⟩
    · cases answered

theorem VideoEvent.stopped {s : VideoState} (e : VideoEvent) (answered : e.answered s = none) :
    (Decoder.call avutil s.impl (e.call s.codec)).1.frames = [] ∧
      (Decoder.call avutil s.impl (e.call s.codec)).2.results = s.impl.results ∧
      (Decoder.call avutil s.impl (e.call s.codec)).2.nextPtsMs = s.impl.nextPtsMs := by
  cases e with
  | decode compressedData ptsUs dtsUs reply feed =>
    simp only [VideoEvent.answered] at answered
    split at answered
    · cases answered
    · rename_i stopped
      exact decode_stopped (by simpa using stopped) ptsUs dtsUs _
  | flush error =>
    simp only [VideoEvent.answered] at answered
    split at answered
    · cases answered
    · rename_i stopped
      exact flush_stopped (by simpa using stopped) _

/-- What was received leaves the codec, and each frame shows the clock at its result. -/
theorem VideoState.receive_sound {s : VideoState} {codec : StampingCodec ReceiveResult}
    {answer : Answer × DetectingImpl}
    (receives : Receives avutil (codec.ready.map Prod.snd) (clock avutil s.received) answer.1.frames answer.2) :
    (s.receive codec answer).1.Sound avutil ∧ (s.receive codec answer).2.map (·.frame) = answer.1.frames ∧
      ∀ video ∈ (s.receive codec answer).2, video.frame.pts = clock avutil video.received := by
  obtain ⟨⟨consumed, split, advanced⟩, returned⟩ := receives
  have lengths := congrArg List.length split
  rw [List.length_map, List.length_append] at lengths
  have count : codec.ready.length - answer.2.results.length = consumed.length := by omega
  have taken : (codec.ready.take consumed.length).map Prod.snd = consumed := by
    rw [List.map_take, split, List.take_left]
  have left : (codec.ready.drop consumed.length).map Prod.snd = answer.2.results := by
    rw [List.map_drop, split, List.drop_left]
  refine ⟨⟨?_, ?_⟩, ?_⟩
  · simp only [VideoState.receive, count, left]
  · simp only [VideoState.receive, count, taken, clock_append, advanced]
  · rcases returned with none | frames
    · simp [VideoState.receive, none, showVideo]
    · simp only [VideoState.receive, frames]
      refine ⟨showVideo_frames _ _ ?_, showVideo_clock avutil s.received codec.ready⟩
      exact (goodFrames_length_le _ _ _).trans_eq (List.length_map _)

/-- A step shows the frames that its call returned, each with the clock at its result. -/
theorem videoStep_sound {s s' : VideoState} {e : VideoEvent} {shown : List ShownVideo} (sound : s.Sound avutil)
    (run : videoStep avutil s e = some (s', shown)) :
    s'.Sound avutil ∧ shown.map (·.frame) = (Decoder.call avutil s.impl (e.call s.codec)).1.frames ∧
      ∀ video ∈ shown, video.frame.pts = clock avutil video.received := by
  unfold videoStep at run
  cases answered : e.answered s with
  | none =>
    rw [answered] at run
    cases run
    obtain ⟨none, results, next⟩ := e.stopped answered
    exact ⟨⟨results.trans sound.results, next.trans sound.counter⟩, none.symm, by simp⟩
  | some codec =>
    rw [answered] at run
    cases run
    exact VideoState.receive_sound (e.receives sound answered)

end Iptv.Decoder
