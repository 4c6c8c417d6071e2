import Iptv.Lib.CheckedSum
import Iptv.Lib.Machine
import Iptv.Demux.TsDemuxer

namespace Iptv.Main
open Iptv.Decoder (DecodedFrame DecoderException DetectingImpl ConstructionReply PacketReply)
open Iptv.Demux (DemuxedPacket Opening TsDemuxer.demux)

/-- The smallest and the largest value of `int`. -/
def intMin : Int := -2147483648
def intMax : Int := 2147483647

/-- `static_cast<int>` of a size. -/
def toInt (size : Nat) : Int := Int.bmod size 4294967296

/-- `+=` on a counter of type `int`; `none` is a counter that has overflowed. -/
def addInt (counter : Option Int) (value : Int) : Option Int :=
  counter.bind (checkedAdd intMin intMax · value)

def kMetricsReportIntervalMs : Int := 1000

/-- What one of the loops over the packets leaves, with the vectors that the decoder returned in it. -/
structure Decoding (δ : Type) where
  decoder : δ
  framesLastInterval : Option Int
  returned : List (List DecodedFrame)

/-- The loop over the packets of one stream; an exception of the decoder ends it. -/
def decodeStream {δ ε : Type} (decode : δ → DemuxedPacket → Nat → Except ε (List DecodedFrame) × δ)
    (streamIdx : Int) : List (DemuxedPacket × Nat) → δ → Option Int → Except ε (Decoding δ)
  | [], decoder, framesLastInterval => .ok ⟨decoder, framesLastInterval, []⟩
  | (pkt, i) :: rest, decoder, framesLastInterval =>
    if pkt.streamIndex = streamIdx ∧ 0 ≤ streamIdx then
      match decode decoder pkt i with
      | (.error exception, _) => .error exception
      | (.ok frames, decoder') =>
        (decodeStream decode streamIdx rest decoder' (addInt framesLastInterval (toInt frames.length))).map
          fun later => { later with returned := frames :: later.returned }
    else decodeStream decode streamIdx rest decoder framesLastInterval

/-- What the consumer thread meets in the processing of one bundle: what libavformat
finds in its buffer, how libavcodec answers to each packet, the clock in nanoseconds,
and the length of the queue. -/
structure BundleReply where
  opening : Opening
  videoReply : Nat → PacketReply
  audioReply : Nat → Decoder.AVPacket → Decoder.Audio.SendReply
  now : Int
  queueSize : Nat

def decodeVideo (avutil : Decoder.AvUtil) (reply : BundleReply) (decoder : DetectingImpl) (pkt : DemuxedPacket)
    (i : Nat) :
    Except Decoder.Failure (List DecodedFrame) × DetectingImpl :=
  Decoder.decode avutil decoder pkt.data pkt.pts pkt.dts (reply.videoReply i)

def decodeAudio (reply : BundleReply) (decoder : Decoder.Audio.Impl) (pkt : DemuxedPacket) (i : Nat) :
    Except Decoder.Audio.Failure (List DecodedFrame) × Decoder.Audio.Impl :=
  Decoder.Audio.decode decoder pkt.data pkt.pts pkt.dts (reply.audioReply i)

/-- The two decoders and the metrics that the consumer thread captures. -/
structure Consumer where
  videoDecoder : DetectingImpl
  audioDecoder : Decoder.Audio.Impl
  totalDecodedFrames : Option Int := some 0
  framesLastInterval : Option Int := some 0
  lastMetricsTime : Int
  running : Bool := true

/-- The decoders are constructed with an empty hint and with the hint for AAC. -/
def Consumer.start (video audio : ConstructionReply) (now : Int) : Except DecoderException Consumer :=
  (Decoder.construct "" video).bind fun videoDecoder =>
    (Decoder.Audio.construct "aac" audio).map fun audioDecoder =>
      { videoDecoder, audioDecoder, lastMetricsTime := now }

/-- The line of metrics. -/
structure MetricsReport where
  elapsedMs : Int
  framesLastInterval : Option Int
  decoded : Option Int
  queue : Nat

/-- The frame rate that the line shows; each operation on doubles rounds its result. -/
def MetricsReport.fps (round : Rat → Rat) (report : MetricsReport) : Option Rat :=
  if 0 < report.elapsedMs then
    report.framesLastInterval.map fun frames => round (round frames / round (round report.elapsedMs / 1000))
  else some 0

/-- A processed bundle: the vectors that each of the two decoders returned, the time since
the last report, and the report and the counters at the end of the iteration. -/
structure Iteration where
  video : List (List DecodedFrame)
  audio : List (List DecodedFrame)
  elapsedMs : Int
  report : Option MetricsReport
  totalDecodedFrames : Option Int
  framesLastInterval : Option Int

/-- The vectors that were returned, in the order of the two loops. -/
def Iteration.returned (it : Iteration) : List (List DecodedFrame) := it.video ++ it.audio

def Iteration.frames (it : Iteration) : Nat := (it.returned.map (·.length)).sum

/-- The end of an iteration, behind the two loops. -/
def Consumer.updateMetrics (c : Consumer) (video audio : List (List DecodedFrame)) (framesLastInterval : Option Int)
    (reply : BundleReply) : Consumer × Iteration :=
  let totalDecodedFrames := framesLastInterval.bind (addInt c.totalDecodedFrames ·)
  let elapsedMs := Int.tdiv (reply.now - c.lastMetricsTime) 1000000
  if kMetricsReportIntervalMs ≤ elapsedMs then
    ({ c with totalDecodedFrames, framesLastInterval := some 0, lastMetricsTime := reply.now },
      { video, audio, elapsedMs,
        report := some ⟨elapsedMs, framesLastInterval, totalDecodedFrames, reply.queueSize⟩,
        totalDecodedFrames, framesLastInterval := some 0 })
  else
    ({ c with totalDecodedFrames, framesLastInterval },
      { video, audio, elapsedMs, report := none, totalDecodedFrames, framesLastInterval })

section
variable (avutil : Decoder.AvUtil)

/-- One bundle from the demuxer to the metrics. An exception of the demuxer or of a
decoder leaves the thread function, which ends the program. -/
def Consumer.processBundle (c : Consumer) (reply : BundleReply) : Option (Consumer × Iteration) :=
  match TsDemuxer.demux avutil.avRescaleQ reply.opening ⟨some (-1), some (-1)⟩ with
  | (.error _, _) => none
  | (.ok packets, indices) =>
    match decodeStream (decodeVideo avutil reply) (indices.video.getD (-1)) packets.zipIdx c.videoDecoder
        c.framesLastInterval with
    | .error _ => none
    | .ok video =>
      match decodeStream (decodeAudio reply) (indices.audio.getD (-1)) packets.zipIdx c.audioDecoder
          video.framesLastInterval with
      | .error _ => none
      | .ok audio =>
        some ({ c with videoDecoder := video.decoder, audioDecoder := audio.decoder }.updateMetrics
          video.returned audio.returned audio.framesLastInterval reply)

/-- What a turn of the loop finds: a stop request, before or during the wait for a
bundle, an empty answer of the queue, or a bundle. -/
inductive ConsumerEvent
  | stopRequested
  | noBundle
  | bundle (reply : BundleReply)

def consumerStep (c : Consumer) (event : ConsumerEvent) : Option (Consumer × List Iteration) :=
  if c.running = false then none
  else match event with
    | .stopRequested => some ({ c with running := false }, [])
    | .noBundle => some (c, [])
    | .bundle reply => (c.processBundle avutil reply).map fun processed => (processed.1, [processed.2])

end

theorem toInt_small {size : Nat} (small : (size : Int) ≤ intMax) : toInt size = size := by
  unfold intMax at small
  exact Int.bmod_eq_of_le (by omega) (by omega)

/-- The loop adds the size of every vector that it is given. -/
theorem decodeStream_counts {δ ε : Type}
    {decode : δ → DemuxedPacket → Nat → Except ε (List DecodedFrame) × δ} {streamIdx : Int}
    {packets : List (DemuxedPacket × Nat)} {decoder : δ} {framesLastInterval : Option Int}
    {decoding : Decoding δ}
    (run : decodeStream decode streamIdx packets decoder framesLastInterval = .ok decoding) :
    decoding.framesLastInterval = checkedSum intMin intMax framesLastInterval
      (decoding.returned.map fun frames => toInt frames.length) := by
  induction packets generalizing decoder framesLastInterval decoding with
  | nil =>
    cases run
    rfl
  | cons entry rest ih =>
    obtain ⟨pkt, i⟩ := entry
    simp only [decodeStream] at run
    split at run
    · obtain ⟨outcome, decoder', called⟩ : ∃ outcome decoder', decode decoder pkt i = (outcome, decoder') :=
        ⟨_, _, rfl⟩
      rw [called] at run
      cases outcome with
      | error exception => cases run
      | ok frames =>
        dsimp only at run
        cases tail : decodeStream decode streamIdx rest decoder'
            (addInt framesLastInterval (toInt frames.length)) with
        | error exception =>
          rw [tail] at run
          cases run
        | ok later =>
          have counted := ih tail
          rw [tail] at run
          cases run
          exact counted
    · exact ih run

/-- What an iteration does to the counters. -/
theorem processBundle_counts {avutil : Decoder.AvUtil}
    {c c' : Consumer} {reply : BundleReply} {it : Iteration}
    (run : c.processBundle avutil reply = some (c', it)) :
    ∃ framesLastInterval,
      framesLastInterval = checkedSum intMin intMax c.framesLastInterval
        (it.returned.map fun frames => toInt frames.length) ∧
      it.totalDecodedFrames = framesLastInterval.bind (addInt c.totalDecodedFrames ·) ∧
      it.framesLastInterval = (if kMetricsReportIntervalMs ≤ it.elapsedMs then some 0 else framesLastInterval) ∧
      (it.report ≠ none ↔ kMetricsReportIntervalMs ≤ it.elapsedMs) ∧
      c'.totalDecodedFrames = it.totalDecodedFrames ∧ c'.framesLastInterval = it.framesLastInterval := by
  unfold Consumer.processBundle at run
  split at run
  · cases run
  · rename_i packets indices _
    cases videoRun : decodeStream (decodeVideo avutil reply) (indices.video.getD (-1)) packets.zipIdx c.videoDecoder
        c.framesLastInterval with
    | error exception => simp [videoRun] at run
    | ok video =>
      cases audioRun : decodeStream (decodeAudio reply) (indices.audio.getD (-1)) packets.zipIdx c.audioDecoder
          video.framesLastInterval with
      | error exception => simp [videoRun, audioRun] at run
      | ok audio =>
        simp only [videoRun, audioRun, Option.some.injEq, Consumer.updateMetrics] at run
        refine ⟨audio.framesLastInterval, ?_, ?_⟩
        · have returned : it.returned = video.returned ++ audio.returned := by
            split at run <;> cases run <;> rfl
          rw [decodeStream_counts audioRun, decodeStream_counts videoRun, ← checkedSum_append,
            ← List.map_append, returned]
        · split at run <;> rename_i due <;> cases run <;> simp [due]

end Iptv.Main
