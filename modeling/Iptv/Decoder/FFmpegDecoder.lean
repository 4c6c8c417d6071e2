import Iptv.Decoder.AvUtil
import Iptv.Decoder.FrameExtractor

namespace Iptv.Decoder

/-- One answer of `avcodec_receive_frame`; a frame comes with the frame rate the
codec reports at that moment. -/
inductive ReceiveResult
  | frame (frame : AVFrame) (framerate : AVRational)
  | error (status : AVError)

/-- The codec as its user sees it: the answers of the coming receive calls. When
they are used up it answers `EAGAIN`, or `AVERROR_EOF` while it drains. -/
structure CodecContext where
  results : List ReceiveResult

/-- How the codec answers `avcodec_send_packet`: its error, if any, and the
results it makes ready. -/
structure SendReply where
  error : Option AVError
  released : List ReceiveResult

structure Impl where
  codecContext : Option CodecContext
  nextPtsMs : Int := 0
  endOfStream : Bool := false

/-- A moved-from decoder has no implementation. -/
structure FFmpegDecoder where
  pimpl : Option Impl

/-- How a call ends without a value; `missingContext` is a null codec context
read, or handed to libavcodec. -/
inductive Failure
  | decoder (exception : DecoderException)
  | logic (message : String)
  | missingContext
  deriving DecidableEq

def kMinimumFrameStepMs : Int := 1

def describeStatus (avutil : AvUtil) (status : AVError) : String := avutil.avStrerror status

/-- The time base of milliseconds. -/
def kFrameTimeBase : AVRational := ⟨1, 1000⟩

/-- The inverse of a frame rate in the time base of the decoder; zero where no rate is reported. -/
def frameDurationMs (avutil : AvUtil) (rate : AVRational) : Int :=
  if rate.num ≤ 0 ∨ rate.den ≤ 0 then 0 else avutil.avRescaleQ 1 ⟨rate.den, rate.num⟩ kFrameTimeBase

def packReadyFrame (avutil : AvUtil) (frame : AVFrame) (rate : AVRational) (nextPtsMs : Int) :
    Except DecoderException (DecodedFrame × Int) :=
  (extractDecodedFrame frame nextPtsMs (frameDurationMs avutil rate)).map fun packed =>
    (packed, nextPtsMs + max (frameDurationMs avutil rate) kMinimumFrameStepMs)

/-- What `releaseReadyFrames` leaves: the frames or the exception, the results
it did not ask for, and the next synthesized time. -/
structure Release where
  outcome : Except Failure (List DecodedFrame)
  rest : List ReceiveResult
  nextPtsMs : Int

/-- The loop of `releaseReadyFrames`; one turn uses up one result. -/
def releaseReadyFrames (avutil : AvUtil) : List ReceiveResult → Int → List DecodedFrame → Release
  | [], nextPtsMs, frames => ⟨.ok frames, [], nextPtsMs⟩
  | .frame frame rate :: rest, nextPtsMs, frames =>
    match packReadyFrame avutil frame rate nextPtsMs with
    | .error exception => ⟨.error (.decoder exception), rest, nextPtsMs⟩
    | .ok (packed, later) => releaseReadyFrames avutil rest later (frames ++ [packed])
  | .error (.other status) :: rest, nextPtsMs, _ =>
    ⟨.error (.decoder ⟨.unknownError,
      "FFmpeg failed to produce a frame: " ++ describeStatus avutil (.other status) ++ "."⟩), rest, nextPtsMs⟩
  | .error _ :: rest, nextPtsMs, frames => ⟨.ok frames, rest, nextPtsMs⟩

/-- `status < 0 && status != AVERROR_EOF`. -/
def SendReply.refusal (reply : SendReply) : Option AVError :=
  match reply.error with
  | some .endOfFile => none
  | other => other

def drainRemainingFrames (avutil : AvUtil) (impl : Impl) (reply : SendReply) :
    Except Failure (List DecodedFrame) × Impl :=
  if impl.endOfStream then (.ok [], impl)
  else match impl.codecContext with
    | none => (.error .missingContext, impl)
    | some context =>
      let results := context.results ++ reply.released
      match reply.refusal with
      | some status =>
        (.error (.decoder ⟨.unknownError,
            "FFmpeg refused the end of stream signal: " ++ describeStatus avutil status ++ "."⟩),
          { impl with codecContext := some ⟨results⟩, endOfStream := true })
      | none =>
        let release := releaseReadyFrames avutil results impl.nextPtsMs []
        (release.outcome,
          { codecContext := some ⟨release.rest⟩, nextPtsMs := release.nextPtsMs, endOfStream := true })

def movedFromMessage : String :=
  "Operation called on a moved-from FFmpegDecoder, which holds no resources. " ++
    "Use the move destination, or reassign the source before calling again."

/-- `flush`, given the codec's answer to the end of stream signal. -/
def FFmpegDecoder.flush (avutil : AvUtil) (decoder : FFmpegDecoder) (reply : SendReply) :
    Except Failure (List DecodedFrame) × FFmpegDecoder :=
  match decoder.pimpl with
  | none => (.error (.logic movedFromMessage), decoder)
  | some impl =>
    let (outcome, impl') := drainRemainingFrames avutil impl reply
    (outcome, ⟨some impl'⟩)

end Iptv.Decoder
