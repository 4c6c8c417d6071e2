import Iptv.Decoder.FFmpegDecoder

namespace Iptv.Decoder

/-- How libavcodec answers the three steps of `openCodecContext`. -/
structure OpenReply where
  found : Bool
  allocated : Bool
  opened : Bool
  deriving DecidableEq

def openCodecContext (codecHint : String) (reply : OpenReply) : Except DecoderException CodecContext :=
  if reply.found = false then
    .error ⟨.codecNotFound, "FFmpeg codec not found: '" ++ codecHint ++
      "'. Supply a decoder name supported by this FFmpeg build."⟩
  else if reply.allocated = false then
    .error ⟨.allocationFailed, "Failed to allocate AVCodecContext for codec '" ++ codecHint ++
      "'. The system is out of memory."⟩
  else if reply.opened = false then
    .error ⟨.codecOpenFailed, "Failed to open FFmpeg codec '" ++ codecHint ++
      "'. Verify the codec is supported by this FFmpeg build."⟩
  else .ok ⟨[]⟩

/-- `Impl` with the name that detection may replace. -/
structure DetectingImpl extends Impl where
  codecName : String

structure ConstructionReply where
  opening : OpenReply
  frameAllocated : Bool
  packetAllocated : Bool

/-- The constructor of `Impl`: an empty hint leaves the context null. -/
def DetectingImpl.construct (codecHint : String) (reply : ConstructionReply) :
    Except DecoderException DetectingImpl :=
  let context : Except DecoderException (Option CodecContext) :=
    if codecHint = "" then .ok none else (openCodecContext codecHint reply.opening).map some
  context.bind fun codecContext =>
    if reply.frameAllocated = false then
      .error ⟨.allocationFailed, "Failed to allocate FFmpeg AVFrame. The system is out of memory."⟩
    else if reply.packetAllocated = false then
      .error ⟨.allocationFailed, "Failed to allocate FFmpeg AVPacket. The system is out of memory."⟩
    else .ok { codecContext, codecName := codecHint }

/-- The constructor of `FFmpegDecoder` reports every failure as an invalid codec. -/
def construct (codecHint : String) (reply : ConstructionReply) : Except DecoderException DetectingImpl :=
  (DetectingImpl.construct codecHint reply).mapError fun exception => ⟨.invalidCodec, exception.message⟩

/-- A packet as libavcodec receives it; a missing timestamp is `AV_NOPTS_VALUE`. -/
structure AVPacket where
  data : List UInt8
  pts : Option Int := none
  dts : Option Int := none

/-- How the libraries answer a call of `decodePacket`: the probe with the name of
the format it found, the opening of that codec, the packet buffer, and what
`avcodec_send_packet` makes of the packet. -/
structure PacketReply where
  probeAllocated : Bool
  format : Option String
  opening : OpenReply
  packetAllocated : Bool
  send : AVPacket → SendReply

/-- `std::numeric_limits<int>::max()`. -/
def maximumPacketSize : Nat := 2147483647

/-- The status in the message is that of a send that failed for another reason than its input. -/
def requirePacketAccepted (avutil : AvUtil) (error : Option AVError) (packetSize : Nat) :
    Except DecoderException Bool :=
  match error with
  | none => .ok true
  | some .invalidData => .ok false
  | some status => .error ⟨.unknownError, "FFmpeg rejected a packet of " ++ toString packetSize ++
      " byte(s): " ++ describeStatus avutil status ++ "."⟩

/-- The first part of `decodePacket`: automatic detection while the context is null. -/
def detectCodec (impl : DetectingImpl) (reply : PacketReply) : Except DecoderException DetectingImpl :=
  match impl.codecContext with
  | some _ => .ok impl
  | none =>
    if reply.probeAllocated = false then
      .error ⟨.allocationFailed, "Failed to allocate probe buffer for auto-detection."⟩
    else match reply.format with
      | none => .error ⟨.codecNotFound, "Auto-detection failed for raw bitstream."⟩
      | some name =>
        match openCodecContext name reply.opening with
        | .error _ => .error ⟨.codecNotFound, "Auto-detection failed for raw bitstream."⟩
        | .ok context => .ok { impl with codecContext := some context, codecName := name }

/-- The packet carries the timestamps it was given; `-1` stands for none. -/
def makePacket (compressedData : List UInt8) (ptsUs dtsUs : Int) : AVPacket where
  data := compressedData
  pts := if ptsUs ≠ -1 then some ptsUs else none
  dts := if dtsUs ≠ -1 then some dtsUs else none

/-- The rest of `decodePacket`: the packet is sent, then all that is ready is released. -/
def sendPacket (avutil : AvUtil) (impl : DetectingImpl) (packet : AVPacket) (reply : PacketReply) :
    Except Failure (List DecodedFrame) × DetectingImpl :=
  if reply.packetAllocated = false then
    (.error (.decoder ⟨.allocationFailed, "Failed to allocate an FFmpeg packet for " ++
      toString packet.data.length ++ " byte(s) of input."⟩), impl)
  else match impl.codecContext with
    | none => (.error .missingContext, impl)
    | some context =>
      let answer := reply.send packet
      let results := context.results ++ answer.released
      match requirePacketAccepted avutil answer.error packet.data.length with
      | .error exception => (.error (.decoder exception), { impl with codecContext := some ⟨results⟩ })
      | .ok false => (.ok [], { impl with codecContext := some ⟨results⟩ })
      | .ok true =>
        let release := releaseReadyFrames avutil results impl.nextPtsMs []
        (release.outcome,
          { impl with codecContext := some ⟨release.rest⟩, nextPtsMs := release.nextPtsMs })

def decodePacket (avutil : AvUtil) (impl : DetectingImpl) (compressedData : List UInt8) (ptsUs dtsUs : Int)
    (reply : PacketReply) : Except Failure (List DecodedFrame) × DetectingImpl :=
  if maximumPacketSize < compressedData.length then
    (.error (.decoder ⟨.unknownError, "Packet of " ++ toString compressedData.length ++
      " byte(s) is larger than the biggest packet FFmpeg can address."⟩), impl)
  else match detectCodec impl reply with
    | .error exception => (.error (.decoder exception), impl)
    | .ok detected => sendPacket avutil detected (makePacket compressedData ptsUs dtsUs) reply

def afterFlushMessage : String :=
  "FFmpegDecoder::decode was called after flush(), which closed the codec to input. Any " ++
    "further packet would be dropped without notice, so this is reported instead."

def decode (avutil : AvUtil) (impl : DetectingImpl) (compressedData : List UInt8) (ptsUs dtsUs : Int)
    (reply : PacketReply) : Except Failure (List DecodedFrame) × DetectingImpl :=
  if compressedData = [] then (.ok [], impl)
  else if impl.endOfStream then (.error (.logic afterFlushMessage), impl)
  else decodePacket avutil impl compressedData ptsUs dtsUs reply

def flush (avutil : AvUtil) (impl : DetectingImpl) (reply : SendReply) :
    Except Failure (List DecodedFrame) × DetectingImpl :=
  let (outcome, impl') := drainRemainingFrames avutil impl.toImpl reply
  (outcome, { impl' with codecName := impl.codecName })

/-- The description of a picture codec. -/
structure CodecInfo where
  name : String
  profile : String := ""
  bitrate : Int := 0
  hardwareAccelerated : Bool := false
  width : Int
  height : Int
  fps : Rat
  deriving DecidableEq

/-- What the codec context reports of the stream it decodes. -/
structure CodecReport where
  framerate : AVRational
  width : Int
  height : Int

def getCodecInfo (avutil : AvUtil) (impl : DetectingImpl) (report : CodecReport) :
    Except Failure CodecInfo :=
  match impl.codecContext with
  | none => .error .missingContext
  | some _ => .ok {
      name := impl.codecName
      width := report.width
      height := report.height
      fps := if 0 < report.framerate.num ∧ 0 < report.framerate.den then
          avutil.avQ2d report.framerate
        else 0 }

/-- A call of the decoder's interface with the answers that the libraries give in it. -/
inductive Call
  | decode (compressedData : List UInt8) (ptsUs dtsUs : Int) (reply : PacketReply)
  | flush (reply : SendReply)
  | getCodecInfo (report : CodecReport)

inductive Answer
  | returned (frames : List DecodedFrame)
  | info (info : CodecInfo)
  | failed (failure : Failure)
  deriving DecidableEq

def Answer.ofFrames : Except Failure (List DecodedFrame) → Answer
  | .ok frames => .returned frames
  | .error failure => .failed failure

def call (avutil : AvUtil) (impl : DetectingImpl) : Call → Answer × DetectingImpl
  | .decode compressedData ptsUs dtsUs reply =>
    let (outcome, impl') := decode avutil impl compressedData ptsUs dtsUs reply
    (.ofFrames outcome, impl')
  | .flush reply =>
    let (outcome, impl') := flush avutil impl reply
    (.ofFrames outcome, impl')
  | .getCodecInfo report =>
    match getCodecInfo avutil impl report with
    | .ok info => (.info info, impl)
    | .error failure => (.failed failure, impl)

/-- The answers to a sequence of calls. -/
def answers (avutil : AvUtil) : DetectingImpl → List Call → List Answer
  | _, [] => []
  | impl, c :: rest => (call avutil impl c).1 :: answers avutil (call avutil impl c).2 rest

end Iptv.Decoder
