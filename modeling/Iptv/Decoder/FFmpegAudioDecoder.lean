import Iptv.Decoder.PacketDecoding

namespace Iptv.Decoder.Audio

/-- `AV_NOPTS_VALUE`, the smallest 64-bit integer. -/
def noPtsValue : Int := -9223372036854775808

/-- How libswresample answers the steps between a decoded frame and its samples:
the sizes and counts are negative when they report an error, and `buffer` is
what the output buffer holds in the end. -/
structure Resampling where
  allocated : Bool
  initialized : Bool
  outSamples : Int
  dataSize : Int
  resampledSamples : Int
  actualSize : Int
  buffer : List UInt8

/-- One answer of `avcodec_receive_frame`; a frame comes with its timestamp. -/
inductive ReceiveResult
  | frame (pts : Int) (resampling : Resampling)
  | error (status : AVError)

structure SendReply where
  error : Option AVError
  released : List ReceiveResult

/-- The packet is reused from call to call, and with it a timestamp that a call
does not replace. -/
structure Impl where
  results : List ReceiveResult
  swrContext : Bool := false
  packet : AVPacket := { data := [] }

/-- The constructor: there is no automatic detection, and whatever fails behind
the test of the hint is reported as an invalid codec. -/
def construct (codecHint : String) (reply : ConstructionReply) : Except DecoderException Impl :=
  if codecHint = "" then
    .error ⟨.invalidCodec, "Codec hint must be non-empty; automatic codec detection is " ++
      "disabled and a decoder name is required."⟩
  else
    let impl : Except DecoderException Impl := (openCodecContext codecHint reply.opening).bind fun _ =>
      if reply.packetAllocated = false then
        .error ⟨.allocationFailed, "Failed to allocate FFmpeg AVPacket. The system is out of memory."⟩
      else if reply.frameAllocated = false then
        .error ⟨.allocationFailed, "Failed to allocate FFmpeg AVFrame. The system is out of memory."⟩
      else .ok { results := [] }
    impl.mapError fun exception => ⟨.invalidCodec, exception.message⟩

theorem construct_ok {codecHint : String} {reply : ConstructionReply} {impl : Impl}
    (accepted : construct codecHint reply = .ok impl) : impl = { results := [] } := by
  unfold construct at accepted
  split at accepted
  · cases accepted
  · cases opening : openCodecContext codecHint reply.opening with
    | error exception => simp [opening, Except.bind, Except.mapError] at accepted
    | ok context =>
      cases packet : reply.packetAllocated <;> cases frame : reply.frameAllocated <;>
        simp [opening, packet, frame, Except.bind, Except.mapError] at accepted
      rw [← accepted]

/-- How a call ends without a value; `resize` to a negative size is a `std::length_error`. -/
inductive Failure
  | decoder (exception : DecoderException)
  | lengthError
  deriving DecidableEq

def initSwrContext (swrContext : Bool) (resampling : Resampling) : Except DecoderException Unit :=
  if swrContext then .ok ()
  else if resampling.allocated = false then
    .error ⟨.allocationFailed, "Failed to allocate SwrContext"⟩
  else if resampling.initialized = false then
    .error ⟨.unknownError, "Failed to initialize SwrContext"⟩
  else .ok ()

def stereo48kHz : AudioFrameGeometry where
  sampleRate := 48000
  channels := 2
  audioFormat := .PCM_S16_48KHZ

/-- `out_buf.resize(actual_size)`: bytes that are added are zero. -/
def resize (buffer : List UInt8) (actualSize : Int) : List UInt8 :=
  buffer.take actualSize.toNat ++ List.replicate (actualSize.toNat - buffer.length) 0

/-- What `drainFrames` makes of one received frame, once there is a resampler. -/
def resample (pts : Int) (resampling : Resampling) : Except Failure DecodedFrame :=
  if resampling.outSamples < 0 then
    .error (.decoder ⟨.allocationFailed, "Failed to calculate out samples"⟩)
  else if resampling.dataSize < 0 then
    .error (.decoder ⟨.allocationFailed, "Failed to calculate buffer size"⟩)
  else if resampling.resampledSamples < 0 then
    .error (.decoder ⟨.corruptInput, "Error while resampling audio"⟩)
  else if resampling.actualSize < 0 then .error .lengthError
  else .ok (.ofAudio { pts, duration := 0 } stereo48kHz (resize resampling.buffer resampling.actualSize))

/-- What `drainFrames` leaves: the frames or the exception, the results it did
not ask for, and whether there is a resampler. -/
structure Drain where
  outcome : Except Failure (List DecodedFrame)
  rest : List ReceiveResult
  swrContext : Bool

/-- The loop of `drainFrames`; one turn uses up one result. -/
def drainFrames : List ReceiveResult → Bool → List DecodedFrame → Drain
  | [], swrContext, output => ⟨.ok output, [], swrContext⟩
  | .frame pts resampling :: rest, swrContext, output =>
    match initSwrContext swrContext resampling with
    | .error exception => ⟨.error (.decoder exception), rest, swrContext⟩
    | .ok () =>
      match resample pts resampling with
      | .error failure => ⟨.error failure, rest, true⟩
      | .ok frame => drainFrames rest true (output ++ [frame])
  | .error .again :: rest, swrContext, output => ⟨.ok output, rest, swrContext⟩
  | .error .endOfFile :: rest, swrContext, output => ⟨.ok output, rest, swrContext⟩
  | .error _ :: rest, swrContext, _ =>
    ⟨.error (.decoder ⟨.unknownError, "Error receiving audio frame"⟩), rest, swrContext⟩

/-- The packet of a call: what the caller leaves out stays as the last call left it. -/
def setPacket (packet : AVPacket) (compressedData : List UInt8) (ptsUs dtsUs : Int) : AVPacket where
  data := compressedData
  pts := if ptsUs ≠ -1 then some ptsUs else packet.pts
  dts := if dtsUs ≠ -1 then some dtsUs else packet.dts

/-- `decode`, given what `avcodec_send_packet` makes of the packet. -/
def decode (impl : Impl) (compressedData : List UInt8) (ptsUs dtsUs : Int) (send : AVPacket → SendReply) :
    Except Failure (List DecodedFrame) × Impl :=
  let packet := setPacket impl.packet compressedData ptsUs dtsUs
  let reply := send packet
  let results := impl.results ++ reply.released
  match reply.error with
  | none | some .endOfFile =>
    let drain := drainFrames results impl.swrContext []
    (drain.outcome, { results := drain.rest, swrContext := drain.swrContext, packet })
  | some _ =>
    (.error (.decoder ⟨.unknownError, "Error sending packet to decoder"⟩), { impl with results, packet })

/-- The samples that libswresample still holds at the end of the stream. -/
structure Remainder where
  outSamples : Int
  dataSize : Int
  resampledSamples : Int
  actualSize : Int
  buffer : List UInt8

/-- The last frame of `flush` comes from the resampler and has no timestamp. -/
def flushRemainder (swrContext : Bool) (remainder : Remainder) : Except Failure (List DecodedFrame) :=
  if swrContext = true ∧ 0 < remainder.outSamples then
    if remainder.dataSize < 0 then .error .lengthError
    else if remainder.resampledSamples ≤ 0 then .ok []
    else if remainder.actualSize < 0 then .error .lengthError
    else .ok [.ofAudio { pts := noPtsValue, duration := 0 } stereo48kHz
      (resize remainder.buffer remainder.actualSize)]
  else .ok []

/-- `flush`, given what the end of stream signal makes ready and what the resampler still holds. -/
def flush (impl : Impl) (released : List ReceiveResult) (remainder : Remainder) :
    Except Failure (List DecodedFrame) × Impl :=
  let drain := drainFrames (impl.results ++ released) impl.swrContext []
  (drain.outcome.bind fun frames => (flushRemainder drain.swrContext remainder).map (frames ++ ·),
    { impl with results := drain.rest, swrContext := drain.swrContext })

end Iptv.Decoder.Audio
