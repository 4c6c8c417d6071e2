import Mathlib.Data.List.Basic

namespace Iptv.Decoder

inductive MediaType
  | video
  | audio
  deriving DecidableEq

inductive PixelFormat
  | YUV420P
  | RGB24
  | unknown
  deriving DecidableEq

inductive AudioFormat
  | PCM_S16_48KHZ
  | PCM_S16_44KHZ
  | unknown
  deriving DecidableEq

structure FrameTiming where
  pts : Int := 0
  duration : Int := 0

structure VideoFrameGeometry where
  width : Int := 0
  height : Int := 0
  pixelFormat : PixelFormat := .unknown
  linesize : List Int := [0, 0, 0, 0]

structure AudioFrameGeometry where
  sampleRate : Int := 0
  channels : Int := 0
  audioFormat : AudioFormat := .unknown

structure DecodedFrame where
  pts : Int := 0
  duration : Int := 0
  mediaType : MediaType := .video
  width : Int := 0
  height : Int := 0
  pixelFormat : PixelFormat := .unknown
  linesize : List Int := [0, 0, 0, 0]
  sampleRate : Int := 0
  channels : Int := 0
  audioFormat : AudioFormat := .unknown
  data : List UInt8
  deriving DecidableEq

def DecodedFrame.ofVideo (timing : FrameTiming) (geometry : VideoFrameGeometry)
    (frameData : List UInt8) : DecodedFrame where
  pts := timing.pts
  duration := timing.duration
  mediaType := .video
  width := geometry.width
  height := geometry.height
  pixelFormat := geometry.pixelFormat
  linesize := geometry.linesize
  data := frameData

def DecodedFrame.ofAudio (timing : FrameTiming) (geometry : AudioFrameGeometry)
    (frameData : List UInt8) : DecodedFrame where
  pts := timing.pts
  duration := timing.duration
  mediaType := .audio
  sampleRate := geometry.sampleRate
  channels := geometry.channels
  audioFormat := geometry.audioFormat
  data := frameData

inductive DecoderError
  | codecNotFound
  | allocationFailed
  | codecOpenFailed
  | invalidFormat
  | corruptData
  | initializationFailed
  | invalidCodec
  | unknownError
  | corruptInput
  | unknown
  deriving DecidableEq

structure DecoderException where
  error : DecoderError
  message : String
  deriving DecidableEq

end Iptv.Decoder
