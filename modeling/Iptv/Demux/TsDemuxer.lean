import Iptv.Decoder.FFmpegAudioDecoder

namespace Iptv.Demux
open Iptv.Decoder (AVRational RoundsToNearest Audio.noPtsValue)

inductive MediaType
  | video
  | audio
  | other

structure AVStream where
  codecType : MediaType
  timeBase : AVRational

/-- A packet of a container with the given number of streams. -/
structure AVPacket (streams : Nat) where
  streamIndex : Fin streams
  data : List UInt8
  pts : Int
  dts : Int

/-- What libavformat finds in the bytes: the streams, and the packets that
`av_read_frame` hands out until it fails. -/
structure Container where
  streams : List AVStream
  packets : List (AVPacket streams.length)

/-- How far the input is opened. -/
inductive Opening
  | noAvioBuffer
  | noAvioContext
  | noFormatContext
  | notOpened
  | noStreamInfo
  | noPacket (container : Container)
  | opened (container : Container)

structure DemuxedPacket where
  streamIndex : Int
  data : List UInt8
  pts : Int
  dts : Int

/-- The two indices of the caller; `none` stands for a null pointer. -/
structure StreamIndices where
  video : Option Int
  audio : Option Int

def StreamIndices.reset (indices : StreamIndices) : StreamIndices where
  video := indices.video.map fun _ => -1
  audio := indices.audio.map fun _ => -1

/-- The last stream of a kind is the one that stays. -/
def StreamIndices.visit (indices : StreamIndices) (entry : AVStream × Nat) : StreamIndices :=
  match entry.1.codecType with
  | .video => { indices with video := indices.video.map fun _ => entry.2 }
  | .audio => { indices with audio := indices.audio.map fun _ => entry.2 }
  | .other => indices

def StreamIndices.find (indices : StreamIndices) (streams : List AVStream) : StreamIndices :=
  streams.zipIdx.foldl StreamIndices.visit indices.reset

section
variable (avRescaleQ : Int → AVRational → AVRational → Int)

/-- From the time base of the stream to microseconds. -/
def convertTimestamp (timeBase : AVRational) (timestamp : Int) : Int :=
  if timestamp ≠ Audio.noPtsValue then avRescaleQ timestamp timeBase ⟨1, 1000000⟩ else Audio.noPtsValue

def demuxPacket (container : Container) (pkt : AVPacket container.streams.length) : DemuxedPacket :=
  let streamTimeBase := (container.streams.get pkt.streamIndex).timeBase
  { streamIndex := pkt.streamIndex
    data := pkt.data
    pts := convertTimestamp avRescaleQ streamTimeBase pkt.pts
    dts := convertTimestamp avRescaleQ streamTimeBase pkt.dts }

/-- The packets, or the message of the exception, with the indices the caller sees. -/
def TsDemuxer.demux (opening : Opening) (indices : StreamIndices) :
    Except String (List DemuxedPacket) × StreamIndices :=
  match opening with
  | .noAvioBuffer => (.error "Failed to allocate AVIO buffer", indices.reset)
  | .noAvioContext => (.error "Failed to allocate AVIO context", indices.reset)
  | .noFormatContext => (.error "Failed to allocate format context", indices.reset)
  | .notOpened => (.error "Failed to open input format context", indices.reset)
  | .noStreamInfo => (.error "Failed to find stream info", indices.reset)
  | .noPacket container => (.error "Failed to allocate packet", indices.find container.streams)
  | .opened container =>
    (.ok (container.packets.map (demuxPacket avRescaleQ container)), indices.find container.streams)

end

/-- In the clock of a transport stream the conversion is off by less than half a microsecond. -/
theorem convertTimestamp_ticks {avRescaleQ : Int → AVRational → AVRational → Int}
    (nearest : RoundsToNearest avRescaleQ) {ticks : Int} (range : 0 ≤ ticks ∧ ticks < 8589934592) :
    100 * ticks - 4 ≤ 9 * convertTimestamp avRescaleQ ⟨1, 90000⟩ ticks ∧
      9 * convertTimestamp avRescaleQ ⟨1, 90000⟩ ticks ≤ 100 * ticks + 4 := by
  have stamped : ticks ≠ Audio.noPtsValue := by
    unfold Audio.noPtsValue
    omega
  have error := nearest ticks ⟨1, 90000⟩ ⟨1, 1000000⟩ ⟨by decide, by decide⟩ ⟨by decide, by decide⟩
    (by rw [abs_of_nonneg range.1]; omega) (by rw [abs_of_nonneg (by dsimp only; omega)]; dsimp only; omega)
  rw [convertTimestamp, if_pos stamped]
  generalize avRescaleQ ticks ⟨1, 90000⟩ ⟨1, 1000000⟩ = converted at *
  dsimp only at error
  rcases abs_cases (converted * (90000 * 1) - ticks * (1 * 1000000)) with ⟨value, _⟩ | ⟨value, _⟩ <;>
    rw [value] at error <;> omega

end Iptv.Demux
