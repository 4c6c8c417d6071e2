import Iptv.Decoder.VideoTimeline
import Iptv.Main.ProgramRuns

namespace Iptv.Main
open Iptv.Manifest Iptv.Network Iptv.Player
open Iptv.Decoder (DecodedFrame DetectingImpl Marches VideoCall)
open Iptv.Demux (DemuxedPacket TsDemuxer.demux)
variable {Double : Type} {avutil : Decoder.AvUtil}

/-- The video frames of a call of `decode` follow on the decoder's time. -/
theorem decodeVideo_marches {reply : BundleReply} {decoder decoder' : DetectingImpl} {pkt : DemuxedPacket} {i : Nat}
    {frames : List DecodedFrame} (called : decodeVideo avutil reply decoder pkt i = (.ok frames, decoder')) :
    Marches decoder.nextPtsMs frames decoder'.nextPtsMs := by
  obtain ⟨extracted, step, returned⟩ :=
    Decoder.timelineStep_call avutil decoder (.decode pkt.data pkt.pts pkt.dts (reply.videoReply i))
  have run : (VideoCall.decode pkt.data pkt.pts pkt.dts (reply.videoReply i)).run avutil decoder =
      (.ok frames, decoder') := called
  rw [run] at step returned
  rw [returned frames rfl]
  exact Decoder.timelineStep_marches step

theorem decodeStream_marches {reply : BundleReply} {streamIdx : Int} {packets : List (DemuxedPacket × Nat)}
    {decoder : DetectingImpl} {interval : Option Int} {decoding : Decoding DetectingImpl}
    (run : decodeStream (decodeVideo avutil reply) streamIdx packets decoder interval = .ok decoding) :
    Marches decoder.nextPtsMs decoding.returned.flatten decoding.decoder.nextPtsMs := by
  induction packets generalizing decoder interval decoding with
  | nil =>
    cases run
    rfl
  | cons entry rest ih =>
    obtain ⟨pkt, i⟩ := entry
    simp only [decodeStream] at run
    split at run
    · obtain ⟨outcome, decoder', called⟩ :
          ∃ outcome decoder', decodeVideo avutil reply decoder pkt i = (outcome, decoder') := ⟨_, _, rfl⟩
      rw [called] at run
      cases outcome with
      | error exception => cases run
      | ok frames =>
        dsimp only at run
        cases tail : decodeStream (decodeVideo avutil reply) streamIdx rest decoder'
            (addInt interval (toInt frames.length)) with
        | error exception =>
          rw [tail] at run
          cases run
        | ok later =>
          have behind := ih tail
          rw [tail] at run
          cases run
          exact (decodeVideo_marches called).append behind
    · exact ih run

/-- The video decoder takes its time over from one bundle to the next. -/
theorem processBundle_marches {c c' : Consumer} {reply : BundleReply} {it : Iteration}
    (run : c.processBundle avutil reply = some (c', it)) :
    Marches c.videoDecoder.nextPtsMs it.video.flatten c'.videoDecoder.nextPtsMs := by
  unfold Consumer.processBundle at run
  split at run
  · cases run
  · rename_i packets indices demuxed
    cases videoRun : decodeStream (decodeVideo avutil reply) (indices.video.getD (-1)) packets.zipIdx c.videoDecoder
        c.framesLastInterval with
    | error exception => simp [videoRun] at run
    | ok video =>
      cases audioRun : decodeStream (decodeAudio reply) (indices.audio.getD (-1)) packets.zipIdx c.audioDecoder
          video.framesLastInterval with
      | error exception => simp [videoRun, audioRun] at run
      | ok audio =>
        simp only [videoRun, audioRun, Option.some.injEq, Consumer.updateMetrics] at run
        have marches := decodeStream_marches videoRun
        split at run <;> cases run <;> exact marches

/-- The video frames of the bundles, in their order. -/
def videoFrames (its : List Iteration) : List DecodedFrame := its.flatMap (·.video.flatten)

theorem consumerStep_marches {c c' : Consumer} {event : ConsumerEvent} {its : List Iteration}
    (run : consumerStep avutil c event = some (c', its)) :
    Marches c.videoDecoder.nextPtsMs (videoFrames its) c'.videoDecoder.nextPtsMs := by
  unfold consumerStep at run
  split at run
  · cases run
  · cases event with
    | stopRequested | noBundle =>
      cases run
      rfl
    | bundle reply =>
      obtain ⟨⟨_, it⟩, processed, same⟩ := Option.map_eq_some_iff.mp run
      cases same
      simpa [videoFrames] using processBundle_marches processed

/-- Each frame follows on the end of the one before, from time zero. -/
def OneTimeline (frames : List DecodedFrame) : Prop :=
  (∀ frame, frames.head? = some frame → frame.pts = 0) ∧
    frames.IsChain (fun frame next => next.pts = frame.pts + max frame.duration 1) ∧
    frames.Pairwise fun frame next => frame.pts < next.pts

theorem start_video {video audio : Decoder.ConstructionReply} {now : Int} {c : Consumer}
    (constructed : Consumer.start video audio now = .ok c) : c.videoDecoder.nextPtsMs = 0 := by
  unfold Consumer.start at constructed
  cases videoRun : Decoder.construct "" video with
  | error exception => simp [videoRun, Except.bind] at constructed
  | ok videoDecoder =>
    cases audioRun : Decoder.Audio.construct "aac" audio with
    | error exception => simp [videoRun, audioRun, Except.bind, Except.map] at constructed
    | ok audioDecoder =>
      simp only [videoRun, audioRun, Except.bind, Except.map, Except.ok.injEq] at constructed
      rw [← constructed]
      exact (Decoder.construct_ok videoRun).2.1

/-- Over every run of the loop, whichever streams the bundles come from, the video frames
of all bundles lie on one timeline. -/
theorem oneTimeline_of_run {video audio : Decoder.ConstructionReply} {now : Int} {start c : Consumer}
    {its : List Iteration} (constructed : Consumer.start video audio now = .ok start)
    (run : Reach (consumerStep avutil) anyStep start its c) : OneTimeline (videoFrames its) := by
  have marches : Marches 0 (videoFrames its) c.videoDecoder.nextPtsMs := by
    refine run.traced (fun past s => Marches 0 (videoFrames past) s.videoDecoder.nextPtsMs)
      (start_video constructed).symm ?_
    intro past s s' e new old _ step
    unfold videoFrames
    rw [List.flatMap_append]
    exact old.append (consumerStep_marches step)
  exact ⟨marches.head, marches.isChain, marches.increasing⟩

/-- A bundle with one packet that the decoder makes one picture of. -/
def videoBundle : BundleReply :=
  { emptyBundle with
    opening := .opened ⟨[⟨.video, ⟨1, 1000⟩⟩], [⟨0, [0, 0, 1], 0, 0⟩]⟩
    videoReply := fun _ =>
      ⟨true, some "h264", ⟨true, true, true⟩, true, fun _ => ⟨none, [.frame Decoder.smallPicture ⟨25, 1⟩]⟩⟩ }

/-- The consumer pops the second bundle without a wait. -/
def twoVideoBundles : List Action :=
  firstBundle ++ [.process videoBundle] ++ secondDownload.map (.worker · none) ++
    [.consumer, .consumer, .consumer, .consumer, .consumer, .consumer, .process videoBundle]

end Iptv.Main
