import Iptv.Decoder.FFmpegDecoder

namespace Iptv.Decoder

/-- A picture that the extractor accepts. -/
def ReceiveResult.isGood : ReceiveResult → Bool
  | .frame picture _ => (requireExtractable picture).isOk
  | .error _ => false

/-- A result that ends the drain with an exception. -/
def ReceiveResult.raises : ReceiveResult → Bool
  | .frame picture _ => !(requireExtractable picture).isOk
  | .error (.other _) => true
  | .error _ => false

/-- The frames of all the good results of a sequence, in order, stamped from `nextPtsMs` on. -/
def goodFrames (avutil : AvUtil) : List ReceiveResult → Int → List DecodedFrame
  | [], _ => []
  | .frame frame rate :: rest, nextPtsMs =>
    match packReadyFrame avutil frame rate nextPtsMs with
    | .error _ => goodFrames avutil rest nextPtsMs
    | .ok (packed, later) => packed :: goodFrames avutil rest later
  | .error _ :: rest, nextPtsMs => goodFrames avutil rest nextPtsMs

/-- No good result comes behind the first one that is not good; where that one
raises, there is none in front of it either. -/
def DrainsCleanly (results : List ReceiveResult) : Prop :=
  (∀ result ∈ results.dropWhile (·.isGood), result.isGood = false) ∧
    ∀ result, (results.dropWhile (·.isGood)).head? = some result → result.raises = true →
      results.takeWhile (·.isGood) = []

/-- What a row of `flush` calls returns in total; a call that throws returns nothing. -/
def flushes (avutil : AvUtil) : List SendReply → FFmpegDecoder → List DecodedFrame
  | [], _ => []
  | reply :: replies, decoder =>
    let (outcome, decoder') := decoder.flush avutil reply
    outcome.toOption.getD [] ++ flushes avutil replies decoder'

variable (avutil : AvUtil)

theorem packReadyFrame_good {picture : AVFrame} {rate : AVRational} (nextPtsMs : Int)
    (good : (ReceiveResult.frame picture rate).isGood = true) :
    ∃ packed later, packReadyFrame avutil picture rate nextPtsMs = .ok (packed, later) := by
  unfold ReceiveResult.isGood at good
  unfold packReadyFrame extractDecodedFrame
  cases checked : requireExtractable picture with
  | error _ => simp [checked, Except.isOk, Except.toBool] at good
  | ok _ => exact ⟨_, _, rfl⟩

theorem packReadyFrame_bad {picture : AVFrame} {rate : AVRational} (nextPtsMs : Int)
    (bad : (ReceiveResult.frame picture rate).isGood = false) :
    ∃ exception, packReadyFrame avutil picture rate nextPtsMs = .error exception := by
  unfold ReceiveResult.isGood at bad
  unfold packReadyFrame extractDecodedFrame
  cases checked : requireExtractable picture with
  | error exception => exact ⟨exception, rfl⟩
  | ok _ => simp [checked, Except.isOk, Except.toBool] at bad

theorem goodFrames_length (results : List ReceiveResult) (nextPtsMs : Int) :
    (goodFrames avutil results nextPtsMs).length = results.countP (·.isGood) := by
  induction results generalizing nextPtsMs with
  | nil => rfl
  | cons result rest ih =>
    cases result with
    | error status => simpa [goodFrames, ReceiveResult.isGood] using ih nextPtsMs
    | frame picture rate =>
      cases good : (ReceiveResult.frame picture rate).isGood with
      | true =>
        obtain ⟨packed, later, run⟩ := packReadyFrame_good avutil nextPtsMs good
        simp [goodFrames, run, good, ih later]
      | false =>
        obtain ⟨exception, run⟩ := packReadyFrame_bad avutil nextPtsMs good
        simp [goodFrames, run, good, ih nextPtsMs]

theorem goodFrames_append (first second : List ReceiveResult) (nextPtsMs : Int) :
    ∃ later, goodFrames avutil (first ++ second) nextPtsMs =
      goodFrames avutil first nextPtsMs ++ goodFrames avutil second later := by
  induction first generalizing nextPtsMs with
  | nil => exact ⟨nextPtsMs, rfl⟩
  | cons result rest ih =>
    cases result with
    | error status => exact ih nextPtsMs
    | frame picture rate =>
      cases good : (ReceiveResult.frame picture rate).isGood with
      | true =>
        obtain ⟨packed, between, run⟩ := packReadyFrame_good avutil nextPtsMs good
        obtain ⟨later, tail⟩ := ih between
        exact ⟨later, by simp [goodFrames, run, tail]⟩
      | false =>
        obtain ⟨exception, run⟩ := packReadyFrame_bad avutil nextPtsMs good
        obtain ⟨later, tail⟩ := ih nextPtsMs
        exact ⟨later, by simp [goodFrames, run, tail]⟩

/-- A drain passes the good results in front of the first other one. -/
theorem releaseReadyFrames_passes (results : List ReceiveResult) (nextPtsMs : Int)
    (frames : List DecodedFrame) :
    ∃ later, releaseReadyFrames avutil results nextPtsMs frames =
      releaseReadyFrames avutil (results.dropWhile (·.isGood)) later
        (frames ++ goodFrames avutil (results.takeWhile (·.isGood)) nextPtsMs) := by
  induction results generalizing nextPtsMs frames with
  | nil => exact ⟨nextPtsMs, by simp [goodFrames]⟩
  | cons result rest ih =>
    cases good : result.isGood with
    | true =>
      cases result with
      | error status => simp [ReceiveResult.isGood] at good
      | frame picture rate =>
        obtain ⟨packed, between, run⟩ := packReadyFrame_good avutil nextPtsMs good
        obtain ⟨later, tail⟩ := ih between (frames ++ [packed])
        exact ⟨later, by simp [releaseReadyFrames, goodFrames, run, good, tail]⟩
    | false => exact ⟨nextPtsMs, by simp [good, goodFrames]⟩

/-- It ends at a result that is not good, and an exception there loses the frames that were collected. -/
theorem releaseReadyFrames_stops {result : ReceiveResult} (bad : result.isGood = false)
    (rest : List ReceiveResult) (nextPtsMs : Int) (frames : List DecodedFrame) :
    (result.raises = false → (releaseReadyFrames avutil (result :: rest) nextPtsMs frames).outcome = .ok frames) ∧
      (result.raises = true →
        ∃ failure, (releaseReadyFrames avutil (result :: rest) nextPtsMs frames).outcome = .error failure) := by
  cases result with
  | frame picture rate =>
    obtain ⟨exception, run⟩ := packReadyFrame_bad avutil nextPtsMs bad
    have raised : (ReceiveResult.frame picture rate).raises = true := by
      simpa [ReceiveResult.raises, ReceiveResult.isGood] using bad
    simp [releaseReadyFrames, run, raised]
  | error status => cases status <;> simp [releaseReadyFrames, ReceiveResult.raises]

theorem first_not_good {results rest : List ReceiveResult} {result : ReceiveResult}
    (behind : results.dropWhile (·.isGood) = result :: rest) : result.isGood = false := by
  have stop := List.head?_dropWhile_not (·.isGood) results
  simpa [behind] using stop

/-- A drain ends with an exception when the first result that is not good raises
one, and otherwise with the frames up to that result. -/
theorem releaseReadyFrames_ends (results : List ReceiveResult) (nextPtsMs : Int)
    (frames : List DecodedFrame) :
    (∃ result failure, (results.dropWhile (·.isGood)).head? = some result ∧ result.raises = true ∧
        (releaseReadyFrames avutil results nextPtsMs frames).outcome = .error failure) ∨
      ((∀ result, (results.dropWhile (·.isGood)).head? = some result → result.raises = false) ∧
        (releaseReadyFrames avutil results nextPtsMs frames).outcome =
          .ok (frames ++ goodFrames avutil (results.takeWhile (·.isGood)) nextPtsMs)) := by
  obtain ⟨later, passes⟩ := releaseReadyFrames_passes avutil results nextPtsMs frames
  rw [passes]
  cases behind : results.dropWhile (·.isGood) with
  | nil => exact Or.inr ⟨by simp, rfl⟩
  | cons result rest =>
    obtain ⟨calm, loud⟩ := releaseReadyFrames_stops avutil (first_not_good behind) rest later
      (frames ++ goodFrames avutil (results.takeWhile (·.isGood)) nextPtsMs)
    cases raises : result.raises with
    | true =>
      obtain ⟨failure, lost⟩ := loud raises
      exact Or.inl ⟨result, failure, rfl, raises, lost⟩
    | false => exact Or.inr ⟨by simpa using raises, calm raises⟩

/-- The calls behind the first flush return nothing. -/
theorem flushes_drained (replies : List SendReply) {impl : Impl} (drained : impl.endOfStream = true) :
    flushes avutil replies ⟨some impl⟩ = [] := by
  induction replies with
  | nil => rfl
  | cons reply replies ih =>
    have call : FFmpegDecoder.flush avutil ⟨some impl⟩ reply = (.ok [], ⟨some impl⟩) := by
      simp [FFmpegDecoder.flush, drainRemainingFrames, drained]
    rw [flushes, call]
    exact ih

variable {avutil}

theorem flushes_open {context : CodecContext} {nextPtsMs : Int} {reply : SendReply}
    (accepted : reply.refusal = none) (more : List SendReply) :
    flushes avutil (reply :: more) ⟨some ⟨some context, nextPtsMs, false⟩⟩ =
      (releaseReadyFrames avutil (context.results ++ reply.released) nextPtsMs []).outcome.toOption.getD [] := by
  have call : FFmpegDecoder.flush avutil ⟨some ⟨some context, nextPtsMs, false⟩⟩ reply =
      ((releaseReadyFrames avutil (context.results ++ reply.released) nextPtsMs []).outcome,
        ⟨some ⟨some ⟨(releaseReadyFrames avutil (context.results ++ reply.released) nextPtsMs []).rest⟩,
          (releaseReadyFrames avutil (context.results ++ reply.released) nextPtsMs []).nextPtsMs, true⟩⟩) := by
    simp [FFmpegDecoder.flush, drainRemainingFrames, accepted]
  rw [flushes, call]
  simp [flushes_drained]

/-- The frames of the first flush of an open decoder, together with those of any
further one, are all the good frames of the drain exactly when it is clean. -/
theorem flushes_complete_iff {context : CodecContext} {nextPtsMs : Int} {reply : SendReply}
    (accepted : reply.refusal = none) (more : List SendReply) :
    flushes avutil (reply :: more) ⟨some ⟨some context, nextPtsMs, false⟩⟩ =
        goodFrames avutil (context.results ++ reply.released) nextPtsMs ↔
      DrainsCleanly (context.results ++ reply.released) := by
  rw [flushes_open accepted]
  generalize context.results ++ reply.released = results
  have split := List.takeWhile_append_dropWhile (p := (·.isGood)) (l := results)
  obtain ⟨later, parts⟩ := goodFrames_append avutil (results.takeWhile (·.isGood))
    (results.dropWhile (·.isGood)) nextPtsMs
  rw [split] at parts
  have tail : goodFrames avutil (results.dropWhile (·.isGood)) later = [] ↔
      ∀ result ∈ results.dropWhile (·.isGood), result.isGood = false := by
    rw [← List.length_eq_zero_iff, goodFrames_length, List.countP_eq_zero]
    simp only [Bool.not_eq_true]
  have front : goodFrames avutil (results.takeWhile (·.isGood)) nextPtsMs = [] ↔
      results.takeWhile (·.isGood) = [] := by
    have all : (results.takeWhile (·.isGood)).countP (·.isGood) = (results.takeWhile (·.isGood)).length :=
      List.countP_eq_length.mpr (List.all_eq_true.mp (List.all_takeWhile (l := results)))
    rw [← List.length_eq_zero_iff, goodFrames_length, all, List.length_eq_zero_iff]
  rw [parts]
  rcases releaseReadyFrames_ends avutil results nextPtsMs [] with
    ⟨result, failure, first, raises, lost⟩ | ⟨quiet, returned⟩
  · have nothing : (releaseReadyFrames avutil results nextPtsMs []).outcome.toOption.getD [] = [] := by
      rw [lost]
      rfl
    rw [nothing, eq_comm, List.append_eq_nil_iff, front, tail, DrainsCleanly]
    constructor
    · rintro ⟨before, behind⟩
      exact ⟨behind, fun _ _ _ => before⟩
    · rintro ⟨behind, before⟩
      exact ⟨before result first raises, behind⟩
  · have kept : (releaseReadyFrames avutil results nextPtsMs []).outcome.toOption.getD [] =
        goodFrames avutil (results.takeWhile (·.isGood)) nextPtsMs := by
      rw [returned]
      rfl
    rw [kept, List.self_eq_append_right, tail, DrainsCleanly]
    constructor
    · intro behind
      refine ⟨behind, fun result first raises => ?_⟩
      simp [quiet result first] at raises
    · exact fun clean => clean.1

/-- A picture of two by two samples. -/
def smallPicture : AVFrame where
  format := .YUV420P
  width := 2
  height := 2
  data plane := some (16 * plane.val)
  linesize _ := 2
  memory address := UInt8.ofNat address.toNat

def openDecoder : FFmpegDecoder := ⟨some ⟨some ⟨[]⟩, 0, false⟩⟩

def twoPictures : SendReply := ⟨none, [.frame smallPicture ⟨25, 1⟩, .frame smallPicture ⟨25, 1⟩]⟩

theorem flushes_complete_twoPictures :
    (flushes .plain [twoPictures] openDecoder).map (fun frame => (frame.pts, frame.data)) =
        [(0, [0, 1, 2, 3, 16, 32]), (40, [0, 1, 2, 3, 16, 32])] ∧
      (flushes .plain [twoPictures] openDecoder = goodFrames .plain ([] ++ twoPictures.released) 0 ↔
        DrainsCleanly ([] ++ twoPictures.released)) :=
  ⟨by decide, flushes_complete_iff rfl []⟩

def corruptThenGood : SendReply := ⟨none, [.error .invalidData, .frame smallPicture ⟨25, 1⟩]⟩

/-- One undecodable frame loses the good one behind it for every number of flush calls. -/
theorem flushes_incomplete_corruptThenGood :
    ¬ ∃ more, flushes .plain (corruptThenGood :: more) openDecoder = goodFrames .plain corruptThenGood.released 0 := by
  rintro ⟨more, complete⟩
  rw [openDecoder, flushes_open rfl] at complete
  revert complete
  decide

end Iptv.Decoder
