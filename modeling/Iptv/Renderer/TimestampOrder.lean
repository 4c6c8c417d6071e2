import Iptv.Demux.TsDemuxer
import Iptv.Renderer.ComparatorDomain

namespace Iptv.Renderer
open Iptv.Decoder Iptv.Demux

/-- A packet whose time stamp counts the 90 kHz ticks of a transport stream, in 33 bits. -/
structure Clocked (container : Container) (pkt : AVPacket container.streams.length) : Prop where
  timeBase : (container.streams.get pkt.streamIndex).timeBase = ⟨1, 90000⟩
  range : 0 ≤ pkt.pts ∧ pkt.pts < 8589934592

/-- On the clock of 33 bits, the first time stamp is less than half a turn ahead of the second one. -/
def Precedes (a b : Int) : Prop := 0 < (b - a) % 8589934592 ∧ (b - a) % 8589934592 < 4294967296

theorem demuxPacket_pts {avRescaleQ : Int → AVRational → AVRational → Int} (nearest : RoundsToNearest avRescaleQ)
    {container : Container} {pkt : AVPacket container.streams.length} (clocked : Clocked container pkt) :
    100 * pkt.pts - 4 ≤ 9 * (demuxPacket avRescaleQ container pkt).pts ∧
      9 * (demuxPacket avRescaleQ container pkt).pts ≤ 100 * pkt.pts + 4 := by
  rw [demuxPacket]
  dsimp only
  rw [clocked.timeBase]
  exact convertTimestamp_ticks nearest clocked.range

/-- A time that is off by less than half a microsecond stays on its side of the
threshold, in front of the wrap and across it. -/
theorem isLater_converted {a b earlier later : Int} (rangeA : 0 ≤ a ∧ a < 8589934592)
    (rangeB : 0 ≤ b ∧ b < 8589934592) (precedes : Precedes a b)
    (convertedA : 100 * a - 4 ≤ 9 * earlier ∧ 9 * earlier ≤ 100 * a + 4)
    (convertedB : 100 * b - 4 ≤ 9 * later ∧ 9 * later ≤ 100 * b + 4) :
    isLater kWrapThreshold later earlier = true ∧ isLater kWrapThreshold earlier later = false := by
  obtain ⟨ahead, half⟩ := precedes
  unfold isLater kWrapThreshold
  rw [abs_sub_comm earlier later]
  by_cases wrapped : b < a
  · have turn : (b - a) % 8589934592 = b - a + 8589934592 := by omega
    rw [turn] at ahead half
    have apart : 47721858844 < |later - earlier| := lt_abs.mpr (Or.inr (by omega))
    rw [if_pos apart, if_pos apart, decide_eq_true_eq, decide_eq_false_iff_not]
    omega
  · have straight : (b - a) % 8589934592 = b - a := by omega
    rw [straight] at ahead half
    have near : ¬ 47721858844 < |later - earlier| := by
      rw [not_lt, abs_le]
      omega
    rw [if_neg near, if_neg near, decide_eq_true_eq, decide_eq_false_iff_not]
    omega

/-- The comparator puts the frame of the earlier time stamp first, with no
overflow, wherever the wrap lies and however the conversion rounds. -/
theorem ptsComparator_realises {avRescaleQ : Int → AVRational → AVRational → Int}
    (nearest : RoundsToNearest avRescaleQ) {container : Container} {a b : AVPacket container.streams.length}
    (clockedA : Clocked container a) (clockedB : Clocked container b) (precedes : Precedes a.pts b.pts)
    {first second : QueueItem} (ptsA : first.frame.pts = (demuxPacket avRescaleQ container a).pts)
    (ptsB : second.frame.pts = (demuxPacket avRescaleQ container b).pts) :
    ptsComparator64 first second = some false ∧ ptsComparator64 second first = some true := by
  have convertedA := demuxPacket_pts nearest clockedA
  have convertedB := demuxPacket_pts nearest clockedB
  obtain ⟨lowA, highA⟩ := clockedA.range
  obtain ⟨lowB, highB⟩ := clockedB.range
  rw [← ptsA] at convertedA
  rw [← ptsB] at convertedB
  obtain ⟨later, notLater⟩ := isLater_converted clockedA.range clockedB.range precedes convertedA convertedB
  have different : first.frame.pts ≠ second.frame.pts := by
    intro same
    rw [same] at later notLater
    rw [later] at notLater
    cases notLater
  have ordered : ptsComparator first second = false := by
    rw [← Bool.not_eq_true, ptsComparator_later]
    simp [notLater, different]
  have turned : ptsComparator second first = true := (ptsComparator_later _ _).mpr (Or.inl later)
  have close : |first.frame.pts - second.frame.pts| < 9223372036854775808 := by
    rw [abs_lt]
    omega
  have fits := (ptsComparator64_defined first second).mpr close
  have fits' := (ptsComparator64_defined second first).mpr (by rwa [abs_sub_comm])
  rw [fits, fits', ordered, turned]
  exact ⟨rfl, rfl⟩

/-- Two packets of one stream on both sides of the wrap, as far apart as can be. -/
def wrappingContainer : Container where
  streams := [⟨.video, ⟨1, 90000⟩⟩]
  packets := [⟨0, [1], 8589934591, 8589934591⟩, ⟨0, [2], 4294967294, 4294967294⟩]

theorem ptsComparator_realises_wrapping :
    ptsComparator64 ⟨silentFrame 95443717678, 1⟩ ⟨silentFrame 47721858822, 0⟩ = some false ∧
      ptsComparator64 ⟨silentFrame 47721858822, 0⟩ ⟨silentFrame 95443717678, 1⟩ = some true :=
  @ptsComparator_realises _ rescaleNearInf_nearest wrappingContainer ⟨⟨0, by decide⟩, [1], 8589934591, 8589934591⟩
    ⟨⟨0, by decide⟩, [2], 4294967294, 4294967294⟩ ⟨rfl, by decide, by decide⟩ ⟨rfl, by decide, by decide⟩
    ⟨by decide, by decide⟩ _ _ (by decide) (by decide)

end Iptv.Renderer
