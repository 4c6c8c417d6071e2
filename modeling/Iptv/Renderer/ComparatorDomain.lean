import Iptv.Renderer.PtsFrameBuffer
import Iptv.Decoder.FFmpegAudioDecoder

namespace Iptv.Renderer
open Iptv.Decoder

/-- The values of an `int64_t`. -/
def fitsInt64 (x : Int) : Bool := -9223372036854775808 ≤ x && x ≤ 9223372036854775807

/-- `PtsComparator` with its machine arithmetic; `none` when the subtraction or
`std::abs` leaves the type. -/
def ptsComparator64 (lhs rhs : QueueItem) : Option Bool :=
  let diff := lhs.frame.pts - rhs.frame.pts
  if fitsInt64 diff && fitsInt64 |diff| then some (ptsComparator lhs rhs) else none

/-- The comparator may be used on these items: it never overflows and orders
them strictly and weakly. -/
structure LegalFor (items : List QueueItem) : Prop where
  defined : ∀ a ∈ items, ∀ b ∈ items, ptsComparator64 a b = some (ptsComparator a b)
  weak : StrictWeakOn ptsComparator items
  asymm : ∀ a ∈ items, ∀ b ∈ items, ptsComparator a b = true → ptsComparator b a = false

/-- The time stamps are less than `2^63` apart, and none lies within the
threshold of two others that are further apart than it. -/
structure Comparable (items : List QueueItem) : Prop where
  close : ∀ a ∈ items, ∀ b ∈ items, |a.frame.pts - b.frame.pts| < 9223372036854775808
  near : ∀ a ∈ items, ∀ b ∈ items, ∀ c ∈ items, |a.frame.pts - b.frame.pts| ≤ kWrapThreshold →
    |b.frame.pts - c.frame.pts| ≤ kWrapThreshold → |a.frame.pts - c.frame.pts| ≤ kWrapThreshold

theorem ptsComparator64_defined (lhs rhs : QueueItem) :
    ptsComparator64 lhs rhs = some (ptsComparator lhs rhs) ↔
      |lhs.frame.pts - rhs.frame.pts| < 9223372036854775808 := by
  have bounds : (fitsInt64 (lhs.frame.pts - rhs.frame.pts) && fitsInt64 |lhs.frame.pts - rhs.frame.pts|) = true ↔
      |lhs.frame.pts - rhs.frame.pts| < 9223372036854775808 := by
    simp only [fitsInt64, Bool.and_eq_true, decide_eq_true_eq]
    rcases abs_cases (lhs.frame.pts - rhs.frame.pts) with ⟨same, _⟩ | ⟨same, _⟩ <;> rw [same] <;> omega
  unfold ptsComparator64
  dsimp only
  split
  · rename_i fits
    exact ⟨fun _ => bounds.mp fits, fun _ => rfl⟩
  · rename_i overflow
    exact ⟨fun none => (by cases none), fun inside => absurd (bounds.mpr inside) overflow⟩

/-- Two items that are not ordered carry the same time stamp and sequence number. -/
theorem ptsComparator_unordered {lhs rhs : QueueItem} (first : ptsComparator lhs rhs = false)
    (second : ptsComparator rhs lhs = false) : lhs.frame.pts = rhs.frame.pts ∧ lhs.seqNum = rhs.seqNum := by
  rw [← Bool.not_eq_true, ptsComparator_later, not_or] at first second
  have same := isLater_total (by simpa using first.1) (by simpa using second.1)
  refine ⟨same, ?_⟩
  have lower := fun less => first.2 ⟨same, less⟩
  have upper := fun less => second.2 ⟨same.symm, less⟩
  exact UInt64.le_antisymm (UInt64.not_lt.mp lower) (UInt64.not_lt.mp upper)

theorem ptsComparator_congr {a b : QueueItem} (pts : a.frame.pts = b.frame.pts) (seqNum : a.seqNum = b.seqNum)
    (c : QueueItem) : ptsComparator a c = ptsComparator b c ∧ ptsComparator c a = ptsComparator c b := by
  simp [ptsComparator, pts, seqNum]

theorem Comparable.trans {items : List QueueItem} (comparable : Comparable items) {a b c : QueueItem}
    (inA : a ∈ items) (inB : b ∈ items) (inC : c ∈ items) (first : ptsComparator a b = true)
    (second : ptsComparator b c = true) : ptsComparator a c = true := by
  rw [ptsComparator_later] at first second ⊢
  rcases first with later | ⟨same, less⟩
  · rcases second with last | ⟨same, _⟩
    · exact Or.inl (isLater_trans (comparable.near b inB a inA c inC) (comparable.near a inA b inB c inC)
        (comparable.near a inA c inC b inB) later last)
    · exact Or.inl (same ▸ later)
  · rcases second with last | ⟨also, further⟩
    · exact Or.inl (same ▸ last)
    · exact Or.inr ⟨same.trans also, UInt64.lt_trans further less⟩

theorem ptsComparator_irrefl (a : QueueItem) : ptsComparator a a = false := by
  simp [ptsComparator, kWrapThreshold]

theorem Comparable.strictWeak {items : List QueueItem} (comparable : Comparable items) :
    StrictWeakOn ptsComparator items where
  irrefl a _ := ptsComparator_irrefl a
  trans a inA b inB c inC := comparable.trans inA inB inC
  equiv a _ b _ c _ first second third fourth := by
    obtain ⟨pts, seqNum⟩ := ptsComparator_unordered first second
    obtain ⟨before, behind⟩ := ptsComparator_congr pts seqNum c
    exact ⟨before.trans third, behind.trans fourth⟩

/-- The comparator may be used on a list of items exactly when their time stamps are comparable. -/
theorem legalFor_iff (items : List QueueItem) : LegalFor items ↔ Comparable items := by
  constructor
  · intro legal
    refine ⟨fun a inA b inB => (ptsComparator64_defined a b).mp (legal.defined a inA b inB), ?_⟩
    intro a inA b inB c inC first second
    by_contra apart
    have less : ∀ {x y : QueueItem}, isLater kWrapThreshold x.frame.pts y.frame.pts = true →
        ptsComparator x y = true := fun later => (ptsComparator_later _ _).mpr (Or.inl later)
    rcases isLater_cycle first second (not_le.mp apart) with ⟨ab, bc, ca⟩ | ⟨cb, ba, ac⟩
    · have ahead := legal.weak.trans a inA b inB c inC (less ab) (less bc)
      have behind := legal.asymm a inA c inC ahead
      rw [less ca] at behind
      cases behind
    · have ahead := legal.weak.trans c inC b inB a inA (less cb) (less ba)
      have behind := legal.asymm c inC a inA ahead
      rw [less ac] at behind
      cases behind
  · intro comparable
    have weak := comparable.strictWeak
    exact ⟨fun a inA b inB => (ptsComparator64_defined a b).mpr (comparable.close a inA b inB), weak,
      fun a inA b inB => weak.asymm inA inB⟩

/-- One silent sample for each channel. -/
def silentFrame (pts : Int) : DecodedFrame := .ofAudio { pts := pts } Audio.stereo48kHz [0, 0, 0, 0]

/-- What the audio decoder takes from the resampler at the end of a stream cannot
be compared with a frame at time zero, and three frames at a distance of 40000
seconds from one to the next form a cycle. -/
theorem not_legalFor_flushedFrame :
    Audio.flushRemainder true ⟨1, 4, 1, 4, [0, 0, 0, 0]⟩ = .ok [silentFrame Audio.noPtsValue] ∧
      ¬ LegalFor [⟨silentFrame Audio.noPtsValue, 0⟩, ⟨silentFrame 0, 1⟩] ∧
      ¬ LegalFor [⟨silentFrame 0, 0⟩, ⟨silentFrame 40000000000, 1⟩, ⟨silentFrame 80000000000, 2⟩] := by
  refine ⟨by decide, fun legal => ?_, fun legal => ?_⟩
  · have defined := legal.defined ⟨silentFrame Audio.noPtsValue, 0⟩ (by simp) ⟨silentFrame 0, 1⟩ (by simp)
    revert defined
    decide
  · have cycle := legal.weak.trans ⟨silentFrame 80000000000, 2⟩ (by simp) ⟨silentFrame 40000000000, 1⟩ (by simp)
      ⟨silentFrame 0, 0⟩ (by simp) (by decide) (by decide)
    revert cycle
    decide

end Iptv.Renderer
