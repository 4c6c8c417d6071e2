import Mathlib.Algebra.Order.Ring.Int
import Mathlib.Algebra.Order.Group.Abs
import Mathlib.Algebra.Order.Field.Rat

namespace Iptv.Decoder

/-- The error codes that the decoders tell apart. -/
inductive AVError
  | invalidData
  | again
  | endOfFile
  | other (status : Int)
  deriving DecidableEq

structure AVRational where
  num : Int
  den : Int

/-- What the decoders and the demuxer use of libavutil; `avQ2d` answers with the value of a double. -/
structure AvUtil where
  avStrerror : AVError → String
  avRescaleQ : Int → AVRational → AVRational → Int
  avQ2d : AVRational → Rat

/-- A time base: a fraction of two positive values of type `int`. -/
structure IsTimeBase (base : AVRational) : Prop where
  num : 0 < base.num ∧ base.num ≤ 2147483647
  den : 0 < base.den ∧ base.den ≤ 2147483647

/-- `av_rescale_q` answers with a nearest value, whenever there is one in 64 bits. -/
def RoundsToNearest (avRescaleQ : Int → AVRational → AVRational → Int) : Prop :=
  ∀ (value : Int) (source target : AVRational), IsTimeBase source → IsTimeBase target →
    |value| ≤ 9223372036854775807 →
    |value * (source.num * target.den)| ≤ 9223372036854775807 * (source.den * target.num) →
    2 * |avRescaleQ value source target * (source.den * target.num) - value * (source.num * target.den)| ≤
      source.den * target.num

/-- The nearest value, where halves are rounded away from zero. -/
def rescaleNearInf (value : Int) (source target : AVRational) : Int :=
  let scaled := value * (source.num * target.den)
  let unit := source.den * target.num
  if scaled < 0 then -((2 * -scaled + unit) / (2 * unit)) else (2 * scaled + unit) / (2 * unit)

theorem nearest_div (scaled : Int) {unit : Int} (positive : 0 < unit) :
    2 * |(2 * scaled + unit) / (2 * unit) * unit - scaled| ≤ unit := by
  have split := Int.mul_ediv_add_emod (2 * scaled + unit) (2 * unit)
  have low := Int.emod_nonneg (2 * scaled + unit) (by omega : 2 * unit ≠ 0)
  have high := Int.emod_lt_of_pos (2 * scaled + unit) (by omega : 0 < 2 * unit)
  have same : 2 * unit * ((2 * scaled + unit) / (2 * unit)) = 2 * ((2 * scaled + unit) / (2 * unit) * unit) := by
    rw [mul_assoc, mul_comm unit]
  rw [same] at split
  rcases abs_cases ((2 * scaled + unit) / (2 * unit) * unit - scaled) with ⟨value, _⟩ | ⟨value, _⟩ <;>
    rw [value] <;> omega

theorem rescaleNearInf_nearest : RoundsToNearest rescaleNearInf := by
  intro value source target sourceBase targetBase _ _
  have positive : 0 < source.den * target.num := mul_pos sourceBase.den.1 targetBase.num.1
  unfold rescaleNearInf
  generalize value * (source.num * target.den) = scaled
  dsimp only
  split
  · have mirrored := nearest_div (-scaled) positive
    generalize (2 * -scaled + source.den * target.num) / (2 * (source.den * target.num)) = rounded at *
    have same : -rounded * (source.den * target.num) - scaled = -(rounded * (source.den * target.num) - -scaled) := by
      rw [neg_mul]
      omega
    rwa [same, abs_neg]
  · exact nearest_div scaled positive

/-- The texts of libavutil and its rounding of halves away from zero, with exact quotients. -/
def AvUtil.plain : AvUtil where
  avStrerror
    | .invalidData => "Invalid data found when processing input"
    | .again => "Resource temporarily unavailable"
    | .endOfFile => "End of file"
    | .other status => "Error number " ++ toString status ++ " occurred"
  avRescaleQ := rescaleNearInf
  avQ2d a := a.num / a.den

end Iptv.Decoder
