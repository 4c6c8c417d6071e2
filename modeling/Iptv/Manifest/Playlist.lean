import Mathlib.Data.List.Sort
import Mathlib.Algebra.Order.Ring.Rat
import Iptv.Lib.Text

namespace Iptv.Manifest

inductive PlaylistType
  | master
  | mediaVOD
  | mediaLive
  deriving DecidableEq

structure Resolution where
  width : UInt32 := 0
  height : UInt32 := 0
  deriving DecidableEq

/-- Views into the manifest text are modelled by the text they cover. `Double` is
the type of the floating-point fields, which the parser only stores. -/
structure MediaSegmentRef (Double : Type) where
  uri : Text
  duration : Double
  sequenceIndex : UInt64
  isDiscontinuity : Bool
  deriving DecidableEq

structure VariantStreamRef (Double : Type) where
  uri : Text
  codecs : Text
  bandwidth : UInt32
  resolution : Resolution
  frameRate : Double
  deriving DecidableEq

structure Playlist (Double : Type) where
  type : PlaylistType := .mediaVOD
  targetDuration : Nat := 0
  mediaSequence : UInt64 := 0
  hasEndlist : Bool := false
  segments : List (MediaSegmentRef Double) := []
  variants : List (VariantStreamRef Double) := []
  deriving DecidableEq

inductive ParseErrorCode
  | none
  | emptyContent
  | invalidHeader
  | invalidFormat
  | unsupportedVersion
  | missingMandatoryTags
  | invalidUri
  deriving DecidableEq

structure ParseError where
  code : ParseErrorCode
  lineNumber : UInt32
  message : String
  deriving DecidableEq

abbrev ParseResult (Double : Type) := Except ParseError (Playlist Double)

/-- What the program takes from its platform besides integers: `from_chars` for
doubles, a `std::sort` by ascending bandwidth, which is free in the order of equal
keys, and the rounding of a result to a double, on the values of doubles. -/
structure CxxStd (Double : Type) where
  fromCharsDouble : Text → Option Double
  sort : List (VariantStreamRef Double) → List (VariantStreamRef Double)
  round : Rat → Rat
  sort_perm : ∀ variants, (sort variants).Perm variants
  sort_ascending : ∀ variants, (sort variants).Pairwise fun a b => a.bandwidth ≤ b.bandwidth

/-- `from_chars` on the unsigned fixed notation: digits with an optional fraction. -/
def fixedNotation (t : Text) : Option Rat :=
  let whole := t.takeWhile isDigit
  if whole = [] then none
  else match t.drop whole.length with
    | [] => some (digitsValue whole : Rat)
    | c :: rest =>
      let fraction := rest.takeWhile isDigit
      if c = byte '.' then
        some ((digitsValue whole : Rat) + (digitsValue fraction : Rat) / (10 ^ fraction.length : Nat))
      else some (digitsValue whole : Rat)

/-- An executable instance: exact durations in the fixed notation, exact arithmetic and a stable sort. -/
def CxxStd.plain : CxxStd Rat where
  fromCharsDouble := fixedNotation
  sort variants := variants.insertionSort fun a b => a.bandwidth ≤ b.bandwidth
  round := id
  sort_perm variants := List.perm_insertionSort _ variants
  sort_ascending variants :=
    haveI : Std.Total fun a b : VariantStreamRef Rat => a.bandwidth ≤ b.bandwidth :=
      ⟨fun a b => UInt32.le_total a.bandwidth b.bandwidth⟩
    haveI : IsTrans (VariantStreamRef Rat) fun a b => a.bandwidth ≤ b.bandwidth :=
      ⟨fun _ _ _ => UInt32.le_trans⟩
    List.pairwise_insertionSort _ variants

end Iptv.Manifest
