import Iptv.Manifest.Playlist
import Iptv.Manifest.AttributeScanner

namespace Iptv.Manifest

structure SegmentBuilder (Double : Type) where
  active : Bool
  duration : Double
  discontinuity : Bool
  deriving DecidableEq

structure PendingVariant (Double : Type) where
  active : Bool
  variant : VariantStreamRef Double
  deriving DecidableEq

structure ParseContext (Double : Type) where
  playlist : Playlist Double
  segmentBuilder : SegmentBuilder Double
  variantBuilder : PendingVariant Double
  lineNum : UInt32
  deriving DecidableEq

variable {Double : Type} [Zero Double]

/-- `VariantStreamRef{}`. -/
def VariantStreamRef.empty : VariantStreamRef Double where
  uri := []
  codecs := []
  bandwidth := 0
  resolution := {}
  frameRate := 0

/-- The state in which `parseLines` enters its loop. -/
def ParseContext.initial : ParseContext Double where
  playlist := {}
  segmentBuilder := ⟨false, 0, false⟩
  variantBuilder := ⟨false, .empty⟩
  lineNum := 0

def resetSegmentBuilder (builder : SegmentBuilder Double) : SegmentBuilder Double :=
  { builder with active := false, discontinuity := false }

def resetVariantBuilder (builder : PendingVariant Double) : PendingVariant Double :=
  { builder with active := false, variant := .empty }

def uint32Bound : Nat := 2 ^ 32

def uint64Bound : Nat := 2 ^ 64

def parseBandwidth (val : Text) (builder : PendingVariant Double) : PendingVariant Double :=
  match fromChars uint32Bound val with
  | none => builder
  | some bandwidth =>
    { builder with variant := { builder.variant with bandwidth := UInt32.ofNat bandwidth } }

def parseResolution (val : Text) (builder : PendingVariant Double) : PendingVariant Double :=
  match find val (byte 'x') 0 with
  | none => builder
  | some xPos =>
    match fromChars uint32Bound (val.take xPos), fromChars uint32Bound (val.drop (xPos + 1)) with
    | some width, some height =>
      { builder with
        variant := { builder.variant with
          resolution := ⟨UInt32.ofNat width, UInt32.ofNat height⟩ } }
    | _, _ => builder

def parseFrameRate (lib : CxxStd Double) (val : Text) (builder : PendingVariant Double) :
    PendingVariant Double :=
  match lib.fromCharsDouble val with
  | none => builder
  | some fps => { builder with variant := { builder.variant with frameRate := fps } }

def applyAttribute (lib : CxxStd Double) (attr : AttributePair) (builder : PendingVariant Double) :
    PendingVariant Double :=
  if attr.key = text "BANDWIDTH" then parseBandwidth attr.value builder
  else if attr.key = text "RESOLUTION" then parseResolution attr.value builder
  else if attr.key = text "FRAME-RATE" then parseFrameRate lib attr.value builder
  else if attr.key = text "CODECS" then
    { builder with variant := { builder.variant with codecs := attr.value } }
  else builder

/-- The loop of `applyStreamInfAttributes`; a pair consumes part of the list, so
its length bounds the turns. -/
def applyAttributesLoop (lib : CxxStd Double) :
    Nat → AttributeScanner → PendingVariant Double → PendingVariant Double
  | 0, _, builder => builder
  | turns + 1, scanner, builder =>
    match scanner.next with
    | (none, _) => builder
    | (some attr, scanner') => applyAttributesLoop lib turns scanner' (applyAttribute lib attr builder)

def applyStreamInfAttributes (lib : CxxStd Double) (attrs : Text) (builder : PendingVariant Double) :
    PendingVariant Double :=
  applyAttributesLoop lib attrs.length { attrs } builder

/-- A handler's diagnostic ends the parse, so what it did to the context before is lost. -/
abbrev TagHandler (Double : Type) := Text → ParseContext Double → Except ParseError (ParseContext Double)

def parseExtInf (lib : CxxStd Double) (line : Text) (lineNum : UInt32) (builder : SegmentBuilder Double) :
    Except ParseError (SegmentBuilder Double) :=
  let rest := line.drop 8
  let valStr := match find rest comma 0 with
    | none => rest
    | some commaPos => rest.take commaPos
  match lib.fromCharsDouble valStr with
  | none => .error ⟨.invalidFormat, lineNum, "Malformed #EXTINF duration"⟩
  | some durSec => .ok { builder with duration := durSec, active := true }

def handleExtInf (lib : CxxStd Double) : TagHandler Double := fun line ctx =>
  (parseExtInf lib line ctx.lineNum ctx.segmentBuilder).map fun builder =>
    { ctx with segmentBuilder := builder }

def handleStreamInf (lib : CxxStd Double) : TagHandler Double := fun line ctx =>
  .ok { ctx with
    variantBuilder := applyStreamInfAttributes lib (line.drop 18)
      { ctx.variantBuilder with active := true } }

def handleTargetDuration : TagHandler Double := fun line ctx =>
  match fromChars uint32Bound (line.drop 22) with
  | none => .ok ctx
  | some sec => .ok { ctx with playlist := { ctx.playlist with targetDuration := sec } }

def handleMediaSequence : TagHandler Double := fun line ctx =>
  match fromChars uint64Bound (line.drop 22) with
  | none => .ok ctx
  | some seq => .ok { ctx with playlist := { ctx.playlist with mediaSequence := UInt64.ofNat seq } }

def handleEndList : TagHandler Double := fun _ ctx =>
  .ok { ctx with playlist := { ctx.playlist with hasEndlist := true, type := .mediaVOD } }

def handleDiscontinuity : TagHandler Double := fun _ ctx =>
  .ok { ctx with segmentBuilder := { ctx.segmentBuilder with discontinuity := true } }

/-- `k_tag_dispatch_table`. -/
def tagDispatchTable (lib : CxxStd Double) : List (Text × TagHandler Double) :=
  [(text "#EXTINF:", handleExtInf lib),
    (text "#EXT-X-TARGETDURATION:", handleTargetDuration),
    (text "#EXT-X-MEDIA-SEQUENCE:", handleMediaSequence),
    (text "#EXT-X-ENDLIST", handleEndList),
    (text "#EXT-X-DISCONTINUITY", handleDiscontinuity),
    (text "#EXT-X-STREAM-INF:", handleStreamInf lib)]

def dispatchTag (lib : CxxStd Double) : TagHandler Double := fun line ctx =>
  match (tagDispatchTable lib).find? fun entry => startsWith line entry.1 with
  | none => .ok ctx
  | some entry => entry.2 line ctx

end Iptv.Manifest
