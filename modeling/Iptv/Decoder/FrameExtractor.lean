import Iptv.Decoder.DecodedFrame

namespace Iptv.Decoder

/-- A pixel format that is not 4:2:0 carries the name FFmpeg has for it, if any. -/
inductive AVPixelFormat
  | YUV420P
  | YUVJ420P
  | other (name : Option String)
  deriving DecidableEq

/-- What the extractor reads of an `AVFrame`: the first row of each plane is an
address into `memory`, or null, and strides are signed. -/
structure AVFrame where
  format : AVPixelFormat
  width : Int
  height : Int
  data : Fin 3 → Option Int
  linesize : Fin 3 → Int
  memory : Int → UInt8

structure PlaneCopy where
  source : Option Int
  linesize : Int
  rows : Nat
  widthBytes : Nat

/-- Only called for planes that passed `requireReadablePlanes`. -/
def copyPlane (memory : Int → UInt8) (copy : PlaneCopy) : List UInt8 :=
  match copy.source with
  | none => []
  | some source =>
    (List.range copy.rows).flatMap fun index =>
      (List.range copy.widthBytes).map fun column => memory (source + index * copy.linesize + column)

def requireReadablePlanes : List PlaneCopy → Except DecoderException Unit
  | [] => .ok ()
  | plane :: planes =>
    if plane.source = none then
      .error ⟨.corruptData, "Decoder produced a frame with one of its YUV420P planes missing."⟩
    else if plane.linesize.natAbs < plane.widthBytes then
      .error ⟨.corruptData, "Decoder produced a plane whose stride of " ++ toString plane.linesize ++
        " byte(s) cannot hold a row of " ++ toString plane.widthBytes ++ " byte(s)."⟩
    else requireReadablePlanes planes

def requireYuv420p (frame : AVFrame) : Except DecoderException Unit :=
  match frame.format with
  | .YUV420P | .YUVJ420P => .ok ()
  | .other name => .error ⟨.invalidFormat, "Decoder produced pixel format '" ++ name.getD "unknown" ++
      "', but only 8-bit 4:2:0 YUV can be handed to the render path."⟩

def framePlanes (frame : AVFrame) : List PlaneCopy :=
  let pictureWidth := frame.width.toNat
  let pictureHeight := frame.height.toNat
  let chromaWidth := (pictureWidth + 1) / 2
  let chromaHeight := (pictureHeight + 1) / 2
  [⟨frame.data 0, frame.linesize 0, pictureHeight, pictureWidth⟩,
    ⟨frame.data 1, frame.linesize 1, chromaHeight, chromaWidth⟩,
    ⟨frame.data 2, frame.linesize 2, chromaHeight, chromaWidth⟩]

/-- The checks of `extractDecodedFrame`, in its order. -/
def requireExtractable (frame : AVFrame) : Except DecoderException Unit :=
  (requireYuv420p frame).bind fun _ =>
    if frame.width ≤ 0 ∨ frame.height ≤ 0 then
      .error ⟨.invalidFormat, "Decoder produced a frame with no picture area (" ++
        toString frame.width ++ "x" ++ toString frame.height ++ ")."⟩
    else requireReadablePlanes (framePlanes frame)

def extractDecodedFrame (frame : AVFrame) (pts duration : Int) : Except DecoderException DecodedFrame :=
  (requireExtractable frame).map fun _ =>
    let chromaWidth : Int := ((frame.width.toNat + 1) / 2 : Nat)
    .ofVideo { pts, duration }
      { width := frame.width
        height := frame.height
        pixelFormat := .YUV420P
        linesize := [frame.width, chromaWidth, chromaWidth, 0] }
      ((framePlanes frame).flatMap (copyPlane frame.memory))

end Iptv.Decoder
