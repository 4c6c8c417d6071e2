import Mathlib.Tactic.Linarith
import Iptv.Lib.Raster
import Iptv.Decoder.FrameExtractor

namespace Iptv.Decoder.Machine

/-- The fields of an `AVFrame` at their widths in the source. -/
structure AVFrame where
  format : AVPixelFormat
  width : Int32
  height : Int32
  data : Fin 3 → Option Int
  linesize : Fin 3 → Int32
  memory : Int → UInt8

structure PlaneCopy where
  source : Option Int
  linesize : Int32
  rows : UInt64
  widthBytes : UInt64

/-- How the extraction ends without a frame: with an exception, or with an access
or an overflow that the language does not define. -/
inductive Failure
  | exception (exception : DecoderException)
  | undefinedBehaviour
  deriving DecidableEq

/-- The payload with a record of the writes to it. -/
structure Payload where
  bytes : List UInt8
  writes : List (Nat × Nat) := []

def memcpy (payload : Payload) (destination size : UInt64) (source : Nat → UInt8) : Except Failure Payload :=
  if destination.toNat + size.toNat ≤ payload.bytes.length then
    .ok {
      bytes := overwrite payload.bytes destination.toNat ((List.range size.toNat).map source)
      writes := payload.writes ++ [(destination.toNat, size.toNat)] }
  else .error .undefinedBehaviour

/-- `static_cast<std::ptrdiff_t>(index) * copy.linesize`. -/
def rowOffset (index : UInt64) (linesize : Int32) : Except Failure Int :=
  let offset := Int.bmod index.toNat (2 ^ 64) * linesize.toInt
  if -(2 ^ 63) ≤ offset ∧ offset < 2 ^ 63 then .ok offset else .error .undefinedBehaviour

def copyRow (memory : Int → UInt8) (copy : PlaneCopy) (source : Int) (destination : UInt64) (payload : Payload)
    (index : Nat) : Except Failure Payload :=
  (rowOffset (UInt64.ofNat index) copy.linesize).bind fun offset =>
    memcpy payload (destination + UInt64.ofNat index * copy.widthBytes) copy.widthBytes
      fun column => memory (source + offset + column)

def copyPlane (memory : Int → UInt8) (copy : PlaneCopy) (destination : UInt64) (payload : Payload) :
    Except Failure Payload :=
  match copy.source with
  | none => .error .undefinedBehaviour
  | some source => (List.range copy.rows.toNat).foldlM (copyRow memory copy source destination) payload

/-- The loop over the planes, each behind the ones in front of it. -/
def copyPlanes (memory : Int → UInt8) : List PlaneCopy → UInt64 → Payload → Except Failure Payload
  | [], _, payload => .ok payload
  | plane :: planes, offset, payload =>
    (copyPlane memory plane offset payload).bind
      (copyPlanes memory planes (offset + plane.rows * plane.widthBytes))

/-- The stride without its sign; `INT_MIN` has no counterpart. -/
def strideBytes (linesize : Int32) : Option UInt64 :=
  if linesize = Int32.minValue then none
  else if linesize < 0 then some (UInt64.ofNat (-linesize).toNatClampNeg)
  else some (UInt64.ofNat linesize.toNatClampNeg)

def requireReadablePlanes : List PlaneCopy → Except Failure Unit
  | [] => .ok ()
  | plane :: planes =>
    if plane.source = none then
      .error (.exception
        ⟨.corruptData, "Decoder produced a frame with one of its YUV420P planes missing."⟩)
    else match strideBytes plane.linesize with
      | none => .error .undefinedBehaviour
      | some linesize =>
        if linesize < plane.widthBytes then
          .error (.exception ⟨.corruptData, "Decoder produced a plane whose stride of " ++
            toString plane.linesize.toInt ++ " byte(s) cannot hold a row of " ++
            toString plane.widthBytes.toNat ++ " byte(s)."⟩)
        else requireReadablePlanes planes

def requireYuv420p (frame : AVFrame) : Except Failure Unit :=
  match frame.format with
  | .YUV420P | .YUVJ420P => .ok ()
  | .other name => .error (.exception ⟨.invalidFormat, "Decoder produced pixel format '" ++
      name.getD "unknown" ++ "', but only 8-bit 4:2:0 YUV can be handed to the render path."⟩)

def pictureWidth (frame : AVFrame) : UInt64 := UInt64.ofNat frame.width.toNatClampNeg

def pictureHeight (frame : AVFrame) : UInt64 := UInt64.ofNat frame.height.toNatClampNeg

def chromaWidth (frame : AVFrame) : UInt64 := (pictureWidth frame + 1) / 2

def chromaHeight (frame : AVFrame) : UInt64 := (pictureHeight frame + 1) / 2

local instance threePlanes : NeZero 3 := ⟨Nat.succ_ne_zero 2⟩

def framePlanes (frame : AVFrame) : List PlaneCopy :=
  [⟨frame.data 0, frame.linesize 0, pictureHeight frame, pictureWidth frame⟩,
    ⟨frame.data 1, frame.linesize 1, chromaHeight frame, chromaWidth frame⟩,
    ⟨frame.data 2, frame.linesize 2, chromaHeight frame, chromaWidth frame⟩]

def payloadSize (frame : AVFrame) : UInt64 :=
  pictureWidth frame * pictureHeight frame + 2 * chromaWidth frame * chromaHeight frame

/-- `extractDecodedFrame` in the integer types of the source; the payload can be allocated. -/
def extractDecodedFrame (frame : AVFrame) (pts duration : Int) : Except Failure (DecodedFrame × List (Nat × Nat)) :=
  (requireYuv420p frame).bind fun _ =>
    if frame.width ≤ 0 ∨ frame.height ≤ 0 then
      .error (.exception ⟨.invalidFormat, "Decoder produced a frame with no picture area (" ++
        toString frame.width.toInt ++ "x" ++ toString frame.height.toInt ++ ")."⟩)
    else (requireReadablePlanes (framePlanes frame)).bind fun _ =>
      let payload : Payload := { bytes := List.replicate (payloadSize frame).toNat 0 }
      (copyPlanes frame.memory (framePlanes frame) 0 payload).map fun packed =>
        let chroma := Int.bmod (chromaWidth frame).toNat (2 ^ 32)
        (.ofVideo { pts, duration }
          { width := frame.width.toInt
            height := frame.height.toInt
            pixelFormat := .YUV420P
            linesize := [frame.width.toInt, chroma, chroma, 0] } packed.bytes,
          packed.writes)

/-- The frame with its integers as numbers. -/
def AVFrame.toFrame (frame : AVFrame) : Decoder.AVFrame where
  format := frame.format
  width := frame.width.toInt
  height := frame.height.toInt
  data := frame.data
  linesize plane := (frame.linesize plane).toInt
  memory := frame.memory

def PlaneCopy.toPlane (plane : PlaneCopy) : Decoder.PlaneCopy :=
  ⟨plane.source, plane.linesize.toInt, plane.rows.toNat, plane.widthBytes.toNat⟩

/-- A payload that is written up to the end of `front`, and blank behind it. -/
structure Filled (payload : Payload) (front : List UInt8) (rest : Nat) : Prop where
  bytes : payload.bytes = front ++ List.replicate rest 0
  tiled : Tiles 0 payload.writes front.length

theorem ok_bind {α β ε : Type} (value : α) (next : α → Except ε β) : (Except.ok value).bind next = next value := rfl

theorem foldlM_range_succ {α ε : Type} {step : α → Nat → Except ε α} {count : Nat} {first middle last : α}
    (run : (List.range count).foldlM step first = .ok middle) (next : step middle count = .ok last) :
    (List.range (count + 1)).foldlM step first = .ok last := by
  rw [List.range_succ, List.foldlM_append, run]
  change (List.foldlM step middle [count]) = _
  rw [List.foldlM_cons, next]
  rfl

theorem memcpy_filled {payload : Payload} {front : List UInt8} {rest : Nat} (filled : Filled payload front rest)
    {destination size : UInt64} (behind : destination.toNat = front.length) (fits : size.toNat ≤ rest)
    (source : Nat → UInt8) :
    ∃ payload', memcpy payload destination size source = .ok payload' ∧
      Filled payload' (front ++ (List.range size.toNat).map source) (rest - size.toNat) := by
  have bound : destination.toNat + size.toNat ≤ payload.bytes.length := by
    rw [filled.bytes, List.length_append, List.length_replicate]
    omega
  refine ⟨_, if_pos bound, ?_, ?_⟩
  · rw [behind, filled.bytes, overwrite_filled]
    simp
  · have tiled := filled.tiled.snoc size.toNat
    simpa [behind] using tiled

/-- The product of a row number and a stride stays within 64 bits. -/
theorem rowOffset_eq {index : Nat} (small : index ≤ 2147483648) (linesize : Int32) :
    rowOffset (UInt64.ofNat index) linesize = .ok (index * linesize.toInt) := by
  have number : (UInt64.ofNat index).toNat = index := by
    rw [UInt64.toNat_ofNat']
    exact Nat.mod_eq_of_lt (by omega)
  have cast : Int.bmod (index : Int) (2 ^ 64) = index := Int.bmod_eq_of_le (by omega) (by omega)
  have lower := linesize.le_toInt
  have upper := linesize.toInt_lt
  have above : (index : Int) * linesize.toInt ≤ 2 ^ 31 * 2 ^ 31 := by nlinarith
  have below : -(2 ^ 31 * 2 ^ 31) ≤ (index : Int) * linesize.toInt := by nlinarith
  unfold rowOffset
  rw [number, cast]
  exact if_pos ⟨by omega, by omega⟩

theorem copyRow_filled (memory : Int → UInt8) {copy : PlaneCopy} (source : Int) {destination : UInt64}
    {payload : Payload} {front : List UInt8} {rest : Nat} (index : Nat) (filled : Filled payload front rest)
    (small : index < 2147483648) (behind : destination.toNat + index * copy.widthBytes.toNat = front.length)
    (fits : copy.widthBytes.toNat ≤ rest) (addressable : front.length < 18446744073709551616) :
    ∃ payload', copyRow memory copy source destination payload index = .ok payload' ∧
      Filled payload' (front ++ (List.range copy.widthBytes.toNat).map
        fun column : Nat => memory (source + index * copy.linesize.toInt + column)) (rest - copy.widthBytes.toNat) := by
  have number : (UInt64.ofNat index).toNat = index := by
    rw [UInt64.toNat_ofNat']
    exact Nat.mod_eq_of_lt (by omega)
  have start : (destination + UInt64.ofNat index * copy.widthBytes).toNat = front.length := by
    rw [UInt64.toNat_add, UInt64.toNat_mul, number, Nat.add_mod_mod, behind]
    exact Nat.mod_eq_of_lt addressable
  rw [copyRow, rowOffset_eq (Nat.le_of_lt small), ok_bind]
  exact memcpy_filled filled start fits fun column => memory (source + index * copy.linesize.toInt + column)

theorem copyPlane_eq (memory : Int → UInt8) (copy : Decoder.PlaneCopy) {source : Int}
    (present : copy.source = some source) :
    Decoder.copyPlane memory copy = raster copy.rows copy.widthBytes
      fun row column => memory (source + row * copy.linesize + column) := by
  simp only [Decoder.copyPlane, present, raster, bind_pure_comp, List.map_eq_map, List.flatMap_map, List.map_map]
  rfl

/-- A plane is copied to its samples in display order, directly behind what stands in front of it. -/
theorem copyPlane_filled (memory : Int → UInt8) {copy : PlaneCopy} {source : Int} {destination : UInt64}
    {payload : Payload} {front : List UInt8} {rest : Nat} (filled : Filled payload front rest)
    (present : copy.source = some source) (few : copy.rows.toNat ≤ 2147483648)
    (behind : destination.toNat = front.length) (fits : copy.rows.toNat * copy.widthBytes.toNat ≤ rest)
    (addressable : front.length + rest < 18446744073709551616) :
    ∃ payload', copyPlane memory copy destination payload = .ok payload' ∧
      Filled payload' (front ++ Decoder.copyPlane memory copy.toPlane)
        (rest - copy.rows.toNat * copy.widthBytes.toNat) := by
  rw [copyPlane_eq memory copy.toPlane present, copyPlane, present]
  simp only [PlaneCopy.toPlane]
  generalize copy.rows.toNat = count at few fits
  -- The rows are copied one after the other, so the induction is on their number.
  induction count with
  | zero => exact ⟨payload, rfl, by simpa [raster] using filled⟩
  | succ count ih =>
    rw [Nat.succ_mul] at fits
    obtain ⟨before, run, partly⟩ := ih (by omega) (by omega)
    have length := raster_length count copy.widthBytes.toNat
      fun row column => memory (source + row * copy.linesize.toInt + column)
    obtain ⟨after, row, whole⟩ := copyRow_filled memory source count partly
      (by omega) (by rw [List.length_append, length, behind]) (by omega) (by rw [List.length_append, length]; omega)
    refine ⟨after, foldlM_range_succ run row, ?_⟩
    rw [raster_succ, ← List.append_assoc, Nat.succ_mul, Nat.sub_add_eq]
    exact whole

/-- How many bytes the planes take together. -/
def planesSize (planes : List PlaneCopy) : Nat :=
  (planes.map fun plane => plane.rows.toNat * plane.widthBytes.toNat).sum

theorem copyPlanes_filled (memory : Int → UInt8) {planes : List PlaneCopy} {offset : UInt64} {payload : Payload}
    {front : List UInt8} {rest : Nat} (filled : Filled payload front rest)
    (present : ∀ plane ∈ planes, plane.source.isSome) (few : ∀ plane ∈ planes, plane.rows.toNat ≤ 2147483648)
    (behind : offset.toNat = front.length) (fits : planesSize planes ≤ rest)
    (addressable : front.length + rest < 18446744073709551616) :
    ∃ payload', copyPlanes memory planes offset payload = .ok payload' ∧
      Filled payload' (front ++ (planes.map PlaneCopy.toPlane).flatMap (Decoder.copyPlane memory))
        (rest - planesSize planes) := by
  induction planes generalizing offset payload front rest with
  | nil => exact ⟨payload, rfl, by simpa [planesSize] using filled⟩
  | cons plane planes ih =>
    obtain ⟨presentFirst, presentRest⟩ := List.forall_mem_cons.mp present
    obtain ⟨fewFirst, fewRest⟩ := List.forall_mem_cons.mp few
    obtain ⟨source, atSource⟩ := Option.isSome_iff_exists.mp presentFirst
    have sizes : planesSize (plane :: planes) = plane.rows.toNat * plane.widthBytes.toNat + planesSize planes := by
      simp [planesSize]
    rw [sizes] at fits
    obtain ⟨middle, first, partly⟩ :=
      copyPlane_filled memory filled atSource fewFirst behind (by omega) addressable
    have length : (Decoder.copyPlane memory plane.toPlane).length = plane.rows.toNat * plane.widthBytes.toNat := by
      rw [copyPlane_eq memory plane.toPlane atSource, raster_length]
      rfl
    have next : (offset + plane.rows * plane.widthBytes).toNat =
        (front ++ Decoder.copyPlane memory plane.toPlane).length := by
      rw [UInt64.toNat_add, UInt64.toNat_mul, Nat.add_mod_mod, List.length_append, length, behind]
      exact Nat.mod_eq_of_lt (by omega)
    obtain ⟨last, others, whole⟩ := ih partly presentRest fewRest next (by omega)
      (by rw [List.length_append, length]; omega)
    refine ⟨last, ?_, ?_⟩
    · rw [copyPlanes, first]
      exact others
    · rw [sizes, Nat.sub_add_eq, List.map_cons, List.flatMap_cons, ← List.append_assoc]
      exact whole

end Iptv.Decoder.Machine
