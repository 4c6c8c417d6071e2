import Iptv.Decoder.PlanePacking

namespace Iptv.Decoder.Machine

/-- The picture's dimensions, and those of its chroma planes, which are halved and rounded up. -/
def AVFrame.w (frame : AVFrame) : Nat := frame.width.toInt.toNat

def AVFrame.h (frame : AVFrame) : Nat := frame.height.toInt.toNat

def AVFrame.planeRows (frame : AVFrame) (plane : Fin 3) : Nat :=
  if plane.val = 0 then frame.h else (frame.h + 1) / 2

def AVFrame.planeWidth (frame : AVFrame) (plane : Fin 3) : Nat :=
  if plane.val = 0 then frame.w else (frame.w + 1) / 2

/-- Where a plane begins in the payload: behind the planes in front of it. -/
def AVFrame.planeOffset (frame : AVFrame) (plane : Fin 3) : Nat :=
  if plane.val = 0 then 0
  else if plane.val = 1 then frame.w * frame.h
  else frame.w * frame.h + (frame.w + 1) / 2 * ((frame.h + 1) / 2)

/-- A frame that is not 8-bit 4:2:0, has no picture area, lacks a plane, or has a
stride that cannot hold a row. -/
def AVFrame.Rejected (frame : AVFrame) : Prop :=
  frame.format ≠ .YUV420P ∧ frame.format ≠ .YUVJ420P ∨ frame.width.toInt ≤ 0 ∨ frame.height.toInt ≤ 0 ∨
    ∃ plane, frame.data plane = none ∨ (frame.linesize plane).toInt.natAbs < frame.planeWidth plane

/-- The payload is the visible picture, packed tightly. -/
structure Packed (frame : AVFrame) (decoded : DecodedFrame) (writes : List (Nat × Nat)) : Prop where
  size : decoded.data.length = frame.w * frame.h + 2 * ((frame.w + 1) / 2) * ((frame.h + 1) / 2)
  exact : (payloadSize frame).toNat = decoded.data.length
  tiled : Tiles 0 writes decoded.data.length
  samples : ∀ plane base, frame.data plane = some base → ∀ r < frame.planeRows plane, ∀ c < frame.planeWidth plane,
    decoded.data[frame.planeOffset plane + r * frame.planeWidth plane + c]? =
      some (frame.memory (base + r * (frame.linesize plane).toInt + c))
  addressed : ∀ plane : Fin 3, ∃ linesize : Nat, decoded.linesize[plane.val]? = some (linesize : Int) ∧
    ∀ r < frame.planeRows plane,
      frame.planeOffset plane + r * linesize + frame.planeWidth plane ≤ decoded.data.length

theorem toNatClampNeg_lt (x : Int32) : x.toNatClampNeg < 2147483648 := by
  have upper := x.toInt_lt
  change x.toInt.toNat < 2147483648
  omega

theorem size_toNat (x : Int32) : (UInt64.ofNat x.toNatClampNeg).toNat = x.toInt.toNat := by
  have small := toNatClampNeg_lt x
  rw [UInt64.toNat_ofNat']
  exact Nat.mod_eq_of_lt (by omega)

theorem pictureWidth_toNat (frame : AVFrame) : (pictureWidth frame).toNat = frame.w := size_toNat frame.width

theorem pictureHeight_toNat (frame : AVFrame) : (pictureHeight frame).toNat = frame.h := size_toNat frame.height

theorem w_lt (frame : AVFrame) : frame.w < 2147483648 := toNatClampNeg_lt frame.width

theorem h_lt (frame : AVFrame) : frame.h < 2147483648 := toNatClampNeg_lt frame.height

theorem halfUp_toNat {n : UInt64} (small : n.toNat < 2147483648) : ((n + 1) / 2).toNat = (n.toNat + 1) / 2 := by
  have next : (n.toNat + 1) % 2 ^ 64 = n.toNat + 1 := Nat.mod_eq_of_lt (by omega)
  rw [UInt64.toNat_div, UInt64.toNat_add, UInt64.toNat_one, next]
  rfl

theorem chromaWidth_toNat (frame : AVFrame) : (chromaWidth frame).toNat = (frame.w + 1) / 2 := by
  have small := w_lt frame
  rw [← pictureWidth_toNat] at small ⊢
  exact halfUp_toNat small

theorem chromaHeight_toNat (frame : AVFrame) : (chromaHeight frame).toNat = (frame.h + 1) / 2 := by
  have small := h_lt frame
  rw [← pictureHeight_toNat] at small ⊢
  exact halfUp_toNat small

theorem framePlanes_toPlane (frame : AVFrame) :
    (framePlanes frame).map PlaneCopy.toPlane = Decoder.framePlanes frame.toFrame := by
  simp only [framePlanes, Decoder.framePlanes, List.map_cons, List.map_nil, PlaneCopy.toPlane, pictureWidth_toNat,
    pictureHeight_toNat, chromaWidth_toNat, chromaHeight_toNat]
  rfl

/-- No product and no sum of the payload size leaves 64 bits. -/
theorem payloadSize_toNat (frame : AVFrame) :
    (payloadSize frame).toNat = frame.w * frame.h + 2 * ((frame.w + 1) / 2) * ((frame.h + 1) / 2) ∧
      (payloadSize frame).toNat < 9223372036854775808 := by
  have wide := w_lt frame
  have high := h_lt frame
  have luma : frame.w * frame.h ≤ 2147483647 * 2147483647 := Nat.mul_le_mul (by omega) (by omega)
  have chroma : 2 * ((frame.w + 1) / 2) * ((frame.h + 1) / 2) ≤ 2147483648 * 1073741824 :=
    Nat.mul_le_mul (by omega) (by omega)
  have doubled : 2 * ((frame.w + 1) / 2) % 2 ^ 64 = 2 * ((frame.w + 1) / 2) := Nat.mod_eq_of_lt (by omega)
  have sizes : (payloadSize frame).toNat =
      (frame.w * frame.h + 2 * ((frame.w + 1) / 2) * ((frame.h + 1) / 2)) % 2 ^ 64 := by
    unfold payloadSize
    rw [UInt64.toNat_add, UInt64.toNat_mul, UInt64.toNat_mul, UInt64.toNat_mul, pictureWidth_toNat,
      pictureHeight_toNat, chromaWidth_toNat, chromaHeight_toNat, UInt64.toNat_ofNat, Nat.mod_add_mod, Nat.add_mod_mod,
      show 2 % 2 ^ 64 = 2 from rfl, doubled]
  rw [sizes, Nat.mod_eq_of_lt (by omega)]
  exact ⟨rfl, by omega⟩

theorem planesSize_eq (frame : AVFrame) : planesSize (framePlanes frame) = (payloadSize frame).toNat := by
  rw [(payloadSize_toNat frame).1]
  simp only [planesSize, framePlanes, List.map_cons, List.map_nil, List.sum_cons, List.sum_nil, pictureWidth_toNat,
    pictureHeight_toNat, chromaWidth_toNat, chromaHeight_toNat, Nat.add_zero]
  rw [Nat.mul_assoc, Nat.two_mul, Nat.mul_comm frame.h, Nat.mul_comm ((frame.h + 1) / 2)]

theorem strideBytes_eq {linesize : Int32} (regular : linesize ≠ Int32.minValue) :
    ∃ stride, strideBytes linesize = some stride ∧ stride.toNat = linesize.toInt.natAbs := by
  unfold strideBytes
  rw [if_neg regular]
  have lower := linesize.le_toInt
  have upper := linesize.toInt_lt
  split
  · rename_i negative
    have below : linesize.toInt < 0 := Int32.lt_iff_toInt_lt.mp negative
    have inside : linesize.toInt ≠ -2147483648 := fun same => regular (Int32.toInt.inj same)
    have negated : (-linesize).toInt = -linesize.toInt := by
      rw [Int32.toInt_neg]
      exact Int.bmod_eq_of_le (by omega) (by omega)
    refine ⟨_, rfl, ?_⟩
    rw [size_toNat, negated]
    omega
  · rename_i positive
    have above : ¬ linesize.toInt < 0 := fun below => positive (Int32.lt_iff_toInt_lt.mpr below)
    refine ⟨_, rfl, ?_⟩
    rw [size_toNat]
    omega

theorem requireReadablePlanes_eq {planes : List PlaneCopy}
    (regular : ∀ plane ∈ planes, plane.linesize ≠ Int32.minValue) :
    requireReadablePlanes planes =
      (Decoder.requireReadablePlanes (planes.map PlaneCopy.toPlane)).mapError Failure.exception := by
  induction planes with
  | nil => rfl
  | cons plane planes ih =>
    obtain ⟨first, rest⟩ := List.forall_mem_cons.mp regular
    obtain ⟨stride, bytes, magnitude⟩ := strideBytes_eq first
    simp only [requireReadablePlanes, List.map_cons, Decoder.requireReadablePlanes, PlaneCopy.toPlane, bytes,
      UInt64.lt_iff_toNat_lt, magnitude]
    split
    · rfl
    · split
      · rfl
      · exact ih rest

theorem requireYuv420p_eq (frame : AVFrame) :
    requireYuv420p frame = (Decoder.requireYuv420p frame.toFrame).mapError Failure.exception := by
  unfold requireYuv420p Decoder.requireYuv420p
  cases same : frame.format <;> simp only [AVFrame.toFrame, same] <;> rfl

/-- What `extractDecodedFrame` does behind its checks. -/
def pack (frame : AVFrame) (pts duration : Int) : Except Failure (DecodedFrame × List (Nat × Nat)) :=
  let payload : Payload := { bytes := List.replicate (payloadSize frame).toNat 0 }
  (copyPlanes frame.memory (framePlanes frame) 0 payload).map fun packed =>
    let chroma := Int.bmod (chromaWidth frame).toNat (2 ^ 32)
    (.ofVideo { pts, duration }
      { width := frame.width.toInt
        height := frame.height.toInt
        pixelFormat := .YUV420P
        linesize := [frame.width.toInt, chroma, chroma, 0] } packed.bytes,
      packed.writes)

theorem extractDecodedFrame_eq {frame : AVFrame} (regular : ∀ plane, frame.linesize plane ≠ Int32.minValue)
    (pts duration : Int) :
    extractDecodedFrame frame pts duration =
      ((requireExtractable frame.toFrame).mapError Failure.exception).bind fun _ => pack frame pts duration := by
  have strides : ∀ plane ∈ framePlanes frame, plane.linesize ≠ Int32.minValue := by
    simp only [framePlanes, List.forall_mem_cons, List.not_mem_nil, false_implies, implies_true, and_true]
    exact ⟨regular 0, regular 1, regular 2⟩
  have readable := requireReadablePlanes_eq strides
  rw [framePlanes_toPlane] at readable
  have empty : (frame.width ≤ 0 ∨ frame.height ≤ 0) ↔ (frame.toFrame.width ≤ 0 ∨ frame.toFrame.height ≤ 0) :=
    or_congr Int32.le_iff_toInt_le Int32.le_iff_toInt_le
  unfold extractDecodedFrame requireExtractable
  rw [requireYuv420p_eq, readable]
  simp only [empty]
  cases Decoder.requireYuv420p frame.toFrame with
  | error exception => rfl
  | ok _ =>
    by_cases area : frame.toFrame.width ≤ 0 ∨ frame.toFrame.height ≤ 0
    · simp only [Except.bind, Except.mapError, if_pos area]
      rfl
    · simp only [Except.bind, Except.mapError, if_neg area]
      cases Decoder.requireReadablePlanes (Decoder.framePlanes frame.toFrame) <;> rfl

theorem requireReadablePlanes_ok_iff (planes : List Decoder.PlaneCopy) :
    Decoder.requireReadablePlanes planes = .ok () ↔
      ∀ plane ∈ planes, plane.source ≠ none ∧ plane.widthBytes ≤ plane.linesize.natAbs := by
  induction planes with
  | nil => simp [Decoder.requireReadablePlanes]
  | cons plane planes ih =>
    unfold Decoder.requireReadablePlanes
    rw [List.forall_mem_cons, ← ih]
    split
    · rename_i missing
      simp [missing]
    · rename_i present
      split
      · rename_i narrow
        simp [Nat.not_le.mpr narrow]
      · rename_i wide
        simp [present, Nat.not_lt.mp wide]

theorem requireExtractable_ok_iff (frame : AVFrame) :
    requireExtractable frame.toFrame = .ok () ↔ ¬ frame.Rejected := by
  have readable := requireReadablePlanes_ok_iff (Decoder.framePlanes frame.toFrame)
  have planes : (∀ plane ∈ Decoder.framePlanes frame.toFrame,
      plane.source ≠ none ∧ plane.widthBytes ≤ plane.linesize.natAbs) ↔
      ¬ ∃ plane, frame.data plane = none ∨ (frame.linesize plane).toInt.natAbs < frame.planeWidth plane := by
    simp only [not_exists, not_or, Nat.not_lt, Decoder.framePlanes, List.forall_mem_cons, List.not_mem_nil,
      implies_true, and_true, Fin.forall_fin_succ, IsEmpty.forall_iff]
    rfl
  rw [planes] at readable
  unfold AVFrame.Rejected requireExtractable
  cases format : frame.format with
  | other name => simp [Decoder.requireYuv420p, AVFrame.toFrame, format, Except.bind]
  | YUV420P | YUVJ420P =>
    have accepted : Decoder.requireYuv420p frame.toFrame = .ok () := by
      simp [Decoder.requireYuv420p, AVFrame.toFrame, format]
    rw [accepted, ok_bind]
    by_cases area : frame.toFrame.width ≤ 0 ∨ frame.toFrame.height ≤ 0
    · rw [if_pos area]
      change frame.width.toInt ≤ 0 ∨ frame.height.toInt ≤ 0 at area
      simp only [reduceCtorEq, false_iff, not_not]
      exact Or.inr (or_assoc.mp (Or.inl area))
    · rw [if_neg area, readable]
      change ¬ (frame.width.toInt ≤ 0 ∨ frame.height.toInt ≤ 0) at area
      rw [not_or] at area
      simp [area.1, area.2]

/-- The picture as the abstract extraction packs it. -/
def AVFrame.picture (frame : AVFrame) : List UInt8 :=
  (Decoder.framePlanes frame.toFrame).flatMap (Decoder.copyPlane frame.memory)

def AVFrame.sample (frame : AVFrame) (plane : Fin 3) (row column : Nat) : UInt8 :=
  frame.memory ((frame.data plane).getD 0 + row * (frame.linesize plane).toInt + column)

def AVFrame.planeRaster (frame : AVFrame) (plane : Fin 3) : List UInt8 :=
  raster (frame.planeRows plane) (frame.planeWidth plane) (frame.sample plane)

theorem planeRaster_length (frame : AVFrame) (plane : Fin 3) :
    (frame.planeRaster plane).length = frame.planeRows plane * frame.planeWidth plane := raster_length _ _ _

theorem picture_eq {frame : AVFrame} (present : ∀ plane, frame.data plane ≠ none) :
    frame.picture = frame.planeRaster 0 ++ (frame.planeRaster 1 ++ frame.planeRaster 2) := by
  have copied (plane : Fin 3) (rows width : Nat) :
      Decoder.copyPlane frame.memory ⟨frame.data plane, (frame.linesize plane).toInt, rows, width⟩ =
        raster rows width (frame.sample plane) := by
    obtain ⟨base, atBase⟩ := Option.ne_none_iff_exists'.mp (present plane)
    have sample : frame.sample plane =
        fun row column : Nat => frame.memory (base + row * (frame.linesize plane).toInt + column) := by
      funext row column
      simp [AVFrame.sample, atBase]
    rw [copyPlane_eq _ _ atBase, sample]
  simp only [AVFrame.picture, Decoder.framePlanes, AVFrame.toFrame, List.flatMap_cons, List.flatMap_nil, copied,
    List.append_nil]
  rfl

theorem planeWidths (frame : AVFrame) : frame.planeRows 0 * frame.planeWidth 0 = frame.w * frame.h ∧
    frame.planeRows 1 * frame.planeWidth 1 = (frame.w + 1) / 2 * ((frame.h + 1) / 2) ∧
    frame.planeRows 2 * frame.planeWidth 2 = (frame.w + 1) / 2 * ((frame.h + 1) / 2) :=
  ⟨Nat.mul_comm _ _, Nat.mul_comm _ _, Nat.mul_comm _ _⟩

/-- The planes end inside a payload of the size that they are given together. -/
theorem planeOffset_le (frame : AVFrame) (plane : Fin 3) :
    frame.planeOffset plane + frame.planeRows plane * frame.planeWidth plane ≤
      frame.w * frame.h + 2 * ((frame.w + 1) / 2) * ((frame.h + 1) / 2) := by
  obtain ⟨luma, first, second⟩ := planeWidths frame
  rw [Nat.mul_assoc]
  match plane with
  | 0 =>
    rw [luma]
    change 0 + _ ≤ _
    omega
  | 1 =>
    rw [first]
    change frame.w * frame.h + _ ≤ _
    omega
  | 2 =>
    rw [second]
    change frame.w * frame.h + (frame.w + 1) / 2 * ((frame.h + 1) / 2) + _ ≤ _
    omega

theorem picture_length {frame : AVFrame} (present : ∀ plane, frame.data plane ≠ none) :
    frame.picture.length = frame.w * frame.h + 2 * ((frame.w + 1) / 2) * ((frame.h + 1) / 2) := by
  obtain ⟨luma, first, second⟩ := planeWidths frame
  rw [picture_eq present, List.length_append, List.length_append, planeRaster_length, planeRaster_length,
    planeRaster_length, luma, first, second, Nat.mul_assoc]
  omega

/-- Each plane of the picture stands at its offset. -/
theorem picture_getElem? {frame : AVFrame} (present : ∀ plane, frame.data plane ≠ none) (plane : Fin 3) {i : Nat}
    (inside : i < frame.planeRows plane * frame.planeWidth plane) :
    frame.picture[frame.planeOffset plane + i]? = (frame.planeRaster plane)[i]? := by
  obtain ⟨luma, first, _⟩ := planeWidths frame
  rw [picture_eq present]
  match plane with
  | 0 =>
    rw [show frame.planeOffset 0 = 0 from rfl, Nat.zero_add]
    exact List.getElem?_append_left (by rwa [planeRaster_length])
  | 1 =>
    have start : frame.planeOffset 1 = (frame.planeRaster 0).length := by rw [planeRaster_length, luma]; rfl
    rw [List.getElem?_append_right (by omega), start, Nat.add_sub_cancel_left]
    exact List.getElem?_append_left (by rwa [planeRaster_length])
  | 2 =>
    have start : frame.planeOffset 2 = (frame.planeRaster 0).length + (frame.planeRaster 1).length := by
      rw [planeRaster_length, planeRaster_length, luma, first]
      rfl
    rw [List.getElem?_append_right (by omega), List.getElem?_append_right (by omega)]
    congr 1
    omega

theorem plane_present {frame : AVFrame} (accepted : ¬ frame.Rejected) (plane : Fin 3) : frame.data plane ≠ none :=
  fun missing => accepted (Or.inr (Or.inr (Or.inr ⟨plane, Or.inl missing⟩)))

/-- A frame that passes the checks is copied without an undefined access to what
the abstract extraction makes of it, by writes that tile the payload. -/
theorem pack_refines {frame : AVFrame} (accepted : ¬ frame.Rejected) (pts duration : Int) :
    ∃ decoded writes, pack frame pts duration = .ok (decoded, writes) ∧
      Decoder.extractDecodedFrame frame.toFrame pts duration = .ok decoded ∧ decoded.data = frame.picture ∧
      decoded.linesize = [(frame.w : Int), ((frame.w + 1) / 2 : Nat), ((frame.w + 1) / 2 : Nat), 0] ∧
      Tiles 0 writes decoded.data.length := by
  have planes := plane_present accepted
  have area : ¬ frame.width.toInt ≤ 0 := fun none => accepted (Or.inr (Or.inl none))
  have present : ∀ plane ∈ framePlanes frame, plane.source.isSome := by
    simp only [framePlanes, List.forall_mem_cons, List.not_mem_nil, false_implies, implies_true, and_true,
      Option.isSome_iff_ne_none]
    exact ⟨planes 0, planes 1, planes 2⟩
  have few : ∀ plane ∈ framePlanes frame, plane.rows.toNat ≤ 2147483648 := by
    have high := h_lt frame
    simp only [framePlanes, List.forall_mem_cons, List.not_mem_nil, false_implies, implies_true, and_true,
      pictureHeight_toNat, chromaHeight_toNat]
    omega
  have small := (payloadSize_toNat frame).2
  have blank : Filled { bytes := List.replicate (payloadSize frame).toNat 0 } [] (payloadSize frame).toNat :=
    ⟨rfl, .nil⟩
  have start : (0 : UInt64).toNat = ([] : List UInt8).length := rfl
  obtain ⟨packed, run, filled⟩ := copyPlanes_filled frame.memory blank present few start (planesSize_eq frame).le
    (by rw [List.length_nil]; omega)
  rw [planesSize_eq, Nat.sub_self, framePlanes_toPlane, List.nil_append] at filled
  have bytes := filled.bytes
  rw [List.replicate_zero, List.append_nil] at bytes
  have chroma : Int.bmod (chromaWidth frame).toNat (2 ^ 32) = ((frame.w + 1) / 2 : Nat) := by
    have wide := w_lt frame
    rw [chromaWidth_toNat]
    exact Int.bmod_eq_of_le (by omega) (by omega)
  have wide : frame.width.toInt = frame.w := by
    change frame.width.toInt = (frame.width.toInt.toNat : Int)
    omega
  refine ⟨.ofVideo { pts, duration }
      { width := frame.width.toInt
        height := frame.height.toInt
        pixelFormat := .YUV420P
        linesize := [frame.width.toInt, ((frame.w + 1) / 2 : Nat), ((frame.w + 1) / 2 : Nat), 0] }
      frame.picture, packed.writes, ?_, ?_, rfl, by rw [← wide]; rfl, filled.tiled⟩
  · unfold pack
    simp only [run, Except.map, chroma, bytes]
    rfl
  · unfold Decoder.extractDecodedFrame
    rw [(requireExtractable_ok_iff frame).mpr accepted]
    rfl

theorem pack_packed {frame : AVFrame} (accepted : ¬ frame.Rejected) (pts duration : Int) :
    ∃ decoded writes, pack frame pts duration = .ok (decoded, writes) ∧ Packed frame decoded writes := by
  have present := plane_present accepted
  obtain ⟨decoded, writes, run, _, data, linesize, tiled⟩ := pack_refines accepted pts duration
  have length := picture_length present
  rw [← data] at length
  -- a row ends inside its plane
  have rowEnd (plane : Fin 3) {r : Nat} (inRows : r < frame.planeRows plane) :
      r * frame.planeWidth plane + frame.planeWidth plane ≤ frame.planeRows plane * frame.planeWidth plane := by
    rw [← Nat.succ_mul]
    exact Nat.mul_le_mul_right _ inRows
  refine ⟨decoded, writes, run, length, by rw [(payloadSize_toNat frame).1, length], tiled, ?_, ?_⟩
  · intro plane base atBase r inRows c inWidth
    have inside : r * frame.planeWidth plane + c < frame.planeRows plane * frame.planeWidth plane := by
      have whole := rowEnd plane inRows
      omega
    rw [data, Nat.add_assoc, picture_getElem? present plane inside, AVFrame.planeRaster,
      raster_getElem? _ inRows inWidth, AVFrame.sample, atBase, Option.getD_some]
  · intro plane
    refine ⟨frame.planeWidth plane, ?_, fun r inRows => ?_⟩
    · rw [linesize]
      match plane with
      | 0 | 1 | 2 => rfl
    · have whole := rowEnd plane inRows
      have fits := planeOffset_le frame plane
      rw [length]
      omega

instance (frame : AVFrame) : Decidable frame.Rejected :=
  inferInstanceAs (Decidable (frame.format ≠ .YUV420P ∧ frame.format ≠ .YUVJ420P ∨ frame.width.toInt ≤ 0 ∨
    frame.height.toInt ≤ 0 ∨
    ∃ plane, frame.data plane = none ∨ (frame.linesize plane).toInt.natAbs < frame.planeWidth plane))

/-- A picture of three by three samples, stored bottom-up with padded rows. -/
def bottomUpFrame : AVFrame where
  format := .YUVJ420P
  width := 3
  height := 3
  data plane := some (16 * plane.val + 8)
  linesize _ := -4
  memory address := UInt8.ofNat address.toNat

end Iptv.Decoder.Machine
