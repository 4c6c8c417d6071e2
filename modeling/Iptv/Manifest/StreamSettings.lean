import Iptv.Manifest.UriBlocks

namespace Iptv.Manifest
variable {Double : Type}

/-- The attribute list of a stream tag, as the loop of `applyStreamInfAttributes` scans it. -/
def attributePairs (line : Text) : List AttributePair :=
  deliveries AttributeScanner.next (line.drop 18).length { attrs := line.drop 18 }

def bandwidthOf (attr : AttributePair) : Option UInt32 :=
  if attr.key = text "BANDWIDTH" then (fromChars uint32Bound attr.value).map UInt32.ofNat else none

/-- A width and a height with an `x` in between. -/
def resolutionValue (val : Text) : Option Resolution :=
  (find val (byte 'x') 0).bind fun xPos =>
    (fromChars uint32Bound (val.take xPos)).bind fun width =>
      (fromChars uint32Bound (val.drop (xPos + 1))).map fun height => ⟨UInt32.ofNat width, UInt32.ofNat height⟩

def resolutionOf (attr : AttributePair) : Option Resolution :=
  if attr.key = text "RESOLUTION" then resolutionValue attr.value else none

def frameRateOf (lib : CxxStd Double) (attr : AttributePair) : Option Double :=
  if attr.key = text "FRAME-RATE" then lib.fromCharsDouble attr.value else none

def codecsOf (attr : AttributePair) : Option Text :=
  if attr.key = text "CODECS" then some attr.value else none

/-- What the last pair sets that sets anything. -/
def lastSetting {α : Type} (read : AttributePair → Option α) (pairs : List AttributePair) : Option α :=
  (pairs.filterMap read).getLast?

theorem lastSetting_append {α : Type} (read : AttributePair → Option α) (earlier later : List AttributePair) :
    lastSetting read (earlier ++ later) = (lastSetting read later).or (lastSetting read earlier) := by
  rw [lastSetting, List.filterMap_append, List.getLast?_append]
  rfl

theorem parseBandwidth_variant (val : Text) (builder : PendingVariant Double) :
    (parseBandwidth val builder).variant = { builder.variant with
      bandwidth := ((fromChars uint32Bound val).map UInt32.ofNat).getD builder.variant.bandwidth } := by
  unfold parseBandwidth
  cases fromChars uint32Bound val <;> rfl

theorem parseResolution_variant (val : Text) (builder : PendingVariant Double) :
    (parseResolution val builder).variant = { builder.variant with
      resolution := (resolutionValue val).getD builder.variant.resolution } := by
  unfold parseResolution resolutionValue
  cases find val (byte 'x') 0 with
  | none => rfl
  | some xPos =>
    dsimp only [Option.bind_some]
    cases fromChars uint32Bound (val.take xPos) with
    | none => rfl
    | some width => cases fromChars uint32Bound (val.drop (xPos + 1)) <;> rfl

theorem parseFrameRate_variant (lib : CxxStd Double) (val : Text) (builder : PendingVariant Double) :
    (parseFrameRate lib val builder).variant = { builder.variant with
      frameRate := (lib.fromCharsDouble val).getD builder.variant.frameRate } := by
  unfold parseFrameRate
  cases lib.fromCharsDouble val <;> rfl

/-- A pair sets the field that its key names, if its value can be read. -/
theorem applyAttribute_variant (lib : CxxStd Double) (attr : AttributePair) (builder : PendingVariant Double) :
    (applyAttribute lib attr builder).variant =
      { builder.variant with
        bandwidth := (bandwidthOf attr).getD builder.variant.bandwidth
        resolution := (resolutionOf attr).getD builder.variant.resolution
        frameRate := (frameRateOf lib attr).getD builder.variant.frameRate
        codecs := (codecsOf attr).getD builder.variant.codecs } := by
  have keys : text "BANDWIDTH" ≠ text "RESOLUTION" ∧ text "BANDWIDTH" ≠ text "FRAME-RATE" ∧
      text "BANDWIDTH" ≠ text "CODECS" ∧ text "RESOLUTION" ≠ text "FRAME-RATE" ∧
      text "RESOLUTION" ≠ text "CODECS" ∧ text "FRAME-RATE" ≠ text "CODECS" := by decide
  obtain ⟨br, bf, bc, rf, rc, fc⟩ := keys
  unfold applyAttribute bandwidthOf resolutionOf frameRateOf codecsOf
  by_cases bandwidth : attr.key = text "BANDWIDTH"
  · simp [bandwidth, br, bf, bc, parseBandwidth_variant]
  · by_cases resolution : attr.key = text "RESOLUTION"
    · simp [resolution, br.symm, rf, rc, parseResolution_variant]
    · by_cases frameRate : attr.key = text "FRAME-RATE"
      · simp [frameRate, bf.symm, rf.symm, fc, parseFrameRate_variant]
      · by_cases codecs : attr.key = text "CODECS"
        · simp [codecs, bc.symm, rc.symm, fc.symm]
        · simp [bandwidth, resolution, frameRate, codecs]

/-- The attributes of a variant after a list of pairs, over those it had before. -/
def VariantStreamRef.set (lib : CxxStd Double) (variant : VariantStreamRef Double) (pairs : List AttributePair) :
    VariantStreamRef Double :=
  { variant with
    bandwidth := (lastSetting bandwidthOf pairs).getD variant.bandwidth
    resolution := (lastSetting resolutionOf pairs).getD variant.resolution
    frameRate := (lastSetting (frameRateOf lib) pairs).getD variant.frameRate
    codecs := (lastSetting codecsOf pairs).getD variant.codecs }

theorem lastSetting_append_getD {α : Type} (read : AttributePair → Option α) (earlier later : List AttributePair)
    (before : α) : (lastSetting read (earlier ++ later)).getD before =
      (lastSetting read later).getD ((lastSetting read earlier).getD before) := by
  rw [lastSetting_append]
  cases lastSetting read later <;> rfl

theorem VariantStreamRef.set_append (lib : CxxStd Double) (variant : VariantStreamRef Double)
    (earlier later : List AttributePair) :
    variant.set lib (earlier ++ later) = (variant.set lib earlier).set lib later := by
  simp only [set, lastSetting_append_getD]

theorem lastSetting_singleton {α : Type} (read : AttributePair → Option α) (attr : AttributePair) :
    lastSetting read [attr] = read attr := by
  cases value : read attr <;> simp [lastSetting, value]

theorem applyAttributes_variant (lib : CxxStd Double) (pairs : List AttributePair)
    (builder : PendingVariant Double) :
    (pairs.foldl (fun builder attr => applyAttribute lib attr builder) builder).variant =
      builder.variant.set lib pairs := by
  induction pairs generalizing builder with
  | nil => rfl
  | cons attr pairs ih =>
    have first : (applyAttribute lib attr builder).variant = builder.variant.set lib [attr] := by
      rw [applyAttribute_variant, VariantStreamRef.set]
      simp only [lastSetting_singleton]
    rw [List.foldl_cons, ih, first, ← VariantStreamRef.set_append]
    rfl

theorem streamInf_set (lib : CxxStd Double) (variant : VariantStreamRef Double) (line : Text) :
    streamInf lib variant line = variant.set lib (attributePairs line) := by
  rw [streamInf, applyStreamInfAttributes, applyAttributesLoop_eq, applyAttributes_variant]
  rfl

theorem streamInfs_set (lib : CxxStd Double) (variant : VariantStreamRef Double) (lines : List Text) :
    lines.foldl (streamInf lib) variant = variant.set lib (lines.flatMap attributePairs) := by
  induction lines generalizing variant with
  | nil => rfl
  | cons line lines ih =>
    rw [List.foldl_cons, ih, streamInf_set, List.flatMap_cons, VariantStreamRef.set_append]

end Iptv.Manifest
