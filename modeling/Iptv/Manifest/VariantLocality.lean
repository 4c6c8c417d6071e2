import Iptv.Lib.Census
import Iptv.Manifest.StreamSettings
import Iptv.Manifest.PlaylistKinds

namespace Iptv.Manifest

variable {Double : Type}

/-- What the last line leaves unset, no earlier line sets to another value than the default. -/
def OwnSetting {α : Type} (read : AttributePair → Option α) (default : α) (lines : List Text) : Prop :=
  ∀ earlier last, lines = earlier ++ [last] → lastSetting read (attributePairs last) = none →
    ∀ value ∈ lastSetting read (earlier.flatMap attributePairs), value = default

theorem ownSetting_iff {α : Type} {read : AttributePair → Option α} {default : α} {earlier : List Text}
    {last : Text} : OwnSetting read default (earlier ++ [last]) ↔
      (lastSetting read ((earlier ++ [last]).flatMap attributePairs)).getD default =
        (lastSetting read (attributePairs last)).getD default := by
  rw [List.flatMap_append, List.flatMap_singleton, lastSetting_append_getD]
  constructor
  · intro own
    cases unset : lastSetting read (attributePairs last) with
    | some value => rfl
    | none =>
      cases set : lastSetting read (earlier.flatMap attributePairs) with
      | none => rfl
      | some value => exact own earlier last rfl unset value set
  · intro same front tag split unset value set
    obtain ⟨rfl, tags⟩ := List.append_inj' split rfl
    obtain rfl := List.head_eq_of_cons_eq tags
    rw [unset, set] at same
    exact same

theorem setting_near {α : Type} (read : AttributePair → Option α) (default : α) (earlier : List Text)
    (last : Text) : (lastSetting read (attributePairs last)).getD default =
        (lastSetting read ((earlier ++ [last]).flatMap attributePairs)).getD default ∨
      (lastSetting read (attributePairs last)).getD default = default := by
  rw [List.flatMap_append, List.flatMap_singleton, lastSetting_append_getD]
  cases lastSetting read (attributePairs last) with
  | none => exact .inr rfl
  | some value => exact .inl rfl

variable [Zero Double]

/-- No attribute of the variant comes from another stream tag than the last one in front of its URI. -/
structure UriBlock.OwnAttributes (lib : CxxStd Double) (block : UriBlock) : Prop where
  bandwidth : OwnSetting bandwidthOf 0 (block.gap.filter opensVariant)
  resolution : OwnSetting resolutionOf {} (block.gap.filter opensVariant)
  frameRate : OwnSetting (frameRateOf lib) 0 (block.gap.filter opensVariant)
  codecs : OwnSetting codecsOf [] (block.gap.filter opensVariant)

/-- What `applyStreamInfAttributes` yields for the last stream tag alone. -/
def UriBlock.localVariant (lib : CxxStd Double) (block : UriBlock) : VariantStreamRef Double :=
  match (block.gap.filter opensVariant).getLast? with
  | none => { VariantStreamRef.empty with uri := block.uri }
  | some last => { streamInf lib .empty last with uri := block.uri }

noncomputable def VariantStreamRef.weight (variant : VariantStreamRef Double) : Nat :=
  departs variant.bandwidth 0 + departs variant.resolution {} + departs variant.frameRate 0 +
    departs variant.codecs []

section Block
variable {lib : CxxStd Double} {block : UriBlock}

theorem UriBlock.variant_split (lib : CxxStd Double) (variant : block.ofVariant = true) :
    ∃ earlier last, block.gap.filter opensVariant = earlier ++ [last] ∧
      block.variant lib =
        { VariantStreamRef.set lib .empty ((earlier ++ [last]).flatMap attributePairs) with uri := block.uri } ∧
      block.localVariant lib = { VariantStreamRef.set lib .empty (attributePairs last) with uri := block.uri } := by
  have some : block.gap.filter opensVariant ≠ [] := by simpa [ofVariant] using variant
  obtain ⟨earlier, last, lines⟩ := (List.eq_nil_or_concat' (block.gap.filter opensVariant)).resolve_left some
  refine ⟨earlier, last, lines, ?_, ?_⟩
  · rw [UriBlock.variant, streamed, lines, streamInfs_set]
  · rw [localVariant, lines, List.getLast?_concat]
    simp only [streamInf_set]

theorem UriBlock.variant_eq_iff (variant : block.ofVariant = true) :
    block.variant lib = block.localVariant lib ↔ block.OwnAttributes lib := by
  obtain ⟨earlier, last, lines, all, alone⟩ := variant_split lib variant
  rw [all, alone, VariantStreamRef.mk.injEq]
  constructor
  · rintro ⟨_, codecs, bandwidth, resolution, frameRate⟩
    constructor <;> rw [lines, ownSetting_iff] <;> assumption
  · rintro ⟨bandwidth, resolution, frameRate, codecs⟩
    rw [lines, ownSetting_iff] at bandwidth resolution frameRate codecs
    exact ⟨rfl, codecs, bandwidth, resolution, frameRate⟩

theorem UriBlock.localVariant_weight (lib : CxxStd Double) (variant : block.ofVariant = true) :
    (block.localVariant lib).weight ≤ (block.variant lib).weight ∧
      ((block.localVariant lib).weight = (block.variant lib).weight →
        block.variant lib = block.localVariant lib) := by
  obtain ⟨earlier, last, _, all, alone⟩ := variant_split lib variant
  obtain ⟨bandwidth, bandwidthTight⟩ := departs_of_eq_or (setting_near bandwidthOf 0 earlier last)
  obtain ⟨resolution, resolutionTight⟩ := departs_of_eq_or (setting_near resolutionOf {} earlier last)
  obtain ⟨frameRate, frameRateTight⟩ := departs_of_eq_or (setting_near (frameRateOf lib) 0 earlier last)
  obtain ⟨codecs, codecsTight⟩ := departs_of_eq_or (setting_near codecsOf [] earlier last)
  rw [all, alone]
  simp only [VariantStreamRef.weight, VariantStreamRef.set, VariantStreamRef.empty]
  refine ⟨by omega, fun same => ?_⟩
  rw [bandwidthTight (by omega), resolutionTight (by omega), frameRateTight (by omega), codecsTight (by omega)]

end Block

/-- The variants of a playlist come from their own stream tags exactly when no tag
in front of a URI line sets what the last one leaves unset. -/
theorem localVariants_iff {lib : CxxStd Double} {input : Text} {playlist : Playlist Double}
    (accepted : parse lib input = .ok playlist) :
    playlist.variants.Perm (((uriBlocks (bodyLines input)).filter (·.ofVariant)).map (·.localVariant lib)) ↔
      ∀ block ∈ (uriBlocks (bodyLines input)).filter (·.ofVariant), block.OwnAttributes lib := by
  obtain ⟨ctx, builders, rfl⟩ := parse_builders accepted
  have reordered := finalizePlaylist_variants lib ctx.playlist
  rw [builders.variants] at reordered
  have kind : ∀ block ∈ (uriBlocks (bodyLines input)).filter (·.ofVariant), block.ofVariant = true :=
    fun block member => (List.mem_filter.mp member).2
  constructor
  · intro matched block member
    have agree := eq_of_map_perm VariantStreamRef.weight (reordered.symm.trans matched)
      (fun block member => (UriBlock.localVariant_weight lib (kind block member)).1)
      (fun block member => (UriBlock.localVariant_weight lib (kind block member)).2)
    exact (UriBlock.variant_eq_iff (kind block member)).mp (agree block member)
  · intro own
    have agree : ((uriBlocks (bodyLines input)).filter (·.ofVariant)).map (·.variant lib) =
        ((uriBlocks (bodyLines input)).filter (·.ofVariant)).map (·.localVariant lib) :=
      List.map_congr_left fun block member => (UriBlock.variant_eq_iff (kind block member)).mpr (own block member)
    rw [← agree]
    exact reordered

/-- Two variants with a stream tag each; only the first one states its codecs. -/
def separateVariants : Text :=
  text "#EXTM3U\n#EXT-X-STREAM-INF:BANDWIDTH=800,CODECS=\"avc1\"\na\n#EXT-X-STREAM-INF:BANDWIDTH=400\nb"

theorem localVariants_separateVariants :
    ∃ playlist, parse CxxStd.plain separateVariants = .ok playlist ∧
      playlist.variants.map (fun variant => (variant.uri, variant.bandwidth, variant.codecs)) =
        [(text "b", 400, []), (text "a", 800, text "avc1")] ∧
      (playlist.variants.Perm
          (((uriBlocks (bodyLines separateVariants)).filter (·.ofVariant)).map (·.localVariant CxxStd.plain)) ↔
        ∀ block ∈ (uriBlocks (bodyLines separateVariants)).filter (·.ofVariant),
          block.OwnAttributes CxxStd.plain) := by
  obtain ⟨playlist, accepted, variants⟩ := parse_of_test CxxStd.plain separateVariants
    (fun playlist => playlist.variants.map fun variant => (variant.uri, variant.bandwidth, variant.codecs))
    [(text "b", 400, []), (text "a", 800, text "avc1")] (by decide +kernel)
  exact ⟨playlist, accepted, variants, localVariants_iff accepted⟩

/-- A stream tag without a URI in front of another one. -/
def strayStreamInf : Text :=
  text "#EXTM3U\n#EXT-X-STREAM-INF:BANDWIDTH=800,CODECS=\"avc1\"\n#EXT-X-STREAM-INF:BANDWIDTH=400\na"

theorem not_localVariants_strayStreamInf :
    ∃ playlist, parse CxxStd.plain strayStreamInf = .ok playlist ∧
      playlist.variants.map (fun variant => (variant.uri, variant.bandwidth, variant.codecs)) =
        [(text "a", 400, text "avc1")] ∧
      ¬playlist.variants.Perm
        (((uriBlocks (bodyLines strayStreamInf)).filter (·.ofVariant)).map (·.localVariant CxxStd.plain)) := by
  obtain ⟨playlist, accepted, variants⟩ := parse_of_test CxxStd.plain strayStreamInf
    (fun playlist => playlist.variants.map fun variant => (variant.uri, variant.bandwidth, variant.codecs))
    [(text "a", 400, text "avc1")] (by decide +kernel)
  have alone : (((uriBlocks (bodyLines strayStreamInf)).filter (·.ofVariant)).map
      (·.localVariant CxxStd.plain)).map (fun variant => (variant.uri, variant.bandwidth, variant.codecs)) =
        [(text "a", 400, [])] := by decide +kernel
  refine ⟨playlist, accepted, variants, fun matched => ?_⟩
  have codecs := matched.map fun variant => (variant.uri, variant.bandwidth, variant.codecs)
  rw [variants, alone] at codecs
  revert codecs
  decide

end Iptv.Manifest
