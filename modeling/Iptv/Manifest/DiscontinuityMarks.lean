import Iptv.Manifest.UriBlocks

namespace Iptv.Manifest
variable {Double : Type}

/-- The tag of a line: all of it, or what stands in front of the colon. -/
def tagName (line : Text) : Text := line.takeWhile (· != byte ':')

def discontinuityTag : Text := text "#EXT-X-DISCONTINUITY"

/-- A segment is marked when the tag itself stands in front of its URI line. -/
structure ExactlyMarked (block : UriBlock) (segment : MediaSegmentRef Double) : Prop where
  uri : segment.uri = block.uri
  marked : segment.isDiscontinuity = true ↔ ∃ line ∈ block.gap, tagName line = discontinuityTag

/-- A longer tag such as `#EXT-X-DISCONTINUITY-SEQUENCE` does not stand in the gap without the tag itself. -/
def UriBlock.DistinctTags (block : UriBlock) : Prop :=
  ∀ line ∈ block.gap, marksDiscontinuity line = true → ∃ exact ∈ block.gap, tagName exact = discontinuityTag

theorem marksDiscontinuity_of_tagName {line : Text} (same : tagName line = discontinuityTag) :
    marksDiscontinuity line = true := by
  rw [marksDiscontinuity, startsWith_iff]
  have front : tagName line <+: line := List.takeWhile_prefix _
  rwa [same] at front

/-- Without stream tags every URI line uses up what was read. -/
theorem reading_media {lines : List LineEntry} (media : ∀ entry ∈ lines, opensVariant entry.text = false) :
    (reading lines).unused = (reading lines).gap ∧ (reading lines).gap.any opensVariant = false ∧
      ∀ block ∈ uriBlocks lines, block.unused = block.gap ∧ block.ofVariant = false := by
  induction lines using List.reverseRecOn with
  | nil => exact ⟨rfl, rfl, by simp [uriBlocks, reading]⟩
  | append_singleton lines entry ih =>
    obtain ⟨same, plain, blocks⟩ := ih fun line member => media line (List.mem_append.mpr (.inl member))
    have last := media entry (by simp)
    unfold uriBlocks at blocks ⊢
    rw [reading_append]
    by_cases kind : isUri entry.text = true
    · rw [Reading.next_uri kind, plain]
      refine ⟨rfl, rfl, fun block member => ?_⟩
      rcases List.mem_append.mp member with old | new
      · exact blocks block old
      · obtain rfl := List.mem_singleton.mp new
        exact ⟨same, plain⟩
    · rw [Reading.next_tag (by simpa using kind)]
      exact ⟨by rw [same], by simp [plain, last], blocks⟩

variable [Zero Double]

theorem parse_mediaSegments {lib : CxxStd Double} {input : Text} {playlist : Playlist Double}
    (accepted : parse lib input = .ok playlist)
    (media : ∀ entry ∈ bodyLines input, opensVariant entry.text = false) :
    List.Forall₂ (SegmentFrom lib) (uriBlocks (bodyLines input)) playlist.segments := by
  have segments := parse_segments accepted
  obtain ⟨_, _, blocks⟩ := reading_media media
  have all : (uriBlocks (bodyLines input)).filter (!·.ofVariant) = uriBlocks (bodyLines input) := by
    rw [List.filter_eq_self]
    intro block member
    simp [(blocks block member).2]
  rwa [all] at segments

/-- The marks of a media playlist are exact unless a longer tag passes for the tag itself. -/
theorem exactlyMarked_iff {lib : CxxStd Double} {input : Text} {playlist : Playlist Double}
    (accepted : parse lib input = .ok playlist)
    (media : ∀ entry ∈ bodyLines input, opensVariant entry.text = false) :
    List.Forall₂ ExactlyMarked (uriBlocks (bodyLines input)) playlist.segments ↔
      ∀ block ∈ uriBlocks (bodyLines input), block.DistinctTags := by
  have segments := parse_mediaSegments accepted media
  obtain ⟨_, _, blocks⟩ := reading_media media
  constructor
  · intro exact
    have marks : List.Forall₂ (fun block segment => (block.unused = block.gap → block.DistinctTags) ∧
        SegmentFrom lib block segment) (uriBlocks (bodyLines input)) playlist.segments := by
      refine List.Forall₂.mp ?_ exact segments
      intro block segment marked source
      refine ⟨fun same line member marks => marked.marked.mp ?_, source⟩
      rw [source.marked, same]
      exact List.any_eq_true.mpr ⟨line, member, marks⟩
    intro block member
    exact ((List.forall₂_and_left _ _).mp marks).1 block member (blocks block member).1
  · intro distinct
    have known : ∀ block ∈ uriBlocks (bodyLines input), block.unused = block.gap ∧ block.DistinctTags :=
      fun block member => ⟨(blocks block member).1, distinct block member⟩
    refine ((List.forall₂_and_left _ _).mpr ⟨known, segments⟩).imp ?_
    rintro block segment ⟨⟨same, tags⟩, source⟩
    refine ⟨source.uri, ?_⟩
    rw [source.marked, same, List.any_eq_true]
    constructor
    · rintro ⟨line, member, marks⟩
      exact tags line member marks
    · rintro ⟨line, member, name⟩
      exact ⟨line, member, marksDiscontinuity_of_tagName name⟩

/-- The second of three segments is marked, behind a comment and another tag. -/
def markedMiddle : Text :=
  text "#EXTM3U\n#EXTINF:1,\na\n#EXT-X-DISCONTINUITY\n# note\n#EXT-X-TARGETDURATION:2\n#EXTINF:1,\nb\n#EXTINF:1,\nc"

theorem exactlyMarked_markedMiddle :
    ∃ playlist, parse CxxStd.plain markedMiddle = .ok playlist ∧
      playlist.segments.map (·.isDiscontinuity) = [false, true, false] ∧
      (List.Forall₂ ExactlyMarked (uriBlocks (bodyLines markedMiddle)) playlist.segments ↔
        ∀ block ∈ uriBlocks (bodyLines markedMiddle), block.DistinctTags) := by
  obtain ⟨playlist, accepted, marks⟩ := parse_of_test CxxStd.plain markedMiddle
    (fun playlist => playlist.segments.map (·.isDiscontinuity)) [false, true, false] (by decide +kernel)
  exact ⟨playlist, accepted, marks, exactlyMarked_iff accepted (by decide +kernel)⟩

/-- A sequence number of discontinuities in front of the only segment. -/
def discontinuitySequence : Text := text "#EXTM3U\n#EXT-X-DISCONTINUITY-SEQUENCE:3\n#EXTINF:1,\na"

theorem not_exactlyMarked_discontinuitySequence :
    (∀ entry ∈ bodyLines discontinuitySequence, opensVariant entry.text = false) ∧
      ∃ playlist, parse CxxStd.plain discontinuitySequence = .ok playlist ∧
        playlist.segments.map (·.isDiscontinuity) = [true] ∧
        ¬List.Forall₂ ExactlyMarked (uriBlocks (bodyLines discontinuitySequence)) playlist.segments := by
  have blocks : uriBlocks (bodyLines discontinuitySequence) =
      [⟨[text "#EXT-X-DISCONTINUITY-SEQUENCE:3", text "#EXTINF:1,"],
        [text "#EXT-X-DISCONTINUITY-SEQUENCE:3", text "#EXTINF:1,"], text "a"⟩] := by decide +kernel
  obtain ⟨playlist, accepted, marks⟩ := parse_of_test CxxStd.plain discontinuitySequence
    (fun playlist => playlist.segments.map (·.isDiscontinuity)) [true] (by decide +kernel)
  refine ⟨by decide +kernel, playlist, accepted, marks, fun exact => ?_⟩
  rw [blocks, List.forall₂_cons_left_iff] at exact
  obtain ⟨segment, rest, marked, _, list⟩ := exact
  rw [list, List.map_cons, List.cons.injEq] at marks
  have named := marked.marked.mp marks.1
  revert named
  decide

end Iptv.Manifest
