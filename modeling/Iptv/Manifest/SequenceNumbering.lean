import Iptv.Manifest.Summary

namespace Iptv.Manifest
variable {Double : Type} [Zero Double]

/-- Every segment carries the stored base sequence plus its position, modulo `2^64`. -/
def Playlist.SequenceNumbered (playlist : Playlist Double) : Prop :=
  ∀ i (bound : i < playlist.segments.length),
    playlist.segments[i].sequenceIndex = playlist.mediaSequence + UInt64.ofNat i

/-- The base in force at every segment URI is the one in force at the end. -/
def BaseSettled (lines : List LineEntry) : Prop :=
  ∀ before, UriLineAfter lines before false → baseAfter before = baseAfter lines

/-- An accepted playlist is numbered absolutely exactly when no sequence tag
changes the base behind a segment URI for good. -/
theorem sequenceNumbered_iff_baseSettled {lib : CxxStd Double} {input : Text} {playlist : Playlist Double}
    (accepted : parse lib input = .ok playlist) :
    playlist.SequenceNumbered ↔ BaseSettled (bodyLines input) := by
  obtain ⟨ctx, summary, final⟩ := parse_summary accepted
  have segments : playlist.segments = ctx.playlist.segments := by
    rw [final, finalizePlaylist_segments]
  have base : playlist.mediaSequence = baseAfter (bodyLines input) := by
    rw [final, finalizePlaylist_mediaSequence, summary.base]
  constructor
  · intro numbered before line
    obtain ⟨i, segment, atIndex, index⟩ := summary.listed before line
    rw [← segments] at atIndex
    obtain ⟨bound, rfl⟩ := List.getElem?_eq_some_iff.mp atIndex
    have stored := numbered i bound
    rw [index, base] at stored
    exact (UInt64.add_left_inj _).mp stored
  · intro settled i bound
    have atIndex : ctx.playlist.segments[i]? = some playlist.segments[i] := by
      rw [← segments]
      exact List.getElem?_eq_getElem bound
    obtain ⟨before, line, index⟩ := summary.numbered i _ atIndex
    rw [index, settled before line, base]

/-- A base tag in front of the first segment, repeated after it with the same value. -/
def repeatedBase : Text :=
  text "#EXTM3U\n#EXT-X-MEDIA-SEQUENCE:5\n#EXTINF:1,\na\n#EXT-X-MEDIA-SEQUENCE:5\n#EXTINF:1,\nb"

theorem sequenceNumbered_repeatedBase :
    ∃ playlist, parse CxxStd.plain repeatedBase = .ok playlist ∧
      playlist.segments.map (·.sequenceIndex) = [5, 6] ∧
      (playlist.SequenceNumbered ↔ BaseSettled (bodyLines repeatedBase)) := by
  obtain ⟨playlist, accepted, indices⟩ := parse_of_test CxxStd.plain repeatedBase
    (fun playlist => playlist.segments.map (·.sequenceIndex)) [5, 6] (by decide +kernel)
  exact ⟨playlist, accepted, indices, sequenceNumbered_iff_baseSettled accepted⟩

/-- A base tag between two segments: the first one keeps the index 0. -/
def lateBase : Text :=
  text "#EXTM3U\n#EXTINF:1,\na\n#EXT-X-MEDIA-SEQUENCE:5\n#EXTINF:1,\nb"

theorem not_sequenceNumbered_lateBase :
    ∃ playlist, parse CxxStd.plain lateBase = .ok playlist ∧ ¬ playlist.SequenceNumbered := by
  obtain ⟨playlist, accepted, indices⟩ := parse_of_test CxxStd.plain lateBase
    (fun playlist => (playlist.mediaSequence, playlist.segments.map (·.sequenceIndex))) (5, [0, 6])
    (by decide +kernel)
  refine ⟨playlist, accepted, fun numbered => ?_⟩
  obtain ⟨base, indices⟩ := Prod.mk.inj indices
  have first : (playlist.segments.map (·.sequenceIndex))[0]? = some 0 := by rw [indices]; rfl
  rw [List.getElem?_map, Option.map_eq_some_iff] at first
  obtain ⟨segment, atIndex, index⟩ := first
  obtain ⟨bound, rfl⟩ := List.getElem?_eq_some_iff.mp atIndex
  have stored := numbered 0 bound
  rw [index, base] at stored
  exact absurd stored (by decide)

end Iptv.Manifest
