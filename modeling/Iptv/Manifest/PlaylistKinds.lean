import Iptv.Manifest.Summary

namespace Iptv.Manifest
variable {Double : Type}

/-- What the fields of a playlist document: the type follows from the variants
and the end tag, and segments and variants exclude each other. -/
structure Playlist.Consistent (playlist : Playlist Double) : Prop where
  master : playlist.type = .master ↔ playlist.variants ≠ []
  mediaVOD : playlist.type = .mediaVOD ↔ playlist.variants = [] ∧ playlist.hasEndlist = true
  mediaLive : playlist.type = .mediaLive ↔ playlist.variants = [] ∧ playlist.hasEndlist = false
  exclusive : ¬ (playlist.segments ≠ [] ∧ playlist.variants ≠ [])
  segmentsDocumented : playlist.segments ≠ [] → playlist.type = .mediaVOD ∨ playlist.type = .mediaLive
  variantsDocumented : playlist.variants ≠ [] → playlist.type = .master

/-- The manifest lists the URI of a segment and the URI of a variant. -/
def MixedUris (lines : List LineEntry) : Prop :=
  (∃ before, UriLineAfter lines before false) ∧ ∃ before, UriLineAfter lines before true

/-- The type that the variants and the end tag call for. -/
def Playlist.documentedType (playlist : Playlist Double) : PlaylistType :=
  if playlist.variants ≠ [] then .master
  else if playlist.hasEndlist = false then .mediaLive else .mediaVOD

theorem finalizePlaylist_variants (lib : CxxStd Double) (playlist : Playlist Double) :
    (finalizePlaylist lib playlist).variants.Perm playlist.variants := by
  unfold finalizePlaylist
  split
  · exact lib.sort_perm playlist.variants
  · split <;> exact List.Perm.refl _

/-- `finalizePlaylist` corrects the type of every playlist that the loop leaves. -/
theorem finalizePlaylist_type (lib : CxxStd Double) {playlist : Playlist Double}
    (start : playlist.type = .mediaVOD) :
    (finalizePlaylist lib playlist).type = (finalizePlaylist lib playlist).documentedType := by
  have listed := finalizePlaylist_variants lib playlist
  by_cases variants : playlist.variants = []
  · by_cases ended : playlist.hasEndlist = false <;>
      simp [finalizePlaylist, Playlist.documentedType, variants, ended, start]
  · have sorted : (finalizePlaylist lib playlist).variants ≠ [] := by
      intro empty
      rw [empty] at listed
      exact variants listed.nil_eq.symm
    rw [Playlist.documentedType, if_pos sorted]
    simp [finalizePlaylist, variants]

theorem Playlist.consistent_of_type {playlist : Playlist Double}
    (type : playlist.type = playlist.documentedType)
    (exclusive : ¬ (playlist.segments ≠ [] ∧ playlist.variants ≠ [])) : playlist.Consistent := by
  unfold documentedType at type
  by_cases none : playlist.variants = []
  · cases ended : playlist.hasEndlist <;> constructor <;> simp [type, none, ended]
  · have empty : playlist.segments = [] := by
      by_contra some
      exact exclusive ⟨some, none⟩
    constructor <;> simp [type, none, empty]

variable [Zero Double]

/-- The type alone is right for every accepted manifest, mixed or not. -/
theorem parse_type {lib : CxxStd Double} {input : Text} {playlist : Playlist Double}
    (accepted : parse lib input = .ok playlist) : playlist.type = playlist.documentedType := by
  obtain ⟨ctx, summary, rfl⟩ := parse_summary accepted
  exact finalizePlaylist_type lib summary.type

/-- An accepted playlist is consistent exactly when its manifest does not mix
the URIs of segments and variants. -/
theorem consistent_iff_unmixed {lib : CxxStd Double} {input : Text} {playlist : Playlist Double}
    (accepted : parse lib input = .ok playlist) :
    playlist.Consistent ↔ ¬ MixedUris (bodyLines input) := by
  have type := parse_type accepted
  obtain ⟨ctx, summary, rfl⟩ := parse_summary accepted
  have segments := finalizePlaylist_segments lib ctx.playlist
  have variants : (finalizePlaylist lib ctx.playlist).variants ≠ [] ↔ ctx.playlist.variants ≠ [] := by
    rw [← List.length_pos_iff, ← List.length_pos_iff, (finalizePlaylist_variants lib ctx.playlist).length_eq]
  constructor
  · rintro consistent ⟨⟨before, line⟩, variantLine⟩
    obtain ⟨i, segment, atIndex, _⟩ := summary.listed before line
    refine consistent.exclusive ⟨?_, variants.mpr (summary.variants.mpr variantLine)⟩
    rw [segments]
    intro empty
    simp [empty] at atIndex
  · intro unmixed
    refine Playlist.consistent_of_type type ?_
    rintro ⟨someSegment, someVariant⟩
    refine unmixed ⟨?_, summary.variants.mp (variants.mp someVariant)⟩
    rw [segments] at someSegment
    obtain ⟨segment, rest, list⟩ := List.exists_cons_of_ne_nil someSegment
    obtain ⟨before, line, _⟩ := summary.numbered 0 segment (by simp [list])
    exact ⟨before, line⟩

def mediaOnly : Text := text "#EXTM3U\n#EXTINF:1,\na\n#EXT-X-ENDLIST"

theorem consistent_mediaOnly :
    ∃ playlist, parse CxxStd.plain mediaOnly = .ok playlist ∧ playlist.type = .mediaVOD ∧
      (playlist.Consistent ↔ ¬ MixedUris (bodyLines mediaOnly)) := by
  obtain ⟨playlist, accepted, type⟩ := parse_of_test CxxStd.plain mediaOnly
    (fun playlist => playlist.type) .mediaVOD (by decide +kernel)
  exact ⟨playlist, accepted, type, consistent_iff_unmixed accepted⟩

def mixedManifest : Text := text "#EXTM3U\n#EXTINF:1,\na\n#EXT-X-STREAM-INF:BANDWIDTH=1\nb"

theorem not_consistent_mixedManifest :
    ∃ playlist, parse CxxStd.plain mixedManifest = .ok playlist ∧ ¬ playlist.Consistent := by
  obtain ⟨playlist, accepted, sizes⟩ := parse_of_test CxxStd.plain mixedManifest
    (fun playlist => (playlist.segments.length, playlist.variants.length)) (1, 1) (by decide +kernel)
  refine ⟨playlist, accepted, fun consistent => consistent.exclusive ?_⟩
  obtain ⟨segments, variants⟩ := Prod.mk.inj sizes
  constructor <;> rw [← List.length_pos_iff] <;> omega

end Iptv.Manifest
