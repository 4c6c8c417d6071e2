import Iptv.Manifest.LineEffects

namespace Iptv.Manifest
variable {Double : Type}

/-- What the lines read so far say about the context: the base in force, whether
a variant waits for its URI, and one segment or variant for each URI line, a
segment numbered from the base that was in force at its line. -/
structure Summary (lines : List LineEntry) (ctx : ParseContext Double) : Prop where
  base : ctx.playlist.mediaSequence = baseAfter lines
  pending : ctx.variantBuilder.active = variantPending lines
  ended : ctx.playlist.hasEndlist = lines.any (endsList ·.text)
  type : ctx.playlist.type = .mediaVOD
  numbered : ∀ i segment, ctx.playlist.segments[i]? = some segment →
    ∃ before, UriLineAfter lines before false ∧ segment.sequenceIndex = baseAfter before + UInt64.ofNat i
  listed : ∀ before, UriLineAfter lines before false →
    ∃ i segment, ctx.playlist.segments[i]? = some segment ∧
      segment.sequenceIndex = baseAfter before + UInt64.ofNat i
  variants : ctx.playlist.variants ≠ [] ↔ ∃ before, UriLineAfter lines before true

theorem Summary.tag {lines : List LineEntry} {entry : LineEntry} {ctx ctx' : ParseContext Double}
    (summary : Summary lines ctx) (kind : isUri entry.text = false) (effect : TagEffect entry.text ctx ctx') :
    Summary (lines ++ [entry]) ctx' := by
  have same : ∀ before variant,
      UriLineAfter (lines ++ [entry]) before variant ↔ UriLineAfter lines before variant := by
    intro before variant
    simp [uriLineAfter_append, kind]
  constructor
  · rw [effect.mediaSequence, summary.base, baseAfter_append]
  · rw [effect.pending, summary.pending, variantPending_append, kind]
    simp
  · rw [effect.hasEndlist, summary.ended]
    simp
  · exact effect.type summary.type
  · simpa only [same, effect.segments] using summary.numbered
  · simpa only [same, effect.segments] using summary.listed
  · simpa only [same, effect.variants] using summary.variants

theorem finalizePlaylist_segments (lib : CxxStd Double) (playlist : Playlist Double) :
    (finalizePlaylist lib playlist).segments = playlist.segments := by
  unfold finalizePlaylist
  split
  · rfl
  · split <;> rfl

theorem finalizePlaylist_mediaSequence (lib : CxxStd Double) (playlist : Playlist Double) :
    (finalizePlaylist lib playlist).mediaSequence = playlist.mediaSequence := by
  unfold finalizePlaylist
  split
  · rfl
  · split <;> rfl

variable [Zero Double]

theorem summary_initial : Summary [] (ParseContext.initial : ParseContext Double) where
  base := rfl
  pending := rfl
  ended := rfl
  type := rfl
  numbered i segment atIndex := by simp [ParseContext.initial] at atIndex
  listed before line := absurd line uriLineAfter_nil
  variants := by simp [ParseContext.initial, uriLineAfter_nil]

theorem Summary.step {lib : CxxStd Double} {lines : List LineEntry} {entry : LineEntry}
    {ctx ctx' : ParseContext Double} (summary : Summary lines ctx)
    (run : parseLine lib entry ctx = .ok ctx') : Summary (lines ++ [entry]) ctx' := by
  cases parseLine_effect run with
  | tag kind effect => exact summary.tag kind effect
  | variant kind pending same =>
    subst same
    have waiting : variantPending lines = true := by rw [← summary.pending, pending]
    have noTag : sequenceAfter (baseAfter lines) entry.text = baseAfter lines := sequenceAfter_uri kind
    have noEnd : endsList entry.text = false := endsList_uri kind
    constructor
    · rw [baseAfter_append, noTag, ← summary.base]
    · rw [variantPending_append, kind]
      rfl
    · simp [summary.ended, noEnd]
    · exact summary.type
    · intro i segment atIndex
      obtain ⟨before, line, index⟩ := summary.numbered i segment atIndex
      exact ⟨before, uriLineAfter_append.mpr (.inl line), index⟩
    · intro before line
      rcases uriLineAfter_append.mp line with old | ⟨_, _, new⟩
      · exact summary.listed before old
      · simp [waiting] at new
    · exact ⟨fun _ => ⟨lines, uriLineAfter_append.mpr (.inr ⟨rfl, kind, waiting⟩)⟩, fun _ => by simp⟩
  | segment kind pending same =>
    subst same
    have free : variantPending lines = false := by rw [← summary.pending, pending]
    have noTag : sequenceAfter (baseAfter lines) entry.text = baseAfter lines := sequenceAfter_uri kind
    have noEnd : endsList entry.text = false := endsList_uri kind
    constructor
    · rw [baseAfter_append, noTag, ← summary.base]
    · rw [variantPending_append, kind]
      exact pending
    · simp [summary.ended, noEnd]
    · exact summary.type
    · intro i segment atIndex
      dsimp only at atIndex
      rcases Nat.lt_trichotomy i ctx.playlist.segments.length with old | rfl | past
      · rw [List.getElem?_append_left old] at atIndex
        obtain ⟨before, line, index⟩ := summary.numbered i segment atIndex
        exact ⟨before, uriLineAfter_append.mpr (.inl line), index⟩
      · rw [List.getElem?_concat_length] at atIndex
        cases atIndex
        exact ⟨lines, uriLineAfter_append.mpr (.inr ⟨rfl, kind, free⟩), by rw [← summary.base]⟩
      · rw [List.getElem?_eq_none (by simp; omega)] at atIndex
        simp at atIndex
    · intro before line
      rcases uriLineAfter_append.mp line with old | ⟨rfl, _, _⟩
      · obtain ⟨i, segment, atIndex, index⟩ := summary.listed before old
        have bound := (List.getElem?_eq_some_iff.mp atIndex).1
        exact ⟨i, segment, by simpa only [List.getElem?_append_left bound] using atIndex, index⟩
      · refine ⟨ctx.playlist.segments.length, _, List.getElem?_concat_length, ?_⟩
        rw [← summary.base]
    · have others : (∃ before, UriLineAfter (lines ++ [entry]) before true) ↔
          ∃ before, UriLineAfter lines before true := by simp [uriLineAfter_append, free]
      rw [others]
      exact summary.variants

theorem processLines_summary {lib : CxxStd Double} {lines : List LineEntry} {ctx : ParseContext Double}
    (run : processLines lib lines .initial = .ok ctx) : Summary lines ctx :=
  processLines_invariant summary_initial (fun _ _ _ _ summary step => summary.step step) run

/-- The lines behind the header line. -/
def bodyLines (input : Text) : List LineEntry := (manifestLines input).tail

theorem parse_body {lib : CxxStd Double} {input : Text} {playlist : Playlist Double}
    (accepted : parse lib input = .ok playlist) :
    ∃ ctx, processLines lib (bodyLines input) .initial = .ok ctx ∧
      playlist = finalizePlaylist lib ctx.playlist := by
  obtain ⟨header, rest, ctx, lines, _, processed, final⟩ := parse_ok accepted
  refine ⟨ctx, ?_, final⟩
  rw [bodyLines, lines]
  exact processed

theorem parse_summary {lib : CxxStd Double} {input : Text} {playlist : Playlist Double}
    (accepted : parse lib input = .ok playlist) :
    ∃ ctx, Summary (bodyLines input) ctx ∧ playlist = finalizePlaylist lib ctx.playlist := by
  obtain ⟨ctx, processed, final⟩ := parse_body accepted
  exact ⟨ctx, processLines_summary processed, final⟩

end Iptv.Manifest
