import Iptv.Manifest.RenderedLines

namespace Iptv.Manifest
variable {Double : Type}

/-- A segment as a writer states it, together with what makes its two lines readable. -/
structure SegmentSource (lib : CxxStd Double) where
  uri : Text
  durationText : Text
  duration : Double
  discontinuity : Bool
  uri_ne_nil : uri ≠ []
  uri_line : newline ∉ uri
  uri_plain : startsWith uri (text "#") = false
  uri_trim : trim uri = uri
  duration_line : newline ∉ durationText
  duration_comma : comma ∉ durationText
  duration_trim : trim durationText = durationText
  duration_value : lib.fromCharsDouble durationText = some duration

structure MediaSource (lib : CxxStd Double) where
  targetDuration : UInt32
  mediaSequence : UInt64
  hasEndlist : Bool
  segments : List (SegmentSource lib)

variable {lib : CxxStd Double}

def SegmentSource.lines (segment : SegmentSource lib) : List Text :=
  (if segment.discontinuity then [text "#EXT-X-DISCONTINUITY"] else []) ++
    [text "#EXTINF:" ++ segment.durationText, segment.uri]

def MediaSource.bodyLines (source : MediaSource lib) : List Text :=
  [text "#EXT-X-TARGETDURATION:" ++ decimal source.targetDuration.toNat,
    text "#EXT-X-MEDIA-SEQUENCE:" ++ decimal source.mediaSequence.toNat] ++
    source.segments.flatMap SegmentSource.lines ++
    if source.hasEndlist then [text "#EXT-X-ENDLIST"] else []

/-- The manifest text; the newline of the last line is optional. -/
def MediaSource.render (source : MediaSource lib) (finalNewline : Bool) : Text :=
  [newline].intercalate
    (text "#EXTM3U" :: source.bodyLines ++ if finalNewline then [[]] else [])

def SegmentSource.ref (base : UInt64) (segment : SegmentSource lib) (i : Nat) : MediaSegmentRef Double where
  uri := segment.uri
  duration := segment.duration
  sequenceIndex := base + UInt64.ofNat i
  isDiscontinuity := segment.discontinuity

def MediaSource.playlist (source : MediaSource lib) : Playlist Double where
  type := if source.hasEndlist then .mediaVOD else .mediaLive
  targetDuration := source.targetDuration.toNat
  mediaSequence := source.mediaSequence
  hasEndlist := source.hasEndlist
  segments := source.segments.mapIdx fun i segment => segment.ref source.mediaSequence i
  variants := []

theorem SegmentSource.readable (segment : SegmentSource lib) :
    ∀ line ∈ segment.lines, ReadableLine line := by
  intro line member
  simp only [lines, List.mem_append, List.mem_cons, List.not_mem_nil, or_false] at member
  rcases member with flag | rfl | rfl
  · split at flag
    · obtain rfl := List.mem_singleton.mp flag
      exact readable_literal (by decide)
    · simp at flag
  · exact (readable_literal (by decide)).tagged segment.duration_line
      fun c last => getLast_of_trim segment.duration_trim last
  · exact ⟨segment.uri_ne_nil, segment.uri_line, segment.uri_trim⟩

theorem MediaSource.readable (source : MediaSource lib) :
    ∀ line ∈ source.bodyLines, ReadableLine line := by
  intro line member
  simp only [bodyLines, List.mem_append, List.mem_cons, List.not_mem_nil, or_false,
    List.mem_flatMap] at member
  rcases member with ((rfl | rfl) | ⟨segment, _, ofSegment⟩) | ended
  · obtain ⟨plain, stop⟩ := decimal_readable source.targetDuration.toNat
    exact (readable_literal (by decide)).tagged plain stop
  · obtain ⟨plain, stop⟩ := decimal_readable source.mediaSequence.toNat
    exact (readable_literal (by decide)).tagged plain stop
  · exact segment.readable line ofSegment
  · split at ended
    · obtain rfl := List.mem_singleton.mp ended
      exact readable_literal (by decide)
    · simp at ended

theorem MediaSource.render_lines (source : MediaSource lib) (finalNewline : Bool) :
    stripBom (source.render finalNewline) ≠ [] ∧
      (manifestLines (source.render finalNewline)).map (·.text) = text "#EXTM3U" :: source.bodyLines :=
  rendered_lines source.readable finalNewline

variable [Zero Double]

/-- The context while a media playlist is read; `flag` tells whether the next
segment is marked. -/
structure InMedia (playlist : Playlist Double) (flag : Bool) (ctx : ParseContext Double) : Prop where
  playlist : ctx.playlist = playlist
  noVariant : ctx.variantBuilder.active = false
  marked : ctx.segmentBuilder.discontinuity = flag

theorem reads_targetDuration (lib : CxxStd Double) (seconds : UInt32) (playlist : Playlist Double) :
    Reads lib [text "#EXT-X-TARGETDURATION:" ++ decimal seconds.toNat] (InMedia playlist false)
      (InMedia { playlist with targetDuration := seconds.toNat } false) := by
  refine .tag (text "#EXT-X-TARGETDURATION:", handleTargetDuration) _ (by simp [tagDispatchTable])
    fun ctx number start => ?_
  have value : (text "#EXT-X-TARGETDURATION:" ++ decimal seconds.toNat).drop 22 = decimal seconds.toNat :=
    List.drop_left' (by decide)
  have read := fromChars_decimal seconds.toNat uint32Bound seconds.toNat_lt
  simp only [handleTargetDuration, value, read]
  exact ⟨_, rfl, by rw [← start.playlist], start.noVariant, start.marked⟩

theorem reads_mediaSequence (lib : CxxStd Double) (base : UInt64) (playlist : Playlist Double) :
    Reads lib [text "#EXT-X-MEDIA-SEQUENCE:" ++ decimal base.toNat] (InMedia playlist false)
      (InMedia { playlist with mediaSequence := base } false) := by
  refine .tag (text "#EXT-X-MEDIA-SEQUENCE:", handleMediaSequence) _ (by simp [tagDispatchTable])
    fun ctx number start => ?_
  have value : (text "#EXT-X-MEDIA-SEQUENCE:" ++ decimal base.toNat).drop 22 = decimal base.toNat :=
    List.drop_left' (by decide)
  have read := fromChars_decimal base.toNat uint64Bound base.toNat_lt
  simp only [handleMediaSequence, value, read, UInt64.ofNat_toNat]
  exact ⟨_, rfl, by rw [← start.playlist], start.noVariant, start.marked⟩

theorem reads_endList (hasEndlist : Bool) (playlist : Playlist Double) (vod : playlist.type = .mediaVOD)
    (fresh : playlist.hasEndlist = false) :
    Reads lib (if hasEndlist then [text "#EXT-X-ENDLIST"] else []) (InMedia playlist false)
      (InMedia { playlist with hasEndlist } false) := by
  cases hasEndlist with
  | false =>
    have same : { playlist with hasEndlist := false } = playlist := by rw [← fresh]
    rw [same]
    exact .nil
  | true =>
    refine .tag (text "#EXT-X-ENDLIST", handleEndList) [] (by simp [tagDispatchTable])
      fun ctx number start => ⟨_, rfl, ?_, start.noVariant, start.marked⟩
    simp [start.playlist, vod]

theorem reads_discontinuity (flag : Bool) (playlist : Playlist Double) :
    Reads lib (if flag then [text "#EXT-X-DISCONTINUITY"] else []) (InMedia playlist false)
      (InMedia playlist flag) := by
  cases flag with
  | false => exact .nil
  | true =>
    exact .tag (text "#EXT-X-DISCONTINUITY", handleDiscontinuity) []
      (by simp [tagDispatchTable]) fun ctx number start => ⟨_, rfl, start.playlist, start.noVariant, rfl⟩

/-- The context in front of the URI line of a segment. -/
def Timed (playlist : Playlist Double) (segment : SegmentSource lib) (ctx : ParseContext Double) : Prop :=
  InMedia playlist segment.discontinuity ctx ∧ ctx.segmentBuilder.active = true ∧
    ctx.segmentBuilder.duration = segment.duration

theorem SegmentSource.reads_extInf (segment : SegmentSource lib) (playlist : Playlist Double) :
    Reads lib [text "#EXTINF:" ++ segment.durationText] (InMedia playlist segment.discontinuity)
      (Timed playlist segment) := by
  refine .tag (text "#EXTINF:", handleExtInf lib) _ (by simp [tagDispatchTable])
    fun ctx number start => ?_
  have value : (text "#EXTINF:" ++ segment.durationText).drop 8 = segment.durationText :=
    List.drop_left' (by decide)
  have noComma : find segment.durationText comma 0 = none :=
    find_none.mpr (by simpa using segment.duration_comma)
  simp only [handleExtInf, parseExtInf, value, noComma, segment.duration_value, Except.map]
  exact ⟨_, rfl, ⟨start.playlist, start.noVariant, start.marked⟩, rfl, rfl⟩

theorem SegmentSource.reads_uri (segment : SegmentSource lib) (playlist : Playlist Double) :
    Reads lib [segment.uri] (Timed playlist segment)
      (InMedia { playlist with
        segments := playlist.segments ++
          [segment.ref playlist.mediaSequence playlist.segments.length] } false) := by
  refine .line fun ctx number start => ?_
  obtain ⟨context, active, duration⟩ := start
  simp only [parseLine, segment.uri_plain, parseUriLine, commitSegment, context.noVariant, active]
  refine ⟨_, rfl, ?_, context.noVariant, rfl⟩
  simp [SegmentSource.ref, context.playlist, context.marked, duration]

/-- The lines of one segment: the mark when it has one, its duration, its URI. -/
theorem SegmentSource.reads (segment : SegmentSource lib) (playlist : Playlist Double) :
    Reads lib segment.lines (InMedia playlist false)
      (InMedia { playlist with
        segments := playlist.segments ++
          [segment.ref playlist.mediaSequence playlist.segments.length] } false) :=
  (reads_discontinuity segment.discontinuity playlist).append
    ((segment.reads_extInf playlist).append (segment.reads_uri playlist))

theorem reads_segments (segments : List (SegmentSource lib)) (playlist : Playlist Double) :
    Reads lib (segments.flatMap SegmentSource.lines) (InMedia playlist false)
      (InMedia { playlist with
        segments := playlist.segments ++ segments.mapIdx fun i segment =>
          segment.ref playlist.mediaSequence (playlist.segments.length + i) } false) := by
  induction segments generalizing playlist with
  | nil => simpa using Reads.nil
  | cons segment segments ih =>
    rw [List.flatMap_cons]
    have rest := (segment.reads playlist).append (ih _)
    simpa [List.mapIdx_cons, Nat.add_assoc, Nat.add_comm 1] using rest

theorem MediaSource.reads (source : MediaSource lib) :
    Reads lib source.bodyLines (InMedia {} false)
      (InMedia { source.playlist with type := .mediaVOD } false) := by
  have numbers := (reads_targetDuration lib source.targetDuration {}).append
    (reads_mediaSequence lib source.mediaSequence _)
  have segments := numbers.append (reads_segments source.segments _)
  have all := segments.append (reads_endList source.hasEndlist _ rfl rfl)
  simpa [bodyLines, playlist] using all

/-- Rendering a media playlist and parsing the text gives the playlist back. -/
theorem parse_render (source : MediaSource lib) (finalNewline : Bool) :
    parse lib (source.render finalNewline) = .ok source.playlist := by
  obtain ⟨some, lines⟩ := source.render_lines finalNewline
  have start : Reads lib source.bodyLines (· = .initial)
      (InMedia { source.playlist with type := .mediaVOD } false) := by
    intro entries ctx same initial
    subst initial
    exact source.reads entries .initial same ⟨rfl, rfl, rfl⟩
  obtain ⟨ctx, stop, run⟩ := parse_reads some lines start
  rw [run, stop.playlist]
  cases ended : source.hasEndlist <;> simp [finalizePlaylist, MediaSource.playlist, ended]

/-- A marked segment whose duration has a fraction. -/
def sampleSegment : SegmentSource CxxStd.plain where
  uri := text "v0/s0.ts"
  durationText := text "4.5"
  duration := 9 / 2
  discontinuity := true
  uri_ne_nil := by decide
  uri_line := by decide
  uri_plain := by decide
  uri_trim := by decide
  duration_line := by decide
  duration_comma := by decide
  duration_trim := by decide
  duration_value := by decide +kernel

def unmarkedSegment : SegmentSource CxxStd.plain where
  uri := text "v0/s 1.ts?a=b"
  durationText := text "5"
  duration := 5
  discontinuity := false
  uri_ne_nil := by decide
  uri_line := by decide
  uri_plain := by decide
  uri_trim := by decide
  duration_line := by decide
  duration_comma := by decide
  duration_trim := by decide
  duration_value := by decide +kernel

def markedThenUnmarked : MediaSource CxxStd.plain := ⟨5, 10, true, [sampleSegment, unmarkedSegment]⟩

example : markedThenUnmarked.render true = text ("#EXTM3U\n#EXT-X-TARGETDURATION:5\n#EXT-X-MEDIA-SEQUENCE:10\n" ++
    "#EXT-X-DISCONTINUITY\n#EXTINF:4.5\nv0/s0.ts\n#EXTINF:5\nv0/s 1.ts?a=b\n#EXT-X-ENDLIST\n") := by
  decide +kernel

theorem parse_render_markedThenUnmarked :
    parse CxxStd.plain (markedThenUnmarked.render true) = .ok
      { type := .mediaVOD
        targetDuration := 5
        mediaSequence := 10
        hasEndlist := true
        segments := [⟨text "v0/s0.ts", 9 / 2, 10, true⟩, ⟨text "v0/s 1.ts?a=b", 5, 11, false⟩]
        variants := [] } :=
  parse_render markedThenUnmarked true

end Iptv.Manifest
