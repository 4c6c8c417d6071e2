import Iptv.Manifest.Summary

namespace Iptv.Manifest
variable {Double : Type}

def opensSegment (line : Text) : Bool := startsWith line (text "#EXTINF:")

def marksDiscontinuity (line : Text) : Bool := startsWith line (text "#EXT-X-DISCONTINUITY")

/-- The duration that a line states behind `#EXTINF:`. -/
def extInfDuration (lib : CxxStd Double) (line : Text) : Option Double :=
  let rest := line.drop 8
  lib.fromCharsDouble (match find rest comma 0 with
    | none => rest
    | some commaPos => rest.take commaPos)

theorem parseExtInf_eq (lib : CxxStd Double) (line : Text) (lineNum : UInt32) (builder : SegmentBuilder Double) :
    parseExtInf lib line lineNum builder =
      match extInfDuration lib line with
      | none => .error ⟨.invalidFormat, lineNum, "Malformed #EXTINF duration"⟩
      | some durSec => .ok { builder with duration := durSec, active := true } := rfl

/-- A URI line with the tag lines since the previous URI line, and with those
since the last URI line that did not belong to a variant. -/
structure UriBlock where
  gap : List Text
  unused : List Text
  uri : Text
  deriving DecidableEq

def UriBlock.ofVariant (block : UriBlock) : Bool := block.gap.any opensVariant

/-- The lines read so far, cut at the URI lines. -/
structure Reading where
  blocks : List UriBlock := []
  gap : List Text := []
  unused : List Text := []

def Reading.next (reading : Reading) (line : Text) : Reading :=
  if isUri line then
    { blocks := reading.blocks ++ [⟨reading.gap, reading.unused, line⟩]
      gap := []
      unused := if reading.gap.any opensVariant then reading.unused else [] }
  else { reading with gap := reading.gap ++ [line], unused := reading.unused ++ [line] }

def reading (lines : List LineEntry) : Reading := lines.foldl (fun read entry => read.next entry.text) {}

def uriBlocks (lines : List LineEntry) : List UriBlock := (reading lines).blocks

theorem reading_append (lines : List LineEntry) (entry : LineEntry) :
    reading (lines ++ [entry]) = (reading lines).next entry.text := by
  simp [reading]

theorem Reading.next_uri {read : Reading} {line : Text} (kind : isUri line = true) :
    read.next line =
      { blocks := read.blocks ++ [⟨read.gap, read.unused, line⟩]
        gap := []
        unused := if read.gap.any opensVariant then read.unused else [] } := by
  rw [next, if_pos kind]

theorem Reading.next_tag {read : Reading} {line : Text} (kind : isUri line = false) :
    read.next line = { read with gap := read.gap ++ [line], unused := read.unused ++ [line] } := by
  rw [next, kind, if_neg Bool.false_ne_true]

/-- What was read since the last URI line is the end of what no segment has used. -/
theorem reading_gap_suffix (lines : List LineEntry) : (reading lines).gap <:+ (reading lines).unused := by
  induction lines using List.reverseRecOn with
  | nil => exact List.suffix_rfl
  | append_singleton lines entry ih =>
    rw [reading_append]
    by_cases kind : isUri entry.text = true
    · rw [Reading.next_uri kind]
      exact List.nil_suffix
    · rw [Reading.next_tag (by simpa using kind)]
      exact List.suffix_append_self_iff.mpr ih

theorem uriBlocks_gap_suffix {lines : List LineEntry} {block : UriBlock} (member : block ∈ uriBlocks lines) :
    block.gap <:+ block.unused := by
  induction lines using List.reverseRecOn with
  | nil => cases member
  | append_singleton lines entry ih =>
    rw [uriBlocks, reading_append] at member
    by_cases kind : isUri entry.text = true
    · rw [Reading.next_uri kind] at member
      rcases List.mem_append.mp member with old | new
      · exact ih old
      · obtain rfl := List.mem_singleton.mp new
        exact reading_gap_suffix lines
    · rw [Reading.next_tag (by simpa using kind)] at member
      exact ih member

/-- The stream tag `line`, read while `variant` is pending. -/
def streamInf (lib : CxxStd Double) (variant : VariantStreamRef Double) (line : Text) : VariantStreamRef Double :=
  (applyStreamInfAttributes lib (line.drop 18) ⟨true, variant⟩).variant

/-- What a tag line does to the two builders. -/
structure BuilderEffect (lib : CxxStd Double) (line : Text) (ctx ctx' : ParseContext Double) : Prop where
  armed : ctx'.segmentBuilder.active = (ctx.segmentBuilder.active || opensSegment line)
  timed : opensSegment line = true → extInfDuration lib line = some ctx'.segmentBuilder.duration
  kept : opensSegment line = false → ctx'.segmentBuilder.duration = ctx.segmentBuilder.duration
  marked : ctx'.segmentBuilder.discontinuity = (ctx.segmentBuilder.discontinuity || marksDiscontinuity line)
  variant : ctx'.variantBuilder.variant =
    if opensVariant line then streamInf lib ctx.variantBuilder.variant line else ctx.variantBuilder.variant

theorem BuilderEffect.other {lib : CxxStd Double} {line : Text} {ctx ctx' : ParseContext Double}
    (plain : opensSegment line = false ∧ marksDiscontinuity line = false ∧ opensVariant line = false)
    (segment : ctx'.segmentBuilder = ctx.segmentBuilder) (variant : ctx'.variantBuilder = ctx.variantBuilder) :
    BuilderEffect lib line ctx ctx' := by
  obtain ⟨opens, marks, streams⟩ := plain
  constructor <;> simp [segment, variant, opens, marks, streams]

/-- The tags that the builders look at exclude each other and the rest of the table. -/
theorem plain_of_tag {line tag : Text} (starts : startsWith line tag = true)
    (apart : ∀ other ∈ [text "#EXTINF:", text "#EXT-X-DISCONTINUITY", text "#EXT-X-STREAM-INF:"],
      startsWith tag other = false ∧ startsWith other tag = false) :
    opensSegment line = false ∧ marksDiscontinuity line = false ∧ opensVariant line = false :=
  ⟨startsWith_apart starts _ (apart _ (by simp)), startsWith_apart starts _ (apart _ (by simp)),
    startsWith_apart starts _ (apart _ (by simp))⟩

theorem handleExtInf_builders {lib : CxxStd Double} {line : Text} {ctx ctx' : ParseContext Double}
    (starts : startsWith line (text "#EXTINF:") = true) (run : handleExtInf lib line ctx = .ok ctx') :
    BuilderEffect lib line ctx ctx' := by
  have marks : marksDiscontinuity line = false := startsWith_apart starts _ (by decide)
  have streams : opensVariant line = false := startsWith_apart starts _ (by decide)
  have opens : opensSegment line = true := starts
  rw [handleExtInf, parseExtInf_eq] at run
  cases parsed : extInfDuration lib line with
  | none => simp [parsed, Except.map] at run
  | some duration =>
    simp only [parsed, Except.map, Except.ok.injEq] at run
    subst run
    exact ⟨by simp [opens], fun _ => parsed, by simp [opens], by simp [marks], by simp [streams]⟩

theorem handleDiscontinuity_builders {lib : CxxStd Double} {line : Text} {ctx ctx' : ParseContext Double}
    (starts : startsWith line (text "#EXT-X-DISCONTINUITY") = true)
    (run : handleDiscontinuity line ctx = .ok ctx') : BuilderEffect lib line ctx ctx' := by
  have opens : opensSegment line = false := startsWith_apart starts _ (by decide)
  have marks : marksDiscontinuity line = true := starts
  have streams : opensVariant line = false := startsWith_apart starts _ (by decide)
  cases run
  exact ⟨by simp [opens], by simp [opens], fun _ => rfl, by simp [marks], by simp [streams]⟩

theorem handleStreamInf_builders {lib : CxxStd Double} {line : Text} {ctx ctx' : ParseContext Double}
    (starts : startsWith line (text "#EXT-X-STREAM-INF:") = true)
    (run : handleStreamInf lib line ctx = .ok ctx') : BuilderEffect lib line ctx ctx' := by
  have opens : opensSegment line = false := startsWith_apart starts _ (by decide)
  have marks : marksDiscontinuity line = false := startsWith_apart starts _ (by decide)
  have streams : opensVariant line = true := starts
  cases run
  exact ⟨by simp [opens], by simp [opens], fun _ => rfl, by simp [marks], by simp [streams, streamInf]⟩

theorem dispatchTag_builders {lib : CxxStd Double} {line : Text} {ctx ctx' : ParseContext Double}
    (run : dispatchTag lib line ctx = .ok ctx') : BuilderEffect lib line ctx ctx' := by
  cases dispatchTag_cases run with
  | extInf starts run => exact handleExtInf_builders starts run
  | targetDuration starts run =>
    have plain := plain_of_tag starts (by decide)
    unfold handleTargetDuration at run
    split at run <;> cases run <;> exact .other plain rfl rfl
  | mediaSequence starts run =>
    have plain := plain_of_tag starts (by decide)
    unfold handleMediaSequence at run
    split at run <;> cases run <;> exact .other plain rfl rfl
  | endList starts run =>
    cases run
    exact .other (plain_of_tag starts (by decide)) rfl rfl
  | discontinuity starts run => exact handleDiscontinuity_builders starts run
  | streamInf starts run => exact handleStreamInf_builders starts run
  | unknown plain run =>
    cases run
    simp only [tagDispatchTable, List.forall_mem_cons] at plain
    obtain ⟨opens, _, _, _, marks, streams, _⟩ := plain
    exact .other ⟨opens, marks, streams⟩ rfl rfl

variable [Zero Double]

/-- What the attribute lists in a gap make of a variant that starts out empty. -/
def streamed (lib : CxxStd Double) (gap : List Text) : VariantStreamRef Double :=
  (gap.filter opensVariant).foldl (streamInf lib) .empty

/-- A segment takes its data from the lines that no segment had used before. -/
structure SegmentFrom (lib : CxxStd Double) (block : UriBlock) (segment : MediaSegmentRef Double) : Prop where
  uri : segment.uri = block.uri
  armed : block.unused.any opensSegment = true
  timed : ∀ line ∈ (block.unused.filter opensSegment).getLast?, extInfDuration lib line = some segment.duration
  marked : segment.isDiscontinuity = block.unused.any marksDiscontinuity

def UriBlock.variant (lib : CxxStd Double) (block : UriBlock) : VariantStreamRef Double :=
  { streamed lib block.gap with uri := block.uri }

/-- What the builders and the lists of the context hold behind the lines read so far. -/
structure Builders (lib : CxxStd Double) (read : Reading) (ctx : ParseContext Double) : Prop where
  armed : ctx.segmentBuilder.active = read.unused.any opensSegment
  timed : ∀ line ∈ (read.unused.filter opensSegment).getLast?,
    extInfDuration lib line = some ctx.segmentBuilder.duration
  marked : ctx.segmentBuilder.discontinuity = read.unused.any marksDiscontinuity
  pending : ctx.variantBuilder.active = read.gap.any opensVariant
  streamed : ctx.variantBuilder.variant = streamed lib read.gap
  segments : List.Forall₂ (SegmentFrom lib) (read.blocks.filter (!·.ofVariant)) ctx.playlist.segments
  variants : ctx.playlist.variants = (read.blocks.filter (·.ofVariant)).map (·.variant lib)

theorem builders_initial (lib : CxxStd Double) : Builders lib {} .initial where
  armed := rfl
  timed := by simp
  marked := rfl
  pending := rfl
  streamed := rfl
  segments := .nil
  variants := rfl

theorem parseLine_tag {lib : CxxStd Double} {entry : LineEntry} {ctx ctx' : ParseContext Double}
    (kind : isUri entry.text = false) (run : parseLine lib entry ctx = .ok ctx') :
    BuilderEffect lib entry.text ctx ctx' := by
  have tag : startsWith entry.text (text "#") = true := by simpa [isUri] using kind
  simp only [parseLine, tag, if_true] at run
  obtain ⟨armed, timed, kept, marked, variant⟩ := dispatchTag_builders run
  exact ⟨armed, timed, kept, marked, variant⟩

theorem Builders.tag {lib : CxxStd Double} {read : Reading} {line : Text} {ctx ctx' : ParseContext Double}
    (builders : Builders lib read ctx) (kind : isUri line = false) (effect : TagEffect line ctx ctx')
    (builder : BuilderEffect lib line ctx ctx') : Builders lib (read.next line) ctx' := by
  rw [Reading.next_tag kind]
  constructor
  · simp [builder.armed, builders.armed]
  · cases opens : opensSegment line with
    | true => simpa [opens] using builder.timed opens
    | false =>
      rw [builder.kept opens]
      simpa [opens] using builders.timed
  · simp [builder.marked, builders.marked]
  · simp [effect.pending, builders.pending]
  · rw [builder.variant, builders.streamed]
    cases streams : opensVariant line with
    | true => simp [Manifest.streamed, streams]
    | false => simp [Manifest.streamed, streams]
  · rw [effect.segments]
    exact builders.segments
  · rw [effect.variants]
    exact builders.variants

/-- A URI line that is accepted finds one of the builders armed. -/
theorem parseLine_uri {lib : CxxStd Double} {entry : LineEntry} {ctx ctx' : ParseContext Double}
    (kind : isUri entry.text = true) (run : parseLine lib entry ctx = .ok ctx') :
    ctx.variantBuilder.active = true ∨ ctx.segmentBuilder.active = true := by
  have uri : startsWith entry.text (text "#") = false := by simpa [isUri] using kind
  simp only [parseLine, uri, Bool.false_eq_true, if_false, parseUriLine, commitSegment] at run
  by_contra unarmed
  simp only [not_or, Bool.not_eq_true] at unarmed
  simp [unarmed] at run

theorem Builders.step {lib : CxxStd Double} {read : Reading} {entry : LineEntry} {ctx ctx' : ParseContext Double}
    (builders : Builders lib read ctx) (run : parseLine lib entry ctx = .ok ctx') :
    Builders lib (read.next entry.text) ctx' := by
  cases parseLine_effect run with
  | tag kind effect => exact builders.tag kind effect (parseLine_tag kind run)
  | variant kind pending same =>
    have streams : read.gap.any opensVariant = true := by rw [← builders.pending, pending]
    subst same
    rw [Reading.next_uri kind, streams, if_pos rfl]
    constructor
    · exact builders.armed
    · exact builders.timed
    · exact builders.marked
    · rfl
    · rfl
    · simpa [UriBlock.ofVariant, streams] using builders.segments
    · simp [UriBlock.ofVariant, UriBlock.variant, streams, builders.variants, builders.streamed]
  | segment kind pending same =>
    have streams : read.gap.any opensVariant = false := by rw [← builders.pending, pending]
    have armed : ctx.segmentBuilder.active = true := by
      simpa [pending] using parseLine_uri kind run
    have plain : read.gap.filter opensVariant = [] := by simpa using streams
    subst same
    rw [Reading.next_uri kind, streams, if_neg Bool.false_ne_true]
    constructor
    · rfl
    · simp
    · rfl
    · exact pending
    · rw [builders.streamed, Manifest.streamed, plain]
      rfl
    · have last : SegmentFrom lib ⟨read.gap, read.unused, entry.text⟩
          ⟨entry.text, ctx.segmentBuilder.duration,
            ctx.playlist.mediaSequence + UInt64.ofNat ctx.playlist.segments.length,
            ctx.segmentBuilder.discontinuity⟩ :=
        ⟨rfl, by rw [← builders.armed, armed], builders.timed, builders.marked⟩
      simpa [UriBlock.ofVariant, streams] using List.rel_append builders.segments (.cons last .nil)
    · simpa [UriBlock.ofVariant, streams] using builders.variants

theorem processLines_builders {lib : CxxStd Double} {lines : List LineEntry} {ctx : ParseContext Double}
    (run : processLines lib lines .initial = .ok ctx) : Builders lib (reading lines) ctx := by
  refine processLines_invariant (P := fun lines ctx => Builders lib (reading lines) ctx)
    (builders_initial lib) ?_ run
  intro lines entry before after builders step
  rw [reading_append]
  exact builders.step step

theorem parse_builders {lib : CxxStd Double} {input : Text} {playlist : Playlist Double}
    (accepted : parse lib input = .ok playlist) :
    ∃ ctx, Builders lib (reading (bodyLines input)) ctx ∧ playlist = finalizePlaylist lib ctx.playlist := by
  obtain ⟨ctx, processed, final⟩ := parse_body accepted
  exact ⟨ctx, processLines_builders processed, final⟩

/-- The segments of an accepted playlist, one for each URI line that no variant claims. -/
theorem parse_segments {lib : CxxStd Double} {input : Text} {playlist : Playlist Double}
    (accepted : parse lib input = .ok playlist) :
    List.Forall₂ (SegmentFrom lib) ((uriBlocks (bodyLines input)).filter (!·.ofVariant)) playlist.segments := by
  obtain ⟨ctx, builders, rfl⟩ := parse_builders accepted
  rw [finalizePlaylist_segments]
  exact builders.segments

end Iptv.Manifest
