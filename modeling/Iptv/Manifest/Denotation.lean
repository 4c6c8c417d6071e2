import Iptv.Manifest.OrphanUris
import Iptv.Manifest.PhysicalLines
import Iptv.Manifest.StreamSettings

namespace Iptv.Manifest
variable {Double : Type}

/-- A line of the manifest with the lines in front of it. -/
structure Place where
  before : List LineEntry
  entry : LineEntry

def places (lines : List LineEntry) : List Place :=
  lines.zipIdx.map fun line => ⟨lines.take line.2, line.1⟩

/-- The tag lines that a segment at this place is made of: those since the last URI that
was not a variant's. -/
def Place.unused (place : Place) : List Text := (reading place.before).unused

/-- The tag lines since the last URI. -/
def Place.gap (place : Place) : List Text := (reading place.before).gap

def Place.ofVariant (place : Place) : Bool := place.gap.any opensVariant

def segmentPlaces (lines : List LineEntry) : List Place :=
  (places lines).filter fun place => isUri place.entry.text && !place.ofVariant

def variantPlaces (lines : List LineEntry) : List Place :=
  (places lines).filter fun place => isUri place.entry.text && place.ofVariant

/-- The target duration that a line states. -/
def statedTarget (line : Text) : Option Nat :=
  if startsWith line (text "#EXT-X-TARGETDURATION:") then fromChars uint32Bound (line.drop 22) else none

def lastTarget (lines : List LineEntry) : Nat :=
  ((lines.filterMap fun entry => statedTarget entry.text).getLast?).getD 0

/-- What is wrong with a line: a duration that cannot be read, or a URI for which no
`#EXTINF` is left. -/
def offence (lib : CxxStd Double) (place : Place) : Option ParseError :=
  if opensSegment place.entry.text && (extInfDuration lib place.entry.text).isNone then
    some ⟨.invalidFormat, place.entry.number, "Malformed #EXTINF duration"⟩
  else if isUri place.entry.text && !place.ofVariant && !place.unused.any opensSegment then
    some ⟨.missingMandatoryTags, place.entry.number, "Segment URI without preceding #EXTINF"⟩
  else none

def firstOffence (lib : CxxStd Double) (lines : List LineEntry) : Option ParseError :=
  (places lines).findSome? (offence lib)

section
variable [Zero Double]

/-- The segment that is listed at a place, as number `index` of the playlist. -/
def Place.segment (lib : CxxStd Double) (place : Place) (index : Nat) : MediaSegmentRef Double where
  uri := place.entry.text
  duration := ((place.unused.filter opensSegment).getLast?.bind (extInfDuration lib)).getD 0
  sequenceIndex := baseAfter place.before + UInt64.ofNat index
  isDiscontinuity := place.unused.any marksDiscontinuity

/-- The variant that is listed at a place: the last readable setting of each attribute. -/
def Place.variant (lib : CxxStd Double) (place : Place) : VariantStreamRef Double :=
  { VariantStreamRef.empty.set lib ((place.gap.filter opensVariant).flatMap attributePairs) with
    uri := place.entry.text }

def listedSegments (lib : CxxStd Double) (lines : List LineEntry) : List (MediaSegmentRef Double) :=
  (segmentPlaces lines).zipIdx.map fun place => place.1.segment lib place.2

def listedVariants (lib : CxxStd Double) (lines : List LineEntry) : List (VariantStreamRef Double) :=
  (variantPlaces lines).map (·.variant lib)

/-- The playlist that the lines behind the header mean. -/
def meaning (lib : CxxStd Double) (lines : List LineEntry) : Playlist Double where
  type :=
    if listedVariants lib lines ≠ [] then .master
    else if lines.any (endsList ·.text) then .mediaVOD else .mediaLive
  targetDuration := lastTarget lines
  mediaSequence := baseAfter lines
  hasEndlist := lines.any (endsList ·.text)
  segments := listedSegments lib lines
  variants := lib.sort (listedVariants lib lines)

/-- What a manifest means, line by physical line and without a parser. -/
def denote (lib : CxxStd Double) (input : Text) : ParseResult Double :=
  if stripBom input = [] then .error ⟨.emptyContent, 0, "Manifest content is empty"⟩
  else match numbered ((physicalLines input).modifyHead stripBom) 0 with
    | [] => .error ⟨.invalidHeader, 0, "Missing #EXTM3U tag"⟩
    | header :: body =>
      if startsWith header.text (text "#EXTM3U") then
        match firstOffence lib body with
        | some error => .error error
        | none => .ok (meaning lib body)
      else .error ⟨.invalidHeader, header.number, "Missing #EXTM3U tag"⟩

end

theorem places_append (lines : List LineEntry) (entry : LineEntry) :
    places (lines ++ [entry]) = places lines ++ [⟨lines, entry⟩] := by
  unfold places
  rw [List.zipIdx_append, List.map_append]
  congr 1
  · refine List.map_congr_left fun line member => ?_
    have bound := List.snd_lt_add_of_mem_zipIdx member
    rw [List.take_append_of_le_length (by omega)]
  · simp

theorem segmentPlaces_append (lines : List LineEntry) (entry : LineEntry) :
    segmentPlaces (lines ++ [entry]) = segmentPlaces lines ++
      if isUri entry.text && !(reading lines).gap.any opensVariant then [⟨lines, entry⟩] else [] := by
  rw [segmentPlaces, places_append, List.filter_append, List.filter_cons, List.filter_nil]
  rfl

theorem variantPlaces_append (lines : List LineEntry) (entry : LineEntry) :
    variantPlaces (lines ++ [entry]) = variantPlaces lines ++
      if isUri entry.text && (reading lines).gap.any opensVariant then [⟨lines, entry⟩] else [] := by
  rw [variantPlaces, places_append, List.filter_append, List.filter_cons, List.filter_nil]
  rfl

theorem lastTarget_append (lines : List LineEntry) (entry : LineEntry) :
    lastTarget (lines ++ [entry]) = (statedTarget entry.text).getD (lastTarget lines) := by
  unfold lastTarget
  rw [List.filterMap_append]
  cases stated : statedTarget entry.text <;> simp [stated]

theorem firstOffence_append (lib : CxxStd Double) (lines : List LineEntry) (entry : LineEntry) :
    firstOffence lib (lines ++ [entry]) = (firstOffence lib lines).or (offence lib ⟨lines, entry⟩) := by
  rw [firstOffence, places_append, List.findSome?_append, List.findSome?_cons]
  cases offence lib ⟨lines, entry⟩ <;> rfl

/-- Only its own tag touches the target duration. -/
theorem dispatchTag_target {lib : CxxStd Double} {line : Text} {ctx ctx' : ParseContext Double}
    (run : dispatchTag lib line ctx = .ok ctx') :
    ctx'.playlist.targetDuration = (statedTarget line).getD ctx.playlist.targetDuration := by
  have other {tag : Text} (starts : startsWith line tag = true)
      (apart : startsWith tag (text "#EXT-X-TARGETDURATION:") = false ∧
        startsWith (text "#EXT-X-TARGETDURATION:") tag = false) : statedTarget line = none := by
    rw [statedTarget, startsWith_apart starts _ apart, if_neg Bool.false_ne_true]
  cases dispatchTag_cases run with
  | extInf starts run =>
    rw [other starts (by decide)]
    unfold handleExtInf at run
    cases parsed : parseExtInf lib line ctx.lineNum ctx.segmentBuilder with
    | error _ => simp [parsed, Except.map] at run
    | ok builder =>
      simp only [parsed, Except.map, Except.ok.injEq] at run
      rw [← run]
      rfl
  | targetDuration starts run =>
    rw [statedTarget, if_pos starts]
    unfold handleTargetDuration at run
    split at run <;> rename_i read <;> cases run <;> rw [read] <;> rfl
  | mediaSequence starts run =>
    rw [other starts (by decide)]
    unfold handleMediaSequence at run
    split at run <;> cases run <;> rfl
  | endList starts run | discontinuity starts run | streamInf starts run =>
    rw [other starts (by decide)]
    cases run
    rfl
  | unknown plain run =>
    have entryOf : (text "#EXT-X-TARGETDURATION:", handleTargetDuration) ∈ tagDispatchTable lib := by
      simp [tagDispatchTable]
    rw [statedTarget, plain _ entryOf, if_neg Bool.false_ne_true]
    cases run
    rfl

variable [Zero Double] {lib : CxxStd Double} {lines : List LineEntry} {entry : LineEntry}
  {ctx ctx' : ParseContext Double}

/-- The lists of the context, and the target duration, as the lines read so far state them. -/
structure Denoted (lib : CxxStd Double) (lines : List LineEntry) (ctx : ParseContext Double) : Prop where
  segments : ctx.playlist.segments = listedSegments lib lines
  variants : ctx.playlist.variants = listedVariants lib lines
  target : ctx.playlist.targetDuration = lastTarget lines

theorem listedSegments_append (lib : CxxStd Double) (lines : List LineEntry) (entry : LineEntry) :
    listedSegments lib (lines ++ [entry]) = listedSegments lib lines ++
      if isUri entry.text && !(reading lines).gap.any opensVariant then
        [Place.segment lib ⟨lines, entry⟩ (listedSegments lib lines).length]
      else [] := by
  have length : (listedSegments lib lines).length = (segmentPlaces lines).length := by simp [listedSegments]
  rw [length, listedSegments, segmentPlaces_append, List.zipIdx_append, List.map_append, Nat.zero_add]
  congr 1
  split <;> rfl

theorem listedVariants_append (lib : CxxStd Double) (lines : List LineEntry) (entry : LineEntry) :
    listedVariants lib (lines ++ [entry]) = listedVariants lib lines ++
      if isUri entry.text && (reading lines).gap.any opensVariant then [Place.variant lib ⟨lines, entry⟩] else [] := by
  rw [listedVariants, variantPlaces_append, List.map_append]
  congr 1
  split <;> rfl

/-- What the segment builder holds is what the lines in front of the URI state. -/
theorem Builders.segment (builders : Builders lib (reading lines) ctx) (summary : Summary lines ctx)
    (armed : ctx.segmentBuilder.active = true) (index : Nat) :
    Place.segment lib ⟨lines, entry⟩ index =
      { uri := entry.text
        duration := ctx.segmentBuilder.duration
        sequenceIndex := ctx.playlist.mediaSequence + UInt64.ofNat index
        isDiscontinuity := ctx.segmentBuilder.discontinuity } := by
  have opened : (reading lines).unused.any opensSegment = true := builders.armed ▸ armed
  have some : (reading lines).unused.filter opensSegment ≠ [] := by simpa using opened
  obtain ⟨front, line, list⟩ := List.eq_nil_or_concat' ((reading lines).unused.filter opensSegment) |>.resolve_left some
  have timed := builders.timed line (by simp [list])
  simp [Place.segment, Place.unused, list, timed, summary.base, builders.marked]

theorem Builders.listedVariant (builders : Builders lib (reading lines) ctx) :
    ({ ctx.variantBuilder.variant with uri := entry.text } : VariantStreamRef Double) =
      Place.variant lib ⟨lines, entry⟩ := by
  rw [builders.streamed, Manifest.streamed, streamInfs_set]
  rfl

theorem Denoted.step (old : Denoted lib lines ctx) (builders : Builders lib (reading lines) ctx)
    (summary : Summary lines ctx) (run : parseLine lib entry ctx = .ok ctx') :
    Denoted lib (lines ++ [entry]) ctx' := by
  have plain (kind : isUri entry.text = true) : statedTarget entry.text = none := by
    rw [statedTarget, isUri_plain kind _ (by decide), if_neg Bool.false_ne_true]
  cases parseLine_effect run with
  | tag kind effect =>
    have target : ctx'.playlist.targetDuration = (statedTarget entry.text).getD ctx.playlist.targetDuration := by
      have tag : startsWith entry.text (text "#") = true := by simpa [isUri] using kind
      simp only [parseLine, tag, if_true] at run
      have stated := dispatchTag_target run
      exact stated
    constructor
    · rw [effect.segments, old.segments, listedSegments_append, kind]
      simp
    · rw [effect.variants, old.variants, listedVariants_append, kind]
      simp
    · rw [target, old.target, lastTarget_append]
  | variant kind pending same =>
    have streams : (reading lines).gap.any opensVariant = true := by rw [← builders.pending, pending]
    subst same
    constructor
    · rw [listedSegments_append, kind, streams]
      simpa using old.segments
    · rw [listedVariants_append, kind, streams, ← old.variants, ← builders.listedVariant]
      rfl
    · rw [lastTarget_append, plain kind]
      exact old.target
  | segment kind pending same =>
    have streams : (reading lines).gap.any opensVariant = false := by rw [← builders.pending, pending]
    have armed : ctx.segmentBuilder.active = true := by simpa [pending] using parseLine_uri kind run
    subst same
    constructor
    · rw [listedSegments_append, kind, streams, ← old.segments, builders.segment summary armed]
      rfl
    · rw [listedVariants_append, kind, streams]
      simpa using old.variants
    · rw [lastTarget_append, plain kind]
      exact old.target

/-- An offending line ends the loop with its error. -/
theorem parseLine_offence {error : ParseError} (builders : Builders lib (reading lines) ctx)
    (found : offence lib ⟨lines, entry⟩ = some error) : parseLine lib entry ctx = .error error := by
  unfold offence at found
  split at found
  · rename_i unreadable
    obtain ⟨opens, unread⟩ := Bool.and_eq_true_iff.mp unreadable
    cases found
    have entryOf : (text "#EXTINF:", handleExtInf lib) ∈ tagDispatchTable lib := by simp [tagDispatchTable]
    have tag : startsWith entry.text (text "#") = true :=
      startsWith_iff.mpr ((startsWith_iff.mp (by decide)).trans (startsWith_iff.mp opens))
    simp only [parseLine, tag, if_true, dispatchTag_of_mem entryOf opens, handleExtInf, parseExtInf_eq]
    rw [Option.isNone_iff_eq_none.mp unread]
    rfl
  · split at found <;> cases found
    rename_i orphan
    simp only [Bool.and_eq_true, Bool.not_eq_true'] at orphan
    obtain ⟨⟨kind, variant⟩, unarmed⟩ := orphan
    have uri : startsWith entry.text (text "#") = false := by simpa [isUri] using kind
    have waiting : ctx.variantBuilder.active = false := builders.pending.trans variant
    have empty : ctx.segmentBuilder.active = false := builders.armed.trans unarmed
    simp [parseLine, uri, parseUriLine, commitSegment, waiting, empty]

theorem parseLine_inoffensive (builders : Builders lib (reading lines) ctx)
    (clean : offence lib ⟨lines, entry⟩ = none) : ∃ next, parseLine lib entry ctx = .ok next := by
  unfold offence at clean
  split at clean
  · cases clean
  · rename_i readable
    split at clean
    · cases clean
    · rename_i armed
      refine parseLine_accepts (fun kind => ?_) fun opens => ?_
      · rw [builders.pending, builders.armed]
        by_contra unarmed
        obtain ⟨variant, segment⟩ := not_or.mp unarmed
        refine armed ?_
        simp only [kind, Place.ofVariant, Place.gap, Place.unused, Bool.true_and]
        simp [variant, segment]
      · intro unread
        exact readable (by simp [show opensSegment entry.text = true from opens, unread])

theorem processLines_denotes (lib : CxxStd Double) (lines : List LineEntry) :
    match firstOffence lib lines with
    | some error => processLines lib lines .initial = .error error
    | none => ∃ ctx, processLines lib lines .initial = .ok ctx ∧ Denoted lib lines ctx := by
  induction lines using List.reverseRecOn with
  | nil => exact ⟨_, rfl, rfl, rfl, rfl⟩
  | append_singleton lines entry ih =>
    rw [firstOffence_append]
    cases earlier : firstOffence lib lines with
    | some error =>
      rw [earlier] at ih
      have failed : processLines lib lines .initial = .error error := ih
      rw [Option.some_or]
      dsimp only
      rw [processLines_bind, failed]
      rfl
    | none =>
      rw [earlier] at ih
      obtain ⟨ctx, run, denoted⟩ := ih
      have builders := processLines_builders run
      rw [Option.none_or]
      cases here : offence lib ⟨lines, entry⟩ with
      | some error =>
        dsimp only
        rw [processLines_bind, run]
        simp only [Except.bind, processLines, parseLine_offence builders here]
      | none =>
        obtain ⟨next, step⟩ := parseLine_inoffensive builders here
        refine ⟨next, ?_, denoted.step builders (processLines_summary run) step⟩
        rw [processLines_bind, run]
        simp only [Except.bind, processLines, step]

theorem finalizePlaylist_denoted (summary : Summary lines ctx) (denoted : Denoted lib lines ctx) :
    finalizePlaylist lib ctx.playlist = meaning lib lines := by
  have type := summary.type
  have ended := summary.ended
  have base := summary.base
  have none : lib.sort [] = [] := List.perm_nil.mp (lib.sort_perm [])
  obtain ⟨segments, variants, target⟩ := denoted
  unfold finalizePlaylist meaning
  rw [← segments, ← variants, ← target, ← ended, ← base]
  by_cases listed : ctx.playlist.variants = []
  · rw [if_neg (not_not.mpr listed), if_neg (not_not.mpr listed), listed, none]
    cases complete : ctx.playlist.hasEndlist with
    | false => simp [← listed]
    | true => simp [← listed, ← type, ← complete]
  · rw [if_pos listed, if_pos listed]

/-- The parser computes the meaning of the manifest: its cursor, its dispatch table and its
builders find, line after line, what the physical lines state, and the error of the first
line that offends. -/
theorem parse_denotes (lib : CxxStd Double) (input : Text) : parse lib input = denote lib input := by
  rw [parse_eq, denote, manifestLines_physical]
  split
  · rfl
  · cases numbered ((physicalLines input).modifyHead stripBom) 0 with
    | nil => rfl
    | cons header body =>
      dsimp only
      split
      · have denotes := processLines_denotes lib body
        cases first : firstOffence lib body with
        | some error =>
          rw [first] at denotes
          have failed : processLines lib body .initial = .error error := denotes
          rw [failed]
          rfl
        | none =>
          rw [first] at denotes
          obtain ⟨ctx, run, denoted⟩ := denotes
          rw [run]
          dsimp only [Except.map]
          rw [finalizePlaylist_denoted (processLines_summary run) denoted]
      · rfl

end Iptv.Manifest
