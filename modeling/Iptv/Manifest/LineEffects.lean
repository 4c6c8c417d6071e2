import Iptv.Lib.Iterator
import Iptv.Manifest.M3u8Parser

namespace Iptv.Manifest
variable {Double : Type}

def isUri (line : Text) : Bool := !startsWith line (text "#")

def opensVariant (line : Text) : Bool := startsWith line (text "#EXT-X-STREAM-INF:")

def endsList (line : Text) : Bool := startsWith line (text "#EXT-X-ENDLIST")

/-- The base sequence behind a line that is read while `base` is in force. -/
def sequenceAfter (base : UInt64) (line : Text) : UInt64 :=
  if startsWith line (text "#EXT-X-MEDIA-SEQUENCE:") then
    ((fromChars uint64Bound (line.drop 22)).map UInt64.ofNat).getD base
  else base

def baseAfter (lines : List LineEntry) : UInt64 :=
  lines.foldl (fun base entry => sequenceAfter base entry.text) 0

/-- A variant waits for its URI: a stream tag came after the last URI line. -/
def variantPending (lines : List LineEntry) : Bool :=
  lines.foldl (fun pending entry => !isUri entry.text && (pending || opensVariant entry.text)) false

/-- Behind the lines `before` comes a URI line; it belongs to a variant or to a segment. -/
def UriLineAfter (lines before : List LineEntry) (variant : Bool) : Prop :=
  ∃ entry after, lines = before ++ entry :: after ∧ isUri entry.text = true ∧
    variantPending before = variant

theorem baseAfter_append (lines : List LineEntry) (entry : LineEntry) :
    baseAfter (lines ++ [entry]) = sequenceAfter (baseAfter lines) entry.text := by
  simp [baseAfter]

theorem variantPending_append (lines : List LineEntry) (entry : LineEntry) :
    variantPending (lines ++ [entry]) =
      (!isUri entry.text && (variantPending lines || opensVariant entry.text)) := by
  simp [variantPending]

theorem uriLineAfter_nil {before : List LineEntry} {variant : Bool} :
    ¬ UriLineAfter [] before variant := by
  rintro ⟨entry, after, split, _⟩
  simp at split

theorem uriLineAfter_append {lines before : List LineEntry} {entry : LineEntry} {variant : Bool} :
    UriLineAfter (lines ++ [entry]) before variant ↔
      UriLineAfter lines before variant ∨
        before = lines ∧ isUri entry.text = true ∧ variantPending lines = variant := by
  constructor
  · rintro ⟨found, after, split, uri, pending⟩
    obtain rfl | ⟨final, init, rfl⟩ := List.eq_nil_or_concat' after
    · obtain ⟨rfl, same⟩ := List.append_inj' split rfl
      cases same
      exact .inr ⟨rfl, uri, pending⟩
    · rw [← List.cons_append, ← List.append_assoc] at split
      obtain ⟨rfl, _⟩ := List.append_inj' split rfl
      exact .inl ⟨found, final, rfl, uri, pending⟩
  · rintro (⟨found, after, rfl, uri, pending⟩ | ⟨rfl, uri, pending⟩)
    · exact ⟨found, after ++ [entry], by simp, uri, pending⟩
    · exact ⟨entry, [], rfl, uri, pending⟩

theorem startsWith_apart {line one : Text} (starts : startsWith line one = true) (other : Text)
    (apart : startsWith one other = false ∧ startsWith other one = false) :
    startsWith line other = false := by
  by_contra both
  rw [Bool.not_eq_false, startsWith_iff] at both
  rw [startsWith_iff] at starts
  rcases List.prefix_or_prefix_of_prefix starts both with short | short
  · rw [← startsWith_iff] at short
    simp [short] at apart
  · rw [← startsWith_iff] at short
    simp [short] at apart

/-- No tag of the dispatch table extends another one. -/
theorem tagDispatchTable_apart (lib : CxxStd Double) : (tagDispatchTable lib).Pairwise fun a b =>
    startsWith b.1 a.1 = false ∧ startsWith a.1 b.1 = false := by
  have tags : ((tagDispatchTable lib).map (·.1)).Pairwise fun a b =>
      startsWith b a = false ∧ startsWith a b = false := by
    simp only [tagDispatchTable, List.map_cons, List.map_nil]
    decide
  exact List.pairwise_map.mp tags

/-- A line is dispatched to the handler of the tag it starts with. -/
theorem dispatchTag_of_mem {lib : CxxStd Double} {entry : Text × TagHandler Double}
    (member : entry ∈ tagDispatchTable lib) {line : Text} (starts : startsWith line entry.1 = true)
    (ctx : ParseContext Double) : dispatchTag lib line ctx = entry.2 line ctx := by
  have apart := tagDispatchTable_apart lib
  obtain ⟨before, after, table⟩ := List.append_of_mem member
  have found : (tagDispatchTable lib).find? (fun entry => startsWith line entry.1) = some entry := by
    rw [List.find?_eq_some_iff_append]
    refine ⟨starts, before, after, table, fun earlier early => ?_⟩
    rw [table, List.pairwise_append] at apart
    have unfit := startsWith_apart starts _ (apart.2.2 earlier early entry (by simp))
    simp [unfit]
  simp only [dispatchTag, found]

/-- Which handler has read a line, and with what result. -/
inductive Dispatched (lib : CxxStd Double) (line : Text) (ctx : ParseContext Double)
    (result : Except ParseError (ParseContext Double)) : Prop
  | extInf (starts : startsWith line (text "#EXTINF:") = true) (run : handleExtInf lib line ctx = result)
  | targetDuration (starts : startsWith line (text "#EXT-X-TARGETDURATION:") = true)
      (run : handleTargetDuration line ctx = result)
  | mediaSequence (starts : startsWith line (text "#EXT-X-MEDIA-SEQUENCE:") = true)
      (run : handleMediaSequence line ctx = result)
  | endList (starts : startsWith line (text "#EXT-X-ENDLIST") = true) (run : handleEndList line ctx = result)
  | discontinuity (starts : startsWith line (text "#EXT-X-DISCONTINUITY") = true)
      (run : handleDiscontinuity line ctx = result)
  | streamInf (starts : startsWith line (text "#EXT-X-STREAM-INF:") = true)
      (run : handleStreamInf lib line ctx = result)
  | unknown (plain : ∀ entry ∈ tagDispatchTable lib, startsWith line entry.1 = false) (run : .ok ctx = result)

theorem dispatchTag_cases {lib : CxxStd Double} {line : Text} {ctx : ParseContext Double}
    {result : Except ParseError (ParseContext Double)} (run : dispatchTag lib line ctx = result) :
    Dispatched lib line ctx result := by
  unfold dispatchTag at run
  split at run
  · rename_i unknown
    rw [List.find?_eq_none] at unknown
    exact .unknown (fun entry member => by simpa using unknown entry member) run
  · rename_i entry found
    have starts := List.find?_some found
    have member := List.mem_of_find?_eq_some found
    simp only [tagDispatchTable, List.mem_cons, List.not_mem_nil, or_false] at member
    rcases member with rfl | rfl | rfl | rfl | rfl | rfl
    · exact .extInf starts run
    · exact .targetDuration starts run
    · exact .mediaSequence starts run
    · exact .endList starts run
    · exact .discontinuity starts run
    · exact .streamInf starts run

theorem isUri_plain {line : Text} (kind : isUri line = true) (tag : Text)
    (hash : startsWith tag (text "#") = true) : startsWith line tag = false := by
  by_contra starts
  rw [Bool.not_eq_false, startsWith_iff] at starts
  have both := (startsWith_iff.mp hash).trans starts
  rw [← startsWith_iff] at both
  simp [isUri, both] at kind

theorem sequenceAfter_uri {base : UInt64} {line : Text} (kind : isUri line = true) :
    sequenceAfter base line = base := by
  have plain := isUri_plain kind (text "#EXT-X-MEDIA-SEQUENCE:") (by decide)
  simp [sequenceAfter, plain]

theorem endsList_uri {line : Text} (kind : isUri line = true) : endsList line = false :=
  isUri_plain kind _ (by decide)

/-- What a tag line may change, and the fields that no tag touches. -/
structure TagEffect (line : Text) (ctx ctx' : ParseContext Double) : Prop where
  segments : ctx'.playlist.segments = ctx.playlist.segments
  variants : ctx'.playlist.variants = ctx.playlist.variants
  mediaSequence : ctx'.playlist.mediaSequence = sequenceAfter ctx.playlist.mediaSequence line
  hasEndlist : ctx'.playlist.hasEndlist = (ctx.playlist.hasEndlist || endsList line)
  type : ctx.playlist.type = .mediaVOD → ctx'.playlist.type = .mediaVOD
  pending : ctx'.variantBuilder.active = (ctx.variantBuilder.active || opensVariant line)

theorem parseBandwidth_active (val : Text) (builder : PendingVariant Double) :
    (parseBandwidth val builder).active = builder.active := by
  unfold parseBandwidth
  split <;> rfl

theorem parseResolution_active (val : Text) (builder : PendingVariant Double) :
    (parseResolution val builder).active = builder.active := by
  unfold parseResolution
  split
  · rfl
  · split <;> rfl

theorem parseFrameRate_active (lib : CxxStd Double) (val : Text) (builder : PendingVariant Double) :
    (parseFrameRate lib val builder).active = builder.active := by
  unfold parseFrameRate
  split <;> rfl

theorem applyAttribute_active (lib : CxxStd Double) (attr : AttributePair)
    (builder : PendingVariant Double) : (applyAttribute lib attr builder).active = builder.active := by
  unfold applyAttribute
  split
  · exact parseBandwidth_active attr.value builder
  · split
    · exact parseResolution_active attr.value builder
    · split
      · exact parseFrameRate_active lib attr.value builder
      · split <;> rfl

/-- The loop applies the pairs that the scanner delivers in its turns. -/
theorem applyAttributesLoop_eq (lib : CxxStd Double) (turns : Nat) (scanner : AttributeScanner)
    (builder : PendingVariant Double) :
    applyAttributesLoop lib turns scanner builder =
      (deliveries AttributeScanner.next turns scanner).foldl (fun builder attr => applyAttribute lib attr builder)
        builder := by
  induction turns generalizing scanner builder with
  | zero => rfl
  | succ turns ih =>
    obtain ⟨delivered, scanner', next⟩ : ∃ delivered scanner', scanner.next = (delivered, scanner') :=
      ⟨_, _, rfl⟩
    cases delivered with
    | none => simp only [applyAttributesLoop, deliveries, next, List.foldl_nil]
    | some attr => simp only [applyAttributesLoop, deliveries, next, List.foldl_cons, ih]

theorem applyAttributes_active (lib : CxxStd Double) (pairs : List AttributePair) (builder : PendingVariant Double) :
    (pairs.foldl (fun builder attr => applyAttribute lib attr builder) builder).active = builder.active := by
  induction pairs generalizing builder with
  | nil => rfl
  | cons attr pairs ih => rw [List.foldl_cons, ih, applyAttribute_active]

/-- With turns for all of them, the loop applies the pairs that the scanner delivers. -/
theorem applyAttributesLoop_yields {lib : CxxStd Double} {scanner last : AttributeScanner}
    {pairs : List AttributePair} (yields : Yields AttributeScanner.next scanner pairs last) {turns : Nat}
    (enough : pairs.length ≤ turns) (builder : PendingVariant Double) :
    applyAttributesLoop lib turns scanner builder =
      pairs.foldl (fun builder attr => applyAttribute lib attr builder) builder := by
  rw [applyAttributesLoop_eq, yields.deliveries_eq enough]

/-- A line that is read as neither of the three tags that the conditions on a manifest look at. -/
theorem TagEffect.other {line tag : Text} {ctx ctx' : ParseContext Double}
    (starts : startsWith line tag = true)
    (apart : ∀ other ∈ [text "#EXT-X-MEDIA-SEQUENCE:", text "#EXT-X-ENDLIST", text "#EXT-X-STREAM-INF:"],
      startsWith tag other = false ∧ startsWith other tag = false)
    (playlist : ∃ seconds, ctx'.playlist = { ctx.playlist with targetDuration := seconds })
    (pending : ctx'.variantBuilder = ctx.variantBuilder) : TagEffect line ctx ctx' := by
  have base := startsWith_apart starts (text "#EXT-X-MEDIA-SEQUENCE:") (apart _ (by simp))
  have stop := startsWith_apart starts (text "#EXT-X-ENDLIST") (apart _ (by simp))
  have stream := startsWith_apart starts (text "#EXT-X-STREAM-INF:") (apart _ (by simp))
  obtain ⟨seconds, same⟩ := playlist
  constructor <;> simp [same, pending, sequenceAfter, endsList, opensVariant, base, stop, stream]

theorem handleExtInf_effect {lib : CxxStd Double} {line : Text} {ctx ctx' : ParseContext Double}
    (starts : startsWith line (text "#EXTINF:") = true) (run : handleExtInf lib line ctx = .ok ctx') :
    TagEffect line ctx ctx' := by
  unfold handleExtInf at run
  cases parsed : parseExtInf lib line ctx.lineNum ctx.segmentBuilder with
  | error _ => simp [parsed, Except.map] at run
  | ok builder =>
    simp only [parsed, Except.map, Except.ok.injEq] at run
    subst run
    exact .other starts (by decide) ⟨_, rfl⟩ rfl

theorem handleTargetDuration_effect {line : Text} {ctx ctx' : ParseContext Double}
    (starts : startsWith line (text "#EXT-X-TARGETDURATION:") = true)
    (run : handleTargetDuration line ctx = .ok ctx') : TagEffect line ctx ctx' := by
  refine .other starts (by decide) ?_ ?_ <;> unfold handleTargetDuration at run <;>
    split at run <;> cases run
  · exact ⟨_, rfl⟩
  · exact ⟨_, rfl⟩
  · rfl
  · rfl

theorem handleMediaSequence_effect {line : Text} {ctx ctx' : ParseContext Double}
    (starts : startsWith line (text "#EXT-X-MEDIA-SEQUENCE:") = true)
    (run : handleMediaSequence line ctx = .ok ctx') : TagEffect line ctx ctx' := by
  have stop := startsWith_apart starts (text "#EXT-X-ENDLIST") (by decide)
  have stream := startsWith_apart starts (text "#EXT-X-STREAM-INF:") (by decide)
  unfold handleMediaSequence at run
  split at run
  · rename_i rejected
    cases run
    constructor <;> simp [sequenceAfter, endsList, opensVariant, starts, rejected, stop, stream]
  · rename_i seq accepted
    cases run
    constructor <;> simp [sequenceAfter, endsList, opensVariant, starts, accepted, stop, stream]

theorem handleEndList_effect {line : Text} {ctx ctx' : ParseContext Double}
    (starts : startsWith line (text "#EXT-X-ENDLIST") = true)
    (run : handleEndList line ctx = .ok ctx') : TagEffect line ctx ctx' := by
  have base := startsWith_apart starts (text "#EXT-X-MEDIA-SEQUENCE:") (by decide)
  have stream := startsWith_apart starts (text "#EXT-X-STREAM-INF:") (by decide)
  cases run
  constructor <;> simp [sequenceAfter, endsList, opensVariant, starts, base, stream]

theorem handleDiscontinuity_effect {line : Text} {ctx ctx' : ParseContext Double}
    (starts : startsWith line (text "#EXT-X-DISCONTINUITY") = true)
    (run : handleDiscontinuity line ctx = .ok ctx') : TagEffect line ctx ctx' := by
  cases run
  exact .other starts (by decide) ⟨_, rfl⟩ rfl

theorem handleStreamInf_effect {lib : CxxStd Double} {line : Text} {ctx ctx' : ParseContext Double}
    (starts : startsWith line (text "#EXT-X-STREAM-INF:") = true)
    (run : handleStreamInf lib line ctx = .ok ctx') : TagEffect line ctx ctx' := by
  have base := startsWith_apart starts (text "#EXT-X-MEDIA-SEQUENCE:") (by decide)
  have stop := startsWith_apart starts (text "#EXT-X-ENDLIST") (by decide)
  cases run
  constructor <;>
    simp [sequenceAfter, endsList, opensVariant, starts, base, stop, applyStreamInfAttributes,
      applyAttributesLoop_eq, applyAttributes_active]

theorem dispatchTag_effect {lib : CxxStd Double} {line : Text} {ctx ctx' : ParseContext Double}
    (run : dispatchTag lib line ctx = .ok ctx') : TagEffect line ctx ctx' := by
  cases dispatchTag_cases run with
  | extInf starts run => exact handleExtInf_effect starts run
  | targetDuration starts run => exact handleTargetDuration_effect starts run
  | mediaSequence starts run => exact handleMediaSequence_effect starts run
  | endList starts run => exact handleEndList_effect starts run
  | discontinuity starts run => exact handleDiscontinuity_effect starts run
  | streamInf starts run => exact handleStreamInf_effect starts run
  | unknown plain run =>
    cases run
    simp only [tagDispatchTable, List.forall_mem_cons] at plain
    obtain ⟨_, _, base, stop, _, stream, _⟩ := plain
    constructor <;> simp [sequenceAfter, endsList, opensVariant, base, stop, stream]

theorem handleExtInf_error {lib : CxxStd Double} {line : Text} {ctx : ParseContext Double} {error : ParseError}
    (run : handleExtInf lib line ctx = .error error) :
    error.code = .invalidFormat ∧ error.lineNumber = ctx.lineNum := by
  unfold handleExtInf parseExtInf at run
  dsimp only at run
  split at run
  · simp only [Except.map, Except.error.injEq] at run
    subst run
    exact ⟨rfl, rfl⟩
  · cases run

theorem dispatchTag_error {lib : CxxStd Double} {line : Text} {ctx : ParseContext Double} {error : ParseError}
    (run : dispatchTag lib line ctx = .error error) :
    startsWith line (text "#EXTINF:") = true ∧ error.code = .invalidFormat ∧ error.lineNumber = ctx.lineNum := by
  cases dispatchTag_cases run with
  | extInf starts run => exact ⟨starts, handleExtInf_error run⟩
  | targetDuration starts run =>
    unfold handleTargetDuration at run
    split at run <;> cases run
  | mediaSequence starts run =>
    unfold handleMediaSequence at run
    split at run <;> cases run
  | endList starts run => cases run
  | discontinuity starts run => cases run
  | streamInf starts run => cases run
  | unknown plain run => cases run

variable [Zero Double]

/-- What one line does to the context when it is accepted. -/
inductive LineEffect (entry : LineEntry) (ctx ctx' : ParseContext Double) : Prop
  | tag (kind : isUri entry.text = false) (effect : TagEffect entry.text ctx ctx')
  | variant (kind : isUri entry.text = true) (pending : ctx.variantBuilder.active = true)
      (same : ctx' = { ctx with
        lineNum := entry.number
        playlist := { ctx.playlist with
          variants := ctx.playlist.variants ++ [{ ctx.variantBuilder.variant with uri := entry.text }] }
        variantBuilder := resetVariantBuilder ctx.variantBuilder })
  | segment (kind : isUri entry.text = true) (pending : ctx.variantBuilder.active = false)
      (same : ctx' = { ctx with
        lineNum := entry.number
        playlist := { ctx.playlist with
          segments := ctx.playlist.segments ++
            [{ uri := entry.text
               duration := ctx.segmentBuilder.duration
               sequenceIndex := ctx.playlist.mediaSequence + UInt64.ofNat ctx.playlist.segments.length
               isDiscontinuity := ctx.segmentBuilder.discontinuity }] }
        segmentBuilder := resetSegmentBuilder ctx.segmentBuilder })

theorem parseLine_effect {lib : CxxStd Double} {entry : LineEntry} {ctx ctx' : ParseContext Double}
    (run : parseLine lib entry ctx = .ok ctx') : LineEffect entry ctx ctx' := by
  unfold parseLine at run
  dsimp only at run
  split at run
  · rename_i tag
    have effect := dispatchTag_effect run
    exact .tag (by simp [isUri, tag]) ⟨effect.segments, effect.variants, effect.mediaSequence,
      effect.hasEndlist, effect.type, effect.pending⟩
  · rename_i uri
    have kind : isUri entry.text = true := by simp [isUri, uri]
    unfold parseUriLine at run
    split at run
    · rename_i pending
      dsimp only at pending
      simp only [commitVariant, pending, if_true] at run
      exact .variant kind pending (Except.ok.inj run).symm
    · rename_i pending
      unfold commitSegment at run
      split at run <;> cases run
      exact .segment kind (by simpa using pending) rfl

theorem processLines_bind (lib : CxxStd Double) (lines more : List LineEntry) (start : ParseContext Double) :
    processLines lib (lines ++ more) start = (processLines lib lines start).bind (processLines lib more) := by
  induction lines generalizing start with
  | nil => rfl
  | cons entry lines ih =>
    simp only [List.cons_append, processLines]
    cases parseLine lib entry start with
    | error _ => rfl
    | ok next => exact ih next

theorem processLines_prefix {lib : CxxStd Double} {lines more : List LineEntry} {start ctx : ParseContext Double}
    (run : processLines lib (lines ++ more) start = .ok ctx) :
    ∃ before, processLines lib lines start = .ok before ∧ processLines lib more before = .ok ctx := by
  rw [processLines_bind] at run
  cases first : processLines lib lines start with
  | error _ => simp [first, Except.bind] at run
  | ok before => exact ⟨before, rfl, by rwa [first] at run⟩

theorem processLines_append {lib : CxxStd Double} {lines : List LineEntry} {entry : LineEntry}
    {start ctx : ParseContext Double} (run : processLines lib (lines ++ [entry]) start = .ok ctx) :
    ∃ before, processLines lib lines start = .ok before ∧ parseLine lib entry before = .ok ctx := by
  obtain ⟨before, earlier, last⟩ := processLines_prefix run
  refine ⟨before, earlier, ?_⟩
  simp only [processLines] at last
  cases step : parseLine lib entry before with
  | error _ => simp [step, Except.bind] at last
  | ok _ => simpa [step, Except.bind] using last

/-- What holds at the start and is kept by every accepted line holds behind all lines read. -/
theorem processLines_invariant {lib : CxxStd Double} {start : ParseContext Double}
    {P : List LineEntry → ParseContext Double → Prop} (first : P [] start)
    (kept : ∀ lines entry before after, P lines before → parseLine lib entry before = .ok after →
      P (lines ++ [entry]) after) {lines : List LineEntry} {ctx : ParseContext Double}
    (run : processLines lib lines start = .ok ctx) : P lines ctx := by
  induction lines using List.reverseRecOn generalizing ctx with
  | nil =>
    cases run
    exact first
  | append_singleton lines entry ih =>
    obtain ⟨before, earlier, last⟩ := processLines_append run
    exact kept lines entry before ctx (ih earlier) last

/-- A failing run stops at one line, and the lines behind it are not looked at. -/
theorem processLines_error {lib : CxxStd Double} {lines : List LineEntry} {start : ParseContext Double}
    {error : ParseError} (run : processLines lib lines start = .error error) :
    ∃ before entry after ctx, lines = before ++ entry :: after ∧ processLines lib before start = .ok ctx ∧
      parseLine lib entry ctx = .error error := by
  induction lines generalizing start with
  | nil => cases run
  | cons entry lines ih =>
    cases step : parseLine lib entry start with
    | error _ =>
      simp only [processLines, step, Except.bind, Except.error.injEq] at run
      subst run
      exact ⟨[], entry, lines, start, rfl, rfl, step⟩
    | ok next =>
      simp only [processLines, step, Except.bind] at run
      obtain ⟨before, offending, after, ctx, rfl, reached, failed⟩ := ih run
      refine ⟨entry :: before, offending, after, ctx, rfl, ?_, failed⟩
      simp only [processLines, step, Except.bind, reached]

end Iptv.Manifest
