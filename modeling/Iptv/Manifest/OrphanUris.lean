import Iptv.Manifest.UriBlocks

namespace Iptv.Manifest
variable {Double : Type}

/-- Neither an `#EXTINF` nor a stream tag stands in front of the URI line. -/
def UriBlock.Orphan (block : UriBlock) : Prop :=
  block.gap.any opensSegment = false ∧ block.gap.any opensVariant = false

/-- The duration of a segment is stated between the previous URI line and its own. -/
structure TimedInGap (lib : CxxStd Double) (block : UriBlock) (segment : MediaSegmentRef Double) : Prop where
  uri : segment.uri = block.uri
  timed : ∃ line ∈ block.gap, opensSegment line = true ∧ extInfDuration lib line = some segment.duration

/-- Every orphan finds an `#EXTINF` that was meant for an earlier URI, and the manifest
gives no other offence. -/
structure OrphansServed (lib : CxxStd Double) (input : Text) : Prop where
  headed : ∃ header ∈ (manifestLines input).head?, startsWith header.text (text "#EXTM3U") = true
  readable : ∀ entry ∈ bodyLines input, opensSegment entry.text = true → extInfDuration lib entry.text ≠ none
  orphan : ∃ block ∈ uriBlocks (bodyLines input), block.Orphan
  served : ∀ block ∈ uriBlocks (bodyLines input), block.Orphan → block.unused.any opensSegment = true

/-- A block that the parser took for a segment, unless it is an orphan, is timed in its gap. -/
theorem SegmentFrom.timedInGap {lib : CxxStd Double} {block : UriBlock} {segment : MediaSegmentRef Double}
    (source : SegmentFrom lib block segment) (suffix : block.gap <:+ block.unused)
    (tagged : block.gap.any opensSegment = true) : TimedInGap lib block segment := by
  obtain ⟨earlier, whole⟩ := suffix
  have some : block.gap.filter opensSegment ≠ [] := by simpa using tagged
  obtain ⟨front, line, list⟩ := List.eq_nil_or_concat' (block.gap.filter opensSegment) |>.resolve_left some
  have member : line ∈ block.gap.filter opensSegment := by simp [list]
  obtain ⟨inGap, opens⟩ := List.mem_filter.mp member
  refine ⟨source.uri, line, inGap, opens, source.timed line ?_⟩
  rw [← whole, List.filter_append, list]
  simp

variable [Zero Double]

structure OrphansRejected (lib : CxxStd Double) (input : Text) : Prop where
  rejected : (∃ block ∈ uriBlocks (bodyLines input), block.Orphan) → ∀ playlist, parse lib input ≠ .ok playlist
  timed : ∀ playlist, parse lib input = .ok playlist →
    List.Forall₂ (TimedInGap lib) ((uriBlocks (bodyLines input)).filter (!·.ofVariant)) playlist.segments

theorem parseLine_accepts {lib : CxxStd Double} {entry : LineEntry} {ctx : ParseContext Double}
    (armed : isUri entry.text = true → ctx.variantBuilder.active = true ∨ ctx.segmentBuilder.active = true)
    (readable : opensSegment entry.text = true → extInfDuration lib entry.text ≠ none) :
    ∃ next, parseLine lib entry ctx = .ok next := by
  unfold parseLine
  dsimp only
  split
  · cases run : dispatchTag lib entry.text { ctx with lineNum := entry.number } with
    | ok next => exact ⟨next, rfl⟩
    | error error =>
      obtain ⟨starts, _⟩ := dispatchTag_error run
      have entryOf : (text "#EXTINF:", handleExtInf lib) ∈ tagDispatchTable lib := by simp [tagDispatchTable]
      obtain ⟨duration, parsed⟩ := Option.ne_none_iff_exists'.mp (readable starts)
      rw [dispatchTag_of_mem entryOf starts] at run
      simp [handleExtInf, parseExtInf_eq, parsed, Except.map] at run
  · rename_i uri
    have kind : isUri entry.text = true := by simp [isUri, uri]
    cases variant : ctx.variantBuilder.active with
    | true => simp [parseUriLine, commitVariant, variant]
    | false =>
      have segment := (armed kind).resolve_left (by simp [variant])
      simp [parseUriLine, commitSegment, variant, segment]

theorem processLines_accepts {lib : CxxStd Double} {lines : List LineEntry}
    (readable : ∀ entry ∈ lines, opensSegment entry.text = true → extInfDuration lib entry.text ≠ none)
    (served : ∀ block ∈ uriBlocks lines, block.ofVariant = true ∨ block.unused.any opensSegment = true) :
    ∃ ctx, processLines lib lines .initial = .ok ctx := by
  induction lines using List.reverseRecOn with
  | nil => exact ⟨_, rfl⟩
  | append_singleton lines entry ih =>
    have earlier : ∀ block ∈ uriBlocks lines, block ∈ uriBlocks (lines ++ [entry]) := by
      intro block member
      rw [uriBlocks, reading_append, Reading.next]
      split
      · exact List.mem_append.mpr (.inl member)
      · exact member
    obtain ⟨before, run⟩ := ih (fun line member => readable line (List.mem_append.mpr (.inl member)))
      (fun block member => served block (earlier block member))
    have builders := processLines_builders run
    have armed : isUri entry.text = true →
        before.variantBuilder.active = true ∨ before.segmentBuilder.active = true := by
      intro kind
      have last : (⟨(reading lines).gap, (reading lines).unused, entry.text⟩ : UriBlock) ∈
          uriBlocks (lines ++ [entry]) := by
        rw [uriBlocks, reading_append, Reading.next_uri kind]
        simp
      rw [builders.pending, builders.armed]
      exact served _ last
    obtain ⟨next, step⟩ := parseLine_accepts armed (readable entry (by simp))
    refine ⟨next, ?_⟩
    rw [processLines_bind, run]
    simp [Except.bind, processLines, step]

theorem processLines_readable {lib : CxxStd Double} {lines : List LineEntry} {ctx : ParseContext Double}
    (run : processLines lib lines .initial = .ok ctx) :
    ∀ entry ∈ lines, opensSegment entry.text = true → extInfDuration lib entry.text ≠ none := by
  intro entry member opens
  obtain ⟨front, back, rfl⟩ := List.append_of_mem member
  obtain ⟨before, _, later⟩ := processLines_prefix run
  have kind : isUri entry.text = false := by
    by_contra uri
    rw [Bool.not_eq_false] at uri
    have plain : opensSegment entry.text = false := isUri_plain uri _ (by decide)
    rw [plain] at opens
    exact Bool.noConfusion opens
  cases step : parseLine lib entry before with
  | error _ => simp [processLines, step, Except.bind] at later
  | ok next =>
    rw [(parseLine_tag kind step).timed opens]
    exact Option.some_ne_none _

theorem OrphansServed.accepted {lib : CxxStd Double} {input : Text} (wrong : OrphansServed lib input) :
    ∃ playlist, parse lib input = .ok playlist := by
  obtain ⟨header, first, tagged⟩ := wrong.headed
  obtain ⟨rest, lines⟩ := List.head?_eq_some_iff.mp first
  have body : bodyLines input = rest := by rw [bodyLines, lines]; rfl
  have served : ∀ block ∈ uriBlocks (bodyLines input),
      block.ofVariant = true ∨ block.unused.any opensSegment = true := by
    intro block member
    by_cases variant : block.ofVariant = true
    · exact .inl variant
    · right
      by_cases opens : block.gap.any opensSegment = true
      · obtain ⟨line, inGap, starts⟩ := List.any_eq_true.mp opens
        exact List.any_eq_true.mpr ⟨line, (uriBlocks_gap_suffix member).subset inGap, starts⟩
      · exact wrong.served block member ⟨by simpa using opens, by simpa [UriBlock.ofVariant] using variant⟩
  obtain ⟨ctx, run⟩ := processLines_accepts wrong.readable served
  refine ⟨finalizePlaylist lib ctx.playlist, ?_⟩
  rw [parse_of_lines lines tagged, ← body, run]
  rfl

theorem OrphansServed.of_accepted {lib : CxxStd Double} {input : Text} {playlist : Playlist Double}
    (accepted : parse lib input = .ok playlist) (orphan : ∃ block ∈ uriBlocks (bodyLines input), block.Orphan) :
    OrphansServed lib input := by
  obtain ⟨header, _, _, lines, tagged, _⟩ := parse_ok accepted
  obtain ⟨ctx, run, _⟩ := parse_body accepted
  refine ⟨⟨header, by simp [lines], tagged⟩, processLines_readable run, orphan, ?_⟩
  · intro block member alone
    have armed := (List.forall₂_and_left _ _).mp
      ((parse_segments accepted).imp fun _ _ source => ⟨source.armed, source⟩)
    refine armed.1 block (List.mem_filter.mpr ⟨member, ?_⟩)
    simp [UriBlock.ofVariant, alone.2]

/-- Without an orphan every segment is timed in its own gap. -/
theorem parse_timedInGap {lib : CxxStd Double} {input : Text} {playlist : Playlist Double}
    (accepted : parse lib input = .ok playlist) (none : ∀ block ∈ uriBlocks (bodyLines input), ¬block.Orphan) :
    List.Forall₂ (TimedInGap lib) ((uriBlocks (bodyLines input)).filter (!·.ofVariant)) playlist.segments := by
  have tagged : ∀ block ∈ (uriBlocks (bodyLines input)).filter (!·.ofVariant),
      block.gap <:+ block.unused ∧ block.gap.any opensSegment = true := by
    intro block listed
    obtain ⟨member, plain⟩ := List.mem_filter.mp listed
    refine ⟨uriBlocks_gap_suffix member, ?_⟩
    by_contra opens
    exact none block member ⟨by simpa using opens, by simpa [UriBlock.ofVariant] using plain⟩
  refine ((List.forall₂_and_left _ _).mpr ⟨tagged, parse_segments accepted⟩).imp ?_
  rintro block segment ⟨⟨suffix, opens⟩, source⟩
  exact source.timedInGap suffix opens

/-- Orphans are rejected unless tags that earlier URIs left unused serve all of them. -/
theorem orphansRejected_iff (lib : CxxStd Double) (input : Text) :
    OrphansRejected lib input ↔ ¬OrphansServed lib input := by
  constructor
  · intro right wrong
    obtain ⟨playlist, accepted⟩ := wrong.accepted
    exact right.rejected wrong.orphan playlist accepted
  · intro unserved
    have none : ∀ playlist, parse lib input = .ok playlist →
        ¬∃ block ∈ uriBlocks (bodyLines input), block.Orphan :=
      fun playlist accepted orphan => unserved (.of_accepted accepted orphan)
    refine ⟨fun orphan playlist accepted => none playlist accepted orphan, fun playlist accepted => ?_⟩
    exact parse_timedInGap accepted fun block member alone => none playlist accepted ⟨block, member, alone⟩

/-- The second URI is served by the `#EXTINF` in front of the variant. -/
def leftoverExtInf : Text :=
  text "#EXTM3U\n#EXTINF:1,\n#EXT-X-STREAM-INF:BANDWIDTH=1\nv.m3u8\norphan.ts"

theorem not_orphansRejected_leftoverExtInf :
    (uriBlocks (bodyLines leftoverExtInf)).map (fun block => (block.gap, block.uri)) =
        [([text "#EXTINF:1,", text "#EXT-X-STREAM-INF:BANDWIDTH=1"], text "v.m3u8"), ([], text "orphan.ts")] ∧
      (∃ playlist, parse CxxStd.plain leftoverExtInf = .ok playlist ∧
        playlist.segments.map (·.uri) = [text "orphan.ts"]) ∧
      ¬OrphansRejected CxxStd.plain leftoverExtInf := by
  have blocks : (uriBlocks (bodyLines leftoverExtInf)).map (fun block => (block.gap, block.uri)) =
      [([text "#EXTINF:1,", text "#EXT-X-STREAM-INF:BANDWIDTH=1"], text "v.m3u8"), ([], text "orphan.ts")] := by
    decide +kernel
  obtain ⟨playlist, accepted, uris⟩ := parse_of_test CxxStd.plain leftoverExtInf
    (fun playlist => playlist.segments.map (·.uri)) [text "orphan.ts"] (by decide +kernel)
  refine ⟨blocks, ⟨playlist, accepted, uris⟩, fun right => ?_⟩
  have second : (([], text "orphan.ts") : List Text × Text) ∈
      (uriBlocks (bodyLines leftoverExtInf)).map fun block => (block.gap, block.uri) := by
    rw [blocks]
    exact List.mem_cons_of_mem _ List.mem_cons_self
  obtain ⟨block, member, same⟩ := List.mem_map.mp second
  obtain ⟨empty, _⟩ := Prod.mk.inj same
  refine right.rejected ⟨block, member, ?_⟩ playlist accepted
  simp [UriBlock.Orphan, empty]

end Iptv.Manifest
