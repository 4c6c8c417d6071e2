import Iptv.Manifest.LineReader
import Iptv.Manifest.TagHandlers

namespace Iptv.Manifest
variable {Double : Type} [Zero Double]

def commitSegment (uri : Text) (ctx : ParseContext Double) : Except ParseError (ParseContext Double) :=
  if ctx.segmentBuilder.active then
    let segment : MediaSegmentRef Double :=
      { uri
        duration := ctx.segmentBuilder.duration
        sequenceIndex := ctx.playlist.mediaSequence + UInt64.ofNat ctx.playlist.segments.length
        isDiscontinuity := ctx.segmentBuilder.discontinuity }
    .ok { ctx with
      playlist := { ctx.playlist with segments := ctx.playlist.segments ++ [segment] }
      segmentBuilder := resetSegmentBuilder ctx.segmentBuilder }
  else .error ⟨.missingMandatoryTags, ctx.lineNum, "Segment URI without preceding #EXTINF"⟩

def commitVariant (uri : Text) (ctx : ParseContext Double) : Except ParseError (ParseContext Double) :=
  if ctx.variantBuilder.active then
    .ok { ctx with
      playlist := { ctx.playlist with
        variants := ctx.playlist.variants ++ [{ ctx.variantBuilder.variant with uri }] }
      variantBuilder := resetVariantBuilder ctx.variantBuilder }
  else .error ⟨.missingMandatoryTags, ctx.lineNum, "Variant URI without preceding #EXT-X-STREAM-INF"⟩

def parseUriLine (line : Text) (ctx : ParseContext Double) : Except ParseError (ParseContext Double) :=
  if ctx.variantBuilder.active then commitVariant line ctx else commitSegment line ctx

/-- The body of the loop of `parseLines`. -/
def parseLine (lib : CxxStd Double) (entry : LineEntry) (ctx : ParseContext Double) :
    Except ParseError (ParseContext Double) :=
  let ctx := { ctx with lineNum := entry.number }
  if startsWith entry.text (text "#") then dispatchTag lib entry.text ctx
  else parseUriLine entry.text ctx

/-- The loop of `parseLines`; every line consumes part of the text, so the bytes
after the cursor bound the turns. -/
def parseLinesLoop (lib : CxxStd Double) :
    Nat → LineReader → ParseContext Double → Except ParseError (ParseContext Double)
  | 0, _, ctx => .ok ctx
  | turns + 1, reader, ctx =>
    match reader.next with
    | (none, _) => .ok ctx
    | (some entry, reader') => (parseLine lib entry ctx).bind (parseLinesLoop lib turns reader')

def parseLines (lib : CxxStd Double) (reader : LineReader) : ParseResult Double :=
  (parseLinesLoop lib (reader.content.length - reader.cursor) reader .initial).map (·.playlist)

def bom : Text := [0xEF, 0xBB, 0xBF]

def stripBom (content : Text) : Text :=
  if startsWith content bom then content.drop 3 else content

/-- The diagnostic for a missing header, and the reader behind the header line. -/
def validateHeader (reader : LineReader) : Except ParseError LineReader :=
  match reader.next with
  | (none, _) => .error ⟨.invalidHeader, 0, "Missing #EXTM3U tag"⟩
  | (some firstLine, reader') =>
    if startsWith firstLine.text (text "#EXTM3U") then .ok reader'
    else .error ⟨.invalidHeader, firstLine.number, "Missing #EXTM3U tag"⟩

def finalizePlaylist (lib : CxxStd Double) (playlist : Playlist Double) : Playlist Double :=
  if playlist.variants ≠ [] then
    { playlist with type := .master, variants := lib.sort playlist.variants }
  else if playlist.hasEndlist = false then { playlist with type := .mediaLive }
  else playlist

/-- `M3u8Parser::parse`. The preallocation before the loop only reserves capacity. -/
def parse (lib : CxxStd Double) (input : Text) : ParseResult Double :=
  let content := stripBom input
  if content = [] then .error ⟨.emptyContent, 0, "Manifest content is empty"⟩
  else
    (validateHeader { content }).bind fun reader =>
      (parseLines lib reader).map (finalizePlaylist lib)

/-- What the loop does to a list of lines in the abstract. -/
def processLines (lib : CxxStd Double) :
    List LineEntry → ParseContext Double → Except ParseError (ParseContext Double)
  | [], ctx => .ok ctx
  | entry :: rest, ctx => (parseLine lib entry ctx).bind (processLines lib rest)

/-- The loop over the reader is the fold over the lines the reader still holds. -/
theorem parseLinesLoop_eq (lib : CxxStd Double) {turns : Nat} {reader : LineReader}
    (enough : reader.content.length - reader.cursor ≤ turns) (ctx : ParseContext Double) :
    parseLinesLoop lib turns reader ctx = processLines lib reader.entries ctx := by
  induction turns generalizing reader ctx with
  | zero => rw [reader.entries_end (by omega)]; rfl
  | succ turns ih =>
    obtain ⟨first, rest⟩ := reader.next_spec
    obtain ⟨content, advance⟩ := reader.next_advances
    unfold parseLinesLoop
    generalize reader.next = delivered at first rest content advance
    obtain ⟨line, reader'⟩ := delivered
    cases entries : reader.entries with
    | nil =>
      simp only [entries, List.head?_nil] at first
      subst first
      rfl
    | cons entry tail =>
      simp only [entries, List.head?_cons, List.tail_cons] at first rest content
      subst first
      have moved := advance (by simp)
      dsimp only at moved
      have remaining : reader'.content.length - reader'.cursor ≤ turns := by rw [content]; omega
      simp only [processLines]
      congr 1
      funext next
      rw [ih remaining, rest]

theorem parseLines_eq (lib : CxxStd Double) (reader : LineReader) :
    parseLines lib reader = (processLines lib reader.entries .initial).map (·.playlist) := by
  rw [parseLines, parseLinesLoop_eq lib le_rfl]

/-- All lines of the manifest, with the header first. -/
def manifestLines (input : Text) : List LineEntry :=
  ({ content := stripBom input } : LineReader).entries

/-- The parser in terms of the lines: the first one is the header, the others are
folded into the context, and the result is finalized. -/
theorem parse_eq (lib : CxxStd Double) (input : Text) :
    parse lib input =
      if stripBom input = [] then .error ⟨.emptyContent, 0, "Manifest content is empty"⟩
      else match manifestLines input with
        | [] => .error ⟨.invalidHeader, 0, "Missing #EXTM3U tag"⟩
        | header :: rest =>
          if startsWith header.text (text "#EXTM3U") then
            (processLines lib rest .initial).map fun ctx => finalizePlaylist lib ctx.playlist
          else .error ⟨.invalidHeader, header.number, "Missing #EXTM3U tag"⟩ := by
  unfold parse validateHeader manifestLines
  dsimp only
  by_cases empty : stripBom input = []
  · rw [if_pos empty, if_pos empty]
  rw [if_neg empty, if_neg empty]
  obtain ⟨first, tail⟩ := ({ content := stripBom input } : LineReader).next_spec
  generalize ({ content := stripBom input } : LineReader).next = delivered at first tail ⊢
  obtain ⟨line, reader⟩ := delivered
  cases entries : ({ content := stripBom input } : LineReader).entries with
  | nil =>
    simp only [entries, List.head?_nil] at first
    subst first
    rfl
  | cons header rest =>
    simp only [entries, List.head?_cons, List.tail_cons] at first tail
    subst first
    dsimp only
    split
    · simp only [Except.bind, parseLines_eq, tail]
      cases processLines lib rest .initial <;> rfl
    · rfl

theorem stripBom_some {input : Text} (lines : manifestLines input ≠ []) : stripBom input ≠ [] := by
  intro empty
  refine lines ?_
  rw [manifestLines, empty]
  decide

theorem parse_of_lines {lib : CxxStd Double} {input : Text} {header : LineEntry} {rest : List LineEntry}
    (lines : manifestLines input = header :: rest) (tagged : startsWith header.text (text "#EXTM3U") = true) :
    parse lib input =
      (processLines lib rest .initial).map fun ctx => finalizePlaylist lib ctx.playlist := by
  rw [parse_eq, if_neg (stripBom_some (by simp [lines])), lines]
  simp only [tagged, if_true]

theorem parse_ok {lib : CxxStd Double} {input : Text} {playlist : Playlist Double}
    (accepted : parse lib input = .ok playlist) :
    ∃ header rest ctx, manifestLines input = header :: rest ∧
      startsWith header.text (text "#EXTM3U") = true ∧
      processLines lib rest .initial = .ok ctx ∧ playlist = finalizePlaylist lib ctx.playlist := by
  rw [parse_eq] at accepted
  split at accepted
  · simp at accepted
  · split at accepted
    · simp at accepted
    · rename_i header rest lines
      split at accepted
      · rename_i tagged
        cases processed : processLines lib rest .initial with
        | error _ => simp [processed, Except.map] at accepted
        | ok ctx =>
          simp only [processed, Except.map, Except.ok.injEq] at accepted
          exact ⟨header, rest, ctx, lines, tagged, processed, accepted.symm⟩
      · simp at accepted

/-- A concrete parse whose playlist passes an evaluated test. -/
theorem parse_of_test {κ : Type} (lib : CxxStd Double) (input : Text) (view : Playlist Double → κ) (seen : κ)
    (run : (parse lib input).toOption.map view = some seen) :
    ∃ playlist, parse lib input = .ok playlist ∧ view playlist = seen := by
  cases accepted : parse lib input with
  | error _ => simp [accepted, Except.toOption] at run
  | ok playlist => exact ⟨playlist, rfl, by simpa [accepted, Except.toOption] using run⟩

end Iptv.Manifest
