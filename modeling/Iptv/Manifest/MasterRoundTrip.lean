import Iptv.Manifest.AttributeRoundTrip
import Iptv.Manifest.RenderedLines

namespace Iptv.Manifest
variable {Double : Type} {lib : CxxStd Double}

/-- A loop over a written list of attributes applies them in order. -/
theorem applyStreamInfAttributes_written (attributes : List WrittenAttribute)
    (builder : PendingVariant Double) :
    applyStreamInfAttributes lib (attributeList attributes) builder =
      attributes.foldl (fun builder a => applyAttribute lib a.pair builder) builder := by
  have front : ({ attrs := attributeList attributes } : AttributeScanner).rest = attributeList attributes := rfl
  obtain ⟨_, yields, _⟩ := AttributeScanner.yields_written attributes front
  have enough : (attributes.map (·.pair)).length ≤ (attributeList attributes).length := by
    rw [List.length_map]
    exact attributeList_length attributes
  rw [applyStreamInfAttributes, applyAttributesLoop_yields yields enough, List.foldl_map]

/-- A variant as a writer states it. -/
structure VariantSource where
  uri : Text
  bandwidth : UInt32
  width : UInt32
  height : UInt32
  codecs : Text
  uri_ne_nil : uri ≠ []
  uri_line : newline ∉ uri
  uri_plain : startsWith uri (text "#") = false
  uri_trim : trim uri = uri
  codecs_line : newline ∉ codecs
  codecs_quote : quote ∉ codecs

structure MasterSource where
  variants : List VariantSource
  variants_ne_nil : variants ≠ []

def VariantSource.streamInf (variant : VariantSource) : Text :=
  text "#EXT-X-STREAM-INF:BANDWIDTH=" ++ decimal variant.bandwidth.toNat ++
    text ",RESOLUTION=" ++ decimal variant.width.toNat ++ text "x" ++ decimal variant.height.toNat ++
    text ",CODECS=\"" ++ variant.codecs ++ text "\""

def VariantSource.lines (variant : VariantSource) : List Text := [variant.streamInf, variant.uri]

def MasterSource.render (source : MasterSource) (finalNewline : Bool) : Text :=
  [newline].intercalate
    (text "#EXTM3U" :: source.variants.flatMap VariantSource.lines ++ if finalNewline then [[]] else [])

theorem decimal_absent (n : Nat) {c : UInt8} (other : isDigit c = false) : c ∉ decimal n := by
  intro member
  rw [decimal_digits n c member] at other
  exact absurd other (by decide)

def VariantSource.size (variant : VariantSource) : Text :=
  decimal variant.width.toNat ++ byte 'x' :: decimal variant.height.toNat

theorem VariantSource.size_absent (variant : VariantSource) {c : UInt8} (other : isDigit c = false)
    (notCross : c ≠ byte 'x') : c ∉ variant.size := by
  simp [size, decimal_absent _ other, notCross]

def VariantSource.attributes (variant : VariantSource) : List WrittenAttribute :=
  [.plain (text "BANDWIDTH") (decimal variant.bandwidth.toNat) (by decide) (by decide)
      (decimal_absent _ (by decide)) (decimal_absent _ (by decide)),
    .plain (text "RESOLUTION") variant.size (by decide) (by decide)
      (variant.size_absent (by decide) (by decide)) (variant.size_absent (by decide) (by decide)),
    .quoted (text "CODECS") variant.codecs (by decide) (by decide) variant.codecs_quote]

theorem VariantSource.streamInf_attributes (variant : VariantSource) :
    variant.streamInf = text "#EXT-X-STREAM-INF:" ++ attributeList variant.attributes := by
  have bandwidth : text "#EXT-X-STREAM-INF:BANDWIDTH=" =
      text "#EXT-X-STREAM-INF:" ++ text "BANDWIDTH" ++ [byte '='] := by decide
  have resolution : text ",RESOLUTION=" = comma :: text "RESOLUTION" ++ [byte '='] := by decide
  have codecs : text ",CODECS=\"" = comma :: text "CODECS" ++ [byte '=', quote] := by decide
  have cross : text "x" = [byte 'x'] := by decide
  have closing : text "\"" = [quote] := by decide
  simp [streamInf, bandwidth, resolution, codecs, cross, closing, attributeList, attributes,
    List.intercalate_cons_cons, WrittenAttribute.render, WrittenAttribute.plain, WrittenAttribute.quoted, size]

theorem parseResolution_size (variant : VariantSource) (builder : PendingVariant Double) :
    parseResolution variant.size builder =
      { builder with
        variant := { builder.variant with resolution := ⟨variant.width, variant.height⟩ } } := by
  have hit : find variant.size (byte 'x') 0 = some (0 + (decimal variant.width.toNat).length) :=
    find_of_split rfl (decimal_absent _ (by decide))
  have after : variant.size.drop ((decimal variant.width.toNat).length + 1) =
      decimal variant.height.toNat := by
    simp [VariantSource.size, ← List.drop_drop]
  have before : variant.size.take (decimal variant.width.toNat).length = decimal variant.width.toNat :=
    List.take_left
  have width := fromChars_decimal variant.width.toNat uint32Bound variant.width.toNat_lt
  have height := fromChars_decimal variant.height.toNat uint32Bound variant.height.toNat_lt
  simp only [parseResolution, hit, Nat.zero_add, before, after, width, height, UInt32.ofNat_toNat]

variable [Zero Double]

def VariantSource.ref (variant : VariantSource) : VariantStreamRef Double where
  uri := variant.uri
  codecs := variant.codecs
  bandwidth := variant.bandwidth
  resolution := ⟨variant.width, variant.height⟩
  frameRate := 0

theorem VariantSource.applied (variant : VariantSource) :
    applyStreamInfAttributes lib (attributeList variant.attributes) ⟨true, .empty⟩ =
      ⟨true, { (variant.ref : VariantStreamRef Double) with uri := [] }⟩ := by
  have bandwidth := fromChars_decimal variant.bandwidth.toNat uint32Bound variant.bandwidth.toNat_lt
  have second : text "RESOLUTION" ≠ text "BANDWIDTH" := by decide
  have third : text "CODECS" ≠ text "BANDWIDTH" ∧ text "CODECS" ≠ text "RESOLUTION" ∧
      text "CODECS" ≠ text "FRAME-RATE" := by decide
  rw [applyStreamInfAttributes_written]
  simp [attributes, WrittenAttribute.pair, WrittenAttribute.plain, WrittenAttribute.quoted, applyAttribute,
    second, third, parseBandwidth, bandwidth, parseResolution_size, VariantStreamRef.empty, ref]

/-- The context between two variants of a master playlist. -/
structure InMaster (playlist : Playlist Double) (ctx : ParseContext Double) : Prop where
  playlist : ctx.playlist = playlist
  fresh : ctx.variantBuilder = ⟨false, .empty⟩

/-- The context in front of the URI line of a variant. -/
structure Described (playlist : Playlist Double) (variant : VariantSource) (ctx : ParseContext Double) : Prop where
  playlist : ctx.playlist = playlist
  pending : ctx.variantBuilder = ⟨true, { (variant.ref : VariantStreamRef Double) with uri := [] }⟩

theorem VariantSource.reads_streamInf (variant : VariantSource) (playlist : Playlist Double) :
    Reads lib [variant.streamInf] (InMaster playlist) (Described playlist variant) := by
  rw [streamInf_attributes]
  refine .tag (text "#EXT-X-STREAM-INF:", handleStreamInf lib) _ (by simp [tagDispatchTable])
    fun ctx number start => ?_
  have value : (text "#EXT-X-STREAM-INF:" ++ attributeList variant.attributes).drop 18 =
      attributeList variant.attributes := List.drop_left' (by decide)
  refine ⟨_, rfl, start.playlist, ?_⟩
  simp only [value, start.fresh, variant.applied]

theorem VariantSource.reads_uri (variant : VariantSource) (playlist : Playlist Double) :
    Reads lib [variant.uri] (Described playlist variant)
      (InMaster { playlist with variants := playlist.variants ++ [variant.ref] }) := by
  refine .line fun ctx number start => ?_
  simp only [parseLine, variant.uri_plain, parseUriLine, commitVariant, start.pending]
  exact ⟨_, rfl, by simp [start.playlist, ref], rfl⟩

theorem reads_variants (variants : List VariantSource) (playlist : Playlist Double) :
    Reads lib (variants.flatMap VariantSource.lines) (InMaster playlist)
      (InMaster { playlist with variants := playlist.variants ++ variants.map VariantSource.ref }) := by
  induction variants generalizing playlist with
  | nil => simpa using Reads.nil
  | cons variant variants ih =>
    rw [List.flatMap_cons]
    have first : Reads lib variant.lines _ _ :=
      (variant.reads_streamInf playlist).append (variant.reads_uri playlist)
    simpa using first.append (ih _)

theorem VariantSource.streamInf_readable (variant : VariantSource) : ReadableLine variant.streamInf where
  ne_nil := by
    have tag : text "#EXT-X-STREAM-INF:BANDWIDTH=" ≠ [] := by decide
    simp [streamInf, tag]
  oneLine := by
    have literals : newline ∉ text "#EXT-X-STREAM-INF:BANDWIDTH=" ∧ newline ∉ text ",RESOLUTION=" ∧
        newline ∉ text "x" ∧ newline ∉ text ",CODECS=\"" ∧ newline ∉ text "\"" := by decide
    have digits : ∀ n, newline ∉ decimal n := fun n => decimal_absent n (by decide)
    simp only [streamInf, List.mem_append, not_or, digits, literals, variant.codecs_line,
      not_false_eq_true, and_self]
  trimmed := by
    refine trim_eq_self ?_ ?_
    · intro c first
      have hash : variant.streamInf.head? = some (byte '#') := by
        simp only [streamInf, List.append_assoc]
        rfl
      obtain rfl := Option.some.inj (hash.symm.trans first)
      decide
    · intro c last
      have closing : variant.streamInf.getLast? = some quote := by
        simp only [streamInf]
        exact List.getLast?_concat
      obtain rfl := Option.some.inj (closing.symm.trans last)
      decide

theorem VariantSource.readable (variant : VariantSource) : ∀ line ∈ variant.lines, ReadableLine line := by
  intro line member
  simp only [lines, List.mem_cons, List.not_mem_nil, or_false] at member
  rcases member with rfl | rfl
  · exact variant.streamInf_readable
  · exact ⟨variant.uri_ne_nil, variant.uri_line, variant.uri_trim⟩

/-- Rendering a master playlist and parsing the text gives its variants back, each
with its own attributes, in the order of their bandwidths. -/
theorem parse_renderMaster (lib : CxxStd Double) (source : MasterSource) (finalNewline : Bool) :
    ∃ playlist, parse lib (source.render finalNewline) = .ok playlist ∧ playlist.type = .master ∧
      playlist.segments = [] ∧ playlist.variants.Perm (source.variants.map VariantSource.ref) ∧
      playlist.variants.Pairwise fun a b => a.bandwidth ≤ b.bandwidth := by
  have readable : ∀ line ∈ source.variants.flatMap VariantSource.lines, ReadableLine line := by
    intro line member
    obtain ⟨variant, _, ofVariant⟩ := List.mem_flatMap.mp member
    exact variant.readable line ofVariant
  obtain ⟨some, lines⟩ := rendered_lines readable finalNewline
  have reads : Reads lib (source.variants.flatMap VariantSource.lines) (· = .initial)
      (InMaster { ({} : Playlist Double) with variants := source.variants.map VariantSource.ref }) := by
    intro entries ctx same initial
    subst initial
    exact reads_variants source.variants {} entries .initial same ⟨rfl, rfl⟩
  obtain ⟨ctx, stop, run⟩ := parse_reads some lines reads
  have some : (source.variants.map VariantSource.ref : List (VariantStreamRef Double)) ≠ [] := by
    simp [source.variants_ne_nil]
  refine ⟨_, run, ?_⟩
  rw [stop.playlist, finalizePlaylist, if_pos some]
  exact ⟨rfl, rfl, lib.sort_perm _, lib.sort_ascending _⟩

/-- Two variants of one bandwidth, with a comma and an equals sign among their codecs. -/
def equalBandwidths : MasterSource where
  variants :=
    [{ uri := text "hi.m3u8", bandwidth := 800000, width := 1280, height := 720, codecs := text "avc1,mp4a"
       uri_ne_nil := by decide
       uri_line := by decide
       uri_plain := by decide
       uri_trim := by decide
       codecs_line := by decide
       codecs_quote := by decide },
     { uri := text "lo.m3u8", bandwidth := 800000, width := 640, height := 360, codecs := text "a=b"
       uri_ne_nil := by decide
       uri_line := by decide
       uri_plain := by decide
       uri_trim := by decide
       codecs_line := by decide
       codecs_quote := by decide }]
  variants_ne_nil := by decide

example : equalBandwidths.render false = text
    ("#EXTM3U\n#EXT-X-STREAM-INF:BANDWIDTH=800000,RESOLUTION=1280x720,CODECS=\"avc1,mp4a\"\nhi.m3u8\n" ++
      "#EXT-X-STREAM-INF:BANDWIDTH=800000,RESOLUTION=640x360,CODECS=\"a=b\"\nlo.m3u8") := by
  decide +kernel

theorem parse_renderMaster_equalBandwidths :
    ∃ playlist, parse CxxStd.plain (equalBandwidths.render false) = .ok playlist ∧ playlist.type = .master ∧
      playlist.segments = [] ∧
      playlist.variants.Perm [⟨text "hi.m3u8", text "avc1,mp4a", 800000, ⟨1280, 720⟩, 0⟩,
        ⟨text "lo.m3u8", text "a=b", 800000, ⟨640, 360⟩, 0⟩] ∧
      playlist.variants.Pairwise fun a b => a.bandwidth ≤ b.bandwidth :=
  parse_renderMaster CxxStd.plain equalBandwidths false

end Iptv.Manifest
