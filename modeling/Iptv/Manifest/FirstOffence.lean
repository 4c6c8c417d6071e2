import Iptv.Manifest.PhysicalLines
import Iptv.Manifest.UriAccounting

namespace Iptv.Manifest
variable {Double : Type}

/-- A line that the error is about. -/
def ParseError.Offends (error : ParseError) (line : Text) : Prop :=
  (error.code = .invalidFormat ∧ startsWith line (text "#EXTINF:") = true) ∨
    (error.code = .missingMandatoryTags ∧ line ≠ [] ∧ isUri line = true)

variable [Zero Double]

/-- Only a duration that cannot be read and a URI without its tag are errors. -/
theorem parseLine_error {lib : CxxStd Double} {entry : LineEntry} {ctx : ParseContext Double} {error : ParseError}
    (some : entry.text ≠ []) (run : parseLine lib entry ctx = .error error) :
    error.Offends entry.text ∧ error.lineNumber = entry.number := by
  unfold parseLine at run
  dsimp only at run
  split at run
  · obtain ⟨starts, code, number⟩ := dispatchTag_error run
    exact ⟨.inl ⟨code, starts⟩, number⟩
  · rename_i uri
    have kind : isUri entry.text = true := by simp [isUri, uri]
    unfold parseUriLine commitVariant commitSegment at run
    split at run
    · cases run
    · split at run
      · cases run
      · obtain rfl := Except.error.inj run
        exact ⟨.inr ⟨rfl, some, kind⟩, rfl⟩

/-- The lines behind the header line decide a failure that is not about the header. -/
theorem parse_error {lib : CxxStd Double} {input : Text} {error : ParseError}
    (failed : parse lib input = .error error)
    (code : error.code = .invalidFormat ∨ error.code = .missingMandatoryTags) :
    ∃ header rest, manifestLines input = header :: rest ∧ startsWith header.text (text "#EXTM3U") = true ∧
      processLines lib rest .initial = .error error := by
  rw [parse_eq] at failed
  split at failed
  · cases failed
    simp at code
  · split at failed
    · cases failed
      simp at code
    · rename_i header rest lines
      split at failed
      · rename_i tagged
        refine ⟨header, rest, lines, tagged, ?_⟩
        cases run : processLines lib rest .initial with
        | error other =>
          simp only [run, Except.map, Except.error.injEq] at failed
          rw [failed]
        | ok _ => simp [run, Except.map] at failed
      · cases failed
        simp at code

/-- What is delivered from the first physical lines does not depend on the others. -/
theorem manifestLines_front {input : Text} {front : List Text} (same : front <+: physicalLines input) :
    numbered (front.modifyHead stripBom) 0 <+: manifestLines input := by
  obtain ⟨back, whole⟩ := same
  rw [manifestLines_physical, ← whole]
  cases front with
  | nil => exact List.nil_prefix
  | cons line front =>
    rw [List.cons_append, List.modifyHead_cons, List.modifyHead_cons, ← List.cons_append, numbered_append]
    exact List.prefix_append _ _

theorem physicalLines_cut {cut rest : Text} (boundary : LineBoundary cut rest) :
    physicalLines cut <+: physicalLines (cut ++ rest) := by
  have joined : ∀ front back : Text, physicalLines (front ++ newline :: back) =
      front.splitOn newline ++ physicalLines back := by
    intro front back
    have behind := List.splitOn_ne_nil newline back
    have split := List.splitOn_append_cons_self front back (a := newline)
    unfold physicalLines
    rw [split, List.getLast?_append_of_ne_nil _ behind, List.dropLast_append_of_ne_nil behind]
    split <;> rfl
  rcases boundary with rfl | last | first
  · rw [List.append_nil]
  · obtain ⟨front, rfl⟩ := List.getLast?_eq_some_iff.mp last
    rw [List.append_assoc, List.singleton_append, joined, joined]
    have none : physicalLines [] = [] := by decide
    rw [none, List.append_nil]
    exact List.prefix_append _ _
  · obtain ⟨back, rfl⟩ := List.head?_eq_some_iff.mp first
    rw [joined]
    have part : physicalLines cut <+: cut.splitOn newline := by
      rcases splitOn_physicalLines cut with whole | whole
      · rw [whole]
      · rw [whole]
        exact List.prefix_append _ _
    exact part.trans (List.prefix_append _ _)

theorem manifestLines_cut {cut rest : Text} (boundary : LineBoundary cut rest) :
    manifestLines cut <+: manifestLines (cut ++ rest) := by
  rw [manifestLines_physical cut]
  exact manifestLines_front (physicalLines_cut boundary)

theorem parseLine_segments {lib : CxxStd Double} {entry : LineEntry} {ctx ctx' : ParseContext Double}
    (run : parseLine lib entry ctx = .ok ctx') : ctx.playlist.segments <+: ctx'.playlist.segments := by
  cases parseLine_effect run with
  | tag kind effect =>
    rw [effect.segments]
  | variant kind pending same =>
    rw [same]
  | segment kind pending same =>
    rw [same]
    exact List.prefix_append _ _

/-- Later lines only append to the segments. -/
theorem processLines_segments {lib : CxxStd Double} {lines : List LineEntry} {start ctx : ParseContext Double}
    (run : processLines lib lines start = .ok ctx) :
    start.playlist.segments <+: ctx.playlist.segments :=
  processLines_invariant (P := fun _ ctx => start.playlist.segments <+: ctx.playlist.segments) List.prefix_rfl
    (fun _ _ _ _ earlier step => earlier.trans (parseLine_segments step)) run

theorem parse_error_line {lib : CxxStd Double} {input : Text} {error : ParseError}
    (few : (physicalLines input).length < 2 ^ 32) (failed : parse lib input = .error error)
    (code : error.code = .invalidFormat ∨ error.code = .missingMandatoryTags) :
    ∃ front raw, front ++ [raw] <+: physicalLines input ∧ error.lineNumber.toNat = front.length + 1 ∧
      error.Offends (trim raw) ∧
      ∀ other, front ++ [raw] <+: physicalLines other → parse lib other = .error error := by
  obtain ⟨header, rest, lines, tagged, run⟩ := parse_error failed code
  obtain ⟨before, entry, after, ctx, rfl, reached, stopped⟩ := processLines_error run
  have split := (manifestLines_physical input).symm.trans lines
  rw [← List.cons_append] at split
  obtain ⟨front, raw, back, whole, delivered, trimmed, visible, number⟩ := numbered_split split
  obtain ⟨offends, place⟩ := parseLine_error (trimmed ▸ visible) stopped
  cases front with
  | nil => cases delivered
  | cons first front =>
    cases physical : physicalLines input with
    | nil => simp [physical] at whole
    | cons line tail =>
      rw [physical, List.modifyHead_cons, List.cons_append, List.cons.injEq] at whole
      obtain ⟨rfl, rfl⟩ := whole
      rw [physical] at few
      simp only [List.length_cons, List.length_append] at few
      refine ⟨line :: front, raw, ⟨back, by simp⟩, ?_, trimmed ▸ offends, ?_⟩
      · rw [place, number, UInt32.zero_add, UInt32.toNat_ofNat', List.length_cons, List.length_cons]
        exact Nat.mod_eq_of_lt (by omega)
      · intro other same
        have read := manifestLines_front same
        have entries : numbered ((line :: front ++ [raw]).modifyHead stripBom) 0 =
            header :: before ++ [entry] := numbered_concat delivered trimmed visible number
        obtain ⟨more, all⟩ := read
        rw [entries, List.append_assoc, List.cons_append] at all
        rw [parse_of_lines all.symm tagged, processLines_bind, reached]
        simp only [Except.bind, List.cons_append, List.nil_append, processLines, stopped, Except.map]

theorem parse_cut {lib : CxxStd Double} {cut rest : Text} {playlist : Playlist Double}
    (accepted : parse lib (cut ++ rest) = .ok playlist) (boundary : LineBoundary cut rest)
    (headed : visibleLines (stripBom cut) ≠ []) :
    ∃ part, parse lib cut = .ok part ∧ part.segments <+: playlist.segments := by
  obtain ⟨header, body, ctx, lines, tagged, run, rfl⟩ := parse_ok accepted
  obtain ⟨more, whole⟩ := manifestLines_cut boundary
  rw [lines] at whole
  cases part : manifestLines cut with
  | nil =>
    refine absurd ?_ headed
    rw [← manifestLines_text, part]
    rfl
  | cons first read =>
    rw [part, List.cons_append, List.cons.injEq] at whole
    obtain ⟨rfl, rfl⟩ := whole
    obtain ⟨before, reached, later⟩ := processLines_prefix run
    refine ⟨finalizePlaylist lib before.playlist, ?_, ?_⟩
    · rw [parse_of_lines part tagged, reached]
      rfl
    · rw [finalizePlaylist_segments, finalizePlaylist_segments]
      exact processLines_segments later

/-- The first offending line decides an error, and what is accepted stays accepted
when it is cut at a line boundary behind the header. -/
theorem parse_firstOffence {lib : CxxStd Double} {input : Text} (few : (physicalLines input).length < 2 ^ 32) :
    (∀ error, parse lib input = .error error →
      (error.code = .invalidFormat ∨ error.code = .missingMandatoryTags) →
      (∃ i raw, error.lineNumber.toNat = i + 1 ∧ (physicalLines input)[i]? = some raw ∧
        error.Offends (trim raw)) ∧
      ∀ other, (physicalLines other).take error.lineNumber.toNat =
        (physicalLines input).take error.lineNumber.toNat → parse lib other = .error error) ∧
    ∀ playlist, parse lib input = .ok playlist →
      ∀ cut rest, input = cut ++ rest → LineBoundary cut rest → visibleLines (stripBom cut) ≠ [] →
        ∃ part, parse lib cut = .ok part ∧ part.segments <+: playlist.segments := by
  constructor
  · intro error failed code
    obtain ⟨front, raw, ⟨back, whole⟩, number, offends, decided⟩ := parse_error_line few failed code
    have first : (physicalLines input).take error.lineNumber.toNat = front ++ [raw] := by
      rw [number, ← whole]
      exact List.take_left' (by simp)
    constructor
    · refine ⟨front.length, raw, number, ?_, offends⟩
      rw [← whole, List.append_assoc, List.getElem?_append_right le_rfl]
      simp
    · intro other same
      refine decided other ?_
      rw [← first, ← same]
      exact List.take_prefix _ _
  · rintro playlist accepted cut rest rfl boundary headed
    exact parse_cut accepted boundary headed

/-- A URI without its tag behind a blank line. -/
def orphanUri : Text := text "#EXTM3U\n\nuri\n#EXT-X-ENDLIST"

theorem parse_firstOffence_orphanUri :
    (∀ other, (physicalLines other).take 3 = (physicalLines orphanUri).take 3 →
      parse CxxStd.plain other =
        .error ⟨.missingMandatoryTags, 3, "Segment URI without preceding #EXTINF"⟩) ∧
    ∃ playlist part, parse CxxStd.plain mixedManifest = .ok playlist ∧
      parse CxxStd.plain (mixedManifest.take 21) = .ok part ∧ part.segments <+: playlist.segments := by
  constructor
  · have failed : parse CxxStd.plain orphanUri =
        .error ⟨.missingMandatoryTags, 3, "Segment URI without preceding #EXTINF"⟩ := by decide +kernel
    exact ((parse_firstOffence (by decide +kernel)).1 _ failed (.inr rfl)).2
  · obtain ⟨playlist, accepted, _⟩ := parse_of_test CxxStd.plain mixedManifest
      (fun playlist => playlist.segments.length) 1 (by decide +kernel)
    obtain ⟨part, cut, same⟩ := (parse_firstOffence (by decide +kernel)).2 playlist accepted
      (mixedManifest.take 21) (mixedManifest.drop 21) (List.take_append_drop 21 mixedManifest).symm
      (.inr (.inl (by decide +kernel))) (by decide +kernel)
    exact ⟨playlist, part, accepted, cut, same⟩

end Iptv.Manifest
