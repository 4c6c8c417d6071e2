import Iptv.Lib.Interleaving
import Iptv.Manifest.PlaylistKinds
import Iptv.Manifest.PhysicalLines

namespace Iptv.Manifest
variable {Double : Type}

/-- The URI lines behind the header line. -/
def uriLines (input : Text) : List Text := (visibleLines (stripBom input)).tail.filter isUri

theorem uriLines_eq (input : Text) : uriLines input = ((bodyLines input).map (·.text)).filter isUri := by
  rw [bodyLines, List.map_tail, manifestLines_text, uriLines]

theorem trim_inside (line : Text) : trim line <:+: line :=
  (List.dropWhile_suffix isBlank).isInfix.trans (List.rdropWhile_prefix isTrailing line).isInfix

theorem laidOut_lines (lines : List Text) : LaidOut (lines.map trim) ([newline].intercalate lines) := by
  induction lines with
  | nil => exact .nil _
  | cons line lines ih =>
    rw [List.map_cons]
    cases lines with
    | nil =>
      have alone : LaidOut [trim line] (line ++ []) := .part (trim_inside line) (.nil [])
      simpa using alone
    | cons second lines =>
      rw [List.intercalate_cons_cons, List.append_assoc]
      exact .part (trim_inside line) (ih.prepend [newline])

theorem uriLines_laidOut (input : Text) : LaidOut (uriLines input) input := by
  have whole := laidOut_lines ((stripBom input).splitOn newline)
  rw [List.intercalate_splitOn] at whole
  have kept : (uriLines input).Sublist (((stripBom input).splitOn newline).map trim) :=
    List.filter_sublist.trans ((List.tail_sublist _).trans List.filter_sublist)
  have inContent := whole.sublist kept
  unfold stripBom at inContent
  split at inContent
  · have behind := inContent.prepend (input.take 3)
    rwa [List.take_append_drop] at behind
  · exact inContent

theorem finalizePlaylist_ascending (lib : CxxStd Double) (playlist : Playlist Double) :
    (finalizePlaylist lib playlist).variants.Pairwise fun a b => a.bandwidth ≤ b.bandwidth := by
  unfold finalizePlaylist
  split
  · exact lib.sort_ascending playlist.variants
  · rename_i none
    rw [ne_eq, not_not] at none
    split <;> simp [none]

/-- The loop has stored one entry for each URI line it has read. -/
def Accounted (lines : List LineEntry) (playlist : Playlist Double) : Prop :=
  Interleaving (playlist.segments.map (·.uri)) (playlist.variants.map (·.uri))
    ((lines.map (·.text)).filter isUri)

/-- How the entries of a playlist and of the playlist that the loop committed
answer to the URI lines of the manifest. -/
structure UriAccount (input : Text) (committed playlist : Playlist Double) : Prop where
  inBuffer : LaidOut (uriLines input) input
  woven : Interleaving (playlist.segments.map (·.uri)) (committed.variants.map (·.uri)) (uriLines input)
  reordered : playlist.variants.Perm committed.variants
  ascending : playlist.variants.Pairwise fun a b => a.bandwidth ≤ b.bandwidth

variable [Zero Double]

theorem Accounted.step {lib : CxxStd Double} {lines : List LineEntry} {entry : LineEntry}
    {ctx ctx' : ParseContext Double} (account : Accounted lines ctx.playlist)
    (run : parseLine lib entry ctx = .ok ctx') : Accounted (lines ++ [entry]) ctx'.playlist := by
  unfold Accounted at account ⊢
  rw [List.map_append, List.filter_append]
  cases parseLine_effect run with
  | tag kind effect =>
    simpa [kind, effect.segments, effect.variants] using account
  | variant kind pending same =>
    subst same
    simpa [kind] using account.append_right entry.text
  | segment kind pending same =>
    subst same
    simpa [kind] using account.append_left entry.text

theorem processLines_accounted {lib : CxxStd Double} {lines : List LineEntry} {ctx : ParseContext Double}
    (run : processLines lib lines .initial = .ok ctx) : Accounted lines ctx.playlist := by
  have first : Accounted [] (ParseContext.initial : ParseContext Double).playlist := .nil
  exact processLines_invariant (P := fun lines ctx => Accounted lines ctx.playlist) first
    (fun _ _ _ _ account step => account.step step) run

/-- What `parseLines` has committed when the manifest is accepted. -/
theorem parse_committed {lib : CxxStd Double} {input : Text} {playlist : Playlist Double}
    (accepted : parse lib input = .ok playlist) :
    ∃ reader committed, validateHeader { content := stripBom input } = .ok reader ∧
      parseLines lib reader = .ok committed ∧ playlist = finalizePlaylist lib committed := by
  unfold parse at accepted
  dsimp only at accepted
  split at accepted
  · cases accepted
  · cases header : validateHeader { content := stripBom input } with
    | error _ => simp [header, Except.bind] at accepted
    | ok reader =>
      cases loop : parseLines lib reader with
      | error _ => simp [header, loop, Except.bind, Except.map] at accepted
      | ok committed =>
        simp only [header, loop, Except.bind, Except.map, Except.ok.injEq] at accepted
        exact ⟨reader, committed, rfl, loop, accepted.symm⟩

theorem validateHeader_entries {input : Text} {reader : LineReader}
    (passed : validateHeader { content := stripBom input } = .ok reader) :
    reader.entries = bodyLines input := by
  have rest := ({ content := stripBom input } : LineReader).next_spec.2
  unfold validateHeader at passed
  split at passed
  · cases passed
  · rename_i first behind delivered
    split at passed
    · obtain rfl := Except.ok.inj passed
      rw [delivered] at rest
      exact rest
    · cases passed

/-- Every URI line of an accepted manifest is one entry, and every entry is a URI line. -/
theorem accepted_uris {lib : CxxStd Double} {input : Text} {playlist : Playlist Double}
    (accepted : parse lib input = .ok playlist) :
    ∃ reader committed, validateHeader { content := stripBom input } = .ok reader ∧
      parseLines lib reader = .ok committed ∧ UriAccount input committed playlist := by
  obtain ⟨reader, committed, passed, loop, rfl⟩ := parse_committed accepted
  refine ⟨reader, committed, passed, loop, uriLines_laidOut input, ?_,
    finalizePlaylist_variants lib committed, finalizePlaylist_ascending lib committed⟩
  rw [parseLines_eq, validateHeader_entries passed] at loop
  cases run : processLines lib (bodyLines input) .initial with
  | error _ => simp [run, Except.map] at loop
  | ok ctx =>
    rw [run] at loop
    obtain rfl := Except.ok.inj loop
    rw [finalizePlaylist_segments, uriLines_eq]
    exact processLines_accounted run

theorem accepted_uris_mixedManifest :
    uriLines mixedManifest = [text "a", text "b"] ∧
      ∃ playlist reader committed, parse CxxStd.plain mixedManifest = .ok playlist ∧
        validateHeader { content := stripBom mixedManifest } = .ok reader ∧
        parseLines CxxStd.plain reader = .ok committed ∧ UriAccount mixedManifest committed playlist := by
  refine ⟨by decide +kernel, ?_⟩
  obtain ⟨playlist, accepted, _⟩ := parse_of_test CxxStd.plain mixedManifest
    (fun playlist => playlist.segments.length) 1 (by decide +kernel)
  obtain ⟨reader, committed, passed, loop, account⟩ := accepted_uris accepted
  exact ⟨playlist, reader, committed, accepted, passed, loop, account⟩

end Iptv.Manifest
