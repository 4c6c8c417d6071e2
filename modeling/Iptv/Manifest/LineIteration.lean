import Iptv.Lib.Iterator
import Iptv.Manifest.UriAccounting

namespace Iptv.Manifest

/-- A physical line under its number, unless trimming leaves nothing of it. -/
def numberedLine (line : Text × Nat) : Option LineEntry :=
  if trim line.1 = [] then none else some ⟨trim line.1, UInt32.ofNat line.2⟩

/-- The lines of a text: split at the newlines, numbered from one, trimmed, and
without those that are blank. -/
def numberedLines (content : Text) : List LineEntry :=
  ((content.splitOn newline).zipIdx 1).filterMap numberedLine

theorem numbered_zipIdx (lines : List Text) (n : Nat) :
    numbered lines (UInt32.ofNat n) = (lines.zipIdx (n + 1)).filterMap numberedLine := by
  induction lines generalizing n with
  | nil => rfl
  | cons raw rest ih =>
    have next : UInt32.ofNat n + 1 = UInt32.ofNat (n + 1) := (UInt32.ofNat_add n 1).symm
    rw [List.zipIdx_cons, List.filterMap_cons, numbered, next, ih]
    by_cases blank : trim raw = []
    · simp [numberedLine, blank]
    · simp [numberedLine, blank]

theorem LineReader.entries_new (content : Text) :
    ({ content } : LineReader).entries = numberedLines content :=
  numbered_zipIdx _ 0

theorem numberedLines_text (content : Text) :
    (numberedLines content).map (·.text) = visibleLines content := by
  rw [← LineReader.entries_new, LineReader.entries, numbered_text]
  rfl

/-- The delivered texts lie in the content one behind the other. -/
theorem numberedLines_laidOut (content : Text) :
    LaidOut ((numberedLines content).map (·.text)) content := by
  have whole := laidOut_lines (content.splitOn newline)
  rw [List.intercalate_splitOn] at whole
  rw [numberedLines_text]
  exact whole.sublist List.filter_sublist

theorem numberedLines_trimmed {content : Text} {entry : LineEntry} (member : entry ∈ numberedLines content) :
    ∃ raw ∈ content.splitOn newline, trim raw = entry.text := by
  obtain ⟨⟨raw, i⟩, line, delivered⟩ := List.mem_filterMap.mp member
  simp only [numberedLine, Option.ite_none_left_eq_some, Option.some.injEq] at delivered
  obtain ⟨_, rfl⟩ := delivered
  exact ⟨raw, List.fst_mem_of_mem_zipIdx line, rfl⟩

theorem LineReader.next_end {r : LineReader} (ended : r.entries = []) :
    ∃ r' : LineReader, r.next = (none, r') ∧ r'.entries = [] := by
  obtain ⟨delivered, behind⟩ := r.next_spec
  rw [ended] at delivered behind
  exact ⟨r.next.2, Prod.ext delivered rfl, behind⟩

/-- The reader delivers the lines that it has in front of it and stays at their end. -/
theorem LineReader.yields_entries (r : LineReader) :
    ∃ last : LineReader, Yields LineReader.next r r.entries last ∧ last.entries = [] := by
  have deliver : ∀ {r : LineReader} {entry : LineEntry} {rest : List LineEntry}, r.entries = entry :: rest →
      ∃ r' : LineReader, r.next = (some entry, r') ∧ r'.entries = rest := by
    intro r entry rest front
    obtain ⟨delivered, behind⟩ := r.next_spec
    rw [front] at delivered behind
    exact ⟨r.next.2, Prod.ext delivered rfl, behind⟩
  have start : r.entries = r.entries := rfl
  simpa only [List.map_id] using
    Yields.of_pending (fun pending (r : LineReader) => r.entries = pending) id LineReader.next_end deliver start

/-- Iterating the reader over a text splits it into its lines, numbers and trims
them, leaves out the blank ones, and ends for good. -/
theorem reader_delivers_lines (content : Text) :
    ∃ last : LineReader, Yields LineReader.next { content } (numberedLines content) last ∧
      (∀ n, ((fun r => r.next.2)^[n] last).next.1 = none) ∧
      ∀ entry ∈ numberedLines content, entry.text <:+: content ∧
        (∀ c ∈ entry.text.head?, c ≠ byte ' ' ∧ c ≠ byte '\t') ∧
        ∀ c ∈ entry.text.getLast?, c ≠ byte ' ' ∧ c ≠ byte '\t' ∧ c ≠ byte '\r' := by
  obtain ⟨last, yields, ended⟩ := ({ content } : LineReader).yields_entries
  rw [LineReader.entries_new] at yields
  refine ⟨last, yields, fun n => ?_, fun entry member => ⟨?_, ?_, ?_⟩⟩
  · exact next_ended (fun r : LineReader => r.entries = []) LineReader.next_end ended n
  · exact (numberedLines_laidOut content).inside _ (List.mem_map_of_mem member)
  · intro c first
    obtain ⟨raw, _, same⟩ := numberedLines_trimmed member
    have plain : isBlank c = false := trim_first (same.symm ▸ first)
    simpa [isBlank] using plain
  · intro c last
    obtain ⟨raw, _, same⟩ := numberedLines_trimmed member
    have plain : isTrailing c = false := trim_last (same.symm ▸ last)
    simp only [isTrailing, isBlank, Bool.or_eq_false_iff, beq_eq_false_iff_ne] at plain
    exact ⟨plain.2.1, plain.2.2, plain.1⟩

end Iptv.Manifest
