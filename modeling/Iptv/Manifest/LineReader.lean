import Mathlib.Data.List.DropRight
import Iptv.Manifest.Playlist

namespace Iptv.Manifest

structure LineEntry where
  text : Text
  number : UInt32
  deriving DecidableEq

structure LineReader where
  content : Text
  cursor : Nat := 0
  currentLine : UInt32 := 0

def newline : UInt8 := byte '\n'

def isBlank (c : UInt8) : Bool := c == byte ' ' || c == byte '\t'

def isTrailing (c : UInt8) : Bool := c == byte '\r' || isBlank c

/-- The first loop removes a suffix, the second a prefix of what is left. -/
def trim (view : Text) : Text := (view.rdropWhile isTrailing).dropWhile isBlank

/-- One physical line: the raw text up to the newline, and the reader behind it. -/
def LineReader.readRaw (r : LineReader) : Text × LineReader :=
  match find r.content newline r.cursor with
  | none =>
    (r.content.drop r.cursor,
      { r with cursor := r.content.length, currentLine := r.currentLine + 1 })
  | some newlinePos =>
    ((r.content.drop r.cursor).take (newlinePos - r.cursor),
      { r with cursor := newlinePos + 1, currentLine := r.currentLine + 1 })

/-- The loop of `next`; each turn consumes at least one byte, so the bytes after
the cursor bound the turns. -/
def LineReader.nextLoop : Nat → LineReader → Option LineEntry × LineReader
  | 0, r => (none, r)
  | turns + 1, r =>
    if r.cursor < r.content.length then
      let line := trim r.readRaw.1
      if line ≠ [] then (some ⟨line, r.readRaw.2.currentLine⟩, r.readRaw.2)
      else nextLoop turns r.readRaw.2
    else (none, r)

def LineReader.next (r : LineReader) : Option LineEntry × LineReader :=
  r.nextLoop (r.content.length - r.cursor)

/-- The lines of a text in the abstract: split, numbered, trimmed, and the blank
ones left out. -/
def numbered : List Text → UInt32 → List LineEntry
  | [], _ => []
  | raw :: rest, n =>
    if trim raw ≠ [] then ⟨trim raw, n + 1⟩ :: numbered rest (n + 1) else numbered rest (n + 1)

def LineReader.entries (r : LineReader) : List LineEntry :=
  numbered ((r.content.drop r.cursor).splitOn newline) r.currentLine

theorem LineReader.entries_end {r : LineReader} (past : r.content.length ≤ r.cursor) : r.entries = [] := by
  have blank : trim [] = [] := by decide
  simp [entries, List.drop_eq_nil_of_le past, numbered, blank]

theorem LineReader.readRaw_cursor {r : LineReader} (within : r.cursor < r.content.length) :
    r.cursor < r.readRaw.2.cursor ∧ r.readRaw.2.cursor ≤ r.content.length := by
  unfold readRaw
  cases hit : find r.content newline r.cursor with
  | none => exact ⟨within, le_rfl⟩
  | some k =>
    obtain ⟨before, after, rest, _, place⟩ := find_some hit
    have length := congrArg List.length rest
    simp only [List.length_drop, List.length_append, List.length_cons] at length
    dsimp only
    omega

theorem LineReader.readRaw_content (r : LineReader) : r.readRaw.2.content = r.content := by
  unfold readRaw
  split <;> rfl

theorem LineReader.readRaw_currentLine (r : LineReader) :
    r.readRaw.2.currentLine = r.currentLine + 1 := by
  unfold readRaw
  split <;> rfl

/-- A reader and the one behind its next physical line agree on all later lines. -/
theorem LineReader.readRaw_entries (r : LineReader) :
    r.entries = numbered [r.readRaw.1] r.currentLine ++ r.readRaw.2.entries := by
  unfold readRaw
  cases hit : find r.content newline r.cursor with
  | none =>
    have absent := find_none.mp hit
    have done := ({ r with cursor := r.content.length, currentLine := r.currentLine + 1 } :
      LineReader).entries_end le_rfl
    rw [done, entries, List.splitOn_eq_singleton absent, List.append_nil]
  | some k =>
    obtain ⟨before, after, rest, absent, place⟩ := find_some hit
    have tail : r.content.drop (k + 1) = after := by
      have same : k + 1 = r.cursor + (before.length + 1) := by omega
      rw [same, ← List.drop_drop, rest, ← List.drop_drop]
      simp
    have raw : (r.content.drop r.cursor).take (k - r.cursor) = before := by
      rw [rest, place]
      simp
    dsimp only
    rw [raw, entries, rest, List.splitOn_append_cons_self_of_not_mem absent, entries, tail]
    simp only [numbered]
    split <;> simp

/-- The loop delivers the first line of the rest and stops in front of the others. -/
theorem LineReader.nextLoop_spec {turns : Nat} {r : LineReader}
    (enough : r.content.length - r.cursor ≤ turns) :
    (r.nextLoop turns).1 = r.entries.head? ∧ (r.nextLoop turns).2.entries = r.entries.tail := by
  induction turns generalizing r with
  | zero =>
    have past := r.entries_end (by omega)
    simp [nextLoop, past]
  | succ turns ih =>
    unfold nextLoop
    split
    · rename_i within
      have advance := r.readRaw_cursor within
      have content := r.readRaw_content
      rw [r.readRaw_entries]
      by_cases blank : trim r.readRaw.1 = []
      · simpa [numbered, blank] using ih (r := r.readRaw.2) (by rw [content]; omega)
      · simp [numbered, blank, r.readRaw_currentLine]
    · rename_i past
      simp [r.entries_end (by omega)]

theorem LineReader.next_spec (r : LineReader) :
    r.next.1 = r.entries.head? ∧ r.next.2.entries = r.entries.tail :=
  nextLoop_spec le_rfl

/-- The reader never leaves its text, and a delivered line consumes part of it. -/
theorem LineReader.nextLoop_advances {turns : Nat} {r : LineReader} :
    (r.nextLoop turns).2.content = r.content ∧
      ((r.nextLoop turns).1 ≠ none → r.cursor < r.content.length ∧ r.cursor < (r.nextLoop turns).2.cursor) := by
  induction turns generalizing r with
  | zero => simp [nextLoop]
  | succ turns ih =>
    unfold nextLoop
    split
    · rename_i within
      have advance := (r.readRaw_cursor within).1
      have content := r.readRaw_content
      by_cases blank : trim r.readRaw.1 = []
      · obtain ⟨same, later⟩ := ih (r := r.readRaw.2)
        rw [content] at same later
        simp only [blank, ne_eq, not_true_eq_false, if_false]
        exact ⟨same, fun read => ⟨within, advance.trans (later read).2⟩⟩
      · simpa [blank, content] using ⟨within, advance⟩
    · simp

theorem LineReader.next_advances (r : LineReader) :
    r.next.2.content = r.content ∧
      (r.next.1 ≠ none → r.cursor < r.content.length ∧ r.cursor < r.next.2.cursor) :=
  nextLoop_advances

end Iptv.Manifest
