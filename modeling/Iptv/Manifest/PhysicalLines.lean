import Mathlib.Data.List.Infix
import Iptv.Manifest.RenderedLines

namespace Iptv.Manifest

/-- The physical lines of a text; a newline at the end opens no further line. -/
def physicalLines (t : Text) : List Text :=
  if (t.splitOn newline).getLast? = some [] then (t.splitOn newline).dropLast else t.splitOn newline

/-- The cut of a text ends at a line boundary: at the end, behind a newline or in front of one. -/
def LineBoundary (cut rest : Text) : Prop :=
  rest = [] ∨ cut.getLast? = some newline ∨ rest.head? = some newline

/-- The lines that a reader delivers: trimmed, without the blank ones. -/
def visible (lines : List Text) : List Text := (lines.map trim).filter (· ≠ [])

def visibleLines (t : Text) : List Text := visible (t.splitOn newline)

theorem numbered_text (lines : List Text) (n : UInt32) :
    (numbered lines n).map (·.text) = visible lines := by
  induction lines generalizing n with
  | nil => rfl
  | cons raw rest ih =>
    by_cases blank : trim raw = []
    · simpa [numbered, visible, blank] using ih (n + 1)
    · simpa [numbered, visible, blank] using ih (n + 1)

theorem manifestLines_text (input : Text) :
    (manifestLines input).map (·.text) = visibleLines (stripBom input) :=
  numbered_text _ _

theorem numbered_append (lines more : List Text) (n : UInt32) :
    numbered (lines ++ more) n = numbered lines n ++ numbered more (n + UInt32.ofNat lines.length) := by
  induction lines generalizing n with
  | nil => simp [numbered]
  | cons raw lines ih =>
    have next : n + 1 + UInt32.ofNat lines.length = n + UInt32.ofNat (raw :: lines).length := by
      rw [List.length_cons, Nat.add_comm lines.length, UInt32.ofNat_add, UInt32.add_assoc]
      rfl
    by_cases blank : trim raw = []
    · simp only [List.cons_append, numbered, blank, ne_eq, not_true_eq_false, if_false, ih, next]
    · simp only [List.cons_append, numbered, blank, ne_eq, not_false_eq_true, if_true, ih, next]

/-- The lines in front of a delivered line end with the physical line it was trimmed from. -/
theorem numbered_split {lines : List Text} {n : UInt32} {before after : List LineEntry} {entry : LineEntry}
    (split : numbered lines n = before ++ entry :: after) :
    ∃ front raw back, lines = front ++ raw :: back ∧ numbered front n = before ∧ trim raw = entry.text ∧
      trim raw ≠ [] ∧ entry.number = n + UInt32.ofNat (front.length + 1) := by
  induction lines generalizing n before with
  | nil => simp [numbered] at split
  | cons raw lines ih =>
    have behind : ∀ front : List Text,
        n + 1 + UInt32.ofNat (front.length + 1) = n + UInt32.ofNat ((raw :: front).length + 1) := by
      intro front
      rw [List.length_cons, Nat.add_comm (front.length + 1), UInt32.ofNat_add 1, UInt32.add_assoc]
      rfl
    by_cases blank : trim raw = []
    · simp only [numbered, blank, ne_eq, not_true_eq_false, if_false] at split
      obtain ⟨front, line, back, rfl, same, text, visible, number⟩ := ih split
      refine ⟨raw :: front, line, back, rfl, ?_, text, visible, number.trans (behind front)⟩
      simp only [numbered, blank, ne_eq, not_true_eq_false, if_false, same]
    · simp only [numbered, blank, ne_eq, not_false_eq_true, if_true] at split
      cases before with
      | nil =>
        obtain ⟨rfl, _⟩ := List.cons.inj split
        exact ⟨[], raw, lines, rfl, rfl, rfl, blank, rfl⟩
      | cons first before =>
        obtain ⟨rfl, later⟩ := List.cons.inj split
        obtain ⟨front, line, back, rfl, same, text, visible, number⟩ := ih later
        refine ⟨raw :: front, line, back, rfl, ?_, text, visible, number.trans (behind front)⟩
        simp only [numbered, blank, ne_eq, not_false_eq_true, if_true, same]

theorem numbered_concat {front : List Text} {raw : Text} {n : UInt32} {before : List LineEntry} {entry : LineEntry}
    (delivered : numbered front n = before) (trimmed : trim raw = entry.text) (visible : trim raw ≠ [])
    (number : entry.number = n + UInt32.ofNat (front.length + 1)) :
    numbered (front ++ [raw]) n = before ++ [entry] := by
  have last : entry = ⟨trim raw, n + UInt32.ofNat front.length + 1⟩ := by
    obtain ⟨line, place⟩ := entry
    dsimp only at trimmed number
    rw [number, ← trimmed, UInt32.ofNat_add, ← UInt32.add_assoc]
    rfl
  rw [numbered_append, delivered, last]
  simp only [numbered, visible, ne_eq, not_false_eq_true, if_true]

theorem splitOn_physicalLines (t : Text) :
    t.splitOn newline = physicalLines t ∨ t.splitOn newline = physicalLines t ++ [[]] := by
  unfold physicalLines
  split
  · rename_i last
    obtain ⟨front, split⟩ := List.getLast?_eq_some_iff.mp last
    exact .inr (by rw [split, List.dropLast_concat])
  · exact .inl rfl

theorem splitOn_oneLine (t : Text) : ∀ line ∈ t.splitOn newline, newline ∉ line := by
  induction t with
  | nil => simp
  | cons c t ih =>
    obtain ⟨line, lines, split⟩ := List.exists_cons_of_ne_nil (List.splitOn_ne_nil newline t)
    rw [split, List.forall_mem_cons] at ih
    rw [List.splitOn_cons_eq_if_modifyHead, split]
    by_cases stop : (c == newline) = true
    · simpa [stop] using ih
    · have other : newline ≠ c := fun same => stop (by simp [same])
      simpa [stop, other] using ih

theorem splitOn_head_starts {t line : Text} {lines : List Text} (split : t.splitOn newline = line :: lines) :
    startsWith t line = true := by
  have whole : [newline].intercalate (t.splitOn newline) = t := List.intercalate_splitOn newline
  rw [split] at whole
  rw [← whole]
  exact startsWith_intercalate line lines

theorem stripBom_bom (t : Text) : stripBom (bom ++ t) = t := by
  have starts : startsWith (bom ++ t) bom = true := startsWith_iff.mpr ⟨t, rfl⟩
  rw [stripBom, if_pos starts]
  rfl

theorem splitOn_bom (t : Text) : (bom ++ t).splitOn newline = (t.splitOn newline).modifyHead (bom ++ ·) := by
  have apart : (0xEF : UInt8) ≠ newline ∧ (0xBB : UInt8) ≠ newline ∧ (0xBF : UInt8) ≠ newline := by decide
  simp [bom, List.splitOn_cons_eq_if_modifyHead, apart, List.modifyHead_modifyHead, Function.comp_def]

/-- A byte order mark belongs to the first physical line. -/
theorem splitOn_stripBom (t : Text) :
    (stripBom t).splitOn newline = (t.splitOn newline).modifyHead stripBom := by
  obtain ⟨line, lines, split⟩ := List.exists_cons_of_ne_nil (List.splitOn_ne_nil newline t)
  by_cases marked : startsWith t bom = true
  · obtain ⟨rest, rfl⟩ := startsWith_iff.mp marked
    rw [splitOn_bom, stripBom_bom, List.modifyHead_modifyHead]
    have strip : stripBom ∘ (bom ++ ·) = id := funext stripBom_bom
    rw [strip, List.modifyHead_id]
    rfl
  · have plain : startsWith line bom = false := by
      by_contra starts
      rw [Bool.not_eq_false, startsWith_iff] at starts
      exact marked (startsWith_iff.mpr (starts.trans (startsWith_iff.mp (splitOn_head_starts split))))
    simp [stripBom, marked, split, plain]

/-- The lines of a manifest are its physical lines without the mark. -/
theorem manifestLines_physical (input : Text) :
    manifestLines input = numbered ((physicalLines input).modifyHead stripBom) 0 := by
  have blank : trim [] = [] := by decide
  have empty : stripBom [] = [] := by decide
  rw [manifestLines, LineReader.entries, List.drop_zero, splitOn_stripBom]
  rcases splitOn_physicalLines input with whole | whole
  · rw [whole]
  · rw [whole]
    cases physicalLines input with
    | nil => simp [numbered, blank, empty]
    | cons line lines =>
      rw [List.cons_append, List.modifyHead_cons, List.modifyHead_cons, ← List.cons_append, numbered_append]
      simp [numbered, blank]

end Iptv.Manifest
