import Iptv.Manifest.LineEffects

namespace Iptv.Manifest
variable {Double : Type}

/-- A line that the reader delivers as it was written. -/
structure ReadableLine (line : Text) : Prop where
  ne_nil : line ≠ []
  oneLine : newline ∉ line
  trimmed : trim line = line

theorem trim_eq_self {line : Text} (start : ∀ c, line.head? = some c → isBlank c = false)
    (stop : ∀ c, line.getLast? = some c → isTrailing c = false) : trim line = line := by
  have right : line.rdropWhile isTrailing = line := by
    rw [List.rdropWhile_eq_self_iff]
    intro some
    simp [stop _ (List.getLast?_eq_some_getLast some)]
  rw [trim, right]
  cases line with
  | nil => rfl
  | cons c rest => simp [start c rfl]

theorem trim_first {line : Text} {c : UInt8} (first : (trim line).head? = some c) : isBlank c = false := by
  have outer := List.head?_dropWhile_not isBlank (line.rdropWhile isTrailing)
  rw [← trim, first] at outer
  exact outer

theorem trim_last {line : Text} {c : UInt8} (last : (trim line).getLast? = some c) : isTrailing c = false := by
  obtain ⟨front, whole⟩ := List.dropWhile_suffix (l := line.rdropWhile isTrailing) isBlank
  rw [← trim] at whole
  have cut : (line.rdropWhile isTrailing).getLast? = some c := by
    rw [← whole, List.getLast?_append, last, Option.some_or]
  have some : line.rdropWhile isTrailing ≠ [] := by
    intro empty
    simp [empty] at cut
  have refused := List.rdropWhile_last_not isTrailing line some
  rw [← List.getLast_of_getLast?_eq_some cut]
  simpa using refused

theorem getLast_of_trim {line : Text} (trimmed : trim line = line) {c : UInt8}
    (last : line.getLast? = some c) : isTrailing c = false :=
  trim_last (trimmed ▸ last)

theorem head_of_trim {line : Text} (trimmed : trim line = line) {c : UInt8} (first : line.head? = some c) :
    isBlank c = false :=
  trim_first (trimmed ▸ first)

/-- A tag followed by a value without blanks at its end. -/
theorem ReadableLine.tagged {tag value : Text} (tagLine : ReadableLine tag) (valueLine : newline ∉ value)
    (valueStop : ∀ c, value.getLast? = some c → isTrailing c = false) : ReadableLine (tag ++ value) where
  ne_nil := by simp [tagLine.ne_nil]
  oneLine := by simp [tagLine.oneLine, valueLine]
  trimmed := by
    refine trim_eq_self ?_ ?_
    · intro c first
      rw [List.head?_append_of_ne_nil tag tagLine.ne_nil] at first
      exact head_of_trim tagLine.trimmed first
    · intro c last
      rw [List.getLast?_append] at last
      cases ended : value.getLast? with
      | none => exact getLast_of_trim tagLine.trimmed (by simpa [ended] using last)
      | some d =>
        rw [ended, Option.some_or, Option.some.injEq] at last
        exact valueStop c (by rw [ended, last])

theorem readable_literal {line : Text} (checked : line ≠ [] ∧ newline ∉ line ∧ trim line = line) :
    ReadableLine line := ⟨checked.1, checked.2.1, checked.2.2⟩

theorem decimal_readable (n : Nat) :
    newline ∉ decimal n ∧ ∀ c, (decimal n).getLast? = some c → isTrailing c = false := by
  constructor
  · intro member
    have digit := decimal_digits n _ member
    exact absurd digit (by decide)
  · intro c last
    have digit := decimal_digits n c (List.mem_of_getLast? last)
    unfold isTrailing isBlank
    simp only [Bool.or_eq_false_iff, beq_eq_false_iff_ne]
    refine ⟨?_, ?_, ?_⟩ <;> rintro rfl <;> exact absurd digit (by decide)

/-- The reader delivers readable lines as they are, and nothing for a blank rest. -/
theorem numbered_readable {lines : List Text} (readable : ∀ line ∈ lines, ReadableLine line)
    {blank : List Text} (rest : ∀ line ∈ blank, trim line = []) (n : UInt32) :
    (numbered (lines ++ blank) n).map (·.text) = lines := by
  induction lines generalizing n with
  | nil =>
    induction blank generalizing n with
    | nil => rfl
    | cons line blank ih =>
      have skipped := rest line (by simp)
      simpa [numbered, skipped] using ih (fun line member => rest line (by simp [member])) (n + 1)
  | cons line lines ih =>
    have first := readable line (by simp)
    have others := ih (fun line member => readable line (by simp [member])) (n + 1)
    simp only [List.cons_append, numbered, first.trimmed, ne_eq, first.ne_nil, not_false_eq_true,
      if_true, List.map_cons, others]

theorem startsWith_intercalate (first : Text) (rest : List Text) :
    startsWith ([newline].intercalate (first :: rest)) first = true := by
  rw [startsWith_iff]
  cases rest with
  | nil => simp
  | cons second rest => simp [List.intercalate_cons_cons]

/-- The lines of a text that was put together from a header and readable lines;
the newline of the last one is optional. -/
theorem rendered_lines {body : List Text} (readable : ∀ line ∈ body, ReadableLine line) (finalNewline : Bool) :
    stripBom ([newline].intercalate (text "#EXTM3U" :: body ++ if finalNewline then [[]] else [])) ≠ [] ∧
      (manifestLines ([newline].intercalate
        (text "#EXTM3U" :: body ++ if finalNewline then [[]] else []))).map (·.text) = text "#EXTM3U" :: body := by
  generalize written : [newline].intercalate (text "#EXTM3U" :: body ++ if finalNewline then [[]] else []) = input
  have starts : startsWith input (text "#EXTM3U") = true := by
    rw [← written]
    exact startsWith_intercalate _ _
  have noBom : stripBom input = input := by
    simp [stripBom, startsWith_apart starts bom (by decide)]
  rw [manifestLines, noBom]
  refine ⟨?_, ?_⟩
  · intro empty
    rw [empty] at starts
    exact absurd starts (by decide)
  have all : ∀ line ∈ text "#EXTM3U" :: body, ReadableLine line :=
    List.forall_mem_cons.mpr ⟨readable_literal (by decide), readable⟩
  have blank : ∀ line ∈ (if finalNewline then [[]] else [] : List Text), trim line = [] ∧ newline ∉ line := by
    intro line member
    split at member
    · obtain rfl := List.mem_singleton.mp member
      decide
    · simp at member
  have split : input.splitOn newline = text "#EXTM3U" :: body ++ if finalNewline then [[]] else [] := by
    rw [← written]
    refine List.splitOn_intercalate newline (fun line member => ?_) (by simp)
    rcases List.mem_append.mp member with tagged | last
    · exact (all line tagged).oneLine
    · exact (blank line last).2
  simp only [LineReader.entries, List.drop_zero, split]
  exact numbered_readable all (fun line member => (blank line member).1) 0

variable [Zero Double] {lib : CxxStd Double}

/-- Reading some lines from any context that meets `P` succeeds and leaves `Q`. -/
def Reads (lib : CxxStd Double) (lines : List Text) (P Q : ParseContext Double → Prop) : Prop :=
  ∀ (entries : List LineEntry) (ctx : ParseContext Double), entries.map (·.text) = lines → P ctx →
    ∃ ctx', processLines lib entries ctx = .ok ctx' ∧ Q ctx'

variable {P Q R : ParseContext Double → Prop}

theorem Reads.nil : Reads lib [] P P := by
  intro entries ctx same start
  obtain rfl := List.map_eq_nil_iff.mp same
  exact ⟨ctx, rfl, start⟩

theorem Reads.line {line : Text}
    (step : ∀ ctx number, P ctx → ∃ ctx', parseLine lib ⟨line, number⟩ ctx = .ok ctx' ∧ Q ctx') :
    Reads lib [line] P Q := by
  intro entries ctx same start
  obtain ⟨entry, rfl, rfl⟩ := List.map_eq_singleton_iff.mp same
  obtain ⟨ctx', run, stop⟩ := step ctx entry.number start
  exact ⟨ctx', by simp [processLines, run, Except.bind], stop⟩

theorem Reads.append {lines more : List Text} (first : Reads lib lines P Q) (second : Reads lib more Q R) :
    Reads lib (lines ++ more) P R := by
  intro entries ctx same start
  obtain ⟨before, after, rfl, left, right⟩ := List.map_eq_append_iff.mp same
  obtain ⟨middle, run, reached⟩ := first before ctx left start
  obtain ⟨ctx', tail, stop⟩ := second after middle right reached
  refine ⟨ctx', ?_, stop⟩
  rw [processLines_bind, run]
  exact tail

/-- A tag line goes to its handler with the line number in the context. -/
theorem Reads.tag (entry : Text × TagHandler Double) (rest : Text) (member : entry ∈ tagDispatchTable lib)
    (step : ∀ ctx number, P ctx →
      ∃ ctx', entry.2 (entry.1 ++ rest) { ctx with lineNum := number } = .ok ctx' ∧ Q ctx') :
    Reads lib [entry.1 ++ rest] P Q := by
  refine .line fun ctx number start => ?_
  obtain ⟨ctx', run, stop⟩ := step ctx number start
  have starts : startsWith (entry.1 ++ rest) entry.1 = true := startsWith_iff.mpr ⟨rest, rfl⟩
  have hash : startsWith entry.1 (text "#") = true := by
    simp only [tagDispatchTable, List.mem_cons, List.not_mem_nil, or_false] at member
    rcases member with rfl | rfl | rfl | rfl | rfl | rfl <;> dsimp only <;> decide
  have tagged : startsWith (entry.1 ++ rest) (text "#") = true :=
    startsWith_iff.mpr ((startsWith_iff.mp hash).trans ⟨rest, rfl⟩)
  refine ⟨ctx', ?_, stop⟩
  simp only [parseLine, tagged, if_true, dispatchTag_of_mem member starts]
  exact run

/-- A text whose lines behind the header can be read is accepted. -/
theorem parse_reads {input : Text} {body : List Text} (some : stripBom input ≠ [])
    (lines : (manifestLines input).map (·.text) = text "#EXTM3U" :: body)
    (reads : Reads lib body (· = .initial) Q) :
    ∃ ctx, Q ctx ∧ parse lib input = .ok (finalizePlaylist lib ctx.playlist) := by
  obtain ⟨header, rest, all, first, others⟩ := List.map_eq_cons_iff.mp lines
  obtain ⟨ctx, run, stop⟩ := reads rest .initial others rfl
  have tagged : startsWith header.text (text "#EXTM3U") = true := by rw [first]; decide
  refine ⟨ctx, stop, ?_⟩
  rw [parse_eq, if_neg some, all]
  simp only [tagged, if_true, run, Except.map]

end Iptv.Manifest
