import Iptv.Manifest.PhysicalLines
import Iptv.Manifest.UriAccounting

namespace Iptv.Manifest
variable {Double : Type}

/-- A comment, or a tag without a handler. -/
def isIgnored (lib : CxxStd Double) (line : Text) : Bool :=
  startsWith line (text "#") && (tagDispatchTable lib).all fun entry => !startsWith line entry.1

/-- One change of the layout. `replace` keeps what is left of a line after trimming;
the other two add a blank line or, behind the header line, an ignored one. -/
inductive LayoutChange (lib : CxxStd Double) : List Text → List Text → Prop
  | replace (before after : List Text) {raw raw' : Text} (same : trim raw = trim raw')
      (oneLine : newline ∉ raw) (oneLine' : newline ∉ raw') :
      LayoutChange lib (before ++ raw :: after) (before ++ raw' :: after)
  | blank (before after : List Text) {raw : Text} (empty : trim raw = []) (oneLine : newline ∉ raw) :
      LayoutChange lib (before ++ after) (before ++ raw :: after)
  | ignored (before after : List Text) {raw : Text} (headed : ∃ line ∈ before, trim line ≠ [])
      (unknown : isIgnored lib raw = true) (oneLine : newline ∉ raw) :
      LayoutChange lib (before ++ after) (before ++ raw :: after)

/-- Any combination of changes and of their converses, which delete lines. -/
def SameLayout (lib : CxxStd Double) : List Text → List Text → Prop :=
  Relation.EqvGen (LayoutChange lib)

/-- The context without the line number, which only diagnostics read. -/
def ParseContext.forgetLine (ctx : ParseContext Double) : ParseContext Double := { ctx with lineNum := 0 }

def outcome (result : Except ParseError (ParseContext Double)) :
    Except ParseErrorCode (ParseContext Double) :=
  (result.mapError (·.code)).map ParseContext.forgetLine

theorem handleExtInf_outcome (lib : CxxStd Double) (line : Text) (ctx : ParseContext Double) (n m : UInt32) :
    outcome (handleExtInf lib line { ctx with lineNum := n }) =
      outcome (handleExtInf lib line { ctx with lineNum := m }) := by
  unfold handleExtInf parseExtInf
  dsimp only
  split <;> rfl

theorem dispatchTag_outcome (lib : CxxStd Double) (line : Text) (ctx : ParseContext Double) (n m : UInt32) :
    outcome (dispatchTag lib line { ctx with lineNum := n }) =
      outcome (dispatchTag lib line { ctx with lineNum := m }) := by
  unfold dispatchTag
  split
  · rfl
  · rename_i entry found
    have member := List.mem_of_find?_eq_some found
    simp only [tagDispatchTable, List.mem_cons, List.not_mem_nil, or_false] at member
    rcases member with rfl | rfl | rfl | rfl | rfl | rfl
    · exact handleExtInf_outcome lib line ctx n m
    · dsimp only [handleTargetDuration]
      split <;> rfl
    · dsimp only [handleMediaSequence]
      split <;> rfl
    · rfl
    · rfl
    · rfl

theorem dispatchTag_ignored {lib : CxxStd Double} {line : Text} (unknown : isIgnored lib line = true)
    (ctx : ParseContext Double) : dispatchTag lib line ctx = .ok ctx := by
  have none : (tagDispatchTable lib).find? (fun entry => startsWith line entry.1) = none := by
    rw [List.find?_eq_none]
    intro entry member
    have apart := List.all_eq_true.mp (Bool.and_eq_true_iff.mp unknown).2 entry member
    simpa using apart
  simp only [dispatchTag, none]

/-- What the layout does not touch: the header line and the lines behind it that are read. -/
def layoutKey (lib : CxxStd Double) (lines : List Text) : Option Text × List Text :=
  ((visible lines).head?, (visible lines).tail.filter (!isIgnored lib ·))

theorem visible_append (lines more : List Text) : visible (lines ++ more) = visible lines ++ visible more := by
  simp [visible]

/-- Trimming a line that begins with solid bytes cuts at its end only, behind them. -/
theorem trim_front {raw front : Text} (starts : startsWith raw front = true) (some : front ≠ [])
    (solid : front.all (!isTrailing ·) = true) : trim raw <+: raw ∧ startsWith (trim raw) front = true := by
  have solid : ∀ c ∈ front, isTrailing c = false := by simpa using solid
  obtain ⟨rest, rfl⟩ := startsWith_iff.mp starts
  have kept : front <+: (front ++ rest).rdropWhile isTrailing := by
    induction rest using List.reverseRecOn with
    | nil =>
      have last : (front.rdropWhile isTrailing) = front := by
        rw [List.rdropWhile_eq_self_iff]
        intro inhabited
        simp [solid _ (List.getLast_mem inhabited)]
      rw [List.append_nil, last]
    | append_singleton rest c ih =>
      rw [← List.append_assoc]
      by_cases trailing : isTrailing c = true
      · rw [List.rdropWhile_concat_pos _ _ _ trailing]
        exact ih (startsWith_iff.mpr (List.prefix_append _ _))
      · rw [List.rdropWhile_concat_neg _ _ _ trailing]
        exact (List.prefix_append front rest).trans (List.prefix_append _ _)
  have whole : trim (front ++ rest) = (front ++ rest).rdropWhile isTrailing := by
    obtain ⟨tail, split⟩ := kept
    obtain ⟨c, more, rfl⟩ := List.exists_cons_of_ne_nil some
    have blank : isBlank c = false := by
      have first := solid c (List.mem_cons_self ..)
      simp only [isTrailing, Bool.or_eq_false_iff] at first
      exact first.2
    rw [trim, ← split, List.cons_append, List.dropWhile_cons_of_neg (by simp [blank])]
  rw [whole]
  exact ⟨List.rdropWhile_prefix _ _, startsWith_iff.mpr kept⟩

theorem isIgnored_trim {lib : CxxStd Double} {raw : Text} (unknown : isIgnored lib raw = true) :
    isIgnored lib (trim raw) = true ∧ trim raw ≠ [] := by
  obtain ⟨tag, apart⟩ := Bool.and_eq_true_iff.mp unknown
  obtain ⟨part, stillTag⟩ := trim_front tag (by decide) (by decide)
  constructor
  · rw [isIgnored, stillTag, Bool.true_and, List.all_eq_true]
    intro entry member
    have absent := List.all_eq_true.mp apart entry member
    simp only [Bool.not_eq_eq_eq_not, Bool.not_true] at absent ⊢
    by_contra starts
    rw [Bool.not_eq_false, startsWith_iff] at starts
    rw [startsWith_iff.mpr (starts.trans part)] at absent
    cases absent
  · intro empty
    rw [empty] at stillTag
    exact absurd stillTag (by decide)

theorem LayoutChange.key {lib : CxxStd Double} {lines lines' : List Text}
    (change : LayoutChange lib lines lines') : layoutKey lib lines' = layoutKey lib lines := by
  cases change with
  | @replace before after raw raw' same =>
    have kept : visible (before ++ raw' :: after) = visible (before ++ raw :: after) := by
      simp only [visible, List.map_append, List.map_cons, same]
    rw [layoutKey, layoutKey, kept]
  | @blank before after raw empty =>
    have kept : visible (before ++ raw :: after) = visible (before ++ after) := by
      simp [visible, empty]
    rw [layoutKey, layoutKey, kept]
  | @ignored before after raw headed unknown =>
    obtain ⟨dropped, some⟩ := isIgnored_trim unknown
    have front : visible before ≠ [] := by
      obtain ⟨line, member, visibleLine⟩ := headed
      refine List.ne_nil_of_mem (a := trim line) ?_
      simpa [visible, visibleLine] using ⟨line, member, rfl⟩
    have added : visible (raw :: after) = trim raw :: visible after := by simp [visible, some]
    rw [layoutKey, layoutKey, visible_append, visible_append, added]
    refine Prod.ext ?_ ?_
    · rw [List.head?_append_of_ne_nil _ front, List.head?_append_of_ne_nil _ front]
    · rw [List.tail_append_of_ne_nil front, List.tail_append_of_ne_nil front, List.filter_append,
        List.filter_append, List.filter_cons_of_neg (by simp [dropped])]

/-- No line of the list holds a newline. -/
def SingleLines (lines : List Text) : Prop := ∀ line ∈ lines, newline ∉ line

theorem singleLines_cons {before after : List Text} {raw : Text} (oneLine : newline ∉ raw) :
    SingleLines (before ++ raw :: after) ↔ SingleLines (before ++ after) := by
  simp only [SingleLines, List.forall_mem_append, List.forall_mem_cons, oneLine, not_false_eq_true, true_and]

theorem LayoutChange.singleLines {lib : CxxStd Double} {lines lines' : List Text}
    (change : LayoutChange lib lines lines') : SingleLines lines ↔ SingleLines lines' := by
  cases change with
  | replace before after same oneLine oneLine' =>
    exact (singleLines_cons oneLine).trans (singleLines_cons oneLine').symm
  | blank before after empty oneLine => exact (singleLines_cons oneLine).symm
  | ignored before after headed unknown oneLine => exact (singleLines_cons oneLine).symm

theorem SameLayout.key {lib : CxxStd Double} {lines lines' : List Text} (same : SameLayout lib lines lines') :
    layoutKey lib lines' = layoutKey lib lines ∧ (SingleLines lines ↔ SingleLines lines') := by
  induction same with
  | rel lines lines' change => exact ⟨change.key, change.singleLines⟩
  | refl lines => exact ⟨rfl, .rfl⟩
  | symm lines lines' _ ih => exact ⟨ih.1.symm, ih.2.symm⟩
  | trans lines middle lines' _ _ first second =>
    exact ⟨second.1.trans first.1, first.2.trans second.2⟩

variable [Zero Double]

theorem parseLine_outcome (lib : CxxStd Double) (line : Text) (n m : UInt32) {ctx ctx' : ParseContext Double}
    (same : ctx.forgetLine = ctx'.forgetLine) :
    outcome (parseLine lib ⟨line, n⟩ ctx) = outcome (parseLine lib ⟨line, m⟩ ctx') := by
  have numbers : { ctx' with lineNum := m } = { ctx with lineNum := m } := by
    cases ctx
    cases ctx'
    simp only [ParseContext.forgetLine, ParseContext.mk.injEq] at same ⊢
    exact ⟨same.1.symm, same.2.1.symm, same.2.2.1.symm, trivial⟩
  unfold parseLine
  dsimp only
  rw [numbers]
  split
  · exact dispatchTag_outcome lib line ctx n m
  · unfold parseUriLine commitVariant commitSegment
    dsimp only
    split
    · rfl
    · split <;> rfl

/-- The outcome of a run depends on the texts of its lines alone, and not on the ignored ones. -/
theorem processLines_outcome (lib : CxxStd Double) (lines : List LineEntry) {ctx ctx' : ParseContext Double}
    (same : ctx.forgetLine = ctx'.forgetLine) :
    outcome (processLines lib lines ctx) =
      outcome (processLines lib
        (((lines.map (·.text)).filter (!isIgnored lib ·)).map fun line => ⟨line, 0⟩) ctx') := by
  induction lines generalizing ctx ctx' with
  | nil => simpa [processLines, outcome, Except.mapError, Except.map] using same
  | cons entry lines ih =>
    by_cases unknown : isIgnored lib entry.text = true
    · have tag := (Bool.and_eq_true_iff.mp unknown).1
      have skipped : parseLine lib entry ctx = .ok { ctx with lineNum := entry.number } := by
        simp only [parseLine, tag, if_true, dispatchTag_ignored unknown]
      simp only [processLines, skipped, Except.bind, List.map_cons, unknown, Bool.not_true,
        Bool.false_eq_true, not_false_eq_true, List.filter_cons_of_neg]
      exact ih same
    · have step := parseLine_outcome lib entry.text entry.number 0 same
      simp only [Bool.not_eq_true] at unknown
      simp only [processLines, List.map_cons, unknown, Bool.not_false, List.filter_cons_of_pos]
      change outcome (parseLine lib entry ctx) = _ at step
      cases left : parseLine lib entry ctx with
      | error e =>
        cases right : parseLine lib ⟨entry.text, 0⟩ ctx' with
        | error e' => rw [left, right] at step; exact step
        | ok _ => rw [left, right] at step; cases step
      | ok next =>
        cases right : parseLine lib ⟨entry.text, 0⟩ ctx' with
        | error e' => rw [left, right] at step; cases step
        | ok next' =>
          rw [left, right] at step
          exact ih (Except.ok.inj step)

/-- The outcome of the parser in terms of what the layout does not touch. -/
theorem parse_outcome (lib : CxxStd Double) {input header : Text} {rest : List Text}
    (lines : visibleLines (stripBom input) = header :: rest) :
    (parse lib input).mapError (·.code) =
      if startsWith header (text "#EXTM3U") then
        (outcome (processLines lib ((rest.filter (!isIgnored lib ·)).map fun line => ⟨line, 0⟩) .initial)).map
          fun ctx => finalizePlaylist lib ctx.playlist
      else .error .invalidHeader := by
  rw [← manifestLines_text] at lines
  obtain ⟨first, body, entries, rfl, rfl⟩ := List.map_eq_cons_iff.mp lines
  rw [← processLines_outcome lib body rfl]
  split
  · rename_i tagged
    rw [parse_of_lines entries tagged]
    cases processLines lib body .initial <;> rfl
  · rename_i untagged
    rw [parse_eq, if_neg (stripBom_some (by simp [entries])), entries]
    simp only [untagged]
    rfl

/-- A text whose first visible line does not begin with a mark does not begin with one. -/
theorem stripBom_unmarked {input header : Text} (first : (visibleLines input).head? = some header)
    (unmarked : startsWith header bom = false) : stripBom input = input := by
  by_contra marked
  have starts : startsWith input bom = true := by
    by_contra plain
    exact marked (by simp [stripBom, plain])
  obtain ⟨behind, rfl⟩ := startsWith_iff.mp starts
  obtain ⟨line, lines, split⟩ := List.exists_cons_of_ne_nil (List.splitOn_ne_nil newline behind)
  obtain ⟨_, stillMarked⟩ := trim_front (startsWith_iff.mpr (List.prefix_append bom line))
    (by decide) (by decide)
  have some : trim (bom ++ line) ≠ [] := by
    intro empty
    rw [empty] at stillMarked
    exact absurd stillMarked (by decide)
  simp only [visibleLines, visible, splitOn_bom, split, List.modifyHead_cons, List.map_cons, ne_eq, some,
    not_false_eq_true, decide_true, List.filter_cons_of_pos, List.head?_cons, Option.some.injEq] at first
  rw [first, unmarked] at stillMarked
  cases stillMarked

/-- The layout of a manifest whose header line, once trimmed, does not begin with a
byte order mark decides neither the error code nor the playlist. -/
theorem parse_sameLayout {lib : CxxStd Double} {input header : Text} {lines : List Text}
    (first : (visibleLines input).head? = some header) (unmarked : startsWith header bom = false)
    (same : SameLayout lib (input.splitOn newline) lines) (marked : Bool) :
    (parse lib ((if marked then bom else []) ++ [newline].intercalate lines)).mapError (·.code) =
      (parse lib input).mapError (·.code) := by
  obtain ⟨key, single⟩ := same.key
  have oneLine : SingleLines lines := single.mp (splitOn_oneLine input)
  obtain ⟨headers, bodies⟩ := Prod.mk.inj key
  have first' : (visible lines).head? = some header := headers.trans first
  have some : lines ≠ [] := by
    rintro rfl
    cases first'
  have joined : visibleLines ([newline].intercalate lines) = visible lines := by
    rw [visibleLines, List.splitOn_intercalate newline oneLine some]
  have unmarked' : stripBom ([newline].intercalate lines) = [newline].intercalate lines :=
    stripBom_unmarked (joined ▸ first') unmarked
  have edited : stripBom ((if marked then bom else []) ++ [newline].intercalate lines) =
      [newline].intercalate lines := by
    cases marked with
    | true => exact stripBom_bom _
    | false => exact unmarked'
  obtain ⟨rest, inputLines⟩ := List.head?_eq_some_iff.mp first
  obtain ⟨rest', editedLines⟩ := List.head?_eq_some_iff.mp first'
  have before : visible (input.splitOn newline) = header :: rest := inputLines
  rw [before, editedLines, List.tail_cons, List.tail_cons] at bodies
  have visibleInput : visibleLines (stripBom input) = header :: rest := by
    rw [stripBom_unmarked first unmarked, inputLines]
  have visibleEdited : visibleLines (stripBom ((if marked then bom else []) ++ [newline].intercalate lines)) =
      header :: rest' := by
    rw [edited, joined, editedLines]
  rw [parse_outcome lib visibleEdited, parse_outcome lib visibleInput, bodies]

/-- `mediaOnly` with a mark, a carriage return, a blank line, a comment and an indented URI. -/
def mediaOnlyEdited : Text :=
  bom ++ text "#EXTM3U\r\n\n#EXTINF:1,\n# first segment\n  a\n#EXT-X-ENDLIST"

theorem parse_sameLayout_mediaOnly :
    (parse CxxStd.plain mediaOnlyEdited).mapError (·.code) =
      (parse CxxStd.plain mediaOnly).mapError (·.code) := by
  have lines : mediaOnly.splitOn newline =
      [text "#EXTM3U", text "#EXTINF:1,", text "a", text "#EXT-X-ENDLIST"] := by decide +kernel
  have replaced : LayoutChange CxxStd.plain
      [text "#EXTM3U", text "#EXTINF:1,", text "a", text "#EXT-X-ENDLIST"]
      [text "#EXTM3U\r", text "#EXTINF:1,", text "a", text "#EXT-X-ENDLIST"] :=
    .replace [] [text "#EXTINF:1,", text "a", text "#EXT-X-ENDLIST"] (by decide) (by decide) (by decide)
  have indented : LayoutChange CxxStd.plain
      [text "#EXTM3U\r", text "#EXTINF:1,", text "a", text "#EXT-X-ENDLIST"]
      [text "#EXTM3U\r", text "#EXTINF:1,", text "  a", text "#EXT-X-ENDLIST"] :=
    .replace [text "#EXTM3U\r", text "#EXTINF:1,"] [text "#EXT-X-ENDLIST"] (by decide) (by decide) (by decide)
  have commented : LayoutChange CxxStd.plain
      [text "#EXTM3U\r", text "#EXTINF:1,", text "  a", text "#EXT-X-ENDLIST"]
      [text "#EXTM3U\r", text "#EXTINF:1,", text "# first segment", text "  a", text "#EXT-X-ENDLIST"] :=
    .ignored [text "#EXTM3U\r", text "#EXTINF:1,"] [text "  a", text "#EXT-X-ENDLIST"]
      ⟨_, List.mem_cons_self .., by decide⟩ (by decide) (by decide)
  have spaced : LayoutChange CxxStd.plain
      [text "#EXTM3U\r", text "#EXTINF:1,", text "# first segment", text "  a", text "#EXT-X-ENDLIST"]
      [text "#EXTM3U\r", text "", text "#EXTINF:1,", text "# first segment", text "  a", text "#EXT-X-ENDLIST"] :=
    .blank [text "#EXTM3U\r"] _ (by decide) (by decide)
  have same : SameLayout CxxStd.plain (mediaOnly.splitOn newline) _ :=
    lines ▸ ((Relation.EqvGen.rel _ _ replaced).trans _ _ _ (.rel _ _ indented)).trans _ _ _
      (.trans _ _ _ (.rel _ _ commented) (.rel _ _ spaced))
  have first : (visibleLines mediaOnly).head? = some (text "#EXTM3U") := by decide +kernel
  have written : mediaOnlyEdited = (if true then bom else []) ++ [newline].intercalate
      [text "#EXTM3U\r", text "", text "#EXTINF:1,", text "# first segment", text "  a", text "#EXT-X-ENDLIST"] := by
    decide +kernel
  rw [written]
  exact parse_sameLayout first (by decide) same true

/-- A blank in front of the mark hides it; the same line without the blank is accepted. -/
theorem not_sameLayout_hiddenMark :
    ¬ ∀ (input line : Text) (lines : List Text) (marked : Bool),
      ((input.splitOn newline).filter (trim · ≠ [])).head? = some line → startsWith line bom = false →
      SameLayout CxxStd.plain (input.splitOn newline) lines →
      (parse CxxStd.plain ((if marked then bom else []) ++ [newline].intercalate lines)).mapError (·.code) =
        (parse CxxStd.plain input).mapError (·.code) := by
  intro claimed
  have lines : (byte ' ' :: bom ++ text "#EXTM3U").splitOn newline = [byte ' ' :: bom ++ text "#EXTM3U"] := by
    decide +kernel
  have change : LayoutChange CxxStd.plain [byte ' ' :: bom ++ text "#EXTM3U"] [bom ++ text "#EXTM3U"] :=
    .replace [] [] (by decide) (by decide) (by decide)
  have outcomes := claimed (byte ' ' :: bom ++ text "#EXTM3U") (byte ' ' :: bom ++ text "#EXTM3U")
    [bom ++ text "#EXTM3U"] false (by decide +kernel) (by decide) (lines ▸ .rel _ _ change)
  exact absurd outcomes (by decide +kernel)

end Iptv.Manifest
