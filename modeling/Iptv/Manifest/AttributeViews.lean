import Iptv.Lib.Iterator
import Iptv.Lib.Machine
import Iptv.Manifest.LineEffects

namespace Iptv.Manifest

/-- A `std::string_view` into the attribute list, by its place. -/
structure View where
  start : Nat
  length : Nat

def View.stop (v : View) : Nat := v.start + v.length

def View.read (attrs : Text) (v : View) : Text := (attrs.drop v.start).take v.length

structure AttributeViews where
  key : View
  value : View

def AttributeViews.pair (attrs : Text) (views : AttributeViews) : AttributePair :=
  ⟨views.key.read attrs, views.value.read attrs⟩

def AttributeScanner.readKeyView (s : AttributeScanner) : View × AttributeScanner :=
  match find s.attrs (byte '=') s.cursor with
  | none => (⟨0, 0⟩, { s with cursor := s.attrs.length })
  | some eqPos => (⟨s.cursor, eqPos - s.cursor⟩, { s with cursor := eqPos + 1 })

def AttributeScanner.readValueView (s : AttributeScanner) : View × AttributeScanner :=
  let length := valueLength (s.attrs.drop s.cursor) false
  (⟨s.cursor, length⟩, { s with cursor := s.cursor + length })

def stripQuotesView (attrs : Text) (val : View) : View :=
  if 2 ≤ val.length ∧ attrs[val.start]? = some quote ∧ attrs[val.stop - 1]? = some quote then
    ⟨val.start + 1, val.length - 2⟩
  else val

/-- `next` with the views it returns instead of the bytes they cover. -/
def AttributeScanner.nextView (s : AttributeScanner) : Option AttributeViews × AttributeScanner :=
  if s.attrs.length ≤ s.cursor then (none, s)
  else
    let (key, afterKey) := s.readKeyView
    if key.length = 0 then (none, afterKey)
    else
      let (value, afterValue) := afterKey.readValueView
      (some ⟨key, stripQuotesView s.attrs value⟩, afterValue.skipComma)

theorem View.read_length {attrs : Text} {v : View} (inside : v.stop ≤ attrs.length) :
    (v.read attrs).length = v.length := by
  rw [stop] at inside
  rw [read, List.length_take, List.length_drop]
  omega

theorem valueLength_le (t : Text) (inQuotes : Bool) : valueLength t inQuotes ≤ t.length := by
  induction t generalizing inQuotes with
  | nil => exact le_rfl
  | cons c rest ih =>
    have inner := ih inQuotes
    have toggled := ih (!inQuotes)
    rw [valueLength, List.length_cons]
    split
    · omega
    · split <;> omega

theorem stripQuotesView_inside (attrs : Text) (val : View) :
    val.start ≤ (stripQuotesView attrs val).start ∧ (stripQuotesView attrs val).stop ≤ val.stop := by
  unfold stripQuotesView
  split
  · simp only [View.stop]
    omega
  · exact ⟨le_rfl, le_rfl⟩

/-- Stripping moves the ends of the view, which drops the same bytes. -/
theorem stripQuotesView_read {attrs : Text} {val : View} (inside : val.stop ≤ attrs.length) :
    (stripQuotesView attrs val).read attrs = stripQuotes (val.read attrs) := by
  have length := View.read_length inside
  unfold stripQuotesView stripQuotes
  by_cases long : 2 ≤ val.length
  · have first : (val.read attrs).head? = attrs[val.start]? := by
      rw [View.read, List.head?_take, if_neg (by omega), List.head?_drop]
    have last : (val.read attrs).getLast? = attrs[val.stop - 1]? := by
      rw [List.getLast?_eq_getElem?, length, View.read, List.getElem?_take_of_lt (by omega), List.getElem?_drop,
        View.stop, Nat.add_sub_assoc (by omega)]
    rw [length, first, last]
    split
    · rw [List.dropLast_eq_take, List.length_tail, length, ← List.drop_one, View.read, View.read, List.drop_take,
        List.drop_drop, List.take_take]
      congr 1
      change val.length - 2 = min (val.length - 1 - 1) (val.length - 1)
      omega
    · rfl
  · rw [length, if_neg (fun quoted => long quoted.1), if_neg (fun quoted => long quoted.1)]

theorem AttributeScanner.readKeyView_read (s : AttributeScanner) :
    s.readKey = (s.readKeyView.1.read s.attrs, s.readKeyView.2) := by
  unfold readKey readKeyView
  cases find s.attrs (byte '=') s.cursor <;> simp [View.read]

/-- The key ends in front of the sign that the cursor is moved behind. -/
theorem AttributeScanner.readKeyView_cursor {s afterKey : AttributeScanner} {key : View}
    (within : s.cursor < s.attrs.length) (called : s.readKeyView = (key, afterKey)) :
    afterKey.attrs = s.attrs ∧ s.cursor < afterKey.cursor ∧ afterKey.cursor ≤ s.attrs.length ∧
      (key.length ≠ 0 → key.start = s.cursor ∧ key.stop < afterKey.cursor) := by
  unfold readKeyView at called
  cases hit : find s.attrs (byte '=') s.cursor with
  | none =>
    simp only [hit, Prod.mk.injEq] at called
    obtain ⟨rfl, rfl⟩ := called
    exact ⟨rfl, within, le_rfl, fun some => absurd rfl some⟩
  | some eqPos =>
    obtain ⟨before, after, rest, _, place⟩ := find_some hit
    have length := congrArg List.length rest
    simp only [List.length_drop, List.length_append, List.length_cons] at length
    simp only [hit, Prod.mk.injEq] at called
    obtain ⟨rfl, rfl⟩ := called
    refine ⟨rfl, ?_, ?_, fun _ => ⟨rfl, ?_⟩⟩ <;> simp only [View.stop] <;> omega

theorem AttributeScanner.readValueView_cursor {s afterValue : AttributeScanner} {value : View}
    (within : s.cursor ≤ s.attrs.length) (called : s.readValueView = (value, afterValue)) :
    afterValue.attrs = s.attrs ∧ value.start = s.cursor ∧ value.stop = afterValue.cursor ∧
      s.cursor ≤ afterValue.cursor ∧ afterValue.cursor ≤ s.attrs.length := by
  have short := valueLength_le (s.attrs.drop s.cursor) false
  rw [List.length_drop] at short
  simp only [readValueView, Prod.mk.injEq] at called
  obtain ⟨rfl, rfl⟩ := called
  refine ⟨rfl, rfl, rfl, ?_, ?_⟩ <;> dsimp only <;> omega

theorem AttributeScanner.skipComma_cursor (s : AttributeScanner) :
    s.skipComma.attrs = s.attrs ∧ s.cursor ≤ s.skipComma.cursor ∧
      (s.cursor ≤ s.attrs.length → s.skipComma.cursor ≤ s.attrs.length) := by
  unfold skipComma
  split
  · rename_i here
    obtain ⟨inside, _⟩ := List.getElem?_eq_some_iff.mp here
    exact ⟨rfl, Nat.le_succ _, fun _ => inside⟩
  · exact ⟨rfl, le_rfl, id⟩

/-- A call keeps the text and never moves back; the views it returns lie, the key
in front of the value, between the cursor before and the cursor behind it. -/
theorem AttributeScanner.nextView_cursor (s : AttributeScanner) :
    s.nextView.2.attrs = s.attrs ∧ s.cursor ≤ s.nextView.2.cursor ∧
      (s.cursor ≤ s.attrs.length → s.nextView.2.cursor ≤ s.attrs.length) ∧
      ∀ views ∈ s.nextView.1, s.cursor < s.attrs.length ∧ s.cursor < s.nextView.2.cursor ∧
        s.cursor ≤ views.key.start ∧ views.key.stop ≤ views.value.start ∧
        views.value.stop ≤ s.nextView.2.cursor := by
  unfold nextView
  by_cases past : s.attrs.length ≤ s.cursor
  · simp [past]
  · obtain ⟨key, afterKey, keyCall⟩ : ∃ key afterKey, s.readKeyView = (key, afterKey) := ⟨_, _, rfl⟩
    obtain ⟨keyText, forward, inside, keyPlace⟩ := readKeyView_cursor (by omega) keyCall
    simp only [past, if_false, keyCall]
    by_cases empty : key.length = 0
    · simp only [empty, if_true]
      exact ⟨keyText, forward.le, fun _ => inside, by simp⟩
    · obtain ⟨value, afterValue, valueCall⟩ :
          ∃ value afterValue, afterKey.readValueView = (value, afterValue) := ⟨_, _, rfl⟩
      rw [← keyText] at inside
      obtain ⟨valueText, valueStart, valueStop, further, valueInside⟩ := readValueView_cursor inside valueCall
      obtain ⟨commaText, behind, commaInside⟩ := afterValue.skipComma_cursor
      obtain ⟨stripStart, stripStop⟩ := stripQuotesView_inside s.attrs value
      obtain ⟨keyStart, keyStop⟩ := keyPlace empty
      rw [valueText] at commaText commaInside
      rw [keyText] at commaText commaInside valueInside
      simp only [empty, if_false, valueCall, Option.mem_some_iff, forall_eq']
      refine ⟨commaText, by omega, fun _ => commaInside valueInside, ?_⟩
      refine ⟨by omega, by omega, keyStart.ge, by omega, by omega⟩

/-- The calls return the bytes that the views cover. -/
theorem AttributeScanner.nextView_read (s : AttributeScanner) :
    s.next = (s.nextView.1.map (·.pair s.attrs), s.nextView.2) := by
  unfold next nextView
  by_cases past : s.attrs.length ≤ s.cursor
  · simp [past]
  · obtain ⟨key, afterKey, keyCall⟩ : ∃ key afterKey, s.readKeyView = (key, afterKey) := ⟨_, _, rfl⟩
    obtain ⟨keyText, _, inside, keyPlace⟩ := readKeyView_cursor (by omega) keyCall
    simp only [past, if_false, readKeyView_read, keyCall]
    by_cases empty : key.length = 0
    · simp [empty, View.read]
    · have keyLength : (key.read s.attrs).length = key.length := by
        have place := keyPlace empty
        exact View.read_length (by omega)
      have some : key.read s.attrs ≠ [] := by
        rw [ne_eq, ← List.length_eq_zero_iff, keyLength]
        exact empty
      obtain ⟨value, afterValue, valueCall⟩ :
        ∃ value afterValue, afterKey.readValueView = (value, afterValue) := ⟨_, _, rfl⟩
      rw [← keyText] at inside
      obtain ⟨_, _, valueStop, _, valueInside⟩ := readValueView_cursor inside valueCall
      have stripped := stripQuotesView_read (valueStop.trans_le valueInside)
      have valueRead : afterKey.readValue = (value.read s.attrs, afterValue) := by
        simp only [readValueView, Prod.mk.injEq] at valueCall
        obtain ⟨rfl, rfl⟩ := valueCall
        rw [← keyText]
        rfl
      rw [keyText] at stripped
      simp only [some, if_false, empty, valueCall, valueRead, Option.map_some, AttributeViews.pair, stripped]

/-- Calling the scanner any number of times, with what each call answers. -/
def callNextView (s : AttributeScanner) (_ : Unit) :
    Option (AttributeScanner × List (Option AttributeViews)) :=
  some (s.nextView.2, [s.nextView.1])

/-- The views in the order of their return, each key in front of its value. -/
def returnedViews (answers : List (Option AttributeViews)) : List View :=
  answers.flatMap fun answer => answer.toList.flatMap fun views => [views.key, views.value]

/-- The views of one answer lie in order between the cursor before and the cursor behind the call. -/
theorem AttributeScanner.nextView_between (s : AttributeScanner) :
    (returnedViews [s.nextView.1]).Pairwise (fun v w => v.stop ≤ w.start) ∧
      ∀ v ∈ returnedViews [s.nextView.1], s.cursor ≤ v.start ∧ v.stop ≤ s.nextView.2.cursor := by
  obtain ⟨_, _, _, place⟩ := s.nextView_cursor
  cases answer : s.nextView.1 with
  | none => simp [returnedViews]
  | some views =>
    obtain ⟨_, _, start, between, stop⟩ := place views answer
    have keyWide : views.key.start ≤ views.key.stop := Nat.le_add_right _ _
    have valueWide : views.value.start ≤ views.value.stop := Nat.le_add_right _ _
    have pair : returnedViews [some views] = [views.key, views.value] := rfl
    rw [pair]
    refine ⟨by simpa using between, List.forall_mem_cons.mpr ⟨⟨start, by omega⟩, ?_⟩⟩
    exact List.forall_mem_singleton.mpr ⟨by omega, stop⟩

structure ScannedInOrder (attrs : Text) (answers : List (Option AttributeViews)) (s : AttributeScanner) : Prop where
  source : s.attrs = attrs
  within : s.cursor ≤ attrs.length
  ordered : (returnedViews answers).Pairwise fun v w => v.stop ≤ w.start
  consumed : ∀ v ∈ returnedViews answers, v.stop ≤ s.cursor

theorem ScannedInOrder.next {attrs : Text} {answers : List (Option AttributeViews)} {s : AttributeScanner}
    (scanned : ScannedInOrder attrs answers s) :
    ScannedInOrder attrs (answers ++ [s.nextView.1]) s.nextView.2 := by
  obtain ⟨rfl, within, ordered, consumed⟩ := scanned
  obtain ⟨source, forward, inside, _⟩ := s.nextView_cursor
  obtain ⟨new, between⟩ := s.nextView_between
  have split : returnedViews (answers ++ [s.nextView.1]) = returnedViews answers ++ returnedViews [s.nextView.1] :=
    List.flatMap_append
  refine ⟨source, inside within, ?_, ?_⟩
  · rw [split]
    exact List.pairwise_append.mpr ⟨ordered, new, fun v earlier w later =>
      (consumed v earlier).trans (between w later).1⟩
  · intro v member
    rw [split, List.mem_append] at member
    rcases member with earlier | later
    · exact (consumed v earlier).trans forward
    · exact (between v later).2

theorem ScannedInOrder.of_reach {attrs : Text} {answers : List (Option AttributeViews)} {s : AttributeScanner}
    (reach : Reach callNextView anyStep { attrs } answers s) : ScannedInOrder attrs answers s := by
  refine reach.traced (ScannedInOrder attrs) ⟨rfl, Nat.zero_le _, .nil, by simp [returnedViews]⟩ ?_
  intro past before behind call new scanned _ run
  simp only [callNextView, Option.some.injEq, Prod.mk.injEq] at run
  obtain ⟨rfl, rfl⟩ := run
  exact scanned.next

theorem AttributeScanner.next_progress {s s' : AttributeScanner} {pair : AttributePair}
    (called : s.next = (some pair, s')) :
    s'.attrs = s.attrs ∧ s.cursor < s.attrs.length ∧ s.cursor < s'.cursor := by
  rw [nextView_read] at called
  obtain ⟨source, _, _, place⟩ := s.nextView_cursor
  obtain ⟨answer, rfl⟩ := Prod.mk.inj called
  obtain ⟨views, returned, _⟩ := Option.map_eq_some_iff.mp answer
  obtain ⟨within, forward, _⟩ := place views returned
  exact ⟨source, within, forward⟩

/-- Each pair consumes part of the text, so the scan ends. -/
theorem AttributeScanner.scan_ends (s : AttributeScanner) :
    ∃ pairs last, Yields AttributeScanner.next s pairs last ∧ pairs.length ≤ s.attrs.length - s.cursor := by
  refine Yields.of_rank (fun s => s.attrs.length - s.cursor) ?_ s
  intro s s' pair called
  obtain ⟨source, within, forward⟩ := next_progress called
  rw [source]
  omega

/-- The loop over a stream tag's attributes applies what the scanner delivers up to its
first empty answer. -/
theorem applyStreamInfAttributes_yields {Double : Type} (lib : CxxStd Double) {attrs : Text}
    {pairs : List AttributePair} {last : AttributeScanner}
    (yields : Yields AttributeScanner.next { attrs } pairs last) (builder : PendingVariant Double) :
    applyStreamInfAttributes lib attrs builder =
      pairs.foldl (fun builder attr => applyAttribute lib attr builder) builder := by
  obtain ⟨_, _, ends, short⟩ := AttributeScanner.scan_ends { attrs }
  obtain ⟨rfl, rfl⟩ := yields.unique ends
  exact applyAttributesLoop_yields yields (short.trans (Nat.sub_le _ _)) builder

/-- However often the scanner is called on a text, it stays inside the text and
moves forward with each pair, and its answers cover parts of the text in order. -/
theorem scanner_inside_text (attrs : Text) :
    (∀ {Double : Type} (lib : CxxStd Double) (builder : PendingVariant Double),
      ∃ pairs last, Yields AttributeScanner.next { attrs } pairs last ∧
        applyStreamInfAttributes lib attrs builder =
          pairs.foldl (fun builder attr => applyAttribute lib attr builder) builder) ∧
      ∀ {answers : List (Option AttributeViews)} {s : AttributeScanner},
        Reach callNextView anyStep { attrs } answers s →
          s.cursor ≤ attrs.length ∧
          s.next = (s.nextView.1.map (·.pair attrs), s.nextView.2) ∧
          (s.next.1 ≠ none → s.cursor < s.next.2.cursor) ∧
          (∃ pairs last, Yields AttributeScanner.next s pairs last ∧
            pairs.length ≤ attrs.length - s.cursor) ∧
          (∀ v ∈ returnedViews answers, v.stop ≤ attrs.length) ∧
          (returnedViews answers).Pairwise fun v w => v.stop ≤ w.start := by
  constructor
  · intro Double lib builder
    obtain ⟨pairs, last, yields, _⟩ := AttributeScanner.scan_ends { attrs }
    exact ⟨pairs, last, yields, applyStreamInfAttributes_yields lib yields builder⟩
  intro answers s reach
  obtain ⟨rfl, within, ordered, consumed⟩ := ScannedInOrder.of_reach reach
  refine ⟨within, s.nextView_read, ?_, s.scan_ends, fun v member => (consumed v member).trans within, ordered⟩
  intro delivered
  obtain ⟨pair, answer⟩ := Option.ne_none_iff_exists'.mp delivered
  exact (AttributeScanner.next_progress (Prod.ext answer rfl)).2.2

/-- A key without a name ends the first scan, and a further call goes on behind it. -/
theorem scanner_inside_text_nameless : ∃ answers s,
    Reach callNextView anyStep { attrs := text "=a=b" } answers s ∧
      (returnedViews answers).map (·.read (text "=a=b")) = [text "a", text "b"] ∧
      (returnedViews answers).Pairwise fun v w => v.stop ≤ w.start := by
  obtain ⟨answers, s, reach, test⟩ := reach_of_exec callNextView anyStep { attrs := text "=a=b" } [(), ()]
    (fun r => (returnedViews r.1).map (·.read (text "=a=b")) == [text "a", text "b"]) (by decide)
  exact ⟨answers, s, reach, by simpa using test, ((scanner_inside_text (text "=a=b")).2 reach).2.2.2.2.2⟩

end Iptv.Manifest
