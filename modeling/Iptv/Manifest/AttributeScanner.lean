import Iptv.Lib.Text

namespace Iptv.Manifest

structure AttributePair where
  key : Text
  value : Text
  deriving DecidableEq

structure AttributeScanner where
  attrs : Text
  cursor : Nat := 0

def quote : UInt8 := byte '"'

def comma : UInt8 := byte ','

def AttributeScanner.readKey (s : AttributeScanner) : Text × AttributeScanner :=
  match find s.attrs (byte '=') s.cursor with
  | none => ([], { s with cursor := s.attrs.length })
  | some eqPos => ((s.attrs.drop s.cursor).take (eqPos - s.cursor), { s with cursor := eqPos + 1 })

/-- How far the loop of `readValue` moves the cursor: up to a comma outside quotes. -/
def valueLength : Text → Bool → Nat
  | [], _ => 0
  | c :: rest, inQuotes =>
    if c = quote then valueLength rest (!inQuotes) + 1
    else if c = comma ∧ inQuotes = false then 0
    else valueLength rest inQuotes + 1

def AttributeScanner.readValue (s : AttributeScanner) : Text × AttributeScanner :=
  let rest := s.attrs.drop s.cursor
  (rest.take (valueLength rest false), { s with cursor := s.cursor + valueLength rest false })

def stripQuotes (val : Text) : Text :=
  if 2 ≤ val.length ∧ val.head? = some quote ∧ val.getLast? = some quote then
    val.tail.dropLast
  else val

def AttributeScanner.skipComma (s : AttributeScanner) : AttributeScanner :=
  if s.attrs[s.cursor]? = some comma then { s with cursor := s.cursor + 1 } else s

def AttributeScanner.next (s : AttributeScanner) : Option AttributePair × AttributeScanner :=
  if s.attrs.length ≤ s.cursor then (none, s)
  else
    let (key, afterKey) := s.readKey
    if key = [] then (none, afterKey)
    else
      let (value, afterValue) := afterKey.readValue
      (some ⟨key, stripQuotes value⟩, afterValue.skipComma)

/-- What the scanner has not consumed yet. -/
def AttributeScanner.rest (s : AttributeScanner) : Text := s.attrs.drop s.cursor

theorem valueLength_end {tail : Text} (stop : ∀ c, tail.head? = some c → c = comma) :
    valueLength tail false = 0 := by
  cases tail with
  | nil => rfl
  | cons c tail =>
    obtain rfl := stop c rfl
    rw [valueLength, if_neg (by decide), if_pos ⟨rfl, rfl⟩]

theorem valueLength_plain {value : Text} (noQuote : quote ∉ value) (noComma : comma ∉ value) (tail : Text) :
    valueLength (value ++ tail) false = value.length + valueLength tail false := by
  induction value with
  | nil => simp
  | cons c value ih =>
    simp only [List.mem_cons, not_or] at noQuote noComma
    rw [List.cons_append, valueLength, if_neg (Ne.symm noQuote.1),
      if_neg (fun stop => noComma.1 stop.1.symm), ih noQuote.2 noComma.2, List.length_cons]
    omega

/-- Commas between the quotes do not end a value. -/
theorem valueLength_quoted {value : Text} (noQuote : quote ∉ value) (tail : Text) :
    valueLength (value ++ quote :: tail) true = value.length + 1 + valueLength tail false := by
  induction value with
  | nil => simp [valueLength, Nat.add_comm]
  | cons c value ih =>
    simp only [List.mem_cons, not_or] at noQuote
    rw [List.cons_append, valueLength, if_neg (Ne.symm noQuote.1), if_neg (by simp), ih noQuote.2,
      List.length_cons]
    omega

/-- An attribute as a writer states it; a comma or the end of the list closes its value. -/
structure WrittenAttribute where
  key : Text
  value : Text
  written : Text
  key_ne_nil : key ≠ []
  key_plain : byte '=' ∉ key
  written_closed : ∀ tail : Text, (∀ c, tail.head? = some c → c = comma) →
    valueLength (written ++ tail) false = written.length
  written_value : stripQuotes written = value

def WrittenAttribute.plain (key value : Text) (key_ne_nil : key ≠ []) (key_plain : byte '=' ∉ key)
    (noQuote : quote ∉ value) (noComma : comma ∉ value) : WrittenAttribute where
  key := key
  value := value
  written := value
  key_ne_nil := key_ne_nil
  key_plain := key_plain
  written_closed tail stop := by rw [valueLength_plain noQuote noComma, valueLength_end stop, Nat.add_zero]
  written_value := by
    rw [stripQuotes, if_neg]
    rintro ⟨_, first, _⟩
    exact noQuote (List.mem_of_mem_head? first)

def WrittenAttribute.quoted (key value : Text) (key_ne_nil : key ≠ []) (key_plain : byte '=' ∉ key)
    (noQuote : quote ∉ value) : WrittenAttribute where
  key := key
  value := value
  written := quote :: value ++ [quote]
  key_ne_nil := key_ne_nil
  key_plain := key_plain
  written_closed tail stop := by
    have inside := valueLength_quoted noQuote tail
    rw [valueLength_end stop] at inside
    simp [valueLength, inside]
  written_value := by
    have last : (quote :: value ++ [quote]).getLast? = some quote := List.getLast?_concat
    rw [stripQuotes, if_pos ⟨by simp, rfl, last⟩]
    simp

def WrittenAttribute.render (a : WrittenAttribute) : Text := a.key ++ byte '=' :: a.written

def WrittenAttribute.pair (a : WrittenAttribute) : AttributePair := ⟨a.key, a.value⟩

theorem WrittenAttribute.render_ne_nil (a : WrittenAttribute) : a.render ≠ [] := by
  simp [render]

/-- The scanner takes a written attribute and the comma behind it off the list. -/
theorem AttributeScanner.next_written {s : AttributeScanner} {a : WrittenAttribute} {tail : Text}
    (front : s.rest = a.render ++ tail) (stop : ∀ c, tail.head? = some c → c = comma) :
    s.next.1 = some a.pair ∧ s.next.2.rest = tail.tail := by
  have within : ¬s.attrs.length ≤ s.cursor := by
    intro past
    rw [rest, List.drop_eq_nil_of_le past] at front
    exact a.render_ne_nil (List.append_eq_nil_iff.mp front.symm).1
  have split : s.attrs.drop s.cursor = a.key ++ byte '=' :: (a.written ++ tail) := by
    simpa [rest, WrittenAttribute.render] using front
  have hit := find_of_split split a.key_plain
  have afterKey : s.attrs.drop (s.cursor + a.key.length + 1) = a.written ++ tail := by
    rw [Nat.add_assoc, ← List.drop_drop, split, ← List.drop_drop]
    simp
  have afterValue : s.attrs.drop (s.cursor + a.key.length + 1 + a.written.length) = tail := by
    rw [← List.drop_drop, afterKey, List.drop_left]
  have key : s.readKey = (a.key, { s with cursor := s.cursor + a.key.length + 1 }) := by
    simp [readKey, hit, split]
  have atComma := congrArg List.head? afterValue
  rw [List.head?_drop] at atComma
  simp only [next, within, if_false, key, a.key_ne_nil, readValue, afterKey, a.written_closed tail stop,
    List.take_left, a.written_value, skipComma, atComma, WrittenAttribute.pair, true_and]
  cases tail with
  | nil => simpa [rest] using afterValue
  | cons c tail =>
    obtain rfl := stop c rfl
    simp only [List.head?_cons, if_true, rest, List.tail_cons]
    rw [← List.drop_drop, afterValue]
    rfl

/-- The written form of an attribute list. -/
def attributeList (attributes : List WrittenAttribute) : Text :=
  [comma].intercalate (attributes.map (·.render))

theorem attributeList_length (attributes : List WrittenAttribute) :
    attributes.length ≤ (attributeList attributes).length := by
  induction attributes with
  | nil => simp
  | cons a more ih =>
    have some : 1 ≤ a.render.length := List.length_pos_iff.mpr a.render_ne_nil
    cases more with
    | nil => simpa only [attributeList, List.map_cons, List.map_nil, List.intercalate_singleton,
        List.length_singleton] using some
    | cons b more =>
      simp only [attributeList, List.map_cons, List.intercalate_cons_cons, List.length_append,
        List.length_cons, List.length_nil] at ih ⊢
      omega

/-- The first attribute of a list in front of the others. -/
theorem attributeList_cons (a : WrittenAttribute) (more : List WrittenAttribute) :
    ∃ tail, attributeList (a :: more) = a.render ++ tail ∧ (∀ c, tail.head? = some c → c = comma) ∧
      tail.tail = attributeList more := by
  cases more with
  | nil => exact ⟨[], by simp [attributeList], by simp, by simp [attributeList]⟩
  | cons b more =>
    refine ⟨comma :: attributeList (b :: more), ?_, by simp, rfl⟩
    simp [attributeList, List.intercalate_cons_cons]

end Iptv.Manifest
