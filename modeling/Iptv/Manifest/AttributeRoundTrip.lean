import Iptv.Lib.Iterator
import Iptv.Manifest.AttributeScanner

namespace Iptv.Manifest

/-- A value in one of the two forms of an attribute list. -/
inductive AttributeValue
  | unquoted (text : Text) (noComma : comma ∉ text) (noQuote : quote ∉ text)
  | quoted (text : Text) (noQuote : quote ∉ text)

def AttributeValue.text : AttributeValue → Text
  | .unquoted text _ _ => text
  | .quoted text _ => text

def AttributeValue.render : AttributeValue → Text
  | .unquoted text _ _ => text
  | .quoted text _ => quote :: text ++ [quote]

structure Attribute where
  key : Text
  value : AttributeValue
  key_ne_nil : key ≠ []
  key_plain : byte '=' ∉ key

def Attribute.pair (a : Attribute) : AttributePair := ⟨a.key, a.value.text⟩

def Attribute.render (a : Attribute) : Text := a.key ++ byte '=' :: a.value.render

/-- The list `key=value,key=value` that states the attributes. -/
def renderAttributes (attributes : List Attribute) : Text :=
  [comma].intercalate (attributes.map (·.render))

def Attribute.written (a : Attribute) : WrittenAttribute :=
  match a.value with
  | .unquoted text noComma noQuote => .plain a.key text a.key_ne_nil a.key_plain noQuote noComma
  | .quoted text noQuote => .quoted a.key text a.key_ne_nil a.key_plain noQuote

theorem Attribute.written_render (a : Attribute) : a.written.render = a.render := by
  obtain ⟨key, value, _, _⟩ := a
  cases value <;> rfl

theorem Attribute.written_pair (a : Attribute) : a.written.pair = a.pair := by
  obtain ⟨key, value, _, _⟩ := a
  cases value <;> rfl

theorem renderAttributes_eq (attributes : List Attribute) :
    renderAttributes attributes = attributeList (attributes.map (·.written)) := by
  simp only [renderAttributes, attributeList, List.map_map, Function.comp_def, Attribute.written_render]

theorem AttributeScanner.next_end {s : AttributeScanner} (empty : s.rest = []) : s.next = (none, s) := by
  have past : s.attrs.length ≤ s.cursor := List.drop_eq_nil_iff.mp empty
  rw [next, if_pos past]

/-- The scanner in front of a written list delivers its pairs in order and stops at its end. -/
theorem AttributeScanner.yields_written (attributes : List WrittenAttribute) {s : AttributeScanner}
    (front : s.rest = attributeList attributes) :
    ∃ last : AttributeScanner, Yields next s (attributes.map (·.pair)) last ∧ last.rest = [] := by
  refine Yields.of_pending (fun pending (s : AttributeScanner) => s.rest = attributeList pending) _ ?_ ?_ front
  · intro s ended
    exact ⟨s, s.next_end ended, ended⟩
  · intro s a more front
    obtain ⟨tail, split, stop, behind⟩ := attributeList_cons a more
    obtain ⟨delivered, kept⟩ := s.next_written (front.trans split) stop
    exact ⟨s.next.2, Prod.ext delivered rfl, kept.trans behind⟩

/-- The scanner reads back every attribute list that was rendered from pairs. -/
theorem scanner_reads_rendered (attributes : List Attribute) :
    ∃ last, Yields AttributeScanner.next { attrs := renderAttributes attributes }
      (attributes.map (·.pair)) last := by
  have front : ({ attrs := renderAttributes attributes } : AttributeScanner).rest =
      attributeList (attributes.map (·.written)) := renderAttributes_eq attributes
  obtain ⟨last, yields, _⟩ := AttributeScanner.yields_written _ front
  refine ⟨last, ?_⟩
  simpa only [List.map_map, Function.comp_def, Attribute.written_pair] using yields

/-- A number, a quoted value with both separators in it, and an empty value. -/
def threeAttributes : List Attribute :=
  [{ key := text "RATE", value := .unquoted (text "800000") (by decide) (by decide)
     key_ne_nil := by decide, key_plain := by decide },
   { key := text "AUDIO", value := .quoted (text "avc1,mp4a=2") (by decide)
     key_ne_nil := by decide, key_plain := by decide },
   { key := text "NAME", value := .unquoted [] (by decide) (by decide)
     key_ne_nil := by decide, key_plain := by decide }]

example : renderAttributes threeAttributes = text "RATE=800000,AUDIO=\"avc1,mp4a=2\",NAME=" := by decide

theorem scanner_reads_rendered_three :
    ∃ last, Yields AttributeScanner.next { attrs := renderAttributes threeAttributes }
      [⟨text "RATE", text "800000"⟩, ⟨text "AUDIO", text "avc1,mp4a=2"⟩, ⟨text "NAME", []⟩] last :=
  scanner_reads_rendered threeAttributes

end Iptv.Manifest
