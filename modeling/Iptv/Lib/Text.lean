import Mathlib.Algebra.Group.Nat.Defs
import Mathlib.Data.List.Basic
import Iptv.Lib.Scan

namespace Iptv

/-- The bytes a `std::string_view` covers. -/
abbrev Text := List UInt8

def byte (c : Char) : UInt8 := UInt8.ofNat c.toNat

/-- The bytes of an ASCII literal. -/
def text (s : String) : Text := s.toList.map byte

def startsWith (t pre : Text) : Bool := pre.isPrefixOf t

/-- `find(c, from)`, with `none` for `npos`. -/
def find (t : Text) (c : UInt8) (start : Nat) : Option Nat :=
  ((t.drop start).findIdx? (· == c)).map (start + ·)

def findText (t pattern : Text) : Option Nat :=
  (List.range (t.length + 1)).find? fun i => startsWith (t.drop i) pattern

def findLastOf (t : Text) (c : UInt8) : Option Nat :=
  (t.reverse.findIdx? (· == c)).map (t.length - 1 - ·)

def isDigit (c : UInt8) : Bool := 48 ≤ c && c ≤ 57

def digitsValue (digits : Text) : Nat :=
  digits.foldl (fun value c => 10 * value + (c.toNat - 48)) 0

/-- `std::from_chars` for an unsigned type whose values are below `bound`: the
longest run of digits, no sign, an error when there is none or it overflows. -/
def fromChars (bound : Nat) (t : Text) : Option Nat :=
  let digits := t.takeWhile isDigit
  if digits = [] then none
  else if digitsValue digits < bound then some (digitsValue digits) else none

/-- `std::to_string` of an unsigned value. -/
def decimal (n : Nat) : Text := (Nat.toDigits 10 n).map byte

theorem startsWith_iff {t pre : Text} : startsWith t pre = true ↔ pre <+: t :=
  List.isPrefixOf_iff_prefix

theorem findIdx?_absent {t : Text} {c : UInt8} (absent : c ∉ t) : t.findIdx? (· == c) = none := by
  rw [List.findIdx?_eq_none_iff]
  intro x member
  rw [beq_eq_false_iff_ne]
  rintro rfl
  exact absent member

theorem find_none {t : Text} {c : UInt8} {start : Nat} :
    find t c start = none ↔ c ∉ t.drop start := by
  simp only [find, Option.map_eq_none_iff, List.findIdx?_eq_none_iff, beq_eq_false_iff_ne]
  exact ⟨fun all member => all c member rfl, fun absent x member same => absent (same ▸ member)⟩

/-- A hit splits the searched part at the first occurrence. -/
theorem find_some {t : Text} {c : UInt8} {start k : Nat} (hit : find t c start = some k) :
    ∃ before after, t.drop start = before ++ c :: after ∧ c ∉ before ∧ k = start + before.length := by
  obtain ⟨i, found, same⟩ := Option.map_eq_some_iff.mp hit
  obtain ⟨bound, value, earlier⟩ := List.findIdx?_eq_some_iff_getElem.mp found
  refine ⟨(t.drop start).take i, (t.drop start).drop (i + 1), ?_, ?_, ?_⟩
  · have here : (t.drop start)[i] = c := by simpa using value
    rw [← here, List.getElem_cons_drop, List.take_append_drop]
  · intro member
    obtain ⟨j, inside, at'⟩ := List.mem_iff_getElem.mp member
    rw [List.length_take] at inside
    rw [List.getElem_take] at at'
    exact earlier j (by omega) (by simpa using at')
  · rw [List.length_take]
    omega

theorem find_of_split {t before after : Text} {c : UInt8} {start : Nat}
    (rest : t.drop start = before ++ c :: after) (absent : c ∉ before) :
    find t c start = some (start + before.length) := by
  rw [find, rest, List.findIdx?_append, findIdx?_absent absent, List.findIdx?_cons]
  simp

/-- The last occurrence is the one that nothing equal follows. -/
theorem findLastOf_split {before after : Text} {c : UInt8} (absent : c ∉ after) :
    findLastOf (before ++ c :: after) c = some before.length := by
  have skipped := findIdx?_absent fun member => absent (List.mem_reverse.mp member)
  have reversed : (before ++ c :: after).reverse = after.reverse ++ c :: before.reverse := by simp
  rw [findLastOf, reversed, List.findIdx?_append, skipped, List.findIdx?_cons]
  simp

theorem exists_last {t : Text} {c : UInt8} (member : c ∈ t) :
    ∃ before after, t = before ++ c :: after ∧ c ∉ after := by
  obtain ⟨after, before, reversed, absent⟩ := List.eq_append_cons_of_mem (List.mem_reverse.mpr member)
  refine ⟨before.reverse, after.reverse, ?_, by simpa using absent⟩
  rw [← List.reverse_reverse t, reversed]
  simp

theorem isDigit_byte {c : Char} (digit : c.isDigit = true) : isDigit (byte c) = true := by
  have bounds : 48 ≤ c.toNat ∧ c.toNat ≤ 57 := by
    simpa [Char.isDigit, Char.le_def, UInt32.le_iff_toNat_le] using digit
  simp only [isDigit, byte, Bool.and_eq_true, decide_eq_true_eq, UInt8.le_iff_toNat_le,
    UInt8.toNat_ofNat']
  have small : c.toNat % 2 ^ 8 = c.toNat := Nat.mod_eq_of_lt (by omega)
  rw [small]
  exact bounds

theorem byte_toNat {c : Char} (digit : c.isDigit = true) : (byte c).toNat = c.toNat := by
  have bounds : 48 ≤ c.toNat ∧ c.toNat ≤ 57 := by
    simpa [Char.isDigit, Char.le_def, UInt32.le_iff_toNat_le] using digit
  rw [byte, UInt8.toNat_ofNat']
  exact Nat.mod_eq_of_lt (by omega)

theorem decimal_digits (n : Nat) : ∀ c ∈ decimal n, isDigit c = true := by
  intro c member
  obtain ⟨d, digit, same⟩ := List.mem_map.mp member
  subst same
  exact isDigit_byte (Nat.isDigit_of_mem_toDigits (by decide) (by decide) digit)

theorem decimal_ne_nil (n : Nat) : decimal n ≠ [] := by
  simp [decimal, Nat.toDigits_ne_nil]

theorem decimal_value (n : Nat) : digitsValue (decimal n) = n := by
  have fold : ∀ (digits : List Char) (start : Nat), (∀ d ∈ digits, d.isDigit = true) →
      (digits.map byte).foldl (fun value c => 10 * value + (c.toNat - 48)) start =
        Nat.ofDigitChars 10 digits start := by
    intro digits
    induction digits with
    | nil => intro start _; rfl
    | cons d ds ih =>
      intro start all
      rw [List.map_cons, List.foldl_cons, Nat.ofDigitChars_cons, byte_toNat (all d (by simp))]
      exact ih _ fun e member => all e (List.mem_cons_of_mem _ member)
  rw [digitsValue, decimal, fold, Nat.ofDigitChars_ten_toDigits]
  exact fun d member => Nat.isDigit_of_mem_toDigits (by decide) (by decide) member

/-- `from_chars` reads back the decimal text of every value of its type. -/
theorem fromChars_decimal (n bound : Nat) (fits : n < bound) : fromChars bound (decimal n) = some n := by
  have all : (decimal n).takeWhile isDigit = decimal n :=
    List.takeWhile_eq_self_iff.mpr (decimal_digits n)
  simp [fromChars, all, decimal_ne_nil, decimal_value, fits]

/-- The text begins with the digits of the value, and no further digit follows them. -/
def LeadingNumber (t : Text) (value : Nat) : Prop :=
  ∃ digits rest, t = digits ++ rest ∧ digits ≠ [] ∧ (∀ d ∈ digits, isDigit d = true) ∧
    (∀ c, rest.head? = some c → isDigit c = false) ∧ digitsValue digits = value

theorem fromChars_iff {bound value : Nat} {t : Text} :
    fromChars bound t = some value ↔ LeadingNumber t value ∧ value < bound := by
  constructor
  · intro read
    unfold fromChars at read
    simp only [Option.ite_none_left_eq_some, Option.ite_none_right_eq_some, Option.some.injEq] at read
    obtain ⟨some, fits, same⟩ := read
    refine ⟨⟨t.takeWhile isDigit, t.dropWhile isDigit, List.takeWhile_append_dropWhile.symm, some,
      fun d member => List.mem_takeWhile_imp member, fun c first => ?_, same⟩, same ▸ fits⟩
    have stop := List.head?_dropWhile_not isDigit t
    simpa [first] using stop
  · rintro ⟨⟨digits, rest, rfl, some, all, stop, rfl⟩, fits⟩
    have read := (span_until all stop).1
    simp [fromChars, read, some, fits]

end Iptv
