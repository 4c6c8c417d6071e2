import Iptv.Network.RetryLoop

namespace Iptv.Network

/-- The largest size of a vector of bytes. -/
def maxSize : Nat := 9223372036854775807

/-- One more than the largest `std::size_t`. -/
def sizeBound : Nat := 18446744073709551616

inductive AllocationError
  | lengthError
  | badAlloc
  deriving DecidableEq

/-- The context of a transfer with the storage that the body of its response has. -/
structure StoredContext extends TransferContext where
  capacity : Nat
  held : response.body.length ≤ capacity

/-- `reserve` of the vector, when there are `memory` bytes to be had. -/
def StoredContext.reserve (memory : Nat) (ctx : StoredContext) (capacity : Nat) :
    Except AllocationError StoredContext :=
  if capacity > maxSize then .error .lengthError
  else if capacity > memory then .error .badAlloc
  else .ok { ctx with
    capacity := max ctx.capacity capacity
    held := ctx.held.trans (Nat.le_max_left _ _) }

def reserveBody (memory : Nat) (ctx : StoredContext) (capacity : Nat) : Except AllocationError StoredContext :=
  if capacity > ctx.capacity then ctx.reserve memory capacity else .ok ctx

def reserveBodyFromContentLength (memory : Nat) (val : Text) (ctx : StoredContext) :
    Except AllocationError StoredContext :=
  match fromChars sizeBound val with
  | some contentLength => reserveBody memory ctx contentLength
  | none => .ok ctx

def isHeaderSpace (c : UInt8) : Bool := c == 32 || c == 9 || c == 13 || c == 10

def handleContentLengthLine (memory : Nat) (line : Text) (ctx : StoredContext) :
    Except AllocationError StoredContext :=
  if !startsWith line (text "Content-Length:") && !startsWith line (text "content-length:") then .ok ctx
  else
    match find line (byte ':') 0 with
    | none => .ok ctx
    | some pos =>
      let val := line.drop (pos + 1)
      match val.findIdx? (!isHeaderSpace ·) with
      | none => .ok ctx
      | some first => reserveBodyFromContentLength memory (val.drop first) ctx

/-- The number of bytes consumed; an error is an exception that leaves the callback. -/
def headerCallback (memory : Nat) (buffer : Text) (userdata : Option StoredContext) :
    Except AllocationError (Nat × Option StoredContext) :=
  let total := buffer.length
  match userdata with
  | none => .ok (total, none)
  | some ctx => (handleContentLengthLine memory buffer ctx).map fun ctx => (total, some ctx)

/-- The names of the header, in the two cases that are looked for. -/
def IsContentLength (name : Text) : Prop := name = text "Content-Length" ∨ name = text "content-length"

/-- The line is a header that gives the length of the body. -/
def Announces (line : Text) (value : Nat) : Prop :=
  ∃ name blanks number, line = name ++ byte ':' :: (blanks ++ number) ∧ IsContentLength name ∧
    (∀ c ∈ blanks, isHeaderSpace c = true) ∧ LeadingNumber number value ∧ value < sizeBound

theorem reserveBody_ok_iff {memory capacity : Nat} {ctx : StoredContext} :
    (∃ after, reserveBody memory ctx capacity = .ok after) ↔
      capacity ≤ ctx.capacity ∨ (capacity ≤ maxSize ∧ capacity ≤ memory) := by
  unfold reserveBody StoredContext.reserve
  by_cases grows : capacity > ctx.capacity
  · have more : ¬ capacity ≤ ctx.capacity := Nat.not_le.mpr grows
    by_cases long : capacity > maxSize
    · simp [grows, long]
    · by_cases large : capacity > memory
      · simp [grows, long, large]
      · have fits : capacity ≤ maxSize ∧ capacity ≤ memory := by omega
        simp [grows, long, large, fits]
  · simp [grows, Nat.not_lt.mp grows]

theorem digit_not_space {c : UInt8} (digit : isDigit c = true) : isHeaderSpace c = false := by
  simp only [isDigit, Bool.and_eq_true, decide_eq_true_eq, UInt8.le_iff_toNat_le] at digit
  simp only [isHeaderSpace, Bool.or_eq_false_iff, beq_eq_false_iff_ne]
  refine ⟨⟨⟨?_, ?_⟩, ?_⟩, ?_⟩ <;>
  · rintro rfl
    exact absurd digit.1 (by decide)

theorem leadingNumber_head {number : Text} {value : Nat} (leading : LeadingNumber number value) :
    ∀ c, number.head? = some c → isHeaderSpace c = false := by
  obtain ⟨digits, rest, rfl, some, all, _⟩ := leading
  intro c first
  rw [List.head?_append_of_ne_nil _ some] at first
  exact digit_not_space (all c (List.mem_of_mem_head? first))

theorem contentLength_iff {line : Text} :
    (!startsWith line (text "Content-Length:") && !startsWith line (text "content-length:")) = false ↔
      ∃ name val, IsContentLength name ∧ line = name ++ byte ':' :: val := by
  have upper : text "Content-Length:" = text "Content-Length" ++ [byte ':'] := rfl
  have lower : text "content-length:" = text "content-length" ++ [byte ':'] := rfl
  rw [← Bool.not_or, Bool.not_eq_false', Bool.or_eq_true, startsWith_iff, startsWith_iff, upper, lower]
  constructor
  · rintro (⟨val, rfl⟩ | ⟨val, rfl⟩)
    · exact ⟨_, val, Or.inl rfl, by simp⟩
    · exact ⟨_, val, Or.inr rfl, by simp⟩
  · rintro ⟨name, val, rfl | rfl, rfl⟩
    · exact Or.inl ⟨val, by simp⟩
    · exact Or.inr ⟨val, by simp⟩

/-- The value of a header line is read behind its first colon and the blanks there. -/
theorem handleContentLengthLine_named {memory : Nat} {name : Text} (named : IsContentLength name) (val : Text)
    (ctx : StoredContext) :
    handleContentLengthLine memory (name ++ byte ':' :: val) ctx =
      reserveBodyFromContentLength memory (val.dropWhile isHeaderSpace) ctx := by
  have colon : byte ':' ∉ name := by
    rcases named with rfl | rfl <;> decide
  have rest : (name ++ byte ':' :: val).drop (0 + name.length + 1) = val := by
    rw [Nat.zero_add, List.drop_append, List.drop_eq_nil_of_le (Nat.le_succ _)]
    simp
  have hit : find (name ++ byte ':' :: val) (byte ':') 0 = some (0 + name.length) := find_of_split rfl colon
  unfold handleContentLengthLine
  rw [contentLength_iff.mpr ⟨name, val, named, rfl⟩, hit]
  dsimp only
  rw [rest, List.dropWhile_eq_drop_findIdx_not]
  cases found : val.findIdx? (!isHeaderSpace ·) with
  | none =>
    rw [List.findIdx?_eq_none_iff_findIdx_eq] at found
    rw [found, List.drop_length]
    rfl
  | some first =>
    obtain ⟨_, same⟩ := List.findIdx?_eq_some_iff_findIdx_eq.mp found
    rw [same]
    rfl

theorem handleContentLengthLine_other {memory : Nat} {line : Text} {ctx : StoredContext}
    (other : ¬ ∃ name val, IsContentLength name ∧ line = name ++ byte ':' :: val) :
    handleContentLengthLine memory line ctx = .ok ctx := by
  rw [← contentLength_iff, Bool.not_eq_false] at other
  rw [handleContentLengthLine, if_pos other]

theorem announces_iff {name : Text} (named : IsContentLength name) {val : Text} {value : Nat} :
    Announces (name ++ byte ':' :: val) value ↔ fromChars sizeBound (val.dropWhile isHeaderSpace) = some value := by
  have length {name : Text} (named : IsContentLength name) : name.length = 14 := by
    rcases named with rfl | rfl <;> rfl
  rw [fromChars_iff]
  constructor
  · rintro ⟨other, blanks, number, same, named', spaces, leading, fits⟩
    obtain ⟨_, parts⟩ := List.append_inj same ((length named).trans (length named').symm)
    obtain rfl := List.cons_inj_right _ |>.mp parts
    rw [(span_until spaces (leadingNumber_head leading)).2]
    exact ⟨leading, fits⟩
  · rintro ⟨leading, fits⟩
    refine ⟨name, val.takeWhile isHeaderSpace, val.dropWhile isHeaderSpace, ?_, named,
      fun c member => List.mem_takeWhile_imp member, leading, fits⟩
    rw [List.takeWhile_append_dropWhile]

theorem handleContentLengthLine_ok_iff {memory : Nat} {line : Text} {ctx : StoredContext} :
    (∃ after, handleContentLengthLine memory line ctx = .ok after) ↔
      ∀ value, Announces line value → value ≤ ctx.capacity ∨ (value ≤ maxSize ∧ value ≤ memory) := by
  by_cases header : ∃ name val, IsContentLength name ∧ line = name ++ byte ':' :: val
  · obtain ⟨name, val, named, rfl⟩ := header
    rw [handleContentLengthLine_named named, reserveBodyFromContentLength]
    simp only [announces_iff named]
    cases read : fromChars sizeBound (val.dropWhile isHeaderSpace) with
    | none => simp
    | some value => simp [reserveBody_ok_iff]
  · rw [handleContentLengthLine_other header]
    refine ⟨fun _ value announced => ?_, fun _ => ⟨ctx, rfl⟩⟩
    obtain ⟨name, blanks, number, same, named, _⟩ := announced
    exact absurd ⟨name, blanks ++ number, named, same⟩ header

/-- The callback completes exactly when every length that the line gives fits into
the storage the body already has, or into memory. -/
theorem headerCallback_completes_iff (memory : Nat) (line : Text) (userdata : Option StoredContext) :
    (∃ after, headerCallback memory line userdata = .ok (line.length, after)) ↔
      ∀ ctx, userdata = some ctx →
        ∀ value, Announces line value → value ≤ ctx.capacity ∨ (value ≤ maxSize ∧ value ≤ memory) := by
  cases userdata with
  | none => simp [headerCallback]
  | some ctx =>
    simp only [Option.some.injEq, forall_eq', ← handleContentLengthLine_ok_iff, headerCallback]
    cases handleContentLengthLine memory line ctx <;> simp [Except.map]

/-- A transfer in front of its first header. -/
def emptyContext : StoredContext where
  response := { statusCode := httpStatusUnknown, body := [], metrics := {} }
  capacity := 0
  held := Nat.le_refl 0

/-- No memory is large enough for the longest length that a line can give. -/
theorem not_headerCallback_completes :
    ¬ ∀ memory line userdata, ∃ after, headerCallback memory line userdata = .ok (line.length, after) := by
  intro all
  obtain ⟨after, completed⟩ := all 17179869184 (text "Content-Length: 18446744073709551615\r\n") (some emptyContext)
  have thrown : handleContentLengthLine 17179869184 (text "Content-Length: 18446744073709551615\r\n") emptyContext =
    .error .lengthError := by rfl
  simp [headerCallback, thrown, Except.map] at completed

end Iptv.Network
