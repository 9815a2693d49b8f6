import Daybook.Span
import Daybook.Text.Utf8

/-!
# Encoding and decoding are inverse

The bytes of a text decode to that text, and bytes that decode to a text are its bytes. A
file that can be read is therefore the encoding of what it says.

The only encoded line feed is that of the line feed itself, so a line of the bytes ends
where a line of the text ends.
-/
namespace Daybook.Text.Utf8

/-- The code of a character is below the end of the codes and none of a half of a pair. -/
theorem code_range (c : Char) :
    c.toNat < 0x110000 ∧ (c.toNat < 0xD800 ∨ 0xE000 ≤ c.toNat) := by
  have valid := c.valid
  have same : c.toNat = c.val.toNat := rfl
  simp only [UInt32.isValidChar, Nat.isValidChar] at valid
  omega

/-- The bytes that continue a character, by their values. -/
theorem isTail_iff {b : UInt8} : isTail b = true ↔ 0x80 ≤ b.toNat ∧ b.toNat ≤ 0xBF := by
  simp [isTail, UInt8.le_iff_toNat_le]

/-- The second of three bytes, by its value. Two leading bytes allow fewer: one of them would make a
longer form than needed, the other one half of a pair of code units. -/
theorem isSecondOfThree_iff {lead b : UInt8} : isSecondOfThree lead b = true ↔
    (0x80 ≤ b.toNat ∧ b.toNat ≤ 0xBF) ∧ (lead.toNat = 0xE0 → 0xA0 ≤ b.toNat) ∧
      (lead.toNat = 0xED → b.toNat < 0xA0) := by
  simp only [isSecondOfThree, Bool.and_eq_true, isTail_iff, Bool.not_eq_true',
    Bool.and_eq_false_iff, beq_eq_false_iff_ne, ne_eq, decide_eq_false_iff_not, ← UInt8.toNat_inj,
    UInt8.lt_iff_toNat_lt, ge_iff_le, UInt8.le_iff_toNat_le, UInt8.reduceToNat]
  omega

/-- The second of four bytes, by its value. Two leading bytes allow fewer: one of them would make a
longer form than needed, the other one a code above the last character. -/
theorem isSecondOfFour_iff {lead b : UInt8} : isSecondOfFour lead b = true ↔
    (0x80 ≤ b.toNat ∧ b.toNat ≤ 0xBF) ∧ (lead.toNat = 0xF0 → 0x90 ≤ b.toNat) ∧
      (lead.toNat = 0xF4 → b.toNat < 0x90) := by
  simp only [isSecondOfFour, Bool.and_eq_true, isTail_iff, Bool.not_eq_true',
    Bool.and_eq_false_iff, beq_eq_false_iff_ne, ne_eq, decide_eq_false_iff_not, ← UInt8.toNat_inj,
    UInt8.lt_iff_toNat_lt, ge_iff_le, UInt8.le_iff_toNat_le, UInt8.reduceToNat]
  omega

/-! ## The four lengths of a character -/

section Lengths

variable {position : Nat} {lead second third fourth : UInt8} {c : Char}

/-- One byte is decoded to the character of its code. The value of the byte is all that is asked
for, so that the lemma serves both directions. -/
theorem decodeFrom_one (rest : Bytes) (range : lead.toNat < 0x80) (code : lead.toNat = c.toNat) :
    decodeFrom position (lead :: rest) = (decodeFrom (position + 1) rest).map (c :: ·) := by
  have small : c.toNat < 0x80 := code ▸ range
  rw [decodeFrom.eq_def]
  simp [UInt8.lt_iff_toNat_lt, small, code]

/-- Two bytes that fit together are decoded to the character whose code they carry. -/
theorem decodeFrom_two (rest : Bytes) (range : 0xC2 ≤ lead.toNat ∧ lead.toNat < 0xE0)
    (tail : isTail second = true) (code : append (lead.toNat - 0xC0) second = c.toNat) :
    decodeFrom position (lead :: second :: rest) =
      (decodeFrom (position + 2) rest).map (c :: ·) := by
  have first : ¬ lead.toNat < 0x80 := by omega
  have start : ¬ lead.toNat < 0xC2 := by omega
  rw [decodeFrom.eq_def]
  simp [UInt8.lt_iff_toNat_lt, first, start, range.2, tail, code]

/-- Three bytes that fit together are decoded to the character whose code they carry. -/
theorem decodeFrom_three (rest : Bytes) (range : 0xE0 ≤ lead.toNat ∧ lead.toNat < 0xF0)
    (tail : isSecondOfThree lead second = true) (last : isTail third = true)
    (code : append (append (lead.toNat - 0xE0) second) third = c.toNat) :
    decodeFrom position (lead :: second :: third :: rest) =
      (decodeFrom (position + 3) rest).map (c :: ·) := by
  have first : ¬ lead.toNat < 0x80 := by omega
  have start : ¬ lead.toNat < 0xC2 := by omega
  have longer : ¬ lead.toNat < 0xE0 := by omega
  rw [decodeFrom.eq_def]
  simp [UInt8.lt_iff_toNat_lt, first, start, longer, range.2, tail, last, code]

/-- Four bytes that fit together are decoded to the character whose code they carry. -/
theorem decodeFrom_four (rest : Bytes) (range : 0xF0 ≤ lead.toNat ∧ lead.toNat < 0xF5)
    (tail : isSecondOfFour lead second = true) (inner : isTail third = true)
    (last : isTail fourth = true)
    (code : append (append (append (lead.toNat - 0xF0) second) third) fourth = c.toNat) :
    decodeFrom position (lead :: second :: third :: fourth :: rest) =
      (decodeFrom (position + 4) rest).map (c :: ·) := by
  have first : ¬ lead.toNat < 0x80 := by omega
  have start : ¬ lead.toNat < 0xC2 := by omega
  have longer : ¬ lead.toNat < 0xE0 := by omega
  have longest : ¬ lead.toNat < 0xF0 := by omega
  rw [decodeFrom.eq_def]
  simp [UInt8.lt_iff_toNat_lt, first, start, longer, longest, range.2, tail, inner, last, code]

end Lengths

/-- The bytes of a character by its code. -/
theorem encodeChar_cases (c : Char) :
    (c.toNat ≤ 0x7F ∧ String.utf8EncodeChar c = [UInt8.ofNat c.toNat]) ∨
    (0x7F < c.toNat ∧ c.toNat ≤ 0x7FF ∧ String.utf8EncodeChar c =
      [UInt8.ofNat (c.toNat / 64 % 0x20 + 0xC0), UInt8.ofNat (c.toNat % 0x40 + 0x80)]) ∨
    (0x7FF < c.toNat ∧ c.toNat ≤ 0xFFFF ∧ String.utf8EncodeChar c =
      [UInt8.ofNat (c.toNat / 4096 % 0x10 + 0xE0), UInt8.ofNat (c.toNat / 64 % 0x40 + 0x80),
        UInt8.ofNat (c.toNat % 0x40 + 0x80)]) ∨
    (0xFFFF < c.toNat ∧ String.utf8EncodeChar c =
      [UInt8.ofNat (c.toNat / 262144 % 0x08 + 0xF0), UInt8.ofNat (c.toNat / 4096 % 0x40 + 0x80),
        UInt8.ofNat (c.toNat / 64 % 0x40 + 0x80), UInt8.ofNat (c.toNat % 0x40 + 0x80)]) := by
  have same : c.val.toNat = c.toNat := rfl
  simp only [String.utf8EncodeChar, same]
  by_cases one : c.toNat ≤ 0x7F
  · exact Or.inl ⟨one, by simp [one]⟩
  by_cases two : c.toNat ≤ 0x7FF
  · exact Or.inr (Or.inl ⟨by omega, two, by simp [one, two]⟩)
  by_cases three : c.toNat ≤ 0xFFFF
  · exact Or.inr (Or.inr (Or.inl ⟨by omega, three, by simp [one, two, three]⟩))
  · exact Or.inr (Or.inr (Or.inr ⟨by omega, by simp [one, two, three]⟩))

/-- Decoding the bytes of a character yields the character, whatever follows them. One case for each
length of the encoding. In all of them the bits are taken apart by division and put together again
by multiplication, which is linear arithmetic once the bytes are numbers. -/
theorem decodeFrom_encodeChar (position : Nat) (c : Char) (rest : Bytes) :
    decodeFrom position (String.utf8EncodeChar c ++ rest) =
      (decodeFrom (position + c.utf8Size) rest).map (c :: ·) := by
  obtain ⟨small, whole⟩ := code_range c
  rw [← String.length_utf8EncodeChar]
  rcases encodeChar_cases c with ⟨high, bytes⟩ | ⟨low, high, bytes⟩ | ⟨low, high, bytes⟩ |
    ⟨low, bytes⟩
  · rw [bytes]
    simp only [List.cons_append, List.nil_append, List.length_cons, List.length_nil]
    refine decodeFrom_one rest ?_ ?_
    · simp only [UInt8.toNat_ofNat']
      omega
    · simp only [UInt8.toNat_ofNat']
      omega
  · rw [bytes]
    simp only [List.cons_append, List.nil_append, List.length_cons, List.length_nil]
    refine decodeFrom_two rest ?_ ?_ ?_
    · simp only [UInt8.toNat_ofNat']
      omega
    · simp only [isTail_iff, UInt8.toNat_ofNat']
      omega
    · unfold append
      simp only [UInt8.toNat_ofNat']
      omega
  · rw [bytes]
    simp only [List.cons_append, List.nil_append, List.length_cons, List.length_nil]
    refine decodeFrom_three rest ?_ ?_ ?_ ?_
    · simp only [UInt8.toNat_ofNat']
      omega
    · simp only [isSecondOfThree_iff, UInt8.toNat_ofNat']
      omega
    · simp only [isTail_iff, UInt8.toNat_ofNat']
      omega
    · unfold append
      simp only [UInt8.toNat_ofNat']
      omega
  · rw [bytes]
    simp only [List.cons_append, List.nil_append, List.length_cons, List.length_nil]
    refine decodeFrom_four rest ?_ ?_ ?_ ?_ ?_
    · simp only [UInt8.toNat_ofNat']
      omega
    · simp only [isSecondOfFour_iff, UInt8.toNat_ofNat']
      omega
    · simp only [isTail_iff, UInt8.toNat_ofNat']
      omega
    · simp only [isTail_iff, UInt8.toNat_ofNat']
      omega
    · unfold append
      simp only [UInt8.toNat_ofNat']
      omega

/-- The empty text takes no bytes. -/
@[simp] theorem encode_nil : encode [] = [] := rfl

/-- The bytes of a text are those of its first character and then those of the others. -/
@[simp] theorem encode_cons (c : Char) (text : Text) :
    encode (c :: text) = String.utf8EncodeChar c ++ encode text := rfl

/-- Texts one after the other take their bytes one after the other. All arithmetic of offsets comes
from this. -/
@[simp] theorem encode_append (left right : Text) :
    encode (left ++ right) = encode left ++ encode right := by
  simp [encode]

/-- The bytes of a text decode to the text. -/
theorem decodeFrom_encode (position : Nat) (text : Text) :
    decodeFrom position (encode text) = .ok text := by
  induction text generalizing position with
  | nil => simp [decodeFrom]
  | cons c rest ih =>
    rw [encode_cons, decodeFrom_encodeChar, ih]
    rfl

/-- The bytes of a text decode to the text. -/
@[simp] theorem decode_encode (text : Text) : decode (encode text) = .ok text :=
  decodeFrom_encode 0 text

/-! ## Bytes that decode -/

/-- A code that is none of a half of a pair is the code of its character. -/
theorem code_ofNat (code : Nat) (valid : code < 0xD800 ∨ 0xE000 ≤ code ∧ code < 0x110000) :
    (Char.ofNat code).toNat = code := by
  have isValid : code.isValidChar := by
    simp only [Nat.isValidChar]
    omega
  rw [Char.ofNat, dif_pos isValid]
  rfl

section Bytes

variable {lead second third fourth : UInt8}

/-- A byte below 0x80 is the whole encoding of its character. -/
theorem encodeChar_one (range : lead.toNat < 0x80) :
    String.utf8EncodeChar (Char.ofNat lead.toNat) = [lead] := by
  have code := code_ofNat lead.toNat (by omega)
  rcases encodeChar_cases (Char.ofNat lead.toNat) with ⟨_, bytes⟩ | ⟨low, _⟩ | ⟨low, _⟩ | ⟨low, _⟩
  · rw [bytes, code, UInt8.ofNat_toNat]
  all_goals omega

/-- Two bytes that fit together are the encoding of the character whose code they carry: no shorter
form would do, because of the bound on the leading byte. -/
theorem encodeChar_two (range : 0xC2 ≤ lead.toNat ∧ lead.toNat < 0xE0)
    (tail : isTail second = true) :
    String.utf8EncodeChar (Char.ofNat (append (lead.toNat - 0xC0) second)) = [lead, second] := by
  rw [isTail_iff] at tail
  have code := code_ofNat (append (lead.toNat - 0xC0) second) (by
    unfold append
    omega)
  rcases encodeChar_cases (Char.ofNat (append (lead.toNat - 0xC0) second)) with
    ⟨high, _⟩ | ⟨_, _, bytes⟩ | ⟨low, _⟩ | ⟨low, _⟩
  case inr.inl =>
    rw [bytes, code]
    unfold append
    simp only [List.cons.injEq, ← UInt8.toNat_inj, UInt8.toNat_ofNat', and_true]
    omega
  all_goals
    rw [code] at *
    unfold append at *
    omega

/-- Three bytes that fit together are the encoding of the character whose code they carry. The code
lies in the range that is written with three bytes, because overlong forms and halves of pairs have
been ruled out by the second byte. -/
theorem encodeChar_three (range : 0xE0 ≤ lead.toNat ∧ lead.toNat < 0xF0)
    (tail : isSecondOfThree lead second = true) (last : isTail third = true) :
    String.utf8EncodeChar (Char.ofNat (append (append (lead.toNat - 0xE0) second) third)) =
      [lead, second, third] := by
  rw [isSecondOfThree_iff] at tail
  rw [isTail_iff] at last
  have code := code_ofNat (append (append (lead.toNat - 0xE0) second) third) (by
    unfold append
    omega)
  rcases encodeChar_cases (Char.ofNat (append (append (lead.toNat - 0xE0) second) third)) with
    ⟨high, _⟩ | ⟨_, high, _⟩ | ⟨_, _, bytes⟩ | ⟨low, _⟩
  case inr.inr.inl =>
    rw [bytes, code]
    unfold append
    simp only [List.cons.injEq, ← UInt8.toNat_inj, UInt8.toNat_ofNat', and_true]
    omega
  all_goals
    rw [code] at *
    unfold append at *
    omega

/-- Four bytes that fit together are the encoding of the character whose code they carry. The
second byte rules out overlong forms and codes beyond the last one, so the encoding has four
bytes as well. -/
theorem encodeChar_four (range : 0xF0 ≤ lead.toNat ∧ lead.toNat < 0xF5)
    (tail : isSecondOfFour lead second = true) (inner : isTail third = true)
    (last : isTail fourth = true) :
    String.utf8EncodeChar
      (Char.ofNat (append (append (append (lead.toNat - 0xF0) second) third) fourth)) =
      [lead, second, third, fourth] := by
  rw [isSecondOfFour_iff] at tail
  rw [isTail_iff] at inner last
  have code := code_ofNat
    (append (append (append (lead.toNat - 0xF0) second) third) fourth) (by
      unfold append
      omega)
  rcases encodeChar_cases
      (Char.ofNat (append (append (append (lead.toNat - 0xF0) second) third) fourth)) with
    ⟨high, _⟩ | ⟨_, high, _⟩ | ⟨_, high, _⟩ | ⟨_, bytes⟩
  case inr.inr.inr =>
    rw [bytes, code]
    unfold append
    simp only [List.cons.injEq, ← UInt8.toNat_inj, UInt8.toNat_ofNat', and_true]
    omega
  all_goals
    rw [code] at *
    unfold append at *
    omega

end Bytes

/-- A text that begins with a decoded character goes on with what the other bytes decode to. -/
theorem map_cons_eq_ok {c : Char} {decoded : Except Malformed Text} {text : Text}
    (mapped : decoded.map (c :: ·) = .ok text) :
    ∃ rest, decoded = .ok rest ∧ text = c :: rest := by
  cases decoded with
  | error _ => cases mapped
  | ok rest =>
    cases mapped
    exact ⟨rest, rfl, rfl⟩

/-- Bytes that decode are the bytes of the text they decode to. By induction along the decoder: four
of its branches go on, one for each length of an encoding, and all the others have failed. -/
theorem encode_of_decodeFrom {position : Nat} {bytes : Bytes} {text : Text}
    (decoded : decodeFrom position bytes = .ok text) : encode text = bytes := by
  fun_induction decodeFrom position bytes generalizing text
  case case1 =>
    cases decoded
    rfl
  case case2 lead bytes range ih =>
    obtain ⟨rest, others, rfl⟩ := map_cons_eq_ok decoded
    rw [UInt8.lt_iff_toNat_lt] at range
    rw [encode_cons, encodeChar_one range, ih others]
    rfl
  case case6 lead low start high second bytes tail code ih =>
    obtain ⟨rest, others, rfl⟩ := map_cons_eq_ok decoded
    rw [UInt8.lt_iff_toNat_lt] at start high
    rw [encode_cons, encodeChar_two ⟨Nat.le_of_not_lt start, high⟩ (by simpa using tail), ih others]
    rfl
  case case11 lead low start longer high second tail third bytes last code ih =>
    obtain ⟨rest, others, rfl⟩ := map_cons_eq_ok decoded
    rw [UInt8.lt_iff_toNat_lt] at longer high
    rw [encode_cons, encodeChar_three ⟨Nat.le_of_not_lt longer, high⟩ (by simpa using tail)
      (by simpa using last), ih others]
    rfl
  case case18 lead low start longer longest high second tail third inner fourth bytes last code ih =>
    obtain ⟨rest, others, rfl⟩ := map_cons_eq_ok decoded
    rw [UInt8.lt_iff_toNat_lt] at longest high
    rw [encode_cons, encodeChar_four ⟨Nat.le_of_not_lt longest, high⟩ (by simpa using tail)
      (by simpa using inner) (by simpa using last), ih others]
    rfl
  -- In every other case the bytes are at fault.
  all_goals cases decoded

/-- Bytes decode to a text exactly if they are the bytes of the text. -/
theorem decode_eq_ok_iff {bytes : Bytes} {text : Text} :
    decode bytes = .ok text ↔ bytes = encode text := by
  constructor
  · intro decoded
    exact (encode_of_decodeFrom decoded).symm
  · rintro rfl
    exact decode_encode text

/-! ## Lines -/

/-- The text after the first line end; nothing when there is none. -/
def afterLine (text : Text) : Text :=
  (text.dropWhile (· ≠ '\n')).drop 1

/-- The byte of a line feed is in no other character. -/
theorem lineFeed_mem_encodeChar {c : Char} :
    (0x0A : UInt8) ∈ String.utf8EncodeChar c ↔ c = '\n' := by
  constructor
  · intro member
    rcases encodeChar_cases c with ⟨high, bytes⟩ | ⟨_, _, bytes⟩ | ⟨_, _, bytes⟩ | ⟨_, bytes⟩
    · simp only [bytes, List.mem_singleton, ← UInt8.toNat_inj, UInt8.toNat_ofNat',
        UInt8.reduceToNat] at member
      have code : c.toNat = 10 := by omega
      rw [← Char.ofNat_toNat c, code]
    all_goals
      simp only [bytes, List.mem_cons, List.not_mem_nil, or_false, ← UInt8.toNat_inj,
        UInt8.toNat_ofNat', UInt8.reduceToNat] at member
      omega
  · rintro rfl
    decide

/-- The bytes of a text have a line feed exactly if the text has one. -/
theorem lineFeed_mem_encode {text : Text} :
    (0x0A : UInt8) ∈ encode text ↔ '\n' ∈ text := by
  induction text with
  | nil => exact iff_of_false List.not_mem_nil List.not_mem_nil
  | cons c rest ih =>
    rw [encode_cons, List.mem_append, ih, lineFeed_mem_encodeChar, List.mem_cons, eq_comm]

/-- The last byte of a text is that of a line feed exactly if its last character is one. -/
theorem getLast?_encode_concat (front : Text) (c : Char) :
    ∃ b, (encode (front ++ [c])).getLast? = some b ∧ (b = 0x0A ↔ c = '\n') := by
  have nonempty : String.utf8EncodeChar c ≠ [] := by
    rcases encodeChar_cases c with ⟨_, bytes⟩ | ⟨_, _, bytes⟩ | ⟨_, _, bytes⟩ | ⟨_, bytes⟩
    all_goals simp [bytes]
  refine ⟨(String.utf8EncodeChar c).getLast nonempty, ?_, ?_, ?_⟩
  · rw [encode_append, encode_cons, encode_nil, List.append_nil, List.getLast?_append,
      List.getLast?_eq_some_getLast nonempty, Option.some_or]
  · intro feed
    exact lineFeed_mem_encodeChar.mp (feed ▸ List.getLast_mem nonempty)
  · rintro rfl
    rfl

/-- Only the empty text takes no bytes. -/
theorem encode_eq_nil_iff {text : Text} : encode text = [] ↔ text = [] := by
  constructor
  · intro none
    have decoded := decode_eq_ok_iff.mpr none.symm
    cases decoded
    rfl
  · rintro rfl
    rfl

/-- Bytes without a line feed before others are passed over in the search for the line end. -/
theorem afterLine_append {front rest : Bytes} (plain : (0x0A : UInt8) ∉ front) :
    Span.afterLine (front ++ rest) = Span.afterLine rest := by
  induction front with
  | nil => rfl
  | cons b front ih =>
    rw [List.mem_cons, not_or] at plain
    rw [List.cons_append, Span.afterLine, if_neg (Ne.symm plain.1), ih plain.2]

/-- The bytes after the first line end are the bytes of the text after it. -/
theorem afterLine_encode (text : Text) :
    Span.afterLine (encode text) = encode (afterLine text) := by
  induction text with
  | nil => rfl
  | cons c rest ih =>
    by_cases ends : c = '\n'
    · subst ends
      rfl
    · rw [encode_cons, afterLine_append (mt lineFeed_mem_encodeChar.mp ends), ih]
      simp [afterLine, ends]

end Daybook.Text.Utf8
