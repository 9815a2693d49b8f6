import Daybook.Directive.Collecting
import Daybook.Proofs.Statement.Extents
import Daybook.Proofs.Text.Utf8

/-!
# Offsets measure a text

A position counts the characters before it, and its offset counts their bytes. There are two ways to
the offset. A table adds up the sizes of the characters one by one; and where every character takes
a single byte, the position itself will do. Both are held here against the bytes of the text. The
table has an offset for every position, the end of the text included, and it is the number of bytes
before the position. To take the position for its offset comes to the same in the texts of basic
characters and in no others, so the test that decides between the two ways is neither too strict
nor too lax.

From then on it does not matter how an offset was found. Offsets keep the order of positions,
because every character takes some bytes, and the bytes between two offsets are those of the text
between the two positions, because the bytes of a text are those of its parts.
-/
namespace Daybook

namespace Text.Utf8

/-! ## The size of a text -/

/-- A text has at least as many bytes as characters. -/
theorem length_le_length_encode (text : Text) : text.length ≤ (encode text).length := by
  induction text with
  | nil => exact Nat.le_refl _
  | cons c rest ih =>
    have one := Char.utf8Size_pos c
    rw [encode_cons, List.length_append, String.length_utf8EncodeChar, List.length_cons]
    omega

/-- A text has as many bytes as characters exactly if all its characters are basic. -/
theorem length_encode_eq_iff {text : Text} :
    (encode text).length = text.length ↔ ∀ c ∈ text, c.toNat < 0x80 := by
  induction text with
  | nil => exact iff_of_true rfl (List.forall_mem_nil _)
  | cons c rest ih =>
    have one := Char.utf8Size_pos c
    have basic : c.utf8Size = 1 ↔ c.toNat < 0x80 :=
      Char.utf8Size_eq_one_iff.trans (UInt32.le_iff_toNat_le.trans Nat.lt_succ_iff.symm)
    -- No character makes up for one that takes several bytes.
    have least := length_le_length_encode rest
    rw [List.forall_mem_cons, ← basic, ← ih, encode_cons, List.length_append,
      String.length_utf8EncodeChar, List.length_cons]
    omega

/-! ## Two ways to find an offset -/

/-- The running offsets of a text give the number of bytes before a position. -/
theorem getElem?_runningOffsets (offset : Nat) {position : Nat} {text : Text}
    (inside : position ≤ text.length) :
    (runningOffsets offset text)[position]? =
      some (offset + (encode (text.take position)).length) := by
  induction text generalizing offset position with
  | nil =>
    obtain rfl : position = 0 := by simpa using inside
    simp [runningOffsets]
  | cons c rest ih =>
    cases position with
    | zero => simp [runningOffsets]
    | succ position =>
      have inner := ih (offset + c.utf8Size) (Nat.le_of_succ_le_succ inside)
      simp only [runningOffsets, List.getElem?_cons_succ, inner, List.take_succ_cons, encode_cons,
        List.length_append, String.length_utf8EncodeChar, Option.some.injEq]
      omega

namespace Offsets

/-- The offset of a position, if it has one: a table ends with its text. -/
def byte? (offsets : Offsets) (position : Nat) : Option Nat :=
  match offsets.table with
  | none => some position
  | some table => table[position]?

/-- The positions are the offsets. -/
def direct : Offsets := ⟨none⟩

/-- The offsets of a text by the sizes of its characters. -/
def summed (text : Text) : Offsets := ⟨some (runningOffsets 0 text).toArray⟩

/-- Every position of a text, its end included, has an offset: the number of bytes before it. -/
def Measures (offsets : Offsets) (text : Text) : Prop :=
  ∀ position ≤ text.length, offsets.byte? position = some (encode (text.take position)).length

/-- An offset that is there is the one that is used. -/
theorem byte_of_found {offsets : Offsets} {position offset : Nat}
    (found : offsets.byte? position = some offset) : offsets.byte position = offset := by
  obtain ⟨table⟩ := offsets
  cases table with
  | none => exact Option.some.inj found
  | some table =>
    change table[position]? = some offset at found
    simp only [byte, Array.getD_eq_getD_getElem?, found, Option.getD_some]

/-- The sizes of its characters measure every text. -/
theorem summed_measures (text : Text) : (summed text).Measures text := by
  intro position inside
  change (runningOffsets 0 text).toArray[position]? = _
  rw [List.getElem?_toArray, getElem?_runningOffsets 0 inside, Nat.zero_add]

/-- The positions measure the texts of basic characters only. -/
theorem direct_measures_iff {text : Text} :
    direct.Measures text ↔ ∀ c ∈ text, c.toNat < 0x80 := by
  constructor
  · intro measures
    have whole := measures text.length (Nat.le_refl _)
    rw [List.take_length] at whole
    exact length_encode_eq_iff.mp (Option.some.inj whole).symm
  · intro basic position inside
    have part : ∀ c ∈ text.take position, c.toNat < 0x80 :=
      fun c member => basic c (List.mem_of_mem_take member)
    rw [length_encode_eq_iff.mpr part, List.length_take, Nat.min_eq_left inside]
    rfl

/-- The positions and the sizes give one offset in the texts of basic characters only. -/
theorem direct_agrees_iff {text : Text} :
    (∀ position ≤ text.length, direct.byte? position = (summed text).byte? position) ↔
      ∀ c ∈ text, c.toNat < 0x80 := by
  rw [← direct_measures_iff]
  constructor
  · intro agree position inside
    exact (agree position inside).trans (summed_measures text position inside)
  · intro measures position inside
    exact (measures position inside).trans (summed_measures text position inside).symm

/-- A text of the basic set alone needs no table: positions are offsets there, since each of its
characters takes one byte. -/
theorem ofText_of_basic {text : Text} (basic : ∀ c ∈ text, c.toNat < 0x80) :
    ofText text = direct :=
  if_pos (List.all_eq_true.mpr fun c member => decide_eq_true (basic c member))

/-- A text with a character that is not basic needs a table. -/
theorem ofText_of_wide {text : Text} (wide : ¬ ∀ c ∈ text, c.toNat < 0x80) :
    ofText text = summed text :=
  if_neg fun all => wide fun c member => of_decide_eq_true (List.all_eq_true.mp all c member)

/-- Whichever offsets are taken for a text, they measure it. -/
theorem ofText_measures (text : Text) : (ofText text).Measures text := by
  by_cases basic : ∀ c ∈ text, c.toNat < 0x80
  · rw [ofText_of_basic basic]
    exact direct_measures_iff.mpr basic
  · rw [ofText_of_wide basic]
    exact summed_measures text

/-! ## What is measured -/

namespace Measures

variable {offsets : Offsets} {text : Text} {first second : Nat}

/-- The offset of a position is the number of bytes before it, for any way to keep offsets that
measures the text. -/
theorem byte (measures : offsets.Measures text) (inside : first ≤ text.length) :
    offsets.byte first = (encode (text.take first)).length :=
  byte_of_found (measures first inside)

/-- The offsets of two positions differ by the bytes of the text between them. -/
theorem byte_add (measures : offsets.Measures text) (order : first ≤ second)
    (inside : second ≤ text.length) :
    offsets.byte second = offsets.byte first + (encode (slice text first second)).length := by
  rw [measures.byte inside, measures.byte (Nat.le_trans order inside), ← take_append_slice order,
    encode_append, List.length_append]

/-- A position further on has a greater offset. -/
theorem byte_lt (measures : offsets.Measures text) (order : first < second)
    (inside : second ≤ text.length) : offsets.byte first < offsets.byte second := by
  have further := measures.byte_add (Nat.le_of_lt order) inside
  have characters := @length_slice text first second inside
  have bytes := length_le_length_encode (slice text first second)
  omega

/-- The offset of a position parts the bytes of a text. -/
theorem take_byte (measures : offsets.Measures text) (inside : first ≤ text.length) :
    (encode text).take (offsets.byte first) = encode (text.take first) := by
  have parts : encode text = encode (text.take first) ++ encode (text.drop first) := by
    rw [← encode_append, List.take_append_drop]
  rw [measures.byte inside, parts, List.take_left]

/-- The bytes between two offsets are those of the text between the positions. -/
theorem bytes_between (measures : offsets.Measures text) (order : first ≤ second)
    (inside : second ≤ text.length) :
    ((encode text).drop (offsets.byte first)).take (offsets.byte second - offsets.byte first) =
      encode (slice text first second) := by
  have parts : encode text = encode (text.take first) ++
      (encode (slice text first second) ++ encode (text.drop second)) := by
    rw [← encode_append, ← encode_append, ← drop_eq_slice_append order, List.take_append_drop]
  rw [measures.byte_add order inside, Nat.add_sub_cancel_left,
    measures.byte (Nat.le_trans order inside), parts, List.drop_left, List.take_left]

end Measures

/-- Every position of a text, its end included, has an offset, and it is the number of bytes that
the characters before the position take. A greater position has a greater offset. No table is made
exactly for the texts of basic characters, and these are exactly the texts in which a table would
have the positions themselves in it. The bytes from the offset of one position to that of another
are the bytes of the text from the one position to the other. The table is made in one pass, with
the number of bytes so far as its state, and that number is what every entry of it measures. -/
theorem ofText_exact (text : Text) :
    (∀ position ≤ text.length,
      (ofText text).byte? position = some (encode (text.take position)).length ∧
        (ofText text).byte position = (encode (text.take position)).length) ∧
    (∀ first second, first < second → second ≤ text.length →
      (ofText text).byte first < (ofText text).byte second) ∧
    ((ofText text).table = none ↔ ∀ c ∈ text, c.toNat < 0x80) ∧
    ((∀ position ≤ text.length, direct.byte? position = (summed text).byte? position) ↔
      ∀ c ∈ text, c.toNat < 0x80) ∧
    ∀ first second, first ≤ second → second ≤ text.length →
      ((encode text).drop ((ofText text).byte first)).take
          ((ofText text).byte second - (ofText text).byte first) =
        encode (slice text first second) := by
  have measures := ofText_measures text
  refine ⟨fun position inside => ⟨measures position inside, measures.byte inside⟩,
    fun first second order inside => measures.byte_lt order inside, ?_, direct_agrees_iff,
    fun first second order inside => measures.bytes_between order inside⟩
  by_cases basic : ∀ c ∈ text, c.toNat < 0x80
  · rw [ofText_of_basic basic]
    exact iff_of_true rfl basic
  · rw [ofText_of_wide basic]
    exact iff_of_false nofun basic

/-- Characters of one, two, three and four bytes. -/
def graded : Text := "aß€😀"

/-- The offsets of a text of characters of every size, and the bytes of those in its middle. -/
theorem graded_exact :
    3 ≤ graded.length ∧ (ofText graded).byte? 3 = some 6 ∧
      4 ≤ graded.length ∧ (ofText graded).byte? 4 = some 10 ∧
      1 < 3 ∧ (ofText graded).byte 1 < (ofText graded).byte 3 ∧
      ((encode graded).drop ((ofText graded).byte 1)).take
        ((ofText graded).byte 3 - (ofText graded).byte 1) = [0xC3, 0x9F, 0xE2, 0x82, 0xAC] := by
  obtain ⟨found, further, -, -, between⟩ := ofText_exact graded
  have inside : 3 ≤ graded.length := by decide
  have whole : 4 ≤ graded.length := by decide
  exact ⟨inside, (found 3 inside).1, whole, (found 4 whole).1, by decide,
    further 1 3 (by decide) inside, between 1 3 (by decide) inside⟩

end Offsets

end Text.Utf8

/-! ## The offsets of a source -/

namespace Source

variable {text front after : Text} {first second : Nat}

/-- The offset of a position is the number of bytes before it. -/
theorem byte_take (path : Text) (inside : first ≤ text.length) :
    (ofText path text).offsets.byte first = (Text.Utf8.encode (text.take first)).length :=
  (Text.Utf8.Offsets.ofText_measures text).byte inside

/-- The offset behind the front of a text is the number of its bytes. -/
theorem byte_append (path : Text) (whole : text = front ++ after) :
    (ofText path text).offsets.byte front.length = (Text.Utf8.encode front).length := by
  rw [byte_take path (by simp [whole]), whole, List.take_left]

/-- A later position has no smaller offset. -/
theorem byte_mono (path : Text) (order : first ≤ second) (inside : second ≤ text.length) :
    (ofText path text).offsets.byte first ≤ (ofText path text).offsets.byte second :=
  Nat.le.intro ((Text.Utf8.Offsets.ofText_measures text).byte_add order inside).symm

/-- A position further on has a greater offset. -/
theorem byte_lt (path : Text) (order : first < second) (inside : second ≤ text.length) :
    (ofText path text).offsets.byte first < (ofText path text).offsets.byte second :=
  (Text.Utf8.Offsets.ofText_measures text).byte_lt order inside

/-- The offset of a position parts the bytes of a text. -/
theorem take_byte (path : Text) (inside : first ≤ text.length) :
    (Text.Utf8.encode text).take ((ofText path text).offsets.byte first) =
      Text.Utf8.encode (text.take first) :=
  (Text.Utf8.Offsets.ofText_measures text).take_byte inside

end Source

end Daybook
