import Daybook.Proofs.Lexeme.Words
import Daybook.Value.Written

/-!
# Quotations as their pattern has them

The pattern of a quotation is a mark, anything whatever, an even number of reverse solidi that no
further one precedes, and a mark; the shortest stretch of that form is taken. Reading goes through
the text once instead, and only keeps in mind whether an odd number of reverse solidi is directly
behind it. Both are the same: the number is even at a mark exactly if the pattern may end there, and
the first such mark is where reading stops.

A text that is quoted is such a quotation as a whole. No mark within it ends one, so that it is
taken as it is whatever follows, and the two ways of reading quotations give the text back.
-/
namespace Daybook

namespace Lexeme

/-! ## The pattern -/

/-- A mark, anything that does not end with a reverse solidus, an even number of them, and a
mark. -/
def IsQuotation (text : Text) : Prop :=
  ∃ front pairs, text = '"' :: (front ++ List.replicate (2 * pairs) '\\' ++ ['"']) ∧
    front.getLast? ≠ some '\\'

/-- Whether an odd number of reverse solidi is directly behind one character more. -/
def oddAfter (odd : Bool) (c : Char) : Bool :=
  c = '\\' && !odd

/-- A text ends with a mark that closes a quotation, when an odd number of reverse solidi stands
before the text or an even one. -/
def Closes (odd : Bool) (text : Text) : Prop :=
  ∃ inner, text = inner ++ ['"'] ∧ inner.foldl oddAfter odd = false

/-- At the end of the text nothing closes: a quotation that has not met its closing mark by then is
none. -/
theorem not_closes_nil (odd : Bool) : ¬ Closes odd [] := by
  rintro ⟨inner, empty, _⟩
  exact absurd empty.symm (List.append_ne_nil_of_right_ne_nil _ (List.cons_ne_nil _ _))

/-- The first character is the mark that closes, or belongs to what stands before the mark. -/
theorem closes_cons {odd : Bool} {c : Char} {text : Text} :
    Closes odd (c :: text) ↔
      (c = '"' ∧ text = [] ∧ odd = false) ∨ Closes (oddAfter odd c) text := by
  constructor
  · rintro ⟨inner, whole, even⟩
    cases inner with
    | nil =>
      obtain ⟨mark, rest⟩ := List.cons_eq_cons.mp whole
      exact Or.inl ⟨mark, rest, even⟩
    | cons first inner =>
      obtain ⟨rfl, rest⟩ := List.cons_eq_cons.mp whole
      exact Or.inr ⟨inner, rest, even⟩
  · rintro (⟨rfl, rfl, rfl⟩ | ⟨inner, rfl, even⟩)
    · exact ⟨[], rfl, rfl⟩
    · exact ⟨c :: inner, rfl, even⟩

/-- A character that is no closing mark belongs to what stands before the mark. -/
theorem closes_cons_of_inner {odd : Bool} {c : Char} (inner : ¬ (c = '"' ∧ odd = false))
    (text : Text) : Closes odd (c :: text) ↔ Closes (oddAfter odd c) text := by
  rw [closes_cons]
  exact or_iff_right fun ends => inner ⟨ends.1, ends.2.2⟩

/-- Reading stops at a mark with an even number of reverse solidi behind it, and goes on
otherwise. -/
theorem closingMark_cons (odd : Bool) (c : Char) (text : Text) : closingMark odd (c :: text) =
    if c = '"' ∧ odd = false then some 1
    else (closingMark (oddAfter odd c) text).map (1 + ·) := by
  cases odd <;> by_cases mark : c = '"' <;> by_cases solidus : c = '\\' <;>
    simp [closingMark, oddAfter, mark, solidus]

/-- The least number of which something holds, counted from one instead of zero. -/
theorem least_succ_iff {p q : Nat → Prop} (start : ¬ p 0) (moved : ∀ n, p (n + 1) ↔ q n)
    (n : Nat) : (p (n + 1) ∧ ∀ less < n + 1, ¬ p less) ↔ q n ∧ ∀ less < n, ¬ q less := by
  rw [moved, Nat.forall_lt_succ_left]
  simp only [moved, start, not_false_eq_true, true_and]

/-- The first character counts as one. -/
theorem map_one_add_eq_some_iff {found : Option Nat} {length : Nat} :
    found.map (1 + ·) = some (length + 1) ↔ found = some length := by
  rw [Option.map_eq_some_iff]
  constructor
  · rintro ⟨count, rfl, size⟩
    rw [show count = length by omega]
  · rintro rfl
    exact ⟨length, rfl, Nat.add_comm _ _⟩

/-- Reading stops at the first mark that closes. By induction on the text, for both states of the
reverse solidi at once: a character takes part in a closing either as the mark itself or by the
state in which it leaves what follows. -/
theorem closingMark_eq_some_iff (odd : Bool) (text : Text) (length : Nat) :
    closingMark odd text = some length ↔ Closes odd (text.take length) ∧
      ∀ shorter < length, ¬ Closes odd (text.take shorter) := by
  induction text generalizing odd length with
  | nil =>
    rw [List.take_nil]
    exact iff_of_false (by simp [closingMark]) fun both => not_closes_nil odd both.1
  | cons c text ih =>
    rw [closingMark_cons]
    cases length with
    | zero =>
      refine iff_of_false ?_ fun both => not_closes_nil odd both.1
      split
      · simp
      · cases closingMark (oddAfter odd c) text <;> simp
    | succ length =>
      by_cases ends : c = '"' ∧ odd = false
      · -- Nothing shorter than one character closes, and nothing longer is the shortest.
        rw [if_pos ends]
        constructor
        · intro same
          obtain rfl : length = 0 := by simpa using same.symm
          refine ⟨closes_cons.mpr (Or.inl ⟨ends.1, rfl, ends.2⟩), fun shorter below => ?_⟩
          obtain rfl : shorter = 0 := by omega
          exact not_closes_nil odd
        · rintro ⟨_, first⟩
          by_contra other
          have early : 1 < length + 1 := by
            simp only [Option.some.injEq] at other
            omega
          exact first 1 early (closes_cons.mpr (Or.inl ⟨ends.1, rfl, ends.2⟩))
      · rw [if_neg ends, map_one_add_eq_some_iff, ih]
        have moved (count : Nat) : Closes odd ((c :: text).take (count + 1)) ↔
            Closes (oddAfter odd c) (text.take count) := by
          rw [List.take_succ_cons]
          exact closes_cons_of_inner ends _
        exact (least_succ_iff (p := fun count => Closes odd ((c :: text).take count))
          (not_closes_nil odd) moved length).symm

/-- The reverse solidi at the end of a text can be told apart from what stands before them. -/
theorem exists_solidi (text : Text) : ∃ front count,
    text = front ++ List.replicate count '\\' ∧ front.getLast? ≠ some '\\' := by
  induction text using List.reverseRecOn with
  | nil => exact ⟨[], 0, rfl, by simp⟩
  | append_singleton text last ih =>
    by_cases solidus : last = '\\'
    · obtain ⟨front, count, rfl, other⟩ := ih
      refine ⟨front, count + 1, ?_, other⟩
      rw [solidus, List.replicate_succ', List.append_assoc]
    · refine ⟨text ++ [last], 0, by simp, ?_⟩
      rw [List.getLast?_concat]
      exact fun same => solidus (Option.some.inj same)

/-- What is kept in mind is whether the number of reverse solidi at the end is odd. -/
theorem foldl_oddAfter {front : Text} (other : front.getLast? ≠ some '\\') (count : Nat) :
    (front ++ List.replicate count '\\').foldl oddAfter false = decide (count % 2 = 1) := by
  induction count with
  | zero =>
    rw [List.replicate_zero, List.append_nil]
    cases front using List.reverseRecOn with
    | nil => rfl
    | append_singleton front last =>
      rw [List.getLast?_concat] at other
      have plain : last ≠ '\\' := fun same => other (congrArg some same)
      rw [List.foldl_concat]
      simp [oddAfter, plain]
  | succ count ih =>
    rw [List.replicate_succ', ← List.append_assoc, List.foldl_concat, ih]
    rcases Nat.mod_two_eq_zero_or_one count with even | odd
    · simp [oddAfter, even, Nat.add_mod]
    · simp [oddAfter, odd, Nat.add_mod]

/-- A quotation is a mark and what closes it. -/
theorem isQuotation_iff {text : Text} :
    IsQuotation text ↔ ∃ part, text = '"' :: part ∧ Closes false part := by
  constructor
  · rintro ⟨front, pairs, rfl, other⟩
    refine ⟨_, rfl, _, rfl, ?_⟩
    rw [foldl_oddAfter other, Nat.mul_mod_right]
    rfl
  · rintro ⟨part, rfl, inner, rfl, even⟩
    obtain ⟨front, count, rfl, other⟩ := exists_solidi inner
    rw [foldl_oddAfter other, decide_eq_false_iff_not] at even
    refine ⟨front, count / 2, ?_, other⟩
    rw [show 2 * (count / 2) = count by omega]

/-- The quoted text at the beginning of a text is the shortest quotation there. So the lexer does
what the definition of a quotation says, without the definition having to mention how quotations are
found. -/
theorem quotedLength_eq_some_iff (text : Text) (length : Nat) :
    quotedLength text = some length ↔ IsQuotation (text.take length) ∧
      ∀ shorter < length, ¬ IsQuotation (text.take shorter) := by
  have nothing : ¬ IsQuotation [] := by
    rintro ⟨_, _, empty, _⟩
    cases empty
  cases text with
  | nil =>
    rw [List.take_nil]
    exact iff_of_false (by simp [quotedLength]) fun both => nothing both.1
  | cons c text =>
    cases length with
    | zero =>
      refine iff_of_false ?_ fun both => nothing both.1
      unfold quotedLength
      split
      · simp
      · simp
    | succ length =>
      by_cases mark : c = '"'
      · subst mark
        rw [quotedLength, map_one_add_eq_some_iff, closingMark_eq_some_iff]
        have moved (count : Nat) : IsQuotation (('"' :: text).take (count + 1)) ↔
            Closes false (text.take count) := by
          rw [List.take_succ_cons, isQuotation_iff]
          constructor
          · rintro ⟨part, same, closes⟩
            rwa [(List.cons_eq_cons.mp same).2]
          · intro closes
            exact ⟨_, rfl, closes⟩
        exact (least_succ_iff (p := fun count => IsQuotation (('"' :: text).take count)) nothing
          moved length).symm
      · refine iff_of_false (by simp [quotedLength, mark]) fun both => ?_
        obtain ⟨_, _, same, _⟩ := both.1
        rw [List.take_succ_cons] at same
        exact mark (List.cons_eq_cons.mp same).1

end Lexeme

/-! ## Texts that are quoted -/

namespace Text.Quoted

/-- No control character is left in a quoted text. -/
theorem visible_encode (text : Text) : ∀ c ∈ encode text, 0x20 ≤ c.toNat := by
  have control : ∀ code : Fin 32, (encodeChar (Char.ofNat code)).all
      fun mark => 0x20 ≤ mark.toNat := by decide
  intro c member
  rw [encode, List.mem_append, List.mem_cons, List.mem_flatMap, List.mem_singleton] at member
  rcases member with (rfl | ⟨d, _, written⟩) | rfl
  · decide
  · refine forall_mem_encodeChar (P := fun mark => 0x20 ≤ mark.toNat) ?_ ?_ ?_ ?_ c written
    · intro code mark inside
      exact of_decide_eq_true (List.all_eq_true.mp (control code) mark inside)
    · decide
    · decide
    · exact Nat.not_lt.mp
  · decide

/-- As a written value, a quoted text is the text. -/
theorem ofQuotation_encode (text : Text) : Value.ofQuotation (encode text) = .ok (.text text) := by
  have written : Value.ofWritten (encode text) = .ok (.text text) := by
    have skipped : Value.skip (encode text) = '"' :: (text.flatMap encodeChar ++ ['"']) := rfl
    rw [Value.ofWritten, skipped, Value.leading, opened?_encode]
    simp only [Option.map_some, Phrase.shown_ofText]
    rfl
  rw [Value.ofQuotation, written]

/-- A text that is quoted has no control characters, and it is a quotation as a whole, in which no
mark ends an earlier one. So it is read as one lexeme wherever a quoted text is asked for, whatever
follows it, and both ways of reading give back the text. Quoting escapes whatever would end the
quotation or leave the line, and it escapes one character at a time, so that every statement is an
induction on the text. -/
theorem encode_enclosed (text : Text) :
    (∀ c ∈ encode text, 0x20 ≤ c.toNat) ∧
    Lexeme.IsQuotation (encode text) ∧
    (∀ rest, Terminal.quotedText.length? (encode text ++ rest) = some (encode text).length ∧
      ∀ shorter < (encode text).length,
        ¬ Lexeme.IsQuotation ((encode text ++ rest).take shorter)) ∧
    (∀ expected position rest, .quotedText ∈ Expected.terminals expected →
      Lexeme.Begins expected position (encode text ++ rest)
        ⟨.quotedText, position, encode text⟩ rest) ∧
    decode (encode text) = text ∧
    Value.ofQuotation (encode text) = .ok (.text text) := by
  have shortest (rest : Text) :=
    (Lexeme.quotedLength_eq_some_iff _ _).mp (quotedLength_encode text rest)
  refine ⟨visible_encode text, ?_, fun rest => ⟨quotedLength_encode text rest, (shortest rest).2⟩,
    fun expected position rest asked => Lexeme.begins_quoted asked text position rest,
    decode_encode text, ofQuotation_encode text⟩
  have whole := (shortest []).1
  rwa [List.append_nil, List.take_length] at whole

/-- A text of marks and reverse solidi is found where an inclusion asks for a name. -/
theorem marks_enclosed :
    Terminal.quotedText ∈ Expected.textOnly.terminals ∧
      Lexeme.Begins .textOnly 8 (encode ['"', '\\', '\\', '"', '\\'] ++ ['\n'])
        ⟨.quotedText, 8, encode ['"', '\\', '\\', '"', '\\']⟩ ['\n'] := by
  have asked : Terminal.quotedText ∈ Expected.textOnly.terminals := by decide
  exact ⟨asked, (encode_enclosed _).2.2.2.1 .textOnly 8 ['\n'] asked⟩

end Text.Quoted

end Daybook
