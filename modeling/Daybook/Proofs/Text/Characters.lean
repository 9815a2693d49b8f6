import Mathlib.Data.List.TakeWhile
import Daybook.Lexeme
import Daybook.Text.Blank

/-!
# Sorts of characters

The sorts of characters are given by comparisons of characters. Here they are ranges of codes,
so that two sorts can be compared by arithmetic. No blank character is a digit, a basic letter
or a mark of the ledger language.
-/
namespace Daybook

namespace Lexeme

variable {c : Char}

/-- The digits by their codes. Distinctness of characters of different sorts is arithmetic on these
bounds. -/
theorem isDigit_iff : isDigit c = true ↔ 48 ≤ c.toNat ∧ c.toNat ≤ 57 := by
  simp only [isDigit, Bool.and_eq_true, decide_eq_true_eq, Char.le_def, UInt32.le_iff_toNat_le]
  exact Iff.rfl

/-- The capitals by their codes. -/
theorem isCapital_iff : isCapital c = true ↔ 65 ≤ c.toNat ∧ c.toNat ≤ 90 := by
  simp only [isCapital, Bool.and_eq_true, decide_eq_true_eq, Char.le_def, UInt32.le_iff_toNat_le]
  exact Iff.rfl

/-- The small letters by their codes. -/
theorem isSmall_iff : isSmall c = true ↔ 97 ≤ c.toNat ∧ c.toNat ≤ 122 := by
  simp only [isSmall, Bool.and_eq_true, decide_eq_true_eq, Char.le_def, UInt32.le_iff_toNat_le]
  exact Iff.rfl

/-- The characters outside the basic set by their codes. -/
theorem isWide_iff : isWide c = true ↔ 127 < c.toNat := by
  simp [isWide]

/-- A capital is no mark that stands before the capitals. -/
theorem ne_of_isCapital {mark : Char} (capital : isCapital c = true) (low : mark.toNat < 65) :
    c ≠ mark := by
  rintro rfl
  rw [isCapital_iff] at capital
  omega

/-- A capital is no digit. -/
theorem isDigit_of_isCapital (capital : isCapital c = true) : isDigit c = false := by
  rw [isCapital_iff] at capital
  rw [Bool.eq_false_iff, ne_eq, isDigit_iff]
  omega

/-- The flags, one by one. -/
def flags : List Char :=
  ['*', '!', '&', '#', '?', '%', 'P', 'S', 'T', 'C', 'U', 'R', 'M']

/-- The flags are those of the list, so that what holds of a flag can be decided for each of
them. -/
theorem isFlag_iff : isFlag c = true ↔ c ∈ flags := by
  simp [isFlag, flags]

/-- Blank space within a line lies before the visible characters. -/
theorem isSpace_of_visible (visible : 32 < c.toNat) : isSpace c = false := by
  simp only [isSpace, Bool.or_eq_false_iff, beq_eq_false_iff_ne, ne_eq]
  constructor
  · rintro rfl
    revert visible
    decide
  · rintro rfl
    revert visible
    decide

end Lexeme

namespace Text

/-- Blank characters lie before the digits or after the basic set, the space among them. -/
theorem isBlank_iff {c : Char} : isBlank c = true ↔
    (9 ≤ c.toNat ∧ c.toNat ≤ 13) ∨ (28 ≤ c.toNat ∧ c.toNat ≤ 32) ∨ c.toNat = 133 ∨
      c.toNat = 160 ∨ c.toNat = 5760 ∨ (8192 ≤ c.toNat ∧ c.toNat ≤ 8202) ∨ c.toNat = 8232 ∨
      c.toNat = 8233 ∨ c.toNat = 8239 ∨ c.toNat = 8287 ∨ c.toNat = 12288 := by
  simp only [isBlank, Bool.or_eq_true, Bool.and_eq_true, decide_eq_true_eq, beq_iff_eq,
    or_assoc]

/-- A blank character is none of the visible characters of the basic set. -/
theorem isBlank_outside {c : Char} (blank : isBlank c = true) :
    c.toNat ≤ 32 ∨ 126 < c.toNat := by
  have codes := isBlank_iff.mp blank
  omega

/-- No blank is a visible character of the basic set. The codes of the blanks lie below and above
it. -/
theorem ne_of_isBlank {c mark : Char} (blank : isBlank c = true) (low : 32 < mark.toNat)
    (high : mark.toNat ≤ 126) : c ≠ mark := by
  rintro rfl
  have outside := isBlank_outside blank
  omega

/-- Trimming takes nothing but blanks from the end of a text. -/
theorem trimRight_append (text : Text) :
    ∃ blanks, (∀ c ∈ blanks, isBlank c = true) ∧ text = trimRight text ++ blanks := by
  refine ⟨(text.reverse.takeWhile isBlank).reverse, ?_, ?_⟩
  · intro c member
    exact (List.mem_takeWhile_imp (List.mem_reverse.mp member) :)
  · rw [trimRight, ← List.reverse_append, List.takeWhile_append_dropWhile, List.reverse_reverse]

/-- A text is what trimming leaves of it between blanks. -/
theorem trim_between (text : Text) :
    ∃ before behind, (∀ c ∈ before, isBlank c = true) ∧ (∀ c ∈ behind, isBlank c = true) ∧
      text = before ++ (trim text ++ behind) := by
  obtain ⟨behind, blank, parts⟩ := trimRight_append (trimLeft text)
  refine ⟨text.takeWhile isBlank, behind, fun c member => List.mem_takeWhile_imp member, blank, ?_⟩
  rw [trim, ← parts, trimLeft, List.takeWhile_append_dropWhile]

/-- A text without blanks is trimmed. -/
theorem trim_of_solid {text : Text} (solid : ∀ c ∈ text, isBlank c = false) :
    trim text = text := by
  have keeps (text : Text) (solid : ∀ c ∈ text, isBlank c = false) :
      text.dropWhile isBlank = text := by
    cases text with
    | nil => rfl
    | cons c rest => simp [solid c List.mem_cons_self]
  rw [trim, trimLeft, trimRight, keeps text solid, keeps, List.reverse_reverse]
  exact fun c member => solid c (List.mem_reverse.mp member)

end Text

end Daybook
