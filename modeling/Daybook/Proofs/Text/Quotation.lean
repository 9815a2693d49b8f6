import Daybook.Proofs.Lexeme.Lookahead
import Daybook.Text.Quoted

/-!
# Reading a quoted text back

A text is quoted so that it stands on one line and ends at its closing mark, whatever its
characters are. Reading it back yields the text, and the lexeme at the beginning of a quoted
text and something else is the quoted text.
-/
namespace Daybook.Text.Quoted

open Lexeme

/-- The numeric escape of a control character is four digits, which are read as its code. -/
theorem hexadecimal_control : ∀ code : Fin 32, ∃ a b c d,
    hexadecimal 4 code = [a, b, c, d] ∧ unit? a b c d = some code.val ∧
      ∀ mark ∈ [a, b, c, d], mark ≠ '"' ∧ mark ≠ '\\' := by
  have four (code : Fin 32) : hexadecimal 4 code =
      [(hexadecimal 4 code)[0]!, (hexadecimal 4 code)[1]!, (hexadecimal 4 code)[2]!,
        (hexadecimal 4 code)[3]!] := by
    revert code
    decide
  have plain (code : Fin 32) :
      (hexadecimal 4 code).all (fun mark => mark != '"' && mark != '\\') = true := by
    revert code
    decide
  intro code
  refine ⟨_, _, _, _, four code, ?_, ?_⟩
  · revert code
    decide
  · intro mark member
    rw [← four code] at member
    simpa using List.all_eq_true.mp (plain code) mark member

/-- The ways in which a character is written: as itself, after a reverse solidus, or by its code.
Each way comes with what reading needs to undo it, so that no later proof has to go through the
eight branches of the writer again. -/
theorem encodeChar_cases (c : Char) :
    (∃ letter, encodeChar c = ['\\', letter] ∧ escaped? letter = some c ∧ letter ≠ 'u' ) ∨
    (∃ a b x d, encodeChar c = ['\\', 'u', a, b, x, d] ∧ unit? a b x d = some c.toNat ∧
      ∀ mark ∈ [a, b, x, d], mark ≠ '"' ∧ mark ≠ '\\') ∨
    (encodeChar c = [c] ∧ c ≠ '"' ∧ c ≠ '\\' ∧ ¬ c.toNat < 0x20) := by
  unfold encodeChar
  split
  · next same => exact Or.inl ⟨'"', rfl, by rw [same]; rfl, by decide⟩
  split
  · next same => exact Or.inl ⟨'\\', rfl, by rw [same]; rfl, by decide⟩
  split
  · next same => exact Or.inl ⟨'n', rfl, by rw [same]; rfl, by decide⟩
  split
  · next same => exact Or.inl ⟨'r', rfl, by rw [same]; rfl, by decide⟩
  split
  · next same => exact Or.inl ⟨'t', rfl, by rw [same]; rfl, by decide⟩
  split
  · next same => exact Or.inl ⟨'b', rfl, by rw [same]; rfl, by decide⟩
  split
  · next same => exact Or.inl ⟨'f', rfl, by rw [same]; rfl, by decide⟩
  split
  · next control =>
    obtain ⟨a, b, x, d, digits, unit, plain⟩ := hexadecimal_control ⟨c.toNat, control⟩
    refine Or.inr (Or.inl ⟨a, b, x, d, ?_, unit, plain⟩)
    simp only [digits]
    rfl
  · next quote solidus _ _ _ _ _ control => exact Or.inr (Or.inr ⟨rfl, quote, solidus, control⟩)

/-- A character that is no control character is quoted as it is unless it has a meaning there. -/
theorem encodeChar_of_high {c : Char} (high : ¬ c.toNat < 32) (special : ¬ (c = '"' ∨ c = '\\')) :
    encodeChar c = [c] := by
  obtain ⟨quote, slash⟩ := not_or.mp special
  have above {d : Char} (control : d.toNat < 32) : c ≠ d := by
    rintro rfl
    exact high control
  simp [encodeChar, quote, slash, high, above (by decide : '\n'.toNat < 32),
    above (by decide : '\r'.toNat < 32), above (by decide : '\t'.toNat < 32),
    above (by decide : '\x08'.toNat < 32), above (by decide : '\x0c'.toNat < 32)]

/-- What holds for the marks of control characters, for the two escaped marks and for a character
itself holds for all that the character is written with. -/
theorem forall_mem_encodeChar {P : Char → Prop} {c : Char}
    (control : ∀ code : Fin 32, ∀ mark ∈ encodeChar (Char.ofNat code), P mark)
    (quote : P '"') (solidus : P '\\') (other : ¬ c.toNat < 32 → P c) :
    ∀ mark ∈ encodeChar c, P mark := by
  intro mark member
  by_cases low : c.toNat < 32
  · refine control ⟨c.toNat, low⟩ mark ?_
    rwa [Char.ofNat_toNat]
  · by_cases special : c = '"' ∨ c = '\\'
    · have escaped : mark ∈ ['\\', '"'] ∨ mark ∈ ['\\', '\\'] := by
        rcases special with rfl | rfl
        · exact Or.inl member
        · exact Or.inr member
      simp only [List.mem_cons, List.not_mem_nil, or_false, or_self] at escaped
      rcases escaped with (rfl | rfl) | rfl
      · exact solidus
      · exact quote
      · exact solidus
    · rw [encodeChar_of_high low special, List.mem_singleton] at member
      exact member ▸ other low

/-- A written character is read as its code. -/
theorem units?_encodeChar (c : Char) (rest : Text) :
    units? (encodeChar c ++ rest) =
      (units? rest).map fun (units, after) => (c.toNat :: units, after) := by
  rcases encodeChar_cases c with ⟨letter, spelled, stands, other⟩ |
    ⟨a, b, x, d, spelled, unit, _⟩ | ⟨spelled, quote, solidus, control⟩
  · rw [spelled]
    simp only [List.cons_append, List.nil_append]
    rw [units?.eq_4 _ _ (by intro a b c d others same; exact absurd same other), stands]
    cases units? rest <;> rfl
  · rw [spelled]
    simp only [List.cons_append, List.nil_append]
    rw [units?, unit]
    cases units? rest <;> rfl
  · rw [spelled]
    simp only [List.cons_append, List.nil_append]
    rw [units?.eq_5 _ _ quote (by simp [solidus]) (by simp [solidus])]
    simp only [solidus, control, or_self, if_false]
    cases units? rest <;> rfl

/-- A text that is quoted is read back. -/
theorem units?_encode (text rest : Text) :
    units? (text.flatMap encodeChar ++ '"' :: rest) = some (text.map Char.toNat, rest) := by
  induction text with
  | nil => simp [units?]
  | cons c text ih =>
    rw [List.flatMap_cons, List.append_assoc, units?_encodeChar, ih]
    rfl

/-- A character is the single character of its code. -/
theorem single_toNat (c : Char) : single c.toNat = .char c := by
  have valid : c.toNat.isValidChar := c.valid
  rw [single, if_pos valid, Char.ofNat_toNat]

/-- The codes of characters are no halves of pairs. -/
theorem joinHalves_toNat (text : Text) :
    joinHalves (text.map Char.toNat) = Phrase.ofText text := by
  induction text with
  | nil => rfl
  | cons c text ih =>
    cases text with
    | nil => simp [joinHalves, single_toNat, Phrase.ofText]
    | cons next text =>
      have valid : c.toNat < 0xD800 ∨ 0xDFFF < c.toNat := by
        rcases c.valid with low | ⟨high, _⟩
        · exact Or.inl low
        · exact Or.inr high
      have whole : ¬ (0xD800 ≤ c.toNat ∧ c.toNat < 0xDC00 ∧ 0xDC00 ≤ next.toNat ∧
          next.toNat < 0xE000) := by omega
      rw [List.map_cons] at ih
      rw [List.map_cons, List.map_cons, joinHalves, if_neg whole, ih, single_toNat]
      rfl

/-- A quotation that has been opened is the text that is quoted. -/
theorem opened?_encode (text rest : Text) :
    opened? (text.flatMap encodeChar ++ '"' :: rest) = some (Phrase.ofText text, rest) := by
  rw [opened?, units?_encode]
  simp [joinHalves_toNat]

/-- A quoted text stands for the text that is quoted. -/
theorem decode_encode (text : Text) : decode (encode text) = Phrase.ofText text := by
  have quoted : decode? (encode text) = some (Phrase.ofText text) := by
    rw [decode?, encode]
    have start : surrounds '"' = false := by decide
    simp only [List.cons_append, List.dropWhile_cons, start, Bool.false_eq_true, if_false,
      opened?_encode, List.all_nil, if_true]
  rw [decode, quoted]
  rfl

/-- The phrase of a text is quoted like the text. -/
theorem encodePhrase_ofText (text : Text) :
    encodePhrase (Phrase.ofText text) = Phrase.ofText (encode text) := by
  simp [encodePhrase, encode, Phrase.ofText, List.flatMap_map, List.map_flatMap]

/-- Quoting neither mends nor breaks a phrase: it is a text before exactly if it is one after. -/
theorem isText_encodePhrase {phrase : Phrase} : (encodePhrase phrase).IsText ↔ phrase.IsText := by
  constructor
  · intro whole point member
    cases point with
    | char c => rfl
    | half number =>
      refine whole (.half number) (List.mem_append_left _ (List.mem_cons_of_mem _ ?_))
      exact List.mem_flatMap.mpr ⟨_, member, List.mem_singleton.mpr rfl⟩
  · intro whole
    obtain ⟨text, rfl⟩ := Phrase.isText_iff.mp whole
    rw [encodePhrase_ofText]
    exact Phrase.isText_ofText _

/-- A written character does not close a quoted text. An escaped character is passed over together
with its reverse solidus, and neither a code nor a character that stands for itself has a quotation
mark in it. -/
theorem closingMark_encodeChar (c : Char) (rest : Text) :
    closingMark false (encodeChar c ++ rest) =
      (closingMark false rest).map ((encodeChar c).length + ·) := by
  rcases encodeChar_cases c with ⟨letter, spelled, _, _⟩ | ⟨a, b, x, d, spelled, _, plain⟩ |
    ⟨spelled, quote, solidus, _⟩
  · have after : closingMark true (letter :: rest) = (closingMark false rest).map (1 + ·) := by
      by_cases quote : letter = '"'
      · simp [closingMark, quote]
      · by_cases solidus : letter = '\\'
        · simp [closingMark, solidus]
        · simp [closingMark, quote, solidus]
    have solidus : closingMark false ('\\' :: letter :: rest) =
        (closingMark true (letter :: rest)).map (1 + ·) := by simp [closingMark]
    rw [spelled, List.cons_append, List.cons_append, List.nil_append, solidus, after]
    cases closingMark false rest with
    | none => rfl
    | some length =>
      simp only [Option.map_some, List.length_cons, List.length_nil, Option.some.injEq]
      omega
  · simp only [List.mem_cons, List.not_mem_nil, or_false, forall_eq_or_imp, forall_eq] at plain
    obtain ⟨⟨a1, a2⟩, ⟨b1, b2⟩, ⟨x1, x2⟩, d1, d2⟩ := plain
    rw [spelled]
    cases further : closingMark false rest with
    | none => simp [closingMark, a1, a2, b1, b2, x1, x2, d1, d2, further]
    | some length =>
      simp [closingMark, a1, a2, b1, b2, x1, x2, d1, d2, further]
      omega
  · rw [spelled]
    simp [closingMark, quote, solidus]

/-- The lexeme at the beginning of a quoted text is the quoted text. -/
theorem quotedLength_encode (text rest : Text) :
    quotedLength (encode text ++ rest) = some (encode text).length := by
  have closing : closingMark false (text.flatMap encodeChar ++ '"' :: rest) =
      some ((text.flatMap encodeChar).length + 1) := by
    induction text with
    | nil => simp [closingMark]
    | cons c text ih =>
      rw [List.flatMap_cons, List.append_assoc, closingMark_encodeChar, ih, Option.map_some,
        List.length_append, Nat.add_assoc]
  simp only [encode, List.cons_append, List.append_assoc, List.nil_append, quotedLength, closing,
    Option.map_some, List.length_cons, List.length_append, List.length_nil, Option.some.injEq]
  omega

end Daybook.Text.Quoted
