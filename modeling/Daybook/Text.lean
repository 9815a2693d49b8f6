/-!
# Texts and byte strings

A text is the list of its characters and a byte string the list of its bytes.
Everything the library reads or writes is one of the two, so that a position is
the number of elements before it, and a cut is a `take` and a `drop`.

This module holds the two names and the few operations that know nothing about
characters: cutting at a mark, stretches of characters of one sort, and the order of texts.

Half a pair of code units is no character. One can come up where a quotation is read, and
`Daybook.Text.Phrase` keeps it; in no other place is a text asked to hold one.
-/
namespace Daybook

/-- A text is the list of its characters in reading order. -/
abbrev Text := List Char

/-- A byte string is the list of its bytes. -/
abbrev Bytes := List UInt8

/-- Texts that compare as equal are equal. -/
instance : LawfulBEq Text := inferInstance

/-- A literal may stand wherever a text is expected. -/
scoped instance literalText : Coe String (List Char) := ⟨String.toList⟩

namespace Text

/-- The part before the first `mark` and the part after it, or nothing when the
text has no such mark. -/
def cutAt (mark : Char) : Text → Option (Text × Text)
  | [] => none
  | c :: rest =>
    if c = mark then some ([], rest)
    else (cutAt mark rest).map fun (before, after) => (c :: before, after)

/-- The number of characters at the beginning of a text that satisfy `sort`. -/
def stretch (sort : Char → Bool) (text : Text) : Nat :=
  (text.takeWhile sort).length

/-- The characters from position `start` up to position `stop`. -/
def slice (text : Text) (start stop : Nat) : Text :=
  (text.drop start).take (stop - start)

/-- The order of texts: by the first character in which they differ, and a text before the
texts that it begins. -/
def atMost : Text → Text → Bool
  | [], _ => true
  | _ :: _, [] => false
  | a :: left, b :: right => a.toNat < b.toNat || (a == b && atMost left right)

/-- The text with `pad` in front of it until it has `width` characters. -/
def padLeft (pad : Char) (width : Nat) (text : Text) : Text :=
  List.replicate (width - text.length) pad ++ text

/-- A cut loses nothing but the mark itself. -/
theorem eq_of_cutAt {mark : Char} {text before after : Text}
    (cut : cutAt mark text = some (before, after)) : text = before ++ mark :: after := by
  induction text generalizing before with
  | nil => simp [cutAt] at cut
  | cons c rest ih =>
    by_cases same : c = mark
    · simp [cutAt, same] at cut
      simp [← cut.1, ← cut.2, same]
    · simp [cutAt, same] at cut
      obtain ⟨inner, found, rfl⟩ := cut
      simp [ih found]

/-- The part before a cut is free of the mark, so the cut is the first one. -/
theorem not_mem_of_cutAt {mark : Char} {text before after : Text}
    (cut : cutAt mark text = some (before, after)) : mark ∉ before := by
  induction text generalizing before with
  | nil => simp [cutAt] at cut
  | cons c rest ih =>
    by_cases same : c = mark
    · simp [cutAt, same] at cut
      exact cut.1 ▸ List.not_mem_nil
    · simp [cutAt, same] at cut
      obtain ⟨inner, found, rfl⟩ := cut
      simp only [List.mem_cons, not_or]
      exact ⟨fun equal => same equal.symm, ih found⟩

end Text

end Daybook
