import Daybook.Text

/-!
# Searching in texts

Where one text occurs in another one, and what becomes of a text when it is cut at the
occurrences or gets something else in their place. Occurrences do not overlap: after each one
the search goes on behind it. The empty text occurs before every character and at the end.
-/
namespace Daybook.Text

/-- The part of a text before the first occurrence of another one, and the part after it. -/
def cutAtText (wanted : Text) : Text → Option (Text × Text)
  | [] => if wanted = [] then some ([], []) else none
  | c :: rest =>
    if wanted.isPrefixOf (c :: rest) then some ([], (c :: rest).drop wanted.length)
    else (cutAtText wanted rest).map fun (before, after) => (c :: before, after)

/-- The parts of a text between the first `limit` occurrences of a text that is not empty. -/
def splitAtText (wanted : Text) : Nat → Text → List Text
  | 0, text => [text]
  | limit + 1, text =>
    match cutAtText wanted text with
    | some (before, after) => before :: splitAtText wanted limit after
    | none => [text]

/-- A text with something in front of each of its first `limit` characters and, if the limit
is not reached, at its end. -/
def interleave (something : Text) : Nat → Text → Text
  | 0, text => text
  | _ + 1, [] => something
  | limit + 1, c :: rest => something ++ c :: interleave something limit rest

/-- A text with another one in place of the first `limit` occurrences of a text. -/
def replaceText (wanted other : Text) (limit : Nat) (text : Text) : Text :=
  if wanted = [] then interleave other limit text
  else List.intercalate other (splitAtText wanted limit text)

/-- The number of occurrences of a text. -/
def occurrences (wanted text : Text) : Nat :=
  if wanted = [] then text.length + 1
  else (splitAtText wanted text.length text).length - 1

/-- A cut loses nothing but the text it is made at. -/
theorem eq_of_cutAtText {wanted text before after : Text}
    (cut : cutAtText wanted text = some (before, after)) : text = before ++ wanted ++ after := by
  induction text generalizing before with
  | nil =>
    by_cases none : wanted = []
    · simp [cutAtText, none] at cut
      simp [none, cut.1, cut.2]
    · simp [cutAtText, none] at cut
  | cons c rest ih =>
    by_cases begins : wanted.isPrefixOf (c :: rest) = true
    · simp only [cutAtText, begins, if_true, Option.some.injEq, Prod.mk.injEq] at cut
      obtain ⟨rest', same⟩ := List.isPrefixOf_iff_prefix.1 begins
      rw [← cut.1, ← cut.2, ← same]
      simp
    · simp only [cutAtText, begins] at cut
      obtain ⟨⟨inner, tail⟩, found, same⟩ := Option.map_eq_some_iff.1 cut
      simp only [Prod.mk.injEq] at same
      obtain ⟨rfl, rfl⟩ := same
      simp [ih found]

/-- A text is not split into nothing. -/
theorem splitAtText_ne_nil (wanted : Text) (limit : Nat) (text : Text) :
    splitAtText wanted limit text ≠ [] := by
  cases limit with
  | zero => exact List.cons_ne_nil text []
  | succ limit =>
    unfold splitAtText
    split
    · exact List.cons_ne_nil _ _
    · exact List.cons_ne_nil text []

/-- The parts of a text with what it was split at between them are the text. -/
theorem intercalate_splitAtText (wanted : Text) (limit : Nat) (text : Text) :
    List.intercalate wanted (splitAtText wanted limit text) = text := by
  induction limit generalizing text with
  | zero => simp [splitAtText, List.intercalate]
  | succ limit ih =>
    unfold splitAtText
    split
    case h_1 before after cut =>
      have others := splitAtText_ne_nil wanted limit after
      have joined := ih after
      revert others joined
      cases splitAtText wanted limit after with
      | nil => intro others; exact absurd rfl others
      | cons first rest =>
        intro _ joined
        simp only [List.intercalate, List.intersperse_cons_cons, List.flatten_cons] at joined ⊢
        rw [eq_of_cutAtText cut, ← joined]
        simp
    case h_2 => simp [List.intercalate]

end Daybook.Text
