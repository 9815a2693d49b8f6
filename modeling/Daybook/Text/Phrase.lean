import Daybook.Text.Numeral

/-!
# Phrases

A phrase is what a quotation stands for. Nearly every phrase is a text. But a numeric escape may
write one half of a pair of code units, and where the other half is missing, the half is no
character: a phrase that holds it can be kept, compared and listed, but it has no bytes. Whoever
needs the bytes, to write a file, to ask for a path or to show something, asks for the text of the
phrase and is refused.
-/
namespace Daybook

/-- A member of a phrase: a character, or half a pair that stands alone. The halves are numbered
from U+D800 on. -/
inductive Point where
  | char (c : Char)
  | half (number : Fin 0x800)
  deriving DecidableEq, Repr

/-- A phrase is the list of its members in reading order. -/
abbrev Phrase := List Point

/-- Phrases that compare as equal are equal. -/
instance : LawfulBEq Phrase := inferInstance

namespace Point

/-- The number of a half, if a member is one. -/
def half? : Point → Option (Fin 0x800)
  | char _ => none
  | half number => some number

/-- The character that stands in the place of a member where it is shown and nothing depends on
it: the replacement character for half a pair. -/
def shown : Point → Char
  | char c => c
  | half _ => '\uFFFD'

end Point

namespace Phrase

/-- The phrase that is a text. -/
def ofText (text : Text) : Phrase :=
  text.map .char

/-- A phrase as it is shown. -/
def shown (phrase : Phrase) : Text :=
  phrase.map Point.shown

/-- The phrase is a text: no half of a pair stands alone in it. -/
def IsText (phrase : Phrase) : Prop :=
  ∀ point ∈ phrase, point.half? = none

instance (phrase : Phrase) : Decidable phrase.IsText :=
  inferInstanceAs (Decidable (∀ point ∈ phrase, point.half? = none))

/-- Why a phrase is no text: the first halves that stand alone, next to each other, and the
position of the first of them. -/
structure Unpaired where
  position : Nat
  halves : List (Fin 0x800)
  deriving DecidableEq, Repr

/-- The first halves that stand alone. -/
def unpaired (phrase : Phrase) : Unpaired :=
  { position := (phrase.takeWhile fun point => point.half?.isNone).length
    halves := ((phrase.dropWhile fun point => point.half?.isNone).takeWhile fun point =>
      point.half?.isSome).filterMap Point.half? }

/-- The text that a phrase is. -/
def toText (phrase : Phrase) : Except Unpaired Text :=
  if phrase.IsText then .ok phrase.shown else .error phrase.unpaired

/-- What stands alone, in words. -/
def Unpaired.message (unpaired : Unpaired) : Text :=
  let place := match unpaired.halves with
    | [half] => "character '\\u" ++ Text.hexadecimal 4 (0xD800 + half.val) ++ "' in position " ++
        Text.decimal unpaired.position
    | halves => "characters in position " ++ Text.decimal unpaired.position ++ "-" ++
        Text.decimal (unpaired.position + halves.length - 1)
  "'utf-8' codec can't encode " ++ place ++ ": surrogates not allowed"

/-- What is shown of a text is the text. -/
@[simp] theorem shown_ofText (text : Text) : shown (ofText text) = text := by
  simp [shown, ofText, Function.comp_def, Point.shown]

/-- A text stands in a phrase as it is. -/
@[simp] theorem isText_ofText (text : Text) : IsText (ofText text) := by
  simp [IsText, ofText, Point.half?]

/-- A phrase that is a text is the phrase of what is shown of it. -/
theorem IsText.ofText_shown {phrase : Phrase} (whole : phrase.IsText) :
    ofText phrase.shown = phrase := by
  rw [ofText, shown, List.map_map]
  refine (List.map_congr_left fun point member => ?_).trans (List.map_id phrase)
  cases point with
  | char c => rfl
  | half number => cases whole _ member

/-- The phrases that are texts are the phrases of texts. -/
theorem isText_iff {phrase : Phrase} : phrase.IsText ↔ ∃ text, phrase = ofText text := by
  constructor
  · exact fun whole => ⟨phrase.shown, whole.ofText_shown.symm⟩
  · rintro ⟨text, rfl⟩
    exact isText_ofText text

/-- Texts one after the other are phrases one after the other. -/
@[simp] theorem ofText_append (first second : Text) :
    ofText (first ++ second) = ofText first ++ ofText second :=
  List.map_append

/-- Phrases one after the other are a text if both of them are. -/
@[simp] theorem isText_append {first second : Phrase} :
    IsText (first ++ second) ↔ first.IsText ∧ second.IsText :=
  List.forall_mem_append

/-- Texts that are joined are joined as phrases. -/
theorem intercalate_ofText (separator : Text) (items : List Text) :
    List.intercalate (ofText separator) (items.map ofText) =
      ofText (List.intercalate separator items) := by
  induction items with
  | nil => rfl
  | cons first others ih =>
    cases others with
    | nil => simp
    | cons second others =>
      rw [List.map_cons, List.map_cons, List.intercalate_cons_cons, List.intercalate_cons_cons,
        ← List.map_cons, ih, ofText_append, ofText_append]

/-- Every item of a joined phrase that is a text is a text itself. -/
theorem IsText.of_intercalate {separator : Phrase} {items : List Phrase}
    (whole : IsText (List.intercalate separator items)) : ∀ item ∈ items, item.IsText := by
  induction items with
  | nil => simp
  | cons first others ih =>
    cases others with
    | nil => simpa using whole
    | cons second others =>
      rw [List.intercalate_cons_cons, isText_append, isText_append] at whole
      exact List.forall_mem_cons.mpr ⟨whole.1.1, ih whole.2⟩

/-- Different texts are different phrases. -/
@[simp] theorem ofText_inj {left right : Text} : ofText left = ofText right ↔ left = right := by
  refine ⟨fun same => ?_, congrArg ofText⟩
  simpa using congrArg shown same

/-- A phrase has a text exactly if it is the phrase of that text. -/
theorem toText_eq_ok_iff {phrase : Phrase} {text : Text} :
    phrase.toText = .ok text ↔ phrase = ofText text := by
  unfold toText
  split
  · next whole =>
    rw [Except.ok.injEq]
    exact ⟨fun same => same ▸ whole.ofText_shown.symm, fun same => by rw [same, shown_ofText]⟩
  · next broken =>
    constructor
    · intro refused
      cases refused
    · rintro rfl
      exact absurd (isText_ofText text) broken

/-- The text of the phrase of a text. -/
@[simp] theorem toText_ofText (text : Text) : toText (ofText text) = .ok text :=
  toText_eq_ok_iff.mpr rfl

end Phrase

/-- A text may stand wherever a phrase is expected. -/
scoped instance phraseOfText : Coe (List Char) (List Point) := ⟨Phrase.ofText⟩

end Daybook
