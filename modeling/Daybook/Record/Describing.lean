import Daybook.Record.Checking

/-!
# Records as values

Each record has one value that describes it, with every field in its order, whether or not
it says anything. Checking that value gives the record back (`Transaction.ofValue_toValue` and
its companions), so a description leaves nothing out but halves of pairs that stand alone.
-/
namespace Daybook

/-- A text, or nothing. -/
def Value.ofText? : Option Text → Value
  | some written => .text written
  | none => .nothing

/-- A list of texts. -/
def Value.ofTexts (texts : List Text) : Value :=
  .list (texts.map .text)

/-- The value that describes a posting. -/
def Posting.toValue (posting : Posting) : Value :=
  .record
    [("account", .text posting.account), ("amount", .text posting.amount),
      ("currency", .text posting.currency), ("cost", .ofText? posting.cost),
      ("price", .ofText? posting.price)]

/-- The value that describes a transaction. -/
def Transaction.toValue (transaction : Transaction) : Value :=
  .record
    [("id", .ofText? transaction.id), ("date", .text transaction.date),
      ("flag", .text transaction.flag), ("payee", .ofText? (transaction.payee.map Phrase.shown)),
      ("narration", .ofText? (transaction.narration.map Phrase.shown)),
      ("tags", .ofTexts transaction.tags),
      ("postings", .list (transaction.postings.map Posting.toValue))]

/-- The value that describes an account. -/
def Account.toValue (account : Account) : Value :=
  .record
    [("name", .text account.name), ("open_date", .text account.openDate),
      ("currencies", .ofTexts account.currencies), ("close_date", .ofText? account.closeDate)]

/-- The value that describes a layout. -/
def Layout.toValue (layout : Layout) : Value :=
  .record
    [("root_file", .text layout.rootFile), ("accounts_file", .text layout.accountsFile),
      ("extension", .text layout.extension), ("period_file", .text layout.periodFile)]

open Checked

/-- A described text, or nothing, passes as what it was. -/
theorem Checked.textOrNothing_ofText? (written : Option Text) :
    textOrNothing (.ofText? written) = .ok written := by
  cases written <;> rfl

/-- A result stays a result from further away. -/
theorem Checked.under_ok {α : Type} (step : Step) (result : α) :
    under step (.ok result) = .ok result := rfl

/-- A list passes as what it was when every item does. -/
theorem Checked.itemsFrom_map {α : Type} {item : Value → Checked α} {describe : α → Value}
    (reads : ∀ a, item (describe a) = .ok a) (items : List α) (index : Nat) :
    itemsFrom item index (items.map describe) = .ok items := by
  induction items generalizing index with
  | nil => rfl
  | cons first rest ih => simp [itemsFrom, reads, ih, under_ok]

/-- The value of a posting describes that posting. -/
theorem Posting.ofValue_toValue (posting : Posting) : ofValue posting.toValue = .ok posting := by
  simp [ofValue, toValue, required, Checked.optional, Value.field?, List.lookup_cons, text,
    textOrNothing_ofText?, under_ok]

/-- A phrase that may be missing is the phrase of what is shown of it, if it is a text. -/
theorem Phrase.map_ofText_shown {phrase : Option Phrase} (whole : ∀ some ∈ phrase, some.IsText) :
    phrase.map (ofText ∘ shown) = phrase := by
  cases phrase with
  | none => rfl
  | some phrase => exact congrArg some (whole phrase rfl).ofText_shown

/-- The value of a transaction describes that transaction, as far as its payee and its narration are
texts. -/
theorem Transaction.ofValue_toValue (transaction : Transaction) (whole : transaction.IsText) :
    ofValue transaction.toValue = .ok transaction := by
  have payee : ∀ phrase ∈ transaction.payee, phrase.IsText := fun phrase said =>
    whole phrase (List.mem_append_left _ (Option.mem_toList.mpr said))
  have narration : ∀ phrase ∈ transaction.narration, phrase.IsText := fun phrase said =>
    whole phrase (List.mem_append_right _ (Option.mem_toList.mpr said))
  have tags := @itemsFrom_map Text text .text (fun _ => rfl) transaction.tags 0
  have postings := itemsFrom_map Posting.ofValue_toValue transaction.postings 0
  simp [ofValue, toValue, required, Checked.optional, Value.field?, List.lookup_cons, text,
    textOrNothing_ofText?, under_ok, Value.ofTexts, list, tags, postings,
    Phrase.map_ofText_shown payee, Phrase.map_ofText_shown narration]

/-- The value of an account describes that account. -/
theorem Account.ofValue_toValue (account : Account) : ofValue account.toValue = .ok account := by
  have currencies := @itemsFrom_map Text text .text (fun _ => rfl) account.currencies 0
  simp [ofValue, toValue, required, Checked.optional, Value.field?, List.lookup_cons, text,
    textOrNothing_ofText?, under_ok, Value.ofTexts, list, currencies]

/-- The value of a layout describes that layout. -/
theorem Layout.ofValue_toValue (layout : Layout) : ofValue layout.toValue = .ok layout := by
  simp [ofValue, toValue, Layout.ofFields, Value.field?, List.lookup_cons, text, under_ok]

end Daybook
