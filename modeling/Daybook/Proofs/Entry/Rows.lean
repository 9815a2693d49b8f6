import Daybook.Entry
import Daybook.Proofs.Result
import Daybook.Proofs.Text.Quotation
import Daybook.Record.Describing

/-!
# The rows of an entry

The text of a transaction is joined from columns and rows. Here it is said once more as one
text, row after row, since that is how it is read: every column brings the space before it with
it, and every row its line end.
-/
namespace Daybook

/-- A text that passes for a word: it is not empty, and no character of it is blank. -/
def IsSolid (text : Text) : Prop :=
  text ≠ [] ∧ text.any Text.isBlank = false

instance (text : Text) : Decidable (IsSolid text) :=
  inferInstanceAs (Decidable (_ ∧ _))

/-- What is refused as a word is what is empty or has a blank in it. -/
theorem checkWord_eq_ok_iff {kind value : Text} : checkWord kind value = .ok () ↔ IsSolid value := by
  unfold checkWord IsSolid
  by_cases empty : value = []
  · simp [empty]
  · by_cases blank : value.any Text.isBlank = true
    · simp [blank]
    · simp [empty, blank]

/-- What does not pass for a word is refused under its name. -/
theorem checkWord_of_not_solid {kind value : Text} (other : ¬ IsSolid value) :
    checkWord kind value = .error (.notAWord kind value) := by
  unfold checkWord
  rw [if_pos]
  by_contra neither
  obtain ⟨something, visible⟩ := not_or.mp neither
  exact other ⟨something, by simpa using visible⟩

/-- A joined list is its first item and every other one with the separator before it. -/
theorem intercalate_cons (separator first : Text) (others : List Text) :
    List.intercalate separator (first :: others) =
      first ++ others.flatMap fun item => separator ++ item := by
  induction others generalizing first with
  | nil => simp
  | cons second others ih =>
    rw [List.intercalate_cons_cons, ih, List.flatMap_cons]
    simp

/-- A line feed before every item and one at the end are one at the start and one after every
item. -/
theorem flatMap_lineFeed (rows : List Text) :
    (rows.flatMap fun row => ['\n'] ++ row) ++ ['\n'] =
      '\n' :: rows.flatMap fun row => row ++ ['\n'] := by
  induction rows with
  | nil => rfl
  | cons row rows ih =>
    rw [List.flatMap_cons, List.append_assoc, ih]
    simp

/-- The amount and the currency of a posting, each with the space before it. -/
def Posting.columns (posting : Posting) : Text :=
  if posting.amount = [] then []
  else if posting.currency = [] then ' ' :: posting.amount
  else ' ' :: (posting.amount ++ ' ' :: posting.currency)

/-- The row of a posting. -/
def Posting.row (posting : Posting) : Text :=
  ' ' :: ' ' :: (posting.account ++ posting.columns)

/-- The quotation that a phrase is written as, which is one of the phrase if that is a text. -/
def Phrase.quotation (phrase : Phrase) : Text :=
  Text.Quoted.encode phrase.shown

/-- The quotations of a transaction, each with the space before it. -/
def Transaction.textColumns (transaction : Transaction) : Text :=
  (match transaction.payee with
    | none => []
    | some payee => ' ' :: payee.quotation) ++
    ' ' :: Phrase.quotation (transaction.narration.getD [])

/-- Tags, each with the space before it. -/
def tagRow (tags : List Text) : Text :=
  tags.flatMap fun tag => ' ' :: '#' :: tag

/-- The heading of a transaction. -/
def Transaction.row (transaction : Transaction) (date : Date) : Text :=
  date.iso ++ ' ' :: (transaction.flag ++ (transaction.textColumns ++ tagRow transaction.tags))

/-- The heading of a transaction and its postings, all with their line ends. -/
def Transaction.rows (transaction : Transaction) (date : Date) : Text :=
  transaction.row date ++ '\n' :: transaction.postings.flatMap fun posting => posting.row ++ ['\n']

/-- A posting is written exactly if its account passes for a word. -/
theorem Posting.toText_eq_ok_iff {posting : Posting} {text : Text} :
    posting.toText = .ok text ↔ IsSolid posting.account ∧ text = posting.row := by
  unfold Posting.toText
  rw [bind_eq_ok_iff]
  constructor
  · rintro ⟨_, word, written⟩
    refine ⟨checkWord_eq_ok_iff.mp word, ?_⟩
    cases written
    simp only [intercalate_cons, Posting.row, Posting.columns]
    split
    · simp
    · split <;> simp
  · rintro ⟨solid, rfl⟩
    refine ⟨(), checkWord_eq_ok_iff.mpr solid, ?_⟩
    simp only [intercalate_cons, Posting.row, Posting.columns, pure, Except.pure]
    split
    · simp
    · split <;> simp

/-- A posting is refused for its account alone. -/
theorem Posting.toText_eq_error {posting : Posting} {failure : Failure}
    (refused : posting.toText = .error failure) :
    failure = .notAWord "account" posting.account ∧ ¬ IsSolid posting.account := by
  by_cases solid : IsSolid posting.account
  · rw [Posting.toText_eq_ok_iff.mpr ⟨solid, rfl⟩] at refused
    cases refused
  · unfold Posting.toText at refused
    rw [checkWord_of_not_solid solid] at refused
    cases refused
    exact ⟨rfl, solid⟩

/-- Tags are written exactly if they pass for words. -/
theorem tagColumns_eq_ok_iff {tags columns : List Text} :
    tagColumns tags = .ok columns ↔
      (∀ tag ∈ tags, IsSolid tag) ∧ columns = tags.map ('#' :: ·) := by
  refine mapM_eq_ok_iff fun tag column => ?_
  rw [bind_eq_ok_iff]
  constructor
  · rintro ⟨_, word, written⟩
    cases written
    exact ⟨checkWord_eq_ok_iff.mp word, rfl⟩
  · rintro ⟨solid, rfl⟩
    exact ⟨(), checkWord_eq_ok_iff.mpr solid, rfl⟩

/-- The words of a transaction pass for words, and what it says in quotation marks is a text. Amounts
and currencies are not among its words. -/
structure Transaction.Solid (transaction : Transaction) : Prop where
  flag : IsSolid transaction.flag
  tags : ∀ tag ∈ transaction.tags, IsSolid tag
  accounts : ∀ posting ∈ transaction.postings, IsSolid posting.account
  said : transaction.IsText

/-- The columns of the heading of a transaction. -/
def Transaction.columns (transaction : Transaction) (date : Date) : List Phrase :=
  [date.iso, transaction.flag].map Phrase.ofText ++
    (transaction.payee.map Text.Quoted.encodePhrase).toList ++
    [Text.Quoted.encodePhrase (transaction.narration.getD [])] ++
    (transaction.tags.map ('#' :: ·)).map Phrase.ofText

/-- What a transaction is written as, joined from its columns and rows. -/
def Transaction.phrase (transaction : Transaction) (date : Date) : Phrase :=
  Phrase.ofText ['\n'] ++ List.intercalate (Phrase.ofText ['\n'])
    (List.intercalate (Phrase.ofText [' ']) (transaction.columns date) ::
      (transaction.postings.map Posting.row).map Phrase.ofText) ++ Phrase.ofText ['\n']

/-- A transaction is written exactly if its date is a date and its words pass for words. Each bind
of the writer is opened once, and the rows of tags and postings by their own rules. -/
theorem Transaction.toPhrase_eq_ok_iff {transaction : Transaction} {phrase : Phrase} :
    transaction.toPhrase = .ok phrase ↔ IsSolid transaction.flag ∧
      (∀ tag ∈ transaction.tags, IsSolid tag) ∧
      (∀ posting ∈ transaction.postings, IsSolid posting.account) ∧
      ∃ date, Date.read transaction.date = .ok date ∧ phrase = transaction.phrase date := by
  unfold Transaction.toPhrase
  constructor
  · intro written
    obtain ⟨_, flag, written⟩ := bind_eq_ok_iff.mp written
    obtain ⟨date, read, written⟩ := bind_eq_ok_iff.mp written
    obtain ⟨tags, tagged, written⟩ := bind_eq_ok_iff.mp written
    obtain ⟨rows, posted, written⟩ := bind_eq_ok_iff.mp written
    obtain ⟨tagWords, rfl⟩ := tagColumns_eq_ok_iff.mp tagged
    obtain ⟨accounts, rfl⟩ := (mapM_eq_ok_iff fun _ _ => Posting.toText_eq_ok_iff).mp posted
    exact ⟨checkWord_eq_ok_iff.mp flag, tagWords, accounts, date, read,
      (Except.ok.inj written).symm⟩
  · rintro ⟨flag, tags, accounts, date, read, rfl⟩
    refine bind_eq_ok_iff.mpr ⟨(), checkWord_eq_ok_iff.mpr flag, ?_⟩
    refine bind_eq_ok_iff.mpr ⟨date, read, ?_⟩
    refine bind_eq_ok_iff.mpr ⟨_, tagColumns_eq_ok_iff.mpr ⟨tags, rfl⟩, ?_⟩
    exact bind_eq_ok_iff.mpr ⟨_, (mapM_eq_ok_iff fun _ _ =>
      Posting.toText_eq_ok_iff).mpr ⟨accounts, rfl⟩, rfl⟩

/-- The payee and the narration of a transaction are texts if both are, where the transaction has
them. -/
theorem Transaction.isText_iff {transaction : Transaction} :
    transaction.IsText ↔ (∀ payee ∈ transaction.payee, payee.IsText) ∧
      ∀ narration ∈ transaction.narration, narration.IsText := by
  simp only [IsText, phrases, List.forall_mem_append, Option.mem_toList, Option.mem_def]

/-- A narration is a text exactly if the one that is written is. -/
theorem Phrase.isText_getD {phrase : Option Phrase} :
    IsText (phrase.getD []) ↔ ∀ some ∈ phrase, some.IsText := by
  cases phrase with
  | none => simp [IsText]
  | some phrase => simp

/-- A phrase that is a text is written as its quotation, which stands for it. -/
theorem Phrase.IsText.encodePhrase {phrase : Phrase} (whole : phrase.IsText) :
    Text.Quoted.encodePhrase phrase = Phrase.ofText phrase.quotation := by
  rw [quotation, ← Text.Quoted.encodePhrase_ofText, whole.ofText_shown]

/-- The quotation of a phrase stands for what is shown of it. -/
theorem Phrase.decode_quotation (phrase : Phrase) :
    Text.Quoted.decode phrase.quotation = Phrase.ofText phrase.shown :=
  Text.Quoted.decode_encode phrase.shown

/-- What a transaction is written as is a text exactly if what it says in quotation marks is one, and
then it is the rows of the transaction after a blank line. -/
theorem Transaction.phrase_eq_iff {transaction : Transaction} {date : Date} {text : Text} :
    transaction.phrase date = Phrase.ofText text ↔
      transaction.IsText ∧ text = '\n' :: transaction.rows date := by
  have joined (whole : transaction.IsText) :
      transaction.phrase date = Phrase.ofText ('\n' :: transaction.rows date) := by
    obtain ⟨paid, narrated⟩ := Transaction.isText_iff.mp whole
    have payee : transaction.payee.map Text.Quoted.encodePhrase =
        (transaction.payee.map Phrase.quotation).map Phrase.ofText := by
      rw [Option.map_map]
      exact Option.map_congr fun payee present => (paid payee present).encodePhrase
    have narration := (Phrase.isText_getD.mpr narrated).encodePhrase
    have columns : transaction.columns date = List.map Phrase.ofText
        ([date.iso, transaction.flag] ++ (transaction.payee.map Phrase.quotation).toList ++
          [Phrase.quotation (transaction.narration.getD [])] ++
          transaction.tags.map ('#' :: ·)) := by
      rw [Transaction.columns, payee, narration]
      cases transaction.payee <;> simp
    have rows := flatMap_lineFeed (transaction.postings.map Posting.row)
    rw [Transaction.phrase, columns, Phrase.intercalate_ofText, ← List.map_cons,
      Phrase.intercalate_ofText, ← Phrase.ofText_append, ← Phrase.ofText_append, Phrase.ofText_inj,
      intercalate_cons, List.singleton_append, List.cons_append, List.append_assoc, rows,
      List.flatMap_map, Transaction.rows, Transaction.row, Transaction.textColumns, tagRow]
    cases transaction.payee <;> simp [intercalate_cons, List.flatMap_map]
  constructor
  · intro same
    have whole : (transaction.phrase date).IsText := Phrase.isText_iff.mpr ⟨text, same⟩
    rw [Transaction.phrase, Phrase.isText_append, Phrase.isText_append] at whole
    have columns := Phrase.IsText.of_intercalate
      (Phrase.IsText.of_intercalate whole.1.2 _ List.mem_cons_self)
    have said : transaction.IsText := by
      refine Transaction.isText_iff.mpr ⟨fun payee present => ?_, Phrase.isText_getD.mp ?_⟩
      · refine Text.Quoted.isText_encodePhrase.mp (columns _ ?_)
        simp [Transaction.columns, Option.mem_def.mp present]
      · refine Text.Quoted.isText_encodePhrase.mp (columns _ ?_)
        simp [Transaction.columns]
    exact ⟨said, Phrase.ofText_inj.mp (same.symm.trans (joined said))⟩
  · rintro ⟨whole, rfl⟩
    exact joined whole

/-- A phrase is read exactly if it is a text. -/
theorem Phrase.read_eq_ok_iff {phrase : Phrase} {text : Text} :
    phrase.read = .ok text ↔ phrase = Phrase.ofText text := by
  rw [Phrase.read, mapError_eq_ok_iff, Phrase.toText_eq_ok_iff]

/-- A text is read as it is. -/
theorem Phrase.read_ofText (text : Text) : Phrase.read (Phrase.ofText text) = .ok text :=
  Phrase.read_eq_ok_iff.mpr rfl

/-- A transaction is written exactly if its date is a date, its words pass for words and what it says
is a text. -/
theorem Transaction.toText_eq_ok_iff {transaction : Transaction} {text : Text} :
    transaction.toText = .ok text ↔ transaction.Solid ∧
      ∃ date, Date.read transaction.date = .ok date ∧ text = '\n' :: transaction.rows date := by
  unfold Transaction.toText
  constructor
  · intro written
    obtain ⟨phrase, written, read⟩ := bind_eq_ok_iff.mp written
    obtain ⟨flag, tags, accounts, date, known, rfl⟩ := toPhrase_eq_ok_iff.mp written
    obtain ⟨said, same⟩ := phrase_eq_iff.mp (Phrase.read_eq_ok_iff.mp read)
    exact ⟨⟨flag, tags, accounts, said⟩, date, known, same⟩
  · rintro ⟨solid, date, known, same⟩
    exact bind_eq_ok_iff.mpr ⟨_, toPhrase_eq_ok_iff.mpr
      ⟨solid.flag, solid.tags, solid.accounts, date, known, rfl⟩,
      Phrase.read_eq_ok_iff.mpr (phrase_eq_iff.mpr ⟨solid.said, same⟩)⟩

end Daybook
