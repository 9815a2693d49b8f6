import Daybook.Proofs.Entry.Rows
import Daybook.Proofs.Statement.Amounts

/-!
# Rows that are read back

The rows of an entry are read back, one line for every row, when their words are words of the
ledger language and their amounts are expressions with a currency. What follows the rows has no
part in this.
-/
namespace Daybook

open Lexeme

/-- The parts of a posting are words of the ledger language, and its amount is an expression with
a currency, or it has neither. -/
structure Posting.Lexical (posting : Posting) : Prop where
  account : IsWord .account posting.account
  amount : (posting.amount = [] ∧ posting.currency = []) ∨ (posting.amount ≠ [] ∧
    (∀ c ∈ posting.amount, isAmountChar c = true) ∧ Text.trim posting.amount = posting.amount ∧
    IsWord .currency posting.currency)

/-- The parts of a transaction are words of the ledger language. -/
structure Transaction.Lexical (transaction : Transaction) : Prop where
  flag : IsFlagWord transaction.flag
  tags : ∀ tag ∈ transaction.tags, IsWord .tag ('#' :: tag)
  postings : ∀ posting ∈ transaction.postings, posting.Lexical

/-- The tokens of a heading are the columns of a transaction. -/
structure Heading.Spells (heading : Heading) (transaction : Transaction) (date : Date) :
    Prop where
  date : heading.date.text = date.iso
  flag : heading.flag.map Token.text = some transaction.flag
  payee : heading.payee.map Token.text = transaction.payee.map Phrase.quotation
  narration : heading.narration.map Token.text =
    some (Phrase.quotation (transaction.narration.getD []))
  marks : heading.marks.map Token.text = transaction.tags.map ('#' :: ·)
  tags : ∀ mark ∈ heading.marks, mark.terminal = .tag

/-- The width of the payee of a transaction with the space before it. -/
def Transaction.payeeWidth (transaction : Transaction) : Nat :=
  transaction.payee.elim 0 fun payee => payee.quotation.length + 1

/-- The position of the narration in the row of a transaction that begins at a position. -/
def Transaction.narrationStart (transaction : Transaction) (date : Date) (position : Nat) : Nat :=
  position + date.iso.length + 1 + transaction.flag.length + transaction.payeeWidth + 1

/-- The tokens of a heading stand where the row of a transaction has its columns. -/
structure Heading.Stands (heading : Heading) (transaction : Transaction) (date : Date)
    (position : Nat) : Prop where
  begins : heading.date.start = position
  flag : ∀ flag ∈ heading.flag, flag.start = position + date.iso.length + 1
  narration : ∀ narration ∈ heading.narration,
    narration.start = transaction.narrationStart date position
  stop : heading.stop = position + (transaction.row date).length

/-- The line of a posting whose row begins at a position. -/
def Posting.line (posting : Posting) (position : Nat) : PostingLine :=
  let account : Token := ⟨.account, position + 2, posting.account⟩
  if posting.amount = [] then { first := account, account, stop := account.stop }
  else
    let start := account.stop + 1 + posting.amount.length + 1
    let currency : Token := ⟨.currency, start, posting.currency⟩
    { first := account, account, currency := some currency, stop := currency.stop }

/-- The lines of postings whose rows begin at a position. -/
def postingLines (position : Nat) : List Posting → List Line
  | [] => []
  | posting :: postings =>
    { statement := .posting (posting.line position) } ::
      postingLines (position + posting.row.length + 1) postings

namespace Statement

variable {place next : Place} {position : Nat} {lines : List Line}

/-- A token that leads to a place. -/
theorem reading_leads_iff {text rest : Text} {token : Token}
    (begins : Begins place.expected position text token rest) (within : endsLine token = false)
    (leads : place.step token = some next) :
    Reading place position text lines ↔ Reading next token.stop rest lines := by
  rw [reading_token_iff begins within, leads]
  simp

/-- What follows tags ends the word before them. -/
theorem wordOver_tagRow (tags : List Text) (rest : Text) :
    WordOver (tagRow tags ++ '\n' :: rest) := by
  cases tags with
  | nil => exact ⟨'\n', rest, rfl, Or.inr rfl⟩
  | cons tag tags => exact ⟨' ', '#' :: tag ++ tagRow tags ++ '\n' :: rest, rfl, Or.inl rfl⟩

/-- Tags are read back as the marks of a heading. The induction is on the tags; a tag may follow a
text or another mark, and so the place is general. -/
theorem reading_tagRow {tags : List Text} (words : ∀ tag ∈ tags, IsWord .tag ('#' :: tag))
    (heading : Heading) (position : Nat) (start : place = .texts heading ∨ place = .marks heading) :
    ∃ marks stop, marks.map Token.text = tags.map ('#' :: ·) ∧
      (∀ mark ∈ marks, mark.terminal = .tag) ∧
      (heading.stop = position → stop = position + (tagRow tags).length) ∧
      ∀ rest lines, Reading place position (tagRow tags ++ '\n' :: rest) lines ↔ ∃ more,
        lines = { statement := .transaction { heading with
          marks := heading.marks ++ marks, stop } } :: more ∧
        Reading .lineStart (position + (tagRow tags).length + 1) rest more := by
  induction tags generalizing place heading position with
  | nil =>
    refine ⟨[], heading.stop, rfl, by simp, id, fun rest lines => ?_⟩
    have listed : Terminal.newline ∈ place.expected.terminals := by
      rcases start with rfl | rfl <;> simp [Place.expected, Expected.terminals]
    have complete : place.lines? = some [{ statement := .transaction heading }] := by
      rcases start with rfl | rfl <;> rfl
    rw [tagRow, List.flatMap_nil, List.nil_append, List.append_nil]
    refine (reading_lineEnd_iff listed (Or.inl (rfl : ['\n'] = ['\n']))).trans ?_
    rw [complete]
    simp
  | cons tag tags ih =>
    obtain ⟨word, words⟩ := List.forall_mem_cons.mp words
    let token : Token := ⟨.tag, position + 1, '#' :: tag⟩
    obtain ⟨marks, stop, spelled, sorts, last, read⟩ := ih words
      { heading with marks := heading.marks ++ [token], stop := token.stop } token.stop
      (Or.inr rfl)
    have size : token.stop + (tagRow tags).length = position + (tagRow (tag :: tags)).length := by
      simp only [token, Token.stop, tagRow, List.flatMap_cons, List.length_append,
        List.length_cons]
      omega
    refine ⟨token :: marks, stop, by simp [spelled, token], by simpa [token] using sorts,
      fun _ => (last rfl).trans size, fun rest lines => ?_⟩
    have begins : Begins place.expected (position + 1)
        ('#' :: tag ++ (tagRow tags ++ '\n' :: rest)) token (tagRow tags ++ '\n' :: rest) := by
      refine begins_tag word (wordOver_tagRow tags rest) ?_ _
      rcases start with rfl | rfl
      · exact Or.inl rfl
      · exact Or.inr rfl
    have leads : place.step token = some (.marks
        { heading with marks := heading.marks ++ [token], stop := token.stop }) := by
      rcases start with rfl | rfl <;> rfl
    have whole : tagRow (tag :: tags) ++ '\n' :: rest =
        ' ' :: ('#' :: tag ++ (tagRow tags ++ '\n' :: rest)) := by
      simp [tagRow]
    rw [whole, reading_space_iff rfl, reading_leads_iff begins rfl leads, read, size,
      List.append_assoc, List.singleton_append]

/-- A quotation is read after a space. -/
theorem reading_quoted_iff {heading : Heading} {phrase : Phrase}
    (leads : (Place.texts heading).step ⟨.quotedText, position + 1, phrase.quotation⟩ =
      some next) (rest : Text) :
    Reading (.texts heading) position (' ' :: (phrase.quotation ++ rest)) lines ↔
      Reading next (position + phrase.quotation.length + 1) rest lines := by
  have asked : Terminal.quotedText ∈ Expected.texts.terminals := by decide
  have begins : Begins (Place.texts heading).expected (position + 1)
      (phrase.quotation ++ rest) ⟨.quotedText, position + 1, phrase.quotation⟩ rest :=
    begins_quoted asked phrase.shown (position + 1) rest
  rw [reading_space_iff rfl, reading_leads_iff begins rfl leads, Token.stop,
    Nat.add_right_comm]

/-- The quotations of a transaction lead from its flag to its tags. A narration by itself is the
first quotation of the heading; with a payee before it the payee takes that place. -/
theorem reading_textColumns (transaction : Transaction) (date flag : Token) (position : Nat) :
    ∃ (heading : Heading) (place : Place), heading.date = date ∧ heading.flag = some flag ∧
      heading.payee.map Token.text = transaction.payee.map Phrase.quotation ∧
      heading.narration.map Token.text =
        some (Phrase.quotation (transaction.narration.getD [])) ∧ heading.marks = [] ∧
      (∀ narration ∈ heading.narration,
        narration.start = position + transaction.payeeWidth + 1) ∧
      heading.stop = position + transaction.textColumns.length ∧
      (place = .texts heading ∨ place = .marks heading) ∧ ∀ rest lines,
        Reading (.texts { date, flag := some flag, stop := flag.stop }) position
            (transaction.textColumns ++ rest) lines ↔
          Reading place (position + transaction.textColumns.length) rest lines := by
  let flagged : Heading := { date, flag := some flag, stop := flag.stop }
  let narration : Phrase := transaction.narration.getD []
  cases present : transaction.payee with
  | none =>
    let token : Token := ⟨.quotedText, position + 1, narration.quotation⟩
    let heading : Heading := { flagged with narration := some token, stop := token.stop }
    have columns : transaction.textColumns = ' ' :: narration.quotation := by
      simp [Transaction.textColumns, present, narration]
    refine ⟨heading, .texts heading, rfl, rfl, rfl, rfl, rfl, ?_, ?_, Or.inl rfl,
      fun rest lines => ?_⟩
    · simp [heading, token, Transaction.payeeWidth, present]
    · simp only [heading, token, Token.stop, columns, List.length_cons]
      omega
    have leads : (Place.texts flagged).step token = some (.texts heading) := rfl
    rw [columns, List.cons_append, reading_quoted_iff leads, List.length_cons, Nat.add_assoc]
  | some payee =>
    let first : Token := ⟨.quotedText, position + 1, payee.quotation⟩
    let paid : Heading := { flagged with narration := some first, stop := first.stop }
    let middle := position + payee.quotation.length + 1
    let second : Token := ⟨.quotedText, middle + 1, narration.quotation⟩
    let heading : Heading :=
      { paid with payee := some first, narration := some second, stop := second.stop }
    have columns : transaction.textColumns =
        ' ' :: (payee.quotation ++ ' ' :: narration.quotation) := by
      simp [Transaction.textColumns, present, narration]
    have size : middle + narration.quotation.length + 1 =
        position + transaction.textColumns.length := by
      simp only [columns, middle, List.length_cons, List.length_append]
      omega
    refine ⟨heading, .marks heading, rfl, rfl, rfl, rfl, rfl, ?_, ?_, Or.inr rfl,
      fun rest lines => ?_⟩
    · simp [heading, second, middle, Transaction.payeeWidth, present, Nat.add_assoc]
    · rw [← size]
      exact Nat.add_right_comm _ _ _
    have paying : (Place.texts flagged).step first = some (.texts paid) := rfl
    have narrating : (Place.texts paid).step second = some (.marks heading) := rfl
    rw [← size, columns, List.cons_append, List.append_assoc, reading_quoted_iff paying]
    exact reading_quoted_iff narrating rest

/-- The heading of a transaction is read back, whatever follows its line. The date, the flag, the
quotations and the tags are read one after another, and the end of the line closes the heading. -/
theorem reading_row {transaction : Transaction} (date : Date) (flag : IsFlagWord transaction.flag)
    (tags : ∀ tag ∈ transaction.tags, IsWord .tag ('#' :: tag)) (position : Nat) :
    ∃ heading, heading.Spells transaction date ∧ heading.Stands transaction date position ∧
      ∀ rest lines, Reading .lineStart position (transaction.row date ++ '\n' :: rest) lines ↔ ∃ more,
        lines = { statement := .transaction heading } :: more ∧
        Reading .lineStart (position + (transaction.row date).length + 1) rest more := by
  let dateToken : Token := ⟨.date, position, date.iso⟩
  obtain ⟨terminal, sort, begun⟩ := begins_flag flag
  let flagToken : Token := ⟨terminal, dateToken.stop + 1, transaction.flag⟩
  obtain ⟨texted, place, sameDate, sameFlag, payee, narration, unmarked, narrated, before, start,
    readTexts⟩ := reading_textColumns transaction dateToken flagToken flagToken.stop
  obtain ⟨marks, stop, spelled, sorts, last, readTags⟩ := reading_tagRow tags texted
    (flagToken.stop + transaction.textColumns.length) start
  have size : flagToken.stop + transaction.textColumns.length + (tagRow transaction.tags).length =
      position + (transaction.row date).length := by
    simp only [flagToken, dateToken, Token.stop, Transaction.row, List.length_append,
      List.length_cons]
    omega
  refine ⟨{ texted with marks := texted.marks ++ marks, stop }, ⟨?_, ?_, payee, narration, ?_, ?_⟩,
    ⟨?_, ?_, narrated, ?_⟩, fun rest lines => ?_⟩
  · rw [sameDate]
  · rw [sameFlag]
    rfl
  · rw [unmarked]
    exact spelled
  · rw [unmarked]
    exact sorts
  · rw [sameDate]
  · simp only [sameFlag, Option.mem_some_iff]
    rintro _ rfl
    simp only [flagToken, dateToken, Token.stop]
  · exact (last before).trans size
  · obtain ⟨columns, spaced⟩ : ∃ columns, transaction.textColumns = ' ' :: columns := by
      unfold Transaction.textColumns
      split
      · exact ⟨_, rfl⟩
      · exact ⟨_, rfl⟩
    have whole : transaction.row date ++ '\n' :: rest = date.iso ++ ' ' :: (transaction.flag ++
        (transaction.textColumns ++ (tagRow transaction.tags ++ '\n' :: rest))) := by
      simp [Transaction.row]
    have dated : Place.lineStart.step dateToken = some (.dated dateToken) := rfl
    have flagged : (Place.dated dateToken).step flagToken =
        some (.texts { date := dateToken, flag := some flagToken, stop := flagToken.stop }) := by
      rcases sort with rfl | rfl <;> rfl
    have within : endsLine flagToken = false := by
      rcases sort with rfl | rfl <;> rfl
    have begunDate (later : Text) : Begins Place.lineStart.expected position
        (date.iso ++ ' ' :: later) dateToken (' ' :: later) :=
      begins_date date ⟨' ', later, rfl, Or.inl rfl⟩ position
    have begunFlag : Begins (Place.dated dateToken).expected (dateToken.stop + 1)
        (transaction.flag ++ (transaction.textColumns ++ (tagRow transaction.tags ++ '\n' :: rest)))
        flagToken (transaction.textColumns ++ (tagRow transaction.tags ++ '\n' :: rest)) := by
      rw [spaced]
      exact begun _ _
    rw [whole, reading_leads_iff (begunDate _) rfl dated, reading_space_iff rfl,
      reading_leads_iff begunFlag within flagged, readTexts, readTags, size]

/-- A heading is read at the beginning of a file as it is at the beginning of a line. A date is
found at both places, and it leads to the same one. -/
theorem reading_start_iff (transaction : Transaction) (date : Date) (rest : Text) :
    Reading .fileStart position (transaction.row date ++ rest) lines ↔
      Reading .lineStart position (transaction.row date ++ rest) lines := by
  have whole : transaction.row date ++ rest = date.iso ++ ' ' :: (transaction.flag ++
      (transaction.textColumns ++ (tagRow transaction.tags ++ rest))) := by
    simp [Transaction.row]
  have begins (later : Text) : Begins Place.lineStart.expected position
      (date.iso ++ ' ' :: later) ⟨.date, position, date.iso⟩ (' ' :: later) :=
    begins_date date ⟨' ', later, rfl, Or.inl rfl⟩ position
  have begun (later : Text) : Begins Place.fileStart.expected position
      (date.iso ++ ' ' :: later) ⟨.date, position, date.iso⟩ (' ' :: later) := by
    obtain ⟨c, inner, spelled, digit⟩ := iso_cons date
    rw [isDigit_iff] at digit
    have begins := begins later
    rw [spelled, List.cons_append] at begins ⊢
    refine (begins_start_iff ?_ ?_).mpr begins
    · rintro rfl
      revert digit
      decide
    · rintro rfl
      revert digit
      decide
  have leads : Place.lineStart.step ⟨.date, position, date.iso⟩ =
      some (.dated ⟨.date, position, date.iso⟩) := rfl
  have led : Place.fileStart.step ⟨.date, position, date.iso⟩ =
      some (.dated ⟨.date, position, date.iso⟩) := rfl
  rw [whole, reading_leads_iff (begins _) rfl leads, reading_leads_iff (begun _) rfl led]

/-- The account of a posting is read back, whatever its amount. The account is the first token of
the row behind its blanks, and no further token is looked at. -/
theorem reading_account_iff {posting : Posting} (word : IsWord .account posting.account)
    (rest : Text) (account : Token) (same : account = ⟨.account, position + 2, posting.account⟩) :
    Reading .lineStart position (posting.row ++ '\n' :: rest) lines ↔
      Reading (.posted { first := account, account, stop := account.stop }) account.stop
        (posting.columns ++ '\n' :: rest) lines := by
  have ended : WordOver (posting.columns ++ '\n' :: rest) := by
    unfold Posting.columns
    split
    · exact ⟨'\n', rest, rfl, Or.inr rfl⟩
    · split
      · exact ⟨' ', _, rfl, Or.inl rfl⟩
      · exact ⟨' ', _, rfl, Or.inl rfl⟩
  have begins : Begins Place.lineStart.expected (position + 1 + 1)
      (posting.account ++ (posting.columns ++ '\n' :: rest)) account
      (posting.columns ++ '\n' :: rest) := by
    rw [same]
    exact begins_account word ended (position + 2)
  have leads : Place.lineStart.step account =
      some (.posted { first := account, account, stop := account.stop }) := by
    rw [same]
    rfl
  have within : endsLine account = false := by
    rw [same]
    rfl
  rw [Posting.row, List.cons_append, List.cons_append, reading_space_iff rfl,
    reading_space_iff rfl, List.append_assoc, reading_leads_iff begins within leads]

/-- The row of a posting without an amount is read back, whatever follows it. -/
theorem reading_bare_iff {posting : Posting} (word : IsWord .account posting.account)
    (bare : posting.amount = []) (rest : Text) :
    Reading .lineStart position (posting.row ++ '\n' :: rest) lines ↔ ∃ more,
      lines = { statement := .posting (posting.line position) } :: more ∧
      Reading .lineStart (position + posting.row.length + 1) rest more := by
  have columns : posting.columns = [] := by simp [Posting.columns, bare]
  have size : position + posting.row.length = position + 2 + posting.account.length := by
    simp only [Posting.row, columns, List.append_nil, List.length_cons]
    omega
  let account : Token := ⟨.account, position + 2, posting.account⟩
  have line : posting.line position = { first := account, account, stop := account.stop } := by
    simp [Posting.line, bare, account]
  rw [reading_account_iff word rest account rfl, columns, size, line]
  refine (reading_lineEnd_iff (by simp [Place.expected, Expected.terminals])
    (Or.inl (rfl : ['\n'] = ['\n']))).trans ?_
  simp [Place.lines?, Place.statement?, Token.stop, account]

/-- The row of a posting with an amount is read back if it is read at all. A bare account ends
its line; behind an amount the currency has to be found, since no token of a number reaches its
capital. -/
theorem Reading.postingRow {posting : Posting} (lexical : posting.Lexical) {rest : Text}
    (reading : Reading .lineStart position (posting.row ++ '\n' :: rest) lines) :
    ∃ more, lines = { statement := .posting (posting.line position) } :: more ∧
      Reading .lineStart (position + posting.row.length + 1) rest more := by
  rcases lexical.amount with ⟨bare, _⟩ | ⟨some, chars, _, word⟩
  · exact (reading_bare_iff lexical.account bare rest).mp reading
  · obtain ⟨capital, inner, spelled, _⟩ := word.currency_cons
    have currency : posting.currency ≠ [] := by simp [spelled]
    have columns : posting.columns = ' ' :: (posting.amount ++ ' ' :: posting.currency) := by
      simp [Posting.columns, some, currency]
    let account : Token := ⟨.account, position + 2, posting.account⟩
    have reading := (reading_account_iff lexical.account rest account rfl).mp reading
    have whole : posting.columns ++ '\n' :: rest =
        (' ' :: (posting.amount ++ [' '])) ++ (posting.currency ++ '\n' :: rest) := by
      simp [columns]
    have numeric : ∀ c ∈ ' ' :: (posting.amount ++ [' ']), isAmountChar c = true := by
      intro c member
      simp only [List.mem_cons, List.mem_append, List.not_mem_nil, or_false] at member
      rcases member with rfl | inside | rfl
      · rfl
      · exact chars c inside
      · rfl
    have start : Numbering { first := account, account, stop := account.stop }
        (.posted { first := account, account, stop := account.stop }) := .posted account.stop
    have ended := reading.amount start whole numeric word
    obtain ⟨done, more, complete, rfl, further⟩ :=
      (reading_lineEnd_iff (by simp [Place.expected, Expected.terminals])
        (Or.inl (rfl : ['\n'] = ['\n']))).mp ended
    cases complete
    refine ⟨more, ?_, ?_⟩
    · have size : account.stop + (' ' :: (posting.amount ++ [' '])).length =
          account.stop + 1 + posting.amount.length + 1 := by
        simp only [List.length_cons, List.length_append, List.length_nil]
        omega
      rw [size, Posting.line, if_neg some]
      rfl
    · have size : account.stop + (' ' :: (posting.amount ++ [' '])).length +
          posting.currency.length + 1 = position + posting.row.length + 1 := by
        simp only [account, Token.stop, Posting.row, columns, List.length_cons, List.length_append,
          List.length_nil]
        omega
      rw [← size]
      exact further

/-- The rows of postings are read back if they are read at all. The induction is on the postings,
and each row leaves the reading of the rest. -/
theorem Reading.postingRows {postings : List Posting}
    (lexical : ∀ posting ∈ postings, posting.Lexical) {rest : Text}
    (reading : Reading .lineStart position
      ((postings.flatMap fun posting => posting.row ++ ['\n']) ++ rest) lines) :
    ∃ more, lines = postingLines position postings ++ more ∧ Reading .lineStart
      (position + (postings.flatMap fun posting => posting.row ++ ['\n']).length) rest more := by
  induction postings generalizing position lines with
  | nil => exact ⟨lines, rfl, reading⟩
  | cons posting postings ih =>
    obtain ⟨first, others⟩ := List.forall_mem_cons.mp lexical
    rw [List.flatMap_cons, List.append_assoc, List.append_assoc, List.singleton_append] at reading
    obtain ⟨tail, rfl, behind⟩ := reading.postingRow first
    obtain ⟨more, rfl, further⟩ := ih others behind
    refine ⟨more, rfl, ?_⟩
    have size : position + posting.row.length + 1 +
        (postings.flatMap fun posting => posting.row ++ ['\n']).length = position +
        ((posting :: postings).flatMap fun posting => posting.row ++ ['\n']).length := by
      simp only [List.flatMap_cons, List.length_append, List.length_singleton]
      omega
    rw [← size]
    exact further

end Statement

end Daybook
