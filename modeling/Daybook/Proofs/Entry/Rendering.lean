import Daybook.Proofs.Entry.Rereading
import Daybook.Proofs.Page.Contents
import Daybook.Proofs.Page.Cutting
import Daybook.Proofs.Statement.Tokens

/-!
# Entries that say what was asked for

A rendered entry has been read back without an error. That alone does not make it the entry
that was asked for: the amounts and the currencies of postings are written unchecked, and the
other words need only be free of blanks. Here it is shown which transactions come back as they
were, and they are exactly those whose parts are words of the ledger language.
-/
namespace Daybook

open Lexeme

open Statement (Reading reading_row reading_start_iff reading_emptyLine_iff reading_nil_iff)

namespace Text

/-- A blank in front of a text has no part in the trimmed text. -/
theorem trim_cons {c : Char} (blank : isBlank c = true) (text : Text) :
    trim (c :: text) = trim text := by
  simp [trim, trimLeft, blank]

/-- A blank at the end of a text has no part in the trimmed text. -/
theorem trim_concat {c : Char} (blank : isBlank c = true) (text : Text) :
    trim (text ++ [c]) = trim text := by
  rw [trim, trim, trimLeft, trimLeft, List.dropWhile_append]
  split
  · next empty =>
    rw [List.isEmpty_iff.mp empty]
    simp [blank]
  · simp [trimRight, blank]

/-- A trimmed text has only characters of the text. -/
theorem mem_of_mem_trim {c : Char} {text : Text} (member : c ∈ trim text) : c ∈ text := by
  rw [trim, trimRight, List.mem_reverse] at member
  have inside := (List.dropWhile_sublist isBlank).subset member
  exact (List.dropWhile_sublist isBlank).subset (List.mem_reverse.mp inside)

/-- A character that is not blank is not trimmed. -/
theorem mem_trim_of_mem {c : Char} {text : Text} (member : c ∈ text) (solid : isBlank c = false) :
    c ∈ trim text := by
  have stays (text : Text) (member : c ∈ text) : c ∈ text.dropWhile isBlank := by
    rw [← List.takeWhile_append_dropWhile (p := isBlank) (l := text), List.mem_append] at member
    rcases member with blank | stays
    · rw [List.mem_takeWhile_imp blank] at solid
      cases solid
    · exact stays
  rw [trim, trimRight, List.mem_reverse]
  exact stays _ (List.mem_reverse.mpr (stays text member))

/-- Trimming a second time changes nothing. -/
theorem trim_trim (text : Text) : trim (trim text) = trim text := by
  have front : trimLeft (trim text) = trim text := by
    have beginning : trim text <+: trimLeft text :=
      List.reverse_suffix.mp (by simpa [trim, trimRight] using List.dropWhile_suffix _)
    cases kept : trim text with
    | nil => rfl
    | cons c inner =>
      obtain ⟨tail, whole⟩ := kept ▸ beginning
      have again : (trimLeft text).dropWhile isBlank = trimLeft text := List.dropWhile_idempotent _ _
      have solid : ¬ isBlank c = true := by
        rw [← whole, List.dropWhile_eq_self_iff] at again
        exact again (by simp)
      simp [trimLeft, solid]
  rw [trim, front, trim, trimRight, trimRight, List.reverse_reverse, List.dropWhile_idempotent]

end Text

/-- What a posting says. -/
def Posting.said (posting : Posting) : Text × Text × Text :=
  (posting.account, posting.amount, posting.currency)

/-- What a posting says as it stands in a file. -/
def PostingEntry.said (posting : PostingEntry) : Text × Text × Text :=
  (posting.account, posting.amount, posting.currency)

/-- An entry says what a transaction of a date says. A narration is always written. -/
structure TransactionEntry.Says (entry : TransactionEntry) (transaction : Transaction)
    (date : Date) : Prop where
  date : entry.date = date.iso
  flag : entry.flag = transaction.flag
  payee : entry.payee = transaction.payee
  narration : entry.narration = some (transaction.narration.getD [])
  tags : entry.tags = transaction.tags
  postings : entry.postings.map PostingEntry.said = transaction.postings.map Posting.said

section Collecting

variable {path text : Text}

/-- A line ends before the line feed behind its row. -/
theorem Text.stretch_line {row : Text} (quiet : '\n' ∉ row) (rest : Text) :
    Text.stretch (· ≠ '\n') (row ++ '\n' :: rest) = row.length := by
  have all : ∀ c ∈ row, decide (c ≠ '\n') = true := fun c member =>
    decide_eq_true fun same => quiet (same ▸ member)
  rw [Text.stretch, List.takeWhile_append_of_pos all]
  simp

/-- The columns behind the account of a posting are on one line. -/
theorem Posting.Lexical.quiet {posting : Posting} (lexical : posting.Lexical) :
    '\n' ∉ posting.columns := by
  rcases lexical.amount with ⟨bare, _⟩ | ⟨some, chars, _, word⟩
  · simp [Posting.columns, bare]
  · obtain ⟨capital, inner, spelled, isCapital, others⟩ := word.currency_cons
    have currency : posting.currency ≠ [] := by simp [spelled]
    rw [Posting.columns, if_neg some, if_neg currency, spelled]
    simp only [List.mem_cons, List.mem_append, not_or]
    refine ⟨by decide, fun inside => ?_, by decide, ?_, fun inside => ?_⟩
    · have amount := chars _ inside
      revert amount
      decide
    · rintro rfl
      revert isCapital
      decide
    · have char := others _ inside
      revert char
      decide

/-- The line of a posting ends where its row ends. -/
theorem Posting.Lexical.stop_line {posting : Posting} (lexical : posting.Lexical)
    (position : Nat) : (posting.line position).stop = position + posting.row.length := by
  rcases lexical.amount with ⟨bare, _⟩ | ⟨some, _, _, word⟩
  · simp only [Posting.line, bare, if_true, Token.stop, Posting.row, Posting.columns,
      List.append_nil, List.length_cons]
    omega
  · obtain ⟨capital, inner, spelled, _⟩ := word.currency_cons
    have currency : posting.currency ≠ [] := by simp [spelled]
    simp only [Posting.line, if_neg some, Token.stop, Posting.row, Posting.columns,
      if_neg currency, List.length_cons, List.length_append]
    omega

/-- The posting of a row ends where its row ends. -/
theorem Posting.Lexical.stop_ofLine {posting : Posting} (lexical : posting.Lexical)
    {source : Source} {position : Nat} {rest : Text}
    (stands : source.text.drop position = posting.row ++ '\n' :: rest) :
    (PostingEntry.ofLine source (posting.line position) none).span.stop =
      source.offsets.byte (position + posting.row.length) := by
  have account : (posting.line position).account.stop = position + 2 + posting.account.length := by
    unfold Posting.line
    split <;> rfl
  have behind : source.text.drop (position + 2 + posting.account.length) =
      posting.columns ++ '\n' :: rest := by
    rw [← List.drop_drop, ← List.drop_drop, stands, Posting.row]
    simp
  have size : position + 2 + posting.account.length + posting.columns.length =
      position + posting.row.length := by
    simp only [Posting.row, List.length_cons, List.length_append]
    omega
  simp only [PostingEntry.ofLine, account, behind, Text.stretch_line lexical.quiet, size,
    lexical.stop_line, Source.span, Nat.max_eq_left (Nat.sub_le _ _)]

/-- The posting of a row of the text says what was asked for. The parts are slices of the row at the
positions where the writer put them. -/
theorem Posting.Lexical.said_ofLine {source : Source} {posting : Posting}
    (lexical : posting.Lexical) {position : Nat} {rest : Text}
    (stands : source.text.drop position = posting.row ++ rest) :
    (PostingEntry.ofLine source (posting.line position) none).said = posting.said := by
  rcases lexical.amount with ⟨bare, none⟩ | ⟨some, _, trimmed, word⟩
  · simp [PostingEntry.said, PostingEntry.ofLine, Posting.said, Posting.line, bare, none,
      Text.slice, Text.trim, Text.trimLeft, Text.trimRight]
  · obtain ⟨capital, inner, spelled, _⟩ := word.currency_cons
    have currency : posting.currency ≠ [] := by simp [spelled]
    have number : Text.slice source.text (position + 2 + posting.account.length)
        (position + 2 + posting.account.length + 1 + posting.amount.length + 1) =
        ' ' :: (posting.amount ++ [' ']) := by
      have columns : posting.columns = ' ' :: (posting.amount ++ ' ' :: posting.currency) := by
        simp [Posting.columns, some, currency]
      have behind : source.text.drop (position + 2 + posting.account.length) =
          ' ' :: (posting.amount ++ [' ']) ++ (posting.currency ++ rest) := by
        rw [← List.drop_drop, ← List.drop_drop, stands, Posting.row, columns]
        simp
      have size : position + 2 + posting.account.length + 1 + posting.amount.length + 1 -
          (position + 2 + posting.account.length) = (' ' :: (posting.amount ++ [' '])).length := by
        simp only [List.length_cons, List.length_append, List.length_nil]
        omega
      rw [Text.slice, behind, size, List.take_left]
    have blank : Text.isBlank ' ' = true := rfl
    simp only [PostingEntry.said, PostingEntry.ofLine, Posting.said, Posting.line, if_neg some,
      Token.stop, number, Text.trim_cons blank, Text.trim_concat blank, trimmed]

/-- The postings of rows that stand one after the other in the text. -/
def postingEntries (source : Source) (position : Nat) : List Posting → List PostingEntry
  | [] => []
  | posting :: postings => PostingEntry.ofLine source (posting.line position) none ::
      postingEntries source (position + posting.row.length + 1) postings

/-- The postings of rows of the text say what was asked for. -/
theorem said_postingEntries {source : Source} {postings : List Posting}
    (lexical : ∀ posting ∈ postings, posting.Lexical) {position : Nat} {rest : Text}
    (stands : source.text.drop position =
      (postings.flatMap fun posting => posting.row ++ ['\n']) ++ rest) :
    (postingEntries source position postings).map PostingEntry.said =
      postings.map Posting.said := by
  induction postings generalizing position with
  | nil => rfl
  | cons posting postings ih =>
    obtain ⟨first, others⟩ := List.forall_mem_cons.mp lexical
    rw [List.flatMap_cons, List.append_assoc, List.append_assoc] at stands
    have behind : source.text.drop (position + posting.row.length + 1) =
        (postings.flatMap fun posting => posting.row ++ ['\n']) ++ rest := by
      rw [Nat.add_assoc, ← List.drop_drop, stands, ← List.drop_drop, List.drop_left]
      rfl
    rw [postingEntries, List.map_cons, List.map_cons, first.said_ofLine stands, ih others behind]

/-- The entry of a transaction whose rows begin at a position of a text. What it says is what is shown
of the transaction. -/
def Transaction.entry (transaction : Transaction) (source : Source) (date : Date)
    (position : Nat) : TransactionEntry :=
  let flag := position + date.iso.length + 1
  let narration := transaction.narrationStart date position
  let said : Phrase := transaction.narration.getD []
  { date := date.iso
    flag := transaction.flag
    payee := transaction.payee.map (Phrase.ofText ∘ Phrase.shown)
    narration := some (Phrase.ofText said.shown)
    tags := transaction.tags
    postings := postingEntries source (position + (transaction.row date).length + 1)
      transaction.postings
    dateSpan := source.span position (position + date.iso.length)
    flagSpan := source.span flag (flag + transaction.flag.length)
    narrationSpan := some (source.span narration (narration + said.quotation.length))
    span := source.span position (position + (transaction.rows date).length - 1) }

/-- The entry of rows of the text says what was asked for. -/
theorem Transaction.Lexical.says_entry {source : Source} {transaction : Transaction}
    (lexical : transaction.Lexical) (whole : transaction.IsText) {date : Date} {position : Nat}
    {rest : Text} (stands : source.text.drop position = transaction.rows date ++ rest) :
    (transaction.entry source date position).Says transaction date := by
  obtain ⟨payee, narration⟩ := Transaction.isText_iff.mp whole
  rw [Transaction.rows, List.append_assoc, List.cons_append] at stands
  have postings : source.text.drop (position + (transaction.row date).length + 1) =
      (transaction.postings.flatMap fun posting => posting.row ++ ['\n']) ++ rest := by
    rw [Nat.add_assoc, ← List.drop_drop, stands, ← List.drop_drop, List.drop_left]
    rfl
  exact ⟨rfl, rfl, Phrase.map_ofText_shown payee,
    congrArg some (Phrase.isText_getD.mpr narration).ofText_shown, rfl,
    said_postingEntries lexical.postings postings⟩

/-- Postings behind the heading of a transaction become its postings, and it ends where the last of
them ends. The induction is on the postings, and each is collected from the row that stands at its
own position. -/
theorem collectFrom_postingLines {postings : List Posting}
    (lexical : ∀ posting ∈ postings, posting.Lexical) (heading : Heading)
    (entries : List PostingEntry) {position : Nat} {rest : Text}
    (stands : text.drop (position + 1) =
      (postings.flatMap fun posting => posting.row ++ ['\n']) ++ rest) (included : List Phrase) :
    collectFrom (Source.ofText path text)
        (.transaction heading entries ((Source.ofText path text).offsets.byte position)) included
        (postingLines (position + 1) postings) =
      collectFrom (Source.ofText path text) (.transaction heading
        (entries ++ postingEntries (Source.ofText path text) (position + 1) postings)
        ((Source.ofText path text).offsets.byte (position +
          (postings.flatMap fun posting => posting.row ++ ['\n']).length))) included [] := by
  induction postings generalizing entries position with
  | nil =>
    rw [postingEntries, List.append_nil]
    rfl
  | cons posting postings ih =>
    obtain ⟨first, others⟩ := List.forall_mem_cons.mp lexical
    rw [List.flatMap_cons, List.append_assoc, List.append_assoc, List.singleton_append] at stands
    let entry := PostingEntry.ofLine (Source.ofText path text) (posting.line (position + 1)) none
    have behind : text.drop (position + 1 + posting.row.length + 1) =
        (postings.flatMap fun posting => posting.row ++ ['\n']) ++ rest := by
      rw [Nat.add_assoc, ← List.drop_drop, stands, ← List.drop_drop, List.drop_left]
      rfl
    have inside : position + 1 + posting.row.length ≤ text.length := by
      have size := congrArg List.length stands
      simp only [List.length_drop, List.length_append, List.length_cons] at size
      omega
    have ended : max ((Source.ofText path text).offsets.byte position : Int) entry.span.stop =
        (Source.ofText path text).offsets.byte (position + 1 + posting.row.length) := by
      rw [first.stop_ofLine stands]
      have order := Source.byte_mono path (Nat.le_trans (Nat.le_add_right _ _)
        (Nat.le_of_eq (Nat.add_assoc position 1 posting.row.length).symm)) inside
      omega
    have size : position + 1 + posting.row.length +
        (postings.flatMap fun posting => posting.row ++ ['\n']).length = position +
        ((posting :: postings).flatMap fun posting => posting.row ++ ['\n']).length := by
      simp only [List.flatMap_cons, List.length_append, List.length_singleton]
      omega
    have same := ih others (entries ++ [entry]) behind
    rw [List.append_assoc, size, ← ended] at same
    exact same

/-- A heading that stands where a transaction has its columns is closed as its entry. Every column
is decoded from the token that spells it: quotations lose their quotes, marks the hash before the
tag. -/
theorem Heading.Spells.finish {heading : Heading} {transaction : Transaction} {date : Date}
    (spells : heading.Spells transaction date) {position : Nat}
    (stands : heading.Stands transaction date position) (source : Source) :
    (Pending.transaction heading
        (postingEntries source (position + (transaction.row date).length + 1) transaction.postings)
        (source.offsets.byte (position + (transaction.rows date).length - 1))).finish source =
      .ok [.transaction (transaction.entry source date position)] := by
  obtain ⟨flag, present, flagText⟩ := Option.map_eq_some_iff.mp spells.flag
  obtain ⟨narration, narrated, narrationText⟩ := Option.map_eq_some_iff.mp spells.narration
  have payee : (heading.payee.map fun token => Text.Quoted.decode token.text) =
      transaction.payee.map (Phrase.ofText ∘ Phrase.shown) := by
    have same := congrArg (Option.map Text.Quoted.decode) spells.payee
    simpa [Option.map_map, Function.comp_def, Phrase.quotation, Text.Quoted.decode_encode] using
      same
  have tags : ((heading.marks.filter fun token => decide (token.terminal = .tag)).map fun token =>
      token.text.drop 1) = transaction.tags := by
    have all : heading.marks.filter (fun token => decide (token.terminal = .tag)) =
        heading.marks := List.filter_eq_self.mpr fun mark member => by simp [spells.tags mark member]
    have same := congrArg (List.map fun text => text.drop 1) spells.marks
    simpa [all, List.map_map, Function.comp_def] using same
  have flagSpan : source.tokenSpan flag = source.span (position + date.iso.length + 1)
      (position + date.iso.length + 1 + transaction.flag.length) := by
    rw [Source.tokenSpan, Token.stop, stands.flag flag present, flagText]
  have narrationSpan : source.tokenSpan narration =
      source.span (transaction.narrationStart date position) (transaction.narrationStart date
        position + (Phrase.quotation (transaction.narration.getD [])).length) := by
    rw [Source.tokenSpan, Token.stop, stands.narration narration narrated, narrationText]
  have dateSpan : source.tokenSpan heading.date =
      source.span position (position + date.iso.length) := by
    rw [Source.tokenSpan, Token.stop, stands.begins, spells.date]
  simp only [Pending.finish, present, narrated, Option.map_some, payee, tags, flagText,
    narrationText, Phrase.decode_quotation, flagSpan, narrationSpan, dateSpan, spells.date]
  rfl

/-- A heading with the postings behind it is one transaction. The heading opens the transaction, the
rows become its postings, and the end of the file closes it. -/
theorem Heading.Spells.collect {heading : Heading} {transaction : Transaction} {date : Date}
    (spells : heading.Spells transaction date) {position : Nat}
    (placed : heading.Stands transaction date position) (lexical : transaction.Lexical)
    {rest : Text} (stands : text.drop position = transaction.rows date ++ rest)
    (included : List Phrase) :
    collectFrom (Source.ofText path text) .nothing included ({ statement := .transaction heading } ::
        postingLines (position + (transaction.row date).length + 1) transaction.postings) =
      .ok ⟨[.transaction (transaction.entry (Source.ofText path text) date position)], []⟩ := by
  rw [Transaction.rows, List.append_assoc, List.cons_append] at stands
  have postings : text.drop (position + (transaction.row date).length + 1) =
      (transaction.postings.flatMap fun posting => posting.row ++ ['\n']) ++ rest := by
    rw [Nat.add_assoc, ← List.drop_drop, stands, ← List.drop_drop, List.drop_left]
    rfl
  have last : position + (transaction.row date).length +
      (transaction.postings.flatMap fun posting => posting.row ++ ['\n']).length =
      position + (transaction.rows date).length - 1 := by
    simp only [Transaction.rows, List.length_append, List.length_cons]
    omega
  have collected : collectFrom (Source.ofText path text) (.transaction heading []
        ((Source.ofText path text).offsets.byte heading.stop)) included
        (postingLines (position + (transaction.row date).length + 1) transaction.postings) =
      .ok ⟨[.transaction (transaction.entry (Source.ofText path text) date position)], []⟩ := by
    rw [placed.stop, collectFrom_postingLines lexical.postings heading [] postings included,
      List.nil_append, last, collectFrom, spells.finish placed]
    rfl
  have opened : collectFrom (Source.ofText path text) .nothing included
        ({ statement := .transaction heading } ::
          postingLines (position + (transaction.row date).length + 1) transaction.postings) =
      collectFrom (Source.ofText path text) (.transaction heading []
          ((Source.ofText path text).offsets.byte heading.stop)) included
        (postingLines (position + (transaction.row date).length + 1) transaction.postings) >>=
      fun others => .ok (others.after []) := rfl
  rw [opened, collected]
  rfl

end Collecting

/-- A rendered entry and what came of it. The parts of the writer come apart one by one: the date,
the file name, the words, and the page that the entry is read to again. -/
theorem Transaction.render_eq_ok_iff {layout : Layout} {transaction : Transaction}
    {entry : RenderedEntry} : transaction.render layout = .ok entry ↔
      ∃ date, Date.read transaction.date = .ok date ∧ layout.fileName date = .ok entry.fileName ∧
        transaction.Solid ∧ entry.text = '\n' :: transaction.rows date ∧
        ∃ page, Page.read (FilePath.ofText entry.fileName) (Text.Utf8.encode entry.text) =
          .ok page := by
  unfold Transaction.render
  constructor
  · intro rendered
    obtain ⟨date, read, rendered⟩ := bind_eq_ok_iff.mp rendered
    obtain ⟨fileName, named, rendered⟩ := bind_eq_ok_iff.mp rendered
    obtain ⟨text, written, rendered⟩ := bind_eq_ok_iff.mp rendered
    obtain ⟨page, paged, rendered⟩ := bind_eq_ok_iff.mp rendered
    cases rendered
    obtain ⟨solid, same, readAgain, whole⟩ := Transaction.toText_eq_ok_iff.mp written
    obtain rfl := Except.ok.inj (read.symm.trans readAgain)
    exact ⟨date, read, named, solid, whole, page, paged⟩
  · rintro ⟨date, read, named, solid, whole, page, paged⟩
    refine bind_eq_ok_iff.mpr ⟨date, read, ?_⟩
    refine bind_eq_ok_iff.mpr ⟨entry.fileName, named, ?_⟩
    refine bind_eq_ok_iff.mpr ⟨entry.text,
      Transaction.toText_eq_ok_iff.mpr ⟨solid, date, read, whole⟩, ?_⟩
    exact bind_eq_ok_iff.mpr ⟨page, paged, rfl⟩

/-- A rendered entry is the transaction that was asked for, and nothing else. -/
def RenderedEntry.Faithful (entry : RenderedEntry) (transaction : Transaction) : Prop :=
  ∃ date page found, Date.read transaction.date = .ok date ∧
    Page.ofBytes (FilePath.ofText entry.fileName) (Text.Utf8.encode entry.text) = .ok page ∧
    page.errors = [] ∧ page.warnings = [] ∧ page.directives = [.transaction found] ∧
    found.Says transaction date

/-- The text of a transaction is not blank. -/
theorem Transaction.visible (transaction : Transaction) (date : Date) :
    ('\n' :: transaction.rows date).all Text.isBlank = false := by
  obtain ⟨c, inner, spelled, digit⟩ := iso_cons date
  have solid : Text.isBlank c = false := by
    rw [isDigit_iff] at digit
    rw [Bool.eq_false_iff]
    intro blank
    have outside := Text.isBlank_outside blank
    omega
  simp [Transaction.rows, Transaction.row, spelled, solid]

/-- An entry of words of the ledger language is the transaction that was asked for. The entry is
read back line by line, and as readings are unique this is what the page was collected from. -/
theorem Transaction.Lexical.faithful {layout : Layout} {transaction : Transaction}
    {entry : RenderedEntry} (lexical : transaction.Lexical)
    (rendered : transaction.render layout = .ok entry) : entry.Faithful transaction := by
  obtain ⟨date, read, _, solid, whole, page, paged⟩ := Transaction.render_eq_ok_iff.mp rendered
  obtain ⟨bytes, sound⟩ := Page.read_eq_ok_iff.mp paged
  have text := bytes
  rw [Page.ofBytes_encode] at text
  have visible := transaction.visible date
  rw [← whole] at visible
  obtain ⟨lines, collected, reading, collect, rfl⟩ := Page.reading_of_visible text sound visible
  rw [whole, reading_emptyLine_iff (Or.inl rfl), Transaction.rows, reading_start_iff] at reading
  have stands : (Source.ofText (FilePath.ofText entry.fileName).toText entry.text).text.drop 1 =
      transaction.rows date ++ [] := by
    rw [List.append_nil]
    exact congrArg (List.drop 1) whole
  obtain ⟨heading, spells, placed, readRow⟩ := reading_row date lexical.flag lexical.tags 1
  obtain ⟨others, rfl, behind⟩ := (readRow _ _).mp reading
  rw [← List.append_nil (transaction.postings.flatMap _)] at behind
  obtain ⟨more, rfl, further⟩ := behind.postingRows lexical.postings
  obtain rfl : more = [] := by
    have complete := reading_nil_iff.mp further
    cases complete
    rfl
  rw [List.append_nil] at collect
  cases (spells.collect placed lexical stands []).symm.trans collect
  exact ⟨date, _, _, read, bytes, sound, rfl, rfl,
    lexical.says_entry solid.said stands⟩

/-- What a posting line of a file says has the parts of a posting that can be written. An amount
that is said was trimmed from a slice of the file, so it has no blanks around it, and what it
consists of is known from the line it stands on. -/
theorem PostingLine.Worded.lexical {source : Source} {line : PostingLine}
    (worded : line.Worded source.text) (account : line.account.Stands source.text)
    (currency : ∀ currency ∈ line.currency, currency.Stands source.text)
    {comment : Option Token} {posting : Posting}
    (said : (PostingEntry.ofLine source line comment).said = posting.said) : posting.Lexical := by
  simp only [PostingEntry.said, PostingEntry.ofLine, Posting.said, Prod.mk.injEq] at said
  obtain ⟨sameAccount, sameAmount, sameCurrency⟩ := said
  refine ⟨?_, ?_⟩
  · rw [← sameAccount, ← worded.account]
    exact account.isWord (Or.inl worded.account)
  · cases present : line.currency with
    | none =>
      simp only [present, Text.slice, Nat.sub_self, List.take_zero] at sameAmount sameCurrency
      exact Or.inl ⟨sameAmount.symm, sameCurrency.symm⟩
    | some token =>
      obtain ⟨sort, chars, c, member, solid⟩ := worded.currency token present
      simp only [present] at sameAmount sameCurrency
      rw [← sameAmount, ← sameCurrency]
      refine Or.inr ⟨?_, fun one inside => chars one (Text.mem_of_mem_trim inside),
        Text.trim_trim _, ?_⟩
      · exact List.ne_nil_of_mem (Text.mem_trim_of_mem member solid)
      · rw [← sort]
        exact (currency token present).isWord (Or.inr (Or.inl sort))

/-- The lines that are parted are lines of the file. -/
theorem Parting.known {source : Source} {lines : List Line} {collected : Collected}
    {before after : List Directive} {entry : TransactionEntry}
    (parting : Parting source lines collected before entry after) :
    ∀ line ∈ parting.earlier ++ parting.line :: (parting.attached ++ parting.later),
      line ∈ lines := by
  intro line member
  rw [parting.parts]
  exact member

/-- The postings of a transaction come from posting lines of its file. -/
theorem Parting.postingLines {source : Source} {lines : List Line} {collected : Collected}
    {before after : List Directive} {entry : TransactionEntry}
    (parting : Parting source lines collected before entry after) :
    ∀ posting ∈ entry.postings, ∃ line ∈ lines, ∃ own, line.statement = .posting own ∧
      posting = PostingEntry.ofLine source own line.comment := by
  have entered := parting.entered
  simp only [Pending.finish] at entered
  split at entered
  · cases entered
  · simp only [Except.ok.injEq, List.cons.injEq, Directive.transaction.injEq, and_true] at entered
    intro posting member
    rw [← entered] at member
    rcases Progress.postings_of_advanceAll parting.belongs.each parting.advanced posting member with
      none | ⟨line, own, attached, statement, same⟩
    · cases none
    · exact ⟨line, parting.known line (by simp [attached]), own, statement, same⟩

/-- A transaction that says what a transaction of a file says has words of the ledger language only.
The lines of the transaction are parted from the others, and the words that they keep are those that
the grammar found. -/
theorem Statement.Reading.lexical {path text : Text} {lines : List Line} {collected : Collected}
    (reading : Reading .fileStart 0 text lines)
    (whole : collect (Source.ofText path text) lines = .ok collected)
    {found : TransactionEntry} (member : .transaction found ∈ collected.directives)
    {transaction : Transaction} (flagged : found.flag = transaction.flag)
    (tagged : found.tags = transaction.tags)
    (posted : found.postings.map PostingEntry.said = transaction.postings.map Posting.said) :
    transaction.Lexical := by
  obtain ⟨before, after, parts⟩ := List.append_of_mem member
  obtain ⟨parting⟩ := parting_of_collect whole parts
  have stood := reading.laid_whole.each
  have worded := reading.worded_whole
  -- Every token that a line keeps stands in the text.
  have stands {line : Line} (member : line ∈ lines) {extent : Extent}
      (kept : line.statement.extent? = some extent) :
      ∀ token ∈ extent.tokens, token.Stands text := by
    obtain ⟨start, stop, _, _, _, standing⟩ := stood line member
    exact fun token inside => ((standing.extent extent kept).tokens token inside).1
  have ownLine : parting.line ∈ lines := parting.known _ (by simp)
  have heading := worded parting.line ownLine
  rw [parting.statement] at heading
  have headed := stands ownLine (by rw [parting.statement]; rfl)
  have entered := parting.entered
  simp only [Pending.finish] at entered
  split at entered
  · cases entered
  · next flag present =>
    simp only [Except.ok.injEq, List.cons.injEq, Directive.transaction.injEq, and_true] at entered
    refine ⟨?_, ?_, ?_⟩
    · rw [← flagged, ← entered]
      exact (headed flag (by simp [present])).isFlagWord (heading flag present)
    · intro tag member
      rw [← tagged, ← entered, List.mem_map] at member
      obtain ⟨mark, listed, rfl⟩ := member
      obtain ⟨inside, sort⟩ := List.mem_filter.mp listed
      have sort : mark.terminal = .tag := by simpa using sort
      have word := (headed mark (by simp [inside])).isWord (Or.inr (Or.inr sort))
      rw [sort] at word
      rw [word.tag_cons]
      exact word
    · intro posting member
      have said : posting.said ∈ found.postings.map PostingEntry.said := by
        rw [posted]
        exact List.mem_map_of_mem member
      obtain ⟨collectedPosting, listed, same⟩ := List.mem_map.mp said
      obtain ⟨line, inside, kept, statement, rfl⟩ := parting.postingLines collectedPosting listed
      have own := worded line inside
      rw [statement] at own
      have own : kept.Worded (Source.ofText path text).text := own
      have tokens := stands inside (by rw [statement]; rfl)
      refine own.lexical (tokens _ (by simp)) ?_ same
      intro currency present
      exact tokens currency (by simp [Option.mem_def.mp present])

/-- An entry that is the transaction that was asked for has words of the ledger language only. -/
theorem RenderedEntry.Faithful.lexical {entry : RenderedEntry} {transaction : Transaction}
    (faithful : entry.Faithful transaction) : transaction.Lexical := by
  obtain ⟨date, page, found, _, bytes, sound, _, single, told⟩ := faithful
  rw [Page.ofBytes_encode] at bytes
  obtain ⟨lines, collected, reading, collect, rfl⟩ :=
    Page.reading_of_ofText bytes sound (by simp [single])
  have member : .transaction found ∈ collected.directives := by
    rw [show collected.directives = [.transaction found] from single]
    exact List.mem_cons_self
  exact reading.lexical collect member told.flag told.tags told.postings

/-- A rendered entry is the transaction that was asked for exactly if all parts of that transaction
are words of the ledger language. One half reads words back off the lexemes of the entry, which are
those of the transaction; the other follows the entry row by row through the grammar. The template
only chooses the file and does not enter. -/
theorem Transaction.render_faithful_iff {layout : Layout} {transaction : Transaction}
    {entry : RenderedEntry} (rendered : transaction.render layout = .ok entry) :
    entry.Faithful transaction ↔ transaction.Lexical :=
  ⟨RenderedEntry.Faithful.lexical, fun lexical => lexical.faithful rendered⟩

/-- A transaction between two accounts that has an expression for its amount. -/
def Transaction.lunch : Transaction where
  date := "2024-1-5"
  flag := "txn"
  payee := some "Caf\u00e9 \"Nord\""
  tags := ["food"]
  postings := [{ account := "Expenses:Food", amount := "(1+2)*3", currency := "EUR" },
    { account := "Assets:Cash" }]

/-- The entry of such a transaction is that transaction. -/
theorem Transaction.lunch_faithful :
    ∃ entry, Transaction.lunch.render {} = .ok entry ∧ entry.Faithful Transaction.lunch := by
  have accepted : (Transaction.lunch.render {}).isOk = true := by decide +kernel
  have lexical : Transaction.lunch.Lexical := by
    refine ⟨Or.inl rfl, by decide, ?_⟩
    simp only [Transaction.lunch, List.forall_mem_cons, List.not_mem_nil, false_implies,
      implies_true, and_true]
    refine ⟨⟨by decide, Or.inr ⟨by decide, ?_, by decide, by decide⟩⟩, by decide, Or.inl ⟨rfl, rfl⟩⟩
    exact fun c member => List.all_eq_true.mp (by decide) c member
  cases rendered : Transaction.lunch.render {} with
  | error failure =>
    rw [rendered] at accepted
    cases accepted
  | ok entry => exact ⟨entry, rfl, (Transaction.render_faithful_iff rendered).mpr lexical⟩

/-- A transaction whose currency has a line of its own. -/
def Transaction.smuggler : Transaction where
  date := "2024-01-05"
  postings := [{ account := "Assets:Cash", amount := "1",
                 currency := "USD\n2024-01-06 close Assets:Cash" }]

/-- The entry of such a transaction is rendered, and closes an account besides. -/
theorem Transaction.smuggler_unfaithful :
    ∃ entry, Transaction.smuggler.render {} = .ok entry ∧ ¬ entry.Faithful Transaction.smuggler := by
  have accepted : (Transaction.smuggler.render {}).isOk = true := by decide +kernel
  have closes : ((Transaction.smuggler.render {}).bind fun entry =>
      (Page.ofBytes (FilePath.ofText entry.fileName) (Text.Utf8.encode entry.text)).map
        fun page => page.directives.length).toOption = some 2 := by decide +kernel
  cases rendered : Transaction.smuggler.render {} with
  | error failure =>
    rw [rendered] at accepted
    cases accepted
  | ok entry =>
    refine ⟨entry, rfl, ?_⟩
    rintro ⟨date, page, found, _, bytes, _, _, single, _⟩
    rw [rendered] at closes
    simp only [Except.bind, bytes, Except.map, single] at closes
    cases closes

end Daybook
