import Daybook.Proofs.Entry.Rendering
import Daybook.Proofs.Page.FurtherLines

/-!
# Legible transactions

A transaction of words of the ledger language is read back as it was, if it is read back at all.
That it is read depends on the amounts of its postings alone: the characters of an amount may be in
an order that is no expression. With amounts that are read wherever they stand, the rows of a
transaction are always read back, so that they are a passage of every text that they stand in, and
the entry of the transaction is always rendered.
-/
namespace Daybook

open Lexeme Statement

/-- An amount that is read wherever it stands behind an account and before a space. -/
def IsReadable (number : Text) : Prop :=
  ∀ (line : PostingLine) (position : Nat) (rest : Text), ∃ stop, ∀ lines,
    Reading (.operator (.posting { line with stop }) 0) (position + number.length) (' ' :: rest)
        lines →
      Reading (.posted line) position (number ++ ' ' :: rest) lines

/-- A posting of words of the ledger language whose amount, if it has one, is read everywhere. -/
structure Posting.Legible (posting : Posting) : Prop where
  lexical : posting.Lexical
  readable : posting.amount ≠ [] → IsReadable posting.amount

/-- A transaction of words of the ledger language whose amounts are read everywhere. -/
structure Transaction.Legible (transaction : Transaction) : Prop where
  lexical : transaction.Lexical
  postings : ∀ posting ∈ transaction.postings, posting.Legible

namespace Lexeme

/-- The currency behind a number is found. A currency begins with a capital letter, so that no date,
number, operator or bracket can be found before it. -/
theorem begins_currencyOf {currency : Text} (word : IsWord .currency currency) (position : Nat)
    (rest : Text) : Begins .operator position (currency ++ '\n' :: rest)
      ⟨.currency, position, currency⟩ ('\n' :: rest) := by
  have found := word.append rfl rfl ⟨'\n', rest, rfl, Or.inr rfl⟩
  obtain ⟨c, inner, rfl, capital, chars⟩ := word.currency_cons
  have digit := isDigit_of_isCapital capital
  have noDate : Terminal.date.length? (c :: inner ++ '\n' :: rest) = none := by
    simp [Terminal.length?, dateLength, atLeast, Text.stretch, digit]
  have noNumber : Terminal.number.length? (c :: inner ++ '\n' :: rest) = none := by
    have point : c ≠ '.' := ne_of_isCapital capital (by decide)
    simp [Terminal.length?, numberLength, Text.stretch, digit, decimals, point]
  have noAccount : Terminal.account.length? (c :: inner ++ '\n' :: rest) = none := by
    refine length?_append_none ?_ rfl rfl ⟨'\n', rest, rfl, Or.inr rfl⟩
    have colon : ':' ∉ inner.take (accountRest inner) := fun member => by
      have char := chars ':' (List.mem_of_mem_take member)
      revert char
      decide
    simp [Terminal.length?, accountLength, colon]
  rw [isCapital_iff] at capital
  refine ⟨rfl, rfl, ⟨c, inner, rfl, isSpace_of_visible (by omega)⟩, .currency, ?_, rfl⟩
  exact (first?_cons_of_none noDate).trans ((first?_cons_of_none noNumber).trans
    ((first?_cons_of_none noAccount).trans (first?_cons_of_some found (by simp))))

end Lexeme

namespace Statement

variable {position : Nat} {lines : List Line}

/-- The row of a legible posting is read back, whatever follows it. Forwards this is
`Reading.postingRow`; backwards the amount is led through the places of an expression to its
currency. -/
theorem reading_legibleRow_iff {posting : Posting} (legible : posting.Legible) (rest : Text) :
    Reading .lineStart position (posting.row ++ '\n' :: rest) lines ↔ ∃ more,
      lines = { statement := .posting (posting.line position) } :: more ∧
      Reading .lineStart (position + posting.row.length + 1) rest more := by
  refine ⟨Reading.postingRow legible.lexical, ?_⟩
  rcases legible.lexical.amount with ⟨bare, _⟩ | ⟨some, _, _, word⟩
  · exact (reading_bare_iff legible.lexical.account bare rest).mpr
  · rintro ⟨more, rfl, further⟩
    obtain ⟨capital, inner, spelled, _⟩ := word.currency_cons
    have currency : posting.currency ≠ [] := by simp [spelled]
    have columns : posting.columns = ' ' :: (posting.amount ++ ' ' :: posting.currency) := by
      simp [Posting.columns, some, currency]
    let account : Token := ⟨.account, position + 2, posting.account⟩
    obtain ⟨stop, numbered⟩ := legible.readable some
      { first := account, account, stop := account.stop } (account.stop + 1)
      (posting.currency ++ '\n' :: rest)
    let last : Token := ⟨.currency, account.stop + 1 + posting.amount.length + 1, posting.currency⟩
    have line : posting.line position =
        { first := account, account, currency := Option.some last, stop := last.stop } := by
      simp [Posting.line, some, account, last, Token.stop]
    have leads : (Place.operator (.posting
        { first := account, account, stop }) 0).step last = Option.some (.afterAmount (.posting
          { first := account, account, currency := Option.some last, stop := last.stop })) := rfl
    have begins : Begins (Place.operator (.posting { first := account, account, stop }) 0).expected
        last.start (posting.currency ++ '\n' :: rest) last ('\n' :: rest) :=
      begins_currencyOf word last.start rest
    have size : position + posting.row.length + 1 = last.stop + 1 := by
      simp only [last, account, Token.stop, Posting.row, columns, List.length_cons,
        List.length_append]
      omega
    rw [size] at further
    rw [reading_account_iff legible.lexical.account rest account rfl, columns, List.cons_append,
      List.append_assoc, List.cons_append, reading_space_iff rfl]
    refine numbered _ ?_
    rw [reading_space_iff rfl, reading_leads_iff begins rfl leads, line]
    exact .feed rfl further

/-- The rows of legible postings are read back, whatever follows them. -/
theorem reading_legibleRows {postings : List Posting}
    (legible : ∀ posting ∈ postings, posting.Legible) {rest : Text} {more : List Line}
    (further : Reading .lineStart
      (position + (postings.flatMap fun posting => posting.row ++ ['\n']).length) rest more) :
    Reading .lineStart position ((postings.flatMap fun posting => posting.row ++ ['\n']) ++ rest)
      (postingLines position postings ++ more) := by
  induction postings generalizing position with
  | nil => exact further
  | cons posting postings ih =>
    obtain ⟨first, others⟩ := List.forall_mem_cons.mp legible
    have size : position + ((posting :: postings).flatMap fun posting =>
        posting.row ++ ['\n']).length = position + posting.row.length + 1 +
          (postings.flatMap fun posting => posting.row ++ ['\n']).length := by
      simp only [List.flatMap_cons, List.length_append, List.length_singleton]
      omega
    rw [List.flatMap_cons, List.append_assoc, List.append_assoc, List.singleton_append]
    exact (reading_legibleRow_iff first _).mpr ⟨_, rfl, ih others (size ▸ further)⟩

end Statement

/-- The rows of a legible transaction are a passage of every text that they stand in: the entry of
the transaction. -/
theorem Transaction.Legible.passage {transaction : Transaction} (legible : transaction.Legible)
    {path whole rest : Text} {date : Date} {position : Nat}
    (stands : whole.drop position = transaction.rows date ++ rest) :
    Passage path whole position (transaction.rows date)
      [.transaction (transaction.entry (Source.ofText path whole) date position)] := by
  obtain ⟨heading, spells, placed, readRow⟩ :=
    reading_row date legible.lexical.flag legible.lexical.tags position
  refine ⟨{ statement := .transaction heading } ::
    postingLines (position + (transaction.row date).length + 1) transaction.postings,
    Or.inr trivial, fun rest more further => ?_, spells.collect placed legible.lexical stands⟩
  · have size : position + (transaction.rows date).length = position +
        (transaction.row date).length + 1 +
          (transaction.postings.flatMap fun posting => posting.row ++ ['\n']).length := by
      simp only [Transaction.rows, List.length_append, List.length_cons]
      omega
    rw [Transaction.rows, List.append_assoc, List.cons_append]
    exact (readRow _ _).mpr ⟨_, rfl, reading_legibleRows legible.postings (size ▸ further)⟩

/-! ## Rendering -/

/-- A flag passes for a word. -/
theorem Lexeme.IsFlagWord.solid {flag : Text} (word : IsFlagWord flag) : IsSolid flag := by
  rcases word with rfl | ⟨c, rfl, known⟩
  · exact ⟨by decide, by decide⟩
  · have plain : ∀ flag ∈ flags, Text.isBlank flag = false := forall_mem_of_all (by decide)
    exact ⟨List.cons_ne_nil _ _, by rw [List.any_cons, plain c (isFlag_iff.mp known)]; rfl⟩

/-- What makes a tag passes for a word. The stretch of tag characters is the whole tag, and none of
these characters is a blank. -/
theorem Lexeme.IsWord.tag_solid {tag : Text} (word : IsWord .tag ('#' :: tag)) : IsSolid tag := by
  simp only [IsWord, Terminal.length?, marked, if_true, atLeast] at word
  split at word
  · next long =>
    have whole : Text.stretch isTagChar tag = tag.length := by
      simp only [Option.map_some, Option.some.injEq, List.length_cons] at word
      omega
    have all : ∀ c ∈ tag, isTagChar c = true := by
      refine List.takeWhile_eq_self_iff.mp ?_
      exact (List.takeWhile_prefix isTagChar).eq_of_length whole
    refine ⟨?_, ?_⟩
    · rintro rfl
      cases long
    · rw [List.any_eq_false]
      intro c member blank
      have char := all c member
      have outside := Text.isBlank_outside blank
      simp only [isTagChar, isKeyChar, Bool.or_eq_true, isCapital_iff, isSmall_iff, isDigit_iff,
        beq_iff_eq, or_assoc] at char
      rcases char with char | char | char | rfl | rfl | rfl | rfl
      iterate 3 omega
      all_goals
        revert outside
        decide
  · cases word

/-- A currency passes for a word. -/
theorem Lexeme.IsWord.currency_solid {currency : Text} (word : IsWord .currency currency) :
    IsSolid currency := by
  refine ⟨?_, List.any_eq_false.mpr fun c member blank => ?_⟩
  · obtain ⟨c, inner, rfl, _⟩ := word.currency_cons
    exact List.cons_ne_nil c inner
  · have outside := Text.isBlank_outside blank
    have bounds := word.bounds_of_currency member
    omega

/-- An account is not empty. -/
theorem Lexeme.IsWord.account_solid_iff {account : Text} (word : IsWord .account account) :
    IsSolid account ↔ ∀ c ∈ account, Text.isBlank c = false := by
  obtain ⟨c, inner, rfl, _⟩ := word.account_cons
  simp [IsSolid]

/-- What is refused in a transaction of words of the ledger language is a blank in an account and
half a pair that stands alone in what it says. -/
theorem Transaction.Lexical.solid_iff {transaction : Transaction} (lexical : transaction.Lexical) :
    transaction.Solid ↔ transaction.IsText ∧
      ∀ posting ∈ transaction.postings, ∀ c ∈ posting.account, Text.isBlank c = false := by
  constructor
  · refine fun solid => ⟨solid.said, fun posting member => ?_⟩
    exact (lexical.postings posting member).account.account_solid_iff.mp
      (solid.accounts posting member)
  · rintro ⟨said, plain⟩
    refine ⟨lexical.flag.solid, fun tag member => (lexical.tags tag member).tag_solid, ?_, said⟩
    intro posting member
    exact (lexical.postings posting member).account.account_solid_iff.mpr (plain posting member)

/-- A legible transaction whose words pass for words is rendered. -/
theorem Transaction.Legible.rendered {layout : Layout} {transaction : Transaction}
    (legible : transaction.Legible) (solid : transaction.Solid) {date : Date} {name : Text}
    (read : Date.read transaction.date = .ok date) (named : layout.fileName date = .ok name) :
    transaction.render layout =
      .ok { fileName := name, text := '\n' :: transaction.rows date } := by
  refine Transaction.render_eq_ok_iff.mpr ⟨date, read, named, solid, rfl, ?_⟩
  have stands : ('\n' :: transaction.rows date).drop 1 = transaction.rows date ++ [] := by simp
  have passage := (Passage.emptyLine (FilePath.ofText name).toText ('\n' :: transaction.rows date)
    0).append (legible.passage stands)
  have paged := Page.ofText_passage passage
  rw [← Page.ofBytes_encode] at paged
  exact ⟨_, Page.read_eq_ok_iff.mpr ⟨paged, rfl⟩⟩

/-- A transaction of words of the ledger language is refused for an account with a blank. The words
of the heading are fine, so the rows of the postings are where it fails, and there only an account
can be at fault. -/
theorem Transaction.Lexical.refused {layout : Layout} {transaction : Transaction}
    (lexical : transaction.Lexical) {date : Date} {name : Text}
    (read : Date.read transaction.date = .ok date) (named : layout.fileName date = .ok name)
    (blank : ∃ posting ∈ transaction.postings, ∃ c ∈ posting.account, Text.isBlank c = true) :
    ∃ posting ∈ transaction.postings, (∃ c ∈ posting.account, Text.isBlank c = true) ∧
      transaction.render layout = .error (.notAWord "account" posting.account) := by
  have tags : tagColumns transaction.tags = .ok (transaction.tags.map ('#' :: ·)) :=
    tagColumns_eq_ok_iff.mpr ⟨fun tag member => (lexical.tags tag member).tag_solid, rfl⟩
  have flag : checkWord "flag" transaction.flag = .ok () :=
    checkWord_eq_ok_iff.mpr lexical.flag.solid
  cases rows : transaction.postings.mapM Posting.toText with
  | ok texts =>
    obtain ⟨accepted, _⟩ := (mapM_eq_ok_iff fun posting row => Posting.toText_eq_ok_iff).mp rows
    obtain ⟨posting, member, c, inside, known⟩ := blank
    have plain := (lexical.postings posting member).account.account_solid_iff.mp
      (accepted posting member) c inside
    rw [known] at plain
    cases plain
  | error failure =>
    obtain ⟨posting, member, refused⟩ := exists_of_mapM_eq_error rows
    obtain ⟨rfl, other⟩ := Posting.toText_eq_error refused
    rw [(lexical.postings posting member).account.account_solid_iff] at other
    refine ⟨posting, member, by simpa using other, ?_⟩
    have text : transaction.toText = .error (.notAWord "account" posting.account) := by
      unfold Transaction.toText Transaction.toPhrase
      simp only [flag, read, tags, rows, bind, Except.bind]
    unfold Transaction.render
    simp only [read, named, text, bind, Except.bind]

end Daybook
