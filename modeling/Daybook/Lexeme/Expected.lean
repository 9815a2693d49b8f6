import Daybook.Lexeme

/-!
# What is expected next

Which sorts of lexemes are asked for depends on the place that reading has reached, and
the first sort in the list of that place that has a lexeme wins, not the longest lexeme.
The same characters are therefore a sign of an amount in one place and an operation in
another.

Blank space within a line may stand everywhere and is skipped. Where no expected sort has
a lexeme, one of the sorts of `Expected.anywhere` may still have one; it is then known
what is wrong and not only where.
-/
namespace Daybook

/-- The places in a ledger file, as far as they decide what is asked for next. -/
inductive Expected where
  /-- The beginning of the file. -/
  | fileStart
  /-- The beginning of a later line. -/
  | lineStart
  /-- After a comment or a section header. -/
  | lineEnd
  /-- After a complete directive. -/
  | directiveEnd
  /-- After the date of a directive. -/
  | heading
  /-- After a flag, and after the only text so far of a transaction. -/
  | texts
  /-- After the last text and among the tags and links of a transaction. -/
  | marks
  /-- Where only an account may stand. -/
  | accountOnly
  /-- Where only a quoted text may stand. -/
  | textOnly
  /-- Where only a currency may stand. -/
  | currencyOnly
  /-- After the account of an opening. -/
  | firstCurrency
  /-- After a currency of an opening. -/
  | nextCurrency
  /-- After the name of a plugin. -/
  | pluginText
  /-- After a metadata key. -/
  | metadataColon
  /-- After the colon of a metadata key. -/
  | metadataValue
  /-- Where the first argument of a custom directive stands. -/
  | firstArgument
  /-- After an argument of a custom directive that is no number. -/
  | nextArgument
  /-- After the account of a posting. -/
  | amount
  /-- Where an operand of a number must stand. -/
  | operand
  /-- After an operand of a number. -/
  | operator
  /-- After the currency of an amount. -/
  | afterAmount
  /-- After the opening brace of a cost. -/
  | firstCost
  /-- After a comma in a cost. -/
  | nextCost
  /-- After a part of a cost that is no amount. -/
  | costComma
  /-- After a cost. -/
  | price
  deriving DecidableEq, Repr

namespace Expected

open Terminal

/-- The sorts that are asked for at a place, in the order in which they are asked. -/
def terminals : Expected → List Terminal
  | .fileStart => [date, account, metadataKey, emptyLine, sectionHeader, comment, flag]
  | .lineStart => [date, account, metadataKey, newline, sectionHeader, comment, flag]
  | .lineEnd => [newline]
  | .directiveEnd => [newline, comment]
  | .heading =>
    [link, tag, quotedText, newline, comment, commodityWord, documentWord, balanceWord,
      customWord, closeWord, eventWord, priceWord, noteWord, openWord, padWord, txnWord, flag]
  | .texts => [link, tag, quotedText, newline, comment]
  | .marks => [link, tag, newline, comment]
  | .accountOnly => [account]
  | .textOnly => [quotedText]
  | .currencyOnly => [currency]
  | .firstCurrency => [currency, quotedText, newline, comment]
  | .nextCurrency => [quotedText, newline, comment, comma]
  | .pluginText => [quotedText, newline, comment]
  | .metadataColon => [colon]
  | .metadataValue =>
    [date, number, tags, account, currency, quotedText, openParen, unarySign]
  | .firstArgument =>
    [date, number, account, currency, quotedText, boolean, openParen, unarySign]
  | .nextArgument =>
    [date, number, account, currency, quotedText, newline, comment, boolean, openParen, unarySign]
  | .amount => [number, newline, comment, openParen, unarySign]
  | .operand => [number, openParen, unarySign]
  | .operator =>
    [date, number, account, currency, quotedText, newline, comment, boolean, addSign,
      multiplySign, hash, openParen, closeParen, tilde, unarySign]
  | .afterAmount =>
    [newline, comment, doubleOpenBrace, doubleCloseBrace, doubleAt, atMark, comma,
      openBrace, closeBrace]
  | .firstCost => [date, number, quotedText, asterisk, openParen, closeBrace, unarySign]
  | .nextCost => [date, number, quotedText, asterisk, openParen, unarySign]
  | .costComma => [comma, closeBrace]
  | .price => [newline, comment, doubleAt, atMark]

/-- The sorts of any place, in the order in which they are asked when no expected one has
a lexeme. -/
def anywhere : List Terminal :=
  [date, number, tags, account, currency, link, tag, metadataKey, quotedText, newline,
    emptyLine, sectionHeader, comment, boolean, doubleOpenBrace, doubleCloseBrace, doubleAt,
    flag, addSign, multiplySign, atMark, colon, comma, openBrace, openParen, closeBrace,
    closeParen, tilde, unarySign]

/-- The sort of a lexeme that was asked for where directives begin. Three words are
keywords there and not metadata keys. -/
def keyword (terminal : Terminal) (lexeme : Text) : Terminal :=
  if terminal = metadataKey then
    if lexeme = "include" then includeWord
    else if lexeme = "option" then optionWord
    else if lexeme = "plugin" then pluginWord
    else metadataKey
  else terminal

/-- The sort of a lexeme that was found where it was not expected. Every word with a
meaning of its own counts as that word, and the two marks that are also flags count as
marks. -/
def misplaced (terminal : Terminal) (lexeme : Text) : Terminal :=
  match terminal with
  | flag => if lexeme = "*" then asterisk else if lexeme = "#" then hash else flag
  | multiplySign => if lexeme = "*" then asterisk else multiplySign
  | sectionHeader => if lexeme = "*" then asterisk else sectionHeader
  | metadataKey =>
    if lexeme = "balance" then balanceWord
    else if lexeme = "close" then closeWord
    else if lexeme = "commodity" then commodityWord
    else if lexeme = "custom" then customWord
    else if lexeme = "document" then documentWord
    else if lexeme = "event" then eventWord
    else if lexeme = "include" then includeWord
    else if lexeme = "note" then noteWord
    else if lexeme = "open" then openWord
    else if lexeme = "option" then optionWord
    else if lexeme = "pad" then padWord
    else if lexeme = "plugin" then pluginWord
    else if lexeme = "price" then priceWord
    else if lexeme = "txn" then txnWord
    else metadataKey
  | other => other

end Expected

/-- A lexeme at its place: its sort, the number of characters before it, and its text. -/
structure Token where
  terminal : Terminal
  start : Nat
  text : Text
  deriving DecidableEq, Repr

namespace Token

/-- The number of characters up to the end of a token. -/
def stop (token : Token) : Nat := token.start + token.text.length

end Token

/-- What stands where something else was expected: a lexeme, or a character that begins
no lexeme at all. -/
inductive Unexpected where
  | token (token : Token)
  | character (c : Char) (position : Nat)
  deriving DecidableEq, Repr

namespace Lexeme

/-- The first sort of a list that has a lexeme at the beginning of a text, and the length
of that lexeme. No lexeme is empty. -/
def first? (terminals : List Terminal) (text : Text) : Option (Terminal × Nat) :=
  terminals.findSome? fun terminal =>
    match terminal.length? text with
    | some (length + 1) => some (terminal, length + 1)
    | _ => none

/-- The token at the beginning of a text that is not empty and begins with no blank space.
`position` is the number of characters before it. -/
def next (expected : Expected) (position : Nat) (c : Char) (rest : Text) :
    Except Unexpected Token :=
  let text := c :: rest
  match first? expected.terminals text with
  | some (terminal, length) =>
    let lexeme := text.take length
    .ok ⟨Expected.keyword terminal lexeme, position, lexeme⟩
  | none =>
    match first? Expected.anywhere text with
    | some (terminal, length) =>
      let lexeme := text.take length
      .error (.token ⟨Expected.misplaced terminal lexeme, position, lexeme⟩)
    | none => .error (.character c position)

/-- A lexeme that was found is not empty. -/
theorem pos_of_first? {terminals : List Terminal} {text : Text} {terminal : Terminal}
    {length : Nat} (found : first? terminals text = some (terminal, length)) : 0 < length := by
  simp only [first?] at found
  obtain ⟨candidate, _, held⟩ := List.exists_of_findSome?_eq_some found
  split at held
  · simp only [Option.some.injEq, Prod.mk.injEq] at held
    omega
  · simp at held

/-- A token that was found takes at least one character. -/
theorem text_ne_nil_of_next {expected : Expected} {position : Nat} {c : Char} {rest : Text}
    {token : Token} (found : next expected position c rest = .ok token) : token.text ≠ [] := by
  simp only [next] at found
  split at found
  · next terminal length heard =>
    have positive := pos_of_first? heard
    simp only [Except.ok.injEq] at found
    subst found
    cases length with
    | zero => omega
    | succ length => simp
  · split at found <;> simp at found

end Lexeme

end Daybook
