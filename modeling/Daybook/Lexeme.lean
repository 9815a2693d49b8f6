import Daybook.Text

/-!
# Lexemes of a ledger file

A ledger file is a sequence of lexemes of some forty sorts: dates, numbers, accounts,
quoted texts, keywords, marks. For every sort this module says how long the lexeme at the
beginning of a text is, if there is one. The length alone determines the lexeme, which is
therefore always a beginning of the text.

No sort backtracks: every stretch of a lexeme is as long as it can be. The sorts overlap,
though, and which of them are asked, and in what order, depends on what has been read
before; that is the business of `Daybook.Lexeme.Expected`.
-/
namespace Daybook

/-- The sorts of lexemes. -/
inductive Terminal where
  | date
  | number
  | tags
  | account
  | currency
  | link
  | tag
  | metadataKey
  | quotedText
  | blankSpace
  | newline
  | emptyLine
  | sectionHeader
  | comment
  | commodityWord
  | documentWord
  | balanceWord
  | includeWord
  | customWord
  | optionWord
  | pluginWord
  | boolean
  | closeWord
  | eventWord
  | priceWord
  | noteWord
  | openWord
  | padWord
  | txnWord
  | doubleOpenBrace
  | doubleCloseBrace
  | doubleAt
  | flag
  | addSign
  | multiplySign
  | asterisk
  | atMark
  | colon
  | comma
  | hash
  | openBrace
  | openParen
  | closeBrace
  | closeParen
  | tilde
  | unarySign
  | endOfText
  deriving DecidableEq, Repr

namespace Terminal

/-- The name of a sort, as messages give it. -/
def name : Terminal → Text
  | date => "DATE"
  | number => "NUMBER"
  | tags => "TAGS"
  | account => "ACCOUNT"
  | currency => "CURRENCY"
  | link => "LINK"
  | tag => "TAG"
  | metadataKey => "METADATA_KEY"
  | quotedText => "ESCAPED_STRING"
  | blankSpace => "_WS"
  | newline => "_NL"
  | emptyLine => "_EMPTY_LINE"
  | sectionHeader => "SECTION_HEADER"
  | comment => "COMMENT"
  | commodityWord => "COMMODITY"
  | documentWord => "DOCUMENT"
  | balanceWord => "BALANCE"
  | includeWord => "INCLUDE"
  | customWord => "CUSTOM"
  | optionWord => "OPTION"
  | pluginWord => "PLUGIN"
  | boolean => "BOOLEAN"
  | closeWord => "CLOSE"
  | eventWord => "EVENT"
  | priceWord => "PRICE"
  | noteWord => "NOTE"
  | openWord => "OPEN"
  | padWord => "PAD"
  | txnWord => "TXN"
  | doubleOpenBrace => "__ANON_0"
  | doubleCloseBrace => "__ANON_1"
  | doubleAt => "__ANON_2"
  | flag => "FLAG"
  | addSign => "ADD_OP"
  | multiplySign => "MUL_OP"
  | asterisk => "ASTERISK"
  | atMark => "AT"
  | colon => "COLON"
  | comma => "COMMA"
  | hash => "HASH"
  | openBrace => "LBRACE"
  | openParen => "LPAR"
  | closeBrace => "RBRACE"
  | closeParen => "RPAR"
  | tilde => "TILDE"
  | unarySign => "UNARY_OP"
  | endOfText => "$END"

end Terminal

namespace Lexeme

/-! ## Characters -/

/-- The digits `0` to `9`. -/
def isDigit (c : Char) : Bool := '0' ≤ c && c ≤ '9'

/-- The letters `A` to `Z`. -/
def isCapital (c : Char) : Bool := 'A' ≤ c && c ≤ 'Z'

/-- The letters `a` to `z`. -/
def isSmall (c : Char) : Bool := 'a' ≤ c && c ≤ 'z'

/-- Characters outside the basic set of 128. -/
def isWide (c : Char) : Bool := 0x7F < c.toNat

/-- Blank space within a line: the space and the tab. -/
def isSpace (c : Char) : Bool := c == ' ' || c == '\t'

/-- Characters of a metadata key after its first one. -/
def isKeyChar (c : Char) : Bool :=
  isCapital c || isSmall c || isDigit c || c == '-' || c == '_'

/-- Characters of a tag or a link. -/
def isTagChar (c : Char) : Bool := isKeyChar c || c == '.' || c == '/'

/-- Characters that may begin the first part of an account. -/
def isAccountStart (c : Char) : Bool := isWide c || isCapital c

/-- Characters that may begin a further part of an account. -/
def isPartStart (c : Char) : Bool := isWide c || isCapital c || isDigit c

/-- Characters of a part of an account after its first one. -/
def isAccountChar (c : Char) : Bool :=
  isWide c || isCapital c || isSmall c || isDigit c || c == '-'

/-- Characters that may end a currency. -/
def isCurrencyEnd (c : Char) : Bool := isCapital c || isDigit c

/-- Characters of a currency after its first one. -/
def isCurrencyChar (c : Char) : Bool :=
  isCurrencyEnd c || c == '\'' || c == '.' || c == '_' || c == '-'

/-- The flags of transactions and postings. -/
def isFlag (c : Char) : Bool :=
  ['*', '!', '&', '#', '?', '%', 'P', 'S', 'T', 'C', 'U', 'R', 'M'].contains c

/-! ## Lengths -/

/-- The length of a stretch that must not be empty. -/
def atLeast (least : Nat) (sort : Char → Bool) (text : Text) : Option Nat :=
  let length := Text.stretch sort text
  if least ≤ length then some length else none

/-- The length of a mark and the stretch after it, which must not be empty. -/
def marked (mark : Char) (sort : Char → Bool) : Text → Option Nat
  | c :: rest => if c = mark then (atLeast 1 sort rest).map (1 + ·) else none
  | [] => none

/-- The length of one part of a date with the mark before it. -/
def datePart : Text → Option Nat
  | '-' :: rest => (atLeast 1 isDigit rest).map (1 + ·)
  | '/' :: rest => (atLeast 1 isDigit rest).map (1 + ·)
  | _ => none

/-- A date: four digits or more, and two more parts with a hyphen or a slash before
each. -/
def dateLength (text : Text) : Option Nat := do
  let year ← atLeast 4 isDigit text
  let month ← datePart (text.drop year)
  let day ← datePart (text.drop (year + month))
  return year + month + day

/-- The length of the groups of three digits with a comma before each. -/
def groups : Text → Nat
  | ',' :: a :: b :: c :: rest =>
    if isDigit a && isDigit b && isDigit c then 4 + groups rest else 0
  | _ => 0

/-- The length of a point and the digits after it; nothing without a digit. -/
def decimals : Text → Option Nat
  | '.' :: rest => (atLeast 1 isDigit rest).map (1 + ·)
  | _ => none

/-- A number: up to three digits with groups after them and decimals after those, or
digits with a point and perhaps decimals, or decimals alone, or digits alone. -/
def numberLength (text : Text) : Option Nat :=
  let whole := Text.stretch isDigit text
  let after := text.drop whole
  let grouped := groups after
  if whole = 0 then decimals text
  else if whole ≤ 3 ∧ 0 < grouped then
    some (whole + grouped + (decimals (after.drop grouped)).getD 0)
  else match after with
    | '.' :: rest => some (whole + 1 + Text.stretch isDigit rest)
    | _ => some whole

/-- A tag, and perhaps one more after blank space. -/
def tagsLength (text : Text) : Option Nat := do
  let first ← marked '#' isTagChar text
  let after := text.drop first
  let second := do
    let space ← atLeast 1 isSpace after
    let tag ← marked '#' isTagChar (after.drop space)
    return space + tag
  return first + second.getD 0

/-- The length of the rest of an account after its first character. -/
def accountRest : Text → Nat
  | ':' :: c :: rest => if isPartStart c then 2 + accountRest rest else 0
  | c :: rest => if isAccountChar c then 1 + accountRest rest else 0
  | [] => 0

/-- An account: at least two parts with a colon between them. -/
def accountLength : Text → Option Nat
  | c :: rest =>
    let length := accountRest rest
    if isAccountStart c && (rest.take length).contains ':' then some (1 + length) else none
  | [] => none

/-- A currency: a capital, and as much as it can be of what follows so that the last
character is a capital or a digit. -/
def currencyLength : Text → Option Nat
  | c :: rest =>
    if isCapital c then
      let more := (rest.takeWhile isCurrencyChar).reverse.dropWhile fun c => !isCurrencyEnd c
      some (1 + more.length)
    else none
  | [] => none

/-- A metadata key: a small letter and key characters. -/
def keyLength : Text → Option Nat
  | c :: rest => if isSmall c then some (1 + Text.stretch isKeyChar rest) else none
  | [] => none

/-- The number of characters up to and with the quotation mark that closes a quoted text.
A mark with an odd number of reverse solidi directly before it does not close; `odd` says
whether so many precede. -/
def closingMark (odd : Bool) : Text → Option Nat
  | [] => none
  | c :: rest =>
    if c = '"' then
      if odd then (closingMark false rest).map (1 + ·) else some 1
    else if c = '\\' then (closingMark (!odd) rest).map (1 + ·)
    else (closingMark false rest).map (1 + ·)

/-- A quoted text. It may span several lines. -/
def quotedLength : Text → Option Nat
  | '"' :: rest => (closingMark false rest).map (1 + ·)
  | _ => none

/-- The length of the line ends at the beginning of a text. -/
def lineEnds : Text → Nat
  | '\n' :: rest => 1 + lineEnds rest
  | '\r' :: '\n' :: rest => 2 + lineEnds rest
  | _ => 0

/-- An empty line: blank space and one character that ends a line. -/
def emptyLineLength (text : Text) : Option Nat :=
  let space := Text.stretch isSpace text
  match text.drop space with
  | c :: _ => if c = '\n' ∨ c = '\r' then some (space + 1) else none
  | [] => none

/-- A mark and everything after it on its line. -/
def toLineEnd (mark : Char) : Text → Option Nat
  | c :: rest => if c = mark then some (1 + Text.stretch (· != '\n') rest) else none
  | [] => none

/-- A literal. -/
def literal (word : Text) (text : Text) : Option Nat :=
  if word.isPrefixOf text then some word.length else none

/-- One character out of several. -/
def oneOf (sort : Char → Bool) : Text → Option Nat
  | c :: _ => if sort c then some 1 else none
  | [] => none

end Lexeme

open Lexeme in
/-- The length of the lexeme of a sort at the beginning of a text. -/
def Terminal.length? : Terminal → Text → Option Nat
  | .date, text => dateLength text
  | .number, text => numberLength text
  | .tags, text => tagsLength text
  | .account, text => accountLength text
  | .currency, text => currencyLength text
  | .link, text => marked '^' isTagChar text
  | .tag, text => marked '#' isTagChar text
  | .metadataKey, text => keyLength text
  | .quotedText, text => quotedLength text
  | .blankSpace, text => atLeast 1 isSpace text
  | .newline, text => if lineEnds text = 0 then none else some (lineEnds text)
  | .emptyLine, text => emptyLineLength text
  | .sectionHeader, text => toLineEnd '*' text
  | .comment, text => toLineEnd ';' text
  | .commodityWord, text => literal "commodity" text
  | .documentWord, text => literal "document" text
  | .balanceWord, text => literal "balance" text
  | .includeWord, text => literal "include" text
  | .customWord, text => literal "custom" text
  | .optionWord, text => literal "option" text
  | .pluginWord, text => literal "plugin" text
  | .boolean, text => (literal "FALSE" text).or (literal "TRUE" text)
  | .closeWord, text => literal "close" text
  | .eventWord, text => literal "event" text
  | .priceWord, text => literal "price" text
  | .noteWord, text => literal "note" text
  | .openWord, text => literal "open" text
  | .padWord, text => literal "pad" text
  | .txnWord, text => literal "txn" text
  | .doubleOpenBrace, text => literal ['\x7b', '\x7b'] text
  | .doubleCloseBrace, text => literal ['\x7d', '\x7d'] text
  | .doubleAt, text => literal "@@" text
  | .flag, text => oneOf isFlag text
  | .addSign, text => oneOf (fun c => c == '+' || c == '-') text
  | .multiplySign, text => oneOf (fun c => c == '*' || c == '/') text
  | .asterisk, text => oneOf (· == '*') text
  | .atMark, text => oneOf (· == '@') text
  | .colon, text => oneOf (· == ':') text
  | .comma, text => oneOf (· == ',') text
  | .hash, text => oneOf (· == '#') text
  | .openBrace, text => oneOf (· == '\x7b') text
  | .openParen, text => oneOf (· == '(') text
  | .closeBrace, text => oneOf (· == '\x7d') text
  | .closeParen, text => oneOf (· == ')') text
  | .tilde, text => oneOf (· == '~') text
  | .unarySign, text => oneOf (fun c => c == '+' || c == '-') text
  | .endOfText, _ => none

end Daybook
