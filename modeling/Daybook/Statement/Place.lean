import Daybook.Statement

/-!
# Places within a statement

Reading a statement goes from place to place, one token at a time. A place holds what has
been read of its statement so far, so that the statement is complete the moment a line may
end there, and no token has to be looked up again. Numbers may be nested in parentheses;
the places within a number count the open ones.

Three functions make up the grammar: what is expected at a place, where a token leads, and
which statement a place completes.
-/
namespace Daybook

/-- What a number is read for. Which token ends it depends on that alone. -/
inductive Purpose where
  /-- The amount of a posting. -/
  | posting (line : PostingLine)
  /-- The amount of a cost in double braces. -/
  | totalCost (line : PostingLine)
  /-- The first amount in the braces of a cost. A hash may follow its number. -/
  | firstCost (line : PostingLine)
  /-- The amount after the hash in the braces of a cost. -/
  | restCost (line : PostingLine)
  /-- A later amount in the braces of a cost. -/
  | nextCost (line : PostingLine)
  /-- The price of a posting. -/
  | price (line : PostingLine)
  /-- The amount of a balance. A tilde may follow its number. -/
  | balance
  /-- The tolerance of a balance. -/
  | tolerance
  /-- The amount of a price directive. -/
  | quotation
  /-- The value of a metadata key, a number or an amount. -/
  | metadata (key : Token) (stop : Nat)
  /-- An argument of a custom directive. -/
  | argument
  deriving DecidableEq, Repr

/-- What an account is read for. -/
inductive AccountUse where
  | opening (date : Token)
  | closing (date : Token)
  | balance
  /-- A directive that a text completes. -/
  | texted
  /-- The first account of a padding. -/
  | padded
  /-- The account that completes a padding. -/
  | padding
  /-- The account of a posting with a flag. -/
  | flagged (flag : Token)
  deriving DecidableEq, Repr

/-- What a text is read for. -/
inductive TextUse where
  /-- The name of an event. -/
  | event
  /-- The text that completes a directive with a date. -/
  | dated
  | inclusion
  /-- The name of an option. -/
  | option
  /-- The text that completes a directive without a date. -/
  | undated
  /-- The name of a plugin. -/
  | plugin
  deriving DecidableEq, Repr

/-- What a currency is read for. -/
inductive CurrencyUse where
  | commodity
  /-- The currency that a price directive is about. -/
  | quotation
  /-- A further currency of an opening. -/
  | opening (date account : Token) (currencies : List Token)
  deriving DecidableEq, Repr

/-- A place in a ledger file. -/
inductive Place where
  | fileStart
  | lineStart
  | remarked
  | commented (statement : Statement) (comment : Token)
  | ended (statement : Statement)
  | dated (date : Token)
  | texts (heading : Heading)
  | marks (heading : Heading)
  | account (use : AccountUse)
  | text (use : TextUse)
  | currency (use : CurrencyUse)
  | firstCurrency (date account : Token)
  | nextCurrency (date account : Token) (currencies : List Token) (stop : Nat)
  | pluginText
  | metadataColon (key : Token)
  | metadataValue (key : Token)
  | firstArgument
  | nextArgument
  | posted (line : PostingLine)
  | operand (purpose : Purpose) (depth : Nat)
  | operator (purpose : Purpose) (depth : Nat)
  | afterAmount (purpose : Purpose)
  | firstCost (line : PostingLine)
  | nextCost (line : PostingLine)
  | costComma (line : PostingLine)
  | price (line : PostingLine)
  deriving DecidableEq, Repr

/-- The posting line after one more token. -/
def PostingLine.upTo (line : PostingLine) (token : Token) : PostingLine :=
  { line with stop := token.stop }

/-- The purpose after one more token of the number or amount. -/
def Purpose.upTo (purpose : Purpose) (token : Token) : Purpose :=
  match purpose with
  | .posting line => .posting (line.upTo token)
  | .totalCost line => .totalCost (line.upTo token)
  | .firstCost line => .firstCost (line.upTo token)
  | .restCost line => .restCost (line.upTo token)
  | .nextCost line => .nextCost (line.upTo token)
  | .price line => .price (line.upTo token)
  | .metadata key _ => .metadata key token.stop
  | other => other

/-- The statement that ends where an amount of the given purpose ends. -/
def Purpose.statement? : Purpose → Option Statement
  | .posting line => some (.posting line)
  | .price line => some (.posting line)
  | .balance => some .otherDated
  | .quotation => some .otherDated
  | .metadata key stop => some (.metadata key stop)
  | _ => none

namespace Place

/-- What is asked for at a place. -/
def expected : Place → Expected
  | fileStart => .fileStart
  | lineStart => .lineStart
  | remarked => .lineEnd
  | commented _ _ => .lineEnd
  | ended _ => .directiveEnd
  | dated _ => .heading
  | texts _ => .texts
  | marks _ => .marks
  | account _ => .accountOnly
  | text _ => .textOnly
  | currency _ => .currencyOnly
  | firstCurrency _ _ => .firstCurrency
  | nextCurrency _ _ _ _ => .nextCurrency
  | pluginText => .pluginText
  | metadataColon _ => .metadataColon
  | metadataValue _ => .metadataValue
  | firstArgument => .firstArgument
  | nextArgument => .nextArgument
  | posted _ => .amount
  | operand _ _ => .operand
  | operator _ _ => .operator
  | afterAmount _ => .afterAmount
  | firstCost _ => .firstCost
  | nextCost _ => .nextCost
  | costComma _ => .costComma
  | price _ => .price

/-- The statement that is complete at a place. -/
def statement? : Place → Option Statement
  | remarked => some .remark
  | commented statement _ => some statement
  | ended statement => some statement
  | dated date => some (.transaction { date, stop := date.stop })
  | texts heading => some (.transaction heading)
  | marks heading => some (.transaction heading)
  | firstCurrency date owner => some (.opening date owner [] owner.stop)
  | nextCurrency date owner currencies stop => some (.opening date owner currencies stop)
  | pluginText => some .otherUndated
  | nextArgument => some .otherDated
  | posted line => some (.posting line)
  | operator .argument 0 => some .otherDated
  | operator (.metadata key stop) 0 => some (.metadata key stop)
  | afterAmount purpose => purpose.statement?
  | price line => some (.posting line)
  | _ => none

/-- The lines that are complete when a line ends at a place. A line may also end where
none has begun. -/
def lines? (place : Place) : Option (List Line) :=
  match place with
  | fileStart => some []
  | lineStart => some []
  | commented statement comment => some [{ statement, comment := some comment }]
  | other => other.statement?.map fun statement => [{ statement }]

/-- Where the first token of an operand leads. -/
def intoNumber (purpose : Purpose) (depth : Nat) (token : Token) : Option Place :=
  match token.terminal with
  | .number => some (operator (purpose.upTo token) depth)
  | .openParen => some (operand purpose (depth + 1))
  | .unarySign => some (operand (purpose.upTo token) depth)
  | _ => none

/-- Where the currency after a number leads. -/
def afterNumber (purpose : Purpose) (token : Token) : Option Place :=
  match purpose with
  | .posting line => some (afterAmount (.posting { line.upTo token with currency := some token }))
  | .tolerance => some (ended .otherDated)
  | .argument => some nextArgument
  | other => some (afterAmount (other.upTo token))

/-- Where an argument of a custom directive leads. -/
def intoArgument (token : Token) : Option Place :=
  match token.terminal with
  | .date => some nextArgument
  | .account => some nextArgument
  | .currency => some nextArgument
  | .quotedText => some nextArgument
  | .boolean => some nextArgument
  | _ => intoNumber .argument 0 token

/-- Where a token after an operand leads. -/
def afterOperand (purpose : Purpose) (depth : Nat) (token : Token) : Option Place :=
  match token.terminal, depth with
  | .addSign, _ => some (operand (purpose.upTo token) depth)
  | .multiplySign, _ => some (operand (purpose.upTo token) depth)
  | .closeParen, depth + 1 => some (operator purpose depth)
  | .currency, 0 => afterNumber purpose token
  | .hash, 0 =>
    match purpose with
    | .firstCost line => some (operand (.restCost line) 0)
    | _ => none
  | .tilde, 0 => if purpose = .balance then some (operand .tolerance 0) else none
  | _, 0 => if purpose = .argument then intoArgument token else none
  | _, _ => none

/-- Where a part of a cost leads, when an amount there serves the given purpose. -/
def intoCost (line : PostingLine) (purpose : Purpose) (token : Token) : Option Place :=
  match token.terminal with
  | .date => some (costComma (line.upTo token))
  | .quotedText => some (costComma (line.upTo token))
  | .asterisk => some (costComma (line.upTo token))
  | _ => intoNumber purpose 0 token

/-- Where a comma or a closing brace in a cost leads. -/
def afterCostPart (line : PostingLine) (token : Token) : Option Place :=
  match token.terminal with
  | .comma => some (nextCost line)
  | .closeBrace => some (price line)
  | _ => none

/-- Where the mark of a price leads. -/
def intoPrice (line : PostingLine) (token : Token) : Option Place :=
  match token.terminal with
  | .atMark => some (operand (.price { line with hasPrice := true }) 0)
  | .doubleAt => some (operand (.price { line with hasPrice := true }) 0)
  | _ => none

/-- Where a token after an amount leads. -/
def beyondAmount (purpose : Purpose) (token : Token) : Option Place :=
  match purpose with
  | .posting line =>
    match token.terminal with
    | .openBrace => some (firstCost { line with hasCost := true })
    | .doubleOpenBrace => some (operand (.totalCost { line with hasCost := true }) 0)
    | _ => intoPrice line token
  | .totalCost line => if token.terminal = .doubleCloseBrace then some (price line) else none
  | .firstCost line => afterCostPart line token
  | .nextCost line => afterCostPart line token
  | .restCost line => if token.terminal = .closeBrace then some (price line) else none
  | _ => none

/-- Where a tag or a link leads. -/
def intoMarks (heading : Heading) (token : Token) : Option Place :=
  if token.terminal = .tag ∨ token.terminal = .link then
    some (marks { heading with marks := heading.marks ++ [token], stop := token.stop })
  else none

/-- Where a text of a transaction leads: the first is the narration until a second one
makes it the payee. -/
def intoTexts (heading : Heading) (token : Token) : Option Place :=
  if token.terminal = .quotedText then
    match heading.narration with
    | none => some (texts { heading with narration := some token, stop := token.stop })
    | some payee =>
      some (marks { heading with payee := some payee, narration := some token, stop := token.stop })
  else intoMarks heading token

/-- Where the token after the date of a directive leads. -/
def intoDated (date : Token) (token : Token) : Option Place :=
  match token.terminal with
  | .openWord => some (account (.opening date))
  | .closeWord => some (account (.closing date))
  | .balanceWord => some (account .balance)
  | .documentWord => some (account .texted)
  | .noteWord => some (account .texted)
  | .padWord => some (account .padded)
  | .eventWord => some (text .event)
  | .commodityWord => some (currency .commodity)
  | .priceWord => some (currency .quotation)
  | .customWord => some firstArgument
  | .txnWord => some (texts { date, flag := some token, stop := token.stop })
  | .flag => some (texts { date, flag := some token, stop := token.stop })
  | _ => intoTexts { date, stop := date.stop } token

/-- Where the first token of a line leads. -/
def intoLine (token : Token) : Option Place :=
  match token.terminal with
  | .date => some (dated token)
  | .account => some (posted { first := token, account := token, stop := token.stop })
  | .flag => some (account (.flagged token))
  | .metadataKey => some (metadataColon token)
  | .includeWord => some (text .inclusion)
  | .optionWord => some (text .option)
  | .pluginWord => some (text .plugin)
  | .comment => some remarked
  | .sectionHeader => some remarked
  | _ => none

/-- Where an account leads. -/
def afterAccount (use : AccountUse) (token : Token) : Place :=
  match use with
  | .opening date => firstCurrency date token
  | .closing date => ended (.closing date token)
  | .balance => operand .balance 0
  | .texted => text .dated
  | .padded => account .padding
  | .padding => ended .otherDated
  | .flagged flag => posted { first := flag, account := token, stop := token.stop }

/-- Where a text leads. -/
def afterText (use : TextUse) (token : Token) : Place :=
  match use with
  | .event => text .dated
  | .dated => ended .otherDated
  | .inclusion => ended (.inclusion token)
  | .option => text .undated
  | .undated => ended .otherUndated
  | .plugin => pluginText

/-- Where a currency leads. -/
def afterCurrency (use : CurrencyUse) (token : Token) : Place :=
  match use with
  | .commodity => ended .otherDated
  | .quotation => operand .quotation 0
  | .opening date owner currencies =>
    nextCurrency date owner (currencies ++ [token]) token.stop

/-- Where the value of a metadata key leads. -/
def intoMetadata (key : Token) (token : Token) : Option Place :=
  match token.terminal with
  | .account => some (ended (.metadata key token.stop))
  | .currency => some (ended (.metadata key token.stop))
  | .date => some (ended (.metadata key token.stop))
  | .quotedText => some (ended (.metadata key token.stop))
  | .tags => some (ended (.metadata key token.stop))
  | _ => intoNumber (.metadata key key.stop) 0 token

/-- Where a token leads that neither ends a line nor is a comment after a statement. -/
def continued (place : Place) (token : Token) : Option Place :=
  match place with
  | fileStart => intoLine token
  | lineStart => intoLine token
  | dated date => intoDated date token
  | texts heading => intoTexts heading token
  | marks heading => intoMarks heading token
  | account use => if token.terminal = .account then some (afterAccount use token) else none
  | text use => if token.terminal = .quotedText then some (afterText use token) else none
  | currency use => if token.terminal = .currency then some (afterCurrency use token) else none
  | firstCurrency date owner =>
    match token.terminal with
    | .currency => some (nextCurrency date owner [token] token.stop)
    | .quotedText => some (ended (.opening date owner [] token.stop))
    | _ => none
  | nextCurrency date owner currencies _ =>
    match token.terminal with
    | .comma => some (currency (.opening date owner currencies))
    | .quotedText => some (ended (.opening date owner currencies token.stop))
    | _ => none
  | pluginText => if token.terminal = .quotedText then some (ended .otherUndated) else none
  | metadataColon key => if token.terminal = .colon then some (metadataValue key) else none
  | metadataValue key => intoMetadata key token
  | firstArgument => intoArgument token
  | nextArgument => intoArgument token
  | posted line => intoNumber (.posting line) 0 token
  | operand purpose depth => intoNumber purpose depth token
  | operator purpose depth => afterOperand purpose depth token
  | afterAmount purpose => beyondAmount purpose token
  | firstCost line =>
    if token.terminal = .closeBrace then some (price line)
    else intoCost line (.firstCost line) token
  | nextCost line => intoCost line (.nextCost line) token
  | costComma line => afterCostPart line token
  | price line => intoPrice line token
  | _ => none

/-- Where a token leads that does not end a line. A comment may stand wherever a statement
is complete. -/
def step (place : Place) (token : Token) : Option Place :=
  if token.terminal = .comment then
    match place.statement? with
    | some statement => some (commented statement token)
    | none => place.continued token
  else place.continued token

end Place

end Daybook
