import Daybook.Proofs.Statement.Amounts
import Daybook.Proofs.Statement.LineOrder

/-!
# What the tokens of a line are

A statement keeps its tokens in places of their own: a flag, an account, currencies, marks. The
tokens are of the sort that their place says, and what stands between the account and the
currency of a posting is an expression. Both are preserved by every token of a line, and with
them goes what a word read back has to have been.
-/
namespace Daybook

open Lexeme

/-- The flag of a heading is a flag or the word for one. -/
def Heading.Worded (heading : Heading) : Prop :=
  ∀ flag ∈ heading.flag, flag.terminal = .flag ∨ flag.terminal = .txnWord

/-- The account of an opening or a closing is an account, and its currencies are currencies. -/
structure Token.Declares (account : Token) (currencies : List Token) : Prop where
  account : account.terminal = .account
  currencies : ∀ currency ∈ currencies, currency.terminal = .currency

/-- What stands between the account of a posting line and a position is more than blanks. -/
def PostingLine.Begun (text : Text) (position : Nat) (line : PostingLine) : Prop :=
  ∃ c ∈ Text.slice text line.account.stop position, Text.isBlank c = false

/-- The account and the currency of a posting line are an account and a currency, and an
expression stands between them. -/
structure PostingLine.Worded (text : Text) (line : PostingLine) : Prop where
  account : line.account.terminal = .account
  currency : ∀ currency ∈ line.currency, currency.terminal = .currency ∧
    (∀ c ∈ Text.slice text line.account.stop currency.start, isAmountChar c = true) ∧
    line.Begun text currency.start

/-- A posting line of which only the account and a part of its expression have been read. -/
structure PostingLine.Numbered (text : Text) (position : Nat) (line : PostingLine) : Prop where
  account : line.account.terminal = .account
  currency : line.currency = none
  order : line.account.stop ≤ position
  amount : ∀ c ∈ Text.slice text line.account.stop position, isAmountChar c = true

/-- The tokens of a statement are of their sorts. -/
def Statement.Worded (text : Text) : Statement → Prop
  | .transaction heading => heading.Worded
  | .opening _ account currencies _ => account.Declares currencies
  | .closing _ account => account.Declares []
  | .posting line => line.Worded text
  | _ => True

/-- The tokens of the posting line that a number belongs to are of their sorts. Within the amount
of the posting itself there is no currency yet. -/
def Purpose.Worded (text : Text) (position : Nat) : Purpose → Prop
  | .posting line => line.Numbered text position
  | .totalCost line => line.Worded text
  | .firstCost line => line.Worded text
  | .restCost line => line.Worded text
  | .nextCost line => line.Worded text
  | .price line => line.Worded text
  | _ => True

/-- The expression of a posting has begun. -/
def Purpose.Begun (text : Text) (position : Nat) : Purpose → Prop
  | .posting line => line.Begun text position
  | _ => True

/-- The tokens of the posting line that an amount belongs to are of their sorts. -/
def Purpose.Ended (text : Text) : Purpose → Prop
  | .posting line => line.Worded text
  | .totalCost line => line.Worded text
  | .firstCost line => line.Worded text
  | .restCost line => line.Worded text
  | .nextCost line => line.Worded text
  | .price line => line.Worded text
  | _ => True

/-- The tokens of the opening that a currency belongs to are of their sorts. -/
def CurrencyUse.Worded : CurrencyUse → Prop
  | .opening _ owner currencies => owner.Declares currencies
  | _ => True

/-- An account that has just been read has no currencies yet. -/
theorem Token.declares_nil {account : Token} (sort : account.terminal = .account) :
    account.Declares [] :=
  ⟨sort, by simp⟩

/-- One more currency. -/
theorem Token.Declares.concat {account token : Token} {currencies : List Token}
    (declares : account.Declares currencies) (sort : token.terminal = .currency) :
    account.Declares (currencies ++ [token]) := by
  refine ⟨declares.account, fun currency member => ?_⟩
  rcases List.mem_append.mp member with before | last
  · exact declares.currencies currency before
  · rw [List.mem_singleton.mp last]
    exact sort

/-- A posting line within its expression is worded: it has no currency to ask about yet. -/
theorem PostingLine.Numbered.worded {text : Text} {position : Nat} {line : PostingLine}
    (numbered : line.Numbered text position) : line.Worded text :=
  ⟨numbered.account, by simp [numbered.currency]⟩

/-- A token of an expression continues the expression before it. -/
theorem PostingLine.Numbered.advance {text : Text} {token : Token} {line : PostingLine}
    (numbered : line.Numbered text token.start) (stands : token.Stands text)
    (numeric : token.terminal.isNumeric = true) : line.Numbered text token.stop := by
  have order := stands.positive
  refine ⟨numbered.account, numbered.currency, by have := numbered.order; omega, ?_⟩
  intro c member
  rw [Text.slice_append numbered.order (Nat.le_of_lt order), stands.slice, List.mem_append] at member
  rcases member with before | within
  · exact numbered.amount c before
  · obtain ⟨expected, begins⟩ := stands
    refine amount_of_mem_numeric numeric (begins.held_of_numeric numeric) c ?_
    rw [begins.whole, List.take_left]
    exact within

/-- A blank continues an expression. -/
theorem PostingLine.Numbered.space {text : Text} {position : Nat} {line : PostingLine}
    (numbered : line.Numbered text position) {c : Char} {rest : Text}
    (here : text.drop position = c :: rest) (blank : isSpace c = true) :
    line.Numbered text (position + 1) := by
  refine ⟨numbered.account, numbered.currency, Nat.le_succ_of_le numbered.order, ?_⟩
  intro one member
  have single : Text.slice text position (position + 1) = [c] := by
    rw [Text.slice, here, Nat.add_sub_cancel_left]
    rfl
  rw [Text.slice_append numbered.order (Nat.le_succ _), single, List.mem_append,
    List.mem_singleton] at member
  rcases member with before | rfl
  · exact numbered.amount one before
  · simp [isAmountChar, blank]

/-- An expression that has begun goes on. -/
theorem PostingLine.Begun.mono {text : Text} {position later : Nat} {line : PostingLine}
    (begun : line.Begun text position) (order : line.account.stop ≤ position)
    (beyond : position ≤ later) : line.Begun text later := by
  obtain ⟨c, member, solid⟩ := begun
  refine ⟨c, ?_, solid⟩
  rw [Text.slice_append order beyond]
  exact List.mem_append_left _ member

/-- An expression begins with its first token. -/
theorem PostingLine.Numbered.begun {text : Text} {token : Token} {line : PostingLine}
    (numbered : line.Numbered text token.start) (stands : token.Stands text)
    (numeric : token.terminal.isNumeric = true) : line.Begun text token.stop := by
  obtain ⟨c, inner, spelled, plain⟩ := stands.choose_spec.plain
  have inside : c ∈ Text.slice text line.account.stop token.stop := by
    rw [Text.slice_append numbered.order (Nat.le_of_lt stands.positive), stands.slice, spelled]
    simp
  exact ⟨c, inside, not_blank_of_amount ((numbered.advance stands numeric).amount c inside) plain⟩

/-- A token of a number keeps the tokens of its line to their sorts. For the amount of the posting
itself it is one more part of the expression. -/
theorem Purpose.Worded.advance {text : Text} {token : Token} {purpose : Purpose}
    (worded : purpose.Worded text token.start) (stands : token.Stands text)
    (numeric : token.terminal.isNumeric = true) : purpose.Worded text token.stop := by
  cases purpose with
  | posting line => exact PostingLine.Numbered.advance worded stands numeric
  | _ => exact worded

/-- With the token something visible stands behind the account. -/
theorem Purpose.Worded.begun {text : Text} {token : Token} {purpose : Purpose}
    (worded : purpose.Worded text token.start) (stands : token.Stands text)
    (numeric : token.terminal.isNumeric = true) : purpose.Begun text token.stop := by
  cases purpose with
  | posting line => exact PostingLine.Numbered.begun worded stands numeric
  | _ => trivial

/-- What has begun does not depend on where the line ends. -/
theorem Purpose.Begun.upTo {text : Text} {position : Nat} {purpose : Purpose}
    (begun : purpose.Begun text position) (token : Token) :
    (purpose.upTo token).Begun text position := by
  cases purpose with
  | posting line => exact begun
  | _ => trivial

/-- Moving the end of a line leaves its tokens as they are. -/
theorem Purpose.Worded.upTo {text : Text} {position : Nat} {purpose : Purpose}
    (worded : purpose.Worded text position) (token : Token) :
    (purpose.upTo token).Worded text position := by
  cases purpose with
  | posting line => exact ⟨worded.account, worded.currency, worded.order, worded.amount⟩
  | totalCost line => exact ⟨worded.account, worded.currency⟩
  | firstCost line => exact ⟨worded.account, worded.currency⟩
  | restCost line => exact ⟨worded.account, worded.currency⟩
  | nextCost line => exact ⟨worded.account, worded.currency⟩
  | price line => exact ⟨worded.account, worded.currency⟩
  | _ => trivial

namespace Place

/-- The tokens of the line that is being read are of their sorts. -/
def Worded (text : Text) (position : Nat) : Place → Prop
  | commented statement _ => statement.Worded text
  | ended statement => statement.Worded text
  | texts heading => heading.Worded
  | marks heading => heading.Worded
  | currency use => use.Worded
  | firstCurrency _ owner => owner.Declares []
  | nextCurrency _ owner currencies _ => owner.Declares currencies
  | posted line => line.Numbered text position
  | operand purpose _ => purpose.Worded text position
  | operator purpose _ => purpose.Worded text position ∧ purpose.Begun text position
  | afterAmount purpose => purpose.Ended text
  | firstCost line => line.Worded text
  | nextCost line => line.Worded text
  | costComma line => line.Worded text
  | price line => line.Worded text
  | _ => True

/-- A statement that is complete at a place has tokens of their sorts. -/
theorem worded_statement {text : Text} {place : Place} {position : Nat} {statement : Statement}
    (worded : place.Worded text position) (complete : place.statement? = some statement) :
    statement.Worded text := by
  cases place with
  | dated date =>
    cases complete
    exact fun flag member => by cases member
  | posted line =>
    cases complete
    exact worded.worded
  | operator purpose depth =>
    cases depth with
    | zero => cases purpose <;> cases complete <;> trivial
    | succ depth => cases purpose <;> cases complete
  | afterAmount purpose => cases purpose <;> cases complete <;> exact worded
  | _ => cases complete <;> exact worded

section Step

variable {text : Text} {token : Token} {next : Place}

/-- A token of a number leads to a place with tokens of the right sorts. These lemmas follow the
functions of reading one by one, and `worded_step` puts them together. -/
theorem worded_intoNumber {purpose : Purpose} {depth : Nat}
    (worded : purpose.Worded text token.start) (stands : token.Stands text)
    (leads : intoNumber purpose depth token = some next) : next.Worded text token.stop := by
  unfold intoNumber at leads
  split at leads
  · next sort =>
    cases leads
    have numeric : token.terminal.isNumeric = true := by rw [sort]; rfl
    exact ⟨(worded.advance stands numeric).upTo token, (worded.begun stands numeric).upTo token⟩
  · next sort =>
    cases leads
    exact worded.advance stands (by rw [sort]; rfl)
  · next sort =>
    cases leads
    exact (worded.advance stands (by rw [sort]; rfl)).upTo token
  · cases leads

/-- The currency ends an expression, which stands between the account and the currency. -/
theorem worded_afterNumber {purpose : Purpose} (worded : purpose.Worded text token.start)
    (begun : purpose.Begun text token.start) (sort : token.terminal = .currency)
    (leads : afterNumber purpose token = some next) :
    next.Worded text token.stop := by
  cases purpose with
  | posting line =>
    cases leads
    refine ⟨worded.account, ?_⟩
    rintro _ ⟨⟩
    exact ⟨sort, worded.amount, begun⟩
  | totalCost line =>
    cases leads
    exact worded.upTo token
  | firstCost line =>
    cases leads
    exact worded.upTo token
  | restCost line =>
    cases leads
    exact worded.upTo token
  | nextCost line =>
    cases leads
    exact worded.upTo token
  | price line =>
    cases leads
    exact worded.upTo token
  | _ =>
    cases leads
    trivial

/-- So does an argument, of which nothing is kept. -/
theorem worded_intoArgument (stands : token.Stands text)
    (leads : intoArgument token = some next) : next.Worded text token.stop := by
  unfold intoArgument at leads
  split at leads
  case h_6 =>
    have worded : Purpose.argument.Worded text token.start := trivial
    exact worded_intoNumber worded stands leads
  all_goals
    cases leads
    trivial

/-- So does a token behind an operand. If it is the currency of the posting, the expression ends
here, and `begun` says that it is not blank. -/
theorem worded_afterOperand {purpose : Purpose} {depth : Nat}
    (worded : purpose.Worded text token.start) (begun : purpose.Begun text token.start)
    (stands : token.Stands text)
    (leads : afterOperand purpose depth token = some next) : next.Worded text token.stop := by
  unfold afterOperand at leads
  split at leads
  · next sort =>
    cases leads
    exact (worded.advance stands (by rw [sort]; rfl)).upTo token
  · next sort =>
    cases leads
    exact (worded.advance stands (by rw [sort]; rfl)).upTo token
  · next sort =>
    cases leads
    have numeric : token.terminal.isNumeric = true := by rw [sort]; rfl
    exact ⟨worded.advance stands numeric, worded.begun stands numeric⟩
  · next sort => exact worded_afterNumber worded begun sort leads
  · split at leads
    · cases leads
      exact worded
    · cases leads
  · split at leads
    · cases leads
      trivial
    · cases leads
  · split at leads
    · exact worded_intoArgument stands leads
    · cases leads
  · cases leads

/-- So does a part of a cost, which comes behind the currency. -/
theorem worded_intoCost {line : PostingLine} {purpose : Purpose} (worded : line.Worded text)
    (same : purpose.Worded text token.start) (stands : token.Stands text)
    (leads : intoCost line purpose token = some next) : next.Worded text token.stop := by
  unfold intoCost at leads
  split at leads
  · cases leads
    exact ⟨worded.account, worded.currency⟩
  · cases leads
    exact ⟨worded.account, worded.currency⟩
  · cases leads
    exact ⟨worded.account, worded.currency⟩
  · exact worded_intoNumber same stands leads

/-- So does a mark between parts of a cost. -/
theorem worded_afterCostPart {line : PostingLine} (worded : line.Worded text)
    (leads : afterCostPart line token = some next) : next.Worded text token.stop := by
  unfold afterCostPart at leads
  split at leads
  · cases leads
    exact worded
  · cases leads
    exact worded
  · cases leads

/-- So does the mark of a price. -/
theorem worded_intoPrice {line : PostingLine} (worded : line.Worded text)
    (leads : intoPrice line token = some next) : next.Worded text token.stop := by
  unfold intoPrice at leads
  split at leads
  · cases leads
    exact ⟨worded.account, worded.currency⟩
  · cases leads
    exact ⟨worded.account, worded.currency⟩
  · cases leads

/-- So does what stands behind an amount, where the tokens are complete. -/
theorem worded_beyondAmount {purpose : Purpose} (worded : purpose.Ended text)
    (leads : beyondAmount purpose token = some next) : next.Worded text token.stop := by
  cases purpose with
  | posting line =>
    simp only [beyondAmount] at leads
    split at leads
    · cases leads
      exact ⟨worded.account, worded.currency⟩
    · cases leads
      exact ⟨worded.account, worded.currency⟩
    · exact worded_intoPrice worded leads
  | totalCost line =>
    simp only [beyondAmount, Option.ite_none_right_eq_some, Option.some.injEq] at leads
    obtain ⟨_, rfl⟩ := leads
    exact worded
  | firstCost line => exact worded_afterCostPart worded leads
  | nextCost line => exact worded_afterCostPart worded leads
  | restCost line =>
    simp only [beyondAmount, Option.ite_none_right_eq_some, Option.some.injEq] at leads
    obtain ⟨_, rfl⟩ := leads
    exact worded
  | _ => cases leads

/-- So does a tag or a link: the flag of the heading stays. -/
theorem worded_intoMarks {heading : Heading} (worded : heading.Worded)
    (leads : intoMarks heading token = some next) : next.Worded text token.stop := by
  simp only [intoMarks, Option.ite_none_right_eq_some, Option.some.injEq] at leads
  obtain ⟨_, rfl⟩ := leads
  exact worded

/-- So does a text of a heading. -/
theorem worded_intoTexts {heading : Heading} (worded : heading.Worded)
    (leads : intoTexts heading token = some next) : next.Worded text token.stop := by
  unfold intoTexts at leads
  split at leads
  · split at leads
    · cases leads
      exact worded
    · cases leads
      exact worded
  · exact worded_intoMarks worded leads

/-- The flag of a heading is a flag or the word for one. -/
theorem worded_intoDated {date : Token} (leads : intoDated date token = some next) :
    next.Worded text token.stop := by
  have unflagged : Heading.Worded { date, stop := date.stop } := fun flag member => by cases member
  unfold intoDated at leads
  split at leads
  case h_11 sort =>
    cases leads
    rintro _ ⟨⟩
    exact Or.inr sort
  case h_12 sort =>
    cases leads
    rintro _ ⟨⟩
    exact Or.inl sort
  case h_13 => exact worded_intoTexts unflagged leads
  all_goals
    cases leads
    trivial

/-- The account of a posting is an account, and its expression begins behind it. -/
theorem numbered_of_account {first : Token} (sort : token.terminal = .account) (stop : Nat) :
    PostingLine.Numbered text token.stop { first, account := token, stop } :=
  ⟨sort, rfl, Nat.le_refl _, by simp [Text.slice]⟩

/-- So does the first token of a line. Nothing has to be known of it but its sort. -/
theorem worded_intoLine (leads : intoLine token = some next) : next.Worded text token.stop := by
  unfold intoLine at leads
  split at leads
  case h_2 sort =>
    cases leads
    exact numbered_of_account sort token.stop
  case h_10 => cases leads
  all_goals
    cases leads
    trivial

/-- So does the value of metadata. -/
theorem worded_intoMetadata {key : Token} (stands : token.Stands text)
    (leads : intoMetadata key token = some next) : next.Worded text token.stop := by
  unfold intoMetadata at leads
  split at leads
  case h_6 =>
    have worded : (Purpose.metadata key key.stop).Worded text token.start := trivial
    exact worded_intoNumber worded stands leads
  all_goals
    cases leads
    trivial

/-- A token within a line leads from a worded place to a worded place. One case for each sort of
place, each by the lemma on what leads on from there. -/
theorem worded_continued {place : Place} (worded : place.Worded text token.start)
    (stands : token.Stands text) (continues : Continues token place next) :
    next.Worded text token.stop := by
  cases continues with
  | fileStart leads => exact worded_intoLine leads
  | lineStart leads => exact worded_intoLine leads
  | dated leads => exact worded_intoDated leads
  | texts leads => exact worded_intoTexts worded leads
  | marks leads => exact worded_intoMarks worded leads
  | account use sort =>
    cases use with
    | opening date => exact Token.declares_nil sort
    | closing date => exact Token.declares_nil sort
    | flagged flag => exact numbered_of_account sort token.stop
    | _ => trivial
  | text use => cases use <;> trivial
  | currency use sort =>
    cases use with
    | opening date owner currencies => exact Token.Declares.concat worded sort
    | _ => trivial
  | firstCurrency date owner sort => exact Token.Declares.concat worded sort
  | booking => exact worded
  | comma => exact worded
  | bookingOf => exact worded
  | pluginText => trivial
  | metadataColon => trivial
  | metadataValue leads => exact worded_intoMetadata stands leads
  | firstArgument leads => exact worded_intoArgument stands leads
  | nextArgument leads => exact worded_intoArgument stands leads
  | @posted line _ leads =>
    have numbered : (Purpose.posting line).Worded text token.start := worded
    exact worded_intoNumber numbered stands leads
  | operand leads => exact worded_intoNumber worded stands leads
  | operator leads => exact worded_afterOperand worded.1 worded.2 stands leads
  | afterAmount leads => exact worded_beyondAmount worded leads
  | costEnd => exact worded
  | @firstCost line _ _ leads =>
    have same : (Purpose.firstCost line).Worded text token.start := worded
    exact worded_intoCost worded same stands leads
  | @nextCost line _ leads =>
    have same : (Purpose.nextCost line).Worded text token.start := worded
    exact worded_intoCost worded same stands leads
  | costComma leads => exact worded_afterCostPart worded leads
  | price leads => exact worded_intoPrice worded leads

/-- Every token leads from a place with tokens of the right sorts to such a place. By the induction
over a reading all lines of a text have them. -/
theorem worded_step {place : Place} (worded : place.Worded text token.start)
    (stands : token.Stands text) (leads : place.step token = some next) :
    next.Worded text token.stop := by
  rcases step_eq_some_iff.mp leads with ⟨_, statement, complete, rfl⟩ | ⟨_, continues⟩
  · exact worded_statement worded complete
  · exact worded_continued worded stands continues

/-- A blank changes nothing. -/
theorem worded_space {place : Place} {position : Nat} (worded : place.Worded text position)
    {c : Char} {rest : Text} (here : text.drop position = c :: rest) (blank : isSpace c = true) :
    place.Worded text (position + 1) := by
  cases place with
  | posted line => exact PostingLine.Numbered.space worded here blank
  | operand purpose depth =>
    cases purpose with
    | posting line => exact PostingLine.Numbered.space worded here blank
    | _ => exact worded
  | operator purpose depth =>
    obtain ⟨worded, begun⟩ := worded
    cases purpose with
    | posting line =>
      exact ⟨PostingLine.Numbered.space worded here blank,
        PostingLine.Begun.mono begun worded.order (Nat.le_succ _)⟩
    | _ => exact ⟨worded, begun⟩
  | _ => exact worded

end Step

end Place

namespace Statement

/-- The tokens of what is being read stay of their sorts. -/
theorem keeps_worded (text : Text) :
    Keeps text (fun place position => place.Worded text position) fun line =>
      line.statement.Worded text where
  start fresh := by rcases fresh with rfl | rfl <;> trivial
  space kept here blank := Place.worded_space kept here blank
  token kept begins _ leads _ := Place.worded_step kept ⟨_, begins⟩ leads
  done kept _ complete _ member :=
    Place.worded_statement kept (statement?_of_mem_lines? complete member)

/-- The tokens of every line of a whole text are of their sorts. -/
theorem Reading.worded_whole {text : Text} {lines : List Line}
    (reading : Reading .fileStart 0 text lines) : ∀ line ∈ lines, line.statement.Worded text :=
  (keeps_worded text).whole reading

end Statement

/-- A token that stands in a text is a word by itself. -/
theorem Token.Stands.isWord {text : Text} {token : Token} (stands : token.Stands text)
    (sort : token.terminal = .account ∨ token.terminal = .currency ∨ token.terminal = .tag) :
    IsWord token.terminal token.text := by
  obtain ⟨expected, begins⟩ := stands
  have held := (begins.held (by rcases sort with sort | sort | sort <;> (rw [sort]; decide))).2
  rw [begins.whole] at held
  exact isWord_of_append sort held

/-- A flag that stands in a text is a flag by itself. -/
theorem Token.Stands.isFlagWord {text : Text} {token : Token} (stands : token.Stands text)
    (sort : token.terminal = .flag ∨ token.terminal = .txnWord) : IsFlagWord token.text := by
  obtain ⟨expected, begins⟩ := stands
  have held := (begins.held (by rcases sort with sort | sort <;> (rw [sort]; decide))).2
  rw [begins.whole] at held
  exact isFlagWord_of_append sort held

end Daybook
