import Daybook.Proofs.Statement.Reading

/-!
# Reading further down

Positions are counted from the beginning of a file. When a text stands further down by a
number of characters, reading goes through the same places and finds the same lines, and only
their positions are greater by that number. Nothing that reading decides depends on a position.
-/
namespace Daybook

section Shift

variable (distance : Nat)

/-- A token further down. -/
def Token.shift (token : Token) : Token :=
  { token with start := token.start + distance }

/-- The heading of a transaction further down. -/
def Heading.shift (heading : Heading) : Heading :=
  { date := heading.date.shift distance
    flag := heading.flag.map (Token.shift distance)
    payee := heading.payee.map (Token.shift distance)
    narration := heading.narration.map (Token.shift distance)
    marks := heading.marks.map (Token.shift distance)
    stop := heading.stop + distance }

/-- A posting line further down. -/
def PostingLine.shift (line : PostingLine) : PostingLine :=
  { line with
    first := line.first.shift distance
    account := line.account.shift distance
    currency := line.currency.map (Token.shift distance)
    stop := line.stop + distance }

/-- A statement further down. -/
def Statement.shift : Statement → Statement
  | .remark => .remark
  | .transaction heading => .transaction (heading.shift distance)
  | .opening date account currencies stop =>
    .opening (date.shift distance) (account.shift distance)
      (currencies.map (Token.shift distance)) (stop + distance)
  | .closing date account => .closing (date.shift distance) (account.shift distance)
  | .otherDated => .otherDated
  | .posting line => .posting (line.shift distance)
  | .metadata key stop => .metadata (key.shift distance) (stop + distance)
  | .inclusion path => .inclusion (path.shift distance)
  | .otherUndated => .otherUndated

/-- A line further down. -/
def Line.shift (line : Line) : Line :=
  { statement := line.statement.shift distance
    comment := line.comment.map (Token.shift distance) }

/-- The purpose of a number further down. -/
def Purpose.shift : Purpose → Purpose
  | .posting line => .posting (line.shift distance)
  | .totalCost line => .totalCost (line.shift distance)
  | .firstCost line => .firstCost (line.shift distance)
  | .restCost line => .restCost (line.shift distance)
  | .nextCost line => .nextCost (line.shift distance)
  | .price line => .price (line.shift distance)
  | .balance => .balance
  | .tolerance => .tolerance
  | .quotation => .quotation
  | .metadata key stop => .metadata (key.shift distance) (stop + distance)
  | .argument => .argument

/-- The use of an account further down. -/
def AccountUse.shift : AccountUse → AccountUse
  | .opening date => .opening (date.shift distance)
  | .closing date => .closing (date.shift distance)
  | .balance => .balance
  | .texted => .texted
  | .padded => .padded
  | .padding => .padding
  | .flagged flag => .flagged (flag.shift distance)

/-- The use of a currency further down. -/
def CurrencyUse.shift : CurrencyUse → CurrencyUse
  | .commodity => .commodity
  | .quotation => .quotation
  | .opening date account currencies =>
    .opening (date.shift distance) (account.shift distance)
      (currencies.map (Token.shift distance))

/-- A place further down. -/
def Place.shift : Place → Place
  | fileStart => fileStart
  | lineStart => lineStart
  | remarked => remarked
  | commented statement comment =>
    commented (statement.shift distance) (comment.shift distance)
  | ended statement => ended (statement.shift distance)
  | dated date => dated (date.shift distance)
  | texts heading => texts (heading.shift distance)
  | marks heading => marks (heading.shift distance)
  | account use => account (use.shift distance)
  | text use => text use
  | currency use => currency (use.shift distance)
  | firstCurrency date owner => firstCurrency (date.shift distance) (owner.shift distance)
  | nextCurrency date owner currencies stop =>
    nextCurrency (date.shift distance) (owner.shift distance)
      (currencies.map (Token.shift distance)) (stop + distance)
  | pluginText => pluginText
  | metadataColon key => metadataColon (key.shift distance)
  | metadataValue key => metadataValue (key.shift distance)
  | firstArgument => firstArgument
  | nextArgument => nextArgument
  | posted line => posted (line.shift distance)
  | operand purpose depth => operand (purpose.shift distance) depth
  | operator purpose depth => operator (purpose.shift distance) depth
  | afterAmount purpose => afterAmount (purpose.shift distance)
  | firstCost line => firstCost (line.shift distance)
  | nextCost line => nextCost (line.shift distance)
  | costComma line => costComma (line.shift distance)
  | price line => price (line.shift distance)

end Shift

variable {distance : Nat}

/-- A token further down is of the same sort, which is all that the steps of reading look at. -/
@[simp] theorem Token.shift_terminal (token : Token) :
    (token.shift distance).terminal = token.terminal := rfl

/-- It is the same text. -/
@[simp] theorem Token.shift_text (token : Token) :
    (token.shift distance).text = token.text := rfl

/-- It begins further down by the distance. -/
@[simp] theorem Token.shift_start (token : Token) :
    (token.shift distance).start = token.start + distance := rfl

/-- And it ends further down by the distance, since its length is that of its text. -/
@[simp] theorem Token.shift_stop (token : Token) :
    (token.shift distance).stop = token.stop + distance :=
  Nat.add_right_comm _ _ _

namespace Place

/-- What may come next does not depend on positions. -/
@[simp] theorem expected_shift (distance : Nat) (place : Place) :
    (place.shift distance).expected = place.expected := by
  cases place <;> rfl

/-- Moving the end of a statement to a token commutes with moving both further down. -/
@[simp] theorem upTo_shift (purpose : Purpose) (token : Token) :
    (purpose.shift distance).upTo (token.shift distance) = (purpose.upTo token).shift distance := by
  cases purpose <;> simp [Purpose.upTo, Purpose.shift, PostingLine.upTo, PostingLine.shift]

/-- What is complete behind a number is the same statement further down. -/
theorem purpose_statement_shift (purpose : Purpose) :
    (purpose.shift distance).statement? = purpose.statement?.map (Statement.shift distance) := by
  cases purpose <;> rfl

/-- A statement is complete at a place exactly if it is at the place further down. Where an opening
has currencies its end is that of the last one, so both ends move together. -/
theorem statement_shift (place : Place) :
    (place.shift distance).statement? = place.statement?.map (Statement.shift distance) := by
  cases place with
  | dated date => simp [shift, statement?, Statement.shift, Heading.shift]
  | firstCurrency date owner => simp [shift, statement?, Statement.shift]
  | operator purpose depth => cases purpose <;> cases depth <;> rfl
  | afterAmount purpose => exact purpose_statement_shift purpose
  | _ => rfl

/-- So the lines that end with the file are the same further down. -/
theorem lines_shift (place : Place) :
    (place.shift distance).lines? = place.lines?.map (List.map (Line.shift distance)) := by
  cases place with
  | dated date => simp [shift, lines?, statement?, Line.shift, Statement.shift, Heading.shift]
  | firstCurrency date owner => simp [shift, lines?, statement?, Line.shift, Statement.shift]
  | operator purpose depth => cases purpose <;> cases depth <;> rfl
  | afterAmount purpose => cases purpose <;> rfl
  | _ => rfl

variable (distance : Nat) (token : Token)

/-- A number is begun and gone on with in the same way further down. The steps below follow the
functions of reading one by one. -/
theorem intoNumber_shift (purpose : Purpose) (depth : Nat) :
    intoNumber (purpose.shift distance) depth (token.shift distance) =
      (intoNumber purpose depth token).map (shift distance) := by
  unfold intoNumber
  simp only [Token.shift_terminal, upTo_shift]
  split <;> rfl

/-- What a number is read up to further down. -/
theorem afterNumber_shift (purpose : Purpose) :
    afterNumber (purpose.shift distance) (token.shift distance) =
      (afterNumber purpose token).map (shift distance) := by
  cases purpose <;> simp [afterNumber, shift, Purpose.shift, Purpose.upTo, PostingLine.upTo,
    PostingLine.shift, Statement.shift]

/-- An argument of a custom directive further down. -/
theorem intoArgument_shift :
    intoArgument (token.shift distance) = (intoArgument token).map (shift distance) := by
  have number := intoNumber_shift distance token .argument 0
  unfold intoArgument
  simp only [Token.shift_terminal]
  split
  all_goals first | rfl | exact number

/-- What stands behind an operand further down. The depth of parentheses is a count and not a
position, and stays. -/
theorem afterOperand_shift (purpose : Purpose) (depth : Nat) :
    afterOperand (purpose.shift distance) depth (token.shift distance) =
      (afterOperand purpose depth token).map (shift distance) := by
  have argument := intoArgument_shift distance token
  have number := afterNumber_shift distance token purpose
  have balance : purpose.shift distance = .balance ↔ purpose = .balance := by
    cases purpose <;> simp [Purpose.shift]
  have custom : purpose.shift distance = .argument ↔ purpose = .argument := by
    cases purpose <;> simp [Purpose.shift]
  unfold afterOperand
  simp only [Token.shift_terminal, upTo_shift, balance, custom]
  split
  · rfl
  · rfl
  · rfl
  · exact number
  · cases purpose <;> rfl
  · split <;> rfl
  · split
    · exact argument
    · rfl
  · rfl

/-- An account further down. -/
theorem afterAccount_shift (use : AccountUse) :
    afterAccount (use.shift distance) (token.shift distance) =
      (afterAccount use token).shift distance := by
  cases use <;> simp [afterAccount, AccountUse.shift, shift, Statement.shift, PostingLine.shift,
    Purpose.shift]

/-- A part of a cost further down. -/
theorem intoCost_shift (line : PostingLine) (purpose : Purpose) :
    intoCost (line.shift distance) (purpose.shift distance) (token.shift distance) =
      (intoCost line purpose token).map (shift distance) := by
  have number := intoNumber_shift distance token purpose 0
  unfold intoCost
  simp only [Token.shift_terminal]
  split
  · simp [shift, PostingLine.upTo, PostingLine.shift]
  · simp [shift, PostingLine.upTo, PostingLine.shift]
  · simp [shift, PostingLine.upTo, PostingLine.shift]
  · exact number

/-- The mark behind a part of a cost further down. -/
theorem afterCostPart_shift (line : PostingLine) :
    afterCostPart (line.shift distance) (token.shift distance) =
      (afterCostPart line token).map (shift distance) := by
  unfold afterCostPart
  simp only [Token.shift_terminal]
  split <;> rfl

/-- The mark of a price further down. -/
theorem intoPrice_shift (line : PostingLine) :
    intoPrice (line.shift distance) (token.shift distance) =
      (intoPrice line token).map (shift distance) := by
  unfold intoPrice
  simp only [Token.shift_terminal]
  split <;> rfl

/-- What stands behind an amount further down. -/
theorem beyondAmount_shift (purpose : Purpose) :
    beyondAmount (purpose.shift distance) (token.shift distance) =
      (beyondAmount purpose token).map (shift distance) := by
  cases purpose with
  | posting line =>
    have priced := intoPrice_shift distance token line
    simp only [Purpose.shift, beyondAmount, Token.shift_terminal]
    split
    · rfl
    · rfl
    · exact priced
  | totalCost line =>
    by_cases closes : token.terminal = .doubleCloseBrace <;>
      simp [Purpose.shift, beyondAmount, closes, shift]
  | firstCost line => exact afterCostPart_shift distance token line
  | nextCost line => exact afterCostPart_shift distance token line
  | restCost line =>
    by_cases closes : token.terminal = .closeBrace <;>
      simp [Purpose.shift, beyondAmount, closes, shift]
  | _ => rfl

/-- A tag or a link of a heading further down. -/
theorem intoMarks_shift (heading : Heading) :
    intoMarks (heading.shift distance) (token.shift distance) =
      (intoMarks heading token).map (shift distance) := by
  by_cases marked : token.terminal = .tag ∨ token.terminal = .link
  · simp [intoMarks, marked, shift, Heading.shift]
  · simp [intoMarks, marked]

/-- A text of a heading further down. Whether it is the payee or the narration depends on what has
been read before, and not on where. -/
theorem intoTexts_shift (heading : Heading) :
    intoTexts (heading.shift distance) (token.shift distance) =
      (intoTexts heading token).map (shift distance) := by
  have marks := intoMarks_shift distance token heading
  by_cases quoted : token.terminal = .quotedText
  · cases narrated : heading.narration with
    | none => simp [intoTexts, quoted, shift, Heading.shift, narrated]
    | some payee => simp [intoTexts, quoted, shift, Heading.shift, narrated]
  · simp only [intoTexts, Token.shift_terminal, quoted, if_false]
    exact marks

/-- What stands behind a date further down. -/
theorem intoDated_shift (date : Token) :
    intoDated (date.shift distance) (token.shift distance) =
      (intoDated date token).map (shift distance) := by
  have texts := intoTexts_shift distance token { date, stop := date.stop }
  have same : Heading.shift distance { date, stop := date.stop } =
      { date := date.shift distance, stop := (date.shift distance).stop } := by
    simp [Heading.shift]
  rw [same] at texts
  unfold intoDated
  simp only [Token.shift_terminal]
  split
  all_goals try rfl
  · simp [shift, Heading.shift]
  · simp [shift, Heading.shift]
  · exact texts

/-- The first token of a line further down. -/
theorem intoLine_shift :
    intoLine (token.shift distance) = (intoLine token).map (shift distance) := by
  unfold intoLine
  simp only [Token.shift_terminal]
  split
  all_goals try rfl
  simp [shift, PostingLine.shift]

/-- A text outside of a heading further down. -/
theorem afterText_shift (use : TextUse) :
    afterText use (token.shift distance) = (afterText use token).shift distance := by
  cases use <;> rfl

/-- A currency further down. -/
theorem afterCurrency_shift (use : CurrencyUse) :
    afterCurrency (use.shift distance) (token.shift distance) =
      (afterCurrency use token).shift distance := by
  cases use <;> simp [afterCurrency, CurrencyUse.shift, shift, Statement.shift, Purpose.shift]

/-- The value of metadata further down. -/
theorem intoMetadata_shift (key : Token) :
    intoMetadata (key.shift distance) (token.shift distance) =
      (intoMetadata key token).map (shift distance) := by
  have number := intoNumber_shift distance token (.metadata key key.stop) 0
  unfold intoMetadata
  simp only [Token.shift_terminal, Token.shift_stop]
  split
  all_goals try rfl
  exact number

/-- A line goes on in the same way further down: the lemmas above, put together by the place. -/
theorem continued_shift (place : Place) :
    (place.shift distance).continued (token.shift distance) =
      (place.continued token).map (shift distance) := by
  cases place with
  | fileStart => exact intoLine_shift distance token
  | lineStart => exact intoLine_shift distance token
  | dated date => exact intoDated_shift distance token date
  | texts heading => exact intoTexts_shift distance token heading
  | marks heading => exact intoMarks_shift distance token heading
  | account use =>
    simp only [shift, continued, Token.shift_terminal, afterAccount_shift]
    split <;> rfl
  | text use =>
    simp only [shift, continued, Token.shift_terminal, afterText_shift]
    split <;> rfl
  | currency use =>
    simp only [shift, continued, Token.shift_terminal, afterCurrency_shift]
    split <;> rfl
  | firstCurrency date owner =>
    simp only [shift, continued, Token.shift_terminal, Token.shift_stop]
    split <;> rfl
  | nextCurrency date owner currencies stop =>
    simp only [shift, continued, Token.shift_terminal, Token.shift_stop]
    split <;> rfl
  | pluginText =>
    by_cases quoted : token.terminal = .quotedText <;>
      simp [shift, continued, quoted, Statement.shift]
  | metadataColon key =>
    by_cases colon : token.terminal = .colon <;> simp [shift, continued, colon]
  | metadataValue key => exact intoMetadata_shift distance token key
  | firstArgument => exact intoArgument_shift distance token
  | nextArgument => exact intoArgument_shift distance token
  | posted line => exact intoNumber_shift distance token (.posting line) 0
  | operand purpose depth => exact intoNumber_shift distance token purpose depth
  | operator purpose depth => exact afterOperand_shift distance token purpose depth
  | afterAmount purpose => exact beyondAmount_shift distance token purpose
  | firstCost line =>
    have part := intoCost_shift distance token line (.firstCost line)
    by_cases closes : token.terminal = .closeBrace
    · simp [shift, continued, closes]
    · simp only [shift, continued, Token.shift_terminal, closes, if_false]
      exact part
  | nextCost line => exact intoCost_shift distance token line (.nextCost line)
  | costComma line => exact afterCostPart_shift distance token line
  | price line => exact intoPrice_shift distance token line
  | _ => rfl

/-- One token leads from a place further down to the place further down from where it led. So a
whole line does, and so do all lines of a text. -/
theorem step_shift (place : Place) :
    (place.shift distance).step (token.shift distance) =
      (place.step token).map (shift distance) := by
  have continues := continued_shift distance token place
  unfold step
  rw [Token.shift_terminal, statement_shift]
  split
  · cases place.statement? with
    | none => exact continues
    | some statement => rfl
  · exact continues

end Place

namespace Lexeme

variable {expected : Expected} {position distance : Nat} {text rest : Text} {token : Token}

/-- A token begins a text wherever the text stands. -/
theorem Begins.shift (begins : Begins expected position text token rest) (distance : Nat) :
    Begins expected (position + distance) text (token.shift distance) rest := by
  obtain ⟨whole, start, plain, sort⟩ := begins
  exact ⟨whole, congrArg (· + distance) start, plain, sort⟩

/-- A token that begins a text further down is a token that begins it here, further down. -/
theorem Begins.unshift (begins : Begins expected (position + distance) text token rest) :
    ∃ here, token = here.shift distance ∧ Begins expected position text here rest := by
  obtain ⟨whole, start, plain, sort⟩ := begins
  refine ⟨{ token with start := position }, ?_, whole, rfl, plain, sort⟩
  rw [Token.shift, ← start]

end Lexeme

namespace Statement

open Lexeme

/-- What ends a line ends it wherever it stands. -/
theorem lineAfter_shift (distance : Nat) (token : Token) :
    (lineAfter token).shift distance = lineAfter token := by
  unfold lineAfter
  split <;> rfl

/-- A text that is read has the same lines further down. The induction is on the reading: no step
asks where a token stands. -/
theorem Reading.shift {place : Place} {position : Nat} {text : Text} {lines : List Line}
    (reading : Reading place position text lines) (distance : Nat) :
    Reading (place.shift distance) (position + distance) text
      (lines.map (Line.shift distance)) := by
  induction reading with
  | textEnd complete =>
    refine .textEnd ?_
    rw [Place.lines_shift, complete]
    rfl
  | @space place position c text lines blank _ ih =>
    refine .space blank ?_
    rw [Nat.add_right_comm]
    exact ih
  | @lineEnd place position text rest token done lines begins ends complete _ ih =>
    have shifted := begins.shift distance
    rw [← Place.expected_shift distance] at shifted
    have completes : (place.shift distance).lines? = some (done.map (Line.shift distance)) := by
      rw [Place.lines_shift, complete]
      rfl
    rw [lineAfter_shift, ← Token.shift_stop] at ih
    rw [List.map_append]
    exact .lineEnd shifted ends completes ih
  | @token place next position text rest token lines begins within leads _ ih =>
    have shifted := begins.shift distance
    rw [← Place.expected_shift distance] at shifted
    have continues : (place.shift distance).step (token.shift distance) =
        some (next.shift distance) := by
      rw [Place.step_shift, leads]
      rfl
    rw [← Token.shift_stop] at ih
    exact .token shifted within continues ih

/-- A text that is read further down has the same lines here. The place here is general in the
induction, as each step leads to the place further down of a place here. -/
theorem Reading.unshift {place : Place} {position distance : Nat} {text : Text}
    {lines : List Line} (reading : Reading (place.shift distance) (position + distance) text lines) :
    ∃ here, lines = here.map (Line.shift distance) ∧ Reading place position text here := by
  generalize samePlace : place.shift distance = shifted at reading
  generalize samePosition : position + distance = further at reading
  induction reading generalizing place position with
  | @textEnd _ _ lines complete =>
    subst samePlace
    rw [Place.lines_shift] at complete
    obtain ⟨here, completes, rfl⟩ := Option.map_eq_some_iff.mp complete
    exact ⟨here, rfl, .textEnd completes⟩
  | space blank _ ih =>
    obtain ⟨here, rfl, reading⟩ := ih samePlace (by rw [← samePosition, Nat.add_right_comm])
    exact ⟨here, rfl, .space blank reading⟩
  | @lineEnd _ _ text rest token done lines begins ends complete _ ih =>
    subst samePlace samePosition
    rw [Place.expected_shift] at begins
    rw [Place.lines_shift] at complete
    obtain ⟨first, completes, rfl⟩ := Option.map_eq_some_iff.mp complete
    obtain ⟨nearer, rfl, stands⟩ := begins.unshift
    obtain ⟨others, rfl, reading⟩ :=
      ih (lineAfter_shift distance nearer) (Token.shift_stop nearer).symm
    exact ⟨first ++ others, by rw [List.map_append], .lineEnd stands ends completes reading⟩
  | @token _ next _ text rest token lines begins within leads _ ih =>
    subst samePlace samePosition
    rw [Place.expected_shift] at begins
    obtain ⟨nearer, rfl, stands⟩ := begins.unshift
    rw [Place.step_shift] at leads
    obtain ⟨following, continues, rfl⟩ := Option.map_eq_some_iff.mp leads
    obtain ⟨here, rfl, reading⟩ := ih rfl (Token.shift_stop nearer).symm
    exact ⟨here, rfl, .token stands within continues reading⟩

end Statement

end Daybook
