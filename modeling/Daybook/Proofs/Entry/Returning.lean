import Daybook.Listing
import Daybook.Proofs.Date.MonthFiles
import Daybook.Proofs.Entry.Legible

/-!
# What is listed can be written back

Every transaction of a file without errors has words of the ledger language, but for one liberty:
an account may have blanks outside the basic characters, which no account that is written has.
Its amounts are whatever expressions the grammar knows. An expression that has been read once is
read again behind another account and before another currency: each of its tokens is told by its
own characters and by where the next blank or capital stands, and which place a token leads to
does not depend on the posting.
-/
namespace Daybook

open Lexeme Statement

/-! ## Tokens of an amount -/

namespace Lexeme

/-- What begins with a character of an amount and is over at a blank or a capital does not depend
on what follows. -/
theorem length?_amount {terminal : Terminal} (listed : terminal ∈ Expected.operator.terminals)
    {c stop : Char} (amount : isAmountChar c = true) (plain : isSpace c = false) (text : Text)
    (ends : endsAmount stop = true) (rest : Text) :
    terminal.length? (c :: text ++ stop :: rest) = terminal.length? (c :: text) := by
  obtain ⟨comma, point, hyphen, slash, digit⟩ := outside_of_endsAmount ends
  have low := lt_of_isAmountChar amount
  have other (mark : Char) (high : 65 ≤ mark.toNat) : c ≠ mark := by
    rintro rfl
    omega
  have mark (mark : Char) (outside : isAmountChar mark = false) : c ≠ mark := by
    rintro rfl
    rw [amount] at outside
    cases outside
  have start : isAccountStart c = false := by
    rw [Bool.eq_false_iff, ne_eq, isAccountStart, Bool.or_eq_true, isWide_iff, isCapital_iff]
    omega
  simp only [Expected.terminals, List.mem_cons, List.not_mem_nil, or_false] at listed
  rcases listed with rfl | rfl | rfl | rfl | rfl | rfl | rfl | rfl | rfl | rfl | rfl | rfl | rfl |
    rfl | rfl
  · exact dateLength_append rest hyphen slash digit
  · exact numberLength_append rest comma point digit
  · simp [Terminal.length?, accountLength, start]
  · rw [List.cons_append, length?_currency_amount amount, length?_currency_amount amount]
  · rw [List.cons_append, Terminal.length?_unquoted (mark '"' rfl),
      Terminal.length?_unquoted (mark '"' rfl)]
  · rw [List.cons_append, (Terminal.length?_inside plain (mark '\n' rfl) (mark '\r' rfl) _).1,
      (Terminal.length?_inside plain (mark '\n' rfl) (mark '\r' rfl) _).1]
  · rw [List.cons_append, length?_comment (mark ';' rfl), length?_comment (mark ';' rfl)]
  · simp [Terminal.length?, literal, (other 'F' (by decide)).symm, (other 'T' (by decide)).symm]
  all_goals rfl

/-- A token of an amount is told by its own characters, wherever the amount goes on to a blank or
a capital. -/
theorem Begins.again {expected : Expected} {position : Nat} {number tail : Text} {stop : Char}
    {token : Token}
    (asked : ∀ terminal ∈ expected.terminals, terminal ∈ Expected.operator.terminals)
    (begins : Begins expected position (token.text ++ (number ++ stop :: tail)) token
      (number ++ stop :: tail))
    (numeric : token.terminal.isNumeric = true) (ends : endsAmount stop = true) (start : Nat)
    {other : Char} (alsoEnds : endsAmount other = true) (rest : Text) :
    Begins expected start (token.text ++ (number ++ other :: rest)) { token with start }
      (number ++ other :: rest) := by
  have held := begins.held_of_numeric numeric
  obtain ⟨_, _, ⟨c, inner, spelled, plain⟩, sort⟩ := begins
  have amount : isAmountChar c = true := by
    refine amount_of_mem_numeric numeric held c ?_
    rw [List.take_left, spelled]
    exact List.mem_cons_self
  refine ⟨rfl, rfl, ⟨c, inner, spelled, plain⟩, ?_⟩
  obtain ⟨terminal, found, same⟩ := sort
  refine ⟨terminal, (first?_congr fun one member => ?_).trans found, same⟩
  rw [spelled, ← List.append_assoc, ← List.append_assoc, List.cons_append,
    length?_amount (asked one member) amount plain _ alsoEnds,
    length?_amount (asked one member) amount plain _ ends]

end Lexeme

/-! ## Amounts behind other accounts -/

/-- A place within the amount of a posting, with another posting line. -/
def Place.withLine (line : PostingLine) : Place → Place
  | .posted _ => .posted line
  | .operand _ depth => .operand (.posting line) depth
  | .operator _ depth => .operator (.posting line) depth
  | other => other

/-- Characters are read from a place of an amount to its end, whatever the posting line. -/
def Place.Rereads (place : Place) (number : Text) : Prop :=
  ∀ (line : PostingLine) (position : Nat) (rest : Text), ∃ stop, ∀ lines,
    Reading (.operator (.posting { line with stop }) 0) (position + number.length) (' ' :: rest)
        lines →
      Reading (place.withLine line) position (number ++ ' ' :: rest) lines

section Numbering

variable {line other : PostingLine} {place next : Place} {token : Token}

/-- The sorts that are asked for within an amount are those that are asked for after an operand. -/
theorem Numbering.asked (numbering : Statement.Numbering line place) (other : PostingLine) :
    (place.withLine other).expected = place.expected ∧
      ∀ terminal ∈ place.expected.terminals, terminal ∈ Expected.operator.terminals := by
  cases numbering with
  | posted stop =>
    exact ⟨rfl, (by decide : ∀ one ∈ Expected.amount.terminals, one ∈ Expected.operator.terminals)⟩
  | operand stop depth =>
    exact ⟨rfl, (by decide : ∀ one ∈ Expected.operand.terminals, one ∈ Expected.operator.terminals)⟩
  | operator stop depth => exact ⟨rfl, fun _ listed => listed⟩

/-- A token that begins a number or goes on with it does so behind another account and at another
position as well: only the end of the line is another one. -/
theorem intoNumber_again {stop depth : Nat}
    (leads : Place.intoNumber (.posting { line with stop }) depth token = some next)
    (other : PostingLine) (start : Nat) : ∃ stop,
      Place.intoNumber (.posting other) depth { token with start } =
        some (next.withLine { other with stop }) := by
  unfold Place.intoNumber at leads ⊢
  split at leads
  · next sort =>
    cases leads
    simp only [sort]
    exact ⟨start + token.text.length, rfl⟩
  · next sort =>
    cases leads
    simp only [sort]
    exact ⟨other.stop, rfl⟩
  · next sort =>
    cases leads
    simp only [sort]
    exact ⟨start + token.text.length, rfl⟩
  · cases leads

/-- So does a token of a number behind an operand. What follows an operand depends on the depth of
the brackets and on the token, not on the line that is being read. -/
theorem afterOperand_again {stop depth : Nat}
    (leads : Place.afterOperand (.posting { line with stop }) depth token = some next)
    (numeric : token.terminal.isNumeric = true) (other : PostingLine) (start : Nat) : ∃ stop,
      Place.afterOperand (.posting other) depth { token with start } =
        some (next.withLine { other with stop }) := by
  unfold Place.afterOperand at leads ⊢
  split at leads
  · next sort =>
    cases leads
    simp only [sort]
    exact ⟨start + token.text.length, rfl⟩
  · next sort =>
    cases leads
    simp only [sort]
    exact ⟨start + token.text.length, rfl⟩
  · next sort =>
    cases leads
    simp only [sort]
    exact ⟨other.stop, rfl⟩
  · next sort =>
    rw [sort] at numeric
    cases numeric
  all_goals cases leads

/-- A token of an amount leads to the same place within the amount of any posting. -/
theorem Numbering.step_again (numbering : Statement.Numbering line place)
    (leads : place.step token = some next) (numeric : token.terminal.isNumeric = true)
    (other : PostingLine) (start : Nat) : ∃ stop,
      (place.withLine other).step { token with start } =
        some (next.withLine { other with stop }) := by
  have comment : token.terminal ≠ .comment := by
    intro sort
    rw [sort] at numeric
    cases numeric
  unfold Place.step at leads ⊢
  rw [if_neg comment] at leads
  rw [if_neg comment]
  cases numbering with
  | posted stop => exact intoNumber_again leads other start
  | operand stop depth => exact intoNumber_again leads other start
  | operator stop depth => exact afterOperand_again leads numeric other start

/-- Only where an amount may end a currency leads on. Inside an expression a currency leads nowhere,
unless an operand is complete and no bracket is open. -/
theorem Numbering.of_currency (numbering : Statement.Numbering line place)
    (leads : place.step token = some next) (sort : token.terminal = .currency) :
    ∃ stop, place = .operator (.posting { line with stop }) 0 := by
  have comment : token.terminal ≠ .comment := by
    rw [sort]
    decide
  unfold Place.step at leads
  rw [if_neg comment] at leads
  cases numbering with
  | posted stop =>
    simp only [Place.continued, Place.intoNumber, sort] at leads
    cases leads
  | operand stop depth =>
    simp only [Place.continued, Place.intoNumber, sort] at leads
    cases leads
  | operator stop depth =>
    cases depth with
    | zero => exact ⟨stop, rfl⟩
    | succ depth =>
      simp only [Place.continued, Place.afterOperand, sort] at leads
      cases leads

end Numbering

/-- What follows an amount: blanks, and the capital of its currency. -/
def EndsNumber (tail : Text) : Prop :=
  ∃ blanks capital rest, tail = blanks ++ capital :: rest ∧ (∀ c ∈ blanks, isSpace c = true) ∧
    isCapital capital = true

/-- What follows an amount begins with a blank or at once with the capital of the currency. Neither
is part of an expression, so that the last token of the amount ends there. -/
theorem EndsNumber.cases {tail : Text} (ends : EndsNumber tail) :
    ∃ c rest, tail = c :: rest ∧
      ((isSpace c = true ∧ EndsNumber rest) ∨ (isSpace c = false ∧ isCapital c = true)) := by
  obtain ⟨_ | ⟨c, blanks⟩, capital, rest, rfl, spaces, isCap⟩ := ends
  · rw [isCapital_iff] at isCap
    exact ⟨capital, rest, rfl, Or.inr ⟨isSpace_of_visible (by omega), isCapital_iff.mpr isCap⟩⟩
  · obtain ⟨space, others⟩ := List.forall_mem_cons.mp spaces
    exact ⟨c, _, rfl, Or.inl ⟨space, blanks, capital, rest, rfl, others, isCap⟩⟩

/-- A blank of an amount is read again. -/
theorem Place.Rereads.space {place : Place} {number : Text} (later : place.Rereads number) {c : Char}
    (blank : isSpace c = true) : place.Rereads (c :: number) := by
  intro line position rest
  obtain ⟨stop, again⟩ := later line (position + 1) rest
  refine ⟨stop, fun lines ended => .space blank (again lines ?_)⟩
  rw [List.length_cons, ← Nat.add_assoc, Nat.add_right_comm] at ended
  exact ended

/-- A token of an amount is read again, and so is what goes on behind it. -/
theorem Place.Rereads.token {place next : Place} {line : PostingLine} {token : Token}
    {position : Nat} {number tail : Text} {stop : Char} (later : next.Rereads number)
    (numbering : Statement.Numbering line place)
    (begins : Begins place.expected position (token.text ++ (number ++ stop :: tail)) token
      (number ++ stop :: tail))
    (within : endsLine token = false) (leads : place.step token = some next)
    (numeric : token.terminal.isNumeric = true) (ends : endsAmount stop = true) :
    place.Rereads (token.text ++ number) := by
  intro line position rest
  obtain ⟨alike, asked⟩ := Numbering.asked numbering line
  obtain ⟨middle, leadsAgain⟩ := Numbering.step_again numbering leads numeric line position
  obtain ⟨stop, again⟩ := later { line with stop := middle } (position + token.text.length) rest
  refine ⟨stop, fun lines reached => ?_⟩
  have anew := begins.again asked numeric ends position (rfl : endsAmount ' ' = true) rest
  rw [List.length_append, ← Nat.add_assoc] at reached
  rw [← alike] at anew
  rw [List.append_assoc]
  exact .token anew within leadsAgain (again lines reached)

/-- Where the currency of an amount begins, nothing is left to be read again. -/
theorem Numbering.rereads_nil {place next : Place} {line : PostingLine} {token : Token}
    {position : Nat} {stop : Char} {after rest : Text}
    (numbering : Statement.Numbering line place)
    (begins : Begins place.expected position (stop :: after) token rest)
    (leads : place.step token = some next) (capital : isCapital stop = true) :
    place.Rereads [] := by
  obtain ⟨sort, _⟩ := numbering.step_of_capital leads begins capital
  obtain ⟨stop, rfl⟩ := Numbering.of_currency numbering leads sort
  exact fun line position rest => ⟨line.stop, fun lines ended => ended⟩

/-- An amount that has been read is read again behind any account. The induction is on how it was
read. -/
theorem Statement.Reading.rereads {line : PostingLine} {place : Place} {position : Nat}
    {text : Text} {lines : List Line} (reading : Reading place position text lines)
    (numbering : Numbering line place) {number tail : Text} (whole : text = number ++ tail)
    (ends : EndsNumber tail) (numeric : ∀ c ∈ number, isAmountChar c = true) :
    place.Rereads number := by
  induction reading generalizing number tail with
  | textEnd =>
    obtain ⟨stop, after, rfl, _⟩ := ends.cases
    simp at whole
  | @space place position c others lines blank further ih =>
    cases number with
    | nil =>
      obtain ⟨stop, after, rfl, ⟨_, later⟩ | ⟨solid, _⟩⟩ := ends.cases
      · obtain ⟨rfl, rfl⟩ := List.cons.inj whole
        exact ih numbering rfl later numeric
      · obtain ⟨rfl, rfl⟩ := List.cons.inj whole
        rw [solid] at blank
        cases blank
    | cons first number =>
      obtain ⟨rfl, rfl⟩ := List.cons.inj whole
      have later := ih numbering rfl ends fun c member => numeric c (List.mem_cons_of_mem _ member)
      exact later.space blank
  | @lineEnd place position text rest token done lines begins lineEnds complete further ih =>
    obtain ⟨stop, after, rfl, sort⟩ := ends.cases
    subst whole
    cases number with
    | nil =>
      have lineBreak := numbering.lineBreak begins lineEnds
      rcases lineBreak with rfl | rfl <;> rcases sort with ⟨space, _⟩ | ⟨_, capital⟩
      · cases space
      · cases capital
      · cases space
      · cases capital
    | cons c number =>
      have wrong := numeric c List.mem_cons_self
      rcases numbering.lineBreak begins lineEnds with rfl | rfl <;> cases wrong
  | @token place next position text rest token lines begins within leads further ih =>
    obtain ⟨stop, after, rfl, sort⟩ := ends.cases
    subst whole
    cases number with
    | nil =>
      rcases sort with ⟨space, _⟩ | ⟨_, capital⟩
      · obtain ⟨c, inner, spelled, solid⟩ := begins.cons
        obtain ⟨rfl, _⟩ := List.cons.inj spelled
        rw [space] at solid
        cases solid
      · exact Numbering.rereads_nil numbering begins leads capital
    | cons c number =>
      have ended : endsAmount stop = true := by
        rcases sort with ⟨space, _⟩ | ⟨_, capital⟩
        · simp [endsAmount, space]
        · simp [endsAmount, capital]
      obtain ⟨sort, onward⟩ := numbering.step_of_amount leads begins (numeric c List.mem_cons_self)
      obtain ⟨front, same, rfl⟩ := begins.of_numeric ended sort
      have later := ih onward rfl ends fun one member => numeric one (by
        rw [same]
        exact List.mem_append_right _ member)
      rw [same, List.append_assoc] at begins
      rw [same]
      exact later.token numbering begins within leads sort ended

/-! ## The amounts of a file -/

/-- The account of the posting that an amount belongs to. -/
def Purpose.postedTo? : Purpose → Option Token
  | .posting line => some line.account
  | .totalCost line => some line.account
  | .firstCost line => some line.account
  | .restCost line => some line.account
  | .nextCost line => some line.account
  | .price line => some line.account
  | _ => none

/-- The account of a posting. -/
def Statement.postedTo? : Statement → Option Token
  | .posting line => some line.account
  | _ => none

/-- The account of the posting that is being read. -/
def Place.postedTo? : Place → Option Token
  | .commented statement _ => statement.postedTo?
  | .ended statement => statement.postedTo?
  | .posted line => some line.account
  | .operand purpose _ => purpose.postedTo?
  | .operator purpose _ => purpose.postedTo?
  | .afterAmount purpose => purpose.postedTo?
  | .firstCost line => some line.account
  | .nextCost line => some line.account
  | .costComma line => some line.account
  | .price line => some line.account
  | _ => none

/-- A token leads to a place of the same posting, or to none, or it is the account of a posting. -/
inductive Place.Posts (token : Token) (account : Option Token) : Place → Prop where
  | same {next : Place} (same : next.postedTo? = account) : Posts token account next
  | none {next : Place} (none : next.postedTo? = none) : Posts token account next
  | account (first : Token) :
      Posts token account (.posted { first, account := token, stop := token.stop })

/-- One more token of an amount belongs to the same posting. -/
theorem Purpose.postedTo_upTo (purpose : Purpose) (token : Token) :
    (purpose.upTo token).postedTo? = purpose.postedTo? := by
  cases purpose <;> rfl

namespace Place.Posts

variable {place next : Place} {token : Token} {account : Option Token} {purpose : Purpose}
  {depth : Nat}

/-- A number belongs to the posting that it is read for. -/
theorem of_intoNumber (leads : Place.intoNumber purpose depth token = some next) :
    next.postedTo? = purpose.postedTo? := by
  unfold Place.intoNumber at leads
  split at leads <;> cases leads
  · exact purpose.postedTo_upTo token
  · rfl
  · exact purpose.postedTo_upTo token

/-- An argument of a custom directive belongs to no posting. -/
theorem of_intoArgument (leads : Place.intoArgument token = some next) :
    next.postedTo? = Option.none := by
  unfold Place.intoArgument at leads
  split at leads
  case h_6 => exact of_intoNumber leads
  all_goals
    cases leads
    rfl

/-- What a number is read up to belongs to the same posting. -/
theorem of_afterNumber (leads : Place.afterNumber purpose token = some next) :
    next.postedTo? = purpose.postedTo? := by
  cases purpose <;> cases leads <;> rfl

/-- Behind an operand the line goes on with the same posting, or with an argument or a tolerance,
which belong to none. -/
theorem of_afterOperand (leads : Place.afterOperand purpose depth token = some next) :
    Posts token purpose.postedTo? next := by
  unfold Place.afterOperand at leads
  split at leads
  · cases leads
    exact .same (purpose.postedTo_upTo token)
  · cases leads
    exact .same (purpose.postedTo_upTo token)
  · cases leads
    exact .same rfl
  · exact .same (of_afterNumber leads)
  · split at leads <;> cases leads
    exact .same rfl
  · split at leads <;> cases leads
    exact .none rfl
  · split at leads
    · exact .none (of_intoArgument leads)
    · cases leads
  · cases leads

/-- A price belongs to the posting in front of it. -/
theorem of_intoPrice {line : PostingLine} (leads : Place.intoPrice line token = some next) :
    next.postedTo? = some line.account := by
  unfold Place.intoPrice at leads
  split at leads <;> cases leads <;> rfl

/-- So do the marks between the parts of a cost. -/
theorem of_afterCostPart {line : PostingLine} (leads : Place.afterCostPart line token = some next) :
    next.postedTo? = some line.account := by
  unfold Place.afterCostPart at leads
  split at leads <;> cases leads <;> rfl

/-- So does a part of a cost, if the numbers in it are read for this posting. -/
theorem of_intoCost {line : PostingLine} (own : purpose.postedTo? = some line.account)
    (leads : Place.intoCost line purpose token = some next) :
    next.postedTo? = some line.account := by
  unfold Place.intoCost at leads
  split at leads
  case h_4 => exact (of_intoNumber leads).trans own
  all_goals
    cases leads
    rfl

/-- So does what stands behind an amount. Behind an amount come a cost, a price, a comment or the
end of the line, which all keep the posting. -/
theorem of_beyondAmount (leads : Place.beyondAmount purpose token = some next) :
    next.postedTo? = purpose.postedTo? := by
  cases purpose with
  | posting line =>
    simp only [Place.beyondAmount] at leads
    split at leads
    · cases leads
      rfl
    · cases leads
      rfl
    · exact of_intoPrice leads
  | totalCost line =>
    simp only [Place.beyondAmount, Option.ite_none_right_eq_some] at leads
    cases leads.2
    rfl
  | firstCost line => exact of_afterCostPart leads
  | nextCost line => exact of_afterCostPart leads
  | restCost line =>
    simp only [Place.beyondAmount, Option.ite_none_right_eq_some] at leads
    cases leads.2
    rfl
  | _ => cases leads

/-- A heading is no posting, and a mark of it leads to none. -/
theorem of_intoMarks {heading : Heading} (leads : Place.intoMarks heading token = some next) :
    next.postedTo? = Option.none := by
  unfold Place.intoMarks at leads
  split at leads <;> cases leads
  rfl

/-- Nor does a text of a heading. -/
theorem of_intoTexts {heading : Heading} (leads : Place.intoTexts heading token = some next) :
    next.postedTo? = Option.none := by
  unfold Place.intoTexts at leads
  split at leads
  · split at leads <;> cases leads <;> rfl
  · exact of_intoMarks leads

/-- Nor does what stands behind a date. -/
theorem of_intoDated {date : Token} (leads : Place.intoDated date token = some next) :
    next.postedTo? = Option.none := by
  unfold Place.intoDated at leads
  split at leads
  case h_13 => exact of_intoTexts leads
  all_goals
    cases leads
    rfl

/-- The first token of a line leads to a posting only if it is its account. -/
theorem of_intoLine (leads : Place.intoLine token = some next) : Posts token account next := by
  unfold Place.intoLine at leads
  split at leads <;> cases leads
  case h_2 => exact .account token
  all_goals exact .none rfl

/-- An account behind a flag is that of a posting. All other uses of an account lead to none. -/
theorem of_afterAccount (use : AccountUse) : Posts token account (Place.afterAccount use token) := by
  cases use with
  | flagged flag => exact .account flag
  | _ => exact .none rfl

/-- The value of metadata leads to no posting. -/
theorem of_intoMetadata {key : Token} (leads : Place.intoMetadata key token = some next) :
    next.postedTo? = Option.none := by
  unfold Place.intoMetadata at leads
  split at leads
  case h_6 => exact of_intoNumber leads
  all_goals
    cases leads
    rfl

/-- What is complete at a place belongs to the posting that is being read there. -/
theorem of_statement {complete : Statement} (found : place.statement? = some complete) :
    complete.postedTo? = place.postedTo? := by
  cases place with
  | operator purpose depth =>
    cases purpose <;> cases depth <;> cases found <;> rfl
  | afterAmount purpose => cases purpose <;> cases found <;> rfl
  | _ => cases found <;> rfl

/-- Every token of a line keeps to this: once a posting has its account it keeps it, and no token
but an account gives it one. -/
theorem of_continued (continues : Place.Continues token place next) :
    Posts token place.postedTo? next := by
  cases continues with
  | fileStart leads => exact of_intoLine leads
  | lineStart leads => exact of_intoLine leads
  | dated leads => exact .none (of_intoDated leads)
  | texts leads => exact .none (of_intoTexts leads)
  | marks leads => exact .none (of_intoMarks leads)
  | account use => exact of_afterAccount use
  | text use => cases use <;> exact .none rfl
  | currency use => cases use <;> exact .none rfl
  | metadataValue leads => exact .none (of_intoMetadata leads)
  | firstArgument leads => exact .none (of_intoArgument leads)
  | nextArgument leads => exact .none (of_intoArgument leads)
  | posted leads => exact .same (of_intoNumber leads)
  | operand leads => exact .same (of_intoNumber leads)
  | operator leads => exact of_afterOperand leads
  | afterAmount leads => exact .same (of_beyondAmount leads)
  | costEnd => exact .same rfl
  | firstCost _ leads => exact .same (of_intoCost rfl leads)
  | nextCost leads => exact .same (of_intoCost rfl leads)
  | costComma leads => exact .same (of_afterCostPart leads)
  | price leads => exact .same (of_intoPrice leads)
  | _ => exact .none rfl

/-- What every token within a line does to the posting that is being read. -/
theorem of_step (leads : place.step token = some next) : Posts token place.postedTo? next := by
  rcases Place.step_eq_some_iff.mp leads with ⟨_, complete, found, rfl⟩ | ⟨_, continues⟩
  · exact .same (of_statement found)
  · exact of_continued continues

end Place.Posts

/-- What follows an account is read as the amount of a posting to it. -/
def Token.IsFollowed (text : Text) (account : Token) : Prop :=
  ∃ first lines, Reading (.posted { first, account, stop := account.stop }) account.stop
    (text.drop account.stop) lines

/-- What follows the account that is posted to stays what is read as the amount. -/
theorem Statement.keeps_followed (text : Text) :
    Keeps text (fun place _ => ∀ account ∈ place.postedTo?, account.IsFollowed text) fun line =>
      ∀ account ∈ line.statement.postedTo?, account.IsFollowed text where
  start fresh := by rcases fresh with rfl | rfl <;> simp [Place.postedTo?]
  space kept _ _ := kept
  token kept _ _ leads further := by
    cases Place.Posts.of_step leads with
    | same same =>
      rw [same]
      exact kept
    | none none =>
      rw [none]
      simp
    | account first =>
      rintro account ⟨⟩
      exact ⟨first, _, further⟩
  done kept _ complete line member := by
    rw [Place.Posts.of_statement (statement?_of_mem_lines? complete member)]
    exact kept

/-- The amount between the account and the currency of a posting line can be read everywhere. The
tokens between the account and the currency are followed through the reading of the line, and can be
read again from there. -/
theorem PostingLine.Worded.readable {text : Text} {line : PostingLine} (worded : line.Worded text)
    (followed : line.account.IsFollowed text) {currency : Token}
    (present : line.currency = some currency) (stands : currency.Stands text) :
    IsReadable (Text.trim (Text.slice text line.account.stop currency.start)) := by
  obtain ⟨sort, chars, c, member, _⟩ := worded.currency currency present
  have order : line.account.stop ≤ currency.start := Nat.le_of_lt (Text.lt_of_mem_slice member)
  obtain ⟨first, lines, reading⟩ := followed
  have word := stands.isWord (Or.inr (Or.inl sort))
  rw [sort] at word
  obtain ⟨capital, inner, spelled, isCap, _⟩ := word.currency_cons
  obtain ⟨rest, follows⟩ : ∃ rest, text.drop currency.start = capital :: rest := by
    obtain ⟨expected, begins⟩ := stands
    exact ⟨inner ++ text.drop currency.stop, by rw [begins.whole, spelled, List.cons_append]⟩
  rw [Text.drop_eq_slice_append order, follows] at reading
  generalize Text.slice text line.account.stop currency.start = number at chars reading
  obtain ⟨before, behind, blankBefore, blankBehind, parts⟩ := Text.trim_between number
  have space {c : Char} (blank : Text.isBlank c = true) (amount : isAmountChar c = true) :
      isSpace c = true := by
    by_contra solid
    rw [not_blank_of_amount amount (by simpa using solid)] at blank
    cases blank
  have spacesBefore : ∀ c ∈ before, isSpace c = true := fun c member =>
    space (blankBefore c member) (chars c (parts ▸ List.mem_append_left _ member))
  have spacesBehind : ∀ c ∈ behind, isSpace c = true := fun c member =>
    space (blankBehind c member)
      (chars c (parts ▸ List.mem_append_right _ (List.mem_append_right _ member)))
  have numeric : ∀ c ∈ Text.trim number, isAmountChar c = true := fun c member =>
    chars c (Text.mem_of_mem_trim member)
  generalize Text.trim number = amount at numeric parts
  subst parts
  rw [List.append_assoc, List.append_assoc] at reading
  have numbering : Numbering { first, account := line.account, stop := line.account.stop }
      (.posted { first, account := line.account, stop := line.account.stop }) := .posted _
  exact ((reading_spaces_iff spacesBefore).mp reading).rereads numbering rfl
    ⟨behind, capital, rest, rfl, spacesBehind, isCap⟩ numeric

/-- Every transaction of a text without errors has words of the ledger language and amounts that
can be read everywhere. -/
theorem Statement.Reading.legible {path text : Text} {lines : List Line} {collected : Collected}
    (reading : Reading .fileStart 0 text lines)
    (whole : collect (Source.ofText path text) lines = .ok collected)
    {found : TransactionEntry} (member : .transaction found ∈ collected.directives)
    (file : FilePath) : (found.toRecord file).Legible := by
  have lexical : (found.toRecord file).Lexical := by
    refine reading.lexical whole member rfl rfl ?_
    rw [TransactionEntry.toRecord, List.map_map]
    rfl
  refine ⟨lexical, fun posting listed => ⟨lexical.postings posting listed, fun some => ?_⟩⟩
  obtain ⟨entry, inside, rfl⟩ := List.mem_map.mp listed
  obtain ⟨before, after, parts⟩ := List.append_of_mem member
  obtain ⟨parting⟩ := parting_of_collect whole parts
  obtain ⟨line, known, own, statement, rfl⟩ := parting.postingLines entry inside
  have worded : own.Worded text := by
    have worded := reading.worded_whole line known
    rwa [statement] at worded
  have followed : own.account.IsFollowed text := by
    refine (keeps_followed text).whole reading line known own.account ?_
    rw [statement]
    rfl
  cases present : own.currency with
  | none =>
    refine absurd ?_ some
    simp only [PostingEntry.toRecord, PostingEntry.ofLine, present, Text.slice, Nat.sub_self,
      List.take_zero]
    rfl
  | some currency =>
    obtain ⟨start, stop, _, _, _, standing⟩ := reading.laid_whole.each line known
    have stands : currency.Stands text :=
      ((standing.extent _ (by rw [statement]; rfl)).tokens currency (by simp [present])).1
    have same : (PostingEntry.ofLine (Source.ofText path text) own line.comment).toRecord.amount =
        Text.trim (Text.slice text own.account.stop currency.start) := by
      simp [PostingEntry.toRecord, PostingEntry.ofLine, present, Source.ofText]
    rw [same]
    exact worded.readable followed present stands

/-! ## Writing back -/

/-- Every transaction of a page without errors whose date is a date, and whose payee and narration are
texts, can be written back: the entry of its record is read as this one transaction. What stands in
the way is a blank in an account, for which the record is refused. The amounts carry the proof: an
amount was read behind its account once, and is read in the same steps behind any account. -/
theorem Page.transaction_returns {path : FilePath} {content : Bytes} {page : Page}
    (paged : Page.ofBytes path content = .ok page) (sound : page.errors = [])
    {found : TransactionEntry} (member : .transaction found ∈ page.directives) {date : Date}
    (read : Date.read found.date = .ok date) (said : (found.toRecord path).IsText) :
    ((∀ posting ∈ found.postings, ∀ c ∈ posting.account, Text.isBlank c = false) ∧
      ∃ entry, (found.toRecord path).render {} = .ok entry ∧
        entry.Faithful (found.toRecord path)) ∨
    ∃ posting ∈ found.postings, (∃ c ∈ posting.account, Text.isBlank c = true) ∧
      (found.toRecord path).render {} = .error (.notAWord "account" posting.account) := by
  obtain ⟨text, rfl, parsed⟩ := Page.encode_of_ofBytes paged sound
  obtain ⟨lines, collected, reading, whole, rfl⟩ :=
    Page.reading_of_ofText parsed sound (List.ne_nil_of_mem member)
  have legible := reading.legible whole member path
  have named := Date.fileName_eq date
  by_cases plain : ∀ posting ∈ found.postings, ∀ c ∈ posting.account, Text.isBlank c = false
  · have solid : (found.toRecord path).Solid := by
      refine legible.lexical.solid_iff.mpr ⟨said, fun posting listed => ?_⟩
      obtain ⟨entry, inside, rfl⟩ := List.mem_map.mp listed
      exact plain entry inside
    have rendered := legible.rendered solid read named
    exact Or.inl ⟨plain, _, rendered, legible.lexical.faithful rendered⟩
  · have blank : ∃ posting ∈ (found.toRecord path).postings,
        ∃ c ∈ posting.account, Text.isBlank c = true := by
      by_contra none
      refine plain fun posting inside c member => ?_
      rw [Bool.eq_false_iff]
      intro blank
      exact none ⟨posting.toRecord, List.mem_map_of_mem inside, c, member, blank⟩
    obtain ⟨posting, listed, seen, refused⟩ := legible.lexical.refused read named blank
    obtain ⟨entry, inside, rfl⟩ := List.mem_map.mp listed
    exact Or.inr ⟨entry, inside, seen, refused⟩

/-- A file with a transaction of a signed amount in parentheses that has a cost, a flagged posting
and metadata. -/
def Page.ornate : Bytes := Text.Utf8.encode
  "2024/1/5 open A:B\n2024-1-5 txn \"\\q\" #t ; n\n  k: 1\n  ! A:\u00e9  -(1 + 2) /3 EUR \x7b1 USD\x7d\n  A:B"

/-- Its transaction can be written back. The conditions are computed on the page, and the theorem
gives the entry. -/
theorem Page.ornate_returns : ∃ page found date,
    Page.ofBytes (FilePath.ofText "a.bean") Page.ornate = .ok page ∧ page.errors = [] ∧
      .transaction found ∈ page.directives ∧ Date.read found.date = .ok date ∧
      (found.toRecord (FilePath.ofText "a.bean")).IsText ∧
      ∃ entry, (found.toRecord (FilePath.ofText "a.bean")).render {} = .ok entry ∧
        entry.Faithful (found.toRecord (FilePath.ofText "a.bean")) := by
  have shape : (Page.ofBytes (FilePath.ofText "a.bean") Page.ornate).toOption.any (fun page =>
      page.errors.isEmpty && page.transactions.any fun found =>
        (Date.read found.date).isOk && decide (found.toRecord (FilePath.ofText "a.bean")).IsText &&
          found.postings.all fun posting => posting.account.all fun c => !Text.isBlank c) = true := by
    decide +kernel
  obtain ⟨page, paged, shape⟩ := exists_of_any shape
  simp only [Bool.and_eq_true, List.isEmpty_iff, List.any_eq_true, decide_eq_true_eq,
    List.all_eq_true, Bool.not_eq_true'] at shape
  obtain ⟨sound, found, listed, ⟨dated, said⟩, plain⟩ := shape
  have member := Page.directive_of_mem listed
  obtain ⟨date, read⟩ := exists_of_isOk dated
  rcases Page.transaction_returns paged sound member read said with
    ⟨_, returned⟩ | ⟨posting, inside, ⟨c, held, blank⟩, _⟩
  · exact ⟨page, found, date, paged, sound, member, read, said, returned⟩
  · rw [plain posting inside c held] at blank
    cases blank

/-- A file with a transaction of an account that has a blank which does not end a word. -/
def Page.hardSpaced : Bytes := Text.Utf8.encode
  "2024-01-05 * \"x\"\n  Assets:\u00a0Cash 1 USD\n"

/-- Its transaction cannot be written back. -/
theorem Page.hardSpaced_refused : ∃ page found date,
    Page.ofBytes (FilePath.ofText "a.bean") Page.hardSpaced = .ok page ∧ page.errors = [] ∧
      .transaction found ∈ page.directives ∧ Date.read found.date = .ok date ∧
      (found.toRecord (FilePath.ofText "a.bean")).IsText ∧
      ¬ ∃ entry, (found.toRecord (FilePath.ofText "a.bean")).render {} = .ok entry := by
  have shape : (Page.ofBytes (FilePath.ofText "a.bean") Page.hardSpaced).toOption.any (fun page =>
      page.errors.isEmpty && page.transactions.any fun found =>
        (Date.read found.date).isOk && decide (found.toRecord (FilePath.ofText "a.bean")).IsText &&
          !((found.toRecord (FilePath.ofText "a.bean")).render {}).isOk) = true := by
    decide +kernel
  obtain ⟨page, paged, shape⟩ := exists_of_any shape
  simp only [Bool.and_eq_true, List.isEmpty_iff, List.any_eq_true, decide_eq_true_eq] at shape
  obtain ⟨sound, found, listed, ⟨dated, said⟩, refused⟩ := shape
  obtain ⟨date, read⟩ := exists_of_isOk dated
  refine ⟨page, found, date, paged, sound, Page.directive_of_mem listed, read, said, ?_⟩
  rintro ⟨entry, rendered⟩
  rw [rendered] at refused
  cases refused

end Daybook
