import Daybook.Statement.Place

/-!
# Where tokens lead

Within a line every token leads from one place to another, or nowhere. What a place is good for is
preserved by each of these steps, and there are many such properties. The steps are therefore named
here once, each with the sort that its token must have or with the part of the grammar that it is
left to. Whatever a step preserves is then shown step by step, and a change of the grammar changes
the steps that it is about and no other.

A comment is no step of its own. It may stand wherever a statement is complete, and leads behind the
statement.
-/
namespace Daybook.Place

/-- A token that is no comment behind a statement leads from one place to another. -/
inductive Continues (token : Token) : Place → Place → Prop where
  | fileStart {next : Place} (leads : intoLine token = some next) : Continues token fileStart next
  | lineStart {next : Place} (leads : intoLine token = some next) : Continues token lineStart next
  | dated {date : Token} {next : Place} (leads : intoDated date token = some next) :
    Continues token (dated date) next
  | texts {heading : Heading} {next : Place} (leads : intoTexts heading token = some next) :
    Continues token (texts heading) next
  | marks {heading : Heading} {next : Place} (leads : intoMarks heading token = some next) :
    Continues token (marks heading) next
  | account (use : AccountUse) (sort : token.terminal = .account) :
    Continues token (account use) (afterAccount use token)
  | text (use : TextUse) (sort : token.terminal = .quotedText) :
    Continues token (text use) (afterText use token)
  | currency (use : CurrencyUse) (sort : token.terminal = .currency) :
    Continues token (currency use) (afterCurrency use token)
  | firstCurrency (date owner : Token) (sort : token.terminal = .currency) :
    Continues token (firstCurrency date owner) (nextCurrency date owner [token] token.stop)
  /-- The booking of an opening without currencies. -/
  | booking (date owner : Token) (sort : token.terminal = .quotedText) :
    Continues token (firstCurrency date owner) (ended (.opening date owner [] token.stop))
  | comma (date owner : Token) (currencies : List Token) (stop : Nat)
      (sort : token.terminal = .comma) :
    Continues token (nextCurrency date owner currencies stop)
      (currency (.opening date owner currencies))
  /-- The booking of an opening with currencies. -/
  | bookingOf (date owner : Token) (currencies : List Token) (stop : Nat)
      (sort : token.terminal = .quotedText) :
    Continues token (nextCurrency date owner currencies stop)
      (ended (.opening date owner currencies token.stop))
  | pluginText (sort : token.terminal = .quotedText) :
    Continues token pluginText (ended .otherUndated)
  | metadataColon (key : Token) (sort : token.terminal = .colon) :
    Continues token (metadataColon key) (metadataValue key)
  | metadataValue {key : Token} {next : Place} (leads : intoMetadata key token = some next) :
    Continues token (metadataValue key) next
  | firstArgument {next : Place} (leads : intoArgument token = some next) :
    Continues token firstArgument next
  | nextArgument {next : Place} (leads : intoArgument token = some next) :
    Continues token nextArgument next
  | posted {line : PostingLine} {next : Place}
      (leads : intoNumber (.posting line) 0 token = some next) : Continues token (posted line) next
  | operand {purpose : Purpose} {depth : Nat} {next : Place}
      (leads : intoNumber purpose depth token = some next) :
    Continues token (operand purpose depth) next
  | operator {purpose : Purpose} {depth : Nat} {next : Place}
      (leads : afterOperand purpose depth token = some next) :
    Continues token (operator purpose depth) next
  | afterAmount {purpose : Purpose} {next : Place}
      (leads : beyondAmount purpose token = some next) : Continues token (afterAmount purpose) next
  /-- The end of a cost with nothing in it. -/
  | costEnd (line : PostingLine) (sort : token.terminal = .closeBrace) :
    Continues token (firstCost line) (price line)
  | firstCost {line : PostingLine} {next : Place} (sort : token.terminal ≠ .closeBrace)
      (leads : intoCost line (.firstCost line) token = some next) :
    Continues token (firstCost line) next
  | nextCost {line : PostingLine} {next : Place}
      (leads : intoCost line (.nextCost line) token = some next) :
    Continues token (nextCost line) next
  | costComma {line : PostingLine} {next : Place}
      (leads : afterCostPart line token = some next) : Continues token (costComma line) next
  | price {line : PostingLine} {next : Place} (leads : intoPrice line token = some next) :
    Continues token (price line) next

variable {place next : Place} {token : Token}

/-- The steps are those of the grammar. The cases of the function are the constructors of the
relation. -/
theorem continued_eq_some_iff : place.continued token = some next ↔ Continues token place next := by
  constructor
  · intro leads
    cases place with
    | fileStart => exact .fileStart leads
    | lineStart => exact .lineStart leads
    | dated date => exact .dated leads
    | texts heading => exact .texts leads
    | marks heading => exact .marks leads
    | account use =>
      obtain ⟨sort, same⟩ := Option.ite_none_right_eq_some.mp leads
      cases same
      exact .account use sort
    | text use =>
      obtain ⟨sort, same⟩ := Option.ite_none_right_eq_some.mp leads
      cases same
      exact .text use sort
    | currency use =>
      obtain ⟨sort, same⟩ := Option.ite_none_right_eq_some.mp leads
      cases same
      exact .currency use sort
    | firstCurrency date owner =>
      simp only [continued] at leads
      split at leads <;> cases leads
      · next sort => exact .firstCurrency date owner sort
      · next sort => exact .booking date owner sort
    | nextCurrency date owner currencies stop =>
      simp only [continued] at leads
      split at leads <;> cases leads
      · next sort => exact .comma date owner currencies stop sort
      · next sort => exact .bookingOf date owner currencies stop sort
    | pluginText =>
      obtain ⟨sort, same⟩ := Option.ite_none_right_eq_some.mp leads
      cases same
      exact .pluginText sort
    | metadataColon key =>
      obtain ⟨sort, same⟩ := Option.ite_none_right_eq_some.mp leads
      cases same
      exact .metadataColon key sort
    | metadataValue key => exact .metadataValue leads
    | firstArgument => exact .firstArgument leads
    | nextArgument => exact .nextArgument leads
    | posted line => exact .posted leads
    | operand purpose depth => exact .operand leads
    | operator purpose depth => exact .operator leads
    | afterAmount purpose => exact .afterAmount leads
    | firstCost line =>
      simp only [continued] at leads
      split at leads
      · next sort =>
        cases leads
        exact .costEnd line sort
      · next sort => exact .firstCost sort leads
    | nextCost line => exact .nextCost leads
    | costComma line => exact .costComma leads
    | price line => exact .price leads
    | _ => cases leads
  · intro continues
    cases continues <;> simp_all only [continued, if_true, if_false]

/-- A token within a line is a comment behind a complete statement, or it leads on by a step. -/
theorem step_eq_some_iff : place.step token = some next ↔
    (token.terminal = .comment ∧ ∃ statement, place.statement? = some statement ∧
      next = commented statement token) ∨
    ((token.terminal = .comment → place.statement? = none) ∧ Continues token place next) := by
  rw [← continued_eq_some_iff]
  unfold step
  by_cases comment : token.terminal = .comment
  · rw [if_pos comment]
    cases complete : place.statement? with
    | none => simp [comment]
    | some statement => simp [comment, eq_comm]
  · simp [comment]

end Daybook.Place
