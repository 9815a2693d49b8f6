import Daybook.Proofs.Page.FurtherLines

/-!
# Stages of a posting line

A posting line keeps its account and its currency, but of its cost and its price only that they
are there. Behind its account it goes through five stages, and every token takes it from one of
them to another or leaves it where it is. What one token can do is said once, by `Stage.Moves`;
what is known at a stage is then preserved by each of these moves, and no place of the grammar has
to be looked at again.
-/
namespace Daybook

open Lexeme

/-! ## Tokens behind an account -/

/-- The sorts of tokens that move the end of a posting line. -/
def Terminal.isKept : Terminal → Bool
  | currency => true
  | date => true
  | quotedText => true
  | asterisk => true
  | terminal => terminal.isNumeric

/-- Every token of a number moves the end of its posting line. -/
theorem Terminal.isKept_of_isNumeric {terminal : Terminal} (numeric : terminal.isNumeric = true) :
    terminal.isKept = true := by
  cases terminal <;> first | rfl | cases numeric

/-- The text does not end in a blank. -/
def Text.Trimmed (text : Text) : Prop := ∀ c ∈ text.getLast?, isBlank c = false

/-- A text ends as its last part does. -/
theorem Text.Trimmed.append {text : Text} (trimmed : text.Trimmed) (nonempty : text ≠ [])
    (before : Text) : (before ++ text).Trimmed := by
  rwa [Trimmed, List.getLast?_append_of_ne_nil _ nonempty]

namespace Lexeme

/-- One part of a date is a hyphen or a slash and digits. -/
theorem amount_of_mem_datePart {text : Text} {length : Nat} (found : datePart text = some length) :
    ∀ c ∈ text.take length, isAmountChar c = true := by
  unfold datePart at found
  split at found
  · exact amount_of_mem_signed rfl found
  · exact amount_of_mem_signed rfl found
  · cases found

/-- The characters of a date are characters of an expression. -/
theorem amount_of_mem_date {text : Text} {length : Nat} (found : dateLength text = some length) :
    ∀ c ∈ text.take length, isAmountChar c = true := by
  simp only [dateLength, bind, Option.bind_eq_some_iff, pure, Option.some.injEq] at found
  obtain ⟨year, begins, month, middle, day, ends, rfl⟩ := found
  unfold atLeast at begins
  simp only [Option.ite_none_right_eq_some, Option.some.injEq] at begins
  obtain ⟨_, rfl⟩ := begins
  intro c member
  rw [List.take_add, List.take_add, List.mem_append, List.mem_append] at member
  rcases member with (member | member) | member
  · simp [isAmountChar, sort_of_mem_stretch member]
  · exact amount_of_mem_datePart middle c member
  · exact amount_of_mem_datePart ends c member

/-- The sorts of tokens of an expression end before blank space. -/
theorem stopsAt_of_numeric {terminal : Terminal} (numeric : terminal.isNumeric = true) {c : Char}
    (space : isSpace c = true) : terminal.stopsAt c = true := by
  cases terminal
  case number | openParen | closeParen | unarySign | addSign | multiplySign =>
    simp [Terminal.stopsAt, space]
  all_goals cases numeric

/-- A mark of one character is that character. -/
theorem text_of_oneOf {mark : Char} {text rest : Text} (nonempty : text ≠ [])
    (found : oneOf (· == mark) (text ++ rest) = some text.length) : text = [mark] := by
  cases text with
  | nil => exact absurd rfl nonempty
  | cons c inner =>
    simp only [oneOf, List.cons_append, Option.ite_none_right_eq_some, beq_iff_eq,
      Option.some.injEq, List.length_cons] at found
    obtain ⟨rfl, size⟩ := found
    rw [List.eq_nil_of_length_eq_zero (show inner.length = 0 by omega)]

/-- A word of the grammar is that word. -/
theorem text_of_literal {word text rest : Text}
    (found : literal word (text ++ rest) = some text.length) : text = word := by
  simp only [literal, Option.ite_none_right_eq_some, Option.some.injEq] at found
  obtain ⟨beginning, size⟩ := found
  obtain ⟨tail, same⟩ := List.isPrefixOf_iff_prefix.mp beginning
  exact (List.append_inj same size).1.symm

/-- A token that is no word of its own is a lexeme of its sort. -/
theorem Begins.found {expected : Expected} {position : Nat} {text rest : Text} {token : Token}
    (begins : Begins expected position text token rest)
    (plain : token.terminal ∉ [Terminal.includeWord, .optionWord, .pluginWord, .metadataKey]) :
    token.terminal.length? (token.text ++ rest) = some token.text.length ∧ token.text ≠ [] := by
  obtain ⟨c, inner, spelled, _⟩ := begins.plain
  have held := (begins.held plain).2
  rw [begins.whole] at held
  exact ⟨held, by simp [spelled]⟩

/-- The last character of a token that moves the end of a posting line is visible. Numbers,
operators and dates stop at a space, a currency has no blanks, and a quotation ends with its
quote. -/
theorem Begins.trimmed {expected : Expected} {position : Nat} {text rest : Text} {token : Token}
    (begins : Begins expected position text token rest) (kept : token.terminal.isKept = true) :
    token.text.Trimmed := by
  obtain ⟨held, nonempty⟩ := begins.found (by
    intro key
    simp only [List.mem_cons, List.not_mem_nil, or_false] at key
    rcases key with key | key | key | key <;>
      (rw [key] at kept; cases kept))
  have inside : (token.text ++ rest).take token.text.length = token.text := List.take_left
  -- Of the characters of an expression only the blank space is invisible.
  have visible (amount : ∀ c ∈ token.text, isAmountChar c = true)
      (stops : ∀ c, isSpace c = true → token.terminal.stopsAt c = true) : token.text.Trimmed := by
    intro c last
    have member := List.mem_of_getLast? last
    refine not_blank_of_amount (amount c member) ?_
    rw [Bool.eq_false_iff]
    exact fun space => not_mem_of_stopsAt (stops c space) held member
  by_cases numeric : token.terminal.isNumeric = true
  · refine visible ?_ fun c => stopsAt_of_numeric numeric
    rw [← inside]
    exact amount_of_mem_numeric numeric held
  · cases sort : token.terminal with
    | currency =>
      rw [sort] at held
      intro c last
      have bounds := (isWord_of_append (Or.inr (Or.inl rfl)) held).bounds_of_currency
        (List.mem_of_getLast? last)
      rw [Bool.eq_false_iff]
      intro blank
      have outside := Text.isBlank_outside blank
      omega
    | quotedText =>
      intro c last
      rw [begins.getLast_quoted sort] at last
      cases last
      rfl
    | date =>
      refine visible ?_ fun c space => by simp [sort, Terminal.stopsAt, space]
      rw [sort] at held
      rw [← inside]
      exact amount_of_mem_date held
    | asterisk =>
      rw [sort] at held
      rw [text_of_oneOf nonempty held]
      rintro _ ⟨⟩
      rfl
    | _ =>
      rw [sort] at kept numeric
      exact absurd kept numeric

/-- The token that opens a cost begins with a brace. -/
theorem Begins.opens {expected : Expected} {position : Nat} {text rest : Text} {token : Token}
    (begins : Begins expected position text token rest)
    (sort : token.terminal = .openBrace ∨ token.terminal = .doubleOpenBrace) :
    ∃ inner, token.text = '\x7b' :: inner := by
  obtain ⟨held, nonempty⟩ := begins.found (by rcases sort with sort | sort <;> rw [sort] <;> decide)
  rcases sort with sort | sort <;> rw [sort] at held
  · exact ⟨_, text_of_oneOf nonempty held⟩
  · exact ⟨_, text_of_literal held⟩

/-- The token that closes a cost ends with a brace. -/
theorem Begins.closes {expected : Expected} {position : Nat} {text rest : Text} {token : Token}
    (begins : Begins expected position text token rest)
    (sort : token.terminal = .closeBrace ∨ token.terminal = .doubleCloseBrace) :
    ∃ inner, token.text = inner ++ ['\x7d'] := by
  obtain ⟨held, nonempty⟩ := begins.found (by rcases sort with sort | sort <;> rw [sort] <;> decide)
  rcases sort with sort | sort <;> rw [sort] at held
  · exact ⟨[], text_of_oneOf nonempty held⟩
  · exact ⟨['\x7d'], text_of_literal held⟩

/-- The mark of a price begins with an at sign, and no brace is closed in it. -/
theorem Begins.marks {expected : Expected} {position : Nat} {text rest : Text} {token : Token}
    (begins : Begins expected position text token rest)
    (sort : token.terminal = .atMark ∨ token.terminal = .doubleAt) :
    ∃ inner, token.text = '@' :: inner ∧ '\x7d' ∉ inner := by
  obtain ⟨held, nonempty⟩ := begins.found (by rcases sort with sort | sort <;> rw [sort] <;> decide)
  rcases sort with sort | sort <;> rw [sort] at held
  · exact ⟨[], text_of_oneOf nonempty held, by decide⟩
  · exact ⟨['@'], text_of_literal held, by decide⟩

/-- No brace is closed in a number or a currency. -/
theorem Begins.braceless {expected : Expected} {position : Nat} {text rest : Text} {token : Token}
    (begins : Begins expected position text token rest)
    (sort : token.terminal.isNumeric = true ∨ token.terminal = .currency) :
    '\x7d' ∉ token.text := by
  intro member
  rcases sort with numeric | currency
  · have held := begins.held_of_numeric numeric
    rw [begins.whole] at held
    have amount := amount_of_mem_numeric numeric held '\x7d' (by simpa using member)
    cases amount
  · obtain ⟨held, _⟩ := begins.found (by rw [currency]; decide)
    rw [currency] at held
    have bounds := (isWord_of_append (Or.inr (Or.inl rfl)) held).bounds_of_currency member
    revert bounds
    decide

end Lexeme

/-! ## Stages of a posting line -/

/-- How far a posting line has been read behind its account. -/
inductive Stage where
  /-- Nothing more than an amount has been read, and no part of it is missing. -/
  | settled
  /-- Within the number of the amount. -/
  | counted
  /-- Within the braces of the cost. -/
  | costed
  /-- Behind the braces of the cost. -/
  | closed
  /-- Behind the mark of the price. -/
  | priced
  deriving DecidableEq

/-- The stage of the posting line that a number belongs to. -/
def Purpose.stage? : Purpose → Option (Stage × PostingLine)
  | .posting line => some (.counted, line)
  | .totalCost line => some (.costed, line)
  | .firstCost line => some (.costed, line)
  | .restCost line => some (.costed, line)
  | .nextCost line => some (.costed, line)
  | .price line => some (.priced, line)
  | _ => none

/-- The stage of the posting line that is being read. -/
def Place.stage? : Place → Option (Stage × PostingLine)
  | .posted line => some (.settled, line)
  | .operand purpose _ => purpose.stage?
  | .operator purpose _ => purpose.stage?
  | .afterAmount (.posting line) => some (.settled, line)
  | .afterAmount purpose => purpose.stage?
  | .firstCost line => some (.costed, line)
  | .nextCost line => some (.costed, line)
  | .costComma line => some (.costed, line)
  | .price line => some (.closed, line)
  | .ended (.posting line) => some (.settled, line)
  | _ => none

/-- A token behind an account is passed over, or it moves the end of the line. A quoted text is
never passed over. -/
inductive PostingLine.Follows (token : Token) (line : PostingLine) : PostingLine → Prop where
  | passed (unquoted : token.terminal ≠ .quotedText) : Follows token line line
  | kept (kept : token.terminal.isKept = true) : Follows token line (line.upTo token)

/-- What one token can do to the stage of a posting line: the line begins with its account, the
token is part of the amount or ends it, it is part of the cost or one of its braces, or it is part
of the price or the mark in front of it. Or there is no posting line behind the token. -/
inductive Stage.Moves (token : Token) :
    Option (Stage × PostingLine) → Option (Stage × PostingLine) → Prop where
  | away (old : Option (Stage × PostingLine)) : Moves token old none
  | account (first : Token) :
      Moves token none (some (.settled, { first, account := token, stop := token.stop }))
  | number {stage : Stage} {line more : PostingLine} (behind : stage = .settled ∨ stage = .counted)
      (follows : line.Follows token more) : Moves token (some (stage, line)) (some (.counted, more))
  | currency (line : PostingLine) (sort : token.terminal = .currency) :
      Moves token (some (.counted, line))
        (some (.settled, { line.upTo token with currency := some token }))
  | opened (line : PostingLine)
      (sort : token.terminal = .openBrace ∨ token.terminal = .doubleOpenBrace) :
      Moves token (some (.settled, line)) (some (.costed, { line with hasCost := true }))
  | part {line more : PostingLine} (follows : line.Follows token more) :
      Moves token (some (.costed, line)) (some (.costed, more))
  | closed (line : PostingLine)
      (sort : token.terminal = .closeBrace ∨ token.terminal = .doubleCloseBrace) :
      Moves token (some (.costed, line)) (some (.closed, line))
  | marked {stage : Stage} (line : PostingLine) (behind : stage = .settled ∨ stage = .closed)
      (sort : token.terminal = .atMark ∨ token.terminal = .doubleAt) :
      Moves token (some (stage, line)) (some (.priced, { line with hasPrice := true }))
  | figure {line more : PostingLine}
      (sort : token.terminal.isNumeric = true ∨ token.terminal = .currency)
      (follows : line.Follows token more) :
      Moves token (some (.priced, line)) (some (.priced, more))

/-! ## What a token does -/

namespace Place

open Stage

variable {token : Token} {next : Place}

/-- A number or a currency follows the stage of what it is read for. -/
theorem moves_purpose {purpose more : Purpose}
    (sort : token.terminal.isNumeric = true ∨ token.terminal = .currency)
    (follows : more = purpose ∨ more = purpose.upTo token) :
    Moves token purpose.stage? more.stage? := by
  have kept : token.terminal.isKept = true := by
    rcases sort with numeric | currency
    · exact Terminal.isKept_of_isNumeric numeric
    · rw [currency]
      rfl
  have unquoted : token.terminal ≠ .quotedText := by
    intro quoted
    rw [quoted] at sort
    rcases sort with numeric | currency
    · cases numeric
    · cases currency
  rcases follows with rfl | rfl
  · cases more with
    | posting line => exact .number (Or.inr rfl) (.passed unquoted)
    | price line => exact .figure sort (.passed unquoted)
    | totalCost line => exact .part (.passed unquoted)
    | firstCost line => exact .part (.passed unquoted)
    | restCost line => exact .part (.passed unquoted)
    | nextCost line => exact .part (.passed unquoted)
    | _ => exact .away _
  · cases purpose with
    | posting line => exact .number (Or.inr rfl) (.kept kept)
    | price line => exact .figure sort (.kept kept)
    | totalCost line => exact .part (.kept kept)
    | firstCost line => exact .part (.kept kept)
    | restCost line => exact .part (.kept kept)
    | nextCost line => exact .part (.kept kept)
    | _ => exact .away _

/-- The first token of an operand is numeric, and the number goes on with it. -/
theorem intoNumber_cases {purpose : Purpose} {depth : Nat}
    (leads : intoNumber purpose depth token = some next) :
    token.terminal.isNumeric = true ∧ ∃ more, (more = purpose ∨ more = purpose.upTo token) ∧
      next.stage? = more.stage? := by
  unfold intoNumber at leads
  split at leads
  · next sort =>
    cases leads
    exact ⟨by rw [sort]; rfl, _, Or.inr rfl, rfl⟩
  · next sort =>
    cases leads
    exact ⟨by rw [sort]; rfl, _, Or.inl rfl, rfl⟩
  · next sort =>
    cases leads
    exact ⟨by rw [sort]; rfl, _, Or.inr rfl, rfl⟩
  · cases leads

/-- A number moves the stage of what it is read for: the amount, the cost or the price. -/
theorem intoNumber_moves {purpose : Purpose} {depth : Nat}
    (leads : intoNumber purpose depth token = some next) :
    Moves token purpose.stage? next.stage? := by
  obtain ⟨numeric, more, follows, stage⟩ := intoNumber_cases leads
  rw [stage]
  exact moves_purpose (Or.inl numeric) follows

/-- Behind its account alone a posting line goes on with its amount. -/
theorem posted_moves {line : PostingLine} (leads : intoNumber (.posting line) 0 token = some next) :
    Moves token (some (.settled, line)) next.stage? := by
  obtain ⟨numeric, more, follows, stage⟩ := intoNumber_cases leads
  rw [stage]
  rcases follows with rfl | rfl
  · exact .number (Or.inl rfl) (.passed (by rintro quoted; rw [quoted] at numeric; cases numeric))
  · exact .number (Or.inl rfl) (.kept (Terminal.isKept_of_isNumeric numeric))

/-- The currency behind a number ends an amount, and belongs to the cost or the price otherwise. -/
theorem afterNumber_moves {purpose : Purpose} (sort : token.terminal = .currency)
    (leads : afterNumber purpose token = some next) : Moves token purpose.stage? next.stage? := by
  cases purpose with
  | posting line =>
    cases leads
    exact .currency line sort
  | totalCost line =>
    cases leads
    exact moves_purpose (Or.inr sort) (Or.inr rfl)
  | firstCost line =>
    cases leads
    exact moves_purpose (Or.inr sort) (Or.inr rfl)
  | restCost line =>
    cases leads
    exact moves_purpose (Or.inr sort) (Or.inr rfl)
  | nextCost line =>
    cases leads
    exact moves_purpose (Or.inr sort) (Or.inr rfl)
  | price line =>
    cases leads
    exact moves_purpose (Or.inr sort) (Or.inr rfl)
  | _ =>
    cases leads
    exact .away _

/-- No posting line stands behind an argument. -/
theorem stage_intoArgument (leads : intoArgument token = some next) : next.stage? = none := by
  unfold intoArgument at leads
  split at leads
  case h_6 =>
    obtain ⟨_, more, follows, stage⟩ := intoNumber_cases leads
    rw [stage]
    rcases follows with rfl | rfl <;> rfl
  all_goals
    cases leads
    rfl

/-- Behind an operand the number goes on, ends with its currency, or gives way to what may follow it
without one. -/
theorem afterOperand_moves {purpose : Purpose} {depth : Nat}
    (leads : afterOperand purpose depth token = some next) :
    Moves token purpose.stage? next.stage? := by
  unfold afterOperand at leads
  split at leads
  · next sort =>
    cases leads
    exact moves_purpose (Or.inl (by rw [sort]; rfl)) (Or.inr rfl)
  · next sort =>
    cases leads
    exact moves_purpose (Or.inl (by rw [sort]; rfl)) (Or.inr rfl)
  · next sort =>
    cases leads
    exact moves_purpose (Or.inl (by rw [sort]; rfl)) (Or.inl rfl)
  · next sort => exact afterNumber_moves sort leads
  · next sort =>
    split at leads
    · cases leads
      exact .part (.passed (by simp [sort]))
    · cases leads
  · split at leads
    · cases leads
      exact .away _
    · cases leads
  · split at leads
    · rw [stage_intoArgument leads]
      exact .away _
    · cases leads
  · cases leads

/-- A date, a text, an asterisk or a number within the braces belongs to the cost. -/
theorem intoCost_moves {line : PostingLine} {purpose : Purpose}
    (same : purpose.stage? = some (.costed, line))
    (leads : intoCost line purpose token = some next) :
    Moves token (some (.costed, line)) next.stage? := by
  unfold intoCost at leads
  split at leads
  · next sort =>
    cases leads
    exact .part (.kept (by rw [sort]; rfl))
  · next sort =>
    cases leads
    exact .part (.kept (by rw [sort]; rfl))
  · next sort =>
    cases leads
    exact .part (.kept (by rw [sort]; rfl))
  · rw [← same]
    exact intoNumber_moves leads

/-- Behind a part of a cost stand a comma or the brace that ends the cost. -/
theorem afterCostPart_moves {line : PostingLine} (leads : afterCostPart line token = some next) :
    Moves token (some (.costed, line)) next.stage? := by
  unfold afterCostPart at leads
  split at leads
  · next sort =>
    cases leads
    exact .part (.passed (by simp [sort]))
  · next sort =>
    cases leads
    exact .closed line (Or.inl sort)
  · cases leads

/-- The mark of a price comes behind an amount or behind the braces of a cost, and never within
them. -/
theorem intoPrice_moves {stage : Stage} {line : PostingLine}
    (behind : stage = .settled ∨ stage = .closed) (leads : intoPrice line token = some next) :
    Moves token (some (stage, line)) next.stage? := by
  unfold intoPrice at leads
  split at leads
  · next sort =>
    cases leads
    exact .marked line behind (Or.inl sort)
  · next sort =>
    cases leads
    exact .marked line behind (Or.inr sort)
  · cases leads

/-- Behind an amount the line goes on with its cost, with its price or, within the braces, with the
next part of the cost. -/
theorem beyondAmount_moves {purpose : Purpose} (leads : beyondAmount purpose token = some next) :
    Moves token (afterAmount purpose).stage? next.stage? := by
  cases purpose with
  | posting line =>
    simp only [beyondAmount] at leads
    split at leads
    · next sort =>
      cases leads
      exact .opened line (Or.inl sort)
    · next sort =>
      cases leads
      exact .opened line (Or.inr sort)
    · exact intoPrice_moves (Or.inl rfl) leads
  | totalCost line =>
    simp only [beyondAmount, Option.ite_none_right_eq_some, Option.some.injEq] at leads
    obtain ⟨sort, rfl⟩ := leads
    exact .closed line (Or.inr sort)
  | firstCost line => exact afterCostPart_moves leads
  | nextCost line => exact afterCostPart_moves leads
  | restCost line =>
    simp only [beyondAmount, Option.ite_none_right_eq_some, Option.some.injEq] at leads
    obtain ⟨sort, rfl⟩ := leads
    exact .closed line (Or.inl sort)
  | _ => cases leads

/-- No posting line stands behind the marks of a heading. -/
theorem stage_intoMarks {heading : Heading} (leads : intoMarks heading token = some next) :
    next.stage? = none := by
  simp only [intoMarks, Option.ite_none_right_eq_some, Option.some.injEq] at leads
  obtain ⟨_, rfl⟩ := leads
  rfl

/-- A heading is no posting line. -/
theorem stage_intoTexts {heading : Heading} (leads : intoTexts heading token = some next) :
    next.stage? = none := by
  unfold intoTexts at leads
  split at leads
  · split at leads
    · cases leads
      rfl
    · cases leads
      rfl
  · exact stage_intoMarks leads

/-- Nor is a line that begins with a date. -/
theorem stage_intoDated {date : Token} (leads : intoDated date token = some next) :
    next.stage? = none := by
  unfold intoDated at leads
  split at leads
  case h_13 => exact stage_intoTexts leads
  all_goals
    cases leads
    rfl

/-- Nor is metadata. -/
theorem stage_intoMetadata {key : Token} (leads : intoMetadata key token = some next) :
    next.stage? = none := by
  unfold intoMetadata at leads
  split at leads
  case h_6 =>
    obtain ⟨_, more, follows, stage⟩ := intoNumber_cases leads
    rw [stage]
    rcases follows with rfl | rfl <;> rfl
  all_goals
    cases leads
    rfl

/-- A line begins as a posting line only with an account, or with a flag and then an account; at its
first token no stage has been reached. -/
theorem intoLine_moves (leads : intoLine token = some next) : Moves token none next.stage? := by
  unfold intoLine at leads
  split at leads
  case h_2 =>
    cases leads
    exact .account token
  case h_10 => cases leads
  all_goals
    cases leads
    exact .away _

/-- A token within a line moves the stage of its posting line. Places outside of postings have no
stage; the others move as their lemmas say. -/
theorem continued_moves {place : Place} (continues : Continues token place next) :
    Moves token place.stage? next.stage? := by
  have away (none : next.stage? = none) : Moves token place.stage? next.stage? := by
    rw [none]
    exact .away _
  cases continues with
  | fileStart leads => exact intoLine_moves leads
  | lineStart leads => exact intoLine_moves leads
  | dated leads => exact away (stage_intoDated leads)
  | texts leads => exact away (stage_intoTexts leads)
  | marks leads => exact away (stage_intoMarks leads)
  | account use =>
    cases use with
    | flagged flag => exact .account flag
    | _ => exact .away _
  | text use => cases use <;> exact .away _
  | currency use => cases use <;> exact .away _
  | metadataValue leads => exact away (stage_intoMetadata leads)
  | firstArgument leads => exact away (stage_intoArgument leads)
  | nextArgument leads => exact away (stage_intoArgument leads)
  | posted leads => exact posted_moves leads
  | operand leads => exact intoNumber_moves leads
  | operator leads => exact afterOperand_moves leads
  | afterAmount leads => exact beyondAmount_moves leads
  | costEnd line sort => exact .closed line (Or.inl sort)
  | firstCost _ leads => exact intoCost_moves rfl leads
  | nextCost leads => exact intoCost_moves rfl leads
  | costComma leads => exact afterCostPart_moves leads
  | price leads => exact intoPrice_moves (Or.inr rfl) leads
  | _ => exact .away _

/-- A posting line may end where its amount is complete, behind its cost and behind its price, and
not only there when it has a comment. -/
theorem stage_of_posting {place : Place} {line : PostingLine}
    (complete : place.statement? = some (.posting line)) :
    (∃ comment, place = .commented (.posting line) comment) ∨
      ∃ stage, place.stage? = some (stage, line) ∧ stage ≠ .counted ∧ stage ≠ .costed := by
  cases place with
  | commented statement comment =>
    cases complete
    exact Or.inl ⟨comment, rfl⟩
  | ended statement =>
    cases complete
    exact Or.inr ⟨.settled, rfl, by decide, by decide⟩
  | posted line =>
    cases complete
    exact Or.inr ⟨.settled, rfl, by decide, by decide⟩
  | operator purpose depth =>
    cases depth with
    | zero => cases purpose <;> cases complete
    | succ depth => cases purpose <;> cases complete
  | afterAmount purpose =>
    cases purpose with
    | posting line =>
      cases complete
      exact Or.inr ⟨.settled, rfl, by decide, by decide⟩
    | price line =>
      cases complete
      exact Or.inr ⟨.priced, rfl, by decide, by decide⟩
    | _ => cases complete
  | price line =>
    cases complete
    exact Or.inr ⟨.closed, rfl, by decide, by decide⟩
  | _ => cases complete

end Place

end Daybook
