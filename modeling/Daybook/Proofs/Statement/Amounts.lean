import Daybook.Proofs.Lexeme.Words

/-!
# Amounts of postings

The number of a posting is an expression: numbers and parentheses with signs between them. Its
characters alone decide how far it goes. Wherever it begins, reading goes from one of three
places to another until the currency ends it, and the tokens on the way cover exactly these
characters.
-/
namespace Daybook

/-- The sorts of tokens of an expression. -/
def Terminal.isNumeric : Terminal → Bool
  | number => true
  | openParen => true
  | closeParen => true
  | unarySign => true
  | addSign => true
  | multiplySign => true
  | _ => false

namespace Lexeme

/-- Characters of an expression: digits, signs, parentheses, and blank space between them. -/
def isAmountChar (c : Char) : Bool :=
  isDigit c || isSpace c || ['.', ',', '+', '-', '*', '/', '(', ')'].contains c

/-- A currency is a capital and characters that may follow it. -/
theorem IsWord.currency_cons {currency : Text} (word : IsWord .currency currency) :
    ∃ c inner, currency = c :: inner ∧ isCapital c = true ∧
      ∀ one ∈ inner, isCurrencyChar one = true := by
  cases currency with
  | nil => cases word
  | cons c inner =>
    simp only [IsWord, Terminal.length?, currencyLength] at word
    split at word
    · next capital =>
      refine ⟨c, inner, rfl, capital, ?_⟩
      have whole : inner.length ≤ (inner.takeWhile isCurrencyChar).length := by
        have trimmed := (List.dropWhile_sublist (fun c => !isCurrencyEnd c)
          (l := (inner.takeWhile isCurrencyChar).reverse)).length_le
        simp only [Option.some.injEq, List.length_cons, List.length_reverse] at word trimmed
        omega
      have same : inner.takeWhile isCurrencyChar = inner :=
        (List.takeWhile_prefix isCurrencyChar).eq_of_length_le whole
      exact List.takeWhile_eq_self_iff.mp same
    · cases word

/-- The characters of a currency come after the quotation marks and before the small letters. -/
theorem IsWord.bounds_of_currency {currency : Text} (word : IsWord .currency currency) {c : Char}
    (member : c ∈ currency) : 39 ≤ c.toNat ∧ c.toNat ≤ 95 := by
  obtain ⟨first, inner, rfl, capital, others⟩ := word.currency_cons
  have char : isCurrencyChar c = true := by
    rcases List.mem_cons.mp member with rfl | inside
    · simp [isCurrencyChar, isCurrencyEnd, capital]
    · exact others c inside
  simp only [isCurrencyChar, isCurrencyEnd, Bool.or_eq_true, isCapital_iff, isDigit_iff, beq_iff_eq,
    or_assoc] at char
  rcases char with char | char | rfl | rfl | rfl | rfl
  iterate 2 omega
  all_goals decide

/-- What a word at the beginning of a line may be kept as. -/
theorem keyword_metadataKey (lexeme : Text) : Expected.keyword .metadataKey lexeme ∈
    [Terminal.includeWord, .optionWord, .pluginWord, .metadataKey] := by
  rw [Expected.keyword, if_pos rfl]
  split
  · decide
  · split
    · decide
    · split <;> decide

/-- The sort of a token is a sort that was asked for, and the token is its lexeme. Only the words
at the beginning of a line may be kept as another sort. -/
theorem Begins.held {expected : Expected} {position : Nat} {text rest : Text} {token : Token}
    (begins : Begins expected position text token rest)
    (plain : token.terminal ∉ [Terminal.includeWord, .optionWord, .pluginWord, .metadataKey]) :
    token.terminal ∈ expected.terminals ∧
      token.terminal.length? text = some token.text.length := by
  obtain ⟨terminal, found, sort⟩ := begins.sort
  have same : token.terminal = terminal := by
    by_cases key : terminal = .metadataKey
    · rw [key] at sort
      rw [sort] at plain
      exact absurd (keyword_metadataKey token.text) plain
    · rw [sort, Expected.keyword, if_neg key]
  rw [same]
  exact length?_of_first? found

/-- A token of a number is a lexeme of its sort. None of these sorts is a word that is told apart by
its letters. -/
theorem Begins.held_of_numeric {expected : Expected} {position : Nat} {text rest : Text}
    {token : Token} (begins : Begins expected position text token rest)
    (numeric : token.terminal.isNumeric = true) :
    token.terminal.length? text = some token.text.length := by
  refine (begins.held ?_).2
  intro key
  simp only [List.mem_cons, List.not_mem_nil, or_false] at key
  rcases key with key | key | key | key <;>
    (rw [key] at numeric; cases numeric)

/-- What ends an amount or a token of it: a blank or the capital of a currency. -/
def endsAmount (c : Char) : Bool := isSpace c || isCapital c

/-- The characters that end an amount are no part of a number or a date. -/
theorem outside_of_endsAmount {c : Char} (ends : endsAmount c = true) :
    c ≠ ',' ∧ c ≠ '.' ∧ c ≠ '-' ∧ c ≠ '/' ∧ isDigit c = false := by
  simp only [endsAmount, isSpace, Bool.or_eq_true, beq_iff_eq] at ends
  rcases ends with (rfl | rfl) | capital
  · decide
  · decide
  · exact ⟨ne_of_isCapital capital (by decide), ne_of_isCapital capital (by decide),
      ne_of_isCapital capital (by decide), ne_of_isCapital capital (by decide),
      isDigit_of_isCapital capital⟩

/-- A token of an expression ends before what ends the expression. All characters of the token are
those of an expression, and what ends the expression is none of them. -/
theorem Begins.of_numeric {expected : Expected} {position : Nat} {number tail rest : Text}
    {c stop : Char} {token : Token} (ends : endsAmount stop = true)
    (begins : Begins expected position (c :: number ++ stop :: tail) token rest)
    (numeric : token.terminal.isNumeric = true) :
    ∃ front, c :: number = token.text ++ front ∧ rest = front ++ stop :: tail := by
  have held := begins.held_of_numeric numeric
  have inside : token.text.length ≤ (c :: number).length := by
    cases sort : token.terminal
    case number =>
      obtain ⟨comma, point, _, _, digit⟩ := outside_of_endsAmount ends
      rw [sort, Terminal.length?, numberLength_append tail comma point digit] at held
      exact numberLength_le held
    case openParen | closeParen | unarySign | addSign | multiplySign =>
      simp only [sort, Terminal.length?, oneOf, List.cons_append] at held
      split at held
      · rw [← Option.some.inj held, List.length_cons]
        omega
      · cases held
    all_goals
      rw [sort] at numeric
      cases numeric
  have whole := begins.whole
  obtain ⟨front, same⟩ : token.text <+: c :: number :=
    List.prefix_of_prefix_length_le ⟨rest, whole.symm⟩ (List.prefix_append _ _) inside
  refine ⟨front, same.symm, ?_⟩
  rw [← same, List.append_assoc] at whole
  exact (List.append_cancel_left whole).symm

/-- The characters of an expression come before the capitals. -/
theorem lt_of_isAmountChar {c : Char} (amount : isAmountChar c = true) : c.toNat < 65 := by
  simp only [isAmountChar, isSpace, Bool.or_eq_true, isDigit_iff, beq_iff_eq,
    List.contains_iff_mem, List.mem_cons, List.not_mem_nil, or_false] at amount
  rcases amount with (digit | rfl | rfl) | rfl | rfl | rfl | rfl | rfl | rfl | rfl | rfl
  · omega
  all_goals decide

/-- A character of an expression is visible if it is no blank within a line. -/
theorem not_blank_of_amount {c : Char} (amount : isAmountChar c = true)
    (plain : isSpace c = false) : Text.isBlank c = false := by
  simp only [isAmountChar, plain, Bool.or_eq_true, isDigit_iff, List.contains_iff_mem,
    List.mem_cons, List.not_mem_nil, or_false, Bool.false_eq_true] at amount
  rcases amount with digit | rfl | rfl | rfl | rfl | rfl | rfl | rfl | rfl
  · rw [Bool.eq_false_iff]
    intro blank
    have outside := Text.isBlank_outside blank
    omega
  all_goals rfl

/-- The characters of a stretch are of its sort. -/
theorem sort_of_mem_stretch {sort : Char → Bool} {text : Text} {c : Char}
    (member : c ∈ text.take (Text.stretch sort text)) : sort c = true := by
  rw [Text.stretch, List.prefix_iff_eq_take.mp (List.takeWhile_prefix sort) |>.symm] at member
  exact List.mem_takeWhile_imp member

/-- The groups of three digits are digits and commas. -/
theorem amount_of_mem_groups (text : Text) :
    ∀ c ∈ text.take (groups text), isAmountChar c = true := by
  fun_induction groups text with
  | case1 a b d rest digits ih =>
    simp only [Bool.and_eq_true] at digits
    intro c member
    rw [Nat.add_comm, List.take_succ_cons, List.take_succ_cons, List.take_succ_cons,
      List.take_succ_cons] at member
    simp only [List.mem_cons] at member
    rcases member with rfl | rfl | rfl | rfl | later
    · rfl
    · simp [isAmountChar, digits]
    · simp [isAmountChar, digits]
    · simp [isAmountChar, digits]
    · exact ih c later
  | case2 => simp
  | case3 => simp

/-- A sign and digits behind it are characters of an expression. -/
theorem amount_of_mem_signed {sign : Char} (amount : isAmountChar sign = true) {text : Text}
    {length : Nat} (found : (atLeast 1 isDigit text).map (1 + ·) = some length) :
    ∀ c ∈ (sign :: text).take length, isAmountChar c = true := by
  obtain ⟨digits, held, rfl⟩ := Option.map_eq_some_iff.mp found
  unfold atLeast at held
  simp only [Option.ite_none_right_eq_some, Option.some.injEq] at held
  obtain ⟨_, rfl⟩ := held
  intro c member
  rw [Nat.add_comm, List.take_succ_cons, List.mem_cons] at member
  rcases member with rfl | later
  · exact amount
  · simp [isAmountChar, sort_of_mem_stretch later]

/-- Decimals are a point and digits. -/
theorem amount_of_mem_decimals {text : Text} {length : Nat} (found : decimals text = some length) :
    ∀ c ∈ text.take length, isAmountChar c = true := by
  unfold decimals at found
  split at found
  · exact amount_of_mem_signed rfl found
  · cases found

/-- The characters of a number are characters of an expression: digits, the commas between them, and
the point with its decimals. -/
theorem amount_of_mem_number {text : Text} {length : Nat} (found : numberLength text = some length) :
    ∀ c ∈ text.take length, isAmountChar c = true := by
  have whole : ∀ c ∈ text.take (Text.stretch isDigit text), isAmountChar c = true := by
    intro c member
    simp [isAmountChar, sort_of_mem_stretch member]
  simp only [numberLength] at found
  split at found
  · exact amount_of_mem_decimals found
  · split at found
    · cases found
      intro c member
      rw [List.take_add, List.take_add, List.mem_append, List.mem_append] at member
      rcases member with (member | member) | member
      · exact whole c member
      · exact amount_of_mem_groups _ c member
      · cases fraction : decimals ((text.drop (Text.stretch isDigit text)).drop
            (groups (text.drop (Text.stretch isDigit text)))) with
        | none =>
          rw [fraction] at member
          simp at member
        | some digits =>
          rw [fraction, ← List.drop_drop] at member
          exact amount_of_mem_decimals fraction c member
    · split at found
      · next rest point =>
        cases found
        intro c member
        rw [Nat.add_assoc, List.take_add, List.mem_append, point, Nat.add_comm 1,
          List.take_succ_cons, List.mem_cons] at member
        rcases member with member | rfl | member
        · exact whole c member
        · rfl
        · simp [isAmountChar, sort_of_mem_stretch member]
      · cases found
        exact whole

/-- The characters of every token of an expression are characters of an expression. -/
theorem amount_of_mem_numeric {terminal : Terminal} {text : Text} {length : Nat}
    (numeric : terminal.isNumeric = true) (held : terminal.length? text = some length) :
    ∀ c ∈ text.take length, isAmountChar c = true := by
  cases terminal
  case number => exact amount_of_mem_number held
  case openParen | closeParen | unarySign | addSign | multiplySign =>
    simp only [Terminal.length?, oneOf] at held
    split at held
    · simp only [Option.ite_none_right_eq_some, Option.some.injEq, Bool.or_eq_true,
        beq_iff_eq] at held
      obtain ⟨sort, rfl⟩ := held
      rcases sort with rfl | rfl <;> simp [isAmountChar]
    · cases held
  all_goals cases numeric

/-- No token of an expression begins with a capital. -/
theorem Begins.not_capital {expected : Expected} {position : Nat} {text rest : Text} {c : Char}
    {token : Token} (begins : Begins expected position (c :: text) token rest)
    (numeric : token.terminal.isNumeric = true) : isCapital c = false := by
  have held := begins.held_of_numeric numeric
  obtain ⟨first, inner, spelled, _⟩ := begins.plain
  rw [spelled, List.length_cons] at held
  have low := lt_of_isAmountChar (amount_of_mem_numeric numeric held c (by simp))
  rw [Bool.eq_false_iff, ne_eq, isCapital_iff]
  omega

/-- No currency begins with a character of an expression. -/
theorem length?_currency_amount {c : Char} (amount : isAmountChar c = true) (rest : Text) :
    Terminal.currency.length? (c :: rest) = none := by
  have low := lt_of_isAmountChar amount
  have small : isCapital c = false := by
    rw [Bool.eq_false_iff, ne_eq, isCapital_iff]
    omega
  simp [Terminal.length?, currencyLength, small]

/-- Only a semicolon begins a comment. -/
theorem length?_comment {c : Char} (other : c ≠ ';') (rest : Text) :
    Terminal.comment.length? (c :: rest) = none := by
  simp [Terminal.length?, toLineEnd, other]

end Lexeme

namespace Statement

open Lexeme

/-- The places within the amount of a posting line. -/
inductive Numbering (line : PostingLine) : Place → Prop where
  | posted (stop : Nat) : Numbering line (.posted { line with stop })
  | operand (stop depth : Nat) : Numbering line (.operand (.posting { line with stop }) depth)
  | operator (stop depth : Nat) : Numbering line (.operator (.posting { line with stop }) depth)

/-- What a token within an amount can do: it is part of the expression, or it is the currency
that ends it, or it is a comment before the expression has begun. -/
inductive Numbering.Step (line : PostingLine) (place : Place) (token : Token) : Place → Prop where
  | numeric {next : Place} (sort : token.terminal.isNumeric = true)
      (further : Numbering line next) : Numbering.Step line place token next
  | currency (sort : token.terminal = .currency) : Numbering.Step line place token
      (.afterAmount (.posting { line with currency := some token, stop := token.stop }))
  | comment {stop : Nat} (sort : token.terminal = .comment)
      (posted : place = .posted { line with stop }) :
      Numbering.Step line place token (.commented (.posting { line with stop }) token)

variable {line : PostingLine} {place next : Place} {token : Token}

/-- A token that begins a number, or goes on with one, is a sign, a parenthesis or digits, and the
number is still that of the posting. -/
theorem Numbering.of_intoNumber {stop depth : Nat}
    (leads : Place.intoNumber (.posting { line with stop }) depth token = some next) :
    token.terminal.isNumeric = true ∧ Numbering line next := by
  unfold Place.intoNumber at leads
  split at leads
  · next sort =>
    cases leads
    exact ⟨by rw [sort]; rfl, .operator _ _⟩
  · next sort =>
    cases leads
    exact ⟨by rw [sort]; rfl, .operand _ _⟩
  · next sort =>
    cases leads
    exact ⟨by rw [sort]; rfl, .operand _ _⟩
  · cases leads

/-- Behind an operand the number goes on or ends with a currency. Only at depth zero can the number
end, and there only a currency ends it. -/
theorem Numbering.of_afterOperand {stop depth : Nat} (place : Place)
    (leads : Place.afterOperand (.posting { line with stop }) depth token = some next) :
    Numbering.Step line place token next := by
  unfold Place.afterOperand at leads
  split at leads
  · next sort =>
    cases leads
    exact .numeric (by rw [sort]; rfl) (.operand _ _)
  · next sort =>
    cases leads
    exact .numeric (by rw [sort]; rfl) (.operand _ _)
  · next sort =>
    cases leads
    exact .numeric (by rw [sort]; rfl) (.operator _ _)
  · next sort =>
    cases leads
    exact .currency sort
  · cases leads
  · cases leads
  · cases leads
  · cases leads

/-- While the amount of a posting is read, one token keeps to it or ends it. This is what the
induction over the line rests on. -/
theorem Numbering.of_step (numbering : Numbering line place) (leads : place.step token = some next) :
    Numbering.Step line place token next := by
  unfold Place.step at leads
  cases numbering with
  | posted stop =>
    split at leads
    · next sort =>
      cases leads
      exact .comment sort rfl
    · obtain ⟨sort, further⟩ := of_intoNumber leads
      exact .numeric sort further
  | operand stop depth =>
    have continued : Place.intoNumber (.posting { line with stop }) depth token = some next := by
      split at leads <;> exact leads
    obtain ⟨sort, further⟩ := of_intoNumber continued
    exact .numeric sort further
  | operator stop depth =>
    have continued : Place.afterOperand (.posting { line with stop }) depth token = some next := by
      cases depth <;> (split at leads <;> exact leads)
    exact of_afterOperand _ continued

/-- A line ends within an amount only where a line end stands. -/
theorem Numbering.lineBreak (numbering : Numbering line place) {position : Nat} {c : Char}
    {text rest : Text} (begins : Begins place.expected position (c :: text) token rest)
    (ends : endsLine token = true) : c = '\n' ∨ c = '\r' := by
  rcases ends_cases begins ends with ⟨rfl, _⟩ | ⟨_, present, _⟩
  · cases numbering
  · obtain ⟨first, others, spelled, lineBreak⟩ := cons_of_lineEnds present
    obtain ⟨rfl, _⟩ := List.cons.inj spelled
    exact lineBreak

/-- A token within an amount that begins with a character of an expression is part of it. -/
theorem Numbering.step_of_amount (numbering : Numbering line place)
    (leads : place.step token = some next) {position : Nat} {c : Char} {text rest : Text}
    (begins : Begins place.expected position (c :: text) token rest)
    (amount : isAmountChar c = true) : token.terminal.isNumeric = true ∧ Numbering line next := by
  cases numbering.of_step leads with
  | numeric sort onward => exact ⟨sort, onward⟩
  | currency sort =>
    have held := (begins.held (by rw [sort]; decide)).2
    rw [sort, length?_currency_amount amount] at held
    cases held
  | comment sort _ =>
    have semicolon : c ≠ ';' := by
      rintro rfl
      cases amount
    have held := (begins.held (by rw [sort]; decide)).2
    rw [sort, length?_comment semicolon] at held
    cases held

/-- A token within an amount that begins with a capital is the currency that ends it. -/
theorem Numbering.step_of_capital (numbering : Numbering line place)
    (leads : place.step token = some next) {position : Nat} {c : Char} {text rest : Text}
    (begins : Begins place.expected position (c :: text) token rest)
    (capital : isCapital c = true) : token.terminal = .currency ∧
      next = .afterAmount (.posting { line with currency := some token, stop := token.stop }) := by
  cases numbering.of_step leads with
  | numeric sort _ =>
    rw [begins.not_capital sort] at capital
    cases capital
  | currency sort => exact ⟨sort, rfl⟩
  | comment sort _ =>
    have held := (begins.held (by rw [sort]; decide)).2
    rw [sort, length?_comment (ne_of_isCapital capital (by decide))] at held
    cases held

/-- An amount is read when its expression and its currency are. The induction is on the reading,
with the characters of the number that are still left. -/
theorem Reading.amount {position : Nat} {text : Text} {lines : List Line}
    (reading : Reading place position text lines) (numbering : Numbering line place)
    {number currency rest : Text} (whole : text = number ++ (currency ++ '\n' :: rest))
    (numeric : ∀ c ∈ number, isAmountChar c = true) (word : IsWord .currency currency) :
    Reading (.afterAmount (.posting { line with
        currency := some ⟨.currency, position + number.length, currency⟩,
        stop := position + number.length + currency.length }))
      (position + number.length + currency.length) ('\n' :: rest) lines := by
  obtain ⟨capital, inner, spelled, isCap, _⟩ := word.currency_cons
  induction reading generalizing number with
  | textEnd =>
    rw [spelled] at whole
    simp at whole
  | @space place position c text lines blank further ih =>
    cases number with
    | nil =>
      rw [spelled] at whole
      obtain ⟨rfl, rfl⟩ := List.cons.inj whole
      rw [isSpace_of_visible (by rw [isCapital_iff] at isCap; omega)] at blank
      cases blank
    | cons first number =>
      obtain ⟨rfl, rfl⟩ := List.cons.inj whole
      have later := ih numbering rfl fun c member => numeric c (List.mem_cons_of_mem _ member)
      rw [List.length_cons, ← Nat.add_assoc, Nat.add_right_comm position]
      exact later
  | @lineEnd place position text tail token done lines begins ends complete further ih =>
    rw [whole] at begins
    cases number with
    | nil =>
      rw [spelled] at begins
      rcases numbering.lineBreak begins ends with rfl | rfl <;> cases isCap
    | cons c number =>
      have wrong := numeric c List.mem_cons_self
      rcases numbering.lineBreak begins ends with rfl | rfl <;> cases wrong
  | @token place next position text tail token lines begins within leads further ih =>
    cases number with
    | nil =>
      have first := begins
      rw [whole, spelled] at first
      obtain ⟨sort, rfl⟩ := numbering.step_of_capital leads first isCap
      have held := (begins.held (by rw [sort]; decide)).2
      rw [sort, whole, List.nil_append, word.append rfl rfl ⟨'\n', rest, rfl, Or.inr rfl⟩] at held
      have same : currency ++ '\n' :: rest = token.text ++ tail := whole.symm.trans begins.whole
      obtain ⟨spelling, rfl⟩ := List.append_inj same (Option.some.inj held)
      have token_eq : token = ⟨.currency, position, currency⟩ := by
        rw [spelling, ← sort, ← begins.start]
      rw [token_eq] at further
      exact further
    | cons c number =>
      rw [whole] at begins
      obtain ⟨sort, onward⟩ := numbering.step_of_amount leads begins (numeric c List.mem_cons_self)
      rw [spelled] at begins
      obtain ⟨front, same, rfl⟩ := begins.of_numeric (by simp [endsAmount, isCap]) sort
      have later := ih onward (by rw [spelled]; rfl) fun one member => numeric one (by
        rw [same]
        exact List.mem_append_right _ member)
      rw [begins.stop_add, ← same] at later
      exact later

end Statement

end Daybook
