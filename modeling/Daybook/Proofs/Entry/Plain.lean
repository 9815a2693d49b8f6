import Daybook.Proofs.Entry.Legible

/-!
# Plain transactions

Of the transactions whose words are words of the ledger language those are plain that have one of
the two usual flags and plain decimals for their amounts. Their rows are always read back, wherever
they stand, so that they are a passage of every text that they stand in.
-/
namespace Daybook

open Lexeme Statement

/-! ## Decimals -/

/-- Digits, perhaps with a point and further digits behind them. -/
def IsUnsigned (number : Text) : Prop :=
  ∃ whole part, number = whole ++ part ∧ whole ≠ [] ∧ (∀ c ∈ whole, isDigit c = true) ∧
    (part = [] ∨ ∃ digits, part = '.' :: digits ∧ digits ≠ [] ∧ ∀ c ∈ digits, isDigit c = true)

/-- A number of digits, perhaps with a minus before it. -/
def IsDecimal (number : Text) : Prop :=
  IsUnsigned number ∨ ∃ digits, number = '-' :: digits ∧ IsUnsigned digits

/-- A posting between words of the ledger language, with a plain decimal and a currency or with
neither. -/
structure Posting.Plain (posting : Posting) : Prop where
  account : IsWord .account posting.account
  amount : (posting.amount = [] ∧ posting.currency = []) ∨
    (IsDecimal posting.amount ∧ IsWord .currency posting.currency)

/-- A transaction of words of the ledger language that is cleared or pending, that says nothing but
texts in quotation marks, and whose postings are plain. -/
structure Transaction.Plain (transaction : Transaction) : Prop where
  flag : transaction.flag = clearedFlag ∨ transaction.flag = pendingFlag
  tags : ∀ tag ∈ transaction.tags, IsWord .tag ('#' :: tag)
  postings : ∀ posting ∈ transaction.postings, posting.Plain
  said : transaction.IsText

/-- All characters of digits with a point are visible, and part of an amount. -/
theorem IsUnsigned.chars {number : Text} (unsigned : IsUnsigned number) :
    ∀ c ∈ number, isDigit c = true ∨ c = '.' := by
  obtain ⟨whole, part, rfl, _, digits, rfl | ⟨others, rfl, _, more⟩⟩ := unsigned
  · simpa using fun c member => Or.inl (digits c member)
  · intro c member
    simp only [List.mem_append, List.mem_cons] at member
    rcases member with inside | rfl | inside
    · exact Or.inl (digits c inside)
    · exact Or.inr rfl
    · exact Or.inl (more c inside)

/-- A decimal is a sign, digits and a point at most. -/
theorem IsDecimal.chars {number : Text} (decimal : IsDecimal number) :
    ∀ c ∈ number, isDigit c = true ∨ c = '.' ∨ c = '-' := by
  rcases decimal with unsigned | ⟨digits, rfl, unsigned⟩
  · exact fun c member => (unsigned.chars c member).imp_right Or.inl
  · intro c member
    rcases List.mem_cons.mp member with rfl | inside
    · exact Or.inr (Or.inr rfl)
    · exact (unsigned.chars c inside).imp_right Or.inl

/-- A decimal has at least one digit. -/
theorem IsDecimal.ne_nil {number : Text} (decimal : IsDecimal number) : number ≠ [] := by
  rcases decimal with ⟨whole, part, rfl, some, _⟩ | ⟨digits, rfl, _⟩
  · simp [some]
  · simp

/-- A character of a decimal is not blank. -/
theorem isBlank_of_decimal {c : Char} (char : isDigit c = true ∨ c = '.' ∨ c = '-') :
    Text.isBlank c = false := by
  rcases char with digit | rfl | rfl
  · rw [isDigit_iff] at digit
    rw [Bool.eq_false_iff]
    intro blank
    have outside := Text.isBlank_outside blank
    omega
  · rfl
  · rfl

/-- The posting of a plain decimal has words of the ledger language. -/
theorem Posting.Plain.lexical {posting : Posting} (plain : posting.Plain) : posting.Lexical := by
  refine ⟨plain.account, plain.amount.imp_right ?_⟩
  rintro ⟨decimal, word⟩
  refine ⟨decimal.ne_nil, fun c member => ?_, ?_, word⟩
  · rcases decimal.chars c member with digit | rfl | rfl
    · simp [isAmountChar, digit]
    · rfl
    · rfl
  · exact Text.trim_of_solid fun c member => isBlank_of_decimal (decimal.chars c member)

/-- A plain transaction has words of the ledger language. -/
theorem Transaction.Plain.lexical {transaction : Transaction} (plain : transaction.Plain) :
    transaction.Lexical := by
  refine ⟨Or.inr ?_, plain.tags, fun posting member => (plain.postings posting member).lexical⟩
  rcases plain.flag with cleared | pending
  · exact ⟨'*', cleared, rfl⟩
  · exact ⟨'!', pending, rfl⟩

/-! ## Reading back -/

namespace Lexeme

/-- Digits with a point are one number if a space follows them. -/
theorem numberLength_unsigned {number : Text} (unsigned : IsUnsigned number) (rest : Text) :
    numberLength (number ++ ' ' :: rest) = some number.length := by
  have space : isDigit ' ' = false := rfl
  have point : isDigit '.' = false := rfl
  have ungrouped {c : Char} (other : c ≠ ',') (rest : Text) : groups (c :: rest) = 0 := by
    simp [groups, other]
  obtain ⟨whole, part, rfl, some, digits, rfl | ⟨others, rfl, _, more⟩⟩ := unsigned
  · rw [List.append_nil]
    simp [numberLength, stretch_append_cons digits space, some, ungrouped]
  · have length : whole.length ≠ 0 := by simpa using some
    rw [List.append_assoc, List.cons_append]
    simp only [numberLength, stretch_append_cons digits point, if_neg length, List.drop_left,
      ungrouped (by decide : '.' ≠ ','), Nat.lt_irrefl, and_false, if_false,
      stretch_append_cons more space, List.length_append, List.length_cons, Option.some.injEq]
    omega

/-- Digits with a point are found where a number is asked for first. -/
theorem begins_number {number : Text} (unsigned : IsUnsigned number) {expected : Expected}
    {others : List Terminal} (asked : expected.terminals = .number :: others) (position : Nat)
    (rest : Text) : Begins expected position (number ++ ' ' :: rest) ⟨.number, position, number⟩
      (' ' :: rest) := by
  obtain ⟨c, inner, spelled⟩ : ∃ c inner, number = c :: inner :=
    List.exists_cons_of_ne_nil (IsDecimal.ne_nil (Or.inl unsigned))
  have visible : isSpace c = false := by
    rcases unsigned.chars c (by rw [spelled]; exact List.mem_cons_self) with digit | rfl
    · rw [isDigit_iff] at digit
      exact isSpace_of_visible (by omega)
    · rfl
  refine ⟨rfl, rfl, ⟨c, inner, spelled, visible⟩, .number, ?_, rfl⟩
  rw [asked]
  exact first?_cons_of_some (numberLength_unsigned unsigned rest) (by simp [spelled])

/-- A minus is found before the digits of an amount. -/
theorem begins_minus (position : Nat) (rest : Text) :
    Begins .amount position ('-' :: rest) ⟨.unarySign, position, ['-']⟩ rest :=
  ⟨rfl, rfl, ⟨'-', [], rfl, rfl⟩, .unarySign, rfl, rfl⟩

end Lexeme

namespace Statement

/-- A decimal is read between the account and the currency of a posting. -/
theorem reading_decimal {number : Text} (decimal : IsDecimal number) : IsReadable number := by
  intro line position rest
  rcases decimal with unsigned | ⟨digits, rfl, unsigned⟩
  · have leads : (Place.posted line).step ⟨.number, position, number⟩ = some (.operator
        (.posting { line with stop := position + number.length }) 0) := rfl
    exact ⟨_, fun lines =>
      (reading_leads_iff (begins_number unsigned rfl position rest) rfl leads).mpr⟩
  · have signed : (Place.posted line).step ⟨.unarySign, position, ['-']⟩ = some (.operand
        (.posting { line with stop := position + 1 }) 0) := rfl
    have leads : (Place.operand (.posting { line with stop := position + 1 }) 0).step
        ⟨.number, position + 1, digits⟩ = some (.operator
          (.posting { line with stop := position + 1 + digits.length }) 0) := rfl
    have minus : Begins (Place.posted line).expected position ('-' :: (digits ++ ' ' :: rest))
        ⟨.unarySign, position, ['-']⟩ (digits ++ ' ' :: rest) := begins_minus position _
    have size : position + ('-' :: digits).length = position + 1 + digits.length := by
      rw [List.length_cons, Nat.add_assoc, Nat.add_comm 1]
    refine ⟨position + 1 + digits.length, fun lines => ?_⟩
    rw [size, List.cons_append, reading_leads_iff minus rfl signed]
    exact (reading_leads_iff (begins_number unsigned rfl (position + 1) rest) rfl leads).mpr

end Statement

/-- A plain posting is read back everywhere. -/
theorem Posting.Plain.legible {posting : Posting} (plain : posting.Plain) : posting.Legible := by
  refine ⟨plain.lexical, fun some => ?_⟩
  rcases plain.amount with ⟨bare, _⟩ | ⟨decimal, _⟩
  · exact absurd bare some
  · exact reading_decimal decimal

/-- A plain transaction is read back everywhere. -/
theorem Transaction.Plain.legible {transaction : Transaction} (plain : transaction.Plain) :
    transaction.Legible :=
  ⟨plain.lexical, fun posting member => (plain.postings posting member).legible⟩

end Daybook
