import Mathlib.Data.List.DropRight
import Mathlib.Data.List.TakeWhile
import Mathlib.Data.Nat.Digits.Defs
import Daybook.Date
import Daybook.Proofs.Statement.Reading
import Daybook.Proofs.Text.Characters
import Daybook.Proofs.Text.Quotation

/-!
# Words that are read back

The words of an entry are a date, a flag, quoted texts, tags, accounts and currencies. Each is
found again where it is asked for, if a blank or a line end follows it; a quoted text is found
whatever follows it. What makes a text such a word is that the text by itself is one lexeme of
its sort.
-/
namespace Daybook

namespace Lexeme

/-- A text is one lexeme of a sort. -/
def IsWord (terminal : Terminal) (text : Text) : Prop :=
  terminal.length? text = some text.length

instance (terminal : Terminal) (text : Text) : Decidable (IsWord terminal text) :=
  inferInstanceAs (Decidable (_ = _))

/-- The flag of a transaction: the word for a transaction, or a single flag. -/
def IsFlagWord (text : Text) : Prop :=
  text = "txn" ∨ ∃ c, text = [c] ∧ isFlag c = true

/-- A word is over: a blank or a line feed follows. -/
def WordOver (text : Text) : Prop :=
  ∃ c rest, text = c :: rest ∧ (c = ' ' ∨ c = '\n')

section First

variable {terminal : Terminal} {terminals : List Terminal} {text : Text}

/-- A sort that does not match is passed over. -/
theorem first?_cons_of_none (none : terminal.length? text = none) :
    first? (terminal :: terminals) text = first? terminals text := by
  simp [first?, none]

/-- A sort that matches is taken before all later ones, even if they would match more. This is how
the order of the sorts settles where they overlap. -/
theorem first?_cons_of_some {length : Nat} (found : terminal.length? text = some length)
    (positive : 0 < length) : first? (terminal :: terminals) text = some (terminal, length) := by
  cases length with
  | zero => omega
  | succ length => simp [first?, found]

end First

/-- A word stays one lexeme when it is over. -/
theorem IsWord.append {terminal : Terminal} {text rest : Text} (word : IsWord terminal text)
    (feed : terminal.stopsAt '\n' = true) (space : terminal.stopsAt ' ' = true)
    (ended : WordOver rest) : terminal.length? (text ++ rest) = some text.length := by
  obtain ⟨c, others, rfl, rfl | rfl⟩ := ended
  · rw [Terminal.length?_append space]
    exact word
  · rw [Terminal.length?_append feed]
    exact word

/-- A sort that has no lexeme at the beginning of a word has none when the word is over. -/
theorem length?_append_none {terminal : Terminal} {text rest : Text}
    (none : terminal.length? text = none) (feed : terminal.stopsAt '\n' = true)
    (space : terminal.stopsAt ' ' = true) (ended : WordOver rest) :
    terminal.length? (text ++ rest) = Option.none := by
  obtain ⟨c, others, rfl, rfl | rfl⟩ := ended
  · rw [Terminal.length?_append space, none]
  · rw [Terminal.length?_append feed, none]

/-- A stretch of characters of a sort ends before a character of another sort. -/
theorem stretch_append_cons {sort : Char → Bool} {text : Text} (all : ∀ c ∈ text, sort c = true)
    {c : Char} (stop : sort c = false) (rest : Text) :
    Text.stretch sort (text ++ c :: rest) = text.length := by
  rw [Text.stretch, List.takeWhile_append_of_pos all]
  simp [stop]

/-- A text of one sort of characters is a single stretch. -/
theorem stretch_of_all {sort : Char → Bool} {text : Text} (all : ∀ c ∈ text, sort c = true) :
    Text.stretch sort text = text.length := by
  have whole : text.takeWhile sort = text := List.takeWhile_eq_self_iff.mpr all
  rw [Text.stretch, whole]

/-- Three stretches of digits with hyphens between them are a date. The hyphens are no digits, so
each of the three stretches ends where it is meant to, and the lengths add up to that of the
text. -/
theorem isWord_date {year month day : Text} (yearDigits : ∀ c ∈ year, isDigit c = true)
    (monthDigits : ∀ c ∈ month, isDigit c = true) (dayDigits : ∀ c ∈ day, isDigit c = true)
    (long : 4 ≤ year.length) (someMonth : 1 ≤ month.length) (someDay : 1 ≤ day.length) :
    IsWord .date (year ++ '-' :: (month ++ '-' :: day)) := by
  have hyphen : isDigit '-' = false := rfl
  have first : atLeast 4 isDigit (year ++ '-' :: (month ++ '-' :: day)) = some year.length := by
    rw [atLeast, stretch_append_cons yearDigits hyphen, if_pos long]
  have second : datePart ('-' :: (month ++ '-' :: day)) = some (1 + month.length) := by
    rw [datePart, atLeast, stretch_append_cons monthDigits hyphen, if_pos someMonth]
    rfl
  have third : datePart ('-' :: day) = some (1 + day.length) := by
    rw [datePart, atLeast, stretch_of_all dayDigits, if_pos someDay]
    rfl
  have dropTwo : (year ++ '-' :: (month ++ '-' :: day)).drop (year.length + (1 + month.length)) =
      '-' :: day := by
    rw [← List.drop_drop, List.drop_left, Nat.add_comm, List.drop_succ_cons, List.drop_left]
  simp only [IsWord, Terminal.length?, dateLength, first, Option.bind_eq_bind, Option.bind_some,
    List.drop_left, second, dropTwo, third, Option.pure_def, Option.some.injEq,
    List.length_append, List.length_cons]
  omega

/-- The parts of the ISO form are digits. -/
theorem isDigit_padLeft (width n : Nat) :
    ∀ c ∈ Text.padLeft '0' width (Text.decimal n), isDigit c = true := by
  intro c member
  rw [Text.padLeft, List.mem_append] at member
  rcases member with padded | written
  · rw [List.eq_of_mem_replicate padded]
    rfl
  · have digit := Nat.isDigit_of_mem_toDigits (by omega) (by omega) written
    rw [isDigit_iff]
    simp only [Char.isDigit, Bool.and_eq_true, decide_eq_true_eq, ge_iff_le] at digit
    exact ⟨UInt32.le_iff_toNat_le.mp digit.1, UInt32.le_iff_toNat_le.mp digit.2⟩

/-- The parts of the ISO form are as wide as they have to be. -/
theorem le_length_padLeft (width n : Nat) :
    width ≤ (Text.padLeft '0' width (Text.decimal n)).length := by
  rw [Text.padLeft, List.length_append, List.length_replicate]
  omega

/-- The number of digits of a number below a bound. -/
theorem length_padLeft {width n : Nat} (below : n < 10 ^ width) (positive : 0 < width) :
    (Text.padLeft '0' width (Text.decimal n)).length = width := by
  have short : (Text.decimal n).length ≤ width := Nat.toDigits_length 10 n width positive below
  rw [Text.padLeft, List.length_append, List.length_replicate]
  omega

/-- The ISO form of a date is a date. -/
theorem isWord_iso (date : Date) : IsWord .date date.iso := by
  have parts := isWord_date (isDigit_padLeft 4 date.year) (isDigit_padLeft 2 date.month)
    (isDigit_padLeft 2 date.day) (le_length_padLeft 4 _)
    (Nat.le_trans (by decide) (le_length_padLeft 2 _))
    (Nat.le_trans (by decide) (le_length_padLeft 2 _))
  have same : date.iso = Text.padLeft '0' 4 (Text.decimal date.year) ++
      '-' :: (Text.padLeft '0' 2 (Text.decimal date.month) ++
        '-' :: Text.padLeft '0' 2 (Text.decimal date.day)) := by
    simp [Date.iso]
  rw [same]
  exact parts

/-- The ISO form of a date begins with a digit. -/
theorem iso_cons (date : Date) : ∃ c inner, date.iso = c :: inner ∧ isDigit c = true := by
  have wide := le_length_padLeft 4 date.year
  obtain ⟨c, inner, spelled⟩ : ∃ c inner, Text.padLeft '0' 4 (Text.decimal date.year) = c :: inner :=
    List.exists_cons_of_length_pos (by omega)
  have digit := isDigit_padLeft 4 date.year c (by rw [spelled]; exact List.mem_cons_self)
  refine ⟨c, inner ++ "-".toList ++ Text.padLeft '0' 2 (Text.decimal date.month) ++ "-".toList ++
    Text.padLeft '0' 2 (Text.decimal date.day), ?_, digit⟩
  rw [Date.iso, spelled]
  simp

/-- A date is found at the beginning of a line. -/
theorem begins_date (date : Date) {rest : Text} (ended : WordOver rest) (position : Nat) :
    Begins .lineStart position (date.iso ++ rest) ⟨.date, position, date.iso⟩ rest := by
  obtain ⟨c, inner, spelled, digit⟩ := iso_cons date
  have found := (isWord_iso date).append rfl rfl ended
  have space : isSpace c = false := isSpace_of_visible (by rw [isDigit_iff] at digit; omega)
  refine ⟨rfl, rfl, ⟨c, inner, spelled, space⟩, .date, ?_, rfl⟩
  exact first?_cons_of_some found (by simp [spelled])

/-- A flag is found after the date of a transaction. -/
theorem begins_flag {flag : Text} (word : IsFlagWord flag) :
    ∃ terminal, (terminal = .flag ∨ terminal = .txnWord) ∧ ∀ position rest,
      Begins .heading position (flag ++ ' ' :: rest) ⟨terminal, position, flag⟩ (' ' :: rest) := by
  rcases word with rfl | ⟨c, rfl, known⟩
  · refine ⟨.txnWord, Or.inr rfl, fun position rest => ?_⟩
    exact ⟨rfl, rfl, ⟨'t', ['x', 'n'], rfl, rfl⟩, .txnWord, rfl, rfl⟩
  · refine ⟨.flag, Or.inl rfl, fun position rest => ?_⟩
    have listed := isFlag_iff.mp known
    simp only [flags, List.mem_cons, List.not_mem_nil, or_false] at listed
    rcases listed with rfl | rfl | rfl | rfl | rfl | rfl | rfl | rfl | rfl | rfl | rfl | rfl | rfl <;>
      exact ⟨rfl, rfl, ⟨_, [], rfl, rfl⟩, .flag, rfl, rfl⟩

/-- A quoted text is found wherever one is asked for, because its mark begins nothing else. -/
theorem begins_quoted {expected : Expected} (asked : .quotedText ∈ expected.terminals)
    (text : Text) (position : Nat) (rest : Text) :
    Begins expected position (Text.Quoted.encode text ++ rest)
      ⟨.quotedText, position, Text.Quoted.encode text⟩ rest := by
  have found : Terminal.quotedText.length? (Text.Quoted.encode text ++ rest) =
      some (Text.Quoted.encode text).length := Text.Quoted.quotedLength_encode text rest
  refine ⟨rfl, rfl, ⟨'"', _, rfl, rfl⟩, .quotedText, ?_, rfl⟩
  exact first?_of_alone asked found fun other _ different => Terminal.length?_quote different _

/-- A tag is found after the texts of a transaction and after another tag. -/
theorem begins_tag {tag rest : Text} (word : IsWord .tag ('#' :: tag)) (ended : WordOver rest)
    {expected : Expected} (place : expected = .texts ∨ expected = .marks) (position : Nat) :
    Begins expected position ('#' :: tag ++ rest) ⟨.tag, position, '#' :: tag⟩ rest := by
  have found := word.append rfl rfl ended
  have noLink : Terminal.link.length? ('#' :: tag ++ rest) = none := by
    simp [Terminal.length?, marked]
  refine ⟨rfl, rfl, ⟨'#', tag, rfl, rfl⟩, .tag, ?_, rfl⟩
  rcases place with rfl | rfl
  · exact (first?_cons_of_none noLink).trans (first?_cons_of_some found (by simp))
  · exact (first?_cons_of_none noLink).trans (first?_cons_of_some found (by simp))

/-- An account does not begin with a digit or a blank. -/
theorem IsWord.account_cons {account : Text} (word : IsWord .account account) :
    ∃ c inner, account = c :: inner ∧ isDigit c = false ∧ isSpace c = false := by
  cases account with
  | nil => cases word
  | cons c inner =>
    have start : isAccountStart c = true := by
      simp only [IsWord, Terminal.length?, accountLength] at word
      split at word
      · next both => simpa using (Bool.and_eq_true _ _ ▸ both).1
      · cases word
    have codes : 127 < c.toNat ∨ (65 ≤ c.toNat ∧ c.toNat ≤ 90) := by
      simpa [isAccountStart, isWide_iff, isCapital_iff] using start
    refine ⟨c, inner, rfl, ?_, ?_⟩
    · rw [Bool.eq_false_iff, ne_eq, isDigit_iff]
      omega
    · exact isSpace_of_visible (by omega)

/-- An account is found at the beginning of a line. -/
theorem begins_account {account rest : Text} (word : IsWord .account account)
    (ended : WordOver rest) (position : Nat) :
    Begins .lineStart position (account ++ rest) ⟨.account, position, account⟩ rest := by
  obtain ⟨c, inner, rfl, digit, space⟩ := word.account_cons
  have found := word.append rfl rfl ended
  have noDate : Terminal.date.length? (c :: inner ++ rest) = none := by
    simp [Terminal.length?, dateLength, atLeast, Text.stretch, digit]
  refine ⟨rfl, rfl, ⟨c, inner, rfl, space⟩, .account, ?_, rfl⟩
  exact (first?_cons_of_none noDate).trans (first?_cons_of_some found (by simp))

/-! ## What a word that was found is by itself -/

/-- A stretch that covers the first part of a text is a stretch of that part. -/
theorem stretch_of_append {sort : Char → Bool} {text rest : Text}
    (whole : Text.stretch sort (text ++ rest) = text.length) :
    Text.stretch sort text = text.length := by
  rw [Text.stretch, List.takeWhile_append] at whole
  split at whole
  · next all => exact all
  · exact whole

/-- An account that covers the first part of a text is an account of that part. By induction along
the account. Where it stops before the part is over it would have stopped there in the longer text
as well, except at a colon, whose successor has to be looked at. -/
theorem accountRest_of_append {text rest : Text}
    (whole : accountRest (text ++ rest) = text.length) : accountRest text = text.length := by
  fun_induction accountRest text with
  | case1 c inner start ih =>
    simp only [List.cons_append, accountRest, start, if_true, List.length_cons] at whole
    have later := ih (by omega)
    simp only [List.length_cons]
    omega
  | case2 c inner start =>
    simp only [List.cons_append, accountRest, start, List.length_cons] at whole
    simp at whole
  | case3 c inner plain char ih =>
    have colon : c ≠ ':' := by
      rintro rfl
      cases char
    rw [List.cons_append, accountRest_of_ne colon, if_pos char, List.length_cons] at whole
    rw [List.length_cons, ih (by omega)]
    omega
  | case4 c inner plain char =>
    by_cases colon : c = ':'
    · subst colon
      cases inner with
      | nil =>
        cases rest with
        | nil =>
          have none : accountRest [':'] = 0 := by decide
          rw [List.append_nil, none] at whole
          cases whole
        | cons d rest =>
          simp only [List.cons_append, List.nil_append, accountRest, List.length_singleton] at whole
          split at whole <;> omega
      | cons d inner => exact absurd rfl (plain d inner rfl)
    · rw [List.cons_append, accountRest_of_ne colon, if_neg char] at whole
      cases whole
  | case5 => rfl

/-- A currency that covers the first part of a text is a currency of that part. A currency is cut
back to its last letter or digit, so it is not enough to compare the stretches: what was kept of the
longer stretch is all of the part, and cutting back once more changes nothing. -/
theorem currencyLength_of_append {text rest : Text}
    (whole : currencyLength (text ++ rest) = some text.length) :
    currencyLength text = some text.length := by
  cases text with
  | nil =>
    cases rest with
    | nil => cases whole
    | cons c rest =>
      simp only [List.nil_append, currencyLength, Option.ite_none_right_eq_some, Option.some.injEq,
        List.length_nil] at whole
      omega
  | cons c inner =>
    simp only [List.cons_append, currencyLength, Option.ite_none_right_eq_some, Option.some.injEq,
      List.length_cons] at whole ⊢
    obtain ⟨capital, size⟩ := whole
    refine ⟨capital, ?_⟩
    -- What is kept of the stretch is its beginning, and so long as the part itself.
    let stretch := (inner ++ rest).takeWhile isCurrencyChar
    let kept := stretch.reverse.dropWhile fun c => !isCurrencyEnd c
    have length : kept.length = inner.length := by
      have : kept.length + 1 = inner.length + 1 := by
        rw [Nat.add_comm]
        exact size
      omega
    have front : kept.reverse <+: stretch :=
      List.reverse_suffix.mp (by simpa using List.dropWhile_suffix _)
    have beginning : kept.reverse <+: inner ++ rest := front.trans (List.takeWhile_prefix _)
    have same : kept.reverse = inner := by
      obtain ⟨tail, joined⟩ := beginning
      exact (List.append_inj joined (by simp [length])).1
    have all : inner.takeWhile isCurrencyChar = inner := by
      refine List.takeWhile_eq_self_iff.mpr fun one member => ?_
      rw [← same] at member
      exact List.mem_takeWhile_imp (front.subset member)
    have ended : inner.reverse.dropWhile (fun c => !isCurrencyEnd c) = inner.reverse := by
      rw [← same, List.reverse_reverse]
      exact List.dropWhile_idempotent _ _
    rw [all, ended, List.length_reverse, Nat.add_comm]

/-- An account that covers the first part of a text is an account of that part. -/
theorem accountLength_of_append {text rest : Text}
    (whole : accountLength (text ++ rest) = some text.length) :
    accountLength text = some text.length := by
  cases text with
  | nil =>
    cases rest with
    | nil => cases whole
    | cons c rest =>
      simp only [List.nil_append, accountLength, Option.ite_none_right_eq_some, Option.some.injEq,
        List.length_nil] at whole
      omega
  | cons c inner =>
    simp only [List.cons_append, accountLength, Option.ite_none_right_eq_some, Option.some.injEq,
      List.length_cons] at whole ⊢
    obtain ⟨form, size⟩ := whole
    have length : accountRest (inner ++ rest) = inner.length := by omega
    rw [length, List.take_left] at form
    rw [accountRest_of_append length, List.take_length]
    exact ⟨form, Nat.add_comm _ _⟩

/-- A tag that covers the first part of a text is a tag of that part. Behind the mark a tag is one
stretch, and a stretch that covers the part is the stretch of the part. -/
theorem marked_of_append {mark : Char} {sort : Char → Bool} {text rest : Text}
    (whole : marked mark sort (text ++ rest) = some text.length) :
    marked mark sort text = some text.length := by
  cases text with
  | nil =>
    cases rest with
    | nil => cases whole
    | cons c rest =>
      simp only [List.nil_append, marked, Option.ite_none_right_eq_some, Option.map_eq_some_iff,
        List.length_nil] at whole
      obtain ⟨_, length, _, size⟩ := whole
      omega
  | cons c inner =>
    simp only [List.cons_append, marked, Option.ite_none_right_eq_some, Option.map_eq_some_iff,
      List.length_cons, atLeast, Option.some.injEq] at whole ⊢
    obtain ⟨same, length, ⟨least, rfl⟩, size⟩ := whole
    have covered : Text.stretch sort (inner ++ rest) = inner.length := by omega
    rw [covered] at least size
    exact ⟨same, inner.length, ⟨by rw [stretch_of_append covered]; exact least,
      stretch_of_append covered⟩, size⟩

/-- A token that was found is a word by itself. -/
theorem isWord_of_append {terminal : Terminal} {text rest : Text}
    (sort : terminal = .account ∨ terminal = .currency ∨ terminal = .tag)
    (whole : terminal.length? (text ++ rest) = some text.length) : IsWord terminal text := by
  rcases sort with rfl | rfl | rfl
  · exact accountLength_of_append whole
  · exact currencyLength_of_append whole
  · exact marked_of_append whole

/-- A flag that was found is a flag by itself. -/
theorem isFlagWord_of_append {terminal : Terminal} {text rest : Text}
    (sort : terminal = .flag ∨ terminal = .txnWord)
    (whole : terminal.length? (text ++ rest) = some text.length) : IsFlagWord text := by
  rcases sort with rfl | rfl
  · obtain ⟨c, rfl⟩ : ∃ c, text = [c] := by
      refine List.length_eq_one_iff.mp ?_
      simp only [Terminal.length?, oneOf] at whole
      split at whole
      · simp only [Option.ite_none_right_eq_some, Option.some.injEq] at whole
        exact whole.2.symm
      · cases whole
    simp only [Terminal.length?, oneOf, List.cons_append, Option.ite_none_right_eq_some] at whole
    exact Or.inr ⟨c, rfl, whole.1⟩
  · simp only [Terminal.length?, literal, Option.ite_none_right_eq_some, Option.some.injEq] at whole
    obtain ⟨beginning, size⟩ := whole
    obtain ⟨tail, same⟩ := List.isPrefixOf_iff_prefix.mp beginning
    exact Or.inl (List.append_inj same size).1.symm

/-- A tag is a hash and the characters after it. -/
theorem IsWord.tag_cons {text : Text} (word : IsWord .tag text) :
    '#' :: text.drop 1 = text := by
  cases text with
  | nil => cases word
  | cons c inner =>
    simp only [IsWord, Terminal.length?, marked, Option.ite_none_right_eq_some] at word
    rw [word.1]
    rfl

end Lexeme

end Daybook
