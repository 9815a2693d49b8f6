import Daybook.Failure
import Daybook.Proofs.Disk.Names
import Daybook.Proofs.Lexeme.Words
import Daybook.Proofs.Result
import Daybook.Proofs.Text.Characters

/-!
# The day that a text names

A text names a day if there are three numerals between its hyphens, of the year, of the month and
of the day. Every other text is refused as no date, but for one case: where there are no more than
three parts, all of them numerals, and one of them is too large for a machine integer, the calendar
itself gives up. The sign of a numeral cannot be a minus, since that is a hyphen as well, so a
number is never too small.
-/
namespace Daybook

open Lexeme

namespace Text

/-! ## Numerals -/

/-- The value of a digit of the basic set. -/
theorem digitIn_of_isDigit {c : Char} (digit : isDigit c = true) :
    digitIn 10 c = some (c.toNat - 48) := by
  rw [isDigit_iff] at digit
  have first : digitValue c = some (c.toNat - 48) := by
    simp only [digitValue, scriptZeros, List.find?_cons]
    have within : (decide (48 ≤ c.toNat) && decide (c.toNat < 48 + 10)) = true := by
      simp only [Bool.and_eq_true, decide_eq_true_eq]
      omega
    simp only [within, Option.map_some]
  rw [digitIn, first, Option.some_or, Option.filter_some, if_pos]
  simp only [decide_eq_true_eq]
  omega

/-- Digits go on with the number that has been read. -/
theorem naturalFrom_of_digits {digits : Text} (all : ∀ c ∈ digits, isDigit c = true) (value : Nat) :
    naturalFrom 10 value digits = some (Nat.ofDigitChars 10 digits value) := by
  induction digits generalizing value with
  | nil => rfl
  | cons c digits ih =>
    obtain ⟨digit, others⟩ := List.forall_mem_cons.mp all
    have underscore : c ≠ '_' := by
      rintro rfl
      cases digit
    rw [naturalFrom, digitIn_of_isDigit digit, Option.bind_some, ih others, Nat.ofDigitChars_cons]
    · rfl
    · exact fun _ _ same => absurd same underscore

/-- Decimal numerals have no mark of their base. -/
theorem afterMark_ten (text : Text) : afterMark 10 text = text := by
  unfold afterMark
  split
  · rw [if_neg (fun both => both.1 rfl)]
  · rfl

/-- Nothing surrounds digits. -/
theorem withoutSurroundings_of_digits {digits : Text} (all : ∀ c ∈ digits, isDigit c = true) :
    withoutSurroundings digits = digits := by
  have solid (c : Char) (digit : isDigit c = true) : surroundsNumeral c = false := by
    rw [isDigit_iff] at digit
    have visible : isBlank c = false := by
      rw [Bool.eq_false_iff]
      intro blank
      have outside := isBlank_outside blank
      omega
    rw [surroundsNumeral, visible, Bool.false_and]
  have keeps (text : Text) (all : ∀ c ∈ text, isDigit c = true) :
      text.dropWhile surroundsNumeral = text := by
    cases text with
    | nil => rfl
    | cons c rest =>
      rw [List.dropWhile_cons_of_neg]
      simpa using solid c (all c List.mem_cons_self)
  rw [withoutSurroundings, keeps digits all, keeps, List.reverse_reverse]
  exact fun c member => all c (List.mem_reverse.mp member)

/-- Some digits are a numeral, unless there are too many of them. Signs, blanks, underscores and
prefixes, which a numeral may have, are ruled out one after the other, since none of them is a
digit. -/
theorem integer_eq_of_digits {digits : Text} (all : ∀ c ∈ digits, isDigit c = true)
    (some : digits ≠ []) :
    integer 10 digits = if mostDigits < digits.length then .error (.tooManyDigits digits.length)
      else .ok (Nat.ofDigitChars 10 digits 0) := by
  have whole : digits.takeWhile (isInNumeral 10) = digits := by
    rw [List.takeWhile_eq_self_iff]
    intro c member
    rw [isInNumeral, digitIn_of_isDigit (all c member), Option.isSome_some, Bool.or_true]
  have count : digits.countP (· ≠ '_') = digits.length := by
    rw [List.countP_eq_length]
    intro c member
    simp only [ne_eq, decide_not, Bool.not_eq_true', decide_eq_false_iff_not]
    rintro rfl
    cases all _ member
  have value : natural? 10 digits = Option.some (Nat.ofDigitChars 10 digits 0) := by
    cases digits with
    | nil => exact absurd rfl some
    | cons c others =>
      obtain ⟨digit, digits⟩ := List.forall_mem_cons.mp all
      rw [natural?, digitIn_of_isDigit digit, Option.bind_some, naturalFrom_of_digits digits,
        Nat.ofDigitChars_cons, Nat.mul_zero, Nat.zero_add]
      rfl
  have read : natural 10 digits = if mostDigits < digits.length then
      .error (.tooManyDigits digits.length) else .ok (Nat.ofDigitChars 10 digits 0) := by
    simp only [natural, whole, value, count, lt_irrefl, if_false, true_and]
  unfold integer
  rw [withoutSurroundings_of_digits all]
  split
  · cases all '+' List.mem_cons_self
  · cases all '-' List.mem_cons_self
  · rw [afterMark_ten, read]
    split <;> rfl

/-- The number that digits write. -/
theorem integer_of_digits {digits : Text} (all : ∀ c ∈ digits, isDigit c = true) {n : Int}
    (read : integer 10 digits = .ok n) : n = Nat.ofDigitChars 10 digits 0 := by
  have some : digits ≠ [] := by
    rintro rfl
    cases read
  rw [integer_eq_of_digits all some] at read
  split at read
  · cases read
  · exact (Except.ok.inj read).symm

/-- Without a minus no negative number is written. -/
theorem integer_nonneg {numeral : Text} (quiet : '-' ∉ numeral) {n : Int}
    (read : integer 10 numeral = .ok n) : 0 ≤ n := by
  have inner : '-' ∉ withoutSurroundings numeral := by
    intro member
    refine quiet ((List.dropWhile_sublist surroundsNumeral).mem ?_)
    rw [withoutSurroundings, List.mem_reverse] at member
    exact List.mem_reverse.mp ((List.dropWhile_sublist _).mem member)
  unfold integer at read
  split at read
  · obtain ⟨value, _, rfl⟩ := map_eq_ok_iff.mp read
    exact Int.natCast_nonneg value
  · next found =>
    rw [found] at inner
    exact absurd List.mem_cons_self inner
  · obtain ⟨value, _, rfl⟩ := map_eq_ok_iff.mp read
    exact Int.natCast_nonneg value

end Text

/-! ## Dates -/

namespace Date

/-- No month is longer than 31 days. -/
theorem daysIn_le (year month : Nat) : daysIn year month ≤ 31 := by
  unfold daysIn
  split
  · split <;> decide
  all_goals decide

/-- A machine integer holds a number. -/
def Fits (number : Int) : Prop :=
  -2147483648 ≤ number ∧ number < 2147483648

/-- Numbers that a machine integer holds are accepted, all others are refused as too large or too
small. -/
theorem fit_cases (number : Int) : Fits number ∧ fit number = .ok () ∨
    ¬ Fits number ∧ ∃ cause, fit number = .error (.overflow cause) := by
  unfold Fits fit
  split
  · exact Or.inr ⟨by omega, _, rfl⟩
  · split
    · exact Or.inr ⟨by omega, _, rfl⟩
    · split
      · exact Or.inr ⟨by omega, _, rfl⟩
      · exact Or.inl ⟨by omega, rfl⟩

/-- Three numbers are a date exactly if they are its year, its month and its day. A date carries the
proof that its parts are valid, so the converse is the equation of a date with itself. -/
theorem ofNumbers_eq_ok_iff {year month day : Int} {date : Date} :
    ofNumbers year month day = .ok date ↔
      (date.year : Int) = year ∧ (date.month : Int) = month ∧ (date.day : Int) = day := by
  have valid := date.valid
  unfold ofNumbers
  split
  · next named =>
    have bounds := named.1
    have months := named.2.1
    have days := named.2.2.1
    rw [Except.ok.injEq]
    constructor
    · rintro rfl
      refine ⟨?_, ?_, ?_⟩ <;> (dsimp only; omega)
    · rintro ⟨rfl, rfl, rfl⟩
      rfl
  · next unnamed =>
    refine iff_of_false (fun same => ?_) ?_
    · split at same
      · cases same
      · split at same <;> cases same
    · rintro ⟨rfl, rfl, rfl⟩
      exact unnamed valid

/-- Numbers that are no date are at fault for their range, not for their size. -/
theorem ofNumbers_ne_overflow (year month day : Int) (cause : Overflow) :
    ofNumbers year month day ≠ .error (.overflow cause) := by
  unfold ofNumbers
  split
  · exact nofun
  · split
    · exact nofun
    · split <;> exact nofun

/-- The numerals between hyphens are these numbers. -/
def Reads (parts : List Text) (numbers : List Int) : Prop :=
  List.Forall₂ (fun part number => Text.integer 10 part = .ok number) parts numbers

/-- There is one way to read numerals. -/
theorem Reads.unique {parts : List Text} {numbers others : List Int} (read : Reads parts numbers)
    (alsoRead : Reads parts others) : numbers = others := by
  induction read generalizing others with
  | nil => exact (List.forall₂_nil_left_iff.mp alsoRead).symm
  | cons first _ ih =>
    obtain ⟨other, more, same, rest, rfl⟩ := List.forall₂_cons_left_iff.mp alsoRead
    rw [first] at same
    rw [Except.ok.inj same, ih rest]

/-- Every part is read as a number. -/
theorem Reads.exists_number {parts : List Text} {numbers : List Int} (read : Reads parts numbers)
    {part : Text} (member : part ∈ parts) : ∃ number, Text.integer 10 part = .ok number := by
  induction read with
  | nil => cases member
  | cons first _ ih =>
    rcases List.mem_cons.mp member with rfl | later
    · exact ⟨_, first⟩
    · exact ih later

/-- Every number is read from a part. -/
theorem Reads.exists_part {parts : List Text} {numbers : List Int} (read : Reads parts numbers)
    {number : Int} (member : number ∈ numbers) :
    ∃ part ∈ parts, Text.integer 10 part = .ok number := by
  induction read with
  | nil => cases member
  | cons first _ ih =>
    rcases List.mem_cons.mp member with rfl | later
    · exact ⟨_, List.mem_cons_self, first⟩
    · obtain ⟨part, among, found⟩ := ih later
      exact ⟨part, List.mem_cons_of_mem _ among, found⟩

/-- What comes of numbers that fit: three of them may be a date. -/
def ofFitting : List Int → Except Fault Date
  | [] | [_] => .error .missingMonth
  | [_, _] => .error .missingDay
  | [year, month, day] => ofNumbers year month day
  | more => .error (.tooManyParts more.length)

/-- Numbers that fit are a date exactly if they are its year, its month and its day. -/
theorem ofFitting_eq_ok_iff {numbers : List Int} {date : Date} :
    ofFitting numbers = .ok date ↔ numbers = [(date.year : Int), date.month, date.day] := by
  match numbers with
  | [] | [_] | [_, _] => simp [ofFitting]
  | [year, month, day] =>
    rw [ofFitting, ofNumbers_eq_ok_iff]
    simp [eq_comm]
  | _ :: _ :: _ :: _ :: _ => simp [ofFitting]

/-- Numbers that fit are not at fault for their size. -/
theorem ofFitting_ne_overflow (numbers : List Int) (cause : Overflow) :
    ofFitting numbers ≠ .error (.overflow cause) := by
  match numbers with
  | [] | [_] | [_, _] => exact nofun
  | [year, month, day] => exact ofNumbers_ne_overflow year month day cause
  | _ :: _ :: _ :: _ :: _ => exact nofun

/-- Numerals are held against a machine integer unless there are too many of them. -/
theorem ofParts_of_reads {parts : List Text} {numbers : List Int} (read : Reads parts numbers) :
    ofParts parts = if numbers.length ≤ 3 then numbers.forM fit >>= fun _ => ofFitting numbers
      else ofFitting numbers := by
  have mapped : parts.mapM (fun part => (Text.integer 10 part).mapError (Fault.notANumber part)) =
      .ok numbers := by
    induction read with
    | nil => rfl
    | cons first _ ih =>
      rw [List.mapM_cons, ih, first]
      rfl
  have known {α : Type} (rest : List Int → Except Fault α) :
      ((.ok numbers : Except Fault _) >>= rest) = rest numbers := rfl
  rw [ofParts, mapped]
  match numbers with
  | [] => rfl
  | [_] | [_, _] | [_, _, _] =>
    simp only [known, List.length_cons, List.length_nil, Nat.reduceLeDiff, if_true,
      List.forM_eq_forM, List.forM_cons, List.forM_nil, bind_assoc, bind_pure_unit, ofFitting]
  | _ :: _ :: _ :: _ :: _ => simp [known, ofFitting]

/-- Parts are all numerals, or one of them is not and is at fault. The fault is that of the first
part that is no numeral. That no other list of numbers can be read is said as well, since the parts
determine the numbers. -/
theorem reads_or_refused (parts : List Text) : (∃ numbers, Reads parts numbers) ∨
    (∀ numbers, ¬ Reads parts numbers) ∧
      ∃ part fault, ofParts parts = .error (.notANumber part fault) := by
  cases mapped : parts.mapM fun part => (Text.integer 10 part).mapError (Fault.notANumber part) with
  | ok numbers =>
    refine Or.inl ⟨numbers, (forall₂_of_mapM_eq_ok mapped).imp fun part number found => ?_⟩
    exact mapError_eq_ok_iff.mp found
  | error fault =>
    obtain ⟨part, member, refused⟩ := exists_of_mapM_eq_error mapped
    cases unread : Text.integer 10 part with
    | ok number =>
      rw [unread] at refused
      cases refused
    | error cause =>
      rw [unread] at refused
      cases refused
      refine Or.inr ⟨fun numbers read => ?_, part, cause, by rw [ofParts, mapped]; rfl⟩
      obtain ⟨number, found⟩ := read.exists_number member
      rw [unread] at found
      cases found

/-! ## Texts -/

/-- A text names a date: there are three numerals between its hyphens, of the year, the month and
the day. -/
def NamedBy (date : Date) (written : Text) : Prop :=
  Reads (written.splitOn '-') [(date.year : Int), date.month, date.day]

/-- There are no more than three parts between the hyphens of a text, all of them numerals, and one
of them is too large for a machine integer. -/
def Oversized (written : Text) : Prop :=
  ∃ numbers, Reads (written.splitOn '-') numbers ∧ numbers.length ≤ 3 ∧
    ∃ number ∈ numbers, 2147483648 ≤ number

/-- A text is read as the date that it names, and refused as no date if it names none. -/
structure Settles (written : Text) : Prop where
  named : ∀ date : Date, date.NamedBy written → Date.read written = .ok date
  refused : (∀ date : Date, ¬ date.NamedBy written) →
    ∃ failure, Date.read written = .error failure ∧ failure.kind? = some .invalidDate

/-- A date that is read is one that the text names. The check of the range stands before the
calendar only if there are at most three parts, so both cases of it are undone here. -/
theorem namedBy_of_read {written : Text} {date : Date} (read : Date.read written = .ok date) :
    date.NamedBy written := by
  have named : ofParts (written.splitOn '-') = .ok date := by
    unfold Date.read at read
    split at read
    · next found =>
      cases read
      exact found
    · cases read
    · cases read
  rcases reads_or_refused (written.splitOn '-') with ⟨numbers, reads⟩ | ⟨_, part, fault, refused⟩
  · rw [ofParts_of_reads reads] at named
    have fitting : ofFitting numbers = .ok date := by
      split at named
      · exact (bind_eq_ok_iff.mp named).choose_spec.2
      · exact named
    rw [NamedBy, ← ofFitting_eq_ok_iff.mp fitting]
    exact reads
  · rw [refused] at named
    cases named

/-- No numeral between hyphens is negative, so all numbers fit unless one is too large. -/
theorem fits_of_reads {written : Text} {numbers : List Int}
    (reads : Reads (written.splitOn '-') numbers) {number : Int} (member : number ∈ numbers) :
    Fits number ↔ ¬ 2147483648 ≤ number := by
  obtain ⟨part, among, found⟩ := reads.exists_part member
  have positive := Text.integer_nonneg (Text.not_mem_of_mem_splitOn among) found
  unfold Fits
  omega

/-- Too large a number among at most three is found whatever else is wrong. All numbers are checked
before the calendar is asked, so the fault is that of the first one that does not fit, and it hides
whatever the calendar would have said. -/
theorem read_of_oversized {written : Text} (oversized : Oversized written) :
    ∃ cause, Date.read written = .error (.dateOverflow cause) := by
  obtain ⟨numbers, reads, few, number, member, large⟩ := oversized
  have found : ∃ cause, ofText written = .error (.overflow cause) := by
    rw [ofText, ofParts_of_reads reads, if_pos few]
    cases held : numbers.forM fit with
    | ok _ =>
      have accepted := forM_eq_ok_iff.mp held number member
      rcases fit_cases number with ⟨fits, _⟩ | ⟨_, cause, refused⟩
      · exact absurd large ((fits_of_reads reads member).mp fits)
      · rw [refused] at accepted
        cases accepted
    | error fault =>
      obtain ⟨other, _, refused⟩ := exists_of_forM_eq_error held
      rcases fit_cases other with ⟨_, accepted⟩ | ⟨_, cause, refusal⟩
      · rw [accepted] at refused
        cases refused
      · rw [refusal] at refused
        cases refused
        exact ⟨cause, rfl⟩
  obtain ⟨cause, found⟩ := found
  exact ⟨cause, by rw [Date.read, found]⟩

/-- Without too large a number reading ends with the date that is named, or with the failure that
there is none. -/
theorem settles_of_not_oversized {written : Text} (small : ¬ Oversized written) :
    Settles written := by
  have faulty {fault : Fault} (found : ofText written = .error fault)
      (kind : ∀ cause, fault ≠ .overflow cause) :
      ∃ failure, Date.read written = .error failure ∧ failure.kind? = some .invalidDate := by
    refine ⟨.notADate written fault, ?_, rfl⟩
    rw [Date.read, found]
    cases fault <;> first | rfl | exact absurd rfl (kind _)
  rcases reads_or_refused (written.splitOn '-') with ⟨numbers, reads⟩ | ⟨none, part, fault, refused⟩
  · have found : ofText written = ofFitting numbers := by
      rw [ofText, ofParts_of_reads reads]
      split
      · next few =>
        have held : numbers.forM fit = .ok () := forM_eq_ok_iff.mpr fun number member => by
          rcases fit_cases number with ⟨_, accepted⟩ | ⟨large, _⟩
          · exact accepted
          · rw [fits_of_reads reads member, not_not] at large
            exact absurd ⟨numbers, reads, few, number, member, large⟩ small
        rw [held]
        rfl
      · rfl
    refine ⟨fun date named => ?_, fun unnamed => ?_⟩
    · rw [Date.read, found, ofFitting_eq_ok_iff.mpr (reads.unique named)]
    · cases result : ofFitting numbers with
      | ok date =>
        refine absurd ?_ (unnamed date)
        rw [NamedBy, ← ofFitting_eq_ok_iff.mp result]
        exact reads
      | error fault =>
        refine faulty (found.trans result) fun cause same => ?_
        rw [same] at result
        exact ofFitting_ne_overflow numbers cause result
  · exact ⟨fun date named => absurd named (none _), fun _ => faulty refused fun _ => nofun⟩

/-- A number in decimal is read back, whatever zeros stand before it, unless it is too long. -/
theorem integer_padLeft {width n : Nat} (below : n < 10 ^ width) (positive : 0 < width)
    (short : width ≤ Text.mostDigits) :
    Text.integer 10 (Text.padLeft '0' width (Text.decimal n)) = .ok n := by
  have size := length_padLeft below positive
  have some : Text.padLeft '0' width (Text.decimal n) ≠ [] :=
    List.ne_nil_of_length_pos (by omega)
  have zeros (count : Nat) : Nat.ofDigitChars 10 (List.replicate count '0') 0 = 0 := by
    induction count with
    | zero => rfl
    | succ count ih => rw [List.replicate_succ, Nat.ofDigitChars_cons]; exact ih
  rw [Text.integer_eq_of_digits (isDigit_padLeft width n) some, if_neg (by omega), Text.padLeft,
    Nat.ofDigitChars_append, zeros, Text.decimal, Nat.ofDigitChars_ten_toDigits]

/-- The ISO form of a date names this date. -/
theorem namedBy_iso (date : Date) : date.NamedBy date.iso := by
  obtain ⟨⟨_, year⟩, ⟨_, month⟩, _, day⟩ := date.valid
  have days := day.trans (daysIn_le date.year date.month)
  have joined : date.iso = List.intercalate ['-'] [Text.padLeft '0' 4 (Text.decimal date.year),
      Text.padLeft '0' 2 (Text.decimal date.month), Text.padLeft '0' 2 (Text.decimal date.day)] := by
    simp [iso, List.intercalate]
  have plain (width n : Nat) : '-' ∉ Text.padLeft '0' width (Text.decimal n) := fun member => by
    cases isDigit_padLeft width n _ member
  have parts : date.iso.splitOn '-' = [Text.padLeft '0' 4 (Text.decimal date.year),
      Text.padLeft '0' 2 (Text.decimal date.month), Text.padLeft '0' 2 (Text.decimal date.day)] := by
    rw [joined, List.splitOn_intercalate]
    · simp [plain]
    · exact List.cons_ne_nil _ _
  rw [NamedBy, parts]
  refine .cons ?_ (.cons ?_ (.cons ?_ .nil))
  · exact integer_padLeft (Nat.lt_of_le_of_lt year (by decide)) (by decide) (by decide)
  · exact integer_padLeft (Nat.lt_of_le_of_lt month (by decide)) (by decide) (by decide)
  · exact integer_padLeft (Nat.lt_of_le_of_lt days (by decide)) (by decide) (by decide)

/-- What names a date is not oversized. -/
theorem NamedBy.not_oversized {date : Date} {written : Text} (named : date.NamedBy written) :
    ¬ Oversized written := by
  rintro ⟨numbers, reads, _, number, member, large⟩
  obtain ⟨⟨_, year⟩, ⟨_, month⟩, _, day⟩ := date.valid
  have days := day.trans (daysIn_le date.year date.month)
  rw [reads.unique named] at member
  simp only [List.mem_cons, List.not_mem_nil, or_false] at member
  rcases member with rfl | rfl | rfl <;> omega

/-- Where the calendar gives up there is neither a date nor the failure that there is none. -/
theorem Oversized.not_settles {written : Text} (oversized : Oversized written) :
    ¬ Settles written := by
  intro settles
  obtain ⟨cause, found⟩ := read_of_oversized oversized
  obtain ⟨failure, refused, kind⟩ :=
    settles.refused fun date named => named.not_oversized oversized
  rw [found] at refused
  cases refused
  cases kind

/-- Reading a text yields the date that the text names, or else the failure that it names no date,
exactly if it does not have at most three parts, all of them numerals, with too large a number among
them. Then, and only then, the calendar gives up. A date that is read is always named by the text,
and the ISO form of a date is read as this date. Whether a month or a day exists is asked only of
numbers that fit; those that do not fit stop the reading before, whichever part they are in. -/
theorem read_settles_iff (written : Text) :
    (Settles written ↔ ¬ Oversized written) ∧
      (Oversized written → ∃ cause, Date.read written = .error (.dateOverflow cause)) ∧
      (∀ date : Date, Date.read written = .ok date ↔ date.NamedBy written) ∧
      ∀ date : Date, Date.read date.iso = .ok date := by
  have named {text : Text} {date : Date} (named : date.NamedBy text) :
      Date.read text = .ok date :=
    (settles_of_not_oversized named.not_oversized).named date named
  exact ⟨⟨fun settles oversized => oversized.not_settles settles, settles_of_not_oversized⟩,
    read_of_oversized, fun date => ⟨namedBy_of_read, named⟩, fun date => named (namedBy_iso date)⟩

/-- A year of eleven digits is too large for the calendar to say that there is no such year. -/
theorem remote_unsettled : ¬ Settles "99999999999-1-1" := by
  have reads : Reads (("99999999999-1-1" : Text).splitOn '-') [99999999999, 1, 1] := by
    rw [show ("99999999999-1-1" : Text).splitOn '-' = ["99999999999", "1", "1"] by decide +kernel]
    exact .cons (by rfl) (.cons (by rfl) (.cons (by rfl) .nil))
  have oversized : Oversized "99999999999-1-1" :=
    ⟨_, reads, by decide, 99999999999, List.mem_cons_self, by decide⟩
  exact oversized.not_settles

end Date

end Daybook
