import Daybook.Proofs.Date.Days

/-!
# The order of dates

Transactions are listed in the order of the texts of their dates. Among numerals with equally many
digits the order of the texts is the order of the numbers; so it is the order of the calendar among
dates whose years, months and days are written with equally many digits.
-/
namespace Daybook

open Lexeme

namespace Text

/-! ## Numerals of one length -/

/-- A larger number stays larger, whatever digits go on with both. -/
theorem ofDigitChars_lt {first second : Text} {low high : Nat} (size : first.length = second.length)
    (digits : ∀ c ∈ first, isDigit c = true) (less : low < high) :
    Nat.ofDigitChars 10 first low < Nat.ofDigitChars 10 second high := by
  induction first generalizing second low high with
  | nil =>
    cases second with
    | nil => exact less
    | cons d second => cases size
  | cons c first ih =>
    cases second with
    | nil => cases size
    | cons d second =>
      obtain ⟨digit, others⟩ := List.forall_mem_cons.mp digits
      rw [Nat.ofDigitChars_cons, Nat.ofDigitChars_cons]
      refine ih (by simpa using size) others ?_
      rw [isDigit_iff] at digit
      have zero : '0'.toNat = 48 := rfl
      omega

/-- Among numerals with equally many digits an earlier text is a smaller number. At the first digit
in which the texts differ the decision has fallen, because all further digits together are worth
less than one unit of this place; `value` is what the common digits before it are worth. -/
theorem eq_or_ofDigitChars_lt {first second : Text} (size : first.length = second.length)
    (digits : ∀ c ∈ first, isDigit c = true) (other : ∀ c ∈ second, isDigit c = true)
    (ordered : atMost first second = true) (value : Nat) :
    first = second ∨ Nat.ofDigitChars 10 first value < Nat.ofDigitChars 10 second value := by
  induction first generalizing second value with
  | nil =>
    cases second with
    | nil => exact Or.inl rfl
    | cons d second => cases size
  | cons c first ih =>
    cases second with
    | nil => cases size
    | cons d second =>
      obtain ⟨digit, digits⟩ := List.forall_mem_cons.mp digits
      obtain ⟨otherDigit, others⟩ := List.forall_mem_cons.mp other
      have shorter : first.length = second.length := by simpa using size
      rw [Nat.ofDigitChars_cons, Nat.ofDigitChars_cons]
      simp only [atMost, Bool.or_eq_true, decide_eq_true_eq, Bool.and_eq_true, beq_iff_eq] at ordered
      rcases ordered with less | ⟨rfl, ordered⟩
      · refine Or.inr (ofDigitChars_lt shorter digits ?_)
        rw [isDigit_iff] at digit otherDigit
        have zero : '0'.toNat = 48 := rfl
        omega
      · exact (ih shorter digits others ordered _).imp_left (congrArg (c :: ·))

/-- Texts that begin with parts of one length are in the order of these parts, and if the parts are
the same in the order of what follows. -/
theorem atMost_append {first second : Text} (size : first.length = second.length)
    {rest others : Text} (ordered : atMost (first ++ rest) (second ++ others) = true) :
    atMost first second = true ∧ (first = second → atMost rest others = true) := by
  induction first generalizing second with
  | nil =>
    cases second with
    | nil => exact ⟨rfl, fun _ => ordered⟩
    | cons d second => cases size
  | cons c first ih =>
    cases second with
    | nil => cases size
    | cons d second =>
      have shorter : first.length = second.length := by simpa using size
      simp only [List.cons_append, atMost, Bool.or_eq_true, decide_eq_true_eq, Bool.and_eq_true,
        beq_iff_eq] at ordered ⊢
      rcases ordered with less | ⟨rfl, ordered⟩
      · refine ⟨Or.inl less, fun same => ?_⟩
        cases same
        omega
      · obtain ⟨before, behind⟩ := ih shorter ordered
        exact ⟨Or.inr ⟨rfl, before⟩, fun same => behind (List.cons.inj same).2⟩

end Text

/-! ## Dates -/

namespace Date

/-- A day is earlier in the calendar than another one. -/
def Before (first second : Date) : Prop :=
  first.year < second.year ∨ first.year = second.year ∧
    (first.month < second.month ∨ first.month = second.month ∧ first.day < second.day)

instance (first second : Date) : Decidable (Before first second) :=
  inferInstanceAs (Decidable (_ ∨ _ ∧ (_ ∨ _ ∧ _)))

/-- Two dates are written with digits and hyphens, and with equally many digits in every part. -/
structure WrittenAlike (first second : Text) : Prop where
  digits : ∀ c ∈ first ++ second, c = '-' ∨ isDigit c = true
  sizes : (first.splitOn '-').map List.length = (second.splitOn '-').map List.length

instance (first second : Text) : Decidable (WrittenAlike first second) :=
  decidable_of_iff ((first ++ second).all (fun c => decide (c = '-' ∨ isDigit c = true)) = true ∧
      (first.splitOn '-').map List.length = (second.splitOn '-').map List.length)
    ⟨fun alike => ⟨forall_mem_of_all alike.1, alike.2⟩,
      fun alike => ⟨List.all_eq_true.mpr fun c member => decide_eq_true (alike.digits c member),
        alike.sizes⟩⟩

/-- Either of two dates that are written alike may come first. -/
theorem WrittenAlike.symm {first second : Text} (alike : WrittenAlike first second) :
    WrittenAlike second first := by
  refine ⟨fun c member => alike.digits c ?_, alike.sizes.symm⟩
  rw [List.mem_append] at member ⊢
  exact member.symm

/-- The year, the month and the day of a date are the numbers between the hyphens. -/
structure Spells (date : Date) (written year month day : Text) : Prop where
  parts : written.splitOn '-' = [year, month, day]
  digits : ∀ part ∈ [year, month, day], ∀ c ∈ part, isDigit c = true
  year : date.year = Nat.ofDigitChars 10 year 0
  month : date.month = Nat.ofDigitChars 10 month 0
  day : date.day = Nat.ofDigitChars 10 day 0

/-- What is written is the parts with hyphens between them. -/
theorem Spells.whole {date : Date} {written year month day : Text}
    (spells : date.Spells written year month day) :
    written = year ++ '-' :: (month ++ '-' :: day) := by
  have joined := @List.intercalate_splitOn Char written _ _ '-'
  rw [spells.parts] at joined
  simpa [List.intercalate] using joined.symm

/-- A date that is written with digits and hyphens has three parts. A part of such a text is made of
digits, for a hyphen cannot be in it, and of a part that is made of digits the number is known. -/
theorem exists_spells {written : Text} {date : Date} (read : Date.read written = .ok date)
    (plain : ∀ c ∈ written, c = '-' ∨ isDigit c = true) :
    ∃ year month day, date.Spells written year month day := by
  have digits : ∀ part ∈ written.splitOn '-', ∀ c ∈ part, isDigit c = true := by
    intro part member c inside
    have other : c ≠ '-' := by
      rintro rfl
      exact Text.not_mem_of_mem_splitOn member inside
    refine (plain c ?_).resolve_left other
    have joined := @List.intercalate_splitOn Char written _ _ '-'
    rw [← joined, Text.mem_intercalate_iff other]
    exact ⟨part, member, inside⟩
  have named := namedBy_of_read read
  unfold NamedBy at named
  generalize known : written.splitOn '-' = parts at digits named
  rcases named with _ | ⟨first, _ | ⟨second, _ | ⟨third, _ | _⟩⟩⟩
  have own := digits _ List.mem_cons_self
  obtain ⟨_, others⟩ := List.forall_mem_cons.mp digits
  have ownMonth := others _ List.mem_cons_self
  have ownDay := others _ (List.mem_cons_of_mem _ List.mem_cons_self)
  exact ⟨_, _, _, known, digits, Int.ofNat.inj (Text.integer_of_digits own first),
    Int.ofNat.inj (Text.integer_of_digits ownMonth second),
    Int.ofNat.inj (Text.integer_of_digits ownDay third)⟩

/-- Of two dates that are written alike the earlier text is no later date, and two texts of one date
are the same. -/
theorem WrittenAlike.not_before {first second : Text} (alike : WrittenAlike first second)
    {date other : Date} (read : Date.read first = .ok date)
    (alsoRead : Date.read second = .ok other) (ordered : Text.atMost first second = true) :
    ¬ other.Before date ∧ (date = other → first = second) := by
  obtain ⟨year, month, day, spells⟩ := exists_spells read fun c member =>
    alike.digits c (List.mem_append_left _ member)
  obtain ⟨otherYear, otherMonth, otherDay, alsoSpells⟩ := exists_spells alsoRead fun c member =>
    alike.digits c (List.mem_append_right _ member)
  have sizes := alike.sizes
  rw [spells.parts, alsoSpells.parts] at sizes
  simp only [List.map_cons, List.map_nil, List.cons.injEq, and_true] at sizes
  obtain ⟨yearSize, monthSize, daySize⟩ := sizes
  have digits := spells.digits
  have otherDigits := alsoSpells.digits
  simp only [List.forall_mem_cons, List.not_mem_nil, false_implies, implies_true, and_true]
    at digits otherDigits
  have equal (same : date = other) :
      Nat.ofDigitChars 10 year 0 = Nat.ofDigitChars 10 otherYear 0 ∧
        Nat.ofDigitChars 10 month 0 = Nat.ofDigitChars 10 otherMonth 0 ∧
        Nat.ofDigitChars 10 day 0 = Nat.ofDigitChars 10 otherDay 0 := by
    subst same
    exact ⟨spells.year.symm.trans alsoSpells.year, spells.month.symm.trans alsoSpells.month,
      spells.day.symm.trans alsoSpells.day⟩
  rw [spells.whole, alsoSpells.whole] at ordered ⊢
  rw [Before, spells.year, spells.month, spells.day, alsoSpells.year, alsoSpells.month,
    alsoSpells.day]
  -- The first part that is not the same decides.
  obtain ⟨years, behind⟩ := Text.atMost_append yearSize ordered
  rcases Text.eq_or_ofDigitChars_lt yearSize digits.1 otherDigits.1 years 0 with rfl | less
  · have later := behind rfl
    simp only [Text.atMost, lt_irrefl, decide_false, beq_self_eq_true, Bool.true_and,
      Bool.false_or] at later
    obtain ⟨months, behind⟩ := Text.atMost_append monthSize later
    rcases Text.eq_or_ofDigitChars_lt monthSize digits.2.1 otherDigits.2.1 months 0 with rfl | less
    · have last := behind rfl
      simp only [Text.atMost, lt_irrefl, decide_false, beq_self_eq_true, Bool.true_and,
        Bool.false_or] at last
      rcases Text.eq_or_ofDigitChars_lt daySize digits.2.2 otherDigits.2.2 last 0 with rfl | less
      · exact ⟨by omega, fun _ => rfl⟩
      · refine ⟨by omega, fun same => ?_⟩
        have days := (equal same).2.2
        omega
    · refine ⟨by omega, fun same => ?_⟩
      have months := (equal same).2.1
      omega
  · refine ⟨by omega, fun same => ?_⟩
    have years := (equal same).1
    omega

end Date

end Daybook
