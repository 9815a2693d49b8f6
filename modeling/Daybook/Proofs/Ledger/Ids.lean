import Daybook.Proofs.Disk.Names

/-!
# Ids and what they name

An id is a path that is not empty and has no colon, a colon, and digits. Reading yields the path and
the number that the digits write, and every other text is refused as no id. One thing escapes this:
an offset with more digits than are read. Such a text is an id, zeros in front of a small number
included, but reading it ends with a failure that is not one of ids.

Writing is the way back. What was read is written as it was if no superfluous zero stands before the
offset, and no two pairs of a path and an offset are written alike, colons in the path or not: the
last colon always is the one before the offset.
-/
namespace Daybook

/-! ## Digits -/

namespace Text

/-- A digit is the digit of its value. -/
theorem digitChar_of_isDigit {c : Char} (digit : c.isDigit = true) :
    c.toNat - '0'.toNat < 10 ∧ (c.toNat - '0'.toNat).digitChar = c := by
  have codes : 48 ≤ c.toNat ∧ c.toNat ≤ 57 := by
    simpa [Char.isDigit, UInt32.le_iff_toNat_le] using digit
  obtain ⟨low, high⟩ := codes
  have listed : ∀ code : Fin 58, 48 ≤ code.val →
      (code.val - '0'.toNat).digitChar = Char.ofNat code := by decide
  refine ⟨by rw [show '0'.toNat = 48 from rfl]; omega, ?_⟩
  have same := listed ⟨c.toNat, by omega⟩ low
  rwa [Char.ofNat_toNat] at same

/-- A number that is not zero has no zero in front. -/
theorem head?_decimal {n : Nat} (positive : 0 < n) : (decimal n).head? ≠ some '0' := by
  induction n using Nat.strongRecOn with
  | ind n ih =>
    by_cases small : n < 10
    · have listed : ∀ digit : Fin 10, 0 < digit.val → digit.val.digitChar ≠ '0' := by decide
      rw [decimal, Nat.toDigits_of_lt_base small, List.head?_cons]
      exact fun same => listed ⟨n, small⟩ positive (Option.some.inj same)
    · have first := ih (n / 10) (by omega) (by omega)
      rw [decimal, Nat.toDigits_of_base_le (by decide) (by omega),
        List.head?_append_of_ne_nil _ Nat.toDigits_ne_nil]
      exact first

/-- Digits without a zero in front write a number that is not zero, and are what it is written
with. -/
theorem decimal_of_digits {digits : Text} (counted : digits ≠ [])
    (all : ∀ c ∈ digits, c.isDigit = true) (plain : digits.head? ≠ some '0') :
    0 < Nat.ofDigitChars 10 digits 0 ∧ decimal (Nat.ofDigitChars 10 digits 0) = digits := by
  induction digits using List.reverseRecOn with
  | nil => exact absurd rfl counted
  | append_singleton digits last ih =>
    obtain ⟨small, digit⟩ := digitChar_of_isDigit (all last (by simp))
    rw [Nat.ofDigitChars_append, Nat.ofDigitChars_cons, Nat.ofDigitChars_nil]
    by_cases none : digits = []
    · subst none
      have zero : last ≠ '0' := fun same => plain (congrArg some same)
      rw [Nat.ofDigitChars_nil, Nat.mul_zero, Nat.zero_add, decimal, Nat.toDigits_of_lt_base small,
        digit]
      refine ⟨Nat.pos_of_ne_zero fun same => zero ?_, rfl⟩
      rw [← digit, same]
      rfl
    · rw [List.head?_append_of_ne_nil _ none] at plain
      have front : ∀ c ∈ digits, c.isDigit = true :=
        fun c member => all c (List.mem_append_left _ member)
      obtain ⟨positive, same⟩ := ih none front plain
      refine ⟨by omega, ?_⟩
      rw [decimal, ← Nat.toDigits_append_toDigits (by decide) positive small,
        Nat.toDigits_of_lt_base small, digit]
      exact congrArg (· ++ [last]) same

/-- Digits are what their number is written with exactly if they have no superfluous zero in
front. -/
theorem decimal_ofDigitChars_iff {digits : Text} (counted : digits ≠ [])
    (all : ∀ c ∈ digits, c.isDigit = true) :
    decimal (Nat.ofDigitChars 10 digits 0) = digits ↔
      digits = ['0'] ∨ digits.head? ≠ some '0' := by
  constructor
  · intro same
    rcases Nat.eq_zero_or_pos (Nat.ofDigitChars 10 digits 0) with zero | positive
    · rw [zero] at same
      exact Or.inl same.symm
    · rw [← same]
      exact Or.inr (head?_decimal positive)
  · rintro (rfl | plain)
    · rfl
    · exact (decimal_of_digits counted all plain).2

end Text

/-! ## Reading ids -/

namespace Identifier

/-- A path and digits make up the id. -/
structure Spells (path digits written : Text) : Prop where
  whole : written = path ++ ':' :: digits
  something : path ≠ []
  quiet : ':' ∉ path
  counted : digits ≠ []
  digits : ∀ c ∈ digits, c.isDigit = true

/-- The text is the path, a colon, and digits that write the offset. -/
def NamedBy (id : Identifier) (written : Text) : Prop :=
  ∃ digits, Spells id.path digits written ∧ id.offset = Nat.ofDigitChars 10 digits 0

/-- Reading the text yields what the text names, or the failure that it is no id. -/
structure Settles (written : Text) : Prop where
  named : ∀ id : Identifier, decode written = .ok id ↔ id.NamedBy written
  refused : (∀ id : Identifier, ¬ id.NamedBy written) →
    ∃ failure, decode written = .error failure ∧ failure.kind? = some .invalidIdentifier

/-- The text is an id whose offset has more digits than are read. -/
def Endless (written : Text) : Prop :=
  ∃ path digits, Spells path digits written ∧ Text.mostDigits < digits.length

variable {path digits written : Text}

/-- An id is read unless its offset is endless. -/
theorem Spells.decode_eq (spells : Spells path digits written) : decode written =
    if Text.mostDigits < digits.length then .error (.endlessOffset digits.length)
    else .ok ⟨path, Nat.ofDigitChars 10 digits 0⟩ := by
  have all : digits.all Char.isDigit = true := List.all_eq_true.mpr spells.digits
  rw [decode, spells.whole, Text.cutAt_append spells.quiet]
  dsimp only
  rw [if_neg spells.something, if_pos ⟨spells.counted, all⟩]

/-- There is one way to take an id apart. -/
theorem Spells.unique (spells : Spells path digits written) {other further : Text}
    (also : Spells other further written) : path = other ∧ digits = further := by
  have cut := Text.cutAt_append spells.quiet digits
  rw [← spells.whole, also.whole, Text.cutAt_append also.quiet] at cut
  simpa [eq_comm] using cut

/-- What is no id is refused as such. -/
theorem decode_of_not_spelled (none : ∀ path digits, ¬ Spells path digits written) :
    ∃ failure, decode written = .error failure ∧ failure.kind? = some .invalidIdentifier := by
  unfold decode
  split
  · exact ⟨_, rfl, rfl⟩
  · next path digits cut =>
    by_cases something : path = []
    · rw [if_pos something]
      exact ⟨_, rfl, rfl⟩
    · rw [if_neg something, if_neg]
      · exact ⟨_, rfl, rfl⟩
      · rintro ⟨counted, all⟩
        exact none path digits ⟨Text.eq_of_cutAt cut, something, Text.not_mem_of_cutAt cut, counted,
          List.all_eq_true.mp all⟩

/-- What is read is an id whose offset is not endless. -/
theorem spelled_of_decode {id : Identifier} (read : decode written = .ok id) :
    ∃ digits, Spells id.path digits written ∧ id.offset = Nat.ofDigitChars 10 digits 0 ∧
      digits.length ≤ Text.mostDigits := by
  by_cases spelled : ∃ path digits, Spells path digits written
  · obtain ⟨path, digits, spells⟩ := spelled
    rw [spells.decode_eq] at read
    split at read
    · cases read
    · next short =>
      cases read
      exact ⟨digits, spells, rfl, Nat.not_lt.mp short⟩
  · obtain ⟨failure, refused, _⟩ :=
      decode_of_not_spelled fun path digits spells => spelled ⟨path, digits, spells⟩
    rw [refused] at read
    cases read

/-- Where the offset is endless the text is an id that is not read. -/
theorem Endless.not_settles (endless : Endless written) : ¬ Settles written := by
  obtain ⟨path, digits, spells, long⟩ := endless
  intro settles
  have read := (settles.named ⟨path, Nat.ofDigitChars 10 digits 0⟩).mpr ⟨digits, spells, rfl⟩
  rw [spells.decode_eq, if_pos long] at read
  cases read

/-- Every other text is settled. -/
theorem settles_of_not_endless (short : ¬ Endless written) : Settles written := by
  constructor
  · intro id
    constructor
    · intro read
      obtain ⟨digits, spells, value, _⟩ := spelled_of_decode read
      exact ⟨digits, spells, value⟩
    · rintro ⟨digits, spells, value⟩
      rw [spells.decode_eq, if_neg fun long => short ⟨_, _, spells, long⟩, ← value]
  · intro none
    refine decode_of_not_spelled fun path digits spells => ?_
    exact none ⟨path, Nat.ofDigitChars 10 digits 0⟩ ⟨digits, spells, rfl⟩

/-! ## Writing ids -/

/-- An offset is written exactly if it has no more digits than are written. The length of the digits
is asked first, for negative offsets as well, and only those that are not negative have an id. -/
theorem make_eq_ok_iff {offset : Int} : make path offset = .ok written ↔
    ∃ n : Nat, offset = n ∧ (Text.decimal n).length ≤ Text.mostDigits ∧
      written = encode ⟨path, n⟩ := by
  unfold make
  by_cases long : Text.mostDigits < (Text.decimal offset.natAbs).length
  · rw [if_pos long]
    refine iff_of_false (fun made => by cases made) ?_
    rintro ⟨n, rfl, short, _⟩
    rw [Int.natAbs_natCast] at long
    exact Nat.not_lt.mpr short long
  · rw [if_neg long]
    cases offset with
    | ofNat n =>
      constructor
      · rintro ⟨⟩
        exact ⟨n, rfl, Nat.not_lt.mp long, rfl⟩
      · rintro ⟨other, same, _, rfl⟩
        rw [show n = other from Int.ofNat.inj same]
    | negSucc n =>
      refine iff_of_false (fun made => by cases made) ?_
      rintro ⟨other, same, _⟩
      cases same

/-- What was read from an id is written as that id exactly if no superfluous zero stands before the
offset. -/
theorem Spells.make_iff (spells : Spells path digits written)
    (short : digits.length ≤ Text.mostDigits) :
    make path (Nat.ofDigitChars 10 digits 0 : Nat) = .ok written ↔
      digits = ['0'] ∨ digits.head? ≠ some '0' := by
  rw [← Text.decimal_ofDigitChars_iff spells.counted spells.digits, make_eq_ok_iff]
  constructor
  · rintro ⟨n, same, _, whole⟩
    rw [spells.whole, encode, List.append_cancel_left_eq, List.cons_eq_cons] at whole
    rw [Int.natCast_inj.mp same]
    exact whole.2.symm
  · intro same
    refine ⟨_, rfl, by rwa [same], ?_⟩
    rw [spells.whole, encode, same]

/-- Reading a text yields the path and the offset that it spells, or else the failure that it is no
id, exactly if it is no id with an endless offset; and then, and only then, reading fails otherwise.
An id that is written is read back as long as the path has something in it but no colon. What was
read is written as it was exactly if there is no superfluous zero. Different pairs of a path and an
offset, colons or not, are written differently. The path ends at the first colon, and what stands
behind it is a numeral or not; of the numerals, only the length matters for reading and only the
leading zeros for writing. -/
theorem decode_settles_iff (written : Text) :
    (Settles written ↔ ¬ Endless written) ∧
    (Endless written → ∃ count, decode written = .error (.endlessOffset count)) ∧
    (∀ (path : Text) (offset : Nat), path ≠ [] → ':' ∉ path →
      ((∃ id, make path offset = .ok id ∧ decode id = .ok ⟨path, offset⟩) ↔
        (Text.decimal offset).length ≤ Text.mostDigits)) ∧
    (∀ (id : Identifier) (digits : Text), decode written = .ok id →
      Spells id.path digits written →
        (make id.path id.offset = .ok written ↔ digits = ['0'] ∨ digits.head? ≠ some '0')) ∧
    ∀ (path other : Text) (offset further : Int), make path offset = .ok written →
      make other further = .ok written → path = other ∧ offset = further := by
  refine ⟨⟨fun settles endless => endless.not_settles settles, settles_of_not_endless⟩, ?_, ?_, ?_,
    ?_⟩
  · rintro ⟨path, digits, spells, long⟩
    exact ⟨digits.length, by rw [spells.decode_eq, if_pos long]⟩
  · intro path offset something quiet
    constructor
    · rintro ⟨id, made, _⟩
      obtain ⟨n, same, short, _⟩ := make_eq_ok_iff.mp made
      rwa [Int.natCast_inj.mp same]
    · intro short
      exact ⟨_, make_eq_ok_iff.mpr ⟨offset, rfl, short, rfl⟩,
        (decode_encode_iff something).mpr ⟨quiet, short, rfl⟩⟩
  · intro id digits read spells
    obtain ⟨others, also, value, short⟩ := spelled_of_decode read
    obtain ⟨_, rfl⟩ := spells.unique also
    rw [value]
    exact spells.make_iff short
  · intro path other offset further made also
    obtain ⟨n, rfl, _, whole⟩ := make_eq_ok_iff.mp made
    obtain ⟨m, rfl, _, same⟩ := make_eq_ok_iff.mp also
    obtain ⟨rfl, rfl⟩ := Identifier.mk.inj (encode_inj (whole.symm.trans same))
    exact ⟨rfl, rfl⟩

/-- A seven with more zeros before it than are read is an offset, and yet it is refused as something
else than an id. -/
theorem zeros_unsettled :
    ¬ Settles ('a' :: ':' :: (List.replicate Text.mostDigits '0' ++ ['7'])) := by
  refine Endless.not_settles ⟨['a'], List.replicate Text.mostDigits '0' ++ ['7'],
    ⟨rfl, List.cons_ne_nil _ _, by decide, by simp, ?_⟩, ?_⟩
  · intro c member
    rcases List.mem_append.mp member with zero | seven
    · rw [List.eq_of_mem_replicate zero]
      rfl
    · rw [List.mem_singleton.mp seven]
      rfl
  · rw [List.length_append, List.length_replicate]
    exact Nat.lt_succ_self _

end Identifier

end Daybook
