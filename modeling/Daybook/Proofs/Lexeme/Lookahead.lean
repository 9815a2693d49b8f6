import Daybook.Lexeme.Expected

/-!
# How far a lexeme looks ahead

Most sorts of lexemes end before a line feed at the latest, and nothing behind that line feed
has a part in how long they are. Of these, most also end at a space. Three sorts are
different: a quoted text goes over line ends up to its closing mark, and the two sorts of line
ends take in as much as there is.

So the token at the beginning of a text stays the same when the text behind the next line
feed is exchanged, unless the token itself ends a line.
-/
namespace Daybook

namespace Lexeme

/-! ## The parts of a lexeme -/

/-- A stretch ends at the first character that is not of its sort. -/
theorem stretch_append_of_mem (sort : Char → Bool) {c : Char} {text : Text} (member : c ∈ text)
    (stop : sort c = false) (rest : Text) :
    Text.stretch sort (text ++ rest) = Text.stretch sort text ∧
      Text.stretch sort text < text.length := by
  induction text with
  | nil => cases member
  | cons first others ih =>
    by_cases more : sort first = true
    · have later : c ∈ others := by
        rcases List.mem_cons.mp member with rfl | later
        · rw [more] at stop
          cases stop
        · exact later
      obtain ⟨same, shorter⟩ := ih later
      simp only [Text.stretch] at same shorter ⊢
      simp [more, same, shorter]
    · simp [Text.stretch, more]

section Parts

variable {sort : Char → Bool} {c : Char} {text : Text} (rest : Text)

/-- A stretch does not notice what stands behind a character that is not of its sort. This is the
whole reason why lexemes look no further; the lemmas below carry it through the parts of each
sort. -/
theorem stretch_append (stop : sort c = false) :
    Text.stretch sort (text ++ c :: rest) = Text.stretch sort text := by
  induction text with
  | nil => simp [Text.stretch, stop]
  | cons first others ih =>
    by_cases more : sort first = true
    · simpa [Text.stretch, more] using ih
    · simp [Text.stretch, more]

/-- A stretch is no longer than its text. -/
theorem stretch_le (sort : Char → Bool) (text : Text) :
    Text.stretch sort text ≤ text.length :=
  (List.takeWhile_prefix sort).length_le

/-- Nor does a stretch of a least length, which is found or missed on the same characters. -/
theorem atLeast_append {least : Nat} (stop : sort c = false) :
    atLeast least sort (text ++ c :: rest) = atLeast least sort text := by
  simp [atLeast, stretch_append rest stop]

/-- Nor does a stretch behind a mark, if the character is not the mark itself: at the end of the
text it would begin the stretch. -/
theorem marked_append {mark : Char} (other : c ≠ mark) (stop : sort c = false) :
    marked mark sort (text ++ c :: rest) = marked mark sort text := by
  cases text with
  | nil => simp [marked, other]
  | cons first others => simp [marked, atLeast_append rest stop]

/-- One of the two later parts of a date ends at any character that could not go on with it. -/
theorem datePart_append (hyphen : c ≠ '-') (slash : c ≠ '/') (digit : isDigit c = false) :
    datePart (text ++ c :: rest) = datePart text := by
  cases text with
  | nil => simp [datePart, hyphen, slash]
  | cons first others =>
    by_cases dashed : first = '-'
    · subst dashed
      simp [datePart, atLeast_append rest digit]
    by_cases slashed : first = '/'
    · subst slashed
      simp [datePart, atLeast_append rest digit]
    · simp [datePart, dashed, slashed]

/-- What is dropped from within a text leaves what stands behind the text. -/
theorem drop_append_of_le {count : Nat} (inside : count ≤ text.length) :
    (text ++ c :: rest).drop count = text.drop count ++ c :: rest := by
  rw [List.drop_append_of_le_length inside]

/-- A stretch of a least length lies within its text. -/
theorem atLeast_le {least length : Nat} (found : atLeast least sort text = some length) :
    length ≤ text.length := by
  simp only [atLeast] at found
  split at found
  · have within := stretch_le sort text
    simp only [Option.some.injEq] at found
    omega
  · cases found

/-- A part of a date lies within its text. -/
theorem datePart_le {length : Nat} (found : datePart text = some length) :
    length ≤ text.length := by
  unfold datePart at found
  split at found
  · obtain ⟨inner, held, rfl⟩ := Option.map_eq_some_iff.mp found
    have within := atLeast_le held
    rw [List.length_cons]
    omega
  · obtain ⟨inner, held, rfl⟩ := Option.map_eq_some_iff.mp found
    have within := atLeast_le held
    rw [List.length_cons]
    omega
  · cases found

/-- A date is decided within the line: its digits and its two separators all stand before a
character that is none of them. -/
theorem dateLength_append (hyphen : c ≠ '-') (slash : c ≠ '/') (digit : isDigit c = false) :
    dateLength (text ++ c :: rest) = dateLength text := by
  unfold dateLength
  rw [atLeast_append rest digit]
  cases year : atLeast 4 isDigit text with
  | none => rfl
  | some yearLength =>
    have inside := atLeast_le year
    simp only [Option.bind_eq_bind, Option.bind_some]
    rw [drop_append_of_le rest inside, datePart_append rest hyphen slash digit]
    cases month : datePart (text.drop yearLength) with
    | none => rfl
    | some monthLength =>
      have further := datePart_le month
      rw [List.length_drop] at further
      simp only [Option.bind_some]
      rw [drop_append_of_le rest (by omega), datePart_append rest hyphen slash digit]

/-- The groups of three digits behind commas end where neither a comma nor a digit stands. The last
group may be cut short by the character in the place of any of its digits, and each of these places
has to be looked at. -/
theorem groups_append (comma : c ≠ ',') (digit : isDigit c = false) :
    groups (text ++ c :: rest) = groups text := by
  fun_induction groups text with
  | case1 first second third others digits ih => simp [groups, digits, ih]
  | case2 first second third others other => simp [groups, other]
  | case3 text short =>
    unfold groups
    split
    · next first second third others equation =>
      rw [if_neg]
      -- One of the three characters after the comma is the one that is no digit.
      rcases text with _ | ⟨mark, _ | ⟨one, _ | ⟨two, _ | ⟨three, text⟩⟩⟩⟩
      · exact absurd (List.cons.inj equation).1 comma
      · simp_all
      · simp_all
      · simp_all
      · simp only [List.cons_append, List.cons.injEq] at equation
        obtain ⟨rfl, _⟩ := equation
        exact (short one two three text rfl).elim
    · rfl

/-- The digits behind the point end where neither a point nor a digit stands. -/
theorem decimals_append (point : c ≠ '.') (digit : isDigit c = false) :
    decimals (text ++ c :: rest) = decimals text := by
  cases text with
  | nil => simp [decimals, point]
  | cons first others =>
    by_cases pointed : first = '.'
    · subst pointed
      simp [decimals, atLeast_append rest digit]
    · simp [decimals, pointed]

/-- The groups of a number lie within its text. -/
theorem groups_le (text : Text) : groups text ≤ text.length := by
  fun_induction groups text with
  | case1 first second third others digits ih =>
    simp only [List.length_cons]
    omega
  | case2 => exact Nat.zero_le _
  | case3 => exact Nat.zero_le _

/-- A number is decided within the line, since it is made of its first digits, the groups and the
digits behind the point. -/
theorem numberLength_append (comma : c ≠ ',') (point : c ≠ '.') (digit : isDigit c = false) :
    numberLength (text ++ c :: rest) = numberLength text := by
  have inside := stretch_le isDigit text
  have grouped := groups_le (text.drop (Text.stretch isDigit text))
  simp only [numberLength, stretch_append rest digit, drop_append_of_le rest inside,
    groups_append rest comma digit, drop_append_of_le rest grouped, decimals_append rest point digit]
  cases text.drop (Text.stretch isDigit text) with
  | nil => simp [point]
  | cons first others =>
    by_cases pointed : first = '.'
    · subst pointed
      simp [stretch_append rest digit]
    · simp [pointed]

/-- A stretch behind a mark lies within its text, the mark included. -/
theorem marked_le {mark : Char} {length : Nat} (found : marked mark sort text = some length) :
    length ≤ text.length := by
  unfold marked at found
  split at found
  · split at found
    · obtain ⟨inner, held, rfl⟩ := Option.map_eq_some_iff.mp found
      have within := atLeast_le held
      rw [List.length_cons]
      omega
    · cases found
  · cases found

/-- A tag, and perhaps one more behind spaces, are decided within the line: the character begins no
tag, goes on with none and is no space before one. -/
theorem tagsLength_append (other : c ≠ '#') (space : isSpace c = false)
    (stop : isTagChar c = false) : tagsLength (text ++ c :: rest) = tagsLength text := by
  unfold tagsLength
  rw [marked_append rest other stop]
  cases first : marked '#' isTagChar text with
  | none => rfl
  | some length =>
    have inside := marked_le first
    simp only [Option.bind_eq_bind, Option.bind_some]
    rw [drop_append_of_le rest inside, atLeast_append rest space]
    cases spaces : atLeast 1 isSpace (text.drop length) with
    | none => rfl
    | some width =>
      have further := atLeast_le spaces
      simp only [Option.bind_some]
      rw [drop_append_of_le rest further, marked_append rest other stop]

/-- Behind a character that is no colon the rest of an account goes on as long as characters of an
account come. -/
theorem accountRest_of_ne {first : Char} (plain : first ≠ ':') (others : Text) :
    accountRest (first :: others) =
      if isAccountChar first then 1 + accountRest others else 0 := by
  rw [accountRest]
  intro _ _ colon
  exact absurd colon plain

/-- The rest of an account ends at a character that is neither a colon nor part of a name. The start
of a part is asked for as well, because a colon is only taken in with a part behind it. -/
theorem accountRest_append (colon : c ≠ ':') (start : isPartStart c = false)
    (stop : isAccountChar c = false) : accountRest (text ++ c :: rest) = accountRest text := by
  fun_induction accountRest text with
  | case1 first others starts ih => simp [accountRest, starts, ih]
  | case2 first others starts => simp [accountRest, starts]
  | case3 first others _ continues ih =>
    have plain : first ≠ ':' := by
      rintro rfl
      exact absurd continues (by decide)
    rw [List.cons_append, accountRest_of_ne plain, if_pos continues, ih]
  | case4 first others short other =>
    by_cases colon : first = ':'
    · subst colon
      cases others with
      | nil => simp [accountRest, start]
      | cons next others => exact (short next others rfl rfl).elim
    · rw [List.cons_append, accountRest_of_ne colon, if_neg other]
  | case5 => simp [accountRest_of_ne colon, stop]

/-- The rest of an account lies within its text. -/
theorem accountRest_le (text : Text) : accountRest text ≤ text.length := by
  fun_induction accountRest text with
  | case1 first others starts ih =>
    simp only [List.length_cons]
    omega
  | case2 => exact Nat.zero_le _
  | case3 first others _ continues ih =>
    rw [List.length_cons]
    omega
  | case4 => exact Nat.zero_le _
  | case5 => exact Nat.zero_le _

/-- An account is decided within the line. -/
theorem accountLength_append (colon : c ≠ ':') (start : isPartStart c = false)
    (stop : isAccountChar c = false) (none : isAccountStart c = false) :
    accountLength (text ++ c :: rest) = accountLength text := by
  cases text with
  | nil => simp [accountLength, none]
  | cons first others =>
    have inside := accountRest_le others
    simp only [List.cons_append, accountLength, accountRest_append rest colon start stop,
      List.take_append_of_le_length inside]

/-- A currency is decided within the line. Its last character must be a capital or a digit, so the
longest such beginning of a stretch is asked for, and the stretch is the same. -/
theorem currencyLength_append (start : isCapital c = false) (stop : isCurrencyChar c = false) :
    currencyLength (text ++ c :: rest) = currencyLength text := by
  cases text with
  | nil => simp [currencyLength, start]
  | cons first others =>
    have same : (others ++ c :: rest).takeWhile isCurrencyChar =
        others.takeWhile isCurrencyChar := by
      induction others with
      | nil => simp [stop]
      | cons next others ih => simp [List.takeWhile_cons, ih]
    simp only [List.cons_append, currencyLength, same]

/-- A key of metadata is decided within the line. -/
theorem keyLength_append (start : isSmall c = false) (stop : isKeyChar c = false) :
    keyLength (text ++ c :: rest) = keyLength text := by
  cases text with
  | nil => simp [keyLength, start]
  | cons first others => simp [keyLength, stretch_append rest stop]

/-- A lexeme that goes to the end of its line, a comment or a section header, ends before the line
feed whatever comes behind it. -/
theorem toLineEnd_append {mark : Char} (other : mark ≠ '\n') :
    toLineEnd mark (text ++ '\n' :: rest) = toLineEnd mark text := by
  cases text with
  | nil => simp [toLineEnd, Ne.symm other]
  | cons first others => simp [toLineEnd, stretch_append]

/-- A fixed word is decided by its own characters, so that a character that it does not contain
hides what follows. -/
theorem literal_append {word : Text} (other : c ∉ word) :
    literal word (text ++ c :: rest) = literal word text := by
  have same : word.isPrefixOf (text ++ c :: rest) = word.isPrefixOf text := by
    induction word generalizing text with
    | nil => simp
    | cons first others ih =>
      rw [List.mem_cons, not_or] at other
      cases text with
      | nil => simp [List.isPrefixOf, Ne.symm other.1]
      | cons next text => simp [List.isPrefixOf, ih other.2]
  simp [literal, same]

/-- A lexeme of one character is decided by this character. -/
theorem oneOf_append (stop : sort c = false) :
    oneOf sort (text ++ c :: rest) = oneOf sort text := by
  cases text with
  | nil => simp [oneOf, stop]
  | cons first others => rfl

end Parts

end Lexeme

namespace Terminal

open Lexeme

/-- A character at which every lexeme of a sort ends and behind which the sort never looks. -/
def stopsAt (terminal : Terminal) (c : Char) : Bool :=
  match terminal with
  | quotedText => false
  | newline => false
  | emptyLine => false
  | comment => c == '\n'
  | sectionHeader => c == '\n'
  | tags => c == '\n'
  | blankSpace => c == '\n'
  | _ => c == '\n' || isSpace c

/-- What follows a character at which a sort stops has no part in a lexeme of that sort. One case
for each sort. What a sort stops at is a blank or a line feed for nearly all of them, but a comment,
a header and tags go on over blanks, and a quoted text over both. -/
theorem length?_append {terminal : Terminal} {c : Char} (stops : terminal.stopsAt c = true)
    (text rest : Text) : terminal.length? (text ++ c :: rest) = terminal.length? text := by
  have blank : c = '\n' ∨ c = ' ' ∨ c = '\t' := by
    cases terminal <;> simp_all [stopsAt, isSpace]
  cases terminal
  case quotedText => simp [stopsAt] at stops
  case newline => simp [stopsAt] at stops
  case emptyLine => simp [stopsAt] at stops
  case comment =>
    obtain rfl : c = '\n' := by simpa [stopsAt] using stops
    exact toLineEnd_append rest (by decide)
  case sectionHeader =>
    obtain rfl : c = '\n' := by simpa [stopsAt] using stops
    exact toLineEnd_append rest (by decide)
  case tags =>
    obtain rfl : c = '\n' := by simpa [stopsAt] using stops
    exact tagsLength_append rest (by decide) (by decide) (by decide)
  case blankSpace =>
    obtain rfl : c = '\n' := by simpa [stopsAt] using stops
    exact atLeast_append rest (by decide)
  case date =>
    rcases blank with rfl | rfl | rfl <;>
      exact dateLength_append rest (by decide) (by decide) (by decide)
  case number =>
    rcases blank with rfl | rfl | rfl <;>
      exact numberLength_append rest (by decide) (by decide) (by decide)
  case account =>
    rcases blank with rfl | rfl | rfl <;>
      exact accountLength_append rest (by decide) (by decide) (by decide) (by decide)
  case currency =>
    rcases blank with rfl | rfl | rfl <;> exact currencyLength_append rest (by decide) (by decide)
  case link | tag =>
    rcases blank with rfl | rfl | rfl <;> exact marked_append rest (by decide) (by decide)
  case metadataKey =>
    rcases blank with rfl | rfl | rfl <;> exact keyLength_append rest (by decide) (by decide)
  case boolean =>
    have notFalse : c ∉ ("FALSE" : Text) := by rcases blank with rfl | rfl | rfl <;> decide
    have notTrue : c ∉ ("TRUE" : Text) := by rcases blank with rfl | rfl | rfl <;> decide
    simp only [length?, literal_append rest notFalse, literal_append rest notTrue]
  case commodityWord | documentWord | balanceWord | includeWord | customWord | optionWord |
      pluginWord | closeWord | eventWord | priceWord | noteWord | openWord | padWord | txnWord |
      doubleOpenBrace | doubleCloseBrace | doubleAt =>
    rcases blank with rfl | rfl | rfl <;> exact literal_append rest (by decide)
  case flag | addSign | multiplySign | asterisk | atMark | colon | comma | hash | openBrace |
      openParen | closeBrace | closeParen | tilde | unarySign =>
    rcases blank with rfl | rfl | rfl <;> exact oneOf_append rest (by decide)
  case endOfText => rfl

/-- A quotation mark begins nothing but a quoted text. -/
theorem length?_quote {terminal : Terminal} (other : terminal ≠ quotedText) (rest : Text) :
    terminal.length? ('"' :: rest) = none := by
  cases terminal
  case quotedText => exact absurd rfl other
  all_goals rfl

/-- Only a quotation mark begins a quoted text. -/
theorem length?_unquoted {c : Char} (other : c ≠ '"') (rest : Text) :
    quotedText.length? (c :: rest) = none := by
  simp [length?, quotedLength, other]

/-- Only a line feed or a carriage return begins a line end. -/
theorem length?_inside {c : Char} (space : isSpace c = false) (feed : c ≠ '\n') (back : c ≠ '\r')
    (rest : Text) : newline.length? (c :: rest) = none ∧ emptyLine.length? (c :: rest) = none := by
  constructor
  · simp [length?, lineEnds, feed, back]
  · simp [length?, emptyLineLength, Text.stretch, space, feed, back]

/-- A character that ends a line begins nothing but a line end. -/
theorem length?_lineBreak {terminal : Terminal} {c : Char} (ends : c = '\n' ∨ c = '\r')
    (notLine : terminal ≠ newline) (notEmptyLine : terminal ≠ emptyLine) (rest : Text) :
    terminal.length? (c :: rest) = none := by
  rcases ends with rfl | rfl
  all_goals
    cases terminal
    case newline => exact absurd rfl notLine
    case emptyLine => exact absurd rfl notEmptyLine
    all_goals rfl

end Terminal

namespace Lexeme

/-- A closing mark that is found is part of the text, and what follows the text does not
matter. -/
theorem closingMark_append {odd : Bool} {text : Text} {length : Nat}
    (found : closingMark odd text = some length) (rest : Text) :
    closingMark odd (text ++ rest) = some length := by
  fun_induction closingMark odd text generalizing length with
  | case1 => cases found
  | case2 others ih =>
    obtain ⟨inner, held, rfl⟩ := Option.map_eq_some_iff.mp found
    simp [closingMark, ih held]
  | case3 odd others even => simpa [closingMark, even] using found
  | case4 odd others _ ih =>
    obtain ⟨inner, held, rfl⟩ := Option.map_eq_some_iff.mp found
    simp [closingMark, ih held]
  | case5 odd c others quote solidus ih =>
    obtain ⟨inner, held, rfl⟩ := Option.map_eq_some_iff.mp found
    simp [closingMark, quote, solidus, ih held]

/-- A quotation that closes takes at least its closing mark. -/
theorem closingMark_pos {odd : Bool} {text : Text} {length : Nat}
    (found : closingMark odd text = some length) : 0 < length := by
  unfold closingMark at found
  split at found
  · cases found
  · split at found
    · split at found
      · obtain ⟨inner, _, rfl⟩ := Option.map_eq_some_iff.mp found
        omega
      · cases found
        omega
    · split at found
      all_goals
        obtain ⟨inner, _, rfl⟩ := Option.map_eq_some_iff.mp found
        omega

/-- A closing mark that stands within a part of the text is found in that part. By induction along
the search, which has to find the mark before the part is over, because the length is bounded by
that of the part. -/
theorem closingMark_of_append {odd : Bool} {text rest : Text} {length : Nat}
    (found : closingMark odd (text ++ rest) = some length) (inside : length ≤ text.length) :
    closingMark odd text = some length := by
  fun_induction closingMark odd text generalizing length with
  | case1 odd =>
    have positive := closingMark_pos found
    rw [List.length_nil] at inside
    omega
  | case2 others ih =>
    simp only [List.cons_append, closingMark, if_true] at found
    obtain ⟨inner, held, rfl⟩ := Option.map_eq_some_iff.mp found
    rw [List.length_cons] at inside
    rw [ih held (by omega)]
    rfl
  | case3 odd others even => simpa [closingMark, even] using found
  | case4 odd others _ ih =>
    simp only [List.cons_append, closingMark, Char.reduceEq, if_false, if_true] at found
    obtain ⟨inner, held, rfl⟩ := Option.map_eq_some_iff.mp found
    rw [List.length_cons] at inside
    rw [ih held (by omega)]
    rfl
  | case5 odd c others quote solidus ih =>
    simp only [List.cons_append, closingMark, quote, solidus, if_false] at found
    obtain ⟨inner, held, rfl⟩ := Option.map_eq_some_iff.mp found
    rw [List.length_cons] at inside
    rw [ih held (by omega)]
    rfl

/-- A quotation that closes within a text is the same in every longer text. No line feed stops it,
and so it needs no character of another sort behind it. -/
theorem quotedLength_append {text : Text} {length : Nat} (found : quotedLength text = some length)
    (rest : Text) : quotedLength (text ++ rest) = some length := by
  unfold quotedLength at found
  split at found
  · next others =>
    obtain ⟨inner, held, rfl⟩ := Option.map_eq_some_iff.mp found
    simp [quotedLength, closingMark_append held]
  · cases found

/-- A quotation that closes before the end of the first part closes in that part alone. -/
theorem quotedLength_of_append {text rest : Text} {length : Nat} (nonempty : text ≠ [])
    (found : quotedLength (text ++ rest) = some length) (inside : length ≤ text.length) :
    quotedLength text = some length := by
  cases text with
  | nil => exact absurd rfl nonempty
  | cons c others =>
    by_cases quoted : c = '"'
    · subst quoted
      obtain ⟨inner, held, rfl⟩ := Option.map_eq_some_iff.mp found
      rw [List.length_cons] at inside
      simp [quotedLength, closingMark_of_append held (by omega)]
    · simp [quotedLength, quoted] at found

/-- Nothing of the line is left: the text is empty or begins with a line feed. -/
def LineOver (text : Text) : Prop := text = [] ∨ ∃ rest, text = '\n' :: rest

/-- A sort that stops at line feeds sees nothing behind the end of the line. -/
theorem length?_over {terminal : Terminal} (stops : terminal.stopsAt '\n' = true) (text : Text)
    {rest : Text} (ended : LineOver rest) :
    terminal.length? (text ++ rest) = terminal.length? text := by
  rcases ended with rfl | ⟨rest, rfl⟩
  · rw [List.append_nil]
  · exact Terminal.length?_append stops text rest

/-- What is found is a lexeme of a sort that was asked for. -/
theorem length?_of_first? {terminals : List Terminal} {text : Text} {terminal : Terminal}
    {length : Nat} (found : first? terminals text = some (terminal, length)) :
    terminal ∈ terminals ∧ terminal.length? text = some length := by
  obtain ⟨candidate, member, held⟩ := List.exists_of_findSome?_eq_some found
  split at held
  · next shorter equation =>
    simp only [Option.some.injEq, Prod.mk.injEq] at held
    obtain ⟨rfl, rfl⟩ := held
    exact ⟨member, equation⟩
  · cases held

/-- What is found when only one of the sorts that are asked for has a lexeme. -/
theorem first?_of_alone {terminals : List Terminal} {text : Text} {terminal : Terminal}
    {length : Nat} (listed : terminal ∈ terminals)
    (held : terminal.length? text = some (length + 1))
    (alone : ∀ other ∈ terminals, other ≠ terminal → other.length? text = none) :
    first? terminals text = some (terminal, length + 1) := by
  induction terminals with
  | nil => cases listed
  | cons first others ih =>
    by_cases same : first = terminal
    · subst same
      simp [first?, held]
    · have further := ih (List.mem_of_ne_of_mem (Ne.symm same) listed)
        fun other member => alone other (List.mem_cons_of_mem _ member)
      have passed := alone first List.mem_cons_self same
      simp only [first?] at further
      simp [first?, passed, further]

/-- Texts in which all sorts that are asked for have the same length hold the same lexeme. -/
theorem first?_congr {text other : Text} {terminals : List Terminal}
    (same : ∀ terminal ∈ terminals, terminal.length? text = terminal.length? other) :
    first? terminals text = first? terminals other := by
  induction terminals with
  | nil => rfl
  | cons terminal terminals ih =>
    obtain ⟨first, others⟩ := List.forall_mem_cons.mp same
    have further := ih others
    simp only [first?] at further
    simp only [first?, List.findSome?_cons, first, further]

/-- What is found in a text is found as well when what follows its line is exchanged, as long
as it lies within the part that stays. -/
theorem first?_exchange {terminals : List Terminal} {c : Char} {text rest other : Text}
    {terminal : Terminal} {length : Nat} (space : isSpace c = false) (feed : c ≠ '\n')
    (back : c ≠ '\r') (ended : LineOver rest) (alsoEnded : LineOver other)
    (found : first? terminals (c :: text ++ rest) = some (terminal, length))
    (inside : length ≤ text.length + 1) :
    first? terminals (c :: text ++ other) = some (terminal, length) := by
  refine (first?_congr fun each _ => Eq.symm ?_).trans found
  by_cases quoted : c = '"'
  · subst quoted
    by_cases text : each = .quotedText
    · subst text
      obtain ⟨_, held⟩ := length?_of_first? found
      have sort : terminal = .quotedText := by
        by_cases sort : terminal = .quotedText
        · exact sort
        · rw [List.cons_append, Terminal.length?_quote sort] at held
          cases held
      subst sort
      have found : quotedLength ('"' :: text ++ rest) = some length := held
      have within := quotedLength_of_append (List.cons_ne_nil _ _) found inside
      exact held.trans (quotedLength_append within other).symm
    · rw [List.cons_append, List.cons_append, Terminal.length?_quote text,
        Terminal.length?_quote text]
  · obtain ⟨noLine, noEmptyLine⟩ := Terminal.length?_inside space feed back (text ++ rest)
    obtain ⟨noOther, noEmptyOther⟩ := Terminal.length?_inside space feed back (text ++ other)
    cases each
    case quotedText =>
      rw [List.cons_append, List.cons_append, Terminal.length?_unquoted quoted,
        Terminal.length?_unquoted quoted]
    case newline => rw [List.cons_append, List.cons_append, noLine, noOther]
    case emptyLine => rw [List.cons_append, List.cons_append, noEmptyLine, noEmptyOther]
    all_goals exact (length?_over rfl _ ended).trans (length?_over rfl _ alsoEnded).symm

/-! ## Lexemes lie within their texts -/

section Within

variable {text : Text} {length : Nat}

/-- A date lies within its text. -/
theorem dateLength_le (found : dateLength text = some length) : length ≤ text.length := by
  simp only [dateLength, Option.bind_eq_bind, Option.bind_eq_some_iff, Option.pure_def,
    Option.some.injEq] at found
  obtain ⟨year, _, month, _, day, last, rfl⟩ := found
  have inside := datePart_le last
  have positive : 0 < day := by
    unfold datePart at last
    split at last
    · obtain ⟨_, _, rfl⟩ := Option.map_eq_some_iff.mp last
      omega
    · obtain ⟨_, _, rfl⟩ := Option.map_eq_some_iff.mp last
      omega
    · cases last
  rw [List.length_drop] at inside
  omega

/-- The digits behind the point lie within their text, the point included. -/
theorem decimals_le (found : decimals text = some length) : length ≤ text.length := by
  unfold decimals at found
  split at found
  · obtain ⟨inner, held, rfl⟩ := Option.map_eq_some_iff.mp found
    have within := atLeast_le held
    rw [List.length_cons]
    omega
  · cases found

/-- A number lies within its text. The three stretches of a number, its digits, its groups and its
decimals, follow one another, and each begins where the one before it has ended. -/
theorem numberLength_le (found : numberLength text = some length) : length ≤ text.length := by
  have inside := stretch_le isDigit text
  have grouped := groups_le (text.drop (Text.stretch isDigit text))
  rw [List.length_drop] at grouped
  simp only [numberLength] at found
  split at found
  · exact decimals_le found
  · split at found
    · simp only [Option.some.injEq] at found
      cases more : decimals ((text.drop (Text.stretch isDigit text)).drop
          (groups (text.drop (Text.stretch isDigit text)))) with
      | none =>
        rw [more, Option.getD_none] at found
        omega
      | some width =>
        have further := decimals_le more
        rw [more, Option.getD_some] at found
        simp only [List.length_drop] at further
        omega
    · split at found
      · next rest equation =>
        have further := stretch_le isDigit rest
        have whole := congrArg List.length equation
        rw [List.length_drop, List.length_cons] at whole
        simp only [Option.some.injEq] at found
        omega
      · simp only [Option.some.injEq] at found
        omega

/-- A tag, and the one behind it if there is one, lie within their text. -/
theorem tagsLength_le (found : tagsLength text = some length) : length ≤ text.length := by
  simp only [tagsLength, Option.bind_eq_bind, Option.bind_eq_some_iff, Option.pure_def,
    Option.some.injEq] at found
  obtain ⟨first, tagged, rfl⟩ := found
  have inside := marked_le tagged
  cases second : (atLeast 1 isSpace (text.drop first)).bind fun space =>
      (marked '#' isTagChar ((text.drop first).drop space)).bind fun tag => some (space + tag) with
  | none => simpa [second] using inside
  | some width =>
    obtain ⟨space, blank, more⟩ := Option.bind_eq_some_iff.mp second
    obtain ⟨tag, marked, same⟩ := Option.bind_eq_some_iff.mp more
    have further := marked_le marked
    have spaces := atLeast_le blank
    simp only [List.length_drop, Option.some.injEq] at further spaces same
    rw [Option.getD_some]
    omega

/-- An account lies within its text. -/
theorem accountLength_le (found : accountLength text = some length) : length ≤ text.length := by
  unfold accountLength at found
  split at found
  · next c rest =>
    have within := accountRest_le rest
    simp only [] at found
    split at found
    · simp only [Option.some.injEq] at found
      rw [List.length_cons]
      omega
    · cases found
  · cases found

/-- A currency lies within its text. -/
theorem currencyLength_le (found : currencyLength text = some length) : length ≤ text.length := by
  unfold currencyLength at found
  split at found
  · next c rest =>
    split at found
    · have within := (List.dropWhile_suffix (l := (rest.takeWhile isCurrencyChar).reverse)
        fun c => !isCurrencyEnd c).length_le
      have further := (List.takeWhile_prefix isCurrencyChar (l := rest)).length_le
      rw [List.length_reverse] at within
      simp only [Option.some.injEq] at found
      rw [List.length_cons]
      omega
    · cases found
  · cases found

/-- A key of metadata lies within its text. -/
theorem keyLength_le (found : keyLength text = some length) : length ≤ text.length := by
  unfold keyLength at found
  split at found
  · next c rest =>
    split at found
    · have within := stretch_le isKeyChar rest
      simp only [Option.some.injEq] at found
      rw [List.length_cons]
      omega
    · cases found
  · cases found

/-- The closing mark of a quotation lies within its text. By induction along the search: every step
takes one character and adds one to the length. -/
theorem closingMark_le {odd : Bool} (found : closingMark odd text = some length) :
    length ≤ text.length := by
  fun_induction closingMark odd text generalizing length with
  | case1 => cases found
  | case2 others ih =>
    obtain ⟨inner, held, rfl⟩ := Option.map_eq_some_iff.mp found
    have within := ih held
    rw [List.length_cons]
    omega
  | case3 odd others even =>
    cases found
    rw [List.length_cons]
    omega
  | case4 odd others _ ih =>
    obtain ⟨inner, held, rfl⟩ := Option.map_eq_some_iff.mp found
    have within := ih held
    rw [List.length_cons]
    omega
  | case5 odd c others quote solidus ih =>
    obtain ⟨inner, held, rfl⟩ := Option.map_eq_some_iff.mp found
    have within := ih held
    rw [List.length_cons]
    omega

/-- A quotation lies within its text, both marks included. -/
theorem quotedLength_le (found : quotedLength text = some length) : length ≤ text.length := by
  unfold quotedLength at found
  split at found
  · obtain ⟨inner, held, rfl⟩ := Option.map_eq_some_iff.mp found
    have within := closingMark_le held
    rw [List.length_cons]
    omega
  · cases found

/-- Line ends lie within their text. -/
theorem lineEnds_le (text : Text) : lineEnds text ≤ text.length := by
  fun_induction lineEnds text with
  | case1 rest ih =>
    rw [List.length_cons]
    omega
  | case2 rest ih =>
    simp only [List.length_cons]
    omega
  | case3 => exact Nat.zero_le _

/-- An empty line lies within its text. -/
theorem emptyLineLength_le (found : emptyLineLength text = some length) :
    length ≤ text.length := by
  simp only [emptyLineLength] at found
  split at found
  · next c rest equation =>
    split at found
    · have whole := congrArg List.length equation
      rw [List.length_drop, List.length_cons] at whole
      simp only [Option.some.injEq] at found
      omega
    · cases found
  · cases found

/-- What goes to the end of its line lies within its text. -/
theorem toLineEnd_le {mark : Char} (found : toLineEnd mark text = some length) :
    length ≤ text.length := by
  unfold toLineEnd at found
  split at found
  · next c rest =>
    split at found
    · have within := stretch_le (· != '\n') rest
      simp only [Option.some.injEq] at found
      rw [List.length_cons]
      omega
    · cases found
  · cases found

/-- A fixed word lies within its text. -/
theorem literal_le {word : Text} (found : literal word text = some length) :
    length ≤ text.length := by
  unfold literal at found
  split at found
  · next begins =>
    cases found
    exact (List.isPrefixOf_iff_prefix.mp begins).length_le
  · cases found

/-- A lexeme of one character lies within its text. -/
theorem oneOf_le {sort : Char → Bool} (found : oneOf sort text = some length) :
    length ≤ text.length := by
  unfold oneOf at found
  split at found
  · split at found
    · cases found
      exact Nat.succ_le_of_lt (Nat.zero_lt_succ _)
    · cases found
  · cases found

/-- A lexeme is no longer than its text. With one case for each sort, this is where the bounds on
the stretches of all the sorts come together; no sort looks beyond the end. -/
theorem length?_le {terminal : Terminal} (found : terminal.length? text = some length) :
    length ≤ text.length := by
  cases terminal
  case date => exact dateLength_le found
  case number => exact numberLength_le found
  case tags => exact tagsLength_le found
  case account => exact accountLength_le found
  case currency => exact currencyLength_le found
  case link | tag => exact marked_le found
  case metadataKey => exact keyLength_le found
  case quotedText => exact quotedLength_le found
  case blankSpace => exact atLeast_le found
  case newline =>
    simp only [Terminal.length?] at found
    split at found
    · cases found
    · cases found
      exact lineEnds_le text
  case emptyLine => exact emptyLineLength_le found
  case sectionHeader | comment => exact toLineEnd_le found
  case boolean =>
    rcases Option.or_eq_some_iff.mp found with negative | ⟨_, positive⟩
    · exact literal_le negative
    · exact literal_le positive
  case commodityWord | documentWord | balanceWord | includeWord | customWord | optionWord |
      pluginWord | closeWord | eventWord | priceWord | noteWord | openWord | padWord | txnWord |
      doubleOpenBrace | doubleCloseBrace | doubleAt =>
    exact literal_le found
  case flag | addSign | multiplySign | asterisk | atMark | colon | comma | hash | openBrace |
      openParen | closeBrace | closeParen | tilde | unarySign =>
    exact oneOf_le found
  case endOfText => cases found

end Within

/-- A lexeme has none of the characters that it ends before. -/
theorem not_mem_of_stopsAt {terminal : Terminal} {c : Char} {text rest : Text}
    (stops : terminal.stopsAt c = true)
    (found : terminal.length? (text ++ rest) = some text.length) : c ∉ text := by
  intro member
  obtain ⟨front, behind, rfl⟩ := List.append_of_mem member
  rw [List.append_assoc, List.cons_append, Terminal.length?_append stops] at found
  have short := length?_le found
  simp only [List.length_append, List.length_cons] at short
  omega

end Lexeme

end Daybook
