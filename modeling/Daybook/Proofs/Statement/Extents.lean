import Mathlib.Tactic.Tauto
import Daybook.Proofs.Statement.Reading

/-!
# Where a line stands

A statement keeps some of the tokens of its line, and its end is the end of the last one. What
is said here is that the kept tokens stand in the text one after the other, and that between
the end of a statement and the end of its line there is no line feed. The first is what makes
the spans of directives right. The second is what makes a cut at the end of a statement remove
whole lines: a line feed can only stand within a quoted text, and a quoted text that is part
of a statement is always kept.

What one token can do to the extent of a statement is said once, by `Extent.Grows`.
-/
namespace Daybook

open Lexeme

/-- What a statement keeps: the token that begins its line if it is kept, all kept tokens, and
the end of the last one. -/
structure Extent where
  lead : Option Token
  tokens : List Token
  stop : Nat

/-- The extent of a statement, if it keeps anything. -/
def Statement.extent? : Statement → Option Extent
  | .transaction heading => some ⟨some heading.date, heading.date :: (heading.flag.toList ++
      heading.payee.toList ++ heading.narration.toList ++ heading.marks), heading.stop⟩
  | .opening date account currencies stop =>
    some ⟨some date, date :: account :: currencies, stop⟩
  | .closing date account => some ⟨some date, [date, account], account.stop⟩
  | .posting line =>
    some ⟨some line.first, line.first :: line.account :: line.currency.toList, line.stop⟩
  | .metadata key stop => some ⟨some key, [key], stop⟩
  | .inclusion path => some ⟨none, [path], path.stop⟩
  | _ => none

/-- The extent of a number so far. -/
def Purpose.extent? : Purpose → Option Extent
  | .posting line => (Statement.posting line).extent?
  | .totalCost line => (Statement.posting line).extent?
  | .firstCost line => (Statement.posting line).extent?
  | .restCost line => (Statement.posting line).extent?
  | .nextCost line => (Statement.posting line).extent?
  | .price line => (Statement.posting line).extent?
  | .metadata key stop => (Statement.metadata key stop).extent?
  | _ => none

/-- The extent of a directive of which only the first token is known. -/
def Token.extent (token : Token) : Extent := ⟨some token, [token], token.stop⟩

/-- The end of the last currency of an opening, or of its account when there is none. -/
def lastStop (account : Token) (currencies : List Token) : Nat :=
  ((currencies.getLast?).getD account).stop

namespace Place

/-- The extent of the statement that is being read. -/
def extent? : Place → Option Extent
  | commented statement _ => statement.extent?
  | ended statement => statement.extent?
  | dated date => some date.extent
  | texts heading => (Statement.transaction heading).extent?
  | marks heading => (Statement.transaction heading).extent?
  | account (.opening date) => some date.extent
  | account (.closing date) => some date.extent
  | account (.flagged flag) => some flag.extent
  | currency (.opening date owner currencies) =>
    (Statement.opening date owner currencies (lastStop owner currencies)).extent?
  | firstCurrency date owner => (Statement.opening date owner [] owner.stop).extent?
  | nextCurrency date owner currencies stop =>
    (Statement.opening date owner currencies stop).extent?
  | metadataColon key => some key.extent
  | metadataValue key => some key.extent
  | posted line => (Statement.posting line).extent?
  | operand purpose _ => purpose.extent?
  | operator purpose _ => purpose.extent?
  | afterAmount purpose => purpose.extent?
  | firstCost line => (Statement.posting line).extent?
  | nextCost line => (Statement.posting line).extent?
  | costComma line => (Statement.posting line).extent?
  | price line => (Statement.posting line).extent?
  | _ => none

/-- A line has begun and no comment has been read yet, and among the currencies of an opening
the last one is where the statement ends. -/
def Formed : Place → Prop
  | fileStart => False
  | lineStart => False
  | commented _ _ => False
  | nextCurrency _ owner currencies stop => stop = lastStop owner currencies
  | _ => True

end Place

/-- What one token can do to the extent of the statement that is being read: nothing more is
kept of it, something is kept for the first time, the token is kept as well, or it is passed
over. A quoted text is never passed over. -/
inductive Extent.Grows (token : Token) : Option Extent → Option Extent → Prop where
  | dropped (old : Option Extent) : Grows token old none
  | begun : Grows token none (some ⟨none, [token], token.stop⟩)
  | kept (lead : Option Token) (tokens more : List Token) (stop : Nat)
      (known : ∀ one ∈ more, one = token ∨ one ∈ tokens) :
      Grows token (some ⟨lead, tokens, stop⟩) (some ⟨lead, more, token.stop⟩)
  | passed (old : Option Extent) (unquoted : token.terminal ≠ .quotedText) :
      Grows token old old

namespace Place

open Extent

variable {token : Token} {next : Place}

/-- A token that belongs to a number moves the end of the statement for which the number is read.
Numbers that no directive keeps have no extent to begin with. -/
theorem upTo_grows (purpose : Purpose) :
    Grows token purpose.extent? (purpose.upTo token).extent? := by
  cases purpose with
  | balance => exact .dropped _
  | tolerance => exact .dropped _
  | quotation => exact .dropped _
  | argument => exact .dropped _
  | _ => exact .kept _ _ _ _ fun one member => Or.inr member

/-- A sign, a parenthesis or the digits of an operand keep to this: the sign and the digits move the
end, the parenthesis is passed over until what it encloses ends. -/
theorem intoNumber_grows {purpose : Purpose} {depth : Nat}
    (leads : intoNumber purpose depth token = some next) :
    Grows token purpose.extent? next.extent? ∧ next.Formed := by
  unfold intoNumber at leads
  split at leads
  · cases leads
    exact ⟨upTo_grows purpose, trivial⟩
  · next sort =>
    cases leads
    exact ⟨.passed _ (by simp [sort]), trivial⟩
  · cases leads
    exact ⟨upTo_grows purpose, trivial⟩
  · cases leads

/-- The token behind a number is its currency or another word that it is read up to. A posting keeps
its currency as a token of its own, which is why more is kept here than the end. -/
theorem afterNumber_grows {purpose : Purpose} (leads : afterNumber purpose token = some next) :
    Grows token purpose.extent? next.extent? ∧ next.Formed := by
  cases purpose with
  | posting line =>
    cases leads
    refine ⟨.kept _ _ _ _ fun one member => ?_, trivial⟩
    simp only [Option.toList_some, PostingLine.upTo, List.mem_cons, List.not_mem_nil,
      or_false] at member ⊢
    tauto
  | tolerance =>
    cases leads
    exact ⟨.dropped _, trivial⟩
  | argument =>
    cases leads
    exact ⟨.dropped _, trivial⟩
  | _ =>
    cases leads
    exact ⟨upTo_grows _, trivial⟩

/-- Nothing is kept of an argument, whatever sort it is. -/
theorem intoArgument_grows (leads : intoArgument token = some next) :
    Grows token none next.extent? ∧ next.Formed := by
  unfold intoArgument at leads
  split at leads
  case h_6 => exact intoNumber_grows leads
  all_goals
    cases leads
    exact ⟨.dropped _, trivial⟩

/-- Behind an operand stand an operation, the end of a parenthesis, or whatever may follow the
number. -/
theorem afterOperand_grows {purpose : Purpose} {depth : Nat}
    (leads : afterOperand purpose depth token = some next) :
    Grows token purpose.extent? next.extent? ∧ next.Formed := by
  unfold afterOperand at leads
  split at leads
  · cases leads
    exact ⟨upTo_grows purpose, trivial⟩
  · cases leads
    exact ⟨upTo_grows purpose, trivial⟩
  · next sort =>
    cases leads
    exact ⟨.passed _ (by simp [sort]), trivial⟩
  · exact afterNumber_grows leads
  · next sort =>
    split at leads
    · cases leads
      exact ⟨.passed _ (by simp [sort]), trivial⟩
    · cases leads
  · split at leads
    · cases leads
      exact ⟨.dropped _, trivial⟩
    · cases leads
  · split at leads
    · next argument =>
      subst argument
      exact intoArgument_grows leads
    · cases leads
  · cases leads

/-- Within the braces of a cost a date, a text or an asterisk moves the end of the posting, and a
number does so as numbers do. `same` says that the number is read for this posting. -/
theorem intoCost_grows {line : PostingLine} {purpose : Purpose}
    (same : purpose.extent? = (Statement.posting line).extent?)
    (leads : intoCost line purpose token = some next) :
    Grows token (Statement.posting line).extent? next.extent? ∧ next.Formed := by
  unfold intoCost at leads
  split at leads
  · cases leads
    exact ⟨.kept _ _ _ _ fun one member => Or.inr member, trivial⟩
  · cases leads
    exact ⟨.kept _ _ _ _ fun one member => Or.inr member, trivial⟩
  · cases leads
    exact ⟨.kept _ _ _ _ fun one member => Or.inr member, trivial⟩
  · rw [← same]
    exact intoNumber_grows leads

/-- The comma between two parts of a cost and the brace that closes it are passed over. -/
theorem afterCostPart_grows {line : PostingLine}
    (leads : afterCostPart line token = some next) :
    Grows token (Statement.posting line).extent? next.extent? ∧ next.Formed := by
  unfold afterCostPart at leads
  split at leads
  · next sort =>
    cases leads
    exact ⟨.passed _ (by simp [sort]), trivial⟩
  · next sort =>
    cases leads
    exact ⟨.passed _ (by simp [sort]), trivial⟩
  · cases leads

/-- The mark in front of a price is passed over: a price that it promises has to follow. -/
theorem intoPrice_grows {line : PostingLine} (leads : intoPrice line token = some next) :
    Grows token (Statement.posting line).extent? next.extent? ∧ next.Formed := by
  unfold intoPrice at leads
  split at leads
  · next sort =>
    cases leads
    exact ⟨.passed _ (by simp [sort]), trivial⟩
  · next sort =>
    cases leads
    exact ⟨.passed _ (by simp [sort]), trivial⟩
  · cases leads

/-- Behind an amount stands the brace of a cost, the mark of a price, or another part of the cost
that the amount belongs to. -/
theorem beyondAmount_grows {purpose : Purpose} (leads : beyondAmount purpose token = some next) :
    Grows token purpose.extent? next.extent? ∧ next.Formed := by
  cases purpose with
  | posting line =>
    simp only [beyondAmount] at leads
    split at leads
    · next sort =>
      cases leads
      exact ⟨.passed _ (by simp [sort]), trivial⟩
    · next sort =>
      cases leads
      exact ⟨.passed _ (by simp [sort]), trivial⟩
    · exact intoPrice_grows leads
  | totalCost line =>
    simp only [beyondAmount] at leads
    split at leads
    · next sort =>
      cases leads
      exact ⟨.passed _ (by simp [sort]), trivial⟩
    · cases leads
  | firstCost line => exact afterCostPart_grows leads
  | nextCost line => exact afterCostPart_grows leads
  | restCost line =>
    simp only [beyondAmount] at leads
    split at leads
    · next sort =>
      cases leads
      exact ⟨.passed _ (by simp [sort]), trivial⟩
    · cases leads
  | _ => cases leads

/-- Tags and links are kept behind the texts of a heading. -/
theorem intoMarks_grows {heading : Heading} (leads : intoMarks heading token = some next) :
    Grows token (Statement.transaction heading).extent? next.extent? ∧ next.Formed := by
  unfold intoMarks at leads
  split at leads
  · cases leads
    refine ⟨.kept _ _ _ _ fun one member => ?_, trivial⟩
    simp only [List.mem_cons, List.mem_append, List.not_mem_nil, or_false] at member ⊢
    tauto
  · cases leads

/-- The first text of a heading is its narration until a second one comes, which takes its place and
makes it the payee. The kept tokens only change their order then. -/
theorem intoTexts_grows {heading : Heading} (leads : intoTexts heading token = some next) :
    Grows token (Statement.transaction heading).extent? next.extent? ∧ next.Formed := by
  unfold intoTexts at leads
  split at leads
  · split at leads
    · cases leads
      refine ⟨.kept _ _ _ _ fun one member => ?_, trivial⟩
      simp only [Option.toList_some, List.mem_cons, List.mem_append, List.not_mem_nil,
        or_false] at member ⊢
      tauto
    · next payee narrated =>
      cases leads
      refine ⟨.kept _ _ _ _ fun one member => ?_, trivial⟩
      simp only [narrated, Option.toList_some, List.mem_cons, List.mem_append, List.not_mem_nil,
        or_false] at member ⊢
      tauto
  · exact intoMarks_grows leads

/-- Behind a date stands what the line is about: a keyword, a flag or a text. Only the keywords of
directives that are read over drop the date again. -/
theorem intoDated_grows {date : Token} (leads : intoDated date token = some next) :
    Grows token (some date.extent) next.extent? ∧ next.Formed := by
  have flagged : Grows token (some date.extent)
      (Place.texts { date, flag := some token, stop := token.stop }).extent? := by
    refine .kept _ _ _ _ fun one member => ?_
    simp only [Option.toList_some, Option.toList_none, List.mem_cons, List.mem_append,
      List.not_mem_nil, or_false] at member ⊢
    tauto
  unfold intoDated at leads
  split at leads
  case h_1 sort | h_2 sort =>
    cases leads
    exact ⟨.passed _ (by simp [sort]), trivial⟩
  case h_11 | h_12 =>
    cases leads
    exact ⟨flagged, trivial⟩
  case h_13 => exact intoTexts_grows leads
  all_goals
    cases leads
    exact ⟨.dropped _, trivial⟩

/-- An account is kept by every statement that has one, and no other statement asks for one. -/
theorem afterAccount_grows (use : AccountUse) :
    Grows token (account use).extent? (afterAccount use token).extent? ∧
      (afterAccount use token).Formed := by
  cases use with
  | opening date =>
    refine ⟨.kept _ _ _ _ fun one member => ?_, trivial⟩
    simp only [List.mem_cons, List.not_mem_nil, or_false] at member ⊢
    tauto
  | closing date =>
    refine ⟨.kept _ _ _ _ fun one member => ?_, trivial⟩
    simp only [List.mem_cons, List.not_mem_nil, or_false] at member ⊢
    tauto
  | flagged flag =>
    refine ⟨.kept _ _ _ _ fun one member => ?_, trivial⟩
    simp only [Option.toList_none, List.mem_cons, List.not_mem_nil, or_false] at member ⊢
    tauto
  | _ => exact ⟨.dropped _, trivial⟩

/-- Of the texts that are read outside of a heading only the path of an inclusion is kept. -/
theorem afterText_grows (use : TextUse) :
    Grows token none (afterText use token).extent? ∧ (afterText use token).Formed := by
  cases use with
  | inclusion => exact ⟨.begun, trivial⟩
  | _ => exact ⟨.dropped _, trivial⟩

/-- A currency is kept in the opening of an account, at the end of the others, so that it is where
the statement ends. -/
theorem afterCurrency_grows (use : CurrencyUse) :
    Grows token (currency use).extent? (afterCurrency use token).extent? ∧
      (afterCurrency use token).Formed := by
  cases use with
  | opening date owner currencies =>
    constructor
    · refine .kept _ _ _ _ fun one member => ?_
      simp only [List.mem_cons, List.mem_append, List.not_mem_nil, or_false] at member ⊢
      tauto
    · simp [afterCurrency, Formed, lastStop]
  | _ => exact ⟨.dropped _, trivial⟩

/-- The value of metadata moves its end; the key is the only token that is kept as such. -/
theorem intoMetadata_grows {key : Token} (leads : intoMetadata key token = some next) :
    Grows token (some key.extent) next.extent? ∧ next.Formed := by
  have value : Grows token (some key.extent) (ended (.metadata key token.stop)).extent? :=
    .kept _ _ _ _ fun one member => Or.inr member
  unfold intoMetadata at leads
  split at leads
  case h_6 => exact intoNumber_grows leads
  all_goals
    cases leads
    exact ⟨value, trivial⟩

/-- A token after the first one of a line lets the extent of its statement grow. One case for each
sort of place, each by the lemma on what leads on from there. -/
theorem continued_grows {place : Place} (formed : place.Formed)
    (continues : Continues token place next) :
    Grows token place.extent? next.extent? ∧ next.Formed := by
  cases continues with
  | fileStart => exact formed.elim
  | lineStart => exact formed.elim
  | dated leads => exact intoDated_grows leads
  | texts leads => exact intoTexts_grows leads
  | marks leads => exact intoMarks_grows leads
  | account use => exact afterAccount_grows use
  | text use => exact afterText_grows use
  | currency use => exact afterCurrency_grows use
  | firstCurrency date owner =>
    refine ⟨.kept _ _ _ _ fun one member => ?_, rfl⟩
    simp only [List.mem_cons, List.not_mem_nil, or_false] at member ⊢
    tauto
  | booking => exact ⟨.kept _ _ _ _ fun one member => Or.inr member, trivial⟩
  | comma date owner currencies stop sort =>
    obtain rfl : stop = lastStop owner currencies := formed
    exact ⟨.passed _ (by simp [sort]), trivial⟩
  | bookingOf => exact ⟨.kept _ _ _ _ fun one member => Or.inr member, trivial⟩
  | pluginText => exact ⟨.dropped _, trivial⟩
  | metadataColon key sort => exact ⟨.passed _ (by simp [sort]), trivial⟩
  | metadataValue leads => exact intoMetadata_grows leads
  | firstArgument leads => exact intoArgument_grows leads
  | nextArgument leads => exact intoArgument_grows leads
  | posted leads => exact intoNumber_grows leads
  | operand leads => exact intoNumber_grows leads
  | operator leads => exact afterOperand_grows leads
  | afterAmount leads => exact beyondAmount_grows leads
  | costEnd line sort => exact ⟨.passed _ (by simp [sort]), trivial⟩
  | firstCost _ leads => exact intoCost_grows rfl leads
  | nextCost leads => exact intoCost_grows rfl leads
  | costComma leads => exact afterCostPart_grows leads
  | price leads => exact intoPrice_grows leads

/-- What is complete at a place has the extent that has been read. -/
theorem extent_statement {place : Place} {statement : Statement}
    (complete : place.statement? = some statement) : statement.extent? = place.extent? := by
  cases place with
  | operator purpose depth =>
    cases depth with
    | zero => cases purpose <;> cases complete <;> rfl
    | succ depth => cases purpose <;> cases complete
  | afterAmount purpose => cases purpose <;> cases complete <;> rfl
  | _ => cases complete <;> rfl

end Place

namespace Lexeme

/-- A token that is no quoted text and ends no line has no line feed. -/
theorem Begins.quiet {expected : Expected} {position : Nat} {text rest : Text} {token : Token}
    (begins : Begins expected position text token rest)
    (within : Statement.endsLine token = false) (unquoted : token.terminal ≠ .quotedText) :
    '\n' ∉ token.text := by
  obtain ⟨terminal, found, sort⟩ := begins.sort
  obtain ⟨_, held⟩ := length?_of_first? found
  have stops : terminal.stopsAt '\n' = true := by
    have inside : ¬ (terminal = .newline ∨ terminal = .emptyLine) := by
      intro ends
      rw [(endsLine_iff sort).mpr ends] at within
      cases within
    have plain : terminal ≠ .quotedText := by
      rintro rfl
      exact unquoted sort
    cases terminal <;> simp_all [Terminal.stopsAt]
  rw [begins.whole] at held
  exact not_mem_of_stopsAt stops held

end Lexeme

/-- The token is what stands in the text from its start to its end. -/
def Token.Stands (text : Text) (token : Token) : Prop :=
  ∃ expected, Begins expected token.start (text.drop token.start) token (text.drop token.stop)

/-- The tokens of an extent stand within a part of a text, and nothing but blanks and further
marks stands behind the last of them. -/
structure Extent.Standing (text : Text) (start position : Nat) (extent : Extent) : Prop where
  lead : ∀ token ∈ extent.lead, token.start = start
  tokens : ∀ token ∈ extent.tokens,
    token.Stands text ∧ start ≤ token.start ∧ token.stop ≤ position
  held : ∀ token ∈ extent.tokens, token.stop ≤ extent.stop
  later : start ≤ extent.stop
  inside : extent.stop ≤ position
  quiet : '\n' ∉ Text.slice text extent.stop position

/-- A line stands within a part of a text, with its comment behind its statement. -/
structure Line.Standing (text : Text) (start stop : Nat) (line : Line) : Prop where
  extent : ∀ extent ∈ line.statement.extent?, extent.Standing text start stop
  comment : ∀ comment ∈ line.comment, comment.Stands text ∧ comment.stop ≤ stop ∧
    ∀ extent ∈ line.statement.extent?, extent.stop ≤ comment.start

/-- What has been read of a line stands within a part of a text. -/
structure Place.Standing (text : Text) (start position : Nat) (place : Place) : Prop where
  formed : place.Formed ∨ ∃ statement comment, place = .commented statement comment
  extent : ∀ extent ∈ place.extent?, extent.Standing text start position
  comment : ∀ statement comment, place = .commented statement comment →
    comment.Stands text ∧ comment.stop ≤ position ∧
      ∀ extent ∈ statement.extent?, extent.stop ≤ comment.start

/-- At a standing place a line has begun. -/
theorem Place.Standing.begun {text : Text} {start position : Nat} {place : Place}
    (standing : place.Standing text start position) :
    ¬ (place = .fileStart ∨ place = .lineStart) := by
  rcases standing.formed with formed | ⟨statement, comment, rfl⟩
  · rintro (rfl | rfl)
    · exact formed
    · exact formed
  · simp

/-- A line ends at a position: nothing follows, or a line end and the other lines. -/
inductive Statement.EndsAt (text : Text) (stop : Nat) : List Line → Prop where
  | text (whole : stop = text.length) : EndsAt text stop []
  | line {ending rest : Text} {after : List Line}
      (form : ending = ['\n'] ∨ ending = ['\r', '\n']) (next : text.drop stop = ending ++ rest)
      (reading : Reading .lineStart (stop + ending.length) rest after) : EndsAt text stop after

namespace Text

/-- A part of a text in two parts. -/
theorem slice_append {text : Text} {start middle stop : Nat} (first : start ≤ middle)
    (second : middle ≤ stop) :
    slice text start stop = slice text start middle ++ slice text middle stop := by
  have size : stop - start = (middle - start) + (stop - middle) := by omega
  have place : start + (middle - start) = middle := by omega
  simp only [slice]
  rw [size, List.take_add, List.drop_drop, place]

/-- The beginning of a text in two parts. -/
theorem take_append_slice {text : Text} {start stop : Nat} (order : start ≤ stop) :
    text.take start ++ slice text start stop = text.take stop := by
  have size : stop = start + (stop - start) := by omega
  rw [slice, ← List.take_add, ← size]

/-- The rest of a text in two parts. -/
theorem drop_eq_slice_append {text : Text} {start stop : Nat} (order : start ≤ stop) :
    text.drop start = slice text start stop ++ text.drop stop := by
  have place : start + (stop - start) = stop := by omega
  have parts := (List.take_append_drop (stop - start) (text.drop start)).symm
  rwa [List.drop_drop, place] at parts

/-- A part of a text has as many characters as it has positions. -/
theorem length_slice {text : Text} {start stop : Nat} (inside : stop ≤ text.length) :
    (slice text start stop).length = stop - start := by
  rw [slice, List.length_take, List.length_drop]
  omega

/-- A part of a text that holds something runs forward. -/
theorem lt_of_mem_slice {text : Text} {start stop : Nat} {c : Char}
    (member : c ∈ slice text start stop) : start < stop := by
  by_contra beyond
  have none : stop - start = 0 := by omega
  simp [slice, none] at member

end Text

namespace Token

variable {text : Text} {token : Token}

/-- The text of a token is the part of the text from its start to its end. -/
theorem Stands.slice (stands : token.Stands text) :
    Text.slice text token.start token.stop = token.text := by
  obtain ⟨expected, begins⟩ := stands
  rw [Text.slice, begins.whole, Token.stop, Nat.add_sub_cancel_left, List.take_left]

/-- A token that stands in a text takes at least one character, so that tokens one after the other
never begin at the same place. -/
theorem Stands.positive (stands : token.Stands text) : token.start < token.stop := by
  obtain ⟨expected, begins⟩ := stands
  exact begins.positive

/-- A token ends within the text. -/
theorem Stands.inside (stands : token.Stands text) : token.stop ≤ text.length := by
  have whole := congrArg List.length stands.slice
  have positive := stands.positive
  simp only [Text.slice, List.length_take, List.length_drop, Token.stop] at whole positive ⊢
  omega

end Token

namespace Extent

variable {text : Text} {start position : Nat}

/-- A blank behind an extent changes nothing. -/
theorem Standing.space {extent : Extent} (standing : extent.Standing text start position)
    {c : Char} {rest : Text} (here : text.drop position = c :: rest) (blank : isSpace c = true) :
    extent.Standing text start (position + 1) := by
  refine ⟨standing.lead, ?_, standing.held, standing.later, Nat.le_succ_of_le standing.inside, ?_⟩
  · intro token member
    obtain ⟨stands, after, before⟩ := standing.tokens token member
    exact ⟨stands, after, Nat.le_succ_of_le before⟩
  · have one : Text.slice text position (position + 1) = [c] := by
      rw [Text.slice, here, Nat.add_sub_cancel_left]
      rfl
    rw [Text.slice_append standing.inside (Nat.le_succ position), one]
    have feed : c ≠ '\n' := by
      rintro rfl
      cases blank
    simp [standing.quiet, Ne.symm feed]

/-- An extent goes on standing in the text when a token is added to it. A token that is kept is the
new end of the extent; one that is dropped leaves it where it was. -/
theorem Grows.standing {token : Token} {old new : Option Extent} (grows : Grows token old new)
    (standing : ∀ extent ∈ old, extent.Standing text start token.start)
    (begun : start ≤ token.start) (stands : token.Stands text)
    (within : Statement.endsLine token = false) :
    ∀ extent ∈ new, extent.Standing text start token.stop := by
  have positive := stands.positive
  have empty : '\n' ∉ Text.slice text token.stop token.stop := by
    simp [Text.slice]
  cases grows with
  | dropped => simp
  | begun =>
    rintro _ ⟨⟩
    refine ⟨by simp, ?_, by simp, Nat.le_trans begun (Nat.le_of_lt positive), Nat.le_refl _, empty⟩
    intro one member
    obtain rfl := List.mem_singleton.mp member
    exact ⟨stands, begun, Nat.le_refl _⟩
  | kept lead tokens more stop known =>
    rintro _ ⟨⟩
    obtain ⟨leads, standings, _, _, _, _⟩ := standing _ rfl
    refine ⟨leads, ?_, ?_, Nat.le_trans begun (Nat.le_of_lt positive), Nat.le_refl _, empty⟩
    · intro one member
      rcases known one member with rfl | old
      · exact ⟨stands, begun, Nat.le_refl _⟩
      · obtain ⟨oneStands, after, before⟩ := standings one old
        exact ⟨oneStands, after, by omega⟩
    · intro one member
      rcases known one member with rfl | old
      · exact Nat.le_refl _
      · have before := (standings one old).2.2
        change one.stop ≤ token.stop
        omega
  | passed _ unquoted =>
    intro extent member
    obtain ⟨leads, standings, held, later, inside, quiet⟩ := standing extent member
    refine ⟨leads, ?_, held, later, by omega, ?_⟩
    · intro one member
      obtain ⟨oneStands, after, before⟩ := standings one member
      exact ⟨oneStands, after, by omega⟩
    · rw [Text.slice_append inside (Nat.le_of_lt positive), stands.slice]
      obtain ⟨expected, begins⟩ := stands
      simp [quiet, begins.quiet within unquoted]

end Extent

namespace Statement

variable {text : Text} {start position : Nat} {place : Place}

/-- A place that has been formed by tokens alone is standing when its extent is. -/
theorem standing_of_formed (formed : place.Formed)
    (extent : ∀ extent ∈ place.extent?, extent.Standing text start position) :
    place.Standing text start position := by
  refine ⟨Or.inl formed, extent, ?_⟩
  rintro statement comment rfl
  exact formed.elim

/-- The first token of a line leads to a place with nothing but that token. The token is at once the
first and the last of the extent, or there is no extent yet. -/
theorem standing_intoLine {token : Token} {next : Place} (leads : Place.intoLine token = some next)
    (stands : token.Stands text) : next.Standing text token.start token.stop := by
  have alone (tokens : List Token) (known : ∀ one ∈ tokens, one = token) :
      Extent.Standing text token.start token.stop ⟨some token, tokens, token.stop⟩ := by
    refine ⟨by simp, ?_, ?_, Nat.le_of_lt stands.positive, Nat.le_refl _, by simp [Text.slice]⟩
    · intro one member
      obtain rfl := known one member
      exact ⟨stands, Nat.le_refl _, Nat.le_refl _⟩
    · intro one member
      obtain rfl := known one member
      exact Nat.le_refl _
  unfold Place.intoLine at leads
  split at leads
  case h_1 | h_2 | h_3 | h_4 =>
    cases leads
    refine standing_of_formed trivial ?_
    rintro _ ⟨⟩
    exact alone _ (by simp)
  case h_10 => cases leads
  all_goals
    cases leads
    exact standing_of_formed trivial (by simp [Place.extent?])

/-- Reading goes on standing in the text with every token of a line. -/
theorem standing_step {token : Token} {next : Place}
    (standing : place.Standing text start token.start) (begun : start ≤ token.start)
    (leads : place.step token = some next) (stands : token.Stands text)
    (within : endsLine token = false) : next.Standing text start token.stop := by
  rcases Place.step_eq_some_iff.mp leads with ⟨sort, statement, complete, rfl⟩ | ⟨_, continues⟩
  · have same := Place.extent_statement complete
    refine ⟨Or.inr ⟨statement, token, rfl⟩, ?_, ?_⟩
    · simp only [Place.extent?, same]
      have grows : Extent.Grows token place.extent? place.extent? := .passed _ (by simp [sort])
      exact grows.standing standing.extent begun stands within
    · rintro _ _ ⟨⟩
      refine ⟨stands, Nat.le_refl _, ?_⟩
      rw [same]
      intro extent member
      exact (standing.extent extent member).inside
  · rcases standing.formed with formed | ⟨statement, comment, rfl⟩
    · obtain ⟨grows, nextFormed⟩ := Place.continued_grows formed continues
      exact standing_of_formed nextFormed (grows.standing standing.extent begun stands within)
    · cases continues

/-- A blank within a line changes nothing. -/
theorem standing_space (standing : place.Standing text start position) {c : Char} {rest : Text}
    (here : text.drop position = c :: rest) (blank : isSpace c = true) :
    place.Standing text start (position + 1) := by
  refine ⟨standing.formed, ?_, ?_⟩
  · intro extent member
    exact (standing.extent extent member).space here blank
  · intro statement comment same
    obtain ⟨stands, inside, after⟩ := standing.comment statement comment same
    exact ⟨stands, Nat.le_succ_of_le inside, after⟩

/-- The line that is complete at a standing place is standing. -/
theorem standing_lines {line : Line} (standing : place.Standing text start position)
    (complete : place.lines? = some [line]) : line.Standing text start position := by
  unfold Place.lines? at complete
  split at complete
  · cases complete
  · cases complete
  · next statement comment =>
    cases complete
    refine ⟨standing.extent, ?_⟩
    rintro _ ⟨⟩
    exact standing.comment statement comment rfl
  · obtain ⟨statement, whole, same⟩ := Option.map_eq_some_iff.mp complete
    cases same
    refine ⟨?_, by simp⟩
    simp only [Place.extent_statement whole]
    exact standing.extent

/-- A token that stands at a position stands in the text. -/
theorem stands_of_begins {text rest : Text} {position : Nat} {token : Token} {expected : Expected}
    (begins : Begins expected position (text.drop position) token rest) :
    token.Stands text ∧ rest = text.drop token.stop := by
  have start := begins.start
  have following : rest = text.drop token.stop := by
    rw [Token.stop, start, ← List.drop_drop, begins.whole, List.drop_left]
  refine ⟨⟨expected, ?_⟩, following⟩
  rw [start, ← following]
  exact begins

/-- Behind a character of a text stands the rest of it. -/
theorem drop_succ_of_cons {text rest : Text} {position : Nat} {c : Char}
    (here : text.drop position = c :: rest) :
    text.drop (position + 1) = rest ∧ position + 1 ≤ text.length := by
  have size := congrArg List.length here
  rw [List.length_drop, List.length_cons] at size
  refine ⟨?_, by omega⟩
  rw [← List.drop_drop, here, List.drop_succ_cons, List.drop_zero]

/-- Where there are line ends, the text begins with one. -/
theorem ending_of_lineEnds {remaining : Text} (present : 0 < lineEnds remaining) :
    ∃ ending rest, (ending = ['\n'] ∨ ending = ['\r', '\n']) ∧ remaining = ending ++ rest := by
  unfold lineEnds at present
  split at present
  · next rest => exact ⟨_, rest, Or.inl rfl, rfl⟩
  · next rest => exact ⟨_, rest, Or.inr rfl, rfl⟩
  · omega

/-- From a place within a line reading comes to the end of that line. The line stands in the
text, and the other lines follow it. -/
theorem Reading.line {lines : List Line}
    (reading : Reading place position (text.drop position) lines)
    (inside : position ≤ text.length) (standing : place.Standing text start position)
    (begun : start ≤ position) : ∃ line after stop, lines = line :: after ∧
      line.Standing text start stop ∧ position ≤ stop ∧ stop ≤ text.length ∧
      EndsAt text stop after := by
  generalize here : text.drop position = remaining at reading
  induction reading with
  | @textEnd place position lines complete =>
    have whole : position = text.length := by
      have none := List.drop_eq_nil_iff.mp here
      omega
    rcases lines?_cases complete with ⟨_, first⟩ | ⟨line, rfl⟩
    · exact absurd first standing.begun
    · exact ⟨line, [], position, rfl, standing_lines standing complete, Nat.le_refl _, inside,
        .text whole⟩
  | @space place position c others lines blank further ih =>
    obtain ⟨next, inside⟩ := drop_succ_of_cons here
    obtain ⟨line, after, stop, same, lineStanding, later, within, ends⟩ :=
      ih inside (standing_space standing here blank) (Nat.le_succ_of_le begun) next
    exact ⟨line, after, stop, same, lineStanding, by omega, within, ends⟩
  | @lineEnd place position _ rest token done lines begins ends complete further ih =>
    rcases ends_cases begins ends with ⟨fileStart, _⟩ | ⟨listed, present, same⟩
    · exact absurd (Or.inl fileStart) standing.begun
    rcases lines?_cases complete with ⟨_, first⟩ | ⟨line, rfl⟩
    · exact absurd first standing.begun
    have reading := Reading.lineEnd begins ends complete further
    obtain ⟨ending, others, form, split⟩ := ending_of_lineEnds present
    rw [split] at reading
    obtain ⟨done, more, completes, joined, next⟩ := (reading_lineEnd_iff listed form).mp reading
    obtain rfl := Option.some.inj (complete.symm.trans completes)
    obtain rfl := (List.cons.inj joined).2
    exact ⟨line, lines, position, rfl, standing_lines standing complete, Nat.le_refl _, inside,
      .line form (here.trans split) next⟩
  | @token place next position _ rest token lines begins within leads further ih =>
    obtain ⟨stands, following⟩ := stands_of_begins (here ▸ begins)
    obtain rfl : position = token.start := begins.start.symm
    have positive := stands.positive
    obtain ⟨line, after, stop, same, lineStanding, later, within, ends⟩ :=
      ih stands.inside (standing_step standing begun leads stands within) (by omega) following.symm
    exact ⟨line, after, stop, same, lineStanding, by omega, within, ends⟩

end Statement

end Daybook
