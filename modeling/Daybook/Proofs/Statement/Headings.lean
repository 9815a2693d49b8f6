import Daybook.Proofs.Statement.Reading

/-!
# The heading of a transaction in its text

The line that begins a transaction has a date and a flag, and from the flag on reading never looks
back at either: the same text is read in the same way when they are exchanged for others. A line
that has begun with anything but a date, or with a date and a keyword, is no heading.
-/
namespace Daybook

open Lexeme Statement

/-- The heading with another date and another flag. -/
def Heading.retitle (date : Token) (flag : Option Token) (heading : Heading) : Heading :=
  { heading with date, flag }

/-- The tokens of a heading behind its flag. -/
def Heading.texts (heading : Heading) : List Token :=
  heading.payee.toList ++ heading.narration.toList ++ heading.marks

namespace Place

variable {place next : Place} {token : Token}

/-! ## Lines that are no heading -/

/-- No transaction is being read, and none can be read before the line ends. -/
def Untitled : Place → Prop
  | fileStart => False
  | lineStart => False
  | dated _ => False
  | texts _ => False
  | marks _ => False
  | commented (.transaction _) _ => False
  | ended (.transaction _) => False
  | _ => True

/-- A number belongs to no heading. All steps into numbers go through here. -/
theorem untitled_intoNumber {purpose : Purpose} {depth : Nat}
    (leads : intoNumber purpose depth token = some next) : next.Untitled := by
  unfold intoNumber at leads
  split at leads <;> cases leads <;> trivial

/-- Nor does what a number is read up to. -/
theorem untitled_afterNumber {purpose : Purpose}
    (leads : afterNumber purpose token = some next) : next.Untitled := by
  unfold afterNumber at leads
  split at leads <;> cases leads <;> trivial

/-- Nor does an argument of a custom directive. -/
theorem untitled_intoArgument (leads : intoArgument token = some next) : next.Untitled := by
  unfold intoArgument at leads
  split at leads
  case h_6 => exact untitled_intoNumber leads
  all_goals
    cases leads
    trivial

/-- Nor does what stands behind an operand, a further argument among it. -/
theorem untitled_afterOperand {purpose : Purpose} {depth : Nat}
    (leads : afterOperand purpose depth token = some next) : next.Untitled := by
  unfold afterOperand at leads
  split at leads
  · cases leads
    trivial
  · cases leads
    trivial
  · cases leads
    trivial
  · exact untitled_afterNumber leads
  · split at leads <;> cases leads
    trivial
  · split at leads <;> cases leads
    trivial
  · split at leads
    · exact untitled_intoArgument leads
    · cases leads
  · cases leads

/-- Nor does a cost. -/
theorem untitled_intoCost {line : PostingLine} {purpose : Purpose}
    (leads : intoCost line purpose token = some next) : next.Untitled := by
  unfold intoCost at leads
  split at leads
  case h_4 => exact untitled_intoNumber leads
  all_goals
    cases leads
    trivial

/-- Nor do the marks between the parts of a cost. -/
theorem untitled_afterCostPart {line : PostingLine}
    (leads : afterCostPart line token = some next) : next.Untitled := by
  unfold afterCostPart at leads
  split at leads <;> cases leads <;> trivial

/-- Nor does the mark of a price. -/
theorem untitled_intoPrice {line : PostingLine}
    (leads : intoPrice line token = some next) : next.Untitled := by
  unfold intoPrice at leads
  split at leads <;> cases leads <;> trivial

/-- Nor does anything behind an amount. -/
theorem untitled_beyondAmount {purpose : Purpose}
    (leads : beyondAmount purpose token = some next) : next.Untitled := by
  unfold beyondAmount at leads
  split at leads
  · split at leads
    · cases leads
      trivial
    · cases leads
      trivial
    · exact untitled_intoPrice leads
  · split at leads <;> cases leads
    trivial
  · exact untitled_afterCostPart leads
  · exact untitled_afterCostPart leads
  · split at leads <;> cases leads
    trivial
  · cases leads

/-- Nor does the value of metadata. -/
theorem untitled_intoMetadata {key : Token}
    (leads : intoMetadata key token = some next) : next.Untitled := by
  unfold intoMetadata at leads
  split at leads
  case h_6 => exact untitled_intoNumber leads
  all_goals
    cases leads
    trivial

/-- A line that is no heading goes on as none. The only places from which a heading can be begun or
gone on with are excluded by the assumption, so the cases are those of the lemmas above. -/
theorem untitled_continued (untitled : place.Untitled) (continues : Continues token place next) :
    next.Untitled := by
  cases continues with
  | fileStart => exact untitled.elim
  | lineStart => exact untitled.elim
  | dated => exact untitled.elim
  | texts => exact untitled.elim
  | marks => exact untitled.elim
  | account use => cases use <;> trivial
  | text use => cases use <;> trivial
  | currency use => cases use <;> trivial
  | metadataValue leads => exact untitled_intoMetadata leads
  | firstArgument leads => exact untitled_intoArgument leads
  | nextArgument leads => exact untitled_intoArgument leads
  | posted leads => exact untitled_intoNumber leads
  | operand leads => exact untitled_intoNumber leads
  | operator leads => exact untitled_afterOperand leads
  | afterAmount leads => exact untitled_beyondAmount leads
  | firstCost _ leads => exact untitled_intoCost leads
  | nextCost leads => exact untitled_intoCost leads
  | costComma leads => exact untitled_afterCostPart leads
  | price leads => exact untitled_intoPrice leads
  | _ => trivial

/-- What is complete where no transaction is being read is no transaction. The statement at each
such place is another one. -/
theorem untitled_statement (untitled : place.Untitled) {statement : Statement}
    (complete : place.statement? = some statement) (heading : Heading) :
    statement ≠ .transaction heading := by
  rintro rfl
  cases place with
  | operator purpose depth =>
    cases depth with
    | zero => cases purpose <;> cases complete
    | succ depth => cases purpose <;> cases complete
  | afterAmount purpose => cases purpose <;> cases complete
  | commented statement comment =>
    cases complete
    exact untitled
  | ended statement =>
    cases complete
    exact untitled
  | texts heading => exact untitled
  | marks heading => exact untitled
  | dated date => exact untitled
  | _ => cases complete

/-- One token never makes a heading of a line that is none, whether it goes on with the line or is
its comment. -/
theorem untitled_step (untitled : place.Untitled) (leads : place.step token = some next) :
    next.Untitled := by
  rcases step_eq_some_iff.mp leads with ⟨_, statement, complete, rfl⟩ | ⟨_, continues⟩
  · have other := untitled_statement untitled complete
    cases statement with
    | transaction heading => exact other heading rfl
    | _ => trivial
  · exact untitled_continued untitled continues

/-! ## Headings -/

/-- The heading that is being read, once its flag is known or left out. -/
def heading? : Place → Option Heading
  | texts heading => some heading
  | marks heading => some heading
  | commented (.transaction heading) _ => some heading
  | _ => none

/-- The place with another date and another flag in the heading that is being read. -/
def retitle (date : Token) (flag : Option Token) : Place → Place
  | texts heading => texts (heading.retitle date flag)
  | marks heading => marks (heading.retitle date flag)
  | commented (.transaction heading) comment =>
    commented (.transaction (heading.retitle date flag)) comment
  | other => other

/-- What may come next does not depend on the date and the flag that have been read. -/
@[simp] theorem expected_retitle (date : Token) (flag : Option Token) (place : Place) :
    (place.retitle date flag).expected = place.expected := by
  unfold retitle
  split <;> rfl

/-- The texts and marks of a heading are put to it whatever its date and its flag are. -/
theorem retitle_intoMarks {heading : Heading} (leads : intoMarks heading token = some next) :
    ∃ further, next.heading? = some further ∧ further.date = heading.date ∧
      further.flag = heading.flag ∧ (∀ text ∈ further.texts, text = token ∨ text ∈ heading.texts) ∧
      ∀ date flag,
        intoMarks (heading.retitle date flag) token = some (next.retitle date flag) := by
  unfold intoMarks at leads
  split at leads
  · next sort =>
    cases leads
    refine ⟨_, rfl, rfl, rfl, ?_, fun date flag => ?_⟩
    · intro text member
      simp only [Heading.texts, List.mem_append, List.mem_singleton] at member ⊢
      tauto
    · rw [intoMarks, if_pos sort]
      rfl
  · cases leads

/-- Also a text or a mark is put to a heading whatever its date and its flag are, and it is kept
among the texts of the heading, which hold nothing else that is new. -/
theorem retitle_intoTexts {heading : Heading} (leads : intoTexts heading token = some next) :
    ∃ further, next.heading? = some further ∧ further.date = heading.date ∧
      further.flag = heading.flag ∧ (∀ text ∈ further.texts, text = token ∨ text ∈ heading.texts) ∧
      ∀ date flag,
        intoTexts (heading.retitle date flag) token = some (next.retitle date flag) := by
  unfold intoTexts at leads
  split at leads
  · next sort =>
    split at leads
    · next bare =>
      cases leads
      refine ⟨_, rfl, rfl, rfl, ?_, fun date flag => ?_⟩
      · intro text member
        simp only [Heading.texts, Option.toList_some, List.mem_append, List.mem_singleton]
          at member ⊢
        tauto
      · have still : (heading.retitle date flag).narration = none := bare
        rw [intoTexts, if_pos sort, still]
        rfl
    · next payee known =>
      cases leads
      refine ⟨_, rfl, rfl, rfl, ?_, fun date flag => ?_⟩
      · intro text member
        simp only [Heading.texts, Option.toList_some, List.mem_append, List.mem_singleton, known]
          at member ⊢
        tauto
      · have still : (heading.retitle date flag).narration = some payee := known
        rw [intoTexts, if_pos sort, still]
        rfl
  · next sort =>
    obtain ⟨further, titled, sameDate, sameFlag, texts, each⟩ := retitle_intoMarks leads
    refine ⟨further, titled, sameDate, sameFlag, texts, fun date flag => ?_⟩
    rw [intoTexts, if_neg sort]
    exact each date flag

/-- A token goes on with the heading, whatever its date and its flag are. A heading is only ever
extended by texts and marks, and no step looks at its date or its flag. -/
theorem retitle_step {heading : Heading} (titled : place.heading? = some heading)
    (leads : place.step token = some next) : ∃ further, next.heading? = some further ∧
      further.date = heading.date ∧ further.flag = heading.flag ∧
      (∀ text ∈ further.texts, text = token ∨ text ∈ heading.texts) ∧ ∀ date flag,
        (place.retitle date flag).step token = some (next.retitle date flag) := by
  unfold step at leads ⊢
  cases place with
  | texts known =>
    cases titled
    split at leads
    · next comment =>
      cases leads
      exact ⟨heading, rfl, rfl, rfl, fun text => Or.inr, fun date flag => by
          rw [if_pos comment]; rfl⟩
    · next plain =>
      obtain ⟨further, titled, sameDate, sameFlag, texts, each⟩ := retitle_intoTexts leads
      exact ⟨further, titled, sameDate, sameFlag, texts, fun date flag => by
        rw [if_neg plain]; exact each date flag⟩
  | marks known =>
    cases titled
    split at leads
    · next comment =>
      cases leads
      exact ⟨heading, rfl, rfl, rfl, fun text => Or.inr, fun date flag => by
          rw [if_pos comment]; rfl⟩
    · next plain =>
      obtain ⟨further, titled, sameDate, sameFlag, texts, each⟩ := retitle_intoMarks leads
      exact ⟨further, titled, sameDate, sameFlag, texts, fun date flag => by
        rw [if_neg plain]; exact each date flag⟩
  | commented statement noted =>
    cases statement with
    | transaction known =>
      cases titled
      split at leads
      · next comment =>
        cases leads
        exact ⟨heading, rfl, rfl, rfl, fun text => Or.inr, fun date flag => by
          rw [if_pos comment]; rfl⟩
      · cases leads
    | _ => cases titled
  | _ => cases titled

/-- Where a heading is being read, a line with this heading is complete. -/
theorem retitle_lines {heading : Heading} (titled : place.heading? = some heading) :
    ∃ comment, place.lines? = some [⟨.transaction heading, comment⟩] ∧ ∀ date flag,
      (place.retitle date flag).lines? =
        some [⟨.transaction (heading.retitle date flag), comment⟩] := by
  cases place with
  | texts known =>
    cases titled
    exact ⟨none, rfl, fun _ _ => rfl⟩
  | marks known =>
    cases titled
    exact ⟨none, rfl, fun _ _ => rfl⟩
  | commented statement noted =>
    cases statement with
    | transaction known =>
      cases titled
      exact ⟨some noted, rfl, fun _ _ => rfl⟩
    | _ => cases titled
  | _ => cases titled

end Place

namespace Statement

variable {place : Place} {position : Nat} {text : Text} {lines : List Line}

/-- Where no transaction is being read, the line becomes no heading. The induction is on the
reading: a step from such a place leads to such a place, and a line that is complete there is no
heading. -/
theorem Reading.untitled (reading : Reading place position text lines)
    (untitled : place.Untitled) : ∃ line after, lines = line :: after ∧
      ∀ heading, line.statement ≠ .transaction heading := by
  have only {done : List Line} {place : Place} (untitled : place.Untitled)
      (complete : place.lines? = some done) :
      ∃ line, done = [line] ∧ ∀ heading, line.statement ≠ .transaction heading := by
    rcases lines?_cases complete with ⟨_, start⟩ | ⟨line, rfl⟩
    · rcases start with rfl | rfl
      · exact untitled.elim
      · exact untitled.elim
    · have found := statement?_of_mem_lines? complete List.mem_cons_self
      exact ⟨line, rfl, Place.untitled_statement untitled found⟩
  induction reading with
  | textEnd complete =>
    obtain ⟨line, rfl, other⟩ := only untitled complete
    exact ⟨line, [], rfl, other⟩
  | space _ _ ih => exact ih untitled
  | lineEnd _ _ complete _ _ =>
    obtain ⟨line, rfl, other⟩ := only untitled complete
    exact ⟨line, _, rfl, other⟩
  | token _ _ leads _ ih => exact ih (Place.untitled_step untitled leads)

/-- From the flag on a heading is read whatever its date and its flag are, and what is added to it
stands behind what has been read. -/
theorem Reading.retitle {heading : Heading} (reading : Reading place position text lines)
    (titled : place.heading? = some heading) : ∃ finished comment after,
      lines = ⟨.transaction finished, comment⟩ :: after ∧ finished.date = heading.date ∧
      finished.flag = heading.flag ∧
      (∀ text ∈ finished.texts, position ≤ text.start ∨ text ∈ heading.texts) ∧
      ∀ date flag, Reading (place.retitle date flag) position text
        (⟨.transaction (finished.retitle date flag), comment⟩ :: after) := by
  induction reading generalizing heading with
  | textEnd complete =>
    obtain ⟨comment, known, each⟩ := Place.retitle_lines titled
    obtain rfl := Option.some.inj (complete.symm.trans known)
    exact ⟨heading, comment, [], rfl, rfl, rfl, fun text => Or.inr,
      fun date flag => .textEnd (each date flag)⟩
  | space blank _ ih =>
    obtain ⟨finished, comment, after, parts, sameDate, sameFlag, texts, each⟩ := ih titled
    exact ⟨finished, comment, after, parts, sameDate, sameFlag,
      fun text member => (texts text member).imp_left Nat.le_of_succ_le,
      fun date flag => .space blank (each date flag)⟩
  | lineEnd begins ends complete further _ =>
    obtain ⟨comment, known, each⟩ := Place.retitle_lines titled
    obtain rfl := Option.some.inj (complete.symm.trans known)
    refine ⟨heading, comment, _, rfl, rfl, rfl, fun text => Or.inr, fun date flag => ?_⟩
    rw [← Place.expected_retitle date flag] at begins
    exact .lineEnd begins ends (each date flag) further
  | @token _ _ position _ _ token _ begins within leads _ ih =>
    obtain ⟨further, next, sameDate, sameFlag, own, each⟩ := Place.retitle_step titled leads
    obtain ⟨finished, comment, after, parts, date, flag, texts, read⟩ := ih next
    have start := begins.start
    refine ⟨finished, comment, after, parts, date.trans sameDate, flag.trans sameFlag, ?_,
      fun newDate newFlag => ?_⟩
    · intro text member
      rcases texts text member with behind | old
      · exact Or.inl (start ▸ Nat.le_trans (Nat.le_of_lt begins.positive) behind)
      · exact (own text old).imp_left fun same => Nat.le_of_eq (by rw [same, start])
    · rw [← Place.expected_retitle newDate newFlag] at begins
      exact .token begins within (each newDate newFlag) (read newDate newFlag)

/-- Where the flag of a heading stands: behind the date and some blanks, and reading goes on behind
it with nothing but the two. -/
structure Flagged (date flag : Token) (position : Nat) (text blanks tail : Text)
    (lines : List Line) : Prop where
  whole : text = blanks ++ (flag.text ++ tail)
  blank : ∀ c ∈ blanks, isSpace c = true
  sort : flag.terminal = .flag ∨ flag.terminal = .txnWord
  begins : Begins (Place.dated date).expected (position + blanks.length) (flag.text ++ tail)
    flag tail
  further : Reading (.texts { date, flag := some flag, stop := flag.stop }) flag.stop tail lines

/-- Where a heading has no flag so far, none is read later. -/
theorem Reading.not_bare {place : Place} (reading : Reading place position text lines)
    {line : Line} {after : List Line} (parts : lines = line :: after) {heading : Heading}
    (statement : line.statement = .transaction heading) {flag : Token}
    (flagged : heading.flag = some flag) {known : Heading} (titled : place.heading? = some known) :
    known.flag ≠ none := by
  intro bare
  obtain ⟨finished, comment, others, same, _, kept, _⟩ := reading.retitle titled
  obtain ⟨rfl, _⟩ := List.cons.inj (parts.symm.trans same)
  cases statement
  rw [kept, bare] at flagged
  cases flagged

/-- Where a statement is no heading, none is read later. -/
theorem Reading.not_untitled {place : Place} (reading : Reading place position text lines)
    {line : Line} {after : List Line} (parts : lines = line :: after) {heading : Heading}
    (statement : line.statement = .transaction heading) : ¬ place.Untitled := by
  intro untitled
  obtain ⟨other, others, same, plain⟩ := reading.untitled untitled
  obtain ⟨rfl, _⟩ := List.cons.inj (parts.symm.trans same)
  exact plain heading statement

/-- Behind the date of a heading with a flag stands this flag. The induction goes over the blanks
behind the date; the first token is the flag, since no other leads to a heading that has one. -/
theorem Reading.flagged {date : Token} (reading : Reading (.dated date) position text lines)
    {line : Line} {after : List Line} (parts : lines = line :: after) {heading : Heading}
    (statement : line.statement = .transaction heading) {flag : Token}
    (flagged : heading.flag = some flag) : heading.date = date ∧
      ∃ blanks tail, Flagged date flag position text blanks tail lines := by
  have alone {others : List Line}
      (same : line :: after = ⟨.transaction { date, stop := date.stop }, none⟩ :: others) :
      False := by
    obtain ⟨rfl, _⟩ := List.cons.inj same
    cases statement
    cases flagged
  generalize entered : Place.dated date = place at reading
  induction reading with
  | textEnd complete =>
    subst entered
    cases complete
    exact (alone parts.symm).elim
  | @space _ position c text lines blank _ ih =>
    obtain ⟨same, blanks, tail, whole, each, sort, begins, further⟩ := ih parts entered
    refine ⟨same, c :: blanks, tail, congrArg (c :: ·) whole,
      List.forall_mem_cons.mpr ⟨blank, each⟩, sort, ?_, further⟩
    rw [List.length_cons, Nat.add_comm blanks.length, ← Nat.add_assoc]
    exact begins
  | lineEnd _ _ complete _ _ =>
    subst entered
    cases complete
    exact (alone parts.symm).elim
  | @token _ next position text rest token lines begins within leads further _ =>
    subst entered
    have found (sort : token.terminal = .flag ∨ token.terminal = .txnWord)
        (further : Reading (.texts { date, flag := some token, stop := token.stop }) token.stop
          rest lines) : heading.date = date ∧
            ∃ blanks tail, Flagged date flag position text blanks tail lines := by
      obtain ⟨finished, comment, others, same, kept, sameFlag, _⟩ := further.retitle rfl
      obtain ⟨rfl, _⟩ := List.cons.inj (parts.symm.trans same)
      cases statement
      obtain rfl := Option.some.inj (flagged.symm.trans sameFlag)
      refine ⟨kept, [], rest, begins.whole, by simp, sort, ?_, further⟩
      rw [← begins.whole]
      exact begins
    unfold Place.step at leads
    split at leads
    · cases leads
      exact (further.not_bare parts statement flagged rfl rfl).elim
    · simp only [Place.continued] at leads
      unfold Place.intoDated at leads
      split at leads
      case h_11 sort =>
        cases leads
        exact found (Or.inr sort) further
      case h_12 sort =>
        cases leads
        exact found (Or.inl sort) further
      case h_13 =>
        obtain ⟨known, titled, _, bare, _⟩ := Place.retitle_intoTexts leads
        exact (further.not_bare parts statement flagged titled bare).elim
      all_goals
        cases leads
        exact (further.not_untitled parts statement trivial).elim

/-- A line with the heading of a transaction begins with its date. Every other first token leads to
a place where no transaction is being read. -/
theorem Reading.dated (reading : Reading .lineStart position text lines) {token : Token}
    {rest : Text} (begins : Begins Place.lineStart.expected position text token rest)
    (within : endsLine token = false) {line : Line} {after : List Line}
    (parts : lines = line :: after) {heading : Heading}
    (statement : line.statement = .transaction heading) :
    token.terminal = .date ∧ Reading (.dated token) token.stop rest lines := by
  obtain ⟨next, leads, further⟩ := (reading_token_iff begins within).mp reading
  have entered : Place.intoLine token = some next := by
    have same : Place.lineStart.step token = Place.intoLine token := by
      simp [Place.step, Place.statement?, Place.continued]
    rw [← same]
    exact leads
  have other (untitled : next.Untitled) : False := by
    obtain ⟨one, others, same, plain⟩ := further.untitled untitled
    obtain ⟨rfl, _⟩ := List.cons.inj (parts.symm.trans same)
    exact plain heading statement
  unfold Place.intoLine at entered
  split at entered
  case h_1 sort =>
    cases entered
    exact ⟨sort, further⟩
  case h_10 => cases entered
  all_goals
    cases entered
    exact (other trivial).elim

end Statement

end Daybook
