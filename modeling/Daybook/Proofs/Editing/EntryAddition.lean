import Daybook.Proofs.Editing.RootFile
import Daybook.Proofs.Entry.Rendering

/-!
# An entry behind a file

An entry is written behind whatever a file holds, and the file is not read before. A blank line
and a date are all that separates the two, and they suffice: the blank line ends the last line of
the file, and a date begins a directive of its own, whatever the directive turns out to be. So the
file says what it said, every byte where it was, and then what the entry says by itself, further
down by the length of the file.
-/
namespace Daybook

open Lexeme Statement

/-! ## Directives with a date -/

/-- A statement that begins with a date. -/
inductive Statement.IsDated : Statement → Prop where
  | transaction (heading : Heading) : IsDated (.transaction heading)
  | opening (date account : Token) (currencies : List Token) (stop : Nat) :
      IsDated (.opening date account currencies stop)
  | closing (date account : Token) : IsDated (.closing date account)
  | other : IsDated .otherDated

/-- The numbers of a directive with a date. -/
inductive Purpose.IsDated : Purpose → Prop where
  | balance : IsDated .balance
  | tolerance : IsDated .tolerance
  | quotation : IsDated .quotation
  | argument : IsDated .argument

/-- The places behind the date that begins a line. -/
inductive Place.IsDated : Place → Prop where
  | dated (date : Token) : IsDated (.dated date)
  | texts (heading : Heading) : IsDated (.texts heading)
  | marks (heading : Heading) : IsDated (.marks heading)
  | account {use : AccountUse} (own : ∀ flag, use ≠ .flagged flag) : IsDated (.account use)
  | eventText : IsDated (.text .event)
  | lastText : IsDated (.text .dated)
  | currency (use : CurrencyUse) : IsDated (.currency use)
  | firstCurrency (date account : Token) : IsDated (.firstCurrency date account)
  | nextCurrency (date account : Token) (currencies : List Token) (stop : Nat) :
      IsDated (.nextCurrency date account currencies stop)
  | firstArgument : IsDated .firstArgument
  | nextArgument : IsDated .nextArgument
  | operand {purpose : Purpose} (dated : purpose.IsDated) (depth : Nat) :
      IsDated (.operand purpose depth)
  | operator {purpose : Purpose} (dated : purpose.IsDated) (depth : Nat) :
      IsDated (.operator purpose depth)
  | afterAmount {purpose : Purpose} (dated : purpose.IsDated) : IsDated (.afterAmount purpose)
  | commented {statement : Statement} (dated : statement.IsDated) (comment : Token) :
      IsDated (.commented statement comment)
  | ended {statement : Statement} (dated : statement.IsDated) : IsDated (.ended statement)

/-- A statement with a date closes what is open. -/
theorem Statement.IsDated.closes {line : Line} (dated : line.statement.IsDated) :
    Progress.Closes line := by
  unfold Progress.Closes
  cases statement : line.statement with
  | remark => rw [statement] at dated; cases dated
  | posting posting => rw [statement] at dated; cases dated
  | metadata key stop => rw [statement] at dated; cases dated
  | _ => trivial

/-- A number goes on being a number of a directive with a date. -/
theorem Purpose.IsDated.upTo {purpose : Purpose} (dated : purpose.IsDated) (token : Token) :
    purpose.upTo token = purpose := by
  cases dated <;> rfl

namespace Place.IsDated

variable {place next : Place} {purpose : Purpose} {depth : Nat} {token : Token}

/-- What is complete behind a date is a statement with a date. -/
theorem statement {complete : Statement} (dated : place.IsDated)
    (found : place.statement? = some complete) : complete.IsDated := by
  cases dated with
  | dated date => cases found; exact .transaction _
  | texts heading => cases found; exact .transaction _
  | marks heading => cases found; exact .transaction _
  | firstCurrency date account => cases found; exact .opening _ _ _ _
  | nextCurrency date account currencies stop => cases found; exact .opening _ _ _ _
  | nextArgument => cases found; exact .other
  | operator dated depth =>
    cases dated <;> cases depth <;> cases found
    exact .other
  | afterAmount dated =>
    cases dated <;> cases found
    · exact .other
    · exact .other
  | commented dated comment => cases found; exact dated
  | ended dated => cases found; exact dated
  | _ => cases found

/-- A line that ends behind a date is one line with a date. -/
theorem lines {complete : List Line} (dated : place.IsDated)
    (found : place.lines? = some complete) :
    ∃ line, complete = [line] ∧ line.statement.IsDated := by
  rcases Statement.lines?_cases found with ⟨_, start⟩ | ⟨line, rfl⟩
  · rcases start with rfl | rfl
    · cases dated
    · cases dated
  · have whole := Statement.statement?_of_mem_lines? found List.mem_cons_self
    exact ⟨line, rfl, dated.statement whole⟩

/-- A number, a sign and an opening bracket lead into an expression that is read for the same
purpose, and a place within an expression is behind a date if its purpose is. -/
theorem of_intoNumber (dated : purpose.IsDated)
    (leads : Place.intoNumber purpose depth token = some next) : next.IsDated := by
  unfold Place.intoNumber at leads
  rw [dated.upTo] at leads
  split at leads <;> cases leads
  · exact .operator dated _
  · exact .operand dated _
  · exact .operand dated _

/-- An argument of a custom directive leads to the next one or, if it is a number, into an
expression. -/
theorem of_intoArgument (leads : Place.intoArgument token = some next) : next.IsDated := by
  unfold Place.intoArgument at leads
  split at leads
  case h_6 => exact of_intoNumber .argument leads
  all_goals
    cases leads
    exact .nextArgument

/-- Behind an expression its purpose says what is to follow, and none of the four purposes that a
directive with a date can have leads out of the directive. -/
theorem of_afterNumber (dated : purpose.IsDated)
    (leads : Place.afterNumber purpose token = some next) : next.IsDated := by
  cases dated <;> cases leads
  · exact .afterAmount .balance
  · exact .ended .other
  · exact .afterAmount .quotation
  · exact .nextArgument

/-- Behind an operand the expression goes on, is closed by a bracket, or ends and is followed by
what its purpose asks for; a tolerance and a further argument are expressions of the same
directive. -/
theorem of_afterOperand (dated : purpose.IsDated)
    (leads : Place.afterOperand purpose depth token = some next) : next.IsDated := by
  unfold Place.afterOperand at leads
  rw [dated.upTo] at leads
  split at leads
  · cases leads
    exact .operand dated _
  · cases leads
    exact .operand dated _
  · cases leads
    exact .operator dated _
  · exact of_afterNumber dated leads
  · cases dated <;> cases leads
  · split at leads <;> cases leads
    exact .operand .tolerance _
  · split at leads
    · exact of_intoArgument leads
    · cases leads
  · cases leads

/-- A tag or a link is followed by more of them, still in the heading of the same transaction. -/
theorem of_intoMarks {heading : Heading} (leads : Place.intoMarks heading token = some next) :
    next.IsDated := by
  unfold Place.intoMarks at leads
  split at leads <;> cases leads
  exact .marks _

/-- Behind the flag there are texts and then marks, all of them in the heading of the same
transaction. -/
theorem of_intoTexts {heading : Heading} (leads : Place.intoTexts heading token = some next) :
    next.IsDated := by
  unfold Place.intoTexts at leads
  split at leads
  · split at leads <;> cases leads
    · exact .texts _
    · exact .marks _
  · exact of_intoMarks leads

/-- Whatever the token behind a date is, a keyword, a flag, a text or a mark, the line goes on as
that of a directive with the date. -/
theorem of_intoDated {date : Token} (leads : Place.intoDated date token = some next) :
    next.IsDated := by
  unfold Place.intoDated at leads
  split at leads
  case h_13 => exact of_intoTexts leads
  all_goals cases leads
  · exact .account nofun
  · exact .account nofun
  · exact .account nofun
  · exact .account nofun
  · exact .account nofun
  · exact .account nofun
  · exact .eventText
  · exact .currency _
  · exact .currency _
  · exact .firstArgument
  · exact .texts _
  · exact .texts _

/-- Of all the uses of an account only the posting with a flag is without a date, so that it has to
be excluded here. -/
theorem of_afterAccount {use : AccountUse} (own : ∀ flag, use ≠ .flagged flag) (token : Token) :
    (Place.afterAccount use token).IsDated := by
  cases use with
  | opening date => exact .firstCurrency _ _
  | closing date => exact .ended (.closing _ _)
  | balance => exact .operand .balance _
  | texted => exact .lastText
  | padded => exact .account nofun
  | padding => exact .ended .other
  | flagged flag => exact absurd rfl (own flag)

/-- Currencies are used by commodities, by prices and by the lists of openings, which all begin with
a date. -/
theorem of_afterCurrency (use : CurrencyUse) (token : Token) :
    (Place.afterCurrency use token).IsDated := by
  cases use with
  | commodity => exact .ended .other
  | quotation => exact .operand .quotation _
  | opening date account currencies => exact .nextCurrency _ _ _ _

/-- A token that is no comment leads from behind a date to behind a date. -/
theorem of_continued (dated : place.IsDated) (continues : Place.Continues token place next) :
    next.IsDated := by
  cases continues with
  | dated leads => exact of_intoDated leads
  | texts leads => exact of_intoTexts leads
  | marks leads => exact of_intoMarks leads
  | account use =>
    cases dated with
    | account own => exact of_afterAccount own token
  | text use =>
    cases dated with
    | eventText => exact .lastText
    | lastText => exact .ended .other
  | currency use => exact of_afterCurrency use token
  | firstCurrency => exact .nextCurrency _ _ _ _
  | booking => exact .ended (.opening _ _ _ _)
  | comma => exact .currency _
  | bookingOf => exact .ended (.opening _ _ _ _)
  | firstArgument leads => exact of_intoArgument leads
  | nextArgument leads => exact of_intoArgument leads
  | operand leads =>
    cases dated with
    | operand dated depth => exact of_intoNumber dated leads
  | operator leads =>
    cases dated with
    | operator dated depth => exact of_afterOperand dated leads
  | afterAmount leads =>
    cases dated with
    | afterAmount dated => cases dated <;> cases leads
  | _ => cases dated

/-- Every token within a line leads from behind a date to behind a date. -/
theorem step (dated : place.IsDated) (leads : place.step token = some next) : next.IsDated := by
  rcases Place.step_eq_some_iff.mp leads with ⟨_, complete, found, rfl⟩ | ⟨_, continues⟩
  · exact .commented (dated.statement found) token
  · exact dated.of_continued continues

end Place.IsDated

/-- What is read behind a date is first of all the statement that the date begins. The induction
is on how it was read, and every step stays behind the date. -/
theorem Statement.Reading.isDated {place : Place} {position : Nat} {text : Text} {lines : List Line}
    (reading : Reading place position text lines) (dated : place.IsDated) :
    ∃ line more, lines = line :: more ∧ line.statement.IsDated := by
  induction reading with
  | textEnd complete =>
    obtain ⟨line, rfl, statement⟩ := dated.lines complete
    exact ⟨line, [], rfl, statement⟩
  | space blank further ih => exact ih dated
  | lineEnd begins ends complete further ih =>
    obtain ⟨line, rfl, statement⟩ := dated.lines complete
    exact ⟨line, _, rfl, statement⟩
  | token begins within leads further ih => exact ih (dated.step leads)

/-! ## Behind other inclusions -/

namespace Progress

variable {source : Source} {pending : Pending} {included : List Phrase}

/-- What a line closes and opens does not depend on what was included before; only a warning does.
Only an inclusion looks at the list, and all it does with it is to warn and to extend it. -/
theorem advance_included {line : Line} {next : Progress} {yielded : Collected}
    (stepped : advance source ⟨pending, included⟩ line = .ok (next, yielded))
    (others : List Phrase) : ∃ known warnings, advance source ⟨pending, others⟩ line =
      .ok (⟨next.pending, known⟩, ⟨yielded.directives, warnings⟩) := by
  cases statement : line.statement with
  | remark =>
    simp only [advance, statement] at stepped ⊢
    cases stepped
    exact ⟨_, _, rfl⟩
  | posting posting =>
    simp only [advance, statement] at stepped ⊢
    cases pending <;> cases stepped <;> exact ⟨_, _, rfl⟩
  | metadata key stop =>
    simp only [advance, statement] at stepped ⊢
    cases pending <;> cases stepped <;> exact ⟨_, _, rfl⟩
  | _ =>
    simp only [advance, statement] at stepped ⊢
    obtain ⟨closed, finished, same⟩ := map_eq_ok_iff.mp stepped
    cases same
    exact ⟨_, _, map_eq_ok_iff.mpr ⟨closed, finished, rfl⟩⟩

/-- The directives that are collected do not depend on what was included before. -/
theorem collectFrom_included {lines : List Line} {collected : Collected}
    (whole : collectFrom source pending included lines = .ok collected) (others : List Phrase) :
    ∃ warnings, collectFrom source pending others lines =
      .ok ⟨collected.directives, warnings⟩ := by
  induction lines generalizing pending included others collected with
  | nil =>
    obtain ⟨closed, finished, same⟩ := bind_eq_ok_iff.mp whole
    cases same
    exact ⟨[], bind_eq_ok_iff.mpr ⟨closed, finished, rfl⟩⟩
  | cons line rest ih =>
    obtain ⟨next, first, later, stepped, further, rfl⟩ :=
      (@collectFrom_cons_iff source ⟨pending, included⟩ _ _ _).mp whole
    obtain ⟨known, early, again⟩ := advance_included stepped others
    obtain ⟨late, found⟩ := ih further known
    exact ⟨early ++ late, (@collectFrom_cons_iff source ⟨pending, others⟩ _ _ _).mpr
      ⟨_, _, _, again, found, rfl⟩⟩

/-- Directives that do not belong to an open one are collected behind the others, whatever was
included before them. -/
theorem collectFrom_joined {lines more : List Line} {collected others : Collected}
    (closed : Closed more) (first : collectFrom source pending included lines = .ok collected)
    (second : collectFrom source .nothing [] more = .ok others) :
    ∃ warnings, collectFrom source pending included (lines ++ more) =
      .ok ⟨collected.directives ++ others.directives, warnings⟩ := by
  rw [← List.append_nil lines] at first
  obtain ⟨next, yielded, finished, advanced, finishing, rfl⟩ :=
    (@collectFrom_append_iff source ⟨pending, included⟩ _ _ _).mp first
  obtain ⟨directives, ended, same⟩ := bind_eq_ok_iff.mp finishing
  cases same
  obtain ⟨warnings, again⟩ := collectFrom_included second next.included
  refine ⟨yielded.warnings ++ warnings, ?_⟩
  refine (@collectFrom_append_iff source ⟨pending, included⟩ _ _ _).mpr
    ⟨next, yielded, (⟨directives, []⟩ : Collected).append ⟨others.directives, warnings⟩, advanced,
      (collectFrom_closed closed).mpr ⟨directives, _, ended, again, rfl⟩, ?_⟩
  simp [Collected.append]

end Progress

/-! ## Two texts, one behind the other -/

/-- What a text says whose first line is no part of a directive before it is said as well behind
another text, further down. -/
theorem Page.ofText_joined {path front tail : Text} {lines more : List Line}
    {collected others : Collected}
    (reading : Reading .fileStart 0 front lines)
    (whole : collect (Source.ofText path front) lines = .ok collected)
    (parted : (∃ rest, tail = '\n' :: rest) ∨ front.getLast? = some '\n' ∨ front = [])
    (further : Reading .lineStart 0 tail more) (closed : Progress.Closed more)
    (own : collect (Source.ofText path tail) more = .ok others) :
    ∃ lines warnings, Reading .fileStart 0 (front ++ tail) lines ∧
      collect (Source.ofText path (front ++ tail)) lines = .ok
        ⟨collected.directives ++ others.directives.map
          (Directive.shift (Text.Utf8.encode front).length), warnings⟩ := by
  have behind := further.shift front.length
  rw [Nat.zero_add] at behind
  have joined : Reading .fileStart 0 (front ++ tail)
      (lines ++ more.map (Line.shift front.length)) :=
    reading.append (parted.imp_right (Or.imp_right fun empty => ⟨empty, Or.inl rfl⟩))
      (by rw [Nat.zero_add]; exact behind)
  obtain ⟨_, early, _⟩ := reading.collect_lengthen parted whole
  have moved := @Statement.Reading.collectFrom_back [] _ _ further path front []
  have here : collectFrom (Source.ofText path ([] ++ tail)) .nothing [] more = .ok others := own
  rw [here] at moved
  obtain ⟨far, late, kept⟩ := moved.of_ok
  obtain ⟨warnings, found⟩ :=
    Progress.collectFrom_joined (Progress.closed_shift_iff.mpr closed) early late
  rw [kept.directives] at found
  exact ⟨_, warnings, joined, found⟩

/-- What a text says does not depend on the name of its file. Two sources with the same text are
alike from beginning to end, and the name of the file is only in the warnings. -/
theorem Statement.Reading.collect_renamed {path text : Text} {lines : List Line}
    {collected : Collected} (reading : Reading .fileStart 0 text lines)
    (whole : collect (Source.ofText path text) lines = .ok collected) (other : Text) :
    ∃ warnings, collect (Source.ofText other text) lines =
      .ok ⟨collected.directives, warnings⟩ := by
  have alike : (Source.ofText path text).Alike (Source.ofText other text) 0 0 0 text.length :=
    ⟨fun position _ _ => (Int.add_zero _).symm, rfl, Nat.le_refl _⟩
  have within : ∀ line ∈ lines, line.Within (Source.ofText path text) (Source.ofText other text)
      0 0 text.length := by
    intro line member
    obtain ⟨start, stop, _, order, ends, standing⟩ := reading.laid_whole.each line member
    refine standing.within (Nat.zero_le _) ends.inside fun _ _ => Or.inr ⟨rfl, Or.inl ?_⟩
    exact List.drop_length
  have moved := alike.collectFrom_moved within
    (show Progress.Moved 0 0 0 text.length ⟨.nothing, []⟩ ⟨.nothing, []⟩ from ⟨.nothing, rfl⟩)
  have same : collectFrom (Source.ofText path text) .nothing [] lines = .ok collected := whole
  rw [List.map_id'' Line.shift_zero, same] at moved
  obtain ⟨far, found, kept⟩ := moved.of_ok
  refine ⟨far.warnings, ?_⟩
  have directives := kept.directives
  rw [List.map_id'' Directive.shift_zero] at directives
  rw [← directives]
  exact found

/-- A page without errors comes from lines if its text is not a blank one that cannot be read. -/
theorem Page.reading_of_accepted {path text : Text} {page : Page}
    (paged : ofText path text = .ok page) (sound : page.errors = [])
    (accepted : text.all Text.isBlank = true → ∃ lines, Statement.read text = .ok lines) :
    ∃ lines collected, Reading .fileStart 0 text lines ∧
      collect (Source.ofText path text) lines = .ok collected ∧
      page = ofCollected path collected := by
  by_cases blank : text.all Text.isBlank = true
  · obtain ⟨lines, known⟩ := accepted blank
    have reading : Reading .fileStart 0 text lines := (reading_iff 0).mpr known
    obtain ⟨collected, whole, same⟩ := collected_of_reading reading paged
    exact ⟨lines, collected, reading, whole, same⟩
  · exact reading_of_visible paged sound (Bool.eq_false_iff.mpr blank)

/-- A page without errors comes from lines if its content is empty or not blank. A blank content is
read before the grammar is asked, and a content that is empty has the lines of an empty text. -/
theorem Page.reading_of_filled {path : FilePath} {content : Bytes} {page : Page}
    (paged : ofBytes path content = .ok page) (sound : page.errors = [])
    (filled : content = [] ∨ ∃ text, Text.Utf8.decode content = .ok text ∧
      ∃ c ∈ text, Text.isBlank c = false) :
    ∃ text lines collected, content = Text.Utf8.encode text ∧
      Reading .fileStart 0 text lines ∧
      collect (Source.ofText path.toText text) lines = .ok collected ∧
      page.directives = collected.directives := by
  obtain ⟨text, rfl, whole⟩ := encode_of_ofBytes paged sound
  have accepted (blank : text.all Text.isBlank = true) :
      ∃ lines, Statement.read text = .ok lines := by
    rcases filled with empty | ⟨shown, decoded, c, member, solid⟩
    · have decoded := congrArg Text.Utf8.decode empty
      rw [Text.Utf8.decode_encode] at decoded
      rw [show text = [] from Except.ok.inj decoded]
      exact ⟨[], (reading_iff 0).mp (.textEnd rfl)⟩
    · rw [Text.Utf8.decode_encode] at decoded
      cases decoded
      rw [List.all_eq_true.mp blank c member] at solid
      cases solid
  obtain ⟨lines, collected, reading, found, rfl⟩ := reading_of_accepted whole sound accepted
  exact ⟨text, lines, collected, rfl, reading, found, rfl⟩

/-! ## Entries -/

/-- The rows of a transaction behind an empty line are read from the beginning of a line on, and
nothing of them belongs to what stands before. -/
theorem Statement.reading_entry {transaction : Transaction} {date : Date} {lines : List Line}
    (reading : Reading .fileStart 0 ('\n' :: transaction.rows date) lines) :
    Reading .lineStart 0 ('\n' :: transaction.rows date) lines ∧ Progress.Closed lines := by
  rw [reading_emptyLine_iff (Or.inl rfl), Transaction.rows, reading_start_iff] at reading
  refine ⟨(reading_lineStart_iff 0 lines _ (Or.inl (rfl : ['\n'] = ['\n']))).mpr reading, ?_⟩
  have begins (rest : Text) : Begins Place.lineStart.expected (0 + 1) (date.iso ++ ' ' :: rest)
      ⟨.date, 0 + 1, date.iso⟩ (' ' :: rest) :=
    begins_date date ⟨' ', rest, rfl, Or.inl rfl⟩ (0 + 1)
  have leads : Place.lineStart.step ⟨.date, 0 + 1, date.iso⟩ =
      some (.dated ⟨.date, 0 + 1, date.iso⟩) := rfl
  rw [Transaction.row, List.append_assoc, List.cons_append,
    reading_leads_iff (begins _) rfl leads] at reading
  obtain ⟨line, more, rfl, dated⟩ := reading.isDated (.dated _)
  exact Or.inr dated.closes

/-- The text of a transaction ends with a line end. -/
theorem Transaction.getLast?_rows (transaction : Transaction) (date : Date) :
    ('\n' :: transaction.rows date).getLast? = some '\n' := by
  rw [Transaction.rows]
  cases transaction.postings using List.reverseRecOn with
  | nil => rw [List.flatMap_nil, ← List.cons_append, List.getLast?_concat]
  | append_singleton postings posting =>
    simp only [List.flatMap_append, List.flatMap_cons, List.flatMap_nil, List.append_nil]
    rw [← List.cons_append, ← List.cons_append, ← List.append_assoc, ← List.append_assoc,
      List.getLast?_concat]

/-- What begins at the first byte after an empty line has its own byte in its id further down. -/
theorem TransactionEntry.id_shift (entry : TransactionEntry) (start : entry.dateSpan.start = 1)
    (path : FilePath) (bytes : Nat) : ((entry.shift bytes).toRecord path).id =
      some (Identifier.encode ⟨path.toText, bytes + 1⟩) := by
  have offset : (entry.shift bytes).dateSpan.start.toNat = bytes + 1 := by
    simp only [TransactionEntry.shift, Span.shift, start]
    omega
  rw [TransactionEntry.toRecord, offset]

/-- A path that can be written leads to a place with its last name. -/
theorem Disk.Writable.ordinary {disk : Disk} {path : FilePath} {place beside : Location}
    (writable : disk.Writable path place beside)
    (lasting : Disk.temporaryEnding.isSuffixOf path.name = false) :
    Disk.isTemporary place = false := by
  have parts : path.names = path.names.dropLast ++ [path.name] := by
    conv_lhs => rw [← List.dropLast_append_getLast writable.named]
    rw [FilePath.name, List.getLast?_eq_some_getLast writable.named, Option.getD_some]
  have walked := Disk.walk_of_place writable.leads
  rw [parts] at walked
  rw [Disk.isTemporary, Disk.getLast_walk writable.plain walked]
  exact lasting

/-- Including a file leaves what a file holds, but for the line that includes the one in the
other if the other is the root file. -/
theorem ensureIncluded_outcome {before after : Disk} (fresh : before.Fresh) {root path : FilePath}
    {place : Location} {fileName text : Text} {result : Except Failure Bool}
    (leads : before.place path = .ok place)
    (held : before.entry? place = some (.file (Text.Utf8.encode text)))
    (ended : text.getLast? = some '\n')
    (ran : (ensureIncluded root fileName).outcome before = (result, after)) :
    ∃ more, (more = [] ∨ more = rootText [fileName]) ∧
      ∀ label, readBytes label path after = .ok (Text.Utf8.encode (text ++ more)) := by
  have unchanged : ∀ label, readBytes label path before = .ok (Text.Utf8.encode (text ++ [])) :=
    fun label => readBytes_eq_ok_iff.mpr ⟨place, leads, by rw [List.append_nil, held]⟩
  cases result with
  | error failure =>
    obtain rfl := ensureIncluded_failed fresh (Trail.start before) ran
    exact ⟨[], Or.inl rfl, unchanged⟩
  | ok added =>
    obtain ⟨listed, read, ⟨_, rfl⟩ | ⟨_, goal, aside, able, further⟩⟩ :=
      ensureIncluded_filed fresh ran
    · exact ⟨[], Or.inl rfl, unchanged⟩
    have onward : after.place path = .ok place :=
      (Disk.place_eq_ok_iff further.changed _ _).mpr leads
    by_cases same : place = goal
    · -- The root file is the file itself, and ends with a line end.
      subst same
      obtain rfl : listed = text := by
        rcases readIfPresent_eq_ok_iff.mp read with ⟨other, led, file⟩ | ⟨absent, _⟩
        · obtain rfl : place = other := Except.ok.inj (able.leads.symm.trans led)
          rw [held] at file
          have bytes := congrArg Text.Utf8.decode (Entry.file.inj (Option.some.inj file))
          rw [Text.Utf8.decode_encode, Text.Utf8.decode_encode] at bytes
          exact (Except.ok.inj bytes).symm
        · rw [isPresent_of_entry able.leads held] at absent
          cases absent
      have gap : lineBreakAfter listed = [] := by
        rw [lineBreakAfter, ended]
        rfl
      refine ⟨rootText [fileName], Or.inr rfl, fun label =>
        readBytes_eq_ok_iff.mpr ⟨place, onward, ?_⟩⟩
      rw [further.entry, if_pos rfl, inclusionAfter, gap, rootText]
      simp
    · refine ⟨[], Or.inl rfl, fun label => readBytes_eq_ok_iff.mpr ⟨place, onward, ?_⟩⟩
      rw [further.entry, if_neg same, List.append_nil, held]

/-- An entry that has been appended stands behind what its file held; behind it there may be the
line that includes the file, if the file is the root file. -/
theorem appendEntry_outcome {before after : Disk} (fresh : before.Fresh) {directory : FilePath}
    {layout : Layout} {entry : RenderedEntry} {text : Text} {result : Except Failure FilePath}
    (lasting : Disk.temporaryEnding.isSuffixOf (directory.child entry.fileName).name = false)
    (ended : entry.text.getLast? = some '\n')
    (read : readIfPresent (directory.child entry.fileName) before = .ok (Text.Utf8.encode text))
    (ran : (appendEntry directory layout entry).outcome before = (result, after)) :
    (after = before ∧ ∃ failure, result = .error failure) ∨
      ∃ more, (more = [] ∨ more = rootText [entry.fileName]) ∧
        ∀ label, readBytes label (directory.child entry.fileName) after =
          .ok (Text.Utf8.encode (text ++ entry.text ++ more)) := by
  unfold appendEntry at ran
  rw [Storing.outcome_bind] at ran
  rcases appended : (appendBytes (directory.child entry.fileName)
    (Text.Utf8.encode entry.text)).outcome before with ⟨⟨failure⟩ | ⟨⟨⟩⟩, middle⟩
  · rw [appended] at ran
    cases ran
    rcases (Trail.start before).append fresh _ appended with ⟨_, _, same⟩ | ⟨done, _⟩
    · exact Or.inl ⟨same, failure, rfl⟩
    · cases done
  · rw [appended] at ran
    obtain ⟨content, place, beside, again, writable, filed⟩ := appendBytes_filed fresh appended
    obtain rfl : Text.Utf8.encode text = content := Except.ok.inj (read.symm.trans again)
    have leads : middle.place (directory.child entry.fileName) = .ok place :=
      (Disk.place_eq_ok_iff filed.changed _ _).mpr writable.leads
    have held : middle.entry? place = some (.file (Text.Utf8.encode (text ++ entry.text))) := by
      rw [filed.entry, if_pos rfl, Text.Utf8.encode_append]
    have whole : (text ++ entry.text).getLast? = some '\n' := by
      rw [List.getLast?_append, ended]
      rfl
    rcases included : (ensureIncluded (layout.rootPath directory) entry.fileName).outcome middle
      with ⟨added, last⟩
    obtain rfl : last = after := by
      simp only [Storing.outcome_bind, included] at ran
      cases added <;> cases ran <;> rfl
    exact Or.inr (ensureIncluded_outcome (filed.fresh fresh (writable.ordinary lasting)) leads held
      whole included)

/-- The line that includes a file is one directive. -/
theorem Progress.collect_inclusionLine (source : Source) (position : Nat) (fileName : Text) :
    collect source (inclusionLines position [fileName]) = .ok ⟨[.inclusion fileName
      (source.tokenSpan ⟨.quotedText, position + 8, Text.Quoted.encode fileName⟩)], []⟩ := by
  simp only [collect, inclusionLines, collectFrom, Pending.finish, bind, Except.bind,
    Text.Quoted.decode_encode, List.not_mem_nil, if_false]
  rfl

/-- The line that includes a file is a directive of its own behind any text. Where the text ends
with a line feed the line stands by itself; else a line feed is put before it, which ends the last
line. -/
theorem Page.ofText_inclusionAfter {path text : Text} {lines : List Line} {collected : Collected}
    (reading : Reading .fileStart 0 text lines)
    (whole : collect (Source.ofText path text) lines = .ok collected) (fileName : Text) :
    ∃ page span, ofText path (text ++ inclusionAfter text fileName) = .ok page ∧
      page.errors = [] ∧ page.directives = collected.directives ++ [.inclusion fileName span] := by
  have row : inclusionLine fileName ++ ['\n'] = rootText [fileName] := by simp [rootText]
  have closed (position : Nat) : Progress.Closed (inclusionLines position [fileName]) :=
    Or.inr trivial
  rcases lineBreakAfter_cases text with ⟨none, ended⟩ | feed
  · obtain ⟨all, warnings, joined, found⟩ := ofText_joined reading whole (Or.inr ended)
      (reading_rootText 0 [fileName]) (closed 0) (Progress.collect_inclusionLine _ 0 fileName)
    rw [inclusionAfter, none, List.nil_append, row]
    exact ⟨_, _, ofText_of_reading joined found, rfl, rfl⟩
  · have further : Reading .lineStart 0 ('\n' :: rootText [fileName])
        (inclusionLines 1 [fileName]) :=
      (reading_lineStart_iff 0 _ _ (Or.inl (rfl : ['\n'] = ['\n']))).mpr
        (reading_rootText 1 [fileName])
    obtain ⟨all, warnings, joined, found⟩ := ofText_joined reading whole (Or.inl ⟨_, rfl⟩)
      further (closed 1) (Progress.collect_inclusionLine _ 1 fileName)
    rw [inclusionAfter, feed, List.append_assoc, row, List.singleton_append]
    exact ⟨_, _, ofText_of_reading joined found, rfl, rfl⟩

/-- Behind a line end a file is included by its line alone. -/
theorem inclusionAfter_of_ended {text : Text} (ended : text.getLast? = some '\n')
    (fileName : Text) : inclusionAfter text fileName = rootText [fileName] := by
  simp [inclusionAfter, lineBreakAfter, ended, rootText]

/-- The line that includes a file is no transaction. -/
theorem Page.ofText_included {path text : Text} {lines : List Line} {collected : Collected}
    (reading : Reading .fileStart 0 text lines)
    (whole : collect (Source.ofText path text) lines = .ok collected)
    (ended : text.getLast? = some '\n') (fileName : Text) :
    ∃ page, ofText path (text ++ rootText [fileName]) = .ok page ∧ page.errors = [] ∧
      page.transactions = collected.directives.filterMap Directive.transaction? := by
  obtain ⟨page, span, found, sound, directives⟩ := ofText_inclusionAfter reading whole fileName
  rw [inclusionAfter_of_ended ended] at found
  refine ⟨page, found, sound, ?_⟩
  rw [transactions, directives, List.filterMap_append]
  exact List.append_nil _

/-- An entry is concatenated to what its file says. Wherever a file is empty or shows something and
is read without errors, the file with a rendered entry behind it is read without errors, and its
directives are those of the file, spans included, and then those of the entry, further down by the
length of the file. Whatever comes of adding the transaction to such a file, the file is what it was
or its records are those it had, ids included, and then those of the entry, and the one that begins
at the first byte after the empty line has that byte in its id. The entry begins on a line of its
own and with a date, so the reader is in the same state in front of it as in front of a file,
whatever the content left open is closed by the date, and only the spans have to be moved. -/
theorem addTransaction_concatenates {layout : Layout} {transaction : Transaction}
    {entry : RenderedEntry} (rendered : transaction.render layout = .ok entry)
    {path : FilePath} {content : Bytes} {page : Page}
    (paged : Page.ofBytes path content = .ok page) (sound : page.errors = [])
    (filled : content = [] ∨ ∃ text, Text.Utf8.decode content = .ok text ∧
      ∃ c ∈ text, Text.isBlank c = false) :
    ∃ said joined, Page.ofBytes path (Text.Utf8.encode entry.text) = .ok said ∧ said.errors = [] ∧
      Page.ofBytes path (content ++ Text.Utf8.encode entry.text) = .ok joined ∧
      joined.errors = [] ∧
      joined.directives = page.directives ++ said.directives.map (Directive.shift content.length) ∧
      (∀ found ∈ said.transactions, found.dateSpan.start = 1 →
        ((found.shift content.length).toRecord path).id =
          some (Identifier.encode ⟨path.toText, content.length + 1⟩)) ∧
      ∀ directory before result after, directory.child entry.fileName = path →
        Disk.temporaryEnding.isSuffixOf path.name = false → before.Fresh →
        readIfPresent path before = .ok content →
        (addTransaction directory layout transaction).outcome before = (result, after) →
        (after = before ∧ ∃ failure, result = .error failure) ∨
          ∃ now, readPage path after = .ok now ∧ now.records path = page.records path ++
            (said.transactions.map (TransactionEntry.shift content.length)).map
              (TransactionEntry.toRecord path) := by
  obtain ⟨date, read, named, solid, whole, checked, back⟩ :=
    Transaction.render_eq_ok_iff.mp rendered
  obtain ⟨parsed, clean⟩ := Page.read_eq_ok_iff.mp back
  rw [Page.ofBytes_encode, whole] at parsed
  obtain ⟨own, collected, reading, found, rfl⟩ :=
    Page.reading_of_visible parsed clean (transaction.visible date)
  obtain ⟨warned, renamed⟩ := reading.collect_renamed found path.toText
  obtain ⟨text, lines, earlier, rfl, readFront, collectFront, directives⟩ :=
    Page.reading_of_filled paged sound filled
  obtain ⟨behind, closed⟩ := reading_entry reading
  obtain ⟨all, warnings, readJoined, collectJoined⟩ :=
    Page.ofText_joined readFront collectFront (Or.inl ⟨_, rfl⟩) behind closed renamed
  refine ⟨_, _, by rw [Page.ofBytes_encode, whole]; exact Page.ofText_of_reading reading renamed, rfl,
    by rw [← Text.Utf8.encode_append, Page.ofBytes_encode, whole]
       exact Page.ofText_of_reading readJoined collectJoined, rfl, ?_, ?_, ?_⟩
  · rw [directives]
    rfl
  · exact fun found _ start => found.id_shift start path _
  · rintro directory before result after rfl lasting fresh present ran
    have ended := transaction.getLast?_rows date
    rw [← whole] at ended
    rw [addTransaction, Storing.outcome_bind, Storing.outcome_known, rendered] at ran
    rcases appendEntry_outcome fresh lasting ended present ran with unchanged | ⟨more, form, now⟩
    · exact Or.inl unchanged
    rw [← whole] at readJoined collectJoined
    have final : (text ++ entry.text).getLast? = some '\n' := by
      rw [List.getLast?_append, ended]
      rfl
    obtain ⟨page, found, sound, transactions⟩ : ∃ page,
        Page.ofText (directory.child entry.fileName).toText (text ++ entry.text ++ more) = .ok page ∧
        page.errors = [] ∧ page.transactions =
          (earlier.directives ++ collected.directives.map
            (Directive.shift (Text.Utf8.encode text).length)).filterMap Directive.transaction? := by
      rcases form with rfl | rfl
      · rw [List.append_nil]
        exact ⟨_, Page.ofText_of_reading readJoined collectJoined, rfl, rfl⟩
      · exact Page.ofText_included readJoined collectJoined final entry.fileName
    refine Or.inr ⟨page, bind_eq_ok_iff.mpr ⟨_, now _, Page.read_eq_ok_iff.mpr
      ⟨(Page.ofBytes_encode _ _).trans found, sound⟩⟩, ?_⟩
    rw [Page.records, transactions, List.filterMap_append, List.map_append,
      Directive.transactions_shift, Page.records, Page.transactions, Page.transactions, directives]
    rfl

/-- The text of a period file whose last line, a posting, has no end. -/
def Text.unended : Text := "2024-01-03 * \"Caf\u00e9\"\n  Assets:Cash  -2 EUR"

/-- A disk with such a file. -/
def Disk.withUnendedFile : Disk :=
  { current := []
    entries :=
      [(["data"], .folder), (["data", "2024-01.bean"], .file (Text.Utf8.encode Text.unended))] }

/-- A transaction that is added to such a file stands behind the one that was there, which has
kept its id. -/
theorem addTransaction_behindUnended : ∃ page entry after now further,
    Page.ofBytes (FilePath.ofText "data/2024-01.bean") (Text.Utf8.encode Text.unended) = .ok page ∧
    page.errors = [] ∧ Transaction.lunch.render {} = .ok entry ∧
    (addTransaction (FilePath.ofText "data") {} Transaction.lunch).outcome Disk.withUnendedFile =
      (.ok (FilePath.ofText "data/2024-01.bean"), after) ∧
    readPage (FilePath.ofText "data/2024-01.bean") after = .ok now ∧
    now.records (FilePath.ofText "data/2024-01.bean") =
      page.records (FilePath.ofText "data/2024-01.bean") ++ further := by
  have leads : Disk.withUnendedFile.place (FilePath.ofText "data/2024-01.bean") =
      .ok ["data", "2024-01.bean"] := by rfl
  have present : readIfPresent (FilePath.ofText "data/2024-01.bean") Disk.withUnendedFile =
      .ok (Text.Utf8.encode Text.unended) :=
    readIfPresent_eq_ok_iff.mpr (Or.inl ⟨_, leads, rfl⟩)
  have shown : ∃ text, Text.Utf8.decode (Text.Utf8.encode Text.unended) = .ok text ∧
      ∃ c ∈ text, Text.isBlank c = false :=
    ⟨Text.unended, Text.Utf8.decode_encode _, '2', by decide, by decide⟩
  have clean : ((Page.ofBytes (FilePath.ofText "data/2024-01.bean")
      (Text.Utf8.encode Text.unended)).toOption.any fun page => page.errors.isEmpty) = true := by
    decide +kernel
  have done : ((addTransaction (FilePath.ofText "data") {} Transaction.lunch).outcome
      Disk.withUnendedFile).1.toOption = some (FilePath.ofText "data/2024-01.bean") := by
    decide +kernel
  obtain ⟨page, paged, clean⟩ := exists_of_any clean
  rcases ran : (addTransaction (FilePath.ofText "data") {} Transaction.lunch).outcome
    Disk.withUnendedFile with ⟨failure | place, after⟩
  · rw [ran] at done
    cases done
  rw [ran] at done
  have sound : page.errors = [] := List.isEmpty_iff.mp clean
  have led : place = FilePath.ofText "data/2024-01.bean" := Option.some.inj done
  obtain ⟨entry, _, known, appended⟩ := Storing.outcome_bind_eq_ok_iff.mp ran
  obtain ⟨rendered, rfl⟩ := Storing.outcome_known_eq_iff.mp known
  have same := appendEntry_path appended
  rw [led] at same
  obtain ⟨said, joined, _, _, _, _, _, _, adds⟩ :=
    addTransaction_concatenates rendered paged sound (Or.inr shown)
  rcases adds (FilePath.ofText "data") Disk.withUnendedFile _ after same.symm (by decide +kernel)
    (by decide +kernel) present ran with ⟨_, _, impossible⟩ | ⟨now, read, records⟩
  · cases impossible
  · exact ⟨page, entry, after, now, _, paged, sound, rendered, by rw [led], read, records⟩

end Daybook
