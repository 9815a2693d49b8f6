import Daybook.Directive.Collecting
import Daybook.Proofs.Result

/-!
# Collecting line by line

Collecting is a recursion that puts the directives of a line before those of the lines after
it. Here it is a run of a machine with two things to remember, the directive that is open and
the paths included so far. Each line takes the machine one step further and yields the
directives it closes and the warnings it causes. So the lines of a file can be divided
anywhere, and what is collected from the parts put together.
-/
namespace Daybook

namespace Collected

/-- Nothing at all. -/
def nothing : Collected := ⟨[], []⟩

/-- What two sequences of statements amount to, one after the other. -/
def append (first second : Collected) : Collected :=
  ⟨first.directives ++ second.directives, first.warnings ++ second.warnings⟩

/-- The directives of two collections laid end to end are those of the first and then those of the
second. -/
@[simp] theorem append_directives (first second : Collected) :
    (first.append second).directives = first.directives ++ second.directives := rfl

/-- Warnings concatenate like the directives, in the order in which the statements gave rise to
them. -/
@[simp] theorem append_warnings (first second : Collected) :
    (first.append second).warnings = first.warnings ++ second.warnings := rfl

/-- Nothing collected in front changes nothing. -/
@[simp] theorem nothing_append (collected : Collected) : nothing.append collected = collected :=
  rfl

/-- Nothing collected behind changes nothing: with `nothing_append` and `append_assoc`, collections
form a monoid, and the collection of a page is the product over its statements. -/
@[simp] theorem append_nothing (collected : Collected) : collected.append nothing = collected := by
  simp [append, nothing]

/-- Collecting is associative, so a page can be divided at any statement. -/
theorem append_assoc (first second third : Collected) :
    (first.append second).append third = first.append (second.append third) := by
  simp [append]

end Collected

/-- What collecting remembers between two lines. -/
structure Progress where
  pending : Pending
  included : List Phrase

/-- Goes on with one line: what is remembered after it, and what it yields. -/
def Progress.advance (source : Source) (progress : Progress) (line : Line) :
    Except Failure (Progress × Collected) :=
  let byte := source.offsets.byte
  let opening (pending : Pending) : Except Failure (Progress × Collected) :=
    (progress.pending.finish source).map fun closed =>
      (⟨pending, progress.included⟩, ⟨closed, []⟩)
  match line.statement with
  | .remark => .ok (progress, .nothing)
  | .transaction heading =>
    opening (.transaction heading [] (byte (line.stop heading.stop)))
  | .opening date account currencies stop =>
    opening (.account (Directive.opening date.text account.text (currencies.map Token.text)
      (source.tokenSpan date)) (source.span date.start (line.stop stop)))
  | .closing date account =>
    opening (.account (Directive.closing date.text account.text (source.tokenSpan date))
      (source.span date.start (line.stop account.stop)))
  | .otherDated => opening .other
  | .otherUndated => opening .nothing
  | .posting posting =>
    match progress.pending with
    | .transaction heading postings stop =>
      let entry := PostingEntry.ofLine source posting line.comment
      .ok (⟨.transaction heading (postings ++ [entry]) (max stop entry.span.stop),
        progress.included⟩, .nothing)
    | _ =>
      .ok (progress,
        ⟨[], [source.warn posting.first "Posting outside of a transaction"]⟩)
  | .metadata key stop =>
    match progress.pending with
    | .nothing =>
      .ok (progress, ⟨[], [source.warn key "Metadata outside of a directive"]⟩)
    | pending =>
      .ok (⟨pending.extend (byte (line.stop stop)), progress.included⟩, .nothing)
  | .inclusion token =>
    let path := Text.Quoted.decode token.text
    (progress.pending.finish source).map fun closed =>
      (⟨.nothing, path :: progress.included⟩,
        ⟨closed ++ [.inclusion path (source.tokenSpan token)],
          if path ∈ progress.included then
            [source.warn token ("Duplicate include of " ++ path.shown)]
          else []⟩)

/-- Goes on with several lines. -/
def Progress.advanceAll (source : Source) (progress : Progress) :
    List Line → Except Failure (Progress × Collected)
  | [] => .ok (progress, .nothing)
  | line :: rest => do
    let (next, first) ← progress.advance source line
    let (last, others) ← next.advanceAll source rest
    return (last, first.append others)

/-- The date of the transaction that is open. -/
def Pending.date? : Pending → Option Token
  | .transaction heading _ _ => some heading.date
  | _ => none

/-- What is made of an opening or a closing is no transaction. -/
def Pending.Sound : Pending → Prop
  | .account make _ => ∀ span entry, make span ≠ .transaction entry
  | _ => True

/-- The date of the transaction that a line begins. -/
def Line.date? (line : Line) : Option Token :=
  match line.statement with
  | .transaction heading => some heading.date
  | _ => none

namespace Progress

variable {source : Source}

/-- A line that closes the open directive and opens another one. -/
theorem opened_eq (closing : Except Failure (List Directive)) (next : Progress)
    (rest : List Line) :
    (do
      let closed ← closing
      let others ← collectFrom source next.pending next.included rest
      return others.after closed) =
    (closing.map fun closed => (next, (⟨closed, []⟩ : Collected))).bind fun (next, first) =>
      (collectFrom source next.pending next.included rest).map first.append := by
  cases closing with
  | error failure => rfl
  | ok closed =>
    change Except.bind (collectFrom source next.pending next.included rest) _ =
      Except.map _ (collectFrom source next.pending next.included rest)
    cases collectFrom source next.pending next.included rest <;> rfl

/-- A line that causes a warning and changes nothing else. -/
theorem warned_eq (warning : Diagnostic) (progress : Progress) (rest : List Line) :
    (do
      let others ← collectFrom source progress.pending progress.included rest
      return others.warned warning) =
    (Except.ok (progress, (⟨[], [warning]⟩ : Collected))).bind fun (next, first) =>
      (collectFrom source next.pending next.included rest).map first.append := by
  change Except.bind (collectFrom source progress.pending progress.included rest) _ =
    Except.map _ (collectFrom source progress.pending progress.included rest)
  cases collectFrom source progress.pending progress.included rest <;> rfl

/-- A line that yields nothing. -/
theorem silent_eq (next : Progress) (rest : List Line) :
    collectFrom source next.pending next.included rest =
      (Except.ok (next, Collected.nothing)).bind fun (next, first) =>
        (collectFrom source next.pending next.included rest).map first.append := by
  change _ = Except.map _ (collectFrom source next.pending next.included rest)
  cases collectFrom source next.pending next.included rest <;> rfl

/-- Collecting from more lines is collecting from the others after going on with the first. This
turns the recursion of `collectFrom`, which has a branch for each statement and state, into one step
and the rest, and all inductions on lines use it in its place. -/
theorem collectFrom_eq (progress : Progress) (line : Line) (rest : List Line) :
    collectFrom source progress.pending progress.included (line :: rest) =
      (progress.advance source line).bind fun (next, first) =>
        (collectFrom source next.pending next.included rest).map first.append := by
  obtain ⟨pending, included⟩ := progress
  rw [collectFrom.eq_def]
  cases statement : line.statement with
  | remark =>
    simp only [advance, statement]
    exact silent_eq ⟨pending, included⟩ rest
  | transaction heading =>
    simp only [advance, statement]
    exact opened_eq _ ⟨_, included⟩ rest
  | opening date account currencies stop =>
    simp only [advance, statement]
    exact opened_eq _ ⟨_, included⟩ rest
  | closing date account =>
    simp only [advance, statement]
    exact opened_eq _ ⟨_, included⟩ rest
  | otherDated =>
    simp only [advance, statement]
    exact opened_eq _ ⟨_, included⟩ rest
  | otherUndated =>
    simp only [advance, statement]
    exact opened_eq _ ⟨_, included⟩ rest
  | posting posting =>
    simp only [advance, statement]
    cases pending with
    | transaction heading postings stop => exact silent_eq ⟨_, included⟩ rest
    | nothing => exact warned_eq _ ⟨_, included⟩ rest
    | account make span => exact warned_eq _ ⟨_, included⟩ rest
    | other => exact warned_eq _ ⟨_, included⟩ rest
  | metadata key stop =>
    simp only [advance, statement]
    cases pending with
    | nothing => exact warned_eq _ ⟨_, included⟩ rest
    | transaction heading postings stop => exact silent_eq ⟨_, included⟩ rest
    | account make span => exact silent_eq ⟨_, included⟩ rest
    | other => exact silent_eq ⟨_, included⟩ rest
  | inclusion token =>
    simp only [advance, statement]
    cases pending.finish source with
    | error failure => rfl
    | ok closed =>
      change Except.bind (collectFrom source _ _ rest) _ =
        Except.map _ (collectFrom source _ _ rest)
      cases collectFrom source .nothing (Text.Quoted.decode token.text :: included) rest with
      | error failure => rfl
      | ok others =>
        simp only [Except.bind, Except.map]
        split
        · rfl
        · rfl

/-- What is collected from more lines comes from the first one and from the others. -/
theorem collectFrom_cons_iff (progress : Progress) {line : Line} {rest : List Line}
    {collected : Collected} :
    collectFrom source progress.pending progress.included (line :: rest) = .ok collected ↔
      ∃ next first others, progress.advance source line = .ok (next, first) ∧
        collectFrom source next.pending next.included rest = .ok others ∧
        collected = first.append others := by
  rw [collectFrom_eq]
  constructor
  · intro whole
    obtain ⟨⟨next, first⟩, advanced, further⟩ := bind_eq_ok_iff.mp whole
    obtain ⟨others, collected, rfl⟩ := map_eq_ok_iff.mp further
    exact ⟨next, first, others, advanced, collected, rfl⟩
  · rintro ⟨next, first, others, advanced, further, rfl⟩
    exact bind_eq_ok_iff.mpr ⟨(next, first), advanced, map_eq_ok_iff.mpr ⟨others, further, rfl⟩⟩

/-- Going on with more lines is going on with the first one and with the others. -/
theorem advanceAll_cons_iff {progress last : Progress} {line : Line} {rest : List Line}
    {collected : Collected} :
    progress.advanceAll source (line :: rest) = .ok (last, collected) ↔
      ∃ next first others, progress.advance source line = .ok (next, first) ∧
        next.advanceAll source rest = .ok (last, others) ∧ collected = first.append others := by
  constructor
  · intro whole
    obtain ⟨⟨next, first⟩, advanced, further⟩ := bind_eq_ok_iff.mp whole
    obtain ⟨⟨last, others⟩, collected, same⟩ := bind_eq_ok_iff.mp further
    cases same
    exact ⟨next, first, others, advanced, collected, rfl⟩
  · rintro ⟨next, first, others, advanced, further, rfl⟩
    exact bind_eq_ok_iff.mpr ⟨(next, first), advanced,
      bind_eq_ok_iff.mpr ⟨(last, others), further, rfl⟩⟩

/-- What is collected from the lines of two parts comes from the one and from the other. What the
first part leaves open is all that the second part has to know of it, together with the paths that
have been included. -/
theorem collectFrom_append_iff {progress : Progress} {lines rest : List Line}
    {collected : Collected} :
    collectFrom source progress.pending progress.included (lines ++ rest) = .ok collected ↔
      ∃ next first others, progress.advanceAll source lines = .ok (next, first) ∧
        collectFrom source next.pending next.included rest = .ok others ∧
        collected = first.append others := by
  induction lines generalizing progress collected with
  | nil =>
    constructor
    · intro whole
      exact ⟨progress, .nothing, collected, rfl, whole, rfl⟩
    · rintro ⟨next, first, others, advanced, further, rfl⟩
      cases advanced
      exact further
  | cons line lines ih =>
    rw [List.cons_append, collectFrom_cons_iff]
    constructor
    · rintro ⟨next, first, others, advanced, further, rfl⟩
      obtain ⟨last, more, final, advancedAll, finished, rfl⟩ := ih.mp further
      exact ⟨last, first.append more, final,
        advanceAll_cons_iff.mpr ⟨next, first, more, advanced, advancedAll, rfl⟩, finished,
        (Collected.append_assoc _ _ _).symm⟩
    · rintro ⟨last, both, final, advancedAll, finished, rfl⟩
      obtain ⟨next, first, more, advanced, further, rfl⟩ := advanceAll_cons_iff.mp advancedAll
      exact ⟨next, first, more.append final, advanced,
        ih.mpr ⟨last, more, final, further, finished, rfl⟩, Collected.append_assoc _ _ _⟩

/-- A line closes the directive that is open: it is no remark and belongs to no directive. -/
def Closes (line : Line) : Prop :=
  match line.statement with
  | .remark => False
  | .posting _ => False
  | .metadata _ _ => False
  | _ => True

/-- What a closing line opens and says does not depend on what it closes. So the state behind such a
line is the same whatever came before, which is what lets a file be divided in front of it. -/
theorem advance_closes {line : Line} (closes : Closes line) (source : Source)
    (included : List Phrase) : ∃ next directives warnings, ∀ pending : Pending,
      advance source ⟨pending, included⟩ line = (pending.finish source).map fun closed =>
        (next, (⟨closed ++ directives, warnings⟩ : Collected)) := by
  unfold Closes at closes
  cases statement : line.statement with
  | remark =>
    rw [statement] at closes
    exact closes.elim
  | posting posting =>
    rw [statement] at closes
    exact closes.elim
  | metadata key stop =>
    rw [statement] at closes
    exact closes.elim
  | inclusion token =>
    refine ⟨⟨.nothing, Text.Quoted.decode token.text :: included⟩,
      [.inclusion (Text.Quoted.decode token.text) (source.tokenSpan token)],
      if Text.Quoted.decode token.text ∈ included then
        [source.warn token ("Duplicate include of " ++ (Text.Quoted.decode token.text).shown)]
      else [], fun pending => ?_⟩
    simp only [advance, statement]
  | transaction heading =>
    refine ⟨⟨.transaction heading [] (source.offsets.byte (line.stop heading.stop)), included⟩,
      [], [], fun pending => ?_⟩
    simp only [advance, statement, List.append_nil]
  | opening date account currencies stop =>
    refine ⟨⟨.account (Directive.opening date.text account.text (currencies.map Token.text)
      (source.tokenSpan date)) (source.span date.start (line.stop stop)), included⟩,
      [], [], fun pending => ?_⟩
    simp only [advance, statement, List.append_nil]
  | closing date account =>
    refine ⟨⟨.account (Directive.closing date.text account.text (source.tokenSpan date))
      (source.span date.start (line.stop account.stop)), included⟩, [], [], fun pending => ?_⟩
    simp only [advance, statement, List.append_nil]
  | otherDated =>
    refine ⟨⟨.other, included⟩, [], [], fun pending => ?_⟩
    simp only [advance, statement, List.append_nil]
  | otherUndated =>
    refine ⟨⟨.nothing, included⟩, [], [], fun pending => ?_⟩
    simp only [advance, statement, List.append_nil]

/-- Nothing more can belong to the directive that is open: the first line that is no remark
closes it. -/
def Closed : List Line → Prop
  | [] => True
  | line :: rest => (line.statement = .remark ∧ Closed rest) ∨ Closes line

/-- Where nothing more can belong to the open directive, it comes before everything else. Remarks in
between neither belong to it nor close it, so the induction goes on over them until a closing line
or the end is reached. -/
theorem collectFrom_closed {pending : Pending} {included : List Phrase} {lines : List Line}
    (closed : Closed lines) {collected : Collected} :
    collectFrom source pending included lines = .ok collected ↔
      ∃ directives others, pending.finish source = .ok directives ∧
        collectFrom source .nothing included lines = .ok others ∧
        collected = (⟨directives, []⟩ : Collected).append others := by
  induction lines generalizing collected with
  | nil =>
    constructor
    · intro whole
      obtain ⟨directives, finished, same⟩ := bind_eq_ok_iff.mp whole
      cases same
      exact ⟨directives, ⟨[], []⟩, finished, rfl, by simp [Collected.append]⟩
    · rintro ⟨directives, others, finished, nothing, rfl⟩
      cases nothing
      exact bind_eq_ok_iff.mpr ⟨directives, finished, by simp [Collected.append]; rfl⟩
  | cons line rest ih =>
    rcases closed with ⟨remark, closed⟩ | closes
    · have skip (pending : Pending) : collectFrom source pending included (line :: rest) =
          collectFrom source pending included rest := by
        rw [collectFrom.eq_def]
        simp only [remark]
      rw [skip, skip]
      exact ih closed
    · obtain ⟨next, more, warnings, advanced⟩ := advance_closes closes source included
      constructor
      · intro whole
        obtain ⟨_, _, others, stepped, further, rfl⟩ :=
          (collectFrom_cons_iff ⟨pending, included⟩).mp whole
        rw [advanced] at stepped
        obtain ⟨directives, finished, same⟩ := map_eq_ok_iff.mp stepped
        cases same
        have alone : advance source ⟨.nothing, included⟩ line = .ok (next, ⟨more, warnings⟩) := by
          rw [advanced]
          rfl
        refine ⟨directives, _, finished, (collectFrom_cons_iff ⟨.nothing, included⟩).mpr
          ⟨_, _, others, alone, further, rfl⟩, ?_⟩
        simp [Collected.append]
      · rintro ⟨directives, others, finished, alone, rfl⟩
        obtain ⟨_, _, others, stepped, further, rfl⟩ :=
          (collectFrom_cons_iff ⟨.nothing, included⟩).mp alone
        rw [advanced] at stepped
        cases stepped
        refine (collectFrom_cons_iff ⟨pending, included⟩).mpr
          ⟨next, ⟨directives ++ more, warnings⟩, others, ?_, further, ?_⟩
        · rw [advanced, finished]
          rfl
        · simp [Collected.append]

/-- A posting goes to the transaction that is open. -/
theorem advance_posting {heading : Heading} {postings : List PostingEntry} {stop : Int}
    {included : List Phrase} {line : Line} {posting : PostingLine}
    (statement : line.statement = .posting posting) :
    advance source ⟨.transaction heading postings stop, included⟩ line =
      .ok (⟨.transaction heading (postings ++ [PostingEntry.ofLine source posting line.comment])
        (max stop (PostingEntry.ofLine source posting line.comment).span.stop), included⟩,
        .nothing) := by
  simp only [advance, statement]

/-- A metadata line goes to the transaction that is open. -/
theorem advance_metadata {heading : Heading} {postings : List PostingEntry} {stop : Int}
    {included : List Phrase} {line : Line} {key : Token} {keyStop : Nat}
    (statement : line.statement = .metadata key keyStop) :
    advance source ⟨.transaction heading postings stop, included⟩ line =
      .ok (⟨.transaction heading postings (max stop (source.offsets.byte (line.stop keyStop))),
        included⟩, .nothing) := by
  simp only [advance, statement, Pending.extend]

/-- A line that does not close keeps the transaction open and yields nothing. What it adds does not
depend on the heading. -/
theorem advance_attached {line : Line} (belongs : ¬ Closes line) (source : Source)
    (postings : List PostingEntry) (stop : Int) : ∃ more later, ∀ heading included,
      advance source ⟨.transaction heading postings stop, included⟩ line =
        .ok (⟨.transaction heading more later, included⟩, .nothing) := by
  cases statement : line.statement with
  | remark => exact ⟨postings, stop, fun heading included => by simp only [advance, statement]⟩
  | posting posting => exact ⟨_, _, fun heading included => advance_posting statement⟩
  | metadata key keyStop => exact ⟨_, _, fun heading included => advance_metadata statement⟩
  | _ => simp [Closes, statement] at belongs

/-- Lines that belong to a transaction add the same to it whatever its heading is. -/
theorem advanceAll_attached {lines : List Line} (belong : ∀ line ∈ lines, ¬ Closes line)
    (source : Source) (postings : List PostingEntry) (stop : Int) : ∃ all last,
      ∀ heading included, advanceAll source ⟨.transaction heading postings stop, included⟩ lines =
        .ok (⟨.transaction heading all last, included⟩, .nothing) := by
  induction lines generalizing postings stop with
  | nil => exact ⟨postings, stop, fun _ _ => rfl⟩
  | cons line rest ih =>
    obtain ⟨own, others⟩ := List.forall_mem_cons.mp belong
    obtain ⟨more, later, keeps⟩ := advance_attached own source postings stop
    obtain ⟨all, last, further⟩ := ih others more later
    exact ⟨all, last, fun heading included =>
      advanceAll_cons_iff.mpr ⟨_, _, _, keeps heading included, further heading included, rfl⟩⟩

/-- Lines that belong to the directive before them, down to the last line that does. -/
structure Attached (lines : List Line) : Prop where
  each : ∀ line ∈ lines, ¬ Closes line
  last : ∀ line ∈ lines.getLast?, line.statement ≠ .remark

/-- A line in front of lines that belong to a directive belongs to it with them, unless it is a
remark that nothing follows. -/
theorem Attached.cons {line : Line} {lines : List Line} (attached : Attached lines)
    (belongs : ¬ Closes line) (followed : lines = [] → line.statement ≠ .remark) :
    Attached (line :: lines) := by
  refine ⟨List.forall_mem_cons.mpr ⟨belongs, attached.each⟩, ?_⟩
  cases lines with
  | nil =>
    rintro one ⟨⟩
    exact followed rfl
  | cons other lines =>
    rw [List.getLast?_cons_cons]
    exact attached.last

/-- A transaction that nothing more can belong to is closed alone, before everything else. -/
theorem collectFrom_closed_transaction {heading : Heading} {postings : List PostingEntry}
    {stop : Int} {included : List Phrase} {lines : List Line} {collected : Collected}
    (closed : Closed lines)
    (whole : collectFrom source (.transaction heading postings stop) included lines =
      .ok collected) :
    ∃ entry others,
      Pending.finish source (.transaction heading postings stop) = .ok [.transaction entry] ∧
      collectFrom source .nothing included lines = .ok others ∧
      collected = (⟨[.transaction entry], []⟩ : Collected).append others := by
  obtain ⟨directives, others, finished, further, rfl⟩ := (collectFrom_closed closed).mp whole
  obtain ⟨entry, rfl⟩ : ∃ entry, directives = [.transaction entry] := by
    simp only [Pending.finish] at finished
    split at finished
    · cases finished
    · cases finished
      exact ⟨_, rfl⟩
  exact ⟨entry, others, finished, further, rfl⟩

/-- An open transaction takes the lines that belong to it and comes before everything else. The
lines are divided at the first one that closes the transaction. Those before it are read with the
transaction open, those behind it as if it had never been there. -/
theorem collectFrom_transaction {heading : Heading} {postings : List PostingEntry} {stop : Int}
    {included : List Phrase} {lines : List Line} {collected : Collected}
    (whole : collectFrom source (.transaction heading postings stop) included lines =
      .ok collected) :
    ∃ attached after allPostings furthest entry others, lines = attached ++ after ∧
      Attached attached ∧ Closed after ∧
      advanceAll source ⟨.transaction heading postings stop, included⟩ attached =
        .ok (⟨.transaction heading allPostings furthest, included⟩, .nothing) ∧
      Pending.finish source (.transaction heading allPostings furthest) =
        .ok [.transaction entry] ∧
      collectFrom source .nothing included after = .ok others ∧
      collected = (⟨[.transaction entry], []⟩ : Collected).append others := by
  induction lines generalizing postings stop collected with
  | nil =>
    obtain ⟨entry, others, finished, further, rfl⟩ :=
      collectFrom_closed_transaction (show Closed [] from trivial) whole
    exact ⟨[], [], postings, stop, entry, others, rfl, ⟨by simp, by simp⟩, trivial, rfl,
      finished, further, rfl⟩
  | cons line rest ih =>
    by_cases closes : Closes line
    · obtain ⟨entry, others, finished, further, rfl⟩ :=
        collectFrom_closed_transaction (show Closed (line :: rest) from Or.inr closes) whole
      exact ⟨[], line :: rest, postings, stop, entry, others, rfl, ⟨by simp, by simp⟩,
        Or.inr closes, rfl, finished, further, rfl⟩
    obtain ⟨next, first, others, stepped, further, rfl⟩ :=
      (collectFrom_cons_iff ⟨.transaction heading postings stop, included⟩).mp whole
    obtain ⟨morePostings, later, keeps⟩ := advance_attached closes source postings stop
    rw [keeps] at stepped
    cases stepped
    obtain ⟨attached, after, allPostings, furthest, entry, final, rfl, shape, closed, advanced,
      finished, remaining, rfl⟩ := ih further
    by_cases empty : attached = [] ∧ line.statement = .remark
    · obtain ⟨rfl, remark⟩ := empty
      have still := keeps heading included
      simp only [advance, remark] at still
      cases still
      cases advanced
      refine ⟨[], line :: after, postings, stop, entry, final, rfl, ⟨by simp, by simp⟩,
        Or.inl ⟨remark, closed⟩, rfl, finished, ?_, rfl⟩
      rw [collectFrom.eq_def]
      simp only [remark]
      exact remaining
    · exact ⟨line :: attached, after, allPostings, furthest, entry, final, rfl,
        shape.cons closes fun none remark => empty ⟨none, remark⟩, closed,
        advanceAll_cons_iff.mpr ⟨_, _, _, keeps _ _, advanced, rfl⟩, finished, remaining, rfl⟩

/-! ## Where transactions come from -/

/-- A transaction that is closed is closed alone and has the date with which it was opened. There is
at most one directive that is open, so nothing comes before the one that is closed. -/
theorem date_of_finish {pending : Pending} (sound : pending.Sound)
    {before after : List Directive} {entry : TransactionEntry}
    (finished : pending.finish source = .ok (before ++ .transaction entry :: after)) :
    before = [] ∧ ∃ date ∈ pending.date?, entry.dateSpan = source.tokenSpan date := by
  have alone {directive : Directive}
      (only : [directive] = before ++ .transaction entry :: after) :
      before = [] ∧ directive = .transaction entry := by
    cases before with
    | nil => exact ⟨rfl, (List.cons.inj only).1⟩
    | cons first before =>
      have more := congrArg List.length only
      simp at more
  cases pending with
  | nothing => simp [Pending.finish] at finished
  | other => simp [Pending.finish] at finished
  | account make span =>
    simp only [Pending.finish, Except.ok.injEq] at finished
    exact absurd (alone finished).2 (sound span entry)
  | transaction heading postings stop =>
    simp only [Pending.finish] at finished
    split at finished
    · cases finished
    · obtain ⟨first, same⟩ := alone (Except.ok.inj finished)
      obtain rfl := Directive.transaction.inj same
      exact ⟨first, heading.date, rfl, rfl⟩

/-- What one line does to the transaction that is open: a transaction that it yields is the one
that was open, a transaction that is open afterwards was open before or begins with the line,
and if it was open before then nothing is yielded. -/
structure Dated (source : Source) (progress : Progress) (line : Line) (next : Progress)
    (yielded : Collected) : Prop where
  yields : ∀ before entry after, yielded.directives = before ++ .transaction entry :: after →
    before = [] ∧ ∃ date ∈ progress.pending.date?, entry.dateSpan = source.tokenSpan date
  opens : ∀ date ∈ next.pending.date?,
    (date ∈ progress.pending.date? ∧ yielded.directives = []) ∨ date ∈ line.date?
  sound : next.pending.Sound

/-- A transaction that a closing line yields is the one that was open, if the line yields none
itself. What the line itself yields comes behind what it closes, so a transaction at the front can
only be the one that was open. -/
theorem yields_of_closing {pending : Pending} {opened next : Progress} {yielded : Collected}
    (more : List Directive) (warnings : List Diagnostic) (sound : pending.Sound)
    (plain : ∀ entry, .transaction entry ∉ more)
    (stepped : (pending.finish source).map (fun closed =>
      (opened, (⟨closed ++ more, warnings⟩ : Collected))) = .ok (next, yielded)) :
    next = opened ∧ ∀ before entry after,
      yielded.directives = before ++ .transaction entry :: after →
      before = [] ∧ ∃ date ∈ pending.date?, entry.dateSpan = source.tokenSpan date := by
  obtain ⟨closed, finished, same⟩ := map_eq_ok_iff.mp stepped
  cases same
  refine ⟨rfl, fun before entry after parts => ?_⟩
  rcases List.append_eq_append_iff.mp parts with ⟨middle, _, later⟩ | ⟨middle, early, later⟩
  · exact absurd (later ▸ List.mem_append_right _ List.mem_cons_self) (plain entry)
  · cases middle with
    | nil =>
      rw [List.nil_append] at later
      exact absurd (later ▸ List.mem_cons_self) (plain entry)
    | cons first middle =>
      obtain rfl := (List.cons.inj later).1
      exact date_of_finish sound (early ▸ finished)

/-- Every line does no more to the transaction that is open. One case for each statement. Only those
that close something need an argument, and they share `yields_of_closing`; the others change what is
open and yield nothing. -/
theorem dated_of_advance {progress next : Progress} {line : Line} {yielded : Collected}
    (sound : progress.pending.Sound)
    (stepped : progress.advance source line = .ok (next, yielded)) :
    Dated source progress line next yielded := by
  obtain ⟨pending, included⟩ := progress
  -- The lines that open something yield nothing themselves.
  have opens {opened : Progress}
      (stepped : (pending.finish source).map (fun closed =>
        (opened, (⟨closed, []⟩ : Collected))) = .ok (next, yielded)) :
      next = opened ∧ ∀ before entry after,
        yielded.directives = before ++ .transaction entry :: after →
        before = [] ∧ ∃ date ∈ pending.date?, entry.dateSpan = source.tokenSpan date := by
    refine yields_of_closing [] [] sound (by simp) ?_
    simpa using stepped
  cases statement : line.statement with
  | remark =>
    simp only [advance, statement] at stepped
    cases stepped
    exact ⟨by simp [Collected.nothing], fun date member => Or.inl ⟨member, rfl⟩, sound⟩
  | transaction heading =>
    simp only [advance, statement] at stepped
    obtain ⟨rfl, yields⟩ := opens stepped
    refine ⟨yields, ?_, trivial⟩
    rintro _ ⟨⟩
    exact Or.inr (by simp [Line.date?, statement])
  | opening date account currencies stop =>
    simp only [advance, statement] at stepped
    obtain ⟨rfl, yields⟩ := opens stepped
    exact ⟨yields, by simp [Pending.date?], by simp [Pending.Sound]⟩
  | closing date account =>
    simp only [advance, statement] at stepped
    obtain ⟨rfl, yields⟩ := opens stepped
    exact ⟨yields, by simp [Pending.date?], by simp [Pending.Sound]⟩
  | otherDated =>
    simp only [advance, statement] at stepped
    obtain ⟨rfl, yields⟩ := opens stepped
    exact ⟨yields, by simp [Pending.date?], trivial⟩
  | otherUndated =>
    simp only [advance, statement] at stepped
    obtain ⟨rfl, yields⟩ := opens stepped
    exact ⟨yields, by simp [Pending.date?], trivial⟩
  | inclusion token =>
    simp only [advance, statement] at stepped
    obtain ⟨rfl, yields⟩ := yields_of_closing _ _ sound (by simp) stepped
    exact ⟨yields, by simp [Pending.date?], trivial⟩
  | posting posting =>
    cases pending with
    | transaction heading postings stop =>
      rw [advance_posting statement] at stepped
      cases stepped
      exact ⟨by simp [Collected.nothing], fun date member => Or.inl ⟨member, rfl⟩, trivial⟩
    | _ =>
      simp only [advance, statement] at stepped
      cases stepped
      exact ⟨by simp, fun date member => Or.inl ⟨member, rfl⟩, sound⟩
  | metadata key stop =>
    cases pending with
    | nothing =>
      simp only [advance, statement] at stepped
      cases stepped
      exact ⟨by simp, fun date member => Or.inl ⟨member, rfl⟩, sound⟩
    | _ =>
      simp only [advance, statement] at stepped
      cases stepped
      exact ⟨by simp [Collected.nothing], fun date member => Or.inl ⟨member, rfl⟩, sound⟩

/-- What several lines yield: every transaction in it was open before them or begins with one of
them, and so does a transaction that is open afterwards. -/
theorem dates_of_advanceAll {progress last : Progress} {lines : List Line} {yielded : Collected}
    (sound : progress.pending.Sound)
    (advanced : progress.advanceAll source lines = .ok (last, yielded)) :
    (∀ entry, .transaction entry ∈ yielded.directives → ∃ date,
      (date ∈ progress.pending.date? ∨ ∃ line ∈ lines, date ∈ line.date?) ∧
        entry.dateSpan = source.tokenSpan date) ∧
    (∀ date ∈ last.pending.date?,
      date ∈ progress.pending.date? ∨ ∃ line ∈ lines, date ∈ line.date?) ∧
    last.pending.Sound := by
  induction lines generalizing progress yielded with
  | nil =>
    cases advanced
    exact ⟨by simp [Collected.nothing], fun date member => Or.inl member, sound⟩
  | cons line rest ih =>
    obtain ⟨next, first, others, stepped, further, rfl⟩ := advanceAll_cons_iff.mp advanced
    obtain ⟨yields, opens, nextSound⟩ := dated_of_advance sound stepped
    obtain ⟨laterYields, laterOpens, lastSound⟩ := ih nextSound further
    have known {date : Token}
        (origin : date ∈ next.pending.date? ∨ ∃ line ∈ rest, date ∈ line.date?) :
        date ∈ progress.pending.date? ∨ ∃ one ∈ line :: rest, date ∈ one.date? := by
      rcases origin with pending | ⟨one, member, begins⟩
      · rcases opens date pending with ⟨old, _⟩ | new
        · exact Or.inl old
        · exact Or.inr ⟨line, List.mem_cons_self, new⟩
      · exact Or.inr ⟨one, List.mem_cons_of_mem _ member, begins⟩
    refine ⟨fun entry member => ?_, fun date member => known (laterOpens date member), lastSound⟩
    rcases List.mem_append.mp member with early | late
    · obtain ⟨before, after, parts⟩ := List.append_of_mem early
      obtain ⟨_, date, old, same⟩ := yields before entry after parts
      exact ⟨date, Or.inl old, same⟩
    · obtain ⟨date, new, same⟩ := laterYields entry late
      exact ⟨date, known new, same⟩

/-- A transaction among what is collected is the one that was open, or it begins with a line,
and what precedes it comes from the lines before that one. -/
theorem heading_of_collected {progress : Progress} {lines : List Line} {collected : Collected}
    (sound : progress.pending.Sound)
    (whole : collectFrom source progress.pending progress.included lines = .ok collected)
    {before after : List Directive} {entry : TransactionEntry}
    (parts : collected.directives = before ++ .transaction entry :: after) :
    (before = [] ∧ progress.pending.date? ≠ none) ∨
    ∃ earlier line later heading next first closed, lines = earlier ++ line :: later ∧
      line.statement = .transaction heading ∧
      progress.advanceAll source earlier = .ok (next, first) ∧
      next.pending.finish source = .ok closed ∧ before = first.directives ++ closed := by
  induction lines generalizing progress collected before with
  | nil =>
    obtain ⟨directives, finished, same⟩ := bind_eq_ok_iff.mp whole
    cases same
    obtain ⟨alone, date, known, _⟩ := date_of_finish sound (finished.trans (congrArg _ parts))
    exact Or.inl ⟨alone, by simp [Option.mem_def.mp known]⟩
  | cons line rest ih =>
    obtain ⟨next, first, others, stepped, further, rfl⟩ :=
      (collectFrom_cons_iff progress).mp whole
    obtain ⟨yields, opens, nextSound⟩ := dated_of_advance sound stepped
    rw [Collected.append_directives] at parts
    -- Either the line itself yields the transaction, or the lines after it do.
    by_cases here : ∃ middle, first.directives = before ++ .transaction entry :: middle
    · obtain ⟨middle, early⟩ := here
      obtain ⟨alone, date, known, _⟩ := yields before entry middle early
      exact Or.inl ⟨alone, by simp [Option.mem_def.mp known]⟩
    obtain ⟨middle, rfl, late⟩ : ∃ middle, before = first.directives ++ middle ∧
        others.directives = middle ++ .transaction entry :: after := by
      rcases List.append_eq_append_iff.mp parts with ⟨middle, same, later⟩ | ⟨middle, early, later⟩
      · exact ⟨middle, same, later⟩
      · cases middle with
        | nil => exact ⟨[], by simpa using early.symm, later.symm⟩
        | cons one middle =>
          obtain rfl := (List.cons.inj later).1
          exact absurd ⟨middle, early⟩ here
    rcases ih nextSound further late with ⟨rfl, pending⟩ |
      ⟨earlier, heading, later, statement, last, more, closed, rfl, begins, advanced, finished, rfl⟩
    · obtain ⟨date, known⟩ := Option.ne_none_iff_exists'.mp pending
      rcases opens date known with ⟨old, nothing⟩ | new
      · exact Or.inl ⟨by simp [nothing], by simp [Option.mem_def.mp old]⟩
      · cases statement : line.statement with
        | transaction heading =>
          simp only [advance, statement] at stepped
          obtain ⟨closed, finished, same⟩ := map_eq_ok_iff.mp stepped
          cases same
          exact Or.inr ⟨[], line, rest, heading, progress, .nothing, closed, rfl, statement, rfl,
            finished, by simp [Collected.nothing]⟩
        | _ => simp [Line.date?, statement] at new
    · exact Or.inr ⟨line :: earlier, heading, later, statement, last, first.append more, closed, rfl,
        begins, advanceAll_cons_iff.mpr ⟨_, _, _, stepped, advanced, rfl⟩, finished, by simp⟩

/-- The postings of a transaction come from posting lines that belong to it. By induction on the
lines, with any postings from before, since each posting line adds its own at the end. -/
theorem postings_of_advanceAll {heading : Heading}
    {entries all : List PostingEntry} {stop last : Int} {included : List Phrase} {lines : List Line}
    (each : ∀ line ∈ lines, ¬ Closes line) {collected : Collected}
    (advanced : advanceAll source ⟨.transaction heading entries stop, included⟩ lines =
      .ok (⟨.transaction heading all last, included⟩, collected)) :
    ∀ entry ∈ all, entry ∈ entries ∨ ∃ line posting, line ∈ lines ∧
      line.statement = .posting posting ∧ entry = PostingEntry.ofLine source posting line.comment := by
  induction lines generalizing entries stop collected with
  | nil =>
    cases advanced
    exact fun entry member => Or.inl member
  | cons line rest ih =>
    obtain ⟨own, others⟩ := List.forall_mem_cons.mp each
    obtain ⟨next, first, more, stepped, further, rfl⟩ := advanceAll_cons_iff.mp advanced
    -- The postings after the line are the postings before it and perhaps its own.
    have goesOn {middle : List PostingEntry} {newStop : Int}
        (same : next = ⟨.transaction heading middle newStop, included⟩)
        (known : ∀ entry ∈ middle, entry ∈ entries ∨ ∃ posting,
          line.statement = .posting posting ∧
            entry = PostingEntry.ofLine source posting line.comment) :
        ∀ entry ∈ all, entry ∈ entries ∨ ∃ one posting, one ∈ line :: rest ∧
          one.statement = .posting posting ∧
            entry = PostingEntry.ofLine source posting one.comment := by
      subst same
      intro entry member
      rcases ih others further entry member with old | ⟨one, posting, inside, found⟩
      · exact (known entry old).imp_right fun ⟨posting, found⟩ =>
          ⟨line, posting, List.mem_cons_self, found⟩
      · exact Or.inr ⟨one, posting, List.mem_cons_of_mem _ inside, found⟩
    cases statement : line.statement with
    | remark =>
      simp only [advance, statement] at stepped
      cases stepped
      exact goesOn rfl fun entry old => Or.inl old
    | posting posting =>
      rw [advance_posting statement] at stepped
      cases stepped
      refine goesOn rfl fun entry member => ?_
      rcases List.mem_append.mp member with old | new
      · exact Or.inl old
      · exact Or.inr ⟨posting, statement, List.mem_singleton.mp new⟩
    | metadata key keyStop =>
      rw [advance_metadata statement] at stepped
      cases stepped
      exact goesOn rfl fun entry old => Or.inl old
    | _ => simp [Closes, statement] at own

end Progress

end Daybook
