import Daybook.Proofs.Page.Spans

/-!
# What belongs to a directive

Collecting is a machine that remembers which directive is open. What it yields can be said without
the machine, by where a line stands among the others. A line comes under the nearest directive
before it, provided that this one has a date. A directive yields itself with the lines that come
under it, and a line that finds no place among them yields a warning.

The two descriptions agree on every text that can be read, as long as its transactions have flags.
The end of a directive is where the agreement has a reason: the machine keeps the furthest end that
it has seen, and because lines stand one after the other that is the end of the last one.
-/
namespace Daybook

open Statement

namespace Line

/-- The line is a directive. Remarks are none, and postings and metadata belong to one. -/
def isDirective (line : Line) : Bool :=
  match line.statement with
  | .remark => false
  | .posting _ => false
  | .metadata _ _ => false
  | _ => true

/-- The line is a directive with a date. -/
def isDated (line : Line) : Bool :=
  match line.statement with
  | .transaction _ => true
  | .opening _ _ _ _ => true
  | .closing _ _ => true
  | .otherDated => true
  | _ => false

/-- The line is the heading of a transaction. -/
def isTransaction (line : Line) : Bool :=
  match line.statement with
  | .transaction _ => true
  | _ => false

/-- The line is no transaction without a flag. -/
def isFlagged (line : Line) : Bool :=
  match line.statement with
  | .transaction heading => heading.flag.isSome
  | _ => true

/-- The lines that come under a directive: those after it up to the next directive. -/
def under (after : List Line) : List Line :=
  after.takeWhile fun line => !line.isDirective

/-- The dated directive that a line comes under: the nearest directive before it, if that one has
a date. -/
def owner? (before : List Line) : Option Line :=
  (before.reverse.find? isDirective).filter isDated

/-- The path that the line includes. -/
def inclusion? (line : Line) : Option Phrase :=
  match line.statement with
  | .inclusion token => some (Text.Quoted.decode token.text)
  | _ => none

section

variable (source : Source)

/-- The posting that a posting line is. -/
def posting? (line : Line) : Option PostingEntry :=
  match line.statement with
  | .posting row => some (PostingEntry.ofLine source row line.comment)
  | _ => none

/-- The end of a metadata line. -/
def metadataStop? (line : Line) : Option Int :=
  match line.statement with
  | .metadata _ stop => some (source.offsets.byte (line.stop stop))
  | _ => none

/-- The end of a posting or a metadata line. -/
def attachedStop? (line : Line) : Option Int :=
  match line.statement with
  | .posting row => some (PostingEntry.ofLine source row line.comment).span.stop
  | .metadata _ stop => some (source.offsets.byte (line.stop stop))
  | _ => none

/-- The last of several ends, or a directive's own end where there is none. -/
def lastEnd (own : Int) (ends : List Int) : Int := ends.getLast?.getD own

/-- The directive of a line with the lines that come under it. A transaction has the postings
among them and ends with the last posting or metadata line, an opening or a closing ends with the
last metadata line. -/
def directive? (line : Line) (under : List Line) : Option Directive :=
  let account (make : Span → Directive) (date : Token) (stop : Nat) : Directive :=
    make ⟨source.offsets.byte date.start,
      lastEnd (source.offsets.byte (line.stop stop)) (under.filterMap (metadataStop? source))⟩
  match line.statement with
  | .transaction heading =>
    heading.flag.map fun flag =>
      .transaction (heading.entry source flag (under.filterMap (posting? source))
        (lastEnd (source.offsets.byte (line.stop heading.stop))
          (under.filterMap (attachedStop? source))))
  | .opening date owner currencies stop =>
    some (account (.opening date.text owner.text (currencies.map Token.text)
      (source.tokenSpan date)) date stop)
  | .closing date owner =>
    some (account (.closing date.text owner.text (source.tokenSpan date)) date owner.stop)
  | .inclusion token =>
    some (.inclusion (Text.Quoted.decode token.text) (source.tokenSpan token))
  | _ => none

/-- The warnings about a line behind other lines: a posting that comes under no transaction, metadata
that come under nothing, and a path that has been included before. -/
def warnings (before : List Line) (line : Line) : List Diagnostic :=
  match line.statement with
  | .posting row =>
    if (owner? before).any isTransaction then []
    else [source.warn row.first "Posting outside of a transaction"]
  | .metadata key _ =>
    if (owner? before).isSome then [] else [source.warn key "Metadata outside of a directive"]
  | .inclusion token =>
    let path := Text.Quoted.decode token.text
    if path ∈ before.filterMap inclusion? then
      [source.warn token ("Duplicate include of " ++ path.shown)]
    else []
  | _ => []

/-- The directives of lines in their order, each with the lines that come under it. -/
def directivesOf : List Line → List Directive
  | [] => []
  | line :: after => (line.directive? source (under after)).toList ++ directivesOf after

/-- The warnings about lines in their order, each line with those before it. -/
def warningsOf (before : List Line) : List Line → List Diagnostic
  | [] => []
  | line :: after => line.warnings source before ++ warningsOf (before ++ [line]) after

end

/-! ## Who owns a line -/

/-- Behind a directive with a date lines come under it, behind one without a date under nothing,
and behind any other line under what that line itself comes under. -/
theorem owner?_concat (before : List Line) (line : Line) :
    owner? (before ++ [line]) =
      if line.isDirective then if line.isDated then some line else none else owner? before := by
  simp only [owner?, List.reverse_append, List.reverse_singleton, List.singleton_append,
    List.find?_cons]
  cases line.isDirective <;> rfl

/-- Nothing comes under a directive behind the next one. -/
theorem under_cons (line : Line) (after : List Line) :
    under (line :: after) = if line.isDirective then [] else line :: under after := by
  cases directive : line.isDirective <;> simp [under, directive]

/-- What comes under a directive is no directive. -/
theorem not_directive_of_mem_under {line : Line} {after : List Line} (member : line ∈ under after) :
    line.isDirective = false := by
  simpa using List.mem_takeWhile_imp member

/-- Lines that are no directives come under the one before them, if that one has a date. -/
theorem owner?_append {front between : List Line} {directive : Line}
    (isDirective : directive.isDirective = true)
    (none : ∀ line ∈ between, line.isDirective = false) :
    owner? (front ++ directive :: between) =
      if directive.isDated then some directive else Option.none := by
  have passed : between.reverse.find? Line.isDirective = Option.none := by
    rw [List.find?_eq_none]
    intro line member
    simp [none line (List.mem_reverse.mp member)]
  rw [owner?, List.reverse_append, List.reverse_cons, List.append_assoc, List.find?_append, passed,
    Option.none_or, List.singleton_append, List.find?_cons, isDirective]
  rfl

/-- The last end is the end of the last line, whatever is put before it. -/
theorem lastEnd_cons (own first : Int) (ends : List Int) :
    lastEnd own (first :: ends) = lastEnd first ends := by
  simp [lastEnd, List.getLast?_cons]

end Line

/-! ## Lines in their order -/

section Order

variable {path text : Text} {position : Nat} {line : Line} {rest : List Line}

/-- Lines that stand behind a position stand behind every earlier one. -/
theorem Statement.Laid.mono {lines : List Line} (laid : Laid text position lines) {earlier : Nat}
    (order : earlier ≤ position) : Laid text earlier lines := by
  cases laid with
  | none => exact .none _
  | last later forward ends standing =>
    exact .last (Nat.le_trans order later) forward ends standing
  | more later forward ends standing beyond feed others =>
    exact .more (Nat.le_trans order later) forward ends standing beyond feed others

/-- The first of several lines that stand one after the other, and the others behind it. -/
theorem Statement.Laid.first (laid : Laid text position (line :: rest)) :
    ∃ start stop, position ≤ start ∧ start ≤ stop ∧ LineEndsAt text stop ∧
      line.Standing text start stop ∧ Laid text stop rest := by
  cases laid with
  | last later order ends standing => exact ⟨_, _, later, order, ends, standing, .none _⟩
  | more later order ends standing beyond _ others =>
    exact ⟨_, _, later, order, ends, standing, others.mono beyond⟩

/-- A posting or a metadata line ends on its line. For a posting this is what is known of its tail,
and metadata ends with the last token that its statement keeps. -/
theorem Line.Standing.attachedStop_bounds {start stop : Nat}
    (standing : line.Standing text start stop) (ends : LineEndsAt text stop) {last : Int}
    (known : line.attachedStop? (Source.ofText path text) = some last) :
    ((Source.ofText path text).offsets.byte start : Int) ≤ last ∧
      last ≤ (Source.ofText path text).offsets.byte stop := by
  have inside := ends.inside
  have behind {extent : Extent} (held : extent ∈ line.statement.extent?) :
      ((Source.ofText path text).offsets.byte start : Int) ≤
        (Source.ofText path text).offsets.byte extent.stop := by
    have extentStanding := standing.extent extent held
    exact Int.ofNat_le.mpr (Source.byte_mono path extentStanding.later
      (Nat.le_trans extentStanding.inside inside))
  cases statement : line.statement with
  | posting row =>
    simp only [attachedStop?, statement, Option.some.injEq] at known
    subst known
    obtain ⟨whole, comment⟩ := line
    obtain rfl : whole = .posting row := statement
    obtain ⟨parts, furthest⟩ := PostingEntry.ends_ofLine path standing ends
    exact ⟨Int.le_trans (behind rfl) furthest, parts _ (by simp [PostingEntry.ends])⟩
  | metadata key keyStop =>
    simp only [attachedStop?, statement, Option.some.injEq] at known
    subst known
    have held : (⟨some key, [key], keyStop⟩ : Extent) ∈ line.statement.extent? := by
      rw [statement]
      rfl
    obtain ⟨after, before⟩ : keyStop ≤ line.stop keyStop ∧ line.stop keyStop ≤ stop :=
      standing.stop_bounds held
    exact ⟨Int.le_trans (behind held)
        (Int.ofNat_le.mpr (Source.byte_mono path after (Nat.le_trans before inside))),
      Int.ofNat_le.mpr (Source.byte_mono path before inside)⟩
  | _ => simp [attachedStop?, statement] at known

end Order

/-! ## What is open, and what it yields -/

namespace Pending

/-- Something is open. -/
def isOpen : Pending → Bool
  | .nothing => false
  | _ => true

/-- A transaction is open. -/
def isTransaction : Pending → Bool
  | .transaction _ _ _ => true
  | _ => false

/-- What is open is no transaction without a flag. -/
def isFlagged : Pending → Bool
  | .transaction heading _ _ => heading.flag.isSome
  | _ => true

/-- What is open is what a line behind these lines comes under. -/
structure Under (before : List Line) (pending : Pending) : Prop where
  opened : (Line.owner? before).isSome = pending.isOpen
  transaction : (Line.owner? before).any Line.isTransaction = pending.isTransaction

/-- The transaction that is open ends no later than this. -/
def EndsBy (bound : Int) : Pending → Prop
  | .transaction _ _ stop => stop ≤ bound
  | _ => True

/-- What the open directive becomes with the lines that come under it. -/
def yields (source : Source) (under : List Line) : Pending → List Directive
  | .transaction heading postings stop =>
    heading.flag.toList.map fun flag =>
      .transaction (heading.entry source flag
        (postings ++ under.filterMap (Line.posting? source))
        (Line.lastEnd stop (under.filterMap (Line.attachedStop? source))))
  | .account make span =>
    [make ⟨span.start, Line.lastEnd span.stop (under.filterMap (Line.metadataStop? source))⟩]
  | _ => []

/-- The open directive is closed as it is, and this fails exactly for a transaction without a
flag. -/
theorem finish_eq (source : Source) (pending : Pending) : pending.finish source =
    if pending.isFlagged then .ok (pending.yields source []) else .error .flagless := by
  cases pending with
  | transaction heading postings stop =>
    cases flagged : heading.flag with
    | none => simp [finish, isFlagged, flagged]
    | some flag => simp [finish, isFlagged, flagged, yields, Line.lastEnd, Heading.entry]
  | _ => rfl

/-- What is open behind a line that does not close it: the line is added to it. -/
def joined (source : Source) (line : Line) : Pending → Pending
  | .transaction heading postings stop =>
    .transaction heading (postings ++ (line.posting? source).toList)
      ((line.attachedStop? source).elim stop (max stop))
  | .account make span => .account make ⟨span.start, (line.metadataStop? source).getD span.stop⟩
  | pending => pending

/-- An open transaction that ends before a position ends before every later one. -/
theorem EndsBy.mono {pending : Pending} {bound further : Int} (ends : pending.EndsBy bound)
    (order : bound ≤ further) : pending.EndsBy further := by
  cases pending with
  | transaction heading postings stop => exact Int.le_trans ends order
  | _ => exact trivial

end Pending

namespace Line

variable (source : Source) (line : Line)

/-- What a directive opens. -/
def opens : Pending :=
  match line.statement with
  | .transaction heading =>
    .transaction heading [] (source.offsets.byte (line.stop heading.stop))
  | .opening date owner currencies stop =>
    .account (Directive.opening date.text owner.text (currencies.map Token.text)
      (source.tokenSpan date)) (source.span date.start (line.stop stop))
  | .closing date owner =>
    .account (Directive.closing date.text owner.text (source.tokenSpan date))
      (source.span date.start (line.stop owner.stop))
  | .otherDated => .other
  | _ => .nothing

/-- What a directive yields at once. -/
def atOnce : List Directive :=
  match line.statement with
  | .inclusion token =>
    [.inclusion (Text.Quoted.decode token.text) (source.tokenSpan token)]
  | _ => []

variable {source line}

/-- A directive yields itself with the lines that come under it, at once or by what it opens. -/
theorem atOnce_append_yields (flagged : line.isFlagged = true) (under : List Line) :
    line.atOnce source ++ (line.opens source).yields source under =
      (line.directive? source under).toList := by
  obtain ⟨statement, comment⟩ := line
  cases statement with
  | transaction heading =>
    obtain ⟨flag, found⟩ := Option.isSome_iff_exists.mp flagged
    simp [atOnce, opens, Pending.yields, directive?, found]
  | _ => rfl

/-- A line that is no directive yields none, and has all the flags that it needs. -/
theorem directive?_eq_none (directive : line.isDirective = false) (source : Source)
    (under : List Line) :
    line.directive? source under = none ∧ line.isFlagged = true := by
  obtain ⟨statement, comment⟩ := line
  cases statement <;> first | exact ⟨rfl, rfl⟩ | cases directive

/-- A directive without a flag is a transaction that is opened without a flag. -/
theorem isFlagged_opens : (line.opens source).isFlagged = line.isFlagged := by
  obtain ⟨statement, comment⟩ := line
  cases statement <;> rfl

/-- A directive opens something exactly if it has a date. -/
theorem isOpen_opens : (line.opens source).isOpen = line.isDated := by
  obtain ⟨statement, comment⟩ := line
  cases statement <;> rfl

/-- A directive opens a transaction exactly if it is one. -/
theorem isTransaction_opens : (line.opens source).isTransaction = line.isTransaction := by
  obtain ⟨statement, comment⟩ := line
  cases statement <;> rfl

end Line

section Step

variable {source : Source} {line : Line} {rest before : List Line} {pending : Pending}
  {included : List Phrase} {position later : Nat}

namespace Pending

/-- What holds between two lines: what is open is what the next line comes under, an open
transaction ends before it, and the paths included so far are known. -/
structure Tracks (source : Source) (position : Nat) (before : List Line) (included : List Phrase)
    (pending : Pending) : Prop where
  under : pending.Under before
  ends : pending.EndsBy (source.offsets.byte position)
  known : ∀ path, path ∈ included ↔ path ∈ before.filterMap Line.inclusion?

/-- The paths included behind a line are that of the line, if it has one, and those before. -/
theorem mem_inclusions_concat {path : Phrase} :
    path ∈ (before ++ [line]).filterMap Line.inclusion? ↔
      line.inclusion? = some path ∨ path ∈ before.filterMap Line.inclusion? := by
  simp only [List.mem_filterMap, List.mem_append, List.mem_singleton, or_and_right, exists_or,
    exists_eq_left]
  exact or_comm

/-- What is open behind a directive is what it opens. -/
theorem under_opens (directive : line.isDirective = true) :
    (line.opens source).Under (before ++ [line]) := by
  constructor
  · rw [Line.owner?_concat, if_pos directive, Line.isOpen_opens]
    cases line.isDated <;> rfl
  · rw [Line.owner?_concat, if_pos directive, Line.isTransaction_opens]
    cases statement : line.statement <;> simp [Line.isTransaction, Line.isDated, statement]

/-- A transaction keeps its flag when a line is added to it. -/
@[simp] theorem isFlagged_joined : (pending.joined source line).isFlagged = pending.isFlagged := by
  cases pending <;> rfl

/-- Behind a line that is no directive, what was open still is. -/
theorem Under.joined (under : pending.Under before) (directive : line.isDirective = false) :
    (pending.joined source line).Under (before ++ [line]) := by
  constructor
  · rw [Line.owner?_concat, directive]
    exact under.opened.trans (by cases pending <;> rfl)
  · rw [Line.owner?_concat, directive]
    exact under.transaction.trans (by cases pending <;> rfl)

/-- A directive closes what is open and opens something else. -/
theorem advance_directive
    (known : ∀ path, path ∈ included ↔ path ∈ before.filterMap Line.inclusion?)
    (directive : line.isDirective = true) :
    Progress.advance source ⟨pending, included⟩ line = (pending.finish source).map fun closed =>
      (⟨line.opens source, line.inclusion?.toList ++ included⟩,
        (⟨closed ++ line.atOnce source, line.warnings source before⟩ : Collected)) := by
  obtain ⟨statement, comment⟩ := line
  cases statement with
  | inclusion token =>
    simp only [Progress.advance, Line.opens, Line.inclusion?, Line.atOnce, Line.warnings,
      Option.toList_some, List.singleton_append, known]
  | remark => cases directive
  | posting row => cases directive
  | metadata key stop => cases directive
  | _ =>
    simp only [Progress.advance, Line.opens, Line.inclusion?, Line.atOnce, Line.warnings,
      Option.toList_none, List.nil_append, List.append_nil]

/-- A line that is no directive is added to what is open. -/
theorem advance_joined (under : pending.Under before) (directive : line.isDirective = false) :
    Progress.advance source ⟨pending, included⟩ line =
      .ok (⟨pending.joined source line, included⟩,
        (⟨[], line.warnings source before⟩ : Collected)) := by
  obtain ⟨opened, transaction⟩ := under
  obtain ⟨statement, comment⟩ := line
  cases statement with
  | remark =>
    cases pending <;> simp [Progress.advance, joined, Line.posting?, Line.attachedStop?,
      Line.metadataStop?, Line.warnings, Collected.nothing]
  | posting row =>
    cases pending <;> simp [Progress.advance, joined, Line.posting?, Line.attachedStop?,
      Line.metadataStop?, Line.warnings, Collected.nothing, transaction, isTransaction]
  | metadata key stop =>
    cases pending <;> simp [Progress.advance, joined, Line.posting?, Line.attachedStop?,
      Line.metadataStop?, Line.warnings, Collected.nothing, opened, isOpen, extend]
  | _ => cases directive

/-- What is open with a line added to it becomes what it would become with the line under it. The
end of the line counts, because it is behind the end so far. -/
theorem yields_joined (ordered : ∀ last ∈ line.attachedStop? source, pending.EndsBy last)
    (under : List Line) :
    (pending.joined source line).yields source under =
      pending.yields source (line :: under) := by
  cases pending with
  | transaction heading postings stop =>
    have postingsOf : (line :: under).filterMap (Line.posting? source) =
        (line.posting? source).toList ++ under.filterMap (Line.posting? source) := by
      cases known : line.posting? source <;> simp [known]
    cases ends : line.attachedStop? source with
    | none =>
      simp only [joined, yields, postingsOf, ends, List.append_assoc, List.filterMap_cons,
        Option.elim_none]
    | some last =>
      have order : stop ≤ last := ordered last ends
      simp only [joined, yields, postingsOf, ends, List.append_assoc, List.filterMap_cons,
        Option.elim_some, Line.lastEnd_cons, Int.max_eq_right order]
  | account make span =>
    cases ends : line.metadataStop? source <;>
      simp [joined, yields, ends, Line.lastEnd_cons]
  | _ => rfl

end Pending

end Step

/-! ## The lines of a text -/

/-- Collecting goes on with one line and then with the others. -/
theorem collectFrom_cons (source : Source) (pending : Pending) (included : List Phrase) (line : Line)
    (rest : List Line) : collectFrom source pending included (line :: rest) =
      (Progress.advance source ⟨pending, included⟩ line).bind fun (next, first) =>
        (collectFrom source next.pending next.included rest).map first.append :=
  Progress.collectFrom_eq ⟨pending, included⟩ line rest

section Run

variable {path text : Text} {position start stop : Nat} {line : Line} {before : List Line}
  {pending : Pending} {included : List Phrase}

/-- What holds between two lines still holds behind a directive. -/
theorem Pending.Tracks.opens {source : Source}
    (tracks : pending.Tracks source position before included) (directive : line.isDirective = true)
    (ends : (line.opens source).EndsBy (source.offsets.byte stop)) :
    (line.opens source).Tracks source stop (before ++ [line])
      (line.inclusion?.toList ++ included) where
  under := under_opens directive
  ends := ends
  known path := by
    rw [mem_inclusions_concat, List.mem_append, Option.mem_toList, tracks.known]

/-- What holds between two lines still holds behind a line that is no directive. -/
theorem Pending.Tracks.joined {source : Source}
    (tracks : pending.Tracks source position before included)
    (directive : line.isDirective = false)
    (ends : (pending.joined source line).EndsBy (source.offsets.byte stop)) :
    (pending.joined source line).Tracks source stop (before ++ [line]) included where
  under := tracks.under.joined directive
  ends := ends
  known path := by
    have nothing : line.inclusion? ≠ some path := by
      obtain ⟨statement, comment⟩ := line
      cases statement <;> simp_all [Line.isDirective, Line.inclusion?]
    rw [mem_inclusions_concat, tracks.known]
    simp [nothing]

/-- The transaction that a line opens ends on that line. -/
theorem Line.Standing.opens_endsBy (standing : line.Standing text start stop)
    (ends : LineEndsAt text stop) :
    (line.opens (Source.ofText path text)).EndsBy ((Source.ofText path text).offsets.byte stop) := by
  obtain ⟨statement, comment⟩ := line
  cases statement with
  | transaction heading =>
    have within : Line.stop ⟨.transaction heading, comment⟩ heading.stop ≤ stop :=
      (standing.stop_bounds (Option.mem_some_self _)).2
    exact Int.ofNat_le.mpr (Source.byte_mono path within ends.inside)
  | _ => exact trivial

/-- An open transaction with a line added to it ends on that line. -/
theorem Line.Standing.joined_endsBy (standing : line.Standing text start stop)
    (ends : LineEndsAt text stop)
    (before : pending.EndsBy ((Source.ofText path text).offsets.byte stop)) :
    (pending.joined (Source.ofText path text) line).EndsBy
      ((Source.ofText path text).offsets.byte stop) := by
  cases pending with
  | transaction heading postings furthest =>
    cases known : line.attachedStop? (Source.ofText path text) with
    | none => simpa [Pending.joined, Pending.EndsBy, known] using before
    | some last =>
      have within := (standing.attachedStop_bounds ends known).2
      simp only [Pending.joined, known, Option.elim_some]
      exact Int.max_le.mpr ⟨before, within⟩
  | _ => exact trivial

/-- What is collected, when what is open is known together with the lines before. The induction
goes over the lines. The end of an open transaction stays behind what has been read, so the
furthest end is the last one. -/
theorem Statement.Laid.attributes {lines : List Line} (laid : Laid text position lines)
    (tracks : pending.Tracks (Source.ofText path text) position before included) :
    collectFrom (Source.ofText path text) pending included lines =
      if pending.isFlagged && lines.all Line.isFlagged then
        .ok ⟨pending.yields (Source.ofText path text) (Line.under lines) ++
            Line.directivesOf (Source.ofText path text) lines,
          Line.warningsOf (Source.ofText path text) before lines⟩
      else .error .flagless := by
  induction lines generalizing position before pending included with
  | nil =>
    rw [collectFrom, Pending.finish_eq]
    cases pending.isFlagged <;> simp [Line.directivesOf, Line.warningsOf, Line.under]
  | cons line rest ih =>
    obtain ⟨start, stop, forward, order, lineEnds, standing, others⟩ := laid.first
    rw [collectFrom_cons, List.all_cons, Line.under_cons]
    cases directive : line.isDirective with
    | true =>
      have next := tracks.opens directive (standing.opens_endsBy lineEnds)
      rw [Pending.advance_directive tracks.known directive, Pending.finish_eq]
      cases pending.isFlagged with
      | false => rfl
      | true =>
        simp only [if_true, Except.map, Except.bind, ih others next, Line.isFlagged_opens,
          Bool.true_and]
        cases flagged : line.isFlagged with
        | false => rfl
        | true =>
          cases rest.all Line.isFlagged with
          | false => rfl
          | true =>
            simp only [Bool.and_self, if_true, Collected.append, Line.directivesOf,
              Line.warningsOf, ← Line.atOnce_append_yields flagged, List.append_assoc]
    | false =>
      have further : (((Source.ofText path text).offsets.byte position : Nat) : Int) ≤
          (Source.ofText path text).offsets.byte start :=
        Int.ofNat_le.mpr (Source.byte_mono path forward (Nat.le_trans order lineEnds.inside))
      have unchanged := (tracks.ends.mono further).mono
        (Int.ofNat_le.mpr (Source.byte_mono path order lineEnds.inside))
      have next := tracks.joined directive (standing.joined_endsBy lineEnds unchanged)
      have ordered (last : Int) (known : last ∈ line.attachedStop? (Source.ofText path text)) :
          pending.EndsBy last :=
        tracks.ends.mono (Int.le_trans further (standing.attachedStop_bounds lineEnds known).1)
      have joins := Pending.yields_joined ordered (Line.under rest)
      rw [Pending.advance_joined tracks.under directive]
      simp only [Except.bind, ih others next, joins]
      obtain ⟨nothing, flagged⟩ :=
        Line.directive?_eq_none directive (Source.ofText path text) (Line.under rest)
      rw [Pending.isFlagged_joined, flagged, Bool.true_and]
      cases pending.isFlagged && rest.all Line.isFlagged with
      | false => rfl
      | true =>
        simp only [if_true, Except.map, Collected.append, Line.directivesOf, nothing,
          Line.warningsOf, Option.toList_none, List.nil_append, Bool.false_eq_true, if_false]

end Run

/-- The lines without the remarks among them. -/
def Line.withoutRemarks (lines : List Line) : List Line :=
  lines.filter fun line => line.statement ≠ .remark

/-- Remarks change nothing. -/
theorem collectFrom_withoutRemarks (source : Source) (pending : Pending) (included : List Phrase)
    (lines : List Line) : collectFrom source pending included (Line.withoutRemarks lines) =
      collectFrom source pending included lines := by
  induction lines generalizing pending included with
  | nil => rfl
  | cons line rest ih =>
    by_cases remark : line.statement = .remark
    · have dropped : Line.withoutRemarks (line :: rest) = Line.withoutRemarks rest :=
        List.filter_cons_of_neg (by simp [remark])
      rw [dropped, ih, collectFrom, remark]
    · have kept : Line.withoutRemarks (line :: rest) = line :: Line.withoutRemarks rest :=
        List.filter_cons_of_pos (by simp [remark])
      rw [kept, collectFrom_cons, collectFrom_cons]
      simp only [ih]

namespace Statement

/-- A blank line changes only the position. -/
theorem reading_blankLine_iff {place : Place} {position : Nat} {blank ending text : Text}
    {lines : List Line} (begins : place = .fileStart ∨ place = .lineStart)
    (spaces : ∀ c ∈ blank, Lexeme.isSpace c = true) (form : ending = ['\n'] ∨ ending = ['\r', '\n']) :
    Reading place position (blank ++ ending ++ text) lines ↔
      Reading place (position + (blank ++ ending).length) text lines := by
  induction blank generalizing position with
  | nil =>
    rcases begins with rfl | rfl
    · refine reading_emptyLines_iff fun c member => ?_
      rcases form with rfl | rfl
      · exact Or.inl (List.mem_singleton.mp member)
      · simpa [or_comm] using member
    · exact reading_lineStart_iff position lines text form
  | cons c blank ih =>
    rw [List.cons_append, List.cons_append,
      reading_space_iff (spaces c List.mem_cons_self),
      ih fun c member => spaces c (List.mem_cons_of_mem _ member), List.length_cons,
      Nat.add_assoc, Nat.add_comm 1]

end Statement

/-- The directives of a text come in their order, each one with the lines that come under it, and so
do the warnings. Collecting them fails exactly for a transaction without a flag. -/
theorem Statement.collect_eq (path : Text) {text : Text} {lines : List Line}
    (known : read text = .ok lines) : collect (Source.ofText path text) lines =
      if lines.all Line.isFlagged then
        .ok ⟨Line.directivesOf (Source.ofText path text) lines,
          Line.warningsOf (Source.ofText path text) [] lines⟩
      else .error .flagless := by
  have tracks : Pending.nothing.Tracks (Source.ofText path text) 0 [] [] := by
    constructor
    · constructor <;> rfl
    · exact trivial
    · exact fun path => Iff.rfl
  exact ((reading_iff 0).mpr known).laid_whole.attributes tracks

/-- Every line is collected with the directive that it belongs to. The directives come in their
order, each one with the lines that come under it, and so do the warnings about the lines that come
under nothing they could belong to; only a transaction without a flag lets collecting fail. A line
that comes under a directive with a date has it as its owner. Remarks and blank lines change
nothing. By induction on the lines, with the directive that is still open as what is known about
those before. The lines under a directive are found without collecting anything, so the attribution
can be stated for the lines alone. -/
theorem Statement.collect_attributed {path text : Text} {lines : List Line}
    (known : read text = .ok lines) :
    collect (Source.ofText path text) lines =
      (if lines.all Line.isFlagged then
        .ok ⟨Line.directivesOf (Source.ofText path text) lines,
          Line.warningsOf (Source.ofText path text) [] lines⟩
      else .error .flagless) ∧
    (∀ front directive after between line, lines = front ++ directive :: after →
      directive.isDirective = true → between ++ [line] <+: Line.under after →
      Line.owner? (front ++ directive :: between) =
        if directive.isDated then some directive else none) ∧
    collect (Source.ofText path text) (Line.withoutRemarks lines) =
      collect (Source.ofText path text) lines ∧
    ∀ place position last blank ending rest, place = .fileStart ∨ place = .lineStart →
      (∀ c ∈ blank, Lexeme.isSpace c = true) → ending = ['\n'] ∨ ending = ['\r', '\n'] →
      ∀ others, readFrom place position last (blank ++ ending ++ rest) = .ok others ↔
        readFrom place (position + (blank ++ ending).length) last rest = .ok others := by
  refine ⟨collect_eq path known, fun front directive after between line _ isDirective under => ?_,
    collectFrom_withoutRemarks _ _ _ _, ?_⟩
  · refine Line.owner?_append isDirective fun other member => ?_
    exact Line.not_directive_of_mem_under (under.subset (List.mem_append_left _ member))
  · intro place position last blank ending rest begins spaces form others
    rw [← reading_iff, ← reading_iff]
    exact reading_blankLine_iff begins spaces form

/-- Whether all lines have the flags they need, with this number of directives and warnings. -/
def Line.isAttributedAs (source : Source) (directives warnings : Nat) (lines : List Line) : Bool :=
  lines.all Line.isFlagged && (Line.directivesOf source lines).length == directives &&
    (Line.warningsOf source [] lines).length == warnings

/-- A text with a transaction, an opening and inclusions, and with a posting, metadata and a path
that find no place. -/
def Source.mixed : Source := Source.ofText "a.bean"
  ("2024-01-05 * \"x\"\n  A:B 1 USD ; n\n  k: 1\n \n; remark\noption \"a\" \"b\"\n  C:D\n" ++
    "2024-01-06 open A:B\n  k: 2\ninclude \"a\"\ninclude \"a\"\n  k: 3\n")

/-- Four directives are collected from the text, and three warnings. -/
theorem Source.mixed_attributed : ∃ lines, Statement.read Source.mixed.text = .ok lines ∧
    collect Source.mixed lines = .ok ⟨Line.directivesOf Source.mixed lines,
      Line.warningsOf Source.mixed [] lines⟩ ∧
    (Line.directivesOf Source.mixed lines).length = 4 ∧
    (Line.warningsOf Source.mixed [] lines).length = 3 := by
  have shape : (Statement.read Source.mixed.text).toOption.any
      (Line.isAttributedAs Source.mixed 4 3) = true := by
    decide +kernel
  obtain ⟨lines, known, shape⟩ := exists_of_any shape
  simp only [Line.isAttributedAs, Bool.and_eq_true, beq_iff_eq] at shape
  obtain ⟨⟨flagged, directives⟩, warnings⟩ := shape
  obtain ⟨whole, _⟩ := @Statement.collect_attributed "a.bean" _ _ known
  rw [flagged] at whole
  exact ⟨lines, known, whole, directives, warnings⟩

/-- A transaction without a flag is read together with its posting, and then collecting fails. -/
theorem Source.flagless_refused : ∃ lines,
    Statement.read "2024-01-05 \"x\"\n  A:B\n" = .ok lines ∧ lines.length = 2 ∧
    collect (Source.ofText "a.bean" "2024-01-05 \"x\"\n  A:B\n") lines = .error .flagless := by
  have shape : (Statement.read "2024-01-05 \"x\"\n  A:B\n").toOption.any
      (fun lines => lines.length == 2 && !lines.all Line.isFlagged) = true := by
    decide +kernel
  obtain ⟨lines, known, shape⟩ := exists_of_any shape
  simp only [Bool.and_eq_true, beq_iff_eq, Bool.not_eq_true'] at shape
  obtain ⟨count, flagless⟩ := shape
  have whole := Statement.collect_eq "a.bean" known
  rw [flagless] at whole
  exact ⟨lines, known, count, whole⟩

end Daybook
