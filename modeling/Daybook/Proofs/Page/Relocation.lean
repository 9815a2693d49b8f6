import Daybook.Proofs.Page.Cutting
import Daybook.Proofs.Page.Spans

/-!
# Directives in a text that has become longer or shorter

Where a few bytes of a file are exchanged for others, the offsets up to them stay, and all offsets
behind them move by the same number of bytes. A directive that lies before the exchanged bytes
stays the same, and one that lies behind them is further down or further up as a whole.
-/
namespace Daybook

open Statement

/-- Where an offset comes to be when what is behind `mark` moves down by `bytes`. -/
def displaced (mark bytes offset : Int) : Int :=
  if offset ≤ mark then offset else offset + bytes

section Relocate

variable (move : Int → Int)

/-- A span whose ends have moved. -/
def Span.relocate (span : Span) : Span := ⟨move span.start, move span.stop⟩

/-- A posting whose offsets have moved. -/
def PostingEntry.relocate (entry : PostingEntry) : PostingEntry :=
  { entry with
    accountSpan := entry.accountSpan.relocate move
    amountSpan := entry.amountSpan.map (Span.relocate move)
    span := entry.span.relocate move }

/-- A transaction whose offsets have moved. -/
def TransactionEntry.relocate (entry : TransactionEntry) : TransactionEntry :=
  { entry with
    postings := entry.postings.map (PostingEntry.relocate move)
    dateSpan := entry.dateSpan.relocate move
    flagSpan := entry.flagSpan.relocate move
    narrationSpan := entry.narrationSpan.map (Span.relocate move)
    span := entry.span.relocate move }

/-- A directive whose offsets have moved. -/
def Directive.relocate : Directive → Directive
  | .transaction entry => .transaction (entry.relocate move)
  | .opening date account currencies dateSpan span =>
    .opening date account currencies (dateSpan.relocate move) (span.relocate move)
  | .closing date account dateSpan span =>
    .closing date account (dateSpan.relocate move) (span.relocate move)
  | .inclusion path span => .inclusion path (span.relocate move)

end Relocate

/-- All spans of a directive. -/
def Directive.parts : Directive → List Span
  | .transaction entry => entry.span :: entry.parts
  | .opening _ _ _ dateSpan span => [dateSpan, span]
  | .closing _ _ dateSpan span => [dateSpan, span]
  | .inclusion _ span => [span]

section Congr

variable {move other : Int → Int}

/-- Only the ends of a span are moved. -/
theorem Span.relocate_congr {span : Span}
    (same : move span.start = other span.start ∧ move span.stop = other span.stop) :
    span.relocate move = span.relocate other := by
  rw [relocate, same.1, same.2, relocate]

/-- Two ways of moving offsets do the same to a span when they agree on its two ends; the offsets in
between do not enter. -/
theorem Span.map_relocate_congr {span : Option Span}
    (same : ∀ part ∈ span, move part.start = other part.start ∧ move part.stop = other part.stop) :
    span.map (Span.relocate move) = span.map (Span.relocate other) :=
  Option.map_congr fun part member => Span.relocate_congr (same part member)

/-- Only the ends of the spans of a posting are moved. -/
theorem PostingEntry.relocate_congr {entry : PostingEntry}
    (same : ∀ part ∈ entry.parts,
      move part.start = other part.start ∧ move part.stop = other part.stop) :
    entry.relocate move = entry.relocate other := by
  have account := Span.relocate_congr (same entry.accountSpan (by simp [parts]))
  have whole := Span.relocate_congr (same entry.span (by simp [parts]))
  have amount : entry.amountSpan.map (Span.relocate move) =
      entry.amountSpan.map (Span.relocate other) :=
    Span.map_relocate_congr fun part member =>
      same part (by simp [parts, Option.mem_def.mp member])
  rw [relocate, account, whole, amount, relocate]

/-- Only the ends of the spans of a directive are moved. The parts of a directive are all its spans,
and the cases of the proof are the fields that have one. -/
theorem Directive.relocate_congr {directive : Directive}
    (same : ∀ part ∈ directive.parts,
      move part.start = other part.start ∧ move part.stop = other part.stop) :
    directive.relocate move = directive.relocate other := by
  cases directive with
  | transaction entry =>
    have whole := Span.relocate_congr (same entry.span (by simp [parts]))
    have date := Span.relocate_congr (same entry.dateSpan (by simp [parts, TransactionEntry.parts]))
    have flag := Span.relocate_congr (same entry.flagSpan (by simp [parts, TransactionEntry.parts]))
    have narration : entry.narrationSpan.map (Span.relocate move) =
        entry.narrationSpan.map (Span.relocate other) :=
      Span.map_relocate_congr fun part member =>
        same part (by simp [parts, TransactionEntry.parts, Option.mem_def.mp member])
    have postings : entry.postings.map (PostingEntry.relocate move) =
        entry.postings.map (PostingEntry.relocate other) := by
      refine List.map_congr_left fun posting member =>
        PostingEntry.relocate_congr fun part within =>
        same part ?_
      exact List.mem_cons_of_mem _ (List.mem_append_right _
        (List.mem_flatMap.mpr ⟨posting, member, within⟩))
    simp only [relocate, TransactionEntry.relocate, whole, date, flag, narration, postings]
  | opening date account currencies dateSpan span =>
    have day := Span.relocate_congr (same dateSpan (by simp [parts]))
    have whole := Span.relocate_congr (same span (by simp [parts]))
    rw [relocate, day, whole, relocate]
  | closing date account dateSpan span =>
    have day := Span.relocate_congr (same dateSpan (by simp [parts]))
    have whole := Span.relocate_congr (same span (by simp [parts]))
    rw [relocate, day, whole, relocate]
  | inclusion path span =>
    have whole := Span.relocate_congr (same span (by simp [parts]))
    rw [relocate, whole, relocate]

end Congr

/-- The spans of a directive whose offsets have moved. -/
theorem Directive.parts_relocate (move : Int → Int) (directive : Directive) :
    (directive.relocate move).parts = directive.parts.map (Span.relocate move) := by
  have options (span : Option Span) :
      (span.map (Span.relocate move)).toList = span.toList.map (Span.relocate move) := by
    cases span <;> rfl
  have postings (entry : PostingEntry) :
      (entry.relocate move).parts = entry.parts.map (Span.relocate move) := by
    simp only [PostingEntry.parts, PostingEntry.relocate, options, List.map_cons]
  cases directive with
  | transaction entry =>
    simp [relocate, parts, TransactionEntry.parts, TransactionEntry.relocate, options,
      List.flatMap_map, List.map_flatMap, postings]
  | _ => rfl

/-- What moves every offset alike is a shift. -/
theorem PostingEntry.relocate_add (bytes : Int) (entry : PostingEntry) :
    entry.relocate (· + bytes) = entry.shift bytes := rfl

/-- What moves every offset alike is a shift. -/
theorem Directive.relocate_add (bytes : Int) (directive : Directive) :
    directive.relocate (· + bytes) = directive.shift bytes := by
  cases directive <;> rfl

section Displaced

variable {mark bytes : Int}

/-- Offsets up to the mark stay where they are. -/
theorem displaced_of_le {offset : Int} (before : offset ≤ mark) :
    displaced mark bytes offset = offset := if_pos before

/-- Offsets behind the mark are displaced by the bytes that were put in. -/
theorem displaced_of_lt {offset : Int} (behind : mark < offset) :
    displaced mark bytes offset = offset + bytes := if_neg (Int.not_le.mpr behind)

/-- A directive before the mark stays as it is. -/
theorem Directive.relocate_of_before {directive : Directive}
    (before : ∀ part ∈ directive.parts, part.start ≤ mark ∧ part.stop ≤ mark) :
    directive.relocate (displaced mark bytes) = directive := by
  have still : directive.relocate (displaced mark bytes) = directive.relocate (· + 0) := by
    refine Directive.relocate_congr fun part member => ?_
    obtain ⟨start, stop⟩ := before part member
    rw [displaced_of_le start, displaced_of_le stop, Int.add_zero, Int.add_zero]
    exact ⟨rfl, rfl⟩
  rw [still, Directive.relocate_add, Directive.shift_zero]

/-- A directive behind the mark moves as a whole. -/
theorem Directive.relocate_of_behind {directive : Directive}
    (behind : ∀ part ∈ directive.parts, mark < part.start ∧ mark < part.stop) :
    directive.relocate (displaced mark bytes) = directive.shift bytes := by
  rw [← Directive.relocate_add]
  refine Directive.relocate_congr fun part member => ?_
  obtain ⟨start, stop⟩ := behind part member
  exact ⟨displaced_of_lt start, displaced_of_lt stop⟩

/-- A posting behind the mark moves as a whole. -/
theorem PostingEntry.relocate_of_behind {entry : PostingEntry}
    (behind : ∀ part ∈ entry.parts, mark < part.start ∧ mark < part.stop) :
    entry.relocate (displaced mark bytes) = entry.shift bytes := by
  rw [← PostingEntry.relocate_add]
  refine PostingEntry.relocate_congr fun part member => ?_
  obtain ⟨start, stop⟩ := behind part member
  exact ⟨displaced_of_lt start, displaced_of_lt stop⟩

end Displaced

/-! ## Where the directives of a text lie -/

/-- A posting that shows what it says lies within the content. -/
theorem PostingEntry.Shown.within {content : Bytes} {posting : PostingEntry}
    (shown : posting.Shown content) : ∀ part ∈ posting.parts, part.Within content.length := by
  intro part member
  simp only [parts, List.mem_cons, Option.mem_toList] at member
  rcases member with rfl | rfl | amount
  · exact shown.account.within
  · exact shown.whole
  · obtain ⟨blanks, _, shows⟩ := shown.amount part amount
    exact shows.within

/-- A directive that shows what it says lies within the content. A span that shows something lies
within the content, and all parts of a directive show what it says or lie within its span. -/
theorem Directive.Shown.within {content : Bytes} {directive : Directive}
    (shown : directive.Shown content) : ∀ part ∈ directive.parts, part.Within content.length := by
  intro part member
  cases directive with
  | transaction entry =>
    have shown : entry.Shown content := shown
    simp only [parts, TransactionEntry.parts, List.mem_cons, List.mem_append, Option.mem_toList,
      List.mem_flatMap, List.cons_append] at member
    rcases member with rfl | rfl | rfl | narration | ⟨posting, listed, within⟩
    · exact shown.whole
    · exact shown.date.within
    · exact shown.flag.within
    · obtain ⟨_, _, quotation, shows, _⟩ := shown.narration part narration
      exact shows.within
    · exact (shown.postings posting listed).within part within
  | opening date account currencies dateSpan span =>
    obtain ⟨day, whole⟩ : dateSpan.Shows content date ∧ span.Within content.length := shown
    simp only [parts, List.mem_cons, List.not_mem_nil, or_false] at member
    rcases member with rfl | rfl
    · exact day.within
    · exact whole
  | closing date account dateSpan span =>
    obtain ⟨day, whole⟩ : dateSpan.Shows content date ∧ span.Within content.length := shown
    simp only [parts, List.mem_cons, List.not_mem_nil, or_false] at member
    rcases member with rfl | rfl
    · exact day.within
    · exact whole
  | inclusion path span =>
    obtain ⟨quotation, shows, _⟩ : span.Quotes content path := shown
    obtain rfl := List.mem_singleton.mp member
    exact shows.within

section Around

variable {path text : Text} {lines : List Line} {collected : Collected}
  {before after : List Directive} {entry : TransactionEntry}

/-- What is collected before a transaction lies before its date. The text before the transaction is
read by itself, and the directives of a text lie within it. -/
theorem Parting.before_ends
    (parting : Parting (Source.ofText path text) lines collected before entry after)
    (excision : Excision text parting.earlier parting.later entry) :
    ∀ directive ∈ before, ∀ part ∈ directive.parts,
      part.start ≤ entry.dateSpan.start ∧ part.stop ≤ entry.dateSpan.start := by
  obtain ⟨⟨kept, body, tail, ending, rest, moved, rfl, _, _, _, _, joins, apart⟩, start, _⟩ :=
    excision
  -- The text before the transaction is read by itself.
  obtain ⟨progress, first, closed, begun, finished, _, early, _⟩ := parting.front rfl apart []
  have reading := joins [] [] (.textEnd rfl)
  have collects : collect (Source.ofText path (kept ++ [])) (parting.earlier ++ []) =
      .ok (first.append ⟨closed, []⟩) := by
    refine (@Progress.collectFrom_append_iff _ ⟨.nothing, []⟩ _ _ _).mpr
      ⟨progress, first, _, begun, ?_, rfl⟩
    rw [collectFrom, finished]
    rfl
  intro directive member part within
  rw [early] at member
  obtain ⟨_, _, _, _, stands⟩ := (reading.arrayed collects).each directive member
  obtain ⟨_, order, inside⟩ := stands.shown.within part within
  rw [List.append_nil] at inside
  rw [start]
  exact ⟨Int.le_trans order inside, inside⟩

/-- What is collected behind a transaction lies behind its end. The text behind the transaction is
read by itself and moved, and no part lies before its beginning. -/
theorem Parting.after_begins
    (parting : Parting (Source.ofText path text) lines collected before entry after)
    (excision : Excision text parting.earlier parting.later entry) :
    ∀ directive ∈ after, ∀ part ∈ directive.parts,
      entry.span.stop ≤ part.start ∧ entry.span.stop ≤ part.stop := by
  obtain ⟨⟨kept, body, tail, ending, rest, moved, rfl, _, _, laterEq, reading, _, _⟩, _, _, _, _,
    order, upper⟩ := excision
  dsimp only at upper laterEq
  -- The text behind the transaction is read by itself.
  obtain ⟨alone, movedEq, reading⟩ : ∃ alone, moved = alone.map (Line.shift kept.length) ∧
      Reading .lineStart 0 rest alone := by
    rw [← Nat.zero_add kept.length] at reading
    exact (show Reading (Place.lineStart.shift _) _ rest moved from reading).unshift
  have laid : Laid rest 0 alone := by
    refine (show Reading .lineStart 0 (rest.drop 0) alone from ?_).laid (Or.inr rfl)
    exact reading
  have twice : parting.later =
      alone.map (Line.shift (kept ++ (body ++ tail ++ ending)).length) := by
    rw [laterEq, movedEq, List.map_map]
    refine List.map_congr_left fun line _ => ?_
    rw [Function.comp_apply, Line.shift_add, ← List.length_append]
  have back := @Statement.Reading.collectFrom_back [] rest alone reading path
    (kept ++ (body ++ tail ++ ending)) parting.progress.included
  rw [← twice, List.nil_append, List.nil_append, List.append_assoc kept, parting.remaining] at back
  obtain ⟨others, remaining, movedOthers⟩ := back.of_ok_right
  have arrayed := laid.arranges reading.fromStart.worded_whole [] .nothing _ others
    (Or.inr (by simp [Text.Behind])) (Or.inl (Or.inl rfl)) remaining
  intro directive member part inside
  rw [parting.after_eq, movedOthers.directives] at member
  obtain ⟨nearer, listed, rfl⟩ := List.mem_map.mp member
  obtain ⟨_, _, _, _, stands⟩ := arrayed.each nearer listed
  rw [← Directive.relocate_add, Directive.parts_relocate] at inside
  obtain ⟨own, among, rfl⟩ := List.mem_map.mp inside
  obtain ⟨low, forward, _⟩ := stands.shown.within own among
  have size : (Text.Utf8.encode (kept ++ body ++ tail)).length ≤
      (Text.Utf8.encode (kept ++ (body ++ tail ++ ending))).length := by
    simp only [Text.Utf8.encode_append, List.length_append]
    omega
  simp only [Span.relocate]
  omega

/-- What moves only behind the date of a transaction leaves everything before it. -/
theorem Parting.relocate_before {mark : Int} (bytes : Int)
    (parting : Parting (Source.ofText path text) lines collected before entry after)
    (excision : Excision text parting.earlier parting.later entry)
    (date : entry.dateSpan.start ≤ mark) :
    before.map (Directive.relocate (displaced mark bytes)) = before := by
  refine (List.map_congr_left fun directive listed => ?_).trans (List.map_id _)
  refine Directive.relocate_of_before fun part within => ?_
  obtain ⟨start, stop⟩ := parting.before_ends excision directive listed part within
  exact ⟨Int.le_trans start date, Int.le_trans stop date⟩

/-- What moves within a transaction moves everything behind it as a whole. -/
theorem Parting.relocate_after {mark : Int} (bytes : Int)
    (parting : Parting (Source.ofText path text) lines collected before entry after)
    (excision : Excision text parting.earlier parting.later entry)
    (inside : mark < entry.span.stop) :
    after.map (Directive.relocate (displaced mark bytes)) = after.map (Directive.shift bytes) := by
  refine List.map_congr_left fun directive listed => ?_
  refine Directive.relocate_of_behind fun part within => ?_
  obtain ⟨start, stop⟩ := parting.after_begins excision directive listed part within
  exact ⟨Int.lt_of_lt_of_le inside start, Int.lt_of_lt_of_le inside stop⟩

/-- The transaction is made of its heading and of the lines that belong to it. -/
theorem Parting.entry_eq {source : Source}
    (parting : Parting source lines collected before entry after) :
    ∃ flag, parting.heading.flag = some flag ∧
      entry = parting.heading.entry source flag parting.postings parting.stop := by
  obtain ⟨flag, flagged, same⟩ := Pending.finish_transaction_iff.mp parting.entered
  exact ⟨flag, flagged, Directive.transaction.inj (List.singleton_inj.mp same)⟩

/-- The postings of a transaction lie behind its flag. Every posting comes from a line after the
heading, and the lines of a file follow one another. -/
theorem Parting.postings_begin
    (parting : Parting (Source.ofText path text) lines collected before entry after)
    (reading : Reading .fileStart 0 text lines) : ∀ posting ∈ entry.postings,
      ∀ part ∈ posting.parts, entry.flagSpan.stop ≤ part.start ∧
        entry.flagSpan.stop ≤ part.stop := by
  obtain ⟨flag, flagged, entryEq⟩ := parting.entry_eq
  intro posting member part within
  rw [entryEq] at member ⊢
  rcases Progress.postings_of_advanceAll parting.belongs.each parting.advanced posting member with
    none | ⟨one, written, among, statement, rfl⟩
  · cases none
  obtain ⟨front, back, split⟩ := List.append_of_mem among
  have parts : lines = (parting.earlier ++ parting.line :: front) ++
      one :: (back ++ parting.later) := parting.parts.trans (by rw [split]; simp)
  obtain ⟨start, stop, _, order, ends, standing, _, each⟩ := reading.laid_whole.before parts
  obtain ⟨first, last, _, _, _, heads, beyond, _⟩ := each parting.line (by simp)
  obtain ⟨extent, inside, held⟩ :
      ∃ extent ∈ parting.line.statement.extent?, flag ∈ extent.tokens := by
    rw [parting.statement]
    exact ⟨_, rfl, by simp [flagged]⟩
  have flagStop := ((heads.extent extent inside).tokens flag held).2.2
  obtain ⟨whole, comment⟩ := one
  obtain rfl : whole = .posting written := statement
  have worded := reading.worded_whole _ (show (⟨.posting written, comment⟩ : Line) ∈ lines by
    rw [parts]; simp)
  obtain ⟨shown, begins, _⟩ := PostingEntry.shown_ofLine path standing ends worded
  have lower := Source.byte_mono path (show flag.stop ≤ start by omega)
    (Nat.le_trans order ends.inside)
  obtain ⟨_, forward, _⟩ := shown.within part within
  have behind := (begins part within).1
  simp only [Heading.entry, Source.tokenSpan, Source.span]
  omega

end Around

end Daybook
