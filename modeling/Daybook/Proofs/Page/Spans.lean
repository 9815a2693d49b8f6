import Daybook.Proofs.Directive.Endings
import Daybook.Proofs.Page.Contents
import Daybook.Proofs.Statement.Tokens

/-!
# What spans show

Positions count characters and spans count bytes, a transaction is yielded only when another
directive begins, and a metadata line moves the end of what is open. Through all of this a span
goes on showing what it is the span of: the bytes of a date are that date, and the bytes of a
directive are a stretch of whole statements that no other directive touches.

What is carried from line to line is that the open directive stands between two positions of the
text. Whatever is yielded stood there, and a line feed parts it from all that is opened later.
-/
namespace Daybook

open Lexeme Statement

/-! ## Spans of a content -/

namespace Span

/-- The bytes of a span. -/
def bytes (content : Bytes) (span : Span) : Bytes :=
  (content.drop span.start.toNat).take (span.stop.toNat - span.start.toNat)

/-- The span lies within the content, and its bytes are those of a text. -/
structure Shows (content : Bytes) (span : Span) (text : Text) : Prop where
  within : span.Within content.length
  bytes : span.bytes content = Text.Utf8.encode text

/-- The bytes of a span are a quotation that stands for a phrase. -/
def Quotes (content : Bytes) (span : Span) (phrase : Phrase) : Prop :=
  ∃ quotation, span.Shows content quotation ∧ Text.Quoted.decode quotation = phrase

/-- One span lies within another one. -/
def Encloses (outer inner : Span) : Prop :=
  outer.start ≤ inner.start ∧ inner.stop ≤ outer.stop

/-- The number of the line that an offset is on, counted from zero. -/
def lineOf (content : Bytes) (offset : Int) : Nat :=
  (content.take offset.toNat).count 0x0A

end Span

/-- The spans of a posting. -/
def PostingEntry.parts (posting : PostingEntry) : List Span :=
  posting.accountSpan :: posting.span :: posting.amountSpan.toList

/-- The spans of a transaction, except its own. -/
def TransactionEntry.parts (entry : TransactionEntry) : List Span :=
  entry.dateSpan :: entry.flagSpan :: entry.narrationSpan.toList ++
    entry.postings.flatMap PostingEntry.parts

/-- The bytes that a directive stands on. -/
def Directive.span : Directive → Span
  | .transaction entry => entry.span
  | .opening _ _ _ _ span => span
  | .closing _ _ _ span => span
  | .inclusion _ span => span

/-- The spans of a posting show its account, and its amount with its currency. -/
structure PostingEntry.Shown (content : Bytes) (posting : PostingEntry) : Prop where
  whole : posting.span.Within content.length
  account : posting.accountSpan.Shows content posting.account
  amount : ∀ span ∈ posting.amountSpan, ∃ blanks, (∀ c ∈ blanks, Text.isBlank c = true) ∧
    span.Shows content (posting.amount ++ blanks ++ posting.currency)

/-- The spans of a transaction show what it says, and lie within its own, which is the one that
is found anew from its parts. -/
structure TransactionEntry.Shown (content : Bytes) (entry : TransactionEntry) : Prop where
  whole : entry.span.Within content.length
  date : entry.dateSpan.Shows content entry.date
  flag : entry.flagSpan.Shows content entry.flag
  narration : ∀ span ∈ entry.narrationSpan, ∃ narration ∈ entry.narration,
    span.Quotes content narration
  postings : ∀ posting ∈ entry.postings, posting.Shown content
  parts : ∀ part ∈ entry.parts, entry.span.Encloses part
  extent : entry.extent = entry.span

/-- The spans of a directive show what it says. -/
def Directive.Shown (content : Bytes) : Directive → Prop
  | .transaction entry => entry.Shown content
  | .opening date _ _ dateSpan span => dateSpan.Shows content date ∧ span.Within content.length
  | .closing date _ dateSpan span => dateSpan.Shows content date ∧ span.Within content.length
  | .inclusion path span => span.Quotes content path

/-- A directive begins and ends before another one, and on lines before it. -/
structure Directive.Precedes (content : Bytes) (first second : Directive) : Prop where
  begins : first.span.start < second.span.start
  ends : first.span.stop ≤ second.span.start
  lines : Span.lineOf content first.span.stop < Span.lineOf content second.span.start

/-! ## Positions and bytes -/

section Positions

variable {path text : Text} {first second : Nat}

/-- A span between two positions lies within the bytes of the text. -/
theorem Source.within_span (path : Text) (order : first ≤ second) (inside : second ≤ text.length) :
    ((Source.ofText path text).span first second).Within (Text.Utf8.encode text).length := by
  have whole := Source.byte_mono path inside (Nat.le_refl text.length)
  rw [Source.byte_take path (Nat.le_refl text.length), List.take_length] at whole
  exact ⟨Int.natCast_nonneg _, Int.ofNat_le.mpr (Source.byte_mono path order inside),
    Int.ofNat_le.mpr whole⟩

/-- The bytes of a span between two positions are those of the text between them. -/
theorem Source.span_shows (path : Text) (order : first ≤ second) (inside : second ≤ text.length) :
    ((Source.ofText path text).span first second).Shows (Text.Utf8.encode text)
      (Text.slice text first second) :=
  ⟨Source.within_span path order inside,
    (Text.Utf8.Offsets.ofText_measures text).bytes_between order inside⟩

/-- The bytes of a token are those of its text. -/
theorem Token.Stands.shows {token : Token} (stands : token.Stands text) (path : Text) :
    ((Source.ofText path text).tokenSpan token).Shows (Text.Utf8.encode text) token.text := by
  have shown := Source.span_shows path (Nat.le_of_lt stands.positive) stands.inside
  rwa [stands.slice] at shown

/-- A later offset is on no earlier line. -/
theorem Span.lineOf_mono {content : Bytes} {first second : Int} (order : first ≤ second) :
    Span.lineOf content first ≤ Span.lineOf content second := by
  have prefixes : content.take first.toNat = (content.take second.toNat).take first.toNat := by
    rw [List.take_take, Nat.min_eq_left (Int.toNat_le_toNat order)]
  rw [Span.lineOf, Span.lineOf, prefixes]
  exact (List.take_sublist _ _).count_le _

/-- A line feed between two positions parts their lines. -/
theorem Source.lineOf_lt (path : Text) (feed : '\n' ∈ Text.slice text first second)
    (inside : second ≤ text.length) :
    Span.lineOf (Text.Utf8.encode text) ((Source.ofText path text).offsets.byte first) <
      Span.lineOf (Text.Utf8.encode text) ((Source.ofText path text).offsets.byte second) := by
  have order : first ≤ second := Nat.le_of_lt (Text.lt_of_mem_slice feed)
  simp only [Span.lineOf, Int.toNat_natCast]
  rw [Source.take_byte path (Nat.le_trans order inside), Source.take_byte path inside,
    ← Text.take_append_slice order, Text.Utf8.encode_append, List.count_append]
  have one := List.count_pos_iff.mpr (Text.Utf8.lineFeed_mem_encode.mpr feed)
  omega

/-- A part of a text that holds another part has a line feed if that part has one. -/
theorem Text.feed_mono {first second before after : Nat} (feed : '\n' ∈ Text.slice text first second)
    (lower : before ≤ first) (upper : second ≤ after) : '\n' ∈ Text.slice text before after := by
  have order : first ≤ second := Nat.le_of_lt (Text.lt_of_mem_slice feed)
  rw [Text.slice_append lower (Nat.le_trans order upper), Text.slice_append order upper]
  exact List.mem_append_right _ (List.mem_append_left _ feed)

end Positions

/-! ## What a line opens -/

namespace Text

/-- What trimming leaves of a text at its beginning is its last part. -/
theorem drop_trimLeft (text : Text) :
    text.drop (text.length - (trimLeft text).length) = trimLeft text := by
  have parts := List.takeWhile_append_dropWhile (p := isBlank) (l := text)
  have size : text.length - (trimLeft text).length = (text.takeWhile isBlank).length := by
    have sizes := congrArg List.length parts
    rw [List.length_append] at sizes
    simp only [trimLeft]
    omega
  rw [size]
  nth_rewrite 2 [← parts]
  rw [List.drop_left, trimLeft]

end Text

section Opening

variable {path text : Text} {start stop : Nat}

/-- Where a number is followed by its currency, what stands from the first character of the number
to the end of the currency is both of them, with blanks in between. -/
theorem Source.amount_shows (path : Text) {first : Nat} {currency : Token}
    (stands : currency.Stands text) (order : first ≤ currency.start) :
    ∃ numberStart blanks, numberStart = first + ((Text.slice text first currency.start).length -
        (Text.trimLeft (Text.slice text first currency.start)).length) ∧
      numberStart ≤ currency.start ∧ (∀ c ∈ blanks, Text.isBlank c = true) ∧
      ((Source.ofText path text).span numberStart currency.stop).Shows (Text.Utf8.encode text)
        (Text.trim (Text.slice text first currency.start) ++ blanks ++ currency.text) := by
  have positive := stands.positive
  have inside := stands.inside
  have size : (Text.slice text first currency.start).length = currency.start - first := by
    rw [Text.slice, List.length_take, List.length_drop]
    omega
  have dropped := Text.drop_trimLeft (Text.slice text first currency.start)
  obtain ⟨blanks, blank, number⟩ :=
    Text.trimRight_append (Text.trimLeft (Text.slice text first currency.start))
  generalize known : (Text.slice text first currency.start).length -
    (Text.trimLeft (Text.slice text first currency.start)).length = count at dropped
  have front : Text.slice text (first + count) currency.start =
      Text.trim (Text.slice text first currency.start) ++ blanks := by
    have place : currency.start - first - count = currency.start - (first + count) := by omega
    rw [Text.trim, ← number, ← dropped, Text.slice, Text.slice, List.drop_take, List.drop_drop, place]
  refine ⟨first + count, blanks, rfl, by omega, blank, ?_⟩
  have shown := Source.span_shows path (show first + count ≤ currency.stop by omega) inside
  rwa [Text.slice_append (show first + count ≤ currency.start by omega) (Nat.le_of_lt positive),
    front, stands.slice] at shown

/-- The spans of a posting show what it says. They begin within its line, end within the posting,
and the posting ends within its line. -/
theorem PostingEntry.shown_ofLine (path : Text) {line : PostingLine} {comment : Option Token}
    (standing : Line.Standing text start stop ⟨.posting line, comment⟩)
    (ends : LineEndsAt text stop) (worded : line.Worded text) :
    (ofLine (Source.ofText path text) line comment).Shown (Text.Utf8.encode text) ∧
      (∀ part ∈ (ofLine (Source.ofText path text) line comment).parts,
        ((Source.ofText path text).offsets.byte start : Int) ≤ part.start ∧
          part.stop ≤ (ofLine (Source.ofText path text) line comment).span.stop) ∧
      (ofLine (Source.ofText path text) line comment).span.stop ≤
        (Source.ofText path text).offsets.byte stop := by
  have extent := standing.extent _ rfl
  have inside := ends.inside
  obtain ⟨account, begun, before⟩ := extent.tokens line.account (by simp)
  obtain ⟨stops, furthest⟩ := ends_ofLine path standing ends
  have order := account.positive
  have lower {position : Nat} (known : start ≤ position) (within : position ≤ text.length) :
      ((Source.ofText path text).offsets.byte start : Int) ≤
        (Source.ofText path text).offsets.byte position :=
    Int.ofNat_le.mpr (Source.byte_mono path known within)
  -- Every token of the posting ends no later than the last one, and so within the posting.
  have upper {position : Nat} (held : position ≤ line.stop) :
      ((Source.ofText path text).offsets.byte position : Int) ≤
        (ofLine (Source.ofText path text) line comment).span.stop :=
    Int.le_trans (Int.ofNat_le.mpr (Source.byte_mono path held
      (Nat.le_trans extent.inside inside))) furthest
  have accountHeld : line.account.stop ≤ line.stop := extent.held line.account (by simp)
  have wholeStop := stops (ofLine (Source.ofText path text) line comment).span.stop
    (by simp [PostingEntry.ends])
  have whole : (ofLine (Source.ofText path text) line comment).span.Within
      (Text.Utf8.encode text).length := by
    refine ⟨Int.natCast_nonneg _, ?_, ?_⟩
    · exact upper (show line.account.start ≤ line.stop by omega)
    · exact Int.le_trans wholeStop (Source.within_span path (Nat.zero_le stop) inside).2.2
  cases currency : line.currency with
  | none =>
    have noAmount : (ofLine (Source.ofText path text) line comment).amountSpan = none := by
      simp [ofLine, currency]
    refine ⟨⟨whole, account.shows path, by simp [noAmount]⟩, ?_, wholeStop⟩
    intro part member
    simp only [parts, noAmount, Option.toList_none, List.mem_cons, List.not_mem_nil,
      or_false] at member
    rcases member with rfl | rfl
    · exact ⟨lower begun (by omega), upper accountHeld⟩
    · exact ⟨lower begun (by omega), Int.le_refl _⟩
  | some token =>
    obtain ⟨stands, tokenBegun, tokenBefore⟩ := extent.tokens token (by simp [currency])
    obtain ⟨_, _, c, member, _⟩ := worded.currency token currency
    have forward := stands.positive
    have behind : line.account.stop ≤ token.start := Nat.le_of_lt (Text.lt_of_mem_slice member)
    obtain ⟨numberStart, blanks, same, early, blank, shows⟩ :=
      Source.amount_shows path stands behind
    have amountSpan : (ofLine (Source.ofText path text) line comment).amountSpan =
        some ((Source.ofText path text).span numberStart token.stop) := by
      simp only [ofLine, currency, Option.isSome_some, if_true, same]
      rfl
    refine ⟨⟨whole, account.shows path, ?_⟩, ?_, wholeStop⟩
    · rw [amountSpan]
      rintro _ ⟨⟩
      refine ⟨blanks, blank, ?_⟩
      simp only [ofLine, currency]
      exact shows
    · intro part member
      simp only [parts, amountSpan, Option.toList_some, List.mem_cons, List.not_mem_nil,
        or_false] at member
      rcases member with rfl | rfl | rfl
      · exact ⟨lower begun (by omega), upper accountHeld⟩
      · exact ⟨lower begun (by omega), Int.le_refl _⟩
      · exact ⟨lower (by omega) (by omega), upper (extent.held token (by simp [currency]))⟩

end Opening

/-! ## What is open -/

/-- The transaction that is open stands between two positions, with all that belongs to it so
far. -/
structure Pending.Entered (path text : Text) (first last : Nat) (heading : Heading)
    (postings : List PostingEntry) (stop : Int) : Prop where
  begins : heading.date.start = first
  tokens : ∀ extent ∈ (Statement.transaction heading).extent?, ∀ token ∈ extent.tokens,
    token.Stands text ∧ first ≤ token.start ∧
      ((Source.ofText path text).offsets.byte token.stop : Int) ≤ stop
  postings : ∀ posting ∈ postings, posting.Shown (Text.Utf8.encode text) ∧
    ∀ part ∈ posting.parts, ((Source.ofText path text).offsets.byte first : Int) ≤ part.start ∧
      part.stop ≤ stop
  ends : stop ≤ (Source.ofText path text).offsets.byte last

/-- The opening or closing that is open stands between two positions, and shows what it says
wherever it will end. -/
structure Pending.Declared (path text : Text) (first last : Nat) (make : Span → Directive)
    (span : Span) : Prop where
  begins : span.start = (Source.ofText path text).offsets.byte first
  forward : span.start < span.stop
  ends : span.stop ≤ (Source.ofText path text).offsets.byte last
  shown : ∀ other : Span, other.Within (Text.Utf8.encode text).length →
    (make other).Shown (Text.Utf8.encode text) ∧ (make other).span = other

/-- What is open stands between two positions. -/
def Pending.Stands (path text : Text) (first last : Nat) : Pending → Prop
  | .transaction heading postings stop => Entered path text first last heading postings stop
  | .account make span => Declared path text first last make span
  | _ => False

/-- Nothing is open that would be yielded. -/
def Pending.Idle (pending : Pending) : Prop := pending = .nothing ∨ pending = .other

/-- A directive stands between two positions and shows what it says. -/
structure Directive.Stands (path text : Text) (first last : Nat) (directive : Directive) : Prop where
  shown : directive.Shown (Text.Utf8.encode text)
  begins : directive.span.start = (Source.ofText path text).offsets.byte first
  forward : directive.span.start < directive.span.stop
  ends : directive.span.stop ≤ (Source.ofText path text).offsets.byte last

section Open

variable {path text : Text} {first last : Nat}

/-- What is open stands as well when more lines have passed. -/
theorem Pending.Stands.mono {pending : Pending} (stands : pending.Stands path text first last)
    {later : Nat} (order : last ≤ later) (inside : later ≤ text.length) :
    pending.Stands path text first later := by
  have grown : ((Source.ofText path text).offsets.byte last : Int) ≤
      (Source.ofText path text).offsets.byte later :=
    Int.ofNat_le.mpr (Source.byte_mono path order inside)
  cases pending with
  | transaction heading postings stop =>
    exact { stands with ends := Int.le_trans stands.ends grown }
  | account make span =>
    exact { stands with ends := Int.le_trans stands.ends grown }
  | nothing => exact stands.elim
  | other => exact stands.elim

/-- A transaction that is open stands as well when it ends further on. -/
theorem Pending.Entered.extend {heading : Heading} {postings : List PostingEntry}
    {stop further : Int} {later : Nat}
    (entered : Entered path text first last heading postings stop) (grown : stop ≤ further)
    (within : further ≤ (Source.ofText path text).offsets.byte later) :
    Entered path text first later heading postings further := by
  refine ⟨entered.begins, ?_, ?_, within⟩
  · intro extent known token member
    obtain ⟨stands, begun, held⟩ := entered.tokens extent known token member
    exact ⟨stands, begun, Int.le_trans held grown⟩
  · intro one listed
    obtain ⟨shown, parts⟩ := entered.postings one listed
    refine ⟨shown, fun part member => ?_⟩
    exact ⟨(parts part member).1, Int.le_trans (parts part member).2 grown⟩

/-- A posting that lies within a transaction that is open goes to it. -/
theorem Pending.Entered.posting {heading : Heading} {postings : List PostingEntry} {stop : Int}
    {entry : PostingEntry} (entered : Entered path text first last heading postings stop)
    (shown : entry.Shown (Text.Utf8.encode text))
    (parts : ∀ part ∈ entry.parts,
      ((Source.ofText path text).offsets.byte first : Int) ≤ part.start ∧ part.stop ≤ stop) :
    Entered path text first last heading (postings ++ [entry]) stop := by
  refine { entered with postings := fun one member => ?_ }
  rcases List.mem_append.mp member with old | new
  · exact entered.postings one old
  · obtain rfl := List.mem_singleton.mp new
    exact ⟨shown, parts⟩

/-- The transaction that a heading with this flag becomes. -/
def Heading.entry (source : Source) (heading : Heading) (flag : Token)
    (postings : List PostingEntry) (stop : Int) : TransactionEntry where
  date := heading.date.text
  flag := flag.text
  payee := heading.payee.map fun token => Text.Quoted.decode token.text
  narration := heading.narration.map fun token => Text.Quoted.decode token.text
  tags := (heading.marks.filter fun token => token.terminal = .tag).map fun token =>
    token.text.drop 1
  postings
  dateSpan := source.tokenSpan heading.date
  flagSpan := source.tokenSpan flag
  narrationSpan := heading.narration.map source.tokenSpan
  span := ⟨(source.tokenSpan heading.date).start, stop⟩

/-- A transaction is closed exactly if it has a flag. -/
theorem Pending.finish_transaction_iff {source : Source} {heading : Heading}
    {postings : List PostingEntry} {stop : Int} {closed : List Directive} :
    Pending.finish source (.transaction heading postings stop) = .ok closed ↔
      ∃ flag, heading.flag = some flag ∧
        closed = [.transaction (heading.entry source flag postings stop)] := by
  simp only [Pending.finish]
  constructor
  · intro finished
    split at finished
    · cases finished
    · next flag flagged =>
      cases finished
      exact ⟨flag, flagged, rfl⟩
  · rintro ⟨flag, flagged, rfl⟩
    simp only [flagged]
    rfl

/-- The bytes of a transaction, found anew from its parts, are its span if all parts lie within
it. The extent takes the greatest of the ends, and that of the span is among them and bounds them
all. -/
theorem TransactionEntry.extent_eq {entry : TransactionEntry}
    (start : entry.span.start = entry.dateSpan.start)
    (parts : ∀ part ∈ entry.parts, part.stop ≤ entry.span.stop) : entry.extent = entry.span := by
  have upper : entry.extent.stop ≤ entry.span.stop := by
    refine foldl_max_le_iff.mpr ⟨parts _ (by simp [TransactionEntry.parts]), ?_⟩
    intro one member
    simp only [List.mem_append, List.mem_singleton, Option.mem_toList, List.mem_flatMap] at member
    rcases member with (rfl | narration) | ⟨posting, listed, part⟩
    · exact Int.le_refl _
    · obtain ⟨span, known, rfl⟩ := Option.map_eq_some_iff.mp narration
      exact parts span (by simp [TransactionEntry.parts, known])
    · have inner {span : Span} (held : span ∈ posting.parts) : span ∈ entry.parts := by
        simp only [TransactionEntry.parts, List.cons_append, List.mem_cons, List.mem_append]
        exact Or.inr (Or.inr (Or.inr (List.mem_flatMap.mpr ⟨posting, listed, held⟩)))
      simp only [PostingEntry.ends, List.mem_append, List.mem_singleton] at part
      rcases part with (rfl | amount) | rfl
      · exact parts _ (inner (by simp [PostingEntry.parts]))
      · obtain ⟨span, known, rfl⟩ := Option.map_eq_some_iff.mp (Option.mem_toList.mp amount)
        exact parts span (inner (by simp [PostingEntry.parts, known]))
      · exact parts _ (inner (by simp [PostingEntry.parts]))
  have lower : entry.span.stop ≤ entry.extent.stop :=
    (foldl_max_le_iff.mp (Int.le_refl _)).2 _ (by simp)
  calc entry.extent = ⟨entry.dateSpan.start, entry.extent.stop⟩ := rfl
    _ = ⟨entry.span.start, entry.span.stop⟩ := by rw [start, Int.le_antisymm upper lower]

/-- All parts of a transaction that is open lie within it. The parts are the tokens of the heading
and the postings, and of both it is known where they lie. -/
theorem Pending.Entered.parts {heading : Heading} {postings : List PostingEntry} {stop : Int}
    (entered : Entered path text first last heading postings stop) {flag : Token}
    (flagged : heading.flag = some flag) :
    ∀ part ∈ (heading.entry (Source.ofText path text) flag postings stop).parts,
      ((Source.ofText path text).offsets.byte first : Int) ≤ part.start ∧ part.stop ≤ stop := by
  have known := entered.tokens _ rfl
  have token {one : Token} (kept : one ∈ heading.date :: (heading.flag.toList ++
      heading.payee.toList ++ heading.narration.toList ++ heading.marks)) :
      ((Source.ofText path text).offsets.byte first : Int) ≤
          ((Source.ofText path text).tokenSpan one).start ∧
        ((Source.ofText path text).tokenSpan one).stop ≤ stop := by
    obtain ⟨stands, behind, before⟩ := known one kept
    have inside := Nat.le_trans (Nat.le_of_lt stands.positive) stands.inside
    exact ⟨Int.ofNat_le.mpr (Source.byte_mono path behind inside), before⟩
  intro part member
  simp only [TransactionEntry.parts, Heading.entry, List.mem_cons, List.cons_append,
    List.mem_append, Option.mem_toList, List.mem_flatMap] at member
  rcases member with rfl | rfl | narration | ⟨one, listed, held⟩
  · exact token (by simp)
  · exact token (by simp [flagged])
  · obtain ⟨text, narrated, rfl⟩ := Option.map_eq_some_iff.mp narration
    exact token (by simp [narrated])
  · exact (entered.postings one listed).2 part held

/-- A transaction that is closed shows what it says. What has been shown of the open transaction is
all that its entry says. -/
theorem Pending.Entered.finish {heading : Heading} {postings : List PostingEntry} {stop : Int}
    (entered : Entered path text first last heading postings stop) (inside : last ≤ text.length)
    {closed : List Directive}
    (finished : Pending.finish (Source.ofText path text) (.transaction heading postings stop) =
      .ok closed) : ∃ directive, closed = [directive] ∧ directive.Stands path text first last := by
  obtain ⟨flag, flagged, rfl⟩ := Pending.finish_transaction_iff.mp finished
  have parts := entered.parts flagged
  obtain ⟨begins, tokens, postingsShown, ends⟩ := entered
  have known := tokens _ rfl
  obtain ⟨date, _, dateStop⟩ := known heading.date (by simp)
  have forward : ((Source.ofText path text).offsets.byte heading.date.start : Int) < stop :=
    Int.lt_of_lt_of_le (Int.ofNat_lt.mpr (Source.byte_lt path date.positive date.inside)) dateStop
  have size := (Source.within_span path (Nat.zero_le last) inside).2.2
  refine ⟨_, rfl, ⟨⟨?_, ?_, ?_, ?_, ?_, ?_, ?_⟩, ?_, forward, ends⟩⟩
  · exact ⟨Int.natCast_nonneg _, Int.le_of_lt forward, Int.le_trans ends size⟩
  · exact date.shows path
  · exact (known flag (by simp [flagged])).1.shows path
  · intro span member
    obtain ⟨token, narrated, rfl⟩ := Option.map_eq_some_iff.mp member
    have stands := (known token (by simp [narrated])).1
    refine ⟨Text.Quoted.decode token.text, ?_, token.text, stands.shows path, rfl⟩
    rw [Heading.entry, narrated]
    rfl
  · exact fun one listed => (postingsShown one listed).1
  · intro part member
    obtain ⟨above, below⟩ := parts part member
    rw [← begins] at above
    exact ⟨above, below⟩
  · exact TransactionEntry.extent_eq rfl fun part member => (parts part member).2
  · exact congrArg (fun start => ((Source.ofText path text).offsets.byte start : Int)) begins

/-- An opening or a closing that is closed shows what it says. -/
theorem Pending.Declared.finish {make : Span → Directive} {span : Span}
    (declared : Declared path text first last make span) (inside : last ≤ text.length) :
    (make span).Stands path text first last := by
  have size := (Source.within_span path (Nat.zero_le last) inside).2.2
  have within : span.Within (Text.Utf8.encode text).length := by
    refine ⟨?_, Int.le_of_lt declared.forward, Int.le_trans declared.ends size⟩
    rw [declared.begins]
    exact Int.natCast_nonneg _
  obtain ⟨shown, same⟩ := declared.shown span within
  refine ⟨shown, ?_, ?_, ?_⟩
  · rw [same]
    exact declared.begins
  · rw [same]
    exact declared.forward
  · rw [same]
    exact declared.ends

/-- What stands between two positions is yielded as one directive that stands there. -/
theorem Pending.Stands.finish {pending : Pending} (stands : pending.Stands path text first last)
    (inside : last ≤ text.length) {closed : List Directive}
    (finished : pending.finish (Source.ofText path text) = .ok closed) :
    ∃ directive, closed = [directive] ∧ directive.Stands path text first last := by
  cases pending with
  | transaction heading postings stop => exact Entered.finish stands inside finished
  | account make span =>
    cases finished
    exact ⟨_, rfl, Declared.finish stands inside⟩
  | nothing => exact stands.elim
  | other => exact stands.elim

/-- Nothing is yielded where nothing is open. -/
theorem Pending.Idle.finish {pending : Pending} (idle : pending.Idle) {source : Source}
    {closed : List Directive} (finished : pending.finish source = .ok closed) : closed = [] := by
  rcases idle with rfl | rfl
  · cases finished
    rfl
  · cases finished
    rfl

end Open

/-! ## What a line does -/

namespace Progress

variable {path text : Text} {start stop : Nat} {line : Line} {pending : Pending}
  {included : List Phrase} {next : Progress} {collected : Collected}

/-- The opening or closing that a line declares stands on it. The line begins with its date and ends
with its comment or its last token, and the spans of both are the bytes that stand there. -/
theorem declared_line (standing : line.Standing text start stop) (ends : LineEndsAt text stop)
    {date : Token} {tokens : List Token} {last : Nat}
    (known : (⟨some date, date :: tokens, last⟩ : Extent) ∈ line.statement.extent?)
    {make : Span → Directive}
    (shown : ∀ other : Span, ((Source.ofText path text).tokenSpan date).Shows
        (Text.Utf8.encode text) date.text → other.Within (Text.Utf8.encode text).length →
      (make other).Shown (Text.Utf8.encode text) ∧ (make other).span = other) :
    Pending.Declared path text start stop make
      ((Source.ofText path text).span date.start (line.stop last)) := by
  have extent := standing.extent _ known
  obtain ⟨behind, before⟩ : last ≤ line.stop last ∧ line.stop last ≤ stop :=
    standing.stop_bounds known
  obtain ⟨stands, _, _⟩ := extent.tokens date (by simp)
  have begins : date.start = start := extent.lead date rfl
  have held : date.stop ≤ last := extent.held date (by simp)
  have positive := stands.positive
  have inside := ends.inside
  refine ⟨?_, ?_, ?_, fun other => shown other (stands.shows path)⟩
  · rw [begins]
    rfl
  · exact Int.ofNat_lt.mpr (Source.byte_lt path (by omega) (Nat.le_trans before inside))
  · exact Int.ofNat_le.mpr (Source.byte_mono path before inside)

/-- The transaction that a line begins stands on it. -/
theorem entered_line (standing : line.Standing text start stop) (ends : LineEndsAt text stop)
    {heading : Heading} (statement : line.statement = .transaction heading) :
    Pending.Entered path text start stop heading []
      ((Source.ofText path text).offsets.byte (line.stop heading.stop)) := by
  obtain ⟨whole, comment⟩ := line
  obtain rfl : whole = .transaction heading := statement
  have inside := ends.inside
  have extent := standing.extent _ rfl
  obtain ⟨behind, before⟩ := standing.stop_bounds rfl
  refine ⟨extent.lead heading.date rfl, ?_, by simp, ?_⟩
  · rintro _ ⟨⟩ token member
    obtain ⟨stands, begun, _⟩ := extent.tokens token member
    have held := extent.held token member
    refine ⟨stands, begun, Int.ofNat_le.mpr (Source.byte_mono path ?_ ?_)⟩
    · exact Nat.le_trans held behind
    · exact Nat.le_trans before inside
  · exact Int.ofNat_le.mpr (Source.byte_mono path before inside)

/-- The inclusion that a line is stands on it. -/
theorem included_line (standing : line.Standing text start stop) (ends : LineEndsAt text stop)
    {token : Token} (statement : line.statement = .inclusion token) :
    start ≤ token.start ∧ token.start ≤ text.length ∧
      Directive.Stands path text token.start stop
        (.inclusion (Text.Quoted.decode token.text) ((Source.ofText path text).tokenSpan token)) := by
  have known : (⟨none, [token], token.stop⟩ : Extent) ∈ line.statement.extent? := by
    rw [statement]
    rfl
  obtain ⟨stands, begun, before⟩ := (standing.extent _ known).tokens token (by simp)
  have positive := stands.positive
  have inside := ends.inside
  refine ⟨begun, by omega, ?_, rfl, ?_, ?_⟩
  · exact ⟨token.text, stands.shows path, rfl⟩
  · exact Int.ofNat_lt.mpr (Source.byte_lt path stands.positive stands.inside)
  · exact Int.ofNat_le.mpr (Source.byte_mono path before inside)

/-- What a line yields itself besides what it closes, and what it opens: a dated directive or
nothing at all, and an inclusion yields itself at once. -/
def Opens (path text : Text) (start stop : Nat) (next : Progress) (own : List Directive) : Prop :=
  (own = [] ∧ (next.pending.Idle ∨ next.pending.Stands path text start stop)) ∨
    (next.pending.Idle ∧ ∃ directive first, own = [directive] ∧ start ≤ first ∧
      first ≤ text.length ∧ directive.Stands path text first stop)

/-- A line that closes what is open yields it, and what it opens or yields itself stands on the
line. -/
theorem stands_of_closes (standing : line.Standing text start stop) (ends : LineEndsAt text stop)
    (closes : Closes line)
    (advanced : advance (Source.ofText path text) ⟨pending, included⟩ line =
      .ok (next, collected)) :
    ∃ closed own, pending.finish (Source.ofText path text) = .ok closed ∧
      collected.directives = closed ++ own ∧ Opens path text start stop next own := by
  -- All these lines close what is open in the same way and differ in what they open.
  have opened {opens : Pending} (stands : opens.Idle ∨ opens.Stands path text start stop)
      (same : ((pending.finish (Source.ofText path text)).map fun closed =>
        (⟨opens, included⟩, (⟨closed, []⟩ : Collected))) = .ok (next, collected)) :
      ∃ closed own, pending.finish (Source.ofText path text) = .ok closed ∧
        collected.directives = closed ++ own ∧ Opens path text start stop next own := by
    obtain ⟨closed, finished, made⟩ := map_eq_ok_iff.mp same
    cases made
    exact ⟨closed, [], finished, (List.append_nil _).symm, Or.inl ⟨rfl, stands⟩⟩
  cases statement : line.statement with
  | transaction heading =>
    simp only [advance, statement] at advanced
    refine opened (Or.inr ?_) advanced
    exact entered_line standing ends statement
  | opening date account currencies last =>
    simp only [advance, statement] at advanced
    refine opened (Or.inr ?_) advanced
    refine @declared_line _ _ _ _ _ standing ends _ (account :: currencies) _ ?_ _ ?_
    · rw [statement]
      rfl
    · exact fun other date within => ⟨⟨date, within⟩, rfl⟩
  | closing date account =>
    simp only [advance, statement] at advanced
    refine opened (Or.inr ?_) advanced
    refine @declared_line _ _ _ _ _ standing ends _ [account] _ ?_ _ ?_
    · rw [statement]
      rfl
    · exact fun other date within => ⟨⟨date, within⟩, rfl⟩
  | otherDated =>
    simp only [advance, statement] at advanced
    exact opened (Or.inl (Or.inr rfl)) advanced
  | otherUndated =>
    simp only [advance, statement] at advanced
    exact opened (Or.inl (Or.inl rfl)) advanced
  | inclusion token =>
    simp only [advance, statement] at advanced
    obtain ⟨closed, finished, made⟩ := map_eq_ok_iff.mp advanced
    cases made
    obtain ⟨begun, within, stands⟩ := included_line standing ends statement
    exact ⟨closed, _, finished, rfl,
      Or.inr ⟨Or.inl rfl, _, token.start, rfl, begun, within, stands⟩⟩
  | remark => simp [Closes, statement] at closes
  | posting posting => simp [Closes, statement] at closes
  | metadata key last => simp [Closes, statement] at closes

/-- A line that belongs to what is open yields nothing, and what is open ends no later than that
line. -/
theorem stands_of_attached (standing : line.Standing text start stop) (order : start ≤ stop)
    (ends : LineEndsAt text stop) (worded : line.statement.Worded text) (attached : ¬ Closes line)
    (advanced : advance (Source.ofText path text) ⟨pending, included⟩ line =
      .ok (next, collected)) :
    collected.directives = [] ∧ (pending.Idle → next.pending.Idle) ∧
      ∀ first last, first ≤ start → last ≤ start → pending.Stands path text first last →
        next.pending.Stands path text first stop := by
  have inside := ends.inside
  cases statement : line.statement with
  | remark =>
    simp only [advance, statement] at advanced
    cases advanced
    exact ⟨rfl, id, fun first last _ before stands => stands.mono (by omega) inside⟩
  | posting posting =>
    rw [statement] at worded
    obtain ⟨whole, comment⟩ := line
    obtain rfl : whole = .posting posting := statement
    obtain ⟨shown, parts, furthest⟩ := PostingEntry.shown_ofLine path standing ends worded
    cases pending with
    | transaction heading postings ending =>
      cases advanced
      refine ⟨rfl, ?_, fun first last below before stands => ?_⟩
      · rintro (idle | idle) <;> cases idle
      · have lower : ((Source.ofText path text).offsets.byte first : Int) ≤
            (Source.ofText path text).offsets.byte start :=
          Int.ofNat_le.mpr (Source.byte_mono path below (Nat.le_trans order inside))
        have later : Pending.Entered path text first stop heading postings ending :=
          Pending.Stands.mono stands (by omega) inside
        have grown := later.extend (Int.le_max_left _ _) (Int.max_le.mpr ⟨later.ends, furthest⟩)
        refine grown.posting shown fun part listed => ⟨Int.le_trans lower (parts part listed).1, ?_⟩
        exact Int.le_trans (parts part listed).2 (Int.le_max_right _ _)
    | nothing =>
      cases advanced
      exact ⟨rfl, id, fun _ _ _ _ stands => stands.elim⟩
    | other =>
      cases advanced
      exact ⟨rfl, id, fun _ _ _ _ stands => stands.elim⟩
    | account make span =>
      cases advanced
      exact ⟨rfl, id, fun first last _ before stands => stands.mono (by omega) inside⟩
  | metadata key keyStop =>
    have known : (⟨some key, [key], keyStop⟩ : Extent) ∈ line.statement.extent? := by
      rw [statement]
      rfl
    obtain ⟨behind, before⟩ : keyStop ≤ line.stop keyStop ∧ line.stop keyStop ≤ stop :=
      standing.stop_bounds known
    have begun : start ≤ keyStop := (standing.extent _ known).later
    have within := Int.ofNat_le.mpr (Source.byte_mono path before inside)
    cases pending with
    | transaction heading postings ending =>
      rw [advance_metadata statement] at advanced
      cases advanced
      refine ⟨rfl, ?_, fun first last _ before stands => ?_⟩
      · rintro (idle | idle) <;> cases idle
      · have later : Pending.Entered path text first stop heading postings ending :=
          Pending.Stands.mono stands (by omega) inside
        exact later.extend (Int.le_max_left _ _) (Int.max_le.mpr ⟨later.ends, within⟩)
    | account make span =>
      simp only [advance, statement] at advanced
      cases advanced
      refine ⟨rfl, ?_, fun first last _ early stands => ?_⟩
      · rintro (idle | idle) <;> cases idle
      · have further : ((Source.ofText path text).offsets.byte last : Int) ≤
            (Source.ofText path text).offsets.byte (line.stop keyStop) :=
          Int.ofNat_le.mpr (Source.byte_mono path (by omega) (Nat.le_trans before inside))
        refine ⟨stands.begins, ?_, within, stands.shown⟩
        exact Int.lt_of_lt_of_le stands.forward (Int.le_trans stands.ends further)
    | nothing =>
      simp only [advance, statement] at advanced
      cases advanced
      exact ⟨rfl, id, fun _ _ _ _ stands => stands.elim⟩
    | other =>
      simp only [advance, statement] at advanced
      cases advanced
      exact ⟨rfl, id, fun _ _ _ _ stands => stands.elim⟩
  | _ => simp [Closes, statement] at attached

end Progress

/-! ## The order of what is yielded -/

/-- A line feed stands between each of the marks and a position. -/
def Text.Behind (text : Text) (marks : List Nat) (position : Nat) : Prop :=
  ∀ mark ∈ marks, '\n' ∈ Text.slice text mark position

/-- Marks that lie behind a position lie behind every later position. -/
theorem Text.Behind.mono {text : Text} {marks : List Nat} {position later : Nat}
    (behind : text.Behind marks position) (order : position ≤ later) : text.Behind marks later :=
  fun mark member => Text.feed_mono (behind mark member) (Nat.le_refl _) order

/-- Directives stand in a text one after the other, behind some marks and with line feeds in
between. -/
structure Directive.Arrayed (path text : Text) (marks : List Nat) (directives : List Directive) :
    Prop where
  each : ∀ directive ∈ directives, ∃ first last, text.Behind marks first ∧ first ≤ text.length ∧
    directive.Stands path text first last
  apart : directives.Pairwise (Directive.Precedes (Text.Utf8.encode text))

section Order

variable {path text : Text} {marks : List Nat}

/-- No directives are arrayed trivially, whatever the marks are. -/
theorem Directive.Arrayed.nil : Directive.Arrayed path text marks [] :=
  ⟨by simp, .nil⟩

/-- A directive in front of others that have a line feed between its end and themselves. The line
feed between the two is what keeps the directives apart. -/
theorem Directive.Arrayed.cons {directive : Directive} {directives : List Directive}
    {first last : Nat} (stands : directive.Stands path text first last)
    (behind : text.Behind marks first) (inside : first ≤ text.length)
    (others : Directive.Arrayed path text (last :: marks) directives) :
    Directive.Arrayed path text marks (directive :: directives) := by
  constructor
  · intro one member
    rcases List.mem_cons.mp member with rfl | later
    · exact ⟨first, last, behind, inside, stands⟩
    · obtain ⟨start, stop, further, within, oneStands⟩ := others.each one later
      exact ⟨start, stop, fun mark known => further mark (List.mem_cons_of_mem _ known), within,
        oneStands⟩
  · refine List.pairwise_cons.mpr ⟨fun one member => ?_, others.apart⟩
    obtain ⟨start, stop, further, within, oneStands⟩ := others.each one member
    have feed := further last List.mem_cons_self
    have order : last ≤ start := Nat.le_of_lt (Text.lt_of_mem_slice feed)
    have ends : directive.span.stop ≤ one.span.start := by
      rw [oneStands.begins]
      exact Int.le_trans stands.ends (Int.ofNat_le.mpr (Source.byte_mono path order within))
    refine ⟨Int.lt_of_lt_of_le stands.forward ends, ends, ?_⟩
    calc Span.lineOf (Text.Utf8.encode text) directive.span.stop
        ≤ Span.lineOf (Text.Utf8.encode text) ((Source.ofText path text).offsets.byte last) :=
          Span.lineOf_mono stands.ends
      _ < Span.lineOf (Text.Utf8.encode text) ((Source.ofText path text).offsets.byte start) :=
          Source.lineOf_lt path feed within
      _ = Span.lineOf (Text.Utf8.encode text) one.span.start := by rw [oneStands.begins]

/-- What is open before some lines stands behind the marks, and a line feed follows it unless
there are no more lines. -/
def Pending.Ready (path text : Text) (marks : List Nat) (position : Nat) (lines : List Line)
    (pending : Pending) : Prop :=
  pending.Idle ∨ ∃ first last, text.Behind marks first ∧ first ≤ last ∧ last ≤ text.length ∧
    pending.Stands path text first last ∧ (lines = [] ∨ '\n' ∈ Text.slice text last position)

/-- Whatever is open before them, what these lines yield is arrayed. -/
def Statement.Arranges (path text : Text) (position : Nat) (lines : List Line) : Prop :=
  ∀ marks pending included collected, (lines = [] ∨ text.Behind marks position) →
    Pending.Ready path text marks position lines pending →
    collectFrom (Source.ofText path text) pending included lines = .ok collected →
    Directive.Arrayed path text marks collected.directives

/-- At the end of a file what is open is yielded. -/
theorem Statement.arranges_nil (position : Nat) : Arranges path text position [] := by
  intro marks pending included collected _ ready collects
  obtain ⟨closed, finished, same⟩ := bind_eq_ok_iff.mp collects
  cases same
  rcases ready with idle | ⟨first, last, behind, order, inside, stands, _⟩
  · obtain rfl := idle.finish finished
    exact .nil
  · obtain ⟨directive, rfl, placed⟩ := stands.finish inside finished
    exact .cons placed behind (Nat.le_trans order inside) .nil

/-- What is yielded by one line and by the lines after it is arrayed. The induction goes over the
lines; the marks are the ends of the directives that have been yielded so far. -/
theorem Statement.arranges_cons {position start stop next : Nat} {line : Line} {lines : List Line}
    (later : position ≤ start) (order : start ≤ stop) (ends : LineEndsAt text stop)
    (standing : line.Standing text start stop) (worded : line.statement.Worded text)
    (feed : lines = [] ∨ '\n' ∈ Text.slice text stop next)
    (others : Arranges path text next lines) : Arranges path text position (line :: lines) := by
  intro marks pending included collected begun ready collects
  obtain ⟨following, own, more, advanced, further, rfl⟩ :=
    (Progress.collectFrom_cons_iff ⟨pending, included⟩).mp collects
  have inside := ends.inside
  have behind : text.Behind marks start := by
    rcases begun with none | behind
    · cases none
    · exact behind.mono later
  -- Whatever is behind the marks here is so where the other lines begin.
  have goesOn {more : List Nat} (known : text.Behind more start) :
      lines = [] ∨ text.Behind more next := by
    rcases feed with none | feed
    · exact Or.inl none
    · exact Or.inr (known.mono (Nat.le_trans order (Nat.le_of_lt (Text.lt_of_mem_slice feed))))
  by_cases closes : Progress.Closes line
  · obtain ⟨closed, yielded, finished, same, opens⟩ :=
      Progress.stands_of_closes standing ends closes advanced
    have rest {bounds : List Nat} (known : text.Behind bounds start) :
        Directive.Arrayed path text bounds (yielded ++ more.directives) := by
      rcases opens with ⟨rfl, opened⟩ | ⟨idle, directive, first, rfl, above, within, stands⟩
      · refine others bounds _ _ _ (goesOn known) ?_ further
        rcases opened with idle | stands
        · exact Or.inl idle
        · exact Or.inr ⟨start, stop, known, order, inside, stands, feed⟩
      · refine .cons stands (known.mono above) within ?_
        refine others (stop :: bounds) _ _ _ ?_ (Or.inl idle) further
        rcases feed with none | feed
        · exact Or.inl none
        · refine Or.inr fun mark member => ?_
          rcases List.mem_cons.mp member with rfl | old
          · exact feed
          · exact Text.feed_mono (known mark old) (Nat.le_refl _)
              (Nat.le_trans order (Nat.le_of_lt (Text.lt_of_mem_slice feed)))
    rw [Collected.append_directives, same, List.append_assoc]
    rcases ready with idle | ⟨first, last, beyond, forward, within, stands, parted⟩
    · obtain rfl := idle.finish finished
      exact rest behind
    · obtain ⟨directive, rfl, placed⟩ := stands.finish within finished
      refine .cons placed beyond (Nat.le_trans forward within) (rest fun mark member => ?_)
      rcases List.mem_cons.mp member with rfl | old
      · rcases parted with none | feed
        · cases none
        · exact Text.feed_mono feed (Nat.le_refl _) later
      · exact behind mark old
  · obtain ⟨none, idles, stays⟩ :=
      Progress.stands_of_attached standing order ends worded closes advanced
    rw [Collected.append_directives, none, List.nil_append]
    refine others marks _ _ _ (goesOn behind) ?_ further
    rcases ready with idle | ⟨first, last, beyond, forward, within, stands, parted⟩
    · exact Or.inl (idles idle)
    · have early : last ≤ start := by
        rcases parted with none | feed
        · cases none
        · exact Nat.le_trans (Nat.le_of_lt (Text.lt_of_mem_slice feed)) later
      exact Or.inr ⟨first, stop, beyond, by omega, inside,
        stays first last (by omega) early stands, feed⟩

/-- What is yielded by lines that stand one after the other is arrayed. -/
theorem Statement.Laid.arranges {position : Nat} {lines : List Line}
    (laid : Laid text position lines) (worded : ∀ line ∈ lines, line.statement.Worded text) :
    Arranges path text position lines := by
  induction laid with
  | none position => exact arranges_nil position
  | @last position start stop line later order ends standing =>
    exact arranges_cons later order ends standing (worded line (by simp)) (Or.inl rfl)
      (arranges_nil stop)
  | @more position start stop next line lines later order ends standing beyond feed others ih =>
    refine arranges_cons later order ends standing (worded line (by simp)) (Or.inr feed) ?_
    exact ih fun one member => worded one (List.mem_cons_of_mem _ member)

end Order

/-- The directives of a text that has been read stand in it one after the other. -/
theorem Statement.Reading.arrayed {path text : Text} {lines : List Line} {collected : Collected}
    (reading : Reading .fileStart 0 text lines)
    (collects : collect (Source.ofText path text) lines = .ok collected) :
    Directive.Arrayed path text [] collected.directives := by
  have arranged : Statement.Arranges path text 0 lines :=
    reading.laid_whole.arranges reading.worded_whole
  exact arranged [] .nothing [] collected (Or.inr (by simp [Text.Behind])) (Or.inl (Or.inl rfl))
    collects

/-- The directives of a page without errors stand in its text one after the other. -/
theorem Page.arrayed {path : FilePath} {content : Bytes} {page : Page}
    (paged : Page.ofBytes path content = .ok page) (sound : page.errors = []) :
    ∃ text, content = Text.Utf8.encode text ∧
      Directive.Arrayed path.toText text [] page.directives := by
  obtain ⟨text, rfl, read⟩ := Page.encode_of_ofBytes paged sound
  refine ⟨text, rfl, ?_⟩
  by_cases something : page.directives = []
  · rw [something]
    exact .nil
  · obtain ⟨lines, collected, reading, collects, rfl⟩ := Page.reading_of_ofText read sound something
    exact reading.arrayed collects

/-- A transaction begins with its date, and shows it. -/
theorem Directive.Arrayed.shown {path text : Text} {directives : List Directive}
    (arrayed : Directive.Arrayed path text [] directives) {found : TransactionEntry}
    (member : .transaction found ∈ directives) :
    found.span.start = found.dateSpan.start ∧
      found.dateSpan.Shows (Text.Utf8.encode text) found.date := by
  obtain ⟨_, _, _, _, stands⟩ := arrayed.each _ member
  have shown : found.Shown (Text.Utf8.encode text) := stands.shown
  refine ⟨?_, shown.date⟩
  rw [← shown.extent]
  rfl

/-- A transaction begins before the ones that stand behind it. -/
theorem Page.transactions_ordered {path : FilePath} {content : Bytes} {page : Page}
    (paged : Page.ofBytes path content = .ok page) (sound : page.errors = []) :
    page.transactions.Pairwise fun first second =>
      first.dateSpan.start < second.dateSpan.start := by
  obtain ⟨text, _, arrayed⟩ := Page.arrayed paged sound
  rw [Page.transactions, List.pairwise_filterMap]
  refine arrayed.apart.imp_of_mem fun {first second} inside alsoInside precedes => ?_
  intro found same other alsoSame
  cases first <;> cases same
  cases second <;> cases alsoSame
  rw [← (arrayed.shown inside).1, ← (arrayed.shown alsoInside).1]
  exact precedes.begins

/-- The bytes at the beginning of a transaction are those of its date. -/
theorem Page.date_shown {path : FilePath} {content : Bytes} {page : Page}
    (paged : Page.ofBytes path content = .ok page) (sound : page.errors = [])
    {found : TransactionEntry} (member : .transaction found ∈ page.directives) :
    0 ≤ found.dateSpan.start ∧ found.dateSpan.start.toNat ≤ content.length ∧
      Text.Utf8.encode found.date <+: content.drop found.dateSpan.start.toNat := by
  obtain ⟨text, rfl, arrayed⟩ := Page.arrayed paged sound
  obtain ⟨⟨least, order, most⟩, bytes⟩ := (arrayed.shown member).2
  refine ⟨least, by omega, ?_⟩
  rw [← bytes, Span.bytes]
  exact List.take_prefix _ _

/-- The offset of its date leads to a transaction. -/
theorem Page.find_start {path : FilePath} {content : Bytes} {page : Page}
    (paged : Page.ofBytes path content = .ok page) (sound : page.errors = [])
    {found : TransactionEntry} (member : .transaction found ∈ page.directives) :
    page.find found.dateSpan.start = .ok found := by
  obtain ⟨text, _, arrayed⟩ := Page.arrayed paged sound
  obtain ⟨before, after, parts⟩ := List.append_of_mem member
  refine Page.find_of_directives parts fun other earlier same => ?_
  have inside : .transaction other ∈ page.directives := parts ▸ List.mem_append_left _ earlier
  have apart := arrayed.apart
  rw [parts, List.pairwise_append] at apart
  have begins := (apart.2.2 _ earlier _ List.mem_cons_self).begins
  simp only [Directive.span, (arrayed.shown inside).1, (arrayed.shown member).1, same] at begins
  exact Int.lt_irrefl _ begins

/-- Every span of a page without errors shows what it is the span of: the bytes of a date, a flag or
an account are those of its text, the bytes of a narration or of an included path are a quotation of
it, and the bytes of an amount are the number and the currency. Every span lies within the content,
and the parts of a transaction lie within its own span, which is the one that is found anew from
them. The directives stand in the order of the content, none of them on a line of another one. All
of it is proved of positions in the text, while the lines are read, and carried over to bytes at the
end: offsets keep the order of positions, and the bytes between two of them are those of the
characters in between. -/
theorem Page.spans_shown {path : FilePath} {content : Bytes} {page : Page}
    (paged : Page.ofBytes path content = .ok page) (sound : page.errors = []) :
    (∀ directive ∈ page.directives, directive.Shown content) ∧
      page.directives.Pairwise (Directive.Precedes content) := by
  obtain ⟨text, rfl, arrayed⟩ := Page.arrayed paged sound
  refine ⟨fun directive member => ?_, arrayed.apart⟩
  obtain ⟨first, last, _, _, stands⟩ := arrayed.each directive member
  exact stands.shown

/-- Whether a page has no errors and this number of directives. -/
def Page.isSoundWith (page : Page) (count : Nat) : Bool :=
  page.errors.isEmpty && page.directives.length == count

/-- A file with an opening and its metadata, a transaction with characters of several bytes, and
an inclusion without a line end. -/
def Page.threefold : Bytes := Text.Utf8.encode
  "2024-01-01 open A:B USD ; é\r\n  k: 1\n2024-01-05 * \"é\" #t\n  A:B  1.50 USD ; n\ninclude \"b\""

/-- The spans of an opening, a transaction and an inclusion show what they are the spans of. -/
theorem Page.threefold_shown : ∃ page,
    Page.ofBytes (FilePath.ofText "a.bean") Page.threefold = .ok page ∧ page.errors = [] ∧
      page.directives.length = 3 ∧
      (∀ directive ∈ page.directives, directive.Shown Page.threefold) ∧
      page.directives.Pairwise (Directive.Precedes Page.threefold) := by
  have shape : (Page.ofBytes (FilePath.ofText "a.bean") Page.threefold).toOption.any
      (Page.isSoundWith · 3) = true := by
    decide +kernel
  obtain ⟨page, paged, shape⟩ := exists_of_any shape
  simp only [Page.isSoundWith, Bool.and_eq_true, List.isEmpty_iff, beq_iff_eq] at shape
  obtain ⟨sound, count⟩ := shape
  obtain ⟨shown, ordered⟩ := Page.spans_shown paged sound
  exact ⟨page, paged, sound, count, shown, ordered⟩

end Daybook
