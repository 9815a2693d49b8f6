import Daybook.Page
import Daybook.Proofs.Directive.Endings

/-!
# Cutting a transaction out of a text

The lines of a file are parted at a transaction: those before it, its own lines, and those
after it. What stands before its first line and what stands behind its last one are read alike
when they are put together, and so everything but the transaction is collected again.
-/
namespace Daybook

open Lexeme Statement

/-! ## What two files have in common -/

namespace Source

/-- Two texts that begin alike have the beginning in common. -/
theorem alike_front (path front rest other : Text) :
    (ofText path (front ++ other)).Alike (ofText path (front ++ rest)) 0 0 0 front.length where
  offset := by
    intro position _ before
    have offsetOf (tail : Text) : (ofText path (front ++ tail)).offsets.byte position =
        (Text.Utf8.encode (front.take position)).length := by
      rw [byte_take path (by rw [List.length_append]; omega),
        List.take_append_of_le_length before]
    rw [Nat.add_zero, offsetOf rest, offsetOf other, Int.add_zero]
  text := by simp [ofText, Text.slice]
  inside := by simp [ofText]

/-- Two texts that end alike have the end in common, further down by as much as the one beginning
is longer than the other. -/
theorem alike_tail (path : Text) {front other : Text} {distance : Nat} {bytes : Int}
    (size : other.length = front.length + distance)
    (width : ((Text.Utf8.encode other).length : Int) = (Text.Utf8.encode front).length + bytes)
    (tail : Text) : (ofText path (front ++ tail)).Alike (ofText path (other ++ tail)) distance bytes
      front.length (front ++ tail).length where
  offset := by
    intro position after before
    obtain ⟨further, rfl⟩ := Nat.le.dest after
    rw [List.length_append] at before
    have near : (front ++ tail).take (front.length + further) = front ++ tail.take further :=
      List.take_length_add_append further
    have far : (other ++ tail).take (front.length + further + distance) =
        other ++ tail.take further := by
      have order : front.length + further + distance = other.length + further := by omega
      rw [order, List.take_length_add_append]
    rw [byte_take path (by simp only [List.length_append]; omega),
      byte_take path (by simp only [List.length_append]; omega), near, far]
    simp only [Text.Utf8.encode_append, List.length_append]
    omega
  text := by
    have nearSize : (front ++ tail).length - front.length = tail.length := by
      simp only [List.length_append]
      omega
    have farSize : (front ++ tail).length + distance - other.length = tail.length := by
      simp only [List.length_append]
      omega
    simp only [ofText, Text.slice]
    rw [← size, farSize, nearSize, List.drop_left, List.drop_left]
  inside := Nat.le_refl _

/-- A text with and without a part in the middle: what follows that part is in common, by the
length of the part further down. -/
theorem alike_back (path front middle back : Text) :
    (ofText path (front ++ back)).Alike (ofText path (front ++ (middle ++ back))) middle.length
      (Text.Utf8.encode middle).length front.length (front ++ back).length := by
  rw [← List.append_assoc]
  refine alike_tail path List.length_append ?_ back
  rw [Text.Utf8.encode_append, List.length_append, Int.natCast_add]

end Source

/-- A line that stands in a part that two files have in common lies within it. Only a posting
looks beyond its tokens, for the line feed behind its account, and so the part has to hold that
as well. -/
theorem Line.Standing.within {near far : Source} {text : Text} {distance first last : Nat}
    {start stop : Nat} {line : Line} (standing : line.Standing text start stop)
    (after : first ≤ start) (before : stop ≤ last)
    (feed : ∀ posting, line.statement = .posting posting →
      '\n' ∈ Text.slice near.text posting.account.stop last ∨
        (last = near.text.length ∧ LineOver (far.text.drop (last + distance)))) :
    line.Within near far distance first last where
  tokens := by
    intro extent known token member
    obtain ⟨_, begins, ends⟩ := (standing.extent extent known).tokens token member
    exact ⟨by omega, by omega⟩
  stop := by
    intro extent known
    have later := (standing.extent extent known).later
    have inside := (standing.extent extent known).inside
    exact ⟨by omega, by omega⟩
  comment := by
    intro comment noted extent known
    obtain ⟨_, inside, behind⟩ := standing.comment comment noted
    exact ⟨behind extent known, by omega⟩
  feed := feed

/-! ## The lines of a transaction -/

/-- The lines of a file parted at a transaction: the lines before it, its heading, the lines
that belong to it, and the lines after them. -/
structure Parting (source : Source) (lines : List Line) (collected : Collected)
    (before : List Directive) (entry : TransactionEntry) (after : List Directive) where
  earlier : List Line
  line : Line
  attached : List Line
  later : List Line
  heading : Heading
  progress : Progress
  first : Collected
  closed : List Directive
  postings : List PostingEntry
  stop : Int
  others : Collected
  parts : lines = earlier ++ line :: (attached ++ later)
  statement : line.statement = .transaction heading
  belongs : Progress.Attached attached
  unattached : Progress.Closed later
  begun : Progress.advanceAll source ⟨.nothing, []⟩ earlier = .ok (progress, first)
  finished : progress.pending.finish source = .ok closed
  before_eq : before = first.directives ++ closed
  advanced : Progress.advanceAll source
    ⟨.transaction heading [] (source.offsets.byte (line.stop heading.stop)), progress.included⟩
    attached = .ok (⟨.transaction heading postings stop, progress.included⟩, .nothing)
  entered : Pending.finish source (.transaction heading postings stop) = .ok [.transaction entry]
  remaining : collectFrom source .nothing progress.included later = .ok others
  after_eq : after = others.directives
  warnings : collected.warnings = first.warnings ++ others.warnings

/-- Wherever a transaction is collected, the lines can be parted. The transaction is given back by
the line that opens it, and the lines that close nothing until it is finished belong to it. -/
theorem parting_of_collect {source : Source} {lines : List Line} {collected : Collected}
    {before after : List Directive} {entry : TransactionEntry}
    (whole : collect source lines = .ok collected)
    (parts : collected.directives = before ++ .transaction entry :: after) :
    Nonempty (Parting source lines collected before entry after) := by
  rcases @Progress.heading_of_collected source ⟨.nothing, []⟩ _ _ trivial whole _ _ _ parts with
    ⟨_, none⟩ | ⟨earlier, line, further, heading, progress, first, closed, rfl, statement, begun,
      finished, rfl⟩
  · exact absurd rfl none
  obtain ⟨reached, yielded, rest, again, onward, rfl⟩ :=
    (@Progress.collectFrom_append_iff source ⟨.nothing, []⟩ earlier _ _).mp whole
  obtain ⟨rfl, rfl⟩ := Prod.mk.inj (Except.ok.inj (begun.symm.trans again))
  obtain ⟨next, opened, final, stepped, inner, rfl⟩ :=
    (Progress.collectFrom_cons_iff progress).mp onward
  have opens : progress.advance source line =
      (progress.pending.finish source).map fun closed =>
        (⟨.transaction heading [] (source.offsets.byte (line.stop heading.stop)),
          progress.included⟩, ⟨closed, []⟩) := by
    simp only [Progress.advance, statement]
  rw [opens, finished] at stepped
  obtain ⟨rfl, rfl⟩ := Prod.mk.inj (Except.ok.inj stepped)
  obtain ⟨attached, later, postings, stop, found, others, rfl, belongs, unattached, advanced, entered,
    remaining, rfl⟩ := Progress.collectFrom_transaction inner
  simp only [Collected.append_directives, List.append_assoc, List.append_cancel_left_eq,
    List.cons_append, List.nil_append, List.cons.injEq, Directive.transaction.injEq] at parts
  obtain ⟨rfl, rfl⟩ := parts
  exact ⟨{ earlier, line, attached, later, heading, progress, first, closed, postings, stop, others,
           parts := rfl, statement, belongs, unattached, begun, finished, before_eq := rfl, advanced,
           entered, remaining, after_eq := rfl, warnings := by simp }⟩

/-! ## The text of a transaction -/

/-- A text parted where its lines are parted: the text that is kept, the lines that are taken out
up to the last thing that is kept of them, the rest of the last one, the line end, and the rest. -/
structure Removal (text : Text) (earlier later : List Line) where
  kept : Text
  body : Text
  tail : Text
  ending : Text
  rest : Text
  moved : List Line
  whole : text = kept ++ ((body ++ tail ++ ending) ++ rest)
  quiet : '\n' ∉ tail
  form : ending = ['\n'] ∨ ending = ['\r', '\n'] ∨ (ending = [] ∧ rest = [])
  later_eq : later = moved.map (Line.shift (body ++ tail ++ ending).length)
  reading : Reading .lineStart kept.length rest moved
  joins : ∀ other more, Reading .lineStart kept.length other more →
    Reading .fileStart 0 (kept ++ other) (earlier ++ more)
  apart : ∀ one ∈ earlier, ∃ first last, one.Standing text first last ∧ last ≤ kept.length ∧
    '\n' ∈ Text.slice text last kept.length

/-- A text parted at a transaction, whose bytes begin where what is taken out begins and end on
the last line of it. -/
structure Excision (text : Text) (earlier later : List Line) (entry : TransactionEntry) extends
    Removal text earlier later where
  start : entry.dateSpan.start = (Text.Utf8.encode kept).length
  span_start : entry.span.start = (Text.Utf8.encode kept).length
  extent_start : entry.extent.start = (Text.Utf8.encode kept).length
  lower : ((Text.Utf8.encode (kept ++ body)).length : Int) ≤ entry.span.stop
  order : entry.span.stop ≤ entry.extent.stop
  upper : entry.extent.stop ≤ (Text.Utf8.encode (kept ++ body ++ tail)).length

/-- A heading, a posting and a metadata line keep the token that begins them. -/
theorem Progress.lead_of_not_closes {line : Line} (belongs : ¬ Closes line)
    (remark : line.statement ≠ .remark) :
    ∃ extent ∈ line.statement.extent?, ∃ token, token ∈ extent.lead := by
  cases statement : line.statement with
  | remark => exact absurd statement remark
  | posting posting => exact ⟨_, rfl, _, rfl⟩
  | metadata key stop => exact ⟨_, rfl, _, rfl⟩
  | _ => simp [Closes, statement] at belongs

/-- A line that is kept begins at one place only. -/
theorem Line.Standing.start_unique {text : Text} {start stop other last : Nat} {line : Line}
    (standing : line.Standing text start stop) (again : line.Standing text other last)
    {extent : Extent} (known : extent ∈ line.statement.extent?) {token : Token}
    (lead : token ∈ extent.lead) : start = other :=
  ((standing.extent extent known).lead token lead).symm.trans
    ((again.extent extent known).lead token lead)

/-- Reading parts before one of its lines where that line begins. -/
theorem Statement.Reading.divideAt {text : Text} {lines before after : List Line} {line : Line}
    (reading : Reading .fileStart 0 text lines) (parts : lines = before ++ line :: after) :
    ∃ position stop, position ≤ text.length ∧ line.Standing text position stop ∧
      position ≤ stop ∧ EndsAt text stop after ∧
      ∀ other more, Reading .lineStart position other more →
        Reading .fileStart 0 (text.take position ++ other) (before ++ more) := by
  obtain ⟨front, rest, rfl, _, later, ⟨token, tail, begins, within⟩, joins⟩ :=
    reading.divide parts (Or.inl rfl)
  rw [Nat.zero_add] at later begins joins
  have following : rest = (front ++ rest).drop front.length := List.drop_left.symm
  rw [following] at later begins
  obtain ⟨first, others, stop, same, standing, order, _, ends⟩ := later.firstLine begins within
  obtain ⟨rfl, rfl⟩ := List.cons.inj same
  refine ⟨front.length, stop, by simp, standing, order, ends, ?_⟩
  rw [List.take_left]
  exact joins

/-- Where a line ends, the other lines are read from behind its line end. -/
theorem Statement.EndsAt.rest {text : Text} {stop : Nat} {after : List Line}
    (ends : EndsAt text stop after) : ∃ ending rest, text.drop stop = ending ++ rest ∧
      (ending = ['\n'] ∨ ending = ['\r', '\n'] ∨ (ending = [] ∧ rest = [])) ∧
      Reading .lineStart (stop + ending.length) rest after := by
  cases ends with
  | text whole =>
    refine ⟨[], [], by simp [whole], Or.inr (Or.inr ⟨rfl, rfl⟩), .textEnd rfl⟩
  | line form next reading =>
    exact ⟨_, _, next, form.imp_right Or.inl, reading⟩

/-- Where the lines of a directive with a date stand: the date is at `opening`, the last thing
that its last line keeps ends at `kept`, and that line ends at `bound`. -/
structure Located (text : Text) (earlier : List Line) (line : Line) (attached later : List Line)
    (date : Token) (opening kept bound : Nat) : Prop where
  date : date.start = opening
  order : opening ≤ kept ∧ kept ≤ bound
  last : ∃ final ∈ (line :: attached).getLast?, ∃ extent ∈ final.statement.extent?,
    extent.stop = kept
  upTo : ∀ one ∈ line :: attached, UpTo text bound one
  quiet : '\n' ∉ Text.slice text kept bound
  ends : EndsAt text bound later
  joins : ∀ other more, Reading .lineStart opening other more →
    Reading .fileStart 0 (text.take opening ++ other) (earlier ++ more)
  apart : ∀ one ∈ earlier, ∃ first last, one.Standing text first last ∧ last ≤ opening ∧
    '\n' ∈ Text.slice text last opening

/-- The lines of a directive stand one after the other, and each begins with a token that is
kept; so the place of the first and of the last one can be told from what they keep. -/
theorem located_of_reading {text : Text} {lines earlier attached later : List Line} {line : Line}
    {date : Token} (reading : Reading .fileStart 0 text lines)
    (parts : lines = earlier ++ line :: (attached ++ later))
    (begins : ∃ extent ∈ line.statement.extent?, date ∈ extent.lead)
    (belongs : Progress.Attached attached) :
    ∃ opening kept bound, Located text earlier line attached later date opening kept bound := by
  obtain ⟨front, final, block⟩ : ∃ front final, line :: attached = front ++ [final] :=
    ⟨_, _, (List.dropLast_append_getLast (List.cons_ne_nil line attached)).symm⟩
  obtain ⟨headingExtent, headingIn, headingLead⟩ := begins
  have finalMember : final ∈ line :: attached := block ▸ List.mem_append_right _ List.mem_cons_self
  obtain ⟨extent, known, token, lead⟩ :
      ∃ extent ∈ final.statement.extent?, ∃ token, token ∈ extent.lead := by
    cases attached with
    | nil =>
      obtain rfl := List.mem_singleton.mp finalMember
      exact ⟨headingExtent, headingIn, _, headingLead⟩
    | cons one attached =>
      have last : (one :: attached).getLast? = some final := by
        rw [← List.getLast?_cons_cons (a := line), block, List.getLast?_concat]
      exact Progress.lead_of_not_closes (belongs.each final (List.mem_of_getLast? last))
        (belongs.last final last)
  have laid : Laid text 0 lines := (show Reading .fileStart 0 (text.drop 0) lines from
    reading).laid (Or.inl rfl)
  have lastParts : lines = (earlier ++ front) ++ final :: later := by
    rw [parts, ← List.cons_append, block]
    simp
  obtain ⟨opening, _, _, headingStanding, _, _, joins⟩ := reading.divideAt parts
  obtain ⟨begins, bound, _, finalStanding, _, ends, _⟩ := reading.divideAt lastParts
  -- The same line begins at the same place, however it has been found.
  obtain ⟨firstStart, _, _, _, _, firstStanding, _, apart⟩ := laid.before parts
  obtain rfl := headingStanding.start_unique firstStanding headingIn headingLead
  obtain ⟨lastStart, _, _, _, _, lastStanding, _, before⟩ := laid.before lastParts
  obtain rfl := finalStanding.start_unique lastStanding known lead
  have finalExtent := finalStanding.extent extent known
  have within : begins ≤ extent.stop ∧ extent.stop ≤ bound := ⟨finalExtent.later, finalExtent.inside⟩
  have openingLe : opening ≤ begins := by
    have member : line ∈ front ++ [final] := block ▸ List.mem_cons_self
    rcases List.mem_append.mp member with early | last
    · obtain ⟨start, stop, _, between, _, standing, order, _⟩ :=
        before line (List.mem_append_right _ early)
      have same := headingStanding.start_unique standing headingIn headingLead
      omega
    · obtain rfl := List.mem_singleton.mp last
      exact Nat.le_of_eq (headingStanding.start_unique finalStanding headingIn headingLead)
  refine ⟨opening, extent.stop, bound,
    (headingStanding.extent headingExtent headingIn).lead date headingLead,
    ⟨by omega, within.2⟩, ⟨final, block ▸ List.getLast?_concat, extent, known, rfl⟩, ?_,
    finalExtent.quiet, ends, joins, ?_⟩
  · intro one member
    rw [block] at member
    rcases List.mem_append.mp member with early | last
    · obtain ⟨start, stop, _, _, lineEnds, standing, order, _⟩ :=
        before one (List.mem_append_right _ early)
      exact ⟨start, stop, standing, lineEnds, by omega⟩
    · obtain rfl := List.mem_singleton.mp last
      exact ⟨begins, bound, finalStanding, ends.lineEndsAt, Nat.le_refl _⟩
  · intro one member
    obtain ⟨first, last, _, _, _, standing, order, feed⟩ := apart one member
    exact ⟨first, last, standing, order, feed⟩

/-- The bytes of a transaction begin with its date and end on its last line, behind what that
line keeps. -/
theorem Parting.bytes {path text : Text} {lines : List Line} {collected : Collected}
    {before after : List Directive} {entry : TransactionEntry}
    (parting : Parting (Source.ofText path text) lines collected before entry after)
    {opening kept bound : Nat} (located : Located text parting.earlier parting.line
      parting.attached parting.later parting.heading.date opening kept bound) :
    entry.dateSpan.start = (Source.ofText path text).offsets.byte opening ∧
      entry.span.start = entry.dateSpan.start ∧ entry.extent.start = entry.dateSpan.start ∧
      ((Source.ofText path text).offsets.byte kept : Int) ≤ entry.span.stop ∧
      entry.span.stop ≤ entry.extent.stop ∧
      entry.extent.stop ≤ (Source.ofText path text).offsets.byte bound := by
  obtain ⟨headingExtent, headingIn, headingStop⟩ :
      ∃ extent ∈ parting.line.statement.extent?, extent.stop = parting.heading.stop := by
    rw [parting.statement]
    exact ⟨_, rfl, rfl⟩
  have inside := located.ends.lineEndsAt.inside
  have mono {first second : Nat} (order : first ≤ second) (within : second ≤ bound) :
      ((Source.ofText path text).offsets.byte first : Int) ≤
        (Source.ofText path text).offsets.byte second :=
    Int.ofNat_le.mpr (Source.byte_mono path order (Nat.le_trans within inside))
  obtain ⟨start, stop, standing, _, order⟩ := located.upTo _ List.mem_cons_self
  have headingEnd := standing.stop_bounds headingIn
  rw [headingStop] at headingEnd
  have headingBound := Nat.le_trans headingEnd.2 order
  obtain ⟨bounded, grown, each⟩ := Progress.bounds_of_advanceAll inside
    (fun one member => ⟨parting.belongs.each one member,
      located.upTo one (List.mem_cons_of_mem _ member)⟩)
    ⟨mono headingBound (Nat.le_refl _), by simp⟩ parting.advanced
  have lower : ((Source.ofText path text).offsets.byte kept : Int) ≤ parting.stop := by
    obtain ⟨final, last, extent, known, rfl⟩ := located.last
    rcases List.mem_cons.mp (List.mem_of_getLast? last) with rfl | member
    · obtain rfl := Option.some.inj ((Option.mem_def.mp known).symm.trans headingIn)
      rw [headingStop]
      exact Int.le_trans (mono headingEnd.1 headingBound) grown
    · exact each final member extent known
  have tokens : ∀ extent ∈ (Statement.transaction parting.heading).extent?,
      ∀ token ∈ extent.tokens, token.stop ≤ bound := by
    intro one member token listed
    rw [← parting.statement] at member
    exact Nat.le_trans ((standing.extent one member).tokens token listed).2.2 order
  obtain ⟨span, extentStart, dateSpan, beyond, upper⟩ :=
    TransactionEntry.extent_bounds bounded inside tokens parting.entered
  rw [span]
  refine ⟨?_, rfl, extentStart, lower, beyond, upper⟩
  rw [dateSpan, ← located.date]
  rfl

/-- The lines of a directive can be cut out of their text. The text is divided at the three
positions, and what follows the last of them is read as it was before. -/
theorem Located.removal {text : Text} {earlier attached later : List Line} {line : Line}
    {date : Token} {opening kept bound : Nat}
    (located : Located text earlier line attached later date opening kept bound) :
    ∃ removal : Removal text earlier later, removal.kept = text.take opening ∧
      removal.kept ++ removal.body = text.take kept ∧
      removal.kept ++ removal.body ++ removal.tail = text.take bound := by
  obtain ⟨first, second⟩ := located.order
  have inside := located.ends.lineEndsAt.inside
  obtain ⟨ending, rest, following, form, further⟩ := located.ends.rest
  have body : text.take opening ++ Text.slice text opening kept = text.take kept :=
    Text.take_append_slice first
  have tail : text.take kept ++ Text.slice text kept bound = text.take bound :=
    Text.take_append_slice second
  have size : (text.take opening).length = opening := by
    rw [List.length_take]
    omega
  have place : bound + ending.length = opening + (Text.slice text opening kept ++
      Text.slice text kept bound ++ ending).length := by
    simp only [Text.slice, List.length_append, List.length_take, List.length_drop]
    omega
  rw [place] at further
  obtain ⟨moved, laterEq, reading⟩ :=
    (show Reading (Place.lineStart.shift _) _ rest later from further).unshift
  exact ⟨{
    kept := text.take opening
    body := Text.slice text opening kept
    tail := Text.slice text kept bound
    ending, rest, moved
    whole := by
      rw [← List.append_assoc, ← List.append_assoc, ← List.append_assoc, body, tail,
        List.append_assoc, ← following, List.take_append_drop]
    quiet := located.quiet
    form
    later_eq := laterEq
    reading := by
      rw [size]
      exact reading
    joins := by
      rw [size]
      exact located.joins
    apart := by
      rw [size]
      exact located.apart }, rfl, body, (congrArg (· ++ _) body).trans tail⟩

/-- A transaction can be cut out of its text where its lines are. The line of the date begins the
cut and the end of the line of the last posting ends it; the bytes of both are those of the span. -/
theorem Parting.excision {path text : Text} {lines : List Line} {collected : Collected}
    {before after : List Directive} {entry : TransactionEntry}
    (parting : Parting (Source.ofText path text) lines collected before entry after)
    (reading : Reading .fileStart 0 text lines) :
    Nonempty (Excision text parting.earlier parting.later entry) := by
  have begins : ∃ extent ∈ parting.line.statement.extent?, parting.heading.date ∈ extent.lead := by
    rw [parting.statement]
    exact ⟨_, rfl, rfl⟩
  obtain ⟨opening, kept, bound, located⟩ :=
    located_of_reading reading parting.parts begins parting.belongs
  obtain ⟨start, spanStart, extentStart, lower, beyond, upper⟩ := parting.bytes located
  obtain ⟨first, second⟩ := located.order
  have inside := located.ends.lineEndsAt.inside
  have byteOf {position : Nat} (within : position ≤ bound) :
      (Source.ofText path text).offsets.byte position =
        (Text.Utf8.encode (text.take position)).length :=
    Source.byte_take path (Nat.le_trans within inside)
  rw [byteOf (by omega)] at start lower upper
  obtain ⟨removal, front, body, tail⟩ := located.removal
  rw [← front] at start
  rw [← body] at lower
  rw [← tail] at upper
  exact ⟨{ removal with
    start
    span_start := spanStart.trans start
    extent_start := extentStart.trans start
    lower, order := beyond, upper }⟩

/-! ## What is left -/

/-- A directive that is moved by nothing stays where it is. -/
theorem Directive.shift_zero (directive : Directive) : directive.shift 0 = directive := by
  have spans (span : Span) : span.shift 0 = span := by
    simp [Span.shift]
  have options (spans : Option Span) : spans.map (Span.shift 0) = spans := by
    cases spans <;> simp [Span.shift]
  have postings (entries : List PostingEntry) :
      entries.map (PostingEntry.shift 0) = entries := by
    refine List.map_id'' (fun entry => ?_) entries
    simp [PostingEntry.shift, spans, options]
  cases directive <;> simp [Directive.shift, TransactionEntry.shift, spans, options, postings]

/-- What is moved down and up again stays where it is. -/
theorem Span.shift_neg (bytes : Int) (span : Span) : (span.shift bytes).shift (-bytes) = span := by
  simp only [Span.shift, Int.add_neg_cancel_right]

/-- Shifting an optional span forth and back leaves it where it was. -/
theorem Span.map_shift_neg (bytes : Int) (span : Option Span) :
    (span.map (Span.shift bytes)).map (Span.shift (-bytes)) = span := by
  cases span <;> simp [Span.shift_neg]

/-- A posting shifted forth and back is the same posting, in each of its spans. -/
theorem PostingEntry.shift_neg (bytes : Int) (entry : PostingEntry) :
    (entry.shift bytes).shift (-bytes) = entry := by
  simp only [shift, Span.shift_neg, Span.map_shift_neg]

/-- A directive shifted forth and back is the same directive. It follows part by part, from the
postings and the optional spans. -/
theorem Directive.shift_neg (bytes : Int) (directive : Directive) :
    (directive.shift bytes).shift (-bytes) = directive := by
  have postings (entries : List PostingEntry) :
      (entries.map (PostingEntry.shift bytes)).map (PostingEntry.shift (-bytes)) = entries := by
    rw [List.map_map]
    exact List.map_id'' (PostingEntry.shift_neg bytes) entries
  cases directive <;>
    simp only [Directive.shift, TransactionEntry.shift, Span.shift_neg, Span.map_shift_neg, postings]

/-- A line that is moved by nothing stays where it is. -/
theorem Line.shift_zero (line : Line) : line.shift 0 = line := by
  have tokens (token : Token) : token.shift 0 = token := rfl
  have options (token : Option Token) : token.map (Token.shift 0) = token := by
    cases token <;> rfl
  have lists (several : List Token) : several.map (Token.shift 0) = several :=
    List.map_id'' tokens several
  obtain ⟨statement, comment⟩ := line
  cases statement <;> simp [Line.shift, Statement.shift, Heading.shift, PostingLine.shift, tokens,
    options, lists]

/-- A line that is moved twice is moved by the sum. -/
theorem Line.shift_add (first second : Nat) (line : Line) :
    (line.shift first).shift second = line.shift (first + second) := by
  have tokens (token : Token) : (token.shift first).shift second = token.shift (first + second) := by
    simp [Token.shift, Nat.add_assoc]
  have options (token : Option Token) : (token.map (Token.shift first)).map (Token.shift second) =
      token.map (Token.shift (first + second)) := by
    cases token <;> simp [tokens]
  have lists (several : List Token) : (several.map (Token.shift first)).map (Token.shift second) =
      several.map (Token.shift (first + second)) := by
    simp [tokens]
  obtain ⟨statement, comment⟩ := line
  cases statement <;> simp only [Line.shift, Statement.shift, Heading.shift, PostingLine.shift,
    tokens, options, lists, Nat.add_assoc]

/-- A line closes what is open wherever it stands. -/
theorem Progress.closes_shift_iff {distance : Nat} {line : Line} :
    Closes (line.shift distance) ↔ Closes line := by
  obtain ⟨statement, comment⟩ := line
  cases statement <;> exact Iff.rfl

/-- Where nothing more can belong to an open directive, that is so further down as well. -/
theorem Progress.closed_shift_iff {distance : Nat} {lines : List Line} :
    Closed (lines.map (Line.shift distance)) ↔ Closed lines := by
  induction lines with
  | nil => exact Iff.rfl
  | cons line rest ih =>
    have remark : (line.shift distance).statement = .remark ↔ line.statement = .remark := by
      obtain ⟨statement, comment⟩ := line
      cases statement <;> simp [Line.shift, Statement.shift]
    exact or_congr (and_congr remark ih) closes_shift_iff

/-- The lines before a transaction do what they do whatever stands behind them. The lines lie in the
part that the two texts have in common, and collecting asks nothing else of a text. -/
theorem Parting.front {path text kept rest : Text} {lines : List Line} {collected : Collected}
    {before after : List Directive} {entry : TransactionEntry}
    (parting : Parting (Source.ofText path text) lines collected before entry after)
    (whole : text = kept ++ rest)
    (apart : ∀ one ∈ parting.earlier, ∃ first last, one.Standing text first last ∧
      last ≤ kept.length ∧ '\n' ∈ Text.slice text last kept.length) (other : Text) :
    ∃ progress first closed,
      Progress.advanceAll (Source.ofText path (kept ++ other)) ⟨.nothing, []⟩ parting.earlier =
        .ok (progress, first) ∧
      progress.pending.finish (Source.ofText path (kept ++ other)) = .ok closed ∧
      progress.included = parting.progress.included ∧ before = first.directives ++ closed ∧
      first.warnings.map Diagnostic.message = parting.first.warnings.map Diagnostic.message := by
  subst whole
  have alike := Source.alike_front path kept rest other
  have within : ∀ line ∈ parting.earlier, line.Within (Source.ofText path (kept ++ other))
      (Source.ofText path (kept ++ rest)) 0 0 kept.length := by
    intro line member
    obtain ⟨first, last, standing, before, feed⟩ := apart line member
    refine standing.within (Nat.zero_le _) before fun posting statement => Or.inl ?_
    have account : posting.account.stop ≤ last := by
      obtain ⟨extent, known, listed⟩ :
          ∃ extent ∈ line.statement.extent?, posting.account ∈ extent.tokens := by
        rw [statement]
        exact ⟨_, rfl, by simp⟩
      exact ((standing.extent extent known).tokens _ listed).2.2
    rw [← alike.slice (Nat.zero_le _) (Nat.le_refl _)]
    simp only [Nat.add_zero, Source.ofText]
    rw [Text.slice_append account before]
    exact List.mem_append_right _ feed
  have still : parting.earlier.map (Line.shift 0) = parting.earlier :=
    List.map_id'' Line.shift_zero _
  have zero (directives : List Directive) : directives.map (Directive.shift 0) = directives :=
    List.map_id'' Directive.shift_zero _
  have front := alike.advanceAll_moved within
    (show Progress.Moved 0 0 0 kept.length ⟨.nothing, []⟩ ⟨.nothing, []⟩ from ⟨.nothing, rfl⟩)
  rw [still, parting.begun] at front
  obtain ⟨⟨progress, first⟩, begun, movedProgress, movedFirst⟩ := front.of_ok_right
  have closing := alike.finish_moved movedProgress.pending
  rw [parting.finished] at closing
  obtain ⟨closed, finished, sameClosed⟩ := closing.of_ok_right
  have sameFirst := movedFirst.directives
  rw [zero] at sameFirst sameClosed
  exact ⟨progress, first, closed, begun, finished, movedProgress.included.symm,
    parting.before_eq.trans (by rw [sameFirst, sameClosed]), movedFirst.messages.symm⟩

/-- Lines at the end of a text are collected to the same with a part in front of them and without it,
further down by the bytes of that part. -/
theorem Statement.Reading.collectFrom_back {kept rest : Text} {moved : List Line}
    (reading : Reading .lineStart kept.length rest moved) (path removed : Text)
    (included : List Phrase) :
    Agree (Collected.Moved (Text.Utf8.encode removed).length)
      (collectFrom (Source.ofText path (kept ++ rest)) .nothing included moved)
      (collectFrom (Source.ofText path (kept ++ (removed ++ rest))) .nothing included
        (moved.map (Line.shift removed.length))) := by
  have laid : Laid (kept ++ rest) kept.length moved := by
    refine (show Reading .lineStart _ _ moved from ?_).laid (Or.inr rfl)
    rw [List.drop_left]
    exact reading
  have within : ∀ line ∈ moved, line.Within (Source.ofText path (kept ++ rest))
      (Source.ofText path (kept ++ (removed ++ rest))) removed.length kept.length
      (kept ++ rest).length := by
    intro line member
    obtain ⟨first, last, after, _, ends, standing⟩ := laid.each line member
    refine standing.within after ends.inside fun _ _ => Or.inr ⟨rfl, Or.inl ?_⟩
    refine List.drop_eq_nil_iff.mpr ?_
    simp only [Source.ofText, List.length_append]
    omega
  exact (Source.alike_back path kept removed rest).collectFrom_moved within
    (show Progress.Moved _ _ _ _ ⟨.nothing, included⟩ ⟨.nothing, included⟩ from ⟨.nothing, rfl⟩)

/-- What is left when a transaction is cut out of a text: all other directives in their order,
those after it further up by as many bytes as have been cut out, and the same warnings. -/
theorem Removal.collect {path text : Text} {lines : List Line} {collected : Collected}
    {before after : List Directive} {entry : TransactionEntry}
    (parting : Parting (Source.ofText path text) lines collected before entry after)
    (removal : Removal text parting.earlier parting.later) :
    ∃ left, Daybook.collect (Source.ofText path (removal.kept ++ removal.rest))
        (parting.earlier ++ removal.moved) = .ok left ∧
      left.directives = before ++ after.map (Directive.shift
        (-((Text.Utf8.encode (removal.body ++ removal.tail ++ removal.ending)).length : Int))) ∧
      left.warnings.map Diagnostic.message = collected.warnings.map Diagnostic.message := by
  obtain ⟨kept, body, tail, ending, rest, moved, whole, quiet, form, laterEq, reading, joins,
    apart⟩ := removal
  dsimp only at *
  generalize body ++ tail ++ ending = removed at *
  subst whole
  obtain ⟨progress, first, closed, begun, finished, included, early, messages⟩ :=
    parting.front rfl apart rest
  -- The lines after it do the same further up.
  have back := reading.collectFrom_back path removed parting.progress.included
  rw [← laterEq, parting.remaining] at back
  obtain ⟨others, remaining, movedOthers⟩ := back.of_ok_right
  have unattached : Progress.Closed moved :=
    Progress.closed_shift_iff.mp (laterEq ▸ parting.unattached)
  rw [← included] at remaining
  refine ⟨first.append ((⟨closed, []⟩ : Collected).append others),
    Progress.collectFrom_append_iff.mpr ⟨progress, first, _, begun,
      (Progress.collectFrom_closed unattached).mpr ⟨closed, others, finished, remaining, rfl⟩, rfl⟩,
      ?_, ?_⟩
  · have back (directives : List Directive) (bytes : Int) :
        (directives.map (Directive.shift bytes)).map (Directive.shift (-bytes)) = directives := by
      rw [List.map_map]
      exact List.map_id'' (Directive.shift_neg bytes) _
    have late := parting.after_eq.trans movedOthers.directives
    rw [early, late, back]
    simp
  · rw [parting.warnings]
    simp [messages, movedOthers.messages]

end Daybook
