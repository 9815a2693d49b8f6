import Daybook.Editing
import Daybook.Proofs.Disk.Filing
import Daybook.Proofs.Page.Contents
import Daybook.Proofs.Page.Cutting

/-!
# Deleting a transaction

Deleting a transaction takes its bytes and the rest of its last line out of its file, and
nothing else. Whatever else the file says it says afterwards as well, in the same order and
with the same spans, except that what comes after the transaction is further up by the number
of bytes that have been taken out.
-/
namespace Daybook

open Statement

/-! ## Bytes -/

/-- A content is parted at a span and at the end of the line where the span ends: the bytes
before the span, those of the span, the rest of the line with its line feed, and the bytes after
the line. -/
structure CutAt (content : Bytes) (span : Span) (front body tail back : Bytes) : Prop where
  whole : content = front ++ body ++ tail ++ back
  start : span.start = front.length
  stop : span.stop = front.length + body.length
  line : (0x0A ∉ tail ∧ back = []) ∨ ∃ line, tail = line ++ [0x0A] ∧ 0x0A ∉ line

namespace Removal

variable {text : Text} {earlier later : List Line} {span : Span}

/-- The bytes that are taken out: those of the lines, with the line end of the last one. -/
def removed (removal : Removal text earlier later) : Bytes :=
  Text.Utf8.encode (removal.body ++ removal.tail ++ removal.ending)

/-- The bytes that are left. -/
def left (removal : Removal text earlier later) : Bytes :=
  Text.Utf8.encode (removal.kept ++ removal.rest)

/-- The span begins where the lines begin, and ends somewhere on the last one behind what that
line keeps. -/
structure Spans (removal : Removal text earlier later) (span : Span) : Prop where
  start : span.start = (Text.Utf8.encode removal.kept).length
  lower : ((Text.Utf8.encode (removal.kept ++ removal.body)).length : Int) ≤ span.stop
  upper : span.stop ≤ (Text.Utf8.encode (removal.kept ++ removal.body ++ removal.tail)).length

/-- The bytes of the parts of a text. -/
theorem bytes_eq (removal : Removal text earlier later) : Text.Utf8.encode text =
    Text.Utf8.encode (removal.kept ++ removal.body) ++
      (Text.Utf8.encode removal.tail ++ Text.Utf8.encode (removal.ending ++ removal.rest)) :=
  (congrArg Text.Utf8.encode removal.whole).trans
    (by simp only [Text.Utf8.encode_append, List.append_assoc])

/-- Behind the lines, the rest of the text begins after the line feed. -/
theorem afterLine_ending (removal : Removal text earlier later) :
    Span.afterLine (Text.Utf8.encode (removal.ending ++ removal.rest)) =
      Text.Utf8.encode removal.rest := by
  rw [Text.Utf8.afterLine_encode]
  rcases removal.form with one | two | ⟨none, nothing⟩
  · rw [one]
    simp [Text.Utf8.afterLine]
  · rw [two]
    simp [Text.Utf8.afterLine]
  · rw [none, nothing]
    rfl

/-- A span may end anywhere between what is kept of the last line and its end: before the line
end there is no line feed. -/
theorem drop_eq (removal : Removal text earlier later) {stop : Nat}
    (lower : (Text.Utf8.encode (removal.kept ++ removal.body)).length ≤ stop)
    (upper : stop ≤ (Text.Utf8.encode (removal.kept ++ removal.body ++ removal.tail)).length) :
    ∃ more, (Text.Utf8.encode text).drop stop =
        more ++ Text.Utf8.encode (removal.ending ++ removal.rest) ∧ 0x0A ∉ more := by
  refine ⟨(Text.Utf8.encode removal.tail).drop
    (stop - (Text.Utf8.encode (removal.kept ++ removal.body)).length), ?_, ?_⟩
  · have within : stop - (Text.Utf8.encode (removal.kept ++ removal.body)).length ≤
        (Text.Utf8.encode removal.tail).length := by
      rw [Text.Utf8.encode_append, List.length_append] at upper
      omega
    rw [removal.bytes_eq, List.drop_append, List.drop_eq_nil_of_le lower, List.nil_append,
      List.drop_append_of_le_length within]
  · intro member
    exact removal.quiet (Text.Utf8.lineFeed_mem_encode.mp (List.mem_of_mem_drop member))

/-- The bytes before the lines. -/
theorem take_eq (removal : Removal text earlier later) :
    (Text.Utf8.encode text).take (Text.Utf8.encode removal.kept).length =
      Text.Utf8.encode removal.kept := by
  rw [removal.bytes_eq, Text.Utf8.encode_append, List.append_assoc, List.take_left]

/-- The ends of the lines in the content. -/
theorem bounds (removal : Removal text earlier later) :
    (Text.Utf8.encode removal.kept).length ≤
        (Text.Utf8.encode (removal.kept ++ removal.body)).length ∧
      (Text.Utf8.encode (removal.kept ++ removal.body ++ removal.tail)).length ≤
        (Text.Utf8.encode text).length := by
  rw [removal.bytes_eq]
  simp only [Text.Utf8.encode_append, List.length_append]
  omega

/-- Cutting the lines of a span leaves what stands before and after them. -/
theorem cutLines (removal : Removal text earlier later) (spans : removal.Spans span) :
    span.cutLines (Text.Utf8.encode text) = .ok removal.left := by
  obtain ⟨first, last⟩ := removal.bounds
  obtain ⟨start, lower, upper⟩ := spans
  obtain ⟨stop, same⟩ := Int.eq_ofNat_of_zero_le (show 0 ≤ span.stop by omega)
  obtain ⟨more, rest, quiet⟩ := removal.drop_eq (show _ ≤ stop by omega) (by omega)
  have inside : span.Within (Text.Utf8.encode text).length := by
    refine ⟨?_, ?_, ?_⟩ <;> omega
  rw [Span.cutLines, if_pos inside, start, same, Int.toNat_natCast, Int.toNat_natCast, rest,
    Text.Utf8.afterLine_append quiet, removal.afterLine_ending, removal.take_eq, left,
    Text.Utf8.encode_append]

/-- The bytes that are cut out are those of the span and the rest of its last line. The span ends
with the body, and its last line with the tail, in which there is no line feed before its end. -/
theorem cutAt (removal : Removal text earlier later) (spans : removal.Spans span) : ∃ body tail,
    removal.removed = body ++ tail ∧ CutAt (Text.Utf8.encode text) span
      (Text.Utf8.encode removal.kept) body tail (Text.Utf8.encode removal.rest) := by
  obtain ⟨first, last⟩ := removal.bounds
  obtain ⟨start, lower, upper⟩ := spans
  obtain ⟨stop, same⟩ := Int.eq_ofNat_of_zero_le (show 0 ≤ span.stop by omega)
  have rest : stop - (Text.Utf8.encode (removal.kept ++ removal.body)).length ≤
      (Text.Utf8.encode removal.tail).length := by
    rw [Text.Utf8.encode_append, List.length_append] at upper
    omega
  refine ⟨Text.Utf8.encode removal.body ++ (Text.Utf8.encode removal.tail).take
      (stop - (Text.Utf8.encode (removal.kept ++ removal.body)).length),
    (Text.Utf8.encode removal.tail).drop
        (stop - (Text.Utf8.encode (removal.kept ++ removal.body)).length) ++
      Text.Utf8.encode removal.ending, ?_, ?_, start, ?_, ?_⟩
  · rw [removed, Text.Utf8.encode_append, Text.Utf8.encode_append, List.append_assoc,
      List.append_assoc, ← List.append_assoc (List.take _ _), List.take_append_drop]
  · rw [removal.bytes_eq, Text.Utf8.encode_append, Text.Utf8.encode_append]
    simp only [List.append_assoc, List.append_cancel_left_eq]
    rw [← List.append_assoc (List.take _ _), List.take_append_drop]
  · rw [same, List.length_append, List.length_take, Nat.min_eq_left rest]
    rw [Text.Utf8.encode_append, List.length_append] at lower ⊢
    omega
  · have quiet : (0x0A : UInt8) ∉ (Text.Utf8.encode removal.tail).drop
        (stop - (Text.Utf8.encode (removal.kept ++ removal.body)).length) := fun member =>
      removal.quiet (Text.Utf8.lineFeed_mem_encode.mp (List.mem_of_mem_drop member))
    rcases removal.form with one | two | ⟨none, nothing⟩
    · rw [one]
      exact Or.inr ⟨_, rfl, quiet⟩
    · rw [two]
      refine Or.inr ⟨_ ++ [0x0D], by rw [List.append_assoc]; rfl, ?_⟩
      simpa using quiet
    · rw [none, nothing]
      exact Or.inl ⟨by simpa using quiet, rfl⟩

end Removal

/-- Both ends that are known of a transaction are on its last line. -/
theorem Excision.spans {text : Text} {earlier later : List Line} {entry : TransactionEntry}
    (excision : Excision text earlier later entry) :
    excision.toRemoval.Spans entry.span ∧ excision.toRemoval.Spans entry.extent :=
  ⟨⟨excision.span_start, excision.lower, Int.le_trans excision.order excision.upper⟩,
    ⟨excision.extent_start, Int.le_trans excision.lower excision.order, excision.upper⟩⟩

/-! ## The transaction of an id -/

/-- A transaction that begins with a line has the date of that line, and the line keeps it. -/
theorem Line.Standing.date_before {text : Text} {start stop : Nat} {line : Line}
    (standing : line.Standing text start stop) {date : Token} (known : date ∈ line.date?) :
    date.start < date.stop ∧ date.stop ≤ stop := by
  obtain ⟨extent, kept, listed⟩ : ∃ extent ∈ line.statement.extent?, date ∈ extent.tokens := by
    unfold Line.date? at known
    split at known
    · next heading statement =>
      cases known
      rw [statement]
      exact ⟨_, rfl, List.mem_cons_self⟩
    · cases known
  obtain ⟨stands, _, inside⟩ := (standing.extent extent kept).tokens date listed
  exact ⟨stands.positive, inside⟩

/-- A transaction that comes before another one begins before it. Its date is that of an earlier
line, and the lines of a file follow one another. -/
theorem Excision.start_lt {path text : Text} {lines : List Line} {collected : Collected}
    {before after : List Directive} {entry other : TransactionEntry}
    (parting : Parting (Source.ofText path text) lines collected before entry after)
    (excision : Excision text parting.earlier parting.later entry)
    (member : .transaction other ∈ before) : other.dateSpan.start < entry.dateSpan.start := by
  obtain ⟨yields, opens, sound⟩ := Progress.dates_of_advanceAll
    (show Pending.Sound .nothing from trivial) parting.begun
  obtain ⟨date, ⟨line, listed, known⟩, same⟩ : ∃ date,
      (∃ line ∈ parting.earlier, date ∈ line.date?) ∧
        other.dateSpan = (Source.ofText path text).tokenSpan date := by
    rw [parting.before_eq] at member
    rcases List.mem_append.mp member with early | last
    · obtain ⟨date, none | some, same⟩ := yields other early
      · cases none
      · exact ⟨date, some, same⟩
    · obtain ⟨front, back, parts⟩ := List.append_of_mem last
      obtain ⟨_, date, pending, same⟩ :=
        Progress.date_of_finish sound (parting.finished.trans (congrArg _ parts))
      rcases opens date pending with none | some
      · cases none
      · exact ⟨date, some, same⟩
  obtain ⟨first, last, standing, inside, _⟩ := excision.apart line listed
  obtain ⟨positive, ends⟩ := standing.date_before known
  have size : excision.kept.length ≤ text.length := by
    have whole := congrArg List.length excision.whole
    simp only [List.length_append] at whole
    omega
  have parts : text = excision.kept ++ (excision.body ++ excision.tail ++ excision.ending ++
      excision.rest) := excision.whole
  rw [same, excision.start, ← Source.byte_append path parts]
  exact Int.ofNat_lt.mpr (Source.byte_lt path (by omega) size)

/-- A transaction is where its id says. -/
theorem locate_of_find {path : Text} {offset : Nat} {disk : Disk} {content : Bytes} {page : Page}
    {entry : TransactionEntry}
    (held : readBytes path (FilePath.ofText path) disk = .ok content)
    (paged : Page.ofBytes (FilePath.ofText path) content = .ok page) (sound : page.errors = [])
    (found : page.find offset = .ok entry) :
    locate ⟨path, offset⟩ disk = .ok (content, entry) :=
  bind_eq_ok_iff.mpr ⟨_, held, bind_eq_ok_iff.mpr ⟨_, Page.read_eq_ok_iff.mpr ⟨paged, sound⟩,
    bind_eq_ok_iff.mpr ⟨entry, found, rfl⟩⟩⟩

/-- A transaction that is found is cut out of the content, and what is left is written. -/
theorem deleteTransaction_of_located {id : Text} {identifier : Identifier} {disk : Disk}
    {content rest : Bytes} {entry : TransactionEntry}
    (named : Identifier.decode id = .ok identifier)
    (located : locate identifier disk = .ok (content, entry))
    (cut : entry.extent.cutLines content = .ok rest) :
    (deleteTransaction id).outcome disk =
      (writeWhole (FilePath.ofText identifier.path) rest).outcome disk := by
  simp only [deleteTransaction, Storing.outcome_bind, Storing.outcome_known, named,
    Storing.outcome_look, located, cut, Except.mapError]

/-- A transaction of a page without errors is found where its date stands, and when it is cut out of
the content, the page of what is left has all other directives and the warnings. -/
theorem Page.cut {path : FilePath} {content : Bytes} {page : Page} {before after : List Directive}
    {entry : TransactionEntry} (paged : Page.ofBytes path content = .ok page)
    (sound : page.errors = []) (parts : page.directives = before ++ .transaction entry :: after) :
    page.find entry.dateSpan.start = .ok entry ∧ ∃ front body tail back left,
      CutAt content entry.span front body tail back ∧
      entry.extent.cutLines content = .ok (front ++ back) ∧
      Page.ofBytes path (front ++ back) = .ok left ∧ left.errors = [] ∧
      left.directives =
        before ++ after.map (Directive.shift (-((body ++ tail).length : Int))) ∧
      left.warnings.map Diagnostic.message = page.warnings.map Diagnostic.message := by
  obtain ⟨text, rfl, ofText⟩ := Page.encode_of_ofBytes paged sound
  obtain ⟨lines, collected, reading, whole, rfl⟩ :=
    Page.reading_of_ofText ofText sound (by simp [parts])
  obtain ⟨parting⟩ := parting_of_collect whole parts
  obtain ⟨excision⟩ := parting.excision reading
  obtain ⟨body, tail, removed, cut⟩ := excision.cutAt excision.spans.1
  obtain ⟨left, collects, directives, messages⟩ := Removal.collect parting excision.toRemoval
  have joined := excision.joins _ _ excision.reading
  have leftEq : excision.left = Text.Utf8.encode excision.kept ++
      Text.Utf8.encode excision.rest := Text.Utf8.encode_append _ _
  refine ⟨Page.find_of_directives parts fun other member =>
      Int.ne_of_lt (Excision.start_lt parting excision member),
    _, body, tail, _, Page.ofCollected path.toText left, cut, ?_, ?_, rfl, ?_, messages⟩
  · rw [← leftEq]
    exact excision.cutLines excision.spans.2
  · rw [← leftEq, Removal.left, Page.ofBytes_encode]
    exact Page.ofText_of_reading joined collects
  · rw [← removed]
    exact directives

/-- Deleting a transaction takes its bytes and the rest of its last line out of the file, and
leaves all other directives and the warnings. Where the file can be written it is, and it then holds
exactly the bytes before the transaction and those after its last line.

The transaction is found by its id because no earlier one begins at the same byte. Its lines are
taken out whole, so the parser goes through the lines before and after them in the same states as
before, and gives the same directives; only what stands behind has moved. -/
theorem deleteTransaction_exact {id path : Text} {offset : Nat} {disk : Disk} {content : Bytes}
    {page : Page} {before after : List Directive} {entry : TransactionEntry}
    (named : Identifier.decode id = .ok ⟨path, offset⟩)
    (held : readBytes path (FilePath.ofText path) disk = .ok content)
    (paged : Page.ofBytes (FilePath.ofText path) content = .ok page) (sound : page.errors = [])
    (parts : page.directives = before ++ .transaction entry :: after)
    (start : entry.dateSpan.start = offset) :
    ∃ front body tail back left,
      CutAt content entry.span front body tail back ∧
      (deleteTransaction id).outcome disk =
        (writeWhole (FilePath.ofText path) (front ++ back)).outcome disk ∧
      (deleteTransaction id).Writes disk (FilePath.ofText path) (front ++ back) ∧
      Page.ofBytes (FilePath.ofText path) (front ++ back) = .ok left ∧ left.errors = [] ∧
      left.directives =
        before ++ after.map (Directive.shift (-((body ++ tail).length : Int))) ∧
      left.warnings.map Diagnostic.message = page.warnings.map Diagnostic.message := by
  obtain ⟨found, front, body, tail, back, left, cut, cutLines, rest⟩ := Page.cut paged sound parts
  rw [start] at found
  have outcome :=
    deleteTransaction_of_located named (locate_of_find held paged sound found) cutLines
  exact ⟨front, body, tail, back, left, cut, outcome,
    (writeWhole_writes disk _ _).of_outcome_eq outcome, rest⟩

/-- A file with an opening, a transaction that is set in and has a comment, and another one that
ends with the file. -/
def Disk.withNeighbours : Disk :=
  { current := []
    entries := [(["a.bean"], .file (Text.Utf8.encode
      "2024-01-01 open A:B\r\n 2024-01-05 * \"é\" ; n\r\n  A:B 1 USD\r\n2024-01-06 *"))] }

/-- Whether a page without errors has three directives, the one in the middle a transaction
that begins at this byte. -/
def Page.isAround (page : Page) (start : Int) : Bool :=
  match page.errors, page.directives with
  | [], [_, .transaction entry, _] => entry.dateSpan.start == start
  | _, _ => false

/-- Deleting the transaction in the middle leaves the opening and the other transaction. The file
holds them afterwards, with the blank that the deleted one was set in by before the other one. -/
theorem deleteTransaction_between : ∃ content page opening entry other now,
    Identifier.decode "a.bean:22" = .ok ⟨"a.bean", 22⟩ ∧
    readBytes "a.bean" (FilePath.ofText "a.bean") Disk.withNeighbours = .ok content ∧
    Page.ofBytes (FilePath.ofText "a.bean") content = .ok page ∧ page.errors = [] ∧
    page.directives = [opening] ++ .transaction entry :: [other] ∧ entry.dateSpan.start = 22 ∧
    (deleteTransaction "a.bean:22").outcome Disk.withNeighbours = (.ok (), now) ∧
    readBytes "a.bean" (FilePath.ofText "a.bean") now =
      .ok (Text.Utf8.encode "2024-01-01 open A:B\r\n 2024-01-06 *") ∧
    ∃ front body tail back left, CutAt content entry.span front body tail back ∧
      (deleteTransaction "a.bean:22").outcome Disk.withNeighbours =
        (writeWhole (FilePath.ofText "a.bean") (front ++ back)).outcome Disk.withNeighbours ∧
      front ++ back = Text.Utf8.encode "2024-01-01 open A:B\r\n 2024-01-06 *" ∧
      Page.ofBytes (FilePath.ofText "a.bean") (front ++ back) = .ok left ∧ left.errors = [] ∧
      left.directives = [opening, other.shift (-((body ++ tail).length : Int))] ∧
      left.warnings.map Diagnostic.message = page.warnings.map Diagnostic.message := by
  have named : Identifier.decode "a.bean:22" = .ok ⟨"a.bean", 22⟩ := by decide +kernel
  have shape : (readBytes "a.bean" (FilePath.ofText "a.bean") Disk.withNeighbours >>=
      Page.ofBytes (FilePath.ofText "a.bean")).toOption.any (Page.isAround · 22) = true := by
    decide +kernel
  have told : readBytes "a.bean" (FilePath.ofText "a.bean")
      ((deleteTransaction "a.bean:22").outcome Disk.withNeighbours).2 =
        .ok (Text.Utf8.encode "2024-01-01 open A:B\r\n 2024-01-06 *") := by
    decide +kernel
  have writable : Disk.withNeighbours.Writable (FilePath.ofText "a.bean") ["a.bean"]
      [".a.bean.<uuid>.tmp"] :=
    ⟨by decide, by decide, rfl, rfl, by decide, by decide⟩
  obtain ⟨page, both, shape⟩ := exists_of_any shape
  obtain ⟨content, held, paged⟩ := bind_eq_ok_iff.mp both
  unfold Page.isAround at shape
  split at shape
  · next opening entry other sound parts =>
    have start : entry.dateSpan.start = (22 : Nat) := beq_iff_eq.mp shape
    obtain ⟨front, body, tail, back, left, cut, outcome, writes, rest⟩ :=
      deleteTransaction_exact named held paged sound
        (show page.directives = [opening] ++ .transaction entry :: [other] from parts) start
    obtain ⟨now, done, _⟩ := writes.succeeds _ _ writable
    have same := writes.reads now "a.bean" done
    rw [done] at told
    exact ⟨content, page, opening, entry, other, now, named, held, paged, sound, parts, start, done,
      told, front, body, tail, back, left, cut, outcome, Except.ok.inj (same.symm.trans told), rest⟩
  · cases shape

end Daybook
