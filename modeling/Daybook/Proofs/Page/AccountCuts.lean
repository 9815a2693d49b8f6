import Daybook.Proofs.Directive.Ownership
import Daybook.Proofs.Editing.Deletion
import Daybook.Proofs.Ledger.Chart

/-!
# Cutting an account out of a text

The directives that open or close an account are cut out of a text one by one, the last one first,
each with its metadata and with the rest of its last line. What is left after a cut is read as the
lines before it and those after it, and the spans of the other directives have not moved. So what
remains in the end can be said at once: the bytes that belong to no directive of the account,
whatever the order of the cuts.
-/
namespace Daybook

open Lexeme Statement

/-! ## Bytes -/

namespace Span

/-- The offset is one of the span. -/
def holds (span : Span) (offset : Nat) : Bool :=
  span.start ≤ offset && offset < span.stop

/-- The span up to the end of the line where it ends, with the line feed. -/
def wholeLines (content : Bytes) (span : Span) : Span :=
  ⟨span.start, content.length - (afterLine (content.drop span.stop.toNat)).length⟩

end Span

/-- The bytes that none of the spans holds. -/
def withoutSpans (content : Bytes) (spans : List Span) : Bytes :=
  (content.zipIdx.filter fun held => !spans.any (·.holds held.2)).map Prod.fst

/-- Without spans all bytes are left. -/
@[simp] theorem withoutSpans_nil (content : Bytes) : withoutSpans content [] = content := by
  simp [withoutSpans]

/-- The order of the spans does not matter. -/
theorem withoutSpans_perm {spans others : List Span} (same : spans.Perm others) (content : Bytes) :
    withoutSpans content spans = withoutSpans content others := by
  simp only [withoutSpans, same.any_eq]

/-- Bytes behind all spans are left. -/
theorem filter_zipIdx_behind {spans : List Span} (rest : Bytes) (start : Nat)
    (before : ∀ span ∈ spans, span.stop ≤ start) :
    ((rest.zipIdx start).filter fun held => !spans.any (·.holds held.2)) = rest.zipIdx start := by
  refine List.filter_eq_self.mpr fun held member => ?_
  have later := (List.mem_zipIdx member).1
  have passed : spans.any (·.holds held.2) = false := by
    rw [List.any_eq_false]
    intro span inside
    have ended := before span inside
    simp only [Span.holds, Bool.and_eq_true, decide_eq_true_eq]
    omega
  simp [passed]

/-- A span behind the others can be taken out first. The span takes all bytes of the cut and none of
those before it; those behind it are kept by every span, as all of them end earlier. -/
theorem withoutSpans_concat {front cut back : Bytes} {spans : List Span} {final : Span}
    (before : ∀ span ∈ spans, span.stop ≤ front.length) (start : final.start = front.length)
    (stop : final.stop = front.length + cut.length) :
    withoutSpans (front ++ (cut ++ back)) (spans ++ [final]) = withoutSpans (front ++ back) spans := by
  have first : (front.zipIdx.filter fun held => !(spans ++ [final]).any (·.holds held.2)) =
      front.zipIdx.filter fun held => !spans.any (·.holds held.2) := by
    refine List.filter_congr fun held member => ?_
    have inside := (List.mem_zipIdx member).2.1
    have early : final.holds held.2 = false := by
      simp only [Span.holds, Bool.and_eq_false_iff, decide_eq_false_iff_not]
      omega
    simp [List.any_append, early]
  have middle : ((cut.zipIdx front.length).filter fun held =>
      !(spans ++ [final]).any (·.holds held.2)) = [] := by
    refine List.filter_eq_nil_iff.mpr fun held member => ?_
    obtain ⟨later, inside, _⟩ := List.mem_zipIdx member
    have taken : final.holds held.2 = true := by
      simp only [Span.holds, Bool.and_eq_true, decide_eq_true_eq]
      omega
    simp [List.any_append, taken]
  have last : ∀ span ∈ spans ++ [final], span.stop ≤ ((front.length + cut.length : Nat) : Int) := by
    intro span member
    rcases List.mem_append.mp member with early | here
    · have ended := before span early
      omega
    · obtain rfl := List.mem_singleton.mp here
      omega
  simp only [withoutSpans, List.zipIdx_append, List.filter_append, Nat.zero_add, first, middle,
    filter_zipIdx_behind back _ last, filter_zipIdx_behind back _ before, List.map_append,
    List.zipIdx_map_fst, List.nil_append]

namespace Span

/-- What follows a line is known up to its line feed. -/
theorem afterLine_append_of_mem {front : Bytes} (ends : 0x0A ∈ front) (rest : Bytes) :
    afterLine (front ++ rest) = afterLine front ++ rest := by
  induction front with
  | nil => cases ends
  | cons b front ih =>
    by_cases feed : b = 0x0A
    · simp [afterLine, feed]
    · have further : 0x0A ∈ front := (List.mem_cons.mp ends).resolve_left (Ne.symm feed)
      simp [afterLine, feed, ih further]

/-- What follows a line is no longer than the whole. -/
theorem length_afterLine_le (content : Bytes) : (afterLine content).length ≤ content.length := by
  induction content with
  | nil => exact Nat.le_refl _
  | cons b rest ih =>
    rw [afterLine]
    split
    · exact Nat.le_succ _
    · exact Nat.le_succ_of_le ih

/-- The whole lines of a span are within the content if the span is. -/
theorem Within.wholeLines {content : Bytes} {span : Span} (inside : span.Within content.length) :
    (span.wholeLines content).Within content.length := by
  obtain ⟨low, order, high⟩ := inside
  have rest := length_afterLine_le (content.drop span.stop.toNat)
  rw [List.length_drop] at rest
  refine ⟨low, ?_, ?_⟩
  · simp only [Span.wholeLines]
    omega
  · simp only [Span.wholeLines]
    omega

/-- A span behind which a line feed stands ends within the content. -/
theorem stop_lt_of_lineFeed {front : Bytes} {span : Span}
    (ends : 0x0A ∈ front.drop span.stop.toNat) : span.stop.toNat < front.length := by
  by_contra beyond
  rw [List.drop_eq_nil_of_le (Nat.le_of_not_lt beyond)] at ends
  cases ends

/-- A line that ends within the beginning of a content ends there whatever follows. -/
theorem wholeLines_append {front : Bytes} {span : Span} (ends : 0x0A ∈ front.drop span.stop.toNat)
    (rest : Bytes) : span.wholeLines (front ++ rest) = span.wholeLines front ∧
      (span.wholeLines front).stop ≤ front.length := by
  have inside := Nat.le_of_lt (stop_lt_of_lineFeed ends)
  refine ⟨?_, ?_⟩
  · rw [wholeLines, List.drop_append_of_le_length inside, afterLine_append_of_mem ends,
      List.length_append, List.length_append, wholeLines]
    congr 1
    omega
  · simp only [wholeLines]
    omega

end Span

/-! ## The lines of an account -/

namespace Line

variable {name : Text} {source other : Source} {line : Line} {lines more after : List Line}

/-- The line opens or closes the account of the given name. -/
def names (name : Text) (line : Line) : Bool :=
  match line.statement with
  | .opening _ account _ _ => account.text = name
  | .closing _ account => account.text = name
  | _ => false

/-- The line is a metadata line. -/
def isMetadata (line : Line) : Bool :=
  match line.statement with
  | .metadata _ _ => true
  | _ => false

/-- No metadata come before the next directive. -/
def Bare (lines : List Line) : Prop :=
  ∀ line ∈ under lines, line.isMetadata = false

/-- The spans of the directives that open or close an account. -/
abbrev spansOf (source : Source) (name : Text) (lines : List Line) : List Span :=
  accountSpans name (directivesOf source lines)

/-- A line that does not name the account has no span of it. -/
theorem accountSpans_unnamed (unnamed : line.names name = false) (source : Source)
    (under : List Line) : accountSpans name (line.directive? source under).toList = [] := by
  obtain ⟨statement, comment⟩ := line
  cases statement with
  | transaction heading =>
    cases flagged : heading.flag <;>
      simp [directive?, flagged, accountSpans, Directive.account?]
  | opening date account currencies stop =>
    have other : account.text ≠ name := of_decide_eq_false unnamed
    simp [directive?, accountSpans, Directive.account?, other]
  | closing date account =>
    have other : account.text ≠ name := of_decide_eq_false unnamed
    simp [directive?, accountSpans, Directive.account?, other]
  | _ => rfl

/-- The span of a line that names the account begins with the date and ends with the last metadata
line. -/
theorem accountSpans_named (named : line.names name = true) :
    ∃ extent ∈ line.statement.extent?, ∃ date ∈ extent.lead, ∀ source under,
      accountSpans name (line.directive? source under).toList =
        [⟨source.offsets.byte date.start,
          lastEnd (source.offsets.byte (line.stop extent.stop))
            (under.filterMap (metadataStop? source))⟩] := by
  obtain ⟨statement, comment⟩ := line
  cases statement with
  | opening date account currencies stop =>
    obtain rfl : account.text = name := of_decide_eq_true named
    exact ⟨_, rfl, date, rfl, fun source under => by
      simp [directive?, accountSpans, Directive.account?]⟩
  | closing date account =>
    obtain rfl : account.text = name := of_decide_eq_true named
    exact ⟨_, rfl, date, rfl, fun source under => by
      simp [directive?, accountSpans, Directive.account?]⟩
  | _ => cases named

/-- The spans of a line and those of the lines after it. -/
theorem spansOf_cons (source : Source) (name : Text) (line : Line) (after : List Line) :
    spansOf source name (line :: after) =
      accountSpans name (line.directive? source (under after)).toList ++
        spansOf source name after :=
  List.filterMap_append

/-- Lines that do not name the account have no span of it. -/
theorem spansOf_eq_nil (unnamed : ∀ line ∈ lines, line.names name = false) (source : Source) :
    spansOf source name lines = [] := by
  induction lines with
  | nil => rfl
  | cons line rest ih =>
    rw [spansOf_cons, accountSpans_unnamed (unnamed line List.mem_cons_self),
      ih fun other member => unnamed other (List.mem_cons_of_mem _ member), List.nil_append]

/-- A line without metadata adds no end. -/
theorem filterMap_metadataStop?_eq_nil (bare : Bare lines) (source : Source) :
    (under lines).filterMap (metadataStop? source) = [] := by
  refine List.filterMap_eq_nil_iff.mpr fun line member => ?_
  have none := bare line member
  obtain ⟨statement, comment⟩ := line
  cases statement <;> first | rfl | cases none

/-- The metadata that come under a directive are not changed by what follows without metadata. -/
theorem metadataStops_append (bare : Bare more) (source : Source) (lines : List Line) :
    (under (lines ++ more)).filterMap (metadataStop? source) =
      (under lines).filterMap (metadataStop? source) := by
  induction lines with
  | nil => exact filterMap_metadataStop?_eq_nil bare source
  | cons line rest ih =>
    rw [List.cons_append, under_cons, under_cons]
    cases line.isDirective with
    | true => rfl
    | false => simp only [Bool.false_eq_true, if_false, List.filterMap_cons, ih]

/-- The spans of lines followed by others that begin without metadata. -/
theorem spansOf_append (bare : Bare more) (source : Source) (name : Text) (lines : List Line) :
    spansOf source name (lines ++ more) =
      spansOf source name lines ++ spansOf source name more := by
  induction lines with
  | nil => rfl
  | cons line rest ih =>
    rw [List.cons_append, spansOf_cons, spansOf_cons, ih, List.append_assoc]
    cases named : line.names name with
    | false => rw [accountSpans_unnamed named, accountSpans_unnamed named]
    | true =>
      obtain ⟨_, _, _, _, same⟩ := accountSpans_named named
      rw [same, same, metadataStops_append bare]

/-- What follows a directive is parted behind its last metadata line. The induction is on the
lines: a line that belongs to no directive joins what is attached only if a metadata line comes
after it. -/
theorem exists_bare (after : List Line) : ∃ attached later, after = attached ++ later ∧
    (∀ line ∈ attached, line.isDirective = false) ∧
    (∀ final ∈ attached.getLast?, final.isMetadata = true) ∧ Bare later := by
  induction after with
  | nil => exact ⟨[], [], rfl, by simp, by simp, by simp [Bare, under]⟩
  | cons line rest ih =>
    obtain ⟨attached, later, rfl, belonging, ends, bare⟩ := ih
    cases directive : line.isDirective with
    | true =>
      exact ⟨[], _, rfl, by simp, by simp, by simp [Bare, under_cons, directive]⟩
    | false =>
      cases attached with
      | cons first attached =>
        refine ⟨line :: first :: attached, later, rfl, ?_, ?_, bare⟩
        · exact List.forall_mem_cons.mpr ⟨directive, belonging⟩
        · rwa [List.getLast?_cons_cons]
      | nil =>
        cases metadata : line.isMetadata with
        | true =>
          exact ⟨[line], later, rfl, by simpa using directive, by simpa using metadata, bare⟩
        | false =>
          refine ⟨[], line :: later, rfl, by simp, by simp, ?_⟩
          rw [Bare, under_cons, directive]
          exact List.forall_mem_cons.mpr ⟨metadata, bare⟩

/-- What comes under a directive is one of the lines after it. -/
theorem mem_of_mem_under (member : line ∈ under after) : line ∈ after :=
  (List.takeWhile_sublist _).subset member

/-- Two sources have the line at the same bytes. -/
def SameBytes (source other : Source) (line : Line) : Prop :=
  ∀ extent ∈ line.statement.extent?,
    (∀ token ∈ extent.lead, other.offsets.byte token.start = source.offsets.byte token.start) ∧
      other.offsets.byte (line.stop extent.stop) = source.offsets.byte (line.stop extent.stop)

/-- Lines that two sources have at the same bytes have the same spans in both. A span is made of the
bytes of the first and the last line of a directive, and nothing else of the source is asked. -/
theorem spansOf_congr (name : Text) (same : ∀ line ∈ lines, SameBytes source other line) :
    spansOf other name lines = spansOf source name lines := by
  have stops {some : List Line} (inside : ∀ line ∈ some, SameBytes source other line) :
      some.filterMap (metadataStop? other) = some.filterMap (metadataStop? source) := by
    refine List.filterMap_congr fun line member => ?_
    have ends := inside line member
    obtain ⟨statement, comment⟩ := line
    cases statement with
    | metadata key stop => exact congrArg (fun stop : Nat => Option.some (stop : Int)) (ends _ rfl).2
    | _ => rfl
  induction lines with
  | nil => rfl
  | cons line rest ih =>
    have others : ∀ line ∈ rest, SameBytes source other line := fun one member =>
      same one (List.mem_cons_of_mem _ member)
    rw [spansOf_cons, spansOf_cons, ih others]
    cases named : line.names name with
    | false => rw [accountSpans_unnamed named, accountSpans_unnamed named]
    | true =>
      obtain ⟨extent, known, date, lead, whole⟩ := accountSpans_named named
      obtain ⟨starts, ends⟩ := same line List.mem_cons_self extent known
      rw [whole, whole, starts date lead, ends,
        stops fun one member => others one (mem_of_mem_under member)]

/-- The span of a directive ends with the last line that is cut out with it. The attached lines end
with a metadata line, whose end is the last that is known; without attached lines it is the end of
the directive itself. -/
theorem lastEnd_attached (source : Source) {attached later : List Line} {extent : Extent}
    {final : Line} {last : Extent}
    (belonging : ∀ one ∈ attached, one.isDirective = false)
    (metadata : ∀ final ∈ attached.getLast?, final.isMetadata = true) (bare : Bare later)
    (known : extent ∈ line.statement.extent?) (ends : final ∈ (line :: attached).getLast?)
    (kept : last ∈ final.statement.extent?) :
    lastEnd (source.offsets.byte (line.stop extent.stop))
        ((under (attached ++ later)).filterMap (metadataStop? source)) =
      source.offsets.byte (final.stop last.stop) := by
  have own : under attached = attached :=
    List.takeWhile_eq_self_iff.mpr fun one member => by simp [belonging one member]
  rw [metadataStops_append bare, own]
  cases attached using List.reverseRecOn with
  | nil =>
    obtain rfl : line = final := Option.some.inj ends
    obtain rfl : extent = last := Option.some.inj (known.symm.trans kept)
    rfl
  | append_singleton front finalLine =>
    rw [← List.cons_append, List.getLast?_concat] at ends
    obtain rfl : finalLine = final := Option.some.inj ends
    have noted := metadata finalLine List.getLast?_concat
    obtain ⟨statement, comment⟩ := finalLine
    cases statement with
    | metadata key stop =>
      obtain rfl : last = ⟨some key, [key], stop⟩ := (Option.some.inj kept).symm
      simp [lastEnd, metadataStop?, List.filterMap_append]
    | _ => cases noted

/-- The last end is the own end or one of the others. -/
theorem lastEnd_mem (own : Int) (ends : List Int) : lastEnd own ends ∈ own :: ends := by
  cases last : ends.getLast? with
  | none => simp [lastEnd, last]
  | some stop =>
    rw [lastEnd, last]
    exact List.mem_cons_of_mem _ (List.mem_of_getLast? last)

/-- A span of an account ends with one of the lines. The induction is on the lines; the end of a
span is that of the line which names the account or of a metadata line under it. -/
theorem stop_of_mem_spansOf {span : Span} (member : span ∈ spansOf source name lines) :
    ∃ final ∈ lines, ∃ extent ∈ final.statement.extent?,
      span.stop = source.offsets.byte (final.stop extent.stop) := by
  induction lines with
  | nil => cases member
  | cons line rest ih =>
    rw [spansOf_cons] at member
    rcases List.mem_append.mp member with here | later
    · cases named : line.names name with
      | false =>
        rw [accountSpans_unnamed named] at here
        cases here
      | true =>
        obtain ⟨extent, known, date, _, whole⟩ := accountSpans_named named
        rw [whole] at here
        obtain rfl := List.mem_singleton.mp here
        rcases List.mem_cons.mp (lastEnd_mem (source.offsets.byte (line.stop extent.stop))
          ((under rest).filterMap (metadataStop? source))) with own | ends
        · exact ⟨line, List.mem_cons_self, extent, known, own⟩
        · obtain ⟨final, inside, stop⟩ := List.mem_filterMap.mp ends
          refine ⟨final, List.mem_cons_of_mem _ (mem_of_mem_under inside), ?_⟩
          obtain ⟨statement, comment⟩ := final
          cases statement with
          | metadata key last => exact ⟨_, rfl, (Option.some.inj stop).symm⟩
          | _ => cases stop
    · obtain ⟨final, inside, rest⟩ := ih later
      exact ⟨final, List.mem_cons_of_mem _ inside, rest⟩

end Line

/-! ## One cut -/

section Cut

variable {path text name : Text} {lines earlier after : List Line} {line : Line}

/-- The lines of a directive that opens or closes an account can be cut out of their text, and its
span ends on the last of them. -/
theorem Statement.Reading.strike (path : Text) (reading : Reading .fileStart 0 text lines)
    (parts : lines = earlier ++ line :: after) (named : line.names name = true) :
    ∃ attached later, after = attached ++ later ∧
      (∀ one ∈ attached, one.isDirective = false) ∧ Line.Bare later ∧
      ∃ (removal : Removal text earlier later) (span : Span), removal.Spans span ∧
        accountSpans name
          (line.directive? (Source.ofText path text) (Line.under after)).toList = [span] := by
  obtain ⟨attached, later, rfl, belonging, metadata, bare⟩ := Line.exists_bare after
  obtain ⟨extent, known, date, lead, whole⟩ := Line.accountSpans_named named
  have belongs : Progress.Attached attached := by
    refine ⟨fun one member closes => ?_, fun final last remark => ?_⟩
    · have none := belonging one member
      obtain ⟨statement, comment⟩ := one
      cases statement <;> first | exact closes | cases none
    · have noted := metadata final last
      simp [Line.isMetadata, remark] at noted
  obtain ⟨opening, kept, bound, located⟩ := located_of_reading reading parts
    ⟨extent, known, lead⟩ belongs
  obtain ⟨removal, front, body, tail⟩ := located.removal
  obtain ⟨final, ends, last, kept, rfl⟩ := located.last
  have stop := Line.lastEnd_attached (Source.ofText path text) belonging metadata bare known ends
    kept
  obtain ⟨start, final, standing, lineEnds, upper⟩ := located.upTo _ (List.mem_of_getLast? ends)
  obtain ⟨lower, within⟩ := standing.stop_bounds kept
  have inside := located.ends.lineEndsAt.inside
  have byteOf {position : Nat} (order : position ≤ bound) :
      (Source.ofText path text).offsets.byte position =
        (Text.Utf8.encode (text.take position)).length :=
    Source.byte_take path (Nat.le_trans order inside)
  refine ⟨attached, later, rfl, belonging, bare, removal, _, ⟨?_, ?_, ?_⟩, whole _ _⟩
  · rw [located.date, byteOf (Nat.le_trans located.order.1 located.order.2), front]
  · rw [stop, body, ← byteOf located.order.2]
    exact Int.ofNat_le.mpr (Source.byte_mono path lower (by omega))
  · rw [stop, tail, ← byteOf (Nat.le_refl _)]
    exact Int.ofNat_le.mpr (Source.byte_mono path (by omega) inside)

end Cut

namespace Removal

variable {path text name : Text} {earlier later : List Line}

/-- The text that is left after a cut is read as the lines before and after it. -/
theorem reading_left (removal : Removal text earlier later) :
    Reading .fileStart 0 (removal.kept ++ removal.rest) (earlier ++ removal.moved) :=
  removal.joins _ _ removal.reading

/-- The lines before a cut end before it, and each of them with a line feed. The line stands apart
from the cut, and between the two is a line feed that the kept text still has. -/
theorem ends_before (removal : Removal text earlier later) {line : Line} (member : line ∈ earlier)
    {extent : Extent} (known : extent ∈ line.statement.extent?) :
    (∀ token ∈ extent.lead, token.start ≤ removal.kept.length) ∧
      line.stop extent.stop ≤ removal.kept.length ∧
      '\n' ∈ removal.kept.drop (line.stop extent.stop) := by
  obtain ⟨first, last, standing, before, feed⟩ := removal.apart line member
  have within := standing.extent extent known
  obtain ⟨_, ends⟩ := standing.stop_bounds known
  have forward : first ≤ last := Nat.le_trans within.later within.inside
  refine ⟨fun token lead => ?_, Nat.le_trans ends before, ?_⟩
  · rw [within.lead token lead]
    exact Nat.le_trans forward before
  · have part : Text.slice text last removal.kept.length = removal.kept.drop last := by
      have whole : text = removal.kept ++ (removal.body ++ removal.tail ++ removal.ending ++
        removal.rest) := removal.whole
      rw [Text.slice, congrArg (List.drop last) whole, List.drop_append_of_le_length before,
        List.take_append_of_le_length (by rw [List.length_drop]), List.take_of_length_le
        (by rw [List.length_drop])]
    rw [part] at feed
    exact (List.drop_sublist_drop_left _ ends).subset feed

/-- The lines before a cut stay at the same bytes. -/
theorem sameBytes (removal : Removal text earlier later) (path : Text) :
    ∀ line ∈ earlier, Line.SameBytes (Source.ofText path text)
      (Source.ofText path (removal.kept ++ removal.rest)) line := by
  intro line member extent known
  obtain ⟨starts, ends, _⟩ := removal.ends_before member known
  have alike := Source.alike_front path removal.kept
    (removal.body ++ removal.tail ++ removal.ending ++ removal.rest) removal.rest
  rw [← removal.whole] at alike
  have same {position : Nat} (before : position ≤ removal.kept.length) :
      (Source.ofText path (removal.kept ++ removal.rest)).offsets.byte position =
        (Source.ofText path text).offsets.byte position := by
    have moved := alike.offset position (Nat.zero_le _) before
    rw [Nat.add_zero] at moved
    omega
  exact ⟨fun token lead => same (starts token lead), same ends⟩

/-- A span of an account before a cut ends on a line that ends before the cut. -/
theorem lineFeed_behind (removal : Removal text earlier later) {span : Span}
    (member : span ∈ Line.spansOf (Source.ofText path text) name earlier) :
    0x0A ∈ (Text.Utf8.encode removal.kept).drop span.stop.toNat := by
  obtain ⟨final, inside, extent, known, stop⟩ := Line.stop_of_mem_spansOf member
  obtain ⟨_, ends, feed⟩ := removal.ends_before inside known
  have parts := List.take_append_drop (final.stop extent.stop) removal.kept
  have whole : text = removal.kept.take (final.stop extent.stop) ++
      (removal.kept.drop (final.stop extent.stop) ++
        (removal.body ++ removal.tail ++ removal.ending ++ removal.rest)) := by
    rw [← List.append_assoc, parts]
    exact removal.whole
  have byte := Source.byte_append path whole
  rw [List.length_take, Nat.min_eq_left ends] at byte
  rw [stop, byte, Int.toNat_natCast, ← parts, Text.Utf8.encode_append, parts, List.drop_left]
  exact Text.Utf8.lineFeed_mem_encode.mpr feed

/-- The lines of a span of an account before a cut are the same whatever follows. -/
theorem map_wholeLines (removal : Removal text earlier later) (path name : Text) (rest : Bytes) :
    (Line.spansOf (Source.ofText path text) name earlier).map
        (Span.wholeLines (Text.Utf8.encode removal.kept ++ rest)) =
      (Line.spansOf (Source.ofText path text) name earlier).map
        (Span.wholeLines (Text.Utf8.encode removal.kept)) :=
  List.map_congr_left fun _ member =>
    (Span.wholeLines_append (removal.lineFeed_behind member) rest).1

/-- The lines of the spans of an account before a cut end before the cut. -/
theorem stop_wholeLines_le (removal : Removal text earlier later) (path name : Text) :
    ∀ part ∈ (Line.spansOf (Source.ofText path text) name earlier).map
      (Span.wholeLines (Text.Utf8.encode removal.kept)),
      part.stop ≤ (Text.Utf8.encode removal.kept).length := by
  intro part member
  obtain ⟨span, held, rfl⟩ := List.mem_map.mp member
  exact (Span.wholeLines_append (removal.lineFeed_behind held) []).2

/-- The whole lines of the span of what is cut out are the bytes that are taken out. -/
theorem wholeLines (removal : Removal text earlier later) {span : Span}
    (spans : removal.Spans span) :
    span.wholeLines (Text.Utf8.encode text) =
      ⟨(Text.Utf8.encode removal.kept).length,
        (Text.Utf8.encode removal.kept).length + removal.removed.length⟩ := by
  obtain ⟨stop, same⟩ := Int.eq_ofNat_of_zero_le
    (Int.le_trans (Int.natCast_nonneg _) spans.lower)
  have lower := spans.lower
  have upper := spans.upper
  obtain ⟨more, rest, quiet⟩ := removal.drop_eq (show _ ≤ stop by omega) (by omega)
  have whole := congrArg List.length (congrArg Text.Utf8.encode removal.whole)
  simp only [Text.Utf8.encode_append, List.length_append] at whole
  rw [Span.wholeLines, spans.start, same, Int.toNat_natCast, rest,
    Text.Utf8.afterLine_append quiet, removal.afterLine_ending, removed]
  simp only [Text.Utf8.encode_append, List.length_append]
  congr 1
  omega

end Removal

/-! ## All cuts -/

/-- What a line tells of its own: it does not depend on where the line stands, and only directives
tell it that do not name the account. -/
structure Line.Tells {α : Type} (name : Text) (meant : Line → Option α) : Prop where
  shift : ∀ (distance : Nat) (line : Line), meant (line.shift distance) = meant line
  belonging : ∀ line : Line, line.isDirective = false → meant line = none
  named : ∀ line : Line, line.names name = true → meant line = none

/-- What is left of a text and its lines when an account has been struck off: all its directives
are cut out, the last one first, and what remains has all other bytes and says everything else. -/
structure Struck (path text name : Text) (lines : List Line) (left : Text) (leftLines : List Line) :
    Prop where
  inside : ∀ span ∈ Line.spansOf (Source.ofText path text) name lines,
    span.Within (Text.Utf8.encode text).length
  ordered : (Line.spansOf (Source.ofText path text) name lines).Pairwise
    fun first second => first.start < second.start
  apart : ((Line.spansOf (Source.ofText path text) name lines).map
    (Span.wholeLines (Text.Utf8.encode text))).Pairwise fun first second => first.stop ≤ second.start
  cut : (Line.spansOf (Source.ofText path text) name lines).reverse.foldlM Span.cutLines
    (Text.Utf8.encode text) = .ok (Text.Utf8.encode left)
  without : withoutSpans (Text.Utf8.encode text)
    ((Line.spansOf (Source.ofText path text) name lines).map
      (Span.wholeLines (Text.Utf8.encode text))) = Text.Utf8.encode left
  reading : Reading .fileStart 0 left leftLines
  unnamed : ∀ line ∈ leftLines, line.names name = false
  tells : ∀ {α : Type} {meant : Line → Option α}, Line.Tells name meant →
    leftLines.filterMap meant = lines.filterMap meant

/-- Some line is the last one that names an account, if any does. -/
theorem Line.exists_last_named {name : Text} {lines : List Line}
    (some : ∃ line ∈ lines, line.names name = true) : ∃ earlier line after,
      lines = earlier ++ line :: after ∧ line.names name = true ∧
      ∀ other ∈ after, other.names name = false := by
  obtain ⟨line, found⟩ := Option.isSome_iff_exists.mp
    (List.find?_isSome.mpr (by simpa using some) : (lines.reverse.find? (names name)).isSome)
  obtain ⟨named, after, earlier, parts, none⟩ := List.find?_eq_some_iff_append.mp found
  refine ⟨earlier.reverse, line, after.reverse, ?_, named, fun other member => ?_⟩
  · rw [← lines.reverse_reverse, parts]
    simp
  · simpa using none other (List.mem_reverse.mp member)

/-- Lines that tell nothing are passed over. -/
theorem Line.Tells.filterMap_attached {α : Type} {name : Text} {meant : Line → Option α}
    (tells : Line.Tells name meant) {attached : List Line}
    (belonging : ∀ line ∈ attached, line.isDirective = false) : attached.filterMap meant = [] :=
  List.filterMap_eq_nil_iff.mpr fun line member => tells.belonging line (belonging line member)

/-- Lines tell the same further down. -/
theorem Line.Tells.filterMap_shift {α : Type} {name : Text} {meant : Line → Option α}
    (tells : Line.Tells name meant) (distance : Nat) (lines : List Line) :
    (lines.map (Line.shift distance)).filterMap meant = lines.filterMap meant := by
  rw [List.filterMap_map]
  exact List.filterMap_congr fun line _ => tells.shift distance line

/-- A line names the same account further down. -/
@[simp] theorem Line.names_shift (name : Text) (distance : Nat) (line : Line) :
    (line.shift distance).names name = line.names name := by
  obtain ⟨statement, comment⟩ := line
  cases statement <;> rfl

/-- A line is a directive further down as well. -/
@[simp] theorem Line.isDirective_shift (distance : Nat) (line : Line) :
    (line.shift distance).isDirective = line.isDirective := by
  obtain ⟨statement, comment⟩ := line
  cases statement <;> rfl

/-- A line is a metadata line further down as well. -/
@[simp] theorem Line.isMetadata_shift (distance : Nat) (line : Line) :
    (line.shift distance).isMetadata = line.isMetadata := by
  obtain ⟨statement, comment⟩ := line
  cases statement <;> rfl

/-- Lines that begin without metadata do so further down as well. -/
theorem Line.bare_shift_iff {distance : Nat} {lines : List Line} :
    Line.Bare (lines.map (Line.shift distance)) ↔ Line.Bare lines := by
  have same : Line.under (lines.map (Line.shift distance)) =
      (Line.under lines).map (Line.shift distance) := by
    simp only [Line.under, List.takeWhile_map, Function.comp_def, Line.isDirective_shift]
  simp [Line.Bare, same]

section Step

variable {path text name left : Text} {earlier attached later leftLines : List Line} {line : Line}
  {span : Span}

/-- The bytes of a text are those before what is taken out, those that are taken out, and the
rest. -/
theorem Removal.encode_eq (removal : Removal text earlier later) : Text.Utf8.encode text =
    Text.Utf8.encode removal.kept ++ (removal.removed ++ Text.Utf8.encode removal.rest) := by
  rw [removed, ← Text.Utf8.encode_append, ← Text.Utf8.encode_append, ← removal.whole]

/-- The spans of an account before and after a cut: the one that is cut out was the last. The lines
before the cut keep their bytes and the lines behind it name other accounts, so that only the span
of the cut is lost. -/
theorem Removal.spansOf_eq (removal : Removal text earlier later)
    (named : line.names name = true)
    (own : accountSpans name (line.directive? (Source.ofText path text)
      (Line.under (attached ++ later))).toList = [span])
    (others : ∀ other ∈ attached ++ later, other.names name = false) (bare : Line.Bare later) :
    Line.spansOf (Source.ofText path text) name (earlier ++ line :: (attached ++ later)) =
        Line.spansOf (Source.ofText path text) name earlier ++ [span] ∧
      Line.spansOf (Source.ofText path (removal.kept ++ removal.rest)) name
          (earlier ++ removal.moved) =
        Line.spansOf (Source.ofText path text) name earlier := by
  constructor
  · have directive : line.isDirective = true := by
      obtain ⟨statement, comment⟩ := line
      cases statement <;> first | rfl | cases named
    have begins : Line.Bare (line :: (attached ++ later)) := by
      simp [Line.Bare, Line.under_cons, directive]
    rw [Line.spansOf_append begins, Line.spansOf_cons, own, Line.spansOf_eq_nil others,
      List.append_nil]
  · have bareMoved := Line.bare_shift_iff.mp ((congrArg Line.Bare removal.later_eq).mp bare)
    have unnamed : ∀ other ∈ removal.moved, other.names name = false := by
      intro other member
      have inside := (congrArg (_ ∈ ·) removal.later_eq).mpr (List.mem_map_of_mem member)
      rw [← others _ (List.mem_append_right _ inside), Line.names_shift]
    rw [Line.spansOf_append bareMoved, Line.spansOf_eq_nil unnamed, List.append_nil,
      Line.spansOf_congr name (removal.sameBytes path)]

/-- When an account has been struck off what is left after a cut, it has been struck off the
whole. -/
theorem Struck.of_cut (removal : Removal text earlier later) (spans : removal.Spans span)
    (named : line.names name = true)
    (own : accountSpans name (line.directive? (Source.ofText path text)
      (Line.under (attached ++ later))).toList = [span])
    (others : ∀ other ∈ attached ++ later, other.names name = false)
    (belonging : ∀ one ∈ attached, one.isDirective = false) (bare : Line.Bare later)
    (struck : Struck path (removal.kept ++ removal.rest) name (earlier ++ removal.moved) left
      leftLines) :
    Struck path text name (earlier ++ line :: (attached ++ later)) left leftLines := by
  obtain ⟨all, rest⟩ := removal.spansOf_eq named own others bare
  obtain ⟨inside, ordered, apart, cut, without, reading, unnamed, tells⟩ := struck
  rw [rest, Text.Utf8.encode_append] at inside apart cut without
  rw [rest] at ordered
  have ends {one : Span} (member : one ∈ Line.spansOf (Source.ofText path text) name earlier) :
      one.stop < (Text.Utf8.encode removal.kept).length := by
    have within := Span.stop_lt_of_lineFeed (removal.lineFeed_behind member)
    omega
  have final := removal.wholeLines spans
  have whole := removal.encode_eq
  have front : (Line.spansOf (Source.ofText path text) name earlier).map
      (Span.wholeLines (Text.Utf8.encode text)) =
      (Line.spansOf (Source.ofText path text) name earlier).map
        (Span.wholeLines (Text.Utf8.encode removal.kept)) := by
    rw [whole]
    exact removal.map_wholeLines path name _
  rw [removal.map_wholeLines] at apart without
  constructor
  · rw [all]
    intro one member
    rcases List.mem_append.mp member with early | here
    · obtain ⟨low, order, _⟩ := inside one early
      have stop := ends early
      refine ⟨low, order, ?_⟩
      rw [whole, List.length_append]
      omega
    · obtain rfl := List.mem_singleton.mp here
      obtain ⟨first, last⟩ := removal.bounds
      obtain ⟨start, lower, upper⟩ := spans
      refine ⟨?_, ?_, ?_⟩ <;> omega
  · rw [all, List.pairwise_append]
    refine ⟨ordered, List.pairwise_singleton _ _, fun one early last here => ?_⟩
    obtain rfl := List.mem_singleton.mp here
    have stop := ends early
    have order := (inside one early).2.1
    have start := spans.start
    omega
  · rw [all, List.map_append, List.pairwise_append, front]
    refine ⟨apart, List.pairwise_singleton _ _, fun one early last here => ?_⟩
    obtain rfl := List.mem_singleton.mp here
    rw [final]
    exact removal.stop_wholeLines_le path name one early
  · rw [all, List.reverse_append, List.reverse_singleton, List.singleton_append, List.foldlM_cons,
      removal.cutLines spans]
    rw [← Text.Utf8.encode_append] at cut
    exact cut
  · rw [all, List.map_append, front, List.map_singleton, final]
    refine Eq.trans ?_ without
    rw [whole]
    exact withoutSpans_concat (removal.stop_wholeLines_le path name) rfl rfl
  · exact reading
  · exact unnamed
  · intro α meant telling
    rw [tells telling, List.filterMap_append, List.filterMap_append, List.filterMap_cons,
      telling.named line named, List.filterMap_append, telling.filterMap_attached belonging,
      List.nil_append, congrArg (List.filterMap meant) removal.later_eq,
      telling.filterMap_shift]

end Step

/-- An account can be struck off any text. The induction is on the number of directives that name
it: the last one is cut out, and then the others are the directives of what is left. -/
theorem Statement.Reading.struck (path name : Text) {text : Text} {lines : List Line}
    (reading : Reading .fileStart 0 text lines) :
    ∃ left leftLines, Struck path text name lines left leftLines := by
  induction size : (Line.spansOf (Source.ofText path text) name lines).length
    using Nat.strongRecOn generalizing text lines with
  | ind count ih =>
    by_cases some : ∃ line ∈ lines, line.names name = true
    · obtain ⟨earlier, line, after, rfl, named, others⟩ := Line.exists_last_named some
      obtain ⟨attached, later, rfl, belonging, bare, removal, span, spans, own⟩ :=
        reading.strike path rfl named
      obtain ⟨all, rest⟩ := removal.spansOf_eq named own others bare
      have fewer : (Line.spansOf (Source.ofText path (removal.kept ++ removal.rest)) name
          (earlier ++ removal.moved)).length < count := by
        rw [← size, all, rest, List.length_append, List.length_singleton]
        exact Nat.lt_succ_self _
      obtain ⟨left, leftLines, struck⟩ := ih _ fewer removal.reading_left rfl
      exact ⟨left, leftLines, struck.of_cut removal spans named own others belonging bare⟩
    · have unnamed : ∀ line ∈ lines, line.names name = false := by
        simpa using some
      have none := Line.spansOf_eq_nil unnamed (Source.ofText path text)
      refine ⟨text, lines, ?_⟩
      constructor
      · simp [none]
      · simp [none]
      · simp [none]
      · rw [none]
        rfl
      · simp [none]
      · exact reading
      · exact unnamed
      · exact fun _ => rfl

end Daybook
