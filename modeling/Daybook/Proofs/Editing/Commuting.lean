import Daybook.Listing
import Daybook.Proofs.Disk.Filing
import Daybook.Proofs.Page.AccountCuts
import Daybook.Proofs.Page.Spans

/-!
# Deleting transactions in any order

Transactions that are deleted one after another, each by the id that it has by then, can be deleted
in any order. What is left is the content without the lines of each of them. For no transaction
reaches to a line of another one: when one is cut out, the lines of the others stay what they were,
and those behind it only move up.
-/
namespace Daybook

open Statement

/-! ## Spans beside a span that is taken out -/

/-- Where a span comes to be when another one is taken out before or behind it. -/
def Span.closeUp (cut span : Span) : Span :=
  if span.stop ≤ cut.start then span else span.shift (cut.start - cut.stop)

/-- A span stands beside another one: it ends before it, or begins behind it and is not empty. -/
def Span.Beside (cut span : Span) : Prop :=
  span.stop ≤ cut.start ∨ (cut.stop ≤ span.start ∧ cut.start < span.stop)

/-- A span holds the offsets from its start up to, and without, its end. -/
theorem Span.holds_iff {span : Span} {offset : Nat} :
    span.holds offset = true ↔ span.start ≤ offset ∧ offset < span.stop := by
  simp [holds]

/-- Before the span that is taken out nothing changes. -/
theorem Span.holds_closeUp_before {cut span : Span} (beside : cut.Beside span)
    (order : cut.start ≤ cut.stop) {offset : Nat} (before : (offset : Int) < cut.start) :
    (cut.closeUp span).holds offset = span.holds offset := by
  unfold closeUp
  split
  · rfl
  · next beyond =>
    have behind := beside.resolve_left beyond
    rw [Bool.eq_iff_iff, holds_iff, holds_iff, shift]
    dsimp only
    omega

/-- Behind it every offset moves up. -/
theorem Span.holds_closeUp_behind {cut span : Span} {offset further : Nat}
    (behind : cut.start ≤ offset)
    (moves : (further : Int) = offset + (cut.stop - cut.start)) (order : cut.start ≤ cut.stop) :
    (cut.closeUp span).holds offset = span.holds further := by
  unfold closeUp
  split
  · rw [Bool.eq_iff_iff, holds_iff, holds_iff]
    omega
  · rw [Bool.eq_iff_iff, holds_iff, holds_iff, shift]
    dsimp only
    omega

/-- What holds for each of several spans holds for all of them. -/
theorem any_closeUp {cut : Span} {spans : List Span} {offset further : Nat}
    (each : ∀ span ∈ spans, (cut.closeUp span).holds offset = span.holds further) :
    (spans.map cut.closeUp).any (·.holds offset) = spans.any (·.holds further) := by
  induction spans with
  | nil => rfl
  | cons span spans ih =>
    obtain ⟨first, others⟩ := List.forall_mem_cons.mp each
    rw [List.map_cons, List.any_cons, List.any_cons, first, ih others]

/-- A span can be taken out before all others that stand beside it. The bytes before the cut have
the same places, those of the cut are held by the span, and those behind it close up with the other
spans. -/
theorem withoutSpans_cons {front cut back : Bytes} {spans : List Span} {taken : Span}
    (place : taken = ⟨front.length, front.length + cut.length⟩)
    (beside : ∀ span ∈ spans, taken.Beside span) :
    withoutSpans (front ++ (cut ++ back)) (taken :: spans) =
      withoutSpans (front ++ back) (spans.map taken.closeUp) := by
  have start : taken.start = front.length := by rw [place]
  have stop : taken.stop = front.length + cut.length := by rw [place]
  have first : (front.zipIdx.filter fun held => !(taken :: spans).any (·.holds held.2)) =
      front.zipIdx.filter fun held => !(spans.map taken.closeUp).any (·.holds held.2) := by
    refine List.filter_congr fun held member => ?_
    have inside := (List.mem_zipIdx member).2.1
    have early : taken.holds held.2 = false := by
      rw [Bool.eq_false_iff, ne_eq, Span.holds_iff]
      omega
    rw [any_closeUp fun span listed =>
      Span.holds_closeUp_before (beside span listed) (by omega) (by omega), List.any_cons, early,
      Bool.false_or]
  have middle : ((cut.zipIdx front.length).filter fun held =>
      !(taken :: spans).any (·.holds held.2)) = [] := by
    refine List.filter_eq_nil_iff.mpr fun held member => ?_
    obtain ⟨later, inside, _⟩ := List.mem_zipIdx member
    have within : taken.holds held.2 = true := by
      rw [Span.holds_iff]
      omega
    simp [within]
  have last : (((back.zipIdx (front.length + cut.length)).filter fun held =>
      !(taken :: spans).any (·.holds held.2)).map Prod.fst) =
        ((back.zipIdx front.length).filter fun held =>
          !(spans.map taken.closeUp).any (·.holds held.2)).map Prod.fst := by
    rw [List.zipIdx_eq_map_add, List.zipIdx_eq_map_add (i := front.length), List.filter_map,
      List.filter_map, List.map_map, List.map_map]
    have same : back.zipIdx.filter ((fun held => !(taken :: spans).any (·.holds held.2)) ∘
          fun held => (held.1, front.length + cut.length + held.2)) =
        back.zipIdx.filter ((fun held => !(spans.map taken.closeUp).any (·.holds held.2)) ∘
          fun held => (held.1, front.length + held.2)) := by
      refine List.filter_congr fun held _ => ?_
      have late : taken.holds (front.length + cut.length + held.2) = false := by
        rw [Bool.eq_false_iff, ne_eq, Span.holds_iff]
        omega
      simp only [Function.comp_apply]
      rw [any_closeUp fun span _ => Span.holds_closeUp_behind (by omega)
        (show ((front.length + cut.length + held.2 : Nat) : Int) = _ by
          push_cast
          omega) (by omega), List.any_cons, late, Bool.false_or]
    rw [same]
    rfl
  simp only [withoutSpans, List.zipIdx_append, List.filter_append, Nat.zero_add, first, middle,
    List.map_append, List.nil_append, last]

/-! ## Whole lines beside a transaction that is cut out -/

section Cut

variable {content front body tail back : Bytes} {span : Span}

/-- The content without the span and behind it. -/
theorem CutAt.take_drop (cut : CutAt content span front body tail back) :
    content.take span.start.toNat = front ∧ content.drop span.stop.toNat = tail ++ back := by
  have stop : span.stop.toNat = (front ++ body).length := by
    rw [cut.stop, List.length_append]
    omega
  rw [stop, cut.start, Int.toNat_natCast, cut.whole]
  constructor
  · rw [List.append_assoc, List.append_assoc, List.take_left]
  · rw [List.append_assoc, List.drop_left]

/-- The rest of the line where the span ends is followed by the bytes behind it. -/
theorem CutAt.afterLine (cut : CutAt content span front body tail back) :
    Span.afterLine (tail ++ back) = back := by
  rcases cut.line with ⟨quiet, rfl⟩ | ⟨line, rfl, quiet⟩
  · rw [Text.Utf8.afterLine_append quiet]
    rfl
  · rw [List.append_assoc, Text.Utf8.afterLine_append quiet]
    rfl

/-- What is cut out are the whole lines of the span. -/
theorem CutAt.wholeLines (cut : CutAt content span front body tail back) :
    span.wholeLines content = ⟨front.length, front.length + (body ++ tail).length⟩ := by
  have size := congrArg List.length cut.whole
  rw [Span.wholeLines, cut.take_drop.2, cut.afterLine, cut.start]
  simp only [List.length_append] at size
  simp only [List.length_append, Span.mk.injEq, true_and]
  omega

/-- Between an offset and one on a later line there is a line feed. -/
theorem Span.lineFeed_between {first second : Int}
    (lines : lineOf content first < lineOf content second) :
    0x0A ∈ (content.take second.toNat).drop first.toNat := by
  rcases Nat.le_total first.toNat second.toNat with order | order
  · have parts := List.take_append_drop first.toNat (content.take second.toNat)
    rw [List.take_take, Nat.min_eq_left order] at parts
    rw [lineOf, lineOf, ← parts, List.count_append] at lines
    exact List.count_pos_iff.mp (by omega)
  · have fewer : (content.take second.toNat).count 0x0A ≤ (content.take first.toNat).count 0x0A :=
      (List.take_prefix_take_left order).sublist.count_le 0x0A
    exact absurd lines (Nat.not_lt.mpr fewer)

/-- A directive that precedes another one ends on a line before it. -/
theorem Directive.Precedes.lineFeed {first second : Directive}
    (precedes : first.Precedes content second) :
    0x0A ∈ (content.take second.span.start.toNat).drop first.span.stop.toNat :=
  Span.lineFeed_between precedes.lines

/-- The whole lines of a span that ends on a line before the cut stay where they are. -/
theorem CutAt.wholeLines_before (cut : CutAt content span front body tail back)
    {other : Span} (feed : 0x0A ∈ (content.take span.start.toNat).drop other.stop.toNat) :
    other.wholeLines (front ++ back) = other.wholeLines content ∧
      (other.wholeLines content).stop ≤ front.length := by
  rw [cut.take_drop.1] at feed
  obtain ⟨left, inside⟩ := Span.wholeLines_append feed back
  obtain ⟨whole, _⟩ := Span.wholeLines_append feed (body ++ tail ++ back)
  have parts : content = front ++ (body ++ tail ++ back) := by
    rw [cut.whole, List.append_assoc, List.append_assoc, List.append_assoc]
  rw [left, parts, whole]
  exact ⟨rfl, inside⟩

/-- The whole lines of a span that begins on a line behind the cut move up with it. The line feed
between the two spans keeps the whole lines of the one from those of the other. -/
theorem CutAt.wholeLines_behind (cut : CutAt content span front body tail back)
    {other : Span} (within : other.Within content.length)
    (feed : 0x0A ∈ (content.take other.start.toNat).drop span.stop.toNat) :
    (front.length : Int) + (body ++ tail).length ≤ other.start ∧
      (other.shift (-((body ++ tail).length : Int))).wholeLines (front ++ back) =
        (other.wholeLines content).shift (-((body ++ tail).length : Int)) := by
  obtain ⟨low, order, _⟩ := within
  have behind : (front.length : Int) + (body ++ tail).length ≤ other.start := by
    obtain ⟨whole, inside⟩ := Span.wholeLines_append feed (content.drop other.start.toNat)
    rw [List.take_append_drop, cut.wholeLines] at whole
    rw [← whole, List.length_take] at inside
    dsimp only at inside
    omega
  refine ⟨behind, ?_⟩
  obtain ⟨further, stop⟩ := Int.eq_ofNat_of_zero_le
    (show 0 ≤ other.stop - (front.length + (body ++ tail).length) by omega)
  have old : content.drop other.stop.toNat = back.drop further := by
    have place : other.stop.toNat = (front ++ body ++ tail).length + further := by
      simp only [List.length_append] at stop ⊢
      omega
    rw [place, cut.whole, ← List.drop_drop, List.drop_left]
  have new : (front ++ back).drop (other.stop + -((body ++ tail).length : Int)).toNat =
      back.drop further := by
    have place : (other.stop + -((body ++ tail).length : Int)).toNat = front.length + further := by
      omega
    rw [place, ← List.drop_drop, List.drop_left]
  have size := congrArg List.length cut.whole
  have cutSize : (body ++ tail).length = body.length + tail.length := List.length_append
  have leftSize : (front ++ back).length = front.length + back.length := List.length_append
  simp only [List.length_append] at size
  simp only [Span.wholeLines, Span.shift, old, new, Span.mk.injEq, true_and]
  omega

/-- The lines of a span before the cut are beside it and stay. -/
theorem CutAt.closeUp_before (cut : CutAt content span front body tail back)
    {other : Span} (feed : 0x0A ∈ (content.take span.start.toNat).drop other.stop.toNat) :
    (span.wholeLines content).Beside (other.wholeLines content) ∧
      (span.wholeLines content).closeUp (other.wholeLines content) =
        other.wholeLines (front ++ back) := by
  obtain ⟨same, inside⟩ := cut.wholeLines_before feed
  rw [cut.wholeLines]
  exact ⟨Or.inl inside, (if_pos inside).trans same.symm⟩

/-- The lines of a span behind the cut are beside it and close up. Lines behind the cut begin after
its end, so closing up is moving by its length. -/
theorem CutAt.closeUp_behind (cut : CutAt content span front body tail back)
    {other : Span} (forward : span.start < span.stop) (within : other.Within content.length)
    (feed : 0x0A ∈ (content.take other.start.toNat).drop span.stop.toNat) :
    (span.wholeLines content).Beside (other.wholeLines content) ∧
      (span.wholeLines content).closeUp (other.wholeLines content) =
        (other.shift (-((body ++ tail).length : Int))).wholeLines (front ++ back) := by
  obtain ⟨behind, same⟩ := cut.wholeLines_behind within feed
  have order := within.wholeLines.2.1
  have positive : 0 < (body ++ tail).length := by
    have start := cut.start
    have stop := cut.stop
    rw [List.length_append]
    omega
  have lines : (other.wholeLines content).start = other.start := rfl
  have beyond : ¬ (other.wholeLines content).stop ≤ (front.length : Int) := by omega
  rw [cut.wholeLines]
  refine ⟨Or.inr ⟨?_, ?_⟩, (if_neg beyond).trans ?_⟩
  · dsimp only
    omega
  · dsimp only
    omega
  · have distance : (front.length : Int) - (front.length + (body ++ tail).length) =
        -((body ++ tail).length : Int) := by omega
    rw [same]
    dsimp only
    rw [distance]

end Cut

/-! ## The transactions that are left -/

/-- The bytes of each transaction, from its date to the end of its last line. -/
def Page.ranges (content : Bytes) (page : Page) : List Span :=
  page.transactions.map fun entry => entry.span.wholeLines content

/-- The directives around a transaction. -/
theorem Page.directives_of_transactions {page : Page} {first second : List TransactionEntry}
    {entry : TransactionEntry} (parts : page.transactions = first ++ entry :: second) :
    ∃ before after, page.directives = before ++ .transaction entry :: after ∧
      before.filterMap Directive.transaction? = first ∧
      after.filterMap Directive.transaction? = second := by
  obtain ⟨early, rest, split, firstEq, restEq⟩ := List.filterMap_eq_append_iff.mp parts
  obtain ⟨skipped, directive, late, rfl, plain, same, secondEq⟩ :=
    List.filterMap_eq_cons_iff.mp restEq
  have own : directive = .transaction entry := by
    cases directive <;> cases same
    rfl
  refine ⟨early ++ skipped, late, ?_, ?_, secondEq⟩
  · rw [split, own, List.append_assoc]
  · rw [List.filterMap_append, firstEq, List.filterMap_eq_nil_iff.mpr plain, List.append_nil]

/-- The transactions among directives are directives. -/
theorem Directive.mem_of_transactions {directives : List Directive} {entry : TransactionEntry}
    (member : entry ∈ directives.filterMap Directive.transaction?) :
    .transaction entry ∈ directives := by
  obtain ⟨directive, held, same⟩ := List.mem_filterMap.mp member
  cases directive <;> cases same
  exact held

/-- When a transaction has been cut out, the others are left, and their lines are those that they
were, further up behind the cut. -/
theorem Page.cut_ranges {path : FilePath} {content : Bytes} {page : Page}
    {first second : List TransactionEntry} {entry : TransactionEntry}
    (paged : Page.ofBytes path content = .ok page) (sound : page.errors = [])
    (parts : page.transactions = first ++ entry :: second) :
    ∃ rest left, entry.extent.cutLines content = .ok rest ∧ rest.length ≤ content.length ∧
      Page.ofBytes path rest = .ok left ∧ left.errors = [] ∧
      left.ranges rest = ((first ++ second).map fun other => other.span.wholeLines content).map
        (entry.span.wholeLines content).closeUp ∧
      ∀ spans, (∀ span ∈ spans, ∃ other ∈ first ++ second, span = other.span.wholeLines content) →
        withoutSpans content (entry.span.wholeLines content :: spans) =
          withoutSpans rest (spans.map (entry.span.wholeLines content).closeUp) := by
  obtain ⟨before, after, directives, rfl, rfl⟩ := Page.directives_of_transactions parts
  obtain ⟨_, front, body, tail, back, left, cut, cutLines, leftPaged, leftSound,
    leftDirectives, _⟩ :=
    Page.cut paged sound directives
  obtain ⟨text, rfl, arrayed⟩ := Page.arrayed paged sound
  have apart := arrayed.apart
  rw [directives, List.pairwise_append, List.pairwise_cons] at apart
  obtain ⟨_, ⟨behind, _⟩, ahead⟩ := apart
  have stands {other : TransactionEntry} (member : .transaction other ∈ page.directives) :
      other.span.start < other.span.stop ∧
        other.span.Within (Text.Utf8.encode text).length := by
    obtain ⟨_, _, _, _, stands⟩ := arrayed.each _ member
    have shown : other.Shown (Text.Utf8.encode text) := stands.shown
    exact ⟨stands.forward, shown.whole⟩
  have early : ∀ other ∈ before.filterMap Directive.transaction?,
      (entry.span.wholeLines (Text.Utf8.encode text)).Beside
          (other.span.wholeLines (Text.Utf8.encode text)) ∧
        (entry.span.wholeLines (Text.Utf8.encode text)).closeUp
            (other.span.wholeLines (Text.Utf8.encode text)) =
          other.span.wholeLines (front ++ back) := fun other member =>
    cut.closeUp_before (ahead _ (Directive.mem_of_transactions member) _
      List.mem_cons_self).lineFeed
  have late : ∀ other ∈ after.filterMap Directive.transaction?,
      (entry.span.wholeLines (Text.Utf8.encode text)).Beside
          (other.span.wholeLines (Text.Utf8.encode text)) ∧
        (entry.span.wholeLines (Text.Utf8.encode text)).closeUp
            (other.span.wholeLines (Text.Utf8.encode text)) =
          (other.shift (-((body ++ tail).length : Int))).span.wholeLines (front ++ back) := by
    intro other member
    have listed := Directive.mem_of_transactions member
    exact cut.closeUp_behind (stands (by simp [directives])).1
      (stands (by simp [directives, listed])).2 (behind _ listed).lineFeed
  have whole : Text.Utf8.encode text = front ++ ((body ++ tail) ++ back) := by
    rw [cut.whole]
    simp only [List.append_assoc]
  refine ⟨front ++ back, left, cutLines, ?_, leftPaged, leftSound, ?_, fun spans among => ?_⟩
  · rw [whole]
    simp only [List.length_append]
    omega
  · rw [Page.ranges, Page.transactions, leftDirectives, List.filterMap_append,
      Directive.transactions_shift, List.map_append, List.map_append, List.map_append, List.map_map,
      List.map_map, List.map_map]
    refine congrArg₂ (· ++ ·) (List.map_congr_left fun other member =>
      ((early other member).2).symm) ?_
    exact List.map_congr_left fun other member => ((late other member).2).symm
  · have beside : ∀ span ∈ spans, (entry.span.wholeLines (Text.Utf8.encode text)).Beside span := by
      intro span member
      obtain ⟨other, among, rfl⟩ := among span member
      rcases List.mem_append.mp among with ahead | later
      · exact (early other ahead).1
      · exact (late other later).1
    refine Eq.trans ?_ (withoutSpans_cons cut.wholeLines beside)
    rw [← whole]

/-! ## One deletion after another -/

/-- Deletes transactions of a file one after another, each by the id that it has by then. They are
told apart by their numbers: in the order of the file, those that are there have the given ones. -/
def deleteNumbered (path : Text) : List Nat → List Nat → Storing Unit
  | _, [] => return ()
  | numbers, number :: order => do
    let page ← Storing.look (readPage (FilePath.ofText path))
    match (numbers.zip page.transactions).lookup number with
    | none => throw (.noTransaction path number)
    | some entry =>
      deleteTransaction (Identifier.encode ⟨path, entry.dateSpan.start.toNat⟩)
      deleteNumbered path (numbers.erase number) order

section Numbers

variable {α β : Type} {ahead behind : List Nat} {number other : Nat} {first second : List α}
  {held : α}

/-- What a number stands for. -/
theorem lookup_zip_own (apart : number ∉ ahead) (same : ahead.length = first.length) :
    ((ahead ++ number :: behind).zip (first ++ held :: second)).lookup number = some held := by
  rw [List.zip_append same, List.lookup_append, List.zip_cons_cons, List.lookup_cons_self,
    List.lookup_eq_none_iff.mpr fun pair member => ?_, Option.none_or]
  rw [bne_iff_ne]
  rintro rfl
  exact apart (List.of_mem_zip member).1

/-- Without a number the others stand for what they stood for. -/
theorem lookup_zip_others (apart : other ≠ number) (same : ahead.length = first.length) :
    ((ahead ++ number :: behind).zip (first ++ held :: second)).lookup other =
      ((ahead ++ behind).zip (first ++ second)).lookup other := by
  have skips : (other == number) = false := beq_eq_false_iff_ne.mpr apart
  rw [List.zip_append same, List.zip_append same, List.lookup_append, List.lookup_append,
    List.zip_cons_cons, List.lookup_cons, skips]

/-- A number stands for what becomes of what it stood for. -/
theorem lookup_zip_map (numbers : List Nat) (values : List α) (becomes : α → β) (number : Nat) :
    (numbers.zip (values.map becomes)).lookup number =
      ((numbers.zip values).lookup number).map becomes := by
  induction numbers generalizing values with
  | nil => rfl
  | cons own numbers ih =>
    cases values with
    | nil => rfl
    | cons value values =>
      rw [List.map_cons, List.zip_cons_cons, List.zip_cons_cons, List.lookup_cons,
        List.lookup_cons]
      split
      · rfl
      · exact ih values

/-- A number stands for one of the values. -/
theorem mem_of_lookup_zip {numbers : List Nat} {values : List α}
    (found : (numbers.zip values).lookup number = some held) : held ∈ values := by
  induction numbers generalizing values with
  | nil => cases found
  | cons own numbers ih =>
    cases values with
    | nil => cases found
    | cons value values =>
      rw [List.zip_cons_cons, List.lookup_cons] at found
      split at found
      · cases found
        exact List.mem_cons_self
      · exact List.mem_cons_of_mem _ (ih found)

/-- When values are counted, a number stands for the value at its place. -/
theorem lookup_zip_range' (start : Nat) (values : List α) :
    ((List.range' start values.length).zip values).lookup (start + number) = values[number]? := by
  induction values generalizing start number with
  | nil => rfl
  | cons value values ih =>
    rw [List.length_cons, List.range'_succ, List.zip_cons_cons, List.lookup_cons]
    cases number with
    | zero => simp
    | succ number =>
      have later : (start + (number + 1) == start) = false := by simp
      rw [later, ← Nat.add_assoc, Nat.add_right_comm, ih, List.getElem?_cons_succ]

/-- What the first number of several stands for, and then what the others stand for without it. -/
theorem filterMap_lookup_zip {order : List Nat} (apart : number ∉ ahead) (once : number ∉ order)
    (same : ahead.length = first.length) :
    (number :: order).filterMap
        (((ahead ++ number :: behind).zip (first ++ held :: second)).lookup ·) =
      held :: order.filterMap (((ahead ++ behind).zip (first ++ second)).lookup ·) := by
  rw [List.filterMap_cons, lookup_zip_own apart same]
  refine congrArg (held :: ·) (List.filterMap_congr fun other listed => ?_)
  exact lookup_zip_others (fun repeated => once (repeated ▸ listed)) same

end Numbers

section Run

variable {path : Text} {place beside : Location} {disk : Disk} {content : Bytes} {page : Page}
  {first second : List TransactionEntry} {entry : TransactionEntry} {number : Nat}
  {ahead behind : List Nat}

/-- A transaction of a page without errors is cut out by its id, and its file stays one that can be
written. -/
theorem deleteTransaction_listed
    (named : ∀ offset ≤ content.length,
      Identifier.decode (Identifier.encode ⟨path, offset⟩) = .ok ⟨path, offset⟩)
    (able : disk.Writable (FilePath.ofText path) place beside)
    (held : readBytes path (FilePath.ofText path) disk = .ok content)
    (paged : Page.ofBytes (FilePath.ofText path) content = .ok page) (sound : page.errors = [])
    (member : .transaction entry ∈ page.directives) {rest : Bytes}
    (cut : entry.extent.cutLines content = .ok rest) :
    ∃ next, (deleteTransaction (Identifier.encode ⟨path, entry.dateSpan.start.toNat⟩)).outcome disk =
        (.ok (), next) ∧ next.Writable (FilePath.ofText path) place beside ∧
      readBytes path (FilePath.ofText path) next = .ok rest := by
  obtain ⟨low, inside, _⟩ := Page.date_shown paged sound member
  have found : page.find entry.dateSpan.start.toNat = .ok entry := by
    rw [Int.toNat_of_nonneg low]
    exact Page.find_start paged sound member
  obtain ⟨next, written, replaced⟩ := writeWhole_of_writable able rest
  refine ⟨next, ?_, (writable_iff (replaced.changed able) _ _ _).mpr able,
    readBytes_eq_ok_iff.mpr (entry_of_writeWhole written)⟩
  rw [deleteTransaction_of_located (named _ inside) (locate_of_find held paged sound found) cut,
    written]

/-- The first deletion of several. -/
theorem deleteNumbered_cons
    (listed : readPage (FilePath.ofText path) disk = .ok page)
    (parts : page.transactions = first ++ entry :: second) (same : ahead.length = first.length)
    (apart : number ∉ ahead) {next : Disk}
    (deleted : (deleteTransaction
      (Identifier.encode ⟨path, entry.dateSpan.start.toNat⟩)).outcome disk = (.ok (), next))
    (order : List Nat) :
    (deleteNumbered path (ahead ++ number :: behind) (number :: order)).outcome disk =
      (deleteNumbered path (ahead ++ behind) order).outcome next := by
  have erased : (ahead ++ number :: behind).erase number = ahead ++ behind := by
    rw [List.erase_append_right _ apart, List.erase_cons_head]
  rw [deleteNumbered, Storing.outcome_bind, Storing.outcome_look, listed]
  simp only [parts, lookup_zip_own apart same, Storing.outcome_bind, deleted, erased]

/-- Transactions are deleted in any order. The induction is on the order: the first one is cut out,
and what is left is a page without errors that has all others. -/
theorem deleteNumbered_run {order numbers : List Nat}
    (named : ∀ offset ≤ content.length,
      Identifier.decode (Identifier.encode ⟨path, offset⟩) = .ok ⟨path, offset⟩)
    (able : disk.Writable (FilePath.ofText path) place beside)
    (held : readBytes path (FilePath.ofText path) disk = .ok content)
    (paged : Page.ofBytes (FilePath.ofText path) content = .ok page) (sound : page.errors = [])
    (numbered : numbers.length = page.transactions.length) (distinct : numbers.Nodup)
    (once : order.Nodup) (there : ∀ number ∈ order, number ∈ numbers) :
    ∃ last, (deleteNumbered path numbers order).outcome disk = (.ok (), last) ∧
      readBytes path (FilePath.ofText path) last = .ok (withoutSpans content
        (order.filterMap ((numbers.zip (page.ranges content)).lookup ·))) := by
  induction order generalizing numbers disk content page with
  | nil => exact ⟨disk, Storing.outcome_pure _ _, by simpa using held⟩
  | cons number order ih =>
    obtain ⟨ahead, behind, rfl, apart⟩ := List.eq_append_cons_of_mem (there _ List.mem_cons_self)
    obtain ⟨unlisted, once⟩ := List.nodup_cons.mp once
    have inside : ahead.length < page.transactions.length := by
      rw [← numbered]
      simp
    obtain ⟨first, entry, second, parts, same⟩ : ∃ first entry second,
        page.transactions = first ++ entry :: second ∧ ahead.length = first.length :=
      ⟨page.transactions.take ahead.length, page.transactions[ahead.length],
        page.transactions.drop (ahead.length + 1),
        by rw [List.getElem_cons_drop, List.take_append_drop],
        by rw [List.length_take, Nat.min_eq_left (Nat.le_of_lt inside)]⟩
    obtain ⟨rest, left, cutLines, shorter, leftPaged, leftSound, ranges, without⟩ :=
      Page.cut_ranges paged sound parts
    have member : .transaction entry ∈ page.directives := by
      obtain ⟨before, after, directives, _⟩ := Page.directives_of_transactions parts
      rw [directives]
      exact List.mem_append_right _ List.mem_cons_self
    obtain ⟨next, deleted, still, reads⟩ :=
      deleteTransaction_listed named able held paged sound member cutLines
    have listed : readPage (FilePath.ofText path) disk = .ok page :=
      bind_eq_ok_iff.mpr ⟨_, readBytes_eq_ok_iff.mpr (readBytes_eq_ok_iff.mp held),
        Page.read_eq_ok_iff.mpr ⟨paged, sound⟩⟩
    have fewer : (ahead ++ behind).length = left.transactions.length := by
      have count : (left.ranges rest).length = left.transactions.length := List.length_map _
      rw [← count, ranges, List.length_map, List.length_map]
      simp only [parts, List.length_append, List.length_cons] at numbered ⊢
      omega
    have others : ∀ other ∈ order, other ∈ ahead ++ behind := fun other member => by
      have kept : other ≠ number := fun repeated => unlisted (repeated ▸ member)
      simpa [kept] using there other (List.mem_cons_of_mem _ member)
    obtain ⟨last, run, final⟩ := ih (fun offset small => named offset (by omega)) still reads
      leftPaged leftSound fewer (List.nodup_cons.mp (List.nodup_middle.mp distinct)).2 once others
    refine ⟨last, (deleteNumbered_cons listed parts same apart deleted order).trans run,
      final.trans ?_⟩
    have whole : page.ranges content = first.map (·.span.wholeLines content) ++
        entry.span.wholeLines content :: second.map (·.span.wholeLines content) := by
      rw [Page.ranges, parts, List.map_append, List.map_cons]
    rw [whole, filterMap_lookup_zip apart unlisted (by rw [same, List.length_map]),
      ← List.map_append, ranges, without]
    · simp only [lookup_zip_map, List.map_filterMap]
    · intro span held
      obtain ⟨other, _, found⟩ := List.mem_filterMap.mp held
      obtain ⟨kept, inside, rfl⟩ := List.mem_map.mp (mem_of_lookup_zip found)
      exact ⟨kept, inside, rfl⟩

end Run

/-- A counted list has each value at its number. -/
theorem lookup_zip_range {α : Type} (values : List α) (number : Nat) :
    ((List.range values.length).zip values).lookup number = values[number]? := by
  rw [List.range_eq_range', ← lookup_zip_range' 0 values, Nat.zero_add]

/-- All values in their order. -/
theorem filterMap_range_getElem? {α : Type} (values : List α) :
    (List.range values.length).filterMap (values[·]?) = values := by
  induction values with
  | nil => rfl
  | cons value values ih =>
    rw [List.length_cons, List.range_succ_eq_map, List.filterMap_cons, List.filterMap_map]
    exact congrArg (value :: ·) ih

/-- Deleting the transactions of a page that have these numbers, in this order, leaves a content. -/
def Page.Leaves (path : Text) (disk : Disk) (page : Page)
    (order : List Nat) (rest : Bytes) : Prop :=
  ∃ last, (deleteNumbered path (List.range page.transactions.length) order).outcome disk =
    (.ok (), last) ∧ readBytes path (FilePath.ofText path) last = .ok rest

/-- The transactions of a file without errors can be deleted in any order, each by the id that it
has by then. Whichever are deleted, what is left is the content without the bytes from the date of
each of them to the end of its last line. So of two transactions either can be deleted first, and
when all are deleted their order does not matter. A deletion takes out the lines of one transaction
and moves the others, by a distance that depends on what has gone before. Counted in the bytes of
the original content nothing moves, and there the parts are disjoint. -/
theorem deleteNumbered_commutes {path : Text} {place beside : Location} {disk : Disk}
    {content : Bytes} {page : Page}
    (named : ∀ offset ≤ content.length,
      Identifier.decode (Identifier.encode ⟨path, offset⟩) = .ok ⟨path, offset⟩)
    (able : disk.Writable (FilePath.ofText path) place beside)
    (held : readBytes path (FilePath.ofText path) disk = .ok content)
    (paged : Page.ofBytes (FilePath.ofText path) content = .ok page) (sound : page.errors = []) :
    (∀ order : List Nat, order.Nodup → (∀ number ∈ order, number < page.transactions.length) →
      page.Leaves path disk order
        (withoutSpans content (order.filterMap ((page.ranges content)[·]?)))) ∧
    (∀ first second, first < page.transactions.length → second < page.transactions.length →
      first ≠ second → ∃ rest, page.Leaves path disk [first, second] rest ∧
        page.Leaves path disk [second, first] rest) ∧
    ∀ order : List Nat, order.Perm (List.range page.transactions.length) →
      page.Leaves path disk order (withoutSpans content (page.ranges content)) := by
  have count : (page.ranges content).length = page.transactions.length := List.length_map _
  have leaves : ∀ order : List Nat, order.Nodup →
      (∀ number ∈ order, number < page.transactions.length) → page.Leaves path disk order
        (withoutSpans content (order.filterMap ((page.ranges content)[·]?))) := by
    intro order once there
    have run := deleteNumbered_run named able held paged sound List.length_range List.nodup_range
      once fun number member => List.mem_range.mpr (there number member)
    rw [← count] at run
    simp only [lookup_zip_range] at run
    rwa [count] at run
  refine ⟨leaves, fun first second there alsoThere apart => ?_, fun order all => ?_⟩
  · have swapped := (List.Perm.swap second first []).filterMap ((page.ranges content)[·]?)
    refine ⟨_, leaves [first, second] (by simp [apart]) (by simp [there, alsoThere]), ?_⟩
    rw [withoutSpans_perm swapped]
    exact leaves [second, first] (by simp [Ne.symm apart]) (by simp [there, alsoThere])
  · have every := all.filterMap ((page.ranges content)[·]?)
    rw [← count, filterMap_range_getElem?] at every
    rw [← withoutSpans_perm every]
    exact leaves order (all.nodup_iff.mpr List.nodup_range) fun number member =>
      List.mem_range.mp (all.mem_iff.mp member)

/-- Whether a content is short and has a page without errors that has two transactions. -/
def Page.isPair (path : FilePath) (content : Bytes) : Bool :=
  decide (content.length ≤ 99) && (Page.ofBytes path content).toOption.any fun page =>
    page.errors.isEmpty && page.transactions.length == 2

/-- Either of two transactions can be deleted first. -/
theorem deleteNumbered_neighbours : ∃ content page rest,
    readBytes "a.bean" (FilePath.ofText "a.bean") Disk.withNeighbours = .ok content ∧
    Page.ofBytes (FilePath.ofText "a.bean") content = .ok page ∧
    page.Leaves "a.bean" Disk.withNeighbours [0, 1] rest ∧
    page.Leaves "a.bean" Disk.withNeighbours [1, 0] rest := by
  have named : ∀ offset ≤ 99, Identifier.decode (Identifier.encode ⟨"a.bean", offset⟩) =
      .ok ⟨"a.bean", offset⟩ := by decide +kernel
  have writable : Disk.withNeighbours.Writable (FilePath.ofText "a.bean") ["a.bean"]
      [".a.bean.<uuid>.tmp"] :=
    ⟨by decide, by decide, rfl, rfl, by decide, by decide⟩
  have shape : (readBytes "a.bean" (FilePath.ofText "a.bean") Disk.withNeighbours).toOption.any
      (Page.isPair (FilePath.ofText "a.bean")) = true := by
    decide +kernel
  obtain ⟨content, held, shape⟩ := exists_of_any shape
  obtain ⟨short, shape⟩ := Bool.and_eq_true_iff.mp shape
  obtain ⟨page, paged, shape⟩ := exists_of_any shape
  obtain ⟨sound, pair⟩ := Bool.and_eq_true_iff.mp shape
  have count : page.transactions.length = 2 := beq_iff_eq.mp pair
  obtain ⟨_, swapped, _⟩ := deleteNumbered_commutes
    (fun offset inside => named offset (inside.trans (of_decide_eq_true short))) writable held paged
    (List.isEmpty_iff.mp sound)
  obtain ⟨rest, first, second⟩ := swapped 0 1 (by omega) (by omega) (by decide)
  exact ⟨content, page, rest, held, paged, first, second⟩

end Daybook
