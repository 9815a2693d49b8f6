import Daybook.Proofs.Disk.Filing
import Daybook.Proofs.Editing.Deletion
import Daybook.Proofs.Page.FlagExchange

/-!
# Clearing a transaction

Clearing a transaction and taking that back exchange its flag for a mark and change nothing else in
its file. The file says the same afterwards, except for the flag; the transaction still begins where
it began, so its id goes on naming it, and with a flag of one byte so does every id of the file.
Doing it again writes nothing, and a mark that has been exchanged for the other one can be put back.
-/
namespace Daybook

open Statement

/-- The bytes of a span are exchanged for others. -/
theorem Span.replace_of_parts {front old back : Bytes} {span : Span}
    (place : span = ⟨front.length, front.length + old.length⟩) (other : Bytes) :
    span.replace (front ++ (old ++ back)) other = .ok (front ++ (other ++ back)) := by
  subst place
  have inside : Span.Within ⟨front.length, front.length + old.length⟩
      (front ++ (old ++ back)).length := by
    simp only [Within, List.length_append]
    omega
  have stop : ((front.length : Int) + old.length).toNat = front.length + old.length := by omega
  rw [replace, if_pos inside, stop, Int.toNat_natCast, List.take_left,
    ← List.append_assoc front old, ← List.length_append, List.drop_left, List.append_assoc]

/-- A content in which the flag of a transaction can be exchanged for a mark: what stands before the
flag and behind it, and the page of the content with the mark. It has the same directives, with the
mark as the flag of the transaction, and what stands behind the flag further up by as many bytes as
the mark is shorter. -/
structure Exchange (path : FilePath) (content : Bytes) (page : Page) (before : List Directive)
    (entry : TransactionEntry) (after : List Directive) (mark : Text) where
  front : Bytes
  back : Bytes
  changed : Page
  whole : content = front ++ (Text.Utf8.encode entry.flag ++ back)
  span : entry.flagSpan = ⟨front.length, front.length + (Text.Utf8.encode entry.flag).length⟩
  date : entry.dateSpan.start ≤ front.length
  paged : Page.ofBytes path (front ++ (Text.Utf8.encode mark ++ back)) = .ok changed
  sound : changed.errors = []
  directives : changed.directives =
    (before ++ .transaction { entry with flag := mark } :: after).map (Directive.relocate
      (displaced front.length
        ((Text.Utf8.encode mark).length - (Text.Utf8.encode entry.flag).length)))
  messages : changed.warnings.map Diagnostic.message = page.warnings.map Diagnostic.message

/-- The flag of every transaction of a page without errors can be exchanged for a mark. The
transaction is parted from the other lines, the flag of its heading is exchanged in the text, and
the new text is collected again. -/
theorem Page.exchange {path : FilePath} {content : Bytes} {page : Page}
    {before after : List Directive} {entry : TransactionEntry} {mark : Text} (known : IsMark mark)
    (paged : Page.ofBytes path content = .ok page) (sound : page.errors = [])
    (parts : page.directives = before ++ .transaction entry :: after) :
    Nonempty (Exchange path content page before entry after mark) := by
  obtain ⟨text, rfl, ofText⟩ := Page.encode_of_ofBytes paged sound
  obtain ⟨lines, collected, reading, whole, rfl⟩ :=
    Page.reading_of_ofText ofText sound (by simp [parts])
  obtain ⟨parting⟩ := parting_of_collect whole parts
  obtain ⟨flag, flagged, entryEq⟩ := parting.entry_eq
  obtain ⟨marking⟩ := marking_of_reading (parting.parts ▸ reading) parting.statement flagged known
  obtain ⟨changed, collects, directives, messages⟩ :=
    parting.collect_marked reading whole parts marking known flagged
  obtain ⟨flagText, flagSpan, date⟩ := parting.flag_bounds marking known flagged
  have width := length_encode_flag marking.word
  have markWidth := length_encode_flag known.isFlagWord
  have shorter : ((Text.Utf8.encode mark).length : Int) - (Text.Utf8.encode entry.flag).length =
      -marking.distance := by
    rw [flagText, width, markWidth, marking.longer]
    omega
  refine ⟨{
    front := Text.Utf8.encode marking.front
    back := Text.Utf8.encode marking.tail
    changed := Page.ofCollected path.toText changed
    whole := ?_
    span := ?_
    date
    paged := ?_
    sound := rfl
    directives := ?_
    messages }⟩
  · rw [flagText, ← Text.Utf8.encode_append, ← Text.Utf8.encode_append, ← marking.whole]
  · rw [flagSpan, flagText, width]
  · rw [← Text.Utf8.encode_append, ← Text.Utf8.encode_append, Page.ofBytes_encode]
    exact Page.ofText_of_reading marking.reading collects
  · rw [shorter]
    exact directives

namespace Exchange

variable {path : FilePath} {content : Bytes} {page : Page} {before after : List Directive}
  {entry : TransactionEntry} {mark : Text}

/-- The content with the mark. -/
def marked (exchange : Exchange path content page before entry after mark) : Bytes :=
  exchange.front ++ (Text.Utf8.encode mark ++ exchange.back)

/-- Where the offsets of the content come to be. -/
def move (exchange : Exchange path content page before entry after mark) : Int → Int :=
  displaced exchange.front.length
    ((Text.Utf8.encode mark).length - (Text.Utf8.encode entry.flag).length)

/-- The transaction with the mark. -/
def flagged (exchange : Exchange path content page before entry after mark) : TransactionEntry :=
  ({ entry with flag := mark } : TransactionEntry).relocate exchange.move

/-- The transaction begins where it began. -/
theorem start_eq (exchange : Exchange path content page before entry after mark) :
    exchange.flagged.dateSpan.start = entry.dateSpan.start :=
  displaced_of_le exchange.date

/-- A mark that is there already changes nothing. -/
theorem marked_of_same (exchange : Exchange path content page before entry after mark)
    (same : entry.flag = mark) : exchange.marked = content := by
  have whole := exchange.whole
  rw [same] at whole
  exact whole.symm

/-- The flag is exchanged for the mark. -/
theorem replace (exchange : Exchange path content page before entry after mark) :
    entry.flagSpan.replace content (Text.Utf8.encode mark) = .ok exchange.marked := by
  have parts : entry.flagSpan.replace (exchange.front ++ (_ ++ exchange.back)) _ = _ :=
    Span.replace_of_parts exchange.span (Text.Utf8.encode mark)
  rwa [← exchange.whole] at parts

/-- The flag can be put back. -/
theorem replace_back (exchange : Exchange path content page before entry after mark)
    (word : 0 < (Text.Utf8.encode entry.flag).length) :
    exchange.flagged.flagSpan.replace exchange.marked (Text.Utf8.encode entry.flag) =
      .ok content := by
  have place : exchange.flagged.flagSpan =
      ⟨exchange.front.length, exchange.front.length + (Text.Utf8.encode mark).length⟩ := by
    simp only [flagged, TransactionEntry.relocate, exchange.span, Span.relocate, move]
    rw [displaced_of_le (Int.le_refl _), displaced_of_lt (by omega), Int.add_assoc]
    simp
  rw [marked, Span.replace_of_parts place, ← exchange.whole]

/-- The id of the transaction names the one with the mark. -/
theorem find (exchange : Exchange path content page before entry after mark) :
    exchange.changed.find entry.dateSpan.start = .ok exchange.flagged := by
  rw [← exchange.start_eq]
  refine Page.find_start exchange.paged exchange.sound ?_
  rw [exchange.directives]
  exact List.mem_map_of_mem (f := Directive.relocate exchange.move)
    (List.mem_append_right before List.mem_cons_self)

/-- Where the mark is as long as the flag nothing moves. -/
theorem directives_of_single (exchange : Exchange path content page before entry after mark)
    (same : (Text.Utf8.encode entry.flag).length = (Text.Utf8.encode mark).length) :
    exchange.changed.directives = before ++ .transaction { entry with flag := mark } :: after := by
  have still : ∀ directive : Directive, directive.relocate exchange.move = directive := by
    intro directive
    have none : exchange.move = (· + 0) := by
      funext offset
      rw [move, same, Int.sub_self, displaced]
      split <;> simp
    rw [none, Directive.relocate_add, Directive.shift_zero]
  rw [exchange.directives]
  exact List.map_id'' still _

end Exchange

/-! ## Setting the flag -/

/-- A flag that the transaction has already is left. -/
theorem setFlag_of_same {id flag : Text} {identifier : Identifier} {disk : Disk}
    {content : Bytes} {entry : TransactionEntry} (word : checkWord "flag" flag = .ok ())
    (named : Identifier.decode id = .ok identifier)
    (located : locate identifier disk = .ok (content, entry)) (same : entry.flag = flag) :
    (setFlag id flag).outcome disk = (.ok (), disk) := by
  simp only [setFlag, Storing.outcome_bind, Storing.outcome_known, word, named,
    Storing.outcome_look, located, if_pos same]
  rfl

/-- Another flag is exchanged. -/
theorem setFlag_of_other {id flag : Text} {identifier : Identifier} {disk : Disk}
    {content rest : Bytes} {entry : TransactionEntry} (word : checkWord "flag" flag = .ok ())
    (named : Identifier.decode id = .ok identifier)
    (located : locate identifier disk = .ok (content, entry)) (other : entry.flag ≠ flag)
    (replaced : entry.flagSpan.replace content (Text.Utf8.encode flag) = .ok rest) :
    (setFlag id flag).outcome disk =
      (writeWhole (FilePath.ofText identifier.path) rest).outcome disk := by
  simp only [setFlag, Storing.outcome_bind, Storing.outcome_known, word, named,
    Storing.outcome_look, located, if_neg other, replaced, Except.mapError]

/-- A mark is a word. -/
theorem IsMark.checkWord {mark : Text} (known : IsMark mark) :
    checkWord "flag" mark = .ok () := by
  rcases known with rfl | rfl <;> rfl

/-- Setting the flag writes the content with the mark, also where the transaction has the mark
already and the file is not touched at all. -/
theorem Exchange.writes {id path flag : Text} {disk : Disk} {content : Bytes} {page : Page}
    {before after : List Directive} {entry : TransactionEntry}
    (exchange : Exchange (FilePath.ofText path) content page before entry after flag)
    (held : readBytes path (FilePath.ofText path) disk = .ok content)
    (outcome : (setFlag id flag).outcome disk = if entry.flag = flag then (.ok (), disk)
      else (writeWhole (FilePath.ofText path) exchange.marked).outcome disk) :
    (setFlag id flag).Writes disk (FilePath.ofText path) exchange.marked := by
  by_cases same : entry.flag = flag
  · rw [if_pos same] at outcome
    rw [exchange.marked_of_same same]
    exact .of_unchanged held outcome
  · rw [if_neg same] at outcome
    exact (writeWhole_writes disk _ _).of_outcome_eq outcome

/-- Where the flag has been exchanged for another one, the file can be written once more. -/
theorem Exchange.writes_again {id path flag : Text} {disk result : Disk} {content : Bytes}
    {page : Page} {before after : List Directive} {entry : TransactionEntry}
    (exchange : Exchange (FilePath.ofText path) content page before entry after flag)
    (outcome : (setFlag id flag).outcome disk = if entry.flag = flag then (.ok (), disk)
      else (writeWhole (FilePath.ofText path) exchange.marked).outcome disk)
    (done : (setFlag id flag).outcome disk = (.ok (), result)) (other : entry.flag ≠ flag) :
    ∃ last, (writeWhole (FilePath.ofText path) content).outcome result = (.ok (), last) := by
  rw [done, if_neg other] at outcome
  exact writeWhole_again outcome.symm content

/-- Setting the flag of a transaction to one of the two marks exchanges exactly the bytes of its
flag, and the file holds the mark in their place afterwards. It says the same, except for this flag;
what stands up to the flag stays where it is, and what stands behind it moves by as many bytes as
the mark is longer. The id goes on naming the transaction, and if the flag was one byte so does
every id of the file. Setting the flag again writes nothing, and a mark that was there before can be
put back.

A mark is a flag for the lexer wherever a flag stands, so the lexemes of the line are the same but
for this one, and the parser takes the same steps over lexemes that have moved. -/
theorem setFlag_exact {id path flag : Text} {offset : Nat} {disk : Disk} {content : Bytes}
    {page : Page} {before after : List Directive} {entry : TransactionEntry}
    (known : IsMark flag) (named : Identifier.decode id = .ok ⟨path, offset⟩)
    (held : readBytes path (FilePath.ofText path) disk = .ok content)
    (paged : Page.ofBytes (FilePath.ofText path) content = .ok page) (sound : page.errors = [])
    (parts : page.directives = before ++ .transaction entry :: after)
    (start : entry.dateSpan.start = offset) :
    ∃ front back changed move,
      content = front ++ (Text.Utf8.encode entry.flag ++ back) ∧
      entry.flagSpan = ⟨front.length, front.length + (Text.Utf8.encode entry.flag).length⟩ ∧
      (setFlag id flag).outcome disk = (if entry.flag = flag then (.ok (), disk)
        else (writeWhole (FilePath.ofText path)
          (front ++ (Text.Utf8.encode flag ++ back))).outcome disk) ∧
      (setFlag id flag).Writes disk (FilePath.ofText path)
        (front ++ (Text.Utf8.encode flag ++ back)) ∧
      Page.ofBytes (FilePath.ofText path) (front ++ (Text.Utf8.encode flag ++ back)) =
        .ok changed ∧ changed.errors = [] ∧
      move = displaced front.length
        ((Text.Utf8.encode flag).length - (Text.Utf8.encode entry.flag).length) ∧
      changed.directives =
        (before ++ .transaction { entry with flag } :: after).map (Directive.relocate move) ∧
      changed.warnings.map Diagnostic.message = page.warnings.map Diagnostic.message ∧
      changed.find offset = .ok (({ entry with flag } : TransactionEntry).relocate move) ∧
      ((Text.Utf8.encode entry.flag).length = 1 → ∀ other, .transaction other ∈ before ++ after →
        changed.find other.dateSpan.start = .ok other) ∧
      ∀ result, (setFlag id flag).outcome disk = (.ok (), result) →
        (setFlag id flag).outcome result = (.ok (), result) ∧
        (IsMark entry.flag → ∃ last, (setFlag id entry.flag).outcome result = (.ok (), last) ∧
          readBytes path (FilePath.ofText path) last = .ok content) := by
  obtain ⟨exchange⟩ := Page.exchange known paged sound parts
  have member : .transaction entry ∈ page.directives := by
    rw [parts]
    simp
  have found := Page.find_start paged sound member
  have foundAfter := exchange.find
  rw [start] at found foundAfter
  have located := locate_of_find held paged sound found
  have outcome : (setFlag id flag).outcome disk = if entry.flag = flag then (.ok (), disk)
      else (writeWhole (FilePath.ofText path) exchange.marked).outcome disk := by
    split
    · next same => exact setFlag_of_same known.checkWord named located same
    · next other =>
      exact setFlag_of_other known.checkWord named located other exchange.replace
  have writes := exchange.writes held outcome
  refine ⟨exchange.front, exchange.back, exchange.changed, exchange.move, exchange.whole,
    exchange.span, outcome, writes, exchange.paged, exchange.sound, rfl, exchange.directives,
    exchange.messages, foundAfter, fun single other listed => ?_, fun result done => ?_⟩
  · have width : (Text.Utf8.encode flag).length = 1 := by rcases known with rfl | rfl <;> rfl
    refine Page.find_start exchange.paged exchange.sound ?_
    rw [exchange.directives_of_single (single.trans width.symm)]
    rcases List.mem_append.mp listed with early | late
    · exact List.mem_append_left _ early
    · exact List.mem_append_right _ (List.mem_cons_of_mem _ late)
  · have reads := writes.reads result path done
    have located := locate_of_find reads exchange.paged exchange.sound foundAfter
    refine ⟨setFlag_of_same known.checkWord named located rfl, fun alsoKnown => ?_⟩
    by_cases same : exchange.flagged.flag = entry.flag
    · rw [exchange.marked_of_same (Eq.symm same)] at reads
      exact ⟨result, setFlag_of_same alsoKnown.checkWord named located same, reads⟩
    · obtain ⟨last, written⟩ := exchange.writes_again outcome done (Ne.symm same)
      have width : (Text.Utf8.encode entry.flag).length = 1 := by
        rcases alsoKnown with spelled | spelled <;> rw [spelled] <;> rfl
      have back := setFlag_of_other alsoKnown.checkWord named located same
        (exchange.replace_back (by omega))
      exact ⟨last, back.trans written, readBytes_eq_ok_iff.mpr (entry_of_writeWhole written)⟩

/-- A file with two transactions, the first of which is not cleared. -/
def Disk.withUncleared : Disk :=
  { current := []
    entries := [(["a.bean"], .file (Text.Utf8.encode
      "; é\n2024-01-05 ! \"é\" ; n\r\n  A:B 1 USD\n2024-01-06 txn"))] }

/-- Whether a page without errors has two transactions, the first of which begins at this byte with
this flag. -/
def Page.isFlagged (page : Page) (start : Int) (flag : Text) : Bool :=
  match page.errors, page.directives with
  | [], [.transaction entry, .transaction _] =>
    entry.dateSpan.start == start && entry.flag == flag
  | _, _ => false

/-- The first transaction is cleared, which the file shows, then it is cleared again, and then that
is taken back. -/
theorem setFlag_cleared : ∃ content cleared last,
    readBytes "a.bean" (FilePath.ofText "a.bean") Disk.withUncleared = .ok content ∧
    (setFlag "a.bean:5" "*").outcome Disk.withUncleared = (.ok (), cleared) ∧
    readBytes "a.bean" (FilePath.ofText "a.bean") cleared = .ok (Text.Utf8.encode
      "; é\n2024-01-05 * \"é\" ; n\r\n  A:B 1 USD\n2024-01-06 txn") ∧
    (setFlag "a.bean:5" "*").outcome cleared = (.ok (), cleared) ∧
    (setFlag "a.bean:5" "!").outcome cleared = (.ok (), last) ∧
    readBytes "a.bean" (FilePath.ofText "a.bean") last = .ok content := by
  have named : Identifier.decode "a.bean:5" = .ok ⟨"a.bean", 5⟩ := by decide +kernel
  have shape : (readBytes "a.bean" (FilePath.ofText "a.bean") Disk.withUncleared >>=
      Page.ofBytes (FilePath.ofText "a.bean")).toOption.any (Page.isFlagged · 5 "!") = true := by
    decide +kernel
  have told : readBytes "a.bean" (FilePath.ofText "a.bean")
      ((setFlag "a.bean:5" "*").outcome Disk.withUncleared).2 = .ok
        (Text.Utf8.encode "; é\n2024-01-05 * \"é\" ; n\r\n  A:B 1 USD\n2024-01-06 txn") := by
    decide +kernel
  have writable : Disk.withUncleared.Writable (FilePath.ofText "a.bean") ["a.bean"]
      [".a.bean.<uuid>.tmp"] :=
    ⟨by decide, by decide, rfl, rfl, by decide, by decide⟩
  obtain ⟨page, both, shape⟩ := exists_of_any shape
  obtain ⟨content, held, paged⟩ := bind_eq_ok_iff.mp both
  unfold Page.isFlagged at shape
  split at shape
  · next entry other sound parts =>
    obtain ⟨start, flag⟩ := Bool.and_eq_true _ _ ▸ shape
    have start : entry.dateSpan.start = (5 : Nat) := beq_iff_eq.mp start
    have flag : entry.flag = "!" := beq_iff_eq.mp flag
    obtain ⟨front, back, _, _, _, _, _, writes, _, _, _, _, _, _, _, twice⟩ :=
      setFlag_exact (Or.inl rfl) named held paged sound
        (show page.directives = [] ++ .transaction entry :: [.transaction other] from parts) start
    obtain ⟨cleared, marked, _⟩ := writes.succeeds _ _ writable
    have marked : (setFlag "a.bean:5" "*").outcome Disk.withUncleared = (.ok (), cleared) := marked
    rw [marked] at told
    obtain ⟨again, restored⟩ := twice cleared marked
    obtain ⟨last, done, reads⟩ := restored (Or.inr flag)
    rw [flag] at done
    exact ⟨content, cleared, last, held, marked, told, again, done, reads⟩
  · cases shape

end Daybook
