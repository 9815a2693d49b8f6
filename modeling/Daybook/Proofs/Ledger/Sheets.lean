import Daybook.Listing
import Daybook.Proofs.Entry.Plain
import Daybook.Proofs.Page.Spans

/-!
# Sheets of transactions

A file that transactions are only ever appended to and taken out of is a sheet: every transaction
stands behind a blank line, and the blank line stays when the transaction has been taken out. What
such a file says, where each of its transactions starts, and what is left when one of them is cut
out or marked with another flag is known from the transactions alone.
-/
namespace Daybook

open Statement

/-! ## Parts of a text -/

section Parts

variable {path text front old after : Text}

/-- The span of a part of a text parts its bytes as the part parts the text. -/
theorem Source.span_parts (path : Text) (whole : text = front ++ (old ++ after)) {span : Span}
    (same : span = (Source.ofText path text).span front.length (front.length + old.length)) :
    span.Within (Text.Utf8.encode text).length ∧
      (Text.Utf8.encode text).take span.start.toNat = Text.Utf8.encode front ∧
      (Text.Utf8.encode text).drop span.stop.toNat = Text.Utf8.encode after := by
  have inside : front.length + old.length ≤ text.length := by
    simp only [whole, List.length_append]
    omega
  have behind : text = (front ++ old) ++ after := by rw [whole, List.append_assoc]
  have stop := Source.byte_append path behind
  rw [List.length_append] at stop
  subst same
  refine ⟨Source.within_span path (Nat.le_add_right _ _) inside, ?_, ?_⟩
  · rw [Source.span, Int.toNat_natCast, Source.byte_append path whole, whole,
      Text.Utf8.encode_append, List.take_left]
  · rw [Source.span, Int.toNat_natCast, stop, behind, Text.Utf8.encode_append _ after,
      List.drop_left]

/-- A row is cut out together with its line feed. -/
theorem Source.cutLines_row (path : Text) (whole : text = front ++ (old ++ '\n' :: after)) :
    ((Source.ofText path text).span front.length (front.length + old.length)).cutLines
      (Text.Utf8.encode text) = .ok (Text.Utf8.encode (front ++ after)) := by
  obtain ⟨within, before, behind⟩ := Source.span_parts path whole rfl
  rw [Span.cutLines, if_pos within, before, behind, Text.Utf8.afterLine_encode,
    ← Text.Utf8.encode_append]
  rfl

/-- A word is replaced by another one. -/
theorem Source.replace_word (path : Text) (whole : text = front ++ (old ++ after)) (new : Text) :
    ((Source.ofText path text).span front.length (front.length + old.length)).replace
      (Text.Utf8.encode text) (Text.Utf8.encode new) =
        .ok (Text.Utf8.encode (front ++ (new ++ after))) := by
  obtain ⟨within, before, behind⟩ := Source.span_parts path whole rfl
  rw [Span.replace, if_pos within, before, behind, ← List.append_assoc, Text.Utf8.encode_append,
    Text.Utf8.encode_append]

end Parts

/-- What a passage that is a whole text says is shown by the text. -/
theorem Passage.shown {path text : Text} {directives : List Directive}
    (passage : Passage path text 0 text directives) :
    ∀ directive ∈ directives, directive.Shown (Text.Utf8.encode text) := by
  obtain ⟨lines, _, reads, collects⟩ := passage
  have reading := (reads [] [] (.textEnd rfl)).fromStart
  rw [List.append_nil, List.append_nil] at reading
  intro directive member
  obtain ⟨_, _, _, _, stands⟩ := (reading.arrayed (collects [])).each directive member
  exact stands.shown

/-! ## Slips -/

/-- A transaction that has been written, and its date. -/
structure Slip where
  transaction : Transaction
  date : Date

namespace Slip

/-- The rows of a slip. -/
def rows (slip : Slip) : Text :=
  slip.transaction.rows slip.date

/-- The slip with another flag. -/
def marked (slip : Slip) (flag : Text) : Slip :=
  { slip with transaction := { slip.transaction with flag } }

/-- The rows of a slip end with a line feed. -/
theorem rows_eq (slip : Slip) : ∃ line, slip.rows = line ++ ['\n'] := by
  cases last : slip.transaction.postings using List.reverseRecOn with
  | nil => exact ⟨slip.transaction.row slip.date, by simp [rows, Transaction.rows, last]⟩
  | append_singleton postings posting =>
    refine ⟨slip.transaction.row slip.date ++ '\n' ::
      ((postings.flatMap fun posting => posting.row ++ ['\n']) ++ posting.row), ?_⟩
    simp [rows, Transaction.rows, last]

/-- The record of a slip as it is listed, but for the id. -/
def record (slip : Slip) : Transaction where
  date := slip.date.iso
  flag := slip.transaction.flag
  payee := slip.transaction.payee
  narration := some (slip.transaction.narration.getD [])
  tags := slip.transaction.tags
  postings := slip.transaction.postings.map fun posting =>
    { account := posting.account, amount := posting.amount, currency := posting.currency }

/-- The entry of a slip whose rows begin at a position. -/
def entry (slip : Slip) (source : Source) (position : Nat) : TransactionEntry :=
  slip.transaction.entry source slip.date position

end Slip

/-! ## Sheets -/

/-- The slips of a file. Nothing stands where a slip has been taken out. -/
abbrev Sheet := List (Option Slip)

namespace Sheet

/-- A blank line, and behind it the rows of a slip. -/
def slotText : Option Slip → Text
  | none => ['\n']
  | some slip => '\n' :: slip.rows

/-- The text of a sheet. -/
def text (sheet : Sheet) : Text :=
  sheet.flatMap slotText

/-- What a slip says whose blank line is at a position. -/
def slotted (source : Source) (position : Nat) (slot : Option Slip) : Option TransactionEntry :=
  slot.map fun slip => slip.entry source (position + 1)

/-- The entries of a sheet that begins at a position. -/
def entries (source : Source) : Nat → Sheet → List TransactionEntry
  | _, [] => []
  | position, slot :: sheet => (slotted source position slot).toList ++
      entries source (position + (slotText slot).length) sheet

/-- All transactions of a sheet are plain. -/
def Plain (sheet : Sheet) : Prop :=
  ∀ slip, some slip ∈ sheet → slip.transaction.Plain

variable {sheet before after : Sheet} {slip : Slip} {source : Source} {path : Text}

/-- A sheet without slots has no text. -/
@[simp] theorem text_nil : text [] = [] := rfl

/-- The text of a sheet goes slot by slot. A slot whose slip has been taken out still has the blank
line that stood in front of the slip. -/
@[simp] theorem text_cons (slot : Option Slip) (sheet : Sheet) :
    text (slot :: sheet) = slotText slot ++ text sheet := rfl

/-- A sheet may be divided at any slot, and its text is divided at the same place. -/
@[simp] theorem text_append (before after : Sheet) :
    text (before ++ after) = text before ++ text after :=
  List.flatMap_append

/-- A sheet is a passage of every text that it stands in. A sheet is a text of slots, and every slot
is a passage of its own. -/
theorem Plain.passage (plain : sheet.Plain) {path whole rest : Text} {position : Nat}
    (stands : whole.drop position = text sheet ++ rest) :
    Passage path whole position (text sheet)
      ((entries (Source.ofText path whole) position sheet).map Directive.transaction) := by
  let meaning (start : Nat) (slot : Option Slip) : List Directive :=
    ((slotted (Source.ofText path whole) start slot).map Directive.transaction).toList
  have same (position : Nat) (sheet : Sheet) : sayings slotText meaning position sheet =
      (entries (Source.ofText path whole) position sheet).map Directive.transaction := by
    induction sheet generalizing position with
    | nil => rfl
    | cons slot sheet ih =>
      rw [sayings, ih, entries, List.map_append]
      cases slot <;> rfl
  rw [← same]
  refine Passage.items (fun slot member position rest stands => ?_) stands
  cases slot with
  | none => exact .emptyLine path whole position
  | some slip =>
    have behind : whole.drop (position + 1) = slip.rows ++ rest := by
      rw [← List.drop_drop, stands]
      rfl
    exact (Passage.emptyLine path whole position).append ((plain slip member).legible.passage behind)

/-- The page of a sheet: its entries, without errors and warnings. -/
def page (sheet : Sheet) (path : Text) : Page where
  path := path
  directives := (entries (Source.ofText path sheet.text) 0 sheet).map .transaction
  errors := []
  warnings := []

/-- A sheet is read without errors and warnings, and says its entries. -/
theorem Plain.read (plain : sheet.Plain) (path : FilePath) :
    Page.read path (Text.Utf8.encode sheet.text) = .ok (page sheet path.toText) := by
  have stands : sheet.text.drop 0 = sheet.text ++ [] := (List.append_nil _).symm
  have passage : Passage path.toText sheet.text 0 sheet.text _ := Plain.passage plain stands
  exact Page.read_eq_ok_iff.mpr ⟨(Page.ofBytes_encode _ _).trans (Page.ofText_passage passage), rfl⟩

/-! ### Entries -/

/-- The entries behind a division are those of the back part, read from the position where the text
of the front part ends. -/
theorem entries_append (source : Source) (position : Nat) (before after : Sheet) :
    entries source position (before ++ after) =
      entries source position before ++ entries source (position + (text before).length) after := by
  induction before generalizing position with
  | nil => rfl
  | cons slot before ih =>
    have size : position + (slotText slot).length + (text before).length =
        position + (text (slot :: before)).length := by
      rw [text_cons, List.length_append, Nat.add_assoc]
    rw [List.cons_append, entries, ih, entries, List.append_assoc, size]

/-- Every entry of a sheet is that of a slip behind other slots. -/
theorem exists_of_mem_entries {position : Nat} {entry : TransactionEntry}
    (member : entry ∈ entries source position sheet) :
    ∃ before slip after, sheet = before ++ some slip :: after ∧
      entry = slip.entry source (position + (text before).length + 1) := by
  induction sheet generalizing position with
  | nil => cases member
  | cons slot sheet ih =>
    rw [entries, List.mem_append, Option.mem_toList] at member
    rcases member with here | later
    · obtain ⟨slip, rfl, rfl⟩ := Option.map_eq_some_iff.mp here
      exact ⟨[], slip, sheet, rfl, rfl⟩
    · obtain ⟨before, slip, after, rfl, rfl⟩ := ih later
      refine ⟨slot :: before, slip, after, rfl, ?_⟩
      have size : position + (slotText slot).length + (text before).length =
          position + (text (slot :: before)).length := by
        rw [text_cons, List.length_append, Nat.add_assoc]
      rw [← size]

/-- The offset of a slip that stands behind other slots. -/
def offset (before : Sheet) : Nat :=
  (Text.Utf8.encode (text before ++ ['\n'])).length

/-- The entry of a slip starts at its offset. -/
theorem start_entry (path : Text) {whole rest : Text}
    (parts : whole = text before ++ '\n' :: rest) (slip : Slip) :
    (slip.entry (Source.ofText path whole) ((text before).length + 1)).dateSpan.start =
      offset before := by
  have parts : whole = (text before ++ ['\n']) ++ rest := by
    rw [parts, List.append_assoc, List.singleton_append]
  have byte := Source.byte_append path parts
  rw [List.length_append, List.length_singleton] at byte
  exact congrArg Nat.cast byte

/-- A slip starts behind all entries before it. The entry is that of a slip further up, whose rows
lie between the two offsets. -/
theorem start_lt {entry : TransactionEntry} (path : Text) {whole rest : Text}
    (parts : whole = text before ++ '\n' :: rest)
    (member : entry ∈ entries (Source.ofText path whole) 0 before) :
    entry.dateSpan.start < offset before := by
  obtain ⟨front, slip, after, rfl, rfl⟩ := exists_of_mem_entries member
  have parts : whole = text front ++ '\n' :: (slip.rows ++ (text after ++ '\n' :: rest)) := by
    rw [parts, text_append, text_cons, slotText]
    simp
  obtain ⟨line, ended⟩ := slip.rows_eq
  have feed : (Text.Utf8.encode ['\n']).length = 1 := rfl
  have longer : offset (front ++ some slip :: after) = offset front +
      (Text.Utf8.encode slip.rows).length + (Text.Utf8.encode (text after)).length + 1 := by
    have whole : text (front ++ some slip :: after) ++ ['\n'] =
        (text front ++ ['\n']) ++ slip.rows ++ text after ++ ['\n'] := by
      rw [text_append, text_cons, slotText]
      simp
    rw [offset, whole]
    simp only [Text.Utf8.encode_append, List.length_append, feed, offset]
  rw [Nat.zero_add, start_entry path parts, longer, ended]
  simp only [Text.Utf8.encode_append, List.length_append, feed]
  omega

/-- The entries of a sheet in which a slip stands: those before it, its own, and those behind. -/
theorem entries_around (path : Text) (split : sheet = before ++ some slip :: after) :
    ∃ behind, entries (Source.ofText path (text sheet)) 0 sheet =
      entries (Source.ofText path (text sheet)) 0 before ++
        slip.entry (Source.ofText path (text sheet)) ((text before).length + 1) :: behind := by
  rw [split, entries_append, Nat.zero_add, entries]
  exact ⟨_, rfl⟩

/-- Every slip that is still there has one entry. -/
theorem length_entries (source : Source) (position : Nat) (sheet : Sheet) :
    (entries source position sheet).length = sheet.reduceOption.length := by
  induction sheet generalizing position with
  | nil => rfl
  | cons slot sheet ih =>
    cases slot with
    | none => exact ih _
    | some slip => exact congrArg (· + 1) (ih _)

/-- The entry that starts at an offset is that of a slip, and its number is the number of slips
before it. -/
theorem findIdx?_entries_iff (path : Text) (sheet : Sheet) {start index : Nat} :
    ((entries (Source.ofText path (text sheet)) 0 sheet).findIdx? fun entry : TransactionEntry =>
        decide (entry.dateSpan.start = start)) = some index ↔
      ∃ before slip after, sheet = before ++ some slip :: after ∧ start = offset before ∧
        index = before.reduceOption.length := by
  -- The entry of a slip is the first one that starts where it starts.
  have found {before after : Sheet} {slip : Slip} (split : sheet = before ++ some slip :: after) :
      ((entries (Source.ofText path (text sheet)) 0 sheet).findIdx? fun entry : TransactionEntry =>
        decide (entry.dateSpan.start = offset before)) = some before.reduceOption.length := by
    have parts : text sheet = text before ++ '\n' :: (slip.rows ++ text after) := by
      rw [split, text_append, text_cons, slotText, List.cons_append]
    obtain ⟨behind, around⟩ := entries_around path split
    rw [around, List.findIdx?_append, List.findIdx?_eq_none_iff.mpr, List.findIdx?_cons,
      start_entry path parts, length_entries]
    · simp
    · intro entry member
      have lower := start_lt path parts member
      simp only [decide_eq_false_iff_not]
      omega
  constructor
  · intro known
    obtain ⟨entry, member, same⟩ : ∃ entry ∈ entries (Source.ofText path (text sheet)) 0 sheet,
        entry.dateSpan.start = start := by
      obtain ⟨inside, same, _⟩ := List.findIdx?_eq_some_iff_getElem.mp known
      exact ⟨_, List.getElem_mem inside, of_decide_eq_true same⟩
    obtain ⟨before, slip, after, split, rfl⟩ := exists_of_mem_entries member
    have parts : text sheet = text before ++ '\n' :: (slip.rows ++ text after) := by
      rw [split, text_append, text_cons, slotText, List.cons_append]
    rw [Nat.zero_add, start_entry path parts] at same
    obtain rfl : offset before = start := Int.ofNat.inj same
    exact ⟨before, slip, after, split, rfl,
      (Option.some.inj ((found split).symm.trans known)).symm⟩
  · rintro ⟨before, slip, after, split, rfl, rfl⟩
    exact found split

/-- The transactions of the page that is read from a sheet are the entries of the sheet, at the
positions where their texts stand. This carries every statement about pages over to sheets. -/
theorem transactions_page (sheet : Sheet) (path : Text) :
    (page sheet path).transactions = entries (Source.ofText path (text sheet)) 0 sheet := by
  rw [Page.transactions, page, List.filterMap_map]
  exact List.filterMap_some

/-- The slip at an offset is found. -/
theorem find_page (path : Text) (split : sheet = before ++ some slip :: after) :
    (page sheet path).find (offset before) =
      .ok (slip.entry (Source.ofText path (text sheet)) ((text before).length + 1)) := by
  have parts : text sheet = text before ++ '\n' :: (slip.rows ++ text after) := by
    rw [split, text_append, text_cons, slotText, List.cons_append]
  obtain ⟨behind, around⟩ := entries_around path split
  have first : ((page sheet path).transactions.find? fun entry : TransactionEntry =>
      decide (entry.dateSpan.start = offset before)) =
        some (slip.entry (Source.ofText path (text sheet)) ((text before).length + 1)) := by
    rw [transactions_page, around, List.find?_append, List.find?_eq_none.mpr, List.find?_cons,
      start_entry path parts]
    · simp
    · intro entry member
      have lower := start_lt path parts member
      simp only [decide_eq_true_eq]
      omega
  simp only [Page.find, first]

/-- Where no slip has an offset nothing is found. -/
theorem find_page_eq_error (path : Text) {start : Nat}
    (none : ((page sheet path).transactions.findIdx? fun entry : TransactionEntry =>
      decide (entry.dateSpan.start = start)) = none) :
    (page sheet path).find start = .error (.noTransaction path start) := by
  have nowhere : ((page sheet path).transactions.find? fun entry : TransactionEntry =>
      decide (entry.dateSpan.start = start)) = Option.none := by
    rw [List.find?_eq_none]
    intro entry member
    simpa using List.findIdx?_eq_none_iff.mp none entry member
  simp only [Page.find, nowhere]
  rfl

/-- A slip that is cut out leaves its blank line. The extent of the entry ends before the line feed
of its last row, which is cut out with it; the blank line before it stays. -/
theorem Plain.cutLines (plain : sheet.Plain) (path : Text)
    (split : sheet = before ++ some slip :: after) :
    (slip.entry (Source.ofText path (text sheet)) ((text before).length + 1)).extent.cutLines
        (Text.Utf8.encode (text sheet)) =
      .ok (Text.Utf8.encode (text (before ++ none :: after))) := by
  have stands : sheet.text.drop 0 = sheet.text ++ [] := (List.append_nil _).symm
  have passage : Passage path sheet.text 0 sheet.text _ := Plain.passage plain stands
  obtain ⟨behind, around⟩ := entries_around path split
  have inside : slip.entry (Source.ofText path (text sheet)) ((text before).length + 1) ∈
      entries (Source.ofText path (text sheet)) 0 sheet := by
    rw [around]
    simp
  have shown : (slip.entry (Source.ofText path (text sheet)) ((text before).length + 1)).Shown
      (Text.Utf8.encode (text sheet)) := passage.shown _ (List.mem_map_of_mem inside)
  obtain ⟨line, ended⟩ := slip.rows_eq
  have whole : text sheet = (text before ++ ['\n']) ++ (line ++ '\n' :: text after) := by
    rw [split, text_append, text_cons, slotText, ended]
    simp
  have left : text (before ++ none :: after) = (text before ++ ['\n']) ++ text after := by
    rw [text_append, text_cons, slotText]
    simp
  have size : (text before).length + 1 + slip.rows.length - 1 =
      (text before ++ ['\n']).length + line.length := by
    rw [ended, List.length_append, List.length_append, List.length_singleton]
    omega
  have span : (slip.entry (Source.ofText path (text sheet)) ((text before).length + 1)).span =
      (Source.ofText path (text sheet)).span (text before ++ ['\n']).length
        ((text before ++ ['\n']).length + line.length) := by
    rw [← size, List.length_append, List.length_singleton]
    rfl
  rw [shown.extent, span, Source.cutLines_row path whole, left]

/-- A slip that is marked has another flag. The flag stands behind the date and a space, and its
span has just its bytes. -/
theorem replace_flag (path : Text) (split : sheet = before ++ some slip :: after) (flag : Text) :
    (slip.entry (Source.ofText path (text sheet)) ((text before).length + 1)).flagSpan.replace
        (Text.Utf8.encode (text sheet)) (Text.Utf8.encode flag) =
      .ok (Text.Utf8.encode (text (before ++ some (slip.marked flag) :: after))) := by
  let front := text before ++ '\n' :: (slip.date.iso ++ [' '])
  let behind := slip.transaction.textColumns ++ (tagRow slip.transaction.tags ++ '\n' ::
    ((slip.transaction.postings.flatMap fun posting => posting.row ++ ['\n']) ++ text after))
  have rows (flag : Text) : text (before ++ some (slip.marked flag) :: after) =
      front ++ (flag ++ behind) := by
    simp [text_append, text_cons, slotText, Slip.rows, Slip.marked, Transaction.rows,
      Transaction.row, Transaction.textColumns, front, behind]
  have size : (text before).length + 1 + slip.date.iso.length + 1 = front.length := by
    simp only [front, List.length_append, List.length_cons, List.length_nil]
    omega
  have span : (slip.entry (Source.ofText path (text sheet)) ((text before).length + 1)).flagSpan =
      (Source.ofText path (text sheet)).span front.length
        (front.length + slip.transaction.flag.length) := by
    rw [← size]
    rfl
  have whole : text sheet = front ++ (slip.transaction.flag ++ behind) := by
    rw [split, ← rows]
    rfl
  rw [span, Source.replace_word path whole, rows]

/-! ### Records -/

/-- A posting of what was said, with neither cost nor price. -/
def posted (said : Text × Text × Text) : Posting :=
  { account := said.1, amount := said.2.1, currency := said.2.2 }

/-- The entries of postings have neither cost nor price. -/
theorem toRecord_postingEntries (source : Source) (position : Nat) (postings : List Posting) :
    (postingEntries source position postings).map PostingEntry.toRecord =
      ((postingEntries source position postings).map PostingEntry.said).map posted := by
  induction postings generalizing position with
  | nil => rfl
  | cons posting postings ih =>
    have bare : (posting.line position).hasCost = false ∧
        (posting.line position).hasPrice = false := by
      unfold Posting.line
      split <;> exact ⟨rfl, rfl⟩
    have first : (PostingEntry.ofLine source (posting.line position) none).toRecord =
        posted (PostingEntry.ofLine source (posting.line position) none).said := by
      simp [PostingEntry.toRecord, PostingEntry.said, posted, PostingEntry.ofLine, bare]
    simp only [postingEntries, List.map_cons, first, ih]

/-- The record of an entry is that of its slip, but for the id. -/
theorem record_entry (plain : slip.transaction.Plain) {position : Nat} {rest : Text}
    (stands : source.text.drop position = slip.rows ++ rest) (path : FilePath) :
    { (slip.entry source position).toRecord path with id := none } = slip.record := by
  have told := plain.lexical.says_entry plain.said stands
  have said := congrArg (List.map posted) told.postings
  have postings : (slip.entry source position).postings.map PostingEntry.toRecord =
      slip.record.postings := by
    refine (toRecord_postingEntries source _ slip.transaction.postings).trans (said.trans ?_)
    rw [List.map_map]
    rfl
  have payee : (slip.entry source position).payee = slip.record.payee := told.payee
  have narration : (slip.entry source position).narration = slip.record.narration := told.narration
  simp only [TransactionEntry.toRecord, postings, payee, narration]
  rfl

/-- The records of a page are those of the slips that are still there, but for their ids. The
induction is on the slots that are left, with those before them in the statement, as positions count
from the beginning. -/
theorem Plain.records (plain : sheet.Plain) (path : FilePath) :
    ((page sheet path.toText).transactions.map fun entry =>
        { entry.toRecord path with id := none }) = sheet.reduceOption.map Slip.record := by
  rw [transactions_page]
  suffices every : ∀ (front rest : Sheet), sheet = front ++ rest →
      ((entries (Source.ofText path.toText (text sheet)) (text front).length rest).map fun entry =>
        { entry.toRecord path with id := none }) = rest.reduceOption.map Slip.record from
    every [] sheet rfl
  intro front rest split
  induction rest generalizing front with
  | nil => rfl
  | cons slot rest ih =>
    have behind := ih (front ++ [slot]) (by rw [split, List.append_assoc, List.singleton_append])
    rw [text_append, List.length_append] at behind
    have alone : text [slot] = slotText slot := List.append_nil _
    rw [alone] at behind
    rw [entries, List.map_append, behind]
    cases slot with
    | none => rfl
    | some slip =>
      have stands : (Source.ofText path.toText (text sheet)).text.drop ((text front).length + 1) =
          slip.rows ++ text rest := by
        rw [Source.ofText, split, text_append, text_cons, ← List.drop_drop, List.drop_left]
        rfl
      have own := record_entry (plain slip (by simp [split])) stands path
      simp only [slotted, Option.map_some, Option.toList_some, List.map_cons, List.map_nil, own]
      rfl

end Sheet

end Daybook
