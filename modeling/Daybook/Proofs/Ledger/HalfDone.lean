import Daybook.Proofs.Disk.Tracking
import Daybook.Proofs.Editing.AccountAddition
import Daybook.Proofs.Entry.AccountRows
import Daybook.Proofs.Entry.Rendering

/-!
# What a failed operation leaves

An operation writes at most twice: its own file, and then the line of that file in the root file.
Everything that can fail before the first write leaves the disk as it was, and so does a write that
fails. What is left is one half-done state, in which an addition stands in its file and the root
file could not be brought to include it. An operation that only cuts, marks or reads has no such
state.

Whether the root file is what it was in the half-done state depends on where its path leads, for its
name and that of the other file are only compared as texts.
-/
namespace Daybook

open Disk Command Storing

/-! ## Operations that fail without a trace -/

/-- An order that adds nothing: it cuts, marks or reads. -/
def Command.Order.Quiet : Order → Prop
  | .deleteTransaction _ => True
  | .clearTransaction _ => True
  | .unclearTransaction _ => True
  | .deleteAccount _ => True
  | .listTransactions _ => True
  | .listAccounts _ => True
  | .verify _ => True
  | _ => False

section Quiet

variable {disk after : Disk} {failure : Failure}

/-- A reading operation whose value is dropped leaves the disk as it is. -/
theorem look_unchanged {α : Type} {looking : Looking α} {result : Except Failure Unit}
    (ran : (do let _ ← Storing.look looking : Storing Unit).outcome disk = (result, after)) :
    after = disk := by
  have kept : Keeps (· = disk) (do let _ ← Storing.look looking : Storing Unit) :=
    (keeps_look _).bind fun _ => keeps_pure _
  have same := kept disk rfl
  rw [ran] at same
  exact same

/-- What follows a reading operation fails without a trace if it does so on the same disk. -/
theorem look_bind_failed {α β : Type} {looking : Looking α} {second : α → Storing β}
    (late : ∀ value, (second value).outcome disk = (.error failure, after) → after = disk)
    (failed : (Storing.look looking >>= second).outcome disk = (.error failure, after)) :
    after = disk := by
  rcases look_bind_eq_error_iff.mp failed with ⟨_, same⟩ | ⟨value, _, rest⟩
  · exact same
  · exact late value rest

/-- Replacing a flag fails without a trace. -/
theorem setFlag_failed (fresh : disk.Fresh) {id flag : Text}
    (failed : (setFlag id flag).outcome disk = (.error failure, after)) : after = disk := by
  refine look_bind_failed (fun _ failed => ?_) failed
  refine look_bind_failed (fun decoded failed => ?_) failed
  refine look_bind_failed (fun found failed => ?_) failed
  obtain ⟨content, entry⟩ := found
  dsimp only at failed
  split at failed
  · cases failed
  · refine look_bind_failed (fun changed failed => ?_) failed
    rcases (Trail.start _).write fresh changed failed with ⟨_, _, same⟩ | ⟨impossible, _⟩
    · exact same
    · cases impossible

/-- A quiet operation fails without a trace. Most of them only look at the disk; the others write
once, and a writing that fails puts everything back. -/
theorem Command.Order.Quiet.failed {ledger : Ledger} {order : Order} (quiet : order.Quiet)
    (fresh : disk.Fresh) (failed : (order.run ledger).outcome disk = (.error failure, after)) :
    after = disk := by
  cases order with
  | listTransactions json => exact look_unchanged failed
  | listAccounts json => exact look_unchanged failed
  | verify json => exact look_unchanged failed
  | deleteTransaction id =>
    exact look_bind_failed (fun _ failed => deleteTransaction_failed fresh failed) failed
  | clearTransaction id =>
    exact look_bind_failed (fun _ failed => setFlag_failed fresh failed) failed
  | unclearTransaction id =>
    exact look_bind_failed (fun _ failed => setFlag_failed fresh failed) failed
  | deleteAccount name =>
    rcases deleteAccount_trail fresh failed with ⟨_, _, same⟩ | ⟨impossible, _⟩
    · exact same
    · cases impossible
  | addTransaction transaction => exact quiet.elim
  | updateTransaction id transaction => exact quiet.elim
  | addAccount account => exact quiet.elim
  | updateAccount name account => exact quiet.elim
  | closeAccount name date => exact quiet.elim

end Quiet

/-! ## Half-done additions -/

/-- A line feed where there is something that does not end in one. -/
def gapAfter (content : Bytes) : Bytes :=
  if content ≠ [] ∧ content.getLast? ≠ some 0x0A then [0x0A] else []

/-- The gap between old content and a new entry, as a function of the last byte of the content: none
in an empty file or behind a line feed, and one line feed otherwise. -/
theorem gapAfter_eq (content : Bytes) : gapAfter content =
    match content.getLast? with
    | none => []
    | some b => if b = 0x0A then [] else [0x0A] := by
  unfold gapAfter
  cases last : content.getLast? with
  | none => simp [List.getLast?_eq_none_iff.mp last]
  | some b =>
    have something : content ≠ [] := by
      rintro rfl
      cases last
    by_cases feed : b = 0x0A <;> simp [feed, something]

/-- The text of an account is not empty. -/
theorem Account.text_ne_nil {account : Account} {text : Text}
    (written : account.toText = .ok text) : text ≠ [] := by
  obtain ⟨_, _, opened, closed, _, _, rfl⟩ := Account.toText_eq_ok_iff.mp written
  simp [Account.declarations, Declaration.text]

/-- An addition is half done: it stands behind the content of its file, nothing else has changed,
and the root file could not be brought to include the file. The root file is what it was exactly if
its path leads elsewhere, and no temporary file is left. -/
structure Ledger.HalfDone (ledger : Ledger) (before after : Disk) (failure : Failure)
    (fileName : Text) (addition : Bytes → Bytes) (place : Location) (content : Bytes) : Prop where
  leads : before.place (ledger.directory.child fileName) = .ok place
  read : readIfPresent (ledger.directory.child fileName) before = .ok content
  filed : Filed before after place (content ++ addition content)
  refused : (ensureIncluded ledger.rootPath fileName).outcome after = (.error failure, after)
  root : (∀ root, before.place ledger.rootPath = .ok root →
    after.entry? root = before.entry? root) ↔ before.place ledger.rootPath ≠ .ok place
  clear : ∀ beside, isTemporary beside = true → beside ≠ place → after.entry? beside = none

namespace Ledger

variable {ledger : Ledger} {disk after : Disk} {failure : Failure} {fileName : Text}

/-- Where a file has grown it is not what it was. -/
theorem entry_ne_of_grown {place : Location} {content more : Bytes} (something : more ≠ [])
    (leads : disk.place (ledger.directory.child fileName) = .ok place)
    (read : readIfPresent (ledger.directory.child fileName) disk = .ok content)
    (filed : Filed disk after place (content ++ more)) :
    after.entry? place ≠ disk.entry? place := by
  rw [filed.entry, if_pos rfl]
  rcases readIfPresent_eq_ok_iff.mp read with ⟨other, led, held⟩ | ⟨absent, rfl⟩
  · rw [leads] at led
    cases led
    rw [held]
    simpa using something
  · rw [entry_of_isPresent_false absent place leads]
    simp

/-- An addition and the inclusion of its file fail without a trace or half done. Either the
appending fails, without a trace, or the inclusion does, and then the file that was appended to is
all that has changed. -/
theorem halfDone_of_append (fresh : disk.Fresh) {addition : Bytes → Bytes} {more : Bytes}
    {β : Type} {value : β} (something : more ≠ [])
    (whole : ∀ content, readIfPresent (ledger.directory.child fileName) disk = .ok content →
      more = addition content)
    (failed : (do
      appendBytes (ledger.directory.child fileName) more
      let _ ← ensureIncluded ledger.rootPath fileName
      return value : Storing β).outcome disk = (.error failure, after)) :
    after = disk ∨ ∃ place content,
      ledger.HalfDone disk after failure fileName addition place content := by
  rcases outcome_bind_eq_error_iff.mp failed with early | ⟨⟨⟩, between, appended, including⟩
  · rcases (Trail.start _).append fresh _ early with ⟨_, _, same⟩ | ⟨impossible, _⟩
    · exact Or.inl same
    · cases impossible
  · obtain ⟨content, place, beside, read, writable, filed⟩ := appendBytes_filed fresh appended
    rcases (Trail.start _).append fresh _ appended with ⟨_, impossible, _⟩ | ⟨_, trail⟩
    · cases impossible
    rcases outcome_bind_eq_error_iff.mp including with early | ⟨_, _, _, impossible⟩
    · obtain rfl := ensureIncluded_failed fresh trail early
      have grown := entry_ne_of_grown something writable.leads read filed
      rw [whole content read] at filed
      refine Or.inr ⟨place, content, writable.leads, read, filed, early, ?_, ?_⟩
      · constructor
        · intro unchanged leads
          exact grown (unchanged place leads)
        · intro elsewhere root leads
          have apart : root ≠ place := by
            rintro rfl
            exact elsewhere leads
          rw [filed.entry, if_neg apart]
      · intro beside temporary apart
        rw [filed.entry, if_neg apart, fresh beside temporary]
    · cases impossible

/-- Appending to the accounts file fails without a trace or half done. -/
theorem halfDone_of_appendToAccounts (fresh : disk.Fresh) {content : Bytes} {page : Page}
    {text : Text} (something : text ≠ [])
    (read : readAccounts ledger.accountsPath disk = .ok (content, page))
    (failed : (appendToAccounts ledger.directory ledger.layout content text).outcome disk =
      (.error failure, after)) :
    after = disk ∨ ∃ place content, ledger.HalfDone disk after failure ledger.layout.accountsFile
      (fun content => gapAfter content ++ Text.Utf8.encode text) place content := by
  obtain ⟨present, _⟩ := readAccounts_eq_ok_iff.mp read
  have same : ∀ found, readIfPresent ledger.accountsPath disk = .ok found →
      gapAfter content ++ Text.Utf8.encode text = gapAfter found ++ Text.Utf8.encode text := by
    intro found again
    rw [present] at again
    cases again
    rfl
  have nonempty : gapAfter content ++ Text.Utf8.encode text ≠ [] := by
    rw [ne_eq, List.append_eq_nil_iff, Text.Utf8.encode_eq_nil_iff]
    exact fun none => something none.2
  rw [gapAfter_eq content] at same nonempty
  exact halfDone_of_append fresh nonempty same failed

/-- Opening an account fails without a trace or half done. -/
theorem addAccount_halfDone (fresh : disk.Fresh) {account : Account}
    (failed : (ledger.addAccount account).outcome disk = (.error failure, after)) :
    after = disk ∨ ∃ text place content, account.toText = .ok text ∧
      ledger.HalfDone disk after failure ledger.layout.accountsFile
        (fun content => gapAfter content ++ Text.Utf8.encode text) place content := by
  rcases known_bind_eq_error_iff.mp failed with ⟨_, same⟩ | ⟨text, written, opening⟩
  · exact Or.inl same
  rcases look_bind_eq_error_iff.mp opening with ⟨_, same⟩ | ⟨⟨content, page⟩, read, checking⟩
  · exact Or.inl same
  dsimp only at checking
  split at checking
  · cases checking
    exact Or.inl rfl
  · rcases halfDone_of_appendToAccounts fresh (Account.text_ne_nil written) read checking with
      same | ⟨place, content, halfDone⟩
    · exact Or.inl same
    · exact Or.inr ⟨text, place, content, written, halfDone⟩

/-- Closing an account fails without a trace or half done. The guards fail without a trace, and what
they let through is an addition with an inclusion. -/
theorem closeAccount_halfDone (fresh : disk.Fresh) {name date : Text}
    (failed : (ledger.closeAccount name date).outcome disk = (.error failure, after)) :
    after = disk ∨ ∃ text place content, closingText name date = .ok text ∧
      ledger.HalfDone disk after failure ledger.layout.accountsFile
        (fun content => gapAfter content ++ Text.Utf8.encode (text ++ ['\n'])) place content := by
  rcases known_bind_eq_error_iff.mp failed with ⟨_, same⟩ | ⟨text, written, closing⟩
  · exact Or.inl same
  rcases look_bind_eq_error_iff.mp closing with ⟨_, same⟩ | ⟨⟨content, page⟩, read, checking⟩
  · exact Or.inl same
  dsimp only at checking
  split at checking
  · cases checking
    exact Or.inl rfl
  · split at checking
    · rcases halfDone_of_appendToAccounts fresh (by simp) read checking with
        same | ⟨place, content, halfDone⟩
      · exact Or.inl same
      · exact Or.inr ⟨text, place, content, written, halfDone⟩
    · cases checking
      exact Or.inl rfl

/-- Adding a transaction fails without a trace or half done. -/
theorem addTransaction_halfDone (fresh : disk.Fresh) {transaction : Transaction}
    (failed : (ledger.addTransaction transaction).outcome disk = (.error failure, after)) :
    after = disk ∨ ∃ entry place content, transaction.render ledger.layout = .ok entry ∧
      ledger.HalfDone disk after failure entry.fileName (fun _ => Text.Utf8.encode entry.text)
        place content := by
  rcases known_bind_eq_error_iff.mp failed with ⟨_, same⟩ | ⟨entry, rendered, appending⟩
  · exact Or.inl same
  have something : Text.Utf8.encode entry.text ≠ [] := by
    obtain ⟨_, _, _, _, text, _⟩ := Transaction.render_eq_ok_iff.mp rendered
    rw [ne_eq, Text.Utf8.encode_eq_nil_iff, text]
    exact List.cons_ne_nil _ _
  rcases halfDone_of_append fresh something (fun _ _ => rfl) appending with
    same | ⟨place, content, halfDone⟩
  · exact Or.inl same
  · exact Or.inr ⟨entry, place, content, rendered, halfDone⟩

end Ledger

/-- What every operation but an update leaves when it fails. One that adds nothing leaves the disk
as it was, and so does setting any flag; an addition leaves it as it was or is half done. The first
kind writes one file at most, and does nothing behind the write that could fail. An addition goes on
to the root file, and if it fails there the first file is not put back. -/
theorem Ledger.failed_leaves (ledger : Ledger) {disk after : Disk} (fresh : disk.Fresh)
    (failure : Failure) :
    (∀ order : Order, order.Quiet →
      (order.run ledger).outcome disk = (.error failure, after) → after = disk) ∧
    (∀ id flag, (setFlag id flag).outcome disk = (.error failure, after) → after = disk) ∧
    (∀ transaction, (ledger.addTransaction transaction).outcome disk = (.error failure, after) →
      after = disk ∨ ∃ entry place content, transaction.render ledger.layout = .ok entry ∧
        ledger.HalfDone disk after failure entry.fileName (fun _ => Text.Utf8.encode entry.text)
          place content) ∧
    (∀ account, (ledger.addAccount account).outcome disk = (.error failure, after) →
      after = disk ∨ ∃ text place content, account.toText = .ok text ∧
        ledger.HalfDone disk after failure ledger.layout.accountsFile
          (fun content => gapAfter content ++ Text.Utf8.encode text) place content) ∧
    (∀ name date, (ledger.closeAccount name date).outcome disk = (.error failure, after) →
      after = disk ∨ ∃ text place content, closingText name date = .ok text ∧
        ledger.HalfDone disk after failure ledger.layout.accountsFile
          (fun content => gapAfter content ++ Text.Utf8.encode (text ++ ['\n']))
            place content) := by
  refine ⟨?_, ?_, ?_, ?_, ?_⟩
  · intro order quiet failed
    exact quiet.failed fresh failed
  · intro id flag failed
    exact setFlag_failed fresh failed
  · intro transaction failed
    exact addTransaction_halfDone fresh failed
  · intro account failed
    exact addAccount_halfDone fresh failed
  · intro name date failed
    exact closeAccount_halfDone fresh failed

/-- Adding a transaction to a directory whose root file is no text is half done, with the root file
as it was. -/
theorem Ledger.coffee_halfDone : Disk.withUndecodableRoot.Fresh ∧ ∃ failure after,
    (Ledger.usual.addTransaction { date := "2024-03-01" }).outcome Disk.withUndecodableRoot =
      (.error failure, after) ∧
    ∃ entry place content, Transaction.render Ledger.usual.layout { date := "2024-03-01" } =
        .ok entry ∧
      Ledger.usual.HalfDone Disk.withUndecodableRoot after failure entry.fileName
        (fun _ => Text.Utf8.encode entry.text) place content ∧
      after.entry? ["data", "main.bean"] =
        Disk.withUndecodableRoot.entry? ["data", "main.bean"] := by
  have fresh : Disk.withUndecodableRoot.Fresh := by decide +kernel
  have fails : ((Ledger.usual.addTransaction { date := "2024-03-01" }).outcome
      Disk.withUndecodableRoot).1.toOption = none := by decide +kernel
  have trace : Disk.entry? ((Ledger.usual.addTransaction { date := "2024-03-01" }).outcome
      Disk.withUndecodableRoot).2 ["data", "2024-03.bean"] ≠ none := by decide +kernel
  have root : Disk.entry? ((Ledger.usual.addTransaction { date := "2024-03-01" }).outcome
      Disk.withUndecodableRoot).2 ["data", "main.bean"] =
        Disk.withUndecodableRoot.entry? ["data", "main.bean"] := by decide +kernel
  rcases ran : (Ledger.usual.addTransaction { date := "2024-03-01" }).outcome
    Disk.withUndecodableRoot with ⟨failure | path, after⟩
  · rw [ran] at trace root
    obtain ⟨_, _, adding, _⟩ := Ledger.usual.failed_leaves fresh failure
    rcases adding _ ran with rfl | ⟨entry, place, content, rendered, halfDone⟩
    · exact absurd rfl trace
    · exact ⟨fresh, failure, after, rfl, entry, place, content, rendered, halfDone, root⟩
  · rw [ran] at fails
    cases fails

/-- A ledger whose transactions belong to its root file, which the layout names in another way. -/
def Ledger.overlapping : Ledger where
  directory := FilePath.ofText "data"
  layout := { rootFile := "./main.bean", periodFile := "main.bean" }

/-- Adding a transaction fails at the root file after it has changed it. -/
theorem Ledger.overlapping_root_changed : Disk.withUndecodableRoot.Fresh ∧
    ((Ledger.overlapping.addTransaction { date := "2024-01-05" }).outcome
      Disk.withUndecodableRoot).1.toOption = none ∧
    Disk.withUndecodableRoot.place Ledger.overlapping.rootPath = .ok ["data", "main.bean"] ∧
    Disk.entry? ((Ledger.overlapping.addTransaction { date := "2024-01-05" }).outcome
      Disk.withUndecodableRoot).2 ["data", "main.bean"] ≠
        Disk.withUndecodableRoot.entry? ["data", "main.bean"] := by
  refine ⟨?_, ?_, ?_, ?_⟩
  · decide +kernel
  · decide +kernel
  · rfl
  · decide +kernel

end Daybook
