import Daybook.Proofs.Disk.Rollback
import Daybook.Proofs.Text.Utf8

/-!
# What a successful write leaves

After a successful write the new content stands at the place of the path, and every other place
holds what it held: of the temporary file there is no trace. So the edits that are made of a few
writes are known by the contents that they leave at a few places.
-/
namespace Daybook

open Disk

/-- The content of the file at a place; nothing where there is no file. -/
def Disk.contentAt (disk : Disk) (place : Location) : Bytes :=
  match disk.entry? place with
  | some (.file content) => content
  | _ => []

/-- `after` is `before` with a file at a place where no folder stands. -/
structure Disk.Filed (before after : Disk) (place : Location) (content : Bytes) : Prop where
  current : after.current = before.current
  free : before.entry? place ≠ some .folder
  entry : ∀ sought, after.entry? sought =
    if sought = place then some (.file content) else before.entry? sought

namespace Disk.Filed

variable {before after : Disk} {place : Location} {content : Bytes}

/-- Only the place of the file has changed. -/
theorem changed (filed : Filed before after place content) :
    ChangedAt before after (· = place) := by
  refine ⟨filed.current, fun sought other => by rw [filed.entry, if_neg other], fun sought => ?_⟩
  rw [filed.entry]
  by_cases here : sought = place
  · subst here
    simp [filed.free]
  · rw [if_neg here]

/-- A file with an ordinary name leaves the disk without temporary files. -/
theorem fresh (filed : Filed before after place content) (fresh : before.Fresh)
    (ordinary : isTemporary place = false) : after.Fresh := by
  intro sought temporary
  have apart : sought ≠ place := by
    rintro rfl
    rw [ordinary] at temporary
    cases temporary
  rw [filed.entry, if_neg apart, fresh sought temporary]

end Disk.Filed

section Writing

variable {before after : Disk} {path : FilePath} {content more : Bytes}

/-- A write that succeeds goes through a path that can be written. -/
theorem writeWhole_replaced (done : (writeWhole path content).outcome before = (.ok (), after)) :
    ∃ place beside, before.Writable path place beside ∧
      Replaced before after place beside content := by
  rcases writeWhole_cases before path content with
    ⟨place, beside, last, writable, written, replaced⟩ | ⟨failure, failed⟩
  · rw [written] at done
    cases done
    exact ⟨place, beside, writable, replaced⟩
  · rw [failed] at done
    cases done

/-- Without temporary files a write that succeeds leaves the file and nothing else. -/
theorem writeWhole_filed (fresh : before.Fresh)
    (done : (writeWhole path content).outcome before = (.ok (), after)) :
    ∃ place beside, before.Writable path place beside ∧
      Disk.Filed before after place content := by
  obtain ⟨place, beside, writable, replaced⟩ := writeWhole_replaced done
  refine ⟨place, beside, writable, replaced.current, writable.file, fun sought => ?_⟩
  rw [replaced.entry]
  by_cases hidden : sought = beside
  · rw [if_pos hidden, hidden, fresh beside (isTemporary_of_place writable.leadsBeside)]
  · rw [if_neg hidden]

/-- What has been written stands where the path leads. -/
theorem entry_of_writeWhole (done : (writeWhole path content).outcome before = (.ok (), after)) :
    ∃ place, after.place path = .ok place ∧ after.entry? place = some (.file content) := by
  obtain ⟨place, beside, writable, replaced⟩ := writeWhole_replaced done
  refine ⟨place, (place_eq_ok_iff (replaced.changed writable) _ _).mpr writable.leads, ?_⟩
  rw [replaced.entry, if_pos rfl]

/-- Where a file has been written it can be written again. -/
theorem writeWhole_again (done : (writeWhole path content).outcome before = (.ok (), after))
    (other : Bytes) : ∃ last, (writeWhole path other).outcome after = (.ok (), last) := by
  obtain ⟨place, beside, writable, replaced⟩ := writeWhole_replaced done
  obtain ⟨last, written, _⟩ := writeWhole_of_writable
    ((writable_iff (replaced.changed writable) _ _ _).mpr writable) other
  exact ⟨last, written⟩

/-- A file is read exactly where a path leads to one. -/
theorem readBytes_eq_ok_iff {label : Text} : readBytes label path before = .ok content ↔
    ∃ place, before.place path = .ok place ∧ before.entry? place = some (.file content) := by
  refine ⟨entry_of_readBytes, ?_⟩
  rintro ⟨place, led, held⟩
  simp [readBytes, Disk.read, blame, Disk.find, led, held, bind, Except.bind, Except.mapError]

/-- What an operation whose only effect is the content of one file comes to. Wherever the file can be
written the operation succeeds, and touches nothing but the place of the file and that of the
temporary file beside it; once it has succeeded the file is read with the content; and a failure
leaves the disk as it was. That a write is called with the content would say none of this. -/
structure Storing.Writes (operation : Storing Unit) (disk : Disk) (path : FilePath)
    (content : Bytes) : Prop where
  succeeds : ∀ place beside, disk.Writable path place beside →
    ∃ after, operation.outcome disk = (.ok (), after) ∧
      ChangedAt disk after fun sought => sought = place ∨ sought = beside
  reads : ∀ after label, operation.outcome disk = (.ok (), after) →
    readBytes label path after = .ok content
  refused : ∀ failure after, operation.outcome disk = (.error failure, after) → after = disk

/-- Writing a file as a whole does that. A path that cannot be written is refused before anything
has changed, since the new content goes to a temporary file first. -/
theorem writeWhole_writes (disk : Disk) (path : FilePath) (content : Bytes) :
    (writeWhole path content).Writes disk path content := by
  constructor
  case succeeds =>
    intro place beside writable
    obtain ⟨after, done, replaced⟩ := writeWhole_of_writable writable content
    exact ⟨after, done, replaced.changed writable⟩
  case reads =>
    intro after label done
    exact readBytes_eq_ok_iff.mpr (entry_of_writeWhole done)
  case refused =>
    intro failure after failed
    rcases writeWhole_cases disk path content with
      ⟨place, beside, last, _, done, _⟩ | ⟨other, unchanged⟩
    · rw [done] at failed
      cases failed
    · rw [unchanged] at failed
      cases failed
      rfl

/-- An operation that comes to the same as another one writes what that one writes. -/
theorem Storing.Writes.of_outcome_eq {operation other : Storing Unit} {disk : Disk}
    (writes : other.Writes disk path content)
    (same : operation.outcome disk = other.outcome disk) :
    operation.Writes disk path content := by
  constructor
  case succeeds => rw [same]; exact writes.succeeds
  case reads => rw [same]; exact writes.reads
  case refused => rw [same]; exact writes.refused

/-- An operation that leaves a file as it is writes the content that the file has. -/
theorem Storing.Writes.of_unchanged {operation : Storing Unit} {disk : Disk} {label : Text}
    (held : readBytes label path disk = .ok content)
    (same : operation.outcome disk = (.ok (), disk)) : operation.Writes disk path content := by
  constructor
  case succeeds => exact fun _ _ _ => ⟨disk, same, ChangedAt.refl disk _⟩
  case reads =>
    intro after label done
    rw [same] at done
    cases done
    exact readBytes_eq_ok_iff.mpr (readBytes_eq_ok_iff.mp held)
  case refused =>
    intro failure after failed
    rw [same] at failed
    cases failed

/-- Where a path leads to an entry something is present. -/
theorem isPresent_of_entry {place : Location} {entry : Entry}
    (led : before.place path = .ok place) (held : before.entry? place = some entry) :
    isPresent path before = .ok true := by
  simp [isPresent, Disk.holds, Disk.holdsEntry, Disk.find, led, held, bind, Except.bind,
    Except.mapError]

/-- What is read where there may be no file: the content of the file, or nothing. -/
theorem readIfPresent_eq_ok_iff : readIfPresent path before = .ok content ↔
    (∃ place, before.place path = .ok place ∧ before.entry? place = some (.file content)) ∨
      (isPresent path before = .ok false ∧ content = []) := by
  constructor
  · intro read
    obtain ⟨present, asked, rest⟩ := bind_eq_ok_iff.mp read
    cases present with
    | true => exact Or.inl (readBytes_eq_ok_iff.mp rest)
    | false =>
      cases rest
      exact Or.inr ⟨asked, rfl⟩
  · rintro (⟨place, led, held⟩ | ⟨absent, rfl⟩)
    · exact bind_eq_ok_iff.mpr ⟨true, isPresent_of_entry led held,
        readBytes_eq_ok_iff.mpr ⟨place, led, held⟩⟩
    · exact bind_eq_ok_iff.mpr ⟨false, absent, rfl⟩

/-- What can be written can be read. -/
theorem readIfPresent_of_writable {place beside : Location}
    (writable : before.Writable path place beside) :
    readIfPresent path before = .ok (before.contentAt place) := by
  unfold Disk.contentAt
  cases held : before.entry? place with
  | none =>
    refine readIfPresent_eq_ok_iff.mpr (Or.inr ⟨?_, rfl⟩)
    simp [isPresent, Disk.holds, Disk.holdsEntry, Disk.find, writable.leads, held, bind,
      Except.bind, Except.mapError]
  | some entry =>
    cases entry with
    | folder => exact absurd held writable.file
    | file content => exact readIfPresent_eq_ok_iff.mpr (Or.inl ⟨place, writable.leads, held⟩)

/-- Bytes are appended to any file that can be written. -/
theorem appendBytes_of_writable {place beside : Location}
    (writable : before.Writable path place beside) (more : Bytes) :
    ∃ after, (appendBytes path more).outcome before = (.ok (), after) ∧
      Replaced before after place beside (before.contentAt place ++ more) := by
  obtain ⟨after, done, replaced⟩ :=
    writeWhole_of_writable writable (before.contentAt place ++ more)
  exact ⟨after,
    Storing.look_bind_eq_ok_iff.mpr ⟨_, readIfPresent_of_writable writable, done⟩, replaced⟩

/-- What has been written is read. -/
theorem readIfPresent_of_writeWhole
    (done : (writeWhole path content).outcome before = (.ok (), after)) :
    readIfPresent path after = .ok content :=
  readIfPresent_eq_ok_iff.mpr (Or.inl (entry_of_writeWhole done))

/-- Appending that succeeds leaves the file with further bytes behind its content. -/
theorem appendBytes_filed (fresh : before.Fresh)
    (done : (appendBytes path more).outcome before = (.ok (), after)) :
    ∃ content place beside, readIfPresent path before = .ok content ∧
      before.Writable path place beside ∧ Disk.Filed before after place (content ++ more) := by
  obtain ⟨content, read, written⟩ := Storing.look_bind_eq_ok_iff.mp done
  obtain ⟨place, beside, writable, filed⟩ := writeWhole_filed fresh written
  exact ⟨content, place, beside, read, writable, filed⟩

/-- The root file lists a file on one of its lines. -/
def Lists (text fileName : Text) : Bool :=
  (Text.lines text).any fun line => Text.trim line = inclusionLine fileName

/-- Behind a text that does not end with a line feed a line is begun with one. -/
theorem lineBreakAfter_cases (text : Text) :
    (lineBreakAfter text = [] ∧ (text.getLast? = some '\n' ∨ text = [])) ∨
      lineBreakAfter text = ['\n'] := by
  unfold lineBreakAfter
  split
  · next none => exact Or.inl ⟨rfl, Or.inr (List.getLast?_eq_none_iff.mp none)⟩
  · next c last =>
    split
    · next feed => exact Or.inl ⟨rfl, Or.inl (by rw [last, feed])⟩
    · exact Or.inr rfl

/-- What is added to the text of a root file so that it lists a file. -/
def inclusionAfter (text fileName : Text) : Text :=
  lineBreakAfter text ++ inclusionLine fileName ++ ['\n']

/-- Including a file leaves the disk as it was if the root file lists it already, and else
adds a line to the root file. -/
theorem ensureIncluded_filed (fresh : before.Fresh) {fileName : Text} {added : Bool}
    (done : (ensureIncluded path fileName).outcome before = (.ok added, after)) :
    ∃ text, readIfPresent path before = .ok (Text.Utf8.encode text) ∧
      ((Lists text fileName = true ∧ after = before) ∨
        (Lists text fileName = false ∧ ∃ place beside, before.Writable path place beside ∧
          Disk.Filed before after place
            (Text.Utf8.encode (text ++ inclusionAfter text fileName)))) := by
  obtain ⟨content, read, decoding⟩ := Storing.look_bind_eq_ok_iff.mp done
  obtain ⟨text, decoded, checking⟩ := Storing.known_bind_eq_ok_iff.mp decoding
  obtain rfl := Text.Utf8.decode_eq_ok_iff.mp (mapError_eq_ok_iff.mp decoded)
  refine ⟨text, read, ?_⟩
  split at checking
  · next listed =>
    cases checking
    exact Or.inl ⟨listed, rfl⟩
  · next unlisted =>
    obtain ⟨⟨⟩, between, appended, ended⟩ := Storing.outcome_bind_eq_ok_iff.mp checking
    cases ended
    obtain ⟨content, place, beside, again, writable, filed⟩ := appendBytes_filed fresh appended
    rw [read] at again
    cases again
    refine Or.inr ⟨Bool.eq_false_iff.mpr unlisted, place, beside, writable, ?_⟩
    rw [Text.Utf8.encode_append]
    exact filed

/-- A root file that lists a file already stays as it is. -/
theorem ensureIncluded_of_listed {text fileName : Text}
    (read : readIfPresent path before = .ok (Text.Utf8.encode text))
    (listed : Lists text fileName = true) :
    (ensureIncluded path fileName).outcome before = (.ok false, before) := by
  have decoded : (Text.Utf8.decode (Text.Utf8.encode text)).mapError Failure.undecodable =
      .ok text := by
    rw [Text.Utf8.decode_encode]
    rfl
  refine Storing.look_bind_eq_ok_iff.mpr ⟨_, read, ?_⟩
  refine Storing.known_bind_eq_ok_iff.mpr ⟨_, decoded, ?_⟩
  exact (Storing.outcome_if_pos listed).trans rfl

/-- A root file that does not list a file is appended the line that includes it. -/
theorem ensureIncluded_of_unlisted {text fileName : Text}
    (read : readIfPresent path before = .ok (Text.Utf8.encode text))
    (unlisted : Lists text fileName = false)
    (appended : (appendBytes path (Text.Utf8.encode (inclusionAfter text fileName))).outcome before =
      (.ok (), after)) :
    (ensureIncluded path fileName).outcome before = (.ok true, after) := by
  have decoded : (Text.Utf8.decode (Text.Utf8.encode text)).mapError Failure.undecodable =
      .ok text := by
    rw [Text.Utf8.decode_encode]
    rfl
  have absent : ¬ Lists text fileName = true := by simp [unlisted]
  refine Storing.look_bind_eq_ok_iff.mpr ⟨_, read, ?_⟩
  refine Storing.known_bind_eq_ok_iff.mpr ⟨_, decoded, ?_⟩
  refine (Storing.outcome_if_neg absent).trans ?_
  exact Storing.outcome_bind_eq_ok_iff.mpr ⟨(), after, appended, rfl⟩

end Writing

end Daybook
