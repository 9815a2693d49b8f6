import Mathlib.Logic.Function.Basic
import Daybook.Proofs.Disk.Filing
import Daybook.Proofs.Disk.Keeping
import Daybook.Proofs.Disk.LedgerFiles

/-!
# The files of a directory

A directory houses files if it is known what stands at every name in it. Where a name and its
temporary name fit into the directory, the file of that name can be read, written as a whole and
appended to, and then the directory houses the files that are expected; all other files in it
stay what they are.
-/
namespace Daybook

open Disk

/-! ## Names that fit -/

namespace Disk

/-- The number of bytes of a text. -/
def width (text : Text) : Nat :=
  text.foldl (fun count c => count + c.utf8Size) 0

/-- What the unique part of a temporary name adds to its size. -/
def temporaryExcess : Nat := 32 - "<uuid>".length

/-- The width of a text is the number of bytes of its encoding. -/
theorem width_eq_length_encode (text : Text) : width text = (Text.Utf8.encode text).length := by
  have shift (text : Text) (start : Nat) : text.foldl (fun count c => count + c.utf8Size) start =
      start + (Text.Utf8.encode text).length := by
    induction text generalizing start with
    | nil => rfl
    | cons c text ih =>
      rw [List.foldl_cons, ih, Text.Utf8.encode_cons, List.length_append,
        String.length_utf8EncodeChar]
      omega
  rw [width, shift, Nat.zero_add]

/-- Widths add up. -/
theorem width_append (left right : Text) : width (left ++ right) = width left + width right := by
  simp only [width_eq_length_encode, Text.Utf8.encode_append, List.length_append]

/-- The size of a name is its number of bytes, and more for a temporary one. -/
theorem size_le (written : Text) : size written ≤ width written + temporaryExcess := by
  unfold size
  split
  · exact Nat.le_refl _
  · exact Nat.le_add_right _ _

end Disk

namespace FilePath

/-- The name of the temporary file beside a file. -/
def hidden (name : Text) : Text :=
  ['.'] ++ name ++ temporaryEnding

/-- A temporary name does not lead up. -/
theorem hidden_down (name : Text) : hidden name ≠ ['.', '.'] := by
  intro same
  have ending : temporaryEnding.length = 11 := by decide
  have size := congrArg List.length same
  simp only [hidden, List.length_append, List.length_cons, List.length_nil] at size
  omega

/-- A plain name can be asked for in a directory, and so can its temporary name. -/
structure Fits (directory : FilePath) (name : Text) : Prop where
  plain : IsPlain name
  usable : '\x00' ∉ name
  room : size (directory.below (hidden name)).toText ≤ longestPath
  narrow : size (hidden name) ≤ longestName

variable {directory : FilePath} {name : Text}

/-- A path in a directory is written behind the directory. -/
theorem toText_below (directory : FilePath) :
    ∃ stem, ∀ name, (directory.below name).toText = stem ++ name := by
  have inside (names : List Text) : ∃ stem : Text, ∀ name,
      List.intercalate ['/'] (names ++ [name]) = stem ++ name := by
    induction names with
    | nil => exact ⟨[], fun name => by simp [List.intercalate]⟩
    | cons first names ih =>
      obtain ⟨stem, written⟩ := ih
      refine ⟨first ++ ['/'] ++ stem, fun name => ?_⟩
      obtain ⟨second, others, spelled⟩ : ∃ second others, names ++ [name] = second :: others :=
        List.exists_cons_of_ne_nil (by simp)
      rw [List.append_assoc, List.append_assoc, ← written, List.cons_append, spelled]
      simp [List.intercalate]
  obtain ⟨stem, written⟩ := inside directory.names
  cases anchor : directory.anchor with
  | here => exact ⟨stem, fun name => by simp [toText, anchor, written]⟩
  | root => exact ⟨'/' :: stem, fun name => by simp [toText, anchor, written]⟩
  | doubleRoot => exact ⟨'/' :: '/' :: stem, fun name => by simp [toText, anchor, written]⟩

/-- The size of a path that ends in a temporary name is its width and the digits that are not
written out. -/
theorem size_hidden (front name : Text) :
    size (front ++ hidden name) = width front + width (hidden name) + temporaryExcess := by
  have ending : temporaryEnding.isSuffixOf (front ++ hidden name) = true := by
    rw [List.isSuffixOf_iff_suffix, hidden, ← List.append_assoc]
    exact List.suffix_append _ _
  rw [← width_append, size, if_pos ending]
  rfl

/-- The path of a file is no longer than that of its temporary file. -/
theorem Fits.short (fits : directory.Fits name) :
    size (directory.below name).toText ≤ longestPath ∧ size name ≤ longestName := by
  obtain ⟨stem, written⟩ := toText_below directory
  have room := fits.room
  have narrow := fits.narrow
  rw [written, size_hidden] at room
  rw [← List.nil_append (hidden name), size_hidden] at narrow
  have wide : width name ≤ width (hidden name) := by
    rw [hidden, width_append, width_append]
    omega
  have path := size_le (directory.below name).toText
  have alone := size_le name
  rw [written, width_append] at path
  rw [written]
  omega

/-- A name that is no wider than one that fits fits as well. -/
theorem Fits.mono (fits : directory.Fits name) {other : Text} (plain : IsPlain other)
    (usable : '\x00' ∉ other) (narrower : width other ≤ width name) : directory.Fits other := by
  obtain ⟨stem, written⟩ := toText_below directory
  have room := fits.room
  have narrow := fits.narrow
  rw [written, size_hidden] at room
  rw [← List.nil_append (hidden name), size_hidden] at narrow
  have wide : width (hidden other) ≤ width (hidden name) := by
    rw [hidden, hidden, width_append, width_append, width_append, width_append]
    omega
  refine ⟨plain, usable, ?_, ?_⟩
  · rw [written, size_hidden]
    omega
  · rw [← List.nil_append (hidden other), size_hidden]
    omega

end FilePath

/-! ## Housing -/

/-- A directory leads to a folder with the given files in it, and with nothing else. -/
structure Disk.Houses (disk : Disk) (directory : FilePath) (home : Location)
    (files : Text → Option Text) : Prop where
  leads : disk.place directory = .ok home
  folder : disk.entry? home = some .folder
  fresh : disk.Fresh
  proper : disk.Proper
  held : ∀ name, disk.entry? (home ++ [name]) =
    (files name).map fun text => .file (Text.Utf8.encode text)

namespace Disk.Houses

variable {disk after : Disk} {directory : FilePath} {home : Location}
  {files : Text → Option Text} {name text : Text}

/-- Nothing in the directory is a folder. -/
theorem not_folder (houses : disk.Houses directory home files) (name : Text) :
    disk.entry? (home ++ [name]) ≠ some .folder := by
  rw [houses.held]
  cases files name <;> simp

/-- A name that fits leads to its place, and so does its temporary name. -/
theorem places (houses : disk.Houses directory home files) (fits : directory.Fits name) :
    disk.place (directory.below name) = .ok (home ++ [name]) ∧
      disk.place (temporary (directory.below name)) = .ok (home ++ [FilePath.hidden name]) := by
  have walked := walk_of_place houses.leads
  have usable := isUsable_of_place houses.leads
  obtain ⟨short, narrow⟩ := fits.short
  refine ⟨(place_below_eq_ok_iff fits.plain.down).mpr ⟨?_, short, narrow, home, walked,
    houses.folder, rfl⟩, ?_⟩
  · rw [FilePath.isUsable_below, usable]
    simpa using fits.usable
  · rw [FilePath.temporary_below]
    refine (place_below_eq_ok_iff (FilePath.hidden_down name)).mpr
      ⟨?_, fits.room, fits.narrow, home, walked,
      houses.folder, rfl⟩
    have quiet : '\x00' ∉ temporaryEnding := by decide +kernel
    rw [FilePath.isUsable_below, usable]
    simpa [FilePath.hidden, fits.usable] using quiet

/-- The file of a name that fits can be written. -/
theorem writable (houses : disk.Houses directory home files) (fits : directory.Fits name) :
    disk.Writable (directory.below name) (home ++ [name]) (home ++ [FilePath.hidden name]) := by
  obtain ⟨leads, leadsBeside⟩ := houses.places fits
  refine ⟨by simp, ?_, leads, leadsBeside, houses.not_folder name, houses.not_folder _⟩
  rw [FilePath.below_name]
  exact fits.plain.down

/-- Where nothing changes the same files are housed. -/
theorem same (houses : disk.Houses directory home files) (same : Same disk after)
    (proper : after.Proper) : after.Houses directory home files := by
  refine ⟨(place_eq_ok_iff same _ _).mpr houses.leads, ?_, fun place temporary => ?_, proper,
    fun name => ?_⟩
  · rw [same.entry_eq, houses.folder]
  · rw [same.entry_eq, houses.fresh place temporary]
  · rw [same.entry_eq, houses.held]

/-- Where a file has been written it is housed, and the others are as before. -/
theorem filed (houses : disk.Houses directory home files)
    (lasting : temporaryEnding.isSuffixOf name = false)
    (filed : Filed disk after (home ++ [name]) (Text.Utf8.encode text)) (proper : after.Proper) :
    after.Houses directory home (Function.update files name (some text)) := by
  have apart : home ≠ home ++ [name] := by simp
  refine ⟨(place_eq_ok_iff filed.changed _ _).mpr houses.leads, ?_, filed.fresh houses.fresh ?_,
    proper, fun other => ?_⟩
  · rw [filed.entry, if_neg apart, houses.folder]
  · rw [isTemporary, List.getLast?_concat]
    exact lasting
  · rw [filed.entry]
    by_cases here : other = name
    · rw [here, if_pos rfl, Function.update_self]
      rfl
    · rw [if_neg (by simpa using here), Function.update_of_ne here, houses.held]

/-- Writing through a path that leads to a name leaves the file, if the path of the temporary file
leads anywhere. -/
theorem writeAt (houses : disk.Houses directory home files) {path : FilePath}
    (leads : disk.place path = .ok (home ++ [name])) (named : path.names ≠ [])
    (down : path.name ≠ ['.', '.']) (lasting : temporaryEnding.isSuffixOf name = false)
    {beside : Location} (leadsBeside : disk.place (temporary path) = .ok beside) (text : Text) :
    ∃ after, (writeWhole path (Text.Utf8.encode text)).outcome disk = (.ok (), after) ∧
      after.Houses directory home (Function.update files name (some text)) := by
  have clear : disk.entry? beside ≠ some .folder := by
    rw [houses.fresh beside (isTemporary_of_place leadsBeside)]
    simp
  obtain ⟨after, written, _⟩ := writeWhole_of_writable
    ⟨named, down, leads, leadsBeside, houses.not_folder name, clear⟩ (Text.Utf8.encode text)
  obtain ⟨place, _, writable, filed⟩ := writeWhole_filed houses.fresh written
  obtain rfl : home ++ [name] = place := Except.ok.inj (leads.symm.trans writable.leads)
  have proper := keeps_writeWhole elementary_proper path (Text.Utf8.encode text) disk houses.proper
  rw [written] at proper
  exact ⟨after, written, houses.filed lasting filed proper⟩

/-- Without a place for the temporary file nothing is written. -/
theorem not_writeAt {path : FilePath} (nowhere : ∀ beside, disk.place (temporary path) ≠ .ok beside)
    (content : Bytes) :
    ∃ failure, (writeWhole path content).outcome disk = (.error failure, disk) :=
  writeWhole_of_not_writable (fun _ beside writable => nowhere beside writable.leadsBeside) content

/-- The file of a name that fits is written. -/
theorem write (houses : disk.Houses directory home files) (fits : directory.Fits name)
    (text : Text) :
    ∃ after, (writeWhole (directory.below name) (Text.Utf8.encode text)).outcome disk =
        (.ok (), after) ∧
      after.Houses directory home (Function.update files name (some text)) := by
  obtain ⟨leads, leadsBeside⟩ := houses.places fits
  refine houses.writeAt leads (by simp) ?_ fits.plain.lasting leadsBeside text
  rw [FilePath.below_name]
  exact fits.plain.down

/-- A path that leads to a name reads its file. -/
theorem readAt (houses : disk.Houses directory home files) {path : FilePath}
    (leads : disk.place path = .ok (home ++ [name])) (label : Text) (known : files name = some text) :
    readBytes label path disk = .ok (Text.Utf8.encode text) := by
  refine readBytes_eq_ok_iff.mpr ⟨_, leads, ?_⟩
  rw [houses.held, known]
  rfl

/-- What is present is known. -/
theorem isPresent (houses : disk.Houses directory home files) (fits : directory.Fits name) :
    Daybook.isPresent (directory.below name) disk = .ok (files name).isSome := by
  obtain ⟨leads, _⟩ := houses.places fits
  have held := houses.held name
  cases known : files name with
  | none =>
    rw [known] at held
    simp [Daybook.isPresent, Disk.holds, Disk.holdsEntry, Disk.find, leads, held, bind,
      Except.bind, Except.mapError]
  | some text =>
    rw [known] at held
    exact isPresent_of_entry leads held

/-- What is read where there may be no file is known. -/
theorem readIfPresent (houses : disk.Houses directory home files) (fits : directory.Fits name) :
    Daybook.readIfPresent (directory.below name) disk =
      .ok (Text.Utf8.encode ((files name).getD [])) := by
  have present := houses.isPresent fits
  cases known : files name with
  | none =>
    rw [known] at present
    exact readIfPresent_eq_ok_iff.mpr (Or.inr ⟨present, rfl⟩)
  | some text =>
    rw [known] at present
    exact bind_eq_ok_iff.mpr ⟨true, present, houses.readAt (houses.places fits).1 _ known⟩

/-- Further text is appended to the file of a name that fits. -/
theorem append (houses : disk.Houses directory home files) (fits : directory.Fits name)
    (more : Text) :
    ∃ after, (appendBytes (directory.below name) (Text.Utf8.encode more)).outcome disk =
        (.ok (), after) ∧
      after.Houses directory home
        (Function.update files name (some ((files name).getD [] ++ more))) := by
  obtain ⟨after, written, housed⟩ := houses.write fits ((files name).getD [] ++ more)
  rw [Text.Utf8.encode_append] at written
  refine ⟨after, ?_, housed⟩
  exact Storing.look_bind_eq_ok_iff.mpr ⟨_, houses.readIfPresent fits, written⟩

/-- There is no place for the temporary file of a name that does not fit. -/
theorem nowhere (plain : FilePath.IsPlain name) (usable : '\x00' ∉ name)
    (unfit : ¬ directory.Fits name) (disk : Disk) (beside : Location) :
    disk.place (temporary (directory.below name)) ≠ .ok beside := by
  intro leads
  rw [FilePath.temporary_below] at leads
  obtain ⟨_, room, narrow, _⟩ := (place_below_eq_ok_iff (FilePath.hidden_down name)).mp leads
  exact unfit ⟨plain, usable, room, narrow⟩

/-- Nothing is appended to a file whose name does not fit. -/
theorem not_append (plain : FilePath.IsPlain name) (usable : '\x00' ∉ name)
    (unfit : ¬ directory.Fits name) (disk : Disk) (more : Bytes) :
    ∃ failure, (appendBytes (directory.below name) more).outcome disk = (.error failure, disk) := by
  cases read : Daybook.readIfPresent (directory.below name) disk with
  | error failure =>
    exact ⟨failure, by simp only [appendBytes, Storing.outcome_bind, Storing.outcome_look, read]⟩
  | ok content =>
    obtain ⟨failure, failed⟩ := not_writeAt (nowhere plain usable unfit disk) (content ++ more)
    refine ⟨failure, ?_⟩
    simp only [appendBytes, Storing.outcome_bind, Storing.outcome_look, read, failed]

/-- The files of a directory can be recorded. Recording asks of every path whether something is
there and reads it if so. Both questions have an answer for a name that fits, and for a path that is
known to lead to a file. -/
theorem take (houses : disk.Houses directory home files) {paths : List FilePath}
    (known : ∀ path ∈ paths, (∃ name, path = directory.below name ∧ directory.Fits name) ∨
      ∃ name text, disk.place path = .ok (home ++ [name]) ∧ files name = some text) :
    ∃ snapshot, Snapshot.take paths disk = .ok snapshot := by
  have each : ∀ path ∈ paths, ∃ present, Daybook.isPresent path disk = .ok present ∧
      (present = true → ∃ content, readBytes path.toText path disk = .ok content) := by
    intro path member
    rcases known path member with ⟨name, rfl, fits⟩ | ⟨name, text, leads, file⟩
    · refine ⟨_, houses.isPresent fits, fun present => ?_⟩
      obtain ⟨text, file⟩ := Option.isSome_iff_exists.mp present
      exact ⟨_, houses.readAt (houses.places fits).1 _ file⟩
    · have held := houses.held name
      rw [file] at held
      exact ⟨true, isPresent_of_entry leads held, fun _ => ⟨_, houses.readAt leads _ file⟩⟩
  let record (path : FilePath) : Except Failure (FilePath × Option Bytes) := do
    if ← Daybook.isPresent path disk then
      let content ← readBytes path.toText path disk
      return (path, some content)
    else return (path, none)
  have recordable : ∀ path ∈ paths.eraseDups, ∃ result, record path = .ok result := by
    intro path member
    obtain ⟨present, asked, readable⟩ := each path (List.mem_eraseDups.mp member)
    cases present with
    | false => exact ⟨(path, none), bind_eq_ok_iff.mpr ⟨false, asked, rfl⟩⟩
    | true =>
      obtain ⟨content, read⟩ := readable rfl
      exact ⟨(path, some content), bind_eq_ok_iff.mpr ⟨true, asked,
        bind_eq_ok_iff.mpr ⟨content, read, rfl⟩⟩⟩
  obtain ⟨contents, recorded⟩ := exists_mapM_eq_ok recordable
  exact ⟨⟨contents⟩, bind_eq_ok_iff.mpr ⟨contents, recorded, rfl⟩⟩

/-- What a snapshot records of files with the given names. -/
def recorded (directory : FilePath) (files : Text → Option Text) (names : List Text) : Snapshot :=
  ⟨names.map fun name => (directory.below name, (files name).map Text.Utf8.encode)⟩

/-- Files whose names fit are recorded as they are. The names are different and so are the paths
below the directory, so none of them is left out as having been recorded before. -/
theorem takeRecorded (houses : disk.Houses directory home files) {names : List Text}
    (once : names.Nodup) (fits : ∀ name ∈ names, directory.Fits name) :
    Snapshot.take (names.map directory.below) disk = .ok (recorded directory files names) := by
  have paths : (names.map directory.below).eraseDups = names.map directory.below := by
    refine eraseDups_of_nodup (once.map fun name other same => ?_)
    simpa using congrArg FilePath.name same
  let record (path : FilePath) : Except Failure (FilePath × Option Bytes) := do
    if ← Daybook.isPresent path disk then
      let content ← readBytes path.toText path disk
      return (path, some content)
    else return (path, none)
  have each : ∀ name ∈ names, record (directory.below name) =
      .ok (directory.below name, (files name).map Text.Utf8.encode) := by
    intro name member
    have present := houses.isPresent (fits name member)
    cases known : files name with
    | none =>
      rw [known] at present
      exact bind_eq_ok_iff.mpr ⟨false, present, rfl⟩
    | some text =>
      rw [known] at present
      exact bind_eq_ok_iff.mpr ⟨true, present, bind_eq_ok_iff.mpr
        ⟨_, houses.readAt (houses.places (fits name member)).1 _ known, rfl⟩⟩
  have mapped : (names.map directory.below).mapM record =
      .ok (names.map fun name => (directory.below name, (files name).map Text.Utf8.encode)) := by
    clear paths once fits
    induction names with
    | nil => rfl
    | cons name names ih =>
      obtain ⟨first, others⟩ := List.forall_mem_cons.mp each
      rw [List.map_cons, List.mapM_cons, first, ih others]
      rfl
  refine bind_eq_ok_iff.mpr ⟨_, ?_, rfl⟩
  rw [paths]
  exact mapped

/-- A file whose name fits is put back, unless it has appeared where there was none. -/
theorem restoreFile (houses : disk.Houses directory home files) (fits : directory.Fits name)
    {held : Option Text} (absent : held = none → files name = none) :
    ∃ after, (Snapshot.restoreFile (directory.below name) (held.map Text.Utf8.encode)).outcome disk =
        (.ok (), after) ∧
      after.Houses directory home (Function.update files name held) := by
  cases held with
  | some text => exact houses.write fits text
  | none =>
    obtain ⟨leads, _⟩ := houses.places fits
    have empty := houses.held name
    rw [absent rfl] at empty
    have removed : disk.remove (directory.below name) =
        .error ⟨.missing, (directory.below name).toText, none⟩ := by
      simp [Disk.remove, blame, leads, empty, bind, Except.bind, Except.mapError]
    refine ⟨disk, by simp [Snapshot.restoreFile, removed], ?_⟩
    rwa [← absent rfl, Function.update_eq_self]

/-- Files that are recorded are put back, if none of them has appeared where there was none. -/
theorem restore {before : Text → Option Text} (houses : disk.Houses directory home files)
    {names : List Text} (fits : ∀ name ∈ names, directory.Fits name)
    (absent : ∀ name ∈ names, before name = none → files name = none) :
    ∃ after, (recorded directory before names).restore.outcome disk = (.ok (), after) := by
  induction names generalizing disk files with
  | nil => exact ⟨disk, rfl⟩
  | cons name names ih =>
    obtain ⟨fit, fits⟩ := List.forall_mem_cons.mp fits
    obtain ⟨gone, absent⟩ := List.forall_mem_cons.mp absent
    obtain ⟨middle, restored, housed⟩ := houses.restoreFile fit gone
    obtain ⟨after, others⟩ := ih housed fits fun other member none => by
      by_cases same : other = name
      · rw [same, Function.update_self, ← same, none]
      · rw [Function.update_of_ne same, absent other member none]
    exact ⟨after, Storing.outcome_bind_eq_ok_iff.mpr ⟨(), middle, restored, others⟩⟩

end Disk.Houses

/-- What succeeds under protection is what succeeds without, if the files can be recorded. -/
theorem protecting_of_done {α : Type} {before after : Disk} {paths : List FilePath}
    {snapshot : Snapshot} (taken : Snapshot.take paths before = .ok snapshot)
    {operation : Storing α} {value : α} (done : operation.outcome before = (.ok value, after)) :
    (protecting paths operation).outcome before = (.ok value, after) := by
  refine Storing.look_bind_eq_ok_iff.mpr ⟨snapshot, taken, ?_⟩
  rw [Storing.outcome_tryCatch, done]

/-- What fails under protection fails as it does without, if the files can be put back. -/
theorem protecting_of_failed {α : Type} {before between after : Disk} {paths : List FilePath}
    {snapshot : Snapshot} (taken : Snapshot.take paths before = .ok snapshot)
    {operation : Storing α} {failure : Failure}
    (failed : operation.outcome before = (.error failure, between))
    (restored : snapshot.restore.outcome between = (.ok (), after)) :
    (protecting paths operation).outcome before = (.error failure, after) := by
  refine Storing.look_bind_eq_error_iff.mpr (Or.inr ⟨snapshot, taken, ?_⟩)
  rw [Storing.outcome_tryCatch, failed]
  simp only [Storing.outcome_bind, restored, Storing.outcome_throw]

end Daybook
