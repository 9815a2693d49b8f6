import Daybook.Proofs.Disk.Founding
import Daybook.Proofs.Disk.Tracking
import Daybook.Proofs.Editing.AccountAddition
import Daybook.Proofs.Entry.Rendering

/-!
# Operations stay in the directory

An operation changes files of the directory of the ledger and no others, and of these only the ones
that it is for. It is a matter of names: every name leads into the directory but one, the name `.`
of the directory itself, which a template may render to if ledger files have no extension. As long
as the directory is a folder nothing can be written there, but where it does not exist a transaction
with such a file takes its place.
-/
namespace Daybook

open Disk Command Storing

/-- The name of the file that an id points at, a ledger file of the directory other than the root
file. -/
def Ledger.Points (ledger : Ledger) (disk : Disk) (id name : Text) : Prop :=
  ∃ decoded, Identifier.decode id = .ok decoded ∧
    (FilePath.ofText decoded.path).resolve disk.current = ledger.home disk ++ [name] ∧
    FilePath.extensionOf name = ledger.layout.extension ∧ name ≠ ledger.layout.rootFile

/-- The name of the file that a transaction belongs to. -/
def Ledger.Files (ledger : Ledger) (transaction : Transaction) (name : Text) : Prop :=
  ∃ entry, transaction.render ledger.layout = .ok entry ∧ entry.fileName = name

/-- The names of the files in the directory that an order is for. -/
def Command.Order.Targets (ledger : Ledger) (disk : Disk) : Order → Text → Prop
  | .addTransaction transaction, name =>
    ledger.Files transaction name ∨ name = ledger.layout.rootFile
  | .updateTransaction id transaction, name =>
    ledger.Points disk id name ∨ ledger.Files transaction name ∨ name = ledger.layout.rootFile
  | .deleteTransaction id, name => ledger.Points disk id name
  | .clearTransaction id, name => ledger.Points disk id name
  | .unclearTransaction id, name => ledger.Points disk id name
  | .addAccount _, name => name = ledger.layout.accountsFile ∨ name = ledger.layout.rootFile
  | .updateAccount _ _, name => name = ledger.layout.accountsFile ∨ name = ledger.layout.rootFile
  | .deleteAccount _, name => name = ledger.layout.accountsFile
  | .closeAccount _ _, name => name = ledger.layout.accountsFile ∨ name = ledger.layout.rootFile
  | .listTransactions _, _ => False
  | .listAccounts _, _ => False
  | .verify _, _ => False

/-- An order takes a transaction out of its file or changes it there. -/
def Command.Order.Amends (order : Order) : Prop :=
  ∃ id, order = .deleteTransaction id ∨ order = .clearTransaction id ∨
    order = .unclearTransaction id

/-- What an order does is confined: folders stay, what changes stands in the directory under one of
the names that the order is for, and the root file only grows. An order that amends a transaction
leaves the root file alone. -/
structure Ledger.Confined (ledger : Ledger) (order : Order) (before after : Disk) : Prop where
  folders : ∀ place, after.entry? place = some .folder ↔ before.entry? place = some .folder
  within : ∀ place, after.entry? place ≠ before.entry? place →
    ∃ name, place = ledger.home before ++ [name] ∧ order.Targets ledger before name
  grown : ∀ content, before.entry? (ledger.rootPlace before) = some (.file content) →
    ∃ more, after.entry? (ledger.rootPlace before) = some (.file (content ++ more))
  spared : order.Amends →
    after.entry? (ledger.rootPlace before) = before.entry? (ledger.rootPlace before)

/-- A transaction is added whose file is named `.`, which is the directory itself, and no folder
keeps a file from being written there. -/
def Command.Order.Displaced (ledger : Ledger) (disk : Disk) (order : Order) : Prop :=
  ∃ transaction place beside, order = .addTransaction transaction ∧
    ledger.Files transaction ['.'] ∧ disk.Writable ledger.directory place beside

/-- The path `.` in a directory is that of the directory. -/
theorem FilePath.child_dot (directory : FilePath) : directory.child ['.'] = directory := by
  obtain ⟨anchor, names⟩ := directory
  rw [child, show ofText ['.'] = ⟨.here, []⟩ by decide, join, List.append_nil]

section Confinement

variable {ledger : Ledger} {disk : Disk} {path : FilePath} {place beside : Location}

/-- The file of an id is confined. -/
theorem Ledger.points_of_checkId {id : Text} (checked : ledger.checkId id disk = .ok path)
    (writable : disk.Writable path place beside) :
    place = ledger.home disk ++ [path.name] ∧ ledger.Points disk id path.name := by
  obtain ⟨same, extension, other⟩ := place_of_checkId checked writable
  obtain ⟨decoded, known, _⟩ := bind_eq_ok_iff.mp checked
  obtain rfl := path_of_checkId checked known
  refine ⟨same, decoded, known, ?_, extension, other⟩
  rw [← same, resolve_of_place writable.leads]

/-- The file of a transaction is confined, unless it is the directory. -/
theorem Ledger.files_of_receives {transaction : Transaction}
    (received : ledger.Receives transaction path) (writable : disk.Writable path place beside) :
    (path = ledger.directory ∧ ledger.Files transaction ['.']) ∨
      ∃ name, place = ledger.home disk ++ [name] ∧ ledger.Files transaction name := by
  obtain ⟨entry, rendered, rfl⟩ := received
  by_cases dot : entry.fileName = ['.']
  · refine Or.inl ⟨?_, entry, rendered, dot⟩
    rw [dot, FilePath.child_dot]
  · obtain ⟨date, _, named, _⟩ := Transaction.render_eq_ok_iff.mp rendered
    obtain ⟨ends, apart, quiet, _⟩ := Layout.of_fileName named
    have something : entry.fileName ≠ [] := by
      intro none
      rw [none] at ends apart
      exact apart (List.suffix_nil.mp ends).symm
    have child := FilePath.IsName.child ⟨something, dot, quiet⟩ ledger.directory
    rw [child] at writable
    exact Or.inr ⟨entry.fileName, place_of_below writable, entry, rendered, rfl⟩

/-- Where a transaction was deleted the directory is a folder. -/
theorem Ledger.folder_of_deleted (fresh : disk.Fresh) {id : Text} {after : Disk}
    (deleted : (ledger.deleteTransaction id).outcome disk = (.ok (), after)) :
    disk.entry? (ledger.home disk) = some .folder := by
  obtain ⟨path, checked, cut⟩ := look_bind_eq_ok_iff.mp deleted
  obtain ⟨decoded, known, trail⟩ := deleteTransaction_done fresh cut
  obtain rfl := path_of_checkId checked known
  obtain ⟨place, beside, writable⟩ := trail.writable _ List.mem_cons_self
  obtain ⟨same, _⟩ := place_of_checkId checked writable
  have leads := writable.leads
  rw [← FilePath.below_parent_name writable.named] at leads
  obtain ⟨_, _, _, home, _, folder, split⟩ := (place_below_eq_ok_iff writable.plain).mp leads
  rw [split] at same
  rw [← (List.append_inj' same rfl).1]
  exact folder

/-- The root file is written where it has its place. -/
theorem Ledger.place_of_rootPath (main : FilePath.IsPlain ledger.layout.rootFile)
    (writable : disk.Writable ledger.rootPath place beside) :
    place = ledger.home disk ++ [ledger.layout.rootFile] := by
  rw [rootPath, Layout.rootPath, main.child] at writable
  exact place_of_below writable

/-- The accounts file is written in the directory. -/
theorem Ledger.place_of_accountsPath (accounts : FilePath.IsPlain ledger.layout.accountsFile)
    (writable : disk.Writable ledger.accountsPath place beside) :
    place = ledger.home disk ++ [ledger.layout.accountsFile] := by
  rw [accountsPath, Layout.accountsPath, accounts.child] at writable
  exact place_of_below writable

/-- A file that an order may write stands in the directory and is one that the order is for, unless
it is the directory itself. -/
theorem Command.Order.target_of_writes (main : FilePath.IsPlain ledger.layout.rootFile)
    (accounts : FilePath.IsPlain ledger.layout.accountsFile) {order : Order}
    (housed : ¬ order.Displaced ledger disk)
    (folder : ∀ id transaction, order = .updateTransaction id transaction →
      disk.entry? (ledger.home disk) = some .folder)
    (written : order.Writes ledger disk path) (writable : disk.Writable path place beside) :
    ∃ name, place = ledger.home disk ++ [name] ∧ order.Targets ledger disk name := by
  have root (same : path = ledger.rootPath) :
      place = ledger.home disk ++ [ledger.layout.rootFile] := by
    subst same
    exact Ledger.place_of_rootPath main writable
  have account (same : path = ledger.accountsPath) :
      place = ledger.home disk ++ [ledger.layout.accountsFile] := by
    subst same
    exact Ledger.place_of_accountsPath accounts writable
  have pointed {id : Text} (checked : ledger.checkId id disk = .ok path) :=
    Ledger.points_of_checkId checked writable
  cases order with
  | listTransactions json => cases written
  | listAccounts json => cases written
  | verify json => cases written
  | addTransaction transaction =>
    rcases written with received | same
    · rcases Ledger.files_of_receives received writable with ⟨rfl, files⟩ | ⟨name, same, files⟩
      · exact absurd ⟨transaction, place, beside, rfl, files, writable⟩ housed
      · exact ⟨name, same, Or.inl files⟩
    · exact ⟨_, root same, Or.inr rfl⟩
  | updateTransaction id transaction =>
    rcases written with checked | received | same
    · exact ⟨_, (pointed checked).1, Or.inl (pointed checked).2⟩
    · rcases Ledger.files_of_receives received writable with ⟨rfl, _⟩ | ⟨name, same, files⟩
      · -- The directory is a folder and cannot be written as a file.
        have standing := folder id transaction rfl
        rw [Ledger.home, resolve_of_place writable.leads] at standing
        exact absurd standing writable.file
      · exact ⟨name, same, Or.inr (Or.inl files)⟩
    · exact ⟨_, root same, Or.inr (Or.inr rfl)⟩
  | deleteTransaction id => exact ⟨_, pointed written⟩
  | clearTransaction id => exact ⟨_, pointed written⟩
  | unclearTransaction id => exact ⟨_, pointed written⟩
  | addAccount opened =>
    rcases written with same | same
    · exact ⟨_, account same, Or.inl rfl⟩
    · exact ⟨_, root same, Or.inr rfl⟩
  | updateAccount name changed =>
    rcases written with same | same
    · exact ⟨_, account same, Or.inl rfl⟩
    · exact ⟨_, root same, Or.inr rfl⟩
  | deleteAccount name => exact ⟨_, account written, rfl⟩
  | closeAccount name date =>
    rcases written with same | same
    · exact ⟨_, account same, Or.inl rfl⟩
    · exact ⟨_, root same, Or.inr rfl⟩

/-- An order that amends a transaction is not for the root file. -/
theorem Command.Order.Amends.spares {order : Order} (amends : order.Amends) :
    ¬ order.Targets ledger disk ledger.layout.rootFile := by
  obtain ⟨id, rfl | rfl | rfl⟩ := amends <;>
  · rintro ⟨_, _, _, _, other⟩
    exact other rfl

/-- A course to files of the directory that the order is for is confined. -/
theorem Course.confined {order : Order} {after : Disk}
    (course : Course (order.Writes ledger disk) (ledger.rootPlace disk) disk after)
    (inside : ∀ path place beside, order.Writes ledger disk path →
      disk.Writable path place beside →
      ∃ name, place = ledger.home disk ++ [name] ∧ order.Targets ledger disk name) :
    ledger.Confined order disk after := by
  have within : ∀ place, after.entry? place ≠ disk.entry? place →
      ∃ name, place = ledger.home disk ++ [name] ∧ order.Targets ledger disk name := by
    intro place differs
    by_contra outside
    refine differs (course.changed.elsewhere place ?_)
    rintro ⟨path, beside, written, writable⟩
    exact outside (inside path place beside written writable)
  refine ⟨course.changed.folders, within, course.grown, fun amends => ?_⟩
  by_contra differs
  obtain ⟨name, same, targets⟩ := within _ differs
  obtain ⟨rfl⟩ := List.append_inj' same rfl |>.2
  exact amends.spares targets

/-- An operation that changes nothing is confined. -/
theorem Ledger.Confined.of_same {order : Order} {after : Disk} (same : Same disk after) :
    ledger.Confined order disk after := by
  have entry := ChangedAt.entry_eq same
  refine ⟨same.folders, fun place differs => absurd (entry place) differs, ?_, fun _ => entry _⟩
  intro content held
  exact ⟨[], by rw [entry, held, List.append_nil]⟩

/-- Where the directory can be written as a file the root file cannot be written. -/
theorem Ledger.rootPath_not_writable (main : FilePath.IsPlain ledger.layout.rootFile)
    (writable : disk.Writable ledger.directory place beside) (other further : Location) :
    ¬ disk.Writable ledger.rootPath other further := by
  intro root
  have leads := root.leads
  rw [rootPath, Layout.rootPath, main.child] at leads
  obtain ⟨_, _, _, home, walked, folder, _⟩ := (place_below_eq_ok_iff main.down).mp leads
  have same : disk.walkTo ledger.directory = .ok place := walk_of_place writable.leads
  rw [walked] at same
  cases same
  exact writable.file folder

/-- Including a file leaves the disk as it was or writes the root file. -/
theorem ensureIncluded_trail {before between last : Disk} {written : List FilePath}
    {root : FilePath} {fileName : Text} {result : Except Failure Bool} (fresh : before.Fresh)
    (trail : Trail before between written)
    (ran : (ensureIncluded root fileName).outcome between = (result, last)) :
    last = between ∨ Trail before last (written ++ [root]) := by
  cases result with
  | error failure => exact Or.inl (ensureIncluded_failed fresh trail ran)
  | ok added =>
    obtain ⟨_, _, decoding⟩ := look_bind_eq_ok_iff.mp ran
    obtain ⟨_, _, checking⟩ := known_bind_eq_ok_iff.mp decoding
    split at checking
    · cases checking
      exact Or.inl rfl
    · obtain ⟨_, _, appended, ended⟩ := outcome_bind_eq_ok_iff.mp checking
      cases ended
      rcases trail.append fresh _ appended with ⟨_, impossible, _⟩ | ⟨_, longer⟩
      · cases impossible
      · exact Or.inr longer

/-- A transaction whose file is the directory is written there if no folder keeps it from being
written. The entry is appended where the directory is, as a file in its place, and then the root
file below it cannot be written. -/
theorem Ledger.addTransaction_displaced (fresh : disk.Fresh)
    (main : FilePath.IsPlain ledger.layout.rootFile) {transaction : Transaction}
    (files : ledger.Files transaction ['.'])
    (writable : disk.Writable ledger.directory place beside) :
    Disk.entry? ((ledger.addTransaction transaction).outcome disk).2 place ≠
      disk.entry? place := by
  obtain ⟨entry, rendered, dot⟩ := files
  obtain ⟨_, _, _, _, text, _⟩ := Transaction.render_eq_ok_iff.mp rendered
  obtain ⟨between, appended, replaced⟩ :=
    appendBytes_of_writable writable (Text.Utf8.encode entry.text)
  have trail := (Trail.start disk).replaced fresh writable replaced
  -- The root file cannot be written, so nothing follows.
  have ended : ((ensureIncluded ledger.rootPath entry.fileName).outcome between).2 = between := by
    rcases ensureIncluded_trail fresh trail rfl with unchanged | longer
    · exact unchanged
    · obtain ⟨other, further, root⟩ := longer.writable ledger.rootPath (by simp)
      exact absurd root (rootPath_not_writable main writable other further)
  have last : ((ledger.addTransaction transaction).outcome disk).2 = between := by
    rw [addTransaction, Daybook.addTransaction, rendered, outcome_bind, outcome_known]
    dsimp only
    rw [appendEntry, dot, FilePath.child_dot, outcome_bind, appended]
    dsimp only
    rw [← dot, outcome_bind]
    split
    · next ran => exact (congrArg Prod.snd ran).symm.trans ended
    · next ran => exact (congrArg Prod.snd ran).symm.trans ended
  rw [last, replaced.entry, if_pos rfl]
  intro unchanged
  have same : disk.contentAt place = disk.contentAt place ++ Text.Utf8.encode entry.text := by
    conv_lhs => rw [contentAt, ← unchanged]
  have none := List.self_eq_append_right.mp same
  rw [Text.Utf8.encode_eq_nil_iff, text] at none
  cases none

/-- Every operation is confined, whether or not it succeeds, unless a transaction is added whose
file would be the directory itself, and then it is not. An operation is a course of writes, one file
at a time, that may break off anywhere, and what holds of every file it may write holds of every
place that differs afterwards. All of these files are children of the directory, except that the
name of a period file can be that of the directory itself. -/
theorem Ledger.run_confined_iff (ledger : Ledger) {disk after : Disk} (fresh : disk.Fresh)
    (main : FilePath.IsPlain ledger.layout.rootFile)
    (accounts : FilePath.IsPlain ledger.layout.accountsFile)
    (distinct : ledger.layout.accountsFile ≠ ledger.layout.rootFile) (order : Order)
    {result : Except Failure Unit} (ran : (order.run ledger).outcome disk = (result, after)) :
    ledger.Confined order disk after ↔ ¬ order.Displaced ledger disk := by
  constructor
  · rintro confined ⟨transaction, place, beside, rfl, files, writable⟩
    have differs := Ledger.addTransaction_displaced fresh main files writable
    have last : ((ledger.addTransaction transaction).outcome disk).2 = after := by
      rw [Order.run, outcome_bind] at ran
      split at ran
      · next inner =>
        cases ran
        rw [inner]
      · next inner =>
        cases ran
        rw [inner]
    rw [last] at differs
    obtain ⟨name, same, _⟩ := confined.within place differs
    have shorter := congrArg List.length same
    rw [home, resolve_of_place writable.leads, List.length_append] at shorter
    simp at shorter
  · intro housed
    have course := order.run_course fresh main accounts distinct
    rw [ran] at course
    by_cases update : ∃ id transaction, order = .updateTransaction id transaction
    · obtain ⟨id, transaction, rfl⟩ := update
      rcases inner : (ledger.updateTransaction id transaction).outcome disk with
        ⟨failure | target, last⟩
      · rw [Order.run, outcome_bind, inner] at ran
        cases ran
        exact .of_same (updateTransaction_failed fresh inner)
      · obtain ⟨between, deleted, _⟩ := updateTransaction_done inner
        have folder := folder_of_deleted fresh deleted
        exact course.confined fun path place beside =>
          Order.target_of_writes main accounts housed fun _ _ _ => folder
    · refine course.confined fun path place beside =>
        Order.target_of_writes main accounts housed fun id transaction same => ?_
      exact absurd ⟨id, transaction, same⟩ update

end Confinement

/-- Adding a transaction to a directory whose root file is no text fails, and is confined all the
same: the file of the entry has the name of a month, so nothing is displaced. -/
theorem Ledger.coffee_confined : Disk.withUndecodableRoot.Fresh ∧
    Ledger.usual.Confined (.addTransaction { date := "2024-03-01" }) Disk.withUndecodableRoot
      (((Order.addTransaction { date := "2024-03-01" }).run Ledger.usual).outcome
        Disk.withUndecodableRoot).2 ∧
    Disk.entry? (((Order.addTransaction { date := "2024-03-01" }).run Ledger.usual).outcome
      Disk.withUndecodableRoot).2 ["data", "2024-03.bean"] ≠ none := by
  have fresh : Disk.withUndecodableRoot.Fresh := by decide +kernel
  have housed : ¬ (Order.addTransaction { date := "2024-03-01" }).Displaced Ledger.usual
      Disk.withUndecodableRoot := by
    rintro ⟨_, _, _, same, ⟨entry, rendered, dot⟩, _⟩
    cases same
    have named : (Transaction.render Ledger.usual.layout { date := "2024-03-01" }).toOption.map
        RenderedEntry.fileName = some "2024-03.bean".toList := by decide +kernel
    rw [rendered] at named
    have other : entry.fileName = "2024-03.bean".toList := Option.some.inj named
    rw [dot] at other
    cases other
  have confined := Ledger.run_confined_iff Ledger.usual fresh (by decide +kernel)
    (by decide +kernel) (by decide) (.addTransaction { date := "2024-03-01" }) Prod.mk.eta.symm
  exact ⟨fresh, confined.mpr housed, by decide +kernel⟩

/-- A ledger whose files have no extension and whose template renders to the directory. -/
def Ledger.dotted : Ledger where
  directory := FilePath.ofText "data"
  layout := { extension := "", periodFile := "." }

/-- A file takes the place of the directory, which is not in it. -/
theorem Ledger.dotted_displaced : Disk.withoutDirectory.Fresh ∧
    FilePath.IsPlain Ledger.dotted.layout.rootFile ∧
    FilePath.IsPlain Ledger.dotted.layout.accountsFile ∧
    Ledger.dotted.layout.accountsFile ≠ Ledger.dotted.layout.rootFile ∧
    ¬ Ledger.dotted.Confined (.addTransaction { date := "2024-01-05" }) Disk.withoutDirectory
      (((Order.addTransaction { date := "2024-01-05" }).run Ledger.dotted).outcome
        Disk.withoutDirectory).2 := by
  refine ⟨by decide, by decide +kernel, by decide +kernel, by decide, ?_⟩
  intro confined
  have differs : Disk.entry? (((Order.addTransaction { date := "2024-01-05" }).run
      Ledger.dotted).outcome Disk.withoutDirectory).2 ["data"] ≠
        Disk.withoutDirectory.entry? ["data"] := by decide +kernel
  obtain ⟨name, same, _⟩ := confined.within ["data"] differs
  have shorter := congrArg List.length same
  rw [show Ledger.dotted.home Disk.withoutDirectory = ["data".toList] by decide] at shorter
  cases shorter

end Daybook
