import Daybook.Command.Order
import Daybook.Proofs.Disk.Filing
import Daybook.Proofs.Disk.Keeping
import Daybook.Proofs.Disk.Recognizing

/-!
# Where an operation writes

Every operation on a ledger has a few files to write: the file of an id, the file that a date
belongs to, the accounts file and the root file. Along the course of an operation the disk differs
from what it was at the places of these files alone, and the content of the root file only grows.
Each step keeps to the course, whether or not it succeeds, and so does the whole operation.
-/
namespace Daybook

open Disk Command

/-! ## Operations and their files -/

/-- What an order does on the ledger, without anything that is shown. -/
def Command.Order.run (ledger : Ledger) : Order → Storing Unit
  | .listTransactions _ => do let _ ← Storing.look ledger.transactions
  | .addTransaction transaction => do let _ ← ledger.addTransaction transaction
  | .updateTransaction id transaction => do let _ ← ledger.updateTransaction id transaction
  | .deleteTransaction id => ledger.deleteTransaction id
  | .clearTransaction id => ledger.clearTransaction id
  | .unclearTransaction id => ledger.unclearTransaction id
  | .listAccounts _ => do let _ ← Storing.look ledger.accounts
  | .addAccount account => ledger.addAccount account
  | .updateAccount name account => ledger.updateAccount name account
  | .deleteAccount name => ledger.deleteAccount name
  | .closeAccount name date => ledger.closeAccount name date
  | .verify _ => do let _ ← Storing.look ledger.verify

/-- The file that a transaction is written to. -/
def Ledger.Receives (ledger : Ledger) (transaction : Transaction) (path : FilePath) : Prop :=
  ∃ entry, transaction.render ledger.layout = .ok entry ∧
    path = ledger.directory.child entry.fileName

/-- The files that an order may write. -/
def Command.Order.Writes (ledger : Ledger) (disk : Disk) : Order → FilePath → Prop
  | .addTransaction transaction, path => ledger.Receives transaction path ∨ path = ledger.rootPath
  | .updateTransaction id transaction, path => ledger.checkId id disk = .ok path ∨
      ledger.Receives transaction path ∨ path = ledger.rootPath
  | .deleteTransaction id, path => ledger.checkId id disk = .ok path
  | .clearTransaction id, path => ledger.checkId id disk = .ok path
  | .unclearTransaction id, path => ledger.checkId id disk = .ok path
  | .addAccount _, path => path = ledger.accountsPath ∨ path = ledger.rootPath
  | .updateAccount _ _, path => path = ledger.accountsPath ∨ path = ledger.rootPath
  | .deleteAccount _, path => path = ledger.accountsPath
  | .closeAccount _ _, path => path = ledger.accountsPath ∨ path = ledger.rootPath
  | .listTransactions _, _ => False
  | .listAccounts _, _ => False
  | .verify _, _ => False

/-! ## The course of an operation -/

/-- `after` differs from `before` at most at the places of some of the files, and what stands at
the root has only grown. -/
structure Course (files : FilePath → Prop) (root : Location) (before after : Disk) : Prop where
  along : ∃ written, (∀ path ∈ written, files path) ∧ Trail before after written
  grown : ∀ content, before.entry? root = some (.file content) →
    ∃ more, after.entry? root = some (.file (content ++ more))

namespace Course

variable {files : FilePath → Prop} {root : Location} {before after : Disk}

/-- Nothing has been written yet. -/
theorem start (files : FilePath → Prop) (root : Location) (disk : Disk) :
    Course files root disk disk := by
  refine ⟨⟨[], by simp, Trail.start disk⟩, fun content held => ⟨[], ?_⟩⟩
  rw [List.append_nil]
  exact held

/-- A disk on which every place holds what it held is on any course. -/
theorem of_same (same : Same before after) (files : FilePath → Prop) (root : Location) :
    Course files root before after := by
  refine ⟨⟨[], by simp, by simp, same.mono (by simp)⟩, fun content held => ⟨[], ?_⟩⟩
  rw [List.append_nil, ChangedAt.entry_eq same]
  exact held

/-- Along a course paths keep leading where they led. -/
theorem changed (course : Course files root before after) : ChangedAt before after fun place =>
    ∃ path beside, files path ∧ before.Writable path place beside := by
  obtain ⟨written, allowed, trail⟩ := course.along
  refine trail.changed.mono ?_
  rintro place ⟨path, member, led⟩
  obtain ⟨other, beside, writable⟩ := trail.writable path member
  rw [writable.leads] at led
  cases led
  exact ⟨path, beside, allowed path member, writable⟩

/-- A write keeps to the course if it is to one of the files, and keeps what stands at the root if
it goes there. -/
theorem write (fresh : before.Fresh) (ordinary : isTemporary root = false)
    (course : Course files root before after) {path : FilePath} (allowed : files path)
    {content : Bytes}
    (kept : ∀ beside, after.Writable path root beside → ∀ old,
      after.entry? root = some (.file old) → ∃ more, content = old ++ more) :
    Course files root before ((writeWhole path content).outcome after).2 := by
  rcases writeWhole_cases after path content with
    ⟨place, beside, last, writable, done, replaced⟩ | ⟨failure, failed⟩
  · rw [done]
    constructor
    · obtain ⟨written, inside, trail⟩ := course.along
      have ours := (writable_iff trail.changed path place beside).mp writable
      refine ⟨written ++ [path], ?_, trail.replaced fresh ours replaced⟩
      intro other member
      rcases List.mem_append.mp member with earlier | now
      · exact inside other earlier
      · exact List.mem_singleton.mp now ▸ allowed
    · intro old held
      obtain ⟨more, grown⟩ := course.grown old held
      have apart : root ≠ beside := by
        rintro rfl
        rw [isTemporary_of_place writable.leadsBeside] at ordinary
        cases ordinary
      by_cases here : root = place
      · subst here
        obtain ⟨further, rfl⟩ := kept beside writable _ grown
        exact ⟨more ++ further, by rw [replaced.entry, if_pos rfl, List.append_assoc]⟩
      · exact ⟨more, by rw [replaced.entry, if_neg here, if_neg apart, grown]⟩
  · rw [failed]
    exact course

end Course

open Storing

namespace Storing

variable {α β : Type} {property : Disk → Prop}

/-- What follows a known result has to keep the property for that result only. -/
theorem keeps_known_bind {known : Except Failure α} {second : α → Storing β}
    (late : ∀ value, known = .ok value → Keeps property (second value)) :
    Keeps property (Storing.known known >>= second) := by
  intro disk held
  rw [outcome_bind, outcome_known]
  cases known with
  | ok value => exact late value rfl disk held
  | error failure => exact held

/-- What follows a reading operation has to keep the property for what is found only. -/
theorem keeps_look_bind {looking : Looking α} {second : α → Storing β}
    (late : ∀ disk value, property disk → looking disk = .ok value →
      Keeps property (second value)) :
    Keeps property (look looking >>= second) := by
  intro disk held
  rw [outcome_bind, outcome_look]
  cases found : looking disk with
  | ok value => exact late disk value held found disk held
  | error failure => exact held

end Storing

section Steps

variable {files : FilePath → Prop} {root : Location} {before : Disk} (fresh : before.Fresh)
  (ordinary : isTemporary root = false)
include fresh ordinary

/-- Appending to one of the files keeps to the course. -/
theorem course_appendBytes {path : FilePath} (allowed : files path) (more : Bytes) :
    Keeps (Course files root before) (appendBytes path more) := by
  intro between course
  rw [appendBytes, outcome_bind, outcome_look]
  cases read : readIfPresent path between with
  | error failure => exact course
  | ok content =>
    apply course.write fresh ordinary allowed
    intro beside writable old held
    rcases readIfPresent_eq_ok_iff.mp read with ⟨place, led, found⟩ | ⟨absent, rfl⟩
    · rw [writable.leads] at led
      cases led
      rw [held] at found
      cases found
      exact ⟨more, rfl⟩
    · rw [entry_of_isPresent_false absent root writable.leads] at held
      cases held

/-- Writing one of the files that is not the root keeps to the course. -/
theorem course_writeWhole {path : FilePath} (allowed : files path)
    (apart : ∀ beside, ¬ before.Writable path root beside) (content : Bytes) :
    Keeps (Course files root before) (writeWhole path content) := by
  intro between course
  apply course.write fresh ordinary allowed
  intro beside writable
  exact absurd ((writable_iff course.changed path root beside).mp writable) (apart beside)

/-- Including a file in a root file that is among the files keeps to the course. -/
theorem course_ensureIncluded {path : FilePath} (allowed : files path) (fileName : Text) :
    Keeps (Course files root before) (ensureIncluded path fileName) := by
  refine (keeps_look _).bind fun content => (keeps_known _).bind fun text => ?_
  split
  · exact keeps_pure _
  · exact (course_appendBytes fresh ordinary allowed _).bind fun _ => keeps_pure _

/-- Appending an entry keeps to the course if its file and the root file are among the files. -/
theorem course_appendEntry {directory : FilePath} {layout : Layout} {entry : RenderedEntry}
    (allowed : files (directory.child entry.fileName)) (main : files (layout.rootPath directory)) :
    Keeps (Course files root before) (appendEntry directory layout entry) :=
  (course_appendBytes fresh ordinary allowed _).bind fun _ =>
    (course_ensureIncluded fresh ordinary main _).bind fun _ => keeps_pure _

/-- Appending to the accounts file does so likewise. Both writes only append, so that nothing is
asked about where the two paths lead. -/
theorem course_appendToAccounts {directory : FilePath} {layout : Layout}
    (allowed : files (layout.accountsPath directory)) (main : files (layout.rootPath directory))
    (content : Bytes) (text : Text) :
    Keeps (Course files root before) (appendToAccounts directory layout content text) :=
  (course_appendBytes fresh ordinary allowed _).bind fun _ =>
    (course_ensureIncluded fresh ordinary main _).bind fun _ => keeps_pure _

/-- Cutting a transaction out of the file of an id keeps to the course. -/
theorem course_deleteTransaction {id : Text}
    (allowed : ∀ decoded, Identifier.decode id = .ok decoded →
      files (FilePath.ofText decoded.path) ∧
      ∀ beside, ¬ before.Writable (FilePath.ofText decoded.path) root beside) :
    Keeps (Course files root before) (Daybook.deleteTransaction id) := by
  apply keeps_known_bind
  intro decoded known
  obtain ⟨inside, apart⟩ := allowed decoded known
  exact (keeps_look _).bind fun _ => (keeps_known _).bind fun _ =>
    course_writeWhole fresh ordinary inside apart _

/-- Replacing a flag in the file of an id keeps to the course. -/
theorem course_setFlag {id : Text} (flag : Text)
    (allowed : ∀ decoded, Identifier.decode id = .ok decoded →
      files (FilePath.ofText decoded.path) ∧
      ∀ beside, ¬ before.Writable (FilePath.ofText decoded.path) root beside) :
    Keeps (Course files root before) (setFlag id flag) := by
  refine (keeps_known _).bind fun _ => keeps_known_bind fun decoded known => ?_
  obtain ⟨inside, apart⟩ := allowed decoded known
  refine (keeps_look _).bind fun ⟨content, entry⟩ => ?_
  dsimp only
  split
  · exact keeps_pure _
  · exact (keeps_known _).bind fun _ => course_writeWhole fresh ordinary inside apart _

/-- So opening an account keeps to the course. -/
theorem course_addAccount {directory : FilePath} {layout : Layout}
    (allowed : files (layout.accountsPath directory)) (main : files (layout.rootPath directory))
    (account : Account) :
    Keeps (Course files root before) (Daybook.addAccount directory layout account) := by
  have appends := course_appendToAccounts fresh ordinary allowed main
  refine (keeps_known _).bind fun text => (keeps_look _).bind fun ⟨content, page⟩ => ?_
  dsimp only
  split
  · exact (keeps_throw _).bind fun _ => appends content text
  · exact appends content text

/-- And so does closing one. -/
theorem course_closeAccount {directory : FilePath} {layout : Layout}
    (allowed : files (layout.accountsPath directory)) (main : files (layout.rootPath directory))
    (name date : Text) :
    Keeps (Course files root before) (Daybook.closeAccount directory layout name date) := by
  refine (keeps_known _).bind fun text => (keeps_look _).bind fun ⟨content, page⟩ => ?_
  dsimp only
  split
  · exact keeps_throw _
  · split
    · exact course_appendToAccounts fresh ordinary allowed main content _
    · exact keeps_throw _

/-- Deleting an account rewrites its file. It keeps to the course where this file is not the one at
the root, which need not grow otherwise. -/
theorem course_deleteAccount {directory : FilePath} {layout : Layout}
    (allowed : files (layout.accountsPath directory))
    (apart : ∀ beside, ¬ before.Writable (layout.accountsPath directory) root beside)
    (name : Text) :
    Keeps (Course files root before) (Daybook.deleteAccount directory layout name) := by
  have writes := course_writeWhole fresh ordinary allowed apart
  refine (keeps_look _).bind fun ⟨content, page⟩ => ?_
  dsimp only
  split
  · exact (keeps_throw _).bind fun _ => (keeps_known _).bind fun _ => writes _
  · exact (keeps_known _).bind fun _ => writes _

end Steps

/-! ## The names of the files -/

/-- A path that has names is its last name in its parent. -/
theorem FilePath.below_parent_name {path : FilePath} (named : path.names ≠ []) :
    path.parent.below path.name = path := by
  rw [below, parent, name, List.getLast?_eq_some_getLast named, Option.getD_some,
    List.dropLast_append_getLast]

/-- A file that is written has the last name of its path. -/
theorem Disk.Writable.name {disk : Disk} {path : FilePath} {place beside : Location}
    (writable : disk.Writable path place beside) : place.getLast? = some path.name := by
  have walked := walk_of_place writable.leads
  rw [← FilePath.below_parent_name writable.named, FilePath.below_names] at walked
  exact getLast_walk writable.plain walked

/-- What a checked id leads to depends on the working directory alone. -/
theorem Ledger.checkId_congr {ledger : Ledger} {before after : Disk}
    (current : after.current = before.current) (id : Text) :
    ledger.checkId id after = ledger.checkId id before := by
  simp only [checkId, placeOf, current]

section Names

variable {ledger : Ledger} {disk : Disk} {path : FilePath} {place beside : Location}
  {name id : Text}

/-- The directory of a ledger, as long as the working directory stays. -/
def Ledger.home (ledger : Ledger) (disk : Disk) : Location :=
  ledger.directory.resolve disk.current

/-- A file of the directory is written below it. -/
theorem Ledger.place_of_below
    (writable : disk.Writable (ledger.directory.below name) place beside) :
    place = ledger.home disk ++ [name] := by
  have down := writable.plain
  rw [FilePath.below_name] at down
  rw [home, ← FilePath.resolve_below down, resolve_of_place writable.leads]

/-- The file of a checked id is written below the directory, and its name is that of a ledger file
other than the root file. -/
theorem Ledger.place_of_checkId (checked : ledger.checkId id disk = .ok path)
    (writable : disk.Writable path place beside) : place = ledger.home disk ++ [path.name] ∧
      FilePath.extensionOf path.name = ledger.layout.extension ∧
      path.name ≠ ledger.layout.rootFile := by
  obtain ⟨decoded, _, located⟩ := bind_eq_ok_iff.mp checked
  obtain ⟨found, led, housed⟩ := bind_eq_ok_iff.mp located
  obtain ⟨directory, leads, passed⟩ := bind_eq_ok_iff.mp housed
  split at passed
  · cases passed
  · next accepted =>
    cases passed
    rw [placeOf_of_place writable.leads] at led
    cases led
    rw [placeOf] at leads
    split at leads
    · cases leads
      simp only [not_or, not_not] at accepted
      refine ⟨?_, accepted.2.1, accepted.2.2⟩
      rw [home, ← accepted.1, List.dropLast_append_getLast? _ writable.name]
    · cases leads

end Names

section Run

variable {ledger : Ledger} {disk : Disk}

/-- The place of the root file. -/
def Ledger.rootPlace (ledger : Ledger) (disk : Disk) : Location :=
  ledger.home disk ++ [ledger.layout.rootFile]

/-- A change to the file of an id keeps to the course. -/
theorem Ledger.course_checkId {files : FilePath → Prop} {id : Text} {operation : Storing Unit}
    (allowed : ∀ path, ledger.checkId id disk = .ok path → files path)
    (keeps : (∀ decoded, Identifier.decode id = .ok decoded →
        files (FilePath.ofText decoded.path) ∧
          ∀ beside, ¬ disk.Writable (FilePath.ofText decoded.path) (ledger.rootPlace disk) beside) →
      Storing.Keeps (Course files (ledger.rootPlace disk) disk) operation) :
    Storing.Keeps (Course files (ledger.rootPlace disk) disk)
      (Storing.look (ledger.checkId id) >>= fun _ => operation) := by
  apply keeps_look_bind
  intro between path course checked
  apply keeps
  intro decoded known
  rw [checkId_congr course.changed.current] at checked
  obtain rfl := path_of_checkId checked known
  refine ⟨allowed _ checked, fun beside writable => ?_⟩
  obtain ⟨_, _, other⟩ := place_of_checkId checked writable
  have last := writable.name
  rw [rootPlace, List.getLast?_concat] at last
  exact other (Option.some.inj last).symm

variable (fresh : disk.Fresh) (main : FilePath.IsPlain ledger.layout.rootFile)
include fresh main

omit fresh in
/-- The place of the root file is no place of a temporary file. -/
theorem Ledger.isTemporary_rootPlace : isTemporary (ledger.rootPlace disk) = false := by
  rw [isTemporary, rootPlace, List.getLast?_concat]
  exact main.lasting

/-- Deleting a transaction by its id keeps to the course: the file of the id is checked not to be
the root file. -/
theorem Ledger.course_deleteTransaction {files : FilePath → Prop} {id : Text}
    (allowed : ∀ path, ledger.checkId id disk = .ok path → files path) :
    Storing.Keeps (Course files (ledger.rootPlace disk) disk) (ledger.deleteTransaction id) :=
  course_checkId allowed
    (Daybook.course_deleteTransaction fresh (isTemporary_rootPlace main))

/-- So does marking a transaction. -/
theorem Ledger.course_mark {files : FilePath → Prop} {id : Text}
    (allowed : ∀ path, ledger.checkId id disk = .ok path → files path) (flag : Text) :
    Storing.Keeps (Course files (ledger.rootPlace disk) disk)
      (Storing.look (ledger.checkId id) >>= fun _ => setFlag id flag) :=
  course_checkId allowed (course_setFlag fresh (isTemporary_rootPlace main) flag)

/-- Adding a transaction writes the file that receives it and the root file. -/
theorem Ledger.course_addTransaction {files : FilePath → Prop} {transaction : Transaction}
    (allowed : ∀ path, ledger.Receives transaction path → files path)
    (root : files ledger.rootPath) :
    Storing.Keeps (Course files (ledger.rootPlace disk) disk)
      (ledger.addTransaction transaction) := by
  apply keeps_known_bind
  intro entry rendered
  have received := allowed _ ⟨entry, rendered, rfl⟩
  exact course_appendEntry fresh (isTemporary_rootPlace main) received root

variable (accounts : FilePath.IsPlain ledger.layout.accountsFile)
  (distinct : ledger.layout.accountsFile ≠ ledger.layout.rootFile)
include accounts distinct

/-- Deleting an account writes the accounts file alone. It is not the root file, since the two have
different names in the same directory, and so the root has not even grown. -/
theorem Ledger.course_deleteAccount {files : FilePath → Prop} (allowed : files ledger.accountsPath)
    (name : Text) :
    Storing.Keeps (Course files (ledger.rootPlace disk) disk) (ledger.deleteAccount name) := by
  apply Daybook.course_deleteAccount fresh (isTemporary_rootPlace main) allowed
  intro beside writable
  rw [Layout.accountsPath, accounts.child] at writable
  have last := writable.name
  rw [rootPlace, List.getLast?_concat, FilePath.below_name] at last
  exact distinct (Option.some.inj last).symm

omit accounts distinct in
/-- An update that fails has put everything back, and one that succeeds has deleted and added. -/
theorem Ledger.course_updateTransaction {files : FilePath → Prop} {id : Text}
    {transaction : Transaction} (deleted : ∀ path, ledger.checkId id disk = .ok path → files path)
    (added : ∀ path, ledger.Receives transaction path → files path)
    (root : files ledger.rootPath) : Course files (ledger.rootPlace disk) disk
      ((ledger.updateTransaction id transaction).outcome disk).2 := by
  rcases ran : (ledger.updateTransaction id transaction).outcome disk with ⟨failure | path, after⟩
  · exact .of_same (updateTransaction_failed fresh ran) _ _
  · obtain ⟨between, first, second⟩ := updateTransaction_done ran
    have middle := course_deleteTransaction fresh main deleted disk (.start files _ disk)
    rw [first] at middle
    have last := course_addTransaction fresh main added root between middle
    rw [second] at last
    exact last

/-- An update of an account that fails has put everything back, and one that succeeds has deleted
and added. -/
theorem Ledger.course_updateAccount {files : FilePath → Prop} (allowed : files ledger.accountsPath)
    (root : files ledger.rootPath) (name : Text) (account : Account) :
    Course files (ledger.rootPlace disk) disk
      ((ledger.updateAccount name account).outcome disk).2 := by
  rcases ran : (ledger.updateAccount name account).outcome disk with ⟨failure | ⟨⟩, after⟩
  · exact .of_same (updateAccount_failed fresh ran) _ _
  · obtain ⟨between, first, second⟩ := updateAccount_done ran
    have middle := course_deleteAccount fresh main accounts distinct allowed name disk
      (.start files _ disk)
    rw [first] at middle
    have last := course_addAccount fresh (isTemporary_rootPlace main) allowed root account between
      middle
    rw [show Daybook.addAccount _ _ account = ledger.addAccount account from rfl, second] at last
    exact last

/-- Every operation keeps to its course, whether or not it succeeds. One case for each operation, in
which the files that it may write are named. What an operation only reads leaves the disk where it
is, and chains keep to the course because their parts do. -/
theorem Command.Order.run_course (order : Order) :
    Course (order.Writes ledger disk) (ledger.rootPlace disk) disk
      ((order.run ledger).outcome disk).2 := by
  have start := Course.start (order.Writes ledger disk) (ledger.rootPlace disk) disk
  have ordinary : isTemporary (ledger.rootPlace disk) = false :=
    Ledger.isTemporary_rootPlace main
  cases order with
  | listTransactions json => exact ((keeps_look _).bind fun _ => keeps_pure _) disk start
  | listAccounts json => exact ((keeps_look _).bind fun _ => keeps_pure _) disk start
  | verify json => exact ((keeps_look _).bind fun _ => keeps_pure _) disk start
  | addTransaction transaction =>
    have allowed : ∀ path, ledger.Receives transaction path →
        (Order.addTransaction transaction).Writes ledger disk path := fun path => Or.inl
    exact ((Ledger.course_addTransaction fresh main allowed (Or.inr rfl)).bind
      fun _ => keeps_pure _) disk start
  | updateTransaction id transaction =>
    have deleted : ∀ path, ledger.checkId id disk = .ok path →
        (Order.updateTransaction id transaction).Writes ledger disk path := fun path => Or.inl
    have added : ∀ path, ledger.Receives transaction path →
        (Order.updateTransaction id transaction).Writes ledger disk path :=
      fun path received => Or.inr (Or.inl received)
    have course := Ledger.course_updateTransaction fresh main deleted added (Or.inr (Or.inr rfl))
    rw [run, outcome_bind]
    revert course
    rcases (ledger.updateTransaction id transaction).outcome disk with ⟨failure | path, after⟩
    · exact fun course => course
    · exact fun course => course
  | deleteTransaction id =>
    have allowed : ∀ path, ledger.checkId id disk = .ok path →
        (Order.deleteTransaction id).Writes ledger disk path := fun path checked => checked
    exact Ledger.course_deleteTransaction fresh main allowed disk start
  | clearTransaction id =>
    have allowed : ∀ path, ledger.checkId id disk = .ok path →
        (Order.clearTransaction id).Writes ledger disk path := fun path checked => checked
    exact Ledger.course_mark fresh main allowed clearedFlag disk start
  | unclearTransaction id =>
    have allowed : ∀ path, ledger.checkId id disk = .ok path →
        (Order.unclearTransaction id).Writes ledger disk path := fun path checked => checked
    exact Ledger.course_mark fresh main allowed pendingFlag disk start
  | addAccount account =>
    exact course_addAccount fresh ordinary (Or.inl rfl) (Or.inr rfl) account disk start
  | updateAccount name account =>
    exact Ledger.course_updateAccount fresh main accounts distinct (Or.inl rfl) (Or.inr rfl) name
      account
  | closeAccount name date =>
    exact course_closeAccount fresh ordinary (Or.inl rfl) (Or.inr rfl) name date disk start
  | deleteAccount name =>
    have allowed : (Order.deleteAccount name).Writes ledger disk ledger.accountsPath := rfl
    exact Ledger.course_deleteAccount fresh main accounts distinct allowed name disk start

end Run

end Daybook
