import Mathlib.Data.List.ReduceOption
import Daybook.Proofs.Ledger.Bookkeeping
import Daybook.Proofs.Ledger.Registering

/-!
# Working on a ledger

Operations on transactions and operations on accounts come one after the other, in any order. What
they do to a directory that holds books is what they do to a store of transactions and to a roll of
accounts: an operation either does its part there or leaves them as they are. A run that begins
with an empty directory leaves books.
-/
namespace Daybook

open Disk

/-! ## Operations -/

/-- An operation on transactions. -/
inductive Booking where
  | add (transaction : Transaction)
  | update (id : Text) (transaction : Transaction)
  | delete (id : Text)
  | clear (id : Text)
  | unclear (id : Text)
  | list

/-- An operation on accounts. -/
inductive Registration where
  | add (account : Account)
  | update (name : Text) (account : Account)
  | delete (name : Text)
  | close (name date : Text)

/-- An operation on a ledger. -/
inductive Operation where
  | book (booking : Booking)
  | register (registration : Registration)

namespace Booking

/-- What the operation does, without the path or the list that it gives. -/
def run (ledger : Ledger) : Booking → Storing Unit
  | add transaction => do let _ ← ledger.addTransaction transaction
  | update id transaction => do let _ ← ledger.updateTransaction id transaction
  | delete id => ledger.deleteTransaction id
  | clear id => ledger.clearTransaction id
  | unclear id => ledger.unclearTransaction id
  | list => do let _ ← Storing.look ledger.transactions

/-- The transaction of the operation is plain. -/
def Lexical : Booking → Prop
  | add transaction => transaction.Plain
  | update _ transaction => transaction.Plain
  | _ => True

end Booking

namespace Registration

def run (ledger : Ledger) : Registration → Storing Unit
  | add account => ledger.addAccount account
  | update name account => ledger.updateAccount name account
  | delete name => ledger.deleteAccount name
  | close name date => ledger.closeAccount name date

/-- The account of the operation is one of words of the ledger language. -/
def Lexical : Registration → Prop
  | add account => account.Lexical
  | update _ account => account.Lexical
  | _ => True

end Registration

namespace Operation

def run (ledger : Ledger) : Operation → Storing Unit
  | book booking => booking.run ledger
  | register registration => registration.run ledger

/-- The record of the operation is one of words of the ledger language. -/
def Lexical : Operation → Prop
  | book booking => booking.Lexical
  | register registration => registration.Lexical

end Operation

/-- The disk after operations, whether they succeed or fail. -/
def Ledger.after (ledger : Ledger) (disk : Disk) (operations : List Operation) : Disk :=
  operations.foldl (fun disk operation => ((operation.run ledger).outcome disk).2) disk

/-! ## Stores and rolls -/

/-- The transactions of every month file as they are listed, but for their ids. -/
abbrev Store := Text → List Transaction

namespace Store

def blank : Store := fun _ => []

/-- A further transaction behind those of its month. -/
def enter (store : Store) (slip : Slip) : Store :=
  Function.update store slip.date.monthFile (store slip.date.monthFile ++ [slip.record])

/-- The store without the transaction of a month with the given number. -/
def remove (store : Store) (target : Text × Nat) : Store :=
  Function.update store target.1 ((store target.1).eraseIdx target.2)

/-- The store with another flag at the transaction of a month with the given number. -/
def mark (flag : Text) (store : Store) (target : Text × Nat) : Store :=
  Function.update store target.1
    ((store target.1).modify target.2 fun transaction => { transaction with flag })

end Store

instance (directory : FilePath) (name : Text) : Decidable (directory.Fits name) :=
  decidable_of_iff (FilePath.IsPlain name ∧ '\x00' ∉ name ∧
      size (directory.below (FilePath.hidden name)).toText ≤ longestPath ∧
      size (FilePath.hidden name) ≤ longestName)
    ⟨fun ⟨plain, usable, room, narrow⟩ => ⟨plain, usable, room, narrow⟩,
      fun fits => ⟨fits.plain, fits.usable, fits.room, fits.narrow⟩⟩

/-- The slip of a transaction that is accepted: its date is a date, no account of it has a blank,
and the file of its month fits into the directory. -/
def Ledger.accepted? (ledger : Ledger) (transaction : Transaction) : Option Slip := do
  let date ← (Date.read transaction.date).toOption
  if (∀ posting ∈ transaction.postings, posting.account.any Text.isBlank = false) ∧
      ledger.directory.Fits date.monthFile then
    some ⟨transaction, date⟩
  else none

/-- What an operation does to a store, when `target` is what ids lead to. -/
def Booking.apply (ledger : Ledger) (target : Text → Option (Text × Nat)) :
    Booking → Store → Store
  | add transaction, store => (ledger.accepted? transaction).elim store store.enter
  | update id transaction, store =>
    match target id, ledger.accepted? transaction with
    | some place, some slip => (store.remove place).enter slip
    | _, _ => store
  | delete id, store => (target id).elim store store.remove
  | clear id, store => (target id).elim store (store.mark clearedFlag)
  | unclear id, store => (target id).elim store (store.mark pendingFlag)
  | list, store => store

/-- The accounts that are registered, in the order of their registration. -/
abbrev Roll := List Account

namespace Roll

/-- A further account, with another name than those before it. -/
def enroll (account : Account) (roll : Roll) : Except Failure Roll :=
  if account.name ∈ roll.map Account.name then .error (.alreadyOpen account.name)
  else .ok (roll ++ [account])

/-- The roll without the account of a name. -/
def strike (name : Text) (roll : Roll) : Except Failure Roll :=
  if name ∈ roll.map Account.name then .ok (roll.filter fun account => account.name ≠ name)
  else .error (.noAccount name)

/-- The roll with the account of a name closed on a day. -/
def close (name : Text) (day : Date) (roll : Roll) : Except Failure Roll :=
  match roll.find? fun account => account.name = name with
  | none => .error (.noAccount name)
  | some account =>
    match account.closeDate with
    | some before => .error (.alreadyClosed name before)
    | none => .ok (roll.map fun held =>
        if held.name = name then { held with closeDate := some day.iso } else held)

end Roll

/-- An account as it is registered, with its dates in the standard form. It is refused if there is
a blank in its name. -/
def Account.accepted (account : Account) : Except Failure Account := do
  if account.name.any Text.isBlank then .error (.notAWord "account" account.name)
  else
    let opened ← Date.read account.openDate
    let closed ← account.closeDate.mapM Date.read
    return account.recorded opened closed

/-- What an operation does to a roll, or how it fails. -/
def Registration.apply : Registration → Roll → Except Failure Roll
  | add account, roll => do
    let record ← account.accepted
    roll.enroll record
  | update name account, roll => do
    let record ← account.accepted
    let others ← roll.strike name
    others.enroll record
  | delete name, roll => roll.strike name
  | close name date, roll => do
    let day ← Date.read date
    roll.close name day

/-- The roll after an operation. Where the operation fails it is the same. -/
def Registration.registered (registration : Registration) (roll : Roll) : Roll :=
  (registration.apply roll).toOption.getD roll

/-! ## Operations on transactions -/

namespace Books

variable {books : Books} {name : Text}

/-- The store of the slips that are still there. -/
def store (books : Books) : Store :=
  fun name => (books.sheets name).reduceOption.map Slip.record

/-- The store after filing a sheet differs at one name, where it holds the records of the slips
still on the sheet. -/
theorem store_file (books : Books) (name : Text) (sheet : Sheet) : (books.file name sheet).store =
    Function.update books.store name (sheet.reduceOption.map Slip.record) := by
  funext held
  rw [store, sheets_file]
  by_cases own : held = name
  · rw [own, Function.update_self, Function.update_self]
  · rw [Function.update_of_ne own, Function.update_of_ne own, store]

/-- Entering a slip into the books enters its record into the store. The two bookkeepings run in
step, which is the refinement of a single addition. -/
theorem store_enter (books : Books) (slip : Slip) :
    (books.enter slip).store = books.store.enter slip := by
  rw [enter, store_file, List.reduceOption_append, List.map_append]
  rfl

variable {before behind : Sheet} {slip : Slip}

/-- Where a sheet is divided at a slip, its records are divided at the record of that slip, whatever
slips have been taken out on either side. -/
theorem store_split (split : books.sheets name = before ++ some slip :: behind) :
    books.store name = before.reduceOption.map Slip.record ++
      slip.record :: behind.reduceOption.map Slip.record := by
  rw [store, split, List.reduceOption_append, List.reduceOption_cons_of_some, List.map_append,
    List.map_cons]

/-- Without a slip its record is gone. -/
theorem store_remove (split : books.sheets name = before ++ some slip :: behind) :
    (books.file name (before ++ none :: behind)).store =
      books.store.remove (name, before.reduceOption.length) := by
  rw [store_file, Store.remove, store_split split, List.reduceOption_append,
    List.reduceOption_cons_of_none, List.map_append]
  simp [List.eraseIdx_append_of_length_le]

/-- With another flag on a slip its record has another flag. -/
theorem store_mark (split : books.sheets name = before ++ some slip :: behind) (flag : Text) :
    (books.file name (before ++ some (slip.marked flag) :: behind)).store =
      books.store.mark flag (name, before.reduceOption.length) := by
  have marked : (slip.marked flag).record = { slip.record with flag } := rfl
  have size : before.reduceOption.length = (before.reduceOption.map Slip.record).length + 0 :=
    (List.length_map _).symm
  rw [store_file, Store.mark, store_split split, List.reduceOption_append,
    List.reduceOption_cons_of_some, List.map_append, List.map_cons, marked, List.modify, size,
    List.modifyTailIdx_add]
  rfl

end Books

/-- What only drops the value of an operation leaves what the operation leaves. -/
theorem Storing.outcome_discard {α : Type} (operation : Storing α) (disk : Disk) :
    (do let _ ← operation : Storing Unit).outcome disk =
      ((operation.outcome disk).1.map fun _ => (), (operation.outcome disk).2) := by
  rcases ran : operation.outcome disk with ⟨failure | value, after⟩ <;>
    simp only [Storing.outcome_bind, ran] <;> rfl

namespace Ledger

variable {ledger : Ledger} {transaction : Transaction} {disk : Disk} {home : Location}
  {books : Books}

/-- A plain transaction is accepted exactly if it can be added. -/
theorem accepted?_eq_some_iff (plain : transaction.Plain) {slip : Slip} :
    ledger.accepted? transaction = some slip ↔ slip.transaction = transaction ∧
      transaction.Solid ∧ Date.read transaction.date = .ok slip.date ∧
      ledger.directory.Fits slip.date.monthFile := by
  have solid : transaction.Solid ↔
      ∀ posting ∈ transaction.postings, posting.account.any Text.isBlank = false := by
    simpa [plain.said] using plain.lexical.solid_iff
  rw [solid, accepted?]
  cases read : Date.read transaction.date with
  | error failure => simp [Except.toOption]
  | ok date =>
    obtain ⟨own, day⟩ := slip
    simp only [Except.toOption, Option.bind_eq_bind, Option.bind_some, Option.ite_none_right_eq_some,
      Option.some.injEq, Slip.mk.injEq, Except.ok.injEq]
    constructor
    · rintro ⟨⟨plain, fits⟩, rfl, rfl⟩
      exact ⟨rfl, plain, rfl, fits⟩
    · rintro ⟨rfl, plain, rfl, fits⟩
      exact ⟨⟨plain, fits⟩, rfl, rfl⟩

/-- A plain transaction that is not accepted cannot be added. -/
theorem accepted?_eq_none (plain : transaction.Plain)
    (refused : ledger.accepted? transaction = none) :
    ¬ (transaction.Solid ∧ ∃ date, Date.read transaction.date = .ok date ∧
      ledger.directory.Fits date.monthFile) := by
  rintro ⟨solid, date, read, fits⟩
  have accepted : ledger.accepted? transaction = some ⟨transaction, date⟩ :=
    (accepted?_eq_some_iff plain).mpr ⟨rfl, solid, read, fits⟩
  rw [refused] at accepted
  cases accepted

/-- Where an operation on the transaction of an id changes the books, it changes the store. -/
theorem Acts.stored {α : Type} {id : Text} {operation : Storing α}
    {next : Text → Sheet → Slip → Sheet → Books}
    (acts : ledger.Acts disk home books id operation next) {change : Store → Text × Nat → Store}
    (store : ∀ name before slip behind, books.sheets name = before ++ some slip :: behind →
      (next name before slip behind).store =
        change books.store (name, before.reduceOption.length) ∧
      (next name before slip behind).chart = books.chart) :
    ∃ after, ledger.Keeps (operation.outcome disk).2 home after ∧ after.chart = books.chart ∧
      after.store = (ledger.target? disk id).elim books.store (change books.store) := by
  cases target : ledger.target? disk id with
  | none => exact ⟨books, acts.unable target, rfl, rfl⟩
  | some place =>
    obtain ⟨name, before, slip, behind, value, after, rfl, _, split, done, kept⟩ :=
      acts.done place target
    obtain ⟨same, chart⟩ := store name before slip behind split
    rw [done]
    exact ⟨_, kept, chart, same⟩

namespace Keeps

/-- An operation on transactions changes the store, and leaves the chart as it is. One case for each
operation, with the place that its id leads to or the slip that is accepted. -/
theorem book (keeps : ledger.Keeps disk home books) {booking : Booking}
    (lexical : booking.Lexical) :
    ∃ next, ledger.Keeps ((booking.run ledger).outcome disk).2 home next ∧
      next.chart = books.chart ∧
      next.store = booking.apply ledger (ledger.target? disk) books.store := by
  cases booking with
  | add transaction =>
    rw [Booking.run, Storing.outcome_discard, Booking.apply]
    cases accepted : ledger.accepted? transaction with
    | none =>
      obtain ⟨failure, failed⟩ :=
        keeps.addTransaction_refused (accepted?_eq_none lexical accepted)
      rw [failed]
      exact ⟨books, keeps, rfl, rfl⟩
    | some slip =>
      obtain ⟨rfl, solid, read, fits⟩ := (accepted?_eq_some_iff lexical).mp accepted
      obtain ⟨after, added, kept⟩ := keeps.addTransaction lexical solid read fits
      rw [added]
      exact ⟨_, kept, rfl, books.store_enter slip⟩
  | update id transaction =>
    rw [Booking.run, Storing.outcome_discard, Booking.apply]
    cases accepted : ledger.accepted? transaction with
    | none =>
      obtain ⟨failure, after, failed, kept⟩ :=
        keeps.updateTransaction_refused id (accepted?_eq_none lexical accepted)
      rw [failed]
      refine ⟨books, kept, rfl, ?_⟩
      cases ledger.target? disk id <;> rfl
    | some slip =>
      obtain ⟨rfl, solid, read, fits⟩ := (accepted?_eq_some_iff lexical).mp accepted
      let change (store : Store) (place : Text × Nat) : Store := (store.remove place).enter slip
      have acts := keeps.updateTransaction id lexical solid read fits
      obtain ⟨after, kept, chart, store⟩ := @Acts.stored _ _ _ _ _ _ _ _ acts change
        fun name before _ behind split =>
          ⟨(Books.store_enter _ slip).trans (by rw [Books.store_remove split]), rfl⟩
      refine ⟨after, kept, chart, store.trans ?_⟩
      cases ledger.target? disk id <;> rfl
  | delete id =>
    exact (keeps.deleteTransaction id).stored
      fun _ _ _ _ split => ⟨Books.store_remove split, rfl⟩
  | clear id =>
    exact (keeps.setFlag id (Or.inl rfl) rfl).stored
      fun _ _ _ _ split => ⟨Books.store_mark split clearedFlag, rfl⟩
  | unclear id =>
    exact (keeps.setFlag id (Or.inr rfl) rfl).stored
      fun _ _ _ _ split => ⟨Books.store_mark split pendingFlag, rfl⟩
  | list =>
    rw [Booking.run, Storing.outcome_discard, Storing.outcome_look]
    exact ⟨books, keeps, rfl, rfl⟩

end Keeps

end Ledger

/-! ## Operations on accounts -/

section Accounts

variable {account : Account}

/-- An account that is accepted can be written. -/
theorem Account.Lexical.accepted_eq_ok_iff (lexical : account.Lexical) {record : Account} :
    account.accepted = .ok record ↔
      ∃ opened closed, account.Writes opened closed ∧ record = account.recorded opened closed := by
  have name : IsSolid account.name ↔ account.name.any Text.isBlank = false := by
    simpa using lexical.name.account_solid_iff
  unfold Account.accepted
  constructor
  · intro accepted
    split at accepted
    · cases accepted
    · next plain =>
      obtain ⟨opened, readOpened, accepted⟩ := bind_eq_ok_iff.mp accepted
      obtain ⟨closed, readClosed, accepted⟩ := bind_eq_ok_iff.mp accepted
      cases accepted
      exact ⟨opened, closed, ⟨name.mpr (by simpa using plain), fun currency member =>
        (lexical.currencies currency member).currency_solid, readOpened, readClosed⟩, rfl⟩
  · rintro ⟨opened, closed, writes, rfl⟩
    rw [if_neg (by simpa using name.mp writes.name)]
    exact bind_eq_ok_iff.mpr ⟨opened, writes.opened, bind_eq_ok_iff.mpr ⟨closed, writes.closed, rfl⟩⟩

/-- An account that is not accepted is not written for the same reason. The checks come in the same
order in both, and the words of an account of the language are not at fault. -/
theorem Account.Lexical.toText_eq_error (lexical : account.Lexical) {failure : Failure}
    (refused : account.accepted = .error failure) : account.toText = .error failure := by
  have currencies : account.currencies.forM (checkWord "currency") = .ok () :=
    forM_eq_ok_iff.mpr fun currency member =>
      checkWord_eq_ok_iff.mpr (lexical.currencies currency member).currency_solid
  unfold Account.accepted at refused
  unfold Account.toText
  split at refused
  · next blank =>
    have name : checkWord "account" account.name = .error (.notAWord "account" account.name) :=
      checkWord_of_not_solid fun solid => by simp [solid.2] at blank
    cases refused
    simp only [name, bind, Except.bind]
  · next plain =>
    have name : checkWord "account" account.name = .ok () :=
      checkWord_eq_ok_iff.mpr (lexical.name.account_solid_iff.mpr (by simpa using plain))
    cases opened : Date.read account.openDate with
    | error fault =>
      simp only [opened, bind, Except.bind] at refused
      simp only [name, bind, Except.bind]
      cases refused
      rfl
    | ok date =>
      simp only [opened, bind, Except.bind] at refused
      simp only [name, currencies, bind, Except.bind]
      cases closeDate : account.closeDate with
      | none =>
        rw [closeDate] at refused
        cases refused
      | some day =>
        cases closed : Date.read day with
        | error fault =>
          simp only [closeDate, Option.mapM_some, closed, Functor.map, Except.map] at refused
          simp only [closingText, closed, bind, Except.bind]
          cases refused
          rfl
        | ok closing =>
          simp only [closeDate, Option.mapM_some, closed, Functor.map, Except.map] at refused
          cases refused

end Accounts

/-- An operation leaves the books with another chart there, or the same books, and the chart
describes a given roll. If there is none, then the operation fails, and the chart describes the same
roll as before. -/
structure Ledger.Registers (ledger : Ledger) (disk : Disk) (home : Location) (books : Books)
    (roll : Roll) (operation : Storing Unit) (result : Except Failure Roll) : Prop where
  kept : ∃ next, ledger.Keeps (operation.outcome disk).2 home next ∧ next.sheets = books.sheets ∧
    next.chart.Describes (result.toOption.getD roll)
  same : (operation.outcome disk).1 = result.map fun _ => ()

namespace Ledger.Keeps

variable {ledger : Ledger} {disk after : Disk} {home : Location} {books next : Books} {roll : Roll}

/-- What fails and leaves the books as they are leaves the roll as it is. -/
theorem unregistered (keeps : ledger.Keeps after home books) (describes : books.chart.Describes roll)
    {operation : Storing Unit} {failure : Failure}
    (failed : operation.outcome disk = (.error failure, after)) :
    ledger.Registers disk home books roll operation (.error failure) := by
  refine ⟨?_, congrArg Prod.fst failed⟩
  rw [failed]
  exact ⟨books, keeps, rfl, describes⟩

/-- What succeeds leaves the roll that the chart then describes. -/
theorem registered (keeps : ledger.Keeps after home next) (books : Books)
    (sheets : next.sheets = books.sheets) {others : Roll}
    (describes : next.chart.Describes others) {operation : Storing Unit}
    (done : operation.outcome disk = (.ok (), after)) :
    ledger.Registers disk home books roll operation (.ok others) := by
  refine ⟨?_, congrArg Prod.fst done⟩
  rw [done]
  exact ⟨next, keeps, sheets, describes⟩

variable (keeps : ledger.Keeps disk home books)
  (fits : ledger.directory.Fits ({} : Layout).accountsFile)
  (describes : books.chart.Describes roll)

include keeps fits describes

/-- Adding an account enrolls it. What is refused fails before anything is written; what is accepted
fails only if the name is taken. -/
theorem registers_add {account : Account} (lexical : account.Lexical) :
    ledger.Registers disk home books roll (ledger.addAccount account)
      ((Registration.add account).apply roll) := by
  cases accepted : account.accepted with
  | error failure =>
    have applied : (Registration.add account).apply roll = .error failure := by
      simp only [Registration.apply, accepted, bind, Except.bind]
    rw [applied]
    exact keeps.unregistered describes (addAccount_refused (lexical.toText_eq_error accepted))
  | ok record =>
    have applied : (Registration.add account).apply roll = roll.enroll record := by
      simp only [Registration.apply, accepted, bind, Except.bind]
    obtain ⟨opened, closed, writes, rfl⟩ := lexical.accepted_eq_ok_iff.mp accepted
    rw [applied]
    by_cases known : account.name ∈ roll.map Account.name
    · have enrolled : roll.enroll (account.recorded opened closed) =
          .error (.alreadyOpen account.name) := if_pos known
      rw [enrolled]
      exact keeps.unregistered describes (keeps.addAccount_known fits describes writes known)
    · obtain ⟨after, added, kept⟩ := keeps.addAccount fits describes lexical writes known
      have enrolled : roll.enroll (account.recorded opened closed) =
          .ok (roll ++ [account.recorded opened closed]) := if_neg known
      rw [enrolled]
      exact kept.registered books rfl (describes.add known opened closed) added

/-- Deleting an account strikes it. -/
theorem registers_delete (name : Text) :
    ledger.Registers disk home books roll (ledger.deleteAccount name)
      ((Registration.delete name).apply roll) := by
  have applied : (Registration.delete name).apply roll = roll.strike name := rfl
  rw [applied, Roll.strike]
  by_cases known : name ∈ roll.map Account.name
  · obtain ⟨after, deleted, kept⟩ := keeps.deleteAccount fits describes known
    rw [if_pos known]
    exact kept.registered books rfl (describes.delete name) deleted
  · rw [if_neg known]
    exact keeps.unregistered describes (keeps.deleteAccount_absent fits describes known)

/-- Closing an account closes it in the roll. The date is asked first, then whether the roll has the
account, and then whether it is open. -/
theorem registers_close (name written : Text) :
    ledger.Registers disk home books roll (ledger.closeAccount name written)
      ((Registration.close name written).apply roll) := by
  cases read : Date.read written with
  | error failure =>
    have applied : (Registration.close name written).apply roll = .error failure := by
      simp only [Registration.apply, read, bind, Except.bind]
    rw [applied]
    exact keeps.unregistered describes (closeAccount_refused read name)
  | ok day =>
    have applied : (Registration.close name written).apply roll = roll.close name day := by
      simp only [Registration.apply, read, bind, Except.bind]
    rw [applied, Roll.close]
    cases found : roll.find? fun account => account.name = name with
    | none =>
      have absent : name ∉ roll.map Account.name := by
        rintro known
        obtain ⟨account, member, same⟩ := List.mem_map.mp known
        exact absurd same (by simpa using List.find?_eq_none.mp found account member)
      exact keeps.unregistered describes (keeps.closeAccount_absent fits describes read absent)
    | some account =>
      have member := List.mem_of_find?_eq_some found
      obtain rfl : account.name = name := by simpa using List.find?_some found
      dsimp only
      cases closed : account.closeDate with
      | some before =>
        exact keeps.unregistered describes
          (keeps.closeAccount_closed fits describes read member closed)
      | none =>
        obtain ⟨after, done, kept⟩ := keeps.closeAccount fits describes read member closed
        dsimp only
        exact kept.registered books rfl (describes.close member closed day) done

/-- Updating an account strikes it and enrolls another one. The new account is checked before the
old one is deleted, so a refusal leaves both lists as they are. -/
theorem registers_update (name : Text) {account : Account} (lexical : account.Lexical) :
    ledger.Registers disk home books roll (ledger.updateAccount name account)
      ((Registration.update name account).apply roll) := by
  cases accepted : account.accepted with
  | error failure =>
    have applied : (Registration.update name account).apply roll = .error failure := by
      simp only [Registration.apply, accepted, bind, Except.bind]
    rw [applied]
    exact keeps.unregistered describes
      (updateAccount_refused (lexical.toText_eq_error accepted) name)
  | ok record =>
    have applied : (Registration.update name account).apply roll =
        roll.strike name >>= fun others => others.enroll record := by
      simp only [Registration.apply, accepted, bind, Except.bind]
    obtain ⟨opened, closed, writes, rfl⟩ := lexical.accepted_eq_ok_iff.mp accepted
    rw [applied, Roll.strike]
    by_cases known : name ∈ roll.map Account.name
    · rw [if_pos known]
      dsimp only [bind, Except.bind]
      by_cases other : account.name ∈ (roll.filter fun held => held.name ≠ name).map Account.name
      · obtain ⟨after, failed, kept⟩ :=
          keeps.updateAccount_known fits describes writes known other
        have enrolled : Roll.enroll (account.recorded opened closed)
            (roll.filter fun held => held.name ≠ name) = .error (.alreadyOpen account.name) :=
          if_pos other
        rw [enrolled]
        exact kept.unregistered describes failed
      · obtain ⟨after, updated, kept⟩ :=
          keeps.updateAccount fits describes lexical writes known other
        have enrolled : Roll.enroll (account.recorded opened closed)
            (roll.filter fun held => held.name ≠ name) =
              .ok ((roll.filter fun held => held.name ≠ name) ++ [account.recorded opened closed]) :=
          if_neg other
        rw [enrolled]
        exact kept.registered books rfl ((describes.delete name).add other opened closed) updated
    · obtain ⟨after, failed, kept⟩ := keeps.updateAccount_absent fits describes writes known
      rw [if_neg known]
      exact kept.unregistered describes failed

/-- An operation on accounts does to the roll what it is to do, or fails for the reason that it is
to fail for. -/
theorem registers {registration : Registration} (lexical : registration.Lexical) :
    ledger.Registers disk home books roll (registration.run ledger) (registration.apply roll) := by
  cases registration with
  | add account => exact keeps.registers_add fits describes lexical
  | update name account => exact keeps.registers_update fits describes name lexical
  | delete name => exact keeps.registers_delete fits describes name
  | close name date => exact keeps.registers_close fits describes name date

omit fits describes

/-- An operation on accounts leaves books with the same sheets, also where nothing fits. -/
theorem register {registration : Registration} (lexical : registration.Lexical) :
    ∃ next, ledger.Keeps ((registration.run ledger).outcome disk).2 home next ∧
      next.sheets = books.sheets := by
  by_cases fits : ledger.directory.Fits ({} : Layout).accountsFile
  · obtain ⟨roll, describes⟩ := keeps.sound.described
    obtain ⟨next, kept, sheets, _⟩ := (keeps.registers fits describes lexical).kept
    exact ⟨next, kept, sheets⟩
  · refine ⟨books, ?_, rfl⟩
    have failed {operation : Storing Unit} (unfit : ∃ failure,
        operation.outcome disk = (.error failure, disk)) :
        ledger.Keeps (operation.outcome disk).2 home books := by
      obtain ⟨failure, failed⟩ := unfit
      rw [failed]
      exact keeps
    cases registration with
    | add account => exact failed (Ledger.addAccount_unfit keeps.usual fits account disk)
    | update name account => exact keeps.updateAccount_unfit fits name account
    | delete name => exact failed (Ledger.deleteAccount_unfit keeps.usual fits name disk)
    | close name date => exact failed (Ledger.closeAccount_unfit keeps.usual fits name date disk)

end Ledger.Keeps

/-! ## Runs -/

namespace Ledger

variable {ledger : Ledger} {disk : Disk} {home : Location} {books : Books}

/-- An operation leaves books. -/
theorem Keeps.step (keeps : ledger.Keeps disk home books) {operation : Operation}
    (lexical : operation.Lexical) :
    ∃ next, ledger.Keeps ((operation.run ledger).outcome disk).2 home next := by
  cases operation with
  | book booking =>
    obtain ⟨next, kept, _⟩ := keeps.book lexical
    exact ⟨next, kept⟩
  | register registration =>
    obtain ⟨next, kept, _⟩ := keeps.register lexical
    exact ⟨next, kept⟩

/-- A run leaves books. -/
theorem Keeps.after (keeps : ledger.Keeps disk home books) {operations : List Operation}
    (lexical : ∀ operation ∈ operations, operation.Lexical) :
    ∃ next, ledger.Keeps (ledger.after disk operations) home next := by
  induction operations generalizing disk books with
  | nil => exact ⟨books, keeps⟩
  | cons operation operations ih =>
    obtain ⟨first, others⟩ := List.forall_mem_cons.mp lexical
    obtain ⟨next, kept⟩ := keeps.step first
    exact ih kept others

/-- An empty directory holds blank books. -/
theorem keeps_blank (usual : ledger.layout = {})
    (empty : disk.Houses ledger.directory home fun _ => none) :
    ledger.Keeps disk home Books.blank :=
  ⟨usual, Books.files_blank ▸ empty, Books.sound_blank, fun _ nothing =>
    absurd nothing List.not_mem_nil⟩

end Ledger

/-- An empty directory of that name houses nothing. -/
theorem Ledger.usual_houses :
    Disk.withEmptyDirectory.Houses Ledger.usual.directory ["data"] fun _ => none where
  leads := by decide
  folder := by decide
  fresh := by decide +kernel
  proper := by decide
  held name := by
    have outside : ¬ (("data" : Text) :: [name]).isPrefixOf Disk.withEmptyDirectory.current := by
      simp [Disk.withEmptyDirectory]
    have apart : (("data" : Text) :: [name] == [("data" : Text)]) = false := by simp
    rw [List.singleton_append, Disk.entry?, if_neg outside, Disk.withEmptyDirectory,
      List.lookup_cons, apart]
    rfl

/-- A pending transaction with a single posting that has an amount. -/
def Transaction.coffee : Transaction where
  date := "2024-1-5"
  flag := "!"
  payee := some "Caf\u00e9 \"Nord\""
  tags := ["food"]
  postings := [{ account := "Expenses:Food", amount := "-2.50", currency := "EUR" },
    { account := "Assets:Savings" }]

/-- The coffee of the example has texts that its entry carries unchanged. -/
theorem Transaction.coffee_plain : Transaction.coffee.Plain where
  flag := Or.inr rfl
  tags := by decide
  postings := by
    intro posting member
    rcases List.mem_pair.mp member with rfl | rfl
    · refine ⟨by decide, Or.inr ⟨Or.inr ⟨"2.50", rfl, "2", ".50", rfl, by decide,
        forall_mem_of_all (by decide),
        Or.inr ⟨"50", rfl, by decide, forall_mem_of_all (by decide)⟩⟩, by decide⟩⟩
    · exact ⟨by decide, Or.inl ⟨rfl, rfl⟩⟩
  said := by decide

/-- A run in which an account and a transaction are added. The transaction cannot be deleted before,
and the account has been closed already. -/
def Operation.firstYear : List Operation :=
  [.book (.delete "data/2024-01.bean:1"), .register (.add Account.savings),
    .book (.add Transaction.coffee), .register (.close Account.savings.name "2025-01-01")]

/-- Every operation of the example year has lexical arguments, so the run satisfies the hypothesis
of the refinement. -/
theorem Operation.firstYear_lexical : ∀ operation ∈ Operation.firstYear, operation.Lexical := by
  have savings : Account.savings.Lexical := ⟨by decide, by decide⟩
  intro operation member
  simp only [Operation.firstYear, List.mem_cons, List.not_mem_nil, or_false] at member
  rcases member with rfl | rfl | rfl | rfl
  · trivial
  · exact savings
  · exact Transaction.coffee_plain
  · trivial

end Daybook
