import Daybook.Proofs.Ledger.Operations

/-!
# The roll of accounts

The accounts of a directory are a roll: after every run that begins with an empty directory, they
are what the operations on accounts make of an empty roll, one after the other. An operation on
accounts succeeds exactly if it can be done to the roll, and fails for the same reason, and
operations on transactions do not touch the roll.
-/
namespace Daybook

open Disk

/-- The roll after an operation. -/
def Operation.registered : Operation → Roll → Roll
  | book _, roll => roll
  | register registration, roll => registration.registered roll

/-- The roll that operations make of an empty one. -/
def Roll.after (operations : List Operation) : Roll :=
  operations.foldl (fun roll operation => operation.registered roll) []

namespace Ledger

variable {ledger : Ledger} {disk : Disk} {home : Location} {books : Books} {roll : Roll}

/-- An operation leaves books whose chart describes the roll after it. -/
theorem Keeps.enrolls (keeps : ledger.Keeps disk home books)
    (fits : ledger.directory.Fits ({} : Layout).accountsFile)
    (describes : books.chart.Describes roll) {operation : Operation}
    (lexical : operation.Lexical) :
    ∃ next, ledger.Keeps ((operation.run ledger).outcome disk).2 home next ∧
      next.chart.Describes (operation.registered roll) := by
  cases operation with
  | book booking =>
    obtain ⟨next, kept, chart, _⟩ := keeps.book lexical
    exact ⟨next, kept, chart ▸ describes⟩
  | register registration =>
    obtain ⟨next, kept, _, described⟩ := (keeps.registers fits describes lexical).kept
    exact ⟨next, kept, described⟩

/-- A run leaves books whose chart describes the roll after it. -/
theorem Keeps.enrollsAll (keeps : ledger.Keeps disk home books)
    (fits : ledger.directory.Fits ({} : Layout).accountsFile)
    (describes : books.chart.Describes roll) {operations : List Operation}
    (lexical : ∀ operation ∈ operations, operation.Lexical) :
    ∃ next, ledger.Keeps (ledger.after disk operations) home next ∧ next.chart.Describes
      (operations.foldl (fun roll operation => operation.registered roll) roll) := by
  induction operations generalizing disk books roll with
  | nil => exact ⟨books, keeps, describes⟩
  | cons operation operations ih =>
    obtain ⟨first, others⟩ := List.forall_mem_cons.mp lexical
    obtain ⟨next, kept, described⟩ := keeps.enrolls fits describes first
    exact ih kept described others

/-- After every run that begins with an empty directory and the usual layout, the accounts are the
roll that the operations make, if the accounts file fits into the directory. Every further operation
on accounts does to the roll what it is to do, or fails for the reason that it is to fail for. As
with the transactions, the run is followed in the books, whose chart describes the roll at every
step; the guards of an operation look at the chart and find there what the roll says. -/
theorem accounts_enrolled (usual : ledger.layout = {})
    (empty : disk.Houses ledger.directory home fun _ => none)
    (fits : ledger.directory.Fits ledger.layout.accountsFile) {operations : List Operation}
    (lexical : ∀ operation ∈ operations, operation.Lexical) :
    ledger.accounts (ledger.after disk operations) = .ok (Roll.after operations) ∧
    ∀ registration : Registration, registration.Lexical →
      ((registration.run ledger).outcome (ledger.after disk operations)).1 =
        (registration.apply (Roll.after operations)).map fun _ => () := by
  rw [usual] at fits
  have blank : Chart.Describes [] [] := ⟨List.nodup_nil, rfl, by simp, by simp⟩
  obtain ⟨books, keeps, describes⟩ := (keeps_blank usual empty).enrollsAll fits blank lexical
  exact ⟨keeps.accounts fits describes, fun registration lexical =>
    (keeps.registers fits describes lexical).same⟩

/-- After the first year there is one account, with its dates in the standard form. -/
theorem firstYear_enrolled :
    Ledger.usual.accounts (Ledger.usual.after Disk.withEmptyDirectory Operation.firstYear) =
      .ok [{ Account.savings with openDate := "2024-01-01" }] := by
  have roll : Roll.after Operation.firstYear =
      [{ Account.savings with openDate := "2024-01-01" }] := by decide +kernel
  rw [← roll]
  exact (accounts_enrolled rfl Ledger.usual_houses (by decide +kernel)
    Operation.firstYear_lexical).1

end Ledger

/-- An account whose name is a word of the ledger language, with a no-break space in it. -/
def Account.spaced : Account where
  name := "Assets:Ca\u00a0sh"
  openDate := "2024-01-01"

/-- A ledger of the same directory whose path is so long that it leaves no room for a file name. -/
def Ledger.winding : Ledger where
  directory := ⟨.here, (List.replicate 510 [("data" : Text), ['.', '.']]).flatten ++ [("data" : Text)]⟩
  layout := {}

/-- The directory of the example ledger, reached through a detour, starts without any file. -/
theorem Ledger.winding_houses :
    Disk.withEmptyDirectory.Houses Ledger.winding.directory ["data"] fun _ => none :=
  ⟨by decide +kernel, Ledger.usual_houses.folder, Ledger.usual_houses.fresh,
    Ledger.usual_houses.proper, Ledger.usual_houses.held⟩

/-- An empty directory has no accounts, and yet such an account cannot be added. Where there is no
room for the name of the accounts file, accounts are not even listed. -/
theorem Ledger.spaced_refused :
    Lexeme.IsWord .account Account.spaced.name ∧
    (Date.read Account.spaced.openDate).isOk = true ∧
    Ledger.usual.accounts Disk.withEmptyDirectory = .ok [] ∧
    (Ledger.usual.addAccount Account.spaced).outcome Disk.withEmptyDirectory =
      (.error (.notAWord "account" Account.spaced.name), Disk.withEmptyDirectory) ∧
    Disk.withEmptyDirectory.place Ledger.winding.directory = .ok ["data"] ∧
    ∃ failure, Ledger.winding.accounts Disk.withEmptyDirectory = .error failure := by
  have long : (Ledger.winding.accounts Disk.withEmptyDirectory).isOk = false := by decide +kernel
  refine ⟨by decide, by decide +kernel, rfl, rfl, Ledger.winding_houses.leads, ?_⟩
  cases listed : Ledger.winding.accounts Disk.withEmptyDirectory with
  | error failure => exact ⟨failure, rfl⟩
  | ok accounts =>
    rw [listed] at long
    cases long

end Daybook
