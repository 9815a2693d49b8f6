import Daybook.Command.Catalogue

/-!
# The command line

A command line is read as a whole before anything is done. The directory of the ledger is
made if it does not exist, and the ledger is opened anew for every command line. Failures that
concern the ledger or a value that was handed in are complaints with an exit code of their
own; any other failure is passed on.
-/
namespace Daybook.Command

/-- The exit code for a kind of failure. -/
def kindExitCode : Kind → Nat
  | .invalidIdentifier => 2
  | .invalidDate => 2
  | .notFound => 3
  | .parse => 4
  | .io => 5

/-- The exit code for a failure that is a complaint. -/
def exitCode? (failure : Failure) : Option Nat :=
  match failure.kind? with
  | some kind => some (kindExitCode kind)
  | none => if failure.concernsValue then some 2 else none

/-- The reply to a command line for which nothing is done. -/
def Diversion.reply : Diversion → Except Failure Reply
  | .help signature => .ok { output := signature.usage }
  | .misuse signature fault => .ok { exitCode := 2, complaint := fault.report signature }
  | .notAPath written => .error (.refused ⟨.notAPath, written, none⟩)

/-- Makes a folder, with those on the way to it, unless something is there. -/
def ensureFolder (path : FilePath) : Storing Unit := do
  let disk ← get
  if !(← Storing.look (isPresent path)) then
    let (made, fault) := disk.makeFolders path
    set made
    if let some fault := fault then throw (.refused fault)

/-- Opens the ledger and carries out the order. -/
def Invocation.perform (invocation : Invocation) : Storing Reply := do
  let directory := FilePath.ofText invocation.directory
  ensureFolder directory
  let settings := invocation.settings.map FilePath.ofText
  let ledger ← Storing.look (Ledger.ofDirectory directory settings)
  invocation.order.perform ledger

/-- Runs a command line. -/
def run (surroundings : Surroundings) (words : List Text) : Storing Reply := do
  let disk ← get
  match Invocation.read surroundings disk words with
  | .error diversion => Storing.known diversion.reply
  | .ok invocation =>
    tryCatch invocation.perform fun failure =>
      match exitCode? failure with
      | some exitCode => return { exitCode, complaint := "Error: " ++ failure.message ++ "\n" }
      | none => throw failure

end Daybook.Command
