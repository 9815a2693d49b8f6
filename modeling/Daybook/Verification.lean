import Daybook.Page
import Daybook.Storage

/-!
# Verifying a ledger

Verification reads the root file and everything that it includes, directly or through
other files, and reads no file twice. It collects the errors and warnings of the files, an
error for every inclusion that leads to no file, and a warning for every inclusion that
leads to a file seen before.
-/
namespace Daybook

/-- What verification has found so far, and the places it has been to. -/
structure Findings where
  errors : List Diagnostic := []
  warnings : List Diagnostic := []
  visited : List Location := []

namespace Findings

/-- The findings with one more error about a file as a whole. -/
def addError (found : Findings) (path message : Text) : Findings :=
  { found with
    errors := found.errors ++ [{ severity := .error, path, line := 0, column := 0, message }] }

/-- The findings with one more warning about a file as a whole. -/
def addWarning (found : Findings) (path message : Text) : Findings :=
  { found with
    warnings :=
      found.warnings ++ [{ severity := .warning, path, line := 0, column := 0, message }] }

end Findings

/-- Follows the inclusions of a file, when `descend` reads an included file. -/
def followInclusions (disk : Disk) (file : FilePath)
    (descend : FilePath → Findings → Except Failure Findings) :
    List Phrase → Findings → Except Failure Findings
  | [], found => .ok found
  | inclusion :: rest, found => do
    let inclusion ← inclusion.read
    let target := file.parent.child inclusion
    let place ← placeOf target disk
    if place ∈ found.visited then
      followInclusions disk file descend rest
        (found.addWarning file.toText (inclusion ++ " is already included, skipped"))
    else if !(← (disk.holdsFile target).mapError Failure.refused) then
      followInclusions disk file descend rest
        (found.addError file.toText ("Included file " ++ inclusion ++ " does not exist"))
    else match descend target found with
      | .ok found => followInclusions disk file descend rest found
      | .error failure =>
        if failure.kind? = some .io then
          let found := { found with visited := place :: found.visited }
          followInclusions disk file descend rest
            (found.addError target.toText failure.message)
        else .error failure

/-- Reads a file and everything it includes. The allowance bounds the depth of inclusions;
every step down leads to a file not seen before, so that one more than the number of files
is enough. -/
def explore (disk : Disk) : Nat → FilePath → Findings → Except Failure Findings
  | 0, _, found => .ok found
  | allowance + 1, file, found => do
    let place ← placeOf file disk
    let found := { found with visited := place :: found.visited }
    let content ← readBytes file.toText file disk
    let page ← Page.ofBytes file content
    let found := { found with
      errors := found.errors ++ page.errors, warnings := found.warnings ++ page.warnings }
    followInclusions disk file (explore disk allowance) page.inclusions.eraseDups found

/-- The result of verification, as lines of text. -/
structure Verdict where
  errors : List Text
  warnings : List Text
  deriving DecidableEq, Repr

/-- Verifies the ledger of a directory. -/
def verify (directory : FilePath) (layout : Layout) : Looking Verdict := fun disk => do
  let found ← explore disk (disk.entries.length + 2) (directory.child layout.rootFile) {}
  return { errors := Text.lines (Diagnostic.report found.errors)
           warnings := Text.lines (Diagnostic.report found.warnings) }

end Daybook
