import Daybook.Failure

/-!
# Reading and writing files

Operations that write run on a disk and keep what they have written even when they fail
later. Operations that only read are functions of a disk, so that they cannot change it.

A file is always written as a whole: the new content goes into a temporary file beside it,
which then takes its place, so nobody ever sees half of it. Several files are protected
together by a snapshot of their contents.
-/
namespace Daybook

/-- What a reading operation yields. -/
abbrev Looking (α : Type) := Disk → Except Failure α

/-- A writing operation: a result or a failure, and in both cases the disk after it. -/
abbrev Storing (α : Type) := ExceptT Failure (StateM Disk) α

namespace Storing

/-- A reading operation among writing ones. -/
def look {α : Type} (looking : Looking α) : Storing α := do
  let disk ← get
  match looking disk with
  | .ok value => return value
  | .error failure => throw failure

/-- A result that is known without the disk. -/
def known {α : Type} (result : Except Failure α) : Storing α :=
  look fun _ => result

end Storing

/-- What a fault means to an operation. A path that is none has nothing to do with the
operation and stays what it is. -/
def DiskFault.meaning (failure : DiskFault → Failure) (fault : DiskFault) : Failure :=
  if fault.refusal = .notAPath then .refused fault else failure fault

/-- Whether there is something at a path. -/
def isPresent (path : FilePath) : Looking Bool := fun disk =>
  (disk.holds path).mapError Failure.refused

/-- The place of a path, whether or not there is anything. -/
def placeOf (path : FilePath) : Looking Location := fun disk =>
  if path.isUsable then .ok (path.resolve disk.current)
  else .error (.refused ⟨.notAPath, path.toText, none⟩)

/-- The content of a file. The failure names the file as `label` does. -/
def readBytes (label : Text) (path : FilePath) : Looking Bytes := fun disk =>
  (disk.read path).mapError (DiskFault.meaning (Failure.unreadable label))

/-- The content of a file, and nothing where there is no file. -/
def readIfPresent (path : FilePath) : Looking Bytes := fun disk => do
  if ← isPresent path disk then readBytes path.toText path disk else .ok []

/-- The temporary file beside a file. -/
def temporary (path : FilePath) : FilePath :=
  path.withName (['.'] ++ path.name ++ Disk.temporaryEnding)

/-- Writes a file as a whole. Whatever fails, no temporary file is left. -/
def writeWhole (path : FilePath) (content : Bytes) : Storing Unit := do
  if path.names = [] then throw (.nameless path.toText)
  let disk ← get
  match disk.write (temporary path) content with
  | .ok written =>
    match written.rename (temporary path) path with
    | .ok renamed => set renamed
    | .error fault => throw (.unwritable path.toText fault)
  | .error fault =>
    match disk.remove (temporary path) with
    | .ok removed =>
      set removed
      throw (.unwritable path.toText fault)
    | .error other =>
      if other.refusal = .missing then throw (.unwritable path.toText fault)
      else throw (.refused other)

/-- Writes further bytes after the content of a file, which need not exist yet. -/
def appendBytes (path : FilePath) (more : Bytes) : Storing Unit := do
  let content ← Storing.look (readIfPresent path)
  writeWhole path (content ++ more)

/-- The contents of files at one moment; nothing stands for a file that does not exist. -/
structure Snapshot where
  contents : List (FilePath × Option Bytes)

namespace Snapshot

/-- The contents of the files at the given paths, each path once. -/
def take (paths : List FilePath) : Looking Snapshot := fun disk => do
  let contents ← paths.eraseDups.mapM fun path => do
    if ← isPresent path disk then
      let content ← readBytes path.toText path disk
      return (path, some content)
    else return (path, none)
  return ⟨contents⟩

/-- Puts a file back to what it was. -/
def restoreFile (path : FilePath) : Option Bytes → Storing Unit
  | some content => writeWhole path content
  | none => do
    let disk ← get
    match disk.remove path with
    | .ok removed => set removed
    | .error fault => if fault.refusal = .missing then return () else throw (.refused fault)

/-- Puts all files back to what they were. -/
def restore (snapshot : Snapshot) : Storing Unit :=
  snapshot.contents.forM fun (path, content) => restoreFile path content

end Snapshot

/-- Runs an operation. When it fails, the files at the given paths are put back to what
they were before. -/
def protecting {α : Type} (paths : List FilePath) (operation : Storing α) : Storing α := do
  let snapshot ← Storing.look (Snapshot.take paths)
  tryCatch operation fun failure => do
    snapshot.restore
    throw failure

end Daybook
