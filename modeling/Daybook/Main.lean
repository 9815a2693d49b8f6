import Daybook.Command

/-!
# The program

The program runs one command line on the files of the system. It reads the folder it is
started in, the directory of the ledger and the settings into a disk, runs the command line on
that disk, and then writes what has changed. Whatever lies elsewhere it does not see.
-/
namespace Daybook.Program

/-- The written form of a place. -/
def written (place : Location) : String :=
  String.ofList ((FilePath.mk .root place).toText)

/-- The disk with what the system holds at a place, and below it if `deep` says so, as far as
no link is in the way. -/
partial def load (deep : Bool) (disk : Disk) (place : Location) : IO Disk := do
  let path := place.foldl (fun path name => path / String.ofList name) (← IO.FS.realPath "/")
  if ← path.isDir then
    let mut loaded := disk.put place .folder
    if deep then
      for entry in ← path.readDir do
        let kind := (← entry.path.symlinkMetadata).type
        if kind matches .dir | .file then
          loaded ← load true loaded (place ++ [entry.fileName.toList])
    return loaded
  else if ← path.pathExists then
    let content ← IO.FS.readBinFile path
    return disk.put place (.file content.toList)
  else return disk

/-- The disk with what a path leads to and the folders on the way to it. -/
def loadPath (disk : Disk) (path : Text) : IO Disk := do
  let place := (FilePath.ofText path).resolve disk.current
  if (disk.entry? place).isSome then return disk
  let mut loaded := disk
  for n in List.range place.length do
    if (loaded.entry? (place.take n)).isNone then
      loaded ← load false loaded (place.take n)
  load true loaded place

/-- Writes what differs between two disks. -/
def store (before after : Disk) : IO Unit := do
  for (place, entry) in before.entries do
    if (after.entry? place).isNone then
      match entry with
      | .file _ => IO.FS.removeFile (written place)
      | .folder => IO.FS.removeDir (written place)
  for (place, entry) in after.entries.reverse do
    if before.entry? place ≠ some entry then
      match entry with
      | .folder => IO.FS.createDirAll (written place)
      | .file content => IO.FS.writeBinFile (written place) ⟨content.toArray⟩

/-- The paths on a command line that name the ledger and its settings. -/
def namedPaths (surroundings : Command.Surroundings) (words : List Text) : List Text :=
  match (Command.mainSignature surroundings).sort words with
  | .error _ => []
  | .ok arguments =>
    [(arguments.last? "--data-dir").getD (surroundings.directory.getD "data"),
      (arguments.last? "--config").getD []]

end Daybook.Program

section

open Daybook

/-- Runs the command line. -/
def main (arguments : List String) : IO UInt32 := do
  let words := arguments.map String.toList
  let directory ← IO.getEnv "BEANCOUNTERS_DATA_DIR"
  let logLevel ← IO.getEnv "LOG_LEVEL"
  let surroundings : Command.Surroundings :=
    { directory := directory.map String.toList, logLevel := logLevel.map String.toList }
  let current := (FilePath.ofText (← IO.currentDir).toString.toList).names
  let here ← Program.load true ⟨current, []⟩ current
  let disk ← (Program.namedPaths surroundings words).foldlM Program.loadPath here
  let (result, after) := (Command.run surroundings words).run.run disk
  Program.store disk after
  match result with
  | .error failure =>
    IO.eprintln (String.ofList failure.message)
    return 1
  | .ok reply =>
    IO.print (String.ofList reply.output)
    for line in reply.shown.flatMap Command.plainLines do
      IO.println (String.ofList line)
    IO.eprint (String.ofList reply.complaint)
    return reply.exitCode.toUInt32

end
