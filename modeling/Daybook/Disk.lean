import Daybook.FilePath
import Daybook.Text.Display

/-!
# The file system

A disk holds folders and files at their places. The working directory and the folders
on the way to it always exist; everything else is listed. A path is looked up name by
name, and every name that is left has to be a folder, so that a path may fail in two
ways: something is missing, or a file stands where a folder should be.

The operations are pure: each takes a disk and gives the disk after it, or the fault
with the path it was called with. A fault leaves the disk as it was, except that folders
made on the way to one that cannot be made stay.

There is nothing else at a place than a folder or a file: no links, no permissions, and nobody
else who works on the disk. Names are texts.
-/
namespace Daybook

/-- Why the file system refuses an operation. -/
inductive Refusal where
  | missing
  | busy
  | inTheWay
  | notAFolder
  | isAFolder
  | tooLong
  /-- The path has a character that no path has, so that the system is not even asked. -/
  | notAPath
  deriving DecidableEq, Repr

/-- A refused operation: the path it was called with and, for a renaming, the path that
should have been taken. -/
structure DiskFault where
  refusal : Refusal
  path : Text
  target : Option Text := none
  deriving DecidableEq, Repr

/-- What stands at a place. -/
inductive Entry where
  | folder
  | file (content : Bytes)
  deriving DecidableEq, Repr

/-- The contents of the file system as seen from the working directory. -/
structure Disk where
  current : Location
  entries : List (Location × Entry)

namespace Refusal

/-- The number by which the system knows a refusal, if it is one of the system. -/
def number? : Refusal → Option Nat
  | .missing => some 2
  | .busy => some 16
  | .inTheWay => some 17
  | .notAFolder => some 20
  | .isAFolder => some 21
  | .tooLong => some 36
  | .notAPath => none

/-- The refusal in words. -/
def message : Refusal → Text
  | .missing => "No such file or directory"
  | .busy => "Device or resource busy"
  | .inTheWay => "File exists"
  | .notAFolder => "Not a directory"
  | .isAFolder => "Is a directory"
  | .tooLong => "File name too long"
  | .notAPath => "embedded null byte"

end Refusal

/-- A fault in words: its number, its reason and the paths. What the system is not asked has
only the reason. -/
def DiskFault.message (fault : DiskFault) : Text :=
  let target : Text := match fault.target with
    | some path => " -> " ++ Text.display path
    | none => ""
  match fault.refusal.number? with
  | none => fault.refusal.message
  | some number =>
    "[Errno " ++ Text.decimal number ++ "] " ++ fault.refusal.message ++ ": " ++
      Text.display fault.path ++ target

namespace Disk

/-- The number of bytes that the longest name has. -/
def longestName : Nat := 255

/-- The number of bytes that the longest path has. -/
def longestPath : Nat := 4095

/-- What the name of a temporary file ends in. The part between angle brackets stands for 32
digits that no other file has. -/
def temporaryEnding : Text := ".<uuid>.tmp"

/-- The number of bytes that a name takes, or a path that ends in it. In the name of a
temporary file all digits of the unique part count. -/
def size (written : Text) : Nat :=
  written.foldl (fun count c => count + c.utf8Size) 0 +
    if temporaryEnding.isSuffixOf written then 32 - "<uuid>".length else 0

/-- What stands at a place, if anything. -/
def entry? (disk : Disk) (place : Location) : Option Entry :=
  if place.isPrefixOf disk.current then some .folder else disk.entries.lookup place

/-- The disk with `entry` at `place`, and everything else as before. -/
def put (disk : Disk) (place : Location) (entry : Entry) : Disk :=
  { disk with entries := (place, entry) :: disk.entries.filter fun held => held.1 ≠ place }

/-- The disk with nothing at `place`, and everything else as before. -/
def drop (disk : Disk) (place : Location) : Disk :=
  { disk with entries := disk.entries.filter fun held => held.1 ≠ place }

/-- Follows names from a place, each of which has to be left through a folder, and none of
which may be too long. What the last name leads to is not looked at. -/
def walk (disk : Disk) (place : Location) : List Text → Except Refusal Location
  | [] => .ok place
  | name :: rest =>
    match disk.entry? place with
    | some .folder =>
      if longestName < size name then .error .tooLong
      else if name = ['.', '.'] then disk.walk place.dropLast rest
      else disk.walk (place ++ [name]) rest
    | some (.file _) => .error .notAFolder
    | none => .error .missing

/-- The place that a path leads to. -/
def place (disk : Disk) (path : FilePath) : Except Refusal Location :=
  if !path.isUsable then .error .notAPath
  else if longestPath < size path.toText then .error .tooLong
  else disk.walk (if path.anchor = .here then disk.current else []) path.names

/-- What a path leads to. -/
def find (disk : Disk) (path : FilePath) : Except Refusal Entry := do
  let place ← disk.place path
  match disk.entry? place with
  | some entry => .ok entry
  | none => .error .missing

/-- Whether a path leads to an entry of the given sort. Of a path that is too long even that
cannot be said. -/
def holdsEntry (disk : Disk) (sort : Entry → Bool) (path : FilePath) : Except DiskFault Bool :=
  match disk.find path with
  | .ok entry => .ok (sort entry)
  | .error .tooLong => .error ⟨.tooLong, path.toText, none⟩
  | .error _ => .ok false

/-- Whether a path leads to something. -/
def holds (disk : Disk) (path : FilePath) : Except DiskFault Bool :=
  disk.holdsEntry (fun _ => true) path

/-- Whether a path leads to a file. -/
def holdsFile (disk : Disk) (path : FilePath) : Except DiskFault Bool :=
  disk.holdsEntry (· ≠ .folder) path

/-- Whether a path leads to a folder. -/
def holdsFolder (disk : Disk) (path : FilePath) : Except DiskFault Bool :=
  disk.holdsEntry (· = .folder) path

/-- Names a refusal after the path of the operation. -/
def blame {α : Type} (path : FilePath) (result : Except Refusal α) : Except DiskFault α :=
  result.mapError fun refusal => ⟨refusal, path.toText, none⟩

/-- The content of the file at a path. -/
def read (disk : Disk) (path : FilePath) : Except DiskFault Bytes :=
  blame path do
    match ← disk.find path with
    | .file content => .ok content
    | .folder => .error .isAFolder

/-- The disk after writing a file at a path, whether or not there was one. -/
def write (disk : Disk) (path : FilePath) (content : Bytes) : Except DiskFault Disk :=
  blame path do
    let place ← disk.place path
    if disk.entry? place = some .folder then .error .isAFolder
    else .ok (disk.put place (.file content))

/-- The disk without the file at a path. -/
def remove (disk : Disk) (path : FilePath) : Except DiskFault Disk :=
  blame path do
    let place ← disk.place path
    match disk.entry? place with
    | some (.file _) => .ok (disk.drop place)
    | some .folder => .error .isAFolder
    | none => .error .missing

/-- The disk after the file at `path` has taken the place of whatever file was at
`target`. -/
def rename (disk : Disk) (path target : FilePath) : Except DiskFault Disk :=
  Except.mapError (fun refusal => ⟨refusal, path.toText, some target.toText⟩) do
    let source ← disk.place path
    let goal ← disk.place target
    if target.name = ['.', '.'] then .error .busy
    else match disk.entry? source with
      | none => .error .missing
      | some entry =>
        if disk.entry? goal = some .folder then .error .isAFolder
        else .ok ((disk.drop source).put goal entry)

/-- The names in the folder at a path, in the order of their characters. -/
def list (disk : Disk) (path : FilePath) : Except DiskFault (List Text) :=
  blame path do
    let place ← disk.place path
    match disk.entry? place with
    | some .folder =>
      let names := disk.entries.filterMap fun held =>
        if held.1.dropLast = place ∧ held.1 ≠ [] then held.1.getLast? else none
      .ok (names.mergeSort Text.atMost)
    | some (.file _) => .error .notAFolder
    | none => .error .missing

/-- The disk with a new folder at a path. -/
def makeFolder (disk : Disk) (path : FilePath) : Except DiskFault Disk :=
  blame path do
    let place ← disk.place path
    match disk.entry? place with
    | some _ => .error .inTheWay
    | none => .ok (disk.put place .folder)

/-- Makes a folder at a path. One that is there already is a fault unless `tolerant` says
otherwise. -/
def makeLast (disk : Disk) (path : FilePath) (tolerant : Bool) : Disk × Option DiskFault :=
  match disk.makeFolder path with
  | .ok made => (made, none)
  | .error fault =>
    (disk, if tolerant && disk.holdsFolder path matches .ok true then none else some fault)

/-- Makes a folder at the path of the given names, last name first, and every folder missing
on the way. A folder that is there already is a fault unless `tolerant` says otherwise; on the
way it never is one. The disk that is left holds what was made before a fault. -/
def makeFoldersFrom (disk : Disk) (anchor : Anchor) (tolerant : Bool) :
    List Text → Disk × Option DiskFault
  | [] => disk.makeLast ⟨anchor, []⟩ tolerant
  | name :: above =>
    let path : FilePath := ⟨anchor, (name :: above).reverse⟩
    match disk.makeFolder path with
    | .ok made => (made, none)
    | .error ⟨.missing, _, _⟩ =>
      match disk.makeFoldersFrom anchor true above with
      | (disk, none) => disk.makeLast path tolerant
      | failed => failed
    | .error _ => disk.makeLast path tolerant

/-- Makes a folder at a path and every folder missing on the way. The disk that is left holds
what was made before a fault. -/
def makeFolders (disk : Disk) (path : FilePath) : Disk × Option DiskFault :=
  disk.makeFoldersFrom path.anchor false path.names.reverse

end Disk

end Daybook
