import Daybook.Text

/-!
# File paths

A path is a sequence of names, read from the working directory or from the root of
the file system. Reading a path drops empty names and the name `.`, so that a path
has one written form; the name `..` is kept, since it may lead through a name that is
no directory.
-/
namespace Daybook

/-- Where a path begins. Two slashes at the beginning are kept apart from one. -/
inductive Anchor where
  | here
  | root
  | doubleRoot
  deriving DecidableEq, Repr

/-- A path in its normal form. -/
structure FilePath where
  anchor : Anchor
  names : List Text
  deriving DecidableEq, Repr

namespace FilePath

/-- Where a written path begins: exactly two slashes are not one, and more than two
are. -/
def anchorOf : Text → Anchor
  | '/' :: '/' :: '/' :: _ => .root
  | '/' :: '/' :: _ => .doubleRoot
  | '/' :: _ => .root
  | _ => .here

/-- The path that a text writes. -/
def ofText (written : Text) : FilePath :=
  { anchor := anchorOf written
    names := (written.splitOn '/').filter fun name => name ≠ [] && name ≠ ['.'] }

/-- The path of the working directory. -/
def here : FilePath := ⟨.here, []⟩

/-- The written form of a path. -/
def toText (path : FilePath) : Text :=
  match path.anchor with
  | .here => if path.names = [] then "." else List.intercalate ['/'] path.names
  | .root => '/' :: List.intercalate ['/'] path.names
  | .doubleRoot => '/' :: '/' :: List.intercalate ['/'] path.names

/-- The last name of a path, empty where there is none. -/
def name (path : FilePath) : Text :=
  path.names.getLast?.getD []

/-- The system can be asked for the path: no name in it has the character with the code zero. -/
def isUsable (path : FilePath) : Bool :=
  path.names.all fun name => !name.contains '\x00'

/-- The path without its last name. -/
def parent (path : FilePath) : FilePath :=
  { path with names := path.names.dropLast }

/-- The path `other` as seen from the directory `path`. -/
def join (path other : FilePath) : FilePath :=
  match other.anchor with
  | .here => { path with names := path.names ++ other.names }
  | _ => other

/-- The path written by a text as seen from the directory `path`. -/
def child (path : FilePath) (written : Text) : FilePath :=
  path.join (ofText written)

/-- The extension of a name: its last dot and what follows. A name has none that
begins with its only dot or ends with a dot. -/
def extensionOf (name : Text) : Text :=
  match Text.cutAt '.' name.reverse with
  | some (after, before) => if after = [] ∨ before = [] then [] else '.' :: after.reverse
  | none => []

/-- The extension of the last name of a path. -/
def extension (path : FilePath) : Text :=
  extensionOf path.name

/-- The path with another last name in place of its own. -/
def withName (path : FilePath) (name : Text) : FilePath :=
  { path with names := path.names.dropLast ++ [name] }

end FilePath

/-- A place in the file system: the names on the way to it from the root. -/
abbrev Location := List Text

/-- The place that names lead to from `start` when nothing is looked up on the way, so
that `..` takes back the name before it whether or not that name exists. -/
def Location.follow (start : Location) : List Text → Location
  | [] => start
  | name :: rest =>
    if name = ['.', '.'] then Location.follow start.dropLast rest
    else Location.follow (start ++ [name]) rest

namespace FilePath

/-- The place of a path when the working directory is at `current`. -/
def resolve (current : Location) (path : FilePath) : Location :=
  match path.anchor with
  | .here => Location.follow current path.names
  | _ => Location.follow [] path.names

end FilePath

end Daybook
