import Daybook.Proofs.Disk.Storing
import Daybook.Proofs.Result

/-!
# Files of a directory

A ledger file is named by a plain name in its directory. The path of such a file leads to the
name below the place of the directory, and so does the path of the temporary file beside it, if
the directory is a folder and the paths are not too long.
-/
namespace Daybook

namespace FilePath

/-- The path of a name in a directory. -/
def below (directory : FilePath) (name : Text) : FilePath :=
  { directory with names := directory.names ++ [name] }

/-- A name that is a path by itself, leads down, and is none of a temporary file. -/
structure IsPlain (name : Text) : Prop where
  written : ofText name = ⟨.here, [name]⟩
  down : name ≠ ['.', '.']
  lasting : Disk.temporaryEnding.isSuffixOf name = false

instance (name : Text) : Decidable (IsPlain name) :=
  decidable_of_iff (ofText name = ⟨.here, [name]⟩ ∧ name ≠ ['.', '.'] ∧
    Disk.temporaryEnding.isSuffixOf name = false)
    ⟨fun ⟨written, down, lasting⟩ => ⟨written, down, lasting⟩,
      fun plain => ⟨plain.written, plain.down, plain.lasting⟩⟩

variable (directory : FilePath) (name : Text)

/-- The system can tell what a path of the directory leads to, if it can be asked at all. -/
def Askable (directory : FilePath) (name : Text) : Prop :=
  (directory.below name).isUsable = true →
    Disk.size (directory.below name).toText ≤ Disk.longestPath ∧
      Disk.size name ≤ Disk.longestName

/-- What a plain name writes is the path of the name. -/
theorem IsPlain.child {name : Text} (plain : IsPlain name) :
    directory.child name = directory.below name := by
  rw [FilePath.child, plain.written]
  rfl

/-- The last name of a path in a directory is the name in the directory. -/
@[simp] theorem below_name : (directory.below name).name = name := by
  simp [below, FilePath.name]

/-- The names before it are those of the directory. -/
@[simp] theorem below_names : (directory.below name).names = directory.names ++ [name] := rfl

/-- It begins where the directory does. -/
@[simp] theorem below_anchor : (directory.below name).anchor = directory.anchor := rfl

/-- Its parent is the directory. -/
@[simp] theorem below_parent : (directory.below name).parent = directory := by
  simp [below, parent]

/-- Its extension is that of the name. -/
@[simp] theorem below_extension : (directory.below name).extension = extensionOf name := by
  simp [extension]

/-- The temporary file beside a file of a directory is in the directory as well. -/
theorem temporary_below : temporary (directory.below name) =
    directory.below (['.'] ++ name ++ Disk.temporaryEnding) := by
  simp [temporary, withName, below, FilePath.name]

/-- A path of a directory can be asked for if the directory and the name can. -/
theorem isUsable_below : (directory.below name).isUsable =
    (directory.isUsable && !name.contains '\x00') := by
  simp [isUsable, below]

end FilePath

namespace Disk

variable {disk : Disk} {directory : FilePath} {home place : Location} {name : Text}

/-- Names are followed one after the other. -/
theorem walk_append (disk : Disk) (start : Location) (names more : List Text) :
    disk.walk start (names ++ more) =
      (disk.walk start names).bind fun place => disk.walk place more := by
  induction names generalizing start with
  | nil => rfl
  | cons first rest ih =>
    simp only [List.cons_append, walk]
    split
    · split
      · rfl
      · split
        · exact ih _
        · exact ih _
    · rfl
    · rfl

/-- Where names lead when they are followed through folders is where they lead by themselves. -/
theorem follow_of_walk {start : Location} {names : List Text}
    (walked : disk.walk start names = .ok place) : Location.follow start names = place := by
  induction names generalizing start with
  | nil =>
    cases walked
    rfl
  | cons first rest ih =>
    simp only [walk] at walked
    simp only [Location.follow]
    split at walked
    · split at walked
      · cases walked
      · split at walked
        · next up => rw [if_pos up, ih walked]
        · next down => rw [if_neg down, ih walked]
    · cases walked
    · cases walked

/-- A path that leads to a place resolves to it. -/
theorem resolve_of_place {path : FilePath} (led : disk.place path = .ok place) :
    path.resolve disk.current = place := by
  have walked := walk_of_place led
  unfold FilePath.resolve
  split
  · next anchor =>
    rw [if_pos anchor] at walked
    exact follow_of_walk walked
  · next anchor =>
    rw [if_neg anchor] at walked
    exact follow_of_walk walked

/-- A path that leads to a place can be asked for. -/
theorem isUsable_of_place {path : FilePath} (led : disk.place path = .ok place) :
    path.isUsable = true := by
  unfold Disk.place at led
  split at led
  · cases led
  · next usable => simpa using usable

/-- A path that leads to a place is said to be there. -/
theorem placeOf_of_place {path : FilePath} (led : disk.place path = .ok place) :
    placeOf path disk = .ok place := by
  rw [placeOf, if_pos (isUsable_of_place led), resolve_of_place led]

/-- The folder that the names of a directory lead to. -/
def walkTo (disk : Disk) (directory : FilePath) : Except Refusal Location :=
  disk.walk (if directory.anchor = .here then disk.current else []) directory.names

/-- Where a path in a directory leads that is a folder. -/
theorem place_below (walked : disk.walkTo directory = .ok home)
    (folder : disk.entry? home = some .folder) (down : name ≠ ['.', '.']) :
    disk.place (directory.below name) =
      if !(directory.below name).isUsable then .error .notAPath
      else if longestPath < size (directory.below name).toText then .error .tooLong
      else if longestName < size name then .error .tooLong
      else .ok (home ++ [name]) := by
  have last : disk.walk home [name] =
      if longestName < size name then .error .tooLong else .ok (home ++ [name]) := by
    simp only [walk, folder, if_neg down]
  have whole : disk.walk (if (directory.below name).anchor = .here then disk.current else [])
      (directory.below name).names = disk.walk home [name] := by
    have parts := walk_append disk (if directory.anchor = .here then disk.current else [])
      directory.names [name]
    rw [show disk.walk (if directory.anchor = .here then disk.current else []) directory.names =
      .ok home from walked] at parts
    exact parts
  rw [Disk.place, whole, last]

/-- A path in a directory leads to its name below a folder, to which the directory leads. All but
the last name are followed through folders, while the last one only has to stand in a folder and
need not be there itself. -/
theorem place_below_eq_ok_iff (down : name ≠ ['.', '.']) :
    disk.place (directory.below name) = .ok place ↔
      (directory.below name).isUsable = true ∧
      size (directory.below name).toText ≤ longestPath ∧ size name ≤ longestName ∧
      ∃ home, disk.walkTo directory = .ok home ∧ disk.entry? home = some .folder ∧
        place = home ++ [name] := by
  have last (home : Location) : disk.walk home [name] = .ok place ↔
      size name ≤ longestName ∧ disk.entry? home = some .folder ∧ place = home ++ [name] := by
    simp only [walk, if_neg down]
    split
    · next folder =>
      split
      · next long =>
        constructor
        · intro impossible
          cases impossible
        · rintro ⟨short, _⟩
          omega
      · next short =>
        rw [Except.ok.injEq]
        exact ⟨fun same => ⟨by omega, folder, same.symm⟩, fun told => told.2.2.symm⟩
    · next file =>
      constructor
      · intro impossible
        cases impossible
      · rintro ⟨_, folder, _⟩
        rw [file] at folder
        cases folder
    · next missing =>
      constructor
      · intro impossible
        cases impossible
      · rintro ⟨_, folder, _⟩
        rw [missing] at folder
        cases folder
  have walked : disk.walk (if (directory.below name).anchor = .here then disk.current else [])
      (directory.below name).names = (disk.walkTo directory).bind fun home =>
        disk.walk home [name] :=
    walk_append disk _ _ _
  simp only [Disk.place, walked]
  by_cases usable : (directory.below name).isUsable = true
  · by_cases long : longestPath < size (directory.below name).toText
    · have beyond : ¬ size (directory.below name).toText ≤ longestPath := by omega
      simp [usable, long, beyond]
    · simp only [usable, Bool.not_true, Bool.false_eq_true, if_false, long, true_and]
      cases reached : disk.walkTo directory with
      | error refusal => simp [Except.bind]
      | ok home =>
        rw [show Except.bind (Except.ok home) (fun home => disk.walk home [name]) =
          disk.walk home [name] from rfl, last]
        constructor
        · rintro ⟨short, folder, same⟩
          exact ⟨by omega, short, home, rfl, folder, same⟩
        · rintro ⟨_, short, _, ⟨⟩, folder, same⟩
          exact ⟨short, folder, same⟩
  · simp [usable]

end Disk

end Daybook
