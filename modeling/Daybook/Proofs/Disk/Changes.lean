import Daybook.Storage

/-!
# What an operation changes on a disk

A disk is only ever looked up, so two disks on which every lookup agrees are as good as
equal. The operations of this library put files in place of files and never make or remove
a folder while a ledger is edited. Since a path is followed through folders alone, every
path then leads to the same place before and after.

Three facts carry everything that is said about failed operations: what a lookup finds
after a file was put or dropped, that paths keep their places as long as the folders stay,
and that a disk which was only changed at some places agrees with the old one elsewhere.
-/
namespace Daybook.Disk

/-- A lookup among the pairs whose key is not `place` finds what it found before for every
other key, and nothing for `place`. -/
theorem lookup_filter_ne (entries : List (Location × Entry)) (place sought : Location) :
    (entries.filter fun held => held.1 ≠ place).lookup sought =
      if sought = place then none else entries.lookup sought := by
  induction entries with
  | nil => simp
  | cons held rest ih =>
    obtain ⟨key, entry⟩ := held
    by_cases dropped : key = place
    · subst dropped
      rw [List.filter_cons_of_neg (by simp), ih]
      by_cases asked : sought = key
      · rw [if_pos asked, if_pos asked]
      · have other : (sought == key) = false := beq_eq_false_iff_ne.mpr asked
        rw [if_neg asked, if_neg asked, List.lookup_cons, other]
    · rw [List.filter_cons_of_pos (by simpa using dropped), List.lookup_cons, List.lookup_cons, ih]
      by_cases asked : sought = key
      · subst asked
        simp [dropped]
      · have other : (sought == key) = false := beq_eq_false_iff_ne.mpr asked
        rw [other]

/-- After putting an entry at a place off the way to the working directory, that place holds
it and every other place holds what it held. -/
theorem entry_put {disk : Disk} {place : Location} (outside : ¬ place.isPrefixOf disk.current)
    (entry : Entry) (sought : Location) :
    Disk.entry? (disk.put place entry) sought =
      if sought = place then some entry else disk.entry? sought := by
  by_cases same : sought = place
  · subst same
    simp only [ entry?, put, outside, Bool.false_eq_true, if_false, if_true]
    rw [List.lookup_cons, beq_self_eq_true]
  · have other : (sought == place) = false := beq_eq_false_iff_ne.mpr same
    simp only [ entry?, put, List.lookup_cons, other, lookup_filter_ne, if_neg same]

/-- After dropping what stands at a place off the way to the working directory, nothing is
found there and every other place holds what it held. -/
theorem entry_drop {disk : Disk} {place : Location} (outside : ¬ place.isPrefixOf disk.current)
    (sought : Location) :
    Disk.entry? (disk.drop place) sought = if sought = place then none else disk.entry? sought := by
  by_cases same : sought = place
  · subst same
    simp only [ entry?, drop, outside, Bool.false_eq_true, if_false, lookup_filter_ne, if_true]
  · simp only [ entry?, drop, lookup_filter_ne, if_neg same]

/-- A place that holds no folder is not on the way to the working directory. -/
theorem outside_of_not_folder {disk : Disk} {place : Location}
    (free : disk.entry? place ≠ some .folder) : ¬ place.isPrefixOf disk.current := by
  intro within
  exact free (by simp [ entry?, within])

/-- `after` holds what `before` held except perhaps at the touched places, and both have
the same folders. -/
structure ChangedAt (before after : Disk) (touched : Location → Prop) : Prop where
  current : after.current = before.current
  elsewhere : ∀ place, ¬ touched place → after.entry? place = before.entry? place
  folders : ∀ place, after.entry? place = some .folder ↔ before.entry? place = some .folder

/-- Every place holds the same on both disks. -/
abbrev Same (before after : Disk) : Prop :=
  ChangedAt before after fun _ => False

namespace ChangedAt

variable {before after : Disk} {touched : Location → Prop}

/-- A disk is unchanged compared with itself. -/
theorem refl (disk : Disk) (touched : Location → Prop) : ChangedAt disk disk touched :=
  ⟨rfl, fun _ _ => rfl, fun _ => Iff.rfl⟩

/-- More places may be counted as touched. -/
theorem mono (changed : ChangedAt before after touched) {wider : Location → Prop}
    (covered : ∀ place, touched place → wider place) : ChangedAt before after wider :=
  ⟨changed.current,
    fun place untouched => changed.elsewhere place fun inside => untouched (covered place inside),
    changed.folders⟩

/-- Without touched places every lookup agrees. -/
theorem entry_eq (same : Same before after) (place : Location) :
    after.entry? place = before.entry? place :=
  same.elsewhere place id

end ChangedAt

/-- Names are followed through folders alone, so disks with the same folders lead to the same place.
Which files there are does not matter, so nothing that is written can change where a path leads. -/
theorem walk_eq_ok_iff {before after : Disk}
    (folders : ∀ place, after.entry? place = some .folder ↔ before.entry? place = some .folder)
    (start reached : Location) (names : List Text) :
    after.walk start names = .ok reached ↔ before.walk start names = .ok reached := by
  induction names generalizing start with
  | nil => simp [walk]
  | cons name rest ih =>
    by_cases folder : before.entry? start = some .folder
    · have still : after.entry? start = some .folder := (folders start).mpr folder
      simp only [walk, folder, still]
      split
      · simp
      · split
        · exact ih _
        · exact ih _
    · have still : after.entry? start ≠ some .folder := fun held => folder ((folders start).mp held)
      have refused (disk : Disk) (other : disk.entry? start ≠ some .folder) :
          disk.walk start (name :: rest) ≠ .ok reached := by
        simp only [walk]
        split <;> simp_all
      exact iff_of_false (refused after still) (refused before folder)

/-- As long as the folders stay, a path leads to the same place. -/
theorem place_eq_ok_iff {before after : Disk} {touched : Location → Prop}
    (changed : ChangedAt before after touched) (path : FilePath) (place : Location) :
    after.place path = .ok place ↔ before.place path = .ok place := by
  simp only [Disk.place, changed.current]
  split
  · simp
  · split
    · simp
    · exact walk_eq_ok_iff changed.folders _ _ _

end Daybook.Disk
