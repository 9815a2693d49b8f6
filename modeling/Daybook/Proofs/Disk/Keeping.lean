import Daybook.Ledger
import Daybook.Proofs.Disk.Storing

/-!
# What every writing operation keeps

A disk lists every place once and none that always exists, if it did so at the beginning. This is
a property of the list of places and not of what a lookup finds, so that it does not follow from
what operations write.
Every operation is made of two elementary ones, putting a file and dropping one; what both of
them keep, every operation keeps, whether or not it succeeds.
-/
namespace Daybook

namespace Disk

/-- Every place is listed once, and none of those that always exist. -/
structure Proper (disk : Disk) : Prop where
  once : (disk.entries.map Prod.fst).Nodup
  outside : ∀ place ∈ disk.entries.map Prod.fst, ¬ place.isPrefixOf disk.current

instance (disk : Disk) : Decidable disk.Proper :=
  decidable_of_iff ((disk.entries.map Prod.fst).Nodup ∧
    ∀ place ∈ disk.entries.map Prod.fst, ¬ place.isPrefixOf disk.current)
    ⟨fun ⟨once, outside⟩ => ⟨once, outside⟩, fun proper => ⟨proper.once, proper.outside⟩⟩

/-- Dropping a place lists no place again. -/
theorem Proper.drop {disk : Disk} (proper : disk.Proper) (place : Location) :
    Disk.Proper (disk.drop place) := by
  have fewer : ((disk.drop place).entries.map Prod.fst).Sublist (disk.entries.map Prod.fst) :=
    List.Sublist.map Prod.fst List.filter_sublist
  exact ⟨fewer.nodup proper.once, fun sought listed => proper.outside sought (fewer.subset listed)⟩

/-- What is put at a place takes the place of what was listed there. -/
theorem Proper.put {disk : Disk} (proper : disk.Proper) {place : Location}
    (outside : ¬ place.isPrefixOf disk.current) (entry : Entry) :
    Disk.Proper (disk.put place entry) := by
  refine ⟨List.nodup_cons.mpr ⟨?_, (proper.drop place).once⟩,
    List.forall_mem_cons.mpr ⟨outside, (proper.drop place).outside⟩⟩
  intro listed
  obtain ⟨held, kept, same⟩ := List.mem_map.mp listed
  exact absurd same (by simpa using (List.mem_filter.mp kept).2)

/-- A place is listed exactly if something stands there that does not always exist. -/
theorem Proper.listed_iff {disk : Disk} (proper : disk.Proper) {place : Location} :
    place ∈ disk.entries.map Prod.fst ↔
      ¬ place.isPrefixOf disk.current ∧ disk.entry? place ≠ none := by
  constructor
  · intro listed
    have outside := proper.outside place listed
    refine ⟨outside, fun nothing => ?_⟩
    simp only [ entry?, outside, Bool.false_eq_true, if_false] at nothing
    obtain ⟨held, member, rfl⟩ := List.mem_map.mp listed
    exact absurd (List.lookup_eq_none_iff.mp nothing held member) (by simp)
  · rintro ⟨outside, something⟩
    simp only [ entry?, outside, Bool.false_eq_true, if_false] at something
    by_contra unlisted
    refine something (List.lookup_eq_none_iff.mpr fun held member => ?_)
    have apart : place ≠ held.1 := by
      rintro rfl
      exact unlisted (List.mem_map.mpr ⟨held, member, rfl⟩)
    simpa using apart

end Disk

/-- An operation keeps a property of disks: what has it before has it afterwards, even when the
operation fails. -/
def Storing.Keeps {α : Type} (property : Disk → Prop) (storing : Storing α) : Prop :=
  ∀ disk, property disk → property (storing.outcome disk).2

/-- A property of disks that is kept when something is put where nothing always exists, or is
dropped. -/
structure Disk.Elementary (property : Disk → Prop) : Prop where
  put : ∀ disk place entry, ¬ place.isPrefixOf disk.current → property disk →
    property (disk.put place entry)
  drop : ∀ disk place, property disk → property (disk.drop place)

/-- That every place is listed once is such a property: putting an entry takes out the earlier one
of its place. -/
theorem Disk.elementary_proper : Disk.Elementary Disk.Proper :=
  ⟨fun _ _ entry outside proper => proper.put outside entry,
    fun _ place proper => proper.drop place⟩

namespace Storing

variable {α β : Type} {property : Disk → Prop}

/-- To do nothing keeps every property. -/
theorem keeps_pure (value : α) : Keeps property (pure value) :=
  fun _ held => held

/-- So does a failure. -/
theorem keeps_throw (failure : Failure) : Keeps property (throw failure : Storing α) :=
  fun _ held => held

/-- So does reading, which cannot change the disk. -/
theorem keeps_look (looking : Looking α) : Keeps property (look looking) := by
  intro disk held
  rw [outcome_look]
  exact held

/-- So does a result that is known without the disk. -/
theorem keeps_known (result : Except Failure α) : Keeps property (known result) :=
  keeps_look _

/-- A chain keeps what both of its parts keep. -/
theorem Keeps.bind {first : Storing α} {second : α → Storing β} (early : Keeps property first)
    (late : ∀ value, Keeps property (second value)) : Keeps property (first >>= second) := by
  intro disk held
  have middle := early disk held
  rw [outcome_bind]
  split
  · next value after ran =>
    rw [ran] at middle
    exact late value after middle
  · next failure after ran =>
    rw [ran] at middle
    exact middle

/-- An operation with a handler keeps what both keep. -/
theorem Keeps.tryCatch {operation : Storing α} {handler : Failure → Storing α}
    (early : Keeps property operation) (late : ∀ failure, Keeps property (handler failure)) :
    Keeps property (MonadExcept.tryCatch operation handler) := by
  intro disk held
  have middle := early disk held
  have shape := outcome_tryCatch operation handler disk
  rw [show (MonadExcept.tryCatch operation handler).outcome disk = _ from shape]
  split
  · next value after ran =>
    rw [ran] at middle
    exact middle
  · next failure after ran =>
    rw [ran] at middle
    exact late failure after middle

end Storing

open Storing

section Operations

variable {property : Disk → Prop}

/-- Writing a file is putting and dropping. The new file is put beside the old one and then takes
its place. If that fails the new file is dropped again, so that the two elementary steps are all
that ever happens to the disk. -/
theorem keeps_writeWhole (elementary : Disk.Elementary property) (path : FilePath)
    (content : Bytes) : Keeps property (writeWhole path content) := by
  intro disk held
  by_cases named : path.names = []
  · simpa [writeWhole, named] using held
  simp only [writeWhole, named, if_false, outcome_bind, outcome_get]
  cases written : disk.write (temporary path) content with
  | ok after =>
    obtain ⟨beside, _, clear, rfl⟩ := Disk.write_eq_ok_iff.mp written
    have outside := Disk.outside_of_not_folder clear
    cases renamed : (disk.put beside (.file content)).rename (temporary path) path with
    | error fault => simpa only [renamed, outcome_throw] using held
    | ok last =>
      obtain ⟨source, goal, entry, _, _, _, _, free, rfl⟩ := Disk.rename_eq_ok_iff.mp renamed
      have beyond := Disk.outside_of_not_folder free
      simp only [renamed, outcome_set]
      exact elementary.put _ goal entry beyond
        (elementary.drop _ source (elementary.put disk beside (.file content) outside held))
  | error fault =>
    cases removed : disk.remove (temporary path) with
    | ok after =>
      obtain ⟨place, _, _, _, rfl⟩ := Disk.remove_eq_ok_iff.mp removed
      exact elementary.drop disk place held
    | error other =>
      by_cases gone : other.refusal = .missing
      · simpa [gone] using held
      · simpa [gone] using held

/-- Appending is reading and then writing the whole. -/
theorem keeps_appendBytes (elementary : Disk.Elementary property) (path : FilePath)
    (more : Bytes) : Keeps property (appendBytes path more) :=
  (keeps_look _).bind fun _ => keeps_writeWhole elementary path _

/-- Including a file is reading, and then appending unless its line is there. -/
theorem keeps_ensureIncluded (elementary : Disk.Elementary property) (root : FilePath)
    (fileName : Text) : Keeps property (ensureIncluded root fileName) := by
  refine (keeps_look _).bind fun content => (keeps_known _).bind fun text => ?_
  split
  · exact keeps_pure _
  · exact (keeps_appendBytes elementary _ _).bind fun _ => keeps_pure _

/-- Appending an entry is appending to its file and including that file. -/
theorem keeps_appendEntry (elementary : Disk.Elementary property) (directory : FilePath)
    (layout : Layout) (entry : RenderedEntry) :
    Keeps property (appendEntry directory layout entry) :=
  (keeps_appendBytes elementary _ _).bind fun _ =>
    (keeps_ensureIncluded elementary _ _).bind fun _ => keeps_pure _

/-- Deleting a transaction writes once, after everything that can be refused has been asked. -/
theorem keeps_deleteTransaction (elementary : Disk.Elementary property) (id : Text) :
    Keeps property (Daybook.deleteTransaction id) :=
  (keeps_known _).bind fun _ => (keeps_look _).bind fun _ => (keeps_known _).bind fun _ =>
    keeps_writeWhole elementary _ _

/-- Appending to the accounts file is appending and including. -/
theorem keeps_appendToAccounts (elementary : Disk.Elementary property) (directory : FilePath)
    (layout : Layout) (content : Bytes) (text : Text) :
    Keeps property (appendToAccounts directory layout content text) :=
  (keeps_appendBytes elementary _ _).bind fun _ =>
    (keeps_ensureIncluded elementary _ _).bind fun _ => keeps_pure _

/-- Opening an account is that, behind the guards. -/
theorem keeps_addAccount (elementary : Disk.Elementary property) (directory : FilePath)
    (layout : Layout) (account : Account) :
    Keeps property (Daybook.addAccount directory layout account) := by
  refine (keeps_known _).bind fun text => (keeps_look _).bind fun ⟨content, page⟩ => ?_
  dsimp only
  split
  · exact (keeps_throw _).bind fun _ => keeps_appendToAccounts elementary _ _ _ _
  · exact keeps_appendToAccounts elementary _ _ _ _

/-- Deleting an account writes the accounts file once, behind the guards. -/
theorem keeps_deleteAccount (elementary : Disk.Elementary property) (directory : FilePath)
    (layout : Layout) (name : Text) :
    Keeps property (Daybook.deleteAccount directory layout name) := by
  refine (keeps_look _).bind fun ⟨content, page⟩ => ?_
  dsimp only
  split
  · exact (keeps_throw _).bind fun _ => (keeps_known _).bind fun _ =>
      keeps_writeWhole elementary _ _
  · exact (keeps_known _).bind fun _ => keeps_writeWhole elementary _ _

/-- Putting back a file that was there is writing it, and one that was not there is removed. -/
theorem keeps_restoreFile (elementary : Disk.Elementary property) (path : FilePath)
    (content : Option Bytes) : Keeps property (Snapshot.restoreFile path content) := by
  cases content with
  | some content => exact keeps_writeWhole elementary path content
  | none =>
    intro disk held
    simp only [Snapshot.restoreFile, outcome_bind, outcome_get]
    cases removed : disk.remove path with
    | ok after =>
      obtain ⟨place, _, _, _, rfl⟩ := Disk.remove_eq_ok_iff.mp removed
      exact elementary.drop disk place held
    | error fault =>
      by_cases gone : fault.refusal = .missing
      · simpa [gone] using held
      · simpa [gone] using held

/-- Putting files back keeps what putting each of them back keeps. -/
theorem keeps_restore (elementary : Disk.Elementary property) (snapshot : Snapshot) :
    Keeps property snapshot.restore := by
  unfold Snapshot.restore
  rw [List.forM_eq_forM]
  induction snapshot.contents with
  | nil => exact keeps_pure _
  | cons held rest ih => exact (keeps_restoreFile elementary held.1 held.2).bind fun _ => ih

/-- A protected operation keeps what the operation keeps. -/
theorem keeps_protecting {α : Type} (elementary : Disk.Elementary property)
    (paths : List FilePath) {operation : Storing α} (kept : Keeps property operation) :
    Keeps property (protecting paths operation) :=
  (keeps_look _).bind fun snapshot => kept.tryCatch fun _ =>
    (keeps_restore elementary snapshot).bind fun _ => keeps_throw _

namespace Ledger

variable (ledger : Ledger)

/-- An update keeps what its two steps keep, also when it is taken back, for putting files back is
writing as well. -/
theorem keeps_updateTransaction (elementary : Disk.Elementary property) (id : Text)
    (transaction : Transaction) : Keeps property (ledger.updateTransaction id transaction) :=
  (keeps_known _).bind fun _ => (keeps_look _).bind fun _ =>
    (keeps_protecting elementary _ ((keeps_deleteTransaction elementary id).bind fun _ =>
      (keeps_appendEntry elementary _ _ _).bind fun _ => keeps_pure _)).bind fun _ => keeps_pure _

/-- So does the update of an account. -/
theorem keeps_updateAccount (elementary : Disk.Elementary property) (name : Text)
    (account : Account) : Keeps property (ledger.updateAccount name account) :=
  (keeps_known _).bind fun _ => keeps_protecting elementary _
    ((keeps_deleteAccount elementary _ _ _).bind fun _ => keeps_addAccount elementary _ _ _)

end Ledger

end Operations

end Daybook
