import Mathlib.Data.List.Infix
import Daybook.Proofs.Disk.Changes

/-!
# What a writing operation leaves

A writing operation yields a result or a failure and, either way, a disk. This module says
how the outcome of a composed operation is made of the outcomes of its parts, and what the
one operation that writes leaves: a failure leaves the disk as it was, and a success puts
the new content at the place of the path and changes nothing else.

The temporary file is never seen. Its name ends in digits that no other name has, which a
disk says of itself by being `Fresh`; so its place was empty before and is empty afterwards.
-/
namespace Daybook

namespace Storing

variable {α β : Type}

/-- What an operation yields on a disk, and the disk after it. -/
def outcome (storing : Storing α) (disk : Disk) : Except Failure α × Disk :=
  storing.run.run disk

/-- A value is yielded with the same disk. -/
@[simp] theorem outcome_pure (value : α) (disk : Disk) :
    (pure value : Storing α).outcome disk = (.ok value, disk) := rfl

/-- A failure is yielded with the disk as it is: what has been written stays. -/
@[simp] theorem outcome_throw (failure : Failure) (disk : Disk) :
    (throw failure : Storing α).outcome disk = (.error failure, disk) := rfl

/-- The disk can be asked for. -/
@[simp] theorem outcome_get (disk : Disk) :
    (get : Storing Disk).outcome disk = (.ok disk, disk) := rfl

/-- The disk can be exchanged. -/
@[simp] theorem outcome_set (next disk : Disk) :
    (set next : Storing PUnit).outcome disk = (.ok ⟨⟩, next) := rfl

/-- The second operation runs on the disk that the first one leaves, unless that one fails. -/
@[simp] theorem outcome_bind (first : Storing α) (second : α → Storing β) (disk : Disk) :
    (first >>= second).outcome disk =
      match first.outcome disk with
      | (.ok value, after) => (second value).outcome after
      | (.error failure, after) => (.error failure, after) := by
  simp only [outcome, ExceptT.run_bind, StateT.run_bind]
  cases first.run.run disk with
  | mk result after =>
    cases result with
    | ok value => rfl
    | error failure => rfl

/-- The handler runs on the disk that the failed operation leaves. -/
@[simp] theorem outcome_tryCatch (operation : Storing α) (handler : Failure → Storing α)
    (disk : Disk) :
    (tryCatch operation handler).outcome disk =
      match operation.outcome disk with
      | (.ok value, after) => (.ok value, after)
      | (.error failure, after) => (handler failure).outcome after := by
  cases ran : operation.run.run disk with
  | mk result after =>
    have same : StateT.run operation disk = (result, after) := ran
    simp only [outcome, tryCatch, tryCatchThe, MonadExceptOf.tryCatch, ExceptT.tryCatch,
      ExceptT.run_mk, StateT.run_bind, same, ran]
    cases result with
    | ok value => rfl
    | error failure => rfl

/-- A reading operation leaves the disk as it is. -/
@[simp] theorem outcome_look (looking : Looking α) (disk : Disk) :
    (look looking).outcome disk = (looking disk, disk) := by
  simp only [look, outcome_bind, outcome_get]
  cases looking disk <;> rfl

/-- A known result leaves the disk as it is. -/
@[simp] theorem outcome_known (result : Except Failure α) (disk : Disk) :
    (known result).outcome disk = (result, disk) :=
  outcome_look _ disk

/-- A chain succeeds exactly when its first part does and its second part does after it. -/
theorem outcome_bind_eq_ok_iff {first : Storing α} {second : α → Storing β} {disk last : Disk}
    {result : β} :
    (first >>= second).outcome disk = (.ok result, last) ↔
      ∃ value between, first.outcome disk = (.ok value, between) ∧
        (second value).outcome between = (.ok result, last) := by
  rw [outcome_bind]
  cases first.outcome disk with
  | mk outcome after =>
    cases outcome with
    | ok value =>
      constructor
      · intro ran
        exact ⟨value, after, rfl, ran⟩
      · rintro ⟨_, _, same, ran⟩
        cases same
        exact ran
    | error failure => simp

/-- A chain fails exactly when its first part does, or its second part does after it. -/
theorem outcome_bind_eq_error_iff {first : Storing α} {second : α → Storing β} {disk last : Disk}
    {failure : Failure} :
    (first >>= second).outcome disk = (.error failure, last) ↔
      first.outcome disk = (.error failure, last) ∨
        ∃ value between, first.outcome disk = (.ok value, between) ∧
          (second value).outcome between = (.error failure, last) := by
  rw [outcome_bind]
  cases first.outcome disk with
  | mk outcome after =>
    cases outcome with
    | ok value =>
      constructor
      · intro ran
        exact Or.inr ⟨value, after, rfl, ran⟩
      · rintro (impossible | ⟨_, _, same, ran⟩)
        · cases impossible
        · cases same
          exact ran
    | error failure => simp

/-- Where a condition holds the first of two operations runs. -/
theorem outcome_if_pos {condition : Prop} [Decidable condition] {first second : Storing α}
    {disk : Disk} (holds : condition) :
    (if condition then first else second).outcome disk = first.outcome disk := by
  rw [if_pos holds]

/-- Where a condition fails the second of two operations runs. -/
theorem outcome_if_neg {condition : Prop} [Decidable condition] {first second : Storing α}
    {disk : Disk} (fails : ¬ condition) :
    (if condition then first else second).outcome disk = second.outcome disk := by
  rw [if_neg fails]

/-- A reading operation yields what it finds on the disk, and the same disk. -/
theorem outcome_look_eq_iff {looking : Looking α} {disk last : Disk} {result : Except Failure α} :
    (look looking).outcome disk = (result, last) ↔ looking disk = result ∧ last = disk := by
  rw [outcome_look, Prod.mk.injEq, eq_comm (a := disk)]

/-- A known result is yielded with the same disk. -/
theorem outcome_known_eq_iff {known : Except Failure α} {disk last : Disk}
    {result : Except Failure α} :
    (Storing.known known).outcome disk = (result, last) ↔ known = result ∧ last = disk :=
  outcome_look_eq_iff

/-- A chain that begins by reading succeeds exactly when something is read and the rest succeeds
with it on the same disk. -/
theorem look_bind_eq_ok_iff {looking : Looking α} {second : α → Storing β} {disk last : Disk}
    {result : β} :
    (look looking >>= second).outcome disk = (.ok result, last) ↔
      ∃ value, looking disk = .ok value ∧ (second value).outcome disk = (.ok result, last) := by
  rw [outcome_bind_eq_ok_iff]
  constructor
  · rintro ⟨value, _, looked, ran⟩
    obtain ⟨found, rfl⟩ := outcome_look_eq_iff.mp looked
    exact ⟨value, found, ran⟩
  · rintro ⟨value, found, ran⟩
    exact ⟨value, disk, outcome_look_eq_iff.mpr ⟨found, rfl⟩, ran⟩

/-- A chain that begins by reading fails exactly when the reading does, which leaves the disk as it
is, or something is read and the rest fails with it on the same disk. -/
theorem look_bind_eq_error_iff {looking : Looking α} {second : α → Storing β} {disk last : Disk}
    {failure : Failure} :
    (look looking >>= second).outcome disk = (.error failure, last) ↔
      looking disk = .error failure ∧ last = disk ∨
        ∃ value, looking disk = .ok value ∧
          (second value).outcome disk = (.error failure, last) := by
  rw [outcome_bind_eq_error_iff, outcome_look_eq_iff]
  refine or_congr_right ⟨?_, ?_⟩
  · rintro ⟨value, _, looked, ran⟩
    obtain ⟨found, rfl⟩ := outcome_look_eq_iff.mp looked
    exact ⟨value, found, ran⟩
  · rintro ⟨value, found, ran⟩
    exact ⟨value, disk, outcome_look_eq_iff.mpr ⟨found, rfl⟩, ran⟩

/-- A chain that begins with a known result succeeds exactly when the result is a value and the rest
succeeds with it. -/
theorem known_bind_eq_ok_iff {known : Except Failure α} {second : α → Storing β}
    {disk last : Disk} {result : β} :
    (Storing.known known >>= second).outcome disk = (.ok result, last) ↔
      ∃ value, known = .ok value ∧ (second value).outcome disk = (.ok result, last) :=
  look_bind_eq_ok_iff

/-- A chain that begins with a known result fails exactly when the result is the failure, which
leaves the disk as it is, or it is a value and the rest fails with it. -/
theorem known_bind_eq_error_iff {known : Except Failure α} {second : α → Storing β}
    {disk last : Disk} {failure : Failure} :
    (Storing.known known >>= second).outcome disk = (.error failure, last) ↔
      known = .error failure ∧ last = disk ∨
        ∃ value, known = .ok value ∧ (second value).outcome disk = (.error failure, last) :=
  look_bind_eq_error_iff

/-- A chain that begins by reading fails without a trace if the rest does, whatever is read. -/
theorem look_bind_refused {looking : Looking α} {second : α → Storing β} {disk : Disk}
    (refused : ∀ value, ∃ failure, (second value).outcome disk = (.error failure, disk)) :
    ∃ failure, (look looking >>= second).outcome disk = (.error failure, disk) := by
  cases found : looking disk with
  | error failure => exact ⟨failure, look_bind_eq_error_iff.mpr (Or.inl ⟨found, rfl⟩)⟩
  | ok value =>
    obtain ⟨failure, failed⟩ := refused value
    exact ⟨failure, look_bind_eq_error_iff.mpr (Or.inr ⟨value, found, failed⟩)⟩

/-- A chain that begins with a known result fails without a trace if the rest does. -/
theorem known_bind_refused {known : Except Failure α} {second : α → Storing β} {disk : Disk}
    (refused : ∀ value, ∃ failure, (second value).outcome disk = (.error failure, disk)) :
    ∃ failure, (Storing.known known >>= second).outcome disk = (.error failure, disk) :=
  look_bind_refused refused

end Storing

namespace Disk

/-- The last name on the way to a place is one that only temporary files have. -/
def isTemporary (place : Location) : Bool :=
  temporaryEnding.isSuffixOf (place.getLast?.getD [])

/-- No file or folder has the name of a temporary file. -/
def Fresh (disk : Disk) : Prop :=
  ∀ place, isTemporary place = true → disk.entry? place = none

/-- Something stands at a place if the place is listed or on the way to the working
directory, so only those places have to be looked at. -/
theorem fresh_iff (disk : Disk) : disk.Fresh ↔
    ∀ place ∈ disk.current.inits ++ disk.entries.map Prod.fst, isTemporary place = false := by
  constructor
  · intro fresh place standing
    rw [Bool.eq_false_iff]
    intro temporary
    have empty := fresh place temporary
    by_cases within : place.isPrefixOf disk.current
    · simp [ entry?, within] at empty
    · rcases List.mem_append.mp standing with inside | listed
      · exact within (List.isPrefixOf_iff_prefix.mpr (List.mem_inits _ _ |>.mp inside))
      · obtain ⟨held, member, rfl⟩ := List.mem_map.mp listed
        simp only [ entry?, within, Bool.false_eq_true, if_false] at empty
        have unlike := List.lookup_eq_none_iff.mp empty held member
        simp at unlike
  · intro ordinary place temporary
    have apart : place ∉ disk.current.inits ++ disk.entries.map Prod.fst := by
      intro standing
      rw [ordinary place standing] at temporary
      cases temporary
    rw [List.mem_append, not_or] at apart
    have outside : ¬ place.isPrefixOf disk.current := by
      intro within
      exact apart.1 ((List.mem_inits _ _).mpr (List.isPrefixOf_iff_prefix.mp within))
    simp only [ entry?, outside, Bool.false_eq_true, if_false]
    refine List.lookup_eq_none_iff.mpr ?_
    intro held member
    have unlike : place ≠ held.1 := by
      rintro rfl
      exact apart.2 (List.mem_map.mpr ⟨held, member, rfl⟩)
    simpa using unlike

instance (disk : Disk) : Decidable disk.Fresh :=
  decidable_of_iff _ (fresh_iff disk).symm

/-- A file can be written through a path: the path and the temporary path beside it lead to
places, neither of which holds a folder. -/
structure Writable (disk : Disk) (path : FilePath) (place beside : Location) : Prop where
  named : path.names ≠ []
  plain : path.name ≠ ['.', '.']
  leads : disk.place path = .ok place
  leadsBeside : disk.place (temporary path) = .ok beside
  file : disk.entry? place ≠ some .folder
  clear : disk.entry? beside ≠ some .folder

/-- Following names that end in a plain one leads to a place that ends in it. By induction on the
names in front of it, which only change where the last step begins. -/
theorem getLast_walk {disk : Disk} {start reached : Location} {names : List Text} {name : Text}
    (plain : name ≠ ['.', '.']) (walked : disk.walk start (names ++ [name]) = .ok reached) :
    reached.getLast? = some name := by
  induction names generalizing start with
  | nil =>
    simp only [List.nil_append, walk, plain, if_false] at walked
    split at walked
    · split at walked
      · cases walked
      · cases walked
        exact List.getLast?_concat
    · cases walked
    · cases walked
  | cons first rest ih =>
    simp only [List.cons_append, walk] at walked
    split at walked
    · split at walked
      · cases walked
      · split at walked
        · exact ih walked
        · exact ih walked
    · cases walked
    · cases walked

/-- What a path leads to is found by following its names. -/
theorem walk_of_place {disk : Disk} {path : FilePath} {place : Location}
    (led : disk.place path = .ok place) :
    disk.walk (if path.anchor = .here then disk.current else []) path.names = .ok place := by
  simp only [Disk.place] at led
  split at led
  · cases led
  · split at led
    · cases led
    · exact led

/-- The temporary path beside a path leads to a place that only temporary files have. -/
theorem isTemporary_of_place {disk : Disk} {path : FilePath} {beside : Location}
    (led : disk.place (temporary path) = .ok beside) : isTemporary beside = true := by
  have ending : temporaryEnding <:+ (temporary path).name := by
    simp only [temporary, FilePath.withName, FilePath.name, List.getLast?_concat,
      Option.getD_some]
    exact List.suffix_append _ _
  have last : beside.getLast? = some (temporary path).name := by
    have names : (temporary path).names = path.names.dropLast ++ [(temporary path).name] := by
      simp [temporary, FilePath.withName, FilePath.name]
    have walked := walk_of_place led
    rw [names] at walked
    refine getLast_walk ?_ walked
    intro dots
    have short := ending.length_le
    rw [dots] at short
    exact absurd short (by decide)
  rw [isTemporary, last]
  exact List.isSuffixOf_iff_suffix.mpr ending

/-- Writing succeeds exactly where a path leads to no folder, and puts the file there. -/
theorem write_eq_ok_iff {disk after : Disk} {path : FilePath} {content : Bytes} :
    disk.write path content = .ok after ↔
      ∃ place, disk.place path = .ok place ∧ disk.entry? place ≠ some .folder ∧
        after = disk.put place (.file content) := by
  cases led : disk.place path with
  | error refusal => simp [write, blame, led, bind, Except.bind, Except.mapError]
  | ok place =>
    by_cases folder : disk.entry? place = some .folder
    · simp [write, blame, led, folder, bind, Except.bind, Except.mapError]
    · simp only [write, blame, led, folder, bind, Except.bind, Except.mapError, if_false,
        Except.ok.injEq, exists_eq_left', ne_eq, not_false_eq_true, true_and]
      exact eq_comm

/-- Removing succeeds exactly where a path leads to a file, and drops it. -/
theorem remove_eq_ok_iff {disk after : Disk} {path : FilePath} :
    disk.remove path = .ok after ↔
      ∃ place content, disk.place path = .ok place ∧
        disk.entry? place = some (.file content) ∧ after = disk.drop place := by
  cases led : disk.place path with
  | error refusal => simp [remove, blame, led, bind, Except.bind, Except.mapError]
  | ok place =>
    cases held : disk.entry? place with
    | none => simp [remove, blame, led, held, bind, Except.bind, Except.mapError]
    | some entry =>
      cases entry with
      | folder => simp [remove, blame, led, held, bind, Except.bind, Except.mapError]
      | file content =>
        simp [remove, blame, led, held, bind, Except.bind, Except.mapError, eq_comm]

/-- Renaming succeeds exactly where the first path leads to something, the second one leads
to no folder, and its last name is a plain one. -/
theorem rename_eq_ok_iff {disk after : Disk} {path target : FilePath} :
    disk.rename path target = .ok after ↔
      ∃ source goal entry, disk.place path = .ok source ∧ disk.place target = .ok goal ∧
        target.name ≠ ['.', '.'] ∧ disk.entry? source = some entry ∧
        disk.entry? goal ≠ some .folder ∧ after = (disk.drop source).put goal entry := by
  cases led : disk.place path with
  | error refusal => simp [rename, led, bind, Except.bind, Except.mapError]
  | ok source =>
    cases aimed : disk.place target with
    | error refusal => simp [rename, led, aimed, bind, Except.bind, Except.mapError]
    | ok goal =>
      by_cases dots : target.name = ['.', '.']
      · simp [rename, led, aimed, dots, bind, Except.bind, Except.mapError]
      · cases held : disk.entry? source with
        | none => simp [rename, led, aimed, dots, held, bind, Except.bind, Except.mapError]
        | some entry =>
          by_cases folder : disk.entry? goal = some .folder
          · simp [rename, led, aimed, dots, held, folder, bind, Except.bind, Except.mapError]
          · have free : some Entry.folder ≠ disk.entry? goal := Ne.symm folder
            simp [rename, led, aimed, dots, held, folder, free, bind, Except.bind,
              Except.mapError, eq_comm]

/-- Putting a file where no folder is changes that place only. -/
theorem changedAt_put {disk : Disk} {place : Location} (free : disk.entry? place ≠ some .folder)
    (content : Bytes) : ChangedAt disk (disk.put place (.file content)) (· = place) := by
  have outside := outside_of_not_folder free
  refine ⟨rfl, ?_, ?_⟩
  · intro sought other
    rw [entry_put outside, if_neg other]
  · intro sought
    rw [entry_put outside]
    by_cases same : sought = place
    · subst same
      simp [free]
    · rw [if_neg same]

/-- `after` is `before` with a file at one place and nothing at another. -/
structure Replaced (before after : Disk) (place beside : Location) (content : Bytes) : Prop where
  current : after.current = before.current
  entry : ∀ sought, after.entry? sought =
    if sought = place then some (.file content)
    else if sought = beside then none else before.entry? sought

/-- Where neither place held a folder only the two have changed. -/
theorem Replaced.changed {before after : Disk} {path : FilePath} {place beside : Location}
    {content : Bytes} (replaced : Replaced before after place beside content)
    (writable : before.Writable path place beside) :
    ChangedAt before after fun sought => sought = place ∨ sought = beside := by
  refine ⟨replaced.current, fun sought apart => ?_, fun sought => ?_⟩
  · rw [not_or] at apart
    rw [replaced.entry, if_neg apart.1, if_neg apart.2]
  · rw [replaced.entry]
    by_cases here : sought = place
    · simp [here, writable.file]
    · by_cases hidden : sought = beside
      · rw [if_neg here, if_pos hidden, hidden]
        simp [writable.clear]
      · rw [if_neg here, if_neg hidden]

end Disk

open Disk

/-- A file that can be written is written: the new content stands at its place and nothing at
the place of the temporary file. -/
theorem writeWhole_of_writable {disk : Disk} {path : FilePath} {place beside : Location}
    (writable : disk.Writable path place beside) (content : Bytes) :
    ∃ after, (writeWhole path content).outcome disk = (.ok ⟨⟩, after) ∧
      Replaced disk after place beside content := by
  have written : disk.write (temporary path) content = .ok (disk.put beside (.file content)) :=
    write_eq_ok_iff.mpr ⟨beside, writable.leadsBeside, writable.clear, rfl⟩
  have changed := changedAt_put writable.clear content
  have besideOutside := outside_of_not_folder writable.clear
  have outside := outside_of_not_folder writable.file
  have held : Disk.entry? (disk.put beside (.file content)) beside = some (.file content) := by
    rw [entry_put besideOutside, if_pos rfl]
  have renamed : (disk.put beside (.file content)).rename (temporary path) path =
      .ok (((disk.put beside (.file content)).drop beside).put place (.file content)) := by
    refine rename_eq_ok_iff.mpr ⟨beside, place, .file content, ?_, ?_, writable.plain, held, ?_, rfl⟩
    · exact (place_eq_ok_iff changed _ _).mpr writable.leadsBeside
    · exact (place_eq_ok_iff changed _ _).mpr writable.leads
    · exact fun folder => writable.file ((changed.folders place).mp folder)
  refine ⟨((disk.put beside (.file content)).drop beside).put place (.file content), ?_, rfl, ?_⟩
  · simp only [writeWhole, writable.named, if_false, Storing.outcome_bind,
      Storing.outcome_get, written, renamed, Storing.outcome_set]
  · intro sought
    have putOutside : ¬ beside.isPrefixOf (disk.put beside (.file content)).current :=
      besideOutside
    have dropOutside : ¬ place.isPrefixOf
        ((disk.put beside (.file content)).drop beside).current := outside
    rw [entry_put dropOutside, entry_drop putOutside, entry_put besideOutside]
    by_cases same : sought = beside
    · simp [same]
    · simp [same]

/-- A file that cannot be written is not: the operation fails and leaves the disk as it was. The
temporary file is written beside the old one first. If it cannot take the place of the old one it is
removed, and since no file had its name the disk is what it was. -/
theorem writeWhole_of_not_writable {disk : Disk} {path : FilePath}
    (unwritable : ∀ place beside, ¬ disk.Writable path place beside) (content : Bytes) :
    ∃ failure, (writeWhole path content).outcome disk = (.error failure, disk) := by
  by_cases named : path.names = []
  · exact ⟨.nameless path.toText, by simp [writeWhole, named]⟩
  · simp only [writeWhole, named, if_false, Storing.outcome_bind, Storing.outcome_get]
    cases written : disk.write (temporary path) content with
    | ok after =>
      obtain ⟨beside, led, clear, rfl⟩ := write_eq_ok_iff.mp written
      cases renamed : (disk.put beside (.file content)).rename (temporary path) path with
      | error fault =>
        exact ⟨.unwritable path.toText fault, by simp only [renamed, Storing.outcome_throw]⟩
      | ok last =>
        obtain ⟨source, goal, entry, _, aimed, plain, _, file, _⟩ := rename_eq_ok_iff.mp renamed
        have changed := changedAt_put clear content
        have aims : disk.place path = .ok goal := (place_eq_ok_iff changed _ _).mp aimed
        have noFolder : disk.entry? goal ≠ some .folder := fun folder =>
          file ((changed.folders goal).mpr folder)
        exact absurd ⟨named, plain, aims, led, noFolder, clear⟩ (unwritable goal beside)
    | error fault =>
      cases removed : disk.remove (temporary path) with
      | ok after =>
        -- A file that could be removed there could have been written there too.
        obtain ⟨beside, old, led, held, _⟩ := remove_eq_ok_iff.mp removed
        have clear : disk.entry? beside ≠ some .folder := by rw [held]; simp
        rw [write_eq_ok_iff.mpr ⟨beside, led, clear, rfl⟩] at written
        cases written
      | error other =>
        by_cases gone : other.refusal = .missing
        · exact ⟨.unwritable path.toText fault, by simp [gone]⟩
        · exact ⟨.refused other, by simp [gone]⟩

/-- Every write is one of the two, so that what it leaves is known without asking what stands in the
way: a file that has the content, or the disk as it was. -/
theorem writeWhole_cases (disk : Disk) (path : FilePath) (content : Bytes) :
    (∃ place beside after, disk.Writable path place beside ∧
      (writeWhole path content).outcome disk = (.ok ⟨⟩, after) ∧
      Replaced disk after place beside content) ∨
    ∃ failure, (writeWhole path content).outcome disk = (.error failure, disk) := by
  by_cases able : ∃ place beside, disk.Writable path place beside
  · obtain ⟨place, beside, writable⟩ := able
    obtain ⟨after, done, replaced⟩ := writeWhole_of_writable writable content
    exact Or.inl ⟨place, beside, after, writable, done, replaced⟩
  · exact Or.inr (writeWhole_of_not_writable
      (fun place beside writable => able ⟨place, beside, writable⟩) content)

end Daybook
