import Daybook.Ledger
import Daybook.Proofs.Disk.Storing
import Daybook.Proofs.Result

/-!
# Updates are all or nothing

An update runs several writing steps under the protection of a snapshot. Either all of them
succeed, and then the disk is the one that deleting and then adding would have left, or one
of them fails, and then every place holds again what it held before.

The argument does not depend on which step fails. While the steps run, the disk differs from
the old one only at places of files that have been written, and the paths of those files are
the first ones of the snapshot. A file that could be written once can be written again as
long as no folder comes or goes, so putting back the files in the order of the snapshot
reaches every file that was changed before it can fail. From then on there is nothing left
to undo, and putting back what is there already changes nothing.
-/
namespace Daybook

open Disk

/-- `after` differs from `before` at most at the places of the written paths, each of which
can be written. -/
structure Trail (before after : Disk) (written : List FilePath) : Prop where
  writable : ∀ path ∈ written, ∃ place beside, before.Writable path place beside
  changed : ChangedAt before after fun place => ∃ path ∈ written, before.place path = .ok place

/-- A path can be written on both of two disks with the same folders, or on neither. -/
theorem writable_iff {before after : Disk} {touched : Location → Prop}
    (changed : ChangedAt before after touched) (path : FilePath) (place beside : Location) :
    after.Writable path place beside ↔ before.Writable path place beside := by
  constructor
  · intro writable
    exact ⟨writable.named, writable.plain, (place_eq_ok_iff changed _ _).mp writable.leads,
      (place_eq_ok_iff changed _ _).mp writable.leadsBeside,
      fun folder => writable.file ((changed.folders place).mpr folder),
      fun folder => writable.clear ((changed.folders beside).mpr folder)⟩
  · intro writable
    exact ⟨writable.named, writable.plain, (place_eq_ok_iff changed _ _).mpr writable.leads,
      (place_eq_ok_iff changed _ _).mpr writable.leadsBeside,
      fun folder => writable.file ((changed.folders place).mp folder),
      fun folder => writable.clear ((changed.folders beside).mp folder)⟩

namespace Trail

variable {before after last : Disk} {written : List FilePath} {path : FilePath}

/-- Nothing has been written yet. -/
theorem start (disk : Disk) : Trail disk disk [] :=
  ⟨by simp, ChangedAt.refl disk _⟩

/-- Without written paths every place holds what it held. -/
theorem same (trail : Trail before after []) : Same before after :=
  trail.changed.mono (by simp)

/-- How often and in which order the files were written does not matter. -/
theorem congr (trail : Trail before after written) {listed : List FilePath}
    (members : ∀ path, path ∈ written ↔ path ∈ listed) : Trail before after listed := by
  refine ⟨fun path member => trail.writable path ((members path).mpr member), ?_⟩
  refine trail.changed.mono ?_
  rintro place ⟨path, member, led⟩
  exact ⟨path, (members path).mp member, led⟩

/-- A file put at the place of a written path, with nothing beside it, leaves the trail. The path
may have been written before on the same trail. This does not matter, because only the places that
differ are kept track of, and not what was written there. -/
theorem replaced (fresh : before.Fresh) (trail : Trail before after written)
    {place beside : Location} {content : Bytes}
    (writable : before.Writable path place beside)
    (made : Replaced after last place beside content) :
    Trail before last (written ++ [path]) := by
  have empty : before.entry? beside = none :=
    fresh beside (isTemporary_of_place writable.leadsBeside)
  refine ⟨?_, ?_, ?_, ?_⟩
  · intro other member
    rcases List.mem_append.mp member with earlier | now
    · exact trail.writable other earlier
    · exact ⟨place, beside, List.mem_singleton.mp now ▸ writable⟩
  · rw [made.current, trail.changed.current]
  · intro sought untouched
    have apart : sought ≠ place := by
      rintro rfl
      exact untouched ⟨path, by simp, writable.leads⟩
    rw [made.entry, if_neg apart]
    by_cases hidden : sought = beside
    · rw [if_pos hidden, hidden, empty]
    · rw [if_neg hidden]
      refine trail.changed.elsewhere sought ?_
      rintro ⟨other, member, led⟩
      exact untouched ⟨other, List.mem_append_left _ member, led⟩
  · intro sought
    rw [made.entry]
    by_cases here : sought = place
    · rw [if_pos here, here]
      simp [writable.file]
    · by_cases hidden : sought = beside
      · rw [if_neg here, if_pos hidden, hidden, empty]
      · rw [if_neg here, if_neg hidden]
        exact trail.changed.folders sought

/-- Where the place of a written path holds again what it held at first, the path leaves the trail.
Other paths of the trail may lead to the same place, written in another way. They stay on the trail,
which only bounds the places that differ. -/
theorem settled {place : Location} (trail : Trail before after (path :: written))
    (leads : before.place path = .ok place) (current : last.current = after.current)
    (entry : ∀ sought, last.entry? sought = before.entry? sought ∨
      (sought ≠ place ∧ last.entry? sought = after.entry? sought)) :
    Trail before last written := by
  refine ⟨fun other member => trail.writable other (List.mem_cons_of_mem path member), ?_, ?_, ?_⟩
  · rw [current, trail.changed.current]
  · intro sought free
    rcases entry sought with settled | ⟨apart, same⟩
    · exact settled
    · rw [same]
      refine trail.changed.elsewhere sought ?_
      rintro ⟨other, member, led⟩
      rcases List.mem_cons.mp member with rfl | later
      · rw [leads] at led
        exact apart (by cases led; rfl)
      · exact free ⟨other, later, led⟩
  · intro sought
    rcases entry sought with settled | ⟨_, same⟩
    · rw [settled]
    · rw [same]
      exact trail.changed.folders sought

/-- One more file is written and joins the trail, or the operation fails and leaves no trace. -/
theorem write (fresh : before.Fresh) (trail : Trail before after written) (content : Bytes)
    {result : Except Failure PUnit}
    (ran : (writeWhole path content).outcome after = (result, last)) :
    (∃ failure, result = .error failure ∧ last = after) ∨
      (result = .ok ⟨⟩ ∧ Trail before last (written ++ [path])) := by
  rcases writeWhole_cases after path content with
    ⟨place, beside, made, writable, done, replaced⟩ | ⟨failure, failed⟩
  · rw [done] at ran
    cases ran
    have ours := (writable_iff trail.changed path place beside).mp writable
    exact Or.inr ⟨rfl, trail.replaced fresh ours replaced⟩
  · rw [failed] at ran
    cases ran
    exact Or.inl ⟨failure, rfl, rfl⟩

/-- Appending to a file writes it, or fails and leaves no trace. -/
theorem append (fresh : before.Fresh) (trail : Trail before after written) (more : Bytes)
    {result : Except Failure PUnit}
    (ran : (appendBytes path more).outcome after = (result, last)) :
    (∃ failure, result = .error failure ∧ last = after) ∨
      (result = .ok ⟨⟩ ∧ Trail before last (written ++ [path])) := by
  simp only [appendBytes, Storing.outcome_bind, Storing.outcome_look] at ran
  cases read : readIfPresent path after with
  | error failure =>
    rw [read] at ran
    cases ran
    exact Or.inl ⟨failure, rfl, rfl⟩
  | ok content =>
    rw [read] at ran
    exact trail.write fresh (content ++ more) ran

end Trail

/-- What a snapshot says about a path: the content of the file that it leads to, or that it
leads to nothing. -/
def Recorded (disk : Disk) (path : FilePath) : Option Bytes → Prop
  | some content => ∃ place, disk.place path = .ok place ∧ disk.entry? place = some (.file content)
  | none => ∀ place, disk.place path = .ok place → disk.entry? place = none

/-- A file that was read stands at the place of its path. -/
theorem entry_of_readBytes {label : Text} {path : FilePath} {disk : Disk} {content : Bytes}
    (read : readBytes label path disk = .ok content) :
    ∃ place, disk.place path = .ok place ∧ disk.entry? place = some (.file content) := by
  simp only [readBytes, Disk.read, blame, mapError_eq_ok_iff, Disk.find, bind_eq_ok_iff] at read
  obtain ⟨entry, ⟨place, led, held⟩, isFile⟩ := read
  cases found : disk.entry? place with
  | none =>
    rw [found] at held
    cases held
  | some standing =>
    rw [found] at held
    cases held
    cases entry with
    | folder => cases isFile
    | file stored =>
      cases isFile
      exact ⟨place, led, found⟩

/-- Where nothing is said to be, a path leads to nothing. -/
theorem entry_of_isPresent_false {path : FilePath} {disk : Disk}
    (absent : isPresent path disk = .ok false) (place : Location)
    (led : disk.place path = .ok place) : disk.entry? place = none := by
  cases found : disk.entry? place with
  | none => rfl
  | some entry =>
    have reached : disk.find path = .ok entry := by
      simp only [Disk.find, led, bind, Except.bind, found]
    simp [isPresent, Disk.holds, Disk.holdsEntry, reached] at absent

/-- A snapshot records every one of its paths once and truthfully. A path is recorded with its
content or as missing, and the disk was not changed between the two questions that are asked for
it. -/
theorem recorded_of_take {paths : List FilePath} {disk : Disk} {snapshot : Snapshot}
    (taken : Snapshot.take paths disk = .ok snapshot) :
    snapshot.contents.map Prod.fst = paths.eraseDups ∧
      ∀ held ∈ snapshot.contents, Recorded disk held.1 held.2 := by
  obtain ⟨contents, mapped, made⟩ := bind_eq_ok_iff.mp taken
  cases made
  have records (path : FilePath) (held : FilePath × Option Bytes)
      (made : (do
        if ← isPresent path disk then
          let content ← readBytes path.toText path disk
          return (path, some content)
        else return (path, none) : Except Failure (FilePath × Option Bytes)) = .ok held) :
      held.1 = path ∧ Recorded disk held.1 held.2 := by
    obtain ⟨present, asked, rest⟩ := bind_eq_ok_iff.mp made
    cases present with
    | false =>
      cases rest
      exact ⟨rfl, entry_of_isPresent_false asked⟩
    | true =>
      obtain ⟨content, read, kept⟩ := bind_eq_ok_iff.mp rest
      cases kept
      exact ⟨rfl, entry_of_readBytes read⟩
  have each := forall₂_of_mapM_eq_ok mapped
  clear mapped taken
  generalize paths.eraseDups = listed at each ⊢
  induction each with
  | nil => exact ⟨rfl, by simp⟩
  | cons made _ ih =>
    obtain ⟨same, recorded⟩ := records _ _ made
    refine ⟨by rw [List.map_cons, ih.1, same], ?_⟩
    intro held member
    rcases List.mem_cons.mp member with rfl | later
    · exact recorded
    · exact ih.2 held later

/-- Putting back a file that was written takes its place out of the trail. Both ways of putting
back, writing the old content and removing what was not there, end with the same lemma on a place
that holds again what it held at first. -/
theorem restoreFile_written {before after : Disk} {path : FilePath} {more : List FilePath}
    {content : Option Bytes} (fresh : before.Fresh) (trail : Trail before after (path :: more))
    (recorded : Recorded before path content) :
    ∃ last, (Snapshot.restoreFile path content).outcome after = (.ok ⟨⟩, last) ∧
      Trail before last more := by
  obtain ⟨place, beside, writable⟩ := trail.writable path List.mem_cons_self
  have led : after.place path = .ok place := (place_eq_ok_iff trail.changed _ _).mpr writable.leads
  have noFolder : after.entry? place ≠ some .folder := fun folder =>
    writable.file ((trail.changed.folders place).mp folder)
  cases content with
  | some content =>
    obtain ⟨origin, known, held⟩ := recorded
    obtain rfl : place = origin := Except.ok.inj (writable.leads.symm.trans known)
    obtain ⟨last, done, replaced⟩ :=
      writeWhole_of_writable ((writable_iff trail.changed _ _ _).mpr writable) content
    refine ⟨last, done, trail.settled writable.leads replaced.current fun sought => ?_⟩
    by_cases here : sought = place
    · rw [replaced.entry, if_pos here, here, held]
      exact Or.inl rfl
    · by_cases hidden : sought = beside
      · rw [replaced.entry, if_neg here, if_pos hidden, hidden]
        exact Or.inl (fresh beside (isTemporary_of_place writable.leadsBeside)).symm
      · rw [replaced.entry, if_neg here, if_neg hidden]
        exact Or.inr ⟨here, rfl⟩
  | none =>
    have empty : before.entry? place = none := recorded place writable.leads
    cases held : after.entry? place with
    | none =>
      have refused : after.remove path = .error ⟨.missing, path.toText, none⟩ := by
        simp [Disk.remove, blame, led, held, bind, Except.bind, Except.mapError]
      refine ⟨after, by simp [Snapshot.restoreFile, refused],
        trail.settled writable.leads rfl fun sought => ?_⟩
      by_cases here : sought = place
      · rw [here, held, empty]
        exact Or.inl rfl
      · exact Or.inr ⟨here, rfl⟩
    | some entry =>
      cases entry with
      | folder => exact absurd held noFolder
      | file stored =>
        have removed : after.remove path = .ok (after.drop place) :=
          remove_eq_ok_iff.mpr ⟨place, stored, led, held, rfl⟩
        refine ⟨after.drop place, by simp [Snapshot.restoreFile, removed],
          trail.settled writable.leads rfl fun sought => ?_⟩
        rw [entry_drop (outside_of_not_folder noFolder)]
        by_cases here : sought = place
        · rw [if_pos here, here, empty]
          exact Or.inl rfl
        · rw [if_neg here]
          exact Or.inr ⟨here, rfl⟩

/-- Putting back a file on a disk that holds what it held changes nothing, whether or not it
succeeds. If the path cannot be written the attempt fails and leaves the disk as it is, and if it
can, this is the case of a trail with one path. -/
theorem restoreFile_same {before after : Disk} {path : FilePath} {content : Option Bytes}
    (fresh : before.Fresh) (same : Same before after) (recorded : Recorded before path content) :
    Same before ((Snapshot.restoreFile path content).outcome after).2 := by
  by_cases able : ∃ place beside, before.Writable path place beside
  · have trail : Trail before after [path] := by
      refine ⟨?_, same.mono (by simp)⟩
      intro other member
      rw [List.mem_singleton.mp member]
      exact able
    obtain ⟨last, done, settled⟩ := restoreFile_written fresh trail recorded
    rw [done]
    exact settled.same
  · cases content with
    | some content =>
      obtain ⟨failure, failed⟩ := writeWhole_of_not_writable (fun place beside writable =>
        able ⟨place, beside, (writable_iff same path place beside).mp writable⟩) content
      rw [Snapshot.restoreFile, failed]
      exact same
    | none =>
      cases removed : after.remove path with
      | ok last =>
        obtain ⟨place, stored, led, held, _⟩ := remove_eq_ok_iff.mp removed
        have empty := recorded place ((place_eq_ok_iff same _ _).mp led)
        rw [ChangedAt.entry_eq same, empty] at held
        cases held
      | error fault =>
        by_cases gone : fault.refusal = .missing
        · simpa [Snapshot.restoreFile, removed, gone] using same
        · simpa [Snapshot.restoreFile, removed, gone] using same

/-- Putting back the files of a snapshot of which the first ones were written undoes every
change, even when one of the later files cannot be put back.

The induction is on the recorded files. As long as written ones are left, the first recorded
file is one of them and is put back. After the last of them the disk holds what it held, and
then nothing that happens matters. -/
theorem restore_same {before after : Disk} (fresh : before.Fresh)
    {contents : List (FilePath × Option Bytes)} {written rest : List FilePath}
    (recorded : ∀ held ∈ contents, Recorded before held.1 held.2)
    (order : contents.map Prod.fst = written ++ rest) (trail : Trail before after written) :
    Same before ((Snapshot.mk contents).restore.outcome after).2 := by
  induction contents generalizing written rest after with
  | nil =>
    have none : written = [] := (List.append_eq_nil_iff.mp order.symm).1
    subst none
    exact trail.same
  | cons held tail ih =>
    obtain ⟨path, content⟩ := held
    have first : Recorded before path content := recorded (path, content) List.mem_cons_self
    have later : ∀ held ∈ tail, Recorded before held.1 held.2 :=
      fun held member => recorded held (List.mem_cons_of_mem _ member)
    have unfolded : (Snapshot.mk ((path, content) :: tail)).restore =
        (Snapshot.restoreFile path content >>= fun _ => (Snapshot.mk tail).restore) := rfl
    rw [unfolded, Storing.outcome_bind]
    cases written with
    | nil =>
      have kept := restoreFile_same fresh trail.same first
      cases ran : (Snapshot.restoreFile path content).outcome after with
      | mk result last =>
        rw [ran] at kept
        cases result with
        | error failure => exact kept
        | ok value =>
          have nothing : Trail before last [] := ⟨by simp, kept.mono (by simp)⟩
          exact ih later (List.nil_append _).symm nothing
    | cons other more =>
      have same : path = other ∧ tail.map Prod.fst = more ++ rest := by
        simpa using order
      obtain ⟨rfl, behind⟩ := same
      obtain ⟨last, done, settled⟩ := restoreFile_written fresh trail first
      rw [done]
      exact ih later behind settled

/-- A protected operation that fails leaves every place as it was, provided that a failing
run has only written the first ones of the protected files. -/
theorem protecting_same {α : Type} {before after : Disk} (fresh : before.Fresh)
    {paths : List FilePath} {operation : Storing α} {failure : Failure}
    (leaves : ∀ fault between, operation.outcome before = (.error fault, between) →
      ∃ written rest, paths = written ++ rest ∧ Trail before between written)
    (failed : (protecting paths operation).outcome before = (.error failure, after)) :
    Same before after := by
  simp only [protecting, Storing.outcome_bind, Storing.outcome_look] at failed
  cases taken : Snapshot.take paths before with
  | error fault =>
    rw [taken] at failed
    cases failed
    exact ChangedAt.refl before _
  | ok snapshot =>
    rw [taken] at failed
    simp only [Storing.outcome_tryCatch] at failed
    cases ran : operation.outcome before with
    | mk result between =>
      cases result with
      | ok value => simp [ran] at failed
      | error fault =>
        obtain ⟨written, rest, split, trail⟩ := leaves fault between ran
        obtain ⟨order, recorded⟩ := recorded_of_take taken
        rw [split, List.eraseDups_append] at order
        have settled := restore_same fresh recorded order
          (trail.congr fun path => List.mem_eraseDups.symm)
        simp only [ran, Storing.outcome_bind, Storing.outcome_throw] at failed
        cases restored : snapshot.restore.outcome between with
        | mk outcome last =>
          rw [restored] at failed settled
          cases outcome with
          | ok value =>
            cases failed
            exact settled
          | error other =>
            cases failed
            exact settled

/-- A protected operation that succeeds leaves what the operation leaves. -/
theorem protecting_done {α : Type} {before after : Disk} {paths : List FilePath}
    {operation : Storing α} {value : α}
    (done : (protecting paths operation).outcome before = (.ok value, after)) :
    operation.outcome before = (.ok value, after) := by
  obtain ⟨snapshot, _, guarded⟩ := Storing.look_bind_eq_ok_iff.mp done
  rw [Storing.outcome_tryCatch] at guarded
  split at guarded
  · next ran => rw [ran, guarded]
  · obtain ⟨_, _, _, impossible⟩ := Storing.outcome_bind_eq_ok_iff.mp guarded
    cases impossible

/-- Deleting a transaction fails without a trace. -/
theorem deleteTransaction_failed {before after : Disk} (fresh : before.Fresh) {id : Text}
    {failure : Failure}
    (failed : (deleteTransaction id).outcome before = (.error failure, after)) :
    after = before := by
  rcases Storing.known_bind_eq_error_iff.mp failed with ⟨_, same⟩ | ⟨identifier, _, decoded⟩
  · exact same
  rcases Storing.look_bind_eq_error_iff.mp decoded with ⟨_, same⟩ | ⟨found, _, located⟩
  · exact same
  rcases Storing.known_bind_eq_error_iff.mp located with ⟨_, same⟩ | ⟨rest, _, written⟩
  · exact same
  rcases (Trail.start _).write fresh rest written with ⟨_, _, same⟩ | ⟨impossible, _⟩
  · exact same
  · cases impossible

/-- Deleting a transaction writes the file of its id. -/
theorem deleteTransaction_done {before after : Disk} (fresh : before.Fresh) {id : Text}
    (done : (deleteTransaction id).outcome before = (.ok ⟨⟩, after)) :
    ∃ identifier, Identifier.decode id = .ok identifier ∧
      Trail before after [FilePath.ofText identifier.path] := by
  obtain ⟨identifier, read, decoded⟩ := Storing.known_bind_eq_ok_iff.mp done
  obtain ⟨found, _, located⟩ := Storing.look_bind_eq_ok_iff.mp decoded
  obtain ⟨rest, _, written⟩ := Storing.known_bind_eq_ok_iff.mp located
  rcases (Trail.start _).write fresh rest written with ⟨_, impossible, _⟩ | ⟨_, trail⟩
  · cases impossible
  · exact ⟨identifier, read, trail⟩

/-- Including a file fails without a trace. -/
theorem ensureIncluded_failed {before between after : Disk} {written : List FilePath}
    {root : FilePath} {fileName : Text} {failure : Failure} (fresh : before.Fresh)
    (trail : Trail before between written)
    (failed : (ensureIncluded root fileName).outcome between = (.error failure, after)) :
    after = between := by
  rcases Storing.look_bind_eq_error_iff.mp failed with ⟨_, same⟩ | ⟨content, _, read⟩
  · exact same
  rcases Storing.known_bind_eq_error_iff.mp read with ⟨_, same⟩ | ⟨text, _, decoded⟩
  · exact same
  split at decoded
  · cases decoded
  · rcases Storing.outcome_bind_eq_error_iff.mp decoded with early | ⟨_, _, _, impossible⟩
    · rcases trail.append fresh _ early with ⟨_, _, same⟩ | ⟨impossible, _⟩
      · exact same
      · cases impossible
    · cases impossible

/-- Appending to a file and including it after some files were written fails with a trace of those
files and perhaps of the one appended to. -/
theorem Trail.appendIncluded {α : Type} {before between after : Disk} {written : List FilePath}
    {path root : FilePath} {fileName : Text} {more : Bytes} {value : α} {failure : Failure}
    (fresh : before.Fresh) (trail : Trail before between written)
    (failed : (do
      appendBytes path more
      let _ ← ensureIncluded root fileName
      return value : Storing α).outcome between = (.error failure, after)) :
    Trail before after written ∨ Trail before after (written ++ [path]) := by
  rcases Storing.outcome_bind_eq_error_iff.mp failed with early | ⟨_, appended, wrote, including⟩
  · rcases trail.append fresh _ early with ⟨_, _, rfl⟩ | ⟨impossible, _⟩
    · exact Or.inl trail
    · cases impossible
  · rcases trail.append fresh _ wrote with ⟨_, impossible, _⟩ | ⟨_, longer⟩
    · cases impossible
    rcases Storing.outcome_bind_eq_error_iff.mp including with early | ⟨_, _, _, impossible⟩
    · obtain rfl := ensureIncluded_failed fresh longer early
      exact Or.inr longer
    · cases impossible

/-- Appending an entry after some files were written fails with a trace of those files and
perhaps of the file of the entry. -/
theorem appendEntry_failed {before between after : Disk} {written : List FilePath}
    {directory : FilePath} {layout : Layout} {entry : RenderedEntry} {failure : Failure}
    (fresh : before.Fresh) (trail : Trail before between written)
    (failed : (appendEntry directory layout entry).outcome between = (.error failure, after)) :
    Trail before after written ∨ Trail before after (written ++ [directory.child entry.fileName]) :=
  trail.appendIncluded fresh failed

/-- An operation of two steps succeeds with what the steps leave when they are run one after
the other, or it fails and every place holds what it held. -/
structure AllOrNothing {α : Type} (disk : Disk) (whole : Storing α) (first : Storing Unit)
    (second : Storing α) : Prop where
  undone : ∀ failure after, whole.outcome disk = (.error failure, after) → Same disk after
  done : ∀ value after, whole.outcome disk = (.ok value, after) →
    ∃ between, first.outcome disk = (.ok ⟨⟩, between) ∧
      second.outcome between = (.ok value, after)

/-- The path that a checked id gives is the path written in it. -/
theorem Ledger.path_of_checkId {ledger : Ledger} {id : Text} {disk : Disk} {path : FilePath}
    {identifier : Identifier} (checked : ledger.checkId id disk = .ok path)
    (decoded : Identifier.decode id = .ok identifier) :
    path = FilePath.ofText identifier.path := by
  obtain ⟨read, known, rest⟩ := bind_eq_ok_iff.mp checked
  rw [decoded] at known
  cases known
  obtain ⟨place, _, rest⟩ := bind_eq_ok_iff.mp rest
  obtain ⟨directory, _, rest⟩ := bind_eq_ok_iff.mp rest
  split at rest
  · cases rest
  · cases rest
    rfl

/-- Appending an entry yields the path of its file. -/
theorem appendEntry_path {before after : Disk} {directory path : FilePath} {layout : Layout}
    {entry : RenderedEntry}
    (done : (appendEntry directory layout entry).outcome before = (.ok path, after)) :
    path = directory.child entry.fileName := by
  obtain ⟨_, _, _, including⟩ := Storing.outcome_bind_eq_ok_iff.mp done
  obtain ⟨_, _, _, returned⟩ := Storing.outcome_bind_eq_ok_iff.mp including
  cases returned
  rfl

/-- A failed update of a transaction leaves every place as it was.

Before the protected part the disk is only read. Inside it the file of the id is written
first, then the file of the new entry, then the root file; a failing step leaves no trace of
its own, so the files written until then are the first ones of the snapshot. -/
theorem Ledger.updateTransaction_failed {ledger : Ledger} {before after : Disk}
    (fresh : before.Fresh) {id : Text} {transaction : Transaction} {failure : Failure}
    (failed : (ledger.updateTransaction id transaction).outcome before =
      (.error failure, after)) : Same before after := by
  rcases Storing.known_bind_eq_error_iff.mp failed with ⟨_, rfl⟩ | ⟨entry, _, rendered⟩
  · exact ChangedAt.refl _ _
  rcases Storing.look_bind_eq_error_iff.mp rendered with ⟨_, rfl⟩ | ⟨path, pointed, checked⟩
  · exact ChangedAt.refl _ _
  rcases Storing.outcome_bind_eq_error_iff.mp checked with early | ⟨_, _, _, impossible⟩
  · refine protecting_same fresh ?_ early
    intro fault between ran
    rcases Storing.outcome_bind_eq_error_iff.mp ran with first | ⟨_, middle, deleted, adding⟩
    · rw [deleteTransaction_failed fresh first]
      exact ⟨[], _, (List.nil_append _).symm, Trail.start _⟩
    obtain ⟨identifier, decoded, trail⟩ := deleteTransaction_done fresh deleted
    rw [← path_of_checkId pointed decoded] at trail
    rcases Storing.outcome_bind_eq_error_iff.mp adding with second | ⟨_, _, _, impossible⟩
    · rcases appendEntry_failed fresh trail second with shorter | longer
      · exact ⟨[path], _, rfl, shorter⟩
      · exact ⟨[path, ledger.directory.child entry.fileName], _, rfl, longer⟩
    · cases impossible
  · cases impossible

/-- A successful update of a transaction leaves what deleting and adding leave. -/
theorem Ledger.updateTransaction_done {ledger : Ledger} {before after : Disk} {id : Text}
    {transaction : Transaction} {target : FilePath}
    (done : (ledger.updateTransaction id transaction).outcome before = (.ok target, after)) :
    ∃ between, (ledger.deleteTransaction id).outcome before = (.ok ⟨⟩, between) ∧
      (ledger.addTransaction transaction).outcome between = (.ok target, after) := by
  obtain ⟨entry, shown, rendered⟩ := Storing.known_bind_eq_ok_iff.mp done
  obtain ⟨path, pointed, checked⟩ := Storing.look_bind_eq_ok_iff.mp rendered
  obtain ⟨_, _, guarded, returned⟩ := Storing.outcome_bind_eq_ok_iff.mp checked
  cases returned
  obtain ⟨_, between, deleted, adding⟩ := Storing.outcome_bind_eq_ok_iff.mp (protecting_done guarded)
  obtain ⟨place, _, appended, nothing⟩ := Storing.outcome_bind_eq_ok_iff.mp adding
  cases nothing
  rw [appendEntry_path appended] at appended
  refine ⟨between, ?_, ?_⟩
  · exact Storing.look_bind_eq_ok_iff.mpr ⟨path, pointed, deleted⟩
  · exact Storing.known_bind_eq_ok_iff.mpr ⟨entry, shown, appended⟩

/-- Deleting an account fails without a trace, or it writes the accounts file. All that can fail
does so before the file is written, and a file without an entry of the account is not written at
all. -/
theorem deleteAccount_trail {before after : Disk} (fresh : before.Fresh) {directory : FilePath}
    {layout : Layout} {name : Text} {result : Except Failure Unit}
    (ran : (deleteAccount directory layout name).outcome before = (result, after)) :
    (∃ failure, result = .error failure ∧ after = before) ∨
      (result = .ok ⟨⟩ ∧ Trail before after [layout.accountsPath directory]) := by
  simp only [deleteAccount, Storing.outcome_bind, Storing.outcome_look] at ran
  cases read : readAccounts (layout.accountsPath directory) before with
  | error failure =>
    rw [read] at ran
    cases ran
    exact Or.inl ⟨failure, rfl, rfl⟩
  | ok found =>
    obtain ⟨content, page⟩ := found
    simp only [read] at ran
    split at ran
    · cases ran
      exact Or.inl ⟨.noAccount name, rfl, rfl⟩
    · simp only [Storing.outcome_bind, Storing.outcome_known] at ran
      cases cut : (cutAll content (accountSpans name page.directives)).mapError
          Failure.outOfRange with
      | error failure =>
        rw [cut] at ran
        cases ran
        exact Or.inl ⟨failure, rfl, rfl⟩
      | ok rest =>
        rw [cut] at ran
        exact (Trail.start before).write fresh rest ran

/-- Adding an account after some files were written fails with a trace of those files and
perhaps of the accounts file. -/
theorem addAccount_failed {before between after : Disk} {written : List FilePath}
    {directory : FilePath} {layout : Layout} {account : Account} {failure : Failure}
    (fresh : before.Fresh) (trail : Trail before between written)
    (failed : (addAccount directory layout account).outcome between = (.error failure, after)) :
    Trail before after written ∨
      Trail before after (written ++ [layout.accountsPath directory]) := by
  rcases Storing.known_bind_eq_error_iff.mp failed with ⟨_, rfl⟩ | ⟨text, _, rendered⟩
  · exact Or.inl trail
  rcases Storing.look_bind_eq_error_iff.mp rendered with ⟨_, rfl⟩ | ⟨⟨content, page⟩, _, read⟩
  · exact Or.inl trail
  dsimp only at read
  split at read
  · cases read
    exact Or.inl trail
  · exact trail.appendIncluded fresh read

/-- A failed update of an account leaves every place as it was. Both steps write the accounts
file, which the snapshot names first. -/
theorem Ledger.updateAccount_failed {ledger : Ledger} {before after : Disk}
    (fresh : before.Fresh) {name : Text} {account : Account} {failure : Failure}
    (failed : (ledger.updateAccount name account).outcome before = (.error failure, after)) :
    Same before after := by
  rcases Storing.known_bind_eq_error_iff.mp failed with ⟨_, rfl⟩ | ⟨text, _, guarded⟩
  · exact ChangedAt.refl _ _
  refine protecting_same fresh ?_ guarded
  intro fault between ran
  rcases Storing.outcome_bind_eq_error_iff.mp ran with first | ⟨_, middle, deleted, adding⟩
  · rcases deleteAccount_trail fresh first with ⟨_, _, rfl⟩ | ⟨impossible, _⟩
    · exact ⟨[], _, (List.nil_append _).symm, Trail.start _⟩
    · cases impossible
  · rcases deleteAccount_trail fresh deleted with ⟨_, impossible, _⟩ | ⟨_, trail⟩
    · cases impossible
    refine ⟨[ledger.accountsPath], _, rfl, ?_⟩
    rcases addAccount_failed fresh trail adding with once | twice
    · exact once
    · exact twice.congr (by simp [accountsPath])

/-- A successful update of an account leaves what deleting and adding leave. -/
theorem Ledger.updateAccount_done {ledger : Ledger} {before after : Disk} {name : Text}
    {account : Account}
    (done : (ledger.updateAccount name account).outcome before = (.ok ⟨⟩, after)) :
    ∃ between, (ledger.deleteAccount name).outcome before = (.ok ⟨⟩, between) ∧
      (ledger.addAccount account).outcome between = (.ok ⟨⟩, after) := by
  obtain ⟨text, _, guarded⟩ := Storing.known_bind_eq_ok_iff.mp done
  obtain ⟨_, between, deleted, added⟩ := Storing.outcome_bind_eq_ok_iff.mp (protecting_done guarded)
  exact ⟨between, deleted, added⟩

/-- Updates are all or nothing. On every disk on which no file has the name of a temporary one,
updating a transaction or an account either leaves exactly the disk that deleting and then adding
leave, or fails and leaves at every place what was there before. This holds of every layout, id,
name and record, whatever step fails and however paths are spelled. A failing step leaves no trace
of its own, so only the first ones of the recorded files have been written by then; and these can be
put back, because what could be written before can still be. -/
theorem Ledger.update_allOrNothing (ledger : Ledger) (disk : Disk) (fresh : disk.Fresh) :
    (∀ id transaction, AllOrNothing disk (ledger.updateTransaction id transaction)
      (ledger.deleteTransaction id) (ledger.addTransaction transaction)) ∧
    (∀ name account, AllOrNothing disk (ledger.updateAccount name account)
      (ledger.deleteAccount name) (ledger.addAccount account)) := by
  constructor
  · intro id transaction
    constructor
    · intro failure after failed
      exact updateTransaction_failed fresh failed
    · intro value after done
      exact updateTransaction_done done
  · intro name account
    constructor
    · intro failure after failed
      exact updateAccount_failed fresh failed
    · intro value after done
      exact updateAccount_done done

/-- A directory whose root file is no text, so that no further file can be included. -/
def Disk.withUndecodableRoot : Disk :=
  { current := []
    entries :=
      [(["data"], .folder), (["data", "main.bean"], .file [0xFF]),
        (["data", "2024-01.bean"], .file (Text.Utf8.encode "\n2024-01-05 * \"Coffee\"\n"))] }

/-- An update that has already written two files, one of them new, when it fails at the root
file leaves every place as it was. -/
theorem Ledger.update_undone :
    Disk.withUndecodableRoot.Fresh ∧
      ∃ failure after, (Ledger.updateTransaction ⟨FilePath.ofText "data", {}⟩
          "data/2024-01.bean:1" { date := "2024-03-01" }).outcome Disk.withUndecodableRoot =
            (.error failure, after) ∧
        Same Disk.withUndecodableRoot after := by
  have fresh : Disk.withUndecodableRoot.Fresh := by decide +kernel
  obtain ⟨whole, _⟩ := Ledger.update_allOrNothing ⟨FilePath.ofText "data", {}⟩
    Disk.withUndecodableRoot fresh
  have undone := (whole "data/2024-01.bean:1" { date := "2024-03-01" }).undone
  have fails : (Ledger.updateTransaction ⟨FilePath.ofText "data", {}⟩
      "data/2024-01.bean:1" { date := "2024-03-01" }).outcome
        Disk.withUndecodableRoot |>.1.toOption = none := by decide +kernel
  refine ⟨fresh, ?_⟩
  rcases equation : (Ledger.updateTransaction ⟨FilePath.ofText "data", {}⟩
      "data/2024-01.bean:1" { date := "2024-03-01" }).outcome
        Disk.withUndecodableRoot with ⟨failure | value, after⟩
  · exact ⟨failure, after, rfl, undone failure after equation⟩
  · rw [equation] at fails
    cases fails

end Daybook
