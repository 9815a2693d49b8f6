import Daybook.Proofs.Disk.Recognizing
import Daybook.Proofs.Editing.AccountAddition
import Daybook.Proofs.Editing.EntryAddition

/-!
# The walk of verification

The files of a ledger include each other in any way, in circles as well. Verification walks through
them depth first. What it comes across is a list of encounters, and `Disk.Follows` says which
lists are those of a walk. Everything that verification finds belongs to its encounters, and all
that is claimed of them follows by induction on the walk: no place is visited twice, every
inclusion of a visited file is dealt with once, and a place is visited exactly if the inclusions
lead there from the root.

A walk stops early at an inclusion for one of two reasons: the system does not say whether the path
is a file because it is too long, or the path is no text, because half a pair stands alone in it.
-/
namespace Daybook

open Disk

/-! ## Inclusions between places -/

/-- What a file says does not depend on its path: under another path it has the same directives,
and it is free of errors under both or under neither. -/
theorem Page.ofBytes_renamed {path : FilePath} {content : Bytes} {page : Page}
    (paged : ofBytes path content = .ok page) (other : FilePath) :
    ∃ renamed, ofBytes other content = .ok renamed ∧ renamed.directives = page.directives ∧
      (renamed.errors = [] ↔ page.errors = []) := by
  unfold ofBytes at paged ⊢
  split at paged
  · cases paged
    exact ⟨_, rfl, rfl, by simp [failed]⟩
  · next text decoded =>
    unfold ofText at paged ⊢
    dsimp only at paged ⊢
    by_cases blank : text.all Text.isBlank = true
    · rw [if_pos blank] at paged ⊢
      cases paged
      exact ⟨_, rfl, rfl, Iff.rfl⟩
    · rw [if_neg blank] at paged ⊢
      split at paged
      · next unexpected refused =>
        cases paged
        exact ⟨_, rfl, rfl, by simp [failed]⟩
      · next lines read =>
        obtain ⟨collected, whole, same⟩ := bind_eq_ok_iff.mp paged
        cases same
        obtain ⟨warnings, found⟩ := Statement.Reading.collect_renamed
          ((Statement.reading_iff 0).mpr read) whole other.toText
        exact ⟨_, bind_eq_ok_iff.mpr ⟨_, found, rfl⟩, rfl, Iff.rfl⟩

/-- A half that stands for a byte of a name: names are bytes, and those that are no part of a
character have the halves from U+DC80 to U+DCFF. -/
def Point.isByte (point : Point) : Bool :=
  point.half?.any fun number => 0x480 ≤ number.val && number.val < 0x500

/-- What a page includes is written without names that lead up, without the character zero and
without single bytes. -/
def Page.LeadsDown (page : Page) : Prop :=
  ∀ inclusion ∈ page.inclusions,
    (∀ name ∈ (FilePath.ofText inclusion.shown).names, name ≠ ['.', '.']) ∧
      (FilePath.ofText inclusion.shown).isUsable = true ∧ inclusion.any Point.isByte = false

instance (page : Page) : Decidable page.LeadsDown :=
  inferInstanceAs (Decidable (∀ inclusion ∈ page.inclusions,
    (∀ name ∈ (FilePath.ofText inclusion.shown).names, name ≠ ['.', '.']) ∧
      (FilePath.ofText inclusion.shown).isUsable = true ∧ inclusion.any Point.isByte = false))

/-- The place that an inclusion in the file at a place leads to. -/
def Location.included (place : Location) (inclusion : Text) : Location :=
  Location.follow (if (FilePath.ofText inclusion).anchor = .here then place.dropLast else [])
    (FilePath.ofText inclusion).names

namespace Disk

/-- A file stands at a place. -/
def HasFile (disk : Disk) (place : Location) : Prop :=
  ∃ content, disk.entry? place = some (.file content)

instance (disk : Disk) (place : Location) : Decidable (disk.HasFile place) :=
  match held : disk.entry? place with
  | some (.file content) => .isTrue ⟨content, held⟩
  | some .folder => .isFalse fun ⟨_, file⟩ => by
    rw [held] at file
    cases file
  | none => .isFalse fun ⟨_, file⟩ => by
    rw [held] at file
    cases file

/-- What the file at a place says, as far as it can be read at all. -/
def pageAt? (disk : Disk) (place : Location) : Option Page :=
  match disk.entry? place with
  | some (.file content) => (Page.ofBytes ⟨.root, place⟩ content).toOption
  | _ => none

/-- A page stands at a place exactly when the place is a file whose content is read without
failure. -/
theorem pageAt?_eq_some_iff {disk : Disk} {place : Location} {page : Page} :
    disk.pageAt? place = some page ↔ ∃ content, disk.entry? place = some (.file content) ∧
      Page.ofBytes ⟨.root, place⟩ content = .ok page := by
  unfold pageAt?
  split
  · next content held =>
    cases paged : Page.ofBytes ⟨.root, place⟩ content with
    | error failure => simp [held, paged, Except.toOption]
    | ok found => simp [held, paged, Except.toOption]
  · next other =>
    constructor
    · intro impossible
      cases impossible
    · rintro ⟨content, held, _⟩
      exact absurd held (other content)

/-- A place that inclusions lead to from the root file, each of them to a file. -/
inductive Reaches (disk : Disk) (root : Location) : Location → Prop
  | root : Reaches disk root root
  | inclusion {place : Location} {page : Page} {inclusion : Text} :
      Reaches disk root place → disk.pageAt? place = some page →
      Phrase.ofText inclusion ∈ page.inclusions → disk.HasFile (place.included inclusion) →
      Reaches disk root (place.included inclusion)

/-- A disk whose files can be explored: its places make up a tree, every file has a page, and the
pages lead down. -/
structure Explorable (disk : Disk) : Prop where
  proper : disk.Proper
  tree : disk.IsTree
  paged : ∀ place, disk.HasFile place → ∃ page, disk.pageAt? place = some page
  down : ∀ place page, disk.pageAt? place = some page → page.LeadsDown

/-- Only listed places have to be looked at. On a proper disk every file has its place in the
list. -/
theorem explorable_iff (disk : Disk) : disk.Explorable ↔ disk.Proper ∧ disk.IsTree ∧
    ∀ place ∈ disk.entries.map Prod.fst, disk.HasFile place →
      ∃ page ∈ disk.pageAt? place, page.LeadsDown := by
  constructor
  · intro explorable
    refine ⟨explorable.proper, explorable.tree, fun place _ standing => ?_⟩
    obtain ⟨page, paged⟩ := explorable.paged place standing
    exact ⟨page, paged, explorable.down place page paged⟩
  · rintro ⟨proper, tree, listed⟩
    have all : ∀ place, disk.HasFile place → ∃ page ∈ disk.pageAt? place, page.LeadsDown := by
      intro place standing
      refine listed place (proper.listed_iff.mpr ?_) standing
      obtain ⟨content, held⟩ := standing
      have free : disk.entry? place ≠ some .folder := by
        rw [held]
        simp
      exact ⟨outside_of_not_folder free, by rw [held]; simp⟩
    refine ⟨proper, tree, fun place standing => ?_, fun place page paged => ?_⟩
    · obtain ⟨page, paged, _⟩ := all place standing
      exact ⟨page, paged⟩
    · obtain ⟨content, held, _⟩ := pageAt?_eq_some_iff.mp paged
      obtain ⟨other, alsoPaged, down⟩ := all place ⟨content, held⟩
      rw [paged] at alsoPaged
      cases alsoPaged
      exact down

instance (disk : Disk) : Decidable disk.Explorable :=
  decidable_of_iff _ (explorable_iff disk).symm

/-- A path leads to a file, which has the given page. -/
def Reads (disk : Disk) (file : FilePath) (page : Page) : Prop :=
  ∃ content, disk.place file = .ok (file.resolve disk.current) ∧
    disk.entry? (file.resolve disk.current) = some (.file content) ∧
    Page.ofBytes file content = .ok page

end Disk

/-- A path resolves to where its names lead when nothing is looked up. -/
theorem FilePath.resolve_eq (current : Location) (path : FilePath) : path.resolve current =
    Location.follow (if path.anchor = .here then current else []) path.names := by
  unfold resolve
  split
  · next here => rw [if_pos here]
  · next other => rw [if_neg other]

/-- A text that is no absolute path is followed from the directory. -/
theorem FilePath.child_of_here {directory : FilePath} {written : Text}
    (here : (ofText written).anchor = .here) :
    directory.child written = ⟨directory.anchor, directory.names ++ (ofText written).names⟩ := by
  rw [child, join, here]

/-- An absolute path is the same seen from any directory. -/
theorem FilePath.child_of_elsewhere {directory : FilePath} {written : Text}
    (elsewhere : (ofText written).anchor ≠ .here) : directory.child written = ofText written := by
  rw [child, join]
  split
  · next here => exact absurd here elsewhere
  · rfl

namespace Disk.IsTree

variable {disk : Disk} (tree : disk.IsTree) (proper : disk.Proper)
include tree proper

/-- The last name of a path to a file leads down, since a path that ends with two dots leads to a
folder, and so does one without names. -/
theorem down_of_file {file : FilePath} {place : Location} (led : disk.place file = .ok place)
    (held : disk.HasFile place) : ∃ (directory : FilePath) (name : Text),
      file = directory.below name ∧ name ≠ ['.', '.'] := by
  obtain ⟨content, held⟩ := held
  have walked := walk_of_place led
  obtain ⟨anchor, names⟩ := file
  induction names using List.reverseRecOn with
  | nil =>
    cases walked
    refine absurd held ?_
    by_cases here : anchor = .here
    · simp [ entry?, here]
    · simp [ entry?, here]
  | append_singleton names name =>
    refine ⟨⟨anchor, names⟩, name, rfl, ?_⟩
    rintro rfl
    rw [walk_append] at walked
    cases reached : disk.walk (if anchor = .here then disk.current else []) names with
    | error refusal =>
      rw [reached] at walked
      cases walked
    | ok home =>
      rw [reached] at walked
      simp only [Except.bind, walk, if_true] at walked
      split at walked
      · next folder =>
        split at walked
        · cases walked
        · cases walked
          rw [tree.folder proper (by rw [folder]; simp)] at held
          cases held
      · cases walked
      · cases walked

end Disk.IsTree

namespace Disk

variable {disk : Disk} {file : FilePath} {page : Page} {inclusion : Text}

/-- The place that an inclusion in a file leads to. -/
def target (disk : Disk) (file : FilePath) (inclusion : Text) : Location :=
  (file.parent.child inclusion).resolve disk.current

/-- A path that is read leads to a file, so the walk never reports as missing what it goes on to
read. -/
theorem Reads.hasFile (reads : disk.Reads file page) :
    disk.HasFile (file.resolve disk.current) := by
  obtain ⟨content, _, held, _⟩ := reads
  exact ⟨content, held⟩

/-- A file is read with the page of its place, but for the path in what is said about it. -/
theorem Reads.paged (reads : disk.Reads file page) :
    ∃ found, disk.pageAt? (file.resolve disk.current) = some found ∧
      found.inclusions = page.inclusions ∧ (found.errors = [] ↔ page.errors = []) := by
  obtain ⟨content, _, held, paged⟩ := reads
  obtain ⟨found, renamed, same, errors⟩ :=
    Page.ofBytes_renamed paged ⟨.root, file.resolve disk.current⟩
  refine ⟨found, pageAt?_eq_some_iff.mpr ⟨content, held, renamed⟩, ?_, errors⟩
  rw [Page.inclusions, Page.inclusions, same]

/-- The page of the place of a file is like the one that the file is read with. -/
theorem Reads.alike (reads : disk.Reads file page) {found : Page}
    (paged : disk.pageAt? (file.resolve disk.current) = some found) :
    found.inclusions = page.inclusions ∧ (found.errors = [] ↔ page.errors = []) := by
  obtain ⟨other, alsoPaged, alike⟩ := reads.paged
  rw [paged] at alsoPaged
  cases alsoPaged
  exact alike

namespace Explorable

variable (explorable : disk.Explorable)
include explorable

/-- An inclusion leads from a file to where it leads from its place. -/
theorem target_eq (reads : disk.Reads file page) (inclusion : Text) :
    disk.target file inclusion = (file.resolve disk.current).included inclusion := by
  obtain ⟨content, led, held, _⟩ := id reads
  obtain ⟨directory, name, rfl, down⟩ :=
    explorable.tree.down_of_file explorable.proper led ⟨content, held⟩
  rw [target, FilePath.below_parent, FilePath.resolve_below down, Location.included,
    List.dropLast_concat]
  by_cases here : (FilePath.ofText inclusion).anchor = .here
  · rw [FilePath.child_of_here here, if_pos here, FilePath.resolve_eq, FilePath.resolve_eq,
      FilePath.follow_append]
  · rw [FilePath.child_of_elsewhere here, FilePath.resolve_eq, if_neg here, if_neg here]

end Explorable

end Disk

/-! ## Encounters -/

/-- What becomes of an inclusion: its target is no file, has been visited before, or is visited
next. -/
inductive Fate where
  | missing
  | again
  | fresh
  deriving DecidableEq, Repr

/-- What verification comes across: a file with its page, and the inclusions of a file. -/
inductive Encounter where
  | visit (file : FilePath) (page : Page)
  | step (file : FilePath) (inclusion : Text) (fate : Fate)

namespace Encounter

/-- A remark of verification about a file as a whole. -/
def remark (severity : Severity) (file : FilePath) (message : Text) : Diagnostic :=
  { severity, path := file.toText, line := 0, column := 0, message }

/-- The errors that belong to an encounter. -/
def errors : Encounter → List Diagnostic
  | visit _ page => page.errors
  | step file inclusion .missing =>
    [remark .error file ("Included file " ++ inclusion ++ " does not exist")]
  | step _ _ _ => []

/-- The warnings that belong to an encounter. -/
def warnings : Encounter → List Diagnostic
  | visit _ page => page.warnings
  | step file inclusion .again =>
    [remark .warning file (inclusion ++ " is already included, skipped")]
  | step _ _ _ => []

/-- The file and its page, if one is visited. -/
def visit? : Encounter → Option (FilePath × Page)
  | visit file page => some (file, page)
  | step _ _ _ => none

/-- The inclusion that is dealt with, together with its file. -/
def step? : Encounter → Option (FilePath × Phrase)
  | visit _ _ => none
  | step file inclusion _ => some (file, .ofText inclusion)

/-- The encounters with files. -/
def visits (events : List Encounter) : List (FilePath × Page) :=
  events.filterMap visit?

/-- The encounters with inclusions. -/
def steps (events : List Encounter) : List (FilePath × Phrase) :=
  events.filterMap step?

/-- The places that are visited. -/
def places (disk : Disk) (events : List Encounter) : List Location :=
  (visits events).map fun visited => visited.1.resolve disk.current

end Encounter

open Encounter

/-- The findings with all that belongs to further encounters. -/
def Findings.after (disk : Disk) (found : Findings) (events : List Encounter) : Findings where
  errors := found.errors ++ events.flatMap Encounter.errors
  warnings := found.warnings ++ events.flatMap Encounter.warnings
  visited := (places disk events).reverse ++ found.visited

namespace Disk

/-- The encounters of a walk that follows inclusions of a file when some places have been visited:
an inclusion whose target is new is followed at once, with everything included there. -/
inductive Follows (disk : Disk) :
    List Location → FilePath → List Phrase → List Encounter → Prop
  | finished {visited : List Location} {file : FilePath} : Follows disk visited file [] []
  | missing {visited : List Location} {file : FilePath} {inclusion : Text} {rest : List Phrase}
      {events : List Encounter} :
      ¬ disk.HasFile (disk.target file inclusion) → Follows disk visited file rest events →
      Follows disk visited file (.ofText inclusion :: rest) (.step file inclusion .missing :: events)
  | again {visited : List Location} {file : FilePath} {inclusion : Text} {rest : List Phrase}
      {events : List Encounter} :
      disk.target file inclusion ∈ visited → Follows disk visited file rest events →
      Follows disk visited file (.ofText inclusion :: rest) (.step file inclusion .again :: events)
  | fresh {visited : List Location} {file : FilePath} {inclusion : Text} {rest : List Phrase}
      {page : Page} {below events : List Encounter} :
      disk.target file inclusion ∉ visited →
      disk.Reads (file.parent.child inclusion) page →
      Follows disk (disk.target file inclusion :: visited) (file.parent.child inclusion)
        page.inclusions.eraseDups below →
      Follows disk ((places disk below).reverse ++ disk.target file inclusion :: visited) file rest
        events →
      Follows disk visited file (.ofText inclusion :: rest) (.step file inclusion .fresh ::
        .visit (file.parent.child inclusion) page :: (below ++ events))

/-- An encounter fits between the places visited before and what is encountered later: a visited
file is new and is read with its page, and an inclusion meets the fate that its target has. -/
def Fits (disk : Disk) (visited : List Location) (later : List Encounter) : Encounter → Prop
  | .visit file page => file.resolve disk.current ∉ visited ∧ disk.Reads file page
  | .step file inclusion .missing => ¬ disk.HasFile (disk.target file inclusion)
  | .step file inclusion .again => disk.target file inclusion ∈ visited
  | .step file inclusion .fresh => disk.target file inclusion ∉ visited ∧
      ∃ page rest, later = .visit (file.parent.child inclusion) page :: rest

/-- All encounters fit, one after the other. -/
def Timely (disk : Disk) : List Location → List Encounter → Prop
  | _, [] => True
  | visited, event :: later => disk.Fits visited later event ∧
      Timely disk ((places disk [event]).reverse ++ visited) later

/-- Timely encounters go on with timely ones. The induction is on the first encounters, with the
places that are visited growing by each. -/
theorem Timely.append {disk : Disk} {visited : List Location} {events more : List Encounter}
    (timely : disk.Timely visited events)
    (next : disk.Timely ((places disk events).reverse ++ visited) more) :
    disk.Timely visited (events ++ more) := by
  induction events generalizing visited with
  | nil => exact next
  | cons event events ih =>
    obtain ⟨fits, timely⟩ := timely
    constructor
    · cases event with
      | visit file page => exact fits
      | step file inclusion fate =>
        cases fate with
        | missing => exact fits
        | again => exact fits
        | fresh =>
          obtain ⟨new, page, rest, rfl⟩ := fits
          exact ⟨new, page, rest ++ more, rfl⟩
    · apply ih timely
      have split : places disk (event :: events) = places disk [event] ++ places disk events := by
        rw [places, visits, ← List.singleton_append, List.filterMap_append, List.map_append]
        rfl
      rw [split, List.reverse_append, List.append_assoc] at next
      exact next

/-- Timely visits go to places that are all different, and different from those before. -/
theorem Timely.once {disk : Disk} {visited : List Location} {events : List Encounter}
    (timely : disk.Timely visited events) (before : visited.Nodup) :
    ((places disk events).reverse ++ visited).Nodup := by
  induction events generalizing visited with
  | nil => exact before
  | cons event events ih =>
    obtain ⟨fits, timely⟩ := timely
    cases event with
    | visit file page =>
      have all := ih timely (List.nodup_cons.mpr ⟨fits.1, before⟩)
      change ((file.resolve disk.current :: places disk events).reverse ++ visited).Nodup
      rw [List.reverse_cons, List.append_assoc]
      exact all
    | step file inclusion fate => exact ih timely before

/-- Timely visits go to files. -/
theorem Timely.files {disk : Disk} {visited : List Location} {events : List Encounter}
    (timely : disk.Timely visited events) : ∀ place ∈ places disk events, disk.HasFile place := by
  induction events generalizing visited with
  | nil =>
    intro place member
    cases member
  | cons event events ih =>
    obtain ⟨fits, timely⟩ := timely
    cases event with
    | visit file page => exact List.forall_mem_cons.mpr ⟨fits.2.hasFile, ih timely⟩
    | step file inclusion fate => exact ih timely

/-- An inclusion of a file that the root leads to leads further. -/
theorem Explorable.reaches {disk : Disk} (explorable : disk.Explorable) {root : Location}
    {file : FilePath} {page : Page} {inclusion : Text} (reads : disk.Reads file page)
    (reached : disk.Reaches root (file.resolve disk.current))
    (included : Phrase.ofText inclusion ∈ page.inclusions)
    (standing : disk.HasFile (disk.target file inclusion)) :
    disk.Reaches root (disk.target file inclusion) := by
  obtain ⟨found, paged, same, _⟩ := reads.paged
  rw [explorable.target_eq reads] at standing ⊢
  exact .inclusion reached paged (same ▸ included) standing

namespace Follows

variable {disk : Disk} {visited : List Location} {file : FilePath} {inclusions : List Phrase}
  {events : List Encounter}

/-- The encounters of a walk are timely. -/
theorem timely (follows : disk.Follows visited file inclusions events) :
    disk.Timely visited events := by
  induction follows with
  | finished => trivial
  | missing absent _ ih => exact ⟨absent, ih⟩
  | again known _ ih => exact ⟨known, ih⟩
  | fresh new reads _ _ below later =>
    refine ⟨⟨new, _, _, rfl⟩, ⟨new, reads⟩, ?_⟩
    exact below.append later

/-- A walk from a file that the root leads to visits only such files. The induction is on the walk:
each fresh file is included by one that the root leads to. -/
theorem reached (follows : disk.Follows visited file inclusions events)
    (explorable : disk.Explorable) {root : Location} {page : Page} (reads : disk.Reads file page)
    (reached : disk.Reaches root (file.resolve disk.current))
    (listed : inclusions ⊆ page.inclusions) :
    ∀ place ∈ places disk events, disk.Reaches root place := by
  induction follows generalizing page with
  | finished =>
    intro place member
    cases member
  | missing _ _ ih => exact ih reads reached (List.subset_of_cons_subset listed)
  | again _ _ ih => exact ih reads reached (List.subset_of_cons_subset listed)
  | @fresh visited file inclusion rest page' below events _ further _ _ deeper later =>
    have next := explorable.reaches reads reached (listed List.mem_cons_self) further.hasFile
    have split : places disk (.step file inclusion .fresh ::
        .visit (file.parent.child inclusion) page' :: (below ++ events)) =
        disk.target file inclusion :: (places disk below ++ places disk events) := by
      rw [places, places, places, ← List.map_append, visits, visits, visits,
        ← List.filterMap_append]
      rfl
    rw [split, List.forall_mem_cons, List.forall_mem_append]
    refine ⟨next, ?_, ?_⟩
    · exact deeper further next fun inclusion member => List.mem_eraseDups.mp member
    · exact later reads reached (List.subset_of_cons_subset listed)

end Follows

/-! ## The walk of verification -/

end Disk

/-- Findings from which exploring can go on: the visited places are different and are those of
files, and as deep as the allowance goes there are no more. -/
structure Findings.Fair (disk : Disk) (allowance : Nat) (found : Findings) : Prop where
  once : found.visited.Nodup
  files : ∀ place ∈ found.visited, disk.HasFile place
  enough : disk.entries.length < allowance + found.visited.length

namespace Findings.Fair

variable {disk : Disk} {allowance : Nat} {found : Findings}

/-- There are not more visited places than places. -/
theorem positive (fair : found.Fair disk allowance) (proper : disk.Proper) : allowance ≠ 0 := by
  have listed : found.visited ⊆ disk.entries.map Prod.fst := by
    intro place member
    obtain ⟨content, held⟩ := fair.files place member
    refine proper.listed_iff.mpr ⟨outside_of_not_folder ?_, ?_⟩
    · rw [held]
      simp
    · rw [held]
      simp
  have bound := (List.subperm_of_subset fair.once listed).length_le
  rw [List.length_map] at bound
  have enough := fair.enough
  omega

/-- After visiting a new file one step less is needed. -/
theorem visit (fair : found.Fair disk (allowance + 1)) {place : Location}
    (new : place ∉ found.visited) (standing : disk.HasFile place)
    (errors warnings : List Diagnostic) :
    Fair disk allowance ⟨errors, warnings, place :: found.visited⟩ := by
  constructor
  · exact List.nodup_cons.mpr ⟨new, fair.once⟩
  · exact List.forall_mem_cons.mpr ⟨standing, fair.files⟩
  · have enough := fair.enough
    change _ < allowance + (found.visited.length + 1)
    omega

/-- Timely encounters leave the findings fair. -/
theorem after (fair : found.Fair disk allowance) {events : List Encounter}
    (timely : disk.Timely found.visited events) :
    (found.after disk events).Fair disk allowance := by
  constructor
  · exact timely.once fair.once
  · intro place member
    rcases List.mem_append.mp member with visited | known
    · exact timely.files place (List.mem_reverse.mp visited)
    · exact fair.files place known
  · have enough := fair.enough
    change _ < allowance + (_ ++ found.visited).length
    rw [List.length_append]
    omega

end Findings.Fair

section Step

variable (disk : Disk) (found : Findings) (file : FilePath) (inclusion : Text)

end Step

namespace Disk

variable {disk : Disk} {root : Location} {allowance : Nat}
  {descend : FilePath → Findings → Except Failure Findings}

/-- Where a file is included that stands there, it is visited at some time. The induction is on the
encounters; a file that is seen again has been visited before, and a fresh one is visited next. -/
theorem Timely.visited {visited : List Location} {events : List Encounter}
    (timely : disk.Timely visited events) {file : FilePath} {inclusion : Text} {fate : Fate}
    (met : .step file inclusion fate ∈ events)
    (standing : disk.HasFile (disk.target file inclusion)) :
    disk.target file inclusion ∈ (places disk events).reverse ++ visited := by
  induction events generalizing visited with
  | nil => cases met
  | cons event events ih =>
    obtain ⟨fits, timely⟩ := timely
    rcases List.mem_cons.mp met with rfl | later
    · cases fate with
      | missing => exact absurd standing fits
      | again => exact List.mem_append_right _ fits
      | fresh =>
        obtain ⟨_, page, rest, rfl⟩ := fits
        exact List.mem_append_left _ (List.mem_reverse.mpr List.mem_cons_self)
    · have next := ih timely later
      cases event with
      | visit other page =>
        change _ ∈ (other.resolve disk.current :: places disk events).reverse ++ visited
        rw [List.reverse_cons, List.append_assoc]
        exact next
      | step other inclusion fate => exact next

/-- Timely visits read the files with their pages. -/
theorem Timely.reads {visited : List Location} {events : List Encounter}
    (timely : disk.Timely visited events) {file : FilePath} {page : Page}
    (met : (file, page) ∈ visits events) : disk.Reads file page := by
  induction events generalizing visited with
  | nil => cases met
  | cons event events ih =>
    obtain ⟨fits, timely⟩ := timely
    cases event with
    | visit other found =>
      rcases List.mem_cons.mp met with same | later
      · cases same
        exact fits.2
      · exact ih timely later
    | step other inclusion fate => exact ih timely met

end Disk

end Daybook
