import Daybook.Proofs.Ledger.Operations

/-!
# Verifying books

Verification reads the root file of a directory that holds books, and every file that the root
file includes, once. It has nothing to say: no file of books gives cause for an error or a warning,
and none leads to another one.
-/
namespace Daybook

open Disk

/-- A page of which verification has nothing to say, and from which it goes nowhere. -/
structure Page.Quiet (page : Page) : Prop where
  errors : page.errors = []
  warnings : page.warnings = []
  inclusions : page.inclusions = []

/-- A sheet gives no cause for errors and warnings. -/
theorem Sheet.quiet_page (sheet : Sheet) (path : Text) : (sheet.page path).Quiet :=
  ⟨rfl, rfl, List.filterMap_eq_nil_iff.mpr fun directive member => by
    obtain ⟨entry, _, rfl⟩ := List.mem_map.mp member
    rfl⟩

/-- A chart gives no cause for errors and warnings. -/
theorem Chart.quiet_page (chart : Chart) (path : Text) : (chart.page path).Quiet :=
  ⟨rfl, rfl, (@Chart.filterMap_directives _ Directive.inclusion? (fun _ => none)
    (fun _ _ declaration => by cases declaration <;> rfl) _ _ _).trans (by simp)⟩

namespace Disk.Houses

variable {disk : Disk} {directory : FilePath} {home : Location} {files : Text → Option Text}
  {name text : Text} {page : Page}

/-- Of a file with a quiet page verification only keeps where it is. -/
theorem explore (houses : disk.Houses directory home files) (fits : directory.Fits name)
    (known : files name = some text)
    (parsed : Page.ofText (directory.below name).toText text = .ok page) (quiet : page.Quiet)
    (allowance : Nat) (found : Findings) :
    Daybook.explore disk (allowance + 1) (directory.below name) found =
      .ok { found with visited := (home ++ [name]) :: found.visited } := by
  obtain ⟨leads, _⟩ := houses.places fits
  have content := houses.readAt leads (directory.below name).toText known
  rw [← Page.ofBytes_encode] at parsed
  have none : page.inclusions.eraseDups = [] := by rw [quiet.inclusions, List.eraseDups_nil]
  simp only [Daybook.explore, placeOf_of_place leads, content, parsed, quiet.errors, quiet.warnings,
    none, List.append_nil, followInclusions, bind, Except.bind]

/-- Files with quiet pages that are included once each are all visited, and nothing is found. The
induction is on the names: a file that has not been visited is visited, and says nothing itself. -/
theorem followInclusions (houses : disk.Houses directory home files) {order : List Text}
    (once : order.Nodup)
    (each : ∀ name ∈ order, directory.Fits name ∧ ∃ text page, files name = some text ∧
      Page.ofText (directory.below name).toText text = .ok page ∧ page.Quiet)
    (root : Text) (allowance : Nat) (found : Findings)
    (apart : ∀ name ∈ order, home ++ [name] ∉ found.visited) :
    ∃ visited, Daybook.followInclusions disk (directory.below root)
      (Daybook.explore disk (allowance + 1)) (order.map Phrase.ofText) found =
        .ok { found with visited } := by
  induction order generalizing found with
  | nil => exact ⟨found.visited, rfl⟩
  | cons name order ih =>
    obtain ⟨other, once⟩ := List.nodup_cons.mp once
    obtain ⟨⟨fits, text, page, known, parsed, quiet⟩, each⟩ := List.forall_mem_cons.mp each
    obtain ⟨fresh, apart⟩ := List.forall_mem_cons.mp apart
    obtain ⟨visited, followed⟩ := ih once each
      { found with visited := (home ++ [name]) :: found.visited } fun later member => by
        rw [List.mem_cons, not_or]
        refine ⟨fun same => other ?_, apart later member⟩
        rwa [← List.singleton_inj.mp (List.append_cancel_left same)]
    obtain ⟨leads, _⟩ := houses.places fits
    have held : disk.holdsFile (directory.below name) = .ok true := by
      refine holdsFile_eq_true_iff.mpr ⟨_, Text.Utf8.encode text, leads, ?_⟩
      rw [houses.held, known]
      rfl
    refine ⟨visited, ?_⟩
    rw [List.map_cons, Daybook.followInclusions, Phrase.read_ofText, FilePath.below_parent]
    simp only [fits.plain.child, placeOf_of_place leads, fresh, if_false, held, Except.mapError, bind,
      Except.bind,
      houses.explore fits known parsed quiet allowance found]
    exact followed

end Disk.Houses

namespace Ledger

variable {ledger : Ledger} {disk : Disk} {home : Location} {books : Books} {name : Text}

/-- A file that is included has a quiet page. -/
theorem Keeps.quiet (keeps : ledger.Keeps disk home books) (path : FilePath) :
    ∃ page, Page.ofText path.toText (books.text name) = .ok page ∧ page.Quiet := by
  have parsed {text : Text} {page : Page}
      (read : Page.read path (Text.Utf8.encode text) = .ok page) :
      Page.ofText path.toText text = .ok page := by
    rw [← Page.ofBytes_encode]
    exact (Page.read_eq_ok_iff.mp read).1
  rw [Books.text]
  split
  · exact ⟨_, parsed (keeps.sound.lexical.read path), books.chart.quiet_page _⟩
  · exact ⟨_, parsed ((keeps.sound.plain name).read path), Sheet.quiet_page _ _⟩

/-- Where there is a root file it fits into the directory. -/
theorem Keeps.fitsRoot (keeps : ledger.Keeps disk home books) (some : books.order ≠ []) :
    ledger.directory.Fits ({} : Layout).rootFile := by
  obtain ⟨name, member⟩ := List.exists_mem_of_ne_nil _ some
  have fits := keeps.fits name member
  rcases keeps.sound.named name member with rfl | ⟨date, rfl⟩
  · exact (fits.month ⟨2024, 1, 1, by decide⟩).root
  · exact fits.root

/-- Of books there is nothing to say. The root file lists the files of the books once each, and each
of them has a quiet page. -/
theorem Keeps.verify (keeps : ledger.Keeps disk home books) (some : books.order ≠ []) :
    ledger.verify disk = .ok ⟨[], []⟩ := by
  have fits := keeps.fitsRoot some
  have known : books.files ({} : Layout).rootFile = .some (rootText books.order) := by
    rw [Books.files, if_pos rfl, if_neg some]
  obtain ⟨leads, _⟩ := keeps.houses.places fits
  obtain ⟨page, parsed, errors, warnings, inclusions⟩ := Page.ofText_rootText keeps.sound.once
    (ledger.directory.below ({} : Layout).rootFile).toText
  have content := keeps.houses.readAt leads
    (ledger.directory.below ({} : Layout).rootFile).toText known
  have apart : ∀ name ∈ books.order, home ++ [name] ∉ [home ++ [({} : Layout).rootFile]] := by
    intro name member inside
    obtain rfl : name = ({} : Layout).rootFile := by simpa using inside
    rcases keeps.sound.named _ member with same | ⟨date, same⟩
    · exact Layout.isPlain_usual.apart same.symm
    · exact date.monthFile_apart.1 same.symm
  obtain ⟨visited, followed⟩ := keeps.houses.followInclusions keeps.sound.once
    (fun name member => ⟨keeps.fits name member, books.text name,
      (keeps.quiet _).imp fun page both => ⟨Books.files_of_mem keeps.sound member, both⟩⟩)
    ({} : Layout).rootFile disk.entries.length
    { visited := [home ++ [({} : Layout).rootFile]] } apart
  have listed : page.inclusions.eraseDups = books.order.map Phrase.ofText := by
    rw [inclusions, eraseDups_of_nodup (keeps.sound.once.map fun _ _ => Phrase.ofText_inj.mp)]
  have explored : Daybook.explore disk (disk.entries.length + 2)
      (ledger.directory.below ({} : Layout).rootFile) {} = .ok { visited } := by
    rw [← Page.ofBytes_encode] at parsed
    simp only [Daybook.explore, placeOf_of_place leads, content, parsed, errors, warnings, listed,
      List.append_nil, bind, Except.bind]
    exact followed
  have root : ledger.directory.child ledger.layout.rootFile =
      ledger.directory.below ({} : Layout).rootFile := by
    rw [keeps.usual, Layout.isPlain_usual.root.child]
  simp only [Ledger.verify, Daybook.verify, root, explored, bind, Except.bind]
  rfl

/-- What is included are the files of the directory that have the extension, but for the root
file. -/
theorem Keeps.mem_order_iff (keeps : ledger.Keeps disk home books) :
    name ∈ books.order ↔ FilePath.extensionOf name = ledger.layout.extension ∧
      name ≠ ledger.layout.rootFile ∧
      ∃ content, disk.entry? (home ++ [name]) = some (.file content) := by
  rw [keeps.usual]
  constructor
  · intro member
    have file : ∃ content, disk.entry? (home ++ [name]) = some (.file content) := by
      rw [keeps.houses.held, Books.files_of_mem keeps.sound member]
      exact ⟨_, rfl⟩
    rcases keeps.sound.named name member with rfl | ⟨date, rfl⟩
    · exact ⟨Layout.extensionOf_usual.1, Layout.isPlain_usual.apart, file⟩
    · exact ⟨date.extensionOf_monthFile, date.monthFile_apart.1, file⟩
  · rintro ⟨_, other, content, held⟩
    rw [keeps.houses.held] at held
    obtain ⟨text, known, _⟩ := Option.map_eq_some_iff.mp held
    exact ((Books.files_eq_some_iff keeps.sound other).mp known).1

/-- After every run that begins with an empty directory and the usual layout, whichever of its
operations fail, the root file is missing or a list of inclusions, in which every other ledger file
of the directory is included once and nothing else is. Where there is a root file, verification
finds neither errors nor warnings. Books that are in order have a root file of this form, and every
operation keeps them in order, also when it fails half-way. What is verified are then files that are
free of errors and include nothing themselves. -/
theorem root_complete (usual : ledger.layout = {})
    (empty : disk.Houses ledger.directory home fun _ => none) {operations : List Operation}
    (lexical : ∀ operation ∈ operations, operation.Lexical) :
    ∃ order : List Text, order.Nodup ∧
      (∀ name, name ∈ order ↔ FilePath.extensionOf name = ledger.layout.extension ∧
        name ≠ ledger.layout.rootFile ∧ ∃ content,
          Disk.entry? (ledger.after disk operations) (home ++ [name]) = some (.file content)) ∧
      ((Disk.entry? (ledger.after disk operations) (home ++ [ledger.layout.rootFile]) = none ∧
          order = []) ∨
        (Disk.entry? (ledger.after disk operations) (home ++ [ledger.layout.rootFile]) =
            some (.file (Text.Utf8.encode
              (order.flatMap fun name => "include ".toList ++ Text.Quoted.encode name ++ ['\n']))) ∧
          ledger.verify (ledger.after disk operations) = .ok ⟨[], []⟩)) := by
  obtain ⟨books, keeps⟩ := (keeps_blank usual empty).after lexical
  refine ⟨books.order, keeps.sound.once, fun name => keeps.mem_order_iff, ?_⟩
  have root := keeps.houses.held ({} : Layout).rootFile
  rw [Books.files, if_pos rfl] at root
  rw [usual]
  by_cases none : books.order = []
  · rw [if_pos none] at root
    exact Or.inl ⟨root, none⟩
  · rw [if_neg none] at root
    exact Or.inr ⟨root, keeps.verify none⟩

/-- There is a root file after the first year, and verification finds nothing. -/
theorem firstYear_complete :
    Ledger.usual.verify (Ledger.usual.after Disk.withEmptyDirectory Operation.firstYear) =
      .ok ⟨[], []⟩ := by
  have present : (Disk.entry? (Ledger.usual.after Disk.withEmptyDirectory Operation.firstYear)
      ["data", "main.bean"]).isSome = true := by decide +kernel
  obtain ⟨order, _, _, ⟨missing, _⟩ | ⟨_, verified⟩⟩ :=
    root_complete rfl Ledger.usual_houses Operation.firstYear_lexical
  · have nothing : Disk.entry? (Ledger.usual.after Disk.withEmptyDirectory Operation.firstYear)
        ["data", "main.bean"] = none := missing
    rw [nothing] at present
    cases present
  · exact verified

end Ledger

end Daybook
