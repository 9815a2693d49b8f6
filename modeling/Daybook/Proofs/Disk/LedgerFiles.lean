import Mathlib.Data.List.Dedup
import Mathlib.Data.List.Sort
import Daybook.Proofs.Disk.Keeping
import Daybook.Proofs.Disk.Places

/-!
# The ledger files of a directory

The ledger files of a directory come in the order of their names, each once. So they are known
as soon as it is known which names are names of ledger files, and that is a matter of lookups
alone. A disk on which the same names lead to files has the same ledger files.
-/
namespace Daybook

namespace Text

/-- The order of texts is that of their characters, and total: with these four facts a sorted list
of different names is determined by the names. -/
theorem atMost_refl (text : Text) : atMost text text = true := by
  induction text with
  | nil => rfl
  | cons c rest ih => simp [atMost, ih]

/-- Of two texts one comes first. -/
theorem atMost_total (left right : Text) : (atMost left right || atMost right left) = true := by
  induction left generalizing right with
  | nil => rfl
  | cons a left ih =>
    cases right with
    | nil => simp [atMost]
    | cons b right =>
      by_cases same : a = b
      · subst same
        simpa [atMost] using ih right
      · have apart : a.toNat ≠ b.toNat := fun equal => same (Char.toNat_inj.mp equal)
        have order : a.toNat < b.toNat ∨ b.toNat < a.toNat := by omega
        rcases order with less | greater
        · simp [atMost, less]
        · simp [atMost, greater]

/-- What comes before a text that comes before another comes before that one. By induction on the
first text, with the three texts compared character by character; a strict step in either comparison
decides. -/
theorem atMost_trans (first second third : Text) (low : atMost first second = true)
    (high : atMost second third = true) : atMost first third = true := by
  induction first generalizing second third with
  | nil => rfl
  | cons a first ih =>
    cases second with
    | nil => cases low
    | cons b second =>
      cases third with
      | nil => cases high
      | cons c third =>
        simp only [atMost, Bool.or_eq_true, decide_eq_true_eq, Bool.and_eq_true,
          beq_iff_eq] at low high ⊢
        rcases low with less | ⟨rfl, low⟩
        · rcases high with greater | ⟨rfl, _⟩
          · exact Or.inl (by omega)
          · exact Or.inl less
        · rcases high with greater | ⟨rfl, high⟩
          · exact Or.inl greater
          · exact Or.inr ⟨rfl, ih second third low high⟩

/-- Texts that come before each other are the same. -/
theorem atMost_antisymm {left right : Text} (low : atMost left right = true)
    (high : atMost right left = true) : left = right := by
  induction left generalizing right with
  | nil =>
    cases right with
    | nil => rfl
    | cons b right => cases high
  | cons a left ih =>
    cases right with
    | nil => cases low
    | cons b right =>
      simp only [atMost, Bool.or_eq_true, decide_eq_true_eq, Bool.and_eq_true,
        beq_iff_eq] at low high
      rcases low with less | ⟨rfl, low⟩
      · rcases high with greater | ⟨rfl, _⟩ <;> omega
      · rcases high with greater | ⟨_, high⟩
        · omega
        · rw [ih low high]

/-- Names in their order, each once. -/
structure Sorted (names : List Text) : Prop where
  order : names.Pairwise fun left right => atMost left right = true
  once : names.Nodup

/-- Names in their order are known by what is among them. -/
theorem Sorted.eq_of_mem_iff {names others : List Text} (sorted : Sorted names)
    (alsoSorted : Sorted others) (same : ∀ name, name ∈ names ↔ name ∈ others) :
    names = others := by
  have perm : names.Perm others := (List.perm_ext_iff_of_nodup sorted.once alsoSorted.once).mpr same
  exact perm.eq_of_pairwise (fun _ _ _ _ low high => atMost_antisymm low high) sorted.order
    alsoSorted.order

/-- Some of the names in their order. -/
theorem Sorted.filter {names : List Text} (sorted : Sorted names) (kept : Text → Bool) :
    Sorted (names.filter kept) :=
  ⟨sorted.order.filter kept, sorted.once.filter kept⟩

/-- Every list of names has the same names in their order. -/
theorem exists_sorted (names : List Text) :
    ∃ sorted, Sorted sorted ∧ ∀ name, name ∈ sorted ↔ name ∈ names := by
  refine ⟨names.dedup.mergeSort atMost, ⟨List.pairwise_mergeSort atMost_trans atMost_total _, ?_⟩,
    fun name => ?_⟩
  · exact (List.mergeSort_perm _ _).nodup_iff.mpr (List.nodup_dedup names)
  · rw [List.mem_mergeSort, List.mem_dedup]

/-- What belongs to names in their order is not changed by names to which nothing belongs. -/
theorem Sorted.flatMap_eq {α : Type} {names others : List Text} (sorted : Sorted names)
    (alsoSorted : Sorted others) (fewer : ∀ name ∈ others, name ∈ names) {belongs : Text → List α}
    (nothing : ∀ name ∈ names, name ∉ others → belongs name = []) :
    names.flatMap belongs = others.flatMap belongs := by
  have kept : names.filter (fun name => decide (name ∈ others)) = others := by
    refine (sorted.filter _).eq_of_mem_iff alsoSorted fun name => ?_
    rw [List.mem_filter, decide_eq_true_eq]
    exact ⟨And.right, fun inside => ⟨fewer name inside, inside⟩⟩
  rw [← kept]
  clear kept fewer sorted alsoSorted
  induction names with
  | nil => rfl
  | cons name names ih =>
    obtain ⟨here, later⟩ := List.forall_mem_cons.mp nothing
    by_cases inside : name ∈ others
    · rw [List.filter_cons_of_pos (by simpa using inside), List.flatMap_cons, List.flatMap_cons,
        ih later]
    · rw [List.filter_cons_of_neg (by simpa using inside), List.flatMap_cons, here inside,
        ih later, List.nil_append]

end Text

namespace Disk

variable {disk : Disk} {directory : FilePath} {home : Location} {names : List Text}

/-- The name of a place directly in a folder. -/
theorem childName_iff {place key : Location} {name : Text} :
    (if key.dropLast = place ∧ key ≠ [] then key.getLast? else none) = some name ↔
      key = place ++ [name] := by
  constructor
  · intro found
    split at found
    · next both =>
      obtain ⟨front, rfl⟩ := List.getLast?_eq_some_iff.mp found
      rw [List.dropLast_concat] at both
      rw [both.1]
    · cases found
  · rintro rfl
    simp

/-- The names in a folder are those of the places listed in it. The list is gathered from all places
of the disk and sorted, so it has no order of its own to remember, and names occur once because
places do. -/
theorem list_eq_ok_iff (proper : disk.Proper) : disk.list directory = .ok names ↔
    ∃ home, disk.place directory = .ok home ∧ disk.entry? home = some .folder ∧
      Text.Sorted names ∧ ∀ name, name ∈ names ↔
        home ++ [name] ∈ disk.entries.map Prod.fst := by
  have gathered (home : Location) : Text.Sorted ((disk.entries.filterMap fun held =>
      if held.1.dropLast = home ∧ held.1 ≠ [] then held.1.getLast? else none).mergeSort
        Text.atMost) ∧ ∀ name, name ∈ (disk.entries.filterMap fun held =>
      if held.1.dropLast = home ∧ held.1 ≠ [] then held.1.getLast? else none).mergeSort
        Text.atMost ↔ home ++ [name] ∈ disk.entries.map Prod.fst := by
    refine ⟨⟨List.pairwise_mergeSort Text.atMost_trans Text.atMost_total _, ?_⟩, fun name => ?_⟩
    · rw [(List.mergeSort_perm _ _).nodup_iff]
      have keys : disk.entries.filterMap (fun held =>
          if held.1.dropLast = home ∧ held.1 ≠ [] then held.1.getLast? else none) =
          (disk.entries.map Prod.fst).filterMap fun key =>
            if key.dropLast = home ∧ key ≠ [] then key.getLast? else none := by
        rw [List.filterMap_map]
        rfl
      rw [keys]
      refine List.Nodup.filterMap (fun first second name one other => ?_) proper.once
      rw [childName_iff.mp one, childName_iff.mp other]
    · rw [List.mem_mergeSort, List.mem_filterMap, List.mem_map]
      simp only [childName_iff]
  constructor
  · intro listed
    simp only [list, blame, mapError_eq_ok_iff, bind_eq_ok_iff] at listed
    obtain ⟨home, led, found⟩ := listed
    cases standing : disk.entry? home with
    | none =>
      rw [standing] at found
      cases found
    | some entry =>
      cases entry with
      | file content =>
        rw [standing] at found
        cases found
      | folder =>
        rw [standing] at found
        cases found
        exact ⟨home, led, standing, gathered home⟩
  · rintro ⟨home, led, folder, sorted, members⟩
    obtain ⟨sortedHere, membersHere⟩ := gathered home
    have same := sorted.eq_of_mem_iff sortedHere fun name =>
      (members name).trans (membersHere name).symm
    simp only [list, blame, mapError_eq_ok_iff, bind_eq_ok_iff]
    refine ⟨home, led, ?_⟩
    rw [folder, same]

end Disk

/-- A name is that of a ledger file of a directory. -/
structure Layout.Names (layout : Layout) (disk : Disk) (directory : FilePath) (name : Text) :
    Prop where
  extension : FilePath.extensionOf name = layout.extension
  other : name ≠ layout.rootFile
  file : disk.holdsFile (directory.below name) = .ok true

/-- The ledger files of a directory can be listed: it is a folder, and of everything in it that is
named like a ledger file the system can tell whether it is one. -/
def Layout.Listable (layout : Layout) (disk : Disk) (directory : FilePath) : Prop :=
  ∃ home, disk.place directory = .ok home ∧ disk.entry? home = some .folder ∧
    ∀ name, ¬ (home ++ [name]).isPrefixOf disk.current → disk.entry? (home ++ [name]) ≠ none →
      FilePath.extensionOf name = layout.extension → name ≠ layout.rootFile →
      directory.Askable name

/-- Nothing in a directory that is named like a ledger file leads up. -/
def Layout.Descends (layout : Layout) (disk : Disk) (directory : FilePath) : Prop :=
  ∀ home, disk.place directory = .ok home → ∀ name, FilePath.extensionOf name = layout.extension →
    disk.holdsFile (directory.below name) = .ok true ∨ disk.entry? (home ++ [name]) ≠ none →
      name ≠ ['.', '.']

namespace Disk

variable {disk : Disk} {directory : FilePath} {home : Location} {name : Text}

/-- A path holds a file exactly if it leads to one. -/
theorem holdsFile_eq_true_iff {path : FilePath} : disk.holdsFile path = .ok true ↔
    ∃ place content, disk.place path = .ok place ∧ disk.entry? place = some (.file content) := by
  cases led : disk.place path with
  | error refusal =>
    have refused : disk.find path = .error refusal := by
      simp only [find, led, bind, Except.bind]
    simp only [holdsFile, holdsEntry, refused]
    cases refusal <;> simp
  | ok place =>
    cases standing : disk.entry? place with
    | none => simp [holdsFile, holdsEntry, find, led, standing, bind, Except.bind]
    | some entry =>
      cases entry with
      | folder => simp [holdsFile, holdsEntry, find, led, standing, bind, Except.bind]
      | file content => simp [holdsFile, holdsEntry, find, led, standing, bind, Except.bind]

/-- Of a path it can be said whether it holds a file, unless it is too long. -/
theorem exists_holdsFile_iff {path : FilePath} : (∃ verdict, disk.holdsFile path = .ok verdict) ↔
    disk.place path ≠ .error .tooLong := by
  cases led : disk.place path with
  | error refusal =>
    have refused : disk.find path = .error refusal := by
      simp only [find, led, bind, Except.bind]
    simp only [holdsFile, holdsEntry, refused]
    cases refusal <;> simp
  | ok place =>
    cases standing : disk.entry? place with
    | none => simp [holdsFile, holdsEntry, find, led, standing, bind, Except.bind]
    | some entry =>
      simp only [holdsFile, holdsEntry, find, led, standing, bind, Except.bind]
      exact iff_of_true ⟨_, rfl⟩ (by simp)

/-- A directory that is a folder can be listed. -/
theorem exists_list (leads : disk.place directory = .ok home)
    (folder : disk.entry? home = some .folder) : ∃ names, disk.list directory = .ok names := by
  unfold list
  rw [leads]
  simp only [bind, Except.bind, folder]
  exact ⟨_, rfl⟩

/-- A name with an extension leads down. -/
theorem down_of_extension (nonempty : FilePath.extensionOf name ≠ []) : name ≠ ['.', '.'] := by
  rintro rfl
  exact nonempty rfl

/-- Ledger files with an extension lead down. -/
theorem descends_of_extension {layout : Layout} (nonempty : layout.extension ≠ [])
    (disk : Disk) (directory : FilePath) : layout.Descends disk directory :=
  fun _ _ _ extension _ => down_of_extension (extension ▸ nonempty)

/-- A file of a directory stands below the place of the directory. -/
theorem entry_below (walked : disk.walkTo directory = .ok home) (down : name ≠ ['.', '.'])
    {place : Location} (led : disk.place (directory.below name) = .ok place) :
    place = home ++ [name] := by
  obtain ⟨_, _, _, folder, alsoWalked, _, rfl⟩ := (place_below_eq_ok_iff down).mp led
  rw [walked] at alsoWalked
  cases alsoWalked
  rfl

/-- Whether it can be said of a path of a directory that it holds a file does not depend on what
stands in the directory. -/
theorem exists_holdsFile_below_iff (leads : disk.place directory = .ok home)
    (folder : disk.entry? home = some .folder) (down : name ≠ ['.', '.']) :
    (∃ verdict, disk.holdsFile (directory.below name) = .ok verdict) ↔
      directory.Askable name := by
  have walked : disk.walkTo directory = .ok home := walk_of_place leads
  rw [exists_holdsFile_iff, place_below walked folder down, FilePath.Askable]
  by_cases usable : (directory.below name).isUsable = true
  · by_cases long : longestPath < size (directory.below name).toText
    · have beyond : ¬ size (directory.below name).toText ≤ longestPath := by omega
      simp [usable, long, beyond]
    · have short : size (directory.below name).toText ≤ longestPath := by omega
      by_cases wide : longestName < size name
      · have beyond : ¬ size name ≤ longestName := by omega
        simp [usable, long, wide, beyond]
      · have narrow : size name ≤ longestName := by omega
        simp [usable, long, wide, short, narrow]
  · simp [usable]

/-- A ledger file is listed in its directory. -/
theorem listed_of_names (proper : disk.Proper) {layout : Layout}
    (descends : layout.Descends disk directory) (leads : disk.place directory = .ok home)
    (names : layout.Names disk directory name) :
    home ++ [name] ∈ disk.entries.map Prod.fst := by
  obtain ⟨extension, _, file⟩ := names
  obtain ⟨place, content, led, held⟩ := holdsFile_eq_true_iff.mp file
  obtain rfl := entry_below (walk_of_place leads)
    (descends home leads name extension (Or.inl file)) led
  have outside := outside_of_not_folder (by rw [held]; simp : disk.entry? _ ≠ some .folder)
  exact proper.listed_iff.mpr ⟨outside, by rw [held]; simp⟩

/-- The ledger files of a directory are the files with such names, in the order of the names. Three
filters, on the extension, on the root file and on what stands at the path, are taken together to
one condition on names. Asking what stands at a path may fail, and then the listing does. -/
theorem ledgerFiles_eq_ok_iff (proper : disk.Proper) {layout : Layout}
    (descends : layout.Descends disk directory) {paths : List FilePath} :
    ledgerFiles directory layout disk = .ok paths ↔ layout.Listable disk directory ∧
      ∃ names, Text.Sorted names ∧ (∀ name, name ∈ names ↔ layout.Names disk directory name) ∧
        paths = names.map directory.below := by
  have chosen (names : List Text) (name : Text) : name ∈ (names.filter fun name =>
      FilePath.extensionOf name = layout.extension && name ≠ layout.rootFile) ↔
      name ∈ names ∧ FilePath.extensionOf name = layout.extension ∧ name ≠ layout.rootFile := by
    simp [List.mem_filter]
  have accepted (name : Text) : ((disk.holdsFile (directory.below name)).mapError
      Failure.refused).toOption = some true ↔
      disk.holdsFile (directory.below name) = .ok true := by
    cases disk.holdsFile (directory.below name) <;> simp [Except.mapError, Except.toOption]
  -- What is listed in a folder and passes the filters are the names of ledger files.
  have gathered {home : Location} {listed : List Text} (leads : disk.place directory = .ok home)
      (sorted : Text.Sorted listed)
      (members : ∀ name, name ∈ listed ↔ home ++ [name] ∈ disk.entries.map Prod.fst) :
      ∃ names, Text.Sorted names ∧ (∀ name, name ∈ names ↔ layout.Names disk directory name) ∧
        (((listed.filter fun name => FilePath.extensionOf name = layout.extension &&
          name ≠ layout.rootFile).map fun name => directory.join ⟨.here, [name]⟩).filter
            fun path => ((disk.holdsFile path).mapError Failure.refused).toOption == some true) =
          names.map directory.below := by
    refine ⟨_, (sorted.filter _).filter _, fun name => ?_, List.filter_map⟩
    rw [List.mem_filter, chosen, Function.comp_apply, beq_iff_eq]
    constructor
    · rintro ⟨⟨_, extension, other⟩, file⟩
      exact ⟨extension, other, (accepted name).mp file⟩
    · rintro ⟨extension, other, file⟩
      refine ⟨⟨(members name).mpr ?_, extension, other⟩, (accepted name).mpr file⟩
      exact listed_of_names proper descends leads ⟨extension, other, file⟩
  have told {home : Location} {name : Text} (leads : disk.place directory = .ok home)
      (folder : disk.entry? home = some .folder)
      (extension : FilePath.extensionOf name = layout.extension)
      (something : disk.entry? (home ++ [name]) ≠ none) :
      (∃ verdict, disk.holdsFile (directory.below name) = .ok verdict) ↔
        directory.Askable name :=
    exists_holdsFile_below_iff leads folder (descends home leads name extension (Or.inr something))
  unfold ledgerFiles
  simp only [bind_eq_ok_iff, mapError_eq_ok_iff, list_eq_ok_iff proper, filterM_eq_ok_iff]
  constructor
  · rintro ⟨listed, ⟨home, leads, folder, sorted, members⟩, each, rfl⟩
    refine ⟨⟨home, leads, folder, fun name outside something extension other => ?_⟩,
      gathered leads sorted members⟩
    have inside := (members name).mpr (proper.listed_iff.mpr ⟨outside, something⟩)
    exact (told leads folder extension something).mp
      (each _ (List.mem_map.mpr ⟨name, (chosen listed name).mpr ⟨inside, extension, other⟩, rfl⟩))
  · rintro ⟨⟨home, leads, folder, each⟩, names, sorted, members, rfl⟩
    obtain ⟨listed, found⟩ := exists_list leads folder
    obtain ⟨_, alsoLeads, _, listedSorted, listedMembers⟩ := (list_eq_ok_iff proper).mp found
    rw [leads] at alsoLeads
    cases alsoLeads
    obtain ⟨others, otherSorted, otherMembers, same⟩ := gathered leads listedSorted listedMembers
    refine ⟨listed, ⟨home, leads, folder, listedSorted, listedMembers⟩, ?_, ?_⟩
    · intro path member
      obtain ⟨name, kept, rfl⟩ := List.mem_map.mp member
      obtain ⟨inside, extension, other⟩ := (chosen listed name).mp kept
      obtain ⟨outside, something⟩ := proper.listed_iff.mp ((listedMembers name).mp inside)
      exact (told leads folder extension something).mpr (each name outside something extension other)
    · rw [sorted.eq_of_mem_iff otherSorted fun name =>
        (members name).trans (otherMembers name).symm]
      exact same.symm

/-- The ledger files of a directory that can be listed are listed. -/
theorem exists_ledgerFiles (proper : disk.Proper) {layout : Layout}
    (descends : layout.Descends disk directory) (listable : layout.Listable disk directory) :
    ∃ names, Text.Sorted names ∧ (∀ name, name ∈ names ↔ layout.Names disk directory name) ∧
      ledgerFiles directory layout disk = .ok (names.map directory.below) := by
  classical
  have ⟨home, leads, folder, _⟩ := listable
  obtain ⟨listed, found⟩ := exists_list leads folder
  obtain ⟨_, alsoLeads, _, sorted, members⟩ := (list_eq_ok_iff proper).mp found
  rw [leads] at alsoLeads
  cases alsoLeads
  have known (name : Text) :
      name ∈ listed.filter (fun name => decide (layout.Names disk directory name)) ↔
        layout.Names disk directory name := by
    rw [List.mem_filter, decide_eq_true_eq]
    exact ⟨And.right, fun names =>
      ⟨(members name).mpr (listed_of_names proper descends leads names), names⟩⟩
  exact ⟨_, sorted.filter _, known, (ledgerFiles_eq_ok_iff proper descends).mpr
    ⟨listable, _, sorted.filter _, known, rfl⟩⟩

end Disk

/-! ## Listing transactions -/

/-- The records of the transactions of a page at a path. -/
def Page.records (page : Page) (path : FilePath) : List Transaction :=
  page.transactions.map (TransactionEntry.toRecord path)

/-- The records of the file at a path, none if it cannot be read. -/
def Disk.records (disk : Disk) (path : FilePath) : List Transaction :=
  ((readPage path disk).toOption.map fun page => page.records path).getD []

/-- The transactions of a directory are those of its ledger files, file after file, brought into
the order of their dates. -/
theorem listTransactions_eq_ok_iff {disk : Disk} (proper : disk.Proper) {directory : FilePath}
    {layout : Layout} (descends : layout.Descends disk directory) {listed : List Transaction} :
    listTransactions directory layout disk = .ok listed ↔ layout.Listable disk directory ∧
      ∃ names, Text.Sorted names ∧ (∀ name, name ∈ names ↔ layout.Names disk directory name) ∧
        (∀ name ∈ names, ∃ page, readPage (directory.below name) disk = .ok page) ∧
        listed = (names.flatMap fun name => disk.records (directory.below name)).mergeSort
          fun a b => Text.atMost b.date a.date := by
  have each (path : FilePath) (found : List Transaction) : (do
      let page ← readPage path disk
      return page.transactions.map (TransactionEntry.toRecord path)) = .ok found ↔
      (∃ page, readPage path disk = .ok page) ∧ found = disk.records path := by
    cases read : readPage path disk with
    | error failure => simp [bind, Except.bind]
    | ok page => simp [bind, Except.bind, pure, Except.pure, Disk.records, read, Except.toOption,
        Page.records, eq_comm]
  unfold listTransactions
  simp only [bind_eq_ok_iff, Disk.ledgerFiles_eq_ok_iff proper descends, mapM_eq_ok_iff each]
  constructor
  · rintro ⟨_, ⟨listable, names, sorted, members, rfl⟩, _, ⟨pages, rfl⟩, same⟩
    cases same
    refine ⟨listable, names, sorted, members, fun name inside =>
      pages _ (List.mem_map.mpr ⟨name, inside, rfl⟩), ?_⟩
    rw [List.flatMap_def, List.map_map]
    rfl
  · rintro ⟨listable, names, sorted, members, pages, rfl⟩
    refine ⟨_, ⟨listable, names, sorted, members, rfl⟩, _, ⟨?_, rfl⟩, ?_⟩
    · intro path inside
      obtain ⟨name, member, rfl⟩ := List.mem_map.mp inside
      exact pages name member
    · rw [List.flatMap_def, List.map_map]
      rfl

end Daybook
