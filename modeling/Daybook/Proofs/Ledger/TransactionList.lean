import Daybook.Proofs.Date.Order
import Daybook.Proofs.Disk.Recognizing
import Daybook.Proofs.Page.Spans

/-!
# The list of transactions

Listing a directory gives every transaction of its ledger files once, in the order of the texts of
their dates, latest first. The id of a transaction leads back to the place where its date stands,
since no two transactions of a file begin at one offset and no two files have one path.
-/
namespace Daybook

/-! ## Listing -/

/-- The transactions of ledger files, file after file. -/
def Ledger.gathered (ledger : Ledger) (disk : Disk) (names : List Text) : List Transaction :=
  names.flatMap fun name => disk.records (ledger.directory.below name)

/-- The id of a transaction leads to the place in the content of its file where its date stands, and
there to the transaction. -/
structure Ledger.Leads (ledger : Ledger) (disk : Disk) (path : FilePath) (content : Bytes)
    (page : Page) (found : TransactionEntry) : Prop where
  shown : Text.Utf8.encode found.date <+: content.drop found.dateSpan.start.toNat
  reached : page.find found.dateSpan.start.toNat = .ok found
  accepted : ':' ∉ path.toText →
    (Text.decimal found.dateSpan.start.toNat).length ≤ Text.mostDigits →
    ∃ id, (found.toRecord path).id = some id ∧ ledger.checkId id disk = .ok path ∧
      Identifier.decode id = .ok ⟨path.toText, found.dateSpan.start.toNat⟩

/-- A list holds the transactions of ledger files: each of them once, no later date behind an
earlier one among dates that are written alike, those of one date as they stand in the files, and
each with an id of its own that leads back to it. -/
structure Ledger.Lists (ledger : Ledger) (disk : Disk) (names : List Text)
    (listed : List Transaction) : Prop where
  complete : listed.Perm (ledger.gathered disk names)
  ordered : listed.Pairwise fun earlier later => Date.WrittenAlike earlier.date later.date →
    ∀ date other, Date.read earlier.date = .ok date → Date.read later.date = .ok other →
      ¬ date.Before other
  stable : ∀ first second, [first, second].Sublist (ledger.gathered disk names) →
    (first.date = second.date ∨ Date.WrittenAlike first.date second.date ∧
      ∃ date, Date.read first.date = .ok date ∧ Date.read second.date = .ok date) →
    [first, second].Sublist listed
  distinct : (listed.map Transaction.id).Nodup
  leads : ∀ name ∈ names, ∀ content page,
    readBytes (ledger.directory.below name).toText (ledger.directory.below name) disk =
      .ok content → Page.read (ledger.directory.below name) content = .ok page →
    ∀ found, .transaction found ∈ page.directives →
      ledger.Leads disk (ledger.directory.below name) content page found

/-- A file has the records of its page. -/
theorem Disk.records_eq {disk : Disk} {path : FilePath} {page : Page}
    (read : readPage path disk = .ok page) : disk.records path = page.records path := by
  rw [Disk.records, read]
  rfl

/-- The records of a page have ids of their own. -/
theorem Page.nodup_ids {path : FilePath} {content : Bytes} {page : Page}
    (read : Page.read path content = .ok page) :
    ((page.records path).map Transaction.id).Nodup := by
  obtain ⟨paged, sound⟩ := Page.read_eq_ok_iff.mp read
  rw [Page.records, List.map_map, List.Nodup, List.pairwise_map]
  refine (Page.transactions_ordered paged sound).imp_of_mem ?_
  intro first second inside alsoInside less same
  have starts {found : TransactionEntry} (member : found ∈ page.transactions) :
      0 ≤ found.dateSpan.start := by
    obtain ⟨directive, listed, known⟩ := List.mem_filterMap.mp member
    cases directive <;> cases known
    exact (Page.date_shown paged sound listed).1
  have ids := Identifier.encode_inj (Option.some.inj same)
  have offsets := congrArg Identifier.offset ids
  have least := starts inside
  have alsoLeast := starts alsoInside
  simp only at offsets
  omega

namespace Ledger

variable {ledger : Ledger} {disk : Disk} {names : List Text} {written : Text}

/-- A ledger file has a name that leads down, and the system can be asked for its path. -/
theorem named_of_names (proper : disk.Proper) (tree : disk.IsTree) {name : Text}
    {home : Location} (leads : disk.place ledger.directory = .ok home)
    (names : ledger.layout.Names disk ledger.directory name) :
    FilePath.IsName name ∧ name ≠ ['.', '.'] ∧
      (ledger.directory.below name).isUsable = true := by
  have listed := Disk.listed_of_names proper (tree.descends proper _ _) leads names
  obtain ⟨named, down⟩ := tree.named _ listed name (by simp)
  obtain ⟨place, content, led, _⟩ := Disk.holdsFile_eq_true_iff.mp names.file
  exact ⟨named, down, ((Disk.place_below_eq_ok_iff down).mp led).1⟩

/-- All transactions of ledger files have ids of their own. Ids of one file differ by their offsets,
and ids of two files by their paths. -/
theorem nodup_gathered (opened : ledger.directory = FilePath.ofText written)
    (once : names.Nodup) (named : ∀ name ∈ names, FilePath.IsName name)
    (readable : ∀ name ∈ names, ∃ content page,
      readBytes (ledger.directory.below name).toText (ledger.directory.below name) disk =
        .ok content ∧ Page.read (ledger.directory.below name) content = .ok page) :
    ((ledger.gathered disk names).map Transaction.id).Nodup := by
  have normal : ledger.directory.IsNormal := opened ▸ FilePath.isNormal_ofText written
  -- An id of a file begins with the path of the file.
  have own (name : Text) (member : name ∈ names) (id : Option Text)
      (inside : id ∈ (disk.records (ledger.directory.below name)).map Transaction.id) :
      ∃ offset, id = some (Identifier.encode ⟨(ledger.directory.below name).toText, offset⟩) := by
    obtain ⟨content, page, held, read⟩ := readable name member
    rw [Disk.records_eq (bind_eq_ok_iff.mpr ⟨content, held, read⟩), Page.records, List.map_map]
      at inside
    obtain ⟨found, _, rfl⟩ := List.mem_map.mp inside
    exact ⟨_, rfl⟩
  rw [gathered, List.map_flatMap, List.nodup_flatMap]
  refine ⟨fun name member => ?_, once.imp_of_mem ?_⟩
  · obtain ⟨content, page, held, read⟩ := readable name member
    rw [Disk.records_eq (bind_eq_ok_iff.mpr ⟨content, held, read⟩)]
    exact Page.nodup_ids read
  · intro first second inside alsoInside apart id one other
    obtain ⟨offset, rfl⟩ := own first inside id one
    obtain ⟨_, same⟩ := own second alsoInside _ other
    have ids := Identifier.encode_inj (Option.some.inj same)
    exact apart (FilePath.eq_of_below_toText normal (named first inside) (named second alsoInside)
      (congrArg Identifier.path ids))

/-- Sorting by the texts of dates brings later dates to the front and keeps those of one date in
their order. -/
theorem ordered_mergeSort (gathered : List Transaction) :
    let listed := gathered.mergeSort fun a b => Text.atMost b.date a.date
    (listed.Pairwise fun earlier later => Date.WrittenAlike earlier.date later.date →
      ∀ date other, Date.read earlier.date = .ok date → Date.read later.date = .ok other →
        ¬ date.Before other) ∧
    ∀ first second, [first, second].Sublist gathered →
      (first.date = second.date ∨ Date.WrittenAlike first.date second.date ∧
        ∃ date, Date.read first.date = .ok date ∧ Date.read second.date = .ok date) →
      [first, second].Sublist listed := by
  have trans (a b c : Transaction) (low : Text.atMost b.date a.date = true)
      (high : Text.atMost c.date b.date = true) : Text.atMost c.date a.date = true :=
    Text.atMost_trans _ _ _ high low
  have total (a b : Transaction) :
      (Text.atMost b.date a.date || Text.atMost a.date b.date) = true :=
    Text.atMost_total _ _
  constructor
  · refine (List.pairwise_mergeSort trans total gathered).imp fun {earlier later} order alike => ?_
    intro date other read alsoRead
    exact (alike.symm.not_before alsoRead read order).1
  · intro first second front known
    have same : first.date = second.date := by
      rcases known with same | ⟨alike, date, read, alsoRead⟩
      · exact same
      · rcases Bool.or_eq_true _ _ ▸ total first second with order | order
        · exact ((alike.symm.not_before alsoRead read order).2 rfl).symm
        · exact (alike.not_before read alsoRead order).2 rfl
    exact List.pair_sublist_mergeSort trans total (same ▸ Text.atMost_refl _) front

/-- If all ledger files of a directory can be read, their transactions are listed, and each of them
is found where its id says. The listing is a stable sort by the text of the date of what the files
hold, one after the other in the order of their names, and whatever is said about it here is kept by
sorting. -/
theorem transactions_listed (opened : ledger.directory = FilePath.ofText written)
    (proper : disk.Proper) (tree : disk.IsTree)
    (listable : ledger.layout.Listable disk ledger.directory)
    (readable : ∀ name, ledger.layout.Names disk ledger.directory name →
      ∃ page, readPage (ledger.directory.below name) disk = .ok page) :
    ∃ names listed, Text.Sorted names ∧
      (∀ name, name ∈ names ↔ ledger.layout.Names disk ledger.directory name) ∧
      ledger.transactions disk = .ok listed ∧ ledger.Lists disk names listed := by
  have normal : ledger.directory.IsNormal := opened ▸ FilePath.isNormal_ofText written
  have descends := tree.descends proper ledger.layout ledger.directory
  have ⟨home, leads, _⟩ := listable
  obtain ⟨names, sorted, members, _⟩ := Disk.exists_ledgerFiles proper descends listable
  have read (name : Text) (member : name ∈ names) := readable name ((members name).mp member)
  have named (name : Text) (member : name ∈ names) :=
    named_of_names proper tree leads ((members name).mp member)
  obtain ⟨ordered, stable⟩ := ordered_mergeSort (ledger.gathered disk names)
  have complete := List.mergeSort_perm (ledger.gathered disk names)
    fun a b => Text.atMost b.date a.date
  refine ⟨names, _, sorted, members, (listTransactions_eq_ok_iff proper descends).mpr
    ⟨listable, names, sorted, members, read, rfl⟩, complete, ordered, stable, ?_, ?_⟩
  · refine ((complete.map Transaction.id).nodup_iff).mpr (nodup_gathered opened sorted.once
      (fun name member => (named name member).1) fun name member => ?_)
    obtain ⟨page, read⟩ := read name member
    obtain ⟨content, held, parsed⟩ := bind_eq_ok_iff.mp read
    exact ⟨content, page, held, parsed⟩
  · intro name member content page held parsed found inside
    obtain ⟨paged, sound⟩ := Page.read_eq_ok_iff.mp parsed
    obtain ⟨least, _, shown⟩ := Page.date_shown paged sound inside
    obtain ⟨isName, down, usable⟩ := named name member
    obtain ⟨extension, other, _⟩ := (members name).mp member
    refine ⟨shown, ?_, fun colon short => ⟨_, rfl, ?_, ?_⟩⟩
    · rw [Int.toNat_of_nonneg least]
      exact Page.find_start paged sound inside
    · exact (checkId_eq_ok_iff normal isName down usable _ disk).mpr ⟨extension, other, colon, short⟩
    · exact (Identifier.decode_encode_iff (FilePath.toText_ne_nil (normal.below isName))).mpr
        ⟨colon, short, rfl⟩

end Ledger

/-- A directory whose names are all short enough can be listed. -/
theorem Layout.listable_of_askable (layout : Layout) {disk : Disk} (proper : disk.Proper)
    {directory : FilePath} {home : Location} (leads : disk.place directory = .ok home)
    (folder : disk.entry? home = some .folder)
    (askable : ∀ place ∈ disk.entries.map Prod.fst, directory.Askable (place.getLast?.getD [])) :
    layout.Listable disk directory := by
  refine ⟨home, leads, folder, fun name outside something _ _ => ?_⟩
  have asked := askable _ (proper.listed_iff.mpr ⟨outside, something⟩)
  rwa [List.getLast?_concat] at asked

/-- A disk with two ledger files, a root file and a file of another sort. -/
def Disk.withTwoYears : Disk where
  current := []
  entries :=
    [(["data"], .folder),
      (["data", "2024.ledger"], .file (Text.Utf8.encode
        "2024-01-05 * \"Caf\u00e9\"\n2024-02-05 ! \"b\"\n")),
      (["data", "2023.ledger"], .file (Text.Utf8.encode "2024-01-05 * \"c\"")),
      (["data", "main.bean"], .file []), (["data", "notes.txt"], .file [])]

/-- The transactions of its two ledger files are listed. -/
theorem Ledger.yearly_listed : ∃ names listed,
    "2023.ledger".toList ∈ names ∧ "2024.ledger".toList ∈ names ∧
    Ledger.yearly.transactions Disk.withTwoYears = .ok listed ∧
    Ledger.yearly.Lists Disk.withTwoYears names listed := by
  have proper : Disk.withTwoYears.Proper := by decide +kernel
  have tree : Disk.withTwoYears.IsTree := by decide +kernel
  have leads : Disk.withTwoYears.place Ledger.yearly.directory = .ok ["data"] := by rfl
  have listable : Ledger.yearly.layout.Listable Disk.withTwoYears Ledger.yearly.directory := by
    refine Layout.listable_of_askable _ proper leads rfl ?_
    unfold FilePath.Askable
    decide +kernel
  have pages : ∀ place ∈ Disk.withTwoYears.entries.map Prod.fst,
      FilePath.extensionOf (place.getLast?.getD []) = Ledger.yearly.layout.extension →
        (readPage (Ledger.yearly.directory.below (place.getLast?.getD []))
          Disk.withTwoYears).isOk = true := by
    decide +kernel
  obtain ⟨names, listed, _, own, found, lists⟩ := Ledger.transactions_listed rfl proper tree
    listable fun name named => by
      have listed := Disk.listed_of_names proper (tree.descends proper _ _) leads named
      have page := pages _ listed
      rw [List.getLast?_concat] at page
      have page := page named.extension
      cases read : readPage (Ledger.yearly.directory.below name) Disk.withTwoYears with
      | error failure =>
        rw [Option.getD_some, read] at page
        cases page
      | ok page => exact ⟨page, rfl⟩
  exact ⟨names, listed, (own _).mpr ⟨rfl, by decide, rfl⟩, (own _).mpr ⟨rfl, by decide, rfl⟩, found,
    lists⟩

/-- A disk with a ledger file whose dates are not written alike. -/
def Disk.withUnlike : Disk where
  current := []
  entries :=
    [(["data"], .folder),
      (["data", "2024.ledger"], .file (Text.Utf8.encode
        "2024-1-5 * \"a\"\n2024-01-10 * \"b\"\n"))]

/-- The earlier one of its two transactions is listed first. -/
theorem Ledger.unlike_disordered : ∃ first second date other,
    Ledger.yearly.transactions Disk.withUnlike = .ok [first, second] ∧
    Date.read first.date = .ok date ∧ Date.read second.date = .ok other ∧ date.Before other := by
  have files : (ledgerFiles Ledger.yearly.directory Ledger.yearly.layout Disk.withUnlike).toOption =
      some [Ledger.yearly.directory.below "2024.ledger"] := by decide +kernel
  have shape : (readPage (Ledger.yearly.directory.below "2024.ledger")
      Disk.withUnlike).toOption.map (fun page => page.transactions.map TransactionEntry.date) =
        some ["2024-1-5".toList, "2024-01-10".toList] := by decide +kernel
  have read : Date.read "2024-1-5" = .ok ⟨2024, 1, 5, by decide⟩ := by rfl
  have alsoRead : Date.read "2024-01-10" = .ok ⟨2024, 1, 10, by decide⟩ := by rfl
  rcases listed : ledgerFiles Ledger.yearly.directory Ledger.yearly.layout Disk.withUnlike with
    failure | paths
  · rw [listed] at files
    cases files
  rcases held : readPage (Ledger.yearly.directory.below "2024.ledger") Disk.withUnlike with
    failure | page
  · rw [held] at shape
    cases shape
  rw [listed] at files
  rw [held] at shape
  obtain rfl := Option.some.inj files
  obtain ⟨first, others, whole, dated, rest⟩ := List.map_eq_cons_iff.mp (Option.some.inj shape)
  obtain ⟨second, none, rfl, alsoDated, last⟩ := List.map_eq_cons_iff.mp rest
  obtain rfl := List.map_eq_nil_iff.mp last
  let path := Ledger.yearly.directory.below "2024.ledger"
  have sorted : [first.toRecord path, second.toRecord path].Pairwise fun a b =>
      Text.atMost b.date a.date = true := by
    simp only [TransactionEntry.toRecord, dated, alsoDated, List.pairwise_cons, List.mem_singleton,
      forall_eq, List.not_mem_nil, false_implies, implies_true, List.Pairwise.nil, and_true]
    decide
  refine ⟨first.toRecord path, second.toRecord path, _, _, ?_, dated ▸ read, alsoDated ▸ alsoRead,
    by decide⟩
  unfold Ledger.transactions listTransactions
  simp only [listed, bind, Except.bind, List.mapM_cons, held, whole]
  exact congrArg Except.ok (List.mergeSort_of_pairwise sorted)

end Daybook
