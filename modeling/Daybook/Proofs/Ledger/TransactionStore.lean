import Daybook.Proofs.Ledger.AccountRoll
import Daybook.Proofs.Ledger.TransactionList
import Daybook.Proofs.Ledger.VerifiedBooks

/-!
# The store of transactions

The transactions of a directory are a store: after every run that begins with an empty directory,
those that are listed are what the operations on transactions make of an empty store, one after the
other. The id of a transaction that is listed leads to it in the store. Operations on accounts do not
touch the store.
-/
namespace Daybook

open Disk

/-- The transaction without its id. -/
def Transaction.bare (transaction : Transaction) : Transaction :=
  { transaction with id := none }

/-- A list holds the transactions of a store, month file after month file, brought into the order
of their dates: the latest one comes first, and those of one date stay as they are. -/
def Store.Lists (store : Store) (listed : List Transaction) : Prop :=
  ∃ names, Text.Sorted names ∧ (∀ name, name ∈ names ↔ store name ≠ []) ∧
    listed = (names.flatMap store).mergeSort fun a b => Text.atMost b.date a.date

/-- The store after an operation on a disk, which says what ids lead to. -/
def Operation.stored (ledger : Ledger) (disk : Disk) : Operation → Store → Store
  | book booking, store => booking.apply ledger (ledger.target? disk) store
  | register _, store => store

/-- The store after operations, one after the other. -/
def Ledger.stored (ledger : Ledger) : Disk → List Operation → Store → Store
  | _, [], store => store
  | disk, operation :: operations, store =>
    ledger.stored ((operation.run ledger).outcome disk).2 operations
      (operation.stored ledger disk store)

/-- The operation is to succeed. -/
def Booking.Works (ledger : Ledger) (disk : Disk) : Booking → Prop
  | add transaction => (ledger.accepted? transaction).isSome
  | update id transaction =>
    (ledger.target? disk id).isSome ∧ (ledger.accepted? transaction).isSome
  | delete id => (ledger.target? disk id).isSome
  | clear id => (ledger.target? disk id).isSome
  | unclear id => (ledger.target? disk id).isSome
  | list => True

/-- The operation is to fail. -/
def Booking.Fails (ledger : Ledger) (disk : Disk) : Booking → Prop
  | add transaction => ledger.accepted? transaction = none
  | update id transaction =>
    ledger.found? disk id = none ∨ ledger.accepted? transaction = none
  | delete id => ledger.found? disk id = none
  | clear id => ledger.found? disk id = none
  | unclear id => ledger.found? disk id = none
  | list => False

namespace Ledger

variable {ledger : Ledger} {disk : Disk} {home : Location} {books : Books} {name : Text}

/-! ## Runs -/

/-- An operation leaves books with the store after it. -/
theorem Keeps.stores (keeps : ledger.Keeps disk home books) {operation : Operation}
    (lexical : operation.Lexical) :
    ∃ next, ledger.Keeps ((operation.run ledger).outcome disk).2 home next ∧
      next.store = operation.stored ledger disk books.store := by
  cases operation with
  | book booking =>
    obtain ⟨next, kept, _, store⟩ := keeps.book lexical
    exact ⟨next, kept, store⟩
  | register registration =>
    obtain ⟨next, kept, sheets⟩ := keeps.register lexical
    have store : next.store = books.store := by
      funext name
      rw [Books.store, sheets, Books.store]
    exact ⟨next, kept, store⟩

/-- A run leaves books with the store after it. -/
theorem Keeps.storesAll (keeps : ledger.Keeps disk home books) {operations : List Operation}
    (lexical : ∀ operation ∈ operations, operation.Lexical) :
    ∃ next, ledger.Keeps (ledger.after disk operations) home next ∧
      next.store = ledger.stored disk operations books.store := by
  induction operations generalizing disk books with
  | nil => exact ⟨books, keeps, rfl⟩
  | cons operation operations ih =>
    obtain ⟨first, others⟩ := List.forall_mem_cons.mp lexical
    obtain ⟨next, kept, store⟩ := keeps.stores first
    obtain ⟨last, keptLast, stored⟩ := ih kept others
    refine ⟨last, keptLast, ?_⟩
    rw [stored, store]
    rfl

/-! ## Listing -/

/-- The ledger files of the directory are those that are included. -/
theorem Keeps.names_iff (keeps : ledger.Keeps disk home books) :
    ledger.layout.Names disk ledger.directory name ↔ name ∈ books.order := by
  constructor
  · rintro ⟨extension, other, file⟩
    obtain ⟨place, content, leads, held⟩ := holdsFile_eq_true_iff.mp file
    have down : name ≠ ['.', '.'] := by
      refine down_of_extension ?_
      rw [extension, keeps.usual]
      exact Layout.isPlain_usual.extension
    obtain rfl := entry_below (walk_of_place keeps.houses.leads) down leads
    exact keeps.mem_order_iff.mpr ⟨extension, other, content, held⟩
  · intro member
    obtain ⟨extension, other, content, held⟩ := keeps.mem_order_iff.mp member
    exact ⟨extension, other, holdsFile_eq_true_iff.mpr
      ⟨_, content, (keeps.houses.places (keeps.fits name member)).1, held⟩⟩

/-- The ledger files of the directory can be listed. -/
theorem Keeps.listable (keeps : ledger.Keeps disk home books) :
    ledger.layout.Listable disk ledger.directory := by
  refine ⟨home, keeps.houses.leads, keeps.houses.folder, fun name _ something extension other => ?_⟩
  have down : name ≠ ['.', '.'] := by
    refine down_of_extension ?_
    rw [extension, keeps.usual]
    exact Layout.isPlain_usual.extension
  refine (exists_holdsFile_below_iff keeps.houses.leads keeps.houses.folder down).mp ⟨true, ?_⟩
  rw [keeps.houses.held] at something
  obtain ⟨text, known⟩ : ∃ text, books.files name = some text := by
    cases known : books.files name with
    | none =>
      rw [known] at something
      exact absurd rfl something
    | some text => exact ⟨text, rfl⟩
  have apart : name ≠ ({} : Layout).rootFile := by rwa [keeps.usual] at other
  exact (keeps.names_iff.mpr ((Books.files_eq_some_iff keeps.sound apart).mp known).1).file

/-- The page of a file that is included, and the transactions on it. -/
theorem Keeps.page (keeps : ledger.Keeps disk home books) (member : name ∈ books.order) :
    ∃ page, readPage (ledger.directory.below name) disk = .ok page ∧
      page.transactions = Sheet.entries (Source.ofText (ledger.directory.below name).toText
        (books.sheets name).text) 0 (books.sheets name) := by
  have bytes := keeps.houses.readAt (keeps.houses.places (keeps.fits name member)).1
    (ledger.directory.below name).toText (Books.files_of_mem keeps.sound member)
  rw [Books.text] at bytes
  split at bytes
  · next accounts =>
    refine ⟨_, bind_eq_ok_iff.mpr ⟨_, bytes, keeps.sound.lexical.read _⟩, ?_⟩
    have empty : books.sheets name = [] := by
      refine (keeps.sound.sheets name).resolve_left ?_
      rintro ⟨_, date, rfl⟩
      exact date.monthFile_apart.2 accounts
    rw [Chart.transactions_page, empty]
    rfl
  · exact ⟨_, bind_eq_ok_iff.mpr ⟨_, bytes, (keeps.sound.plain name).read _⟩,
      Sheet.transactions_page _ _⟩

/-- The records of a file are those of the store, but for their ids. -/
theorem Keeps.records (keeps : ledger.Keeps disk home books) (member : name ∈ books.order) :
    (disk.records (ledger.directory.below name)).map Transaction.bare = books.store name := by
  obtain ⟨page, read, transactions⟩ := keeps.page member
  have records := (keeps.sound.plain name).records (ledger.directory.below name)
  rw [Sheet.transactions_page] at records
  rw [Disk.records_eq read, Page.records, transactions, List.map_map]
  exact records

/-- What is listed is what the store lists, but for the ids. The ledger files are the months of the
books and perhaps the accounts file, which lists no transactions. -/
theorem Keeps.transactions (keeps : ledger.Keeps disk home books) :
    ∃ listed, ledger.transactions disk = .ok listed ∧
      books.store.Lists (listed.map Transaction.bare) ∧
      ∀ transaction ∈ listed, ∃ name ∈ books.order,
        transaction ∈ disk.records (ledger.directory.below name) := by
  obtain ⟨names, sorted, members⟩ := Text.exists_sorted books.order
  have descends : ledger.layout.Descends disk ledger.directory := by
    refine descends_of_extension ?_ _ _
    rw [keeps.usual]
    exact Layout.isPlain_usual.extension
  have listing := (listTransactions_eq_ok_iff keeps.houses.proper descends).mpr ⟨keeps.listable,
    names, sorted, fun name => (members name).trans keeps.names_iff.symm,
    fun name member => (keeps.page ((members name).mp member)).imp fun page both => both.1, rfl⟩
  refine ⟨_, listing, ?_, fun transaction member => ?_⟩
  · have fewer : ∀ name, name ∈ names.filter (fun name => books.store name ≠ []) ↔
        books.store name ≠ [] := by
      intro name
      rw [List.mem_filter, decide_eq_true_eq, and_iff_right_iff_imp]
      intro something
      refine (members name).mpr ((keeps.sound.sheets name).resolve_right ?_).1
      intro none
      rw [Books.store, none] at something
      exact something rfl
    refine ⟨names.filter fun name => books.store name ≠ [], sorted.filter _, fewer, ?_⟩
    have gathered : (names.flatMap fun name =>
        disk.records (ledger.directory.below name)).map Transaction.bare =
          names.flatMap books.store := by
      rw [List.map_flatMap]
      exact List.flatMap_congr fun name member => keeps.records ((members name).mp member)
    have bare (gathered : List Transaction) :
        (gathered.mergeSort fun a b => Text.atMost b.date a.date).map Transaction.bare =
          (gathered.map Transaction.bare).mergeSort fun a b => Text.atMost b.date a.date :=
      List.map_mergeSort fun _ _ _ _ => rfl
    rw [bare, gathered, sorted.flatMap_eq (sorted.filter _)
      (fun name member => (List.mem_filter.mp member).1)
        fun name member absent => ?_]
    by_contra something
    exact absent ((fewer name).mpr something)
  · obtain ⟨name, member, inside⟩ := List.mem_flatMap.mp (List.mem_mergeSort.mp member)
    exact ⟨name, (members name).mp member, inside⟩

/-- The id of the offset of a slip leads to the slip, if it can be read back. The path of the id is
that of the file, and the offset finds the slip because those before it start earlier. -/
theorem Keeps.target?_of_slip (keeps : ledger.Keeps disk home books)
    (normal : ledger.directory.IsNormal) {before behind : Sheet} {slip : Slip}
    (split : books.sheets name = before ++ some slip :: behind) {identifier : Identifier}
    (decoded : Identifier.decode (Identifier.encode
      ⟨(ledger.directory.below name).toText, Sheet.offset before⟩) = .ok identifier) :
    ledger.target? disk (Identifier.encode
      ⟨(ledger.directory.below name).toText, Sheet.offset before⟩) =
        some (name, before.reduceOption.length) := by
  obtain ⟨member, month⟩ := (keeps.sound.sheets name).resolve_right (by simp [split])
  have plain : FilePath.IsPlain name := by
    obtain ⟨date, rfl⟩ := month
    exact date.isPlain_monthFile
  have below := normal.below plain.isName
  have path : FilePath.ofText (ledger.directory.below name).toText = ledger.directory.below name :=
    FilePath.ofText_toText below
  obtain ⟨leads, leadsBeside⟩ := keeps.houses.places (keeps.fits name member)
  obtain ⟨colon, short, rfl⟩ :=
    (Identifier.decode_encode_iff (FilePath.toText_ne_nil below)).mp decoded
  have names := keeps.names_iff.mpr member
  have checked := (Ledger.checkId_eq_ok_iff normal plain.isName plain.down
    (isUsable_of_place leads) (Sheet.offset before) disk).mpr
      ⟨names.extension, names.other, colon, short⟩
  have located : ledger.Located disk home books _
      ⟨(ledger.directory.below name).toText, Sheet.offset before⟩ name before slip behind :=
    ⟨decoded, by rw [path, checked], by rw [path, leads], by rw [path, FilePath.below_name],
      plain.down, member, month, split, rfl⟩
  have able : canWrite disk (Identifier.encode
      ⟨(ledger.directory.below name).toText, Sheet.offset before⟩) = true := by
    rw [canWrite, decoded]
    simp only [Except.toOption, Option.any_some, path, leadsBeside]
    rfl
  rw [target?, if_pos able, located.found?_eq keeps]

/-- The id of a transaction that is listed leads to it, if it can be read back. The record comes
from a slip of the sheet, and its id is made of the offset of the slip. -/
theorem Keeps.target?_of_listed (keeps : ledger.Keeps disk home books)
    (normal : ledger.directory.IsNormal) (member : name ∈ books.order) {transaction : Transaction}
    (listed : transaction ∈ disk.records (ledger.directory.below name)) :
    ∃ id, transaction.id = some id ∧ ((Identifier.decode id).isOk = true →
      ∃ place, ledger.target? disk id = some place ∧
        (books.store place.1)[place.2]? = some transaction.bare) := by
  obtain ⟨page, read, transactions⟩ := keeps.page member
  rw [Disk.records_eq read, Page.records, transactions] at listed
  obtain ⟨entry, inside, rfl⟩ := List.mem_map.mp listed
  obtain ⟨before, slip, behind, split, rfl⟩ := Sheet.exists_of_mem_entries inside
  have parts : (books.sheets name).text =
      Sheet.text before ++ '\n' :: (slip.rows ++ Sheet.text behind) := by
    rw [split, Sheet.text_append, Sheet.text_cons, Sheet.slotText, List.cons_append]
  rw [Nat.zero_add]
  refine ⟨_, rfl, fun readable => ?_⟩
  rw [Sheet.start_entry _ parts, Int.toNat_natCast] at readable ⊢
  cases decoded : Identifier.decode (Identifier.encode
      ⟨(ledger.directory.below name).toText, Sheet.offset before⟩) with
  | error failure =>
    rw [decoded] at readable
    cases readable
  | ok identifier =>
    refine ⟨_, keeps.target?_of_slip normal split decoded, ?_⟩
    have stands : (Source.ofText (ledger.directory.below name).toText
        (books.sheets name).text).text.drop ((Sheet.text before).length + 1) =
          slip.rows ++ Sheet.text behind := by
      rw [Source.ofText, parts, ← List.drop_drop, List.drop_left]
      rfl
    have record := Sheet.record_entry
      (keeps.sound.plain name slip (by simp [split])) stands (ledger.directory.below name)
    rw [Books.store_split split]
    simp [Transaction.bare, record]

/-- What an id leads to is a transaction of the store. -/
theorem Keeps.exists_of_found? (keeps : ledger.Keeps disk home books) {id : Text}
    {place : Text × Nat} (found : ledger.found? disk id = some place) :
    ((books.store place.1)[place.2]?).isSome = true := by
  rcases keeps.located_cases id with ⟨nothing, _⟩ | ⟨nothing, _⟩ |
      ⟨identifier, name, before, slip, behind, located⟩
  · rw [nothing] at found
    cases found
  · rw [nothing] at found
    cases found
  · rw [located.found?_eq keeps] at found
    cases found
    rw [Books.store_split located.split]
    simp

/-! ## Success and failure -/

/-- An operation on the transaction of an id succeeds if it leads to one that can be written, and
fails if it leads to none. -/
theorem Acts.result {α : Type} {id : Text} {operation : Storing α}
    {next : Text → Sheet → Slip → Sheet → Books}
    (acts : ledger.Acts disk home books id operation next) :
    ((ledger.target? disk id).isSome → ∃ value, (operation.outcome disk).1 = .ok value) ∧
    (ledger.found? disk id = none → ∃ failure, (operation.outcome disk).1 = .error failure) := by
  refine ⟨fun led => ?_, acts.refused⟩
  obtain ⟨place, target⟩ := Option.isSome_iff_exists.mp led
  obtain ⟨_, _, _, _, value, _, _, _, _, done, _⟩ := acts.done place target
  exact ⟨value, congrArg Prod.fst done⟩

/-- What only drops the value of an operation succeeds and fails as it does. -/
theorem result_discard {α : Type} {operation : Storing α} {works fails : Prop}
    (result : (works → ∃ value, (operation.outcome disk).1 = .ok value) ∧
      (fails → ∃ failure, (operation.outcome disk).1 = .error failure)) :
    (works → ((do let _ ← operation : Storing Unit).outcome disk).1 = .ok ()) ∧
    (fails → ∃ failure, ((do let _ ← operation : Storing Unit).outcome disk).1 =
      .error failure) := by
  rw [Storing.outcome_discard]
  refine ⟨fun works => ?_, fun fails => ?_⟩
  · obtain ⟨value, done⟩ := result.1 works
    rw [done]
    rfl
  · obtain ⟨failure, failed⟩ := result.2 fails
    rw [failed]
    exact ⟨failure, rfl⟩

/-- An operation on transactions succeeds if it is to succeed, and fails if it is to fail. One case
for each operation, by what has been shown of it in the books. -/
theorem Keeps.result (keeps : ledger.Keeps disk home books) {booking : Booking}
    (lexical : booking.Lexical) :
    (booking.Works ledger disk → ((booking.run ledger).outcome disk).1 = .ok ()) ∧
    (booking.Fails ledger disk → ∃ failure,
      ((booking.run ledger).outcome disk).1 = .error failure) := by
  cases booking with
  | add transaction =>
    refine result_discard ⟨fun works => ?_, fun fails => ?_⟩
    · obtain ⟨slip, accepted⟩ := Option.isSome_iff_exists.mp works
      obtain ⟨rfl, solid, read, fits⟩ := (accepted?_eq_some_iff lexical).mp accepted
      obtain ⟨after, added, _⟩ := keeps.addTransaction lexical solid read fits
      exact ⟨_, congrArg Prod.fst added⟩
    · obtain ⟨failure, failed⟩ := keeps.addTransaction_refused (accepted?_eq_none lexical fails)
      exact ⟨failure, congrArg Prod.fst failed⟩
  | update id transaction =>
    cases accepted : ledger.accepted? transaction with
    | none =>
      refine result_discard ⟨fun works => ?_, fun _ => ?_⟩
      · rw [Booking.Works, accepted] at works
        cases works.2
      · obtain ⟨failure, after, failed, _⟩ :=
          keeps.updateTransaction_refused id (accepted?_eq_none lexical accepted)
        exact ⟨failure, congrArg Prod.fst failed⟩
    | some slip =>
      obtain ⟨rfl, solid, read, fits⟩ := (accepted?_eq_some_iff lexical).mp accepted
      have result := (keeps.updateTransaction id lexical solid read fits).result
      refine result_discard ⟨fun works => result.1 works.1, fun fails => result.2 ?_⟩
      refine fails.resolve_right fun none => ?_
      rw [accepted] at none
      cases none
  | delete id =>
    have result := (keeps.deleteTransaction id).result
    exact ⟨fun works => (result.1 works).choose_spec, result.2⟩
  | clear id =>
    have result := (keeps.setFlag id (Or.inl rfl) rfl).result
    exact ⟨fun works => (result.1 works).choose_spec, result.2⟩
  | unclear id =>
    have result := (keeps.setFlag id (Or.inr rfl) rfl).result
    exact ⟨fun works => (result.1 works).choose_spec, result.2⟩
  | list =>
    refine result_discard ⟨fun _ => ?_, False.elim⟩
    obtain ⟨listed, listing, _⟩ := keeps.transactions
    rw [Storing.outcome_look, listing]
    exact ⟨listed, rfl⟩

/-- After every run that begins with an empty directory and the usual layout, transactions are
listed, and but for their ids they are those of the store that the operations make. The id of each
of them leads to it in the store, and no id leads to anything else. Every further operation on
transactions succeeds or fails as it is to do. The proof keeps books: every operation does to them
what it does to the files, the text of the files is the text of the books, and the store is what the
books have in their sheets. So the run is an induction over its operations, and listing is needed
once, for the books that the run ends with. -/
theorem transactions_stored (usual : ledger.layout = {})
    (empty : disk.Houses ledger.directory home fun _ => none)
    (normal : ledger.directory.IsNormal) {operations : List Operation}
    (lexical : ∀ operation ∈ operations, operation.Lexical) :
    (∃ listed, ledger.transactions (ledger.after disk operations) = .ok listed ∧
      (ledger.stored disk operations Store.blank).Lists (listed.map Transaction.bare) ∧
      ∀ transaction ∈ listed, ∃ id, transaction.id = some id ∧
        ((Identifier.decode id).isOk = true → ∃ place,
          ledger.target? (ledger.after disk operations) id = some place ∧
          (ledger.stored disk operations Store.blank place.1)[place.2]? =
            some transaction.bare)) ∧
    (∀ id place, ledger.found? (ledger.after disk operations) id = some place →
      ((ledger.stored disk operations Store.blank place.1)[place.2]?).isSome = true) ∧
    ∀ booking : Booking, booking.Lexical →
      (booking.Works ledger (ledger.after disk operations) →
        ((booking.run ledger).outcome (ledger.after disk operations)).1 = .ok ()) ∧
      (booking.Fails ledger (ledger.after disk operations) → ∃ failure,
        ((booking.run ledger).outcome (ledger.after disk operations)).1 = .error failure) := by
  obtain ⟨books, keeps, store⟩ := (keeps_blank usual empty).storesAll lexical
  have same : ledger.stored disk operations Store.blank = books.store := store.symm
  obtain ⟨listed, listing, lists, found⟩ := keeps.transactions
  rw [same]
  refine ⟨⟨listed, listing, lists, fun transaction member => ?_⟩,
    fun _ _ => keeps.exists_of_found?, fun _ => keeps.result⟩
  obtain ⟨name, member, inside⟩ := found transaction member
  exact keeps.target?_of_listed normal member inside

/-- After the first year the transaction of that year is in the store, and listed. -/
theorem firstYear_stored : ∃ listed,
    Ledger.usual.transactions (Ledger.usual.after Disk.withEmptyDirectory Operation.firstYear) =
      .ok listed ∧
    (Ledger.usual.stored Disk.withEmptyDirectory Operation.firstYear Store.blank).Lists
      (listed.map Transaction.bare) := by
  obtain ⟨⟨listed, listing, lists, _⟩, _⟩ := transactions_stored rfl Ledger.usual_houses
    (FilePath.isNormal_ofText "data") Operation.firstYear_lexical
  exact ⟨listed, listing, lists⟩

end Ledger

/-- A transaction whose account is a word of the ledger language, with a no-break space in it. -/
def Transaction.spaced : Transaction where
  date := "2024-01-05"
  postings := [{ account := "Assets:Ca\u00a0sh" }]

/-- The transaction with a no-break space is plain in every text that its entry quotes; only its
account is not. -/
theorem Transaction.spaced_plain : Transaction.spaced.Plain where
  flag := Or.inl rfl
  tags := by decide
  postings := by
    intro posting member
    rw [List.mem_singleton.mp member]
    exact ⟨by decide, Or.inl ⟨rfl, rfl⟩⟩
  said := by decide

/-- Such a transaction cannot be added to an empty directory, although it is plain. Neither can any
transaction where there is no room for the name of a month file. -/
theorem Ledger.spaced_unstored :
    Transaction.spaced.Plain ∧ (Date.read Transaction.spaced.date).isOk = true ∧
    ((Ledger.usual.addTransaction Transaction.spaced).outcome Disk.withEmptyDirectory).1 =
      .error (.notAWord "account" "Assets:Ca\u00a0sh") ∧
    Disk.withEmptyDirectory.place Ledger.winding.directory = .ok ["data"] ∧
    ∃ failure, (Ledger.winding.addTransaction Transaction.coffee).outcome Disk.withEmptyDirectory =
      (.error failure, Disk.withEmptyDirectory) := by
  have narrow : ¬ Ledger.winding.directory.Fits ({} : Layout).rootFile := by decide +kernel
  refine ⟨Transaction.spaced_plain, by decide +kernel, by decide +kernel,
    Ledger.winding_houses.leads, ?_⟩
  refine (Ledger.keeps_blank rfl Ledger.winding_houses).addTransaction_refused ?_
  rintro ⟨_, date, _, fits⟩
  exact narrow fits.root

end Daybook
