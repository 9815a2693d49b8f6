import Daybook.Proofs.Ledger.Books

/-!
# Keeping sheets

Where a directory holds books, an operation on transactions leaves other books there or the same
ones. An entry goes behind the sheet of its month. An id leads to a slip of a sheet or to nothing:
the slip is taken out of the sheet or gets another flag, and nothing else changes.
-/
namespace Daybook

open Disk

namespace Ledger

/-! ## What an id leads to -/

/-- The file and the number of the transaction that an id leads to, if the id is accepted. -/
def found? (ledger : Ledger) (disk : Disk) (id : Text) : Option (Text × Nat) := do
  let identifier ← (Identifier.decode id).toOption
  let path ← (ledger.checkId id disk).toOption
  let page ← (readPage path disk).toOption
  let index ← page.transactions.findIdx? fun entry : TransactionEntry =>
    decide (entry.dateSpan.start = identifier.offset)
  return (path.name, index)

/-- The file of an id can be written through the path in it: there is a place for the temporary file
beside it. -/
def canWrite (disk : Disk) (id : Text) : Bool :=
  (Identifier.decode id).toOption.any fun identifier =>
    (disk.place (temporary (FilePath.ofText identifier.path))).isOk

/-- The transaction that an id leads to, if its file can be written. -/
def target? (ledger : Ledger) (disk : Disk) (id : Text) : Option (Text × Nat) :=
  if canWrite disk id then ledger.found? disk id else none

variable {ledger : Ledger} {disk after : Disk} {home : Location} {books : Books} {id name : Text}
  {index : Nat}

/-- A result read as an option has a value exactly when it succeeded with that value. -/
theorem toOption_eq_some_iff {ε α : Type} {result : Except ε α} {value : α} :
    result.toOption = some value ↔ result = .ok value := by
  cases result <;> simp [Except.toOption]

/-- What an id leads to is the transaction at its offset in the file of its path. -/
theorem found?_eq_some_iff : ledger.found? disk id = some (name, index) ↔
    ∃ identifier path page, Identifier.decode id = .ok identifier ∧
      ledger.checkId id disk = .ok path ∧ readPage path disk = .ok page ∧
      (page.transactions.findIdx? fun entry : TransactionEntry =>
        decide (entry.dateSpan.start = identifier.offset)) = some index ∧ name = path.name := by
  simp only [found?, Option.bind_eq_bind, Option.bind_eq_some_iff, toOption_eq_some_iff,
    Option.pure_def, Option.some.injEq, Prod.mk.injEq]
  constructor
  · rintro ⟨identifier, decoded, path, checked, page, read, place, found, rfl, rfl⟩
    exact ⟨identifier, path, page, decoded, checked, read, found, rfl⟩
  · rintro ⟨identifier, path, page, decoded, checked, read, found, rfl⟩
    exact ⟨identifier, decoded, path, checked, page, read, index, found, rfl, rfl⟩

/-- What an id leads to is found through the id. What the id says, the file it names and the entry
in it are found on the way. -/
theorem exists_of_found? (led : (ledger.found? disk id).isSome) :
    ∃ identifier found, Identifier.decode id = .ok identifier ∧
      ledger.checkId id disk = .ok (FilePath.ofText identifier.path) ∧
      locate identifier disk = .ok found := by
  obtain ⟨⟨name, index⟩, target⟩ := Option.isSome_iff_exists.mp led
  obtain ⟨identifier, path, page, decoded, checked, read, found, _⟩ :=
    found?_eq_some_iff.mp target
  obtain rfl := path_of_checkId checked decoded
  obtain ⟨content, bytes, parsed⟩ := bind_eq_ok_iff.mp read
  obtain ⟨place, placed, held⟩ := readBytes_eq_ok_iff.mp bytes
  obtain ⟨entry, first⟩ : ∃ entry, page.find identifier.offset = .ok entry := by
    obtain ⟨inside, same, _⟩ := List.findIdx?_eq_some_iff_getElem.mp found
    cases sought : page.transactions.find? fun entry : TransactionEntry =>
        decide (entry.dateSpan.start = identifier.offset) with
    | none =>
      exact absurd same (List.find?_eq_none.mp sought _ (List.getElem_mem inside))
    | some entry => exact ⟨entry, by simp only [Page.find, sought]⟩
  refine ⟨identifier, (content, entry), decoded, checked, ?_⟩
  exact bind_eq_ok_iff.mpr ⟨content, readBytes_eq_ok_iff.mpr ⟨place, placed, held⟩,
    bind_eq_ok_iff.mpr ⟨page, parsed, bind_eq_ok_iff.mpr ⟨entry, first, rfl⟩⟩⟩

/-- An id leads to a slip of a sheet through its path. -/
structure Located (ledger : Ledger) (disk : Disk) (home : Location) (books : Books) (id : Text)
    (identifier : Identifier) (name : Text) (before : Sheet) (slip : Slip) (behind : Sheet) :
    Prop where
  decoded : Identifier.decode id = .ok identifier
  checked : ledger.checkId id disk = .ok (FilePath.ofText identifier.path)
  leads : disk.place (FilePath.ofText identifier.path) = .ok (home ++ [name])
  named : (FilePath.ofText identifier.path).name = name
  down : name ≠ ['.', '.']
  member : name ∈ books.order
  month : Books.IsMonth name
  split : books.sheets name = before ++ some slip :: behind
  offset : identifier.offset = Sheet.offset before

namespace Located

variable {identifier : Identifier} {before behind : Sheet} {slip : Slip}

/-- The file of the id is that of the sheet. -/
theorem file (located : ledger.Located disk home books id identifier name before slip behind)
    (sound : books.Sound) : books.files name = some (books.sheets name).text := by
  obtain ⟨date, rfl⟩ := located.month
  rw [Books.files_of_mem sound located.member, Books.text, if_neg date.monthFile_apart.2]

/-- The slip is found. -/
theorem locate (located : ledger.Located disk home books id identifier name before slip behind)
    (keeps : ledger.Keeps disk home books) :
    Daybook.locate identifier disk = .ok (Text.Utf8.encode (books.sheets name).text,
      slip.entry (Source.ofText (FilePath.ofText identifier.path).toText (books.sheets name).text)
        ((Sheet.text before).length + 1)) := by
  refine bind_eq_ok_iff.mpr
    ⟨_, keeps.houses.readAt located.leads _ (located.file keeps.sound), ?_⟩
  refine bind_eq_ok_iff.mpr ⟨_, (keeps.sound.plain name).read _, ?_⟩
  refine bind_eq_ok_iff.mpr ⟨_, ?_, rfl⟩
  rw [located.offset]
  exact Sheet.find_page _ located.split

/-- The id leads to the number of the slip among those of its sheet. -/
theorem found?_eq (located : ledger.Located disk home books id identifier name before slip behind)
    (keeps : ledger.Keeps disk home books) :
    ledger.found? disk id = some (name, before.reduceOption.length) := by
  refine found?_eq_some_iff.mpr ⟨identifier, _, _, located.decoded, located.checked,
    bind_eq_ok_iff.mpr ⟨_, keeps.houses.readAt located.leads _ (located.file keeps.sound),
      (keeps.sound.plain name).read _⟩, ?_, located.named.symm⟩
  rw [Sheet.transactions_page, located.offset]
  exact (Sheet.findIdx?_entries_iff _ _).mpr ⟨before, slip, behind, located.split, rfl, rfl⟩

/-- The address an identifier leads to is the one the books give it: the file of the slip, and the
number of slips in front of it that have not been taken out. -/
theorem target_eq (located : ledger.Located disk home books id identifier name before slip behind)
    (keeps : ledger.Keeps disk home books) {target : Text × Nat}
    (led : ledger.target? disk id = some target) : target = (name, before.reduceOption.length) := by
  rw [target?, located.found?_eq keeps] at led
  split at led
  · exact (Option.some.inj led).symm
  · cases led

/-- The sheet of the id is written with another slot in place of the slip, or it cannot be
written. -/
theorem write (located : ledger.Located disk home books id identifier name before slip behind)
    (keeps : ledger.Keeps disk home books) {slot : Option Slip}
    (plain : ∀ other ∈ slot, other.transaction.Plain)
    (dated : ∀ other ∈ slot, other.date.monthFile = name) :
    (canWrite disk id = false ∧ ∃ failure,
      (writeWhole (FilePath.ofText identifier.path)
        (Text.Utf8.encode (Sheet.text (before ++ slot :: behind)))).outcome disk =
          (.error failure, disk)) ∨
    (canWrite disk id = true ∧ ∃ after,
      (writeWhole (FilePath.ofText identifier.path)
        (Text.Utf8.encode (Sheet.text (before ++ slot :: behind)))).outcome disk = (.ok (), after) ∧
      ledger.Keeps after home (books.file name (before ++ slot :: behind))) := by
  have able : canWrite disk id =
      (disk.place (temporary (FilePath.ofText identifier.path))).isOk := by
    rw [canWrite, located.decoded]
    rfl
  cases aside : disk.place (temporary (FilePath.ofText identifier.path)) with
  | error refusal =>
    rw [aside] at able
    refine Or.inl ⟨able, Houses.not_writeAt (fun beside leads => ?_) _⟩
    rw [aside] at leads
    cases leads
  | ok beside =>
    rw [aside] at able
    have names : (FilePath.ofText identifier.path).names ≠ [] := by
      intro none
      obtain ⟨date, same⟩ := located.month
      have empty := located.named
      rw [same, FilePath.name, none] at empty
      exact absurd (congrArg List.length empty) (by rw [date.length_monthFile]; decide)
    have lasting : temporaryEnding.isSuffixOf name = false := by
      obtain ⟨date, rfl⟩ := located.month
      exact date.isPlain_monthFile.lasting
    obtain ⟨after, written, housed⟩ := keeps.houses.writeAt located.leads names
      (located.named ▸ located.down) lasting aside (Sheet.text (before ++ slot :: behind))
    have listed : enlist books.order name = books.order := if_pos located.member
    have order : (books.file name (before ++ slot :: behind)).order = books.order := listed
    refine Or.inr ⟨able, after, written, keeps.usual, ?_,
      keeps.sound.replace located.month located.split plain dated, order ▸ keeps.fits⟩
    rwa [Books.files_rewritten keeps.sound located.member listed
      fun held other => Books.text_file_of_ne other _, Books.text_file located.month]

end Located

end Ledger

namespace Ledger.Keeps

variable {ledger : Ledger} {disk after : Disk} {home : Location} {books : Books} {id name : Text}
  {index : Nat}

/-- The file of an accepted id that can be read is one of those that the books include. An accepted
path lies in the directory and has the extension, and the only such files are those of the books. -/
theorem placed (keeps : ledger.Keeps disk home books) {path : FilePath}
    (checked : ledger.checkId id disk = .ok path) {place : Location}
    (leads : disk.place path = .ok place) {content : Bytes}
    (held : disk.entry? place = some (.file content)) :
    place = home ++ [path.name] ∧ path.name ≠ ['.', '.'] ∧ path.name ∈ books.order ∧
      content = Text.Utf8.encode (books.text path.name) := by
  obtain ⟨identifier, decoded, rest⟩ := bind_eq_ok_iff.mp checked
  obtain ⟨own, resolved, rest⟩ := bind_eq_ok_iff.mp rest
  obtain ⟨folder, around, rest⟩ := bind_eq_ok_iff.mp rest
  split at rest
  · cases rest
  next passed =>
  cases rest
  simp only [not_or, not_not] at passed
  obtain ⟨direct, extension, other⟩ := passed
  rw [keeps.usual] at extension other
  have same : own = place := Except.ok.inj (resolved.symm.trans (placeOf_of_place leads))
  have directly : folder = home :=
    Except.ok.inj (around.symm.trans (placeOf_of_place keeps.houses.leads))
  subst same directly
  -- The last name of the path is the last one of the place, because it does not lead up.
  obtain ⟨last, final⟩ : ∃ last, (FilePath.ofText identifier.path).names.getLast? = some last := by
    cases final : (FilePath.ofText identifier.path).names.getLast? with
    | some last => exact ⟨last, rfl⟩
    | none =>
      rw [FilePath.extension, FilePath.name, final] at extension
      cases extension
  have named : (FilePath.ofText identifier.path).name = last := by
    rw [FilePath.name, final, Option.getD_some]
  have down : (FilePath.ofText identifier.path).name ≠ ['.', '.'] := by
    refine down_of_extension ?_
    rw [← FilePath.extension, extension]
    exact Layout.isPlain_usual.extension
  have walked := walk_of_place leads
  obtain ⟨names, spelled⟩ := List.getLast?_eq_some_iff.mp final
  rw [spelled, ← named] at walked
  obtain ⟨front, rfl⟩ := List.getLast?_eq_some_iff.mp (getLast_walk down walked)
  rw [List.dropLast_concat] at direct
  subst direct
  obtain ⟨text, known, same⟩ := Option.map_eq_some_iff.mp ((keeps.houses.held _).symm.trans held)
  obtain ⟨member, rfl⟩ := (Books.files_eq_some_iff keeps.sound other).mp known
  exact ⟨rfl, down, member, (Entry.file.inj same).symm⟩

/-- What an accepted id finds is a slip of a sheet. The file of the id is that of a month, whose
page lists the entries of its sheet. -/
theorem located (keeps : ledger.Keeps disk home books) {identifier : Identifier}
    (decoded : Identifier.decode id = .ok identifier)
    (checked : ledger.checkId id disk = .ok (FilePath.ofText identifier.path))
    {found : Bytes × TransactionEntry} (located : locate identifier disk = .ok found) :
    ∃ name before slip behind,
      ledger.Located disk home books id identifier name before slip behind := by
  obtain ⟨content, bytes, rest⟩ := bind_eq_ok_iff.mp located
  obtain ⟨page, parsed, rest⟩ := bind_eq_ok_iff.mp rest
  obtain ⟨entry, first, _⟩ := bind_eq_ok_iff.mp rest
  obtain ⟨place, leads, held⟩ := readBytes_eq_ok_iff.mp bytes
  obtain ⟨rfl, down, member, rfl⟩ := keeps.placed checked leads held
  rcases keeps.sound.named _ member with accounts | month
  · rw [Books.text, if_pos accounts, keeps.sound.lexical.read] at parsed
    cases parsed
    simp only [Page.find, Chart.transactions_page] at first
    cases first
  · have apart : (FilePath.ofText identifier.path).name ≠ ({} : Layout).accountsFile := by
      obtain ⟨date, same⟩ := month
      rw [same]
      exact date.monthFile_apart.2
    rw [Books.text, if_neg apart, (keeps.sound.plain _).read] at parsed
    cases parsed
    cases number : (Sheet.page (books.sheets (FilePath.ofText identifier.path).name)
        (FilePath.ofText identifier.path).toText).transactions.findIdx? fun entry : TransactionEntry =>
          decide (entry.dateSpan.start = identifier.offset) with
    | none =>
      rw [Sheet.find_page_eq_error _ number] at first
      cases first
    | some index =>
      rw [Sheet.transactions_page] at number
      obtain ⟨before, slip, behind, split, offset, _⟩ :=
        (Sheet.findIdx?_entries_iff _ _).mp number
      exact ⟨_, before, slip, behind, decoded, checked, leads, rfl, down, member, month, split, offset⟩

/-- An id is refused, or it is accepted and nothing is found, or it leads to a slip. Only in the
last case it leads to anything. -/
theorem located_cases (keeps : ledger.Keeps disk home books) (id : Text) :
    (ledger.found? disk id = none ∧ ∃ failure, ledger.checkId id disk = .error failure) ∨
    (ledger.found? disk id = none ∧ ∃ path identifier failure,
      ledger.checkId id disk = .ok path ∧ Identifier.decode id = .ok identifier ∧
      locate identifier disk = .error failure) ∨
    ∃ identifier name before slip behind,
      ledger.Located disk home books id identifier name before slip behind := by
  cases checked : ledger.checkId id disk with
  | error failure =>
    refine Or.inl ⟨Option.not_isSome_iff_eq_none.mp fun led => ?_, failure, rfl⟩
    obtain ⟨_, _, _, accepted, _⟩ := exists_of_found? led
    rw [checked] at accepted
    cases accepted
  | ok path =>
    obtain ⟨identifier, decoded, _⟩ := bind_eq_ok_iff.mp checked
    obtain rfl := path_of_checkId checked decoded
    cases found : locate identifier disk with
    | error failure =>
      refine Or.inr (Or.inl ⟨Option.not_isSome_iff_eq_none.mp fun led => ?_, _, identifier, failure,
        rfl, decoded, found⟩)
      obtain ⟨again, _, known, _, located⟩ := exists_of_found? led
      obtain rfl : identifier = again := Except.ok.inj (decoded.symm.trans known)
      rw [found] at located
      cases located
    | ok value =>
      obtain ⟨name, before, slip, behind, located⟩ := keeps.located decoded checked found
      exact Or.inr (Or.inr ⟨identifier, name, before, slip, behind, located⟩)

end Ledger.Keeps

/-- An operation on the transaction that an id leads to. It fails if there is none, it leaves the
books as they are if the file cannot be written, and else it succeeds and leaves other books, which
depend on the slip and its place. -/
structure Ledger.Acts {α : Type} (ledger : Ledger) (disk : Disk) (home : Location) (books : Books)
    (id : Text) (operation : Storing α) (next : Text → Sheet → Slip → Sheet → Books) : Prop where
  refused : ledger.found? disk id = none → ∃ failure, (operation.outcome disk).1 = .error failure
  unable : ledger.target? disk id = none → ledger.Keeps (operation.outcome disk).2 home books
  done : ∀ target, ledger.target? disk id = some target → ∃ name before slip behind value after,
    target = (name, before.reduceOption.length) ∧ Books.IsMonth name ∧
    books.sheets name = before ++ some slip :: behind ∧
    operation.outcome disk = (.ok value, after) ∧
    ledger.Keeps after home (next name before slip behind)

namespace Ledger

variable {ledger : Ledger} {disk after : Disk} {home : Location} {books : Books} {id name : Text}

/-- An identifier under which no transaction is found has no address either, so an operation on it
can change no sheet. -/
theorem target?_of_found? (nothing : ledger.found? disk id = none) :
    ledger.target? disk id = none := by
  rw [target?, nothing, ite_self]

/-- An operation that fails and changes nothing, or acts on the slip that the id leads to, acts on
the transaction of the id. -/
theorem Keeps.acts {α : Type} (keeps : ledger.Keeps disk home books) {operation : Storing α}
    {next : Text → Sheet → Slip → Sheet → Books}
    (either : (ledger.target? disk id = none ∧ ∃ failure,
        operation.outcome disk = (.error failure, disk)) ∨
      ∃ name before slip behind value after,
        ledger.target? disk id = some (name, before.reduceOption.length) ∧ Books.IsMonth name ∧
        books.sheets name = before ++ some slip :: behind ∧
        operation.outcome disk = (.ok value, after) ∧
        ledger.Keeps after home (next name before slip behind)) :
    ledger.Acts disk home books id operation next := by
  rcases either with ⟨nothing, failure, failed⟩ |
      ⟨name, before, slip, behind, value, after, target, month, split, done, kept⟩
  · refine ⟨fun _ => ⟨failure, by rw [failed]⟩, fun _ => ?_, fun target led => ?_⟩
    · rw [failed]
      exact keeps
    · rw [nothing] at led
      cases led
  · refine ⟨fun nothing => ?_, fun nothing => ?_, fun other led => ?_⟩
    · rw [target?_of_found? nothing] at target
      cases target
    · rw [nothing] at target
      cases target
    · rw [target] at led
      exact ⟨name, before, slip, behind, value, after, (Option.some.inj led).symm, month, split, done,
        kept⟩

/-- What is written in place of a slip is what the operation does. -/
theorem Located.acts {identifier : Identifier} {before behind : Sheet} {slip : Slip}
    (located : ledger.Located disk home books id identifier name before slip behind)
    (keeps : ledger.Keeps disk home books) (slot : Option Slip)
    (plain : ∀ other ∈ slot, other.transaction.Plain)
    (dated : ∀ other ∈ slot, other.date.monthFile = name) {operation : Storing Unit}
    (steps : operation.outcome disk = (writeWhole (FilePath.ofText identifier.path)
      (Text.Utf8.encode (Sheet.text (before ++ slot :: behind)))).outcome disk) :
    (ledger.target? disk id = none ∧ ∃ failure,
      operation.outcome disk = (.error failure, disk)) ∨
    ∃ after, ledger.target? disk id = some (name, before.reduceOption.length) ∧
      operation.outcome disk = (.ok (), after) ∧
      ledger.Keeps after home (books.file name (before ++ slot :: behind)) := by
  have found := located.found?_eq keeps
  rcases located.write keeps plain dated with ⟨unable, failure, failed⟩ | ⟨able, after, written, kept⟩
  · refine Or.inl ⟨?_, failure, steps.trans failed⟩
    rw [target?, unable]
    rfl
  · refine Or.inr ⟨after, ?_, steps.trans written, kept⟩
    rw [target?, if_pos able, found]

end Ledger

namespace Ledger.Keeps

variable {ledger : Ledger} {disk after : Disk} {home : Location} {books : Books} {name : Text}

/-- Deleting fails and changes nothing, or it takes out the slip that the id leads to. The entry
that is found is cut out of the text of its sheet, and the same slot is taken from the books. -/
theorem deleteTransaction_cases (keeps : ledger.Keeps disk home books) (id : Text) :
    (ledger.target? disk id = none ∧ ∃ failure,
      (ledger.deleteTransaction id).outcome disk = (.error failure, disk)) ∨
    ∃ identifier name before slip behind after,
      ledger.Located disk home books id identifier name before slip behind ∧
      ledger.target? disk id = some (name, before.reduceOption.length) ∧
      (ledger.deleteTransaction id).outcome disk = (.ok (), after) ∧
      ledger.Keeps after home (books.file name (before ++ none :: behind)) := by
  have shape : ledger.deleteTransaction id =
      (do let _ ← Storing.look (ledger.checkId id); Daybook.deleteTransaction id) := rfl
  rcases keeps.located_cases id with ⟨nothing, failure, refused⟩ |
      ⟨nothing, path, identifier, failure, checked, decoded, missing⟩ |
      ⟨identifier, name, before, slip, behind, located⟩
  · refine Or.inl ⟨target?_of_found? nothing, failure, ?_⟩
    simp only [shape, Storing.outcome_bind, Storing.outcome_look, refused]
  · refine Or.inl ⟨target?_of_found? nothing, failure, ?_⟩
    simp only [shape, Daybook.deleteTransaction, Storing.outcome_bind, Storing.outcome_look,
      Storing.outcome_known, checked, decoded, missing]
  · have cut := (keeps.sound.plain name).cutLines (FilePath.ofText identifier.path).toText
      located.split
    have steps : (ledger.deleteTransaction id).outcome disk =
        (writeWhole (FilePath.ofText identifier.path)
          (Text.Utf8.encode (Sheet.text (before ++ none :: behind)))).outcome disk := by
      simp only [shape, Daybook.deleteTransaction, Storing.outcome_bind, Storing.outcome_look,
        Storing.outcome_known, located.checked, located.decoded, located.locate keeps, cut,
        Except.mapError]
    refine (located.acts keeps none (by simp) (by simp) steps).imp_right ?_
    rintro ⟨after, target, done, kept⟩
    exact ⟨identifier, name, before, slip, behind, after, located, target, done, kept⟩

/-- Deleting takes out the slip that the id leads to. -/
theorem deleteTransaction (keeps : ledger.Keeps disk home books) (id : Text) :
    ledger.Acts disk home books id (ledger.deleteTransaction id) fun name before _ behind =>
      books.file name (before ++ none :: behind) := by
  refine keeps.acts ((keeps.deleteTransaction_cases id).imp_right ?_)
  rintro ⟨_, name, before, slip, behind, after, located, target, done, kept⟩
  exact ⟨name, before, slip, behind, (), after, target, located.month, located.split, done, kept⟩

/-- Setting a flag marks the slip that the id leads to. The flag of the slip is exchanged in the
text of its sheet; a flag that it has already is left as it is. -/
theorem setFlag (keeps : ledger.Keeps disk home books) (id : Text) {flag : Text}
    (usual : flag = clearedFlag ∨ flag = pendingFlag) {marking : Storing Unit}
    (shape : marking = do let _ ← Storing.look (ledger.checkId id); Daybook.setFlag id flag) :
    ledger.Acts disk home books id marking fun name before slip behind =>
      books.file name (before ++ some (slip.marked flag) :: behind) := by
  have word : checkWord "flag" flag = .ok () := by
    rcases usual with rfl | rfl <;> rfl
  rcases keeps.located_cases id with ⟨nothing, failure, refused⟩ |
      ⟨nothing, path, identifier, failure, checked, decoded, missing⟩ |
      ⟨identifier, name, before, slip, behind, located⟩
  · refine keeps.acts (Or.inl ⟨target?_of_found? nothing, failure, ?_⟩)
    simp only [shape, Storing.outcome_bind, Storing.outcome_look, refused]
  · refine keeps.acts (Or.inl ⟨target?_of_found? nothing, failure, ?_⟩)
    simp only [shape, Daybook.setFlag, word, Storing.outcome_bind, Storing.outcome_look,
      Storing.outcome_known, checked, decoded, missing]
  by_cases same : slip.transaction.flag = flag
  · -- The slip has the flag already, and nothing is written.
    have steps : marking.outcome disk = (.ok (), disk) := by
      simp only [shape, Daybook.setFlag, word, Storing.outcome_bind, Storing.outcome_look,
        Storing.outcome_known, located.checked, located.decoded, located.locate keeps]
      exact Storing.outcome_if_pos same
    have kept : books.file name (before ++ some (slip.marked flag) :: behind) = books := by
      have marked : slip.marked flag = slip := by
        rw [Slip.marked, ← same]
      rw [marked, ← located.split, Books.file_self located.member]
    refine ⟨fun nothing => ?_, fun _ => ?_, fun target led => ?_⟩
    · rw [located.found?_eq keeps] at nothing
      cases nothing
    · rw [steps]
      exact keeps
    · exact ⟨name, before, slip, behind, (), disk, located.target_eq keeps led, located.month,
        located.split, steps, kept.symm ▸ keeps⟩
  · have changed := Sheet.replace_flag (FilePath.ofText identifier.path).toText located.split flag
    have inside : some slip ∈ books.sheets name := by
      rw [located.split]
      exact List.mem_append_right _ List.mem_cons_self
    have plain : (slip.marked flag).transaction.Plain :=
      ⟨usual, (keeps.sound.plain name slip inside).tags,
        (keeps.sound.plain name slip inside).postings, (keeps.sound.plain name slip inside).said⟩
    have steps : marking.outcome disk = (writeWhole (FilePath.ofText identifier.path)
        (Text.Utf8.encode (Sheet.text (before ++ some (slip.marked flag) :: behind)))).outcome
          disk := by
      simp only [shape, Daybook.setFlag, word, Storing.outcome_bind, Storing.outcome_look,
        Storing.outcome_known, located.checked, located.decoded, located.locate keeps]
      refine (Storing.outcome_if_neg same).trans ?_
      simp only [Storing.outcome_bind, Storing.outcome_known, changed, Except.mapError]
    have dated : (slip.marked flag).date.monthFile = name := keeps.sound.dated name slip inside
    refine keeps.acts ((located.acts keeps (some (slip.marked flag)) (by simpa using plain)
      (by simpa using dated) steps).imp_right ?_)
    rintro ⟨after, target, done, kept⟩
    exact ⟨name, before, slip, behind, (), after, target, located.month, located.split, done, kept⟩

/-! ## Adding and updating -/

/-- An entry goes behind the sheet of its month. -/
theorem appendEntry (keeps : ledger.Keeps disk home books) {slip : Slip}
    (plain : slip.transaction.Plain) (fits : ledger.directory.Fits slip.date.monthFile) :
    ∃ after, (Daybook.appendEntry ledger.directory ledger.layout
        ⟨slip.date.monthFile, '\n' :: slip.rows⟩).outcome disk =
          (.ok (ledger.directory.below slip.date.monthFile), after) ∧
      ledger.Keeps after home (books.enter slip) := by
  have month : Books.IsMonth slip.date.monthFile := ⟨slip.date, rfl⟩
  have grown : (books.enter slip).text slip.date.monthFile =
      books.text slip.date.monthFile ++ '\n' :: slip.rows := by
    rw [Books.enter, Books.text_file month, Sheet.text_append, Books.text,
      if_neg slip.date.monthFile_apart.2]
    exact congrArg _ (List.append_nil _)
  obtain ⟨middle, added, after, appended, included, kept⟩ := keeps.append fits fits.root
    slip.date.monthFile_apart.1 rfl grown (fun held other => Books.text_file_of_ne other _)
    (keeps.sound.enter plain)
  refine ⟨after, ?_, kept⟩
  simp only [Daybook.appendEntry, Layout.rootPath, keeps.usual, slip.date.isPlain_monthFile.child,
    Layout.isPlain_usual.root.child, Storing.outcome_bind, appended, included,
    Storing.outcome_pure]

/-- A transaction that can be rendered, whose file fits into the directory, goes behind the sheet of
its month. -/
theorem addTransaction (keeps : ledger.Keeps disk home books) {transaction : Transaction}
    (plain : transaction.Plain) (solid : transaction.Solid) {date : Date}
    (read : Date.read transaction.date = .ok date) (fits : ledger.directory.Fits date.monthFile) :
    ∃ after, (ledger.addTransaction transaction).outcome disk =
        (.ok (ledger.directory.below date.monthFile), after) ∧
      ledger.Keeps after home (books.enter ⟨transaction, date⟩) := by
  have rendered := plain.legible.rendered solid read date.fileName_eq
  obtain ⟨after, appended, kept⟩ := @appendEntry _ _ _ _ keeps ⟨transaction, date⟩ plain fits
  refine ⟨after, ?_, kept⟩
  rw [← keeps.usual] at rendered
  simp only [Ledger.addTransaction, Daybook.addTransaction, Storing.outcome_bind,
    Storing.outcome_known, rendered]
  exact appended

/-- Every other transaction is not added. -/
theorem addTransaction_refused (keeps : ledger.Keeps disk home books) {transaction : Transaction}
    (refused : ¬ (transaction.Solid ∧ ∃ date, Date.read transaction.date = .ok date ∧
      ledger.directory.Fits date.monthFile)) :
    ∃ failure, (ledger.addTransaction transaction).outcome disk = (.error failure, disk) := by
  cases rendered : transaction.render ledger.layout with
  | error failure =>
    exact ⟨failure, by simp only [Ledger.addTransaction, Daybook.addTransaction,
      Storing.outcome_bind, Storing.outcome_known, rendered]⟩
  | ok entry =>
    obtain ⟨date, read, named, solid, _⟩ := Transaction.render_eq_ok_iff.mp rendered
    rw [keeps.usual, date.fileName_eq] at named
    have named := Except.ok.inj named
    obtain ⟨failure, failed⟩ := Houses.not_append date.isPlain_monthFile
      (Date.not_mem_monthFile date rfl (by decide)) (fun fits => refused ⟨solid, date, read, fits⟩)
      disk (Text.Utf8.encode entry.text)
    refine ⟨failure, ?_⟩
    simp only [Ledger.addTransaction, Daybook.addTransaction, Daybook.appendEntry,
      Storing.outcome_bind, Storing.outcome_known, rendered, ← named,
      date.isPlain_monthFile.child, failed]

/-- An update that fails leaves the books as they are. -/
theorem updateTransaction_failed (keeps : ledger.Keeps disk home books) {id : Text}
    {transaction : Transaction} {failure : Failure}
    (failed : (ledger.updateTransaction id transaction).outcome disk = (.error failure, after)) :
    ledger.Keeps after home books := by
  have proper := keeps_updateTransaction ledger elementary_proper id transaction disk
    keeps.houses.proper
  rw [failed] at proper
  exact keeps.same (Ledger.updateTransaction_failed keeps.houses.fresh failed) proper

/-- The slip that the id leads to is taken out, and a transaction that can be rendered goes behind
the sheet of its month, which may be the same one. -/
theorem updateTransaction (keeps : ledger.Keeps disk home books) (id : Text)
    {transaction : Transaction} (plain : transaction.Plain) (solid : transaction.Solid)
    {date : Date} (read : Date.read transaction.date = .ok date)
    (fits : ledger.directory.Fits date.monthFile) :
    ledger.Acts disk home books id (ledger.updateTransaction id transaction)
      fun name before _ behind =>
        (books.file name (before ++ none :: behind)).enter ⟨transaction, date⟩ := by
  rcases keeps.deleteTransaction_cases id with ⟨nothing, failure, failed⟩ |
      ⟨identifier, name, before, slip, behind, between, located, target, deleted, kept⟩
  · rcases ran : (ledger.updateTransaction id transaction).outcome disk with ⟨result, last⟩
    obtain ⟨fault, rfl⟩ : ∃ fault, result = .error fault := by
      cases result with
      | error fault => exact ⟨fault, rfl⟩
      | ok path =>
        obtain ⟨_, deleted, _⟩ := Ledger.updateTransaction_done ran
        rw [failed] at deleted
        cases deleted
    refine ⟨fun _ => ⟨fault, by rw [ran]⟩, fun _ => ?_, fun other led => ?_⟩
    · rw [ran]
      exact keeps.updateTransaction_failed ran
    · rw [nothing] at led
      cases led
  · obtain ⟨last, appended, final⟩ := @appendEntry _ _ _ _ kept ⟨transaction, date⟩ plain fits
    have rendered := plain.legible.rendered solid read date.fileName_eq
    rw [← keeps.usual] at rendered
    have deleting : (Daybook.deleteTransaction id).outcome disk = (.ok (), between) := by
      have shape : ledger.deleteTransaction id =
          (do let _ ← Storing.look (ledger.checkId id); Daybook.deleteTransaction id) := rfl
      rw [shape] at deleted
      simpa only [Storing.outcome_bind, Storing.outcome_look, located.checked] using deleted
    obtain ⟨snapshot, taken⟩ : ∃ snapshot, Snapshot.take [FilePath.ofText identifier.path,
        ledger.directory.child date.monthFile, ledger.rootPath] disk = .ok snapshot := by
      refine keeps.houses.take fun path member => ?_
      simp only [List.mem_cons, List.not_mem_nil, or_false] at member
      rcases member with rfl | rfl | rfl
      · exact Or.inr ⟨name, _, located.leads, located.file keeps.sound⟩
      · exact Or.inl ⟨_, date.isPlain_monthFile.child _, fits⟩
      · refine Or.inl ⟨_, ?_, fits.root⟩
        rw [Ledger.rootPath, Layout.rootPath, keeps.usual, Layout.isPlain_usual.root.child]
    refine keeps.acts (Or.inr ⟨name, before, slip, behind, ledger.directory.child date.monthFile, last,
      target, located.month, located.split, ?_, final⟩)
    have both : (do
        Daybook.deleteTransaction id
        let _ ← Daybook.appendEntry ledger.directory ledger.layout
          ⟨date.monthFile, '\n' :: transaction.rows date⟩ : Storing Unit).outcome disk =
            (.ok (), last) :=
      Storing.outcome_bind_eq_ok_iff.mpr ⟨(), between, deleting,
        Storing.outcome_bind_eq_ok_iff.mpr ⟨_, last, appended, rfl⟩⟩
    have guarded := protecting_of_done taken both
    simp only [Ledger.updateTransaction, Storing.outcome_bind, Storing.outcome_known,
      Storing.outcome_look, rendered, located.checked, guarded, Storing.outcome_pure]

/-- An update to a transaction that could not be added fails and leaves the books as they are. -/
theorem updateTransaction_refused (keeps : ledger.Keeps disk home books) (id : Text)
    {transaction : Transaction}
    (refused : ¬ (transaction.Solid ∧ ∃ date, Date.read transaction.date = .ok date ∧
      ledger.directory.Fits date.monthFile)) :
    ∃ failure after, (ledger.updateTransaction id transaction).outcome disk =
      (.error failure, after) ∧ ledger.Keeps after home books := by
  rcases ran : (ledger.updateTransaction id transaction).outcome disk with ⟨failure | path, last⟩
  · exact ⟨failure, last, rfl, keeps.updateTransaction_failed ran⟩
  · obtain ⟨between, deleted, added⟩ := Ledger.updateTransaction_done ran
    rcases keeps.deleteTransaction_cases id with ⟨_, failure, failed⟩ |
        ⟨_, _, _, _, _, after, _, _, done, kept⟩
    · rw [failed] at deleted
      cases deleted
    · obtain rfl : after = between := congrArg Prod.snd (done.symm.trans deleted)
      obtain ⟨failure, failed⟩ := kept.addTransaction_refused refused
      rw [failed] at added
      cases added

end Ledger.Keeps

end Daybook
