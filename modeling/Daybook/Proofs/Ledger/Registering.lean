import Daybook.Proofs.Ledger.Books

/-!
# Keeping the chart

Where a directory holds books, an operation on accounts leaves the books with another chart there,
or the same books. Which of the two it is, and why an operation fails, is known from the accounts
that the chart describes.
-/
namespace Daybook

open Disk

/-- The account can be written: its name and its currencies pass for words, and its dates are
dates. -/
structure Account.Writes (account : Account) (opened : Date) (closed : Option Date) : Prop where
  name : IsSolid account.name
  currencies : ∀ currency ∈ account.currencies, IsSolid currency
  opened : Date.read account.openDate = .ok opened
  closed : account.closeDate.mapM Date.read = .ok closed

/-- The name and the currencies of an account are words of the ledger language. -/
structure Account.Lexical (account : Account) : Prop where
  name : Lexeme.IsWord .account account.name
  currencies : ∀ currency ∈ account.currencies, Lexeme.IsWord .currency currency

/-- The rows of an account of words are rows of words. -/
theorem Account.Lexical.declarations {account : Account} (lexical : account.Lexical) (opened : Date)
    (closed : Option Date) : Chart.Lexical (account.declarations opened closed) := by
  intro declaration member
  rcases List.mem_cons.mp member with rfl | rest
  · exact ⟨lexical.name, lexical.currencies⟩
  · cases closed with
    | none => cases rest
    | some date =>
      rw [List.mem_singleton.mp rest]
      exact ⟨lexical.name, fun _ nothing => absurd nothing List.not_mem_nil⟩

namespace Ledger.Keeps

variable {ledger : Ledger} {disk after : Disk} {home : Location} {books : Books}
  {listed : List Account} {name : Text}

/-- In a ledger that keeps its books, the accounts file is the one below the ledger directory that
the layout names by default. -/
theorem accountsPath_eq (keeps : ledger.Keeps disk home books) :
    ledger.accountsPath = ledger.directory.below ({} : Layout).accountsFile := by
  rw [Ledger.accountsPath, Layout.accountsPath, keeps.usual, Layout.isPlain_usual.accounts.child]

/-- The root file likewise stands directly below the ledger directory, under its default name. -/
theorem rootPath_eq (keeps : ledger.Keeps disk home books) :
    ledger.rootPath = ledger.directory.below ({} : Layout).rootFile := by
  rw [Ledger.rootPath, Layout.rootPath, keeps.usual, Layout.isPlain_usual.root.child]

/-- The chart is read, also where there is no file yet. -/
theorem readAccounts (keeps : ledger.Keeps disk home books)
    (fits : ledger.directory.Fits ({} : Layout).accountsFile) :
    Daybook.readAccounts ledger.accountsPath disk =
      .ok (Text.Utf8.encode books.chart.text, books.chart.page ledger.accountsPath.toText) := by
  have content : (books.files ({} : Layout).accountsFile).getD [] = books.chart.text := by
    rw [Books.text_eq_getD keeps.sound Layout.isPlain_usual.apart, Books.text, if_pos rfl]
  have read := keeps.houses.readIfPresent fits
  rw [content, ← keeps.accountsPath_eq] at read
  exact readAccounts_eq_ok_iff.mpr ⟨read, keeps.sound.lexical.read _⟩

/-- The accounts that the chart describes are listed. -/
theorem accounts (keeps : ledger.Keeps disk home books)
    (fits : ledger.directory.Fits ({} : Layout).accountsFile)
    (describes : books.chart.Describes listed) : ledger.accounts disk = .ok listed := by
  rw [accounts_of_readAccounts (keeps.readAccounts fits)]
  exact congrArg _ (describes.accountsOf _)

/-- Rows are appended to the chart. The text of the chart grows by the rows, and the root file lists
the accounts file then. -/
theorem appendToAccounts (keeps : ledger.Keeps disk home books)
    (fits : ledger.directory.Fits ({} : Layout).accountsFile) {rows : Chart}
    (lexical : Chart.Lexical rows) (describes : Chart.Describes (books.chart ++ rows) listed) :
    ∃ after, (Daybook.appendToAccounts ledger.directory ledger.layout
        (Text.Utf8.encode books.chart.text) (Chart.text rows)).outcome disk = (.ok (), after) ∧
      ledger.Keeps after home (books.register (books.chart ++ rows)) := by
  have grown : (books.register (books.chart ++ rows)).text ({} : Layout).accountsFile =
      books.text ({} : Layout).accountsFile ++ Chart.text rows := by
    rw [Books.text_register, Chart.text_append, Books.text, if_pos rfl]
  have whole : Chart.Lexical (books.chart ++ rows) := fun declaration member =>
    (List.mem_append.mp member).elim (keeps.sound.lexical declaration) (lexical declaration)
  obtain ⟨middle, added, after, appended, included, kept⟩ := keeps.append fits
    ((fits.month ⟨2024, 1, 1, by decide⟩).root) Layout.isPlain_usual.apart rfl grown
    (fun held other => Books.text_register_of_ne other _) (keeps.sound.register whole describes)
  refine ⟨after, ?_, kept⟩
  have path : ledger.layout.accountsPath ledger.directory =
      ledger.directory.below ({} : Layout).accountsFile := keeps.accountsPath_eq
  have root : ledger.layout.rootPath ledger.directory =
      ledger.directory.below ({} : Layout).rootFile := keeps.rootPath_eq
  rw [appendToAccounts_encode, Chart.lineBreakAfter_text, List.nil_append, path, root, keeps.usual]
  exact Storing.outcome_bind_eq_ok_iff.mpr ⟨(), middle, appended,
    Storing.outcome_bind_eq_ok_iff.mpr ⟨added, after, included, rfl⟩⟩

/-! ## Adding, closing and deleting -/

/-- An account is refused before the chart is read if it cannot be written. -/
theorem addAccount_refused {account : Account} {failure : Failure}
    (refused : account.toText = .error failure) :
    (ledger.addAccount account).outcome disk = (.error failure, disk) := by
  simp only [Ledger.addAccount, Daybook.addAccount, Storing.outcome_bind, Storing.outcome_known,
    refused]

/-- An account that can be written is added unless the chart opens it. -/
theorem addAccount_eq (keeps : ledger.Keeps disk home books)
    (fits : ledger.directory.Fits ({} : Layout).accountsFile) {account : Account} {opened : Date}
    {closed : Option Date} (writes : account.Writes opened closed) :
    (ledger.addAccount account).outcome disk =
      if (books.chart.directives ledger.accountsPath.toText).any (Directive.opens account.name) then
        (.error (.alreadyOpen account.name), disk)
      else (Daybook.appendToAccounts ledger.directory ledger.layout
        (Text.Utf8.encode books.chart.text)
        (Chart.text (account.declarations opened closed))).outcome disk := by
  rw [addAccount_outcome (keeps.readAccounts fits) (Account.toText_eq_ok_iff.mpr ⟨writes.name,
    writes.currencies, opened, closed, writes.opened, writes.closed, rfl⟩)]
  rfl

/-- An account that is described is not added again. -/
theorem addAccount_known (keeps : ledger.Keeps disk home books)
    (fits : ledger.directory.Fits ({} : Layout).accountsFile)
    (describes : books.chart.Describes listed) {account : Account} {opened : Date}
    {closed : Option Date} (writes : account.Writes opened closed)
    (known : account.name ∈ listed.map Account.name) :
    (ledger.addAccount account).outcome disk = (.error (.alreadyOpen account.name), disk) := by
  rw [keeps.addAccount_eq fits writes, if_pos ((describes.any_opens_iff _ _).mpr known)]

/-- Another account of words that can be written is added. -/
theorem addAccount (keeps : ledger.Keeps disk home books)
    (fits : ledger.directory.Fits ({} : Layout).accountsFile)
    (describes : books.chart.Describes listed) {account : Account} (lexical : account.Lexical)
    {opened : Date} {closed : Option Date} (writes : account.Writes opened closed)
    (fresh : account.name ∉ listed.map Account.name) :
    ∃ after, (ledger.addAccount account).outcome disk = (.ok (), after) ∧
      ledger.Keeps after home
        (books.register (books.chart ++ account.declarations opened closed)) := by
  rw [keeps.addAccount_eq fits writes, if_neg (mt (describes.any_opens_iff _ _).mp fresh)]
  exact keeps.appendToAccounts fits (lexical.declarations opened closed)
    (describes.add fresh opened closed)

/-- An account is not closed on what is no date. -/
theorem closeAccount_refused {written : Text} {failure : Failure}
    (refused : Date.read written = .error failure) (name : Text) :
    (ledger.closeAccount name written).outcome disk = (.error failure, disk) := by
  have text : closingText name written = .error failure := by
    simp only [closingText, refused, bind, Except.bind]
  simp only [Ledger.closeAccount, Daybook.closeAccount, Storing.outcome_bind,
    Storing.outcome_known, text]

/-- An account is closed on a date if the chart opens and does not close it. -/
theorem closeAccount_eq (keeps : ledger.Keeps disk home books)
    (fits : ledger.directory.Fits ({} : Layout).accountsFile) {written : Text} {date : Date}
    (read : Date.read written = .ok date) (name : Text) :
    (ledger.closeAccount name written).outcome disk =
      match closedOn? name (books.chart.directives ledger.accountsPath.toText) with
      | some day => (.error (.alreadyClosed name day), disk)
      | none =>
        if (books.chart.directives ledger.accountsPath.toText).any (Directive.opens name) then
          (Daybook.appendToAccounts ledger.directory ledger.layout
            (Text.Utf8.encode books.chart.text) (Chart.text [.closing date name])).outcome disk
        else (.error (.noAccount name), disk) := by
  have row : (Declaration.closing date name).text = Chart.text [.closing date name] :=
    (List.append_nil _).symm
  rw [closeAccount_outcome (keeps.readAccounts fits) read, row]
  rfl

/-- An account that is closed is not closed again. -/
theorem closeAccount_closed (keeps : ledger.Keeps disk home books)
    (fits : ledger.directory.Fits ({} : Layout).accountsFile)
    (describes : books.chart.Describes listed) {written : Text} {date : Date}
    (read : Date.read written = .ok date) {account : Account} (member : account ∈ listed)
    {day : Text} (closed : account.closeDate = some day) :
    (ledger.closeAccount account.name written).outcome disk =
      (.error (.alreadyClosed account.name day), disk) := by
  rw [keeps.closeAccount_eq fits read, describes.closedOn? _ member, closed]

/-- What is not described is not closed. -/
theorem closeAccount_absent (keeps : ledger.Keeps disk home books)
    (fits : ledger.directory.Fits ({} : Layout).accountsFile)
    (describes : books.chart.Describes listed) {written : Text} {date : Date}
    (read : Date.read written = .ok date) (absent : name ∉ listed.map Account.name) :
    (ledger.closeAccount name written).outcome disk = (.error (.noAccount name), disk) := by
  rw [keeps.closeAccount_eq fits read, describes.closedOn?_of_absent _ absent]
  exact if_neg (mt (describes.any_opens_iff _ _).mp absent)

/-- An account that is open is closed. -/
theorem closeAccount (keeps : ledger.Keeps disk home books)
    (fits : ledger.directory.Fits ({} : Layout).accountsFile)
    (describes : books.chart.Describes listed) {written : Text} {date : Date}
    (read : Date.read written = .ok date) {account : Account} (member : account ∈ listed)
    (unclosed : account.closeDate = none) :
    ∃ after, (ledger.closeAccount account.name written).outcome disk = (.ok (), after) ∧
      ledger.Keeps after home (books.register (books.chart ++ [.closing date account.name])) := by
  have known : account.name ∈ listed.map Account.name := List.mem_map_of_mem member
  have lexical : Chart.Lexical [.closing date account.name] := by
    obtain ⟨declaration, row, same⟩ := List.mem_map.mp (describes.mem_names_iff.mpr known)
    intro closing own
    rw [List.mem_singleton.mp own]
    exact ⟨same ▸ (keeps.sound.lexical declaration row).account,
      fun _ nothing => absurd nothing List.not_mem_nil⟩
  rw [keeps.closeAccount_eq fits read, describes.closedOn? _ member, unclosed]
  dsimp only
  rw [if_pos ((describes.any_opens_iff _ _).mpr known)]
  exact keeps.appendToAccounts fits lexical (describes.close member unclosed date)

/-- What is not described is not deleted. -/
theorem deleteAccount_absent (keeps : ledger.Keeps disk home books)
    (fits : ledger.directory.Fits ({} : Layout).accountsFile)
    (describes : books.chart.Describes listed) (absent : name ∉ listed.map Account.name) :
    (ledger.deleteAccount name).outcome disk = (.error (.noAccount name), disk) := by
  have spans := (describes.accountSpans_eq_nil_iff ledger.accountsPath.toText name).mpr absent
  have chart : Daybook.readAccounts (ledger.layout.accountsPath ledger.directory) disk = _ :=
    keeps.readAccounts fits
  simp only [Ledger.deleteAccount, Daybook.deleteAccount, Storing.outcome_bind,
    Storing.outcome_look, chart]
  exact Storing.outcome_if_pos spans

/-- The rows of an account that is described are cut out of the chart. The spans of the account are
those of its rows, and cutting them out leaves the text of the other rows. -/
theorem deleteAccount (keeps : ledger.Keeps disk home books)
    (fits : ledger.directory.Fits ({} : Layout).accountsFile)
    (describes : books.chart.Describes listed) (known : name ∈ listed.map Account.name) :
    ∃ after, (ledger.deleteAccount name).outcome disk = (.ok (), after) ∧
      ledger.Keeps after home
        (books.register (books.chart.filter fun declaration => declaration.name ≠ name)) := by
  have spans := mt (describes.accountSpans_eq_nil_iff ledger.accountsPath.toText name).mp
    (not_not.mpr known)
  have cut := keeps.sound.lexical.cutAll ledger.accountsPath name
  have chart : Daybook.readAccounts (ledger.layout.accountsPath ledger.directory) disk = _ :=
    keeps.readAccounts fits
  have member := keeps.sound.accountsFile_mem describes known
  have order : (books.register (books.chart.filter fun declaration =>
      declaration.name ≠ name)).order = books.order := if_pos member
  have lexical : Chart.Lexical (books.chart.filter fun declaration => declaration.name ≠ name) :=
    fun declaration inside => keeps.sound.lexical declaration (List.mem_filter.mp inside).1
  obtain ⟨after, written, housed⟩ := keeps.houses.write fits
    (Chart.text (books.chart.filter fun declaration => declaration.name ≠ name))
  refine ⟨after, ?_, keeps.usual, ?_, keeps.sound.register lexical (describes.delete name),
    order ▸ keeps.fits⟩
  · rw [← keeps.accountsPath_eq] at written
    simp only [Ledger.deleteAccount, Daybook.deleteAccount, Storing.outcome_bind,
      Storing.outcome_look, chart]
    refine (Storing.outcome_if_neg spans).trans ?_
    simp only [Storing.outcome_bind, Storing.outcome_known, Chart.page, cut, Except.mapError]
    exact written
  · rwa [Books.files_rewritten keeps.sound member order
      (fun held other => Books.text_register_of_ne other _), Books.text_register]

/-! ## Updating -/

/-- An update is refused before anything is touched if the account cannot be written. -/
theorem updateAccount_refused {account : Account} {failure : Failure}
    (refused : account.toText = .error failure) (name : Text) :
    (ledger.updateAccount name account).outcome disk = (.error failure, disk) := by
  simp only [Ledger.updateAccount, Storing.outcome_bind, Storing.outcome_known, refused]

/-- The files that an operation on accounts writes fit into the directory. -/
theorem accountFiles_fit (fits : ledger.directory.Fits ({} : Layout).accountsFile) :
    ∀ file ∈ [({} : Layout).accountsFile, ({} : Layout).rootFile], ledger.directory.Fits file := by
  rintro file (_ | ⟨_, _ | ⟨_, nothing⟩⟩)
  · exact fits
  · exact (fits.month ⟨2024, 1, 1, by decide⟩).root
  · cases nothing

/-- These files are recorded. -/
theorem takeAccounts (keeps : ledger.Keeps disk home books)
    (fits : ledger.directory.Fits ({} : Layout).accountsFile) :
    Snapshot.take [ledger.accountsPath, ledger.rootPath] disk =
      .ok (Houses.recorded ledger.directory books.files
        [({} : Layout).accountsFile, ({} : Layout).rootFile]) := by
  have once : [({} : Layout).accountsFile, ({} : Layout).rootFile].Nodup := by decide
  have taken := keeps.houses.takeRecorded once (accountFiles_fit fits)
  rwa [List.map_cons, List.map_singleton, ← keeps.accountsPath_eq, ← keeps.rootPath_eq] at taken

/-- If deleting and adding fails, then an update fails in the same way and leaves the books as they
are. -/
theorem updateAccount_failed (keeps : ledger.Keeps disk home books)
    (fits : ledger.directory.Fits ({} : Layout).accountsFile) {account : Account} {opened : Date}
    {closed : Option Date} (writes : account.Writes opened closed) {between : Disk} {next : Books}
    {failure : Failure}
    (failed : (do ledger.deleteAccount name; ledger.addAccount account : Storing Unit).outcome disk =
      (.error failure, between)) (kept : ledger.Keeps between home next)
    (order : next.order = books.order) :
    ∃ after, (ledger.updateAccount name account).outcome disk = (.error failure, after) ∧
      ledger.Keeps after home books := by
  have text := Account.toText_eq_ok_iff.mpr ⟨writes.name, writes.currencies, opened, closed,
    writes.opened, writes.closed, rfl⟩
  obtain ⟨after, restored⟩ := kept.houses.restore (accountFiles_fit fits)
    fun _ _ => Books.files_eq_none order
  have undone := protecting_of_failed (keeps.takeAccounts fits) failed restored
  have updated : (ledger.updateAccount name account).outcome disk = (.error failure, after) := by
    simp only [Ledger.updateAccount, Storing.outcome_bind, Storing.outcome_known, text]
    exact undone
  refine ⟨after, updated, keeps.same (Ledger.updateAccount_failed keeps.houses.fresh updated) ?_⟩
  have proper := keeps_updateAccount ledger elementary_proper name account disk keeps.houses.proper
  rwa [updated] at proper

/-- What is not described is not updated. -/
theorem updateAccount_absent (keeps : ledger.Keeps disk home books)
    (fits : ledger.directory.Fits ({} : Layout).accountsFile)
    (describes : books.chart.Describes listed) {account : Account} {opened : Date}
    {closed : Option Date} (writes : account.Writes opened closed)
    (absent : name ∉ listed.map Account.name) :
    ∃ after, (ledger.updateAccount name account).outcome disk = (.error (.noAccount name), after) ∧
      ledger.Keeps after home books := by
  refine keeps.updateAccount_failed fits writes ?_ keeps rfl
  simp only [Storing.outcome_bind, keeps.deleteAccount_absent fits describes absent]

/-- No account is updated to one with the name of another one. -/
theorem updateAccount_known (keeps : ledger.Keeps disk home books)
    (fits : ledger.directory.Fits ({} : Layout).accountsFile)
    (describes : books.chart.Describes listed) {account : Account} {opened : Date}
    {closed : Option Date} (writes : account.Writes opened closed)
    (known : name ∈ listed.map Account.name)
    (other : account.name ∈ (listed.filter fun held => held.name ≠ name).map Account.name) :
    ∃ after, (ledger.updateAccount name account).outcome disk =
        (.error (.alreadyOpen account.name), after) ∧
      ledger.Keeps after home books := by
  obtain ⟨between, deleted, kept⟩ := keeps.deleteAccount fits describes known
  refine keeps.updateAccount_failed fits writes ?_ kept ?_
  · simp only [Storing.outcome_bind, deleted,
      kept.addAccount_known fits (describes.delete name) writes other]
  · exact if_pos (keeps.sound.accountsFile_mem describes known)

/-- An account is updated to another one. It is deleting and adding, with the checks of both done
before. -/
theorem updateAccount (keeps : ledger.Keeps disk home books)
    (fits : ledger.directory.Fits ({} : Layout).accountsFile)
    (describes : books.chart.Describes listed) {account : Account} (lexical : account.Lexical)
    {opened : Date} {closed : Option Date} (writes : account.Writes opened closed)
    (known : name ∈ listed.map Account.name)
    (fresh : account.name ∉ (listed.filter fun held => held.name ≠ name).map Account.name) :
    ∃ after, (ledger.updateAccount name account).outcome disk = (.ok (), after) ∧
      ledger.Keeps after home ((books.register
        (books.chart.filter fun declaration => declaration.name ≠ name)).register
          ((books.chart.filter fun declaration => declaration.name ≠ name) ++
            account.declarations opened closed)) := by
  obtain ⟨between, deleted, kept⟩ := keeps.deleteAccount fits describes known
  obtain ⟨after, added, last⟩ := kept.addAccount fits (describes.delete name) lexical writes fresh
  have both : (do ledger.deleteAccount name; ledger.addAccount account : Storing Unit).outcome disk =
      (.ok (), after) :=
    Storing.outcome_bind_eq_ok_iff.mpr ⟨(), between, deleted, added⟩
  have text := Account.toText_eq_ok_iff.mpr ⟨writes.name, writes.currencies, opened, closed,
    writes.opened, writes.closed, rfl⟩
  refine ⟨after, ?_, last⟩
  simp only [Ledger.updateAccount, Storing.outcome_bind, Storing.outcome_known, text]
  exact protecting_of_done (keeps.takeAccounts fits) both

end Ledger.Keeps

/-! ## Where nothing fits -/

namespace Ledger

variable {ledger : Ledger} {name : Text}

/-- Where the accounts file does not fit, nothing is appended to it. -/
theorem appendToAccounts_unfit (usual : ledger.layout = {})
    (unfit : ¬ ledger.directory.Fits ({} : Layout).accountsFile) (content : Bytes) (text : Text)
    (disk : Disk) :
    ∃ failure, (Daybook.appendToAccounts ledger.directory ledger.layout content text).outcome disk =
      (.error failure, disk) := by
  have path : ledger.layout.accountsPath ledger.directory =
      ledger.directory.below ({} : Layout).accountsFile := by
    rw [Layout.accountsPath, usual, Layout.isPlain_usual.accounts.child]
  refine Exists.imp
    (fun failure failed => Storing.outcome_bind_eq_error_iff.mpr (Or.inl failed)) ?_
  rw [path]
  exact Houses.not_append Layout.isPlain_usual.accounts (by decide) unfit disk _

/-- Where the accounts file does not fit, no account is added. -/
theorem addAccount_unfit (usual : ledger.layout = {})
    (unfit : ¬ ledger.directory.Fits ({} : Layout).accountsFile) (account : Account) (disk : Disk) :
    ∃ failure, (ledger.addAccount account).outcome disk = (.error failure, disk) := by
  refine Storing.known_bind_refused fun text => Storing.look_bind_refused fun found => ?_
  dsimp only
  split
  · exact ⟨_, rfl⟩
  · exact appendToAccounts_unfit usual unfit found.1 text disk

/-- Where the accounts file does not fit, no account is closed. -/
theorem closeAccount_unfit (usual : ledger.layout = {})
    (unfit : ¬ ledger.directory.Fits ({} : Layout).accountsFile) (name written : Text) (disk : Disk) :
    ∃ failure, (ledger.closeAccount name written).outcome disk = (.error failure, disk) := by
  refine Storing.known_bind_refused fun text => Storing.look_bind_refused fun found => ?_
  dsimp only
  split
  · exact ⟨_, rfl⟩
  · split
    · exact appendToAccounts_unfit usual unfit found.1 (text ++ ['\n']) disk
    · exact ⟨_, rfl⟩

/-- Where the accounts file does not fit, no account is deleted. -/
theorem deleteAccount_unfit (usual : ledger.layout = {})
    (unfit : ¬ ledger.directory.Fits ({} : Layout).accountsFile) (name : Text) (disk : Disk) :
    ∃ failure, (ledger.deleteAccount name).outcome disk = (.error failure, disk) := by
  have path : ledger.layout.accountsPath ledger.directory =
      ledger.directory.below ({} : Layout).accountsFile := by
    rw [Layout.accountsPath, usual, Layout.isPlain_usual.accounts.child]
  refine Storing.look_bind_refused fun found => ?_
  dsimp only
  split
  · exact ⟨_, rfl⟩
  · refine Storing.known_bind_refused fun rest => ?_
    rw [path]
    exact Houses.not_writeAt
      (Houses.nowhere Layout.isPlain_usual.accounts (by decide) unfit disk) rest

/-- Where the accounts file does not fit, an update changes nothing. -/
theorem Keeps.updateAccount_unfit {disk : Disk} {home : Location} {books : Books}
    (keeps : ledger.Keeps disk home books)
    (unfit : ¬ ledger.directory.Fits ({} : Layout).accountsFile) (name : Text) (account : Account) :
    ledger.Keeps ((ledger.updateAccount name account).outcome disk).2 home books := by
  rcases ran : (ledger.updateAccount name account).outcome disk with ⟨failure | done, after⟩
  · have proper := keeps_updateAccount ledger elementary_proper name account disk
      keeps.houses.proper
    rw [ran] at proper
    exact keeps.same (Ledger.updateAccount_failed keeps.houses.fresh ran) proper
  · obtain ⟨between, deleted, _⟩ := Ledger.updateAccount_done ran
    obtain ⟨failure, failed⟩ := deleteAccount_unfit keeps.usual unfit name disk
    rw [failed] at deleted
    cases deleted

end Ledger

end Daybook
