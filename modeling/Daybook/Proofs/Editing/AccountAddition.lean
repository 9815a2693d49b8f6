import Daybook.Proofs.Directive.Accounts
import Daybook.Proofs.Disk.Filing
import Daybook.Proofs.Disk.LedgerFiles
import Daybook.Proofs.Entry.AccountRows

/-!
# One account more

An account is added by rows behind the content of the accounts file. If its name and its
currencies are words of the ledger language, then the file says what it said and one account
more, and the ledger lists the transactions it listed. Writing only asks for words without
blanks, and so it also succeeds for words that are read as something else or not at all. The
file with such a row never says the account: a file says words of the ledger language only.
-/
namespace Daybook

open Lexeme Statement

/-! ## The file -/

/-- The account as it is listed when it has been written. -/
def Account.recorded (account : Account) (opened : Date) (closed : Option Date) : Account :=
  { account with openDate := opened.iso, closeDate := closed.map Date.iso }

/-- What the rows of declarations say that stand one after the other from a position on. -/
def Declaration.directives (source : Source) (position : Nat) (declarations : List Declaration) :
    List Directive :=
  sayings Declaration.text (fun start declaration => [declaration.directive source start]) position
    declarations

/-- Rows of words are a passage. -/
theorem Declaration.passage {declarations : List Declaration}
    (lexical : ∀ declaration ∈ declarations, declaration.Lexical) {path whole rest : Text}
    {position : Nat}
    (stands : whole.drop position = declarations.flatMap Declaration.text ++ rest) :
    Passage path whole position (declarations.flatMap Declaration.text)
      (Declaration.directives (Source.ofText path whole) position declarations) :=
  Passage.items (fun declaration member position _ _ =>
    (lexical declaration member).passage path whole position) stands

/-- The rows of declarations say nothing of transactions. -/
theorem Declaration.transactions_directives (source : Source) (position : Nat)
    (declarations : List Declaration) :
    (Declaration.directives source position declarations).filterMap Directive.transaction? = [] := by
  induction declarations generalizing position with
  | nil => rfl
  | cons declaration declarations ih =>
    have here : (declaration.directive source position).transaction? = none := by
      cases declaration <;> rfl
    rw [Declaration.directives, sayings, List.singleton_append, List.filterMap_cons_none here]
    exact ih _

/-- The rows of an account that no directive speaks of describe that account. -/
theorem Account.accountsOf_declarations {directives : List Directive} {account : Account}
    (unspoken : ∀ directive ∈ directives, ∀ span,
      directive.account? ≠ some (account.name, span))
    (source : Source) (position : Nat) (opened : Date) (closed : Option Date) :
    accountsOf (directives ++
        Declaration.directives source position (account.declarations opened closed)) =
      accountsOf directives ++ [account.recorded opened closed] := by
  cases closed with
  | none => exact accountsOf_opening unspoken
  | some date => exact accountsOf_opening_closing unspoken

/-- A passage is added to a text behind a line feed. -/
theorem Page.ofText_added {path text tail : Text} {lines : List Line} {page : Page}
    {directives : List Directive} (reading : Reading .fileStart 0 text lines)
    (paged : ofText path text = .ok page)
    (passage : Passage path (text ++ (lineBreakAfter text ++ tail))
      (text.length + (lineBreakAfter text).length) tail directives) :
    ∃ warnings, ofText path (text ++ (lineBreakAfter text ++ tail)) =
        .ok { path, directives := page.directives ++ directives, errors := [], warnings } ∧
      warnings.map Diagnostic.message = page.warnings.map Diagnostic.message := by
  obtain ⟨collected, whole, rfl⟩ := collected_of_reading reading paged
  rcases lineBreakAfter_cases text with ⟨none, ended⟩ | feed
  · rw [none] at passage ⊢
    exact ofText_append reading whole (Or.inr ended) passage
  · rw [feed] at passage ⊢
    have both := (Passage.emptyLine path (text ++ (['\n'] ++ tail)) text.length).append passage
    exact ofText_append reading whole (Or.inl ⟨tail, rfl⟩) both

/-- The bytes behind which rows are appended are those of the text with its line break. -/
theorem appendToAccounts_encode (directory : FilePath) (layout : Layout) (text rows : Text) :
    appendToAccounts directory layout (Text.Utf8.encode text) rows = (do
      appendBytes (layout.accountsPath directory)
        (Text.Utf8.encode (lineBreakAfter text ++ rows))
      let _ ← ensureIncluded (layout.rootPath directory) layout.accountsFile) := by
  unfold appendToAccounts lineBreakAfter
  rw [Text.Utf8.encode_append]
  cases text using List.reverseRecOn with
  | nil => rfl
  | append_singleton front c =>
    obtain ⟨b, last, feed⟩ := Text.Utf8.getLast?_encode_concat front c
    rw [last, List.getLast?_concat]
    by_cases ended : c = '\n'
    · simp only [feed.mpr ended, ended, if_true]
      rfl
    · simp only [mt feed.mp ended, ended, if_false]
      rfl

/-! ## The disk -/

/-- The root file and the accounts file are two files of the directory itself, and ledger files
have an extension. -/
structure Layout.IsPlain (layout : Layout) : Prop where
  root : FilePath.IsPlain layout.rootFile
  accounts : FilePath.IsPlain layout.accountsFile
  apart : layout.accountsFile ≠ layout.rootFile
  extension : layout.extension ≠ []

instance (layout : Layout) : Decidable layout.IsPlain :=
  decidable_of_iff (FilePath.IsPlain layout.rootFile ∧ FilePath.IsPlain layout.accountsFile ∧
    layout.accountsFile ≠ layout.rootFile ∧ layout.extension ≠ [])
    ⟨fun ⟨root, accounts, apart, extension⟩ => ⟨root, accounts, apart, extension⟩,
      fun plain => ⟨plain.root, plain.accounts, plain.apart, plain.extension⟩⟩

/-- `after` is `before` with a content of the accounts file, and perhaps with another root file. -/
structure Ledger.Grown (ledger : Ledger) (before after : Disk) (home : Location)
    (content : Bytes) : Prop where
  walked : before.walkTo ledger.directory = .ok home
  folder : before.entry? home = some .folder
  leads : before.place ledger.accountsPath = .ok (home ++ [ledger.layout.accountsFile])
  changed : Disk.ChangedAt before after fun place =>
    place = home ++ [ledger.layout.accountsFile] ∨ place = home ++ [ledger.layout.rootFile]
  accounts : after.entry? (home ++ [ledger.layout.accountsFile]) = some (.file content)

/-- Where there is no file there are no records. -/
theorem Disk.records_of_no_file {disk : Disk} {path : FilePath}
    (none : disk.holdsFile path ≠ .ok true) : disk.records path = [] := by
  cases reads : readPage path disk with
  | error failure =>
    simp only [Disk.records, reads, Except.toOption, Option.map_none, Option.getD_none]
  | ok page =>
    obtain ⟨content, read, _⟩ := bind_eq_ok_iff.mp reads
    obtain ⟨place, led, held⟩ := readBytes_eq_ok_iff.mp read
    exact absurd (Disk.holdsFile_eq_true_iff.mpr ⟨place, content, led, held⟩) none

namespace Ledger

variable {ledger : Ledger} {before after : Disk}

/-- Rows that are appended to the accounts file are behind its content, and at most the root file
has changed as well. -/
theorem appendToAccounts_grown (plain : ledger.layout.IsPlain) (fresh : before.Fresh)
    {text rows : Text} (read : readIfPresent ledger.accountsPath before =
      .ok (Text.Utf8.encode text))
    (done : (appendToAccounts ledger.directory ledger.layout (Text.Utf8.encode text) rows).outcome
      before = (.ok (), after)) :
    ∃ home, ledger.Grown before after home
      (Text.Utf8.encode (text ++ (lineBreakAfter text ++ rows))) := by
  rw [appendToAccounts_encode] at done
  obtain ⟨⟨⟩, middle, appended, including⟩ := Storing.outcome_bind_eq_ok_iff.mp done
  obtain ⟨added, last, included, ended⟩ := Storing.outcome_bind_eq_ok_iff.mp including
  cases ended
  obtain ⟨content, place, beside, again, writable, filed⟩ := appendBytes_filed fresh appended
  obtain rfl : Text.Utf8.encode text = content := Except.ok.inj (read.symm.trans again)
  rw [← Text.Utf8.encode_append] at filed
  have leads : before.place (ledger.directory.below ledger.layout.accountsFile) = .ok place := by
    rw [← plain.accounts.child]
    exact writable.leads
  obtain ⟨_, _, _, home, walked, folder, rfl⟩ :=
    (Disk.place_below_eq_ok_iff plain.accounts.down).mp leads
  have ordinary : Disk.isTemporary (home ++ [ledger.layout.accountsFile]) = false := by
    rw [Disk.isTemporary, List.getLast?_concat]
    exact plain.accounts.lasting
  obtain ⟨root, _, ⟨_, rfl⟩ | ⟨_, goal, aside, able, further⟩⟩ :=
    ensureIncluded_filed (filed.fresh fresh ordinary) included
  · refine ⟨home, walked, folder, writable.leads, filed.changed.mono fun _ => Or.inl, ?_⟩
    rw [filed.entry, if_pos rfl]
  · have aims : before.place (ledger.directory.below ledger.layout.rootFile) = .ok goal := by
      rw [← plain.root.child]
      exact (Disk.place_eq_ok_iff filed.changed _ _).mp able.leads
    obtain ⟨_, _, _, other, alsoWalked, _, rfl⟩ :=
      (Disk.place_below_eq_ok_iff plain.root.down).mp aims
    obtain rfl : home = other := Except.ok.inj (walked.symm.trans alsoWalked)
    have apart : home ++ [ledger.layout.accountsFile] ≠ home ++ [ledger.layout.rootFile] := by
      simpa using plain.apart
    refine ⟨home, walked, folder, writable.leads, ⟨?_, ?_, ?_⟩, ?_⟩
    · rw [further.current, filed.current]
    · intro sought untouched
      rw [not_or] at untouched
      rw [further.entry, if_neg untouched.2, filed.entry, if_neg untouched.1]
    · intro sought
      exact (further.changed.folders sought).trans (filed.changed.folders sought)
    · rw [further.entry, if_neg apart, filed.entry, if_pos rfl]

/-- The accounts file is read in two steps. -/
theorem readAccounts_eq_ok_iff {path : FilePath} {disk : Disk} {content : Bytes} {page : Page} :
    readAccounts path disk = .ok (content, page) ↔
      readIfPresent path disk = .ok content ∧ Page.read path content = .ok page := by
  constructor
  · intro read
    obtain ⟨found, present, rest⟩ := bind_eq_ok_iff.mp read
    obtain ⟨paged, parsed, same⟩ := bind_eq_ok_iff.mp rest
    cases same
    exact ⟨present, parsed⟩
  · rintro ⟨present, parsed⟩
    exact bind_eq_ok_iff.mpr ⟨content, present, bind_eq_ok_iff.mpr ⟨page, parsed, rfl⟩⟩

/-- An account that has been added has been written behind the content of the accounts file. The
operation is taken apart into what it writes, what it reads and what it appends, and the content
that it reads again is the one that was read before. -/
theorem addAccount_grown (plain : ledger.layout.IsPlain) (fresh : before.Fresh) {account : Account}
    {text : Text} {page : Page}
    (read : readAccounts ledger.accountsPath before = .ok (Text.Utf8.encode text, page))
    (done : (ledger.addAccount account).outcome before = (.ok (), after)) :
    ∃ opened closed home, Date.read account.openDate = .ok opened ∧
      account.closeDate.mapM Date.read = .ok closed ∧
      ledger.Grown before after home (Text.Utf8.encode (text ++ (lineBreakAfter text ++
        (account.declarations opened closed).flatMap Declaration.text))) := by
  obtain ⟨rows, written, rest⟩ := Storing.known_bind_eq_ok_iff.mp done
  obtain ⟨⟨content, found⟩, again, rest⟩ := Storing.look_bind_eq_ok_iff.mp rest
  obtain ⟨rfl, rfl⟩ : Text.Utf8.encode text = content ∧ page = found := by
    rw [← Prod.mk.injEq]
    exact Except.ok.inj (read.symm.trans again)
  obtain ⟨present, _⟩ := readAccounts_eq_ok_iff.mp read
  obtain ⟨_, _, opened, closed, readOpened, readClosed, rfl⟩ :=
    Account.toText_eq_ok_iff.mp written
  dsimp only at rest
  split at rest
  · obtain ⟨_, _, thrown, _⟩ := Storing.outcome_bind_eq_ok_iff.mp rest
    cases thrown
  · obtain ⟨home, grown⟩ := appendToAccounts_grown plain fresh present rest
    exact ⟨opened, closed, home, readOpened, readClosed, grown⟩

/-- An account that can be written is added unless the accounts file opens it. -/
theorem addAccount_outcome {disk : Disk} {account : Account} {content : Bytes} {page : Page}
    {rows : Text} (read : readAccounts ledger.accountsPath disk = .ok (content, page))
    (written : account.toText = .ok rows) :
    (ledger.addAccount account).outcome disk =
      if page.directives.any (Directive.opens account.name) then
        (.error (.alreadyOpen account.name), disk)
      else (appendToAccounts ledger.directory ledger.layout content rows).outcome disk := by
  have found : readAccounts (ledger.layout.accountsPath ledger.directory) disk = _ := read
  simp only [addAccount, Daybook.addAccount, Storing.outcome_bind, Storing.outcome_known,
    Storing.outcome_look, written, found]
  by_cases opens : page.directives.any (Directive.opens account.name) = true
  · simp only [opens, if_true]
    rfl
  · simp only [opens]
    rfl

/-- An account is closed on a date if the accounts file opens it and does not close it. The date and
the file are known, so only the two guards are left of the operation. -/
theorem closeAccount_outcome {disk : Disk} {content : Bytes} {page : Page} {written : Text}
    {date : Date} (read : readAccounts ledger.accountsPath disk = .ok (content, page))
    (dated : Date.read written = .ok date) (name : Text) :
    (ledger.closeAccount name written).outcome disk =
      match closedOn? name page.directives with
      | some day => (.error (.alreadyClosed name day), disk)
      | none =>
        if page.directives.any (Directive.opens name) then
          (appendToAccounts ledger.directory ledger.layout content
            (Declaration.closing date name).text).outcome disk
        else (.error (.noAccount name), disk) := by
  have text : closingText name written = .ok (Declaration.closing date name).row :=
    closingText_eq_ok_iff.mpr ⟨date, dated, rfl⟩
  have found : readAccounts (ledger.layout.accountsPath ledger.directory) disk = _ := read
  simp only [closeAccount, Daybook.closeAccount, Storing.outcome_bind, Storing.outcome_known,
    Storing.outcome_look, text, found]
  cases closedOn? name page.directives with
  | some day => rfl
  | none =>
    by_cases opens : page.directives.any (Directive.opens name) = true
    · simp only [opens, if_true]
      rfl
    · simp only [opens]
      rfl

/-- The accounts of a ledger are those that its accounts file describes. -/
theorem accounts_of_readAccounts {disk : Disk} {content : Bytes} {page : Page}
    (read : readAccounts ledger.accountsPath disk = .ok (content, page)) :
    ledger.accounts disk = .ok (accountsOf page.directives) := by
  obtain ⟨present, parsed⟩ := readAccounts_eq_ok_iff.mp read
  refine bind_eq_ok_iff.mpr ?_
  rcases readIfPresent_eq_ok_iff.mp present with ⟨place, led, held⟩ | ⟨absent, rfl⟩
  · refine ⟨true, isPresent_of_entry led held, bind_eq_ok_iff.mpr ⟨page, ?_, rfl⟩⟩
    exact bind_eq_ok_iff.mpr ⟨content, readBytes_eq_ok_iff.mpr ⟨place, led, held⟩, parsed⟩
  · refine ⟨false, absent, ?_⟩
    cases parsed
    rfl

namespace Grown

variable {home : Location} {content : Bytes}

/-- The accounts file holds the new content. -/
theorem readPage (grown : ledger.Grown before after home content) :
    Daybook.readPage ledger.accountsPath after = Page.read ledger.accountsPath content := by
  have led := (Disk.place_eq_ok_iff grown.changed _ _).mpr grown.leads
  have read : readBytes ledger.accountsPath.toText ledger.accountsPath after = .ok content :=
    readBytes_eq_ok_iff.mpr ⟨_, led, grown.accounts⟩
  simp only [Daybook.readPage, read, bind, Except.bind]

/-- The accounts file describes accounts exactly if its new content has no errors. -/
theorem accounts_eq_ok_iff (grown : ledger.Grown before after home content)
    {listed : List Account} : ledger.accounts after = .ok listed ↔
      ∃ page, Page.read ledger.accountsPath content = .ok page ∧
        listed = accountsOf page.directives := by
  have led := (Disk.place_eq_ok_iff grown.changed _ _).mpr grown.leads
  have present := isPresent_of_entry led grown.accounts
  have shape : ledger.accounts after = (do
      let page ← Daybook.readPage ledger.accountsPath after
      return accountsOf page.directives) := by
    change (do
      if ← isPresent ledger.accountsPath after then
        let page ← Daybook.readPage ledger.accountsPath after
        return accountsOf page.directives
      else return [] : Except Failure (List Account)) = _
    rw [present]
    rfl
  rw [shape, grown.readPage, bind_eq_ok_iff]
  refine exists_congr fun page => and_congr_right fun _ => ?_
  exact ⟨fun same => (Except.ok.inj same).symm, fun same => congrArg _ same.symm⟩

/-- Where a path leads to a place that has not changed, the same file is read. -/
theorem readPage_elsewhere (grown : ledger.Grown before after home content) {path : FilePath}
    {place : Location} (led : before.place path = .ok place)
    (apart : place ≠ home ++ [ledger.layout.accountsFile])
    (other : place ≠ home ++ [ledger.layout.rootFile]) :
    Daybook.readPage path after = Daybook.readPage path before := by
  have still := (Disk.place_eq_ok_iff grown.changed _ _).mpr led
  have held := grown.changed.elsewhere place (not_or.mpr ⟨apart, other⟩)
  have same : readBytes path.toText path after = readBytes path.toText path before := by
    simp only [readBytes, Disk.read, Disk.find, led, still, bind, Except.bind, held]
  simp only [Daybook.readPage, same]

/-- In the folder of the ledger nothing but the accounts file and the root file changes. -/
theorem entry_elsewhere (grown : ledger.Grown before after home content) {name : Text}
    (accounts : name ≠ ledger.layout.accountsFile) (other : name ≠ ledger.layout.rootFile) :
    after.entry? (home ++ [name]) = before.entry? (home ++ [name]) := by
  refine grown.changed.elsewhere _ ?_
  simpa using ⟨accounts, other⟩

/-- The ledger files other than the accounts file are read as before. -/
theorem readPage_of_names (grown : ledger.Grown before after home content)
    (plain : ledger.layout.IsPlain) {name : Text}
    (named : ledger.layout.Names before ledger.directory name)
    (accounts : name ≠ ledger.layout.accountsFile) :
    Daybook.readPage (ledger.directory.below name) after =
      Daybook.readPage (ledger.directory.below name) before := by
  obtain ⟨extension, other, file⟩ := named
  obtain ⟨place, stored, led, held⟩ := Disk.holdsFile_eq_true_iff.mp file
  obtain rfl := Disk.entry_below grown.walked
    (Disk.down_of_extension (extension ▸ plain.extension)) led
  exact grown.readPage_elsewhere led (by simpa using accounts) (by simpa using other)

/-- The accounts file has the same records as before if it says the same transactions. The ids are
made of the path and the offsets, which the same transactions have in both pages. -/
theorem records_accounts (grown : ledger.Grown before after home content) {old : Bytes}
    {page next : Page} (read : readAccounts ledger.accountsPath before = .ok (old, page))
    (reread : Page.read ledger.accountsPath content = .ok next)
    (same : next.transactions = page.transactions) :
    after.records ledger.accountsPath = before.records ledger.accountsPath := by
  obtain ⟨present, parsed⟩ := readAccounts_eq_ok_iff.mp read
  have now : after.records ledger.accountsPath = page.records ledger.accountsPath := by
    simp only [Disk.records, grown.readPage.trans reread, Except.toOption, Option.map_some,
      Option.getD_some, Page.records, same]
  rw [now]
  rcases readIfPresent_eq_ok_iff.mp present with ⟨place, led, held⟩ | ⟨absent, rfl⟩
  · have reads : Daybook.readPage ledger.accountsPath before = .ok page :=
      bind_eq_ok_iff.mpr ⟨old, readBytes_eq_ok_iff.mpr ⟨place, led, held⟩, parsed⟩
    simp only [Disk.records, reads, Except.toOption, Option.map_some, Option.getD_some]
  · rw [Disk.records_of_no_file]
    · cases parsed
      rfl
    · intro file
      obtain ⟨place, stored, led, held⟩ := Disk.holdsFile_eq_true_iff.mp file
      rw [entry_of_isPresent_false absent place led] at held
      cases held

/-- The names of ledger files are the old ones and perhaps that of the accounts file. Only the
accounts file and the root file have changed, and the root file is no ledger file. -/
theorem names_iff (grown : ledger.Grown before after home content)
    (plain : ledger.layout.IsPlain) {name : Text} :
    ledger.layout.Names after ledger.directory name ↔
      ledger.layout.Names before ledger.directory name ∨
        (name = ledger.layout.accountsFile ∧
          FilePath.extensionOf name = ledger.layout.extension) := by
  constructor
  · rintro ⟨extension, other, file⟩
    obtain ⟨place, old, led, held⟩ := Disk.holdsFile_eq_true_iff.mp file
    rw [Disk.place_eq_ok_iff grown.changed] at led
    obtain rfl := Disk.entry_below grown.walked
      (Disk.down_of_extension (extension ▸ plain.extension)) led
    by_cases accounts : name = ledger.layout.accountsFile
    · exact Or.inr ⟨accounts, extension⟩
    · rw [grown.entry_elsewhere accounts other] at held
      exact Or.inl ⟨extension, other, Disk.holdsFile_eq_true_iff.mpr ⟨_, old, led, held⟩⟩
  · have own (extension : FilePath.extensionOf ledger.layout.accountsFile =
        ledger.layout.extension) :
        ledger.layout.Names after ledger.directory ledger.layout.accountsFile := by
      refine ⟨extension, plain.apart, Disk.holdsFile_eq_true_iff.mpr
        ⟨_, content, ?_, grown.accounts⟩⟩
      rw [Disk.place_eq_ok_iff grown.changed, ← plain.accounts.child]
      exact grown.leads
    rintro (⟨extension, other, file⟩ | ⟨rfl, extension⟩)
    · by_cases accounts : name = ledger.layout.accountsFile
      · exact accounts ▸ own (accounts ▸ extension)
      · obtain ⟨place, old, led, held⟩ := Disk.holdsFile_eq_true_iff.mp file
        obtain rfl := Disk.entry_below grown.walked
          (Disk.down_of_extension (extension ▸ plain.extension)) led
        rw [← grown.entry_elsewhere accounts other] at held
        rw [← Disk.place_eq_ok_iff grown.changed] at led
        exact ⟨extension, other, Disk.holdsFile_eq_true_iff.mpr ⟨_, old, led, held⟩⟩
    · exact own extension

/-- The files that could be listed can still be listed. -/
theorem listable (grown : ledger.Grown before after home content) (plain : ledger.layout.IsPlain)
    (listable : ledger.layout.Listable before ledger.directory) :
    ledger.layout.Listable after ledger.directory := by
  obtain ⟨place, leads, folder, each⟩ := listable
  obtain rfl : place = home := Except.ok.inj ((Disk.walk_of_place leads).symm.trans grown.walked)
  refine ⟨place, (Disk.place_eq_ok_iff grown.changed _ _).mpr leads,
    (grown.changed.folders _).mpr folder, fun name outside something extension other => ?_⟩
  rw [grown.changed.current] at outside
  by_cases accounts : name = ledger.layout.accountsFile
  · have led : before.place (ledger.directory.below name) = .ok (place ++ [name]) := by
      rw [accounts, ← plain.accounts.child]
      exact grown.leads
    obtain ⟨_, short, narrow, _⟩ := (Disk.place_below_eq_ok_iff
      (Disk.down_of_extension (extension ▸ plain.extension))).mp led
    exact fun _ => ⟨short, narrow⟩
  · rw [grown.entry_elsewhere accounts other] at something
    exact each name outside something extension other

/-- The ledger lists the same transactions if the accounts file says the same ones. The names differ
at most by that of the accounts file, which lists the same records now, and none if it was absent
before. -/
theorem transactions (grown : ledger.Grown before after home content)
    (plain : ledger.layout.IsPlain) (proper : before.Proper) (still : after.Proper)
    {old : Bytes} {page next : Page}
    (read : readAccounts ledger.accountsPath before = .ok (old, page))
    (reread : Page.read ledger.accountsPath content = .ok next)
    (same : next.transactions = page.transactions) {listed : List Transaction}
    (lists : ledger.transactions before = .ok listed) :
    ledger.transactions after = .ok listed := by
  obtain ⟨listable, names, sorted, members, pages, rfl⟩ :=
    (listTransactions_eq_ok_iff proper
      (Disk.descends_of_extension plain.extension _ _)).mp lists
  have accountsPath : ledger.directory.below ledger.layout.accountsFile = ledger.accountsPath :=
    (plain.accounts.child ledger.directory).symm
  have sameRecords := grown.records_accounts read reread same
  obtain ⟨more, moreSorted, moreMembers⟩ := Text.exists_sorted
    ((ledger.layout.accountsFile :: names).filter fun name =>
      decide (FilePath.extensionOf name = ledger.layout.extension))
  have moreIff (name : Text) : name ∈ more ↔
      name ∈ names ∨ (name = ledger.layout.accountsFile ∧
        FilePath.extensionOf name = ledger.layout.extension) := by
    rw [moreMembers, List.mem_filter, List.mem_cons, decide_eq_true_eq, or_comm, or_and_right]
    refine or_congr_left ⟨And.left, fun inside => ⟨inside, ((members name).mp inside).extension⟩⟩
  refine (listTransactions_eq_ok_iff still
    (Disk.descends_of_extension plain.extension _ _)).mpr ⟨grown.listable plain listable,
    more, moreSorted, fun name => ?_, fun name member => ?_, ?_⟩
  · rw [moreIff, members, grown.names_iff plain]
  · by_cases accounts : name = ledger.layout.accountsFile
    · rw [accounts, accountsPath]
      exact ⟨next, grown.readPage.trans reread⟩
    · have inside := ((moreIff name).mp member).resolve_right fun own => accounts own.1
      rw [grown.readPage_of_names plain ((members name).mp inside) accounts]
      exact pages name inside
  -- The accounts file has the same records, and none if it is new.
  · have nothing (name : Text) (member : name ∈ more) (fresh : name ∉ names) :
        after.records (ledger.directory.below name) = [] := by
      obtain ⟨rfl, extension⟩ := ((moreIff name).mp member).resolve_left fresh
      rw [accountsPath, sameRecords, ← accountsPath]
      exact Disk.records_of_no_file fun file =>
        fresh ((members _).mpr ⟨extension, plain.apart, file⟩)
    rw [moreSorted.flatMap_eq sorted (fun name inside => (moreIff name).mpr (Or.inl inside))
      nothing]
    congr 1
    refine List.flatMap_congr fun name member => ?_
    by_cases accounts : name = ledger.layout.accountsFile
    · rw [accounts, accountsPath, sameRecords]
    · simp only [Disk.records, grown.readPage_of_names plain ((members name).mp member) accounts]

end Grown

/-! ## Adding -/

/-- A ledger lists one account more than before, and the same transactions. -/
structure Extends (ledger : Ledger) (entry : Account) (before after : Disk) : Prop where
  sound : ∃ page, readPage ledger.accountsPath after = .ok page
  accounts : ∃ held, ledger.accounts before = .ok held ∧
    ledger.accounts after = .ok (held ++ [entry])
  transactions : ∀ listed, ledger.transactions before = .ok listed →
    ledger.transactions after = .ok listed

variable {account : Account} {text : Text} {lines : List Line} {page : Page}

/-- An account whose words are words of the ledger language is one account more. The rows are read
back behind the content of the file, and the account is not spoken of before them. -/
theorem Grown.extends {home : Location} {opened : Date} {closed : Option Date}
    (plain : ledger.layout.IsPlain) (proper : before.Proper) (still : after.Proper)
    (read : readAccounts ledger.accountsPath before = .ok (Text.Utf8.encode text, page))
    (reading : Reading .fileStart 0 text lines)
    (unspoken : accountSpans account.name page.directives = [])
    (grown : ledger.Grown before after home (Text.Utf8.encode (text ++ (lineBreakAfter text ++
      (account.declarations opened closed).flatMap Declaration.text))))
    (word : IsWord .account account.name)
    (words : ∀ currency ∈ account.currencies, IsWord .currency currency) :
    ledger.Extends (account.recorded opened closed) before after := by
  have lexical : ∀ declaration ∈ account.declarations opened closed, declaration.Lexical := by
    intro declaration member
    cases closed with
    | none =>
      rw [List.mem_singleton.mp member]
      exact ⟨word, words⟩
    | some date =>
      rcases List.mem_cons.mp member with rfl | later
      · exact ⟨word, words⟩
      · rw [List.mem_singleton.mp later]
        exact ⟨word, by simp [Declaration.currencies]⟩
  obtain ⟨_, parsed⟩ := readAccounts_eq_ok_iff.mp read
  obtain ⟨paged, _⟩ := Page.read_eq_ok_iff.mp parsed
  rw [Page.ofBytes_encode] at paged
  have stands : (text ++ (lineBreakAfter text ++
      (account.declarations opened closed).flatMap Declaration.text)).drop
        (text.length + (lineBreakAfter text).length) =
      (account.declarations opened closed).flatMap Declaration.text ++ [] := by
    rw [← List.append_assoc, ← List.length_append, List.drop_left, List.append_nil]
  obtain ⟨warnings, repaged, _⟩ := Page.ofText_added reading paged
    (Declaration.passage lexical stands)
  have reparsed := Page.read_eq_ok_iff.mpr ⟨(Page.ofBytes_encode _ _).trans repaged, rfl⟩
  refine ⟨⟨_, grown.readPage.trans reparsed⟩, ⟨_, accounts_of_readAccounts read,
    grown.accounts_eq_ok_iff.mpr ⟨_, reparsed, ?_⟩⟩, fun listed lists =>
      grown.transactions plain proper still read reparsed ?_ lists⟩
  · exact (Account.accountsOf_declarations (accountSpans_eq_nil_iff.mp unspoken) _ _ _ _).symm
  · simp only [Page.transactions, List.filterMap_append, Declaration.transactions_directives,
      List.append_nil]

/-- An account is listed only if its words are words of the ledger language. -/
theorem Grown.words {home : Location} {content : Bytes}
    (grown : ledger.Grown before after home content) {held : List Account} {entry : Account}
    (listed : ledger.accounts after = .ok (held ++ [entry])) :
    IsWord .account entry.name ∧ ∀ currency ∈ entry.currencies, IsWord .currency currency := by
  obtain ⟨next, parsed, same⟩ := grown.accounts_eq_ok_iff.mp listed
  obtain ⟨paged, sound⟩ := Page.read_eq_ok_iff.mp parsed
  obtain ⟨written, _, repaged⟩ := Page.encode_of_ofBytes paged sound
  have member : entry ∈ accountsOf next.directives := by rw [← same]; simp
  obtain ⟨account, inside, rfl⟩ := List.mem_map.mp member
  obtain ⟨dateSpan, span, directive, _⟩ := exists_opening inside
  exact Page.named repaged sound _ directive

/-- Where the accounts file can be read and says nothing of a name, an account that has been added
is one account more exactly if its name and its currencies are words of the ledger language. The row
stands at the end of the file, behind lines that are read as before, so everything depends on how
the row itself is read. Words make it an opening; and if it is read as an opening at all, its
lexemes are words. -/
theorem addAccount_extends_iff (plain : ledger.layout.IsPlain) (fresh : before.Fresh)
    (proper : before.Proper)
    (read : readAccounts ledger.accountsPath before = .ok (Text.Utf8.encode text, page))
    (grammatical : Statement.read text = .ok lines)
    (unspoken : accountSpans account.name page.directives = [])
    (added : (ledger.addAccount account).outcome before = (.ok (), after)) :
    (∃ opened closed, Date.read account.openDate = .ok opened ∧
      account.closeDate.mapM Date.read = .ok closed ∧
      ledger.Extends (account.recorded opened closed) before after) ↔
    IsWord .account account.name ∧
      ∀ currency ∈ account.currencies, IsWord .currency currency := by
  obtain ⟨opened, closed, home, readOpened, readClosed, grown⟩ :=
    addAccount_grown plain fresh read added
  constructor
  · rintro ⟨_, _, _, _, extended⟩
    obtain ⟨held, _, listed⟩ := extended.accounts
    have words := grown.words listed
    exact words
  · rintro ⟨word, words⟩
    have still : after.Proper := by
      have kept := keeps_addAccount Disk.elementary_proper ledger.directory ledger.layout account
        before proper
      rw [show (Daybook.addAccount ledger.directory ledger.layout account).outcome before =
        (.ok (), after) from added] at kept
      exact kept
    exact ⟨opened, closed, readOpened, readClosed, grown.extends plain proper still read
      ((reading_iff 0).mpr grammatical) unspoken word words⟩

end Ledger

/-- A disk with an empty directory. -/
def Disk.withEmptyDirectory : Disk where
  current := []
  entries := [(["data"], .folder)]

/-- The ledger of that directory with the usual layout. -/
def Ledger.usual : Ledger where
  directory := FilePath.ofText "data"
  layout := {}

/-- An account in two currencies that has been closed. -/
def Account.savings : Account where
  name := "Assets:Savings"
  openDate := "2024-1-1"
  currencies := ["EUR", "USD"]
  closeDate := some "2024-12-31"

/-- An empty directory has that account after it has been added. What the theorem asks of the disk
and the layout is decided, and the empty content has no lines. -/
theorem Ledger.savings_extends : ∃ after,
    (Ledger.usual.addAccount Account.savings).outcome Disk.withEmptyDirectory = (.ok (), after) ∧
    ∃ opened closed, Date.read Account.savings.openDate = .ok opened ∧
      Account.savings.closeDate.mapM Date.read = .ok closed ∧
      Ledger.usual.Extends (Account.savings.recorded opened closed) Disk.withEmptyDirectory
        after := by
  have accepted : ((Ledger.usual.addAccount Account.savings).outcome
      Disk.withEmptyDirectory).1.isOk = true := by decide +kernel
  have plain : Ledger.usual.layout.IsPlain := by decide +kernel
  have fresh : Disk.withEmptyDirectory.Fresh := by decide +kernel
  have proper : Disk.withEmptyDirectory.Proper := by decide +kernel
  have read : readAccounts Ledger.usual.accountsPath Disk.withEmptyDirectory =
      .ok (Text.Utf8.encode [], ⟨"data/accounts.bean", [], [], []⟩) := rfl
  have grammatical : Statement.read [] = .ok [] := (reading_iff 0).mp (.textEnd rfl)
  have word : IsWord .account Account.savings.name := by decide
  have words : ∀ currency ∈ Account.savings.currencies, IsWord .currency currency := by decide
  rcases ran : (Ledger.usual.addAccount Account.savings).outcome Disk.withEmptyDirectory with
    ⟨failure | value, after⟩
  · rw [ran] at accepted
    cases accepted
  · exact ⟨after, rfl, (Ledger.addAccount_extends_iff plain fresh proper read grammatical rfl
      ran).mpr ⟨word, words⟩⟩

/-- An account whose name has no blank and is no word of the ledger language. -/
def Account.petty : Account where
  name := "cash"
  openDate := "2024-01-01"

/-- Such an account is added without a failure, and then no accounts can be listed. -/
theorem Ledger.petty_unreadable : ∃ after failure,
    (Ledger.usual.addAccount Account.petty).outcome Disk.withEmptyDirectory = (.ok (), after) ∧
    Ledger.usual.accounts Disk.withEmptyDirectory = .ok [] ∧
    Ledger.usual.accounts after = .error failure := by
  have accepted : ((Ledger.usual.addAccount Account.petty).outcome
      Disk.withEmptyDirectory).1.isOk = true := by decide +kernel
  have refused : (Ledger.usual.accounts ((Ledger.usual.addAccount Account.petty).outcome
      Disk.withEmptyDirectory).2).isOk = false := by decide +kernel
  rcases ran : (Ledger.usual.addAccount Account.petty).outcome Disk.withEmptyDirectory with
    ⟨failure | value, after⟩
  · rw [ran] at accepted
    cases accepted
  · rw [ran] at refused
    cases listed : Ledger.usual.accounts after with
    | error failure => exact ⟨after, failure, rfl, rfl, listed⟩
    | ok accounts =>
      rw [listed] at refused
      cases refused

end Daybook
