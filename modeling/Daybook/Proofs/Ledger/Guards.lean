import Daybook.Proofs.Editing.EntryAddition
import Daybook.Proofs.Ledger.AccountRoll

/-!
# Guards and the list of accounts

Accounts are listed in two passes over the directives of the accounts file: one lets every opening
replace an earlier one of the same name, the other looks for the last closing of each name. The
guards of the operations go through the same directives on their own and stop early, at the first
closing and at any opening. Both agree whatever the order and the number of the directives: a name
is listed exactly if some directive opens it, and listed with a date of closing exactly if some
directive closes it.

An account that is listed without such a date is closed by one row more at the end of the file, with
a line in the root file perhaps. The row is the last closing of its name and opens nothing, so that
all other entries stay.
-/
namespace Daybook

open Disk Lexeme Statement

/-! ## The names that are listed -/

section Listing

variable {held accounts : List Account} {account : Account} {directives : List Directive}
  {name : Text}

/-- One opening adds its name unless the name is held. -/
theorem names_reopen (held : List Account) (account : Account) :
    (reopen held account).map Account.name =
      if account.name ∈ held.map Account.name then held.map Account.name
      else held.map Account.name ++ [account.name] := by
  by_cases known : account.name ∈ held.map Account.name
  · have any : (held.any fun other => decide (other.name = account.name)) = true := by
      simpa using known
    rw [reopen, if_pos any, if_pos known, List.map_map]
    refine List.map_congr_left fun other _ => ?_
    rw [Function.comp_apply]
    split
    · next same => exact same.symm
    · rfl
  · have absent : ∀ other ∈ held, other.name ≠ account.name :=
      fun other member same => known (same ▸ List.mem_map_of_mem member)
    rw [reopen_of_absent absent, if_neg known, List.map_append, List.map_singleton]

/-- Names are held once. -/
theorem nodup_reopen (once : (held.map Account.name).Nodup) (account : Account) :
    ((reopen held account).map Account.name).Nodup := by
  rw [names_reopen]
  split
  · exact once
  · next unknown =>
    exact List.nodup_append.mpr ⟨once, List.nodup_singleton _, fun name inside other own same =>
      unknown (List.mem_singleton.mp own ▸ same ▸ inside)⟩

/-- Names are still held once after any number of openings, by induction on the openings. -/
theorem nodup_foldl_reopen (once : (held.map Account.name).Nodup) :
    ((accounts.foldl reopen held).map Account.name).Nodup := by
  induction accounts generalizing held with
  | nil => exact once
  | cons account accounts ih => exact ih (nodup_reopen once account)

/-- What is held in the end was held before or is opened on the way. -/
theorem mem_names_foldl_reopen : name ∈ (accounts.foldl reopen held).map Account.name ↔
    name ∈ held.map Account.name ∨ name ∈ accounts.map Account.name := by
  induction accounts generalizing held with
  | nil => simp
  | cons account accounts ih =>
    have first : name ∈ (reopen held account).map Account.name ↔
        name ∈ held.map Account.name ∨ name = account.name := by
      rw [names_reopen]
      split
      · next known =>
        exact (or_iff_left_of_imp fun same => same ▸ known).symm
      · rw [List.mem_append, List.mem_singleton]
    rw [List.foldl_cons, ih, first, List.map_cons, List.mem_cons, or_assoc]

/-- The accounts of a file are listed under the names it opens, in the order of their first opening:
closing changes the close date alone. -/
theorem names_accountsOf (directives : List Directive) :
    (accountsOf directives).map Account.name = (openedAccounts directives).map Account.name := by
  rw [accountsOf, List.map_map]
  rfl

/-- No name is listed twice. -/
theorem nodup_accountsOf (directives : List Directive) :
    ((accountsOf directives).map Account.name).Nodup := by
  rw [names_accountsOf, Chart.openedAccounts_eq]
  exact nodup_foldl_reopen List.nodup_nil

/-- A name is listed exactly if a directive opens it. -/
theorem mem_names_accountsOf_iff : name ∈ (accountsOf directives).map Account.name ↔
    directives.any (Directive.opens name) = true := by
  rw [names_accountsOf, Chart.openedAccounts_eq, mem_names_foldl_reopen, Chart.any_opens_iff]
  exact or_iff_right List.not_mem_nil

/-! ## Closings -/

/-- The first closing of a name is there exactly if the last one is. -/
theorem lastClosing?_eq_none_iff :
    lastClosing? directives name = none ↔ closedOn? name directives = none := by
  rw [Chart.lastClosing?_eq, Chart.closedOn?_eq, List.getLast?_eq_none_iff, List.head?_eq_none_iff]

/-- An account is listed without a date of closing exactly if a directive opens it and none closes
it. -/
theorem exists_unclosed_iff :
    (∃ account ∈ accountsOf directives, account.name = name ∧ account.closeDate = none) ↔
      directives.any (Directive.opens name) = true ∧ closedOn? name directives = none := by
  rw [← mem_names_accountsOf_iff, ← lastClosing?_eq_none_iff, List.mem_map]
  constructor
  · rintro ⟨account, member, rfl, unclosed⟩
    obtain ⟨opened, _, rfl⟩ := List.mem_map.mp member
    exact ⟨⟨_, member, rfl⟩, unclosed⟩
  · rintro ⟨⟨account, member, rfl⟩, unclosed⟩
    obtain ⟨opened, _, rfl⟩ := List.mem_map.mp member
    exact ⟨_, member, rfl, unclosed⟩

/-- A closing at the end gives its date to the account of its name. -/
theorem accountsOf_closing (date name : Text) (dateSpan span : Span) :
    accountsOf (directives ++ [.closing date name dateSpan span]) =
      (accountsOf directives).map fun account =>
        if account.name = name then { account with closeDate := some date } else account := by
  rw [accountsOf, openedAccounts_closing, accountsOf, List.map_map]
  refine List.map_congr_left fun account _ => ?_
  rw [Function.comp_apply, lastClosing?_closing]
  by_cases same : account.name = name
  · rw [if_pos same.symm, if_pos same]
  · rw [if_neg (Ne.symm same), if_neg same]

/-- An inclusion at the end says nothing of accounts. -/
theorem accountsOf_inclusion (path : Text) (span : Span) :
    accountsOf (directives ++ [.inclusion path span]) = accountsOf directives := by
  have opened : openedAccounts (directives ++ [.inclusion path span]) =
      openedAccounts directives := by
    rw [openedAccounts, List.foldl_append]
    rfl
  have closed (name : Text) : lastClosing? (directives ++ [.inclusion path span]) name =
      lastClosing? directives name := by
    rw [lastClosing?, List.reverse_concat, List.findSome?_cons]
    rfl
  simp only [accountsOf, opened, closed]

end Listing

/-- A directive of the page closes the account. -/
def Page.Closes (page : Page) (name : Text) : Prop :=
  ∃ day dateSpan span, Directive.closing day name dateSpan span ∈ page.directives

/-- The guard finds a closing exactly if there is one. -/
theorem Page.closes_iff {page : Page} {name : Text} :
    page.Closes name ↔ ∃ day, closedOn? name page.directives = some day := by
  constructor
  · rintro ⟨day, dateSpan, span, member⟩
    rw [← Option.isSome_iff_exists, closedOn?, List.findSome?_isSome_iff]
    exact ⟨_, member, by simp⟩
  · rintro ⟨day, found⟩
    rw [Chart.closedOn?_eq] at found
    obtain ⟨directive, member, closes⟩ := List.mem_filterMap.mp (List.mem_of_mem_head? found)
    cases directive with
    | closing date account dateSpan span =>
      by_cases same : account = name
      · exact ⟨date, dateSpan, span, same ▸ member⟩
      · simp [Chart.closedBy?, same] at closes
    | _ => cases closes

/-! ## One row more -/

/-- What stands where after a file has been written. -/
theorem Disk.Replaced.contentAt {before after : Disk} {place beside : Location} {content : Bytes}
    (replaced : Replaced before after place beside content) (sought : Location) :
    after.contentAt sought = if sought = place then content
      else if sought = beside then [] else before.contentAt sought := by
  unfold Disk.contentAt
  rw [replaced.entry]
  by_cases here : sought = place
  · rw [if_pos here, if_pos here]
  · rw [if_neg here, if_neg here]
    by_cases hidden : sought = beside
    · rw [if_pos hidden, if_pos hidden]
    · rw [if_neg hidden, if_neg hidden]

/-- A file can be included in a text file that can be written. -/
theorem ensureIncluded_of_writable {disk : Disk} {root : FilePath} {goal aside : Location}
    {text : Text} (able : disk.Writable root goal aside)
    (holds : disk.contentAt goal = Text.Utf8.encode text) (name : Text) :
    ∃ added after, (ensureIncluded root name).outcome disk = (.ok added, after) := by
  have read := readIfPresent_of_writable able
  rw [holds] at read
  cases listed : Lists text name with
  | true => exact ⟨false, disk, ensureIncluded_of_listed read listed⟩
  | false =>
    obtain ⟨after, appended, _⟩ :=
      appendBytes_of_writable able (Text.Utf8.encode (inclusionAfter text name))
    exact ⟨true, after, ensureIncluded_of_unlisted read listed appended⟩

/-- A page that opens an account can be read with a row behind it that closes the account, and the
row gives its date to the account. -/
theorem Page.ofText_closing {path text name : Text} {page : Page}
    (paged : ofText path text = .ok page) (sound : page.errors = [])
    (opens : page.directives.any (Directive.opens name) = true) (date : Date) :
    ∃ closed, ofText path (text ++ (lineBreakAfter text ++ (Declaration.closing date name).text)) =
        .ok closed ∧ closed.errors = [] ∧ closed.directives ≠ [] ∧
      accountsOf closed.directives = (accountsOf page.directives).map fun account =>
        if account.name = name then { account with closeDate := some date.iso } else account := by
  obtain ⟨directive, member, own⟩ := List.any_eq_true.mp opens
  obtain ⟨lines, _, reading, _⟩ := reading_of_ofText paged sound (List.ne_nil_of_mem member)
  have word : IsWord .account name := by
    have named := Page.named paged sound directive member
    cases directive with
    | opening day account currencies dateSpan span => exact of_decide_eq_true own ▸ named.1
    | _ => cases own
  have lexical : ∀ declaration ∈ [Declaration.closing date name], declaration.Lexical := by
    intro declaration here
    rw [List.mem_singleton.mp here]
    exact ⟨word, fun _ nothing => absurd nothing List.not_mem_nil⟩
  have alone : [Declaration.closing date name].flatMap Declaration.text =
      (Declaration.closing date name).text := List.append_nil _
  have stands : (text ++ (lineBreakAfter text ++ (Declaration.closing date name).text)).drop
      (text.length + (lineBreakAfter text).length) =
        [Declaration.closing date name].flatMap Declaration.text ++ [] := by
    rw [← List.append_assoc, ← List.length_append, List.drop_left, List.append_nil, alone]
  have passage : Passage path
      (text ++ (lineBreakAfter text ++ (Declaration.closing date name).text))
      (text.length + (lineBreakAfter text).length)
      ([Declaration.closing date name].flatMap Declaration.text) _ :=
    Declaration.passage lexical stands
  rw [alone] at passage
  obtain ⟨warnings, closed, _⟩ := Page.ofText_added reading paged passage
  refine ⟨_, closed, rfl, ?_, accountsOf_closing _ _ _ _⟩
  exact List.append_ne_nil_of_left_ne_nil (List.ne_nil_of_mem member) _

/-- A line behind the row that includes a file changes nothing in this. The row is read back behind
the text, and what follows it is an inclusion or nothing, neither of which tells of accounts. -/
theorem Page.ofText_closed {path text name : Text} {page : Page}
    (paged : ofText path text = .ok page) (sound : page.errors = [])
    (opens : page.directives.any (Directive.opens name) = true) (date : Date) {fileName more : Text}
    (form : more = [] ∨ more = rootText [fileName]) :
    ∃ now, ofText path (text ++ (lineBreakAfter text ++ (Declaration.closing date name).text) ++
        more) = .ok now ∧ now.errors = [] ∧
      accountsOf now.directives = (accountsOf page.directives).map fun account =>
        if account.name = name then { account with closeDate := some date.iso } else account := by
  obtain ⟨closed, repaged, clean, spoken, accounts⟩ := Page.ofText_closing paged sound opens date
  rcases form with rfl | rfl
  · rw [List.append_nil]
    exact ⟨closed, repaged, clean, accounts⟩
  · obtain ⟨further, gathered, reading, whole, rfl⟩ := reading_of_ofText repaged clean spoken
    obtain ⟨now, span, found, clean, directives⟩ :=
      Page.ofText_inclusionAfter reading whole fileName
    have ended : (text ++ (lineBreakAfter text ++ (Declaration.closing date name).text)).getLast? =
        some '\n' := by
      rw [← List.append_assoc, Declaration.text, ← List.append_assoc, List.getLast?_concat]
    rw [inclusionAfter_of_ended ended] at found
    refine ⟨now, found, clean, ?_⟩
    rw [directives, accountsOf_inclusion]
    exact accounts

namespace Ledger

variable {ledger : Ledger} {disk after : Disk} {place beside goal aside : Location}
  {text rootText rows name : Text} {page : Page}

/-- Rows are appended where the accounts file and the root file are texts that can be written, be
they two files or one. -/
theorem appendToAccounts_of_writable (writable : disk.Writable ledger.accountsPath place beside)
    (able : disk.Writable ledger.rootPath goal aside)
    (present : readIfPresent ledger.accountsPath disk = .ok (Text.Utf8.encode text))
    (rooted : readIfPresent ledger.rootPath disk = .ok (Text.Utf8.encode rootText)) (rows : Text) :
    ∃ after, (appendToAccounts ledger.directory ledger.layout (Text.Utf8.encode text) rows).outcome
      disk = (.ok (), after) := by
  have holds := Except.ok.inj ((readIfPresent_of_writable writable).symm.trans present)
  have rootHolds := Except.ok.inj ((readIfPresent_of_writable able).symm.trans rooted)
  obtain ⟨middle, appended, replaced⟩ :=
    appendBytes_of_writable writable (Text.Utf8.encode (lineBreakAfter text ++ rows))
  rw [holds, ← Text.Utf8.encode_append] at replaced
  have onward := (writable_iff (replaced.changed writable) _ _ _).mpr able
  obtain ⟨found, held⟩ : ∃ found, middle.contentAt goal = Text.Utf8.encode found := by
    rw [replaced.contentAt]
    split
    · exact ⟨_, rfl⟩
    · split
      · exact ⟨[], rfl⟩
      · exact ⟨rootText, rootHolds⟩
  obtain ⟨added, after, included⟩ :=
    ensureIncluded_of_writable onward held ledger.layout.accountsFile
  refine ⟨after, ?_⟩
  rw [appendToAccounts_encode]
  exact Storing.outcome_bind_eq_ok_iff.mpr ⟨(), middle, appended,
    Storing.outcome_bind_eq_ok_iff.mpr ⟨added, after, included, rfl⟩⟩

/-- Rows that have been appended stand behind what the accounts file held; behind them there may be
the line that includes the file, if it is the root file. -/
theorem readIfPresent_of_appended (fresh : disk.Fresh) (something : text ≠ [])
    (present : readIfPresent ledger.accountsPath disk = .ok (Text.Utf8.encode text))
    (ended : rows.getLast? = some '\n')
    (done : (appendToAccounts ledger.directory ledger.layout (Text.Utf8.encode text) rows).outcome
      disk = (.ok (), after)) :
    ∃ more, (more = [] ∨ more = Daybook.rootText [ledger.layout.accountsFile]) ∧
      readIfPresent ledger.accountsPath after =
        .ok (Text.Utf8.encode (text ++ (lineBreakAfter text ++ rows) ++ more)) := by
  rw [appendToAccounts_encode] at done
  obtain ⟨⟨⟩, middle, appended, including⟩ := Storing.outcome_bind_eq_ok_iff.mp done
  obtain ⟨added, last, included, finished⟩ := Storing.outcome_bind_eq_ok_iff.mp including
  cases finished
  obtain ⟨content, place, beside, again, writable, filed⟩ := appendBytes_filed fresh appended
  obtain rfl : Text.Utf8.encode text = content := Except.ok.inj (present.symm.trans again)
  rw [← Text.Utf8.encode_append] at filed
  -- The file is there already, so that it is no temporary one.
  have ordinary : isTemporary place = false := by
    rcases readIfPresent_eq_ok_iff.mp present with ⟨other, leads, held⟩ | ⟨_, empty⟩
    · obtain rfl : place = other := Except.ok.inj (writable.leads.symm.trans leads)
      refine Bool.eq_false_iff.mpr fun temporary => ?_
      rw [fresh place temporary] at held
      cases held
    · exact absurd (Text.Utf8.encode_eq_nil_iff.mp empty) something
  have leads := (place_eq_ok_iff filed.changed _ _).mpr writable.leads
  have held : middle.entry? place =
      some (.file (Text.Utf8.encode (text ++ (lineBreakAfter text ++ rows)))) := by
    rw [filed.entry, if_pos rfl]
  have whole : (text ++ (lineBreakAfter text ++ rows)).getLast? = some '\n' := by
    rw [List.getLast?_append, List.getLast?_append, ended]
    rfl
  obtain ⟨more, form, now⟩ :=
    ensureIncluded_outcome (filed.fresh fresh ordinary) leads held whole included
  exact ⟨more, form, readIfPresent_eq_ok_iff.mpr (Or.inl (readBytes_eq_ok_iff.mp (now [])))⟩

end Ledger

/-! ## Failures of storing -/

/-- The failure says that a file could not be read or written, or is no text. -/
def Failure.concernsStorage : Failure → Bool
  | .unreadable _ _ => true
  | .unwritable _ _ => true
  | .nameless _ => true
  | .undecodable _ => true
  | .refused _ => true
  | _ => false

section Storage

variable {disk after : Disk} {path : FilePath} {failure : Failure}

/-- Reading a file fails by a fault of the disk. -/
theorem readIfPresent_storage (failed : readIfPresent path disk = .error failure) :
    failure.concernsStorage = true := by
  rcases bind_eq_error_iff.mp failed with asked | ⟨present, asked, reading⟩
  · obtain ⟨fault, _, rfl⟩ := mapError_eq_error_iff.mp asked
    rfl
  · cases present with
    | false => cases reading
    | true =>
      obtain ⟨fault, _, rfl⟩ := mapError_eq_error_iff.mp reading
      unfold DiskFault.meaning
      split <;> rfl

/-- Writing a file fails by a fault of the disk, or because the path has no name. Each of the steps
of the writing either succeeds or fails with such a cause. -/
theorem writeWhole_storage {content : Bytes}
    (failed : (writeWhole path content).outcome disk = (.error failure, after)) :
    failure.concernsStorage = true := by
  by_cases named : path.names = []
  · simp only [writeWhole, named, if_true, Storing.outcome_bind, Storing.outcome_throw] at failed
    cases failed
    rfl
  simp only [writeWhole, named, if_false, Storing.outcome_bind, Storing.outcome_get] at failed
  cases written : disk.write (temporary path) content with
  | ok made =>
    simp only [written] at failed
    cases renamed : made.rename (temporary path) path with
    | ok last =>
      simp only [renamed, Storing.outcome_set] at failed
      cases failed
    | error fault =>
      simp only [renamed, Storing.outcome_throw] at failed
      cases failed
      rfl
  | error fault =>
    simp only [written] at failed
    cases removed : disk.remove (temporary path) with
    | ok last =>
      simp only [removed, Storing.outcome_bind, Storing.outcome_set, Storing.outcome_throw]
        at failed
      cases failed
      rfl
    | error other =>
      simp only [removed] at failed
      split at failed <;> cases failed <;> rfl

/-- So does appending to a file. -/
theorem appendBytes_storage {more : Bytes}
    (failed : (appendBytes path more).outcome disk = (.error failure, after)) :
    failure.concernsStorage = true := by
  rcases Storing.look_bind_eq_error_iff.mp failed with ⟨reading, _⟩ | ⟨content, _, writing⟩
  · exact readIfPresent_storage reading
  · exact writeWhole_storage writing

/-- So does including a file, where also the root file may be no text. -/
theorem ensureIncluded_storage {name : Text}
    (failed : (ensureIncluded path name).outcome disk = (.error failure, after)) :
    failure.concernsStorage = true := by
  rcases Storing.look_bind_eq_error_iff.mp failed with ⟨reading, _⟩ | ⟨content, _, rest⟩
  · exact readIfPresent_storage reading
  rcases Storing.known_bind_eq_error_iff.mp rest with ⟨decoding, _⟩ | ⟨text, _, adding⟩
  · obtain ⟨malformed, _, rfl⟩ := mapError_eq_error_iff.mp decoding
    rfl
  · split at adding
    · cases adding
    · rcases Storing.outcome_bind_eq_error_iff.mp adding with appending | ⟨_, _, _, done⟩
      · exact appendBytes_storage appending
      · cases done

/-- Rows for the accounts file are refused by the disk alone: the guards are asked before. -/
theorem appendToAccounts_storage {directory : FilePath} {layout : Layout} {content : Bytes}
    {rows : Text}
    (failed : (appendToAccounts directory layout content rows).outcome disk =
      (.error failure, after)) : failure.concernsStorage = true := by
  rcases Storing.outcome_bind_eq_error_iff.mp failed with appending | ⟨_, _, _, including⟩
  · exact appendBytes_storage appending
  · rcases Storing.outcome_bind_eq_error_iff.mp including with early | ⟨_, _, _, done⟩
    · exact ensureIncluded_storage early
    · cases done

end Storage

namespace Ledger

variable {ledger : Ledger} {disk after : Disk} {place beside goal aside : Location}
  {text rootText rows name : Text} {page : Page}

/-! ## The guards -/

/-- What closing an account comes to where the accounts are listed. For an account that is listed
without a date of closing the guard has no objection: the account is closed wherever both files can
be written, and then it has the date while all other entries stay; where they cannot, only the disk
refuses. Any other name is refused on every disk, which stays as it was: as closed already if a
directive closes the name, and as no account if none does. -/
structure ClosesListed (ledger : Ledger) (disk : Disk) (page : Page) (listed : List Account)
    (name written : Text) (date : Date) : Prop where
  accepted : ∀ after, (ledger.closeAccount name written).outcome disk = (.ok (), after) →
    ∃ account ∈ listed, account.name = name ∧ account.closeDate = none
  succeeds : ∀ place beside goal aside, disk.Writable ledger.accountsPath place beside →
    disk.Writable ledger.rootPath goal aside →
    ((∃ after, (ledger.closeAccount name written).outcome disk = (.ok (), after)) ↔
      ∃ account ∈ listed, account.name = name ∧ account.closeDate = none)
  relisted : ∀ after, (ledger.closeAccount name written).outcome disk = (.ok (), after) →
    ledger.accounts after = .ok (listed.map fun account =>
      if account.name = name then { account with closeDate := some date.iso } else account)
  refused : (¬ ∃ account ∈ listed, account.name = name ∧ account.closeDate = none) →
    ∃ failure, (ledger.closeAccount name written).outcome disk = (.error failure, disk) ∧
      (failure.concernsValue = true ↔ page.Closes name) ∧
      (failure.kind? = some .notFound ↔ ¬ page.Closes name) ∧
      (failure = .noAccount name ∨ ∃ day, failure = .alreadyClosed name day)
  stored : (∃ account ∈ listed, account.name = name ∧ account.closeDate = none) →
    ∀ failure after, (ledger.closeAccount name written).outcome disk = (.error failure, after) →
      failure.concernsStorage = true

/-- What adding an account comes to there. A name with a blank is refused for the blank, and any
other name as open already exactly if it is listed; neither needs a file that can be written, and
neither changes one. A name that is not listed is added wherever both files can be written, and
where they cannot, only the disk refuses. -/
structure AddsUnlisted (ledger : Ledger) (disk : Disk) (listed : List Account)
    (account : Account) : Prop where
  spaced : account.name.any Text.isBlank = true →
    (ledger.addAccount account).outcome disk = (.error (.notAWord "account" account.name), disk)
  known : account.name.any Text.isBlank = false →
    ((ledger.addAccount account).outcome disk = (.error (.alreadyOpen account.name), disk) ↔
      account.name ∈ listed.map Account.name)
  fresh : account.name.any Text.isBlank = false → account.name ∉ listed.map Account.name →
    ∀ place beside goal aside, disk.Writable ledger.accountsPath place beside →
      disk.Writable ledger.rootPath goal aside →
      ∃ after, (ledger.addAccount account).outcome disk = (.ok (), after)
  stored : account.name.any Text.isBlank = false → account.name ∉ listed.map Account.name →
    ∀ failure after, (ledger.addAccount account).outcome disk = (.error failure, after) →
      failure.concernsStorage = true

section Guards

variable {content : Bytes} {written : Text} {date opened : Date} {closed : Option Date}
  {account : Account}

/-- A refusal agrees with the list if the account is not listed as one that can be closed. Nothing
is written after a refusal, so the clauses about a success are empty. -/
theorem ClosesListed.of_refused {listed : List Account} {cause : Failure}
    (outcome : (ledger.closeAccount name written).outcome disk = (.error cause, disk))
    (unlisted : ¬ ∃ account ∈ listed, account.name = name ∧ account.closeDate = none)
    (reason : (page.Closes name ∧ ∃ day, cause = .alreadyClosed name day) ∨
      (¬ page.Closes name ∧ cause = .noAccount name)) :
    ledger.ClosesListed disk page listed name written date := by
  have never : ∀ after, (ledger.closeAccount name written).outcome disk ≠ (.ok (), after) := by
    intro after done
    rw [outcome] at done
    cases done
  constructor
  case accepted => exact fun after done => absurd done (never after)
  case succeeds =>
    exact fun _ _ _ _ _ _ => iff_of_false (fun ⟨after, done⟩ => never after done) unlisted
  case relisted => exact fun after done => absurd done (never after)
  case refused =>
    intro _
    refine ⟨cause, outcome, ?_⟩
    rcases reason with ⟨closes, day, rfl⟩ | ⟨unclosed, rfl⟩
    · exact ⟨iff_of_true rfl closes,
        iff_of_false (fun kind => by cases kind) (not_not.mpr closes), Or.inr ⟨day, rfl⟩⟩
    · exact ⟨iff_of_false (fun value => by cases value) unclosed, iff_of_true rfl unclosed,
        Or.inl rfl⟩
  case stored => exact fun unclosed => absurd unclosed unlisted

/-- Behind the row that closes an account the account is listed with the date of closing. The file
is read back after it has been written, with the row behind the old rows. -/
theorem accounts_of_closing_appended (fresh : disk.Fresh)
    (present : readIfPresent ledger.accountsPath disk = .ok (Text.Utf8.encode text))
    (paged : Page.ofText ledger.accountsPath.toText text = .ok page) (sound : page.errors = [])
    (opens : page.directives.any (Directive.opens name) = true)
    (done : (appendToAccounts ledger.directory ledger.layout (Text.Utf8.encode text)
      (Declaration.closing date name).text).outcome disk = (.ok (), after)) :
    ledger.accounts after = .ok ((accountsOf page.directives).map fun account =>
      if account.name = name then { account with closeDate := some date.iso } else account) := by
  have something : text ≠ [] := by
    rintro rfl
    cases paged
    cases opens
  have ended : (Declaration.closing date name).text.getLast? = some '\n' := by
    rw [Declaration.text, List.getLast?_concat]
  obtain ⟨more, form, reread⟩ := readIfPresent_of_appended fresh something present ended done
  obtain ⟨now, repaged, clean, accounts⟩ := Page.ofText_closed paged sound opens date form
  rw [← accounts]
  apply accounts_of_readAccounts
  apply readAccounts_eq_ok_iff.mpr
  exact ⟨reread, Page.read_eq_ok_iff.mpr ⟨(Page.ofBytes_encode _ _).trans repaged, clean⟩⟩

/-- Adding a row that closes an account agrees with the list if the account is listed as one that
can be closed. -/
theorem ClosesListed.of_appended (fresh : disk.Fresh)
    (present : readIfPresent ledger.accountsPath disk = .ok (Text.Utf8.encode text))
    (paged : Page.ofText ledger.accountsPath.toText text = .ok page) (sound : page.errors = [])
    (rooted : readIfPresent ledger.rootPath disk = .ok (Text.Utf8.encode rootText))
    (opens : page.directives.any (Directive.opens name) = true)
    (unclosed : closedOn? name page.directives = none)
    (outcome : (ledger.closeAccount name written).outcome disk =
      (appendToAccounts ledger.directory ledger.layout (Text.Utf8.encode text)
        (Declaration.closing date name).text).outcome disk) :
    ledger.ClosesListed disk page (accountsOf page.directives) name written date := by
  have listed := exists_unclosed_iff.mpr ⟨opens, unclosed⟩
  constructor
  case accepted => exact fun _ _ => listed
  case succeeds =>
    intro place beside goal aside writable able
    obtain ⟨after, done⟩ := appendToAccounts_of_writable writable able present rooted
      (Declaration.closing date name).text
    exact iff_of_true ⟨after, outcome.trans done⟩ listed
  case relisted =>
    intro after done
    exact accounts_of_closing_appended fresh present paged sound opens (outcome.symm.trans done)
  case refused => exact fun unlisted => absurd listed unlisted
  case stored =>
    intro _ failure after failed
    exact appendToAccounts_storage (outcome.symm.trans failed)

/-- Closing agrees with the list. The guard looks at the first closing and at any opening, the list
at the last closing and at the openings one after the other, and they find the same. -/
theorem closesListed (fresh : disk.Fresh)
    (read : readAccounts ledger.accountsPath disk = .ok (content, page))
    (rooted : readIfPresent ledger.rootPath disk = .ok (Text.Utf8.encode rootText))
    (dated : Date.read written = .ok date) (name : Text) :
    ledger.ClosesListed disk page (accountsOf page.directives) name written date := by
  obtain ⟨present, parsed⟩ := readAccounts_eq_ok_iff.mp read
  obtain ⟨paged, sound⟩ := Page.read_eq_ok_iff.mp parsed
  obtain ⟨text, rfl, whole⟩ := Page.encode_of_ofBytes paged sound
  have outcome := closeAccount_outcome read dated name
  cases first : closedOn? name page.directives with
  | some day =>
    rw [first] at outcome
    apply ClosesListed.of_refused outcome
    · rw [exists_unclosed_iff, first]
      rintro ⟨_, unclosed⟩
      cases unclosed
    · exact Or.inl ⟨Page.closes_iff.mpr ⟨day, first⟩, day, rfl⟩
  | none =>
    have unclosed : ¬ page.Closes name := by
      rw [Page.closes_iff, first]
      rintro ⟨day, impossible⟩
      cases impossible
    rw [first] at outcome
    dsimp only at outcome
    by_cases opens : page.directives.any (Directive.opens name) = true
    · rw [if_pos opens] at outcome
      exact .of_appended fresh present whole sound rooted opens first outcome
    · rw [if_neg opens] at outcome
      apply ClosesListed.of_refused outcome
      · rw [exists_unclosed_iff]
        exact fun both => opens both.1
      · exact Or.inr ⟨unclosed, rfl⟩

/-- Adding agrees with the list. The guard looks for any opening of the name, and the list has one
entry for all openings of it. -/
theorem addsUnlisted (read : readAccounts ledger.accountsPath disk = .ok (content, page))
    (rooted : readIfPresent ledger.rootPath disk = .ok (Text.Utf8.encode rootText))
    (lexical : account.Lexical) (readOpened : Date.read account.openDate = .ok opened)
    (readClosed : account.closeDate.mapM Date.read = .ok closed) :
    ledger.AddsUnlisted disk (accountsOf page.directives) account := by
  obtain ⟨present, parsed⟩ := readAccounts_eq_ok_iff.mp read
  obtain ⟨paged, sound⟩ := Page.read_eq_ok_iff.mp parsed
  obtain ⟨text, rfl, _⟩ := Page.encode_of_ofBytes paged sound
  have outcome (plain : account.name.any Text.isBlank = false) :=
    addAccount_outcome read (Account.toText_eq_ok_iff.mpr
      ⟨lexical.name.account_solid_iff.mpr (by simpa using plain), fun currency member =>
        (lexical.currencies currency member).currency_solid, opened, closed, readOpened, readClosed,
        rfl⟩)
  have appends (plain : account.name.any Text.isBlank = false)
      (unlisted : account.name ∉ (accountsOf page.directives).map Account.name) :
      (ledger.addAccount account).outcome disk =
        (appendToAccounts ledger.directory ledger.layout (Text.Utf8.encode text)
          ((account.declarations opened closed).flatMap Declaration.text)).outcome disk := by
    rw [outcome plain, if_neg (mt mem_names_accountsOf_iff.mpr unlisted)]
  constructor
  case spaced =>
    intro spaced
    exact Ledger.Keeps.addAccount_refused (lexical.toText_eq_error (if_pos spaced))
  case known =>
    intro plain
    constructor
    · -- What the disk refuses is not refused as open already.
      intro refused
      by_contra unlisted
      rw [appends plain unlisted] at refused
      cases appendToAccounts_storage refused
    · intro listed
      rw [outcome plain, if_pos (mem_names_accountsOf_iff.mp listed)]
  case fresh =>
    intro plain unlisted place beside goal aside writable able
    rw [appends plain unlisted]
    exact appendToAccounts_of_writable writable able present rooted _
  case stored =>
    intro plain unlisted failure after failed
    rw [appends plain unlisted] at failed
    exact appendToAccounts_storage failed

/-- Wherever the accounts file is missing or is read without errors, and the root file is missing or
a text, the guards of closing and adding accounts agree with the list of accounts: which names they
refuse, and for which reason, is what the list and the closings in the file say, whether or not the
disk could be written. Only that the others are accepted takes files that can be written. -/
theorem guards_agree (fresh : disk.Fresh)
    (read : readAccounts ledger.accountsPath disk = .ok (content, page))
    (rooted : readIfPresent ledger.rootPath disk = .ok (Text.Utf8.encode rootText)) :
    ∃ listed, ledger.accounts disk = .ok listed ∧ (listed.map Account.name).Nodup ∧
      (∀ name written date, Date.read written = .ok date →
        ledger.ClosesListed disk page listed name written date) ∧
      ∀ (account : Account) (opened : Date) (closed : Option Date), account.Lexical →
        Date.read account.openDate = .ok opened → account.closeDate.mapM Date.read = .ok closed →
          ledger.AddsUnlisted disk listed account :=
  ⟨accountsOf page.directives, accounts_of_readAccounts read, nodup_accountsOf _,
    fun name _ _ dated => closesListed fresh read rooted dated name,
    fun _ _ _ lexical readOpened readClosed =>
      addsUnlisted read rooted lexical readOpened readClosed⟩

end Guards

end Ledger

/-! ## Files of accounts -/

/-- A disk with an accounts file that closes one account before it opens it, opens another one
twice and closes a third one that it never opens. -/
def Disk.withReopened : Disk where
  current := []
  entries := [(["data"], .folder), (["data", "accounts.bean"], .file (Text.Utf8.encode
    ("2024-03-01 close Assets:Bank\n2024-01-01 open Assets:Cash EUR\n" ++
      "2024-01-01 open Assets:Bank\n2024-02-01 open Assets:Cash\n" ++
      "2024-05-01 close Assets:Old")))]

/-- The guards agree with the list of its accounts, and an account that is listed without a date of
closing is closed. -/
theorem Ledger.reopened_guarded : ∃ page listed date after,
    Date.read "2024-6-1" = .ok date ∧
    Ledger.usual.accounts Disk.withReopened = .ok listed ∧
    Ledger.usual.ClosesListed Disk.withReopened page listed "Assets:Cash" "2024-6-1" date ∧
    (Ledger.usual.closeAccount "Assets:Cash" "2024-6-1").outcome Disk.withReopened =
      (.ok (), after) ∧
    Ledger.usual.AddsUnlisted Disk.withReopened listed Account.savings := by
  obtain ⟨⟨content, page⟩, read⟩ : ∃ found,
      readAccounts Ledger.usual.accountsPath Disk.withReopened = .ok found :=
    exists_of_isOk (by decide +kernel)
  obtain ⟨date, dated⟩ : ∃ date, Date.read "2024-6-1" = .ok date :=
    exists_of_isOk (by decide +kernel)
  obtain ⟨opened, readOpened⟩ : ∃ opened, Date.read Account.savings.openDate = .ok opened :=
    exists_of_isOk (by decide +kernel)
  obtain ⟨closure, readClosed⟩ : ∃ closed, Account.savings.closeDate.mapM Date.read = .ok closed :=
    exists_of_isOk (by decide +kernel)
  have writable : Disk.withReopened.Writable Ledger.usual.accountsPath ["data", "accounts.bean"]
      ["data", ".accounts.bean.<uuid>.tmp"] :=
    ⟨by decide, by decide, rfl, rfl, by decide, by decide⟩
  have able : Disk.withReopened.Writable Ledger.usual.rootPath ["data", "main.bean"]
      ["data", ".main.bean.<uuid>.tmp"] :=
    ⟨by decide, by decide, rfl, rfl, by decide, by decide⟩
  have rooted : readIfPresent Ledger.usual.rootPath Disk.withReopened =
      .ok (Text.Utf8.encode []) := rfl
  have lexical : Account.savings.Lexical := ⟨by decide, by decide⟩
  have shown : ((Ledger.usual.accounts Disk.withReopened).toOption.any fun listed =>
      listed.any fun account => account.name == "Assets:Cash" && account.closeDate == none) =
        true := by
    decide +kernel
  obtain ⟨listed, accounts, _, closes, adds⟩ :=
    Ledger.guards_agree (by decide +kernel) read rooted
  have closed := closes "Assets:Cash" "2024-6-1" date dated
  rw [accounts] at shown
  obtain ⟨account, member, known⟩ := List.any_eq_true.mp shown
  obtain ⟨named, unclosed⟩ := Bool.and_eq_true _ _ ▸ known
  obtain ⟨after, done⟩ := (closed.succeeds _ _ _ _ writable able).mpr
    ⟨account, member, beq_iff_eq.mp named, beq_iff_eq.mp unclosed⟩
  exact ⟨page, listed, date, after, dated, accounts, closed, done,
    adds Account.savings opened closure lexical readOpened readClosed⟩

/-- A disk with an accounts file that opens an account with a no-break space in its name. -/
def Disk.withSpaced : Disk where
  current := []
  entries := [(["data"], .folder), (["data", "accounts.bean"], .file (Text.Utf8.encode
    "2024-01-01 open Assets:Ca\u00a0sh\n"))]

/-- The ledger of the same directory with a root file in a folder that is missing. -/
def Ledger.unrooted : Ledger where
  directory := FilePath.ofText "data"
  layout := { rootFile := "sub/main.bean" }

/-- An account with a no-break space is listed, and it is refused for another reason than that it is
open already. And an account that is listed without a date of closing is not closed where there is
no root file and none can be written. -/
theorem Ledger.spaced_disagrees :
    Account.spaced.Lexical ∧ (Date.read Account.spaced.openDate).isOk = true ∧
    (Date.read "2024-02-01").isOk = true ∧
    Ledger.usual.accounts Disk.withSpaced = .ok [Account.spaced] ∧
    readIfPresent Ledger.usual.rootPath Disk.withSpaced = .ok [] ∧
    (Ledger.usual.addAccount Account.spaced).outcome Disk.withSpaced =
      (.error (.notAWord "account" Account.spaced.name), Disk.withSpaced) ∧
    Ledger.unrooted.accounts Disk.withSpaced = .ok [Account.spaced] ∧
    readIfPresent Ledger.unrooted.rootPath Disk.withSpaced = .ok [] ∧
    ((Ledger.unrooted.closeAccount Account.spaced.name "2024-02-01").outcome
      Disk.withSpaced).1.mapError Failure.kind? = .error (some .io) := by
  exact ⟨⟨by decide, by decide⟩, by decide +kernel, by decide +kernel, by decide +kernel, rfl, rfl,
    by decide +kernel, rfl, by decide +kernel⟩

end Daybook
