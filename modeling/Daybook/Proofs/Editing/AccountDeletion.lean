import Daybook.Proofs.Page.AccountCuts

/-!
# Striking an account off

Deleting an account takes the directives that open or close it out of the accounts file, and
nothing else. The accounts that a file describes depend on what its openings and closings say and
not on where they stand, and so all other accounts are described by what is left.
-/
namespace Daybook

open Statement

/-! ## What the directives say -/

namespace Line

/-- The account that a line opens. -/
def opened? (line : Line) : Option Account :=
  match line.statement with
  | .opening date account currencies _ =>
    some { name := account.text, openDate := date.text, currencies := currencies.map Token.text }
  | _ => none

/-- The date on which a line closes an account. -/
def closed? (name : Text) (line : Line) : Option Text :=
  match line.statement with
  | .closing date account => if account.text = name then some date.text else none
  | _ => none

/-- What directives say apart from their spans their lines say. -/
theorem filterMap_directivesOf {α : Type} {said : Directive → Option α} {meant : Line → Option α}
    (same : ∀ (source : Source) (line : Line) (under : List Line),
      (line.directive? source under).bind said = meant line)
    (source : Source) (lines : List Line) :
    (directivesOf source lines).filterMap said = lines.filterMap meant := by
  induction lines with
  | nil => rfl
  | cons line rest ih =>
    have first : (line.directive? source (under rest)).toList.filterMap said =
        (meant line).toList := by
      rw [← same source line (under rest)]
      cases line.directive? source (under rest) with
      | none => rfl
      | some directive => cases known : said directive <;> simp [known]
    rw [directivesOf, List.filterMap_append, ih, first]
    cases known : meant line <;> simp [known]

/-- The accounts opened by the directives of a file are those its lines open, in the same order: a
comment or a blank line between them produces no directive. -/
theorem openedBy?_directivesOf (source : Source) (lines : List Line) :
    (directivesOf source lines).filterMap Chart.openedBy? = lines.filterMap opened? := by
  refine filterMap_directivesOf (fun source line under => ?_) source lines
  obtain ⟨statement, comment⟩ := line
  cases statement with
  | transaction heading =>
    cases flagged : heading.flag <;> simp [directive?, flagged, opened?, Chart.openedBy?]
  | _ => rfl

/-- The dates on which a name is closed can be read off the lines, without assembling the
directives. -/
theorem closedBy?_directivesOf (source : Source) (name : Text) (lines : List Line) :
    (directivesOf source lines).filterMap (Chart.closedBy? name) =
      lines.filterMap (closed? name) := by
  refine filterMap_directivesOf (fun source line under => ?_) source lines
  obtain ⟨statement, comment⟩ := line
  cases statement with
  | transaction heading =>
    cases flagged : heading.flag <;> simp [directive?, flagged, closed?, Chart.closedBy?]
  | _ => rfl

/-- An opening of another account tells it wherever it stands. -/
theorem tells_opened (name : Text) :
    Tells name fun line => line.opened?.filter fun account => account.name ≠ name := by
  constructor
  · intro distance line
    obtain ⟨statement, comment⟩ := line
    cases statement with
    | opening date account currencies stop =>
      simp [opened?, Line.shift, Statement.shift, Function.comp_def]
    | _ => rfl
  · intro line belonging
    obtain ⟨statement, comment⟩ := line
    cases statement <;> first | rfl | cases belonging
  · intro line named
    obtain ⟨statement, comment⟩ := line
    cases statement with
    | opening date account currencies stop =>
      have own : account.text = name := of_decide_eq_true named
      simp [opened?, own]
    | _ => rfl

/-- A closing of another account tells its date wherever it stands. -/
theorem tells_closed {name other : Text} (apart : other ≠ name) : Tells name (closed? other) := by
  constructor
  · intro distance line
    obtain ⟨statement, comment⟩ := line
    cases statement <;> rfl
  · intro line belonging
    obtain ⟨statement, comment⟩ := line
    cases statement <;> first | rfl | cases belonging
  · intro line named
    obtain ⟨statement, comment⟩ := line
    cases statement with
    | closing date account =>
      obtain rfl : account.text = name := of_decide_eq_true named
      exact if_neg (Ne.symm apart)
    | _ => rfl

/-- A line without a flag tells that wherever it stands. -/
theorem tells_flagless (name : Text) :
    Tells name fun line => bif line.isFlagged then none else some line.isFlagged := by
  constructor
  · intro distance line
    obtain ⟨statement, comment⟩ := line
    cases statement with
    | transaction heading => simp [isFlagged, Line.shift, Statement.shift, Heading.shift]
    | _ => rfl
  · intro line belonging
    obtain ⟨statement, comment⟩ := line
    cases statement <;> first | rfl | cases belonging
  · intro line named
    obtain ⟨statement, comment⟩ := line
    cases statement <;> first | rfl | cases named

end Line

/-- Opening an account and leaving out another one can be done in either order. Opening replaces the
account of the name or adds it at the end, and both commute with leaving out another name. -/
theorem filter_reopen (name : Text) (accounts : List Account) (account : Account) :
    (reopen accounts account).filter (fun held => held.name ≠ name) =
      if account.name = name then accounts.filter fun held => held.name ≠ name
      else reopen (accounts.filter fun held => held.name ≠ name) account := by
  have keeps (held : Account) : (if held.name = account.name then account else held).name =
      held.name := by
    split
    · next same => exact same.symm
    · rfl
  have replaced : (accounts.map fun held => if held.name = account.name then account else held).filter
      (fun held => held.name ≠ name) = (accounts.filter fun held => held.name ≠ name).map
        fun held => if held.name = account.name then account else held := by
    rw [List.filter_map]
    refine congrArg _ (List.filter_congr fun held _ => ?_)
    simp only [Function.comp_apply, keeps]
  by_cases own : account.name = name
  · rw [if_pos own]
    unfold reopen
    split
    · rw [replaced]
      refine (List.map_congr_left fun held member => ?_).trans (List.map_id _)
      have other := (List.mem_filter.mp member).2
      rw [own, if_neg (of_decide_eq_true other), id_eq]
    · simp [List.filter_append, own]
  · have known : (accounts.filter fun held => held.name ≠ name).any
        (fun held => held.name = account.name) =
        accounts.any fun held => held.name = account.name := by
      rw [List.any_filter]
      refine List.any_congr rfl fun held => ?_
      by_cases same : held.name = account.name
      · simp [same, own]
      · simp [same]
    rw [if_neg own, reopen, reopen, known]
    split
    · exact replaced
    · simp [List.filter_append, own]

/-- Leaving out an account leaves out what is opened under its name. -/
theorem filter_foldl_reopen (name : Text) (accounts held : List Account) :
    (accounts.foldl reopen held).filter (fun account => account.name ≠ name) =
      (accounts.filter fun account => account.name ≠ name).foldl reopen
        (held.filter fun account => account.name ≠ name) := by
  induction accounts generalizing held with
  | nil => rfl
  | cons account rest ih =>
    rw [List.foldl_cons, ih, filter_reopen]
    by_cases own : account.name = name
    · simp [own]
    · simp [own]

/-- The accounts that directives describe without one of them: the openings and the closings of the
others are all that has to stay. -/
theorem accountsOf_filter {name : Text} {directives left : List Directive}
    (opened : left.filterMap Chart.openedBy? =
      (directives.filterMap Chart.openedBy?).filter fun account => account.name ≠ name)
    (closed : ∀ other ≠ name, left.filterMap (Chart.closedBy? other) =
      directives.filterMap (Chart.closedBy? other)) :
    accountsOf left = (accountsOf directives).filter fun account => account.name ≠ name := by
  have accounts : openedAccounts left =
      (openedAccounts directives).filter fun account => account.name ≠ name := by
    rw [Chart.openedAccounts_eq, Chart.openedAccounts_eq, filter_foldl_reopen, opened]
    rfl
  have last (directives : List Directive) (other : Text) : lastClosing? directives other =
      (directives.filterMap (Chart.closedBy? other)).getLast? := by
    rw [List.getLast?_eq_head?_reverse, ← List.filterMap_reverse, List.head?_filterMap]
    rfl
  rw [accountsOf, accountsOf, List.filter_map, accounts]
  refine List.map_congr_left fun account member => ?_
  have apart : account.name ≠ name := of_decide_eq_true (List.mem_filter.mp member).2
  rw [last, last, closed account.name apart]

/-- A struck account is described no more, and all others are as they were. The lines that are left
tell the same openings and closings of all other names, in the same order. -/
theorem Struck.accountsOf {path text name left : Text} {lines leftLines : List Line}
    (struck : Struck path text name lines left leftLines) (source other : Source) :
    Daybook.accountsOf (Line.directivesOf other leftLines) =
      (Daybook.accountsOf (Line.directivesOf source lines)).filter
        fun account => account.name ≠ name := by
  refine accountsOf_filter ?_ fun another apart => ?_
  · have same := struck.tells (Line.tells_opened name)
    have still : leftLines.filterMap Line.opened? = leftLines.filterMap fun line =>
        line.opened?.filter fun account => account.name ≠ name := by
      refine List.filterMap_congr fun line member => ?_
      have unnamed := struck.unnamed line member
      obtain ⟨statement, comment⟩ := line
      cases statement with
      | opening date account currencies stop =>
        have unlike : account.text ≠ name := of_decide_eq_false unnamed
        simp [Line.opened?, Option.filter, unlike]
      | _ => rfl
    rw [Line.openedBy?_directivesOf, Line.openedBy?_directivesOf, still, same, List.filter_filterMap]
  · rw [Line.closedBy?_directivesOf, Line.closedBy?_directivesOf,
      struck.tells (Line.tells_closed apart)]

/-- Where all transactions have flags, they have them after an account has been struck off. -/
theorem Struck.flagged {path text name left : Text} {lines leftLines : List Line}
    (struck : Struck path text name lines left leftLines)
    (flagged : lines.all Line.isFlagged = true) : leftLines.all Line.isFlagged = true := by
  have flagless (some : List Line) : some.all Line.isFlagged = true ↔ (some.filterMap fun line =>
      bif line.isFlagged then none else Option.some line.isFlagged) = [] := by
    rw [List.filterMap_eq_nil_iff, List.all_eq_true]
    refine forall₂_congr fun line _ => ?_
    cases line.isFlagged <;> simp
  rw [flagless, struck.tells (Line.tells_flagless name)]
  exact (flagless lines).mp flagged

/-! ## Deleting an account -/

/-- The lines of a text, of which a blank one has none. -/
def Text.HasLines (text : Text) (lines : List Line) : Prop :=
  text.all Text.isBlank = true ∧ lines = [] ∨ Statement.read text = .ok lines

/-- A page without errors shows the directives of the lines of its text. -/
theorem Page.directives_of_lines {path text : Text} {page : Page}
    (paged : ofText path text = .ok page)
    (sound : page.errors = []) : ∃ lines, text.HasLines lines ∧ lines.all Line.isFlagged = true ∧
      page.directives = Line.directivesOf (Source.ofText path text) lines := by
  by_cases blank : text.all Text.isBlank = true
  · simp only [ofText, blank, if_true] at paged
    cases paged
    exact ⟨[], Or.inl ⟨blank, rfl⟩, rfl, rfl⟩
  · obtain ⟨lines, collected, reading, whole, rfl⟩ :=
      reading_of_visible paged sound (by simpa using blank)
    have read := (reading_iff 0).mp reading
    have collects := Statement.collect_eq path read
    rw [whole] at collects
    cases flagged : lines.all Line.isFlagged with
    | false => simp [flagged] at collects
    | true =>
      rw [flagged] at collects
      cases collects
      exact ⟨lines, Or.inr read, flagged, rfl⟩

/-- A text whose lines have all their flags has a page without errors. -/
theorem Page.ofText_of_flagged (path : Text) {text : Text} {lines : List Line}
    (reading : Reading .fileStart 0 text lines) (flagged : lines.all Line.isFlagged = true) :
    ∃ page, ofText path text = .ok page ∧ page.errors = [] ∧
      page.directives = Line.directivesOf (Source.ofText path text) lines := by
  have collects := Statement.collect_eq path ((reading_iff 0).mp reading)
  rw [flagged] at collects
  exact ⟨_, Page.ofText_of_reading reading collects, rfl, rfl⟩

/-- Deleting an account takes exactly its openings and closings out of the accounts file: for each
of them the bytes from its date to the end of the line where it ends, which is that of its last
metadata line if it has one. These parts do not overlap, and so it does not matter in which order
they are taken out. What is left has no errors, and all other accounts are described by it as they
were. Without such a directive nothing happens. An opening or a closing stands on lines of its own,
and no other line belongs to it but its metadata. So the lines that are left are read in the same
states as before, and they are the same lines further up. -/
theorem Ledger.deleteAccount_exact {ledger : Ledger} {name : Text} {disk : Disk} {content : Bytes}
    {page : Page} (read : readAccounts ledger.accountsPath disk = .ok (content, page)) :
    ∃ text lines, content = Text.Utf8.encode text ∧ text.HasLines lines ∧
      page.directives = Line.directivesOf (Source.ofText ledger.accountsPath.toText text) lines ∧
      ((∀ directive ∈ page.directives, ∀ span, directive.account? ≠ some (name, span)) →
        (ledger.deleteAccount name).outcome disk = (.error (.noAccount name), disk)) ∧
      ((∃ directive ∈ page.directives, ∃ span, directive.account? = some (name, span)) →
        ∃ parts left,
          parts = (accountSpans name page.directives).map (Span.wholeLines content) ∧
          (∀ part ∈ parts, part.Within content.length) ∧
          (parts.Pairwise fun first second => first.stop ≤ second.start) ∧
          (∀ order : List Span, order.Perm parts →
            (ledger.deleteAccount name).outcome disk =
              (writeWhole ledger.accountsPath (withoutSpans content order)).outcome disk) ∧
          Page.ofBytes ledger.accountsPath (withoutSpans content parts) = .ok left ∧
          left.errors = [] ∧
          (∀ directive ∈ left.directives, ∀ span, directive.account? ≠ some (name, span)) ∧
          ∀ after, (ledger.deleteAccount name).outcome disk = (.ok (), after) →
            ledger.accounts disk = .ok (accountsOf page.directives) ∧
            ledger.accounts after = .ok ((accountsOf page.directives).filter
              fun account => account.name ≠ name)) := by
  obtain ⟨present, parsed⟩ := readAccounts_eq_ok_iff.mp read
  obtain ⟨paged, sound⟩ := Page.read_eq_ok_iff.mp parsed
  obtain ⟨text, rfl, ofText⟩ := Page.encode_of_ofBytes paged sound
  obtain ⟨lines, has, flagged, directives⟩ := Page.directives_of_lines ofText sound
  have same : Daybook.readAccounts (ledger.layout.accountsPath ledger.directory) disk = _ := read
  refine ⟨text, lines, rfl, has, directives, fun absent => ?_, fun known => ?_⟩
  · simp only [Ledger.deleteAccount, Daybook.deleteAccount, Storing.outcome_bind,
      Storing.outcome_look, same]
    exact congrArg (fun storing : Storing Unit => storing.outcome disk)
      (if_pos (accountSpans_eq_nil_iff.mpr absent))
  · have some : accountSpans name page.directives ≠ [] := by
      intro none
      obtain ⟨directive, member, span, held⟩ := known
      exact accountSpans_eq_nil_iff.mp none directive member span held
    have reading : Reading .fileStart 0 text lines := by
      rcases has with ⟨_, rfl⟩ | read
      · rw [directives] at some
        exact absurd rfl some
      · exact (reading_iff 0).mpr read
    obtain ⟨left, leftLines, struck⟩ := reading.struck ledger.accountsPath.toText name
    have outcome : (ledger.deleteAccount name).outcome disk =
        (writeWhole ledger.accountsPath (Text.Utf8.encode left)).outcome disk := by
      have cut : cutAll (Text.Utf8.encode text) (accountSpans name page.directives) =
          .ok (Text.Utf8.encode left) := by
        rw [directives]
        exact (cutAll_eq struck.ordered).trans struck.cut
      simp only [Ledger.deleteAccount, Daybook.deleteAccount, Storing.outcome_bind,
        Storing.outcome_look, same]
      refine (congrArg (fun storing : Storing Unit => storing.outcome disk) (if_neg some)).trans ?_
      simp only [Storing.outcome_bind, Storing.outcome_known, cut, Except.mapError]
      rfl
    obtain ⟨leftPage, leftPaged, leftSound, leftDirectives⟩ :=
      Page.ofText_of_flagged ledger.accountsPath.toText struck.reading (struck.flagged flagged)
    have spans : accountSpans name page.directives =
        Line.spansOf (Source.ofText ledger.accountsPath.toText text) name lines :=
      congrArg (accountSpans name) directives
    have without := struck.without
    rw [← spans] at without
    refine ⟨_, leftPage, rfl, ?_, ?_, fun order perm => ?_, ?_, leftSound, ?_, fun after done => ?_⟩
    · rw [spans]
      intro part member
      obtain ⟨span, held, rfl⟩ := List.mem_map.mp member
      exact (struck.inside span held).wholeLines
    · rw [spans]
      exact struck.apart
    · rw [withoutSpans_perm perm, without, outcome]
    · rw [without, Page.ofBytes_encode, leftPaged]
    · rw [leftDirectives]
      exact accountSpans_eq_nil_iff.mp (Line.spansOf_eq_nil struck.unnamed _)
    · have leftRead : readAccounts ledger.accountsPath after =
          .ok (Text.Utf8.encode left, leftPage) := by
        rw [outcome] at done
        exact readAccounts_eq_ok_iff.mpr ⟨readIfPresent_of_writeWhole done,
          Page.read_eq_ok_iff.mpr ⟨(Page.ofBytes_encode _ _).trans leftPaged, leftSound⟩⟩
      refine ⟨Ledger.accounts_of_readAccounts read, ?_⟩
      rw [Ledger.accounts_of_readAccounts leftRead, leftDirectives, directives,
        struck.accountsOf (Source.ofText ledger.accountsPath.toText text)]

/-- A disk with an accounts file that opens two accounts and closes the first one. -/
def Disk.withAccounts : Disk where
  current := []
  entries := [(["data"], .folder), (["data", "accounts.bean"], .file (Text.Utf8.encode
    ("2024-01-01 open A:B USD ; é\r\n\n  ; n\n  k: 1\n2024-01-02 open A:B:C\n" ++
      " 2024-01-03 close A:B\n")))]

/-- Whether so many directives of a page are of an account. -/
def Page.hasSpans (page : Page) (name : Text) (count : Nat) : Bool :=
  (accountSpans name page.directives).length == count

/-- Deleting the first account leaves the second one. -/
theorem Ledger.first_struck : ∃ content page after,
    readAccounts Ledger.usual.accountsPath Disk.withAccounts = .ok (content, page) ∧
    (accountSpans "A:B" page.directives).length = 2 ∧
    (Ledger.usual.deleteAccount "A:B").outcome Disk.withAccounts = (.ok (), after) ∧
    Ledger.usual.accounts Disk.withAccounts = .ok (accountsOf page.directives) ∧
    Ledger.usual.accounts after = .ok ((accountsOf page.directives).filter
      fun account => account.name ≠ "A:B") := by
  have shape : (readAccounts Ledger.usual.accountsPath Disk.withAccounts).toOption.any
      (fun found => found.2.hasSpans "A:B" 2) = true := by
    decide +kernel
  have writable : Disk.withAccounts.Writable Ledger.usual.accountsPath ["data", "accounts.bean"]
      ["data", ".accounts.bean.<uuid>.tmp"] :=
    ⟨by decide, by decide, rfl, rfl, by decide, by decide⟩
  obtain ⟨⟨content, page⟩, read, shape⟩ := exists_of_any shape
  have count : (accountSpans "A:B" page.directives).length = 2 := beq_iff_eq.mp shape
  obtain ⟨_, _, _, _, _, _, deletes⟩ := @Ledger.deleteAccount_exact _ "A:B" _ _ _ read
  have known : ¬ ∀ directive ∈ page.directives, ∀ span,
      directive.account? ≠ some (("A:B" : Text), span) := by
    intro none
    rw [accountSpans_eq_nil_iff.mpr none] at count
    cases count
  push Not at known
  obtain ⟨parts, _, _, _, _, outcome, _, _, _, listed⟩ := deletes known
  obtain ⟨after, written, _⟩ := writeWhole_of_writable writable (withoutSpans content parts)
  have done := (outcome parts (List.Perm.refl _)).trans written
  obtain ⟨old, new⟩ := listed after done
  exact ⟨content, page, after, read, count, done, old, new⟩

end Daybook
