import Daybook.Proofs.Editing.AccountAddition
import Daybook.Proofs.Ledger.Sheets

/-!
# The chart of accounts

The accounts file is a chart: rows that open accounts and rows that close them, one after the
other. If no account is opened twice, none is closed that is not open, and none is closed twice,
then the chart describes a list of accounts with different names. A further row describes what is
opened or closed by it, and without the rows of an account the chart describes the others.
-/
namespace Daybook

/-- A part of a text has the same span in every text that begins with the part and what stands
before it. -/
theorem Source.span_alike (path front old after beyond : Text) :
    (ofText path (front ++ (old ++ after))).span front.length (front.length + old.length) =
      (ofText path (front ++ (old ++ beyond))).span front.length (front.length + old.length) := by
  have stop (rest : Text) :=
    Source.byte_append path (List.append_assoc front old rest).symm
  rw [List.length_append] at stop
  simp only [span, Source.byte_append path rfl, stop]

/-- Spans in their order are cut out from the last one to the first. Sorting by the start from the
last to the first is reversing what is ordered, since no two spans start at the same byte. -/
theorem cutAll_eq {content : Bytes} {spans : List Span}
    (ordered : spans.Pairwise fun first second => first.start < second.start) :
    cutAll content spans = spans.reverse.foldlM Span.cutLines content := by
  have sorted : (spans.mergeSort fun first second => decide (second.start ≤ first.start)) =
      spans.reverse := by
    have once : (spans.map Span.start).Nodup :=
      List.pairwise_map.mpr (ordered.imp fun less => Int.ne_of_lt less)
    refine ((List.mergeSort_perm _ _).trans (List.reverse_perm _).symm).eq_of_pairwise
      (fun first second member other low high => ?_) (List.pairwise_mergeSort ?_ ?_ _)
      (List.pairwise_reverse.mpr (ordered.imp fun less => decide_eq_true (Int.le_of_lt less)))
    · refine List.inj_on_of_nodup_map once (List.mem_mergeSort.mp member)
        (List.mem_reverse.mp other) ?_
      exact Int.le_antisymm (of_decide_eq_true high) (of_decide_eq_true low)
    · intro first second third low high
      simp only [decide_eq_true_eq] at low high ⊢
      omega
    · intro first second
      simp only [Bool.or_eq_true, decide_eq_true_eq]
      omega
  rw [cutAll, sorted]

/-- The rows of an accounts file. -/
abbrev Chart := List Declaration

namespace Declaration

/-- The account that a row opens. -/
def opened? : Declaration → Option Account
  | opening date name currencies => some { name, openDate := date.iso, currencies }
  | closing _ _ => none

/-- The date on which a row closes an account. -/
def closed? (name : Text) : Declaration → Option Text
  | opening _ _ _ => none
  | closing date owner => if owner = name then some date.iso else none

end Declaration

namespace Chart

/-- The text of a chart. -/
def text (chart : Chart) : Text :=
  chart.flatMap Declaration.text

/-- All names and currencies of a chart are words of the ledger language. -/
def Lexical (chart : Chart) : Prop :=
  ∀ declaration ∈ chart, declaration.Lexical

/-- What the chart of a file says. -/
def directives (chart : Chart) (path : Text) : List Directive :=
  Declaration.directives (Source.ofText path chart.text) 0 chart

/-- The page of a chart: its directives, without errors and warnings. -/
def page (chart : Chart) (path : Text) : Page :=
  { path, directives := chart.directives path, errors := [], warnings := [] }

/-- A chart describes accounts: it opens each of them once, closes those that are closed, once, and
speaks of no other. -/
structure Describes (chart : Chart) (accounts : List Account) : Prop where
  once : (accounts.map Account.name).Nodup
  opened : chart.filterMap Declaration.opened? =
    accounts.map fun account => { account with closeDate := none }
  closed : ∀ account ∈ accounts, chart.filterMap (Declaration.closed? account.name) =
    account.closeDate.toList
  known : ∀ declaration ∈ chart, declaration.name ∈ accounts.map Account.name

variable {chart : Chart} {accounts : List Account} {name : Text}

/-- The text of a chart that has been extended is its old text followed by the text of the
extension. -/
@[simp] theorem text_append (chart more : Chart) : text (chart ++ more) = chart.text ++ text more :=
  List.flatMap_append

/-- A chart ends with a line feed if it has a row. -/
theorem lineBreakAfter_text (chart : Chart) : lineBreakAfter (text chart) = [] := by
  cases chart using List.reverseRecOn with
  | nil => rfl
  | append_singleton chart last =>
    have ended : text (chart ++ [last]) = (text chart ++ last.row) ++ ['\n'] := by
      rw [text_append, List.append_assoc]
      exact congrArg _ (List.append_nil _)
    rw [ended, lineBreakAfter, List.getLast?_concat]
    rfl

/-- A chart is read without errors and warnings. -/
theorem Lexical.read (lexical : chart.Lexical) (path : FilePath) :
    Page.read path (Text.Utf8.encode chart.text) = .ok (chart.page path.toText) := by
  have stands : chart.text.drop 0 = chart.text ++ [] := (List.append_nil _).symm
  have passage : Passage path.toText chart.text 0 chart.text (chart.directives path.toText) :=
    Declaration.passage lexical stands
  exact Page.read_eq_ok_iff.mpr ⟨(Page.ofBytes_encode _ _).trans (Page.ofText_passage passage), rfl⟩

/-- A chart says nothing of transactions. -/
theorem transactions_page (chart : Chart) (path : Text) : (chart.page path).transactions = [] :=
  Declaration.transactions_directives _ _ _

/-! ## What a chart describes -/

/-- What a directive says without its place it says as a row. -/
theorem filterMap_directives {α : Type} {said : Directive → Option α} {meant : Declaration → Option α}
    (same : ∀ source position declaration,
      said (declaration.directive source position) = meant declaration)
    (source : Source) (position : Nat) (chart : Chart) :
    (Declaration.directives source position chart).filterMap said = chart.filterMap meant := by
  induction chart generalizing position with
  | nil => rfl
  | cons declaration chart ih =>
    rw [Declaration.directives, sayings, List.singleton_append, List.filterMap_cons,
      List.filterMap_cons, same]
    cases meant declaration with
    | none => exact ih _
    | some value => exact congrArg (value :: ·) (ih _)

/-- The account that a directive opens. -/
def openedBy? : Directive → Option Account
  | .opening date name currencies _ _ => some { name, openDate := date, currencies }
  | _ => none

/-- The date on which a directive closes an account. -/
def closedBy? (name : Text) : Directive → Option Text
  | .closing date account _ _ => if account = name then some date else none
  | _ => none

/-- The accounts opened by the directives of the chart file are those the declarations open: reading
a chart back loses and adds none. -/
theorem openedBy?_directives (chart : Chart) (path : Text) :
    (chart.directives path).filterMap openedBy? = chart.filterMap Declaration.opened? :=
  filterMap_directives (fun _ _ declaration => by cases declaration <;> rfl) _ _ _

/-- The closing dates that are read back for a name are those the declarations give it. -/
theorem closedBy?_directives (chart : Chart) (path name : Text) :
    (chart.directives path).filterMap (closedBy? name) =
      chart.filterMap (Declaration.closed? name) :=
  filterMap_directives (fun _ _ declaration => by cases declaration <;> rfl) _ _ _

/-- An account is closed on the date of the first directive that closes it. -/
theorem closedOn?_eq (name : Text) (directives : List Directive) :
    closedOn? name directives = (directives.filterMap (closedBy? name)).head? :=
  List.head?_filterMap.symm

/-- An account is listed with the date of the last directive that closes it. -/
theorem lastClosing?_eq (directives : List Directive) (name : Text) :
    lastClosing? directives name = (directives.filterMap (closedBy? name)).getLast? := by
  rw [List.getLast?_eq_head?_reverse, ← List.filterMap_reverse, List.head?_filterMap]
  rfl

/-- An account is opened by a directive exactly if it is among those that directives open. -/
theorem any_opens_iff (directives : List Directive) (name : Text) :
    directives.any (Directive.opens name) = true ↔
      name ∈ (directives.filterMap openedBy?).map Account.name := by
  rw [List.any_eq_true, List.mem_map]
  constructor
  · rintro ⟨directive, member, opens⟩
    cases directive with
    | opening date account currencies dateSpan span =>
      exact ⟨_, List.mem_filterMap.mpr ⟨_, member, rfl⟩, of_decide_eq_true opens⟩
    | _ => cases opens
  · rintro ⟨account, member, rfl⟩
    obtain ⟨directive, inside, opens⟩ := List.mem_filterMap.mp member
    refine ⟨directive, inside, ?_⟩
    cases directive with
    | opening date name currencies dateSpan span =>
      cases opens
      exact decide_eq_true rfl
    | _ => cases opens

/-- Accounts with different names that are opened one after the other are all held. -/
theorem foldl_reopen {held : List Account} {accounts : List Account}
    (once : ((held ++ accounts).map Account.name).Nodup) :
    accounts.foldl reopen held = held ++ accounts := by
  induction accounts generalizing held with
  | nil => exact (List.append_nil held).symm
  | cons account accounts ih =>
    have absent : ∀ other ∈ held, other.name ≠ account.name := by
      rw [List.map_append, List.map_cons] at once
      have apart := (List.nodup_append.mp once).2.2
      exact fun other member =>
        apart _ (List.mem_map_of_mem member) _ List.mem_cons_self
    rw [List.append_cons] at once ⊢
    rw [List.foldl_cons, reopen_of_absent absent]
    exact ih once

/-- The accounts that are opened are those of the directives that open one. -/
theorem openedAccounts_eq (directives : List Directive) :
    openedAccounts directives = (directives.filterMap openedBy?).foldl reopen [] := by
  rw [List.foldl_filterMap, openedAccounts]
  congr 1
  funext accounts directive
  cases directive <;> rfl

namespace Describes

/-- The accounts that a chart describes are listed. -/
theorem accountsOf (describes : chart.Describes accounts) (path : Text) :
    Daybook.accountsOf (chart.directives path) = accounts := by
  have opened : openedAccounts (chart.directives path) =
      accounts.map fun account => { account with closeDate := none } := by
    have once : ((accounts.map fun account : Account =>
        { account with closeDate := none }).map Account.name).Nodup := by
      rw [List.map_map]
      exact describes.once
    rw [openedAccounts_eq, openedBy?_directives, describes.opened]
    exact foldl_reopen once
  rw [Daybook.accountsOf, opened, List.map_map]
  refine (List.map_congr_left fun account member => ?_).trans (List.map_id _)
  have last : account.closeDate.toList.getLast? = account.closeDate := by
    cases account.closeDate <;> rfl
  simp only [Function.comp_apply, lastClosing?_eq, closedBy?_directives,
    describes.closed account member, last, id_eq]

/-- An account is described exactly if a directive opens it. -/
theorem any_opens_iff (describes : chart.Describes accounts) (path name : Text) :
    (chart.directives path).any (Directive.opens name) = true ↔
      name ∈ accounts.map Account.name := by
  rw [Chart.any_opens_iff, openedBy?_directives, describes.opened, List.map_map]
  rfl

/-- An account is closed on the date that its row says. -/
theorem closedOn? (describes : chart.Describes accounts) (path : Text) {account : Account}
    (member : account ∈ accounts) :
    Daybook.closedOn? account.name (chart.directives path) = account.closeDate := by
  rw [closedOn?_eq, closedBy?_directives, describes.closed account member]
  cases account.closeDate <;> rfl

/-- What is not described is not closed. -/
theorem closed_of_absent (describes : chart.Describes accounts)
    (absent : name ∉ accounts.map Account.name) :
    chart.filterMap (Declaration.closed? name) = [] := by
  refine List.filterMap_eq_nil_iff.mpr fun declaration member => ?_
  cases declaration with
  | opening date owner currencies => rfl
  | closing date owner =>
    refine if_neg ?_
    rintro rfl
    exact absent (describes.known _ member)

/-- A name that is not among the described accounts is closed nowhere in the chart, since the chart
of described accounts declares no closing of any other name. -/
theorem closedOn?_of_absent (describes : chart.Describes accounts) (path : Text)
    (absent : name ∉ accounts.map Account.name) :
    Daybook.closedOn? name (chart.directives path) = none := by
  rw [closedOn?_eq, closedBy?_directives, describes.closed_of_absent absent]
  rfl

/-- The rows of a further account describe it as well. No row of the chart speaks of the name yet,
so its own rows say all that is known of it. -/
theorem add (describes : chart.Describes accounts) {account : Account}
    (absent : account.name ∉ accounts.map Account.name) (opened : Date) (closed : Option Date) :
    Describes (chart ++ account.declarations opened closed)
      (accounts ++ [account.recorded opened closed]) := by
  have others (name : Text) (other : account.name ≠ name) :
      (account.declarations opened closed).filterMap (Declaration.closed? name) = [] := by
    cases closed with
    | none => rfl
    | some date => simp [Account.declarations, Declaration.closed?, other]
  have own : (account.declarations opened closed).filterMap (Declaration.closed? account.name) =
      (closed.map Date.iso).toList := by
    cases closed with
    | none => rfl
    | some date =>
      simp only [Account.declarations, Option.map_some, Option.toList_some, Declaration.closed?,
        List.filterMap_cons, if_true, List.filterMap_nil]
  refine ⟨?_, ?_, fun held member => ?_, fun declaration member => ?_⟩
  · rw [List.map_append, List.map_singleton]
    exact List.nodup_append.mpr ⟨describes.once, List.nodup_singleton _, fun name inside other =>
      by rintro same rfl; exact absent (List.mem_singleton.mp same ▸ inside)⟩
  · rw [List.filterMap_append, describes.opened, List.map_append]
    refine congrArg _ ?_
    cases closed <;> rfl
  · rw [List.filterMap_append]
    rcases List.mem_append.mp member with before | here
    · rw [describes.closed held before, others, List.append_nil]
      rintro same
      exact absent (same ▸ List.mem_map_of_mem before)
    · obtain rfl := List.mem_singleton.mp here
      have none : chart.filterMap (Declaration.closed? account.name) = [] :=
        describes.closed_of_absent absent
      exact (congrArg (· ++ _) none).trans own
  · rw [List.map_append, List.mem_append]
    rcases List.mem_append.mp member with before | here
    · exact Or.inl (describes.known declaration before)
    · refine Or.inr (List.mem_singleton.mpr ?_)
      cases closed with
      | none =>
        obtain rfl := List.mem_singleton.mp here
        rfl
      | some date =>
        rcases List.mem_pair.mp here with rfl | rfl <;> rfl

/-- The row that closes an account that is open describes it as closed. No row closes the account
before, so the new one is the first to do so. -/
theorem close (describes : chart.Describes accounts) {account : Account}
    (member : account ∈ accounts) (open_ : account.closeDate = none) (date : Date) :
    Describes (chart ++ [.closing date account.name])
      (accounts.map fun held =>
        if held.name = account.name then { held with closeDate := some date.iso } else held) := by
  have names : (accounts.map fun held : Account =>
      if held.name = account.name then { held with closeDate := some date.iso } else held).map
        Account.name = accounts.map Account.name := by
    rw [List.map_map]
    refine List.map_congr_left fun held _ => ?_
    rw [Function.comp_apply]
    split <;> rfl
  refine ⟨names ▸ describes.once, ?_, fun held inside => ?_, fun declaration inside => ?_⟩
  · rw [List.filterMap_append, describes.opened, List.map_map]
    refine (List.append_nil _).trans (List.map_congr_left fun held _ => ?_)
    rw [Function.comp_apply]
    split <;> rfl
  · obtain ⟨old, before, rfl⟩ := List.mem_map.mp inside
    rw [List.filterMap_append]
    by_cases same : old.name = account.name
    · -- Names are different, so that there is only one account with this name.
      obtain rfl : old = account :=
        List.inj_on_of_nodup_map describes.once before member same
      rw [if_pos rfl]
      have nothing := describes.closed old member
      rw [open_] at nothing
      simp only [nothing, Declaration.closed?, List.filterMap_cons, if_true, List.filterMap_nil]
      rfl
    · rw [if_neg same, describes.closed old before]
      simp [Declaration.closed?, Ne.symm same]
  · rw [names]
    rcases List.mem_append.mp inside with before | here
    · exact describes.known declaration before
    · rw [List.mem_singleton.mp here]
      exact List.mem_map_of_mem member

/-- Without the rows of an account the others are described. What the rows say of the other names
does not depend on the rows that are left out. -/
theorem delete (describes : chart.Describes accounts) (name : Text) :
    Describes (chart.filter fun declaration => declaration.name ≠ name)
      (accounts.filter fun account => account.name ≠ name) := by
  refine ⟨?_, ?_, fun account member => ?_, fun declaration member => ?_⟩
  · exact describes.once.sublist (List.filter_sublist.map _)
  · have kept : ∀ declaration : Declaration, ∀ account, declaration.opened? = some account →
        declaration.name = account.name := by
      intro declaration account opened
      cases declaration with
      | opening date owner currencies =>
        cases opened
        rfl
      | closing date owner => cases opened
    have filtered : (chart.filter fun declaration => declaration.name ≠ name).filterMap
        Declaration.opened? = (chart.filterMap Declaration.opened?).filter
          fun account => account.name ≠ name := by
      rw [List.filterMap_filter, List.filter_filterMap]
      refine List.filterMap_congr fun declaration _ => ?_
      cases opened : declaration.opened? with
      | none => simp
      | some account => simp [kept declaration account opened, Option.filter]
    rw [filtered, describes.opened, List.filter_map]
    rfl
  · obtain ⟨inside, other⟩ := List.mem_filter.mp member
    have apart : account.name ≠ name := of_decide_eq_true other
    rw [List.filterMap_filter, ← describes.closed account inside]
    refine List.filterMap_congr fun declaration _ => ?_
    cases declaration with
    | opening date owner currencies => simp [Declaration.closed?]
    | closing date owner =>
      by_cases same : owner = account.name
      · subst same
        simp [Declaration.name, apart]
      · simp [Declaration.closed?, same]
  · obtain ⟨inside, other⟩ := List.mem_filter.mp member
    obtain ⟨account, known, same⟩ := List.mem_map.mp (describes.known declaration inside)
    exact List.mem_map.mpr ⟨account, List.mem_filter.mpr ⟨known, same ▸ other⟩, same⟩

end Describes

/-! ## Cutting rows out -/

/-- Rows behind other rows say what they say there. -/
theorem directives_append (source : Source) (position : Nat) (chart more : Chart) :
    Declaration.directives source position (chart ++ more) =
      Declaration.directives source position chart ++
        Declaration.directives source (position + (text chart).length) more := by
  induction chart generalizing position with
  | nil => rfl
  | cons declaration chart ih =>
    have size : position + declaration.text.length + (text chart).length =
        position + (text (declaration :: chart)).length := by
      rw [text, text, List.flatMap_cons, List.length_append, Nat.add_assoc]
    have behind := ih (position + declaration.text.length)
    rw [size] at behind
    exact congrArg (declaration.directive source position :: ·) behind

/-- The span of a row is that of the row alone, or there is none if it is one of another account. -/
theorem accountSpans_row (source : Source) (position : Nat) (declaration : Declaration)
    (name : Text) :
    accountSpans name (Declaration.directives source position [declaration]) =
      if declaration.name = name then
        [source.span position (position + declaration.row.length)]
      else [] := by
  cases declaration with
  | opening date owner currencies =>
    by_cases same : owner = name <;>
      simp [Declaration.directives, sayings, accountSpans, Declaration.directive,
        Directive.account?, Declaration.name, same]
  | closing date owner =>
    by_cases same : owner = name <;>
      simp [Declaration.directives, sayings, accountSpans, Declaration.directive,
        Directive.account?, Declaration.name, same]

/-- The rows of an account are cut out of a chart, the last one first. What stands behind the chart
does not matter, neither when the rows are placed nor when they are cut. -/
theorem foldlM_cutLines (path : Text) {whole rest : Text} (stands : whole = chart.text ++ rest)
    (name after : Text) :
    (accountSpans name (Declaration.directives (Source.ofText path whole) 0 chart)).reverse.foldlM
        Span.cutLines (Text.Utf8.encode (chart.text ++ after)) =
      .ok (Text.Utf8.encode
        (text (chart.filter fun declaration => declaration.name ≠ name) ++ after)) := by
  induction chart using List.reverseRecOn generalizing rest after with
  | nil => rfl
  | append_singleton chart last ih =>
    have row : text [last] = last.row ++ ['\n'] := List.append_nil _
    have parts : whole = text chart ++ (last.row ++ '\n' :: rest) := by
      rw [stands, text_append, row]
      simp
    have content : text (chart ++ [last]) ++ after =
        text chart ++ (last.row ++ '\n' :: after) := by
      rw [text_append, row]
      simp
    rw [directives_append, accountSpans, List.filterMap_append, List.reverse_append,
      ← accountSpans, ← accountSpans, accountSpans_row, Nat.zero_add, List.filter_append, content]
    by_cases same : last.name = name
    · have span : (Source.ofText path whole).span (text chart).length
          ((text chart).length + last.row.length) =
          (Source.ofText path (text chart ++ (last.row ++ '\n' :: after))).span (text chart).length
            ((text chart).length + last.row.length) := by
        rw [parts, Source.span_alike]
      rw [if_pos same, List.reverse_singleton, List.singleton_append, List.foldlM_cons, span,
        Source.cutLines_row path rfl, List.filter_cons_of_neg (by simpa using same),
        List.filter_nil, List.append_nil]
      exact ih parts after
    · rw [if_neg same, List.reverse_nil, List.nil_append,
        List.filter_cons_of_pos (by simpa using same), List.filter_nil, text_append, row,
        List.append_assoc, List.append_assoc]
      exact ih parts (last.row ++ '\n' :: after)

/-- The spans of an account follow one another. -/
theorem Lexical.pairwise_accountSpans (lexical : chart.Lexical) (path : FilePath) (name : Text) :
    (accountSpans name (chart.directives path.toText)).Pairwise fun first second =>
      first.start < second.start := by
  obtain ⟨paged, sound⟩ := Page.read_eq_ok_iff.mp (lexical.read path)
  obtain ⟨text, _, arrayed⟩ := Page.arrayed paged sound
  rw [accountSpans, List.pairwise_filterMap]
  refine arrayed.apart.imp_of_mem fun {first second} _ _ precedes span known other alsoKnown => ?_
  have firstSpan : first.span = span := by
    cases first <;> simp_all [Directive.account?, Directive.span]
  have secondSpan : second.span = other := by
    cases second <;> simp_all [Directive.account?, Directive.span]
  rw [← firstSpan, ← secondSpan]
  exact precedes.begins

/-- All rows of an account are cut out of a chart. -/
theorem Lexical.cutAll (lexical : chart.Lexical) (path : FilePath) (name : Text) :
    Daybook.cutAll (Text.Utf8.encode chart.text)
        (accountSpans name (chart.directives path.toText)) =
      .ok (Text.Utf8.encode
        (text (chart.filter fun declaration => declaration.name ≠ name))) := by
  have cut := foldlM_cutLines path.toText (List.append_nil chart.text).symm name []
  rw [List.append_nil, List.append_nil] at cut
  rw [cutAll_eq (lexical.pairwise_accountSpans path name)]
  exact cut

/-- The rows of a chart name the accounts that it describes. -/
theorem Describes.mem_names_iff (describes : chart.Describes accounts) :
    name ∈ chart.map Declaration.name ↔ name ∈ accounts.map Account.name := by
  constructor
  · rintro member
    obtain ⟨declaration, inside, rfl⟩ := List.mem_map.mp member
    exact describes.known declaration inside
  · intro member
    obtain ⟨account, inside, rfl⟩ := List.mem_map.mp member
    have opened : { account with closeDate := none } ∈ chart.filterMap Declaration.opened? := by
      rw [describes.opened]
      exact List.mem_map_of_mem inside
    obtain ⟨declaration, row, opens⟩ := List.mem_filterMap.mp opened
    refine List.mem_map.mpr ⟨declaration, row, ?_⟩
    cases declaration with
    | opening date owner currencies =>
      exact congrArg Account.name (Option.some.inj opens)
    | closing date owner => cases opens

/-- An account has no rows exactly if it is not described. -/
theorem Describes.accountSpans_eq_nil_iff (describes : chart.Describes accounts)
    (path name : Text) :
    accountSpans name (chart.directives path) = [] ↔ name ∉ accounts.map Account.name := by
  have named : (chart.directives path).filterMap (fun directive => directive.account?.map Prod.fst) =
      chart.filterMap (fun declaration => some declaration.name) :=
    filterMap_directives (fun _ _ declaration => by cases declaration <;> rfl) _ _ _
  rw [List.filterMap_eq_map'] at named
  rw [Daybook.accountSpans_eq_nil_iff, ← describes.mem_names_iff, ← named, List.mem_filterMap]
  constructor
  · rintro unspoken ⟨directive, member, named⟩
    obtain ⟨⟨owner, span⟩, known, rfl⟩ := Option.map_eq_some_iff.mp named
    exact unspoken directive member span known
  · intro silent directive member span known
    exact silent ⟨directive, member, by rw [known]; rfl⟩

end Chart

end Daybook
