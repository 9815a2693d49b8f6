import Daybook.Editing
import Daybook.Listing
import Daybook.Proofs.Page.Spans
import Daybook.Proofs.Statement.Tokens

/-!
# The accounts that directives describe

What a file says of accounts is made of words of the ledger language, because nothing else is
read as an account or a currency. Every account that is listed was opened by a directive, and
directives for an account that no other directive speaks of describe one account more.
-/
namespace Daybook

open Lexeme Statement

/-! ## Words -/

/-- The account and the currencies that a statement declares are words of the ledger language. -/
def Statement.Named : Statement → Prop
  | .opening _ account currencies _ => IsWord .account account.text ∧
      ∀ currency ∈ currencies, IsWord .currency currency.text
  | .closing _ account => IsWord .account account.text
  | _ => True

/-- The account and the currencies of a directive are words of the ledger language. -/
def Directive.Named : Directive → Prop
  | .opening _ account currencies _ _ => IsWord .account account ∧
      ∀ currency ∈ currencies, IsWord .currency currency
  | .closing _ account _ _ => IsWord .account account
  | _ => True

/-- The account and the currencies of what is open are words of the ledger language. -/
def Pending.Named : Pending → Prop
  | .account make _ => ∀ span, (make span).Named
  | _ => True

/-- A line that stands in a text declares what stands there, and that is read as words only. -/
theorem Line.Standing.named {text : Text} {start stop : Nat} {line : Line}
    (standing : line.Standing text start stop) (worded : line.statement.Worded text) :
    line.statement.Named := by
  cases statement : line.statement with
  | opening date account currencies last =>
    rw [statement] at worded
    have stands := (standing.extent _ (by rw [statement]; rfl)).tokens
    have spelled := worded.account ▸ (stands account (by simp)).1.isWord (Or.inl worded.account)
    refine ⟨spelled, fun currency member => ?_⟩
    have sort := worded.currencies currency member
    exact sort ▸ (stands currency (by simp [member])).1.isWord (Or.inr (Or.inl sort))
  | closing date account =>
    rw [statement] at worded
    have stands := (standing.extent _ (by rw [statement]; rfl)).tokens
    have spelled := worded.account ▸ (stands account (by simp)).1.isWord (Or.inl worded.account)
    exact spelled
  | _ => trivial

namespace Pending

variable {pending : Pending}

/-- A closed directive names what it named while it was open. -/
theorem Named.finish (named : pending.Named) {source : Source} {closed : List Directive}
    (finished : pending.finish source = .ok closed) : ∀ directive ∈ closed, directive.Named := by
  cases pending with
  | nothing =>
    cases finished
    simp
  | other =>
    cases finished
    simp
  | account make span =>
    cases finished
    intro directive member
    rw [List.mem_singleton.mp member]
    exact named span
  | transaction heading postings stop =>
    obtain ⟨flag, _, rfl⟩ := finish_transaction_iff.mp finished
    intro directive member
    rw [List.mem_singleton.mp member]
    trivial

/-- Extending the pending directive over one more line changes its span only, so its account keeps
the name it was opened under. -/
theorem Named.extend (named : pending.Named) (stop : Int) : (pending.extend stop).Named := by
  cases pending with
  | account make span => exact named
  | _ => trivial

end Pending

namespace Progress

variable {source : Source} {progress next : Progress} {line : Line} {first : Collected}

/-- One line more leaves words, both in what is closed and in what is open then. Only openings and
closings bring a name in, and it is the text of an account token, which is a word; every other line
leaves what is open as it is or closes it. -/
theorem named_advance (named : progress.pending.Named) (line_named : line.statement.Named)
    (advanced : progress.advance source line = .ok (next, first)) :
    next.pending.Named ∧ ∀ directive ∈ first.directives, directive.Named := by
  obtain ⟨pending, included⟩ := progress
  have opened {fresh : Pending}
      (closing : (pending.finish source).map (fun closed =>
        ((⟨fresh, included⟩ : Progress), (⟨closed, []⟩ : Collected))) = .ok (next, first))
      (words : fresh.Named) :
      next.pending.Named ∧ ∀ directive ∈ first.directives, directive.Named := by
    obtain ⟨closed, finished, same⟩ := map_eq_ok_iff.mp closing
    cases same
    exact ⟨words, named.finish finished⟩
  unfold advance at advanced
  cases statement : line.statement with
  | remark =>
    simp only [statement] at advanced
    cases advanced
    exact ⟨named, by simp [Collected.nothing]⟩
  | transaction heading =>
    simp only [statement] at advanced
    exact opened advanced trivial
  | opening date account currencies stop =>
    simp only [statement] at advanced
    rw [statement] at line_named
    refine opened advanced fun span => ⟨line_named.1, fun currency member => ?_⟩
    obtain ⟨token, known, rfl⟩ := List.mem_map.mp member
    exact line_named.2 token known
  | closing date account =>
    simp only [statement] at advanced
    rw [statement] at line_named
    exact opened advanced fun span => line_named
  | otherDated =>
    simp only [statement] at advanced
    exact opened advanced trivial
  | otherUndated =>
    simp only [statement] at advanced
    exact opened advanced trivial
  | posting posting =>
    simp only [statement] at advanced
    split at advanced
    · cases advanced
      exact ⟨trivial, by simp [Collected.nothing]⟩
    · cases advanced
      exact ⟨named, by simp⟩
  | metadata key stop =>
    simp only [statement] at advanced
    split at advanced
    · cases advanced
      exact ⟨named, by simp⟩
    · cases advanced
      exact ⟨named.extend _, by simp [Collected.nothing]⟩
  | inclusion token =>
    simp only [statement] at advanced
    obtain ⟨closed, finished, same⟩ := map_eq_ok_iff.mp advanced
    cases same
    refine ⟨trivial, fun directive member => ?_⟩
    rcases List.mem_append.mp member with before | own
    · exact named.finish finished directive before
    · rw [List.mem_singleton.mp own]
      trivial

/-- All lines together leave words. -/
theorem named_collectFrom {lines : List Line} {collected : Collected}
    (named : progress.pending.Named) (each : ∀ line ∈ lines, line.statement.Named)
    (whole : collectFrom source progress.pending progress.included lines = .ok collected) :
    ∀ directive ∈ collected.directives, directive.Named := by
  induction lines generalizing progress collected with
  | nil =>
    obtain ⟨closed, finished, same⟩ := bind_eq_ok_iff.mp whole
    cases same
    exact named.finish finished
  | cons line lines ih =>
    obtain ⟨next, first, others, advanced, further, rfl⟩ :=
      (collectFrom_cons_iff progress).mp whole
    obtain ⟨here, later⟩ := List.forall_mem_cons.mp each
    obtain ⟨still, yielded⟩ := named_advance named here advanced
    intro directive member
    rcases List.mem_append.mp member with before | behind
    · exact yielded directive before
    · exact ih still later further directive behind

end Progress

/-- The directives of a page without errors name words of the ledger language. -/
theorem Page.named {path text : Text} {page : Page} (paged : ofText path text = .ok page)
    (sound : page.errors = []) : ∀ directive ∈ page.directives, directive.Named := by
  intro directive member
  have something : page.directives ≠ [] := List.ne_nil_of_mem member
  obtain ⟨lines, collected, reading, whole, rfl⟩ := reading_of_ofText paged sound something
  refine @Progress.named_collectFrom _ ⟨.nothing, []⟩ _ _ trivial ?_ whole directive member
  intro line inside
  obtain ⟨start, stop, _, _, _, standing⟩ :=
    reading.laid_whole.each line inside
  exact standing.named (reading.worded_whole line inside)

/-! ## Listing -/

section Accounts

variable {directives : List Directive}

/-- An account that is not held yet is added behind the others. -/
theorem reopen_of_absent {accounts : List Account} {account : Account}
    (absent : ∀ held ∈ accounts, held.name ≠ account.name) :
    reopen accounts account = accounts ++ [account] := by
  have unheld : (accounts.any fun held => decide (held.name = account.name)) = false := by
    simpa using absent
  rw [reopen, unheld]
  rfl

/-- Every account that is held after one more opening was held before or is the one opened. -/
theorem mem_reopen {accounts : List Account} {account held : Account}
    (member : held ∈ reopen accounts account) : held ∈ accounts ∨ held = account := by
  unfold reopen at member
  split at member
  · obtain ⟨old, inside, same⟩ := List.mem_map.mp member
    split at same
    · exact Or.inr same.symm
    · exact Or.inl (same ▸ inside)
  · rcases List.mem_append.mp member with before | own
    · exact Or.inl before
    · exact Or.inr (List.mem_singleton.mp own)

/-- The account that a directive opens is added to the others. -/
theorem openedAccounts_opening (date name : Text) (currencies : List Text) (dateSpan span : Span) :
    openedAccounts (directives ++ [.opening date name currencies dateSpan span]) =
      reopen (openedAccounts directives) { name, openDate := date, currencies } := by
  rw [openedAccounts, List.foldl_append]
  rfl

/-- A closing opens nothing. -/
theorem openedAccounts_closing (date name : Text) (dateSpan span : Span) :
    openedAccounts (directives ++ [.closing date name dateSpan span]) =
      openedAccounts directives := by
  rw [openedAccounts, List.foldl_append]
  rfl

/-- Every account was opened by a directive. By induction from the last directive on, because an
account that is opened again takes the place of the earlier one and has the date of the later
directive. -/
theorem exists_opening {account : Account} (member : account ∈ openedAccounts directives) :
    ∃ dateSpan span, Directive.opening account.openDate account.name account.currencies dateSpan
      span ∈ directives ∧ account.closeDate = none := by
  induction directives using List.reverseRecOn with
  | nil => cases member
  | append_singleton directives last ih =>
    have earlier (before : account ∈ openedAccounts directives) : ∃ dateSpan span,
        Directive.opening account.openDate account.name account.currencies dateSpan span ∈
          directives ++ [last] ∧ account.closeDate = none := by
      obtain ⟨dateSpan, span, inside, none⟩ := ih before
      exact ⟨dateSpan, span, List.mem_append_left _ inside, none⟩
    cases last with
    | opening date name currencies dateSpan span =>
      rw [openedAccounts_opening] at member
      rcases mem_reopen member with before | rfl
      · exact earlier before
      · exact ⟨dateSpan, span, by simp, rfl⟩
    | closing date name dateSpan span =>
      rw [openedAccounts_closing] at member
      exact earlier member
    | _ =>
      rw [openedAccounts, List.foldl_append] at member
      exact earlier member

/-- A further closing is the last one of its account and changes no other. -/
theorem lastClosing?_closing (date owner name : Text) (dateSpan span : Span) :
    lastClosing? (directives ++ [.closing date owner dateSpan span]) name =
      if owner = name then some date else lastClosing? directives name := by
  rw [lastClosing?, List.reverse_concat, List.findSome?_cons]
  by_cases same : owner = name
  · simp only [same, if_true]
  · simp only [same, if_false]
    rfl

/-- An opening closes nothing. -/
theorem lastClosing?_opening (date owner name : Text) (currencies : List Text)
    (dateSpan span : Span) :
    lastClosing? (directives ++ [.opening date owner currencies dateSpan span]) name =
      lastClosing? directives name := by
  rw [lastClosing?, List.reverse_concat, List.findSome?_cons]
  rfl

/-- What no directive closes has no date of closing. -/
theorem lastClosing?_of_unspoken {name : Text}
    (unspoken : ∀ directive ∈ directives, ∀ span, directive.account? ≠ some (name, span)) :
    lastClosing? directives name = none := by
  refine List.findSome?_eq_none_iff.mpr fun directive member => ?_
  have apart := unspoken directive (List.mem_reverse.mp member)
  cases directive with
  | closing date account dateSpan span =>
    simp only [ite_eq_right_iff, reduceCtorEq, imp_false]
    rintro rfl
    exact apart span rfl
  | _ => rfl

/-- The spans of an account are none exactly if no directive speaks of it. -/
theorem accountSpans_eq_nil_iff {name : Text} : accountSpans name directives = [] ↔
    ∀ directive ∈ directives, ∀ span, directive.account? ≠ some (name, span) := by
  rw [accountSpans, List.filterMap_eq_nil_iff]
  refine forall_congr' fun directive => imp_congr_right fun _ => ?_
  cases directive.account? with
  | none => simp
  | some declared =>
    obtain ⟨account, span⟩ := declared
    by_cases same : account = name
    · simp [same]
    · simp [same]

/-- No account has a name that no directive speaks of. -/
theorem name_ne_of_unspoken {name : Text}
    (unspoken : ∀ directive ∈ directives, ∀ span, directive.account? ≠ some (name, span)) :
    ∀ held ∈ openedAccounts directives, held.name ≠ name := by
  rintro held member rfl
  obtain ⟨dateSpan, span, inside, _⟩ := exists_opening member
  exact unspoken _ inside span rfl

/-- The opening of an account that nothing speaks of describes one account more. -/
theorem accountsOf_opening {date name : Text} {currencies : List Text} {dateSpan span : Span}
    (unspoken : ∀ directive ∈ directives, ∀ span, directive.account? ≠ some (name, span)) :
    accountsOf (directives ++ [.opening date name currencies dateSpan span]) =
      accountsOf directives ++ [{ name, openDate := date, currencies }] := by
  rw [accountsOf, openedAccounts_opening, reopen_of_absent (name_ne_of_unspoken unspoken),
    List.map_append, accountsOf]
  refine congrArg₂ (· ++ ·) ?_ ?_
  · exact List.map_congr_left fun held _ => by rw [lastClosing?_opening]
  · rw [List.map_singleton, lastClosing?_opening, lastClosing?_of_unspoken unspoken]

/-- The opening and the closing of an account that nothing speaks of describe one account
more. -/
theorem accountsOf_opening_closing {date close name : Text} {currencies : List Text}
    {dateSpan span closeSpan last : Span}
    (unspoken : ∀ directive ∈ directives, ∀ span, directive.account? ≠ some (name, span)) :
    accountsOf (directives ++ [.opening date name currencies dateSpan span,
        .closing close name closeSpan last]) =
      accountsOf directives ++ [{ name, openDate := date, currencies, closeDate := close }] := by
  rw [← List.singleton_append, ← List.append_assoc, accountsOf, openedAccounts_closing,
    openedAccounts_opening, reopen_of_absent (name_ne_of_unspoken unspoken), List.map_append,
    accountsOf]
  refine congrArg₂ (· ++ ·) ?_ ?_
  · refine List.map_congr_left fun held member => ?_
    rw [lastClosing?_closing, if_neg (name_ne_of_unspoken unspoken held member).symm,
      lastClosing?_opening]
  · rw [List.map_singleton, lastClosing?_closing, if_pos rfl]

end Accounts

end Daybook
