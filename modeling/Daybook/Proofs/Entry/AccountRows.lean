import Daybook.Proofs.Entry.Rows
import Daybook.Proofs.Page.FurtherLines
import Daybook.Proofs.Statement.Amounts

/-!
# The rows of accounts

An account is written as a row that opens it and, if it is closed, a row that closes it. A row is
read back as exactly the directive it was written for, wherever it stands, if its account and its
currencies are words of the ledger language. So rows one after the other are a passage.

Writing asks for less: a name and a currency only have to be free of blanks there.
-/
namespace Daybook

open Lexeme Statement

/-- What a row of the accounts file says. -/
inductive Declaration where
  | opening (date : Date) (name : Text) (currencies : List Text)
  | closing (date : Date) (name : Text)
  deriving DecidableEq

/-- Currencies with commas between them, after a space. -/
def currencyColumn : List Text → Text
  | [] => []
  | first :: others => ' ' :: (first ++ others.flatMap fun currency => ',' :: currency)

namespace Declaration

/-- The account that is opened or closed. -/
def name : Declaration → Text
  | opening _ name _ => name
  | closing _ name => name

/-- The day of the opening or the closing. -/
def date : Declaration → Date
  | opening date _ _ => date
  | closing date _ => date

/-- The currencies of the account. A closing names none. -/
def currencies : Declaration → List Text
  | opening _ _ currencies => currencies
  | closing _ _ => []

/-- The word that says what is declared. -/
def keyword : Declaration → Text
  | opening _ _ _ => "open"
  | closing _ _ => "close"

/-- The row behind its date. -/
def columns (declaration : Declaration) : Text :=
  declaration.keyword ++ ' ' :: (declaration.name ++ currencyColumn declaration.currencies)

/-- The row of a declaration. -/
def row (declaration : Declaration) : Text :=
  declaration.date.iso ++ ' ' :: declaration.columns

/-- The row with its line end. -/
def text (declaration : Declaration) : Text :=
  declaration.row ++ ['\n']

/-- The account and the currencies are words of the ledger language. -/
structure Lexical (declaration : Declaration) : Prop where
  account : IsWord .account declaration.name
  currencies : ∀ currency ∈ declaration.currencies, IsWord .currency currency

instance (declaration : Declaration) : Decidable declaration.Lexical :=
  decidable_of_iff (IsWord .account declaration.name ∧
    ∀ currency ∈ declaration.currencies, IsWord .currency currency)
    ⟨fun ⟨account, currencies⟩ => ⟨account, currencies⟩,
      fun lexical => ⟨lexical.account, lexical.currencies⟩⟩

/-- The directive of a row that stands at a position. -/
def directive (source : Source) (position : Nat) (declaration : Declaration) : Directive :=
  let dateSpan := source.span position (position + declaration.date.iso.length)
  let span := source.span position (position + declaration.row.length)
  match declaration with
  | opening date name currencies => .opening date.iso name currencies dateSpan span
  | closing date name => .closing date.iso name dateSpan span

end Declaration

/-! ## Writing -/

/-- The rows of an account that is opened on one day and perhaps closed on another. -/
def Account.declarations (account : Account) (opened : Date) (closed : Option Date) :
    List Declaration :=
  .opening opened account.name account.currencies ::
    (closed.map fun date => Declaration.closing date account.name).toList

/-- Joined currencies are a column. -/
theorem columns_of_currencies (currencies : List Text) :
    (if currencies = [] then [] else [List.intercalate [','] currencies]).flatMap
      (fun item => ' ' :: item) = currencyColumn currencies := by
  cases currencies with
  | nil => rfl
  | cons first others =>
    rw [if_neg (List.cons_ne_nil _ _), intercalate_cons]
    simp [currencyColumn]

/-- A closing is written exactly if its date is a date. -/
theorem closingText_eq_ok_iff {name written text : Text} : closingText name written = .ok text ↔
    ∃ date, Date.read written = .ok date ∧ text = (Declaration.closing date name).row := by
  have shape (date : Date) : date.iso ++ " close ".toList ++ name =
      (Declaration.closing date name).row := by
    rw [List.append_assoc, Declaration.row, Declaration.columns, Declaration.currencies,
      currencyColumn, List.append_nil]
    rfl
  unfold closingText
  rw [bind_eq_ok_iff]
  refine exists_congr fun date => and_congr_right fun _ => ?_
  rw [← shape]
  constructor
  · intro same
    cases same
    rfl
  · rintro rfl
    rfl

/-- An account is written exactly if its dates are dates and its words pass for words. Each bind of
the writer is opened once, and the words that are checked are the ones the row is made of. -/
theorem Account.toText_eq_ok_iff {account : Account} {text : Text} :
    account.toText = .ok text ↔
      IsSolid account.name ∧ (∀ currency ∈ account.currencies, IsSolid currency) ∧
      ∃ opened closed, Date.read account.openDate = .ok opened ∧
        account.closeDate.mapM Date.read = .ok closed ∧
        text = (account.declarations opened closed).flatMap Declaration.text := by
  have opening (date : Date) : List.intercalate [' '] ([date.iso, "open", account.name] ++
      if account.currencies = [] then [] else [List.intercalate [','] account.currencies]) =
      (Declaration.opening date account.name account.currencies).row := by
    have column := columns_of_currencies account.currencies
    rw [List.cons_append, intercalate_cons, List.cons_append, List.cons_append, List.flatMap_cons,
      List.flatMap_cons, List.nil_append, Declaration.row, Declaration.columns,
      Declaration.currencies, ← column, List.append_assoc]
    rfl
  unfold Account.toText
  constructor
  · intro written
    obtain ⟨_, name, written⟩ := bind_eq_ok_iff.mp written
    obtain ⟨opened, readOpened, written⟩ := bind_eq_ok_iff.mp written
    obtain ⟨_, currencies, written⟩ := bind_eq_ok_iff.mp written
    refine ⟨checkWord_eq_ok_iff.mp name, fun currency member =>
      checkWord_eq_ok_iff.mp (forM_eq_ok_iff.mp currencies currency member), ?_⟩
    dsimp only at written
    rw [opening] at written
    cases closeDate : account.closeDate with
    | none =>
      rw [closeDate] at written
      cases written
      exact ⟨opened, none, readOpened, rfl, rfl⟩
    | some date =>
      rw [closeDate] at written
      obtain ⟨row, closes, kept⟩ := bind_eq_ok_iff.mp written
      cases kept
      obtain ⟨closed, readClosed, rfl⟩ := closingText_eq_ok_iff.mp closes
      refine ⟨opened, some closed, readOpened, ?_, rfl⟩
      exact map_eq_ok_iff.mpr ⟨closed, readClosed, rfl⟩
  · rintro ⟨name, currencies, opened, closed, readOpened, readClosed, rfl⟩
    refine bind_eq_ok_iff.mpr ⟨(), checkWord_eq_ok_iff.mpr name, ?_⟩
    refine bind_eq_ok_iff.mpr ⟨opened, readOpened, ?_⟩
    refine bind_eq_ok_iff.mpr ⟨(), forM_eq_ok_iff.mpr fun currency member =>
      checkWord_eq_ok_iff.mpr (currencies currency member), ?_⟩
    dsimp only
    rw [opening]
    cases closeDate : account.closeDate with
    | none =>
      rw [closeDate] at readClosed
      cases readClosed
      rfl
    | some date =>
      rw [closeDate] at readClosed
      obtain ⟨day, readDay, rfl⟩ := map_eq_ok_iff.mp readClosed
      exact bind_eq_ok_iff.mpr ⟨_, closingText_eq_ok_iff.mpr ⟨day, readDay, rfl⟩, rfl⟩

/-! ## Reading back -/

namespace Lexeme

/-- The word of an opening is found after its date. -/
theorem begins_open (position : Nat) (rest : Text) :
    Begins .heading position ("open" ++ ' ' :: rest) ⟨.openWord, position, "open"⟩
      (' ' :: rest) :=
  ⟨rfl, rfl, ⟨'o', ['p', 'e', 'n'], rfl, rfl⟩, .openWord, rfl, rfl⟩

/-- The word of a closing is found after its date. -/
theorem begins_close (position : Nat) (rest : Text) :
    Begins .heading position ("close" ++ ' ' :: rest) ⟨.closeWord, position, "close"⟩
      (' ' :: rest) :=
  ⟨rfl, rfl, ⟨'c', ['l', 'o', 's', 'e'], rfl, rfl⟩, .closeWord, rfl, rfl⟩

/-- A comma is found after a currency of an opening. -/
theorem begins_comma (position : Nat) (rest : Text) :
    Begins .nextCurrency position (',' :: rest) ⟨.comma, position, [',']⟩ rest :=
  ⟨rfl, rfl, ⟨',', [], rfl, rfl⟩, .comma, rfl, rfl⟩

/-- An account is found where only an account may stand. -/
theorem begins_accountOnly {account rest : Text} (word : IsWord .account account)
    (ended : WordOver rest) (position : Nat) :
    Begins .accountOnly position (account ++ rest) ⟨.account, position, account⟩ rest := by
  obtain ⟨c, inner, rfl, _, space⟩ := word.account_cons
  refine ⟨rfl, rfl, ⟨c, inner, rfl, space⟩, .account, ?_, rfl⟩
  exact first?_cons_of_some (word.append rfl rfl ended) (by simp)

/-- A currency is found where one is asked for, if a comma or a line feed follows it. -/
theorem begins_currency {currency rest : Text} (word : IsWord .currency currency) {c : Char}
    (ended : c = ',' ∨ c = '\n') {expected : Expected}
    (asked : expected = .firstCurrency ∨ expected = .currencyOnly) (position : Nat) :
    Begins expected position (currency ++ c :: rest) ⟨.currency, position, currency⟩
      (c :: rest) := by
  obtain ⟨first, inner, rfl, capital, _⟩ := word.currency_cons
  rw [isCapital_iff] at capital
  refine ⟨rfl, rfl, ⟨first, inner, rfl, isSpace_of_visible (by omega)⟩, .currency, ?_, rfl⟩
  have found : Terminal.currency.length? (first :: inner ++ c :: rest) =
      some (first :: inner).length := by
    have alone : currencyLength (first :: inner ++ c :: rest) = currencyLength (first :: inner) := by
      rcases ended with rfl | rfl
      · exact currencyLength_append rest (by decide) (by decide)
      · exact currencyLength_append rest (by decide) (by decide)
    exact alone.trans word
  rcases asked with rfl | rfl
  · exact first?_cons_of_some found (by simp)
  · exact first?_cons_of_some found (by simp)

end Lexeme

namespace Statement

variable {position : Nat}

/-- A currency of an opening is over where the next one or the next line begins. -/
theorem furtherCurrencies_ended (others : List Text) (rest : Text) : ∃ c tail,
    (others.flatMap fun currency => ',' :: currency) ++ '\n' :: rest = c :: tail ∧
      (c = ',' ∨ c = '\n') := by
  cases others with
  | nil => exact ⟨'\n', rest, rfl, Or.inr rfl⟩
  | cons second others => exact ⟨',', _, rfl, Or.inl rfl⟩

/-- Further currencies with commas before them are read back. The induction is on the currencies
that are left, with those already read collected in the statement. -/
theorem reading_furtherCurrencies {others : List Text}
    (words : ∀ currency ∈ others, IsWord .currency currency) (date owner : Token)
    (known : List Token) (position : Nat) :
    ∃ tokens, tokens.map Token.text = others ∧ ∀ rest more,
      Reading .lineStart
        (position + (others.flatMap fun currency => ',' :: currency).length + 1) rest more →
      Reading (.nextCurrency date owner known position) position
        ((others.flatMap fun currency => ',' :: currency) ++ '\n' :: rest)
        ({ statement := .opening date owner (known ++ tokens)
            (position + (others.flatMap fun currency => ',' :: currency).length) } :: more) := by
  induction others generalizing known position with
  | nil =>
    refine ⟨[], rfl, fun rest more further => ?_⟩
    rw [List.append_nil]
    exact .feed rfl further
  | cons currency others ih =>
    obtain ⟨word, words⟩ := List.forall_mem_cons.mp words
    let comma : Token := ⟨.comma, position, [',']⟩
    let token : Token := ⟨.currency, position + 1, currency⟩
    obtain ⟨tokens, spelled, read⟩ := ih words (known ++ [token]) token.stop
    refine ⟨token :: tokens, by simp [spelled, token], fun rest more further => ?_⟩
    have size : token.stop + (others.flatMap fun currency => ',' :: currency).length = position +
        ((currency :: others).flatMap fun currency => ',' :: currency).length := by
      simp only [token, Token.stop, List.flatMap_cons, List.length_append, List.length_cons]
      omega
    rw [← size] at further ⊢
    have behind := read rest more further
    rw [List.append_assoc, List.singleton_append] at behind
    obtain ⟨c, tail, next, ended⟩ := furtherCurrencies_ended others rest
    have whole : ((currency :: others).flatMap fun currency => ',' :: currency) ++ '\n' :: rest =
        ',' :: (currency ++ c :: tail) := by
      rw [← next]
      simp
    rw [next] at behind
    have begins : Begins (Place.currency (.opening date owner known)).expected comma.stop
        (currency ++ c :: tail) token (c :: tail) :=
      begins_currency word ended (Or.inr rfl) (position + 1)
    rw [whole]
    exact .token (begins_comma position (currency ++ c :: tail)) rfl rfl
      (.token begins rfl rfl behind)

/-- The currencies of an opening are read back behind its account. Without currencies the line ends
at once; else the first one is read and the further ones follow it. -/
theorem reading_currencyColumn {currencies : List Text}
    (words : ∀ currency ∈ currencies, IsWord .currency currency) (date owner : Token) :
    ∃ tokens, tokens.map Token.text = currencies ∧ ∀ rest more,
      Reading .lineStart (owner.stop + (currencyColumn currencies).length + 1) rest more →
      Reading (.firstCurrency date owner) owner.stop (currencyColumn currencies ++ '\n' :: rest)
        ({ statement := .opening date owner tokens
            (owner.stop + (currencyColumn currencies).length) } :: more) := by
  cases currencies with
  | nil =>
    refine ⟨[], rfl, fun rest more further => ?_⟩
    exact .feed rfl further
  | cons currency others =>
    obtain ⟨word, words⟩ := List.forall_mem_cons.mp words
    let token : Token := ⟨.currency, owner.stop + 1, currency⟩
    obtain ⟨tokens, spelled, read⟩ :=
      reading_furtherCurrencies words date owner [token] token.stop
    refine ⟨token :: tokens, by simp [spelled, token], fun rest more further => ?_⟩
    have size : token.stop + (others.flatMap fun currency => ',' :: currency).length =
        owner.stop + (currencyColumn (currency :: others)).length := by
      simp only [token, Token.stop, currencyColumn, List.length_append, List.length_cons]
      omega
    rw [← size] at further ⊢
    have behind := read rest more further
    obtain ⟨c, tail, next, ended⟩ := furtherCurrencies_ended others rest
    have whole : currencyColumn (currency :: others) ++ '\n' :: rest =
        ' ' :: (currency ++ c :: tail) := by
      rw [← next]
      simp [currencyColumn]
    rw [next] at behind
    have begins : Begins (Place.firstCurrency date owner).expected (owner.stop + 1)
        (currency ++ c :: tail) token (c :: tail) :=
      begins_currency word ended (Or.inl rfl) (owner.stop + 1)
    rw [whole]
    exact .space rfl (.token begins rfl rfl behind)

/-- A row is read back from behind its date. The sort of the row decides the keyword; behind the
account an opening still has its currencies, a closing only the end of its line. -/
theorem reading_columns {declaration : Declaration} (lexical : declaration.Lexical)
    (date : Token) (spelled : date.text = declaration.date.iso) : ∃ line : Line,
    Progress.Closes line ∧
    (∀ rest more,
      Reading .lineStart (date.start + declaration.row.length + 1) rest more →
      Reading (.dated date) date.stop (' ' :: (declaration.columns ++ '\n' :: rest))
        (line :: more)) ∧
    ∀ source included, collectFrom source .nothing included [line] =
      .ok ⟨[declaration.directive source date.start], []⟩ := by
  have stop : date.stop = date.start + declaration.date.iso.length := by rw [Token.stop, spelled]
  let owner : Token :=
    ⟨.account, date.stop + 1 + declaration.keyword.length + 1, declaration.name⟩
  have size : owner.stop + (currencyColumn declaration.currencies).length =
      date.start + declaration.row.length := by
    simp only [Declaration.row, Declaration.columns, owner, Token.stop, spelled,
      List.length_append, List.length_cons]
    omega
  have ended (rest : Text) :
      WordOver (currencyColumn declaration.currencies ++ '\n' :: rest) := by
    cases declaration.currencies with
    | nil => exact ⟨'\n', rest, rfl, Or.inr rfl⟩
    | cons first others => exact ⟨' ', _, rfl, Or.inl rfl⟩
  have begins (rest : Text) := begins_accountOnly lexical.account (ended rest)
    (date.stop + 1 + declaration.keyword.length + 1)
  have whole (rest : Text) : declaration.columns ++ '\n' :: rest = declaration.keyword ++
      ' ' :: (declaration.name ++ (currencyColumn declaration.currencies ++ '\n' :: rest)) := by
    simp [Declaration.columns]
  cases declaration with
  | opening day name currencies =>
    have words : ∀ currency ∈ currencies, IsWord .currency currency := lexical.currencies
    obtain ⟨tokens, same, read⟩ := reading_currencyColumn words date owner
    let line : Line := { statement := .opening date owner tokens
                           (date.start + (Declaration.opening day name currencies).row.length) }
    refine ⟨line, trivial, fun rest more further => ?_, fun source included => ?_⟩
    · rw [← size] at further
      have behind := read rest more further
      have placed : owner.stop + (currencyColumn currencies).length =
          date.start + (Declaration.opening day name currencies).row.length := size
      rw [placed] at behind
      rw [whole]
      exact .space rfl (.token (begins_open (date.stop + 1) _) rfl rfl
        (.space rfl (.token (begins rest) rfl rfl behind)))
    · have made : collectFrom source .nothing included [line] = .ok ⟨[.opening date.text name
          (tokens.map Token.text) (source.tokenSpan date) (source.span date.start
            (date.start + (Declaration.opening day name currencies).row.length))], []⟩ := rfl
      rw [made, same, Source.tokenSpan, stop, spelled]
      rfl
  | closing day name =>
    let line : Line := { statement := .closing date owner }
    have placed : owner.stop = date.start + (Declaration.closing day name).row.length := size
    refine ⟨line, trivial, fun rest more further => ?_, fun source included => ?_⟩
    · rw [← placed] at further
      have behind : Reading (.ended (.closing date owner)) owner.stop ('\n' :: rest)
          (line :: more) := .feed rfl further
      rw [whole]
      exact .space rfl (.token (begins_close (date.stop + 1) _) rfl rfl
        (.space rfl (.token (begins rest) rfl rfl behind)))
    · have made : collectFrom source .nothing included [line] = .ok ⟨[.closing date.text name
          (source.tokenSpan date) (source.span date.start owner.stop)], []⟩ := rfl
      rw [made, placed, Source.tokenSpan, stop, spelled]
      rfl

end Statement

/-- A row is read back as the directive it was written for. -/
theorem Declaration.Lexical.passage {declaration : Declaration} (lexical : declaration.Lexical)
    (path whole : Text) (position : Nat) : Passage path whole position declaration.text
      [declaration.directive (Source.ofText path whole) position] := by
  obtain ⟨line, closes, read, collected⟩ :=
    reading_columns lexical ⟨.date, position, declaration.date.iso⟩ rfl
  refine ⟨[line], Or.inr closes, fun rest more further => ?_, collected _⟩
  have size : position + declaration.text.length = position + declaration.row.length + 1 := by
    simp [Declaration.text, Nat.add_assoc]
  rw [size] at further
  have begins : Begins Place.lineStart.expected position
      (declaration.date.iso ++ ' ' :: (declaration.columns ++ '\n' :: rest))
      ⟨.date, position, declaration.date.iso⟩ (' ' :: (declaration.columns ++ '\n' :: rest)) :=
    begins_date declaration.date ⟨' ', _, rfl, Or.inl rfl⟩ position
  have row : declaration.text ++ rest =
      declaration.date.iso ++ ' ' :: (declaration.columns ++ '\n' :: rest) := by
    simp [Declaration.text, Declaration.row]
  rw [row]
  exact .token begins rfl rfl (read rest more further)

end Daybook
