import Daybook.Proofs.Command.Calling

/-!
# What the options of a command ask for

A command that is accepted asks for one operation. The record that the operation works on is built
from the options: each holds the last value given for an option, or all of them, and a value for a
posting is taken apart into the words of the posting. Only options that a command takes are ever
given, and what it requires is given, so every field of the record is settled by the command line.
-/
namespace Daybook.Command

/-! ## Options that are given -/

section Given

variable {signature : Signature} {disk : Disk} {words : List Text} {arguments : Arguments}

end Given

/-! ## Records -/

/-- A value describes a posting: its words are the account, the amount and the currency, of which
those that are missing are empty. -/
structure Posts (value : Text) (posting : Posting) : Prop where
  few : 1 ≤ (Text.words value).length ∧ (Text.words value).length ≤ 3
  padded : (Text.words value ++ [[], []]).take 3 =
    [posting.account, posting.amount, posting.currency]
  plain : posting.cost = none ∧ posting.price = none

/-- A command is offered: by the main menu, or by one of the menus that this leads to. -/
inductive Offered : Text → MenuItem → Prop
  | single {item : MenuItem} : .single item ∈ sections → Offered "cli" item
  | nested {name : Text} {items : List MenuItem} {item : MenuItem} : .menu name items ∈ sections →
      item ∈ items → Offered ("cli" ++ ' ' :: name) item

/-- What holds of the commands of each menu holds of every command that is offered. -/
theorem Offered.each {motive : Text → MenuItem → Prop}
    (transactions : ∀ item ∈ transactionItems, motive "cli txn" item)
    (accounts : ∀ item ∈ accountItems, motive "cli account" item)
    (singles : ∀ item, .single item ∈ sections → motive "cli" item) {called : Text}
    {item : MenuItem} (offered : Offered called item) : motive called item := by
  cases offered with
  | single inside => exact singles item inside
  | nested inside within =>
    simp only [sections, List.mem_cons, List.not_mem_nil, or_false, Section.menu.injEq,
      reduceCtorEq] at inside
    rcases inside with ⟨rfl, rfl⟩ | ⟨rfl, rfl⟩
    · exact transactions item within
    · exact accounts item within

/-- The only command of the main menu itself. -/
theorem eq_verify_of_single {item : MenuItem} (inside : .single item ∈ sections) :
    item = { name := "verify", options := [jsonOption]
             order := fun arguments => .verify (arguments.has "--json") } := by
  simpa [sections] using inside

/-- The options of a command have different names, none of them takes a path, and one that takes
postings takes as many as are given. -/
theorem Offered.options {called : Text} {item : MenuItem} (offered : Offered called item) :
    ((item.signature called).options.map CommandOption.long).Nodup ∧
      ∀ option ∈ (item.signature called).options, option.accepts.isPath = false ∧
        (option.accepts = .posting → option.arity = .many) := by
  refine Offered.each (motive := fun _ item =>
    ((item.options ++ [Signature.helpOption]).map CommandOption.long).Nodup ∧
      ∀ option ∈ item.options ++ [Signature.helpOption], option.accepts.isPath = false ∧
        (option.accepts = .posting → option.arity = .many)) ?_ ?_ ?_ offered
  · decide
  · decide
  · intro item inside
    rw [eq_verify_of_single inside]
    decide


/-- A command that takes one word has that word. -/
theorem Operands.Fit.one {name : Text} {arguments : Arguments}
    (fit : (Operands.one name).Fit arguments.operands) :
    arguments.operands = [arguments.operand] := by
  obtain ⟨word, same⟩ := fit
  rw [Arguments.operand, same]
  rfl

section Asking

variable {signature : Signature} {disk : Disk} {words : List Text} {arguments : Arguments}

end Asking

end Daybook.Command
