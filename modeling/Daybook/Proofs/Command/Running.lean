import Daybook.Proofs.Command.Options
import Daybook.Proofs.Disk.Founding
import Daybook.Proofs.Disk.Tracking

/-!
# What a command line does

A command line leads to a command by the words that call it, and the options of the command
describe the records that go to the ledger. Everything is read before anything is done, so a command
line that is turned down leaves the disk alone. One that is understood makes the directory if it is
missing, and from there on leaves what the operation on the ledger leaves; its exit code says how
that ended.
-/
namespace Daybook.Command

open Disk Storing

/-! ## The words on the way to a command -/

/-- The words of a command line lead to a command, where the words for the command remain. -/
inductive Leads (surroundings : Surroundings) (disk : Disk) (words : List Text)
    (main : Arguments) : Text → MenuItem → List Text → Prop
  | single {item : MenuItem} {word : Text} {rest : List Text} :
      (mainSignature surroundings).read disk words = .ok main → main.operands = word :: rest →
      .single item ∈ sections → Calls (sections.map Section.name) word item.name →
      Leads surroundings disk words main "cli" item rest
  | nested {name : Text} {items : List MenuItem} {menu : Arguments} {item : MenuItem}
      {word command : Text} {rest more : List Text} :
      (mainSignature surroundings).read disk words = .ok main → main.operands = word :: rest →
      .menu name items ∈ sections → Calls (sections.map Section.name) word name →
      (menuSignature ("cli" ++ ' ' :: name)).read disk rest = .ok menu →
      menu.operands = command :: more →
      item ∈ items → Calls (items.map MenuItem.name) command item.name →
      Leads surroundings disk words main ("cli" ++ ' ' :: name) item more

/-- The sections of the tool keep out of the way of aliases, so a word that abbreviates a section is
not taken for an alias. -/
theorem sections_apart : Unaliased (sections.map Section.name) := by decide

/-- The names of the sections are pairwise different, which is what makes looking one up by its name
exact. -/
theorem sections_once : (sections.map Section.name).Nodup := by decide

/-- In every menu the names are different and out of the way of aliases. -/
theorem items_apart {name : Text} {items : List MenuItem} (inside : .menu name items ∈ sections) :
    Unaliased (items.map MenuItem.name) ∧ (items.map MenuItem.name).Nodup := by
  simp only [sections, List.mem_cons, List.not_mem_nil, or_false, Section.menu.injEq, reduceCtorEq]
    at inside
  rcases inside with ⟨_, rfl⟩ | ⟨_, rfl⟩
  · decide
  · decide

section Reading

variable {surroundings : Surroundings} {disk : Disk} {words : List Text} {main : Arguments}

/-- What is read of a command line, with the directory and the settings that it names. -/
def invocation (surroundings : Surroundings) (main : Arguments) (order : Order) : Invocation where
  directory := (main.last? "--data-dir").getD (surroundings.directory.getD "data")
  settings := main.last? "--config"
  order

/-- A command line is read in three steps. -/
theorem Invocation.read_eq : Invocation.read surroundings disk words =
    (mainSignature surroundings).read disk words >>= fun main =>
      select (mainSignature surroundings) disk Section.name sections main.operands >>= fun chosen =>
        (chosen.1.read "cli" disk chosen.2).map (invocation surroundings main) := by
  rfl

/-- Words that lead to a command are read as what the words for the command are read as. What is
read before, the options of the tool and of the menu, decides which signature is asked, and after
that has no more to say. -/
theorem Leads.read {called : Text} {item : MenuItem} {more : List Text}
    (leads : Leads surroundings disk words main called item more) :
    Invocation.read surroundings disk words =
      (item.read called disk more).map (invocation surroundings main) := by
  cases leads with
  | single accepted operands inside calls =>
    have selected : select (mainSignature surroundings) disk Section.name sections main.operands =
        .ok (.single item, more) :=
      (select_eq_ok_iff sections_apart sections_once).mpr ⟨_, operands, inside, calls⟩
    rw [Invocation.read_eq, accepted]
    simp only [bind, Except.bind, selected, Section.read]
  | @nested name items menu _ _ _ _ _ accepted operands inside calls opened further within
      invoked =>
    have selected : select (mainSignature surroundings) disk Section.name sections main.operands =
        .ok (.menu _ _, _) :=
      (select_eq_ok_iff sections_apart sections_once).mpr ⟨_, operands, inside, calls⟩
    have chosen : select (menuSignature ("cli" ++ ' ' :: name)) disk MenuItem.name items
        menu.operands = .ok (item, more) :=
      (select_eq_ok_iff (items_apart inside).1 (items_apart inside).2).mpr
        ⟨_, further, within, invoked⟩
    rw [Invocation.read_eq, accepted]
    simp only [bind, Except.bind, selected, Section.read, opened, chosen]

/-- A command to which words lead is one that is offered. -/
theorem Leads.offered {called : Text} {item : MenuItem} {more : List Text}
    (leads : Leads surroundings disk words main called item more) : Offered called item := by
  cases leads with
  | single _ _ inside _ => exact .single inside
  | nested _ _ inside _ _ _ within _ => exact .nested inside within

/-- A command line is understood exactly if it leads to a command that accepts the words for it.
Reading is a chain of five steps, and the relation names what each of them has found; so one
direction takes the chain apart, and the other is `Leads.read`. -/
theorem Invocation.read_eq_ok_iff {invoked : Invocation} :
    Invocation.read surroundings disk words = .ok invoked ↔ ∃ main called item more arguments,
      Leads surroundings disk words main called item more ∧
        (item.signature called).read disk more = .ok arguments ∧
        invoked = invocation surroundings main (item.order arguments) := by
  constructor
  · intro understood
    rw [Invocation.read_eq] at understood
    obtain ⟨main, accepted, understood⟩ := bind_eq_ok_iff.mp understood
    obtain ⟨⟨chosen, rest⟩, selected, understood⟩ := bind_eq_ok_iff.mp understood
    obtain ⟨order, ordered, rfl⟩ := map_eq_ok_iff.mp understood
    obtain ⟨word, operands, inside, calls⟩ :=
      (select_eq_ok_iff sections_apart sections_once).mp selected
    cases chosen with
    | single item =>
      obtain ⟨arguments, read, same⟩ := bind_eq_ok_iff.mp ordered
      cases same
      exact ⟨main, _, item, rest, arguments, .single accepted operands inside calls, read, rfl⟩
    | menu name items =>
      obtain ⟨menu, opened, ordered⟩ := bind_eq_ok_iff.mp ordered
      obtain ⟨⟨item, more⟩, chosen, ordered⟩ := bind_eq_ok_iff.mp ordered
      obtain ⟨command, further, within, invoked⟩ :=
        (select_eq_ok_iff (items_apart inside).1 (items_apart inside).2).mp chosen
      obtain ⟨arguments, read, same⟩ := bind_eq_ok_iff.mp ordered
      cases same
      exact ⟨main, _, item, more, arguments,
        .nested accepted operands inside calls opened further within invoked, read, rfl⟩
  · rintro ⟨main, called, item, more, arguments, leads, read, rfl⟩
    rw [leads.read, MenuItem.read, read]
    rfl

end Reading

/-! ## What is done -/

section Running

variable {ledger : Ledger} {disk after : Disk} {order : Order} {failure : Failure}

end Running

section Commanding

variable {surroundings : Surroundings} {disk : Disk} {words : List Text}

end Commanding

end Daybook.Command
