import Daybook.Text

/-!
# Choosing a command by its name

A command is called by its name, by a short alias, or by any beginning of its name that no
other command of the menu shares. An alias stands for a word and not for a command, so it
means the same in every menu, and nothing in a menu without that command.
-/
namespace Daybook.Command

/-- The word that a word is an alias for, or the word itself. -/
def unaliased (word : Text) : Text :=
  if word = "ls".toList then "list"
  else if word = "rm".toList then "delete"
  else if word = "new".toList then "add"
  else if word = "edit".toList then "update"
  else word

/-- What a word chooses from a menu. -/
inductive Choice where
  | chosen (name : Text)
  | ambiguous (word : Text) (candidates : List Text)
  | unknown
  deriving DecidableEq, Repr

/-- The names of a menu that begin with a word, in the order of their characters. -/
def candidates (names : List Text) (word : Text) : List Text :=
  (names.filter word.isPrefixOf).mergeSort Text.atMost

/-- Chooses from the names of a menu. A whole name is chosen even if others begin with it. -/
def choose (names : List Text) (written : Text) : Choice :=
  let word := unaliased written
  if word ∈ names then .chosen word
  else match candidates names word with
    | [] => .unknown
    | [name] => .chosen name
    | several => .ambiguous word several

end Daybook.Command
