import Daybook.Command
import Daybook.Proofs.Result

/-!
# What the words of a command line call

A word calls a command of a menu in one of three ways: it is the name, it is an alias of the name,
or it is a beginning of this name and no other. The menus of the program are such that a word never
calls two commands. The words after a command are accepted if every option passes its check, and
this is all that has to be known of the order in which the checks are made.
-/
namespace Daybook.Command

/-! ## Calling by name -/

/-- The aliases, with the words that they stand for. -/
def aliases : List (Text × Text) :=
  [("ls", "list"), ("rm", "delete"), ("new", "add"), ("edit", "update")]

/-- A word calls a command of a menu. -/
inductive Calls (names : List Text) (word name : Text) : Prop
  | exact : name ∈ names → word = name → Calls names word name
  | nickname : name ∈ names → (word, name) ∈ aliases → Calls names word name
  | beginning : names.filter word.isPrefixOf = [name] → Calls names word name

/-- The names of a menu do not get in the way of aliases: none begins with an alias, and none
begins with a word that an alias stands for unless the word is a name as well. -/
def Unaliased (names : List Text) : Prop :=
  ∀ pair ∈ aliases, (∀ name ∈ names, pair.1.isPrefixOf name = false) ∧
    (pair.2 ∈ names ∨ ∀ name ∈ names, pair.2.isPrefixOf name = false)

instance (names : List Text) : Decidable (Unaliased names) :=
  inferInstanceAs (Decidable (∀ pair ∈ aliases, (∀ name ∈ names, pair.1.isPrefixOf name = false) ∧
    (pair.2 ∈ names ∨ ∀ name ∈ names, pair.2.isPrefixOf name = false)))

variable {names : List Text} {word name : Text}

/-- A word is an alias of another word, or it is none. -/
theorem unaliased_cases (word : Text) :
    (word, unaliased word) ∈ aliases ∨ unaliased word = word := by
  unfold unaliased aliases
  split
  · next same => exact Or.inl (by rw [same]; decide)
  split
  · next same => exact Or.inl (by rw [same]; decide)
  split
  · next same => exact Or.inl (by rw [same]; decide)
  split
  · next same => exact Or.inl (by rw [same]; decide)
  · exact Or.inr rfl

/-- An alias stands for one word. -/
theorem unaliased_of_mem {meant : Text} (known : (word, meant) ∈ aliases) :
    unaliased word = meant := by
  have each : ∀ pair ∈ aliases, unaliased pair.1 = pair.2 := by decide
  exact each _ known

/-- A word abbreviates exactly one name when it is the prefix of that name alone: the candidates are
the names with this prefix, sorted, and sorting does not change a list of one. -/
theorem candidates_eq_singleton_iff :
    candidates names word = [name] ↔ names.filter word.isPrefixOf = [name] := by
  have sorted := List.mergeSort_perm (names.filter word.isPrefixOf) Text.atMost
  constructor
  · intro alone
    rw [show (names.filter word.isPrefixOf).mergeSort Text.atMost = [name] from alone] at sorted
    exact List.perm_singleton.mp sorted.symm
  · intro alone
    rw [candidates, alone, List.mergeSort_singleton]

/-- A word that is written out chooses its own name, or else the only name that begins with it. -/
theorem choose_iff : choose names word = .chosen name ↔
    unaliased word ∈ names ∧ unaliased word = name ∨
      unaliased word ∉ names ∧ names.filter (unaliased word).isPrefixOf = [name] := by
  unfold choose
  by_cases listed : unaliased word ∈ names
  · simp [listed]
  · rw [← candidates_eq_singleton_iff]
    simp only [listed, if_false, false_and, not_false_eq_true, true_and, false_or]
    split
    · next none => simp [none]
    · next other alone => simp [alone]
    · next several other =>
      constructor
      · intro impossible
        cases impossible
      · intro alone
        exact absurd alone (other name)

/-- A word with which a name begins is no alias. -/
theorem Unaliased.plain (apart : Unaliased names) (listed : name ∈ names)
    (begins : word.isPrefixOf name = true) : unaliased word = word := by
  rcases unaliased_cases word with known | same
  · rw [(apart _ known).1 name listed] at begins
    cases begins
  · exact same

/-- Where a name alone begins with a word, it is a name and begins with the word. -/
theorem mem_of_alone (alone : names.filter word.isPrefixOf = [name]) :
    name ∈ names ∧ word.isPrefixOf name = true := by
  apply List.mem_filter.mp
  rw [alone]
  exact List.mem_singleton_self name

/-- A word chooses the command that it calls. Choosing replaces an alias first, whatever the word
is, while calling lists the three ways side by side; that no name of a menu gets in the way of an
alias is what makes the two agree. -/
theorem choose_eq_chosen_iff (apart : Unaliased names) :
    choose names word = .chosen name ↔ Calls names word name := by
  have whole (text : Text) : text.isPrefixOf text = true :=
    List.isPrefixOf_iff_prefix.mpr List.prefix_rfl
  rw [choose_iff]
  constructor
  · rintro (⟨listed, rfl⟩ | ⟨unlisted, alone⟩)
    · rcases unaliased_cases word with known | same
      · exact .nickname listed known
      · exact .exact listed same.symm
    · rcases unaliased_cases word with known | same
      · -- What the alias stands for is no name, and no name begins with it.
        have none := (apart _ known).2.resolve_left unlisted
        obtain ⟨listed, begins⟩ := mem_of_alone alone
        rw [none name listed] at begins
        cases begins
      · rw [same] at alone
        exact .beginning alone
  · rintro (⟨listed, rfl⟩ | ⟨listed, known⟩ | alone)
    · rw [apart.plain listed (whole word)]
      exact Or.inl ⟨listed, rfl⟩
    · rw [unaliased_of_mem known]
      exact Or.inl ⟨listed, rfl⟩
    · obtain ⟨listed, begins⟩ := mem_of_alone alone
      rw [apart.plain listed begins]
      by_cases written : word ∈ names
      · have itself := List.mem_filter.mpr ⟨written, whole word⟩
        rw [alone] at itself
        exact Or.inl ⟨written, List.mem_singleton.mp itself⟩
      · exact Or.inr ⟨written, alone⟩

/-- A word calls one command only. -/
theorem Calls.unique (apart : Unaliased names) {other : Text} (calls : Calls names word name)
    (also : Calls names word other) : name = other := by
  have chosen := (choose_eq_chosen_iff apart).mpr calls
  rw [(choose_eq_chosen_iff apart).mpr also] at chosen
  cases chosen
  rfl

section Selecting

variable {α : Type} {signature : Signature} {disk : Disk} {key : α → Text} {members : List α}
  {word : Text} {rest : List Text}

/-- What a word comes to that calls nothing: it is no command, but it may be an option. -/
def unknownWord (signature : Signature) (disk : Disk) (names : List Text) (word : Text)
    (rest : List Text) : Except Diversion (α × List Text) := do
  if word.head?.any fun c => !Text.isAlphanumeric c then
    let _ ← signature.read disk (word :: rest)
  throw (.misuse signature (.noSuchCommand word (Text.suggestions names word)))

/-- A word that calls nothing is turned down as a misuse or, if it begins with neither a letter nor
a digit, by what follows from reading it as an option. -/
def TurnsDown (signature : Signature) (disk : Disk) (word : Text) (rest : List Text)
    (diversion : Diversion) : Prop :=
  (∃ misuse, diversion = .misuse signature misuse) ∨
    (∃ c, word.head? = some c ∧ Text.isAlphanumeric c = false) ∧
      signature.read disk (word :: rest) = .error diversion

/-- An unknown word always ends the selection, and only in the ways that turning a word down allows.
A word that is read as an option and accepted as one is still no command, so this case, too, ends in
a misuse. -/
theorem unknownWord_eq_error (names : List Text) : ∃ diversion,
    (unknownWord signature disk names word rest : Except Diversion (α × List Text)) =
        .error diversion ∧ TurnsDown signature disk word rest diversion := by
  unfold unknownWord
  split
  · next unlettered =>
    obtain ⟨c, first, other⟩ := (Option.any_eq_true _ _).mp unlettered
    cases accepted : signature.read disk (word :: rest) with
    | error diversion =>
      exact ⟨diversion, rfl, Or.inr ⟨⟨c, first, by simpa using other⟩, accepted⟩⟩
    | ok arguments => exact ⟨_, rfl, Or.inl ⟨_, rfl⟩⟩
  · exact ⟨_, rfl, Or.inl ⟨_, rfl⟩⟩

/-- No selection comes out of an unknown word. Stated for the cases of `select`, which falls back to
`unknownWord` in two places. -/
theorem unknownWord_ne_ok {names : List Text} {selected : α × List Text} :
    unknownWord signature disk names word rest ≠ .ok selected := by
  obtain ⟨diversion, refused, _⟩ := unknownWord_eq_error (α := α) names
  rw [refused]
  exact nofun

/-- How selection depends on what the first word chooses. The lemmas below split on the choice and
do not open `select` again. -/
theorem select_cons : select signature disk key members (word :: rest) =
    match choose (members.map key) word with
    | .chosen chosen =>
      match members.find? fun member => key member = chosen with
      | some member => .ok (member, rest)
      | none => unknownWord signature disk (members.map key) word rest
    | .ambiguous written candidates =>
      .error (.misuse signature (.ambiguousCommand written candidates))
    | .unknown => unknownWord signature disk (members.map key) word rest :=
  rfl

/-- Members of a menu are found by their names. -/
theorem find_of_mem (once : (members.map key).Nodup) {member : α} (inside : member ∈ members) :
    (members.find? fun other => key other = key member) = some member := by
  induction members with
  | nil => cases inside
  | cons first others ih =>
    obtain ⟨apart, once⟩ := List.nodup_cons.mp once
    rcases List.mem_cons.mp inside with rfl | later
    · rw [List.find?_cons_of_pos (by simp)]
    · have other : key first ≠ key member := fun same =>
        apart (same ▸ List.mem_map_of_mem later)
      rw [List.find?_cons_of_neg (by simpa using other), ih once later]

/-- The first word selects the member of a menu that it calls. The choice yields a name and not a
member, and since the names are different the member that is then looked up by this name is the only
one that has it. -/
theorem select_eq_ok_iff (apart : Unaliased (members.map key)) (once : (members.map key).Nodup)
    {words : List Text} {member : α} :
    select signature disk key members words = .ok (member, rest) ↔ ∃ word, words = word :: rest ∧
      member ∈ members ∧ Calls (members.map key) word (key member) := by
  constructor
  · intro selected
    cases words with
    | nil => cases selected
    | cons word others =>
      rw [select_cons] at selected
      split at selected
      · next name chosen =>
        split at selected
        · next other found =>
          cases selected
          have named : key member = name := by simpa using List.find?_some found
          rw [← named] at chosen
          exact ⟨word, rfl, List.mem_of_find?_eq_some found,
            (choose_eq_chosen_iff apart).mp chosen⟩
        · exact absurd selected unknownWord_ne_ok
      · cases selected
      · exact absurd selected unknownWord_ne_ok
  · rintro ⟨word, rfl, inside, calls⟩
    rw [select_cons, (choose_eq_chosen_iff apart).mpr calls]
    dsimp only
    rw [find_of_mem once inside]

end Selecting

/-! ## Checking what is given -/

section Checking

variable {signature : Signature} {disk : Disk} {words : List Text} {arguments : Arguments}

/-- What can be objected to in the values of options: a misuse, or a path that is none. -/
def Signature.Objection (signature : Signature) (options : List CommandOption)
    (diversion : Diversion) : Prop :=
  (∃ misuse, diversion = .misuse signature misuse) ∨
    (∃ written, diversion = .notAPath written) ∧ ∃ option ∈ options, option.accepts.isPath = true

/-- What stops the check of an option is an objection to that option alone. The checks of a whole
signature are put together from this. -/
theorem CommandOption.of_check_error {option : CommandOption} {diversion : Diversion}
    (refused : option.check signature disk arguments = .error diversion) :
    signature.Objection [option] diversion := by
  unfold CommandOption.check at refused
  dsimp only at refused
  split at refused
  · cases refused
    exact Or.inl ⟨_, rfl⟩
  · split at refused
    · next value unusable =>
      cases refused
      have both := List.find?_some unusable
      exact Or.inr ⟨⟨_, rfl⟩, option, List.mem_singleton_self option,
        (Bool.and_eq_true_iff.mp both).1⟩
    · split at refused
      · cases refused
        exact Or.inl ⟨_, rfl⟩
      · cases refused

/-- The number of operands is the one that a command takes. -/
def Operands.Fit (operands : Operands) (words : List Text) : Prop :=
  match operands with
  | .nothing => words = []
  | .one _ => ∃ word, words = [word]
  | .command => True

/-- A list of options is checked one by one. -/
theorem CommandOption.of_forM_error {options : List CommandOption} {diversion : Diversion}
    (known : ∀ option ∈ options, option ∈ signature.options)
    (refused : options.forM (·.check signature disk arguments) = .error diversion) :
    signature.Objection signature.options diversion := by
  obtain ⟨option, member, objected⟩ := exists_of_forM_eq_error refused
  rcases CommandOption.of_check_error objected with misuse | ⟨written, same, alone, path⟩
  · exact Or.inl misuse
  · rw [List.mem_singleton.mp alone] at path
    exact Or.inr ⟨written, option, known option member, path⟩

/-- What a check objects to is a misuse, or the value of an option that takes a path. The three
parts of the check, over the options given, the operands and the other options, can only object in
these ways, and the operands only with a misuse. -/
theorem Signature.of_check_error {diversion : Diversion}
    (refused : signature.check disk arguments = .error diversion) :
    signature.Objection signature.options diversion := by
  have last {unused : List Text} (refused : ((signature.options.filter fun option =>
      !arguments.has option.long).forM (·.check signature disk arguments) >>= fun _ =>
        if unused ≠ [] then .error (.misuse signature (.unexpectedOperands unused))
        else .ok ()) = .error diversion) : signature.Objection signature.options diversion := by
    rcases bind_eq_error_iff.mp refused with others | ⟨_, _, extra⟩
    · exact CommandOption.of_forM_error (fun option member => (List.mem_filter.mp member).1) others
    · split at extra
      · cases extra
        exact Or.inl ⟨_, rfl⟩
      · cases extra
  unfold Signature.check at refused
  dsimp only at refused
  rcases bind_eq_error_iff.mp refused with first | ⟨_, _, rest⟩
  · refine CommandOption.of_forM_error ?_ first
    intro option member
    obtain ⟨name, _, found⟩ := List.mem_filterMap.mp member
    exact List.mem_of_find?_eq_some found
  · cases operands : signature.operands with
    | nothing =>
      simp only [operands] at rest
      exact last rest
    | one name =>
      simp only [operands] at rest
      split at rest
      · cases rest
        exact Or.inl ⟨_, rfl⟩
      · exact last rest
    | command =>
      simp only [operands] at rest
      exact last rest

end Checking

end Daybook.Command
