import Daybook.Proofs.Statement.Extents

/-!
# Lines one after the other

The lines of a file stand one after the other, with a line feed between one and the next. This
is what the place of one line says about the others: whatever an earlier line keeps ends before
a later line begins.
-/
namespace Daybook

open Lexeme

namespace Statement

/-- A line may end at a position: the text is over there, or a line end follows. -/
def LineEndsAt (text : Text) (stop : Nat) : Prop :=
  stop = text.length ∨ ∃ ending rest, (ending = ['\n'] ∨ ending = ['\r', '\n']) ∧
    text.drop stop = ending ++ rest

/-- Lines stand one after the other in a text, from a position on. -/
inductive Laid (text : Text) : Nat → List Line → Prop where
  | none (position : Nat) : Laid text position []
  | last {position start stop : Nat} {line : Line} (later : position ≤ start)
      (order : start ≤ stop) (ends : LineEndsAt text stop)
      (standing : line.Standing text start stop) : Laid text position [line]
  | more {position start stop next : Nat} {line : Line} {lines : List Line}
      (later : position ≤ start) (order : start ≤ stop) (ends : LineEndsAt text stop)
      (standing : line.Standing text start stop) (beyond : stop ≤ next)
      (feed : '\n' ∈ Text.slice text stop next) (others : Laid text next lines) :
      Laid text position (line :: lines)

/-- A line stands somewhere after a position. -/
def Stood (text : Text) (position : Nat) (line : Line) : Prop :=
  ∃ start stop, position ≤ start ∧ start ≤ stop ∧ LineEndsAt text stop ∧
    line.Standing text start stop

/-- A line ends within the text. -/
theorem LineEndsAt.inside {text : Text} {stop : Nat} (ends : LineEndsAt text stop) :
    stop ≤ text.length := by
  rcases ends with whole | ⟨ending, rest, form, next⟩
  · exact Nat.le_of_eq whole
  · have size := congrArg List.length next
    rw [List.length_drop, List.length_append] at size
    rcases form with rfl | rfl
    · simp only [List.length_singleton] at size
      omega
    · simp only [List.length_cons, List.length_nil] at size
      omega

/-- Where something ends at its line, the line ends there: either lines follow, and a line feed is
in between, or none do and the text is over. -/
theorem EndsAt.lineEndsAt {text : Text} {stop : Nat} {after : List Line}
    (ends : EndsAt text stop after) : LineEndsAt text stop := by
  cases ends with
  | text whole => exact Or.inl whole
  | line form next reading => exact Or.inr ⟨_, _, form, next⟩

section Laid

variable {text : Text} {position : Nat} {line : Line} {lines : List Line}

/-- What stands after a position stands after every earlier one. -/
theorem Stood.mono (stood : Stood text position line) {earlier : Nat}
    (order : earlier ≤ position) : Stood text earlier line := by
  obtain ⟨start, stop, later, rest⟩ := stood
  exact ⟨start, stop, Nat.le_trans order later, rest⟩

/-- Each of the lines stands after the position. -/
theorem Laid.each (laid : Laid text position lines) :
    ∀ line ∈ lines, Stood text position line := by
  induction laid with
  | none position => simp
  | @last position start stop line later order ends standing =>
    intro one member
    obtain rfl := List.mem_singleton.mp member
    exact ⟨start, stop, later, order, ends, standing⟩
  | @more position start stop next line lines later order ends standing beyond feed _ ih =>
    intro one member
    rcases List.mem_cons.mp member with rfl | member
    · exact ⟨start, stop, later, order, ends, standing⟩
    · exact (ih one member).mono (by omega)

/-- The lines before a line end before it begins, and each of them with a line feed. The induction
is on how the lines are laid; the line that comes first is left when nothing is before the other
one. -/
theorem Laid.before (laid : Laid text position lines) {earlier after : List Line}
    (parts : lines = earlier ++ line :: after) :
    ∃ start stop, position ≤ start ∧ start ≤ stop ∧ LineEndsAt text stop ∧
      line.Standing text start stop ∧ Laid text start (line :: after) ∧
      ∀ one ∈ earlier, ∃ first last, position ≤ first ∧ first ≤ last ∧ LineEndsAt text last ∧
        one.Standing text first last ∧ last ≤ start ∧ '\n' ∈ Text.slice text last start := by
  induction laid generalizing earlier with
  | none position => simp at parts
  | @last position start stop only later order ends standing =>
    obtain ⟨rfl, rfl, rfl⟩ : earlier = [] ∧ only = line ∧ after = [] := by
      cases earlier <;> simp_all
    exact ⟨start, stop, later, order, ends, standing,
      .last (Nat.le_refl _) order ends standing, by simp⟩
  | @more position start stop next only lines later order ends standing beyond feed others ih =>
    cases earlier with
    | nil =>
      obtain ⟨rfl, rfl⟩ := List.cons.inj parts
      exact ⟨start, stop, later, order, ends, standing,
        .more (Nat.le_refl _) order ends standing beyond feed others, by simp⟩
    | cons first earlier =>
      obtain ⟨rfl, rest⟩ := List.cons.inj parts
      obtain ⟨low, high, behind, forward, lineEnds, stands, remaining, apart⟩ := ih rest
      refine ⟨low, high, by omega, forward, lineEnds, stands, remaining, ?_⟩
      intro one member
      rcases List.mem_cons.mp member with rfl | member
      · refine ⟨start, stop, later, order, ends, standing, by omega, ?_⟩
        rw [Text.slice_append beyond behind]
        exact List.mem_append_left _ feed
      · obtain ⟨first, last, above, rest⟩ := apart one member
        exact ⟨first, last, by omega, rest⟩

end Laid

/-- What every step of reading keeps from place to place of a text, and what is therefore so of
every line. -/
structure Keeps (text : Text) (Kept : Place → Nat → Prop) (Sound : Line → Prop) : Prop where
  start {place : Place} {position : Nat} (fresh : place = .fileStart ∨ place = .lineStart) :
    Kept place position
  space {place : Place} {position : Nat} {c : Char} {rest : Text} (kept : Kept place position)
    (here : text.drop position = c :: rest) (blank : isSpace c = true) : Kept place (position + 1)
  token {place next : Place} {token : Token} {lines : List Line} (kept : Kept place token.start)
    (begins : Begins place.expected token.start (text.drop token.start) token
      (text.drop token.stop))
    (within : endsLine token = false) (leads : place.step token = some next)
    (further : Reading next token.stop (text.drop token.stop) lines) : Kept next token.stop
  done {place : Place} {position : Nat} {own : List Line} (kept : Kept place position)
    (ends : LineEndsAt text position) (complete : place.lines? = some own) :
    ∀ line ∈ own, Sound line

/-- What every step keeps is kept by a whole reading. The induction is on how the text was read. -/
theorem Keeps.lines {text : Text} {Kept : Place → Nat → Prop} {Sound : Line → Prop}
    (keeps : Keeps text Kept Sound) {place : Place} {position : Nat} {lines : List Line}
    (reading : Reading place position (text.drop position) lines)
    (inside : position ≤ text.length) (kept : Kept place position) :
    ∀ line ∈ lines, Sound line := by
  generalize here : text.drop position = remaining at reading
  induction reading with
  | @textEnd place position lines complete =>
    have whole : position = text.length := Nat.le_antisymm inside (List.drop_eq_nil_iff.mp here)
    exact keeps.done kept (Or.inl whole) complete
  | @space place position c others lines blank further ih =>
    obtain ⟨next, inside⟩ := drop_succ_of_cons here
    exact ih inside (keeps.space kept here blank) next
  | @lineEnd place position _ rest token own lines begins ends complete further ih =>
    obtain ⟨stands, following⟩ := stands_of_begins (here ▸ begins)
    intro line member
    rcases List.mem_append.mp member with first | later
    · rcases ends_cases begins ends with ⟨rfl, _⟩ | ⟨_, present, _⟩
      · cases complete
        cases first
      · obtain ⟨ending, others, form, split⟩ := ending_of_lineEnds present
        exact keeps.done kept (Or.inr ⟨ending, others, form, here.trans split⟩) complete line first
    · exact ih stands.inside (keeps.start (lineAfter_cases token)) following.symm line later
  | @token place next position _ rest token lines begins within leads further ih =>
    obtain ⟨stands, following⟩ := stands_of_begins (here ▸ begins)
    obtain rfl : position = token.start := begins.start.symm
    subst here
    rw [following] at begins further
    exact ih stands.inside (keeps.token kept begins within leads further) following.symm

/-- What every step keeps is so of every line of a whole text. -/
theorem Keeps.whole {text : Text} {Kept : Place → Nat → Prop} {Sound : Line → Prop}
    (keeps : Keeps text Kept Sound) {lines : List Line}
    (reading : Reading .fileStart 0 text lines) : ∀ line ∈ lines, Sound line := by
  rw [← List.drop_zero (l := text)] at reading
  exact keeps.lines reading (Nat.zero_le _) (keeps.start (Or.inl rfl))

/-- Where the first token of a line stands, reading comes to the end of that line. -/
theorem Reading.firstLine {text rest : Text} {position : Nat} {token : Token} {lines : List Line}
    (reading : Reading .lineStart position (text.drop position) lines)
    (begins : Begins Place.lineStart.expected position (text.drop position) token rest)
    (within : endsLine token = false) : ∃ line after stop, lines = line :: after ∧
      line.Standing text position stop ∧ position ≤ stop ∧ stop ≤ text.length ∧
      EndsAt text stop after := by
  obtain ⟨next, leads, further⟩ := (reading_token_iff begins within).mp reading
  obtain ⟨stands, rfl⟩ := stands_of_begins begins
  have order := begins.positive
  have start := begins.start
  have entered : Place.intoLine token = some next := by
    have same : Place.lineStart.step token = Place.intoLine token := by
      simp [Place.step, Place.statement?, Place.continued]
    rw [← same]
    exact leads
  obtain ⟨line, after, stop, parts, standing, beyond, inside, ends⟩ :=
    further.line stands.inside (standing_intoLine entered stands) (Nat.le_of_lt order)
  exact ⟨line, after, stop, parts, start ▸ standing, by omega, inside, ends⟩

/-- The lines that are read stand one after the other. The induction is on the number of lines, and
each line is divided from those behind it. -/
theorem Reading.laid {text : Text} {place : Place} {position : Nat} {lines : List Line}
    (reading : Reading place position (text.drop position) lines)
    (start : place = .fileStart ∨ place = .lineStart) : Laid text position lines := by
  generalize size : lines.length = count
  induction count generalizing place position lines with
  | zero =>
    obtain rfl := List.eq_nil_of_length_eq_zero size
    exact .none position
  | succ count ih =>
    obtain ⟨line, after, rfl⟩ := List.exists_cons_of_length_eq_add_one size
    obtain ⟨front, rest, split, _, later, ⟨token, tail, begins, within⟩, _⟩ :=
      reading.divide (show line :: after = [] ++ line :: after from rfl)
        (start.imp_right Or.inl)
    have following : rest = text.drop (position + front.length) := by
      rw [← List.drop_drop, split, List.drop_left]
    subst following
    obtain ⟨first, others, stop, same, standing, order, inside, ends⟩ :=
      later.firstLine begins within
    obtain ⟨rfl, rfl⟩ := List.cons.inj same
    have lineEnds := ends.lineEndsAt
    cases ends with
    | text whole => exact .last (Nat.le_add_right _ _) order lineEnds standing
    | @line ending rest _ form next further =>
      have following : rest = text.drop (stop + ending.length) := by
        rw [← List.drop_drop, next, List.drop_left]
      subst following
      have feed : '\n' ∈ Text.slice text stop (stop + ending.length) := by
        rw [Text.slice, Nat.add_sub_cancel_left, next, List.take_left]
        rcases form with rfl | rfl <;> simp
      exact .more (Nat.le_add_right _ _) order lineEnds standing (Nat.le_add_right _ _) feed
        (ih further (Or.inr rfl) (by simpa using size))

/-- The lines of a whole text stand one after the other in it. -/
theorem Reading.laid_whole {text : Text} {lines : List Line}
    (reading : Reading .fileStart 0 text lines) : Laid text 0 lines := by
  rw [← List.drop_zero (l := text)] at reading
  exact reading.laid (Or.inl rfl)

end Statement

end Daybook
