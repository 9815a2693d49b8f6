import Daybook.Proofs.Directive.Ownership
import Daybook.Proofs.Grammar.Continuations
import Daybook.Proofs.Grammar.TreeCollection
import Daybook.Proofs.Page.Contents

/-!
# Parsing

A text is scanned into tokens, and the grammar makes a tree of them. Which sorts of tokens are asked
for depends on what has been parsed so far, and reading knows that by its place. So the two go
together: `Parses` takes the tokens from the places and the tree from the grammar, and a text is
read to lines exactly if it has a tree (`parses_iff`). In one direction the tokens of a tree lead
from line to line; in the other one what has been read leaves something to come that the rest of the
text is.

From this follows what can become of a file: `Page.ofBytes_parses`.
-/
namespace Daybook

open Lexeme Statement

namespace Grammar

/-! ## Going through the tokens of a file -/

/-- The lines that tokens go through from a place on. An empty line only stands before the first
line, where no other line end does. -/
inductive Walks : Place → List Token → List Line → Prop where
  | done {place : Place} {lines : List Line} (complete : place.lines? = some lines) :
      Walks place [] lines
  | newline {place : Place} {token : Token} {tokens : List Token} {own lines : List Line}
      (sort : token.terminal = .newline) (started : place ≠ .fileStart)
      (complete : place.lines? = some own) (further : Walks .lineStart tokens lines) :
      Walks place (token :: tokens) (own ++ lines)
  | emptyLine {token : Token} {tokens : List Token} {lines : List Line}
      (sort : token.terminal = .emptyLine) (further : Walks .fileStart tokens lines) :
      Walks .fileStart (token :: tokens) lines
  | token {place next : Place} {token : Token} {tokens : List Token} {lines : List Line}
      (leads : place.pass token = some next) (further : Walks next tokens lines) :
      Walks place (token :: tokens) lines

/-- A line begins at a place. -/
def Starts (place : Place) : Prop := place = .fileStart ∨ place = .lineStart

section Walks

variable {place : Place} {tokens : List Token} {nodes : List Node} {lines : List Line}

/-- Tokens of one line that lead to a place are gone through on the way to what follows there. -/
theorem Walks.of_follow {last : Place} {front back : List Token}
    (run : place.follow front = some last)
    (further : Walks last back lines) : Walks place (front ++ back) lines := by
  induction front generalizing place with
  | nil =>
    cases run
    exact further
  | cons token front ih =>
    obtain ⟨next, leads, rest⟩ := Option.bind_eq_some_iff.mp run
    exact .token leads (ih rest)

/-- The first line of a file begins like any other. -/
theorem follow_start (start : Starts place) (some : tokens ≠ []) :
    place.follow tokens = Place.lineStart.follow tokens := by
  cases tokens with
  | nil => exact absurd rfl some
  | cons token tokens => rcases start with rfl | rfl <;> rfl

/-- The trees of two parts of a file show the lines of both. -/
theorem ShowsAll.append {others : List Node} {more : List Line} (shows : ShowsAll nodes lines)
    (further : ShowsAll others more) : ShowsAll (nodes ++ others) (lines ++ more) := by
  induction shows with
  | nil => exact further
  | gap _ ih => exact .gap ih
  | cons shows _ ih => exact .cons shows ih

/-- A statement, and what comes behind it. -/
theorem walks_statement (derives : Derives [.rule .statement] tokens nodes) :
    ∃ line, ShowsAll nodes [line] ∧ ∀ {start : Place} {rest : List Token} {lines : List Line},
      Starts start → (∀ place, place.lines? = some [line] → place ≠ .fileStart →
        Walks place rest lines) → Walks start (tokens ++ rest) lines := by
  obtain ⟨node, line, place, rfl, shows, run, complete⟩ := follow_statement derives
  refine ⟨line, .cons shows .nil, fun start further => ?_⟩
  have some : tokens ≠ [] := by
    rintro rfl
    cases run
    cases complete
  rw [← follow_start start some] at run
  refine .of_follow run (further place complete ?_)
  rintro rfl
  cases complete

/-- Empty lines show nothing. -/
theorem walks_emptyLines (derives : Derives [.rule .emptyLines] tokens nodes) : nodes = [] ∧
    ∀ rest lines, Walks .fileStart rest lines → Walks .fileStart (tokens ++ rest) lines := by
  have one {tokens : List Token} {nodes : List Node}
      (derives : Derives [.dropped .emptyLine] tokens nodes) : nodes = [] ∧
        ∀ rest lines, Walks .fileStart rest lines → Walks .fileStart (tokens ++ rest) lines := by
    obtain ⟨token, _, sort, rfl, last⟩ := derives_dropped_iff.mp derives
    obtain ⟨rfl, rfl⟩ := derives_nil_iff.mp last
    exact ⟨rfl, fun rest lines further => .emptyLine sort further⟩
  refine derives.repeated (fun tokens nodes => nodes = [] ∧ ∀ rest lines,
    Walks .fileStart rest lines → Walks .fileStart (tokens ++ rest) lines) rfl rfl one ?_
  rintro tokens nodes more others ⟨rfl, former⟩ last
  obtain ⟨rfl, further⟩ := one last
  exact ⟨rfl, fun rest lines walks => by
    rw [List.append_assoc]
    exact former _ _ (further _ _ walks)⟩

/-- Line ends show nothing, and a line is complete before the first of them. Behind the first of
them the place is that of a new line, at which another line end adds no line. -/
theorem walks_lineEnds (derives : Derives [.rule .lineEnds] tokens nodes) : nodes = [] ∧
    ∀ (place : Place) (own : List Line) (rest : List Token) (lines : List Line),
      place.lines? = some own → place ≠ .fileStart → Walks .lineStart rest lines →
        Walks place (tokens ++ rest) (own ++ lines) := by
  have one {tokens : List Token} {nodes : List Node}
      (derives : Derives [.dropped .newline] tokens nodes) : nodes = [] ∧
        ∀ (place : Place) (own : List Line) (rest : List Token) (lines : List Line),
          place.lines? = some own → place ≠ .fileStart → Walks .lineStart rest lines →
            Walks place (tokens ++ rest) (own ++ lines) := by
    obtain ⟨token, _, sort, rfl, last⟩ := derives_dropped_iff.mp derives
    obtain ⟨rfl, rfl⟩ := derives_nil_iff.mp last
    exact ⟨rfl, fun place own rest lines complete started further =>
      .newline sort started complete further⟩
  refine derives.repeated (fun tokens nodes => nodes = [] ∧
    ∀ (place : Place) (own : List Line) (rest : List Token) (lines : List Line),
      place.lines? = some own → place ≠ .fileStart → Walks .lineStart rest lines →
        Walks place (tokens ++ rest) (own ++ lines)) rfl rfl one ?_
  rintro tokens nodes more others ⟨rfl, former⟩ last
  obtain ⟨rfl, further⟩ := one last
  exact ⟨rfl, fun place own rest lines complete started walks => by
    rw [List.append_assoc]
    exact former place own _ _ complete started (further .lineStart [] _ _ rfl (by simp) walks)⟩

/-- Statements with the ends of their lines, and what comes behind them. The rule repeats a
statement with its line ends, and each adds the one line that it shows. -/
theorem walks_fullLines (derives : Derives [.rule .fullLines] tokens nodes) : ∃ lines,
    ShowsAll nodes lines ∧ ∀ (start : Place) (rest : List Token) (more : List Line), Starts start →
      Walks .lineStart rest more → Walks start (tokens ++ rest) (lines ++ more) := by
  have one {tokens : List Token} {nodes : List Node}
      (derives : Derives [.rule .statement, .rule .lineEnds] tokens nodes) : ∃ lines,
        ShowsAll nodes lines ∧ ∀ (start : Place) (rest : List Token) (more : List Line),
          Starts start → Walks .lineStart rest more →
            Walks start (tokens ++ rest) (lines ++ more) := by
    obtain ⟨front, below, back, others, first, last, rfl, rfl⟩ := derives_cons_iff.mp derives
    obtain ⟨line, shows, own⟩ := walks_statement first
    obtain ⟨rfl, ended⟩ := walks_lineEnds last
    refine ⟨[line], by simpa using shows, fun start rest more starts walks => ?_⟩
    rw [List.append_assoc]
    exact own starts fun place complete started =>
      ended place [line] rest more complete started walks
  refine derives.repeated (fun tokens nodes => ∃ lines, ShowsAll nodes lines ∧
    ∀ (start : Place) (rest : List Token) (more : List Line), Starts start →
      Walks .lineStart rest more → Walks start (tokens ++ rest) (lines ++ more)) rfl rfl one ?_
  rintro tokens nodes more others ⟨lines, shows, former⟩ last
  obtain ⟨further, also, own⟩ := one last
  refine ⟨lines ++ further, shows.append also, fun start rest after starts walks => ?_⟩
  rw [List.append_assoc, List.append_assoc]
  exact former start _ _ starts (own .lineStart rest after (Or.inr rfl) walks)

/-- A statement without a line end behind it, or none. -/
theorem walks_lastLine (derives : DerivesSome (Part.rule .statement).orGap tokens nodes) :
    ∃ lines, ShowsAll nodes lines ∧ ∀ start, Starts start → Walks start tokens lines := by
  rcases derivesSome_orGap_iff.mp derives with own | ⟨rfl, rfl⟩
  · obtain ⟨line, shows, walks⟩ := walks_statement own
    refine ⟨[line], shows, fun start starts => ?_⟩
    have whole : Walks start (tokens ++ []) [line] :=
      walks starts fun _ complete _ => .done complete
    rwa [List.append_nil] at whole
  · refine ⟨[], .gap .nil, fun start starts => ?_⟩
    rcases starts with rfl | rfl <;> exact .done rfl

/-- The tokens of a file go through the lines that its tree shows. A file has empty lines, full
lines and a last line without an end, each of which may be missing. -/
theorem walks_of_derives (derives : Derives [.rule .start] tokens nodes) : ∃ children lines,
    nodes = [.tree .start children] ∧ ShowsAll children lines ∧ Walks .fileStart tokens lines := by
  obtain ⟨children, shaped, rfl⟩ := derives_only_iff.mp derives
  obtain ⟨front, first, _, _, empty, behindEmpty, rfl, rfl⟩ := derivesSome_sections_iff.mp shaped
  obtain ⟨middle, second, _, _, full, behindFull, rfl, rfl⟩ :=
    derivesSome_sections_iff.mp behindEmpty
  obtain ⟨back, third, _, _, last, behindLast, rfl, rfl⟩ := derivesSome_sections_iff.mp behindFull
  obtain ⟨rfl, rfl⟩ := derivesSome_sections_nil_iff.mp behindLast
  rw [List.append_nil, List.append_nil]
  obtain ⟨lines, shows, walks⟩ := walks_lastLine last
  have fullLines : ∃ lines, ShowsAll (second ++ third) lines ∧
      Walks .fileStart (middle ++ back) lines := by
    rcases derivesSome_cons_iff.mp full with own | none
    · obtain ⟨others, also, begins⟩ := walks_fullLines own
      exact ⟨_, also.append shows, begins .fileStart back lines (Or.inl rfl) (walks _ (Or.inr rfl))⟩
    · obtain ⟨rfl, rfl⟩ := derives_nil_iff.mp (derivesSome_singleton_iff.mp none)
      exact ⟨_, shows, walks _ (Or.inl rfl)⟩
  obtain ⟨all, showsAll, walksAll⟩ := fullLines
  rcases derivesSome_cons_iff.mp empty with own | none
  · obtain ⟨rfl, begins⟩ := walks_emptyLines own
    exact ⟨_, all, rfl, showsAll, begins _ _ walksAll⟩
  · obtain ⟨rfl, rfl⟩ := derives_nil_iff.mp (derivesSome_singleton_iff.mp none)
    exact ⟨_, all, rfl, showsAll, walksAll⟩

end Walks

/-! ## What may come in a file -/

/-- What may come behind a line. -/
def linesAhead : List (List Part) :=
  sections [[[.rule .lineEnds]], (Part.rule .fullLines).orNothing, (Part.rule .statement).orGap]
    ++ [[]]

/-- What may still come of a file at a place. -/
def fileAhead : Place → List (List Part)
  | .fileStart => Rule.start.shapes
  | .lineStart => sections [(Part.rule .lineEnds).orNothing, (Part.rule .fullLines).orNothing,
      (Part.rule .statement).orGap]
  | place => sections [place.lineAhead, linesAhead]

section FileAhead

variable {place next : Place} {token : Token} {tokens : List Token} {lines : List Line}

/-- Within a line there may come the rest of this line and then further lines. Only the two places
where a line begins have a shape of their own, since empty lines may come there. -/
theorem fileAhead_eq (started : ¬ Starts place) :
    fileAhead place = sections [place.lineAhead, linesAhead] := by
  cases place with
  | fileStart => exact absurd (Or.inl rfl) started
  | lineStart => exact absurd (Or.inr rfl) started
  | _ => rfl

/-- No token of a line leads where a line begins. -/
theorem not_starts_of_pass (leads : place.pass token = some next) : ¬ Starts next := by
  obtain ⟨_, leads⟩ := Option.ite_none_left_eq_some.mp leads
  rcases Place.step_eq_some_iff.mp leads with ⟨_, _, _, rfl⟩ | ⟨_, continues⟩
  · rintro (same | same) <;> cases same
  · rcases Place.aside_of_continued continues with none | ⟨_, rfl, _⟩
    · rintro (rfl | rfl) <;> cases none
    · rintro (same | same) <;> cases same

/-- Where a line may end, a statement is complete. -/
theorem statement?_of_lines? {own : List Line} (complete : place.lines? = some own)
    (started : ¬ Starts place) : ∃ statement, place.statement? = some statement := by
  rcases lines?_cases complete with ⟨_, start⟩ | ⟨line, rfl⟩
  · exact absurd start started
  · exact ⟨_, statement?_of_mem_lines? complete List.mem_cons_self⟩

/-- Where a line may end, nothing more need come on it. -/
theorem written_of_lines? {own : List Line} (complete : place.lines? = some own)
    (started : ¬ Starts place) : Written place.lineAhead [] := by
  obtain ⟨statement, found⟩ := statement?_of_lines? complete started
  by_cases inside : place.expected = .lineEnd
  · refine written_append_iff.mpr (Or.inr (written_nil ?_))
    cases place with
    | remarked => exact ⟨[], List.mem_singleton_self _, by simp⟩
    | commented => exact ⟨[], List.mem_singleton_self _, by simp⟩
    | _ => cases inside
  · exact written_append_iff.mpr (Or.inl (written_pair_iff.mpr ⟨[], [],
      Place.written_of_statement? found inside, written_nil (by decide), rfl⟩))

/-- Tokens that go through lines are something that may come in a file. The induction is on the
tokens, from the last one to the first. -/
theorem written_of_walks (walks : Walks place tokens lines) : Written (fileAhead place) tokens := by
  induction walks with
  | @done place lines complete =>
    by_cases started : Starts place
    · rcases started with rfl | rfl
      · exact written_nil (by decide +kernel)
      · exact written_nil (by decide +kernel)
    · rw [fileAhead_eq started]
      exact written_pair_iff.mpr
        ⟨[], [], written_of_lines? complete started, written_nil (by decide), rfl⟩
  | @newline place token tokens own lines sort begun complete _ ih =>
    by_cases started : Starts place
    · rcases started with rfl | rfl
      · exact absurd rfl begun
      · exact ih.of_after sort (by decide +kernel)
    · rw [fileAhead_eq started]
      exact written_pair_iff.mpr ⟨[], _, written_of_lines? complete started,
        ih.of_after sort (by decide +kernel), rfl⟩
  | emptyLine sort _ ih => exact ih.of_after sort (by decide +kernel)
  | @token place next token tokens lines leads _ ih =>
    rw [fileAhead_eq (not_starts_of_pass leads)] at ih
    obtain ⟨front, back, own, others, rfl⟩ := written_pair_iff.mp ih
    have whole : Written (sections [place.lineAhead, linesAhead]) (token :: (front ++ back)) :=
      written_pair_iff.mpr ⟨_, back, Place.written_of_pass leads own, others, rfl⟩
    by_cases started : Starts place
    · rcases started with rfl | rfl <;> exact whole.of_spread (by decide +kernel)
    · rwa [fileAhead_eq started]

/-- Tokens that go through the lines of a file are those of a tree. -/
theorem derives_of_walks (walks : Walks .fileStart tokens lines) :
    ∃ tree, Derives [.rule .start] tokens [tree] := by
  obtain ⟨children, derives⟩ := written_of_walks walks
  exact ⟨_, derives_only_iff.mpr ⟨children, derives, rfl⟩⟩

end FileAhead

/-! ## The tokens of a text -/

/-- The tokens of a text from a place on. Which sorts are asked for is decided by the place that the
tokens before lead to, and blanks are passed over. -/
inductive Scanned : Place → Nat → Text → List Token → Prop where
  | textEnd {place : Place} {position : Nat} : Scanned place position [] []
  | space {place : Place} {position : Nat} {c : Char} {text : Text} {tokens : List Token}
      (blank : isSpace c = true) (further : Scanned place (position + 1) text tokens) :
      Scanned place position (c :: text) tokens
  | lineEnd {place : Place} {position : Nat} {text rest : Text} {token : Token}
      {tokens : List Token} (begins : Begins place.expected position text token rest)
      (ends : endsLine token = true)
      (further : Scanned (lineAfter token) token.stop rest tokens) :
      Scanned place position text (token :: tokens)
  | token {place next : Place} {position : Nat} {text rest : Text} {token : Token}
      {tokens : List Token} (begins : Begins place.expected position text token rest)
      (within : endsLine token = false) (leads : place.step token = some next)
      (further : Scanned next token.stop rest tokens) :
      Scanned place position text (token :: tokens)

/-- The grammar produces this tree for a text. -/
def Parses (text : Text) (tree : Node) : Prop :=
  ∃ tokens, Scanned .fileStart 0 text tokens ∧ Derives [.rule .start] tokens [tree]

section Scanned

variable {place : Place} {position : Nat} {text : Text} {tokens : List Token} {lines : List Line}

/-- The tokens of a text stand in it, one after the other. The induction is on the scan: every token
begins where the scan is and ends before what is left. -/
theorem Scanned.laid (scanned : Scanned place position text tokens) :
    (tokens.Pairwise fun first second => first.stop ≤ second.start) ∧
      ∀ token ∈ tokens, position ≤ token.start ∧ token.stop ≤ position + text.length := by
  have next {expected : Expected} {position : Nat} {text rest : Text} {token : Token}
      {tokens : List Token} (begins : Begins expected position text token rest)
      (laid : (tokens.Pairwise fun first second => first.stop ≤ second.start) ∧
        ∀ other ∈ tokens, token.stop ≤ other.start ∧ other.stop ≤ token.stop + rest.length) :
      ((token :: tokens).Pairwise fun first second => first.stop ≤ second.start) ∧
        ∀ other ∈ token :: tokens, position ≤ other.start ∧
          other.stop ≤ position + text.length := by
    obtain ⟨order, inside⟩ := laid
    have whole : text.length = token.text.length + rest.length := by
      rw [begins.whole, List.length_append]
    have start := begins.start
    refine ⟨List.pairwise_cons.mpr ⟨fun other member => (inside other member).1, order⟩, ?_⟩
    intro other member
    rcases List.mem_cons.mp member with rfl | member
    · simp only [Token.stop]
      omega
    · have own := inside other member
      simp only [Token.stop] at own ⊢
      omega
  induction scanned with
  | textEnd => exact ⟨.nil, by simp⟩
  | space _ _ ih =>
    refine ⟨ih.1, fun token member => ?_⟩
    have own := ih.2 token member
    simp only [List.length_cons]
    omega
  | lineEnd begins _ _ ih => exact next begins ih
  | token begins _ _ _ ih => exact next begins ih

/-- The tokens of a text stand in it one after the other. Positions only grow on the way, by the
length of a blank or of a token. -/
theorem Scanned.settled (scanned : Scanned .fileStart 0 text tokens) : Settled text tokens := by
  obtain ⟨order, inside⟩ := scanned.laid
  exact ⟨order, fun token member => by simpa using (inside token member).2⟩

/-- A token that ends a line leads nowhere on it. -/
theorem pass_of_endsLine {token : Token} (ends : endsLine token = true) (place : Place) :
    place.pass token = none := by
  obtain ⟨terminal, start, spelled⟩ := token
  have sort : terminal = .newline ∨ terminal = .emptyLine := by simpa [endsLine] using ends
  cases place with
  | operator purpose depth =>
    cases depth with
    | zero =>
      by_cases argument : purpose = .argument
      · subst argument
        rcases sort with rfl | rfl <;> rfl
      · rcases sort with rfl | rfl <;> exact if_neg argument
    | succ depth => rcases sort with rfl | rfl <;> rfl
  | afterAmount purpose => rcases sort with rfl | rfl <;> cases purpose <;> rfl
  | _ => rcases sort with rfl | rfl <;> rfl

/-- The tokens of a text that go through lines are read to these lines. The induction is on the
scan, and each of its steps is the step of a reading with the place that the walk has reached. -/
theorem reading_of_scanned (scanned : Scanned place position text tokens)
    (walks : Walks place tokens lines) : Reading place position text lines := by
  induction scanned generalizing lines with
  | textEnd =>
    cases walks with
    | done complete => exact .textEnd complete
  | space blank _ ih => exact .space blank (ih walks)
  | lineEnd begins ends _ ih =>
    cases walks with
    | newline sort started complete further =>
      refine .lineEnd begins ends complete (ih ?_)
      rw [lineAfter, sort]
      exact further
    | emptyLine sort further =>
      have empty : Place.fileStart.lines? = some [] := rfl
      refine .lineEnd begins ends empty (ih ?_)
      rw [lineAfter, sort]
      exact further
    | token leads =>
      rw [pass_of_endsLine ends] at leads
      cases leads
  | token begins within leads _ ih =>
    cases walks with
    | newline sort => simp [endsLine, sort] at within
    | emptyLine sort => simp [endsLine, sort] at within
    | token passes further =>
      obtain ⟨_, same⟩ := Option.ite_none_left_eq_some.mp passes
      obtain rfl := Option.some.inj (leads.symm.trans same)
      exact .token begins within leads (ih further)

/-- Empty lines are asked for at the beginning of a file only. -/
theorem fileStart_of_emptyLine (listed : .emptyLine ∈ place.expected.terminals) :
    place = .fileStart := by
  have only : place.expected = .fileStart := by
    generalize place.expected = expected at listed
    cases expected <;> first | rfl | exact absurd listed (by decide)
  cases place <;> first | rfl | cases only

/-- What is read has tokens that go through its lines. The induction is on the reading, which names
the token at every step. -/
theorem walks_of_reading (reading : Reading place position text lines) :
    ∃ tokens, Scanned place position text tokens ∧ Walks place tokens lines := by
  induction reading with
  | textEnd complete => exact ⟨[], .textEnd, .done complete⟩
  | space blank _ ih =>
    obtain ⟨tokens, scanned, walks⟩ := ih
    exact ⟨tokens, .space blank scanned, walks⟩
  | @lineEnd place position text rest token own lines begins ends complete _ ih =>
    obtain ⟨tokens, scanned, walks⟩ := ih
    refine ⟨token :: tokens, .lineEnd begins ends scanned, ?_⟩
    obtain ⟨terminal, found, sort⟩ := begins.sort
    have listed := (length?_of_first? found).1
    rcases (endsLine_iff sort).mp ends with rfl | rfl
    · have started : place ≠ .fileStart := by
        rintro rfl
        exact absurd listed (by decide)
      have line : token.terminal = .newline := sort
      rw [lineAfter, if_neg (by simp [line])] at walks
      exact .newline line started complete walks
    · obtain rfl := fileStart_of_emptyLine listed
      cases complete
      have empty : token.terminal = .emptyLine := sort
      rw [lineAfter, if_pos empty] at walks
      exact .emptyLine empty walks
  | @token place next position text rest token lines begins within leads _ ih =>
    obtain ⟨tokens, scanned, walks⟩ := ih
    refine ⟨token :: tokens, .token begins within leads scanned, .token ?_ walks⟩
    rw [Place.pass, if_neg, leads]
    intro ended
    obtain ⟨terminal, found, sort⟩ := begins.sort
    have listed := (length?_of_first? found).1
    rw [ended] at listed
    obtain rfl : terminal = .newline := by simpa [Expected.terminals] using listed
    rw [(endsLine_iff sort).mpr (Or.inl rfl)] at within
    cases within

/-- A text is read exactly if the grammar produces a tree for it. -/
theorem parses_iff : (∃ tree, Parses text tree) ↔ ∃ lines, read text = .ok lines := by
  constructor
  · rintro ⟨tree, tokens, scanned, derives⟩
    obtain ⟨_, lines, _, _, walks⟩ := walks_of_derives derives
    exact ⟨lines, (reading_iff 0).mp (reading_of_scanned scanned walks)⟩
  · rintro ⟨lines, known⟩
    obtain ⟨tokens, scanned, walks⟩ := walks_of_reading ((reading_iff 0).mpr known)
    obtain ⟨tree, derives⟩ := derives_of_walks walks
    exact ⟨tree, tokens, scanned, derives⟩

/-- The tree of a text shows the lines that are read. -/
theorem Parses.shows {tree : Node} (parses : Parses text tree) (known : read text = .ok lines) :
    ∃ children, tree = .tree .start children ∧ ShowsAll children lines ∧
      Settled text (tokensOf children) := by
  obtain ⟨tokens, scanned, derives⟩ := parses
  obtain ⟨children, others, same, shows, walks⟩ := walks_of_derives derives
  cases same
  have reading := reading_of_scanned scanned walks
  obtain rfl := reading.unique ((reading_iff 0).mpr known)
  refine ⟨children, rfl, shows, scanned.settled.sublist ?_⟩
  simpa using derives.sublist

end Scanned

/-! ## Flags -/

/-- A statement is a transaction without a flag. -/
def Node.lacksFlag : Node → Bool
  | .tree .statement (.tree .dated [.tree .transaction (_ :: .gap :: _)] :: _) => true
  | _ => false

/-- A statement of a file is a transaction without a flag. -/
def Node.isFlagless : Node → Bool
  | .tree .start children => children.any lacksFlag
  | _ => false

/-- A statement lacks the flag that its line lacks. -/
theorem Shows.lacksFlag_eq {node : Node} {line : Line} (shows : Shows node line) :
    node.lacksFlag = !line.isFlagged := by
  cases shows with
  | remark => rfl
  | directive shows =>
    cases shows with
    | transaction heading =>
      simp only [Line.isFlagged]
      cases heading.flag <;> rfl
    | @otherDated rule other parts =>
      cases rule <;> first | rfl | exact absurd rfl other.1
    | _ => rfl

/-- The statements of a file lack the flags that its lines lack. -/
theorem ShowsAll.any_lacksFlag {nodes : List Node} {lines : List Line}
    (shows : ShowsAll nodes lines) :
    nodes.any Node.lacksFlag = !lines.all Line.isFlagged := by
  induction shows with
  | nil => rfl
  | gap _ ih => exact ih
  | cons shows _ ih => rw [List.any_cons, List.all_cons, shows.lacksFlag_eq, ih, Bool.not_and]

/-- A tree has a transaction without a flag exactly if one of the lines that are read is one. -/
theorem Parses.isFlagless_eq {text : Text} {tree : Node} {lines : List Line}
    (parses : Parses text tree) (known : read text = .ok lines) :
    tree.isFlagless = !lines.all Line.isFlagged := by
  obtain ⟨children, rfl, shows, _⟩ := parses.shows known
  exact shows.any_lacksFlag

end Grammar

/-- A line fails only if it closes a transaction without a flag. Otherwise a flag is missing after
it if one was missing before or the line has none. -/
theorem Progress.isFlagged_of_advance (source : Source) (progress : Progress) (line : Line) :
    match progress.advance source line with
    | .error _ => progress.pending.isFlagged = false
    | .ok (next, _) => next.pending.isFlagged = (progress.pending.isFlagged && line.isFlagged) := by
  obtain ⟨pending, included⟩ := progress
  have closing (next : Progress) (yields : List Directive → Collected)
      (own : next.pending.isFlagged = line.isFlagged) :
      match (pending.finish source).map fun closed => (next, yields closed) with
      | .error _ => pending.isFlagged = false
      | .ok (next, _) => next.pending.isFlagged = (pending.isFlagged && line.isFlagged) := by
    rw [Pending.finish_eq]
    cases flagged : pending.isFlagged with
    | false => rfl
    | true => exact own
  have plain (unflagged : line.isFlagged = true) :
      pending.isFlagged = (pending.isFlagged && line.isFlagged) := by
    rw [unflagged, Bool.and_true]
  cases statement : line.statement with
  | remark =>
    simp only [advance, statement]
    exact plain (by simp only [Line.isFlagged, statement])
  | posting posting =>
    simp only [advance, statement]
    cases pending <;> exact plain (by simp only [Line.isFlagged, statement])
  | metadata key stop =>
    simp only [advance, statement]
    cases pending <;> exact plain (by simp only [Line.isFlagged, statement])
  | _ =>
    simp only [advance, statement]
    exact closing _ _ (by simp only [Line.isFlagged, statement, Pending.isFlagged])

/-- Collecting fails exactly if a flag is missing. The induction is on the lines, with the flag of
the transaction that is open asked when it is closed. -/
theorem collectFrom_isOk (source : Source) (progress : Progress) (lines : List Line) :
    (∃ collected, collectFrom source progress.pending progress.included lines = .ok collected) ↔
      (progress.pending.isFlagged && lines.all Line.isFlagged) = true := by
  induction lines generalizing progress with
  | nil =>
    change (∃ collected, (progress.pending.finish source >>= fun closed =>
      .ok (⟨closed, []⟩ : Collected)) = .ok collected) ↔ _
    rw [Pending.finish_eq]
    cases progress.pending.isFlagged <;> simp [bind, Except.bind]
  | cons line rest ih =>
    have own := progress.isFlagged_of_advance source line
    rw [Progress.collectFrom_eq, List.all_cons, ← Bool.and_assoc]
    cases advanced : progress.advance source line with
    | error failure =>
      rw [advanced] at own
      simp [own, Except.bind]
    | ok result =>
      obtain ⟨next, first⟩ := result
      rw [advanced] at own
      rw [← own, ← ih next]
      change (∃ collected, (collectFrom source next.pending next.included rest).map first.append =
        .ok collected) ↔ _
      cases collectFrom source next.pending next.included rest <;> simp [Except.map]

namespace Grammar

/-- Collecting from the tree of a file fails only where a transaction has no flag. -/
theorem collectTree_of_derives (path : Text) {text : Text} {tokens : List Token} {nodes : List Node}
    (settled : Settled text tokens) (derives : Derives [.rule .start] tokens nodes) :
    ∃ tree, nodes = [tree] ∧
      (tree.isFlagless = true → collectTree (Source.ofText path text) tree = .error .flagless) ∧
      (tree.isFlagless = false →
        ∃ collected, collectTree (Source.ofText path text) tree = .ok collected) := by
  obtain ⟨children, lines, rfl, shows, _⟩ := walks_of_derives derives
  have inside : Settled text (tokensOf children) := settled.sublist (by simpa using derives.sublist)
  have whole := collectFrom_isOk (Source.ofText path text) ⟨.nothing, []⟩ lines
  refine ⟨_, rfl, ?_⟩
  rw [collectTree_eq shows inside, Node.isFlagless, shows.any_lacksFlag]
  change ((∃ collected, collect _ lines = .ok collected) ↔ lines.all Line.isFlagged = true) at whole
  cases collected : collect (Source.ofText path text) lines with
  | error failure =>
    rw [collected] at whole
    simpa using whole
  | ok result =>
    rw [collected] at whole
    simpa using whole

end Grammar

namespace Page

open Grammar

/-- A file fails to be understood in one way only. Bytes that are no text leave a page with one
error and nothing else, and so does a text that has a visible character and that the grammar does
not produce; a text of blanks says nothing. The page of any other text is collected from its tree,
without errors, unless a transaction of the tree has no flag: then, and only then, there is no page.
Collecting from a tree that the grammar produces takes many steps without a check, and none of the
others fails, for whatever tokens of whatever text the tree has. -/
theorem ofBytes_parses (path : FilePath) (content : Bytes) :
    (∀ malformed, Text.Utf8.decode content = .error malformed →
      ∃ error, ofBytes path content = .ok (failed path.toText error)) ∧
    (∀ text, Text.Utf8.decode content = .ok text →
      (text.all Text.isBlank = true → ofBytes path content =
        .ok { path := path.toText, directives := [], errors := [], warnings := [] }) ∧
      (text.all Text.isBlank = false →
        ((∀ tree, ¬ Parses text tree) →
          ∃ error, ofBytes path content = .ok (failed path.toText error)) ∧
        ∀ tree, Parses text tree →
          (tree.isFlagless = true → ofBytes path content = .error .flagless) ∧
          (tree.isFlagless = false →
            ∃ collected, collectTree (Source.ofText path.toText text) tree = .ok collected ∧
              ofBytes path content = .ok (ofCollected path.toText collected)))) ∧
    ∀ text tokens nodes, Settled text tokens → Derives [.rule .start] tokens nodes →
      ∃ tree, nodes = [tree] ∧
        (tree.isFlagless = true →
          collectTree (Source.ofText path.toText text) tree = .error .flagless) ∧
        (tree.isFlagless = false →
          ∃ collected, collectTree (Source.ofText path.toText text) tree = .ok collected) := by
  refine ⟨fun malformed known => ?_, fun text known => ⟨fun blank => ?_, fun visible => ⟨?_, ?_⟩⟩,
    fun text tokens nodes settled derives => collectTree_of_derives path.toText settled derives⟩
  · exact ⟨_, by rw [ofBytes, known]⟩
  · rw [ofBytes, known]
    exact if_pos blank
  · intro none
    cases read : Statement.read text with
    | ok lines =>
      obtain ⟨tree, parses⟩ := parses_iff.mpr ⟨lines, read⟩
      exact absurd parses (none tree)
    | error unexpected =>
      refine ⟨diagnose (Source.ofText path.toText text) unexpected, ?_⟩
      simp only [ofBytes, known, ofText, visible, Bool.false_eq_true, if_false, read]
  · intro tree parses
    obtain ⟨lines, read⟩ := parses_iff.mp ⟨tree, parses⟩
    obtain ⟨children, rfl, shows, settled⟩ := parses.shows read
    have whole := Statement.collect_eq path.toText read
    have page : ofBytes path content = (collect (Source.ofText path.toText text) lines).map
        (ofCollected path.toText) := by
      simp only [ofBytes, known, ofText, visible, Bool.false_eq_true, if_false, read]
      rfl
    rw [page, collectTree_eq shows settled, parses.isFlagless_eq read, whole]
    cases lines.all Line.isFlagged with
    | true => exact ⟨by simp, fun _ => ⟨_, rfl, rfl⟩⟩
    | false => exact ⟨fun _ => rfl, by simp⟩

/-- The grammar does not produce a no-break space, and its page has no error all the same: a text of
blanks is not read at all. -/
theorem ofBytes_noBreakSpace : (∀ tree, ¬ Parses "\u00a0" tree) ∧
    Text.Utf8.decode [0xC2, 0xA0] = .ok "\u00a0" ∧
    ofBytes (FilePath.ofText "a.bean") [0xC2, 0xA0] =
      .ok { path := "a.bean", directives := [], errors := [], warnings := [] } := by
  have unread : (Statement.read "\u00a0").toOption.isNone = true := by decide +kernel
  have decoded : Text.Utf8.decode [0xC2, 0xA0] = .ok "\u00a0" := by decide +kernel
  refine ⟨fun tree parses => ?_, decoded, ?_⟩
  · obtain ⟨lines, read⟩ := parses_iff.mp ⟨tree, parses⟩
    rw [read] at unread
    cases unread
  · have blank : List.all "\u00a0" Text.isBlank = true := by decide +kernel
    simp only [ofBytes, decoded, ofText, blank, if_true]
    rfl

/-- One byte that is no text, a word that is no statement, a transaction without a flag and one with
a flag and a posting. -/
theorem ofBytes_parsed :
    (∃ error, ofBytes (FilePath.ofText "a.bean") [0xFF] = .ok (failed "a.bean" error)) ∧
    (∃ error, ofBytes (FilePath.ofText "a.bean") (Text.Utf8.encode "oops") =
      .ok (failed "a.bean" error)) ∧
    ofBytes (FilePath.ofText "a.bean") (Text.Utf8.encode "2024-01-05 \"x\"\n  A:B\n") =
      .error .flagless ∧
    ∃ tokens tree collected,
      Settled "2024-01-05 * \"x\"\n  A:B 1 USD {2 EUR} ; n\n" tokens ∧
      Derives [.rule .start] tokens [tree] ∧
      collectTree (Source.ofText "a.bean" "2024-01-05 * \"x\"\n  A:B 1 USD {2 EUR} ; n\n") tree =
        .ok collected ∧
      ofBytes (FilePath.ofText "a.bean")
        (Text.Utf8.encode "2024-01-05 * \"x\"\n  A:B 1 USD {2 EUR} ; n\n") =
        .ok (ofCollected "a.bean" collected) := by
  have lines (text : Text) (flagged : Bool) (shape : (Statement.read text).toOption.any
      (fun lines => lines.all Line.isFlagged == flagged) = true) :
      ∃ tree, Parses text tree ∧ tree.isFlagless = !flagged := by
    obtain ⟨lines, read, shape⟩ := exists_of_any shape
    obtain ⟨tree, parses⟩ := parses_iff.mpr ⟨lines, read⟩
    refine ⟨tree, parses, ?_⟩
    rw [parses.isFlagless_eq read, beq_iff_eq.mp shape]
  refine ⟨?_, ?_, ?_, ?_⟩
  · rcases known : Text.Utf8.decode [0xFF] with malformed | text
    · exact (ofBytes_parses (FilePath.ofText "a.bean") [0xFF]).1 malformed known
    · have shape : (Text.Utf8.decode [0xFF]).toOption.isNone = true := by decide +kernel
      rw [known] at shape
      cases shape
  · obtain ⟨_, texts, _⟩ :=
      ofBytes_parses (FilePath.ofText "a.bean") (Text.Utf8.encode "oops")
    refine ((texts "oops" (Text.Utf8.decode_encode _)).2 (by decide +kernel)).1
      fun tree parses => ?_
    have unread : (Statement.read "oops").toOption.isNone = true := by decide +kernel
    obtain ⟨lines, read⟩ := parses_iff.mp ⟨tree, parses⟩
    rw [read] at unread
    cases unread
  · obtain ⟨tree, parses, flagless⟩ :=
      lines "2024-01-05 \"x\"\n  A:B\n" false (by decide +kernel)
    obtain ⟨_, texts, _⟩ := ofBytes_parses (FilePath.ofText "a.bean")
      (Text.Utf8.encode "2024-01-05 \"x\"\n  A:B\n")
    exact (((texts _ (Text.Utf8.decode_encode _)).2 (by decide +kernel)).2 tree parses).1 flagless
  · obtain ⟨tree, parses, flagged⟩ :=
      lines "2024-01-05 * \"x\"\n  A:B 1 USD {2 EUR} ; n\n" true (by decide +kernel)
    obtain ⟨_, texts, trees⟩ := ofBytes_parses (FilePath.ofText "a.bean")
      (Text.Utf8.encode "2024-01-05 * \"x\"\n  A:B 1 USD {2 EUR} ; n\n")
    obtain ⟨collected, taken, paged⟩ :=
      (((texts _ (Text.Utf8.decode_encode _)).2 (by decide +kernel)).2 tree parses).2 flagged
    obtain ⟨tokens, scanned, derives⟩ := parses
    obtain ⟨_, same, _, unfailing⟩ := trees _ tokens [tree] scanned.settled derives
    cases same
    obtain ⟨others, also⟩ := unfailing flagged
    obtain rfl := Except.ok.inj (taken.symm.trans also)
    exact ⟨tokens, tree, collected, scanned.settled, derives, also, paged⟩

end Page

end Daybook
