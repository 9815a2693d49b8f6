import Daybook.Proofs.Page.Contents
import Daybook.Proofs.Page.Cutting
import Daybook.Proofs.Statement.Tokens

/-!
# Further lines

Lines can be added to a text that has been read, if they begin on a line of their own: the text
is empty or ends with a line feed, or a line feed comes first. The lines that were read stay what
they are, since no token of them reaches beyond its line end, and a quoted text that spans lines
is closed by a quotation mark. What was collected from them stays the same as well, spans
included, since nothing that stands behind a line has a part in what it says.

What is added is a passage: a part of a text that is read as whole lines, none of which belongs
to a directive before it. Passages one after the other are a passage, and a text that is a
passage is a page without errors.
-/
namespace Daybook

namespace Lexeme

/-- A closing mark is a quotation mark. -/
theorem closingMark_getLast {odd : Bool} {text : Text} {length : Nat}
    (found : closingMark odd text = some length) : (text.take length).getLast? = some '"' := by
  fun_induction closingMark odd text generalizing length with
  | case1 => cases found
  | case2 others ih =>
    obtain ⟨inner, held, rfl⟩ := Option.map_eq_some_iff.mp found
    rw [Nat.add_comm, List.take_succ_cons, List.getLast?_cons, ih held]
    rfl
  | case3 odd others even =>
    cases found
    rfl
  | case4 odd others _ ih =>
    obtain ⟨inner, held, rfl⟩ := Option.map_eq_some_iff.mp found
    rw [Nat.add_comm, List.take_succ_cons, List.getLast?_cons, ih held]
    rfl
  | case5 odd c others quote solidus ih =>
    obtain ⟨inner, held, rfl⟩ := Option.map_eq_some_iff.mp found
    rw [Nat.add_comm, List.take_succ_cons, List.getLast?_cons, ih held]
    rfl

/-- A quoted text ends with a quotation mark. -/
theorem Begins.getLast_quoted {expected : Expected} {position : Nat} {text rest : Text}
    {token : Token} (begins : Begins expected position text token rest)
    (quoted : token.terminal = .quotedText) : token.text.getLast? = some '"' := by
  have held := (begins.held (by rw [quoted]; decide)).2
  rw [quoted, Terminal.length?] at held
  unfold quotedLength at held
  split at held
  · next others =>
    obtain ⟨inner, closed, size⟩ := Option.map_eq_some_iff.mp held
    have spelled : token.text = '"' :: others.take inner := by
      have front := congrArg (List.take token.text.length) begins.whole
      rw [List.take_left, ← size, Nat.add_comm, List.take_succ_cons] at front
      exact front.symm
    rw [spelled, List.getLast?_cons, closingMark_getLast closed]
    rfl
  · cases held

/-- No token within a line ends with a line feed. -/
theorem Begins.getLast_ne {expected : Expected} {position : Nat} {text rest : Text} {token : Token}
    (begins : Begins expected position text token rest)
    (within : Statement.endsLine token = false) : token.text.getLast? ≠ some '\n' := by
  intro last
  by_cases quoted : token.terminal = .quotedText
  · rw [begins.getLast_quoted quoted] at last
    cases last
  · exact begins.quiet within quoted (List.mem_of_getLast? last)

/-- A token within a line stays the same when the text goes on behind its line. -/
theorem Begins.lengthen {expected : Expected} {position : Nat} {rest tail : Text} {token : Token}
    (begins : Begins expected position (token.text ++ rest) token rest)
    (within : Statement.endsLine token = false)
    (parted : (∃ others, tail = '\n' :: others) ∨ rest.getLast? = some '\n') :
    Begins expected position (token.text ++ (rest ++ tail)) token (rest ++ tail) := by
  rcases parted with ⟨others, rfl⟩ | last
  · have whole : Begins expected position (token.text ++ (rest ++ [])) token (rest ++ []) := by
      rw [List.append_nil]
      exact begins
    exact whole.exchange ('\n' :: others) within (Or.inl rfl) (Or.inr ⟨others, rfl⟩)
  · obtain ⟨front, rfl⟩ := List.getLast?_eq_some_iff.mp last
    rw [List.append_assoc]
    exact begins.exchange ('\n' :: tail) within (Or.inr ⟨[], rfl⟩) (Or.inr ⟨tail, rfl⟩)

end Lexeme

namespace Statement

open Lexeme

/-- Where a line is complete it may end, unless none has begun. -/
theorem newline_listed {place : Place} {lines : List Line} (complete : place.lines? = some lines)
    (begun : place ≠ .fileStart) : Terminal.newline ∈ place.expected.terminals := by
  cases place with
  | fileStart => exact absurd rfl begun
  | _ => simp_all [Place.lines?, Place.statement?, Place.expected, Expected.terminals]

/-- Where a line is complete a line feed ends it, unless none has begun. -/
theorem Reading.feed {place : Place} {position : Nat} {rest : Text} {line : Line}
    {more : List Line} (complete : place.lines? = some [line])
    (further : Reading .lineStart (position + 1) rest more) :
    Reading place position ('\n' :: rest) (line :: more) := by
  have begun : place ≠ .fileStart := by
    rintro rfl
    cases complete
  exact (reading_lineEnd_iff (newline_listed complete begun) (Or.inl (rfl : ['\n'] = ['\n']))).mpr
    ⟨[line], more, complete, rfl, further⟩

/-- Further lines are read behind the lines of a text. The induction is on how the text was read;
the further lines take the place of its end. -/
theorem Reading.append {place : Place} {position : Nat} {text tail : Text} {lines more : List Line}
    (reading : Reading place position text lines)
    (parted : (∃ others, tail = '\n' :: others) ∨ text.getLast? = some '\n' ∨
      (text = [] ∧ (place = .fileStart ∨ place = .lineStart)))
    (further : Reading .lineStart (position + text.length) tail more) :
    Reading place position (text ++ tail) (lines ++ more) := by
  induction reading with
  | @textEnd place position lines complete =>
    rw [List.nil_append]
    by_cases start : place = .fileStart ∨ place = .lineStart
    · rcases start with rfl | rfl
      · cases complete
        exact further.fromStart
      · cases complete
        exact further
    · obtain ⟨others, rfl⟩ : ∃ others, tail = '\n' :: others := by
        rcases parted with feed | last | ⟨_, atStart⟩
        · exact feed
        · cases last
        · exact absurd atStart start
      have listed := newline_listed complete fun same => start (Or.inl same)
      have behind := (reading_lineStart_iff position more others (Or.inl rfl)).mp further
      exact (reading_lineEnd_iff listed (Or.inl (rfl : ['\n'] = ['\n']))).mpr
        ⟨lines, more, complete, rfl, behind⟩
  | @space place position c others lines blank _ ih =>
    rw [List.cons_append]
    refine .space blank (ih ?_ ?_)
    · rcases parted with feed | last | ⟨empty, _⟩
      · exact Or.inl feed
      · refine Or.inr (Or.inl ?_)
        cases others with
        | nil =>
          obtain rfl : c = '\n' := Option.some.inj last
          cases blank
        | cons next others => rwa [List.getLast?_cons_cons] at last
      · cases empty
    · rw [Nat.add_right_comm]
      exact further
  | @lineEnd place position text rest token done lines begins ends complete _ ih =>
    have whole := begins.whole
    rw [whole, List.append_assoc, List.append_assoc]
    refine Reading.lineEnd_exchange begins ends complete (ih ?_ ?_)
    · rcases parted with feed | last | ⟨empty, _⟩
      · exact Or.inl feed
      · cases rest with
        | nil => exact Or.inr (Or.inr ⟨rfl, lineAfter_cases token⟩)
        | cons c others =>
          rw [whole, List.getLast?_append_cons] at last
          exact Or.inr (Or.inl last)
      · obtain ⟨c, others, some, _⟩ := begins.cons
        rw [some] at empty
        cases empty
    · rw [begins.stop_add, ← whole]
      exact further
  | @token place next position text rest token lines begins within leads _ ih =>
    have whole := begins.whole
    have later : (∃ others, tail = '\n' :: others) ∨ rest.getLast? = some '\n' := by
      rcases parted with feed | last | ⟨empty, _⟩
      · exact Or.inl feed
      · cases rest with
        | nil =>
          rw [whole, List.append_nil] at last
          exact absurd last (begins.getLast_ne within)
        | cons c others =>
          rw [whole, List.getLast?_append_cons] at last
          exact Or.inr last
      · obtain ⟨c, others, some, _⟩ := begins.cons
        rw [some] at empty
        cases empty
    subst whole
    rw [List.append_assoc]
    refine .token (begins.lengthen within later) within leads (ih ?_ ?_)
    · exact later.imp_right Or.inl
    · rw [begins.stop_add]
      exact further

/-- Behind the account of a posting a text that ends with a line feed has one. An account does not
end with a line feed itself, so the last character of the text is behind it. -/
theorem feed_behind_account {text : Text} {start stop : Nat} {line : Line} {posting : PostingLine}
    (last : text.getLast? = some '\n') (standing : line.Standing text start stop)
    (worded : line.statement.Worded text) (statement : line.statement = .posting posting) :
    '\n' ∈ Text.slice text posting.account.stop text.length := by
  rw [statement] at worded
  have stands : posting.account.Stands text :=
    ((standing.extent _ (by rw [statement]; rfl)).tokens _ (by simp)).1
  have whole : text = text.take posting.account.start ++ (posting.account.text ++
      Text.slice text posting.account.stop text.length) := by
    have rest : Text.slice text posting.account.stop text.length =
        text.drop posting.account.stop := by
      rw [Text.slice, List.take_of_length_le (by simp)]
    rw [rest]
    obtain ⟨expected, begins⟩ := stands
    rw [← begins.whole, List.take_append_drop]
  by_cases finished : Text.slice text posting.account.stop text.length = []
  · obtain ⟨expected, begins⟩ := stands
    have within : endsLine posting.account = false := by
      simp [endsLine, PostingLine.Worded.account worded]
    have nonempty : posting.account.text ≠ [] := by
      obtain ⟨c, inner, spelled, _⟩ := begins.plain
      simp [spelled]
    rw [whole, finished, List.append_nil, List.getLast?_append_of_ne_nil _ nonempty] at last
    exact absurd last (begins.getLast_ne within)
  · rw [whole, ← List.append_assoc, List.getLast?_append_of_ne_nil _ finished] at last
    exact List.mem_of_getLast? last

end Statement

/-! ## What further lines say -/

open Statement

/-- Further lines that do not belong to an open directive are collected behind the others. -/
theorem Progress.collectFrom_behind {source : Source} {pending : Pending} {included : List Phrase}
    {lines more : List Line} {collected others : Collected} (closed : Closed more)
    (first : collectFrom source pending included lines = .ok collected)
    (second : ∀ included, collectFrom source .nothing included more = .ok others) :
    collectFrom source pending included (lines ++ more) = .ok (collected.append others) := by
  rw [← List.append_nil lines] at first
  obtain ⟨next, yielded, finished, advanced, finishing, rfl⟩ :=
    (@collectFrom_append_iff source ⟨pending, included⟩ _ _ _).mp first
  obtain ⟨directives, ended, same⟩ := bind_eq_ok_iff.mp finishing
  cases same
  refine (@collectFrom_append_iff source ⟨pending, included⟩ _ _ _).mpr
    ⟨next, yielded, (⟨directives, []⟩ : Collected).append others, advanced, ?_, ?_⟩
  · exact (collectFrom_closed closed).mpr ⟨directives, others, ended, second _, rfl⟩
  · rw [Collected.append_assoc]

/-- Lines of a text say the same when the text goes on behind them. The old text is a part that both
have in common; only the line of a last posting asks what comes behind it, and that is a line feed
in both. -/
theorem Statement.Reading.collect_lengthen {path text tail : Text} {lines : List Line}
    {collected : Collected} (reading : Reading .fileStart 0 text lines)
    (parted : (∃ others, tail = '\n' :: others) ∨ text.getLast? = some '\n' ∨ text = [])
    (whole : collect (Source.ofText path text) lines = .ok collected) :
    ∃ warnings, collect (Source.ofText path (text ++ tail)) lines =
        .ok ⟨collected.directives, warnings⟩ ∧
      warnings.map Diagnostic.message = collected.warnings.map Diagnostic.message := by
  have alike := Source.alike_front path text tail []
  rw [List.append_nil] at alike
  have within : ∀ line ∈ lines, line.Within (Source.ofText path text)
      (Source.ofText path (text ++ tail)) 0 0 text.length := by
    intro line member
    obtain ⟨start, stop, _, order, ends, standing⟩ :=
      reading.laid_whole.each line member
    refine standing.within (Nat.zero_le _) ends.inside fun posting statement => ?_
    rcases parted with ⟨others, feed⟩ | last | empty
    · refine Or.inr ⟨rfl, Or.inr ⟨others, ?_⟩⟩
      simp [Source.ofText, feed]
    · have worded := reading.worded_whole line member
      exact Or.inl (feed_behind_account last standing worded statement)
    · have inside := ends.inside
      have token := (standing.extent _ (by rw [statement]; rfl)).tokens posting.account (by simp)
      have positive := token.1.positive
      have bounded := token.1.inside
      rw [empty, List.length_nil] at bounded
      omega
  have moved := alike.collectFrom_moved within
    (show Progress.Moved 0 0 0 text.length ⟨.nothing, []⟩ ⟨.nothing, []⟩ from ⟨.nothing, rfl⟩)
  have still : lines.map (Line.shift 0) = lines := List.map_id'' Line.shift_zero _
  have same : collectFrom (Source.ofText path text) .nothing [] lines = .ok collected := whole
  rw [still, same] at moved
  obtain ⟨far, found, kept⟩ := moved.of_ok
  refine ⟨far.warnings, ?_, kept.messages⟩
  have directives := kept.directives
  rw [show collected.directives.map (Directive.shift 0) = collected.directives from
    List.map_id'' Directive.shift_zero _] at directives
  rw [← directives]
  exact found

/-! ## Passages -/

/-- A part of a text that is read as whole lines, none of which belongs to what stands before
it, and that says some directives and gives no cause for a warning. -/
def Passage (path whole : Text) (position : Nat) (text : Text) (directives : List Directive) :
    Prop :=
  ∃ lines, Progress.Closed lines ∧
    (∀ rest more, Reading .lineStart (position + text.length) rest more →
      Reading .lineStart position (text ++ rest) (lines ++ more)) ∧
    ∀ included, collectFrom (Source.ofText path whole) .nothing included lines =
      .ok ⟨directives, []⟩

namespace Passage

variable {path whole : Text} {position : Nat}

/-- No text says nothing. -/
theorem nil (path whole : Text) (position : Nat) : Passage path whole position [] [] :=
  ⟨[], trivial, fun _ _ further => further, fun _ => rfl⟩

/-- An empty line says nothing. -/
theorem emptyLine (path whole : Text) (position : Nat) : Passage path whole position ['\n'] [] := by
  refine ⟨[], trivial, fun rest more further => ?_, fun _ => rfl⟩
  exact (reading_lineEnd_iff (by decide) (Or.inl rfl)).mpr ⟨[], more, rfl, rfl, further⟩

/-- Passages one after the other are a passage. -/
theorem append {front back : Text} {first second : List Directive}
    (before : Passage path whole position front first)
    (behind : Passage path whole (position + front.length) back second) :
    Passage path whole position (front ++ back) (first ++ second) := by
  obtain ⟨lines, closed, reads, collects⟩ := before
  obtain ⟨more, closedMore, readsMore, collectsMore⟩ := behind
  refine ⟨lines ++ more, ?_, ?_, ?_⟩
  · clear reads collects
    induction lines with
    | nil => exact closedMore
    | cons line lines ih => exact closed.imp_left (And.imp_right ih)
  · intro rest others further
    rw [List.append_assoc, List.append_assoc]
    refine reads _ _ (readsMore _ _ ?_)
    rwa [List.length_append, ← Nat.add_assoc] at further
  · intro included
    exact Progress.collectFrom_behind closedMore (collects included) collectsMore

end Passage

section Items

variable {α : Type}

/-- What items say whose texts stand one after the other from a position on. -/
def sayings (text : α → Text) (meaning : Nat → α → List Directive) : Nat → List α → List Directive
  | _, [] => []
  | position, item :: items =>
    meaning position item ++ sayings text meaning (position + (text item).length) items

/-- Items that are passages wherever they stand are a passage together. -/
theorem Passage.items {path whole rest : Text} {position : Nat} {text : α → Text}
    {meaning : Nat → α → List Directive} {items : List α}
    (each : ∀ item ∈ items, ∀ position rest, whole.drop position = text item ++ rest →
      Passage path whole position (text item) (meaning position item))
    (stands : whole.drop position = items.flatMap text ++ rest) :
    Passage path whole position (items.flatMap text) (sayings text meaning position items) := by
  induction items generalizing position with
  | nil => exact .nil path whole position
  | cons item items ih =>
    obtain ⟨first, others⟩ := List.forall_mem_cons.mp each
    rw [List.flatMap_cons, List.append_assoc] at stands
    have behind : whole.drop (position + (text item).length) = items.flatMap text ++ rest := by
      rw [← List.drop_drop, stands, List.drop_left]
    exact (first position _ stands).append (ih others behind)

end Items

namespace Page

/-- A text that is a passage is a page without errors and warnings. -/
theorem ofText_passage {path text : Text} {directives : List Directive}
    (passage : Passage path text 0 text directives) :
    ofText path text = .ok { path, directives, errors := [], warnings := [] } := by
  obtain ⟨lines, _, reads, collects⟩ := passage
  have reading := reads [] [] (reading_nil_iff.mpr rfl)
  rw [List.append_nil, List.append_nil] at reading
  exact ofText_of_reading reading.fromStart (collects [])

/-- A passage that is added to a text that has been read is added to its page. -/
theorem ofText_append {path text tail : Text} {lines : List Line} {collected : Collected}
    {directives : List Directive} (reading : Reading .fileStart 0 text lines)
    (whole : collect (Source.ofText path text) lines = .ok collected)
    (parted : (∃ others, tail = '\n' :: others) ∨ text.getLast? = some '\n' ∨ text = [])
    (passage : Passage path (text ++ tail) text.length tail directives) :
    ∃ warnings, ofText path (text ++ tail) =
        .ok { path, directives := collected.directives ++ directives, errors := [], warnings } ∧
      warnings.map Diagnostic.message = collected.warnings.map Diagnostic.message := by
  obtain ⟨more, closed, reads, collects⟩ := passage
  have further := reads [] [] (reading_nil_iff.mpr rfl)
  rw [List.append_nil, List.append_nil] at further
  obtain ⟨warnings, lengthened, same⟩ := reading.collect_lengthen parted whole
  have both := reading.append (parted.imp_right fun front => front.imp_right fun empty =>
    ⟨empty, Or.inl rfl⟩) (by rwa [Nat.zero_add])
  refine ⟨warnings, ?_, same⟩
  rw [ofText_of_reading both (Progress.collectFrom_behind closed lengthened collects)]
  simp [ofCollected]

end Page

end Daybook
