import Daybook.Proofs.Lexeme.Lookahead
import Daybook.Proofs.Result
import Daybook.Proofs.Statement.Steps
import Daybook.Statement.Reading

/-!
# Reading as a relation

Reading is a recursion on the text that is left. Here it is said once more as a relation
between a place, a position, a text and the lines in it, with one rule for each thing that can
stand next: a blank, a token within a line, a token that ends a line, or nothing. The relation
holds exactly if reading succeeds, and what is proved about reading is proved by induction on
these rules.
-/
namespace Daybook

namespace Lexeme

/-- A token stands at the beginning of a text, and `rest` follows it. -/
structure Begins (expected : Expected) (position : Nat) (text : Text) (token : Token)
    (rest : Text) : Prop where
  whole : text = token.text ++ rest
  start : token.start = position
  plain : ∃ c inner, token.text = c :: inner ∧ isSpace c = false
  sort : ∃ terminal, first? expected.terminals text = some (terminal, token.text.length) ∧
    token.terminal = Expected.keyword terminal token.text

variable {expected : Expected} {position : Nat} {token : Token}

/-- The token that stands at the beginning of a text is the next token. -/
theorem begins_iff {c : Char} {others rest : Text} :
    Begins expected position (c :: others) token rest ↔ isSpace c = false ∧
      next expected position c others = .ok token ∧ rest = (c :: others).drop token.text.length := by
  constructor
  · rintro ⟨whole, start, ⟨first, inner, spelled, plain⟩, terminal, found, sort⟩
    have same : c = first := by
      rw [spelled] at whole
      exact (List.cons.inj whole).1
    have lexeme : (c :: others).take token.text.length = token.text := by
      rw [whole]
      simp
    refine ⟨same ▸ plain, ?_, ?_⟩
    · simp only [next, found, lexeme, ← sort, ← start]
    · rw [whole]
      simp
  · rintro ⟨plain, found, rfl⟩
    simp only [next] at found
    split at found
    · next terminal length heard =>
      have inside := length?_le (length?_of_first? heard).2
      have positive := pos_of_first? heard
      cases found
      have spelled : ((c :: others).take length).length = length := by
        rw [List.length_take, Nat.min_eq_left inside]
      refine ⟨?_, rfl, ?_, terminal, ?_, rfl⟩
      · rw [spelled, List.take_append_drop]
      · cases length with
        | zero => omega
        | succ length => exact ⟨c, others.take length, rfl, plain⟩
      · rw [spelled, heard]
    · split at found
      · cases found
      · cases found

/-- The token that stands at the beginning of a text has at least one character. -/
theorem Begins.positive {text rest : Text} (begins : Begins expected position text token rest) :
    token.start < token.stop := by
  obtain ⟨c, inner, spelled, _⟩ := begins.plain
  simp [Token.stop, spelled]

/-- A token begins with a character that is no space, since spaces have been skipped before any sort
is asked. -/
theorem Begins.cons {text rest : Text} (begins : Begins expected position text token rest) :
    ∃ c others, text = c :: others ∧ isSpace c = false := by
  obtain ⟨c, inner, spelled, plain⟩ := begins.plain
  exact ⟨c, inner ++ rest, by rw [begins.whole, spelled, List.cons_append], plain⟩

/-- Only one token stands at the beginning of a text. -/
theorem Begins.unique {text rest tail : Text} {other : Token}
    (begins : Begins expected position text token rest)
    (alsoBegins : Begins expected position text other tail) : token = other ∧ rest = tail := by
  obtain ⟨c, others, rfl, _⟩ := begins.cons
  obtain ⟨_, found, rfl⟩ := begins_iff.mp begins
  obtain ⟨_, alsoFound, rfl⟩ := begins_iff.mp alsoBegins
  have same := Except.ok.inj (found.symm.trans alsoFound)
  exact ⟨same, by rw [same]⟩

/-- The three keywords of the beginning of a line end no line. -/
theorem endsLine_iff {terminal : Terminal}
    (sort : token.terminal = Expected.keyword terminal token.text) :
    Statement.endsLine token = true ↔ terminal = .newline ∨ terminal = .emptyLine := by
  by_cases key : terminal = .metadataKey
  · subst key
    have word : token.terminal ≠ .newline ∧ token.terminal ≠ .emptyLine := by
      rw [sort, Expected.keyword, if_pos rfl]
      split
      · decide
      · split
        · decide
        · split <;> decide
    simp [Statement.endsLine, word]
  · rw [Expected.keyword, if_neg key] at sort
    simp [Statement.endsLine, sort]

/-- A token that does not end a line does not begin with a character that ends lines. -/
theorem Begins.not_lineBreak {c : Char} {others rest : Text}
    (begins : Begins expected position (c :: others) token rest)
    (within : Statement.endsLine token = false) : c ≠ '\n' ∧ c ≠ '\r' := by
  obtain ⟨terminal, found, sort⟩ := begins.sort
  obtain ⟨_, held⟩ := length?_of_first? found
  have inside : ¬ (terminal = .newline ∨ terminal = .emptyLine) := by
    intro ends
    rw [(endsLine_iff sort).mpr ends] at within
    cases within
  rw [not_or] at inside
  rw [← not_or]
  intro lineBreak
  rw [Terminal.length?_lineBreak lineBreak inside.1 inside.2] at held
  cases held

/-- The end of what follows a token, counted from its end and from its beginning. -/
theorem Begins.stop_add {rest : Text} (begins : Begins expected position text token rest)
    (front : Text) : token.stop + front.length = position + (token.text ++ front).length := by
  rw [Token.stop, begins.start, List.length_append, Nat.add_assoc]

/-- A token that does not end a line stays the same when what follows its line is exchanged. -/
theorem Begins.exchange {front rest : Text} (other : Text)
    (begins : Begins expected position (token.text ++ (front ++ rest)) token (front ++ rest))
    (within : Statement.endsLine token = false) (ended : LineOver rest) (alsoEnded : LineOver other) :
    Begins expected position (token.text ++ (front ++ other)) token (front ++ other) := by
  obtain ⟨c, inner, spelled, space⟩ := begins.plain
  obtain ⟨terminal, found, sort⟩ := begins.sort
  refine ⟨rfl, begins.start, ⟨c, inner, spelled, space⟩, terminal, ?_, sort⟩
  rw [spelled, List.cons_append] at begins
  obtain ⟨feed, back⟩ := begins.not_lineBreak within
  have inside : token.text.length ≤ (inner ++ front).length + 1 := by
    rw [spelled]
    simp
  have found : first? expected.terminals (c :: (inner ++ front) ++ rest) =
      some (terminal, token.text.length) := by
    rw [← found, spelled]
    simp
  have exchanged := first?_exchange space feed back ended alsoEnded found inside
  rw [← exchanged, spelled]
  simp

end Lexeme

namespace Statement

open Lexeme

/-- The lines that reading finds from a place on. -/
inductive Reading : Place → Nat → Text → List Line → Prop where
  | textEnd {place : Place} {position : Nat} {lines : List Line}
      (complete : place.lines? = some lines) : Reading place position [] lines
  | space {place : Place} {position : Nat} {c : Char} {text : Text} {lines : List Line}
      (blank : isSpace c = true) (further : Reading place (position + 1) text lines) :
      Reading place position (c :: text) lines
  | lineEnd {place : Place} {position : Nat} {text rest : Text} {token : Token}
      {done lines : List Line} (begins : Begins place.expected position text token rest)
      (ends : endsLine token = true) (complete : place.lines? = some done)
      (further : Reading (lineAfter token) token.stop rest lines) :
      Reading place position text (done ++ lines)
  | token {place next : Place} {position : Nat} {text rest : Text} {token : Token}
      {lines : List Line} (begins : Begins place.expected position text token rest)
      (within : endsLine token = false) (leads : place.step token = some next)
      (further : Reading next token.stop rest lines) : Reading place position text lines

/-- What ends a line leads to the beginning of the next one, or of the file still. -/
theorem lineAfter_cases (token : Token) :
    lineAfter token = .fileStart ∨ lineAfter token = .lineStart := by
  unfold lineAfter
  split
  · exact Or.inl rfl
  · exact Or.inr rfl

section ReadFrom

variable {place : Place} {position last : Nat}

/-- What reading does at a character that is no blank, after as many blanks as there are. -/
def readAt (place : Place) (position last : Nat) : Text → Except Unexpected (List Line)
  | [] =>
    match place.lines? with
    | some lines => .ok lines
    | none => .error (.token ⟨.endOfText, last, []⟩)
  | c :: others =>
    match next place.expected position c others with
    | .error unexpected => .error unexpected
    | .ok token =>
      if endsLine token then
        match place.lines? with
        | some lines => (readFrom (lineAfter token) token.stop token.start
            ((c :: others).drop token.text.length)).map (lines ++ ·)
        | none => .error (.token token)
      else match place.step token with
        | some next =>
          readFrom next token.stop token.start ((c :: others).drop token.text.length)
        | none => .error (.token token)

/-- Reading skips the blanks and reads what follows them. -/
theorem readFrom_eq (place : Place) (position last : Nat) (text : Text) :
    readFrom place position last text =
      readAt place (position + Text.stretch isSpace text) last
        (text.drop (Text.stretch isSpace text)) := by
  rw [readFrom]
  split
  · next remaining =>
    rw [remaining]
    rfl
  · next c rest remaining =>
    rw [remaining]
    unfold readAt
    dsimp only
    cases next place.expected (position + Text.stretch isSpace text) c rest <;> rfl

/-- A blank is skipped. -/
theorem readFrom_space {c : Char} (blank : isSpace c = true) (text : Text) :
    readFrom place position last (c :: text) = readFrom place (position + 1) last text := by
  have longer : Text.stretch isSpace (c :: text) = Text.stretch isSpace text + 1 := by
    simp [Text.stretch, blank]
  rw [readFrom_eq, readFrom_eq, longer, List.drop_succ_cons, Nat.add_assoc, Nat.add_comm 1]

/-- Reading at a character that is no blank. -/
theorem readFrom_cons {c : Char} (plain : isSpace c = false) (others : Text) :
    readFrom place position last (c :: others) = readAt place position last (c :: others) := by
  have none : Text.stretch isSpace (c :: others) = 0 := by
    simp [Text.stretch, plain]
  rw [readFrom_eq, none]
  rfl

/-- At the end of the text there is nothing to skip. -/
theorem readFrom_nil : readFrom place position last [] = readAt place position last [] := by
  rw [readFrom_eq]
  rfl

/-- What the relation holds of is read. -/
theorem readFrom_of_reading {text : Text} {lines : List Line}
    (reading : Reading place position text lines) (last : Nat) :
    readFrom place position last text = .ok lines := by
  induction reading generalizing last with
  | textEnd complete => rw [readFrom_nil, readAt, complete]
  | space blank _ ih => rw [readFrom_space blank, ih]
  | @lineEnd place position text rest token done lines begins ends complete _ ih =>
    obtain ⟨c, others, rfl, plain⟩ := begins.cons
    obtain ⟨_, found, rfl⟩ := begins_iff.mp begins
    rw [readFrom_cons plain, readAt, found]
    simp only [ends, if_true, complete, ih]
    rfl
  | @token place next position text rest token lines begins within leads _ ih =>
    obtain ⟨c, others, rfl, plain⟩ := begins.cons
    obtain ⟨_, found, rfl⟩ := begins_iff.mp begins
    rw [readFrom_cons plain, readAt, found]
    simp only [within, Bool.false_eq_true, if_false, leads, ih]

/-- What is read, the relation holds of. The induction is on the length of the text, since a line
end takes more than one character at once. -/
theorem reading_of_readFrom {text : Text} {lines : List Line}
    (read : readFrom place position last text = .ok lines) : Reading place position text lines := by
  induction size : text.length using Nat.strongRecOn
    generalizing place position last text lines with
  | ind size ih =>
    subst size
    cases text with
    | nil =>
      rw [readFrom_nil, readAt] at read
      split at read
      · next found complete =>
        cases read
        exact .textEnd complete
      · cases read
    | cons c others =>
      by_cases blank : isSpace c = true
      · rw [readFrom_space blank] at read
        exact .space blank (ih others.length (by simp) read rfl)
      · have plain : isSpace c = false := by simpa using blank
        rw [readFrom_cons plain, readAt] at read
        split at read
        · cases read
        · next token found =>
          have begins := begins_iff.mpr ⟨plain, found, rfl⟩
          have shorter : ((c :: others).drop token.text.length).length < (c :: others).length := by
            have positive := begins.positive
            simp only [Token.stop, List.length_drop, List.length_cons] at positive ⊢
            omega
          split at read
          · next ends =>
            split at read
            · next done complete =>
              obtain ⟨further, others, rfl⟩ := map_eq_ok_iff.mp read
              exact .lineEnd begins ends complete (ih _ shorter others rfl)
            · cases read
          · next within =>
            split at read
            · next next leads =>
              exact .token begins (by simpa using within) leads (ih _ shorter read rfl)
            · cases read

/-- The relation holds exactly of what is read. -/
theorem reading_iff (last : Nat) {text : Text} {lines : List Line} :
    Reading place position text lines ↔ readFrom place position last text = .ok lines :=
  ⟨fun reading => readFrom_of_reading reading last, reading_of_readFrom⟩

/-- A text is read in one way only. -/
theorem Reading.unique {text : Text} {lines others : List Line}
    (reading : Reading place position text lines) (other : Reading place position text others) :
    lines = others := by
  have same := (readFrom_of_reading reading 0).symm.trans (readFrom_of_reading other 0)
  exact Except.ok.inj same

end ReadFrom

/-! ## One step -/

section Steps

variable {place : Place} {position : Nat} {lines : List Line}

/-- A blank changes only the position. -/
theorem reading_space_iff {c : Char} (blank : isSpace c = true) {text : Text} :
    Reading place position (c :: text) lines ↔ Reading place (position + 1) text lines := by
  rw [reading_iff 0, readFrom_space blank, ← reading_iff]

/-- Blanks before what is read are skipped. -/
theorem reading_spaces_iff {blanks : Text} (spaces : ∀ c ∈ blanks, isSpace c = true)
    {text : Text} : Reading place position (blanks ++ text) lines ↔
      Reading place (position + blanks.length) text lines := by
  induction blanks generalizing position with
  | nil => exact Iff.rfl
  | cons c blanks ih =>
    obtain ⟨space, others⟩ := List.forall_mem_cons.mp spaces
    rw [List.cons_append, reading_space_iff space, ih others, List.length_cons,
      Nat.add_assoc, Nat.add_comm 1]

/-- At the end of the text the lines are those that are complete. -/
theorem reading_nil_iff : Reading place position [] lines ↔ place.lines? = some lines := by
  constructor
  · intro reading
    cases reading with
    | textEnd complete => exact complete
    | lineEnd begins =>
      obtain ⟨c, others, impossible, _⟩ := begins.cons
      cases impossible
    | token begins =>
      obtain ⟨c, others, impossible, _⟩ := begins.cons
      cases impossible
  · exact .textEnd

/-- Where a token begins, reading goes on with it: within the line, or behind the end of it. A
reading that meets a visible character has only the steps of a token left, and the token there is
unique. -/
theorem Reading.at_token {text rest : Text} {token : Token}
    (reading : Reading place position text lines)
    (begins : Begins place.expected position text token rest) :
    (endsLine token = false ∧
      ∃ next, place.step token = some next ∧ Reading next token.stop rest lines) ∨
    (endsLine token = true ∧ ∃ done more, place.lines? = some done ∧ lines = done ++ more ∧
      Reading (lineAfter token) token.stop rest more) := by
  cases reading with
  | textEnd =>
    obtain ⟨c, others, impossible, _⟩ := begins.cons
    cases impossible
  | space blank =>
    obtain ⟨c, others, same, plain⟩ := begins.cons
    obtain ⟨rfl, rfl⟩ := List.cons.inj same
    rw [blank] at plain
    cases plain
  | lineEnd otherBegins ends complete further =>
    obtain ⟨rfl, rfl⟩ := begins.unique otherBegins
    exact Or.inr ⟨ends, _, _, complete, rfl, further⟩
  | token otherBegins within leads further =>
    obtain ⟨rfl, rfl⟩ := begins.unique otherBegins
    exact Or.inl ⟨within, _, leads, further⟩

/-- A token within a line leads to the next place. -/
theorem reading_token_iff {text rest : Text} {token : Token}
    (begins : Begins place.expected position text token rest) (within : endsLine token = false) :
    Reading place position text lines ↔
      ∃ next, place.step token = some next ∧ Reading next token.stop rest lines := by
  constructor
  · intro reading
    rcases reading.at_token begins with ⟨_, further⟩ | ⟨ends, _⟩
    · exact further
    · rw [within] at ends
      cases ends
  · rintro ⟨next, leads, further⟩
    exact .token begins within leads further

/-- A token that ends a line completes it. -/
theorem reading_ends_iff {text rest : Text} {token : Token}
    (begins : Begins place.expected position text token rest) (ends : endsLine token = true) :
    Reading place position text lines ↔ ∃ done more, place.lines? = some done ∧
      lines = done ++ more ∧ Reading (lineAfter token) token.stop rest more := by
  constructor
  · intro reading
    rcases reading.at_token begins with ⟨within, _⟩ | ⟨_, further⟩
    · rw [within] at ends
      cases ends
    · exact further
  · rintro ⟨done, more, complete, rfl, further⟩
    exact .lineEnd begins ends complete further

/-! ## Line ends -/

/-- Where there is a line end, the text begins with one of its characters. -/
theorem cons_of_lineEnds {text : Text} (present : 0 < lineEnds text) :
    ∃ c others, text = c :: others ∧ (c = '\n' ∨ c = '\r') := by
  unfold lineEnds at present
  split at present
  · exact ⟨_, _, rfl, Or.inl rfl⟩
  · exact ⟨_, _, rfl, Or.inr rfl⟩
  · omega

/-- Where a line may end, its end is asked for and an empty line is not. -/
theorem emptyLine_not_listed {expected : Expected} (listed : .newline ∈ expected.terminals) :
    .emptyLine ∉ expected.terminals := by
  cases expected <;> simp_all [Expected.terminals]

/-- The line ends at the beginning of a text are the next token where a line may end. -/
theorem begins_newline (position : Nat) {expected : Expected} {text : Text}
    (listed : .newline ∈ expected.terminals) (present : 0 < lineEnds text) :
    Begins expected position text
      ⟨.newline, position, text.take (lineEnds text)⟩ (text.drop (lineEnds text)) := by
  obtain ⟨c, others, rfl, lineBreak⟩ := cons_of_lineEnds present
  obtain ⟨length, size⟩ := Nat.exists_eq_succ_of_ne_zero (Nat.ne_of_gt present)
  have inside := lineEnds_le (c :: others)
  have held : Terminal.newline.length? (c :: others) = Option.some (length + 1) := by
    rw [size] at present
    simp [Terminal.length?, size]
  have found := first?_of_alone listed held fun other member unlike => by
    refine Terminal.length?_lineBreak lineBreak unlike ?_ others
    rintro rfl
    exact emptyLine_not_listed listed member
  refine ⟨by simp, rfl, ⟨c, others.take length, by rw [size]; rfl, ?_⟩, .newline, ?_, rfl⟩
  · rcases lineBreak with rfl | rfl <;> rfl
  · rw [found, List.length_take, Nat.min_eq_left inside, size]

/-- At the beginning of a line all line ends are one token that changes only the position. -/
theorem reading_lineEnds_iff {text : Text} : Reading .lineStart position text lines ↔
    Reading .lineStart (position + lineEnds text) (text.drop (lineEnds text)) lines := by
  by_cases present : 0 < lineEnds text
  · have listed : Terminal.newline ∈ Place.lineStart.expected.terminals := by decide
    have begins := begins_newline position listed present
    have inside := lineEnds_le text
    rw [reading_ends_iff begins rfl]
    simp only [Place.lines?, Option.some.injEq, Token.stop, List.length_take,
      Nat.min_eq_left inside]
    constructor
    · rintro ⟨_, more, rfl, rfl, further⟩
      exact further
    · intro further
      exact ⟨[], lines, rfl, rfl, further⟩
  · obtain none : lineEnds text = 0 := by omega
    rw [none]
    simp

/-- A line end completes a line, whatever follows it. The token takes all line ends in a row, and
those behind the first can as well be left to the next line. -/
theorem reading_lineEnd_iff {ending text : Text} (listed : .newline ∈ place.expected.terminals)
    (form : ending = ['\n'] ∨ ending = ['\r', '\n']) :
    Reading place position (ending ++ text) lines ↔ ∃ done more, place.lines? = some done ∧
      lines = done ++ more ∧ Reading .lineStart (position + ending.length) text more := by
  have size : lineEnds (ending ++ text) = ending.length + lineEnds text := by
    rcases form with rfl | rfl <;> rfl
  have present : 0 < lineEnds (ending ++ text) := by
    rcases form with rfl | rfl
    · simp only [size, List.length_cons]
      omega
    · simp only [size, List.length_cons]
      omega
  have inside := lineEnds_le (ending ++ text)
  rw [reading_ends_iff (begins_newline position listed present) rfl]
  have split : (ending ++ text).drop (lineEnds (ending ++ text)) = text.drop (lineEnds text) := by
    rw [size, List.drop_append]
    simp
  simp only [Token.stop, List.length_take, Nat.min_eq_left inside, split]
  simp only [size, ← Nat.add_assoc, lineAfter]
  constructor
  · rintro ⟨done, more, complete, rfl, further⟩
    exact ⟨done, more, complete, rfl, reading_lineEnds_iff.mpr further⟩
  · rintro ⟨done, more, complete, rfl, further⟩
    exact ⟨done, more, complete, rfl, reading_lineEnds_iff.mp further⟩

/-- Before the first statement every character of a line end changes only the position. An empty
line is a token of one character that leads from the beginning of the file to itself. -/
theorem reading_emptyLine_iff {c : Char} (lineBreak : c = '\n' ∨ c = '\r') {text : Text} :
    Reading .fileStart position (c :: text) lines ↔
      Reading .fileStart (position + 1) text lines := by
  have plain : isSpace c = false := by
    rcases lineBreak with rfl | rfl <;> rfl
  have held : Terminal.emptyLine.length? (c :: text) = some (0 + 1) := by
    rcases lineBreak with rfl | rfl <;> rfl
  have found : first? Expected.fileStart.terminals (c :: text) = some (.emptyLine, 0 + 1) := by
    refine first?_of_alone (by decide) held fun other member unlike => ?_
    refine Terminal.length?_lineBreak lineBreak ?_ unlike text
    rintro rfl
    exact absurd member (by decide)
  have begins : Begins Place.fileStart.expected position (c :: text) ⟨.emptyLine, position, [c]⟩
      text := ⟨rfl, rfl, ⟨c, [], rfl, plain⟩, .emptyLine, found, rfl⟩
  rw [reading_ends_iff begins rfl]
  constructor
  · rintro ⟨_, more, complete, rfl, further⟩
    cases complete
    exact further
  · intro further
    exact ⟨[], lines, rfl, rfl, further⟩

/-- At the beginning of a statement the first line and the later ones ask for the same. -/
theorem begins_start_iff {c : Char} (feed : c ≠ '\n') (back : c ≠ '\r') {others rest : Text}
    {token : Token} :
    Begins Place.fileStart.expected position (c :: others) token rest ↔
      Begins Place.lineStart.expected position (c :: others) token rest := by
  rw [begins_iff, begins_iff]
  by_cases plain : isSpace c = true
  · simp [plain]
  · have space : isSpace c = false := by simpa using plain
    obtain ⟨noLine, noEmptyLine⟩ := Terminal.length?_inside space feed back others
    have same : first? Place.fileStart.expected.terminals (c :: others) =
        first? Place.lineStart.expected.terminals (c :: others) := by
      simp only [first?, Place.expected, Expected.terminals, List.findSome?_cons, noLine,
        noEmptyLine]
    simp only [next, same]

/-- Before the first statement line ends change only the position. -/
theorem reading_emptyLines_iff {ends : Text} (lineBreaks : ∀ c ∈ ends, c = '\n' ∨ c = '\r')
    {text : Text} : Reading .fileStart position (ends ++ text) lines ↔
      Reading .fileStart (position + ends.length) text lines := by
  induction ends generalizing position with
  | nil => simp
  | cons c ends ih =>
    rw [List.cons_append, reading_emptyLine_iff (lineBreaks c List.mem_cons_self),
      ih fun c member => lineBreaks c (List.mem_cons_of_mem _ member), List.length_cons,
      Nat.add_assoc, Nat.add_comm 1]

/-- Line ends have no other characters. -/
theorem lineBreak_of_mem {text : Text} {c : Char} (member : c ∈ text.take (lineEnds text)) :
    c = '\n' ∨ c = '\r' := by
  fun_induction lineEnds text with
  | case1 rest ih =>
    rw [Nat.add_comm, List.take_succ_cons, List.mem_cons] at member
    rcases member with rfl | later
    · exact Or.inl rfl
    · exact ih later
  | case2 rest ih =>
    rw [Nat.add_comm, List.take_succ_cons, List.take_succ_cons, List.mem_cons,
      List.mem_cons] at member
    rcases member with rfl | rfl | later
    · exact Or.inr rfl
    · exact Or.inl rfl
    · exact ih later
  | case3 => simp at member

/-- A token that ends a line where a line may end is all the line ends that are there. -/
theorem eq_newline {expected : Expected} {text rest : Text} {token : Token}
    (listed : .newline ∈ expected.terminals) (begins : Begins expected position text token rest)
    (ends : endsLine token = true) :
    0 < lineEnds text ∧ token = ⟨.newline, position, text.take (lineEnds text)⟩ := by
  obtain ⟨terminal, found, sort⟩ := begins.sort
  obtain ⟨member, held⟩ := length?_of_first? found
  have isNewline : terminal = .newline := by
    rcases (endsLine_iff sort).mp ends with isNewline | rfl
    · exact isNewline
    · exact absurd member (emptyLine_not_listed listed)
  subst isNewline
  have present : 0 < lineEnds text := by
    simp only [Terminal.length?] at held
    split at held
    · cases held
    · omega
  exact ⟨present, (begins.unique (begins_newline position listed present)).1⟩

/-- What stands at the beginning of a line can stand at the beginning of a file. -/
theorem Reading.fromStart {text : Text} (reading : Reading .lineStart position text lines) :
    Reading .fileStart position text lines := by
  generalize start : Place.lineStart = place at reading
  induction reading with
  | textEnd complete =>
    subst start
    exact .textEnd complete
  | space blank _ ih => exact .space blank (ih start)
  | @lineEnd place position text rest token done lines begins ends complete further ih =>
    subst start
    cases complete
    obtain ⟨_, rfl⟩ := eq_newline (by decide) begins ends
    rw [begins.whole, List.nil_append, reading_emptyLines_iff fun c => lineBreak_of_mem]
    exact ih rfl
  | @token place next position text rest token lines begins within leads further _ =>
    subst start
    obtain ⟨c, others, rfl, _⟩ := begins.cons
    obtain ⟨feed, back⟩ := begins.not_lineBreak within
    exact .token ((begins_start_iff feed back).mpr begins) within leads further

/-- At the beginning of a line a line end changes only the position, whatever follows it. -/
theorem reading_lineStart_iff (position : Nat) (lines : List Line) {ending : Text} (text : Text)
    (form : ending = ['\n'] ∨ ending = ['\r', '\n']) :
    Reading .lineStart position (ending ++ text) lines ↔
      Reading .lineStart (position + ending.length) text lines := by
  rw [reading_lineEnd_iff (by decide) form]
  constructor
  · rintro ⟨done, more, complete, rfl, further⟩
    cases complete
    exact further
  · intro further
    exact ⟨[], lines, rfl, rfl, further⟩

/-- At the beginning of a line, line ends change only the position, whatever follows them. -/
theorem reading_lineBreaks_iff (ends : Text) {text : Text} :
    Reading .lineStart position (ends.take (lineEnds ends) ++ text) lines ↔
      Reading .lineStart (position + lineEnds ends) text lines := by
  fun_induction lineEnds ends generalizing position with
  | case1 rest ih =>
    have first := reading_lineStart_iff position lines (rest.take (lineEnds rest) ++ text)
      (Or.inl rfl)
    rw [Nat.add_comm 1, List.take_succ_cons, List.cons_append, Nat.add_comm _ 1, ← Nat.add_assoc]
    exact first.trans ih
  | case2 rest ih =>
    have first := reading_lineStart_iff position lines (rest.take (lineEnds rest) ++ text)
      (Or.inr rfl)
    rw [Nat.add_comm 2, List.take_succ_cons, List.take_succ_cons, List.cons_append,
      List.cons_append, Nat.add_comm _ 2, ← Nat.add_assoc]
    exact first.trans ih
  | case3 => simp

/-- Line ends complete a line, whatever follows them. -/
theorem reading_lineEnds_append {ends text : Text} (listed : .newline ∈ place.expected.terminals)
    (present : 0 < lineEnds ends) {done more : List Line} (complete : place.lines? = some done)
    (further : Reading .lineStart (position + lineEnds ends) text more) :
    Reading place position (ends.take (lineEnds ends) ++ text) (done ++ more) := by
  unfold lineEnds at present
  split at present
  · next rest =>
    have size : lineEnds ('\n' :: rest) = lineEnds rest + 1 := Nat.add_comm 1 _
    have later : Reading .lineStart (position + 1) (rest.take (lineEnds rest) ++ text) more := by
      rw [reading_lineBreaks_iff, Nat.add_assoc, Nat.add_comm 1, ← size]
      exact further
    rw [size, List.take_succ_cons]
    exact (reading_lineEnd_iff listed (Or.inl rfl)).mpr ⟨done, more, complete, rfl, later⟩
  · next rest =>
    have size : lineEnds ('\r' :: '\n' :: rest) = lineEnds rest + 2 := Nat.add_comm 2 _
    have later : Reading .lineStart (position + 2) (rest.take (lineEnds rest) ++ text) more := by
      rw [reading_lineBreaks_iff, Nat.add_assoc, Nat.add_comm 2, ← size]
      exact further
    rw [size, List.take_succ_cons, List.take_succ_cons]
    exact (reading_lineEnd_iff listed (Or.inr rfl)).mpr ⟨done, more, complete, rfl, later⟩
  · omega

/-- A token that ends a line is an empty line before the first statement or all the line ends
that are there. -/
theorem ends_cases {text rest : Text} {token : Token}
    (begins : Begins place.expected position text token rest) (ends : endsLine token = true) :
    (place = .fileStart ∧ token.terminal = .emptyLine ∧
      ∃ c, token.text = [c] ∧ (c = '\n' ∨ c = '\r')) ∨
    (.newline ∈ place.expected.terminals ∧ 0 < lineEnds text ∧
      token = ⟨.newline, position, text.take (lineEnds text)⟩) := by
  obtain ⟨terminal, found, sort⟩ := begins.sort
  obtain ⟨member, held⟩ := length?_of_first? found
  rcases (endsLine_iff sort).mp ends with rfl | rfl
  · exact Or.inr ⟨member, eq_newline member begins ends⟩
  · have start : place = .fileStart := by
      cases place <;> simp_all [Place.expected, Expected.terminals]
    obtain ⟨c, inner, spelled, plain⟩ := begins.plain
    rw [begins.whole, spelled] at held
    simp only [List.cons_append, Terminal.length?, emptyLineLength, Text.stretch, plain,
      List.takeWhile_cons, Bool.false_eq_true, if_false, List.length_nil, List.drop_zero,
      List.length_cons, Nat.zero_add, Option.ite_none_right_eq_some, Option.some.injEq] at held
    obtain ⟨lineBreak, size⟩ := held
    obtain rfl : inner = [] := List.eq_nil_of_length_eq_zero (by omega)
    exact Or.inl ⟨start, sort, c, spelled, lineBreak⟩

/-- The line ends that are there have a line feed among them. -/
theorem lineFeed_mem {text : Text} (present : 0 < lineEnds text) :
    '\n' ∈ text.take (lineEnds text) := by
  unfold lineEnds at present ⊢
  split at present
  · rw [Nat.add_comm, List.take_succ_cons]
    exact List.mem_cons_self
  · rw [Nat.add_comm, List.take_succ_cons, List.take_succ_cons]
    exact List.mem_cons_of_mem _ List.mem_cons_self
  · omega

/-- The end of a line stays a line end when what follows it is exchanged. -/
theorem Reading.lineEnd_exchange {text rest other : Text} {token : Token} {done more : List Line}
    (begins : Begins place.expected position text token rest) (ends : endsLine token = true)
    (complete : place.lines? = some done)
    (further : Reading (lineAfter token) token.stop other more) :
    Reading place position (token.text ++ other) (done ++ more) := by
  rcases ends_cases begins ends with ⟨rfl, empty, c, spelled, lineBreak⟩ | ⟨listed, present, same⟩
  · cases complete
    rw [spelled]
    refine (reading_emptyLine_iff lineBreak).mpr ?_
    rw [lineAfter, if_pos empty, Token.stop, begins.start, spelled] at further
    exact further
  · rw [same] at further ⊢
    have inside := lineEnds_le text
    rw [Token.stop, List.length_take, Nat.min_eq_left inside] at further
    exact reading_lineEnds_append listed present complete further

/-- A token within a line stays the same when what follows a later line feed is exchanged. -/
theorem Reading.token_exchange {next : Place} {text front tail other : Text} {token : Token}
    {more : List Line} (begins : Begins place.expected position text token (front ++ tail))
    (within : endsLine token = false) (leads : place.step token = some next) (fed : '\n' ∈ front)
    (further : Reading next token.stop (front ++ other) more) :
    Reading place position (token.text ++ (front ++ other)) more := by
  obtain ⟨ahead, behind, rfl⟩ := List.append_of_mem fed
  rw [begins.whole, List.append_assoc] at begins
  have exchanged := begins.exchange ('\n' :: (behind ++ other)) within
    (Or.inr ⟨_, rfl⟩) (Or.inr ⟨_, rfl⟩)
  have same : ahead ++ '\n' :: (behind ++ other) = ahead ++ '\n' :: behind ++ other := by
    simp
  rw [same] at exchanged
  exact .token exchanged within leads further

/-- What is complete at a place is one line, or no line where none has begun. -/
theorem lines?_cases {done : List Line} (complete : place.lines? = some done) :
    (done = [] ∧ (place = .fileStart ∨ place = .lineStart)) ∨ ∃ line, done = [line] := by
  unfold Place.lines? at complete
  split at complete
  · cases complete
    exact Or.inl ⟨rfl, Or.inl rfl⟩
  · cases complete
    exact Or.inl ⟨rfl, Or.inr rfl⟩
  · cases complete
    exact Or.inr ⟨_, rfl⟩
  · obtain ⟨statement, _, rfl⟩ := Option.map_eq_some_iff.mp complete
    exact Or.inr ⟨_, rfl⟩

/-- A line that is complete at a place has the statement that is complete there. -/
theorem statement?_of_mem_lines? {done : List Line} {line : Line}
    (complete : place.lines? = some done) (member : line ∈ done) :
    place.statement? = some line.statement := by
  unfold Place.lines? at complete
  split at complete
  · cases complete
    cases member
  · cases complete
    cases member
  · cases complete
    rw [List.mem_singleton.mp member]
    rfl
  · obtain ⟨statement, found, rfl⟩ := Option.map_eq_some_iff.mp complete
    rw [List.mem_singleton.mp member]
    exact found

/-- Before each of its lines a text can be divided. What stands before the line leads to the
beginning of a line, whatever follows, and to the lines before it. -/
theorem Reading.divide {text : Text} (reading : Reading place position text lines)
    {before after : List Line} {line : Line} (parts : lines = before ++ line :: after)
    (start : place = .fileStart ∨ place = .lineStart ∨ before ≠ []) :
    ∃ front rest, text = front ++ rest ∧ (before ≠ [] → '\n' ∈ front) ∧
      Reading .lineStart (position + front.length) rest (line :: after) ∧
      (∃ token tail, Begins Place.lineStart.expected (position + front.length) rest token tail ∧
        endsLine token = false) ∧
      ∀ other more, Reading .lineStart (position + front.length) other more →
        Reading place position (front ++ other) (before ++ more) := by
  induction reading generalizing before with
  | @textEnd place position lines complete =>
    rcases lines?_cases complete with ⟨rfl, _⟩ | ⟨only, rfl⟩
    · simp at parts
    · obtain ⟨rfl, _, _⟩ : before = [] ∧ line = only ∧ after = [] := by
        cases before <;> simp_all
      rcases start with rfl | rfl | nonempty
      · cases complete
      · cases complete
      · exact absurd rfl nonempty
  | @space place position c text lines blank further ih =>
    obtain ⟨front, rest, rfl, feed, later, first, leads⟩ := ih parts start
    rw [Nat.add_right_comm] at later first
    refine ⟨c :: front, rest, rfl, fun nonempty => List.mem_cons_of_mem _ (feed nonempty), later,
      first, ?_⟩
    intro other more reading
    refine .space blank (leads other more ?_)
    rw [Nat.add_right_comm]
    exact reading
  | @lineEnd place position text rest token done lines begins ends complete further ih =>
    obtain ⟨others, rfl, remaining⟩ : ∃ others, before = done ++ others ∧
        lines = others ++ line :: after := by
      rcases lines?_cases complete with ⟨rfl, _⟩ | ⟨only, rfl⟩
      · exact ⟨before, rfl, parts⟩
      · cases before with
        | nil =>
          rcases start with rfl | rfl | nonempty
          · cases complete
          · cases complete
          · exact absurd rfl nonempty
        | cons earlier before =>
          obtain ⟨rfl, remaining⟩ := List.cons.inj parts
          exact ⟨before, rfl, remaining⟩
    obtain ⟨front, tail, rfl, feed, later, first, leads⟩ :=
      ih remaining ((lineAfter_cases token).imp_right Or.inl)
    rw [begins.stop_add] at later first
    refine ⟨token.text ++ front, tail, ?_, ?_, later, first, ?_⟩
    · rw [begins.whole, List.append_assoc]
    · intro nonempty
      rcases ends_cases begins ends with ⟨rfl, _⟩ | ⟨_, present, same⟩
      · cases complete
        exact List.mem_append_right _ (feed nonempty)
      · rw [same]
        exact List.mem_append_left _ (lineFeed_mem present)
    · intro other more reading
      rw [List.append_assoc, List.append_assoc]
      refine Reading.lineEnd_exchange begins ends complete (leads other more ?_)
      rw [begins.stop_add]
      exact reading
  | @token place next position text rest token lines begins within leads further ih =>
    cases before with
    | nil =>
      subst parts
      obtain ⟨c, others, rfl, _⟩ := begins.cons
      obtain ⟨feed, back⟩ := begins.not_lineBreak within
      rcases start with rfl | rfl | nonempty
      · have begins := (begins_start_iff feed back).mp begins
        exact ⟨[], c :: others, rfl, fun nonempty => absurd rfl nonempty,
          .token begins within leads further, ⟨token, rest, begins, within⟩,
          fun other more reading => reading.fromStart⟩
      · exact ⟨[], c :: others, rfl, fun nonempty => absurd rfl nonempty,
          .token begins within leads further, ⟨token, rest, begins, within⟩,
          fun other more reading => reading⟩
      · exact absurd rfl nonempty
    | cons earlier before =>
      obtain ⟨front, tail, rfl, feed, later, first, goesOn⟩ :=
        ih parts (Or.inr (Or.inr (List.cons_ne_nil _ _)))
      rw [begins.stop_add] at later first
      have fed := feed (List.cons_ne_nil _ _)
      refine ⟨token.text ++ front, tail, ?_, ?_, later, first, ?_⟩
      · rw [begins.whole, List.append_assoc]
      · exact fun _ => List.mem_append_right _ fed
      · intro other more reading
        rw [List.append_assoc]
        refine Reading.token_exchange begins within leads fed (goesOn other more ?_)
        rw [begins.stop_add]
        exact reading

end Steps

end Statement

end Daybook
