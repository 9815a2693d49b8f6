import Daybook.Proofs.Page.Relocation
import Daybook.Proofs.Statement.Headings

/-!
# Exchanging the flag in a text

The flag of a transaction stands behind its date, with nothing but blanks in between. When it is
exchanged for one of the two marks that say whether a transaction is cleared, the date is found as
before, because no flag and no blank can belong to a date; the mark is found whatever follows it;
and behind the mark the same text is read from the same place. So all other lines stay the same,
those behind the flag further up by as much as the mark is shorter.
-/
namespace Daybook

open Lexeme Statement

/-- The marks of a cleared and of an uncleared transaction. -/
def IsMark (text : Text) : Prop := text = ['*'] ∨ text = ['!']

/-- Characters that end a date. -/
def EndsDate (c : Char) : Prop := c ≠ '-' ∧ c ≠ '/' ∧ isDigit c = false

instance (c : Char) : Decidable (EndsDate c) :=
  inferInstanceAs (Decidable (_ ∧ _ ∧ _))

/-- No flag goes on with a date. -/
theorem endsDate_of_flag {text rest : Text} (word : IsFlagWord text) :
    ∃ c others, text ++ rest = c :: others ∧ EndsDate c := by
  rcases word with rfl | ⟨c, rfl, known⟩
  · exact ⟨'t', _, rfl, by decide, by decide, rfl⟩
  · have ends : ∀ flag ∈ flags, EndsDate flag := forall_mem_of_all (by decide)
    exact ⟨c, rest, rfl, ends c (isFlag_iff.mp known)⟩

/-- Neither do blanks before a flag. -/
theorem endsDate_of_blanks {blanks text rest : Text} (blank : ∀ c ∈ blanks, isSpace c = true)
    (word : IsFlagWord text) : ∃ c others, blanks ++ (text ++ rest) = c :: others ∧ EndsDate c := by
  cases blanks with
  | nil =>
    rw [List.nil_append]
    exact endsDate_of_flag word
  | cons c blanks =>
    refine ⟨c, blanks ++ (text ++ rest), rfl, ?_⟩
    have either : c = ' ' ∨ c = '\t' := by
      simpa [isSpace] using blank c List.mem_cons_self
    rcases either with rfl | rfl <;> exact ⟨by decide, by decide, rfl⟩

/-- A mark is a flag. -/
theorem IsMark.isFlagWord {mark : Text} (known : IsMark mark) : IsFlagWord mark := by
  rcases known with rfl | rfl <;> exact Or.inr ⟨_, rfl, rfl⟩

/-- A mark is found after the date of a transaction, whatever follows it. -/
theorem begins_mark {mark : Text} (known : IsMark mark) (position : Nat) (rest : Text) :
    Begins .heading position (mark ++ rest) ⟨.flag, position, mark⟩ rest := by
  rcases known with rfl | rfl <;> exact ⟨rfl, rfl, ⟨_, [], rfl, rfl⟩, .flag, rfl, rfl⟩

/-- What is found as a flag behind a date is a flag. -/
theorem isFlagWord_of_begins {date flag : Token} {position : Nat} {rest : Text}
    (sort : flag.terminal = .flag ∨ flag.terminal = .txnWord)
    (begins : Begins (Place.dated date).expected position (flag.text ++ rest) flag rest) :
    IsFlagWord flag.text := by
  obtain ⟨terminal, found, keyword⟩ := begins.sort
  obtain ⟨listed, held⟩ := length?_of_first? found
  have same : flag.terminal = terminal := by
    rw [keyword, Expected.keyword, if_neg]
    rintro rfl
    simp [Place.expected, Expected.terminals] at listed
  exact isFlagWord_of_append sort (same ▸ held)

/-- A date at the beginning of a line is found again before anything else that ends it. The date
comes first in the order of the terminals, and where it ends depends only on what ends a date. -/
theorem begins_again {date : Token} {position : Nat} {rest other : Text} {c d : Char}
    (begins : Begins Place.lineStart.expected position (date.text ++ c :: rest) date (c :: rest))
    (sort : date.terminal = .date) (ends : EndsDate c) (alsoEnds : EndsDate d) :
    Begins Place.lineStart.expected position (date.text ++ d :: other) date (d :: other) := by
  obtain ⟨_, start, ⟨first, inner, spelled, space⟩, terminal, found, keyword⟩ := begins
  have isDate : terminal = .date := by
    rw [sort, Expected.keyword] at keyword
    split at keyword
    · split at keyword
      · cases keyword
      · split at keyword
        · cases keyword
        · split at keyword <;> cases keyword
    · exact keyword.symm
  subst isDate
  have length : dateLength (date.text ++ c :: rest) = some date.text.length :=
    (length?_of_first? found).2
  rw [dateLength_append rest ends.1 ends.2.1 ends.2.2,
    ← dateLength_append other alsoEnds.1 alsoEnds.2.1 alsoEnds.2.2] at length
  refine ⟨rfl, start, ⟨first, inner, spelled, space⟩, .date, ?_, keyword⟩
  exact first?_cons_of_some length (by simp [spelled])

/-- A text in which the flag of a heading has been exchanged for a mark: the heading with its new
flag, and the same other lines. -/
structure Marking (text : Text) (earlier : List Line) (line : Line) (later : List Line)
    (heading : Heading) (flag : Token) (mark : Text) where
  front : Text
  tail : Text
  distance : Nat
  titled : Heading
  comment : Option Token
  moved : List Line
  whole : text = front ++ (flag.text ++ tail)
  start : flag.start = front.length
  dated : heading.date.stop ≤ front.length
  word : IsFlagWord flag.text
  longer : flag.text.length = mark.length + distance
  reading : Reading .fileStart 0 (front ++ (mark ++ tail))
    (earlier ++ ⟨.transaction titled, comment⟩ :: moved)
  date : titled.date = heading.date
  flag : titled.flag = some ⟨.flag, front.length, mark⟩
  texts : ∀ text ∈ titled.texts, (front ++ mark).length ≤ text.start
  payee : heading.payee = titled.payee.map (Token.shift distance)
  narration : heading.narration = titled.narration.map (Token.shift distance)
  marks : heading.marks = titled.marks.map (Token.shift distance)
  stop : heading.stop = titled.stop + distance
  comment_eq : line.comment = comment.map (Token.shift distance)
  later_eq : later = moved.map (Line.shift distance)

/-- A flag is at least as long as a mark. -/
theorem exists_longer {flag mark : Text} (word : IsFlagWord flag) (known : IsMark mark) :
    ∃ distance, flag.length = mark.length + distance := by
  have single : mark.length = 1 := by rcases known with rfl | rfl <;> rfl
  rw [single]
  rcases word with spelled | ⟨c, spelled, _⟩
  · exact ⟨2, by rw [spelled]; rfl⟩
  · exact ⟨0, by rw [spelled]; rfl⟩

/-- The text behind the flag of a heading is read with another flag from a place further up. What
stands behind the flag is read in the same way from the new place, with the heading in its hands
exchanged and all positions moved. -/
theorem Statement.Reading.exchange {date flag other : Token} {distance : Nat} {tail : Text}
    {heading : Heading} {comment : Option Token} {later : List Line}
    (reading : Reading (.texts { date, flag := some flag, stop := flag.stop }) flag.stop tail
      (⟨.transaction heading, comment⟩ :: later))
    (further : other.stop + distance = flag.stop) : ∃ titled nearer moved,
      Reading (.texts { date, flag := some other, stop := other.stop }) other.stop tail
        (⟨.transaction titled, nearer⟩ :: moved) ∧
      titled.date = date ∧ titled.flag = some other ∧
      (∀ text ∈ titled.texts, other.stop ≤ text.start) ∧
      heading.retitle (date.shift distance) (some (other.shift distance)) = titled.shift distance ∧
      comment = nearer.map (Token.shift distance) ∧ later = moved.map (Line.shift distance) := by
  obtain ⟨finished, known, after, parts, _, _, _, each⟩ := reading.retitle rfl
  obtain ⟨same, rfl⟩ := List.cons.inj parts
  cases same
  have titled := each (date.shift distance) (some (other.shift distance))
  rw [← further] at titled
  obtain ⟨lines, parts, exchanged⟩ :=
    @Reading.unshift (.texts { date, flag := some other, stop := other.stop }) _ _ _ _ titled
  obtain ⟨titled, nearer, moved, rfl, sameDate, sameFlag, texts, _⟩ := exchanged.retitle rfl
  obtain ⟨first, rest⟩ := List.cons.inj parts
  simp only [Line.shift, Statement.shift, Line.mk.injEq, Statement.transaction.injEq] at first
  refine ⟨titled, nearer, moved, exchanged, sameDate, sameFlag, ?_, first.1, first.2, rest⟩
  exact fun text member => (texts text member).resolve_right (by simp [Heading.texts])

/-- The flag of every heading that has one can be exchanged. The file is read up to the date of the
heading, the flag is exchanged there, and the tail is read from behind the mark. -/
theorem marking_of_reading {text : Text} {earlier later : List Line} {line : Line}
    (reading : Reading .fileStart 0 text (earlier ++ line :: later)) {heading : Heading}
    (statement : line.statement = .transaction heading) {flag : Token}
    (flagged : heading.flag = some flag) {mark : Text} (known : IsMark mark) :
    Nonempty (Marking text earlier line later heading flag mark) := by
  obtain ⟨front, rest, rfl, _, further, ⟨date, behind, begins, within⟩, joins⟩ :=
    reading.divide rfl (Or.inl rfl)
  rw [Nat.zero_add] at further begins joins
  obtain ⟨sort, afterDate⟩ := further.dated begins within rfl statement
  obtain ⟨sameDate, blanks, tail, rfl, blank, flagSort, flagBegins, beyond⟩ :=
    afterDate.flagged rfl statement flagged
  have dateStop : date.stop = front.length + date.text.length := by rw [Token.stop, begins.start]
  have word := isFlagWord_of_begins flagSort flagBegins
  obtain ⟨distance, longer⟩ := exists_longer word known
  obtain ⟨statementOf, comment⟩ := line
  cases statement
  obtain ⟨titled, nearer, moved, exchanged, titledDate, titledFlag, texts, same,
      comments, others⟩ :=
    beyond.exchange (show Token.stop ⟨.flag, date.stop + blanks.length, mark⟩ + distance = _ by
      simp only [Token.stop, flagBegins.start, longer]
      omega)
  simp only [Heading.retitle, Heading.shift, Heading.mk.injEq] at same
  obtain ⟨_, _, payee, narration, marks, stop⟩ := same
  -- The date is read as before, and then the mark.
  obtain ⟨c, first, spelled, ends⟩ : ∃ c first, blanks ++ (flag.text ++ tail) = c :: first ∧ _ :=
    endsDate_of_blanks blank word
  obtain ⟨d, second, respelled, alsoEnds⟩ : ∃ d second,
      blanks ++ (mark ++ tail) = d :: second ∧ _ :=
    endsDate_of_blanks blank known.isFlagWord
  have whole := begins.whole
  rw [spelled] at begins whole
  rw [whole] at begins
  have again : Begins _ _ (date.text ++ d :: second) _ _ := begins_again begins sort ends alsoEnds
  rw [← respelled] at again
  have skip : Reading (.dated date) date.stop (blanks ++ (mark ++ tail))
      (⟨.transaction titled, nearer⟩ :: moved) := by
    refine (reading_spaces_iff blank).mpr ?_
    exact .token (begins_mark known _ _) rfl rfl exchanged
  have reread : Reading .lineStart front.length (date.text ++ (blanks ++ (mark ++ tail)))
      (⟨.transaction titled, nearer⟩ :: moved) := by
    refine .token again within ?_ skip
    simp [Place.step, Place.continued, Place.intoLine, sort]
  have size : (front ++ (date.text ++ blanks)).length = date.stop + blanks.length := by
    rw [List.length_append, List.length_append, dateStop, Nat.add_assoc]
  refine ⟨⟨front ++ (date.text ++ blanks), tail, distance, titled, nearer, moved, ?_, ?_, ?_, word,
    longer, ?_, ?_, ?_, ?_, payee, narration, marks, stop, comments, others⟩⟩
  · rw [whole, ← spelled]
    simp only [List.append_assoc]
  · rw [flagBegins.start, size]
  · rw [sameDate, size]
    exact Nat.le_add_right _ _
  · simpa only [List.append_assoc] using joins _ _ reread
  · rw [titledDate, sameDate]
  · rw [titledFlag, size]
  · rw [List.length_append, size]
    exact texts

/-! ## Collecting again -/

/-- Every character of a flag is one byte. -/
theorem length_encode_flag {flag : Text} (word : IsFlagWord flag) :
    (Text.Utf8.encode flag).length = flag.length := by
  rcases word with rfl | ⟨c, rfl, known⟩
  · rfl
  · have single : ∀ flag ∈ flags, (Text.Utf8.encode [flag]).length = 1 :=
      forall_mem_of_all (by decide)
    exact single c (isFlag_iff.mp known)

namespace Marking

variable {text : Text} {earlier later : List Line} {line : Line} {heading : Heading} {flag : Token}
  {mark : Text}

/-- The text with the mark. -/
def marked (marking : Marking text earlier line later heading flag mark) : Text :=
  marking.front ++ (mark ++ marking.tail)

/-- The text was longer by as much as the flag is longer than the mark. -/
theorem length_eq (marking : Marking text earlier line later heading flag mark) :
    text.length = marking.marked.length + marking.distance := by
  have longer := marking.longer
  have whole := congrArg List.length marking.whole
  simp only [marked, List.length_append] at whole ⊢
  omega

/-- The two texts have everything behind the flag in common. -/
theorem alike (marking : Marking text earlier line later heading flag mark) (known : IsMark mark)
    (path : Text) : (Source.ofText path marking.marked).Alike (Source.ofText path text)
      marking.distance marking.distance (marking.front ++ mark).length marking.marked.length := by
  obtain ⟨front, tail, distance, _, _, _, rfl, _, _, word, longer, _⟩ := marking
  simp only [marked]
  rw [← List.append_assoc, ← List.append_assoc]
  refine Source.alike_tail path ?_ ?_ tail
  · simp only [List.length_append]
    omega
  · have flagWidth := length_encode_flag word
    have markWidth := length_encode_flag known.isFlagWord
    simp only [Text.Utf8.encode_append, List.length_append]
    omega

/-- The lines before the heading end before its flag. -/
theorem apart (marking : Marking text earlier line later heading flag mark)
    (reading : Reading .fileStart 0 text (earlier ++ line :: later))
    (statement : line.statement = .transaction heading) :
    ∀ one ∈ earlier, ∃ first last, one.Standing text first last ∧ last ≤ marking.front.length ∧
      '\n' ∈ Text.slice text last marking.front.length := by
  obtain ⟨start, stop, _, _, _, standing, _, each⟩ := reading.laid_whole.before rfl
  obtain ⟨extent, inside, leads⟩ : ∃ extent ∈ line.statement.extent?,
      heading.date ∈ extent.lead := by
    rw [statement]
    exact ⟨_, rfl, rfl⟩
  have lead := (standing.extent extent inside).lead heading.date leads
  have order := Nat.le_trans (Nat.le_add_right _ _) marking.dated
  intro one member
  obtain ⟨first, last, _, _, _, stands, before, feed⟩ := each one member
  refine ⟨first, last, stands, by omega, ?_⟩
  rw [Text.slice_append before (by omega)]
  exact List.mem_append_left _ feed

/-- The heading with the mark as if its date were the end of the mark. All of it stands behind the
mark, and what belongs to a transaction does not depend on its date and its flag. -/
def untitled (marking : Marking text earlier line later heading flag mark) : Heading :=
  marking.titled.retitle ⟨.date, (marking.front ++ mark).length, []⟩ none

/-- The heading and all lines after it stand behind the mark. The lines behind the mark stand in the
text that both files share; the heading itself ends behind the mark. -/
theorem within (marking : Marking text earlier line later heading flag mark) (path : Text) :
    ∀ one ∈ ⟨.transaction marking.untitled, marking.comment⟩ :: marking.moved,
      one.Within (Source.ofText path marking.marked) (Source.ofText path text) marking.distance
        (marking.front ++ mark).length marking.marked.length := by
  obtain ⟨start, stop, order, standing, _, ends, _⟩ := marking.reading.divideAt rfl
  have inside := ends.lineEndsAt.inside
  have extent := standing.extent _ rfl
  -- The mark is part of the heading, so the heading ends behind it.
  have held : (marking.front ++ mark).length ≤ marking.titled.stop := by
    have held := extent.held ⟨.flag, marking.front.length, mark⟩ (by simp [marking.flag])
    rwa [List.length_append]
  refine List.forall_mem_cons.mpr ⟨⟨?_, ?_, ?_, ?_⟩, ?_⟩
  · rintro _ ⟨⟩ token member
    rcases List.mem_cons.mp member with rfl | member
    · exact ⟨Nat.le_refl _, by simp [untitled, Heading.retitle, Token.stop, marked]⟩
    · have own : token ∈ marking.titled.texts := by
        simpa [untitled, Heading.retitle, Heading.texts] using member
      have listed : token ∈ marking.titled.date :: (marking.titled.flag.toList ++
          marking.titled.payee.toList ++ marking.titled.narration.toList ++
          marking.titled.marks) := by
        simp only [Heading.texts, List.mem_append, List.mem_cons] at own ⊢
        tauto
      exact ⟨marking.texts token own, Nat.le_trans (extent.tokens token listed).2.2 inside⟩
  · rintro _ ⟨⟩
    exact ⟨held, Nat.le_trans extent.inside inside⟩
  · rintro comment noted _ ⟨⟩
    obtain ⟨_, before, behind⟩ := standing.comment comment noted
    have after := behind _ rfl
    exact ⟨after, Nat.le_trans before inside⟩
  · rintro posting ⟨⟩
  · obtain ⟨ending, rest, following, _, further⟩ := ends.rest
    have laid : Laid marking.marked (stop + ending.length) marking.moved := by
      refine (show Reading .lineStart _ _ _ from ?_).laid (Or.inr rfl)
      have behind : marking.marked.drop (stop + ending.length) = rest := by
        rw [← List.drop_drop, marked, following, List.drop_left]
      rw [behind]
      exact further
    intro one member
    obtain ⟨first, last, after, _, lineEnds, stands⟩ := laid.each one member
    have beyond : marking.titled.stop ≤ stop := extent.inside
    refine stands.within (by omega) lineEnds.inside fun _ _ => Or.inr ⟨rfl, Or.inl ?_⟩
    refine List.drop_eq_nil_iff.mpr (Nat.le_of_eq ?_)
    exact marking.length_eq

/-- The lines that belong to the transaction add the same to it, with the mark further up. The lines
are the same but for the distance, and so are the postings that are collected from them. -/
theorem attached {attached later : List Line}
    (marking : Marking text earlier line (attached ++ later) heading flag mark)
    (known : IsMark mark) (path : Text) (belong : ∀ one ∈ attached, ¬ Progress.Closes one) :
    ∃ nearer farther postings stop, marking.moved = nearer ++ farther ∧
      nearer.map (Line.shift marking.distance) = attached ∧
      farther.map (Line.shift marking.distance) = later ∧
      (∀ included, Progress.advanceAll (Source.ofText path marking.marked)
        ⟨.transaction marking.titled [] ((Source.ofText path marking.marked).offsets.byte
          (Line.stop ⟨.transaction marking.titled, marking.comment⟩ marking.titled.stop)), included⟩
        nearer = .ok (⟨.transaction marking.titled postings stop, included⟩, .nothing)) ∧
      ∀ included, Progress.advanceAll (Source.ofText path text)
        ⟨.transaction heading [] ((Source.ofText path text).offsets.byte
          (line.stop heading.stop)), included⟩ attached =
        .ok (⟨.transaction heading (postings.map (PostingEntry.shift marking.distance))
          (stop + marking.distance), included⟩, .nothing) := by
  obtain ⟨nearer, farther, moved, attachedEq, laterEq⟩ :=
    List.map_eq_append_iff.mp marking.later_eq.symm
  have alike := marking.alike known path
  obtain ⟨title, within⟩ := List.forall_mem_cons.mp (marking.within path)
  obtain ⟨place, after, before⟩ := title.stop_shift rfl
  have ends := alike.offset _ after before
  rw [← place] at ends
  have furthest : Line.stop (Line.shift marking.distance ⟨.transaction marking.untitled,
      marking.comment⟩) (marking.untitled.stop + marking.distance) = line.stop heading.stop := by
    rw [Line.stop, Line.stop, marking.comment_eq, marking.stop]
    rfl
  have nearerBelong : ∀ one ∈ nearer, ¬ Progress.Closes one := by
    intro one member closes
    have listed := List.mem_map_of_mem (f := Line.shift marking.distance) member
    rw [attachedEq] at listed
    exact belong _ listed (Progress.closes_shift_iff.mpr closes)
  obtain ⟨postings, stop, near⟩ := Progress.advanceAll_attached nearerBelong
    (Source.ofText path marking.marked) [] ((Source.ofText path marking.marked).offsets.byte
      (Line.stop ⟨.transaction marking.untitled, marking.comment⟩ marking.untitled.stop))
  obtain ⟨all, last, far⟩ := Progress.advanceAll_attached belong
    (Source.ofText path text) [] ((Source.ofText path text).offsets.byte
      (line.stop heading.stop))
  have opened : Progress.Moved marking.distance marking.distance (marking.front ++ mark).length
      marking.marked.length
      ⟨.transaction marking.untitled [] ((Source.ofText path marking.marked).offsets.byte
        (Line.stop ⟨.transaction marking.untitled, marking.comment⟩ marking.untitled.stop)), []⟩
      ⟨.transaction (marking.untitled.shift marking.distance) []
        ((Source.ofText path text).offsets.byte (line.stop heading.stop)), []⟩ := by
    rw [← furthest]
    dsimp only at ends
    rw [ends]
    exact ⟨.transaction _ _ _ title.tokens, rfl⟩
  have each (one : Line) (member : one ∈ nearer) : one.Within _ _ _ _ _ :=
    within one (moved ▸ List.mem_append_left _ member)
  have both := alike.advanceAll_moved each opened
  rw [near, attachedEq, far] at both
  cases both with
  | ok values =>
    obtain ⟨⟨movedOn, _⟩, _⟩ := values
    cases movedOn
    exact ⟨nearer, farther, postings, stop, moved, attachedEq, laterEq, fun included =>
      near marking.titled included, fun included => far heading included⟩

/-- The two texts have everything before the flag in common as well. -/
theorem alike_front (marking : Marking text earlier line later heading flag mark) (path : Text) :
    (Source.ofText path marking.marked).Alike (Source.ofText path text) 0 0 0
      marking.front.length := by
  have alike := Source.alike_front path marking.front (flag.text ++ marking.tail)
    (mark ++ marking.tail)
  rwa [← marking.whole] at alike

/-- Where the flag and where the mark begins and ends. Both stand behind the same text, and a flag
has as many bytes as characters. -/
theorem bytes (marking : Marking text earlier line later heading flag mark)
    (known : IsMark mark) (path : Text) :
    (Source.ofText path text).tokenSpan flag = ⟨(Text.Utf8.encode marking.front).length,
        (Text.Utf8.encode marking.front).length + flag.text.length⟩ ∧
      (Source.ofText path marking.marked).tokenSpan ⟨.flag, marking.front.length, mark⟩ =
        ⟨(Text.Utf8.encode marking.front).length,
          (Text.Utf8.encode marking.front).length + mark.length⟩ := by
  have part {word : Text} (sort : IsFlagWord word) {token : Token} (text : token.text = word)
      (start : token.start = marking.front.length) (rest : Text) :
      (Source.ofText path (marking.front ++ (word ++ rest))).tokenSpan token =
        ⟨(Text.Utf8.encode marking.front).length,
          (Text.Utf8.encode marking.front).length + word.length⟩ := by
    have width := length_encode_flag sort
    have stop : marking.front.length + word.length = (marking.front ++ word).length :=
      List.length_append.symm
    simp only [Source.tokenSpan, Source.span, Token.stop, text, start, stop]
    rw [Source.byte_append path rfl, Source.byte_append path (List.append_assoc _ _ _).symm,
      Text.Utf8.encode_append, List.length_append, width]
    rfl
  refine ⟨?_, part known.isFlagWord rfl rfl marking.tail⟩
  have far := part marking.word rfl marking.start marking.tail
  rwa [← marking.whole] at far

/-- Where the offsets of the text come to be: those up to the flag stay, and those behind it move up
by as much as the mark is shorter. -/
def move (marking : Marking text earlier line later heading flag mark) : Int → Int :=
  displaced (Text.Utf8.encode marking.front).length (-marking.distance)

/-- The date stands before the flag. -/
theorem dateSpan (marking : Marking text earlier line later heading flag mark)
    (known : IsMark mark) (path : Text) :
    (Source.ofText path marking.marked).tokenSpan marking.titled.date =
      ((Source.ofText path text).tokenSpan heading.date).relocate marking.move := by
  have front := marking.alike_front path
  have start : (((Source.ofText path marking.marked).offsets.byte marking.front.length : Nat) : Int) =
      (Text.Utf8.encode marking.front).length := congrArg Span.start (marking.bytes known path).2
  have still {position : Nat} (before : position ≤ marking.front.length) :
      marking.move ((Source.ofText path text).offsets.byte position) =
        (Source.ofText path marking.marked).offsets.byte position := by
    have same := front.offset position (Nat.zero_le _) before
    have order := Source.byte_mono path before
      (show marking.front.length ≤ marking.marked.length by simp [marked])
    rw [Nat.add_zero, Int.add_zero] at same
    rw [same, move, displaced_of_le (by omega)]
  have order : heading.date.start ≤ heading.date.stop := Nat.le_add_right _ _
  rw [marking.date, Span.relocate]
  simp only [Source.tokenSpan, Source.span]
  rw [still marking.dated, still (Nat.le_trans order marking.dated)]

/-- The mark begins where the flag begins, and what is behind the one is behind the other. -/
theorem flagSpan (marking : Marking text earlier line later heading flag mark)
    (known : IsMark mark) (path : Text) :
    (Source.ofText path marking.marked).tokenSpan ⟨.flag, marking.front.length, mark⟩ =
      ((Source.ofText path text).tokenSpan flag).relocate marking.move := by
  obtain ⟨far, near⟩ := marking.bytes known path
  have longer := marking.longer
  have positive : 0 < mark.length := by rcases known with rfl | rfl <;> decide
  rw [far, near]
  simp only [Span.relocate, Span.mk.injEq, move]
  rw [displaced_of_le (Int.le_refl _), displaced_of_lt (by omega)]
  exact ⟨rfl, by omega⟩

/-- The narration stands behind the flag. The narration lies in the shared tail, where every byte is
moved by the difference of the flags. -/
theorem narrationSpan (marking : Marking text earlier line later heading flag mark)
    (known : IsMark mark) (path : Text) :
    marking.titled.narration.map (Source.ofText path marking.marked).tokenSpan =
      (heading.narration.map (Source.ofText path text).tokenSpan).map
        (Span.relocate marking.move) := by
  obtain ⟨title, _⟩ := List.forall_mem_cons.mp (marking.within path)
  have after : (((Source.ofText path marking.marked).offsets.byte
      (marking.front.length + mark.length) : Nat) : Int) =
        (Text.Utf8.encode marking.front).length + mark.length :=
    congrArg Span.stop (marking.bytes known path).2
  have positive : 0 < mark.length := by rcases known with rfl | rfl <;> decide
  rw [marking.narration]
  cases narrated : marking.titled.narration with
  | none => rfl
  | some token =>
    obtain ⟨low, high⟩ := title.tokens _ rfl token (by simp [untitled, Heading.retitle, narrated])
    have order : token.start ≤ token.stop := Nat.le_add_right _ _
    have lower := Source.byte_mono path low (Nat.le_trans order high)
    have upper := Source.byte_mono path order high
    rw [List.length_append] at lower
    simp only [Option.map_some, Option.some.injEq]
    rw [(marking.alike known path).tokenSpan low high]
    simp only [Span.relocate, Source.tokenSpan, Source.span, Span.shift, move]
    rw [displaced_of_lt (by omega), displaced_of_lt (by omega), Int.add_neg_cancel_right,
      Int.add_neg_cancel_right]

/-- The transaction with the mark is the one with the flag, with everything behind the flag further
up. Each part of the transaction is compared by itself: the date stays, the flag is the mark, and
everything else lies behind it and is moved. -/
theorem entry (marking : Marking text earlier line later heading flag mark) (known : IsMark mark)
    (path : Text) {postings : List PostingEntry} {stop : Int}
    (ends : ((Text.Utf8.encode marking.front).length : Int) < stop + marking.distance)
    (behind : ∀ posting ∈ postings.map (PostingEntry.shift marking.distance),
      ∀ part ∈ posting.parts, ((Text.Utf8.encode marking.front).length : Int) < part.start ∧
        ((Text.Utf8.encode marking.front).length : Int) < part.stop) :
    marking.titled.entry (Source.ofText path marking.marked) ⟨.flag, marking.front.length, mark⟩
        postings stop =
      ({ heading.entry (Source.ofText path text) flag
          (postings.map (PostingEntry.shift marking.distance)) (stop + marking.distance) with
          flag := mark } : TransactionEntry).relocate marking.move := by
  have date := marking.dateSpan known path
  have moved : (postings.map (PostingEntry.shift marking.distance)).map
      (PostingEntry.relocate marking.move) = postings :=
    calc (postings.map (PostingEntry.shift marking.distance)).map
          (PostingEntry.relocate marking.move)
      _ = (postings.map (PostingEntry.shift marking.distance)).map
          (PostingEntry.shift (-marking.distance)) :=
        List.map_congr_left fun posting member =>
          PostingEntry.relocate_of_behind (behind posting member)
      _ = postings := by
        rw [List.map_map]
        exact List.map_id'' (PostingEntry.shift_neg marking.distance) postings
  have tags (tokens : List Token) :
      ((tokens.map (Token.shift marking.distance)).filter fun token => token.terminal = .tag).map
          (fun token => token.text.drop 1) =
        (tokens.filter fun token => token.terminal = .tag).map fun token => token.text.drop 1 := by
    rw [List.filter_map, List.map_map]
    rfl
  simp only [Heading.entry, TransactionEntry.relocate, TransactionEntry.mk.injEq]
  refine ⟨?_, trivial, ?_, ?_, ?_, moved.symm, date, marking.flagSpan known path,
    marking.narrationSpan known path, ?_⟩
  · rw [marking.date]
  · rw [marking.payee, Option.map_map]
    rfl
  · rw [marking.narration, Option.map_map]
    rfl
  · rw [marking.marks, tags]
  · rw [date]
    simp only [Span.relocate, move]
    rw [displaced_of_lt ends, Int.add_neg_cancel_right]

/-- What the transaction with the mark and the lines behind it are collected to. The marked heading
closes what was open, collects its lines, and is finished where the old one was. -/
theorem collectFrom_marked (marking : Marking text earlier line later heading flag mark)
    {path : Text} {progress : Progress} {closed : List Directive}
    (finished : progress.pending.finish (Source.ofText path marking.marked) = .ok closed)
    {nearer farther : List Line} (moved : marking.moved = nearer ++ farther)
    {postings : List PostingEntry} {stop : Int}
    (near : Progress.advanceAll (Source.ofText path marking.marked)
      ⟨.transaction marking.titled [] ((Source.ofText path marking.marked).offsets.byte
        (Line.stop ⟨.transaction marking.titled, marking.comment⟩ marking.titled.stop)),
        progress.included⟩ nearer =
      .ok (⟨.transaction marking.titled postings stop, progress.included⟩, .nothing))
    (unattached : Progress.Closed farther) {others : Collected}
    (remaining : collectFrom (Source.ofText path marking.marked) .nothing progress.included
      farther = .ok others) :
    collectFrom (Source.ofText path marking.marked) progress.pending progress.included
        (⟨.transaction marking.titled, marking.comment⟩ :: marking.moved) =
      .ok ((⟨closed, []⟩ : Collected).append ((⟨[.transaction (marking.titled.entry
        (Source.ofText path marking.marked) ⟨.flag, marking.front.length, mark⟩ postings stop)],
        []⟩ : Collected).append others)) := by
  have opens : Progress.advance (Source.ofText path marking.marked) progress
      ⟨.transaction marking.titled, marking.comment⟩ = .ok (⟨.transaction marking.titled []
        ((Source.ofText path marking.marked).offsets.byte
          (Line.stop ⟨.transaction marking.titled, marking.comment⟩ marking.titled.stop)),
        progress.included⟩, ⟨closed, []⟩) := by
    simp only [Progress.advance, finished]
    rfl
  refine (Progress.collectFrom_cons_iff progress).mpr ⟨_, _, _, opens, ?_, rfl⟩
  rw [moved]
  refine Progress.collectFrom_append_iff.mpr ⟨_, _, _, near, ?_,
    (Collected.nothing_append _).symm⟩
  exact (Progress.collectFrom_closed unattached).mpr
    ⟨_, others, Pending.finish_transaction_iff.mpr ⟨_, marking.flag, rfl⟩, remaining, rfl⟩

end Marking

section Marked

variable {path text : Text} {lines : List Line} {collected : Collected}
  {before after : List Directive} {entry : TransactionEntry} {flag : Token} {mark : Text}

/-- The flag of a transaction begins where it is exchanged, behind the date. The flag of the entry
is the token of the heading, whose bytes are known from the marking. -/
theorem Parting.flag_bounds
    (parting : Parting (Source.ofText path text) lines collected before entry after)
    (marking : Marking text parting.earlier parting.line (parting.attached ++ parting.later)
      parting.heading flag mark) (known : IsMark mark)
    (flagged : parting.heading.flag = some flag) :
    entry.flag = flag.text ∧ entry.flagSpan = ⟨(Text.Utf8.encode marking.front).length,
        (Text.Utf8.encode marking.front).length + flag.text.length⟩ ∧
      entry.dateSpan.start ≤ (Text.Utf8.encode marking.front).length := by
  obtain ⟨_, sameFlag, entryEq⟩ := parting.entry_eq
  obtain rfl := Option.some.inj (flagged.symm.trans sameFlag)
  obtain ⟨flagSpan, _⟩ := marking.bytes known path
  refine ⟨congrArg TransactionEntry.flag entryEq,
    (congrArg TransactionEntry.flagSpan entryEq).trans flagSpan, ?_⟩
  have date := congrArg (fun entry => entry.dateSpan.start) entryEq
  have start := congrArg Span.start flagSpan
  have inside := congrArg List.length marking.whole
  rw [List.length_append] at inside
  have early := Source.byte_mono path (Nat.le_trans (Nat.le_add_right _ _) marking.dated)
    (show marking.front.length ≤ text.length by omega)
  simp only [Heading.entry, Source.tokenSpan, Source.span, marking.start] at start date
  rw [date]
  omega

/-- The flag has at least one byte, all of which belong to the transaction. That the flag is not
empty is known from its word, and that it lies within the span from the order of the parts of an
entry. -/
theorem Parting.flag_inside
    (parting : Parting (Source.ofText path text) lines collected before entry after)
    (reading : Reading .fileStart 0 text lines)
    (whole : collect (Source.ofText path text) lines = .ok collected)
    (parts : collected.directives = before ++ .transaction entry :: after)
    (marking : Marking text parting.earlier parting.line (parting.attached ++ parting.later)
      parting.heading flag mark) (known : IsMark mark)
    (flagged : parting.heading.flag = some flag) :
    ((Text.Utf8.encode marking.front).length : Int) < entry.flagSpan.stop ∧
      entry.flagSpan.stop ≤ entry.span.stop := by
  obtain ⟨_, flagSpan, _⟩ := parting.flag_bounds marking known flagged
  have member : .transaction entry ∈ collected.directives := by
    rw [parts]
    simp
  obtain ⟨_, _, _, _, stands⟩ := (reading.arrayed whole).each _ member
  have shown : entry.Shown (Text.Utf8.encode text) := stands.shown
  have word : 0 < flag.text.length := by
    rcases marking.word with spelled | ⟨c, spelled, _⟩ <;> simp [spelled]
  refine ⟨?_, (shown.parts entry.flagSpan (by simp [TransactionEntry.parts])).2⟩
  rw [flagSpan]
  dsimp only
  omega

/-- The transaction with the mark has the same lines, and everything in it that is behind the flag
is further up. -/
theorem Parting.entry_marked
    (parting : Parting (Source.ofText path text) lines collected before entry after)
    (reading : Reading .fileStart 0 text lines)
    (marking : Marking text parting.earlier parting.line (parting.attached ++ parting.later)
      parting.heading flag mark) (known : IsMark mark) (flagged : parting.heading.flag = some flag)
    (inside : ((Text.Utf8.encode marking.front).length : Int) < entry.flagSpan.stop ∧
      entry.flagSpan.stop ≤ entry.span.stop)
    {postings : List PostingEntry} {stop : Int}
    (postingsEq : parting.postings = postings.map (PostingEntry.shift marking.distance))
    (stopEq : parting.stop = stop + marking.distance) :
    marking.titled.entry (Source.ofText path marking.marked) ⟨.flag, marking.front.length, mark⟩
        postings stop =
      ({ entry with flag := mark } : TransactionEntry).relocate marking.move := by
  obtain ⟨_, sameFlag, entryEq⟩ := parting.entry_eq
  obtain rfl := Option.some.inj (flagged.symm.trans sameFlag)
  rw [postingsEq, stopEq] at entryEq
  have ends : entry.span.stop = stop + marking.distance :=
    congrArg (fun entry => entry.span.stop) entryEq
  have same : entry.postings = postings.map (PostingEntry.shift marking.distance) :=
    congrArg TransactionEntry.postings entryEq
  have begin := parting.postings_begin reading
  rw [same] at begin
  rw [marking.entry known path (ends ▸ Int.lt_of_lt_of_le inside.1 inside.2)
    fun posting listed part within => ?_, ← entryEq]
  obtain ⟨first, second⟩ := begin posting listed part within
  exact ⟨Int.lt_of_lt_of_le inside.1 first, Int.lt_of_lt_of_le inside.1 second⟩

/-- What is collected with the mark: the same directives, with the mark as the flag of the one, and
everything behind it further up by as many bytes as the mark is shorter. -/
theorem Parting.collect_marked
    (parting : Parting (Source.ofText path text) lines collected before entry after)
    (reading : Reading .fileStart 0 text lines)
    (whole : collect (Source.ofText path text) lines = .ok collected)
    (parts : collected.directives = before ++ .transaction entry :: after)
    (marking : Marking text parting.earlier parting.line (parting.attached ++ parting.later)
      parting.heading flag mark) (known : IsMark mark)
    (flagged : parting.heading.flag = some flag) :
    ∃ changed, collect (Source.ofText path marking.marked)
        (parting.earlier ++ ⟨.transaction marking.titled, marking.comment⟩ :: marking.moved) =
          .ok changed ∧
      changed.directives = (before ++ .transaction { entry with flag := mark } :: after).map
        (Directive.relocate marking.move) ∧
      changed.warnings.map Diagnostic.message = collected.warnings.map Diagnostic.message := by
  obtain ⟨excision⟩ := parting.excision reading
  have apart := marking.apart (parting.parts ▸ reading) parting.statement
  obtain ⟨progress, first, closed, begun, finished, included, early, messages⟩ :=
    parting.front marking.whole apart (mark ++ marking.tail)
  obtain ⟨nearer, farther, postings, stop, moved, attachedEq, laterEq, near, far⟩ :=
    marking.attached known path parting.belongs.each
  have advanced := parting.advanced.symm.trans (far _)
  simp only [Except.ok.injEq, Prod.mk.injEq, Progress.mk.injEq, Pending.transaction.injEq,
    true_and, and_true] at advanced
  have inside := parting.flag_inside reading whole parts marking known flagged
  have marked := parting.entry_marked reading marking known flagged inside advanced.1 advanced.2
  -- What stands behind the transaction does the same further up.
  have each (one : Line) (member : one ∈ farther) : one.Within _ _ _ _ _ :=
    marking.within path one (List.mem_cons_of_mem _ (moved ▸ List.mem_append_right _ member))
  have back := (marking.alike known path).collectFrom_moved each
    (show Progress.Moved _ _ _ _ ⟨.nothing, parting.progress.included⟩
      ⟨.nothing, parting.progress.included⟩ from ⟨.nothing, rfl⟩)
  rw [laterEq, parting.remaining] at back
  obtain ⟨others, remaining, movedOthers⟩ := back.of_ok_right
  have unattached : Progress.Closed farther :=
    Progress.closed_shift_iff.mp (laterEq.symm ▸ parting.unattached)
  rw [← included] at remaining
  have ahead : before.map (Directive.relocate marking.move) = before :=
    parting.relocate_before _ excision
      (parting.flag_bounds marking known flagged).2.2
  have behind : after.map (Directive.relocate marking.move) = others.directives := by
    have late := parting.after_eq.trans movedOthers.directives
    calc after.map (Directive.relocate marking.move)
      _ = after.map (Directive.shift (-marking.distance)) :=
        parting.relocate_after _ excision (Int.lt_of_lt_of_le inside.1 inside.2)
      _ = others.directives := by
        rw [congrArg (List.map (Directive.shift (-marking.distance))) late, List.map_map]
        exact List.map_id'' (Directive.shift_neg marking.distance) _
  have onward := marking.collectFrom_marked finished moved (near _) unattached remaining
  refine ⟨_, (@Progress.collectFrom_append_iff _ ⟨.nothing, []⟩ _ _ _).mpr
    ⟨progress, first, _, begun, onward, rfl⟩, ?_, ?_⟩
  · rw [List.map_append, List.map_cons, ahead, behind, marked]
    simp only [Collected.append_directives, Directive.relocate]
    rw [← List.append_assoc, ← early]
    rfl
  · rw [parting.warnings]
    simp [messages, movedOthers.messages]

end Marked

end Daybook
