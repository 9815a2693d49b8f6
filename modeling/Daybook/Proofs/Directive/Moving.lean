import Daybook.Proofs.Directive.Collecting
import Daybook.Proofs.Statement.Extents
import Daybook.Proofs.Statement.Shifting

/-!
# Collecting further down

The same lines can stand in two files, further down in the one than in the other. As long as
the text around them is the same, what is collected from them is the same as well, except that
every span is greater by the number of bytes in between. A posting looks furthest: its price
and its end are found in the rest of its line, so that the line end has to be part of what the
two files have in common, unless the one file is over there and the other one has a line end.
-/
namespace Daybook

section Shift

variable (bytes : Int)

/-- A span further down. -/
def Span.shift (span : Span) : Span := ⟨span.start + bytes, span.stop + bytes⟩

/-- A posting further down. -/
def PostingEntry.shift (entry : PostingEntry) : PostingEntry :=
  { entry with
    accountSpan := entry.accountSpan.shift bytes
    amountSpan := entry.amountSpan.map (Span.shift bytes)
    span := entry.span.shift bytes }

/-- A transaction further down. -/
def TransactionEntry.shift (entry : TransactionEntry) : TransactionEntry :=
  { entry with
    postings := entry.postings.map (PostingEntry.shift bytes)
    dateSpan := entry.dateSpan.shift bytes
    flagSpan := entry.flagSpan.shift bytes
    narrationSpan := entry.narrationSpan.map (Span.shift bytes)
    span := entry.span.shift bytes }

/-- A directive further down. -/
def Directive.shift : Directive → Directive
  | .transaction entry => .transaction (entry.shift bytes)
  | .opening date account currencies dateSpan span =>
    .opening date account currencies (dateSpan.shift bytes) (span.shift bytes)
  | .closing date account dateSpan span =>
    .closing date account (dateSpan.shift bytes) (span.shift bytes)
  | .inclusion path span => .inclusion path (span.shift bytes)

end Shift

/-- The transactions of directives further down are the transactions further down. -/
theorem Directive.transactions_shift (directives : List Directive) (bytes : Int) :
    (directives.map (Directive.shift bytes)).filterMap Directive.transaction? =
      (directives.filterMap Directive.transaction?).map (TransactionEntry.shift bytes) := by
  rw [List.filterMap_map, List.map_filterMap]
  refine List.filterMap_congr fun directive _ => ?_
  cases directive <;> rfl

/-- Two files hold the same text, the one from `first` to `last` and the other a number of
characters further down, and there the bytes are a fixed number further down. -/
structure Source.Alike (near far : Source) (distance : Nat) (bytes : Int) (first last : Nat) :
    Prop where
  offset : ∀ position, first ≤ position → position ≤ last →
    (far.offsets.byte (position + distance) : Int) = near.offsets.byte position + bytes
  text : Text.slice far.text (first + distance) (last + distance) = Text.slice near.text first last
  inside : last ≤ near.text.length

/-- A line lies within the part that two files have in common, and so does the end of the line
where it is looked for. -/
structure Line.Within (near far : Source) (distance first last : Nat) (line : Line) : Prop where
  tokens : ∀ extent ∈ line.statement.extent?, ∀ token ∈ extent.tokens,
    first ≤ token.start ∧ token.stop ≤ last
  stop : ∀ extent ∈ line.statement.extent?, first ≤ extent.stop ∧ extent.stop ≤ last
  comment : ∀ comment ∈ line.comment, ∀ extent ∈ line.statement.extent?,
    extent.stop ≤ comment.start ∧ comment.stop ≤ last
  feed : ∀ posting, line.statement = .posting posting →
    '\n' ∈ Text.slice near.text posting.account.stop last ∨
      (last = near.text.length ∧ Lexeme.LineOver (far.text.drop (last + distance)))

namespace Source.Alike

variable {near far : Source} {distance first last : Nat} {bytes : Int}

/-- Every part of what two files have in common is the same in both. -/
theorem slice (alike : near.Alike far distance bytes first last) {start stop : Nat}
    (after : first ≤ start) (before : stop ≤ last) :
    Text.slice far.text (start + distance) (stop + distance) =
      Text.slice near.text start stop := by
  have part (text : Text) (shift : Nat) : Text.slice text (start + shift) (stop + shift) =
      ((Text.slice text (first + shift) (last + shift)).drop (start - first)).take
        (stop - start) := by
    have place : first + shift + (start - first) = start + shift := by omega
    have size : min (stop - start) (last + shift - (first + shift) - (start - first)) =
        stop + shift - (start + shift) := by omega
    simp only [Text.slice]
    rw [List.drop_take, List.take_take, List.drop_drop, place, size]
  have here := part near.text 0
  simp only [Nat.add_zero] at here
  rw [part, here, alike.text]

/-- A span within what two files have in common is a fixed number of bytes further down. -/
theorem span (alike : near.Alike far distance bytes first last) {start stop : Nat}
    (after : first ≤ start) (inside : start ≤ last) (later : first ≤ stop) (before : stop ≤ last) :
    far.span (start + distance) (stop + distance) = (near.span start stop).shift bytes := by
  simp only [Source.span, Span.shift, alike.offset start after inside,
    alike.offset stop later before]

/-- The span of a token is a fixed number of bytes further down. -/
theorem tokenSpan (alike : near.Alike far distance bytes first last) {token : Token}
    (after : first ≤ token.start) (before : token.stop ≤ last) :
    far.tokenSpan (token.shift distance) = (near.tokenSpan token).shift bytes := by
  have order : token.start ≤ token.stop := Nat.le_add_right _ _
  simp only [Source.tokenSpan, Token.shift_start, Token.shift_stop]
  exact alike.span after (by omega) (by omega) before

/-- Lines end at the same place in what two files have in common. If the common part does not reach
a line feed, the near file ends there, and then the far one has to go on with a line end for the
same stretch to be found. -/
theorem lineEnd (alike : near.Alike far distance bytes first last) {start : Nat}
    (after : first ≤ start) (before : start ≤ last)
    (feed : '\n' ∈ Text.slice near.text start last ∨
      (last = near.text.length ∧ Lexeme.LineOver (far.text.drop (last + distance)))) :
    Text.stretch (· ≠ '\n') (far.text.drop (start + distance)) =
        Text.stretch (· ≠ '\n') (near.text.drop start) ∧
      start + Text.stretch (· ≠ '\n') (near.text.drop start) ≤ last := by
  have same := alike.slice after (Nat.le_refl last)
  have here : near.text.drop start = Text.slice near.text start last ++ near.text.drop last :=
    Text.drop_eq_slice_append before
  have there : far.text.drop (start + distance) =
      Text.slice near.text start last ++ far.text.drop (last + distance) := by
    rw [← same]
    exact Text.drop_eq_slice_append (Nat.add_le_add_right before distance)
  have size : (Text.slice near.text start last).length ≤ last - start := List.length_take_le _ _
  rcases feed with member | ⟨nearEnd, farEnd⟩
  · obtain ⟨nearStretch, shorter⟩ := Lexeme.stretch_append_of_mem (· ≠ '\n') member (by simp)
      (near.text.drop last)
    obtain ⟨farStretch, _⟩ := Lexeme.stretch_append_of_mem (· ≠ '\n') member (by simp)
      (far.text.drop (last + distance))
    rw [here, there, nearStretch, farStretch]
    exact ⟨rfl, by omega⟩
  · have nearOver : near.text.drop last = [] := List.drop_eq_nil_iff.mpr (by omega)
    have within := Lexeme.stretch_le (· ≠ '\n') (Text.slice near.text start last)
    rw [here, there, nearOver, List.append_nil]
    refine ⟨?_, by omega⟩
    rcases farEnd with finished | ⟨others, finished⟩
    · rw [finished, List.append_nil]
    · rw [finished, Lexeme.stretch_append others (by simp)]

end Source.Alike

namespace PostingEntry

/-- The end of the part of a posting line in which its cost and its price are found. -/
def tailStop (source : Source) (line : PostingLine) (comment : Option Token) : Nat :=
  match comment with
  | some comment => comment.start
  | none => line.account.stop + Text.stretch (· ≠ '\n') (source.text.drop line.account.stop)

/-- The posting of a posting line whose number ends at one position, whose amount ends at
another and whose tail ends at a third one. -/
def ofParts (source : Source) (line : PostingLine) (numberStop amountStop tailStop : Nat) :
    PostingEntry :=
  let number := Text.slice source.text line.account.stop numberStop
  let numberStart := line.account.stop + (number.length - (Text.trimLeft number).length)
  let tail := Text.slice source.text amountStop tailStop
  let priceStart := if line.hasPrice then priceStart? tail else none
  let costTail := match priceStart with
    | some start => tail.take start
    | none => tail
  let whole := Text.slice source.text line.account.start tailStop
  let stop := max line.stop (tailStop - (whole.length - (Text.trimRight whole).length))
  { account := line.account.text
    amount := Text.trim number
    currency := match line.currency with
      | some currency => currency.text
      | none => []
    cost := if line.hasCost then nonempty? (Text.trim costTail) else none
    price := priceStart.map fun start => Text.trim (tail.drop start)
    accountSpan := source.tokenSpan line.account
    amountSpan := if line.currency.isSome then some (source.span numberStart amountStop) else none
    span := source.span line.account.start stop }

/-- The parts of a posting line are delimited by its tokens. -/
theorem ofLine_eq (source : Source) (line : PostingLine) (comment : Option Token) :
    ofLine source line comment =
      ofParts source line
        (match line.currency with
          | some currency => currency.start
          | none => line.account.stop)
        (match line.currency with
          | some currency => currency.stop
          | none => line.account.stop)
        (tailStop source line comment) := rfl

end PostingEntry

namespace Source.Alike

variable {near far : Source} {distance first last : Nat} {bytes : Int}

/-- A posting with the same parts is the same further down. Every field is a text cut out of the
file or a span of it. The texts are the same because the slices are, and the spans differ by the
bytes in between. -/
theorem ofParts_shift (alike : near.Alike far distance bytes first last) {line : PostingLine}
    {numberStop amountStop tailStop : Nat}
    (account : first ≤ line.account.start ∧ line.account.stop ≤ last)
    (stop : first ≤ line.stop ∧ line.stop ≤ last) (number : numberStop ≤ last)
    (amount : first ≤ amountStop ∧ amountStop ≤ last) (tail : tailStop ≤ last) :
    PostingEntry.ofParts far (line.shift distance) (numberStop + distance) (amountStop + distance)
        (tailStop + distance) =
      (PostingEntry.ofParts near line numberStop amountStop tailStop).shift bytes := by
  have order : line.account.start ≤ line.account.stop := Nat.le_add_right _ _
  have sameNumber := alike.slice (Nat.le_trans account.1 order) number
  have sameTail := alike.slice amount.1 tail
  have sameWhole := alike.slice account.1 tail
  have accountSpan := alike.tokenSpan account.1 account.2
  -- The number begins and the posting ends within what the files have in common.
  have numberSize : (Text.slice near.text line.account.stop numberStop).length ≤
      numberStop - line.account.stop := List.length_take_le _ _
  have wholeSize : (Text.slice near.text line.account.start tailStop).length ≤
      tailStop - line.account.start := List.length_take_le _ _
  unfold PostingEntry.ofParts
  simp only [PostingLine.shift, Token.shift_start, Token.shift_stop, Token.shift_text, sameNumber,
    sameTail, sameWhole, accountSpan, PostingEntry.shift, PostingEntry.mk.injEq, true_and]
  generalize (Text.slice near.text line.account.stop numberStop) = numberText at *
  generalize (Text.slice near.text line.account.start tailStop) = wholeText at *
  refine ⟨?_, ?_, ?_⟩
  · cases line.currency <;> rfl
  · have place : line.account.stop + distance + (numberText.length -
        (Text.trimLeft numberText).length) = line.account.stop + (numberText.length -
        (Text.trimLeft numberText).length) + distance := by omega
    rw [place, Option.isSome_map, alike.span (by omega) (by omega) amount.1 amount.2]
    split <;> rfl
  · have place : max (line.stop + distance) (tailStop + distance - (wholeText.length -
        (Text.trimRight wholeText).length)) = max line.stop (tailStop - (wholeText.length -
        (Text.trimRight wholeText).length)) + distance := by omega
    rw [place, alike.span account.1 (by omega) (by omega) (by omega)]

end Source.Alike

/-- A posting is read alike further down. What has to be shown of the files is where the tail ends,
which is at the comment or at the end of the line; for the rest `ofParts_shift` is enough. -/
theorem PostingEntry.ofLine_shift {near far : Source} {distance first last : Nat} {bytes : Int}
    (alike : near.Alike far distance bytes first last) {line : PostingLine}
    {comment : Option Token} (within : Line.Within near far distance first last
      { statement := .posting line, comment }) :
    PostingEntry.ofLine far (line.shift distance) (comment.map (Token.shift distance)) =
      (PostingEntry.ofLine near line comment).shift bytes := by
  have tokens := within.tokens _ rfl
  have account := tokens line.account (by simp)
  have stop := within.stop _ rfl
  have order : line.account.start ≤ line.account.stop := Nat.le_add_right _ _
  obtain ⟨sameEnd, endInside⟩ :=
    alike.lineEnd (by omega) account.2 (within.feed line rfl)
  have tail : PostingEntry.tailStop far (line.shift distance) (comment.map (Token.shift distance)) =
        PostingEntry.tailStop near line comment + distance ∧
      PostingEntry.tailStop near line comment ≤ last := by
    cases comment with
    | none =>
      simp only [PostingEntry.tailStop, Option.map_none, PostingLine.shift, Token.shift_stop,
        sameEnd]
      exact ⟨by omega, endInside⟩
    | some comment =>
      have inside := within.comment comment rfl _ rfl
      have positive : comment.start ≤ comment.stop := Nat.le_add_right _ _
      exact ⟨rfl, by
        simp only [PostingEntry.tailStop]
        omega⟩
  have shape : (line.shift distance).currency = line.currency.map (Token.shift distance) := rfl
  have place : (line.shift distance).account.stop = line.account.stop + distance := by
    simp only [PostingLine.shift, Token.shift_stop]
  rw [PostingEntry.ofLine_eq, PostingEntry.ofLine_eq, tail.1, shape, place]
  cases currency : line.currency with
  | none => exact alike.ofParts_shift account stop account.2 ⟨by omega, account.2⟩ tail.2
  | some token =>
    have known := tokens token (by simp [currency])
    have positive : token.start ≤ token.stop := Nat.le_add_right _ _
    simp only [Option.map_some, Token.shift_start, Token.shift_stop]
    exact alike.ofParts_shift account stop (by omega) ⟨by omega, known.2⟩ tail.2

/-! ## What is collected -/

/-- Two results are alike: both fail in the same way, or both succeed with related values. -/
inductive Agree {α β : Type} (related : α → β → Prop) :
    Except Failure α → Except Failure β → Prop where
  | ok {one : α} {other : β} (values : related one other) : Agree related (.ok one) (.ok other)
  | error (failure : Failure) : Agree related (.error failure) (.error failure)

namespace Agree

variable {α β γ δ : Type} {related : α → β → Prop} {after : γ → δ → Prop}
  {one : Except Failure α} {other : Except Failure β}

/-- What is done with related values can be done after results that are alike. -/
theorem bind {further : α → Except Failure γ} {more : β → Except Failure δ}
    (alike : Agree related one other)
    (each : ∀ value item, related value item → Agree after (further value) (more item)) :
    Agree after (one.bind further) (other.bind more) := by
  cases alike with
  | ok values => exact each _ _ values
  | error failure => exact .error failure

/-- Results that agree still agree after both have been mapped, provided the two functions carry
related values to related values. -/
theorem map {further : α → γ} {more : β → δ} (alike : Agree related one other)
    (each : ∀ value item, related value item → after (further value) (more item)) :
    Agree after (one.map further) (other.map more) := by
  cases alike with
  | ok values => exact .ok (each _ _ values)
  | error failure => exact .error failure

/-- Where the one result is known, so is the other. -/
theorem of_ok {value : α} (alike : Agree related (.ok value) other) :
    ∃ item, other = .ok item ∧ related value item := by
  cases alike with
  | ok values => exact ⟨_, rfl, values⟩

/-- Where the far side of an agreement succeeds, the near side succeeds with a related value.
Agreement is symmetric in this respect, but the proofs only ever read it from the far side. -/
theorem of_ok_right {item : β} (alike : Agree related one (.ok item)) :
    ∃ value, one = .ok value ∧ related value item := by
  cases alike with
  | ok values => exact ⟨_, rfl, values⟩

end Agree

/-- The same directives further down, and warnings with the same messages. -/
structure Collected.Moved (bytes : Int) (near far : Collected) : Prop where
  directives : far.directives = near.directives.map (Directive.shift bytes)
  messages : far.warnings.map Diagnostic.message = near.warnings.map Diagnostic.message

/-- What is open is the same further down. Of a transaction the tokens have to be known. -/
inductive Pending.Moved (distance : Nat) (bytes : Int) (first last : Nat) :
    Pending → Pending → Prop where
  | nothing : Moved distance bytes first last .nothing .nothing
  | other : Moved distance bytes first last .other .other
  | transaction (heading : Heading) (postings : List PostingEntry) (stop : Int)
      (within : ∀ extent ∈ (Statement.transaction heading).extent?, ∀ token ∈ extent.tokens,
        first ≤ token.start ∧ token.stop ≤ last) :
      Moved distance bytes first last (.transaction heading postings stop)
        (.transaction (heading.shift distance) (postings.map (PostingEntry.shift bytes))
          (stop + bytes))
  | account (make made : Span → Directive) (span : Span)
      (moves : ∀ span : Span, made (span.shift bytes) = (make span).shift bytes) :
      Moved distance bytes first last (.account make span) (.account made (span.shift bytes))

/-- What is remembered is the same further down. -/
structure Progress.Moved (distance : Nat) (bytes : Int) (first last : Nat)
    (near far : Progress) : Prop where
  pending : near.pending.Moved distance bytes first last far.pending
  included : far.included = near.included

/-- A step is the same further down, in what is remembered and in what is collected. -/
def Progress.StepMoved (distance : Nat) (bytes : Int) (first last : Nat)
    (near far : Progress × Collected) : Prop :=
  near.1.Moved distance bytes first last far.1 ∧ near.2.Moved bytes far.2

section Moving

variable {near far : Source} {distance first last : Nat} {bytes : Int}

/-- Two collections that moved by the same number of bytes still do when laid end to end, the step
of the induction over the statements of a page. -/
theorem Collected.Moved.append {front back frontFar backFar : Collected}
    (early : front.Moved bytes frontFar) (late : back.Moved bytes backFar) :
    (front.append back).Moved bytes (frontFar.append backFar) where
  directives := by simp [early.directives, late.directives]
  messages := by simp [early.messages, late.messages]

/-- Nothing collected has moved by any distance. -/
theorem Collected.Moved.nothing : Collected.nothing.Moved bytes .nothing := ⟨rfl, rfl⟩

/-- The end of a line is further down as well, and within what the files have in common. -/
theorem Line.Within.stop_shift {line : Line} (within : line.Within near far distance first last)
    {extent : Extent} (known : extent ∈ line.statement.extent?) :
    (line.shift distance).stop (extent.stop + distance) = line.stop extent.stop + distance ∧
      first ≤ line.stop extent.stop ∧ line.stop extent.stop ≤ last := by
  cases comment : line.comment with
  | none => simpa [Line.stop, Line.shift, comment] using within.stop extent known
  | some token =>
    have inside := within.comment token comment extent known
    have known := within.stop extent known
    have order : token.start ≤ token.stop := Nat.le_add_right _ _
    simp only [Line.stop, Line.shift, comment, Option.map_some, Token.shift_stop, true_and]
    omega

/-- A directive that is closed is the same further down. Only a transaction has fields that are made
when it is closed, and they are made of its heading and of the postings, which have moved before. -/
theorem Source.Alike.finish_moved (alike : near.Alike far distance bytes first last)
    {here there : Pending} (moved : here.Moved distance bytes first last there) :
    Agree (fun closed farther => farther = closed.map (Directive.shift bytes))
      (here.finish near) (there.finish far) := by
  cases moved with
  | nothing => exact .ok rfl
  | other => exact .ok rfl
  | account make made span moves => exact .ok (by simp [moves])
  | transaction heading postings stop within =>
    have tokens := within _ rfl
    have spanOf {token : Token} (known : first ≤ token.start ∧ token.stop ≤ last) :=
      alike.tokenSpan known.1 known.2
    have date := spanOf (tokens heading.date (by simp))
    cases flag : heading.flag with
    | none =>
      simp only [Pending.finish, Heading.shift, flag, Option.map_none]
      exact .error _
    | some token =>
      have flagSpan := spanOf (tokens token (by simp [flag]))
      have narration : (heading.narration.map (Token.shift distance)).map far.tokenSpan =
          (heading.narration.map near.tokenSpan).map (Span.shift bytes) := by
        cases narration : heading.narration with
        | none => rfl
        | some text => exact congrArg some (spanOf (tokens text (by simp [narration])))
      have tags : (((heading.marks.map (Token.shift distance)).filter
            fun token => token.terminal = .tag).map fun token => token.text.drop 1) =
          (heading.marks.filter fun token => token.terminal = .tag).map fun token =>
            token.text.drop 1 := by
        rw [List.filter_map, List.map_map]
        rfl
      simp only [Pending.finish, Heading.shift, flag, Option.map_some]
      refine .ok ?_
      simp only [List.map_cons, List.map_nil, Directive.shift, TransactionEntry.shift, date,
        flagSpan, narration, tags, Token.shift_text, Option.map_map, Span.shift]
      rfl

/-- What a directive opens is the same further down, whatever it closes. -/
theorem Pending.Moved.closes {here there opened farther : Pending}
    (moved : here.Moved distance bytes first last there)
    (alike : near.Alike far distance bytes first last)
    (related : opened.Moved distance bytes first last farther) (included : List Phrase) :
    Agree (Progress.StepMoved distance bytes first last)
      ((here.finish near).map fun closed => (⟨opened, included⟩, ⟨closed, []⟩))
      ((there.finish far).map fun closed => (⟨farther, included⟩, ⟨closed, []⟩)) :=
  (alike.finish_moved moved).map fun _ _ equal => ⟨⟨related, rfl⟩, equal, rfl⟩

/-- An account that a line declares is the same further down. -/
theorem Source.Alike.declared_moved (alike : near.Alike far distance bytes first last)
    {line : Line} (within : line.Within near far distance first last) {extent : Extent}
    (known : extent ∈ line.statement.extent?) {date : Token} (member : date ∈ extent.tokens)
    (form : Span → Span → Directive)
    (moves : ∀ dateSpan span : Span,
      form (dateSpan.shift bytes) (span.shift bytes) = (form dateSpan span).shift bytes) :
    Pending.Moved distance bytes first last
      (.account (form (near.tokenSpan date)) (near.span date.start (line.stop extent.stop)))
      (.account (form (far.tokenSpan (date.shift distance)))
        (far.span (date.shift distance).start
          ((line.shift distance).stop (extent.stop + distance)))) := by
  obtain ⟨place, later, inside⟩ := within.stop_shift known
  obtain ⟨begins, ends⟩ := within.tokens extent known date member
  have order : date.start ≤ date.stop := Nat.le_add_right _ _
  rw [place, Token.shift_start, alike.span begins (by omega) later inside,
    alike.tokenSpan begins ends]
  exact .account _ _ _ fun span => moves _ span

/-- A posting line does the same further down. Where no transaction is open the posting is reported
instead, and of a report only the message is the same, since the line it names is another one. -/
theorem Pending.Moved.posting {here there : Pending}
    (moved : here.Moved distance bytes first last there)
    (alike : near.Alike far distance bytes first last) {posting : PostingLine}
    {comment : Option Token}
    (within : Line.Within near far distance first last ⟨.posting posting, comment⟩)
    (included : List Phrase) :
    Agree (Progress.StepMoved distance bytes first last)
      (Progress.advance near ⟨here, included⟩ ⟨.posting posting, comment⟩)
      (Progress.advance far ⟨there, included⟩
        (Line.shift distance ⟨.posting posting, comment⟩)) := by
  cases moved with
  | transaction heading postings stop tokens =>
    have entry := PostingEntry.ofLine_shift alike within
    have joined : Pending.Moved distance bytes first last _ _ := .transaction heading
      (postings ++ [PostingEntry.ofLine near posting comment])
      (max stop (PostingEntry.ofLine near posting comment).span.stop) tokens
    have later : max (stop + bytes)
          (PostingEntry.ofLine far (posting.shift distance)
            (comment.map (Token.shift distance))).span.stop =
        max stop (PostingEntry.ofLine near posting comment).span.stop + bytes := by
      rw [entry]
      simp only [PostingEntry.shift, Span.shift]
      omega
    rw [List.map_append, List.map_singleton, ← entry, ← later] at joined
    exact .ok ⟨⟨joined, rfl⟩, .nothing⟩
  | nothing => exact .ok ⟨⟨.nothing, rfl⟩, rfl, rfl⟩
  | other => exact .ok ⟨⟨.other, rfl⟩, rfl, rfl⟩
  | account make made span moves => exact .ok ⟨⟨.account make made span moves, rfl⟩, rfl, rfl⟩

/-- A metadata line does the same further down. The end of what is open is the greater of two, its
old end and that of the line, and both have moved by the same number of bytes. -/
theorem Pending.Moved.metadata {here there : Pending}
    (moved : here.Moved distance bytes first last there)
    (alike : near.Alike far distance bytes first last) {key : Token} {stop : Nat}
    {comment : Option Token}
    (within : Line.Within near far distance first last ⟨.metadata key stop, comment⟩)
    (included : List Phrase) :
    Agree (Progress.StepMoved distance bytes first last)
      (Progress.advance near ⟨here, included⟩ ⟨.metadata key stop, comment⟩)
      (Progress.advance far ⟨there, included⟩
        (Line.shift distance ⟨.metadata key stop, comment⟩)) := by
  obtain ⟨place, later, inside⟩ := within.stop_shift (Option.mem_some_self _)
  dsimp only at place later inside
  have ends := alike.offset _ later inside
  rw [← place] at ends
  cases moved with
  | transaction heading postings old tokens =>
    have extended : Pending.Moved distance bytes first last _ _ := .transaction heading postings
      (max old (near.offsets.byte (Line.stop ⟨.metadata key stop, comment⟩ stop))) tokens
    have sum (first second : Int) : max first second + bytes =
        max (first + bytes) (second + bytes) := by omega
    rw [sum, ← ends] at extended
    exact .ok ⟨⟨extended, rfl⟩, .nothing⟩
  | nothing => exact .ok ⟨⟨.nothing, rfl⟩, rfl, rfl⟩
  | other => exact .ok ⟨⟨.other, rfl⟩, .nothing⟩
  | account make made span moves =>
    have extended : Pending.Moved distance bytes first last _ _ := .account make made
      { span with stop := near.offsets.byte (Line.stop ⟨.metadata key stop, comment⟩ stop) } moves
    simp only [Span.shift, ← ends] at extended
    exact .ok ⟨⟨extended, rfl⟩, .nothing⟩

/-- One line does the same further down. One case for each statement. What was open is closed first,
on both sides alike, and then the tokens of the statement are where they have to be because the
whole line lies within the common part. -/
theorem Source.Alike.advance_moved (alike : near.Alike far distance bytes first last)
    {line : Line} (within : line.Within near far distance first last) {one other : Progress}
    (moved : one.Moved distance bytes first last other) :
    Agree (Progress.StepMoved distance bytes first last)
      (one.advance near line) (other.advance far (line.shift distance)) := by
  obtain ⟨pending, included⟩ := one
  obtain ⟨farPending, farIncluded⟩ := other
  obtain ⟨moved, same⟩ := moved
  obtain rfl : farIncluded = included := same
  obtain ⟨statement, comment⟩ := line
  cases statement with
  | remark => exact .ok ⟨⟨moved, rfl⟩, .nothing⟩
  | otherDated => exact moved.closes alike .other farIncluded
  | otherUndated => exact moved.closes alike .nothing farIncluded
  | transaction heading =>
    obtain ⟨place, later, inside⟩ := within.stop_shift (Option.mem_some_self _)
    dsimp only at place later inside
    have opened := moved.closes alike (.transaction heading []
      (near.offsets.byte (Line.stop ⟨.transaction heading, comment⟩ heading.stop))
      within.tokens) farIncluded
    rw [← alike.offset _ later inside, ← place] at opened
    exact opened
  | opening date account currencies stop =>
    have opened := moved.closes alike (alike.declared_moved within (Option.mem_some_self _)
      (List.mem_cons_self (a := date)) (.opening date.text account.text
        (currencies.map Token.text)) fun _ _ => rfl) farIncluded
    have texts : (currencies.map (Token.shift distance)).map Token.text =
        currencies.map Token.text := List.map_map
    simp only [Progress.advance, Line.shift, Statement.shift, Token.shift_text, texts]
    exact opened
  | closing date account =>
    have opened := moved.closes alike (alike.declared_moved within (Option.mem_some_self _)
      (List.mem_cons_self (a := date)) (.closing date.text account.text)
      fun _ _ => rfl) farIncluded
    rw [← Token.shift_stop] at opened
    exact opened
  | inclusion token =>
    obtain ⟨begins, ends⟩ := within.tokens _ rfl token (by simp)
    refine (alike.finish_moved moved).map fun closed more equal => ⟨⟨.nothing, rfl⟩, ?_, ?_⟩
    · simp only [Token.shift_text, alike.tokenSpan begins ends, equal, List.map_append]
      rfl
    · by_cases repeated : Text.Quoted.decode token.text ∈ farIncluded
      · simp only [Token.shift_text, repeated, if_true]
        rfl
      · simp only [Token.shift_text, repeated, if_false]
  | posting posting => exact moved.posting alike within farIncluded
  | metadata key stop => exact moved.metadata alike within farIncluded

/-- Several lines do the same further down. -/
theorem Source.Alike.advanceAll_moved (alike : near.Alike far distance bytes first last)
    {lines : List Line} (within : ∀ line ∈ lines, line.Within near far distance first last)
    {one other : Progress} (moved : one.Moved distance bytes first last other) :
    Agree (Progress.StepMoved distance bytes first last)
      (one.advanceAll near lines) (other.advanceAll far (lines.map (Line.shift distance))) := by
  induction lines generalizing one other with
  | nil => exact .ok ⟨moved, .nothing⟩
  | cons line rest ih =>
    refine (alike.advance_moved (within line List.mem_cons_self) moved).bind ?_
    rintro ⟨next, yielded⟩ ⟨farNext, farYielded⟩ ⟨movedOn, early⟩
    refine (ih (fun one member => within one (List.mem_cons_of_mem _ member)) movedOn).bind ?_
    rintro ⟨final, others⟩ ⟨farFinal, farOthers⟩ ⟨finished, late⟩
    exact .ok ⟨finished, early.append late⟩

/-- What is collected from lines is the same further down. -/
theorem Source.Alike.collectFrom_moved (alike : near.Alike far distance bytes first last)
    {lines : List Line} (within : ∀ line ∈ lines, line.Within near far distance first last)
    {one other : Progress} (moved : one.Moved distance bytes first last other) :
    Agree (Collected.Moved bytes) (collectFrom near one.pending one.included lines)
      (collectFrom far other.pending other.included (lines.map (Line.shift distance))) := by
  induction lines generalizing one other with
  | nil =>
    refine (alike.finish_moved moved.pending).bind fun closed farther equal => ?_
    exact .ok ⟨equal, rfl⟩
  | cons line rest ih =>
    rw [List.map_cons, Progress.collectFrom_eq, Progress.collectFrom_eq]
    refine (alike.advance_moved (within line List.mem_cons_self) moved).bind ?_
    rintro ⟨next, yielded⟩ ⟨farNext, farYielded⟩ ⟨movedOn, early⟩
    refine (ih (fun one member => within one (List.mem_cons_of_mem _ member)) movedOn).map ?_
    exact fun others farOthers late => early.append late

end Moving

end Daybook
