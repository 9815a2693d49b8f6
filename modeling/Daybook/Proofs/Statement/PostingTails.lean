import Daybook.Proofs.Statement.PostingStages

/-!
# What stands behind an account

What a posting line says of its cost and its price has to be found again in the text behind its
amount. Here it is shown what that text looks like: blanks, then the cost in its braces, then the
price behind its mark, and no closing brace in the price. At each stage of the line a part of this
is known, and it is preserved by every token and every blank.
-/
namespace Daybook

open Lexeme

/-! ## What the text says at each stage -/

namespace Text

/-- A cost in its braces with blanks around it, or nothing but blanks. -/
inductive Costs : Bool → Text → Prop where
  | none {blanks : Text} (blank : ∀ c ∈ blanks, isBlank c = true) : Costs false blanks
  | braces {before inner behind : Text} (before_blank : ∀ c ∈ before, isBlank c = true)
      (behind_blank : ∀ c ∈ behind, isBlank c = true) :
      Costs true (before ++ '\x7b' :: (inner ++ '\x7d' :: behind))

/-- A cost, and a price behind its mark. No brace is closed in the price. -/
inductive Trails : Bool → Bool → Text → Prop where
  | unpriced {hasCost : Bool} {text : Text} (costs : Costs hasCost text) :
      Trails hasCost false text
  | priced {hasCost : Bool} {front price : Text} (costs : Costs hasCost front)
      (braceless : '\x7d' ∉ price) : Trails hasCost true (front ++ '@' :: price)

/-- Blanks behind a cost change nothing. -/
theorem Costs.append {hasCost : Bool} {text : Text} (costs : Costs hasCost text) {blanks : Text}
    (blank : ∀ c ∈ blanks, isBlank c = true) : Costs hasCost (text ++ blanks) := by
  have both {front : Text} (frontBlank : ∀ c ∈ front, isBlank c = true) :
      ∀ c ∈ front ++ blanks, isBlank c = true := by
    intro c member
    rcases List.mem_append.mp member with first | second
    · exact frontBlank c first
    · exact blank c second
  cases costs with
  | none frontBlank => exact .none (both frontBlank)
  | @braces before inner behind beforeBlank behindBlank =>
    have parts := @Costs.braces before inner (behind ++ blanks) beforeBlank (both behindBlank)
    simpa using parts

/-- What closes no brace may follow a price. -/
theorem Trails.append_price {hasCost : Bool} {text : Text} (trails : Trails hasCost true text)
    {more : Text} (braceless : '\x7d' ∉ more) : Trails hasCost true (text ++ more) := by
  cases trails with
  | @priced front price costs without =>
    rw [List.append_assoc, List.cons_append]
    exact .priced costs (by simp [without, braceless])

/-- Blanks behind a cost and a price change nothing. -/
theorem Trails.append {hasCost hasPrice : Bool} {text : Text}
    (trails : Trails hasCost hasPrice text) {blanks : Text}
    (blank : ∀ c ∈ blanks, isBlank c = true) : Trails hasCost hasPrice (text ++ blanks) := by
  cases trails with
  | unpriced costs => exact .unpriced (costs.append blank)
  | priced costs without =>
    refine (Trails.priced costs without).append_price fun member => ?_
    exact ne_of_isBlank (blank _ member) (by decide) (by decide) rfl

end Text

/-- The end of the currency of a posting line, or of its account when it has no amount. -/
def PostingLine.amountStop (line : PostingLine) : Nat :=
  (line.currency.getD line.account).stop

/-- What the text behind the amount of a posting line looks like at each stage. -/
def Stage.Describes (line : PostingLine) (tail : Text) : Stage → Prop
  | .settled => line.hasCost = false ∧ line.hasPrice = false ∧ Text.Costs false tail
  | .counted => line.hasCost = false ∧ line.hasPrice = false
  | .costed => line.hasCost = true ∧ line.hasPrice = false ∧ ∃ before inner,
      (∀ c ∈ before, Text.isBlank c = true) ∧ tail = before ++ '\x7b' :: inner
  | .closed => line.hasCost = true ∧ line.hasPrice = false ∧ Text.Costs true tail
  | .priced => line.hasPrice = true ∧ Text.Trails line.hasCost true tail

/-- Behind an amount, and behind a cost, the text is what a posting line keeps of a cost, and there
is no price. -/
theorem Stage.Describes.costs {stage : Stage} {line : PostingLine} {tail : Text}
    (describes : stage.Describes line tail) (behind : stage = .settled ∨ stage = .closed) :
    line.hasPrice = false ∧ Text.Costs line.hasCost tail := by
  rcases behind with rfl | rfl
  · obtain ⟨cost, price, costs⟩ := describes
    exact ⟨price, cost ▸ costs⟩
  · obtain ⟨cost, price, costs⟩ := describes
    exact ⟨price, cost ▸ costs⟩

/-- A posting line ends with a token, behind its amount, and without a line feed up to a
position. -/
structure PostingLine.Tailed (text : Text) (position : Nat) (line : PostingLine) : Prop where
  account : line.account.stop ≤ line.amountStop
  amount : line.amountStop ≤ line.stop
  before : line.stop ≤ position
  trimmed : (Text.slice text line.account.stop line.stop).Trimmed
  quiet : '\n' ∉ Text.slice text line.stop position

/-- A posting line is at a stage when a position of the text has been reached. -/
structure Stage.Holds (text : Text) (position : Nat) (stage : Stage) (line : PostingLine) :
    Prop where
  tailed : line.Tailed text position
  describes : stage.Describes line (Text.slice text line.amountStop position)

section Step

variable {text : Text} {token : Token} {line more : PostingLine}

/-- A posting line goes on to a token that moves its end. The last character of the token is
visible, so there is nothing to trim up to the new end. -/
theorem PostingLine.Tailed.kept (tailed : line.Tailed text token.start)
    (stands : token.Stands text) (kept : token.terminal.isKept = true)
    (currency : more.account = line.account ∧ more.stop = token.stop ∧
      (more.currency = line.currency ∨ more.currency = some token)) :
    more.Tailed text token.stop := by
  obtain ⟨account, stop, currency⟩ := currency
  obtain ⟨_, begins⟩ := id stands
  have positive := stands.positive
  have first := tailed.account
  have second := tailed.amount
  have third := tailed.before
  have amount : line.account.stop ≤ more.amountStop ∧ more.amountStop ≤ token.stop := by
    rcases currency with same | new
    · rw [PostingLine.amountStop, same, account]
      change line.account.stop ≤ line.amountStop ∧ line.amountStop ≤ token.stop
      omega
    · rw [PostingLine.amountStop, new]
      change line.account.stop ≤ token.stop ∧ token.stop ≤ token.stop
      omega
  refine ⟨by rw [account]; exact amount.1, by rw [stop]; exact amount.2, by rw [stop], ?_, ?_⟩
  · rw [account, stop, Text.slice_append (show line.account.stop ≤ token.start by omega)
      (Nat.le_of_lt positive), stands.slice]
    obtain ⟨c, inner, spelled, _⟩ := begins.plain
    exact (begins.trimmed kept).append (by simp [spelled]) _
  · rw [stop]
    simp [Text.slice]

/-- A token that is passed over leaves a posting line as it is. -/
theorem PostingLine.Tailed.passed (tailed : line.Tailed text token.start)
    (stands : token.Stands text) (within : Statement.endsLine token = false)
    (unquoted : token.terminal ≠ .quotedText) : line.Tailed text token.stop := by
  obtain ⟨_, begins⟩ := id stands
  have positive := stands.positive
  have before := tailed.before
  refine ⟨tailed.account, tailed.amount, by omega, tailed.trimmed, ?_⟩
  rw [Text.slice_append tailed.before (Nat.le_of_lt positive), stands.slice, List.mem_append]
  rintro (old | new)
  · exact tailed.quiet old
  · exact begins.quiet within unquoted new

/-- A token behind an account leaves what the line keeps of its cost and its price. -/
theorem PostingLine.Follows.tailed (follows : line.Follows token more)
    (tailed : line.Tailed text token.start) (stands : token.Stands text)
    (within : Statement.endsLine token = false) :
    more.Tailed text token.stop ∧ more.hasCost = line.hasCost ∧ more.hasPrice = line.hasPrice ∧
      more.amountStop = line.amountStop := by
  cases follows with
  | passed unquoted => exact ⟨tailed.passed stands within unquoted, rfl, rfl, rfl⟩
  | kept kept => exact ⟨tailed.kept stands kept ⟨rfl, rfl, Or.inl rfl⟩, rfl, rfl, rfl⟩

/-- The text behind the amount grows by the token. -/
theorem PostingLine.Tailed.slice (tailed : line.Tailed text token.start)
    (stands : token.Stands text) : Text.slice text line.amountStop token.stop =
      Text.slice text line.amountStop token.start ++ token.text := by
  rw [Text.slice_append (Nat.le_trans tailed.amount tailed.before) (Nat.le_of_lt stands.positive),
    stands.slice]

/-- What is known at a stage is preserved by a token. One case for each way to move from stage to
stage; what stands behind the amount grows by the token. -/
theorem Stage.Moves.holds {old new : Option (Stage × PostingLine)} (moves : Moves token old new)
    (holds : ∀ stage line, old = some (stage, line) → stage.Holds text token.start line)
    (stands : token.Stands text) (within : Statement.endsLine token = false) :
    ∀ stage line, new = some (stage, line) → stage.Holds text token.stop line := by
  obtain ⟨_, begins⟩ := id stands
  have empty : Text.slice text token.stop token.stop = [] := by simp [Text.slice]
  cases moves with
  | away => simp
  | account first =>
    rintro _ _ ⟨⟩
    refine ⟨⟨Nat.le_refl _, Nat.le_refl _, Nat.le_refl _, ?_, ?_⟩, rfl, rfl, ?_⟩
    · simp [empty, Text.Trimmed]
    · simp [empty]
    · change Text.Costs false (Text.slice text token.stop token.stop)
      rw [empty]
      exact .none (by simp)
  | @number stage line more behind follows =>
    rintro _ _ ⟨⟩
    obtain ⟨tailed, describes⟩ := holds stage line rfl
    obtain ⟨further, cost, price, _⟩ := follows.tailed tailed stands within
    refine ⟨further, ?_⟩
    rcases behind with rfl | rfl
    · exact ⟨cost.trans describes.1, price.trans describes.2.1⟩
    · exact ⟨cost.trans describes.1, price.trans describes.2⟩
  | currency line sort =>
    rintro _ _ ⟨⟩
    obtain ⟨tailed, describes⟩ := holds _ _ rfl
    refine ⟨tailed.kept stands (by rw [sort]; rfl) ⟨rfl, rfl, Or.inr rfl⟩, describes.1,
      describes.2, ?_⟩
    change Text.Costs false (Text.slice text token.stop token.stop)
    rw [empty]
    exact .none (by simp)
  | opened line sort =>
    rintro _ _ ⟨⟩
    obtain ⟨tailed, _, price, costs⟩ := holds _ _ rfl
    obtain ⟨inner, spelled⟩ := begins.opens sort
    have passed := tailed.passed stands within (by rcases sort with sort | sort <;> simp [sort])
    refine ⟨⟨passed.account, passed.amount, passed.before, passed.trimmed, passed.quiet⟩, rfl,
      price, ?_⟩
    change ∃ before inner, _ ∧ Text.slice text line.amountStop token.stop = _
    rw [tailed.slice stands, spelled]
    generalize Text.slice text line.amountStop token.start = tail at costs
    cases costs with
    | none blank => exact ⟨_, inner, blank, rfl⟩
  | @part line more follows =>
    rintro _ _ ⟨⟩
    obtain ⟨tailed, hasCost, hasPrice, before, inner, blank, parts⟩ := holds _ _ rfl
    obtain ⟨further, cost, price, amount⟩ := follows.tailed tailed stands within
    refine ⟨further, cost.trans hasCost, price.trans hasPrice, before, inner ++ token.text, blank, ?_⟩
    rw [amount, tailed.slice stands, parts, List.append_assoc, List.cons_append]
  | closed line sort =>
    rintro _ _ ⟨⟩
    obtain ⟨tailed, hasCost, hasPrice, before, inner, blank, parts⟩ := holds _ _ rfl
    obtain ⟨front, spelled⟩ := begins.closes sort
    have passed := tailed.passed stands within (by rcases sort with sort | sort <;> simp [sort])
    refine ⟨passed, hasCost, hasPrice, ?_⟩
    rw [tailed.slice stands, parts, spelled]
    have braces := @Text.Costs.braces before (inner ++ front) [] blank (by simp)
    simpa using braces
  | @marked stage line behind sort =>
    rintro _ _ ⟨⟩
    obtain ⟨tailed, describes⟩ := holds _ _ rfl
    obtain ⟨inner, spelled, braceless⟩ := begins.marks sort
    have passed := tailed.passed stands within (by rcases sort with sort | sort <;> simp [sort])
    refine ⟨⟨passed.account, passed.amount, passed.before, passed.trimmed, passed.quiet⟩, rfl, ?_⟩
    change Text.Trails line.hasCost true (Text.slice text line.amountStop token.stop)
    rw [tailed.slice stands, spelled]
    exact .priced (describes.costs behind).2 braceless
  | @figure line more sort follows =>
    rintro _ _ ⟨⟩
    obtain ⟨tailed, hasPrice, trails⟩ := holds _ _ rfl
    obtain ⟨further, cost, price, amount⟩ := follows.tailed tailed stands within
    refine ⟨further, price.trans hasPrice, ?_⟩
    rw [amount, cost, tailed.slice stands]
    exact trails.append_price (begins.braceless sort)

/-- What is known at a stage is preserved by a blank, which is no line feed and joins the blanks or
the cost that stand behind the amount. -/
theorem Stage.Holds.space {stage : Stage} {position : Nat} (holds : stage.Holds text position line)
    {c : Char} {rest : Text} (here : text.drop position = c :: rest) (space : isSpace c = true) :
    stage.Holds text (position + 1) line := by
  obtain ⟨tailed, describes⟩ := holds
  have one : Text.slice text position (position + 1) = [c] := by
    rw [Text.slice, here, Nat.add_sub_cancel_left]
    rfl
  have grown : Text.slice text line.amountStop (position + 1) =
      Text.slice text line.amountStop position ++ [c] := by
    rw [Text.slice_append (Nat.le_trans tailed.amount tailed.before) (Nat.le_succ _), one]
  have feed : c ≠ '\n' := by
    rintro rfl
    cases space
  have blank : ∀ one ∈ [c], Text.isBlank one = true := by
    intro one member
    rw [List.mem_singleton.mp member]
    simp only [isSpace, Bool.or_eq_true, beq_iff_eq] at space
    rcases space with rfl | rfl <;> rfl
  refine ⟨⟨tailed.account, tailed.amount, Nat.le_succ_of_le tailed.before, tailed.trimmed, ?_⟩, ?_⟩
  · rw [Text.slice_append tailed.before (Nat.le_succ _), one]
    simp [tailed.quiet, Ne.symm feed]
  · rw [grown]
    cases stage with
    | settled => exact ⟨describes.1, describes.2.1, describes.2.2.append blank⟩
    | counted => exact describes
    | costed =>
      obtain ⟨hasCost, hasPrice, before, inner, first, parts⟩ := describes
      exact ⟨hasCost, hasPrice, before, inner ++ [c], first, by simp [parts]⟩
    | closed => exact ⟨describes.1, describes.2.1, describes.2.2.append blank⟩
    | priced => exact ⟨describes.1, describes.2.append blank⟩

end Step

/-! ## Whole lines -/

/-- A posting line is complete at a position of the text: behind its amount stand its cost and its
price. -/
structure PostingLine.Trailed (text : Text) (position : Nat) (line : PostingLine) : Prop where
  tailed : line.Tailed text position
  trails : Text.Trails line.hasCost line.hasPrice (Text.slice text line.amountStop position)

/-- At the stages where a posting line may end it is complete. -/
theorem Stage.Holds.trailed {text : Text} {position : Nat} {stage : Stage} {line : PostingLine}
    (holds : stage.Holds text position line) (counted : stage ≠ .counted)
    (costed : stage ≠ .costed) : line.Trailed text position := by
  obtain ⟨tailed, describes⟩ := holds
  refine ⟨tailed, ?_⟩
  cases stage with
  | counted => exact absurd rfl counted
  | costed => exact absurd rfl costed
  | priced =>
    obtain ⟨hasPrice, trails⟩ := describes
    rw [hasPrice]
    exact trails
  | _ =>
    obtain ⟨hasPrice, costs⟩ := describes.costs (by simp)
    rw [hasPrice]
    exact .unpriced costs

/-- A posting line is complete where its comment begins, or else where the line ends. -/
def Line.Trailed (text : Text) (line : Line) : Prop :=
  ∀ row, line.statement = .posting row → match line.comment with
    | some comment => row.Trailed text comment.start
    | none => ∃ stop, Statement.LineEndsAt text stop ∧ row.Trailed text stop

namespace Place

/-- What is known of the posting line that is being read. -/
structure Trailing (text : Text) (position : Nat) (place : Place) : Prop where
  formed : place.Formed ∨ place = .fileStart ∨ place = .lineStart ∨
    ∃ statement comment, place = .commented statement comment
  stage : ∀ stage line, place.stage? = some (stage, line) → stage.Holds text position line
  comment : ∀ line comment, place = .commented (.posting line) comment →
    line.Trailed text comment.start

/-- The first token of a line begins it. -/
theorem formed_intoLine {token : Token} {next : Place} (leads : intoLine token = some next) :
    next.Formed := by
  unfold intoLine at leads
  split at leads
  case h_10 => cases leads
  all_goals
    cases leads
    trivial

/-- At the beginning of a line nothing is known. -/
theorem Trailing.start {text : Text} {position : Nat} {place : Place}
    (fresh : place = .fileStart ∨ place = .lineStart) : place.Trailing text position := by
  rcases fresh with rfl | rfl
  · exact ⟨Or.inr (Or.inl rfl), by simp [stage?], by simp⟩
  · exact ⟨Or.inr (Or.inr (Or.inl rfl)), by simp [stage?], by simp⟩

section Step

variable {text : Text} {position : Nat} {place next : Place}

/-- A posting line that may end where there is no comment yet is complete there. -/
theorem Trailing.trailed (trailing : place.Trailing text position) {line : PostingLine}
    (complete : place.statement? = some (.posting line))
    (uncommented : ∀ statement comment, place ≠ .commented statement comment) :
    line.Trailed text position := by
  rcases stage_of_posting complete with ⟨comment, same⟩ | ⟨stage, known, counted, costed⟩
  · exact absurd same (uncommented _ _)
  · exact (trailing.stage stage line known).trailed counted costed

/-- What is known of a posting line is preserved by a token. A comment ends the line where it is
complete; every other token moves the stage. -/
theorem Trailing.step {token : Token} (trailing : place.Trailing text token.start)
    (begins : Begins place.expected token.start (text.drop token.start) token
      (text.drop token.stop))
    (within : Statement.endsLine token = false) (leads : place.step token = some next) :
    next.Trailing text token.stop := by
  rcases step_eq_some_iff.mp leads with ⟨sort, statement, complete, rfl⟩ | ⟨_, continues⟩
  · -- Where a comment may stand there is none yet.
    have listed := (begins.held (by rw [sort]; decide)).1
    rw [sort] at listed
    refine ⟨Or.inr (Or.inr (Or.inr ⟨_, _, rfl⟩)), by simp [stage?], ?_⟩
    rintro line _ ⟨⟩
    refine trailing.trailed complete ?_
    rintro statement comment rfl
    simp [expected, Expected.terminals] at listed
  · have formed : next.Formed := by
      rcases trailing.formed with formed | rfl | rfl | ⟨statement, comment, rfl⟩
      · exact (continued_grows formed continues).2
      · exact formed_intoLine (continued_eq_some_iff.mpr continues)
      · exact formed_intoLine (continued_eq_some_iff.mpr continues)
      · cases continues
    refine ⟨Or.inl formed, (continued_moves continues).holds trailing.stage ⟨_, begins⟩ within, ?_⟩
    rintro line comment rfl
    exact formed.elim

/-- What is known of a posting line is preserved by a blank. -/
theorem Trailing.space (trailing : place.Trailing text position) {c : Char} {rest : Text}
    (here : text.drop position = c :: rest) (space : isSpace c = true) :
    place.Trailing text (position + 1) :=
  ⟨trailing.formed, fun stage line known => (trailing.stage stage line known).space here space,
    trailing.comment⟩

/-- The line that is complete where a line may end has its posting complete. -/
theorem Trailing.lines (trailing : place.Trailing text position) {done : List Line}
    (complete : place.lines? = some done) (ends : Statement.LineEndsAt text position) :
    ∀ line ∈ done, line.Trailed text := by
  unfold Place.lines? at complete
  split at complete
  · cases complete
    simp
  · cases complete
    simp
  · next statement comment =>
    cases complete
    intro line member
    rw [List.mem_singleton.mp member]
    rintro row rfl
    exact trailing.comment row comment rfl
  · next uncommented =>
    obtain ⟨statement, found, rfl⟩ := Option.map_eq_some_iff.mp complete
    intro line member
    rw [List.mem_singleton.mp member]
    rintro row rfl
    exact ⟨position, ends, trailing.trailed found fun _ _ => uncommented _ _⟩

end Step

end Place

namespace Statement

/-- What is known of a posting line that is being read stays known. -/
theorem keeps_trailing (text : Text) :
    Keeps text (fun place position => place.Trailing text position) fun line =>
      line.Trailed text where
  start fresh := .start fresh
  space kept here blank := kept.space here blank
  token kept begins within leads _ := kept.step begins within leads
  done kept ends complete := kept.lines complete ends

/-- Every posting line of a whole text is complete where its comment begins, or else where the line
ends. -/
theorem Reading.trailed_whole {text : Text} {lines : List Line}
    (reading : Reading .fileStart 0 text lines) : ∀ line ∈ lines, line.Trailed text :=
  (keeps_trailing text).whole reading

end Statement

end Daybook
