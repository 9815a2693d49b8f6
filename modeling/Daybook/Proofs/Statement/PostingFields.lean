import Daybook.Proofs.Page.Spans
import Daybook.Proofs.Statement.PostingTails

/-!
# Postings that lose nothing

Amount, cost and price of a posting are parts of its source text, cut out between the few tokens
that are kept. Here it is shown that nothing falls between the cuts: without their blanks the
fields of a posting are together what stands behind its account, up to its comment or the end of
its line. The cost begins with its brace and the price with its mark, and the span of the posting
covers all of it.

This is so exactly if the line that is searched is the line of the posting. A quoted text in a cost
may go over the end of a line, and then a posting without a comment is cut off there.
-/
namespace Daybook

open Statement

namespace Text

/-- The text without its blanks. -/
def compact (text : Text) : Text := text.filter fun c => !isBlank c

/-- Leaving out spaces goes part by part. -/
theorem compact_append (first second : Text) :
    compact (first ++ second) = compact first ++ compact second :=
  List.filter_append first second

/-- Nothing is left of blanks. -/
theorem compact_of_blank {text : Text} (blank : ∀ c ∈ text, isBlank c = true) :
    compact text = [] := by
  rw [compact, List.filter_eq_nil_iff]
  intro c member
  simp [blank c member]

/-- Trimming takes nothing but blanks. -/
theorem compact_trim (text : Text) : compact (trim text) = compact text := by
  obtain ⟨before, behind, beforeBlank, behindBlank, parts⟩ := trim_between text
  calc compact (trim text)
      = compact before ++ (compact (trim text) ++ compact behind) := by
        simp [compact_of_blank beforeBlank, compact_of_blank behindBlank]
    _ = compact text := by rw [← compact_append, ← compact_append, ← parts]

/-- Blanks are trimmed from the end of a text only behind what is no blank. -/
theorem Trimmed.trimRight_append {text : Text} (trimmed : text.Trimmed) (more : Text) :
    trimRight (text ++ more) = text ++ trimRight more := by
  have whole : text.reverse.dropWhile isBlank = text.reverse := by
    cases reversed : text.reverse with
    | nil => rfl
    | cons c rest =>
      have last : text.getLast? = some c := by rw [List.getLast?_eq_head?_reverse, reversed]; rfl
      simp [trimmed c last]
  rw [trimRight, List.reverse_append, List.dropWhile_append]
  split
  · next empty => simp [whole, trimRight, List.isEmpty_iff.mp empty]
  · simp [trimRight]

/-- What trimming leaves does not end in a blank. -/
theorem trimmed_trimRight (text : Text) : (trimRight text).Trimmed := by
  intro c last
  rw [trimRight, List.getLast?_reverse] at last
  have solid := List.head?_dropWhile_not isBlank text.reverse
  rw [last] at solid
  simpa using solid

/-- Nothing is left when blanks are trimmed. -/
theorem trimRight_of_blank {text : Text} (blank : ∀ c ∈ text, isBlank c = true) :
    trimRight text = [] := by
  rw [trimRight, List.reverse_eq_nil_iff, List.dropWhile_eq_nil_iff]
  exact fun c member => blank c (List.mem_reverse.mp member)

/-- A part of a text that goes on with another part, of which only the end may be blank, ends
without blanks where that part does. -/
theorem end_of_parts {text : Text} {start middle held stop : Nat} (order : start ≤ middle)
    (further : middle ≤ held) (before : held ≤ stop) (inside : stop ≤ text.length)
    (trimmed : (slice text middle held).Trimmed) :
    max held (stop - ((slice text start stop).length - (trimRight (slice text start stop)).length)) =
      middle + (trimRight (slice text middle stop)).length := by
  have whole := @length_slice text start stop inside
  have first := @length_slice text start middle (by omega)
  have second := @length_slice text middle held (by omega)
  have third := @length_slice text middle stop inside
  have least : held - middle ≤ (trimRight (slice text middle stop)).length := by
    rw [slice_append further before, trimmed.trimRight_append, List.length_append, second]
    exact Nat.le_add_right _ _
  obtain ⟨blanks, blank, parts⟩ := trimRight_append (slice text middle stop)
  have size := congrArg List.length parts
  rw [List.length_append, third] at size
  by_cases empty : trimRight (slice text middle stop) = []
  · -- Nothing but blanks stands behind the first part, which may end in blanks of its own.
    rw [empty, List.length_nil] at least size ⊢
    have short : (trimRight (slice text start stop)).length ≤ middle - start := by
      have alone : trimRight (slice text start stop) = trimRight (slice text start middle) := by
        rw [slice_append order (show middle ≤ stop by omega), parts, empty, List.nil_append, trimRight,
          List.reverse_append, List.dropWhile_append_of_pos, trimRight]
        exact fun c member => blank c (List.mem_reverse.mp member)
      have shorter := (List.dropWhile_sublist isBlank
        (l := (slice text start middle).reverse)).length_le
      rw [List.length_reverse] at shorter
      rw [alone, ← first, trimRight, List.length_reverse]
      exact shorter
    omega
  · have solid := (trimmed_trimRight (slice text middle stop)).append empty (slice text start middle)
    have same : trimRight (slice text start stop) =
        slice text start middle ++ trimRight (slice text middle stop) := by
      conv_lhs => rw [slice_append order (show middle ≤ stop by omega), parts, ← List.append_assoc]
      rw [solid.trimRight_append, trimRight_of_blank blank, List.append_nil]
    rw [same, List.length_append, first, whole]
    omega

/-- Behind a cut something is left of a text that does not end in a blank. -/
theorem compact_ne_nil {text : Text} {start cut held stop : Nat}
    (trimmed : (slice text start held).Trimmed) (order : start ≤ cut) (before : cut < held)
    (further : held ≤ stop) (inside : stop ≤ text.length) : compact (slice text cut stop) ≠ [] := by
  have size := @length_slice text cut held (Nat.le_trans further inside)
  have nonempty : slice text cut held ≠ [] := by
    intro empty
    rw [empty, List.length_nil] at size
    omega
  obtain ⟨front, c, parts⟩ := (List.eq_nil_or_concat (slice text cut held)).resolve_left nonempty
  have solid : isBlank c = false := by
    refine trimmed c ?_
    rw [slice_append order (Nat.le_of_lt before), parts]
    simp
  have member : c ∈ compact (slice text cut stop) := by
    rw [slice_append (Nat.le_of_lt before) further, parts]
    simp [compact, solid]
  exact List.ne_nil_of_mem member

/-! ### The cost and the price in a text -/

/-- The price begins at the first at sign behind the last brace that closes. -/
theorem priceStart?_append {front behind : Text} (braced : front = [] ∨ front.getLast? = some '\x7d')
    (braceless : '\x7d' ∉ behind) :
    priceStart? (front ++ behind) = (behind.idxOf? '@').map (front.length + ·) := by
  have plain : ∀ c ∈ behind.reverse, decide (c ≠ '\x7d') = true := by
    intro c member
    exact decide_eq_true fun same => braceless (same ▸ List.mem_reverse.mp member)
  have stretch : ((front ++ behind).reverse.takeWhile (· ≠ '\x7d')).length = behind.length := by
    rw [List.reverse_append, List.takeWhile_append_of_pos plain, List.length_append,
      List.length_reverse]
    have none : front.reverse.takeWhile (· ≠ '\x7d') = [] := by
      rcases braced with rfl | last
      · rfl
      · obtain ⟨inner, rfl⟩ := List.getLast?_eq_some_iff.mp last
        simp
    rw [none, List.length_nil, Nat.add_zero]
  rw [priceStart?]
  simp only [stretch, List.length_append, Nat.add_sub_cancel, List.drop_left]

/-- The first at sign behind blanks. -/
theorem idxOf?_at {blanks : Text} (blank : ∀ c ∈ blanks, isBlank c = true) (rest : Text) :
    (blanks ++ '@' :: rest).idxOf? '@' = some blanks.length := by
  induction blanks with
  | nil => simp [List.idxOf?_cons]
  | cons c others ih =>
    have other : c ≠ '@' := ne_of_isBlank (blank c List.mem_cons_self) (by decide) (by decide)
    have later := ih fun one member => blank one (List.mem_cons_of_mem _ member)
    simp [List.idxOf?_cons, other, later]

/-- Behind a cost the price begins with its mark. The search passes over the braces of the cost,
within which a mark may stand. -/
theorem priceStart?_of_costs {hasCost : Bool} {front price : Text} (costs : Costs hasCost front)
    (braceless : '\x7d' ∉ price) : priceStart? (front ++ '@' :: price) = some front.length := by
  have plain {blanks : Text} (blank : ∀ c ∈ blanks, isBlank c = true) :
      '\x7d' ∉ blanks ++ '@' :: price := by
    simp only [List.mem_append, List.mem_cons, Char.reduceEq, false_or, not_or]
    exact ⟨fun member => ne_of_isBlank (blank _ member) (by decide) (by decide) rfl, braceless⟩
  cases costs with
  | none blank =>
    have found := @priceStart?_append [] _ (Or.inl rfl) (plain blank)
    rw [List.nil_append, idxOf?_at blank] at found
    simpa using found
  | @braces before inner behind beforeBlank behindBlank =>
    have parts : before ++ '\x7b' :: (inner ++ '\x7d' :: behind) ++ '@' :: price =
        (before ++ '\x7b' :: (inner ++ ['\x7d'])) ++ (behind ++ '@' :: price) := by simp
    have last : (before ++ '\x7b' :: (inner ++ ['\x7d'])).getLast? = some '\x7d' := by
      simp [List.getLast?_append, List.getLast?_cons]
    rw [parts, priceStart?_append (Or.inr last) (plain behindBlank), idxOf?_at behindBlank]
    simp only [Option.map_some, List.length_append, List.length_cons, List.length_nil]
    congr 1
    omega

/-- A cost is trimmed to its braces, and without a cost nothing is left. -/
theorem trim_of_costs {front : Text} (costs : Costs true front) :
    ∃ inner, trim front = '\x7b' :: inner := by
  cases costs with
  | @braces before inner behind beforeBlank behindBlank =>
    refine ⟨inner ++ ['\x7d'], ?_⟩
    have beginning : trimLeft (before ++ '\x7b' :: (inner ++ '\x7d' :: behind)) =
        ('\x7b' :: inner ++ ['\x7d']) ++ behind := by
      rw [trimLeft, List.dropWhile_append_of_pos beforeBlank]
      simp [isBlank]
    have solid : Trimmed ('\x7b' :: inner ++ ['\x7d']) := by
      intro c last
      rw [List.getLast?_append, List.getLast?_singleton, Option.some_or, Option.mem_some] at last
      rw [← last]
      rfl
    rw [trim, beginning, solid.trimRight_append, trimRight_of_blank behindBlank]
    simp

/-- The cost and the price that are found in the part of a posting line behind its amount. -/
def clauses (hasCost hasPrice : Bool) (tail : Text) : Option Text × Option Text :=
  let priceStart := if hasPrice then priceStart? tail else none
  let costTail := match priceStart with
    | some start => tail.take start
    | none => tail
  (if hasCost then nonempty? (trim costTail) else none,
    priceStart.map fun start => trim (tail.drop start))

/-- A part of a posting that is left out is as good as an empty one. -/
theorem getD_nonempty? (text : Text) : (nonempty? text).getD [] = text := by
  unfold nonempty?
  split
  · next empty => exact empty.symm
  · rfl

/-- What is found behind an amount is never more than what stands there: the two fields are trimmed
slices of the tail that do not overlap. -/
theorem length_clauses_le (hasCost hasPrice : Bool) (tail : Text) :
    (compact ((clauses hasCost hasPrice tail).1.getD [] ++
      (clauses hasCost hasPrice tail).2.getD [])).length ≤ (compact tail).length := by
  have cost (front : Text) :
      (compact ((if hasCost then nonempty? (trim front) else none).getD [])).length ≤
        (compact front).length := by
    split
    · rw [getD_nonempty?, compact_trim]
    · exact Nat.zero_le _
  simp only [clauses]
  cases (if hasPrice = true then priceStart? tail else none) with
  | none => simpa using cost tail
  | some start =>
    have front := cost (tail.take start)
    calc _ = _ := by rw [compact_append, List.length_append]
      _ ≤ (compact (tail.take start)).length + (compact (tail.drop start)).length := by
        simp only [Option.map_some, Option.getD_some, compact_trim]
        omega
      _ = (compact tail).length := by
        rw [← List.length_append, ← compact_append, List.take_append_drop]

/-- Where a cost stands it is what is found there, and else nothing is found. -/
theorem cost_of_costs {hasCost : Bool} {front : Text} (costs : Costs hasCost front) :
    ((if hasCost then nonempty? (trim front) else none) = none ↔ hasCost = false) ∧
    (∀ cost ∈ (if hasCost then nonempty? (trim front) else none), ∃ inner,
      cost = '\x7b' :: inner) ∧
    compact ((if hasCost then nonempty? (trim front) else none).getD []) = compact front := by
  cases hasCost with
  | false =>
    cases costs with
    | none blank =>
      refine ⟨by simp, by simp, ?_⟩
      rw [compact_of_blank blank]
      rfl
  | true =>
    obtain ⟨inner, trimmed⟩ := trim_of_costs costs
    have found : nonempty? (trim front) = some (trim front) := by simp [nonempty?, trimmed]
    rw [if_pos rfl, found, Option.getD_some, compact_trim]
    refine ⟨by simp, ?_, rfl⟩
    rintro _ ⟨⟩
    exact ⟨inner, trimmed⟩

/-- Where a cost and a price stand behind an amount they are what is found there. Before the mark of
the price stands the cost, if there is one, and nothing else but blanks. -/
theorem clauses_of_trails {hasCost hasPrice : Bool} {tail : Text}
    (trails : Trails hasCost hasPrice tail) :
    ((clauses hasCost hasPrice tail).1 = none ↔ hasCost = false) ∧
    (∀ cost ∈ (clauses hasCost hasPrice tail).1, ∃ inner, cost = '\x7b' :: inner) ∧
    ((clauses hasCost hasPrice tail).2 = none ↔ hasPrice = false) ∧
    (∀ price ∈ (clauses hasCost hasPrice tail).2, ∃ inner, price = '@' :: inner) ∧
    compact ((clauses hasCost hasPrice tail).1.getD [] ++
      (clauses hasCost hasPrice tail).2.getD []) = compact tail := by
  cases trails with
  | unpriced costs =>
    obtain ⟨absent, begins, same⟩ := cost_of_costs costs
    exact ⟨absent, begins, by simp [clauses], by simp [clauses], by simpa [clauses] using same⟩
  | @priced front price costs braceless =>
    obtain ⟨absent, begins, same⟩ := cost_of_costs costs
    have start := priceStart?_of_costs costs braceless
    have found : clauses hasCost true (front ++ '@' :: price) =
        (if hasCost then nonempty? (trim front) else none, some (trim ('@' :: price))) := by
      simp [clauses, start]
    rw [found]
    refine ⟨absent, begins, by simp, ?_, ?_⟩
    · rintro _ ⟨⟩
      have solid : Trimmed ['@'] := by
        rintro _ ⟨⟩
        rfl
      exact ⟨trimRight price, solid.trimRight_append price⟩
    · rw [compact_append, Option.getD_some, compact_trim, compact_append, same]

end Text

/-! ## What a posting keeps -/

/-- Where the part of a posting line behind its account ends: before its comment, or with the line
that the statement ends on. -/
def PostingLine.trailStop (text : Text) (row : PostingLine) (comment : Option Token) : Nat :=
  match comment with
  | some comment => comment.start
  | none => row.stop + Text.stretch (· ≠ '\n') (text.drop row.stop)

/-- What stands behind the account of a posting line, up to its comment or the end of its line. -/
def PostingLine.trail (text : Text) (row : PostingLine) (comment : Option Token) : Text :=
  Text.slice text row.account.stop (row.trailStop text comment)

/-- What the fields of a posting say one after the other. -/
def PostingEntry.spelled (posting : PostingEntry) : Text :=
  posting.amount ++ posting.currency ++ posting.cost.getD [] ++ posting.price.getD []

/-- A posting keeps all that stands behind the account of its line: without blanks that is what its
fields say, a cost and a price are there exactly if the line has them and begin with their marks,
and the span shows the account with all of it up to the last character that is no blank. -/
structure PostingEntry.Keeps (content : Bytes) (row : PostingLine) (trail : Text)
    (posting : PostingEntry) : Prop where
  spelled : Text.compact posting.spelled = Text.compact trail
  noCost : posting.cost = none ↔ row.hasCost = false
  cost : ∀ cost ∈ posting.cost, ∃ inner, cost = '\x7b' :: inner
  noPrice : posting.price = none ↔ row.hasPrice = false
  price : ∀ price ∈ posting.price, ∃ inner, price = '@' :: inner
  span : posting.span.Shows content (row.account.text ++ Text.trimRight trail)

namespace PostingEntry

variable {text : Text} {row : PostingLine} {comment : Option Token}

/-- The cost and the price are found behind the amount, up to the comment or the first line feed
behind the account. -/
theorem clauses_ofLine (path text : Text) (row : PostingLine) (comment : Option Token) :
    ((ofLine (Source.ofText path text) row comment).cost,
      (ofLine (Source.ofText path text) row comment).price) =
    Text.clauses row.hasCost row.hasPrice (Text.slice text row.amountStop
      (tailStop (Source.ofText path text) row comment)) := by
  obtain ⟨first, account, currency, hasCost, hasPrice, stop⟩ := row
  cases currency <;> rfl

/-- The amount and the currency are what stands between the account and the end of the
currency. -/
theorem compact_amount (path : Text) (comment : Option Token)
    (stands : ∀ currency ∈ row.currency, currency.Stands text ∧ row.account.stop ≤ currency.start) :
    Text.compact ((ofLine (Source.ofText path text) row comment).amount ++
      (ofLine (Source.ofText path text) row comment).currency) =
    Text.compact (Text.slice text row.account.stop row.amountStop) := by
  cases currency : row.currency with
  | none =>
    simp [ofLine_eq, ofParts, PostingLine.amountStop, currency, Source.ofText, Text.slice,
      Text.compact, Text.trim, Text.trimLeft, Text.trimRight]
  | some token =>
    obtain ⟨tokenStands, order⟩ := stands token currency
    simp only [ofLine_eq, ofParts, PostingLine.amountStop, currency, Source.ofText,
      Option.getD_some]
    rw [Text.slice_append order (Nat.le_of_lt tokenStands.positive), tokenStands.slice,
      Text.compact_append, Text.compact_trim, Text.compact_append]

/-- Without blanks the fields of a posting are the text between its account and its currency, and
the cost and the price that are found behind it. -/
theorem compact_spelled (path : Text) (comment : Option Token)
    (stands : ∀ currency ∈ row.currency, currency.Stands text ∧ row.account.stop ≤ currency.start) :
    Text.compact (ofLine (Source.ofText path text) row comment).spelled =
      Text.compact (Text.slice text row.account.stop row.amountStop) ++
        Text.compact ((ofLine (Source.ofText path text) row comment).cost.getD [] ++
          (ofLine (Source.ofText path text) row comment).price.getD []) := by
  rw [spelled, List.append_assoc, Text.compact_append, compact_amount path comment stands]

end PostingEntry

namespace PostingLine

variable {text : Text} {row : PostingLine} {comment : Option Token} {start stop : Nat}

/-- The amount of a posting line stands behind its account, without a line feed. The characters
between the account and the currency are those of an expression, none of which is a line feed. -/
theorem Worded.amount (worded : row.Worded text)
    (standing : Line.Standing text start stop ⟨.posting row, comment⟩) :
    (∀ currency ∈ row.currency, currency.Stands text ∧ row.account.stop ≤ currency.start) ∧
      '\n' ∉ Text.slice text row.account.stop row.amountStop := by
  have extent := standing.extent _ rfl
  have ordered : ∀ currency ∈ row.currency,
      currency.Stands text ∧ row.account.stop ≤ currency.start := by
    intro currency known
    obtain ⟨_, _, c, member, _⟩ := worded.currency currency known
    exact ⟨(extent.tokens currency (by simp [Option.mem_def.mp known])).1,
      Nat.le_of_lt (Text.lt_of_mem_slice member)⟩
  refine ⟨ordered, ?_⟩
  cases currency : row.currency with
  | none => simp [amountStop, currency, Text.slice]
  | some token =>
    obtain ⟨stands, order⟩ := ordered token currency
    obtain ⟨sort, amount, _⟩ := worded.currency token currency
    rw [amountStop, currency, Option.getD_some,
      Text.slice_append order (Nat.le_of_lt stands.positive), stands.slice, List.mem_append]
    rintro (number | word)
    · cases amount _ number
    · have spelled := stands.isWord (Or.inr (Or.inl sort))
      rw [sort] at spelled
      have bounds := spelled.bounds_of_currency word
      revert bounds
      decide

/-- Behind the amount of a posting line stand its cost and its price, up to its comment or the end of
its line. -/
theorem trails_at_trailStop (standing : Line.Standing text start stop ⟨.posting row, comment⟩)
    (trailed : Line.Trailed text ⟨.posting row, comment⟩) :
    row.Tailed text row.stop ∧ row.stop ≤ row.trailStop text comment ∧
      row.trailStop text comment ≤ text.length ∧ Text.Trails row.hasCost row.hasPrice
        (Text.slice text row.amountStop (row.trailStop text comment)) := by
  have ended {position : Nat} (tailed : row.Tailed text position) : row.Tailed text row.stop :=
    ⟨tailed.account, tailed.amount, Nat.le_refl _, tailed.trimmed, by simp [Text.slice]⟩
  cases comment with
  | some token =>
    obtain ⟨tailed, trails⟩ : row.Trailed text token.start := trailed row rfl
    have stands := (standing.comment token rfl).1
    have order := stands.positive
    have inside := stands.inside
    exact ⟨ended tailed, tailed.before, show token.start ≤ text.length by omega, trails⟩
  | none =>
    obtain ⟨last, ends, tailed, trails⟩ := trailed row rfl
    have order := tailed.before
    have inside := ends.inside
    have reached : row.trailStop text none =
        last + Text.stretch (· ≠ '\n') (text.drop last) :=
      Text.stretch_of_quiet tailed.quiet order inside
    have grown (more : Text) (blank : ∀ c ∈ more, Text.isBlank c = true)
        (next : Text.slice text last (row.trailStop text none) = more) :
        Text.Trails row.hasCost row.hasPrice
          (Text.slice text row.amountStop (row.trailStop text none)) := by
      rw [Text.slice_append (Nat.le_trans tailed.amount order) (show last ≤ _ by omega), next]
      exact trails.append blank
    rcases ends.stretch with none | ⟨one, rest, back⟩
    · refine ⟨ended tailed, by omega, by omega, grown [] (by simp) ?_⟩
      rw [reached, none, Text.slice, Nat.add_zero, Nat.sub_self, List.take_zero]
    · have longer : last + 1 ≤ text.length := by
        have size := congrArg List.length back
        rw [List.length_drop, List.length_cons] at size
        omega
      refine ⟨ended tailed, by omega, by omega, grown ['\r'] (forall_mem_of_all (by decide)) ?_⟩
      rw [reached, one, Text.slice, back, Nat.add_sub_cancel_left]
      rfl

/-- The line that is searched is the line of the posting if it has a comment or if no line feed
stands before the last token that it keeps. -/
theorem tailStop_eq (path : Text) (tailed : row.Tailed text row.stop)
    (inside : row.stop ≤ text.length)
    (whole : comment.isSome ∨ '\n' ∉ Text.slice text row.account.stop row.stop) :
    PostingEntry.tailStop (Source.ofText path text) row comment = row.trailStop text comment := by
  cases comment with
  | some token => rfl
  | none =>
    rcases whole with commented | quiet
    · cases commented
    · exact Text.stretch_of_quiet quiet (Nat.le_trans tailed.account tailed.amount) inside

/-- Where a line feed stands before the last token that is kept, the line that is searched ends
behind the amount and before that token. -/
theorem tailStop_lt (path : Text) (tailed : row.Tailed text row.stop)
    (inside : row.stop ≤ text.length)
    (quiet : '\n' ∉ Text.slice text row.account.stop row.amountStop)
    (feed : '\n' ∈ Text.slice text row.account.stop row.stop) :
    row.amountStop ≤ PostingEntry.tailStop (Source.ofText path text) row none ∧
      PostingEntry.tailStop (Source.ofText path text) row none < row.stop := by
  have first := tailed.account
  have second := tailed.amount
  have size := @Text.length_slice text row.account.stop row.stop inside
  simp only [PostingEntry.tailStop, Source.ofText]
  constructor
  · rw [Text.stretch_of_quiet quiet first (Nat.le_trans second inside)]
    exact Nat.le_add_right _ _
  · rw [Text.drop_eq_slice_append (Nat.le_trans first second)]
    obtain ⟨same, shorter⟩ := Lexeme.stretch_append_of_mem (· ≠ '\n') feed (by simp)
      (text.drop row.stop)
    omega

end PostingLine

namespace PostingEntry

variable {text : Text} {row : PostingLine} {comment : Option Token} {start stop : Nat}

/-- When the line that is searched is the line of the posting, nothing is lost. The line that is
searched then reaches to the last token, and its clauses are the cost and the price that stand
there. -/
theorem keeps_of_whole (path : Text)
    (standing : Line.Standing text start stop ⟨.posting row, comment⟩) (worded : row.Worded text)
    (trailed : Line.Trailed text ⟨.posting row, comment⟩)
    (whole : comment.isSome ∨ '\n' ∉ Text.slice text row.account.stop row.stop) :
    (ofLine (Source.ofText path text) row comment).Keeps (Text.Utf8.encode text) row
      (row.trail text comment) := by
  obtain ⟨ordered, _⟩ := worded.amount standing
  obtain ⟨tailed, order, inside, trails⟩ := PostingLine.trails_at_trailStop standing trailed
  have account := ((standing.extent _ rfl).tokens row.account (by simp)).1
  have first := tailed.account
  have second := tailed.amount
  have reached := PostingLine.tailStop_eq path tailed (by omega) whole
  have found := clauses_ofLine path text row comment
  rw [reached] at found
  obtain ⟨noCost, cost, noPrice, price, clauses⟩ := Text.clauses_of_trails trails
  rw [← found] at noCost cost noPrice price clauses
  refine ⟨?_, noCost, cost, noPrice, price, ?_⟩
  · rw [compact_spelled path comment ordered, clauses, ← Text.compact_append,
      ← Text.slice_append first (by omega)]
    rfl
  · have ends : (ofLine (Source.ofText path text) row comment).span =
        (Source.ofText path text).span row.account.start
          (row.account.stop + (Text.trimRight (row.trail text comment)).length) := by
      have stop := Text.end_of_parts (Nat.le_of_lt account.positive)
        (Nat.le_trans first second) order inside tailed.trimmed
      rw [ofLine_eq, reached]
      simp only [ofParts, Source.ofText] at stop ⊢
      rw [stop]
      rfl
    obtain ⟨blanks, _, parts⟩ := Text.trimRight_append (row.trail text comment)
    generalize Text.trimRight (row.trail text comment) = shown at ends parts ⊢
    have size := congrArg List.length parts
    rw [PostingLine.trail, Text.length_slice inside, List.length_append] at size
    have forward := account.positive
    have within : row.account.stop + shown.length ≤ text.length := by omega
    have cut : Text.slice text row.account.stop (row.account.stop + shown.length) = shown := by
      have front : (row.trail text comment).take shown.length = shown := by
        rw [parts, List.take_left]
      rw [PostingLine.trail, Text.slice, List.take_take, Nat.min_eq_left (by omega)] at front
      rw [Text.slice, Nat.add_sub_cancel_left]
      exact front
    have shows := Source.span_shows path
      (show row.account.start ≤ row.account.stop + shown.length by omega) within
    rwa [Text.slice_append (Nat.le_of_lt forward) (Nat.le_add_right _ _), account.slice, cut,
      ← ends] at shows

/-- When the line that is searched ends before the last token that is kept, that token is lost. The
fields have at most as many visible characters as stand before the line feed, which is fewer than
the posting has. -/
theorem spelled_ne_of_feed (path : Text)
    (standing : Line.Standing text start stop ⟨.posting row, none⟩) (worded : row.Worded text)
    (trailed : Line.Trailed text ⟨.posting row, none⟩)
    (feed : '\n' ∈ Text.slice text row.account.stop row.stop) :
    Text.compact (ofLine (Source.ofText path text) row none).spelled ≠
      Text.compact (row.trail text none) := by
  intro same
  obtain ⟨ordered, quiet⟩ := worded.amount standing
  obtain ⟨tailed, order, inside, _⟩ := PostingLine.trails_at_trailStop standing trailed
  have first := tailed.account
  obtain ⟨least, most⟩ := PostingLine.tailStop_lt path tailed (by omega) quiet feed
  have found := clauses_ofLine path text row none
  generalize tailStop (Source.ofText path text) row none = cut at found least most
  -- The fields say no more than what stands before the line feed, but something stands behind it.
  have few := Text.length_clauses_le row.hasCost row.hasPrice (Text.slice text row.amountStop cut)
  rw [← found] at few
  have lengths := congrArg List.length (same.symm.trans (compact_spelled path none ordered))
  rw [PostingLine.trail,
    Text.slice_append first (show row.amountStop ≤ row.trailStop text none by omega),
    Text.slice_append least (show cut ≤ row.trailStop text none by omega), Text.compact_append,
    Text.compact_append] at lengths
  simp only [List.length_append] at lengths few
  refine Text.compact_ne_nil tailed.trimmed (by omega) most order inside ?_
  exact List.eq_nil_of_length_eq_zero (by omega)

end PostingEntry

/-- The posting of a posting line keeps all that stands behind the account, up to the comment or the
end of the line, exactly if the line has a comment or no line feed stands between its account and
the last token that it keeps. Such a line feed stands in a quoted text of the cost, which may go
over the end of a line. The rest of the line is taken from the text and not from the lexemes, and it
is taken up to the first line feed. This is the end of the line unless a quoted text has a line feed
in it. -/
theorem Statement.posting_keeps_iff {path text : Text} {lines : List Line}
    (known : read text = .ok lines) {line : Line} (member : line ∈ lines) {row : PostingLine}
    (posting : line.statement = .posting row) :
    (PostingEntry.ofLine (Source.ofText path text) row line.comment).Keeps (Text.Utf8.encode text)
      row (row.trail text line.comment) ↔
      (line.comment.isSome ∨ '\n' ∉ Text.slice text row.account.stop row.stop) := by
  have reading := (reading_iff 0).mpr known
  obtain ⟨start, stop, _, _, _, standing⟩ := reading.laid_whole.each line member
  have worded := reading.worded_whole line member
  have trailed := reading.trailed_whole line member
  obtain ⟨statement, comment⟩ := line
  obtain rfl : statement = .posting row := posting
  constructor
  · intro keeps
    by_contra broken
    rw [not_or, not_not] at broken
    obtain ⟨uncommented, feed⟩ := broken
    obtain rfl : comment = Option.none := by simpa using uncommented
    exact PostingEntry.spelled_ne_of_feed path standing worded trailed feed keeps.spelled
  · exact PostingEntry.keeps_of_whole path standing worded trailed

/-- Whether the line is a posting that satisfies a test. -/
def Line.anyPosting (test : PostingLine → Bool) (line : Line) : Bool :=
  match line.statement with
  | .posting row => test row
  | _ => false

/-- A line passes a test of postings exactly if it is a posting that does. -/
theorem Line.anyPosting_iff {test : PostingLine → Bool} {line : Line} :
    line.anyPosting test = true ↔ ∃ row, line.statement = .posting row ∧ test row = true := by
  unfold anyPosting
  split
  · next row posting => simp [posting]
  · next other =>
    simp only [Bool.false_eq_true, false_iff, not_exists, not_and]
    intro row posting
    exact absurd posting (other row)

/-- A posting whose cost has a label with a brace, an at sign and a line feed in it. -/
def Source.labelled : Source := Source.ofText "a.bean"
  "2024-01-05 *\n  ! A:B (1 + -2) USD \x7b3 EUR, \"\x7d@\n\"\x7d@@ 5 EUR ; n\n"

/-- The posting with the label keeps its cost and its price, for it has a comment. -/
theorem Source.labelled_kept : ∃ lines, ∃ line ∈ lines, ∃ row,
    Statement.read Source.labelled.text = .ok lines ∧ line.statement = .posting row ∧
      row.hasCost = true ∧ row.hasPrice = true ∧
      (PostingEntry.ofLine Source.labelled row line.comment).Keeps
        (Text.Utf8.encode Source.labelled.text) row (row.trail Source.labelled.text line.comment) := by
  have shape : (Statement.read Source.labelled.text).toOption.any (List.any · fun line =>
      line.comment.isSome && line.anyPosting fun row => row.hasCost && row.hasPrice) = true := by
    decide +kernel
  obtain ⟨lines, known, shape⟩ := exists_of_any shape
  simp only [List.any_eq_true, Bool.and_eq_true, Line.anyPosting_iff] at shape
  obtain ⟨line, member, commented, row, posting, cost, price⟩ := shape
  exact ⟨lines, line, member, row, known, posting, cost, price,
    (@Statement.posting_keeps_iff "a.bean" _ _ known _ member _ posting).mpr (Or.inl commented)⟩

/-- A posting whose cost has a label with a line feed in it, and no comment. -/
def Source.uncommented : Source := Source.ofText "a.bean"
  "2024-01-05 *\n  A:B 1 USD \x7b\"a\nb\"\x7d @ 2 USD\n"

/-- Without a comment the posting with the label has lost its price and a part of its cost. The
fields are computed, and the price that they lack is one that the line has. -/
theorem Source.uncommented_lost : ∃ lines, ∃ line ∈ lines, ∃ row,
    Statement.read Source.uncommented.text = .ok lines ∧ line.statement = .posting row ∧
      row.hasPrice = true ∧
      (PostingEntry.ofLine Source.uncommented row line.comment).cost = some ['\x7b', '"', 'a'] ∧
      (PostingEntry.ofLine Source.uncommented row line.comment).price = none ∧
      ¬ (PostingEntry.ofLine Source.uncommented row line.comment).Keeps
        (Text.Utf8.encode Source.uncommented.text) row
        (row.trail Source.uncommented.text line.comment) := by
  have shape : (Statement.read Source.uncommented.text).toOption.any (List.any · fun line =>
      line.anyPosting fun row => row.hasPrice &&
        (PostingEntry.ofLine Source.uncommented row line.comment).cost ==
          some ['\x7b', '"', 'a'] &&
        (PostingEntry.ofLine Source.uncommented row line.comment).price == none) = true := by
    decide +kernel
  obtain ⟨lines, known, shape⟩ := exists_of_any shape
  simp only [List.any_eq_true, Line.anyPosting_iff, Bool.and_eq_true, beq_iff_eq] at shape
  obtain ⟨line, member, row, posting, ⟨price, cost⟩, none⟩ := shape
  refine ⟨lines, line, member, row, known, posting, price, cost, none, fun keeps => ?_⟩
  rw [keeps.noPrice.mp none] at price
  cases price

end Daybook
