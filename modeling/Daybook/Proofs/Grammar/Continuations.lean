import Daybook.Proofs.Grammar.Derivations
import Daybook.Proofs.Statement.Steps

/-!
# What may still come

A place of reading says what has been read of a line. In the terms of the grammar it says what may
still come, as sequences of parts: `Place.ahead`. Reading a token from there is to choose a
sequence, to unfold the rule at its head until a token is the head, and to go on behind that token.
The grammar writes its repetitions with the rule itself in front, where unfolding does not end. So a
repetition is unfolded here with the rule at the end, which is a second way to write the same
tokens.

Numbers are the only part of a line that nests. What comes behind an operand is what comes behind
the innermost parenthesis, so many times as there are open ones.
-/
namespace Daybook.Grammar

/-! ## Writing parts in tokens -/

/-- One of several sequences of parts is written in these tokens. -/
def Written (shapes : List (List Part)) (tokens : List Token) : Prop :=
  ∃ nodes, DerivesSome shapes tokens nodes

section Written

variable {shape : List Part} {shapes others : List (List Part)} {tokens front back : List Token}
  {rule : Rule}

/-- Parts are written in tokens if one of their sequences derives them, whatever the tree. -/
theorem written_iff : Written shapes tokens ↔
    ∃ shape ∈ shapes, ∃ nodes, Derives shape tokens nodes := by
  constructor
  · rintro ⟨nodes, shape, listed, derives⟩
    exact ⟨shape, listed, nodes, derives⟩
  · rintro ⟨shape, listed, nodes, derives⟩
    exact ⟨nodes, shape, listed, derives⟩

/-- For one sequence this is to derive the tokens. -/
theorem written_singleton_iff : Written [shape] tokens ↔ ∃ nodes, Derives shape tokens nodes := by
  simp [written_iff]

/-- What is written in one shape is written in one of several. -/
theorem Written.choose (written : Written [shape] tokens) (listed : shape ∈ shapes) :
    Written shapes tokens :=
  written_iff.mpr ⟨shape, listed, written_singleton_iff.mp written⟩

/-- Where no sequence is left nothing can be written. A place from which no token leads on has no
sequences. -/
theorem not_written_nil : ¬ Written [] tokens := by
  simp [written_iff]

/-- One of several sequences is one of the first or one of the others. -/
theorem written_append_iff : Written (shapes ++ others) tokens ↔
    Written shapes tokens ∨ Written others tokens := by
  simp [Written, derivesSome_append_iff, exists_or]

/-- A section and then the others. -/
theorem written_sections_iff {first : List (List Part)} {more : List (List (List Part))} :
    Written (sections (first :: more)) tokens ↔ ∃ front back,
      Written first front ∧ Written (sections more) back ∧ tokens = front ++ back := by
  constructor
  · rintro ⟨nodes, derives⟩
    obtain ⟨front, below, back, further, own, last, rfl, rfl⟩ := derivesSome_sections_iff.mp derives
    exact ⟨front, back, ⟨below, own⟩, ⟨further, last⟩, rfl⟩
  · rintro ⟨front, back, ⟨below, own⟩, ⟨further, last⟩, rfl⟩
    exact ⟨_, derivesSome_sections_iff.mpr ⟨front, below, back, further, own, last, rfl, rfl⟩⟩

/-- Sections without parts are written in no tokens. -/
theorem written_sections_nil : Written (sections []) [] :=
  ⟨[], derivesSome_sections_nil_iff.mpr ⟨rfl, rfl⟩⟩

/-- Two sections. -/
theorem written_pair_iff {first second : List (List Part)} :
    Written (sections [first, second]) tokens ↔
    ∃ front back, Written first front ∧ Written second back ∧ tokens = front ++ back := by
  rw [written_sections_iff]
  constructor
  · rintro ⟨front, _, own, further, rfl⟩
    obtain ⟨back, _, also, ⟨_, last⟩, rfl⟩ := written_sections_iff.mp further
    obtain ⟨rfl, _⟩ := derivesSome_sections_nil_iff.mp last
    exact ⟨front, back, own, also, by rw [List.append_nil]⟩
  · rintro ⟨front, back, own, also, rfl⟩
    exact ⟨front, back, own, written_sections_iff.mpr
      ⟨back, [], also, written_sections_nil, by rw [List.append_nil]⟩, rfl⟩

/-- One repetition more in front of a repetition. -/
theorem Derives.again {body : List Part} {front back : List Token} {below others : List Node}
    (shapes : rule.shapes = [body, .rule rule :: body]) (inlined : rule.isInlined = true)
    (own : Derives body front below) (derives : Derives [.rule rule] back others) :
    ∃ nodes, Derives [.rule rule] (front ++ back) nodes := by
  have first {tokens : List Token} {nodes : List Node} (once : Derives body tokens nodes) :
      Derives [.rule rule] tokens (rule.build nodes) :=
    derives_only_iff.mpr ⟨nodes, ⟨body, by simp [shapes], once⟩, rfl⟩
  have another {tokens more : List Token} {nodes further : List Node}
      (former : Derives [.rule rule] tokens nodes) (once : Derives body more further) :
      Derives [.rule rule] (tokens ++ more) (rule.build (nodes ++ further)) :=
    derives_only_iff.mpr ⟨_, ⟨.rule rule :: body, by simp [shapes], former.append once⟩, rfl⟩
  refine derives.repeated (fun back _ => ∀ {front below}, Derives body front below →
    ∃ nodes, Derives [.rule rule] (front ++ back) nodes) shapes inlined ?_ ?_ own
  · exact fun last front below own => ⟨_, another (first own) last⟩
  · intro tokens nodes more further former last front below own
    obtain ⟨_, whole⟩ := former own
    rw [← List.append_assoc]
    exact ⟨_, another whole last⟩

end Written

/-- What a rule stands for, with a repetition behind its first part. -/
def Rule.unrolled (rule : Rule) : List (List Part) :=
  match rule.isInlined, rule.shapes with
  | true, body :: _ => [body, body ++ [.rule rule]]
  | _, shapes => shapes

/-- The rules that only stand for their parts are repetitions. -/
theorem Rule.shapes_of_isInlined {rule : Rule} (inlined : rule.isInlined = true) :
    ∃ body, rule.shapes = [body, .rule rule :: body] := by
  cases rule <;> first | exact ⟨_, rfl⟩ | cases inlined

/-- The parts at the head that a sequence of parts may begin with: its first rule is unfolded, and a
part that is missing is passed over, so many times at the most. -/
def unfoldings : Nat → List Part → List (List Part)
  | fuel + 1, .rule rule :: shape =>
    (.rule rule :: shape) :: rule.unrolled.flatMap fun inner => unfoldings fuel (inner ++ shape)
  | fuel + 1, .gap :: shape => (.gap :: shape) :: unfoldings fuel shape
  | _, shape => [shape]

/-- What is left of a sequence of parts behind a token. -/
def behind (terminal : Terminal) : List Part → List (List Part)
  | .kept own :: shape => if own = terminal then [shape] else []
  | .dropped own :: shape => if own = terminal then [shape] else []
  | _ => []

/-- What several sequences of parts may begin with. -/
def spread (shapes : List (List Part)) : List (List Part) := shapes.flatMap (unfoldings 8)

/-- What may come behind a token, where one of several sequences of parts may. -/
def after (terminal : Terminal) (shapes : List (List Part)) : List (List Part) :=
  spread ((spread shapes).flatMap (behind terminal))

section Unfolding

variable {shape : List Part} {shapes others : List (List Part)}
  {tokens back : List Token} {rule : Rule}

/-- What is written in what a rule stands for is written in the rule. A rule that repeats also
stands for itself with one more of its items behind it, so the two sorts of rules are taken
apart. -/
theorem Written.fold {inner : List Part} (listed : inner ∈ rule.unrolled)
    (written : Written [inner ++ shape] tokens) : Written [.rule rule :: shape] tokens := by
  obtain ⟨nodes, derives⟩ := written_singleton_iff.mp written
  obtain ⟨front, below, back, others, own, last, rfl, rfl⟩ := derives_append_iff.mp derives
  suffices ∃ nodes, Derives [.rule rule] front nodes by
    obtain ⟨nodes, first⟩ := this
    exact written_singleton_iff.mpr ⟨_, first.append last⟩
  have plain (among : inner ∈ rule.shapes) : ∃ nodes, Derives [.rule rule] front nodes :=
    ⟨_, derives_only_iff.mpr ⟨below, ⟨inner, among, own⟩, rfl⟩⟩
  cases inlined : rule.isInlined with
  | false =>
    rw [Rule.unrolled, inlined] at listed
    exact plain listed
  | true =>
    obtain ⟨body, shapes⟩ := Rule.shapes_of_isInlined inlined
    rw [Rule.unrolled, inlined, shapes] at listed
    rcases List.mem_cons.mp listed with rfl | listed
    · exact plain (by simp [shapes])
    · obtain rfl := List.mem_singleton.mp listed
      obtain ⟨once, _, more, _, first, further, rfl, rfl⟩ := derives_append_iff.mp own
      exact first.again shapes inlined further

/-- Unfolding rules at the head of a sequence adds no tokens to those that it is written in. The
fuel bounds how often rules are unfolded, and this direction holds for any. -/
theorem written_of_mem_unfoldings {fuel : Nat} {unfolded : List Part}
    (listed : unfolded ∈ unfoldings fuel shape) (written : Written [unfolded] tokens) :
    Written [shape] tokens := by
  induction fuel generalizing shape with
  | zero =>
    obtain rfl : unfolded = shape := by simpa [unfoldings] using listed
    exact written
  | succ fuel ih =>
    have only (same : unfoldings (fuel + 1) shape = [shape]) : Written [shape] tokens := by
      rw [same] at listed
      exact List.mem_singleton.mp listed ▸ written
    cases shape with
    | nil => exact only rfl
    | cons part shape =>
      cases part with
      | kept => exact only rfl
      | dropped => exact only rfl
      | gap =>
        rcases List.mem_cons.mp listed with rfl | listed
        · exact written
        · obtain ⟨nodes, derives⟩ := written_singleton_iff.mp (ih listed)
          exact written_singleton_iff.mpr ⟨_, .gap derives⟩
      | rule rule =>
        rcases List.mem_cons.mp listed with rfl | listed
        · exact written
        · obtain ⟨inner, among, listed⟩ := List.mem_flatMap.mp listed
          exact (ih listed).fold among

/-- What is written in what shapes may begin with is written in one of them. -/
theorem Written.of_spread (within : ∀ shape ∈ shapes, shape ∈ spread others)
    (written : Written shapes tokens) : Written others tokens := by
  obtain ⟨shape, listed, derives⟩ := written_iff.mp written
  obtain ⟨other, among, unfolded⟩ := List.mem_flatMap.mp (within shape listed)
  exact (written_of_mem_unfoldings unfolded (written_singleton_iff.mpr derives)).choose among

/-- A token in front of what may come behind it. Each shape that may come behind the terminal is
what is left of a whole one, which the token heads. -/
theorem Written.of_after {token : Token} {terminal : Terminal} (own : token.terminal = terminal)
    (within : ∀ shape ∈ shapes, shape ∈ after terminal others) (written : Written shapes back) :
    Written others (token :: back) := by
  subst own
  have rest := written.of_spread within
  obtain ⟨shape, listed, nodes, derives⟩ := written_iff.mp rest
  obtain ⟨whole, among, left⟩ := List.mem_flatMap.mp listed
  have headed : Written [whole] (token :: back) := by
    unfold behind at left
    split at left
    · next own shape =>
      split at left
      · next same =>
        obtain rfl := List.mem_singleton.mp left
        subst same
        exact written_singleton_iff.mpr ⟨_, .kept token derives⟩
      · cases left
    · next own shape =>
      split at left
      · next same =>
        obtain rfl := List.mem_singleton.mp left
        subst same
        exact written_singleton_iff.mpr ⟨_, .dropped token derives⟩
      · cases left
    · cases left
  exact Written.of_spread (fun _ own => List.mem_singleton.mp own ▸ among) headed

end Unfolding

end Grammar

/-! ## What may come at a place -/

section Ahead

open Grammar Daybook.Grammar.Part Terminal

namespace Grammar

/-- A part that may be missing and leaves no gap then. -/
def Part.orNothing (part : Part) : List (List Part) := [[part], []]

/-- Behind a part of the cost of a posting. -/
def costAhead : List (List Part) :=
  sections [(rule .costItems).orNothing, [[dropped closeBrace]], (rule .postingPrice).orGap]

/-- Behind an account that may have an amount. -/
def amountAhead : List (List Part) :=
  sections [[[rule .amount]], (rule .cost).orGap, (rule .postingPrice).orGap] ++ [[]]

/-- Behind the flag of a transaction. -/
def textsAhead : List (List Part) :=
  sections [[[kept quotedText, kept quotedText], [gap, kept quotedText], [gap, gap]],
    (rule .marks).orGap]

/-- Behind the date of a directive. -/
def datedAhead : List (List Part) :=
  [[dropped closeWord, kept account], [dropped balanceWord, kept account, rule .amount],
    [dropped balanceWord, kept account, rule .tolerance],
    [dropped eventWord, kept quotedText, kept quotedText], [dropped commodityWord, kept currency],
    [dropped documentWord, kept account, kept quotedText],
    [dropped noteWord, kept account, kept quotedText],
    [dropped padWord, kept account, kept account],
    [dropped priceWord, kept currency, rule .amount], [dropped customWord, rule .argumentList]] ++
  sections [[[dropped openWord, kept account]], (rule .currencies).orGap,
    (kept quotedText).orGap] ++
  sections [[[kept txnWord], [kept flag], [gap]], textsAhead]

/-- Behind an operand within its sum. -/
def operationsAhead : List (List Part) :=
  sections [(rule .factors).orNothing, (rule .addends).orNothing]

/-- Behind an operand in so many parentheses, when this comes behind the number. -/
def nestedAhead (last : List (List Part)) : Nat → List (List Part)
  | 0 => sections [operationsAhead, last]
  | depth + 1 =>
    sections [operationsAhead, sections [[[dropped closeParen]], nestedAhead last depth]]

end Grammar

/-- Behind an amount. -/
def Purpose.amountAhead : Purpose → List (List Part)
  | posting _ => sections [(rule .cost).orGap, (rule .postingPrice).orGap]
  | totalCost _ => sections [[[dropped doubleCloseBrace]], (rule .postingPrice).orGap]
  | firstCost _ => costAhead
  | nextCost _ => costAhead
  | restCost _ => sections [[[dropped closeBrace]], (rule .postingPrice).orGap]
  | _ => [[]]

/-- Behind a number. -/
def Purpose.ahead : Purpose → List (List Part)
  | firstCost _ => sections [[[kept currency]], costAhead] ++
      sections [[[dropped hash, rule .amount, dropped closeBrace]], (rule .postingPrice).orGap]
  | balance => [[kept currency], [dropped tilde, rule .number, kept currency]]
  | metadata _ _ => (kept currency).orNothing
  | argument => (rule .argumentList).orNothing
  | purpose => sections [[[kept currency]], purpose.amountAhead]

/-- At an account. -/
def AccountUse.ahead : AccountUse → List (List Part)
  | opening _ => sections [[[kept account]], (rule .currencies).orGap, (kept quotedText).orGap]
  | closing _ => [[kept account]]
  | balance => [[kept account, rule .amount], [kept account, rule .tolerance]]
  | texted => [[kept account, kept quotedText]]
  | padded => [[kept account, kept account]]
  | padding => [[kept account]]
  | flagged _ => sections [[[kept account]], amountAhead]

/-- At a text. -/
def TextUse.ahead : TextUse → List (List Part)
  | event => [[kept quotedText, kept quotedText]]
  | option => [[kept quotedText, kept quotedText]]
  | plugin => sections [[[kept quotedText]], (kept quotedText).orGap]
  | _ => [[kept quotedText]]

/-- At a currency. -/
def CurrencyUse.ahead : CurrencyUse → List (List Part)
  | commodity => [[kept currency]]
  | quotation => [[kept currency, rule .amount]]
  | opening _ _ _ =>
    sections [[[kept currency]], (rule .moreCurrencies).orNothing, (kept quotedText).orGap]

/-- What may still come of a directive at a place. -/
def Place.ahead : Place → List (List Part)
  | fileStart => [[rule .directive]]
  | lineStart => [[rule .directive]]
  | remarked => []
  | commented _ _ => []
  | ended _ => [[]]
  | dated _ => datedAhead
  | texts heading => match heading.narration with
    | none => textsAhead
    | some _ => sections [(kept quotedText).orNothing, (rule .marks).orGap]
  | marks _ => (rule .markList).orNothing
  | account use => use.ahead
  | text use => use.ahead
  | currency use => use.ahead
  | firstCurrency _ _ => sections [(rule .currencies).orGap, (kept quotedText).orGap]
  | nextCurrency _ _ _ _ => sections [(rule .moreCurrencies).orNothing, (kept quotedText).orGap]
  | pluginText => (kept quotedText).orGap
  | metadataColon _ => [[dropped colon, rule .metadataValue]]
  | metadataValue _ => [[rule .metadataValue]]
  | firstArgument => [[rule .argumentList]]
  | nextArgument => (rule .argumentList).orNothing
  | posted _ => amountAhead
  | operand purpose depth => sections [[[rule .operand]], nestedAhead purpose.ahead depth]
  | operator purpose depth => nestedAhead purpose.ahead depth
  | afterAmount purpose => purpose.amountAhead
  | firstCost _ => sections [[[rule .costItem]], costAhead] ++ sections
      [[[dropped closeBrace], [rule .number, dropped hash, rule .amount, dropped closeBrace]],
        (rule .postingPrice).orGap]
  | nextCost _ => sections [[[rule .costItem]], costAhead]
  | costComma _ => costAhead
  | price _ => (rule .postingPrice).orGap

end Ahead

namespace Grammar

/-! ## Reading a token -/

section Numbers

variable {purpose : Purpose} {depth : Nat} {token : Token} {back : List Token}
  {last : List (List Part)}

/-- A further token of a number does not change what may come behind it. -/
@[simp] theorem ahead_upTo (purpose : Purpose) (token : Token) :
    (purpose.upTo token).ahead = purpose.ahead := by
  cases purpose <;> rfl

/-- First what comes behind an operand in its sum, and then the rest. -/
theorem nestedAhead_eq (last : List (List Part)) (depth : Nat) :
    ∃ rest, nestedAhead last depth = sections [operationsAhead, rest] := by
  cases depth <;> exact ⟨_, rfl⟩

/-- A sign of an operation and what comes behind it. -/
theorem written_operation {terminal : Terminal}
    (sign : ∀ shape ∈ sections [[[.rule .operand]], operationsAhead],
      shape ∈ after terminal operationsAhead) (own : token.terminal = terminal)
    (further : Written (sections [[[.rule .operand]], nestedAhead last depth]) back) :
    Written (nestedAhead last depth) (token :: back) := by
  obtain ⟨rest, same⟩ := nestedAhead_eq last depth
  rw [same] at further ⊢
  obtain ⟨first, _, operand, others, rfl⟩ := written_pair_iff.mp further
  obtain ⟨more, end_, operations, closed, rfl⟩ := written_pair_iff.mp others
  have whole := written_pair_iff.mpr ⟨first, more, operand, operations, rfl⟩
  refine written_pair_iff.mpr ⟨token :: (first ++ more), end_, whole.of_after own sign, closed, ?_⟩
  simp

/-- The first token of an operand. A number, a sign or an opening parenthesis begins an operand;
behind the parenthesis an expression and its end are still to come. -/
theorem written_operand {next : Place} (leads : Place.intoNumber purpose depth token = some next)
    (further : Written next.ahead back) :
    Written (Place.operand purpose depth).ahead (token :: back) := by
  unfold Place.intoNumber at leads
  split at leads
  · next sort =>
    cases leads
    rw [Place.ahead, ahead_upTo] at further
    have nothing : Written [[]] [] := ⟨[], _, List.mem_singleton_self _, .nil⟩
    exact written_pair_iff.mpr
      ⟨[token], back, nothing.of_after sort (by decide), further, rfl⟩
  · next sort =>
    cases leads
    obtain ⟨first, _, operand, others, rfl⟩ := written_pair_iff.mp further
    obtain ⟨more, _, operations, closing, rfl⟩ := written_pair_iff.mp others
    obtain ⟨close, back, closed, rest, rfl⟩ := written_pair_iff.mp closing
    have whole : Written (sections [[[.rule .operand]],
        sections [operationsAhead, [[.dropped .closeParen]]]]) (first ++ (more ++ close)) :=
      written_pair_iff.mpr ⟨_, _, operand,
        written_pair_iff.mpr ⟨_, _, operations, closed, rfl⟩, rfl⟩
    exact written_pair_iff.mpr
      ⟨_, back, whole.of_after sort (by decide), rest, by simp⟩
  · next sort =>
    cases leads
    rw [Place.ahead, ahead_upTo] at further
    obtain ⟨first, back, operand, rest, rfl⟩ := written_pair_iff.mp further
    exact written_pair_iff.mpr ⟨_, back, operand.of_after sort (by decide), rest, rfl⟩
  · cases leads

/-- The first token of a number, where one may come. -/
theorem written_number {shapes : List (List Part)} {next : Place}
    (within : ∀ shape ∈ (Place.operand purpose 0).ahead, shape ∈ spread shapes)
    (leads : Place.intoNumber purpose 0 token = some next) (further : Written next.ahead back) :
    Written shapes (token :: back) :=
  (written_operand leads further).of_spread within

/-- The first token of an argument of a custom directive, where one may come. -/
theorem written_argument {shapes : List (List Part)} {next : Place}
    (plain : ∀ terminal ∈ [Terminal.date, .account, .currency, .quotedText, .boolean],
      ∀ shape ∈ Place.nextArgument.ahead, shape ∈ after terminal shapes)
    (number : ∀ shape ∈ (Place.operand .argument 0).ahead, shape ∈ spread shapes)
    (leads : Place.intoArgument token = some next) (further : Written next.ahead back) :
    Written shapes (token :: back) := by
  unfold Place.intoArgument at leads
  split at leads
  case h_6 => exact written_number number leads further
  all_goals
    next sort =>
      cases leads
      exact further.of_after sort (plain _ (by simp))

/-- A token behind an operand. An operator asks for one more operand, a closing parenthesis for what
was ahead outside, and everything else ends the expression. -/
theorem written_operator {next : Place} (leads : Place.afterOperand purpose depth token = some next)
    (further : Written next.ahead back) :
    Written (Place.operator purpose depth).ahead (token :: back) := by
  unfold Place.afterOperand at leads
  split at leads
  · next sort =>
    cases leads
    rw [Place.ahead, ahead_upTo] at further
    exact written_operation (by decide) sort further
  · next sort =>
    cases leads
    rw [Place.ahead, ahead_upTo] at further
    exact written_operation (by decide) sort further
  · next depth sort =>
    cases leads
    have nothing : Written operationsAhead [] :=
      ⟨[], [], by decide, .nil⟩
    have close : Written [[.dropped .closeParen]] [token] :=
      ⟨[], _, List.mem_singleton_self _, sort ▸ .dropped token .nil⟩
    exact written_pair_iff.mpr ⟨[], _, nothing,
      written_pair_iff.mpr ⟨_, _, close, further, rfl⟩, rfl⟩
  · next sort =>
    cases purpose <;> cases leads <;> refine further.of_after sort ?_ <;>
      dsimp only [Place.ahead, nestedAhead, Purpose.ahead, Purpose.amountAhead, Purpose.upTo] <;>
      decide
  · next sort =>
    split at leads
    · cases leads
      refine further.of_after sort ?_
      dsimp only [Place.ahead, nestedAhead, Purpose.ahead, Purpose.amountAhead]
      decide
    · cases leads
  · next sort =>
    split at leads
    · next same =>
      cases leads
      cases same
      exact further.of_after sort (by decide)
    · cases leads
  · split at leads
    · next same =>
      cases same
      exact written_argument (by decide) (by decide +kernel) leads further
    · cases leads
  · cases leads

end Numbers

section Step

variable {next : Place} {token : Token} {back : List Token}

/-- The first token of a line. -/
theorem written_line (leads : Place.intoLine token = some next)
    (further : Written next.ahead back) :
    Written Place.lineStart.ahead (token :: back) := by
  unfold Place.intoLine at leads
  split at leads
  case h_8 | h_9 =>
    cases leads
    exact absurd further not_written_nil
  case h_10 => cases leads
  all_goals
    next sort =>
      cases leads
      dsimp only [Place.ahead, AccountUse.ahead, TextUse.ahead] at further
      exact further.of_after sort (by decide)

/-- A tag or a link. -/
theorem written_marks {heading : Heading} {shapes : List (List Part)}
    (within : ∀ terminal ∈ [Terminal.tag, .link], ∀ shape ∈ (Place.marks heading).ahead,
      shape ∈ after terminal shapes)
    (leads : Place.intoMarks heading token = some next) (further : Written next.ahead back) :
    Written shapes (token :: back) := by
  unfold Place.intoMarks at leads
  split at leads
  · next sort =>
    cases leads
    rcases sort with sort | sort
    · exact further.of_after sort (within _ (by simp))
    · exact further.of_after sort (within _ (by simp))
  · cases leads

/-- A text, a tag or a link. What may come depends on whether the heading has a payee or a narration
yet. -/
theorem written_texts {heading : Heading} (leads : Place.intoTexts heading token = some next)
    (further : Written next.ahead back) : Written (Place.texts heading).ahead (token :: back) := by
  unfold Place.intoTexts at leads
  cases told : heading.narration with
  | none =>
    simp only [told] at leads
    simp only [Place.ahead, told]
    split at leads
    · next sort =>
      cases leads
      exact further.of_after sort (by dsimp only [Place.ahead]; decide)
    · exact written_marks (by dsimp only [Place.ahead]; decide) leads further
  | some payee =>
    simp only [told] at leads
    simp only [Place.ahead, told]
    split at leads
    · next sort =>
      cases leads
      exact further.of_after sort (by dsimp only [Place.ahead]; decide)
    · exact written_marks (by dsimp only [Place.ahead]; decide) leads further

/-- The token behind the date of a directive. -/
theorem written_dated {date : Token} (leads : Place.intoDated date token = some next)
    (further : Written next.ahead back) : Written (Place.dated date).ahead (token :: back) := by
  unfold Place.intoDated at leads
  dsimp only [Place.ahead]
  split at leads
  case h_13 =>
    exact (written_texts leads further).of_spread (by dsimp only [Place.ahead]; decide)
  all_goals
    next sort =>
      cases leads
      try dsimp only [Place.ahead, AccountUse.ahead, TextUse.ahead, CurrencyUse.ahead] at further
      exact further.of_after sort (by decide)

/-- The mark of a price. -/
theorem written_price {line : PostingLine} {shapes : List (List Part)}
    (within : ∀ terminal ∈ [Terminal.atMark, .doubleAt],
      ∀ shape ∈ (Place.operand (.price line) 0).ahead, shape ∈ after terminal shapes)
    (leads : Place.intoPrice line token = some next) (further : Written next.ahead back) :
    Written shapes (token :: back) := by
  unfold Place.intoPrice at leads
  split at leads
  · next sort => cases leads; exact further.of_after sort (within _ (by simp))
  · next sort => cases leads; exact further.of_after sort (within _ (by simp))
  · cases leads

/-- A comma or a closing brace in a cost. -/
theorem written_costPart {line : PostingLine} (leads : Place.afterCostPart line token = some next)
    (further : Written next.ahead back) : Written costAhead (token :: back) := by
  unfold Place.afterCostPart at leads
  split at leads <;> cases leads <;> dsimp only [Place.ahead] at further
  · next sort => exact further.of_after sort (by decide)
  · next sort => exact further.of_after sort (by decide)

/-- A part of a cost. -/
theorem written_cost {line : PostingLine} {purpose : Purpose} {shapes : List (List Part)}
    (plain : ∀ terminal ∈ [Terminal.date, .quotedText, .asterisk], ∀ shape ∈ costAhead,
      shape ∈ after terminal shapes)
    (number : ∀ shape ∈ (Place.operand purpose 0).ahead, shape ∈ spread shapes)
    (leads : Place.intoCost line purpose token = some next) (further : Written next.ahead back) :
    Written shapes (token :: back) := by
  unfold Place.intoCost at leads
  split at leads
  · next sort => cases leads; exact further.of_after sort (plain _ (by simp))
  · next sort => cases leads; exact further.of_after sort (plain _ (by simp))
  · next sort => cases leads; exact further.of_after sort (plain _ (by simp))
  · exact written_number number leads further

/-- A token behind an amount. -/
theorem written_beyond {purpose : Purpose} (leads : Place.beyondAmount purpose token = some next)
    (further : Written next.ahead back) : Written purpose.amountAhead (token :: back) := by
  unfold Place.beyondAmount at leads
  cases purpose with
  | posting line =>
    dsimp only [Purpose.amountAhead] at leads ⊢
    split at leads
    · next sort =>
      cases leads
      exact further.of_after sort (by dsimp only [Place.ahead]; decide)
    · next sort =>
      cases leads
      dsimp only [Place.ahead, Purpose.ahead, Purpose.amountAhead] at further
      exact further.of_after sort (by decide)
    · refine written_price ?_ leads further
      dsimp only [Place.ahead, Purpose.ahead, Purpose.amountAhead]
      decide
  | totalCost line =>
    dsimp only [Purpose.amountAhead] at leads ⊢
    split at leads
    · next sort =>
      cases leads
      exact further.of_after sort (by dsimp only [Place.ahead]; decide)
    · cases leads
  | firstCost line => exact written_costPart leads further
  | nextCost line => exact written_costPart leads further
  | restCost line =>
    dsimp only [Purpose.amountAhead] at leads ⊢
    split at leads
    · next sort =>
      cases leads
      exact further.of_after sort (by dsimp only [Place.ahead]; decide)
    · cases leads
  | _ => cases leads

/-- An account. -/
theorem written_account {use : AccountUse} (sort : token.terminal = .account)
    (further : Written (Place.afterAccount use token).ahead back) :
    Written use.ahead (token :: back) := by
  refine further.of_after sort ?_
  cases use <;> dsimp only [Place.afterAccount, Place.ahead, AccountUse.ahead, TextUse.ahead,
    Purpose.ahead, Purpose.amountAhead] <;> decide

/-- A text. -/
theorem written_text {use : TextUse} (sort : token.terminal = .quotedText)
    (further : Written (Place.afterText use token).ahead back) :
    Written use.ahead (token :: back) := by
  refine further.of_after sort ?_
  cases use <;> dsimp only [Place.afterText, Place.ahead, TextUse.ahead] <;> decide

/-- A currency. -/
theorem written_currency {use : CurrencyUse} (sort : token.terminal = .currency)
    (further : Written (Place.afterCurrency use token).ahead back) :
    Written use.ahead (token :: back) := by
  refine further.of_after sort ?_
  cases use <;> dsimp only [Place.afterCurrency, Place.ahead, CurrencyUse.ahead, Purpose.ahead,
    Purpose.amountAhead] <;> decide

/-- The value of a metadata key. -/
theorem written_metadata {key : Token} (leads : Place.intoMetadata key token = some next)
    (further : Written next.ahead back) :
    Written (Place.metadataValue key).ahead (token :: back) := by
  unfold Place.intoMetadata at leads
  dsimp only [Place.ahead]
  split at leads
  case h_6 => exact written_number (by dsimp only [Place.ahead, Purpose.ahead]; decide) leads further
  all_goals
    next sort =>
      cases leads
      exact further.of_after sort (by dsimp only [Place.ahead]; decide)

/-- A token and what may come where it leads are something that may come at a place. One case for
each sort of place, each by the lemma on what leads on from there. -/
theorem written_of_continued {place : Place} (continues : Place.Continues token place next)
    (further : Written next.ahead back) : Written place.ahead (token :: back) := by
  cases continues with
  | fileStart leads => exact written_line leads further
  | lineStart leads => exact written_line leads further
  | dated leads => exact written_dated leads further
  | texts leads => exact written_texts leads further
  | marks leads => exact written_marks (by dsimp only [Place.ahead]; decide) leads further
  | account use sort => exact written_account sort further
  | text use sort => exact written_text sort further
  | currency use sort => exact written_currency sort further
  | firstCurrency date owner sort =>
    exact further.of_after sort (by dsimp only [Place.ahead]; decide)
  | booking date owner sort => exact further.of_after sort (by dsimp only [Place.ahead]; decide)
  | comma date owner currencies stop sort =>
    exact further.of_after sort (by dsimp only [Place.ahead, CurrencyUse.ahead]; decide)
  | bookingOf date owner currencies stop sort =>
    exact further.of_after sort (by dsimp only [Place.ahead]; decide)
  | pluginText sort => exact further.of_after sort (by decide)
  | metadataColon key sort => exact further.of_after sort (by dsimp only [Place.ahead]; decide)
  | metadataValue leads => exact written_metadata leads further
  | firstArgument leads => exact written_argument (by decide) (by decide +kernel) leads further
  | nextArgument leads => exact written_argument (by decide) (by decide +kernel) leads further
  | posted leads =>
    refine written_number ?_ leads further
    dsimp only [Place.ahead, Purpose.ahead, Purpose.amountAhead]
    decide
  | operand leads => exact written_operand leads further
  | operator leads => exact written_operator leads further
  | afterAmount leads => exact written_beyond leads further
  | costEnd line sort => exact further.of_after sort (by dsimp only [Place.ahead]; decide)
  | firstCost _ leads =>
    refine written_cost ?_ ?_ leads further
    · dsimp only [Place.ahead]
      decide
    · dsimp only [Place.ahead, Purpose.ahead]
      decide
  | nextCost leads =>
    refine written_cost ?_ ?_ leads further
    · dsimp only [Place.ahead]
      decide
    · dsimp only [Place.ahead, Purpose.ahead, Purpose.amountAhead]
      decide
  | costComma leads => exact written_costPart leads further
  | price leads =>
    refine written_price ?_ leads further
    dsimp only [Place.ahead, Purpose.ahead, Purpose.amountAhead]
    decide

end Step

/-- Parts that are all missing are written in no tokens. -/
theorem written_nil {shapes : List (List Part)}
    (missing : ∃ shape ∈ shapes, ∀ part ∈ shape, part = .gap) : Written shapes [] := by
  obtain ⟨shape, listed, gaps⟩ := missing
  refine Written.choose ?_ listed
  clear listed
  induction shape with
  | nil => exact written_singleton_iff.mpr ⟨[], .nil⟩
  | cons part shape ih =>
    obtain ⟨rfl, others⟩ := List.forall_mem_cons.mp gaps
    obtain ⟨nodes, derives⟩ := written_singleton_iff.mp (ih others)
    exact written_singleton_iff.mpr ⟨_, .gap derives⟩

end Grammar

/-! ## Lines -/

namespace Place

open Grammar

/-- What may come on a line at a place besides the rest of a directive: a comment or a header alone
on its line, or nothing behind it. -/
def aside : Place → List (List Part)
  | fileStart => [[.kept .comment], [.kept .sectionHeader]]
  | lineStart => [[.kept .comment], [.kept .sectionHeader]]
  | remarked => [[]]
  | commented _ _ => [[]]
  | _ => []

/-- What may still come on a line at a place. -/
def lineAhead (place : Place) : List (List Part) :=
  sections [place.ahead, (Part.kept .comment).orGap] ++ place.aside

section Aside

variable {next : Place} {token : Token}

/-- Within a number nothing may come but what the number asks for. -/
theorem aside_of_intoNumber {purpose : Purpose} {depth : Nat}
    (leads : intoNumber purpose depth token = some next) : next.aside = [] := by
  unfold intoNumber at leads
  split at leads <;> cases leads <;> rfl

/-- Nor does anything else come behind what a number is read up to. -/
theorem aside_of_afterNumber {purpose : Purpose} (leads : afterNumber purpose token = some next) :
    next.aside = [] := by
  cases purpose <;> cases leads <;> rfl

/-- Nor behind an account. -/
theorem aside_afterAccount (use : AccountUse) (token : Token) :
    (afterAccount use token).aside = [] := by
  cases use <;> rfl

/-- Nor behind a text. -/
theorem aside_afterText (use : TextUse) (token : Token) : (afterText use token).aside = [] := by
  cases use <;> rfl

/-- Nor behind a currency. -/
theorem aside_afterCurrency (use : CurrencyUse) (token : Token) :
    (afterCurrency use token).aside = [] := by
  cases use <;> rfl

/-- The first token of a line begins a directive, or it is a comment or a header alone. -/
theorem aside_of_intoLine (leads : intoLine token = some next) : next.aside = [] ∨
    next = .remarked ∧ (token.terminal = .comment ∨ token.terminal = .sectionHeader) := by
  unfold intoLine at leads
  split at leads
  all_goals first
    | cases leads; exact Or.inl rfl
    | skip
  · next sort => cases leads; exact Or.inr ⟨rfl, Or.inl sort⟩
  · next sort => cases leads; exact Or.inr ⟨rfl, Or.inr sort⟩
  · cases leads

/-- A token leads on within a directive, unless it is a comment or a header alone on its line. Only
a place at the beginning of a line lets a comment or a header stand alone. -/
theorem aside_of_continued {place : Place} (continues : Continues token place next) :
    next.aside = [] ∨ (place = .fileStart ∨ place = .lineStart) ∧ next = .remarked ∧
      (token.terminal = .comment ∨ token.terminal = .sectionHeader) := by
  have leads := continued_eq_some_iff.mpr continues
  unfold continued at leads
  split at leads
  · exact (aside_of_intoLine leads).imp_right fun remark => ⟨Or.inl rfl, remark⟩
  · exact (aside_of_intoLine leads).imp_right fun remark => ⟨Or.inr rfl, remark⟩
  all_goals left
  all_goals try simp only [intoDated, intoTexts, intoMarks, intoMetadata, intoArgument,
    afterOperand, beyondAmount, intoCost, afterCostPart, intoPrice] at leads
  all_goals repeat' split at leads
  all_goals first
    | exact aside_of_intoNumber leads
    | exact aside_of_afterNumber leads
    | cases leads <;> first
      | rfl
      | exact aside_afterAccount _ _
      | exact aside_afterText _ _
      | exact aside_afterCurrency _ _

end Aside

/-- Where a directive is complete, nothing more need come. At every place where a statement is
complete the empty shape is among those ahead. -/
theorem written_of_statement? {place : Place} {statement : Statement}
    (complete : place.statement? = some statement) (inside : place.expected ≠ .lineEnd) :
    Written place.ahead [] := by
  cases place with
  | remarked => exact absurd rfl inside
  | commented => exact absurd rfl inside
  | ended => exact written_nil (by dsimp only [ahead]; decide)
  | dated => exact written_nil (by dsimp only [ahead]; decide)
  | texts heading =>
    refine written_nil ?_
    dsimp only [ahead]
    split <;> decide
  | marks => exact written_nil (by dsimp only [ahead]; decide)
  | firstCurrency => exact written_nil (by dsimp only [ahead]; decide)
  | nextCurrency => exact written_nil (by dsimp only [ahead]; decide)
  | pluginText => exact written_nil (by decide)
  | nextArgument => exact written_nil (by decide)
  | posted => exact written_nil (by dsimp only [ahead]; decide)
  | operator purpose depth =>
    cases depth with
    | succ depth => cases purpose <;> cases complete
    | zero =>
      cases purpose with
      | metadata key stop =>
        exact written_nil (by dsimp only [ahead, nestedAhead, Purpose.ahead]; decide)
      | argument => exact written_nil (by decide)
      | _ => cases complete
  | afterAmount purpose =>
    refine written_nil ?_
    cases purpose <;> first
      | cases complete; done
      | dsimp only [ahead, Purpose.amountAhead]; decide
  | price => exact written_nil (by dsimp only [ahead]; decide)
  | _ => cases complete

/-- A token and what may come on the line where it leads are something that may come on the line. -/
theorem written_of_pass {place next : Place} {token : Token} {back : List Token}
    (leads : place.pass token = some next) (further : Written next.lineAhead back) :
    Written place.lineAhead (token :: back) := by
  obtain ⟨inside, leads⟩ := Option.ite_none_left_eq_some.mp leads
  rcases step_eq_some_iff.mp leads with ⟨sort, statement, complete, rfl⟩ | ⟨_, continues⟩
  · rcases written_append_iff.mp further with directive | alone
    · obtain ⟨_, _, none, _⟩ := written_pair_iff.mp directive
      exact absurd none not_written_nil
    · exact written_append_iff.mpr (Or.inl (written_pair_iff.mpr
        ⟨[], _, written_of_statement? complete inside, alone.of_after sort (by
          dsimp only [aside]
          decide), rfl⟩))
  · rcases written_append_iff.mp further with directive | alone
    · obtain ⟨front, comment, rest, remark, rfl⟩ := written_pair_iff.mp directive
      exact written_append_iff.mpr (Or.inl (written_pair_iff.mpr
        ⟨_, comment, written_of_continued continues rest, remark, rfl⟩))
    · rcases aside_of_continued continues with none | ⟨start, rfl, sort⟩
      · rw [none] at alone
        exact absurd alone not_written_nil
      · refine written_append_iff.mpr (Or.inr ?_)
        rcases start with rfl | rfl <;> rcases sort with sort | sort <;>
          exact alone.of_after sort (by decide)

end Place

end Daybook
