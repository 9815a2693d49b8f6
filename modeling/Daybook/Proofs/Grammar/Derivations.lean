import Daybook.Proofs.Grammar.Trees
import Daybook.Statement.Place

/-!
# Trees and places

The tokens of a tree lead from place to place, and where they lead can be told from the tree. This
module says so of numbers and of all that contains them: amounts, costs and prices. A number nests,
and the place counts its open parentheses, so the induction on its tree has to know of each part
whether it stands where an operand must and how many parentheses are open: that is `turn`, and a
rule turns what each of its shapes does.

What a number is read for, the place remembers as a purpose. Its tokens move the end of the line
that the purpose belongs to, and nothing else.
-/
namespace Daybook

namespace Place

/-- Where a token leads within a line. Behind a comment or a header there is only the end of the
line. -/
def pass (place : Place) (token : Token) : Option Place :=
  if place.expected = .lineEnd then none else place.step token

/-- Where tokens lead that do not end a line. -/
def follow (place : Place) (tokens : List Token) : Option Place := tokens.foldlM pass place

/-- Without tokens a place stays. -/
@[simp] theorem follow_nil (place : Place) : place.follow [] = some place := rfl

/-- Tokens are followed one at a time, and a token that leads nowhere ends the way. -/
theorem follow_cons (place : Place) (token : Token) (tokens : List Token) :
    place.follow (token :: tokens) = (place.pass token).bind (follow · tokens) := rfl

/-- One token leads where it passes to. -/
@[simp] theorem follow_singleton (place : Place) (token : Token) :
    place.follow [token] = place.pass token := by
  rw [follow_cons]
  cases place.pass token <;> rfl

/-- Tokens one after the other are followed one after the other. The tokens of a tree are those of
its parts, so this is how the induction on trees goes on. -/
theorem follow_append (place : Place) (front back : List Token) :
    place.follow (front ++ back) = (place.follow front).bind (follow · back) := by
  simp only [follow, List.foldlM_append]
  rfl

end Place

/-- The purpose after several tokens. -/
def Purpose.through (purpose : Purpose) (tokens : List Token) : Purpose :=
  tokens.foldl upTo purpose

/-- Without tokens a purpose stays. -/
@[simp] theorem Purpose.through_nil (purpose : Purpose) : purpose.through [] = purpose := rfl

/-- Each token moves the end of the line that the purpose belongs to. -/
@[simp] theorem Purpose.through_cons (purpose : Purpose) (token : Token) (tokens : List Token) :
    purpose.through (token :: tokens) = (purpose.upTo token).through tokens := rfl

/-- Tokens one after the other move it one after the other. -/
@[simp] theorem Purpose.through_append (purpose : Purpose) (front back : List Token) :
    purpose.through (front ++ back) = (purpose.through front).through back := List.foldl_append

/-- The posting line after several tokens. -/
def PostingLine.through (line : PostingLine) (tokens : List Token) : PostingLine :=
  tokens.foldl upTo line

/-- Without tokens a posting line stays. -/
@[simp] theorem PostingLine.through_nil (line : PostingLine) : line.through [] = line := rfl

/-- Tokens one after the other move the end of a posting line one after the other. -/
@[simp] theorem PostingLine.through_append (line : PostingLine) (front back : List Token) :
    line.through (front ++ back) = (line.through front).through back := List.foldl_append

/-- Tokens move the end of a posting line and nothing else. -/
theorem PostingLine.through_eq (line : PostingLine) (tokens : List Token) :
    line.through tokens = { line with stop := (line.through tokens).stop } := by
  induction tokens generalizing line with
  | nil => rfl
  | cons token tokens ih => exact ih (line.upTo token)

/-- The token that begins the line stays. -/
@[simp] theorem PostingLine.through_first (line : PostingLine) (tokens : List Token) :
    (line.through tokens).first = line.first := by rw [through_eq]

/-- The account stays. -/
@[simp] theorem PostingLine.through_account (line : PostingLine) (tokens : List Token) :
    (line.through tokens).account = line.account := by rw [through_eq]

/-- The currency stays; only the step that reads it sets it. -/
@[simp] theorem PostingLine.through_currency (line : PostingLine) (tokens : List Token) :
    (line.through tokens).currency = line.currency := by rw [through_eq]

/-- Whether there is a cost stays. -/
@[simp] theorem PostingLine.through_hasCost (line : PostingLine) (tokens : List Token) :
    (line.through tokens).hasCost = line.hasCost := by rw [through_eq]

/-- Whether there is a price stays. -/
@[simp] theorem PostingLine.through_hasPrice (line : PostingLine) (tokens : List Token) :
    (line.through tokens).hasPrice = line.hasPrice := by rw [through_eq]

/-- The last token moves the end. -/
theorem PostingLine.through_concat (line : PostingLine) (tokens : List Token) (token : Token) :
    line.through (tokens ++ [token]) = line.upTo token := by
  rw [through_append, through_eq line tokens]
  rfl

/-- The purposes that a number serves within a posting line. -/
inductive Purpose.Within : (PostingLine → Purpose) → Prop where
  | totalCost : Within .totalCost
  | firstCost : Within .firstCost
  | restCost : Within .restCost
  | nextCost : Within .nextCost
  | price : Within .price

/-- What is read within a posting line moves the end of that line. -/
theorem Purpose.Within.through {purpose : PostingLine → Purpose} (within : Within purpose)
    (line : PostingLine) (tokens : List Token) :
    (purpose line).through tokens = purpose (line.through tokens) := by
  induction tokens generalizing line with
  | nil => rfl
  | cons token tokens ih =>
    have first : (purpose line).upTo token = purpose (line.upTo token) := by cases within <;> rfl
    rw [Purpose.through_cons, first, ih]
    rfl

/-- A number of a posting line moves the end of that line. -/
theorem Purpose.through_posting (line : PostingLine) (tokens : List Token) :
    (Purpose.posting line).through tokens = .posting (line.through tokens) := by
  induction tokens generalizing line with
  | nil => rfl
  | cons token tokens ih => exact ih (line.upTo token)

namespace Grammar

/-! ## Numbers -/

/-- The place in a number, where an operand must stand or behind one. -/
def numeral (behind : Bool) (purpose : Purpose) (depth : Nat) : Place :=
  if behind then .operator purpose depth else .operand purpose depth

/-- What a part of a number changes: whether an operand has come, and how many parentheses are
open. -/
def turn : Bool × Nat → Part → Option (Bool × Nat)
  | (false, depth), .kept .number => some (true, depth)
  | (false, depth), .kept .unarySign => some (false, depth)
  | (true, depth), .kept .addSign => some (false, depth)
  | (true, depth), .kept .multiplySign => some (false, depth)
  | (false, depth), .dropped .openParen => some (false, depth + 1)
  | (true, depth + 1), .dropped .closeParen => some (true, depth)
  | (false, depth), .rule .number => some (true, depth)
  | (false, depth), .rule .sum => some (true, depth)
  | (false, depth), .rule .product => some (true, depth)
  | (false, depth), .rule .operand => some (true, depth)
  | (true, depth), .rule .addends => some (true, depth)
  | (true, depth), .rule .factors => some (true, depth)
  | _, _ => none

/-- The tokens that a number keeps. -/
def isNumeral (token : Token) : Bool :=
  token.terminal = .number || token.terminal = .unarySign || token.terminal = .addSign ||
    token.terminal = .multiplySign

/-- A rule of a number changes what each of its shapes changes. -/
theorem turn_shape {rule : Rule} {before after : Bool × Nat}
    (turns : turn before (.rule rule) = some after)
    {shape : List Part} (listed : shape ∈ rule.shapes) : shape.foldlM turn before = some after := by
  obtain ⟨behind, depth⟩ := before
  cases rule <;> cases behind <;> cases turns <;>
    simp only [Rule.shapes, List.mem_cons, List.not_mem_nil, or_false] at listed
  all_goals rcases listed with rfl | rfl | rfl <;> rfl

/-- A kept token of a number. -/
theorem step_kept {behind after : Bool} {depth further : Nat} {token : Token}
    (turns : turn (behind, depth) (.kept token.terminal) = some (after, further))
    (purpose : Purpose) :
    (numeral behind purpose depth).pass token = some (numeral after (purpose.upTo token) further) ∧
      isNumeral token = true := by
  obtain ⟨terminal, start, text⟩ := token
  cases behind <;> cases terminal <;> cases turns <;> exact ⟨rfl, rfl⟩

/-- A parenthesis of a number. -/
theorem step_dropped {behind after : Bool} {depth further : Nat} {token : Token}
    (turns : turn (behind, depth) (.dropped token.terminal) = some (after, further))
    (purpose : Purpose) :
    (numeral behind purpose depth).pass token = some (numeral after purpose further) := by
  obtain ⟨terminal, start, text⟩ := token
  cases behind with
  | false =>
    cases terminal <;> cases turns
    rfl
  | true =>
    cases terminal <;> cases depth <;> cases turns
    rfl

/-- A number leads from place to place as its parts turn. The induction is on the tree. -/
theorem Derives.numeral {shape : List Part} {tokens : List Token} {nodes : List Node}
    (derives : Derives shape tokens nodes) {behind after : Bool} {depth further : Nat}
    (turns : shape.foldlM turn (behind, depth) = some (after, further)) (purpose : Purpose) :
    (Grammar.numeral behind purpose depth).follow tokens =
        some (Grammar.numeral after (purpose.through (tokensOf nodes)) further) ∧
      ∀ token ∈ tokensOf nodes, isNumeral token = true := by
  induction derives generalizing behind depth after further purpose with
  | nil =>
    cases turns
    exact ⟨rfl, by simp⟩
  | @kept shape tokens nodes token _ ih =>
    obtain ⟨⟨next, deep⟩, first, others⟩ := Option.bind_eq_some_iff.mp turns
    obtain ⟨leads, own⟩ := step_kept first purpose
    obtain ⟨run, all⟩ := ih others (purpose.upTo token)
    exact ⟨by rw [Place.follow_cons, leads]; exact run, by simpa [own] using all⟩
  | @dropped shape tokens nodes token _ ih =>
    obtain ⟨⟨next, deep⟩, first, others⟩ := Option.bind_eq_some_iff.mp turns
    obtain ⟨run, all⟩ := ih others purpose
    exact ⟨by rw [Place.follow_cons, step_dropped first purpose]; exact run, all⟩
  | gap => cases behind <;> cases turns
  | @rule rule inner shape front tokens below nodes listed _ _ inside ih =>
    obtain ⟨⟨next, deep⟩, first, others⟩ := Option.bind_eq_some_iff.mp turns
    obtain ⟨run, all⟩ := inside (turn_shape first listed) purpose
    obtain ⟨runs, alls⟩ := ih others (purpose.through (tokensOf below))
    refine ⟨?_, ?_⟩
    · rw [Place.follow_append, run, tokensOf_append, Rule.tokensOf_build, Purpose.through_append]
      exact runs
    · rw [tokensOf_append, Rule.tokensOf_build]
      exact fun token member => (List.mem_append.mp member).elim (all token) (alls token)

/-- A number for this purpose may begin at a place. -/
def Admits (place : Place) (purpose : Purpose) : Prop :=
  ∀ token : Token, token.terminal = .number ∨ token.terminal = .openParen ∨
    token.terminal = .unarySign → place.pass token = Place.intoNumber purpose 0 token

/-- Where a number leads from a place where it may begin. The tree is followed as a numeral, and its
first token leads from the place as it does from an operand. -/
theorem follow_number {place : Place} {purpose : Purpose} (admits : Admits place purpose)
    {tokens : List Token} {nodes : List Node} (derives : Derives [.rule .number] tokens nodes) :
    place.follow tokens = some (.operator (purpose.through (tokensOf nodes)) 0) ∧
      ∀ token ∈ tokensOf nodes, isNumeral token = true := by
  obtain ⟨run, all⟩ :=
    derives.numeral (show [Part.rule .number].foldlM turn (false, 0) = _ from rfl)
    purpose
  refine ⟨?_, all⟩
  cases tokens with
  | nil => cases run
  | cons token tokens =>
    have operand : (numeral false purpose 0).pass token = Place.intoNumber purpose 0 token := by
      obtain ⟨terminal, start, text⟩ := token
      cases terminal <;> rfl
    have begins : token.terminal = .number ∨ token.terminal = .openParen ∨
        token.terminal = .unarySign := by
      rw [Place.follow_cons, operand, Place.intoNumber] at run
      split at run
      · next sort => exact Or.inl sort
      · next sort => exact Or.inr (Or.inl sort)
      · next sort => exact Or.inr (Or.inr sort)
      · cases run
    rw [Place.follow_cons, operand] at run
    rw [Place.follow_cons, admits token begins]
    exact run

/-- Where an amount leads from a place where its number may begin, and what it keeps: the parts of
its number and its currency. -/
theorem follow_amount {place : Place} {purpose : Purpose} (admits : Admits place purpose)
    {tokens : List Token} {nodes : List Node} (derives : Derives [.rule .amount] tokens nodes) :
    ∃ parts numbers currency, nodes = [.tree .amount parts] ∧
      tokensOf parts = numbers ++ [currency] ∧ currency.terminal = .currency ∧
      (∀ token ∈ numbers, isNumeral token = true) ∧
      place.follow tokens = Place.afterNumber (purpose.through numbers) currency := by
  obtain ⟨parts, shaped, rfl⟩ := derives_only_iff.mp derives
  obtain ⟨front, below, rest, others, number, further, rfl, rfl⟩ :=
    derives_cons_iff.mp (derivesSome_singleton_iff.mp shaped)
  obtain ⟨currency, _, _, sort, rfl, rfl, last⟩ := derives_kept_iff.mp further
  obtain ⟨rfl, rfl⟩ := derives_nil_iff.mp last
  obtain ⟨run, all⟩ := follow_number admits number
  refine ⟨_, tokensOf below, currency, rfl, by simp, sort, all, ?_⟩
  have leads (purpose : Purpose) :
      (Place.operator purpose 0).pass currency = Place.afterNumber purpose currency := by
    obtain ⟨_, start, text⟩ := currency
    cases sort
    rfl
  rw [Place.follow_append, run, Option.bind_some, Place.follow_singleton, leads]

/-! ## Costs and prices -/

/-- An amount within a posting line moves the end of that line. -/
theorem follow_amount_within {place : Place} {purpose : PostingLine → Purpose}
    (within : Purpose.Within purpose) {line : PostingLine} (admits : Admits place (purpose line))
    {tokens : List Token} {nodes : List Node} (derives : Derives [.rule .amount] tokens nodes) :
    place.follow tokens = some (.afterAmount (purpose (line.through (tokensOf nodes)))) := by
  obtain ⟨parts, numbers, currency, rfl, kept, _, _, run⟩ := follow_amount admits derives
  have moved : (purpose (line.through numbers)).upTo currency =
      purpose (line.through (numbers ++ [currency])) := by
    rw [PostingLine.through_append]
    cases within <;> rfl
  rw [run, within.through, tokensOf_cons, tokensOf_nil, List.append_nil, Node.tokens_tree, kept,
    ← moved]
  cases within <;> rfl

/-- A number for this purpose may begin at a place where any number for it may. -/
theorem admits_operand (purpose : Purpose) : Admits (.operand purpose 0) purpose := by
  intro token _
  obtain ⟨terminal, start, text⟩ := token
  cases terminal <;> rfl

/-- A price behind an amount or a cost. Both marks lead to an operand of the price, and the amount
behind them is followed from there. -/
theorem follow_price {place : Place} {line : PostingLine}
    (prices : ∀ token : Token, token.terminal = .atMark ∨ token.terminal = .doubleAt →
      place.pass token = Place.intoPrice line token)
    {tokens : List Token} {nodes : List Node}
    (derives : Derives [.rule .postingPrice] tokens nodes) :
    (∃ node, nodes = [node] ∧ node.isThere = true) ∧ place.follow tokens =
      some (.afterAmount (.price ({ line with hasPrice := true }.through (tokensOf nodes)))) := by
  have marked {rule : Rule} {terminal : Terminal} (sort : terminal = .atMark ∨ terminal = .doubleAt)
      (shapes : rule.shapes = [[.dropped terminal, .rule .amount]])
      (build : ∀ parts, rule.build parts = [.tree rule parts])
      {below : List Node} (derives : Derives [.rule rule] tokens below) :
      (∃ node, below = [node] ∧ node.isThere = true) ∧ place.follow tokens =
        some (.afterAmount (.price ({ line with hasPrice := true }.through (tokensOf below)))) := by
    obtain ⟨parts, shaped, rfl⟩ := derives_only_iff.mp derives
    rw [shapes, derivesSome_singleton_iff] at shaped
    obtain ⟨token, rest, own, rfl, amount⟩ := derives_dropped_iff.mp shaped
    rw [build]
    refine ⟨⟨_, rfl, rfl⟩, ?_⟩
    have leads : place.pass token = some (.operand (.price { line with hasPrice := true }) 0) := by
      rw [prices token (own ▸ sort), Place.intoPrice, own]
      rcases sort with rfl | rfl <;> rfl
    rw [Place.follow_cons, leads, Option.bind_some,
      follow_amount_within .price (admits_operand _) amount]
    simp
  obtain ⟨parts, shaped, rfl⟩ := derives_only_iff.mp derives
  rcases derivesSome_cons_iff.mp shaped with unit | total
  · have found := marked (Or.inl rfl) rfl (fun _ => rfl) unit
    obtain ⟨⟨node, rfl, there⟩, run⟩ := found
    exact ⟨⟨node, rfl, there⟩, run⟩
  · have found := marked (Or.inr rfl) rfl (fun _ => rfl) (derivesSome_singleton_iff.mp total)
    obtain ⟨⟨node, rfl, there⟩, run⟩ := found
    exact ⟨⟨node, rfl, there⟩, run⟩

/-- Behind a part of a cost another part may follow, or the cost may end. -/
def Continues (place : Place) (line : PostingLine) : Prop :=
  ∀ token : Token, token.terminal = .comma ∨ token.terminal = .closeBrace →
    place.pass token = Place.afterCostPart line token

/-- A place where a part of a cost may stand. -/
inductive Opens : Place → PostingLine → (PostingLine → Purpose) → Prop where
  | first (line : PostingLine) : Opens (.firstCost line) line .firstCost
  | next (line : PostingLine) : Opens (.nextCost line) line .nextCost

/-- A part of a cost. A date, a quotation and a star are single tokens, and an amount is followed by
itself; each leads to where a comma may come. -/
theorem follow_costItem {place : Place} {line : PostingLine} {purpose : PostingLine → Purpose}
    (opens : Opens place line purpose) {tokens : List Token} {nodes : List Node}
    (derives : Derives [.rule .costItem] tokens nodes) :
    ∃ next, place.follow tokens = some next ∧ Continues next (line.through (tokensOf nodes)) := by
  obtain ⟨parts, shaped, rfl⟩ := derives_only_iff.mp derives
  rw [Rule.tokensOf_build]
  have single {terminal : Terminal} (sort : terminal = .date ∨ terminal = .quotedText ∨
      terminal = .asterisk) (kept : Derives [.kept terminal] tokens parts) :
      ∃ next, place.follow tokens = some next ∧ Continues next (line.through (tokensOf parts)) := by
    obtain ⟨⟨own, start, text⟩, _, _, rfl, rfl, rfl, last⟩ := derives_kept_iff.mp kept
    obtain ⟨rfl, rfl⟩ := derives_nil_iff.mp last
    refine ⟨.costComma (line.upTo ⟨own, start, text⟩), ?_, ?_⟩
    · rw [Place.follow_singleton]
      cases opens <;> rcases sort with same | same | same <;> cases same <;> rfl
    · rintro ⟨other, start, text⟩ (same | same) <;> cases same <;> rfl
  rcases derivesSome_cons_iff.mp shaped with amount | shaped
  · have admits : Admits place (purpose line) := by
      rintro ⟨own, start, text⟩ (same | same | same) <;> cases same <;> cases opens <;> rfl
    have within : Purpose.Within purpose := by
      cases opens
      · exact .firstCost
      · exact .nextCost
    refine ⟨_, follow_amount_within within admits amount, ?_⟩
    rintro ⟨other, start, text⟩ (same | same) <;> cases same <;> cases opens <;> rfl
  rcases derivesSome_cons_iff.mp shaped with date | shaped
  · exact single (Or.inl rfl) date
  rcases derivesSome_cons_iff.mp shaped with quoted | asterisk
  · exact single (Or.inr (Or.inl rfl)) quoted
  · exact single (Or.inr (Or.inr rfl)) (derivesSome_singleton_iff.mp asterisk)

/-- Further parts of a cost. The rule repeats an item behind a comma, so what is shown of one item
is carried through the repetition. -/
theorem follow_costItems {tokens : List Token} {nodes : List Node}
    (derives : Derives [.rule .costItems] tokens nodes) {place : Place} {line : PostingLine}
    (continues : Continues place line) :
    ∃ next, place.follow tokens = some next ∧ Continues next (line.through (tokensOf nodes)) := by
  have one {tokens : List Token} {nodes : List Node}
      (derives : Derives [.dropped .comma, .rule .costItem] tokens nodes)
      {place : Place} {line : PostingLine} (continues : Continues place line) :
      ∃ next, place.follow tokens = some next ∧
        Continues next (line.through (tokensOf nodes)) := by
    obtain ⟨comma, rest, own, rfl, item⟩ := derives_dropped_iff.mp derives
    have leads : place.pass comma = some (.nextCost line) := by
      rw [continues comma (Or.inl own), Place.afterCostPart, own]
    obtain ⟨next, run, further⟩ := follow_costItem (.next line) item
    exact ⟨next, by rw [Place.follow_cons, leads, Option.bind_some, run], further⟩
  refine derives.repeated (fun tokens nodes => ∀ place line, Continues place line → ∃ next,
    place.follow tokens = some next ∧ Continues next (line.through (tokensOf nodes))) rfl rfl
    (fun item place line => one item) (fun former item place line continues => ?_) place line
    continues
  obtain ⟨middle, run, further⟩ := former place line continues
  obtain ⟨next, runs, beyond⟩ := one item further
  refine ⟨next, by rw [Place.follow_append, run, Option.bind_some, runs], ?_⟩
  rwa [tokensOf_append, PostingLine.through_append]

section Cost

variable {line : PostingLine} {tokens : List Token} {parts : List Node}

/-- A cost in double braces. -/
theorem follow_totalCost (derives : Derives
      [.dropped .doubleOpenBrace, .rule .amount, .dropped .doubleCloseBrace] tokens parts) :
    (Place.afterAmount (.posting line)).follow tokens =
      some (.price ({ line with hasCost := true }.through (tokensOf parts))) := by
  obtain ⟨⟨_, start, text⟩, rest, rfl, rfl, further⟩ := derives_dropped_iff.mp derives
  obtain ⟨front, below, back, others, amount, last, rfl, rfl⟩ := derives_cons_iff.mp further
  obtain ⟨⟨_, other, closing⟩, _, rfl, rfl, ended⟩ := derives_dropped_iff.mp last
  obtain ⟨rfl, rfl⟩ := derives_nil_iff.mp ended
  have run := follow_amount_within .totalCost
    (admits_operand (.totalCost { line with hasCost := true })) amount
  rw [Place.follow_cons]
  change (Place.operand (.totalCost { line with hasCost := true }) 0).follow _ = _
  rw [Place.follow_append, run, List.append_nil, Option.bind_some, Place.follow_singleton]
  rfl

/-- A cost with a number for one and an amount for all. The tokens of the shape are taken one after
another, with the number and the amount followed in between. -/
theorem follow_bothCost (derives : Derives [.dropped .openBrace, .rule .number, .dropped .hash,
      .rule .amount, .dropped .closeBrace] tokens parts) :
    (Place.afterAmount (.posting line)).follow tokens =
      some (.price ({ line with hasCost := true }.through (tokensOf parts))) := by
  obtain ⟨⟨_, start, text⟩, rest, rfl, rfl, opened⟩ := derives_dropped_iff.mp derives
  obtain ⟨front, below, back, others, number, further, rfl, rfl⟩ := derives_cons_iff.mp opened
  obtain ⟨⟨_, middle, hash⟩, _, rfl, rfl, behind⟩ := derives_dropped_iff.mp further
  obtain ⟨inner, nodes, _, _, amount, last, rfl, rfl⟩ := derives_cons_iff.mp behind
  obtain ⟨⟨_, other, closing⟩, _, rfl, rfl, ended⟩ := derives_dropped_iff.mp last
  obtain ⟨rfl, rfl⟩ := derives_nil_iff.mp ended
  have admits : Admits (.firstCost { line with hasCost := true })
      (.firstCost { line with hasCost := true }) := by
    rintro ⟨_, start, text⟩ (same | same | same) <;> cases same <;> rfl
  obtain ⟨run, _⟩ := follow_number admits number
  rw [Purpose.Within.firstCost.through] at run
  have runs := follow_amount_within .restCost (admits_operand
    (.restCost ({ line with hasCost := true }.through (tokensOf below)))) amount
  rw [Place.follow_cons]
  change (Place.firstCost { line with hasCost := true }).follow _ = _
  rw [Place.follow_append, run, Option.bind_some, Place.follow_cons]
  change (Place.operand _ 0).follow _ = _
  rw [Place.follow_append, runs, List.append_nil, Option.bind_some, Place.follow_singleton,
    tokensOf_append, PostingLine.through_append]
  rfl

/-- A cost in braces with any number of parts. Empty braces, one part and several parts all end at
the brace that closes them. -/
theorem follow_costSpec (derives : DerivesSome Rule.costSpec.shapes tokens parts) :
    (Place.afterAmount (.posting line)).follow tokens =
      some (.price ({ line with hasCost := true }.through (tokensOf parts))) := by
  have closes {place : Place} {line : PostingLine} (continues : Continues place line)
      {token : Token} (own : token.terminal = .closeBrace) :
      place.pass token = some (.price line) := by
    rw [continues token (Or.inr own), Place.afterCostPart, own]
  have opened {shape : List Part} (derives : Derives (.dropped .openBrace :: shape) tokens parts) :
      ∃ rest, Derives shape rest parts ∧ (Place.afterAmount (.posting line)).follow tokens =
        (Place.firstCost { line with hasCost := true }).follow rest := by
    obtain ⟨⟨_, start, text⟩, rest, rfl, rfl, further⟩ := derives_dropped_iff.mp derives
    exact ⟨rest, further, rfl⟩
  rcases derivesSome_cons_iff.mp derives with several | derives
  · obtain ⟨rest, further, run⟩ := opened several
    obtain ⟨front, below, back, others, item, behind, rfl, rfl⟩ := derives_cons_iff.mp further
    obtain ⟨inner, nodes, _, _, items, last, rfl, rfl⟩ := derives_cons_iff.mp behind
    obtain ⟨closing, _, own, rfl, ended⟩ := derives_dropped_iff.mp last
    obtain ⟨rfl, rfl⟩ := derives_nil_iff.mp ended
    obtain ⟨middle, first, continues⟩ := follow_costItem (.first _) item
    obtain ⟨next, second, continues⟩ := follow_costItems items continues
    rw [run, Place.follow_append, first, Option.bind_some, Place.follow_append, second,
      Option.bind_some, Place.follow_singleton, closes continues own, List.append_nil,
      tokensOf_append, PostingLine.through_append]
  rcases derivesSome_cons_iff.mp derives with one | none
  · obtain ⟨rest, further, run⟩ := opened one
    obtain ⟨front, below, back, others, item, last, rfl, rfl⟩ := derives_cons_iff.mp further
    obtain ⟨closing, _, own, rfl, ended⟩ := derives_dropped_iff.mp last
    obtain ⟨rfl, rfl⟩ := derives_nil_iff.mp ended
    obtain ⟨middle, first, continues⟩ := follow_costItem (.first _) item
    rw [run, Place.follow_append, first, Option.bind_some, Place.follow_singleton,
      closes continues own, List.append_nil]
  · obtain ⟨rest, further, run⟩ := opened (derivesSome_singleton_iff.mp none)
    obtain ⟨_, rfl, last⟩ := derives_gap_iff.mp further
    obtain ⟨⟨_, other, closing⟩, _, rfl, rfl, ended⟩ := derives_dropped_iff.mp last
    obtain ⟨rfl, rfl⟩ := derives_nil_iff.mp ended
    rw [run, Place.follow_singleton]
    rfl

/-- A cost behind an amount. -/
theorem follow_cost (line : PostingLine) {nodes : List Node}
    (derives : Derives [.rule .cost] tokens nodes) :
    (∃ node, nodes = [node] ∧ node.isThere = true) ∧
      (Place.afterAmount (.posting line)).follow tokens =
        some (.price ({ line with hasCost := true }.through (tokensOf nodes))) := by
  obtain ⟨parts, shaped, rfl⟩ := derives_only_iff.mp derives
  rcases derivesSome_cons_iff.mp shaped with total | shaped
  · obtain ⟨inner, within, rfl⟩ := derives_only_iff.mp total
    exact ⟨⟨_, rfl, rfl⟩, by
      simpa using follow_totalCost (derivesSome_singleton_iff.mp within)⟩
  rcases derivesSome_cons_iff.mp shaped with both | spec
  · obtain ⟨inner, within, rfl⟩ := derives_only_iff.mp both
    exact ⟨⟨_, rfl, rfl⟩, by
      simpa using follow_bothCost (derivesSome_singleton_iff.mp within)⟩
  · obtain ⟨inner, within, rfl⟩ := derives_only_iff.mp (derivesSome_singleton_iff.mp spec)
    exact ⟨⟨_, rfl, rfl⟩, by simpa using follow_costSpec within⟩

end Cost

end Grammar

end Daybook
