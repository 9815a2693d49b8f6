import Daybook.Lexeme.Expected

/-!
# The grammar of ledger files

Reading goes from place to place and never builds a tree. This module states the grammar that it
follows: the rules, the trees that they produce of a sequence of tokens, and what these trees leave
out. Brackets and most keywords are not kept in a tree, an optional part that is missing leaves a
gap in its place, some rules only stand for their parts, and some give way to their only part.
-/
namespace Daybook.Grammar

/-- The rules of the grammar. -/
inductive Rule where
  | start
  | emptyLines
  | fullLines
  | lineEnds
  | statement
  | directive
  | dated
  | undated
  | posting
  | metadata
  | opening
  | closing
  | balance
  | event
  | commodity
  | document
  | note
  | pad
  | price
  | custom
  | transaction
  | option
  | inclusion
  | plugin
  | detailedPosting
  | simplePosting
  | amount
  | tolerance
  | number
  | sum
  | addends
  | product
  | factors
  | operand
  | cost
  | totalCost
  | bothCost
  | costSpec
  | costItem
  | costItems
  | postingPrice
  | unitPrice
  | totalPrice
  | currencies
  | moreCurrencies
  | marks
  | markList
  | mark
  | argument
  | argumentList
  | metadataValue
  deriving DecidableEq, Repr

/-- A part of what a rule stands for. -/
inductive Part where
  /-- A token that the tree keeps. -/
  | kept (terminal : Terminal)
  /-- A token that the tree leaves out. -/
  | dropped (terminal : Terminal)
  /-- An optional part that is missing. -/
  | gap
  | rule (rule : Rule)
  deriving DecidableEq, Repr

/-- A part that may be missing. -/
def Part.orGap (part : Part) : List (List Part) := [[part], [.gap]]

/-- All that several sections make that come in several shapes each. -/
def sections : List (List (List Part)) → List (List Part)
  | [] => [[]]
  | first :: others => first.flatMap fun shape => (sections others).map (shape ++ ·)

namespace Rule

open Terminal Grammar.Part

/-- What a rule stands for: one of several sequences of parts. -/
def shapes : Rule → List (List Part)
  | start =>
    sections [[[rule emptyLines], []], [[rule fullLines], []], (rule statement).orGap]
  | emptyLines => [[dropped emptyLine], [rule emptyLines, dropped emptyLine]]
  | fullLines =>
    [[rule statement, rule lineEnds], [rule fullLines, rule statement, rule lineEnds]]
  | lineEnds => [[dropped newline], [rule lineEnds, dropped newline]]
  | statement =>
    sections [[[rule directive]], (kept comment).orGap] ++ [[kept comment], [kept sectionHeader]]
  | directive => [[rule dated], [rule undated], [rule posting], [rule metadata]]
  | dated =>
    [[rule opening], [rule closing], [rule balance], [rule event], [rule commodity],
      [rule document], [rule note], [rule pad], [rule price], [rule custom], [rule transaction]]
  | undated => [[rule option], [rule inclusion], [rule plugin]]
  | posting => [[rule detailedPosting], [rule simplePosting]]
  | metadata => [[kept metadataKey, dropped colon, rule metadataValue]]
  | opening =>
    sections [[[kept date, dropped openWord, kept account]], (rule currencies).orGap,
      (kept quotedText).orGap]
  | closing => [[kept date, dropped closeWord, kept account]]
  | balance =>
    [[kept date, dropped balanceWord, kept account, rule amount],
      [kept date, dropped balanceWord, kept account, rule tolerance]]
  | event => [[kept date, dropped eventWord, kept quotedText, kept quotedText]]
  | commodity => [[kept date, dropped commodityWord, kept currency]]
  | document => [[kept date, dropped documentWord, kept account, kept quotedText]]
  | note => [[kept date, dropped noteWord, kept account, kept quotedText]]
  | pad => [[kept date, dropped padWord, kept account, kept account]]
  | price => [[kept date, dropped priceWord, kept currency, rule amount]]
  | custom => [[kept date, dropped customWord, rule argumentList]]
  | transaction =>
    sections [[[kept date]], [[kept txnWord], [kept flag], [gap]],
      [[kept quotedText, kept quotedText], [gap, kept quotedText], [gap, gap]],
      (rule marks).orGap]
  | option => [[dropped optionWord, kept quotedText, kept quotedText]]
  | inclusion => [[dropped includeWord, kept quotedText]]
  | plugin => sections [[[dropped pluginWord, kept quotedText]], (kept quotedText).orGap]
  | detailedPosting =>
    sections [(kept flag).orGap, [[kept account]], [[rule amount]], (rule cost).orGap,
      (rule postingPrice).orGap]
  | simplePosting => sections [(kept flag).orGap, [[kept account]]]
  | amount => [[rule number, kept currency]]
  | tolerance => [[rule number, dropped tilde, rule number, kept currency]]
  | number => [[rule sum]]
  | sum => [[rule product, rule addends], [rule product]]
  | addends => [[kept addSign, rule product], [rule addends, kept addSign, rule product]]
  | product => [[rule operand, rule factors], [rule operand]]
  | factors =>
    [[kept multiplySign, rule operand], [rule factors, kept multiplySign, rule operand]]
  | operand =>
    [[kept Terminal.number], [dropped openParen, rule sum, dropped closeParen],
      [kept unarySign, rule operand]]
  | cost => [[rule totalCost], [rule bothCost], [rule costSpec]]
  | totalCost => [[dropped doubleOpenBrace, rule amount, dropped doubleCloseBrace]]
  | bothCost => [[dropped openBrace, rule number, dropped hash, rule amount, dropped closeBrace]]
  | costSpec =>
    [[dropped openBrace, rule costItem, rule costItems, dropped closeBrace],
      [dropped openBrace, rule costItem, dropped closeBrace],
      [dropped openBrace, gap, dropped closeBrace]]
  | costItem => [[rule amount], [kept date], [kept quotedText], [kept asterisk]]
  | costItems => [[dropped comma, rule costItem], [rule costItems, dropped comma, rule costItem]]
  | postingPrice => [[rule unitPrice], [rule totalPrice]]
  | unitPrice => [[dropped atMark, rule amount]]
  | totalPrice => [[dropped doubleAt, rule amount]]
  | currencies => [[kept currency, rule moreCurrencies], [kept currency]]
  | moreCurrencies =>
    [[dropped comma, kept currency], [rule moreCurrencies, dropped comma, kept currency]]
  | marks => [[rule markList]]
  | markList => [[rule mark], [rule markList, rule mark]]
  | mark => [[kept tag], [kept link]]
  | argument =>
    [[kept date], [kept account], [kept quotedText], [rule number], [kept currency],
      [kept boolean]]
  | argumentList => [[rule argument], [rule argumentList, rule argument]]
  | metadataValue =>
    [[kept quotedText], [kept account], [kept currency], [kept date], [rule number], [kept tags],
      [rule amount]]

/-- The rules that only stand for their parts. -/
def isInlined : Rule → Bool
  | emptyLines | fullLines | lineEnds | addends | factors | costItems | moreCurrencies | markList
  | argumentList => true
  | _ => false

/-- The rules that give way to their only part. -/
def isFolded : Rule → Bool
  | directive | sum | product | operand | cost | postingPrice | mark | argument
  | metadataValue => true
  | _ => false

end Rule

/-- A tree, or what stands in its place. -/
inductive Node where
  | token (token : Token)
  | tree (rule : Rule) (parts : List Node)
  /-- An optional part that is missing. -/
  | gap
  deriving Repr

/-- What stands in the place of an optional token. -/
def Node.ofOption : Option Token → Node
  | some found => .token found
  | none => .gap

mutual

/-- The tokens of a tree in their order. -/
def Node.tokens : Node → List Token
  | .token token => [token]
  | .tree _ parts => tokensOf parts
  | .gap => []

/-- The tokens of several trees in their order. -/
def tokensOf : List Node → List Token
  | [] => []
  | node :: nodes => node.tokens ++ tokensOf nodes

end

/-- Without nodes there are no tokens. -/
@[simp] theorem tokensOf_nil : tokensOf [] = [] := rfl

/-- The tokens of several nodes are those of the first and then those of the others. -/
@[simp] theorem tokensOf_cons (node : Node) (nodes : List Node) :
    tokensOf (node :: nodes) = node.tokens ++ tokensOf nodes := rfl

/-- Nodes one after the other have their tokens one after the other. -/
@[simp] theorem tokensOf_append (front back : List Node) :
    tokensOf (front ++ back) = tokensOf front ++ tokensOf back := by
  induction front with
  | nil => rfl
  | cons node front ih => simp [ih]

/-- A leaf has its token. -/
@[simp] theorem Node.tokens_token (token : Token) : (Node.token token).tokens = [token] := rfl

/-- A tree has the tokens of its parts; the rule adds none. -/
@[simp] theorem Node.tokens_tree (rule : Rule) (parts : List Node) :
    (Node.tree rule parts).tokens = tokensOf parts := rfl

/-- A missing part has no tokens. -/
@[simp] theorem Node.tokens_gap : Node.gap.tokens = [] := rfl

/-- An optional leaf has its token if it is there. -/
@[simp] theorem Node.tokens_ofOption (token : Option Token) :
    (Node.ofOption token).tokens = token.toList := by
  cases token <;> rfl

/-- Leaves alone have the tokens that they were made of. -/
@[simp] theorem tokensOf_map_token (tokens : List Token) :
    tokensOf (tokens.map Node.token) = tokens := by
  induction tokens with
  | nil => rfl
  | cons token tokens ih => simp [ih]

/-- What a rule makes of the trees of its parts. -/
def Rule.build (rule : Rule) (parts : List Node) : List Node :=
  if rule.isInlined then parts
  else match rule.isFolded, parts with
    | true, [only] => [only]
    | _, _ => [.tree rule parts]

/-- A rule that is left out of the tree puts its parts in its place. -/
theorem Rule.build_of_isInlined {rule : Rule} (inlined : rule.isInlined = true)
    (parts : List Node) :
    rule.build parts = parts := if_pos inlined

/-- No token that is kept is lost when a tree is built. -/
@[simp] theorem Rule.tokensOf_build (rule : Rule) (parts : List Node) :
    tokensOf (rule.build parts) = tokensOf parts := by
  unfold build
  split
  · rfl
  · split <;> simp

/-- The trees that the grammar produces for a sequence of parts when it is written in these
tokens. -/
inductive Derives : List Part → List Token → List Node → Prop where
  | nil : Derives [] [] []
  | kept {shape : List Part} {tokens : List Token} {nodes : List Node} (token : Token)
      (further : Derives shape tokens nodes) :
      Derives (.kept token.terminal :: shape) (token :: tokens) (.token token :: nodes)
  | dropped {shape : List Part} {tokens : List Token} {nodes : List Node} (token : Token)
      (further : Derives shape tokens nodes) :
      Derives (.dropped token.terminal :: shape) (token :: tokens) nodes
  | gap {shape : List Part} {tokens : List Token} {nodes : List Node}
      (further : Derives shape tokens nodes) : Derives (.gap :: shape) tokens (.gap :: nodes)
  | rule {rule : Rule} {inner shape : List Part} {front tokens : List Token}
      {below nodes : List Node} (listed : inner ∈ rule.shapes) (within : Derives inner front below)
      (further : Derives shape tokens nodes) :
      Derives (.rule rule :: shape) (front ++ tokens) (rule.build below ++ nodes)

/-- One of several shapes is written in these tokens. -/
def DerivesSome (shapes : List (List Part)) (tokens : List Token) (nodes : List Node) : Prop :=
  ∃ shape ∈ shapes, Derives shape tokens nodes

section Inversion

variable {shape more : List Part} {tokens : List Token} {nodes : List Node} {terminal : Terminal}
  {rule : Rule}

/-- Without parts nothing is derived. With the four equivalences below a derivation is taken apart
at its first part, whatever that is; later proofs use these and never the constructors. -/
@[simp] theorem derives_nil_iff : Derives [] tokens nodes ↔ tokens = [] ∧ nodes = [] := by
  constructor
  · intro derives
    cases derives
    exact ⟨rfl, rfl⟩
  · rintro ⟨rfl, rfl⟩
    exact .nil

/-- A token that is kept is the first token, and a leaf of the tree. -/
theorem derives_kept_iff : Derives (.kept terminal :: shape) tokens nodes ↔
    ∃ token rest others, token.terminal = terminal ∧ tokens = token :: rest ∧
      nodes = .token token :: others ∧ Derives shape rest others := by
  constructor
  · intro derives
    cases derives with
    | kept token further => exact ⟨token, _, _, rfl, rfl, rfl, further⟩
  · rintro ⟨token, rest, others, rfl, rfl, rfl, further⟩
    exact .kept token further

/-- A token alone. -/
theorem derives_token_iff : Derives [.kept terminal] tokens nodes ↔
    ∃ token, token.terminal = terminal ∧ tokens = [token] ∧ nodes = [.token token] := by
  constructor
  · intro derives
    obtain ⟨token, _, _, own, rfl, rfl, last⟩ := derives_kept_iff.mp derives
    obtain ⟨rfl, rfl⟩ := derives_nil_iff.mp last
    exact ⟨token, own, rfl, rfl⟩
  · rintro ⟨token, rfl, rfl, rfl⟩
    exact .kept token .nil

/-- A token that is left out is the first token, and no part of the tree. -/
theorem derives_dropped_iff : Derives (.dropped terminal :: shape) tokens nodes ↔
    ∃ token rest, token.terminal = terminal ∧ tokens = token :: rest ∧
      Derives shape rest nodes := by
  constructor
  · intro derives
    cases derives with
    | dropped token further => exact ⟨token, _, rfl, rfl, further⟩
  · rintro ⟨token, rest, rfl, rfl, further⟩
    exact .dropped token further

/-- A part that is missing takes no token, and leaves a gap in the tree. -/
theorem derives_gap_iff : Derives (.gap :: shape) tokens nodes ↔
    ∃ others, nodes = .gap :: others ∧ Derives shape tokens others := by
  constructor
  · intro derives
    cases derives with
    | gap further => exact ⟨_, rfl, further⟩
  · rintro ⟨others, rfl, further⟩
    exact .gap further

/-- A rule derives what one of its shapes does, from the tokens in front. -/
theorem derives_rule_iff : Derives (.rule rule :: shape) tokens nodes ↔
    ∃ inner ∈ rule.shapes, ∃ front below rest others, Derives inner front below ∧
      Derives shape rest others ∧ tokens = front ++ rest ∧ nodes = rule.build below ++ others := by
  constructor
  · intro derives
    cases derives with
    | rule listed within further => exact ⟨_, listed, _, _, _, _, within, further, rfl, rfl⟩
  · rintro ⟨inner, listed, front, below, rest, others, within, further, rfl, rfl⟩
    exact .rule listed within further

/-- A rule alone. -/
theorem derives_only_iff : Derives [.rule rule] tokens nodes ↔
    ∃ below, DerivesSome rule.shapes tokens below ∧ nodes = rule.build below := by
  constructor
  · intro derives
    obtain ⟨inner, listed, front, below, _, _, within, further, rfl, rfl⟩ :=
      derives_rule_iff.mp derives
    obtain ⟨rfl, rfl⟩ := derives_nil_iff.mp further
    rw [List.append_nil, List.append_nil]
    exact ⟨below, ⟨inner, listed, within⟩, rfl⟩
  · rintro ⟨below, ⟨inner, listed, within⟩, rfl⟩
    have derives := Derives.rule listed within .nil
    rwa [List.append_nil, List.append_nil] at derives

/-- A rule before other parts. -/
theorem derives_cons_iff : Derives (.rule rule :: shape) tokens nodes ↔
    ∃ front below rest others, Derives [.rule rule] front below ∧ Derives shape rest others ∧
      tokens = front ++ rest ∧ nodes = below ++ others := by
  constructor
  · intro derives
    obtain ⟨inner, listed, front, below, rest, others, within, further, whole, built⟩ :=
      derives_rule_iff.mp derives
    exact ⟨front, _, rest, others, derives_only_iff.mpr ⟨below, ⟨inner, listed, within⟩, rfl⟩,
      further, whole, built⟩
  · rintro ⟨front, _, rest, others, derives, further, rfl, rfl⟩
    obtain ⟨below, ⟨inner, listed, within⟩, rfl⟩ := derives_only_iff.mp derives
    exact .rule listed within further

/-- Parts one after the other. -/
theorem Derives.append {back : List Token} {others : List Node}
    (derives : Derives shape tokens nodes) (further : Derives more back others) :
    Derives (shape ++ more) (tokens ++ back) (nodes ++ others) := by
  induction derives with
  | nil => exact further
  | kept token _ ih => exact .kept token ih
  | dropped token _ ih => exact .dropped token ih
  | gap _ ih => exact .gap ih
  | rule listed within _ _ ih =>
    rw [List.cons_append, List.append_assoc, List.append_assoc]
    exact .rule listed within ih

/-- Parts one after the other derive tokens one after the other, with their trees one after the
other. The cut between the tokens is not determined by the parts, and so it is existential. -/
theorem derives_append_iff : Derives (shape ++ more) tokens nodes ↔ ∃ front below back others,
    Derives shape front below ∧ Derives more back others ∧ tokens = front ++ back ∧
      nodes = below ++ others := by
  constructor
  · intro derives
    induction shape generalizing tokens nodes with
    | nil => exact ⟨[], [], tokens, nodes, .nil, derives, rfl, rfl⟩
    | cons part shape ih =>
      rw [List.cons_append] at derives
      cases derives with
      | kept token further =>
        obtain ⟨front, below, back, others, first, last, rfl, rfl⟩ := ih further
        exact ⟨_, _, _, _, .kept token first, last, rfl, rfl⟩
      | dropped token further =>
        obtain ⟨front, below, back, others, first, last, rfl, rfl⟩ := ih further
        exact ⟨_, _, _, _, .dropped token first, last, rfl, rfl⟩
      | gap further =>
        obtain ⟨front, below, back, others, first, last, rfl, rfl⟩ := ih further
        exact ⟨_, _, _, _, .gap first, last, rfl, rfl⟩
      | rule listed within further =>
        obtain ⟨front, below, back, others, first, last, rfl, rfl⟩ := ih further
        exact ⟨_, _, _, _, .rule listed within first, last, by simp, by simp⟩
  · rintro ⟨front, below, back, others, first, last, rfl, rfl⟩
    exact first.append last

/-- One sequence alone is the one that derives. -/
theorem derivesSome_singleton_iff :
    DerivesSome [shape] tokens nodes ↔ Derives shape tokens nodes := by
  simp [DerivesSome]

/-- Several sequences derive what the first one or one of the others does. -/
theorem derivesSome_cons_iff {shapes : List (List Part)} :
    DerivesSome (shape :: shapes) tokens nodes ↔
    Derives shape tokens nodes ∨ DerivesSome shapes tokens nodes := by
  simp [DerivesSome]

/-- Sequences put together derive what one of the first or one of the others does. -/
theorem derivesSome_append_iff {shapes others : List (List Part)} :
    DerivesSome (shapes ++ others) tokens nodes ↔
      DerivesSome shapes tokens nodes ∨ DerivesSome others tokens nodes := by
  simp [DerivesSome, or_and_right, exists_or]

/-- An optional part is there, or a gap is left for it and no token taken. -/
theorem derivesSome_orGap_iff {part : Part} : DerivesSome part.orGap tokens nodes ↔
    Derives [part] tokens nodes ∨ tokens = [] ∧ nodes = [.gap] := by
  simp [DerivesSome, Part.orGap, derives_gap_iff, and_comm]

/-- A token that may be missing. -/
theorem derivesSome_optional_iff : DerivesSome (Part.kept terminal).orGap tokens nodes ↔
    ∃ token : Option Token, (∀ own ∈ token, own.terminal = terminal) ∧ tokens = token.toList ∧
      nodes = [.ofOption token] := by
  rw [derivesSome_orGap_iff, derives_token_iff]
  constructor
  · rintro (⟨token, own, rfl, rfl⟩ | ⟨rfl, rfl⟩)
    · exact ⟨some token, by simpa using own, rfl, rfl⟩
    · exact ⟨none, by simp, rfl, rfl⟩
  · rintro ⟨token, own, rfl, rfl⟩
    cases token with
    | none => exact Or.inr ⟨rfl, rfl⟩
    | some token => exact Or.inl ⟨token, own token rfl, rfl, rfl⟩

/-- Without sections nothing is derived. -/
theorem derivesSome_sections_nil_iff :
    DerivesSome (sections []) tokens nodes ↔ tokens = [] ∧ nodes = [] := by
  simp [DerivesSome, sections]

/-- A section in one of its shapes and then the others. -/
theorem derivesSome_sections_iff {first : List (List Part)} {others : List (List (List Part))} :
    DerivesSome (sections (first :: others)) tokens nodes ↔ ∃ front below back further,
      DerivesSome first front below ∧ DerivesSome (sections others) back further ∧
        tokens = front ++ back ∧ nodes = below ++ further := by
  simp only [DerivesSome, sections, List.mem_flatMap, List.mem_map]
  constructor
  · rintro ⟨_, ⟨shape, listed, more, alsoListed, rfl⟩, derives⟩
    obtain ⟨front, below, back, further, first, last, whole, built⟩ := derives_append_iff.mp derives
    exact ⟨front, below, back, further, ⟨shape, listed, first⟩, ⟨more, alsoListed, last⟩, whole,
      built⟩
  · rintro ⟨front, below, back, further, ⟨shape, listed, first⟩, ⟨more, alsoListed, last⟩, rfl, rfl⟩
    exact ⟨shape ++ more, ⟨shape, listed, more, alsoListed, rfl⟩, first.append last⟩

/-- What holds of each of the repetitions that a rule stands for, one after the other, holds of the
rule. Such a rule is its own first part, and so the induction is on the whole tree. -/
theorem Derives.repeated {body : List Part} (meant : List Token → List Node → Prop)
    (shapes : rule.shapes = [body, .rule rule :: body]) (inlined : rule.isInlined = true)
    (base : ∀ {tokens nodes}, Derives body tokens nodes → meant tokens nodes)
    (step : ∀ {tokens nodes more others}, meant tokens nodes → Derives body more others →
      meant (tokens ++ more) (nodes ++ others))
    (derives : Derives [.rule rule] tokens nodes) : meant tokens nodes := by
  have general : ∀ {shape tokens nodes}, Derives shape tokens nodes → ∀ rest,
      shape = .rule rule :: rest → ∃ front below back others, tokens = front ++ back ∧
        nodes = below ++ others ∧ meant front below ∧ Derives rest back others := by
    intro shape tokens nodes derives
    induction derives with
    | nil => rintro rest ⟨⟩
    | kept => rintro rest ⟨⟩
    | dropped => rintro rest ⟨⟩
    | gap => rintro rest ⟨⟩
    | @rule _ inner _ front _ below _ listed within further inside _ =>
      rintro rest ⟨⟩
      refine ⟨front, _, _, _, rfl, rfl, ?_, further⟩
      rw [Rule.build_of_isInlined inlined]
      rw [shapes] at listed
      rcases List.mem_cons.mp listed with rfl | listed
      · exact base within
      · obtain rfl := List.mem_singleton.mp listed
        obtain ⟨first, nodes, last, others, rfl, rfl, held, derives⟩ := inside _ rfl
        exact step held derives
  obtain ⟨front, below, back, others, rfl, rfl, held, last⟩ := general derives [] rfl
  obtain ⟨rfl, rfl⟩ := derives_nil_iff.mp last
  rwa [List.append_nil, List.append_nil]

/-- A tree keeps tokens of the text in their order. -/
theorem Derives.sublist (derives : Derives shape tokens nodes) :
    (tokensOf nodes).Sublist tokens := by
  induction derives with
  | nil => exact .slnil
  | kept token _ ih => exact ih.cons_cons token
  | dropped token _ ih => exact ih.cons token
  | gap _ ih => exact ih
  | rule _ _ _ within further =>
    rw [tokensOf_append, Rule.tokensOf_build]
    exact within.append further

end Inversion

end Daybook.Grammar
