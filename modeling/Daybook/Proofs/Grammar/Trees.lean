import Daybook.Directive.Collecting
import Daybook.Proofs.Grammar.Rules

/-!
# Collecting from trees

Directives can also be collected from the tree of a text, with a memory of what has been seen and
without a check that a part is there before it is used. Here every such step is one that can fail,
and `Fault` says how: no first part, no token of a sort, not five parts, no furthest of no ends, no
offset of a position behind the text.
-/
namespace Daybook

/-- Moves the end of a directive. -/
def Directive.upTo (stop : Int) : Directive → Directive
  | .transaction entry => .transaction { entry with span := { entry.span with stop } }
  | .opening date account currencies dateSpan span =>
    .opening date account currencies dateSpan { span with stop }
  | .closing date account dateSpan span => .closing date account dateSpan { span with stop }
  | .inclusion path span => .inclusion path { span with stop }

namespace Grammar

/-- How a step fails that nothing has been checked for. -/
inductive Fault where
  /-- The whole is no file, or a part of it is no statement. -/
  | misplaced
  /-- A tree is asked of what is none. -/
  | noTree
  /-- A token is asked of what is none. -/
  | noToken
  /-- There is no first part. -/
  | noPart
  /-- There are not five parts. -/
  | notFive
  /-- There are no ends to take the furthest of. -/
  | noEnd
  /-- A position lies behind the text. -/
  | noOffset
  /-- No directive has been collected that could be extended. -/
  | noEntry
  /-- A transaction has no flag. -/
  | flagless
  deriving DecidableEq, Repr

/-! ## Steps that can fail -/

/-- What there is, unless there is nothing. -/
def required {α : Type} (fault : Fault) : Option α → Except Fault α
  | some found => .ok found
  | none => .error fault

namespace Node

/-- The rule of a tree and its parts. -/
def asTree : Node → Except Fault (Rule × List Node)
  | .tree rule parts => .ok (rule, parts)
  | _ => .error .noTree

/-- The token that stands in the place of a tree. -/
def asToken : Node → Except Fault Token
  | .token found => .ok found
  | _ => .error .noToken

/-- The token of an optional part. -/
def asOptional : Node → Except Fault (Option Token)
  | .gap => .ok none
  | other => return some (← other.asToken)

end Node

mutual

/-- The parts of each tree of a rule within a tree. -/
def Node.find (sought : Rule) : Node → List (List Node)
  | .tree rule parts => (if rule = sought then [parts] else []) ++ findIn sought parts
  | _ => []

/-- The parts of each tree of a rule within several trees. -/
def findIn (sought : Rule) : List Node → List (List Node)
  | [] => []
  | node :: nodes => node.find sought ++ findIn sought nodes

end

/-- The first token of a sort. -/
def firstOf (terminal : Terminal) (tokens : List Token) : Option Token :=
  tokens.find? fun token => token.terminal = terminal

/-- The furthest of several ends. -/
def furthest {α : Type} [Max α] : List α → Except Fault α
  | [] => .error .noEnd
  | stop :: stops => .ok (stops.foldl max stop)

/-- The offset of a position. -/
def offset (source : Source) (position : Nat) : Except Fault Nat :=
  match source.offsets.table with
  | none => .ok position
  | some table => required .noOffset table[position]?

/-- The bytes between two positions. -/
def spanOf (source : Source) (start stop : Nat) : Except Fault Span := do
  return ⟨← offset source start, ← offset source stop⟩

/-- The bytes of a token. -/
def tokenSpanOf (source : Source) (token : Token) : Except Fault Span :=
  spanOf source token.start token.stop

/-! ## Postings -/

/-- An amount with its bytes and its end. -/
structure Amount where
  number : Text := []
  currency : Text := []
  span : Option Span := none
  stop : Nat

/-- The amount behind an account. -/
def amountOf (source : Source) (account : Token) : Node → Except Fault Amount
  | .gap => .ok { stop := account.stop }
  | other => do
    let (_, parts) ← other.asTree
    let tokens := tokensOf parts
    let currency := firstOf .currency tokens
    let stop ← furthest (tokens.map Token.stop)
    let numberStop := (currency.map Token.start).getD stop
    let number := Text.slice source.text account.stop numberStop
    let start := account.stop + (number.length - (Text.trimLeft number).length)
    return { number := Text.trim number
             currency := (currency.map Token.text).getD []
             span := some (← spanOf source start stop)
             stop }

/-- The comment of a statement, which stands behind its first part. -/
def commentOf (parts : List Node) : Option Token :=
  (parts.drop 1).findSome? fun
    | .token token => if token.terminal = .comment then some token else none
    | _ => none

/-- The amount, the cost and the price of a posting, as far as it has them. -/
def detailsOf (rule : Rule) (parts : List Node) : Except Fault (Node × Node × Node) :=
  if rule = .detailedPosting then
    match parts with
    | [_, _, amount, cost, price] => .ok (amount, cost, price)
    | _ => .error .notFive
  else .ok (.gap, .gap, .gap)

/-- An optional part is there. -/
def Node.isThere : Node → Bool
  | gap => false
  | _ => true

/-- The posting of a tree in a statement. -/
def postingOf (source : Source) (posting statement : List Node) : Except Fault PostingEntry := do
  let (rule, parts) ← (← required .noPart posting.head?).asTree
  let tokens := tokensOf parts
  let account ← required .noToken (firstOf .account tokens)
  let (amount, cost, price) ← detailsOf rule parts
  let rest := source.text.drop account.stop
  let lineStop := account.stop + Text.stretch (· ≠ '\n') rest
  let tailStop := ((commentOf statement).map Token.start).getD lineStop
  let amount ← amountOf source account amount
  let tail := Text.slice source.text amount.stop tailStop
  let priceStart := if price.isThere then priceStart? tail else none
  let costTail := match priceStart with
    | some start => tail.take start
    | none => tail
  let tokensStop ← furthest (tokens.map Token.stop)
  let whole := Text.slice source.text account.start tailStop
  let stop := max tokensStop (tailStop - (whole.length - (Text.trimRight whole).length))
  return { account := account.text
           amount := amount.number
           currency := amount.currency
           cost := if cost.isThere then nonempty? (Text.trim costTail) else none
           price := priceStart.map fun start => Text.trim (tail.drop start)
           accountSpan := ← tokenSpanOf source account
           amountSpan := amount.span
           span := ← spanOf source account.start stop }

/-! ## Statements -/

/-- A transaction whose postings are still to come. -/
structure Awaited where
  /-- The parts of its heading. -/
  parts : List Node
  postings : List PostingEntry := []
  /-- The ends of its lines. -/
  ends : List Int

/-- What has been collected. -/
structure Gathered where
  directives : List Directive := []
  warnings : List Diagnostic := []
  awaited : Option Awaited := none
  /-- A directive with a date is open. -/
  isDated : Bool := false
  /-- The place of the open opening or closing among the directives. -/
  entry : Option Nat := none
  /-- The paths that have been included. -/
  included : List Phrase := []

namespace Gathered

/-- One more directive. -/
def add (gathered : Gathered) (directive : Directive) : Gathered :=
  { gathered with directives := gathered.directives ++ [directive] }

/-- One more warning. -/
def warn (gathered : Gathered) (source : Source) (token : Token) (message : Text) : Gathered :=
  { gathered with warnings := gathered.warnings ++ [source.warn token message] }

end Gathered

/-- The tags among the tags and links of a transaction. -/
def tagsOf : Node → Except Fault (List Text)
  | .gap => .ok []
  | other => do
    let (_, parts) ← other.asTree
    return parts.filterMap fun
      | .token token => if token.terminal = .tag then some (token.text.drop 1) else none
      | _ => none

/-- The flag of a transaction. It is optional in the grammar, and it is used all the same. -/
def flagOf : Node → Except Fault Token
  | .gap => .error .flagless
  | other => other.asToken

/-- The transaction that is complete when nothing more can come. -/
def Awaited.transaction (source : Source) (awaited : Awaited) : Except Fault Directive :=
  match awaited.parts with
  | [date, flag, payee, narration, marks] => do
    let tags ← tagsOf marks
    let date ← date.asToken
    let dateSpan ← tokenSpanOf source date
    let flag ← flagOf flag
    let payee ← payee.asOptional
    let narration ← narration.asOptional
    return .transaction
      { date := date.text
        flag := flag.text
        payee := payee.map fun token => Text.Quoted.decode token.text
        narration := narration.map fun token => Text.Quoted.decode token.text
        tags
        postings := awaited.postings
        dateSpan
        flagSpan := ← tokenSpanOf source flag
        narrationSpan := ← narration.mapM (tokenSpanOf source)
        span := ⟨dateSpan.start, ← furthest awaited.ends⟩ }
  | _ => .error .notFive

namespace Gathered

variable (source : Source)

/-- Closes the transaction that is open. -/
def finish (gathered : Gathered) : Except Fault Gathered :=
  match gathered.awaited with
  | none => .ok gathered
  | some awaited => do
    let transaction ← awaited.transaction source
    return { gathered.add transaction with awaited := none }

/-- The end of a statement. -/
def stopOf (statement : List Node) : Except Fault Nat :=
  furthest ((tokensOf statement).map Token.stop)

/-- Takes up a directive with a date. -/
def takeDated (gathered : Gathered) (directive : Node) (statement : List Node) :
    Except Fault Gathered := do
  let (rule, parts) ← directive.asTree
  let tokens := tokensOf parts
  match rule with
  | .transaction =>
    let stop ← offset source (← stopOf statement)
    return { gathered with awaited := some { parts, ends := [stop] } }
  | .opening =>
    let date ← required .noToken (firstOf .date tokens)
    let account ← required .noToken (firstOf .account tokens)
    let currencies := tokens.filter fun token => token.terminal = .currency
    return { gathered.add (.opening date.text account.text (currencies.map Token.text)
               (← tokenSpanOf source date) (← spanOf source date.start (← stopOf statement)))
             with entry := some gathered.directives.length }
  | .closing =>
    let date ← required .noToken (firstOf .date tokens)
    let account ← required .noToken (firstOf .account tokens)
    return { gathered.add (.closing date.text account.text (← tokenSpanOf source date)
               (← spanOf source date.start (← stopOf statement)))
             with entry := some gathered.directives.length }
  | _ => return gathered

/-- Takes up a metadata line that ends at `stop`. -/
def takeMetadata (gathered : Gathered) (stop : Int) : Except Fault Gathered :=
  match gathered.awaited, gathered.entry with
  | some awaited, _ =>
    .ok { gathered with awaited := some { awaited with ends := awaited.ends ++ [stop] } }
  | none, some place => do
    let directive ← required .noEntry gathered.directives[place]?
    return { gathered with directives := gathered.directives.set place (directive.upTo stop) }
  | none, none => .ok gathered

/-- Takes up an inclusion. -/
def takeInclusion (gathered : Gathered) (parts : List Node) : Except Fault Gathered :=
  match firstOf .quotedText (tokensOf parts) with
  | none => .ok gathered
  | some token => do
    let path := Text.Quoted.decode token.text
    let gathered := if path ∈ gathered.included then
      gathered.warn source token ("Duplicate include of " ++ path.shown) else gathered
    return { gathered.add (.inclusion path (← tokenSpanOf source token)) with
             included := path :: gathered.included }

/-- Takes up a statement. -/
def takeStatement (gathered : Gathered) (child : Node) : Except Fault Gathered :=
  match child with
  | .gap => .ok gathered
  | .token _ => .error .noTree
  | .tree rule parts =>
    if rule ≠ .statement then .error .misplaced
    else do
      match ← required .noPart parts.head? with
      | .tree .dated below =>
        let gathered ← gathered.finish source
        let directive ← required .noPart below.head?
        takeDated source { gathered with isDated := true, entry := none } directive parts
      | .tree .posting below =>
        match gathered.awaited with
        | none =>
          let token ← required .noToken (tokensOf below).head?
          return gathered.warn source token "Posting outside of a transaction"
        | some awaited =>
          let posting ← postingOf source below parts
          return { gathered with awaited := some { awaited with
            postings := awaited.postings ++ [posting]
            ends := awaited.ends ++ [posting.span.stop] } }
      | .tree .metadata below =>
        if gathered.isDated then takeMetadata gathered (← offset source (← stopOf parts))
        else
          let key ← (← required .noPart below.head?).asToken
          return gathered.warn source key "Metadata outside of a directive"
      | .tree _ _ =>
        let gathered ← gathered.finish source
        (child.find .inclusion).foldlM (takeInclusion source)
          { gathered with isDated := false, entry := none }
      | _ => return gathered

/-- A directive with a date. -/
theorem takeStatement_dated (gathered : Gathered) (directive comment : Node) :
    gathered.takeStatement source (.tree .statement [.tree .dated [directive], comment]) =
      gathered.finish source >>= fun before =>
        takeDated source { before with isDated := true, entry := none } directive
          [.tree .dated [directive], comment] := rfl

/-- A directive without a date. -/
theorem takeStatement_undated (gathered : Gathered) (directive comment : Node) :
    gathered.takeStatement source (.tree .statement [.tree .undated [directive], comment]) =
      gathered.finish source >>= fun before =>
        (Node.find .inclusion (.tree .statement [.tree .undated [directive], comment])).foldlM
          (takeInclusion source) { before with isDated := false, entry := none } := rfl

/-- A metadata line. -/
theorem takeStatement_metadata (gathered : Gathered) (parts : List Node) (comment : Node) :
    gathered.takeStatement source (.tree .statement [.tree .metadata parts, comment]) =
      if gathered.isDated then do
        let stop ← stopOf [.tree .metadata parts, comment]
        let byte ← offset source stop
        takeMetadata gathered byte
      else do
        let first ← required .noPart parts.head?
        let key ← first.asToken
        return gathered.warn source key "Metadata outside of a directive" := rfl

end Gathered

/-- Collects the directives of the tree of a file. -/
def collectTree (source : Source) : Node → Except Fault Collected
  | .tree .start children => do
    let gathered ← children.foldlM (Gathered.takeStatement source) {}
    let gathered ← gathered.finish source
    return ⟨gathered.directives, gathered.warnings⟩
  | _ => .error .misplaced

end Grammar

end Daybook
