import Daybook.Diagnostic
import Daybook.Directive
import Daybook.Failure
import Daybook.Statement
import Daybook.Text.Quoted

/-!
# Collecting directives

The statements of a file are a flat sequence. Collecting goes through them once and gives
every posting and every metadata line to the directive above it: postings to the
transaction that is open, metadata to the dated directive that is open. A dated directive
opens, and every directive without a date closes what is open. What finds nothing open is
reported in a warning and has no further effect.

Positions count characters until here; directives give their spans in bytes.
-/
namespace Daybook

/-- What the directives of a file are made of: its path, its characters and the byte
offsets of their positions. -/
structure Source where
  path : Text
  text : Text
  offsets : Text.Utf8.Offsets

/-- The source of a file with the given path and text. -/
def Source.ofText (path text : Text) : Source :=
  { path, text, offsets := Text.Utf8.Offsets.ofText text }

namespace Source

/-- The bytes between two positions. -/
def span (source : Source) (start stop : Nat) : Span :=
  ⟨source.offsets.byte start, source.offsets.byte stop⟩

/-- The bytes of a token. -/
def tokenSpan (source : Source) (token : Token) : Span :=
  source.span token.start token.stop

/-- The number of the line of a position, counted from one. Lines end with a line feed. -/
def lineAt (source : Source) (position : Nat) : Nat :=
  (source.text.take position).count '\n' + 1

/-- The part of its line before a position. -/
def before (source : Source) (position : Nat) : Text :=
  ((source.text.take position).reverse.takeWhile (· ≠ '\n')).reverse

/-- The number of the column of a position, counted from one. -/
def columnAt (source : Source) (position : Nat) : Nat :=
  (source.before position).length + 1

/-- A warning about a token. -/
def warn (source : Source) (token : Token) (message : Text) : Diagnostic :=
  { severity := .warning
    path := source.path
    line := source.lineAt token.start
    column := source.columnAt token.start
    message }

end Source

/-- The position in the tail of a posting where its price begins: the first at sign after
the last closing brace. -/
def priceStart? (tail : Text) : Option Nat :=
  let braced := tail.length - (tail.reverse.takeWhile (· ≠ '\x7d')).length
  ((tail.drop braced).idxOf? '@').map (braced + ·)

/-- A text, or nothing when it is empty. -/
def nonempty? (text : Text) : Option Text :=
  if text = [] then none else some text

/-- The posting of a posting line. Number, cost and price are what stands between the
tokens that delimit them, since brackets and signs are no tokens of their own. -/
def PostingEntry.ofLine (source : Source) (line : PostingLine) (comment : Option Token) :
    PostingEntry :=
  let rest := source.text.drop line.account.stop
  let lineStop := line.account.stop + Text.stretch (· ≠ '\n') rest
  let tailStop := match comment with
    | some comment => comment.start
    | none => lineStop
  let numberStop := match line.currency with
    | some currency => currency.start
    | none => line.account.stop
  let amountStop := match line.currency with
    | some currency => currency.stop
    | none => line.account.stop
  let number := Text.slice source.text line.account.stop numberStop
  let numberStart := line.account.stop + (number.length - (Text.trimLeft number).length)
  let tail := Text.slice source.text amountStop tailStop
  let priceStart := if line.hasPrice then priceStart? tail else none
  let costTail := match priceStart with
    | some start => tail.take start
    | none => tail
  let whole := Text.slice source.text line.account.start tailStop
  let stop := max line.stop (tailStop - (whole.length - (Text.trimRight whole).length))
  { account := line.account.text
    amount := Text.trim number
    currency := match line.currency with
      | some currency => currency.text
      | none => []
    cost := if line.hasCost then nonempty? (Text.trim costTail) else none
    price := priceStart.map fun start => Text.trim (tail.drop start)
    accountSpan := source.tokenSpan line.account
    amountSpan := if line.currency.isSome then some (source.span numberStart amountStop) else none
    span := source.span line.account.start stop }

/-- A directive that is still open. -/
inductive Pending where
  /-- Nothing that a posting or a metadata line could belong to. -/
  | nothing
  /-- A transaction with its postings so far, and the furthest end of its lines. -/
  | transaction (heading : Heading) (postings : List PostingEntry) (stop : Int)
  /-- An opening or a closing, which ends with its last metadata line. -/
  | account (make : Span → Directive) (span : Span)
  /-- A dated directive without a meaning here. -/
  | other

namespace Pending

/-- The directive that is closed when nothing more can belong to it. -/
def finish (source : Source) : Pending → Except Failure (List Directive)
  | nothing => .ok []
  | other => .ok []
  | account make span => .ok [make span]
  | transaction heading postings stop =>
    match heading.flag with
    | none => .error .flagless
    | some flag =>
      let dateSpan := source.tokenSpan heading.date
      .ok [.transaction
        { date := heading.date.text
          flag := flag.text
          payee := heading.payee.map fun token => Text.Quoted.decode token.text
          narration := heading.narration.map fun token => Text.Quoted.decode token.text
          tags := (heading.marks.filter fun token => token.terminal = .tag).map fun token =>
            token.text.drop 1
          postings
          dateSpan
          flagSpan := source.tokenSpan flag
          narrationSpan := heading.narration.map source.tokenSpan
          span := ⟨dateSpan.start, stop⟩ }]

/-- The open directive after a metadata line that ends at `stop`. -/
def extend (stop : Int) : Pending → Pending
  | transaction heading postings old => transaction heading postings (max old stop)
  | account make span => account make { span with stop }
  | pending => pending

end Pending

/-- What a sequence of statements amounts to. -/
structure Collected where
  directives : List Directive
  warnings : List Diagnostic

namespace Collected

/-- What the statements amount to when these directives precede the others. -/
def after (directives : List Directive) (rest : Collected) : Collected :=
  { rest with directives := directives ++ rest.directives }

/-- What the statements amount to when this warning precedes the others. -/
def warned (warning : Diagnostic) (rest : Collected) : Collected :=
  { rest with warnings := warning :: rest.warnings }

end Collected

/-- Collects the directives of the lines of a file. `pending` is what is open before them,
and `included` are the paths included so far. -/
def collectFrom (source : Source) (pending : Pending) (included : List Phrase) :
    List Line → Except Failure Collected
  | [] => do
    let closed ← pending.finish source
    return ⟨closed, []⟩
  | line :: rest =>
    let byte := source.offsets.byte
    match line.statement with
    | .remark => collectFrom source pending included rest
    | .transaction heading => do
      let closed ← pending.finish source
      let opened := Pending.transaction heading [] (byte (line.stop heading.stop))
      let others ← collectFrom source opened included rest
      return others.after closed
    | .opening date account currencies stop => do
      let closed ← pending.finish source
      let make := Directive.opening date.text account.text (currencies.map Token.text)
        (source.tokenSpan date)
      let opened := Pending.account make (source.span date.start (line.stop stop))
      let others ← collectFrom source opened included rest
      return others.after closed
    | .closing date account => do
      let closed ← pending.finish source
      let make := Directive.closing date.text account.text (source.tokenSpan date)
      let opened := Pending.account make (source.span date.start (line.stop account.stop))
      let others ← collectFrom source opened included rest
      return others.after closed
    | .otherDated => do
      let closed ← pending.finish source
      let others ← collectFrom source .other included rest
      return others.after closed
    | .posting posting =>
      match pending with
      | .transaction heading postings stop =>
        let entry := PostingEntry.ofLine source posting line.comment
        collectFrom source
          (.transaction heading (postings ++ [entry]) (max stop entry.span.stop)) included rest
      | _ => do
        let others ← collectFrom source pending included rest
        return others.warned (source.warn posting.first "Posting outside of a transaction")
    | .metadata key stop =>
      match pending with
      | .nothing => do
        let others ← collectFrom source pending included rest
        return others.warned (source.warn key "Metadata outside of a directive")
      | _ => collectFrom source (pending.extend (byte (line.stop stop))) included rest
    | .inclusion token => do
      let closed ← pending.finish source
      let path := Text.Quoted.decode token.text
      let others ← collectFrom source .nothing (path :: included) rest
      let others := others.after (closed ++ [.inclusion path (source.tokenSpan token)])
      if path ∈ included then
        return others.warned (source.warn token ("Duplicate include of " ++ path.shown))
      else return others
    | .otherUndated => do
      let closed ← pending.finish source
      let others ← collectFrom source .nothing included rest
      return others.after closed

/-- Collects the directives of the lines of a file. -/
def collect (source : Source) (lines : List Line) : Except Failure Collected :=
  collectFrom source .nothing [] lines

end Daybook
