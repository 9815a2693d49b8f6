import Daybook.Template.Word

/-!
# Reading templates

The words of outputs and tags are read as terms, from the loosest to the tightest binding: a
choice by a condition, then `or`, `and`, `not`, comparisons, sums, joined texts, products,
powers, signs, and last what stands directly behind a term. The chunks are read as pieces; a tag
that opens a part of the template is followed by the pieces of that part and by the tag that
ends it.

The recursion of each reader is bounded by an allowance that its caller computes from the number
of words or chunks, so no template exhausts it.
-/
namespace Daybook.Template

/-- A reader of words: it takes some of them and leaves the others. -/
abbrev Reading := StateT (List Word) (Except Fault)

namespace Reading

/-- Refuses the words. -/
def refuse {α : Type} : Reading α :=
  throw .malformed

/-- Takes the given word if it is the next one, and says whether it was. -/
def takes (word : Word) : Reading Bool := do
  match ← get with
  | first :: rest =>
    if first = word then
      set rest
      return true
    else return false
  | [] => return false

/-- Takes the given word, which has to be the next one. -/
def expect (word : Word) : Reading Unit := do
  if !(← takes word) then refuse

/-- Takes a name, which has to be the next word. -/
def anyName : Reading Text := do
  match ← get with
  | .name name :: rest =>
    set rest
    return name
  | _ => refuse

/-- Items between commas. Where `ends` says so there is no further item. The second part of the
result says whether there is a comma. -/
def separated (item : Reading Term) (ends : List Word → Bool) :
    Nat → Reading (List Term × Bool)
  | 0 => refuse
  | allowance + 1 => do
    if ends (← get) then return ([], true)
    let first ← item
    if ← takes (.mark [',']) then
      let (others, _) ← separated item ends allowance
      return (first :: others, true)
    else return ([first], false)

/-- Items between commas, up to the mark that closes them. -/
def closed {α : Type} (item : Reading α) (close : Text) : Nat → Reading (List α)
  | 0 => refuse
  | allowance + 1 => do
    if ← takes (.mark close) then return []
    let first ← item
    if ← takes (.mark close) then return [first]
    expect (.mark [','])
    let others ← closed item close allowance
    return first :: others

/-- The arguments of a call after its opening bracket, and the names of the last ones. Behind
an argument with a name all others have one. -/
def arguments (item : Reading Term) : Nat → Bool → Reading (List Term × List Text)
  | 0, _ => refuse
  | allowance + 1, named => do
    let more (named : Bool) : Reading (List Term × List Text) := do
      if ← takes (.mark [')']) then return ([], [])
      expect (.mark [','])
      arguments item allowance named
    if ← takes (.mark [')']) then return ([], [])
    match ← get with
    | .name name :: .mark ['='] :: rest =>
      set rest
      let first ← item
      let (others, names) ← more true
      return (first :: others, name :: names)
    | _ =>
      if named then refuse
      let first ← item
      let (others, names) ← more false
      return (first :: others, names)

end Reading

open Reading (takes expect refuse anyName)

/-- The comparison that the next words mean, and the words after it. -/
def comparison? : List Word → Option (Comparison × List Word)
  | .mark text :: rest =>
    if text = "==" then some (.equal, rest)
    else if text = "!=" then some (.different, rest)
    else if text = "<" then some (.less, rest)
    else if text = "<=" then some (.lessOrEqual, rest)
    else if text = ">" then some (.greater, rest)
    else if text = ">=" then some (.greaterOrEqual, rest)
    else none
  | .name first :: .name second :: rest =>
    if first = "in" then some (.held, .name second :: rest)
    else if first = "not" ∧ second = "in" then some (.notHeld, rest)
    else none
  | .name first :: rest => if first = "in" then some (.held, rest) else none
  | _ => none

/-- The operation that a mark means in a sum, a product or a power. -/
def operation? (marks : List (Text × Operation)) : List Word → Option (Operation × List Word)
  | .mark text :: rest => (marks.lookup text).map fun kind => (kind, rest)
  | _ => none

/-- The operations of a sum. -/
def sums : List (Text × Operation) :=
  [("+", .add), ("-", .subtract)]

/-- The operations of a product. -/
def products : List (Text × Operation) :=
  [("*", .multiply), ("/", .divide), ("//", .floorDivide), ("%", .remainder)]

/-- The operation of a power. -/
def powers : List (Text × Operation) :=
  [("**", .power)]

/-- Operands with operations between them, which are done from left to right. -/
def chained (operand : Reading Term) (marks : List (Text × Operation)) :
    Nat → Term → Reading Term
  | 0, _ => refuse
  | allowance + 1, left => do
    match operation? marks (← get) with
    | none => return left
    | some (kind, rest) =>
      set rest
      let right ← operand
      chained operand marks allowance (.operation kind left right)

/-- Operands with the given word between them. -/
def listed (operand : Reading Term) (between : Word) : Nat → Reading (List Term)
  | 0 => refuse
  | allowance + 1 => do
    let first ← operand
    if ← takes between then
      let others ← listed operand between allowance
      return first :: others
    else return [first]

/-- The term that a name stands for. -/
def named (name : Text) : Term :=
  if name = "true" ∨ name = "True" then .truth true
  else if name = "false" ∨ name = "False" then .truth false
  else if name = "none" ∨ name = "None" then .nothing
  else .variable name

/-- Texts that stand directly behind each other are one. -/
def adjacent : Text → List Word → Text × List Word
  | text, .text more :: rest => adjacent (text ++ more) rest
  | text, rest => (text, rest)

/-- A name with further names behind points. -/
def dotted : Nat → Reading Text
  | 0 => refuse
  | allowance + 1 => do
    let first ← anyName
    if ← takes (.mark ['.']) then
      let others ← dotted allowance
      return first ++ '.' :: others
    else return first

/-- The words that an argument of a test without brackets begins with. -/
def beginsArgument : List Word → Bool
  | .name name :: _ =>
    name ≠ "else".toList ∧ name ≠ "or".toList ∧ name ≠ "and".toList
  | .mark text :: _ => text = "[" ∨ text = ['\x7b']
  | [] => false
  | _ => true

/-- The end of a chunk or of a bracket. -/
def endsSequence (further : List Word) : List Word → Bool
  | [] => true
  | word :: _ => word = .mark [')'] ∨ word ∈ further

mutual

/-- A whole term. -/
def wholeTerm : Nat → Reading Term
  | 0 => refuse
  | allowance + 1 => do
    let first ← disjunction allowance
    choices allowance first

/-- The conditions behind a term. -/
def choices : Nat → Term → Reading Term
  | 0, _ => refuse
  | allowance + 1, first => do
    if ← takes (.name "if".toList) then
      let condition ← disjunction allowance
      let other ← if ← takes (.name "else".toList) then wholeTerm allowance else pure .absent
      choices allowance (.choice condition first other)
    else return first

/-- Terms of which one has to hold. -/
def disjunction : Nat → Reading Term
  | 0 => refuse
  | allowance + 1 => do
    let terms ← listed (conjunction allowance) (.name "or".toList) (allowance + 1)
    return (terms.drop 1).foldl Term.either (terms.headD .absent)

/-- Terms that all have to hold. -/
def conjunction : Nat → Reading Term
  | 0 => refuse
  | allowance + 1 => do
    let terms ← listed (denial allowance) (.name "and".toList) (allowance + 1)
    return (terms.drop 1).foldl Term.both (terms.headD .absent)

/-- A term that is perhaps denied. -/
def denial : Nat → Reading Term
  | 0 => refuse
  | allowance + 1 => do
    if ← takes (.name "not".toList) then
      let operand ← denial allowance
      return .negation operand
    else
      let first ← sum allowance
      let (kinds, others) ← comparisons allowance
      return if kinds = [] then first else .comparison first kinds others

/-- The comparisons behind a term. -/
def comparisons : Nat → Reading (List Comparison × List Term)
  | 0 => refuse
  | allowance + 1 => do
    match comparison? (← get) with
    | none => return ([], [])
    | some (kind, rest) =>
      set rest
      let first ← sum allowance
      let (kinds, others) ← comparisons allowance
      return (kind :: kinds, first :: others)

/-- A sum. -/
def sum : Nat → Reading Term
  | 0 => refuse
  | allowance + 1 => do
    let first ← joined allowance
    chained (joined allowance) sums (allowance + 1) first

/-- Texts that are joined. -/
def joined : Nat → Reading Term
  | 0 => refuse
  | allowance + 1 => do
    match ← listed (product allowance) (.mark ['~']) (allowance + 1) with
    | [single] => return single
    | several => return .join several

/-- A product. -/
def product : Nat → Reading Term
  | 0 => refuse
  | allowance + 1 => do
    let first ← power allowance
    chained (power allowance) products (allowance + 1) first

/-- A power. -/
def power : Nat → Reading Term
  | 0 => refuse
  | allowance + 1 => do
    let first ← signed allowance true
    chained (signed allowance true) powers (allowance + 1) first

/-- A term with its signs, what stands behind it, and its filters unless these belong to a term
outside. -/
def signed : Nat → Bool → Reading Term
  | 0, _ => refuse
  | allowance + 1, mayFilter => do
    let first ←
      if ← takes (.mark ['-']) then pure (Term.signed true) <*> signed allowance false
      else if ← takes (.mark ['+']) then pure (Term.signed false) <*> signed allowance false
      else simple allowance
    let first ← suffixes allowance first
    if mayFilter then filters allowance first else return first

/-- A constant, a name, or a term in brackets. -/
def simple : Nat → Reading Term
  | 0 => refuse
  | allowance + 1 => do
    match ← get with
    | .name name :: rest =>
      set rest
      return named name
    | .text text :: rest =>
      let (text, rest) := adjacent text rest
      set rest
      return .text text
    | .whole value :: rest =>
      set rest
      return .whole value
    | .fraction value :: rest =>
      set rest
      return .fraction value
    | .mark mark :: rest =>
      set rest
      if mark = "(" then
        let inner ← sequence allowance true [] true
        expect (.mark [')'])
        return inner
      else if mark = "[" then
        let items ← Reading.closed (wholeTerm allowance) [']'] (allowance + 1)
        return .list items
      else if mark = ['\x7b'] then
        let pairs ← Reading.closed (pair allowance) ['\x7d'] (allowance + 1)
        return .record (pairs.map (·.1)) (pairs.map (·.2))
      else refuse
    | [] => refuse

/-- A key and the value that belongs to it. -/
def pair : Nat → Reading (Term × Term)
  | 0 => refuse
  | allowance + 1 => do
    let key ← wholeTerm allowance
    expect (.mark [':'])
    let value ← wholeTerm allowance
    return (key, value)

/-- Terms between commas: a single one without a comma, and else a tuple. -/
def sequence : Nat → Bool → List Word → Bool → Reading Term
  | 0, _, _, _ => refuse
  | allowance + 1, mayChoose, further, mayBeEmpty => do
    let item := if mayChoose then wholeTerm allowance else disjunction allowance
    match ← Reading.separated item (endsSequence further) (allowance + 1) with
    | ([single], false) => return single
    | ([], _) => if mayBeEmpty then return .tuple [] else refuse
    | (several, _) => return .tuple several

/-- The members, entries and calls behind a term. -/
def suffixes : Nat → Term → Reading Term
  | 0, _ => refuse
  | allowance + 1, inner => do
    match ← get with
    | .mark mark :: rest =>
      if mark = "." then
        match rest with
        | .name name :: rest =>
          set rest
          suffixes allowance (.member inner name)
        | .whole position :: rest =>
          set rest
          suffixes allowance (.entry inner (.whole position))
        | _ => refuse
      else if mark = "[" then
        set rest
        let outer ← entries allowance inner
        suffixes allowance outer
      else if mark = "(" then
        set rest
        let (arguments, names) ← Reading.arguments (wholeTerm allowance) (allowance + 1) false
        suffixes allowance (.call inner arguments names)
      else return inner
    | _ => return inner

/-- What a term becomes with the keys in square brackets behind it. Several keys are one
tuple. -/
def entries : Nat → Term → Reading Term
  | 0, _ => refuse
  | allowance + 1, owner => do
    if ← takes (.mark [']']) then return .entry owner (.tuple [])
    let first ← bounds allowance
    if ← takes (.mark [']']) then
      match first with
      | (key, none) => return .entry owner key
      | (start, some (stop, step)) => return .portion owner start stop step
    expect (.mark [','])
    let others ← listed (pure (fun found : Term × Option (Term × Term) => found.1) <*>
      bounds allowance) (.mark [',']) (allowance + 1)
    expect (.mark [']'])
    return .entry owner (.tuple (first.1 :: others))

/-- A key, or the bounds of a portion and its step, each of which may be left out. -/
def bounds : Nat → Reading (Term × Option (Term × Term))
  | 0 => refuse
  | allowance + 1 => do
    let bound : Reading Term := do
      match ← get with
      | .mark mark :: _ =>
        if mark = ":" ∨ mark = "]" ∨ mark = "," then return .nothing else wholeTerm allowance
      | _ => wholeTerm allowance
    let start ← if (← get).head? = some (.mark [':']) then pure .nothing else wholeTerm allowance
    if ← takes (.mark [':']) then
      let stop ← bound
      let step ← if ← takes (.mark [':']) then bound else pure .nothing
      return (start, some (stop, step))
    else return (start, none)

/-- The filters, tests and calls behind a term. -/
def filters : Nat → Term → Reading Term
  | 0, _ => refuse
  | allowance + 1, inner => do
    if ← takes (.mark ['|']) then
      let outer ← filter allowance inner
      filters allowance outer
    else if ← takes (.name "is".toList) then
      let denied ← takes (.name "not".toList)
      let name ← dotted (allowance + 1)
      let (arguments, names) ← testArguments allowance
      let outer := Term.test name inner arguments names
      filters allowance (if denied then .negation outer else outer)
    else if ← takes (.mark ['(']) then
      let (arguments, names) ← Reading.arguments (wholeTerm allowance) (allowance + 1) false
      filters allowance (.call inner arguments names)
    else return inner

/-- The name of a filter and its arguments. -/
def filter : Nat → Term → Reading Term
  | 0, _ => refuse
  | allowance + 1, inner => do
    let name ← dotted (allowance + 1)
    let (arguments, names) ←
      if ← takes (.mark ['(']) then
        Reading.arguments (wholeTerm allowance) (allowance + 1) false
      else pure ([], [])
    return .filter name inner arguments names

/-- The arguments of a test: those in brackets, or a single one without. -/
def testArguments : Nat → Reading (List Term × List Text)
  | 0 => refuse
  | allowance + 1 => do
    if ← takes (.mark ['(']) then
      Reading.arguments (wholeTerm allowance) (allowance + 1) false
    else if beginsArgument (← get) then
      if (← get).head? = some (.name "is".toList) then refuse
      let argument ← simple allowance
      let argument ← suffixes allowance argument
      return ([argument], [])
    else return ([], [])

end

/-! ## Tags -/

/-- The names that no value can be given to. -/
def constants : List Text :=
  ["true", "false", "none", "True", "False", "None"]

/-- A name that a value is given to. -/
def targetName : Reading Text := do
  let name ← anyName
  if constants.contains name then refuse else return name

/-- The names that share the items of a series, after the first one. -/
def targetNames : Nat → Reading (List Text)
  | 0 => refuse
  | allowance + 1 => do
    if ← takes (.mark [',']) then
      match ← get with
      | .name name :: _ =>
        if name = "in" then return []
        else
          let name ← targetName
          let others ← targetNames allowance
          return name :: others
      | _ => return []
    else return []

/-- One name or several that values are given to. -/
def target (allowance : Nat) : Reading Target := do
  let first ← targetName
  if (← get).head? = some (.mark [',']) then
    let others ← targetNames allowance
    return .several (first :: others)
  else return .one first

/-- The targets and values that are known in a part only. -/
def givens : Nat → Bool → Reading (List Target × List Term)
  | 0, _ => refuse
  | allowance + 1, isFirst => do
    if (← get) = [] ∨ (← get) = [.mark [':']] then return ([], [])
    if !isFirst then expect (.mark [','])
    let name ← targetName
    expect (.mark ['='])
    let value ← wholeTerm (16 * allowance + 16)
    let (targets, values) ← givens allowance false
    return (.one name :: targets, value :: values)

/-- Runs a reader on all of the given words. At the end of a tag that opens a part a colon may
stand. -/
def readAll {α : Type} (mayEndInColon : Bool) (reading : Reading α) (words : List Word) :
    Except Fault α := do
  let (value, rest) ← reading.run words
  if rest = [] ∨ (mayEndInColon ∧ rest = [.mark [':']]) then return value
  else throw .malformed

/-- An allowance that the words of a term do not exhaust. -/
def allowanceFor (words : List Word) : Nat :=
  16 * words.length + 16

/-- The filters behind the text of a part. -/
def filtersOfPart : Nat → Term → Reading Term
  | 0, _ => refuse
  | allowance + 1, inner => do
    if ← takes (.mark ['|']) then
      let outer ← filter (16 * allowance + 16) inner
      filtersOfPart allowance outer
    else return inner

/-- What a loop runs over: the target, the series, and the condition on its items. -/
def loopHeading (allowance : Nat) : Reading (Target × Term × Term) := do
  let target ← target allowance
  expect (.name "in".toList)
  let items ← sequence allowance false [.name "recursive".toList] false
  let condition ← if ← takes (.name "if".toList) then wholeTerm allowance
    else pure (.truth true)
  let _ ← takes (.name "recursive".toList)
  return (target, items, condition)

/-- The tag that ends a sequence of pieces, or the end of the template. -/
inductive Ending where
  | finished
  | tag (name : Text) (words : List Word)

/-- The pieces that are read up to an ending, and the chunks after it. -/
structure Stretch where
  pieces : List Piece
  ending : Ending
  after : List Chunk

/-- The tag after a part, which has to be there. -/
def Ending.required (ending : Ending) : Except Fault (Text × List Word) :=
  match ending with
  | .finished => .error .malformed
  | .tag name words => .ok (name, words)

/-- Refuses words where a tag should end. -/
def atEnd (mayEndInColon : Bool) (words : List Word) : Except Fault Unit :=
  readAll mayEndInColon (pure ()) words

mutual

/-- The pieces up to a tag with one of the given names, that tag, and the chunks after it. -/
def stretch : Nat → List Text → List Chunk → Except Fault Stretch
  | 0, _, _ => .error .malformed
  | allowance + 1, ends, chunks =>
    match chunks with
    | [] => .ok ⟨[], .finished, []⟩
    | .literal text :: rest => do
      let others ← stretch allowance ends rest
      return { others with pieces := .literal text :: others.pieces }
    | .output words :: rest => do
      let term ← readAll false (sequence (allowanceFor words) true [] false) words
      let others ← stretch allowance ends rest
      return { others with pieces := .output [term] :: others.pieces }
    | .tag (.name name :: words) :: rest =>
      if ends.contains name then .ok ⟨[], .tag name words, rest⟩
      else do
        let (pieces, rest) ← tagged allowance name words rest
        let others ← stretch allowance ends rest
        return { others with pieces := pieces ++ others.pieces }
    | .tag _ :: _ => .error .malformed

/-- The pieces that a tag makes, with the parts it opens, and the chunks after them. -/
def tagged : Nat → Text → List Word → List Chunk → Except Fault (List Piece × List Chunk)
  | 0, _, _, _ => .error .malformed
  | allowance + 1, name, words, rest =>
    let room := allowanceFor words
    if name = "if" then branch allowance words rest
    else if name = "for" then do
      let (target, items, condition) ← readAll true (loopHeading room) words
      let body ← stretch allowance ["endfor".toList, "else".toList] rest
      let (ending, words) ← body.ending.required
      if ending = "else" then
        atEnd true words
        let otherwise ← stretch allowance ["endfor".toList] body.after
        let (_, words) ← otherwise.ending.required
        atEnd false words
        return ([.loop target items condition body.pieces otherwise.pieces], otherwise.after)
      else
        atEnd false words
        return ([.loop target items condition body.pieces []], body.after)
    else if name = "set" then do
      let (target, words) ← (target room).run words
      match words with
      | .mark ['='] :: words =>
        let value ← readAll false (sequence room true [] false) words
        return ([.assignment target value], rest)
      | _ =>
        let value ← readAll true (filtersOfPart room .part) words
        let (body, after) ← part allowance "endset" rest
        return ([.capture target value body], after)
    else if name = "with" then do
      let (targets, values) ← readAll true (givens room true) words
      let (body, after) ← part allowance "endwith" rest
      return ([.scope targets values body], after)
    else if name = "filter" then do
      let value ← readAll true
        (do let first ← filter room .part; filtersOfPart room first) words
      let (body, after) ← part allowance "endfilter" rest
      return ([.filtered value body], after)
    else if name = "block" then do
      let label ← readAll true anyName words
      let body ← stretch allowance ["endblock".toList] rest
      let (_, words) ← body.ending.required
      if words ≠ [] ∧ words ≠ [.name label] then throw .malformed
      return ([.scope [] [] body.pieces], body.after)
    else if name = "print" then do
      let (terms, _) ← readAll false
        (Reading.separated (wholeTerm room) (fun _ => false) (room + 1)) words
      return ([.output terms], rest)
    else if name = "include" ∨ name = "extends" then do
      let term ← readAll false (wholeTerm room) words
      return ([.reference term], rest)
    else .error .malformed

/-- The branches after a condition. -/
def branch : Nat → List Word → List Chunk → Except Fault (List Piece × List Chunk)
  | 0, _, _ => .error .malformed
  | allowance + 1, words, rest => do
    let condition ← readAll true (sequence (allowanceFor words) false [] false) words
    let body ← stretch allowance ["elif".toList, "else".toList, "endif".toList] rest
    let (ending, words) ← body.ending.required
    if ending = "elif" then
      let (others, after) ← branch allowance words body.after
      return ([.branch condition body.pieces others], after)
    else if ending = "else" then
      atEnd true words
      let (others, after) ← part allowance "endif" body.after
      return ([.branch condition body.pieces others], after)
    else
      atEnd false words
      return ([.branch condition body.pieces []], body.after)

/-- The pieces of a part up to the tag that ends it, and the chunks after it. -/
def part : Nat → Text → List Chunk → Except Fault (List Piece × List Chunk)
  | 0, _, _ => .error .malformed
  | allowance + 1, ending, rest => do
    let body ← stretch allowance [ending] rest
    let (_, words) ← body.ending.required
    atEnd false words
    return (body.pieces, body.after)

end

/-- The pieces of a template. -/
def Piece.ofText (source : Text) : Except Fault (List Piece) := do
  let chunks ← Chunk.ofText source
  let whole ← stretch (3 * chunks.length + 3) [] chunks
  return whole.pieces

end Daybook.Template
