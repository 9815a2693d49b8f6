import Daybook.Yaml.Block
import Daybook.Yaml.Plain
import Daybook.Yaml.Property

/-!
# Finding the lexemes of a settings file

A scalar turns out to be a key only at the colon after it, and the lexeme that says so then
goes in front of it. Until the line ends, every node is therefore remembered as a possible
key, and no lexeme is taken while it may still be one: the search first goes on to where that
is settled. Whatever is wrong on the way is found before the lexeme is taken.
-/
namespace Daybook.Yaml

namespace Scanning

/-- Gives up the possible key within the innermost brackets. -/
def dropKey : Scanning Unit := do
  let scan ← get
  match scan.keys.lookup scan.depth with
  | some key =>
    if key.required then throw .lexeme
    set { scan with keys := scan.keys.filter fun held => held.1 != scan.depth }
  | none => return ()

/-- Gives up the possible keys that no colon can follow any more. -/
def dropStaleKeys : Scanning Unit := do
  let scan ← get
  let stale (key : PossibleKey) := key.line != scan.line || scan.index - key.index > 1024
  if scan.keys.any fun held => stale held.2 && held.2.required then throw .lexeme
  set { scan with keys := scan.keys.filter fun held => !stale held.2 }

/-- Remembers the node that begins here as a possible key. -/
def saveKey : Scanning Unit := do
  let scan ← get
  if scan.keyAllowed then
    dropKey
    let key : PossibleKey :=
      { number := scan.taken + scan.lexemes.length
        required := scan.depth == 0 && scan.indent == Int.ofNat scan.column
        index := scan.index, line := scan.line, column := scan.column }
    modify fun scan => { scan with keys := (scan.depth, key) :: scan.keys }

/-- Whether a key may begin after what comes next. -/
def allowKey (allowed : Bool) : Scanning Unit :=
  modify fun scan => { scan with keyAllowed := allowed }

/-- The scan after the ends of the blocks that are indented further than `column`. -/
def unwound (scan : Scan) (column : Int) : List Int → Scan
  | [] => scan
  | outer :: indents =>
    if scan.depth = 0 ∧ column < scan.indent then
      unwound { scan with indent := outer, indents, lexemes := scan.lexemes ++ [.blockEnd] }
        column indents
    else scan

/-- Ends the blocks that are indented further than `column`. -/
def unwind (column : Int) : Scanning Unit :=
  modify fun scan => unwound scan column scan.indents

/-- Begins a block at `column` if it is indented further than the block around it, with
its lexeme before the one of the given number. -/
def indentTo (column number : Nat) (lexeme : Lexeme) : Scanning Unit :=
  modify fun scan =>
    if scan.indent < Int.ofNat column then
      let before := number - scan.taken
      { scan with
        indent := Int.ofNat column
        indents := scan.indent :: scan.indents
        lexemes := scan.lexemes.take before ++ lexeme :: scan.lexemes.drop before }
    else scan

/-- Begins a block here, where a key may begin, if it is indented further than the block
around it. Within brackets there are no blocks. -/
def beginBlock (lexeme : Lexeme) : Scanning Unit := do
  let scan ← get
  if scan.depth = 0 then
    if !scan.keyAllowed then throw .lexeme
    indentTo scan.column (scan.taken + scan.lexemes.length) lexeme

/-- A lexeme of one character. -/
def single (lexeme : Lexeme) : Scanning Unit := do
  forward 1
  push lexeme

/-- An entry of a sequence. -/
def blockEntry : Scanning Unit := do
  beginBlock .blockSequenceStart
  allowKey true
  dropKey
  single .blockEntry

/-- A key with a mark of its own. -/
def explicitKey : Scanning Unit := do
  beginBlock .blockMappingStart
  allowKey ((← get).depth == 0)
  dropKey
  single .key

/-- The colon after a key. The key, if it is a possible one, gets its lexeme now. -/
def keyedValue : Scanning Unit := do
  let scan ← get
  match scan.keys.lookup scan.depth with
  | some key =>
    let before := key.number - scan.taken
    set { scan with
      keys := scan.keys.filter fun held => held.1 != scan.depth
      lexemes := scan.lexemes.take before ++ Lexeme.key :: scan.lexemes.drop before
      keyAllowed := false }
    if scan.depth = 0 then indentTo key.column key.number .blockMappingStart
  | none =>
    beginBlock .blockMappingStart
    allowKey (scan.depth == 0)
    dropKey
  single .value

/-- The end of all blocks, as at the marks of documents. -/
def closeBlocks : Scanning Unit := do
  unwind (-1)
  dropKey
  allowKey false

/-- The opening of brackets. -/
def openFlow (lexeme : Lexeme) : Scanning Unit := do
  saveKey
  modify fun scan => { scan with depth := scan.depth + 1, keyAllowed := true }
  single lexeme

/-- The closing of brackets. -/
def closeFlow (lexeme : Lexeme) : Scanning Unit := do
  dropKey
  modify fun scan => { scan with depth := scan.depth - 1, keyAllowed := false }
  single lexeme

/-- A node, or a property of one, that may be a key. -/
def possibleKey (make : Scanning Lexeme) : Scanning Unit := do
  saveKey
  allowKey false
  push (← make)

/-- Past the lines that hold nothing, up to the next lexeme. -/
def skipToLexeme : Nat → Scanning Unit
  | 0 => return ()
  | allowance + 1 => do
    skipComment
    if (← lineBreak) ≠ [] then
      if (← get).depth = 0 then allowKey true
      skipToLexeme allowance

/-- Past a byte order mark at the beginning of the file. -/
def skipByteOrderMark : Scanning Unit := do
  if (← get).index = 0 then
    if (← peek 0) == '\uFEFF' then forward 1

/-- A gap follows the next character, or brackets are open. -/
def standsAlone : Scanning Bool := do
  if (← get).depth ≠ 0 then return true else return isGap (← peek 1)

/-- The mark of a document. -/
def documentMark (lexeme : Lexeme) : Scanning Unit := do
  closeBlocks
  forward 3
  push lexeme

/-- Finds one more lexeme, with those that it brings about. -/
def find : Scanning Unit := do
  skipByteOrderMark
  skipToLexeme (← bound)
  dropStaleKeys
  unwind (Int.ofNat (← get).column)
  let c ← peek 0
  let scan ← get
  let firstInLine := scan.column = 0
  if c == '\x00' then
    closeBlocks
    push .streamEnd
    modify fun scan => { scan with keys := [], finished := true }
  else if c == '%' && firstInLine then
    closeBlocks
    push (.declaration (← declaration))
  else if ← pure (c == '-' && firstInLine) <&&> marks '-' then documentMark .documentStart
  else if ← pure (c == '.' && firstInLine) <&&> marks '.' then documentMark .documentEnd
  else if c == '[' then openFlow .flowSequenceStart
  else if c == '\x7b' then openFlow .flowMappingStart
  else if c == ']' then closeFlow .flowSequenceEnd
  else if c == '\x7d' then closeFlow .flowMappingEnd
  else if c == ',' then
    allowKey true
    dropKey
    single .flowEntry
  else if ← pure (c == '-') <&&> (isGap <$> peek 1) then blockEntry
  else if ← pure (c == '?') <&&> standsAlone then explicitKey
  else if ← pure (c == ':') <&&> standsAlone then keyedValue
  else if c == '*' then possibleKey (.alias <$> nodeName)
  else if c == '&' then possibleKey (.anchor <$> nodeName)
  else if c == '!' then possibleKey ((fun (handle, name) => .tag handle name) <$> tag)
  else if (c == '|' || c == '>') && scan.depth == 0 then
    allowKey true
    dropKey
    let text ← block (c == '>')
    push (.scalar text false)
  else if c == '\'' || c == '"' then possibleKey ((.scalar · false) <$> quoted c)
  else if ← beginsPlain then possibleKey ((.scalar · true) <$> plain)
  else throw .lexeme

/-- The next lexeme may still turn out to be a key, or there is none yet. -/
def needsMore : Scanning Bool := do
  let scan ← get
  if scan.finished then return false
  if scan.lexemes.isEmpty then return true
  dropStaleKeys
  let scan ← get
  let least := scan.keys.foldl (fun least held => min least held.2.number) (scan.taken + 1)
  return !scan.keys.isEmpty && least == scan.taken

/-- Finds lexemes until it is certain which one comes next. -/
def settle : Nat → Scanning Unit
  | 0 => return ()
  | allowance + 1 => do
    if ← needsMore then
      find
      settle allowance

/-- The next lexeme, which stays where it is. After the last one comes the end again. -/
def next : Scanning Lexeme := do
  settle (← bound)
  return (← get).lexemes.headD .streamEnd

/-- Past the next lexeme. -/
def take : Scanning Unit :=
  modify fun scan => { scan with lexemes := scan.lexemes.drop 1, taken := scan.taken + 1 }

end Scanning

end Daybook.Yaml
