import Daybook.Yaml.Scan
import Daybook.Yaml.Tag

/-!
# Nodes of a settings file

The lexemes of a settings file are arranged into nodes: scalars, sequences and mappings. A node
may have an anchor, a name by which later places refer to it, so that several nodes can share
one, and a node can even hold itself. The nodes are therefore numbered, and a node refers to
the nodes in it by their numbers.

Lexemes are taken one at a time, so of several faults the one that comes first in the file is
found.
-/
namespace Daybook.Yaml

/-- What a node is made of. -/
inductive Content where
  | scalar (text : Text)
  | sequence (items : List Nat)
  | mapping (pairs : List (Nat × Nat))
  deriving DecidableEq, Inhabited

/-- A node: what kind of value it is, and what it is made of. -/
structure Node where
  tag : Tag
  content : Content
  deriving DecidableEq

instance Node.inhabited : Inhabited Node := ⟨⟨.text, .scalar []⟩⟩

/-- A document: its nodes, and which of them is the outermost one. -/
structure Document where
  nodes : Array Node
  root : Nat

/-- What has been arranged, and what is left. -/
structure Arranging where
  scan : Scan
  /-- What the handles of tags stand for. -/
  handles : List (Text × Text) := []
  anchors : List (Text × Nat) := []
  nodes : Array Node := #[]

/-- A step of arranging. -/
abbrev Arrange := StateT Arranging (Except Fault)

/-- What the handles stand for that need no declaration. -/
def usualHandles : List (Text × Text) :=
  [("!", "!"), ("!!", "tag:yaml.org,2002:")]

namespace Arrange

/-- A step of looking for lexemes. -/
def scanning {α : Type} (step : Scanning α) : Arrange α := do
  let left ← get
  let (result, scan) ← step left.scan
  set { left with scan }
  return result

/-- The next lexeme, which stays where it is. -/
def next : Arrange Lexeme := scanning Scanning.next

/-- Past the next lexeme. -/
def drop : Arrange Unit := scanning Scanning.take

/-- Past the next lexeme if it is the given one, and whether it was. -/
def accept (lexeme : Lexeme) : Arrange Bool := do
  if (← next) = lexeme then
    drop
    return true
  else return false

/-- Past the given lexeme, which has to come next. -/
def expect (lexeme : Lexeme) : Arrange Unit := do
  if !(← accept lexeme) then throw .arrangement

/-- The next lexeme is one of the given ones. -/
def nextIn (lexemes : List Lexeme) : Arrange Bool := do
  return lexemes.contains (← next)

/-- The anchor that comes next, if one does. -/
def anchor? : Arrange (Option Text) := do
  match ← next with
  | .anchor name =>
    drop
    return some name
  | _ => return none

/-- The tag that comes next, if one does: its handle and its name. -/
def tag? : Arrange (Option (Option Text × Text)) := do
  match ← next with
  | .tag handle name =>
    drop
    return some (handle, name)
  | _ => return none

/-- An anchor and a tag in either order. -/
def properties : Arrange (Option Text × Option (Option Text × Text)) := do
  match ← anchor? with
  | some anchor => return (some anchor, ← tag?)
  | none =>
    let tag ← tag?
    if tag.isSome then return (← anchor?, tag) else return (none, none)

/-- A tag with what its handle stands for in place of the handle. -/
def fullTag : Option Text × Text → Arrange Text
  | (none, name) => return name
  | (some handle, name) => do
    match (← get).handles.lookup handle with
    | some meaning => return meaning ++ name
    | none => throw .arrangement

/-- A new node and its number. -/
def add (node : Node) : Arrange Nat := do
  let left ← get
  set { left with nodes := left.nodes.push node }
  return left.nodes.size

/-- The node that stands where none is written. -/
def empty : Arrange Nat := add ⟨.nothing, .scalar []⟩

/-- What a node begins with. -/
inductive Opening where
  | scalar (text : Text) (plain : Bool)
  /-- No content after an anchor or a tag. -/
  | bare
  | flowSequence
  | flowMapping
  | blockSequence
  | flushSequence
  | blockMapping

/-- What comes next as the beginning of a node. Blocks are only allowed where `block` says so,
sequences that are not indented only where `flush` says so, and a node without content only
where `isMarked` says that it has an anchor or a tag. -/
def opening (block flush isMarked : Bool) : Arrange Opening := do
  let lexeme ← next
  let other : Arrange Opening := if isMarked then return .bare else throw .arrangement
  match lexeme with
  | .blockEntry => if flush then return .flushSequence else other
  | .scalar text plain =>
    drop
    return .scalar text plain
  | .flowSequenceStart => return .flowSequence
  | .flowMappingStart => return .flowMapping
  | .blockSequenceStart => if block then return .blockSequence else other
  | .blockMappingStart => if block then return .blockMapping else other
  | _ => other

/-- The kind of a scalar that has a tag or none. -/
def scalarTag (tag : Option Text) (plain : Bool) (text : Text) : Tag :=
  match tag with
  | none => if plain then Tag.ofPlain text else .text
  | some tag => if tag = ['!'] then Tag.ofPlain text else Tag.ofText tag

/-- The kind of a collection that has a tag or none. -/
def collectionTag (tag : Option Text) (usual : Tag) : Tag :=
  match tag with
  | none => usual
  | some tag => if tag = ['!'] then usual else Tag.ofText tag

/-- A new node, to which its anchor refers from now on. -/
def addNamed (anchor : Option Text) (node : Node) : Arrange Nat := do
  let number ← add node
  if let some name := anchor then
    modify fun left => { left with anchors := (name, number) :: left.anchors }
  return number

/-- Gives a node its content. -/
def fill (number : Nat) (content : Content) : Arrange Unit :=
  modify fun left =>
    { left with nodes := left.nodes.modify number fun node => { node with content } }

mutual

/-- A node. -/
def node : Nat → Bool → Bool → Arrange Nat
  | 0, _, _ => throw .arrangement
  | allowance + 1, block, flush => do
    if let .alias name ← next then
      drop
      match (← get).anchors.lookup name with
      | some number => return number
      | none => throw .reference
    let (anchor, written) ← properties
    let tag ← written.mapM fullTag
    let opening ← opening block flush (anchor.isSome || tag.isSome)
    if let some name := anchor then
      if ((← get).anchors.lookup name).isSome then throw .reference
    let listed := collectionTag tag .sequence
    let paired := collectionTag tag .mapping
    match opening with
    | .scalar text plain => addNamed anchor ⟨scalarTag tag plain text, .scalar text⟩
    | .bare => addNamed anchor ⟨scalarTag tag true [], .scalar []⟩
    | .flowSequence =>
      let number ← addNamed anchor ⟨listed, .sequence []⟩
      drop
      let items ← flowItems allowance true
      fill number (.sequence items)
      return number
    | .flowMapping =>
      let number ← addNamed anchor ⟨paired, .mapping []⟩
      drop
      let pairs ← flowPairs allowance true
      fill number (.mapping pairs)
      return number
    | .blockSequence =>
      let number ← addNamed anchor ⟨listed, .sequence []⟩
      drop
      let items ← blockItems allowance false
      expect .blockEnd
      fill number (.sequence items)
      return number
    | .flushSequence =>
      let number ← addNamed anchor ⟨listed, .sequence []⟩
      let items ← blockItems allowance true
      fill number (.sequence items)
      return number
    | .blockMapping =>
      let number ← addNamed anchor ⟨paired, .mapping []⟩
      drop
      let pairs ← blockPairs allowance
      expect .blockEnd
      fill number (.mapping pairs)
      return number

/-- A node, or the empty one where one of the given lexemes comes next. -/
def nodeUnless : Nat → List Lexeme → Bool → Bool → Arrange Nat
  | 0, _, _, _ => throw .arrangement
  | allowance + 1, ends, block, flush => do
    if ← nextIn ends then empty else node allowance block flush

/-- The value of a pair, or the empty node where there is none. -/
def value : Nat → List Lexeme → Bool → Arrange Nat
  | 0, _, _ => throw .arrangement
  | allowance + 1, ends, block => do
    if ← accept .value then nodeUnless allowance ends block block else empty

/-- The entries of a block sequence. One that is not indented may be followed by a key. -/
def blockItems : Nat → Bool → Arrange (List Nat)
  | 0, _ => throw .arrangement
  | allowance + 1, flush => do
    if ← accept .blockEntry then
      let ends := if flush then [.blockEntry, .key, .value, .blockEnd] else [.blockEntry, .blockEnd]
      let first ← nodeUnless allowance ends true false
      let others ← blockItems allowance flush
      return first :: others
    else return []

/-- The pairs of a block mapping. -/
def blockPairs : Nat → Arrange (List (Nat × Nat))
  | 0 => throw .arrangement
  | allowance + 1 => do
    if ← accept .key then
      let key ← nodeUnless allowance [.key, .value, .blockEnd] true true
      let value ← value allowance [.key, .value, .blockEnd] true
      let others ← blockPairs allowance
      return (key, value) :: others
    else return []

/-- The items of a sequence in brackets. A pair among them is a mapping of its own. -/
def flowItems : Nat → Bool → Arrange (List Nat)
  | 0, _ => throw .arrangement
  | allowance + 1, first => do
    if ← accept .flowSequenceEnd then return []
    if !first then
      expect .flowEntry
    if ← accept .key then
      let number ← add ⟨.mapping, .mapping []⟩
      let key ← nodeUnless allowance [.value, .flowEntry, .flowSequenceEnd] false false
      let value ← value allowance [.flowEntry, .flowSequenceEnd] false
      fill number (.mapping [(key, value)])
      let others ← flowItems allowance false
      return number :: others
    else if ← accept .flowSequenceEnd then return []
    else
      let item ← node allowance false false
      let others ← flowItems allowance false
      return item :: others

/-- The pairs of a mapping in braces. -/
def flowPairs : Nat → Bool → Arrange (List (Nat × Nat))
  | 0, _ => throw .arrangement
  | allowance + 1, first => do
    if ← accept .flowMappingEnd then return []
    if !first then
      expect .flowEntry
    if ← accept .key then
      let key ← nodeUnless allowance [.value, .flowEntry, .flowMappingEnd] false false
      let value ← value allowance [.flowEntry, .flowMappingEnd] false
      let others ← flowPairs allowance false
      return (key, value) :: others
    else if ← accept .flowMappingEnd then return []
    else
      let key ← node allowance false false
      let value ← empty
      let others ← flowPairs allowance false
      return (key, value) :: others

end

/-- Past the ends of documents. -/
def skipEnds : Nat → Arrange Unit
  | 0 => return ()
  | allowance + 1 => do
    if ← accept .documentEnd then skipEnds allowance

/-- Past the declarations before a document. There is one version at most, of which the first
number is one, and one meaning for a handle. -/
def declarations (version : Bool) (handles : List (Text × Text)) : Nat → Arrange Unit
  | 0 => throw .arrangement
  | allowance + 1 => do
    match ← next with
    | .declaration declared =>
      drop
      match declared with
      | .version major =>
        if version || major ≠ 1 then throw .arrangement
        declarations true handles allowance
      | .handle handle meaning =>
        if (handles.lookup handle).isSome then throw .arrangement
        declarations version ((handle, meaning) :: handles) allowance
      | .other => declarations version handles allowance
    | _ => modify fun left => { left with handles := handles ++ usualHandles }

/-- Past the declarations before a document and the mark at its beginning. -/
def documentStart (allowance : Nat) : Arrange Unit := do
  declarations false [] allowance
  expect .documentStart

/-- A declaration or the mark of a document comes next. -/
def startsExplicitly : Arrange Bool := do
  match ← next with
  | .declaration _ => return true
  | .documentStart => return true
  | _ => return false

/-- No content of a document comes next. -/
def endsDocument : Arrange Bool := do
  if ← startsExplicitly then return true else nextIn [.documentEnd, .streamEnd]

/-- The outermost node of the only document of a file, if there is one. -/
def document (allowance : Nat) : Arrange (Option Nat) := do
  if ← nextIn [.streamEnd] then return none
  let root ←
    if ← startsExplicitly then do
      documentStart allowance
      if ← endsDocument then empty else node allowance true false
    else do
      modify fun left => { left with handles := usualHandles }
      node allowance true false
  skipEnds allowance
  if ← nextIn [.streamEnd] then return some root
  documentStart allowance
  throw .reference

end Arrange

/-- The only document of a settings file, if there is one. -/
def Document.ofSource (source : Source) : Except Fault (Option Document) := do
  let scan : Scan := { rest := source.text, behind := source.behind }
  let allowance := 16 * source.text.length + 32
  let (root, left) ← (Arrange.document allowance).run { scan }
  return root.map fun root => ⟨left.nodes, root⟩

end Daybook.Yaml
