import Daybook.Text.Base64
import Daybook.Yaml.Datum
import Daybook.Yaml.Node

/-!
# From nodes to data

The data of a document are made from its nodes. A scalar is made at once. A collection is at
first empty, and is filled when all that was begun before it has been filled; the faults of
data are therefore found from the outside to the inside. Every node is made once, however many
places refer to it.

A mapping may take over the pairs of other mappings. They come before its own pairs, so that
its own pairs win.
-/
namespace Daybook.Yaml

/-- What has been made so far. -/
structure Made where
  nodes : Array Node
  /-- The data of the nodes that have been made. -/
  data : Array (Option Datum)
  collections : Array Collection
  /-- The nodes of the collections that are to be filled, the next one first. -/
  waiting : List Nat := []

/-- A step of making data. -/
abbrev Making := StateT Made (Except Fault)

namespace Making

/-- The node of a number. -/
def nodeOf (number : Nat) : Making Node := do
  return (← get).nodes.getD number default

/-- The text of a scalar. A mapping with a default stands for that. -/
def scalarText : Nat → Nat → Making Text
  | 0, _ => throw .value
  | allowance + 1, number => do
    match (← nodeOf number).content with
    | .scalar text => return text
    | .sequence _ => throw .value
    | .mapping pairs =>
      let tags ← pairs.mapM fun (key, _) => return (← nodeOf key).tag
      match (tags.zip pairs).find? fun (tag, _) => tag = .default with
      | some (_, _, value) => scalarText allowance value
      | none => throw .value

/-- The bytes that a text of basic characters writes. -/
def bytesOf (text : Text) : Except Fault Bytes :=
  if text.all fun c => c.toNat < 0x80 then
    match Text.Base64.decode? text with
    | some bytes => .ok bytes
    | none => .error .value
  else .error .value

/-- The moment that a text is said to be. A line feed at its end does not count. -/
def momentOf (text : Text) : Except Fault Moment :=
  let line := if text.getLast? = some '\n' then text.dropLast else text
  match WrittenMoment.ofText? line with
  | some written => written.moment
  | none => .error .notAMoment

/-- The datum of a scalar with a tag. -/
def scalarDatum (tag : Tag) (text : Text) : Except Fault Datum :=
  match tag with
  | .nothing => .ok .nothing
  | .truth => (truthOf text).map .truth
  | .whole => (wholeOf text).map .whole
  | .fraction => (fractionOf text).map .fraction
  | .bytes => (bytesOf text).map .bytes
  | .moment => (momentOf text).map .moment
  | .text => .ok (.text text)
  | _ => .error .value

/-- The collection that a tag asks for, before it is filled. -/
def emptyOf? : Tag → Option Collection
  | .sequence => some (.list [])
  | .pairs => some (.pairs [])
  | .set => some (.set [])
  | .mapping => some (.mapping [])
  | _ => none

/-- The datum of a node, which is made if it has not been made. -/
def datum (number : Nat) : Making Datum := do
  let made ← get
  match made.data.getD number none with
  | some datum => return datum
  | none =>
    let tag := (← nodeOf number).tag
    match emptyOf? tag with
    | some empty =>
      set { made with
        data := made.data.setIfInBounds number (some (.collection number))
        collections := made.collections.setIfInBounds number empty
        waiting := made.waiting ++ [number] }
      return .collection number
    | none =>
      match tag with
      | .merge => throw .value
      | .default => throw .value
      | .unknown => throw .value
      | _ =>
        let text ← scalarText (made.nodes.size + 1) number
        let datum ← scalarDatum tag text
        modify fun made => { made with data := made.data.setIfInBounds number (some datum) }
        return datum

/-- Changes a node. -/
def change (number : Nat) (f : Node → Node) : Making Unit :=
  modify fun made => { made with nodes := made.nodes.modify number f }

/-- The pairs of a node that has to be a mapping. -/
def pairsOf (number : Nat) : Making (List (Nat × Nat)) := do
  match (← nodeOf number).content with
  | .mapping pairs => return pairs
  | _ => throw .value

/-- The mappings of which a node asks for the pairs: itself, or those in a sequence, the last
one first. -/
def merged (number : Nat) : Making (List Nat) := do
  match (← nodeOf number).content with
  | .mapping _ => return [number]
  | .sequence items => return items.reverse
  | .scalar _ => throw .value

/-- Puts the pairs that a mapping takes over in front of its own. Its default, if it has one,
becomes a text. -/
def flatten : Nat → Nat → Making Unit
  | 0, _ => throw .value
  | allowance + 1, number => do
    let pairs ← pairsOf number
    let tagged ← pairs.mapM fun (key, value) => return ((← nodeOf key).tag, key, value)
    for (tag, key, _) in tagged do
      if tag = .default then change key fun node => { node with tag := .text }
    let own := (tagged.filter fun (tag, _) => tag ≠ .merge).map fun (_, pair) => pair
    change number fun node => { node with content := .mapping own }
    let sources := (tagged.filter fun (tag, _) => tag = .merge).map fun (_, _, value) => value
    let taken ← sources.mapM fun source => do
      let mappings ← merged source
      for mapping in mappings.reverse do flatten allowance mapping
      return (← mappings.mapM pairsOf).flatten
    if !sources.isEmpty then
      change number fun node => { node with content := .mapping (taken.flatten ++ own) }

/-- The fields of a mapping. A key may be no collection. -/
def fields (number : Nat) : Making (List (Datum × Datum)) := do
  flatten ((← get).nodes.size + 1) number
  let pairs ← pairsOf number
  pairs.foldlM (fun fields (key, value) => do
    let key ← datum key
    if !key.isKey then throw .value
    let value ← datum value
    return Collection.insert key value fields) []

/-- The data in a node that has to be a sequence. -/
def items (number : Nat) : Making (List Nat) := do
  match (← nodeOf number).content with
  | .sequence items => return items
  | _ => throw .value

/-- The only pair of a node that has to be a mapping. -/
def onlyPair (number : Nat) : Making (Datum × Datum) := do
  match (← nodeOf number).content with
  | .mapping [(key, value)] =>
    let key ← datum key
    let value ← datum value
    return (key, value)
  | _ => throw .value

/-- The collection of a node. -/
def collection (number : Nat) : Making Collection := do
  match (← nodeOf number).tag with
  | .sequence => return .list (← (← items number).mapM datum)
  | .pairs => return .pairs (← (← items number).mapM onlyPair)
  | .set => return .set ((← fields number).map fun (key, _) => key)
  | _ => return .mapping (← fields number)

/-- Fills the collections that wait, and those that come to wait meanwhile. -/
def fillWaiting : Nat → Making Unit
  | 0 => return ()
  | allowance + 1 => do
    match (← get).waiting with
    | [] => return ()
    | number :: waiting =>
      modify fun made => { made with waiting }
      let filled ← collection number
      modify fun made => { made with collections := made.collections.setIfInBounds number filled }
      fillWaiting allowance

end Making

/-- The data of a document. -/
def Document.data (document : Document) : Except Fault Data := do
  let size := document.nodes.size
  let made : Made :=
    { nodes := document.nodes
      data := Array.replicate size none
      collections := Array.replicate size (.list []) }
  let make : Making Datum := do
    let root ← Making.datum document.root
    Making.fillWaiting (size + 1)
    return root
  let (root, made) ← make made
  return ⟨made.collections, root⟩

/-- The data of a settings file. A file without a document holds nothing. -/
def Data.ofSource (source : Source) : Except Fault Data := do
  match ← Document.ofSource source with
  | some document => document.data
  | none => return ⟨#[], .nothing⟩

end Daybook.Yaml
