import Daybook.Storage
import Daybook.Yaml.Making

/-!
# Settings

The layout of a ledger directory is read from a settings file. Without a file, or with one
that says nothing, the layout is the usual one. The file is a text in YAML, of which only
the fields of the layout matter, and these have to be texts. A byte string counts as the text
that it encodes.
-/
namespace Daybook

namespace Yaml.Data

/-- A datum as what was found. -/
def found (data : Data) (datum : Datum) : Found :=
  ⟨data.kind datum, data.display datum⟩

/-- The text that a datum is. -/
def text (data : Data) (datum : Datum) : Checked Text :=
  match datum with
  | .text text => .ok text
  | .bytes bytes =>
    match Text.Utf8.decode bytes with
    | .ok text => .ok text
    | .error _ => Checked.problem .notAnEncoding (data.found datum)
  | _ => Checked.problem .notAText (data.found datum)

/-- The fields of the outermost datum, if it is a mapping. -/
def fields? (data : Data) : Option (List (Datum × Datum)) :=
  match data.root with
  | .collection number =>
    match data.collection number with
    | .mapping fields => some fields
    | _ => none
  | _ => none

end Yaml.Data

/-- The layout that the data of a settings file describe. -/
def Layout.ofData (data : Yaml.Data) : Checked Layout :=
  if data.saysNothing data.root then .ok {}
  else match data.fields? with
    | some fields =>
      Layout.ofFields fun name =>
        (fields.find? fun (key, _) => key = .text name).map fun (_, datum) => data.text datum
    | none => Checked.problem (.notARecord Layout.kind) (data.found data.root)

/-- The layout that the content of a settings file describes. -/
def Layout.ofSettings (content : Bytes) : Except Failure Layout := do
  let data ← (Yaml.Data.ofSource (Yaml.Source.ofBytes content)).mapError Failure.badSettings
  (Layout.ofData data).mapError (Failure.invalid Layout.kind)

/-- The layout that the settings file at a path describes, and the usual one where there is
no such file. -/
def Layout.load (path : FilePath) : Looking Layout := fun disk => do
  if ← isPresent path disk then
    let content ← (disk.read path).mapError Failure.refused
    Layout.ofSettings content
  else return {}

end Daybook
