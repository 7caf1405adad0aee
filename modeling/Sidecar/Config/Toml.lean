import Sidecar.Config.ReadFault
import Sidecar.Toml.Document
import Sidecar.Text.Shortest

/-!
# Configurations in TOML

The whole source is read first, so that a fault of its grammar counts before all others. After that
the entries of the document are read in order. A codec is its name, or a table with its name as the
only key and something empty as its value.
-/

namespace Sidecar.Config

open Toml (Node)

/-- What a node is where a value is wanted. -/
def Found.ofNode : Node → Found
  | .scalar (.text s) => .text s
  | .scalar (.integer n) => .integer n
  | .scalar (.float x) => .float (Shortest.render .plain x)
  | .scalar (.bool b) => .bool b
  | .scalar .moment => .map
  | .array _ => .sequence
  | .tables _ => .sequence
  | .braced _ => .map
  | .table .. => .map

/-- Reads a list of values without parts. -/
def listOfNode {α : Type} (read : Found → Read α) (node : Node) : Read (List α) :=
  match node with
  | .array items => items.mapM fun item ↦ read (.ofNode item)
  | .tables items => items.mapM fun _ ↦ read .map
  | node => .error (.wrongKind (.ofNode node) .sequence)

/-- Whether a node is a table or a list without anything in it. -/
def isEmptyNode : Node → Bool
  | .array items => items.isEmpty
  | .tables items => items.isEmpty
  | .braced es => es.isEmpty
  | .table _ es => es.isEmpty
  | .scalar _ => false

/-- Reads a codec. -/
def codecOfNode (node : Node) : Read Codec :=
  let ofEntry (key : String) (value : Node) : Read Codec := do
    let codec ← readCodecName key
    if isEmptyNode value then .ok codec else .error .malformed
  match node with
  | .scalar (.text name) => readCodecName name
  | .braced [(key, value)] => ofEntry key value
  | .table _ [(key, value)] => ofEntry key value
  | _ => .error .malformed

/-- Reads a value of a shape. -/
def valueOfNode : (shape : Shape) → Node → Read shape.Value
  | .text, node => (Found.ofNode node).asText
  | .texts, node => listOfNode Found.asText node
  | .indices, node => listOfNode Found.asIndex node
  | .size, node => (Found.ofNode node).asWord .size
  | .codec, node => codecOfNode node
  | .millis, node => (Found.ofNode node).asWord .millis

/-- Reads an entry of the document. -/
def readTomlEntry (c : Config) (entry : String × Node) : Read Config :=
  match Field.ofKey? entry.1 with
  | none => .error (.unknownField entry.1)
  | some field => (valueOfNode field.shape entry.2).map (c.set field)

/-- The configuration in a TOML text. -/
def ofToml (source : String) : Except Failure Config :=
  match Toml.document? source with
  | none => .error (.config ReadFault.malformed.message)
  | some entries =>
    match entries.foldlM readTomlEntry {} with
    | .error fault => .error (.config fault.message)
    | .ok c => c.validate.map fun () ↦ c

end Sidecar.Config
