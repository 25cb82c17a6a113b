import PortGraph.Json.Decode
import PortGraph.Json.Reader
import PortGraph.Json.Writer
import PortGraph.Ron.Reader
import PortGraph.Ron.Writer

/-!
# Graph descriptions

A description lists the nodes of a graph, each with its instance name, the name of its type (its
model) and its configuration, and the links between their ports.  It is what a graph is saved as.

Descriptions are read from JSON values, JSON texts and RON texts through one `Record` each, and
written to the same three.
-/

set_option autoImplicit false

namespace PortGraph

/-- A saved node. -/
structure NodeDescription where
  /-- Its name in the graph. -/
  instanceName : String
  /-- The name of its type. -/
  model : String
  /-- Its configuration. -/
  config : Option Json := none
  /-- Data of the application. -/
  metadata : Option Json := none
  deriving DecidableEq

/-- A saved link. -/
structure LinkDescription where
  /-- The node it starts at. -/
  outNode : String
  /-- The output it starts at. -/
  outPort : String
  /-- The node it ends at. -/
  inNode : String
  /-- The input it ends at. -/
  inPort : String
  deriving DecidableEq, Repr

/-- The version of the descriptions that are written. -/
def formatVersion : UInt32 := 1

/-- A saved graph. -/
structure GraphDescription where
  /-- The version of its format. -/
  version : UInt32 := formatVersion
  /-- Its name. -/
  name : String
  /-- Its nodes, in their order in the graph. -/
  nodes : List NodeDescription := []
  /-- Its links, in their order in the graph. -/
  links : List LinkDescription := []
  deriving DecidableEq

/-! ## Reading -/

section Records

variable (ρ : Type → Type) [RecordReader ρ]

/-- The fields of a saved node. -/
def NodeDescription.asRecord : Record ρ NodeDescription where
  name := "NodeDescription"
  fields :=
    [.mandatory "instance" RecordReader.text (fun s d ↦ { d with instanceName := s }),
      .mandatory "model" RecordReader.text (fun s d ↦ { d with model := s }),
      .defaulted "config" (RecordReader.option RecordReader.payload)
        (fun c d ↦ { d with config := c }),
      .defaulted "metadata" (RecordReader.option RecordReader.payload)
        (fun m d ↦ { d with metadata := m })]
  blank := ⟨"", "", none, none⟩

/-- The fields of a saved link. -/
def LinkDescription.asRecord : Record ρ LinkDescription where
  name := "LinkDescription"
  fields :=
    [.mandatory "out_node" RecordReader.text (fun s d ↦ { d with outNode := s }),
      .mandatory "out_port" RecordReader.text (fun s d ↦ { d with outPort := s }),
      .mandatory "in_node" RecordReader.text (fun s d ↦ { d with inNode := s }),
      .mandatory "in_port" RecordReader.text (fun s d ↦ { d with inPort := s })]
  blank := ⟨"", "", "", ""⟩

/-- The fields of a saved graph. -/
def GraphDescription.asRecord : Record ρ GraphDescription where
  name := "GraphDescription"
  fields :=
    [.defaulted "version" RecordReader.word (fun v d ↦ { d with version := v }),
      .mandatory "name" RecordReader.text (fun s d ↦ { d with name := s }),
      .defaulted "nodes" (RecordReader.list (RecordReader.record (NodeDescription.asRecord ρ)))
        (fun ns d ↦ { d with nodes := ns }),
      .defaulted "links" (RecordReader.list (RecordReader.record (LinkDescription.asRecord ρ)))
        (fun ls d ↦ { d with links := ls })]
  blank := ⟨formatVersion, "", [], []⟩

end Records

namespace GraphDescription

/-- Read a description off a JSON value. -/
def ofJson (j : Json) : Except ShapeError GraphDescription :=
  RecordReader.record (asRecord Json.Decoder) j

/-- Read a description from a JSON text. -/
def ofJsonText (s : String) : Except Json.ReadError GraphDescription :=
  Json.TextReader.run (RecordReader.record (asRecord Json.TextReader)) Json.Reader.maxLevels s

/-- Read a description from a RON text. -/
def ofRonText (s : String) : Except Ron.ReadError GraphDescription :=
  Ron.TextReader.run (RecordReader.record (asRecord Ron.TextReader)) s

end GraphDescription

/-! ## Writing -/

/-- A field that is written only when it is present. -/
def presentField {α β : Type} (name : String) (write : α → β) : Option α → List (String × β)
  | some a => [(name, write a)]
  | none => []

/-- The JSON value of a saved node. -/
def NodeDescription.toJson (d : NodeDescription) : Json :=
  .object ([("instance", .string d.instanceName), ("model", .string d.model)]
    ++ presentField "config" id d.config ++ presentField "metadata" id d.metadata)

/-- The RON tree of a saved node. -/
def NodeDescription.toRon (d : NodeDescription) : Ron :=
  .fields ([("instance", .text d.instanceName), ("model", .text d.model)]
    ++ presentField "config" (fun j ↦ .some (.ofJson j)) d.config
    ++ presentField "metadata" (fun j ↦ .some (.ofJson j)) d.metadata)

/-- The JSON value of a saved link. -/
def LinkDescription.toJson (d : LinkDescription) : Json :=
  .object [("out_node", .string d.outNode), ("out_port", .string d.outPort),
    ("in_node", .string d.inNode), ("in_port", .string d.inPort)]

/-- The RON tree of a saved link. -/
def LinkDescription.toRon (d : LinkDescription) : Ron :=
  .fields [("out_node", .text d.outNode), ("out_port", .text d.outPort),
    ("in_node", .text d.inNode), ("in_port", .text d.inPort)]

namespace GraphDescription

/-- The JSON value of a description, its fields in their usual order. -/
def toJson (d : GraphDescription) : Json :=
  .object [("version", .int d.version.toNat), ("name", .string d.name),
    ("nodes", .array (d.nodes.map NodeDescription.toJson)),
    ("links", .array (d.links.map LinkDescription.toJson))]

/-- The RON tree of a description. -/
def toRon (d : GraphDescription) : Ron :=
  .fields [("version", .int d.version.toNat), ("name", .text d.name),
    ("nodes", .list (d.nodes.map NodeDescription.toRon)),
    ("links", .list (d.links.map LinkDescription.toRon))]

/-- The JSON text of a description. -/
def toJsonText (d : GraphDescription) : String := d.toJson.toText

/-- The RON text of a description, unless it nests too deeply. -/
def toRonText? (d : GraphDescription) : Option String := d.toRon.toText?

/-- A description as a configuration: the JSON value in canonical form. -/
def toConfig (d : GraphDescription) : Json := d.toJson.canonical

end GraphDescription

end PortGraph
