import PortGraph.File.Access
import PortGraph.Net.Create

/-!
# Graphs in files

Saving a net to a file and loading it again, in the format that the name of the file tells.
Reading and writing is up to the `FileAccess`; all else is an action on what was read.
-/

set_option autoImplicit false

namespace PortGraph

namespace GraphDescription

/-- The text of a description in a format. -/
def toFileText (format : FileFormat) (d : GraphDescription) : Except GraphError String :=
  match format with
  | .json => .ok d.toJsonText
  | .ron =>
    match d.toRonText? with
    | some text => .ok text
    | none => .error .ronTooDeep

/-- Read a description in a format. -/
def ofFileText (format : FileFormat) (text : String) : Except GraphError GraphDescription :=
  match format with
  | .json => (ofJsonText text).mapError .jsonText
  | .ron => (ofRonText text).mapError .ronText

/-- Warn of a description that is newer than the library. -/
def warnNewer (d : GraphDescription) (path : String) : Act Unit :=
  if formatVersion < d.version then
    Act.log .warn .description <|
      s!"Graph file {showPath path} has format version {d.version.toNat}"
        ++ s!" (newer than {formatVersion.toNat})"
  else return ()

end GraphDescription

namespace Net

/-- The text in which a net is kept in a file. -/
def fileText (path : String) (g : Net) : Except GraphError String := do
  let d ← description g
  let format ← FileFormat.ofPath path
  d.toFileText format

/-- Record that a net was saved. -/
def markSaved (path : String) (g : Net) : Act Net := do
  Act.log .info .graph s!"Graph {g.name} saved to {showPath path}"
  return { g with isModified := false }

/-- Rebuild a net from the text of a file. -/
def ofFileText (path : String) (format : FileFormat) (text : String) (factories : FactorySet) :
    Attempt Net := do
  let d ← GraphDescription.ofFileText format text
  d.warnNewer path
  let g ← ofDescription factories d
  let nodes := g.slots.length
  let links := g.links.length
  Act.log .info .graph
    s!"Graph {g.name} loaded from {showPath path}: {nodes} nodes, {links} links"
  return g

variable {m : Type → Type} [Monad m]

/-- Save a net to a file. -/
def save (files : FileAccess m) (path : String) (g : Net) :
    m (Act (Reply GraphError Net Unit)) := do
  match g.fileText path with
  | .error e => return return (.error e, g)
  | .ok text =>
    match ← files.write path text with
    | .error e => return return (.error (.file e), g)
    | .ok () => return do
      let g ← markSaved path g
      return (.ok (), g)

/-- Read the file of a net; what comes of it is up to the factories then given. -/
def load (files : FileAccess m) (path : String) : m (FactorySet → Attempt Net) := do
  match FileFormat.ofPath path with
  | .error e => return fun _ ↦ throw e
  | .ok format =>
    match ← files.read path with
    | .error e => return fun _ ↦ throw (.file e)
    | .ok text => return ofFileText path format text

end Net

end PortGraph
