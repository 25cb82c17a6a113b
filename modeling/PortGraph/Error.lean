import PortGraph.Json.Reader
import PortGraph.Link
import PortGraph.Ron.Reader

/-!
# Errors

Why an operation on a graph or a node was refused.  A failure of a node is reported by its graph
together with the name of the node, and a failure of a nested graph is a failure of the node that
holds it, so errors wrap one another: unwrapping them leads to the node the failure came from.
-/

set_option autoImplicit false

namespace PortGraph

/-- Why a file cannot be read or written. -/
inductive FileError where
  /-- There is no such file or folder. -/
  | notFound
  /-- Something on the way to it is a file. -/
  | notDirectory
  /-- It is a folder. -/
  | isDirectory
  /-- Its name is longer than names may be. -/
  | nameTooLong
  /-- Its name has a character that no name may have. -/
  | invalidName
  /-- Its bytes are no text. -/
  | notText
  /-- Anything else. -/
  | other (report : String)
  deriving DecidableEq, Repr

/-- The report of a file error. -/
def FileError.message : FileError → String
  | .notFound => "No such file or directory (os error 2)"
  | .notDirectory => "Not a directory (os error 20)"
  | .isDirectory => "Is a directory (os error 21)"
  | .nameTooLong => "File name too long (os error 36)"
  | .invalidName => "file name contained an unexpected NUL byte"
  | .notText => "stream did not contain valid UTF-8"
  | .other report => report

/-- The report of a JSON text that cannot be read. -/
def Json.ReadError.message : Json.ReadError → String
  | .endOfText => "unexpected end of the text"
  | .malformed => "unexpected character"
  | .shape e => e.message

mutual

/-- Why a graph refuses an operation. -/
inductive GraphError where
  /-- The node has a port of this name on the same side. -/
  | duplicatePort (place : Endpoint)
  /-- The graph has a node of this name. -/
  | duplicateNode (name : String)
  /-- The factory knows this type. -/
  | duplicateType (factory typeName : String)
  /-- The set has a factory of this name. -/
  | duplicateFactory (name : String)
  /-- No factory knows this type. -/
  | unknownType (name : String)
  /-- The graph has no such node. -/
  | nodeNotFound (name : String)
  /-- The node has no such port. -/
  | portNotFound (place : Endpoint)
  /-- The port is on the other side of the node. -/
  | wrongDirection (place : Endpoint) (expected : Direction)
  /-- The ends of a link carry different data types. -/
  | typeMismatch (source : Endpoint) (sourceType : DataType)
      (target : Endpoint) (targetType : DataType)
  /-- The input has a link. -/
  | alreadyLinked (place : Endpoint)
  /-- No link ends at this input. -/
  | linkNotFound (place : Endpoint)
  /-- No link has this id. -/
  | linkIdNotFound (id : LinkId)
  /-- These nodes lie on cycles or behind them. -/
  | cyclicGraph (nodes : List String)
  /-- Nothing supplies this required input. -/
  | unsatisfiedInput (place : Endpoint)
  /-- The graph is not compiled. -/
  | notCompiled (graph : String)
  /-- Nothing can be read off this port. -/
  | noData (place : Endpoint)
  /-- The value is of another kind than asked for. -/
  | valueMismatch (place : Endpoint) (expected found : DataType)
  /-- A node failed to initialise. -/
  | initFailed (node : String) (cause : NodeError)
  /-- A node failed to execute. -/
  | executionFailed (node typeName : String) (cause : NodeError)
  /-- A node cannot be saved or restored. -/
  | persistence (node : String) (cause : NodeError)
  /-- The graph is protected from removals. -/
  | protectedGraph (name : String)
  /-- A file cannot be read or written. -/
  | file (error : FileError)
  /-- A file is no RON description. -/
  | ronText (error : Ron.ReadError)
  /-- A description nests too deeply to be written as RON. -/
  | ronTooDeep
  /-- A file is no JSON description. -/
  | jsonText (error : Json.ReadError)
  /-- The extension of a file names no format. -/
  | unsupportedFormat (path : String)

/-- Why a node refuses an operation. -/
inductive NodeError where
  /-- One of its ports or its nested graph refused. -/
  | graph (error : GraphError)
  /-- It failed for a reason of its own. -/
  | failed (report : String)
  /-- It holds what cannot be saved. -/
  | notPersistable (typeName : String)
  /-- Its configuration has the wrong shape. -/
  | config (error : ShapeError)

end

mutual

/-- The report of a graph's refusal. -/
def GraphError.message : GraphError → String
  | .duplicatePort place => s!"Node {place.node} already has a port named {place.port}"
  | .duplicateNode name => s!"Duplicate node name: {name}"
  | .duplicateType factory typeName =>
    s!"Type {typeName} is already registered in factory {factory}"
  | .duplicateFactory name => s!"Duplicate factory name: {name}"
  | .unknownType name => s!"Unknown node type: {name}"
  | .nodeNotFound name => s!"Node not found: {name}"
  | .portNotFound place => s!"Port not found: {place.text}"
  | .wrongDirection place expected => s!"Port {place.text} is not an {expected.title} port"
  | .typeMismatch source sourceType target targetType =>
    s!"Link type mismatch: {source.text} ({sourceType.name}) -> {target.text} ({targetType.name})"
  | .alreadyLinked place => s!"Input {place.text} is already linked"
  | .linkNotFound place => s!"No link ends at {place.text}"
  | .linkIdNotFound id => s!"Link not found: {id.text}"
  | .cyclicGraph nodes => "Graph contains a cycle through " ++ String.intercalate ", " nodes
  | .unsatisfiedInput place => s!"Required input {place.text} is not linked"
  | .notCompiled graph => s!"Graph {graph} is not compiled"
  | .noData place => s!"No data available on {place.text}"
  | .valueMismatch place expected found =>
    s!"Value on {place.text} is {found.name}, not {expected.name}"
  | .initFailed node cause => s!"Initialization of node {node} failed: {cause.message}"
  | .executionFailed node typeName cause =>
    s!"Execution failed with node {node} ({typeName}): {cause.message}"
  | .persistence node cause => s!"Unable to persist node {node}: {cause.message}"
  | .protectedGraph name => s!"Graph {name} is protected"
  | .file error => s!"IO error: {error.message}"
  | .ronText error => s!"RON parse error: {error.message}"
  | .ronTooDeep => "RON write error: too many nested values"
  | .jsonText error => s!"JSON error: {error.message}"
  | .unsupportedFormat path => s!"Unsupported graph file format: {path}"

/-- The report of a node's refusal. -/
def NodeError.message : NodeError → String
  | .graph error => error.message
  | .failed report => report
  | .notPersistable typeName => s!"Nodes of type {typeName} cannot be persisted"
  | .config error => s!"Invalid node configuration: {error.message}"

end

/-- A failure that is a node's own: no graph reports it of its nodes when it is compiled, executed or
saved. -/
def NodeError.isOwn : NodeError → Bool
  | .graph (.cyclicGraph _) | .graph (.unsatisfiedInput _) | .graph (.initFailed ..) => false
  | .graph (.notCompiled _) | .graph (.executionFailed ..) | .graph (.persistence ..) => false
  | _ => true

/-- The endpoint at which an operation found nothing to read, if that is why it was refused. -/
def GraphError.missingData? : GraphError → Option Endpoint
  | .noData place => some place
  | _ => none

end PortGraph
