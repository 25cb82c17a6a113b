import PortGraph.Error
import PortGraph.File.Path

/-!
# Access to files

What the library needs of a file system, in whatever monad it comes, and the formats in which
graphs are kept, which file names tell by their extensions.
-/

set_option autoImplicit false

namespace PortGraph

/-- Access to the files of a system. -/
structure FileAccess (m : Type → Type) where
  /-- Read the text of a file. -/
  read : String → m (Except FileError String)
  /-- Write a text to a file, in place of what it held. -/
  write : String → String → m (Except FileError Unit)
  /-- Whether there is a file or folder at a path. -/
  isPresent : String → m Bool

/-- The formats of graph files. -/
inductive FileFormat where
  | ron
  | json
  deriving DecidableEq, Repr

/-- The format that the extension of a path tells, in letters of either case. -/
def FileFormat.ofPath (path : String) : Except GraphError FileFormat :=
  match (Path.extension? path).map String.toLower with
  | some "ron" => .ok .ron
  | some "json" => .ok .json
  | _ => .error (.unsupportedFormat path)

end PortGraph
