import PortGraph.File.Access
import PortGraph.Ron.Reader

/-!
# Settings of a run

What the command line asks for: which graph to run, how often, and what to log.  Settings are kept
in a file and overridden by arguments:

    [--settings FILE] [GRAPH] [ITERATIONS]

Without arguments the file `nodeflow.ron` of the working folder is read, if there is one.
-/

set_option autoImplicit false

namespace PortGraph

/-- What to run. -/
structure Settings where
  /-- The version of their format. -/
  version : UInt32 := 1
  /-- The path of the graph. -/
  graph : String := ""
  /-- How many passes are executed. -/
  iterations : UInt32 := 1
  /-- What is logged. -/
  logFilter : Option String := none
  deriving DecidableEq, Repr

/-- Why there are no settings. -/
inductive SettingsError where
  /-- The file cannot be read. -/
  | file (error : FileError)
  /-- The file holds no settings. -/
  | text (error : Ron.ReadError)
  /-- The file is newer than the library. -/
  | unsupportedVersion (found : UInt32)
  /-- An argument is not understood. -/
  | invalidArgument (report : String)
  /-- No graph is given. -/
  | missingGraph
  deriving DecidableEq

namespace Settings

/-- The version of settings files that are understood. -/
def formatVersion : UInt32 := 1

/-- The file that is looked for in the working folder. -/
def localFile : String := "nodeflow.ron"

/-- The log filter of settings that have none. -/
def defaultLogFilter : String := "nodeflow_graph=info,nodeflow_runner=info"

/-- The log filter in force. -/
def logFilterText (s : Settings) : String := s.logFilter.getD defaultLogFilter

end Settings

/-- The report of an error. -/
def SettingsError.message : SettingsError → String
  | .file error => s!"IO error: {error.message}"
  | .text error => s!"RON parse error: {error.message}"
  | .unsupportedVersion found =>
    s!"Settings version {found.toNat} is newer than supported version "
      ++ s!"{Settings.formatVersion.toNat}"
  | .invalidArgument report => s!"Invalid argument: {report}"
  | .missingGraph =>
    "No graph file given (usage: nodeflow [--settings FILE] [GRAPH] [ITERATIONS])"

namespace Settings

/-! ## Files -/

/-- The fields of a settings file. -/
def asRecord (ρ : Type → Type) [RecordReader ρ] : Record ρ Settings where
  name := "RunSettings"
  fields :=
    [.mandatory "version" RecordReader.word (fun v s ↦ { s with version := v }),
      .mandatory "graph" RecordReader.text (fun g s ↦ { s with graph := g }),
      .defaulted "iterations" RecordReader.word (fun n s ↦ { s with iterations := n }),
      .defaulted "log_filter" (RecordReader.option RecordReader.text)
        (fun f s ↦ { s with logFilter := f })]
  blank := {}

/-- Take the path of the graph as seen from the folder of the settings file. -/
def resolve (s : Settings) (file : String) : Settings :=
  match Path.parent? file with
  | some folder =>
    if Path.isAbsolute s.graph then s else { s with graph := Path.join folder s.graph }
  | none => s

/-- Read the text of a settings file. -/
def ofText (file text : String) : Except SettingsError Settings :=
  match Ron.TextReader.run (RecordReader.record (asRecord Ron.TextReader)) text with
  | .error e => .error (.text e)
  | .ok s =>
    if formatVersion < s.version then .error (.unsupportedVersion s.version)
    else .ok (s.resolve file)

variable {m : Type → Type} [Monad m]

/-- Load a settings file. -/
def load (files : FileAccess m) (file : String) : m (Except SettingsError Settings) := do
  match ← files.read file with
  | .error e => return .error (.file e)
  | .ok text => return ofText file text

/-! ## Arguments -/

end Settings

/-- The arguments of the command line, sorted by what they mean. -/
structure Arguments where
  /-- The settings file that was given last. -/
  file : Option String := none
  /-- The other arguments. -/
  positional : List String := []
  deriving DecidableEq, Repr

namespace Arguments

/-- Whether an argument asks for a settings file. -/
def isFileFlag (arg : String) : Bool := arg = "-s" || arg = "--settings"

/-- Sort the arguments.  The one behind a file flag is a file, whatever it looks like. -/
def scan : List String → Except SettingsError Arguments
  | [] => .ok {}
  | [arg] =>
    if isFileFlag arg then .error (.invalidArgument (arg ++ " expects a file"))
    else if arg.startsWith "-" then .error (.invalidArgument arg)
    else .ok { positional := [arg] }
  | arg :: next :: rest =>
    if isFileFlag arg then
      match scan rest with
      | .error e => .error e
      | .ok found => .ok { found with file := found.file.or (some next) }
    else if arg.startsWith "-" then .error (.invalidArgument arg)
    else
      match scan (next :: rest) with
      | .error e => .error e
      | .ok found => .ok { found with positional := arg :: found.positional }

/-- Sort the arguments, of which at most two may be positional. -/
def ofList (args : List String) : Except SettingsError Arguments :=
  match scan args with
  | .error e => .error e
  | .ok found =>
    match found.positional[2]? with
    | some extra => .error (.invalidArgument extra)
    | none => .ok found

end Arguments

namespace Settings

/-- Read the number of passes. -/
def iterations? (text : String) : Option UInt32 :=
  (naturalOfText? text).bind fun n ↦
    if n < UInt32.size then some (UInt32.ofNat n) else none

/-- Let positional arguments override settings; in the end there must be a graph. -/
def override (positional : List String) (s : Settings) : Except SettingsError Settings := do
  let s := match positional[0]? with
    | some graph => { s with graph }
    | none => s
  let s ← match positional[1]? with
    | some text =>
      match iterations? text with
      | some n => pure { s with iterations := n }
      | none => throw (.invalidArgument ("iteration count " ++ text))
    | none => pure s
  if s.graph.isEmpty then throw .missingGraph else return s

variable {m : Type → Type} [Monad m]

/-- The settings before positional arguments override them.  The file of the working folder is looked
for only if the arguments say nothing. -/
def base (files : FileAccess m) (args : Arguments) : m (Except SettingsError Settings) :=
  match args.file, args.positional with
  | some file, _ => load files file
  | none, [] => do
    if ← files.isPresent localFile then load files localFile else return .ok {}
  | none, _ :: _ => return .ok {}

/-- The settings that the arguments ask for. -/
def ofArguments (files : FileAccess m) (args : List String) :
    m (Except SettingsError Settings) := do
  match Arguments.ofList args with
  | .error e => return .error e
  | .ok args => return (← base files args).bind (override args.positional)

end Settings

end PortGraph
