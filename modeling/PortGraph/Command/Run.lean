import PortGraph.Command.LogFilter
import PortGraph.Command.Settings
import PortGraph.Net.Storage

/-!
# Running a graph from the command line

A run loads a graph, compiles it, executes it as often as the settings say, and logs what its free
outputs hold in the end.  It gives an exit code and the log lines that pass the filter.
-/

set_option autoImplicit false

namespace PortGraph

/-- The version that a run announces. -/
def commandVersion : String := "0.1.0"

/-- What a run gives. -/
structure RunReport where
  /-- Its exit code: zero if nothing failed. -/
  exitCode : UInt8
  /-- The log lines that are shown. -/
  lines : List LogLine
  deriving DecidableEq

namespace Command

/-- Write a log line of the command. -/
def log (level : Level) (message : String) : Act Unit := Act.log level .command message

/-- Log the inputs that are left to their defaults. -/
def logSetters (g : Net) : Act Unit :=
  g.setters.forM fun a ↦
    log .debug s!"Input {a.place.text} ({a.dataType.name}) keeps its default value"

/-- Execute the passes that are left of `total`. -/
def passes (total : Nat) : Nat → Net → Attempt Net
  | 0, g => return g
  | left + 1, g => do
    let g ← Graph.attempt Net.execute g
    let iteration := total - left
    log .debug s!"Pass {iteration}/{total} done"
    passes total left g

/-- Log what the free outputs hold. -/
def logGetters (g : Net) : Act Unit :=
  g.getters.forM fun a ↦
    match g.output a.place with
    | .ok packet => log .info s!"{a.place.text} = {packet.value.shown}"
    | .error _ => log .info s!"{a.place.text} = <no data>"

/-- Compile a loaded graph, execute it and log what it computed. -/
def runNet (iterations : Nat) (g : Net) : Attempt Unit := do
  let g ← Graph.attempt Net.compile g
  logSetters g
  let g ← passes iterations iterations g
  logGetters g
  Net.discard g

variable {m : Type → Type} [Monad m]

/-- Load a graph with the types that come with the library, and run it. -/
def runGraph (files : FileAccess m) (s : Settings) : m (Attempt Unit) := do
  let loaded ← Net.load files s.graph
  return do
    let factories ← FactorySet.builtins
    let g ← loaded factories
    runNet s.iterations.toNat g

/-- Log the settings and do what they say. -/
def runSettings (files : FileAccess m) (s : Settings) : m (Attempt Unit) := do
  let action ← runGraph files s
  return do
    let passes := s.iterations.toNat
    log .info s!"Running {showPath s.graph} for {passes} pass(es)"
    action

/-- Do what is done, log why it failed if it does, and give the exit code. -/
def concluding (action : Act (Except String Unit)) : Act UInt8 := do
  log .info s!"Starting nodeflow v{commandVersion}"
  match ← action with
  | .ok () => return 0
  | .error report => do
    log .error report
    return 1

/-- The filter of a text, or the default one if the text is malformed. -/
def filterOf (text : String) : Except FilterError LogFilter :=
  match LogFilter.ofText text with
  | .error .malformed => LogFilter.ofText Settings.defaultLogFilter
  | read => read

/-- A log line as it is shown. -/
def shownLine (line : LogLine) : LogLine := { line with message := terminalText line.message }

/-- The report of a run that stops before it begins. -/
def stopped : RunReport := ⟨101, []⟩

/-- The report of an action, whose log lines are filtered; without a filter it is not begun. -/
def report (filterText : String) (action : Act UInt8) : RunReport :=
  match filterOf filterText with
  | .error _ => stopped
  | .ok filter =>
    let outcome := action 1
    let lines := (Event.linesOfAll outcome.events).filter filter.shows
    ⟨outcome.result, lines.map shownLine⟩

/-- Run the command with the given arguments. -/
def run (files : FileAccess m) (args : List String) : m RunReport := do
  match ← Settings.ofArguments files args with
  | .error e =>
    return report Settings.defaultLogFilter (concluding (return .error e.message))
  | .ok s =>
    let action ← runSettings files s
    return report s.logFilterText
      (concluding do return (← action.run).mapError GraphError.message)

end Command

end PortGraph
