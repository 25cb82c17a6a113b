import PortGraph.Node.Operation

/-!
# Custom nodes

A host may put nodes of its own into a graph.  Such a node does what the host made it for: it answers
each call in view of its panel and of all that happened to it before, so that whatever state it keeps
is a matter of what it remembers.

This much is known of a node that does what graphs expect of nodes.

* It writes on its outputs while it executes, and nowhere else on its panel.
* It does not look at its own name.
* The failures that it reports are its own.
* What it is saved as is a matter of the configurations that it took over, not of the calls.
-/

set_option autoImplicit false

namespace PortGraph

/-- A failure that is a node's own. -/
abbrev Fault : Type := { e : NodeError // e.isOwn = true }

/-- Something that happened to a node. -/
inductive Visit where
  /-- It was called, and found this panel, on which its name is left out. -/
  | called (call : Call) (panel : Panel)
  /-- It took a configuration over. -/
  | configured (config : Json)

/-- The configuration that a node took over then. -/
def Visit.config? : Visit → Option Json
  | .called .. => none
  | .configured config => some config

/-- What a node does to its outputs. -/
inductive Write where
  /-- Publish on an output; no such output, no change. -/
  | publish (output : String) (publication : Publication)
  /-- Empty all outputs. -/
  | reset

/-- A node of the host's own.  What happened to it is remembered with the latest first. -/
structure Custom where
  /-- What happened to it. -/
  visits : List Visit := []
  /-- How it gets ready: what it logs, and whether it fails. -/
  onInit : List Visit → Panel → List LogLine × Except Fault Unit
  /-- How it executes: what it logs, what it does to its outputs, and whether it fails. -/
  onExecute : List Visit → Panel → List LogLine × List Write × Except Fault Unit
  /-- How it gives back what it took: what it logs. -/
  onDestroy : List Visit → Panel → List LogLine
  /-- Whether it takes a configuration over. -/
  onRestore : List Visit → Json → Except NodeError Unit
  /-- What it is saved as, being of the type of that name, after it took these configurations over. -/
  onSave : List Json → String → Except NodeError (Option Json)

/-- The panel without the name of the node. -/
def Panel.nameless (panel : Panel) : Panel := { panel with name := "" }

/-- Write on the outputs. -/
def Panel.write : List Write → Panel → Act Panel
  | [], panel => return panel
  | .publish output publication :: writes, panel => do
    let packet ← publication.packet
    Panel.write writes (panel.modifyPort .output output (·.store (some packet)))
  | .reset :: writes, panel => Panel.write writes panel.resetOutputs

namespace Custom

/-- Remember what happened. -/
def remember (custom : Custom) (visit : Visit) : Custom :=
  { custom with visits := visit :: custom.visits }

/-- Log what a node has to log. -/
def report (lines : List LogLine) : Act Unit := lines.forM fun line ↦ Act.emit (.log line)

/-- Get ready. -/
def init (custom : Custom) (panel : Panel) : Act (Reply NodeError Custom Unit) := do
  let (lines, result) := custom.onInit custom.visits panel.nameless
  report lines
  return (result.mapError Subtype.val, custom.remember (.called .init panel.nameless))

/-- Execute. -/
def execute (custom : Custom) (panel : Panel) : Act (Reply NodeError (Panel × Custom) Unit) := do
  let (lines, writes, result) := custom.onExecute custom.visits panel.nameless
  report lines
  let after ← Panel.write writes panel
  return (result.mapError Subtype.val, after, custom.remember (.called .execute panel.nameless))

/-- Give back what `init` took. -/
def destroy (custom : Custom) (panel : Panel) : Act Custom := do
  report (custom.onDestroy custom.visits panel.nameless)
  return custom.remember (.called .destroy panel.nameless)

/-- Take a configuration over. -/
def restore (custom : Custom) (config : Json) : Except NodeError Custom :=
  match custom.onRestore custom.visits config with
  | .error e => .error e
  | .ok () => .ok (custom.remember (.configured config))

/-- What it is saved as. -/
def persisted (custom : Custom) (typeName : String) : Except NodeError (Option Json) :=
  custom.onSave (custom.visits.filterMap Visit.config?) typeName

end Custom

end PortGraph
