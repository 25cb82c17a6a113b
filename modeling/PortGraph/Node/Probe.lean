import PortGraph.Node.Custom

/-!
# Probes

A probe is a node of the host's.  If the host made it for something, it answers its calls as the host
wants it to (`Custom`).  Otherwise it is there for trying graphs out: it leaves a mark for each
lifecycle call that reaches it, passes its inputs on to its outputs, and fails or stays silent on
request.  The inputs are matched with the outputs by position; an output without an input gets the
number of passes since the probe was initialised.
-/

set_option autoImplicit false

namespace PortGraph

/-! ## Planned ports -/

/-- A port to be made. -/
structure PortPlan where
  /-- Its name. -/
  name : String
  /-- What it carries. -/
  dataType : DataType
  /-- The side it is made for. -/
  direction : Direction
  /-- Whether it asks to be supplied. -/
  isRequired : Bool := false
  /-- What it falls back on. -/
  default : Option Value := none

/-- Make a planned port. -/
def PortPlan.make (plan : PortPlan) : Act Port := do
  let default ← plan.default.mapM Act.publish
  let p : Port :=
    { name := plan.name, direction := plan.direction, dataType := plan.dataType, default }
  return if plan.isRequired then p.require else p

/-- Make planned ports and add them to a side of a panel, one after the other. -/
def Panel.addPlanned (side : Direction) : List PortPlan → Panel → Attempt Panel
  | [], panel => return panel
  | plan :: plans, panel => do
    let p ← plan.make
    let (_, panel) ← (panel.addPort side p : Except GraphError (Nat × Panel))
    Panel.addPlanned side plans panel

/-! ## Probes -/

/-- What a probe does. -/
structure Probe where
  /-- Whether it fails to initialise. -/
  failsInit : Bool := false
  /-- Whether it fails to execute. -/
  failsExecute : Bool := false
  /-- Whether it publishes nothing. -/
  isSilent : Bool := false
  /-- Whether it refuses to be saved. -/
  refuses : Bool := false
  /-- Its configuration. -/
  config : Option Json := none
  /-- The passes since it was initialised. -/
  passes : Int64 := 0
  /-- What the host made it for, if it does nothing of the above. -/
  custom : Option Custom := none

/-- A probe to be made. -/
structure ProbePlan where
  /-- The name of its type. -/
  typeName : String
  /-- Its inputs. -/
  inputs : List PortPlan := []
  /-- Its outputs. -/
  outputs : List PortPlan := []
  /-- What it does. -/
  probe : Probe := {}

/-- The panel of a planned probe. -/
def ProbePlan.panel (plan : ProbePlan) (name : String) : Attempt Panel := do
  let panel ← Panel.addPlanned .input plan.inputs { name, typeName := plan.typeName }
  Panel.addPlanned .output plan.outputs panel

namespace Probe

/-- Leave the mark of a call. -/
def leaveMark (panel : Panel) (call : String) : Act Unit := Act.mark (call ++ ":" ++ panel.name)

/-- Start counting passes. -/
def start (probe : Probe) (panel : Panel) : Act (Reply NodeError Probe Unit) :=
  if probe.failsInit then return (.error (.failed "init refused"), probe)
  else do
    leaveMark panel "init"
    return (.ok (), { probe with passes := 0 })

/-- Publish on the outputs of the given names what the inputs hold, or else the passes. -/
def passOn (passes : Int64) : List String → List String → Panel →
    Act (Reply GraphError Panel Unit)
  | _, [], panel => return (.ok (), panel)
  | [], output :: outputs, panel => do
    let packet ← Act.publish ⟨.scalar .int, passes⟩
    match panel.publish output packet with
    | .error e => return (.error e, panel)
    | .ok panel => passOn passes [] outputs panel
  | input :: inputs, output :: outputs, panel =>
    match panel.read .input input with
    | .error e => return (.error e, panel)
    | .ok packet =>
      match panel.publish output packet with
      | .error e => return (.error e, panel)
      | .ok panel => passOn passes inputs outputs panel

/-- Pass the inputs on. -/
def relay (probe : Probe) (panel : Panel) : Act (Reply NodeError (Panel × Probe) Unit) := do
  leaveMark panel "execute"
  if probe.failsExecute then
    return (.error (.failed "execute refused"), panel, probe)
  else if probe.isSilent then
    return (.ok (), panel, probe)
  else
    let (result, panel) ←
      passOn probe.passes (panel.inputs.map Port.name) (panel.outputs.map Port.name) panel
    match result with
    | .error e => return (.error (.graph e), panel, probe)
    | .ok () => return (.ok (), panel, { probe with passes := probe.passes + 1 })

/-- Get ready. -/
def init (probe : Probe) (panel : Panel) : Act (Reply NodeError Probe Unit) :=
  match probe.custom with
  | none => probe.start panel
  | some c => do
    let (result, c) ← c.init panel
    return (result, { probe with custom := some c })

/-- Execute. -/
def execute (probe : Probe) (panel : Panel) : Act (Reply NodeError (Panel × Probe) Unit) :=
  match probe.custom with
  | none => probe.relay panel
  | some c => do
    let (result, panel, c) ← c.execute panel
    return (result, panel, { probe with custom := some c })

/-- Give back what `init` took. -/
def destroy (probe : Probe) (panel : Panel) : Act Probe :=
  match probe.custom with
  | none => do
    leaveMark panel "destroy"
    return probe
  | some c => do
    let c ← c.destroy panel
    return { probe with custom := some c }

/-- What a probe is saved as. -/
def persisted (probe : Probe) (panel : Panel) : Except NodeError (Option Json) :=
  match probe.custom with
  | none => if probe.refuses then .error (.notPersistable panel.typeName) else .ok probe.config
  | some c => c.persisted panel.typeName

/-- Take a configuration over, unless it asks for a failure. -/
def restore (probe : Probe) (config : Json) : Except NodeError Probe :=
  match probe.custom with
  | none =>
    match config.get? "fail" with
    | some (.string report) => .error (.failed report)
    | _ => .ok { probe with config := some config }
  | some c =>
    match c.restore config with
    | .error e => .error e
    | .ok c => .ok { probe with custom := some c }

end Probe

end PortGraph
