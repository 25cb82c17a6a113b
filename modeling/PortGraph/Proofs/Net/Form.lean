import PortGraph.Proofs.Graph.Traits
import PortGraph.Proofs.Net.Coherent

/-!
# The form of a net

Nets are compared by what is left of them when they are seen through a lens, at every depth alike.
No lens shows names of graphs and ids of links, flags and schedules, the values of inputs or the
stamps of packets.  What it shows of operations and outputs is up to it:

* the form of a net (`Lens.form`) has its operations, and no values;
* the shape (`Lens.shape`) leaves the operators of `mapping` and `folding` out as well, which are
  not saved;
* the outcome (`Lens.outcome`) has the values of the outputs besides.

Whatever is asked of a net, its nodes keep their forms (`Behaviour.keepsTrait_form`).
-/

set_option autoImplicit false

namespace PortGraph

open PortGraph.Graph

/-! ## Lenses -/

/-- A way to look at nodes that leaves some of them out. -/
structure Lens where
  /-- What is seen of an operation. -/
  operation : Operation → Operation
  /-- What is seen of an output. -/
  output : Port → Port

/-- The packet without its stamp. -/
def Packet.unstamped (p : Packet) : Packet := ⟨p.value, 0⟩

/-- The link without its id. -/
def Link.unnumbered (l : Link) : Link := { l with id := .nil }

/-- The port without its value. -/
def Port.form (p : Port) : Port :=
  { p with default := p.default.map Packet.unstamped, stored := none }

/-- The port with its value. -/
def Port.outcome (p : Port) : Port := { p.form with stored := p.stored.map Packet.unstamped }

/-- The operation with the operator it is made with. -/
def Operation.shape : Operation → Operation
  | .mapping e _ => .mapping e id
  | .folding e _ init => .folding e (fun acc _ ↦ acc) init
  | op => op

namespace Lens

/-- Shows all but values. -/
def form : Lens := ⟨id, Port.form⟩

/-- Shows all but values and operators. -/
def shape : Lens := ⟨Operation.shape, Port.form⟩

/-- Shows the values of outputs. -/
def outcome : Lens := ⟨id, Port.outcome⟩

/-- Look through one lens at what another one shows. -/
def after (b a : Lens) : Lens := ⟨b.operation ∘ a.operation, b.output ∘ a.output⟩

end Lens

/-- A panel through a lens. -/
def Panel.through (lens : Lens) (panel : Panel) : Panel :=
  { name := ""
    typeName := panel.typeName
    inputs := panel.inputs.map Port.form
    outputs := panel.outputs.map lens.output }

/-- The node as if it had not been called. -/
def Custom.uncalled (custom : Custom) : Custom :=
  { custom with visits := custom.visits.filter (·.config?.isSome) }

/-- The probe as if it had not been called. -/
def Probe.uncalled (probe : Probe) : Probe :=
  { probe with passes := 0, custom := probe.custom.map Custom.uncalled }

namespace Behaviour

mutual

/-- What nodes compute with, through a lens. -/
def through (lens : Lens) : Behaviour → Behaviour
  | .operation op => .operation (lens.operation op)
  | .probe p => .probe p.uncalled
  | .nested g inputs outputs =>
    .nested { name := "", slots := slotsThrough lens g.slots, links := g.links.map Link.unnumbered }
      inputs outputs

/-- Places of a net through a lens. -/
def slotsThrough (lens : Lens) : List (Slot Behaviour) → List (Slot Behaviour)
  | [] => []
  | s :: rest =>
    ⟨s.key, ⟨s.node.panel.through lens, through lens s.node.behaviour⟩⟩ :: slotsThrough lens rest

end

end Behaviour

/-- A node through a lens. -/
def Node.through (lens : Lens) (n : Node Behaviour) : Node Behaviour :=
  ⟨n.panel.through lens, n.behaviour.through lens⟩

/-- A net through a lens. -/
def Net.through (lens : Lens) (g : Net) : Net :=
  { name := ""
    slots := g.slots.map fun s ↦ ⟨s.key, s.node.through lens⟩
    links := g.links.map Link.unnumbered }

/-! ## Forms of ports -/

namespace Port

@[simp] theorem form_name (p : Port) : p.form.name = p.name := rfl

@[simp] theorem form_form (p : Port) : p.form.form = p.form := by
  rw [form, form]
  simp only [Option.map_map]
  rfl

@[simp] theorem form_outcome (p : Port) : p.outcome.form = p.form := form_form p

@[simp] theorem form_store (p : Port) (packet : Option Packet) :
    (p.store packet).form = p.form := rfl

theorem form_comp_form : Port.form ∘ Port.form = Port.form := funext form_form

end Port

/-! ## Through several lenses -/

@[simp] theorem Custom.uncalled_uncalled (custom : Custom) :
    custom.uncalled.uncalled = custom.uncalled := by
  simp [uncalled]

@[simp] theorem Probe.uncalled_uncalled (probe : Probe) : probe.uncalled.uncalled = probe.uncalled := by
  simp [uncalled, Function.comp_def]

namespace Behaviour

theorem slotsThrough_eq_map (lens : Lens) (slots : List (Slot Behaviour)) :
    slotsThrough lens slots = slots.map fun s ↦ ⟨s.key, s.node.through lens⟩ := by
  induction slots with
  | nil => rfl
  | cons s slots ih =>
    rw [slotsThrough, ih]
    rfl

theorem through_nested (lens : Lens) (g : Net) (inputs outputs : List Endpoint) :
    (nested g inputs outputs).through lens = nested (Net.through lens g) inputs outputs := by
  rw [through, slotsThrough_eq_map]
  rfl

end Behaviour

theorem Panel.through_through (a b : Lens) (panel : Panel) :
    (panel.through a).through b = panel.through (b.after a) := by
  simp only [through, List.map_map, Port.form_comp_form]
  rfl

namespace Behaviour

mutual

/-- A lens that is looked through at what another one shows. -/
theorem through_through (a b : Lens) : ∀ x : Behaviour,
    (x.through a).through b = x.through (b.after a)
  | .operation _ => rfl
  | .probe p => congrArg probe p.uncalled_uncalled
  | .nested g inputs outputs => by
    simp only [through, slotsThrough_slotsThrough a b g.slots, List.map_map]
    rfl

theorem slotsThrough_slotsThrough (a b : Lens) : ∀ slots : List (Slot Behaviour),
    slotsThrough b (slotsThrough a slots) = slotsThrough (b.after a) slots
  | [] => rfl
  | s :: rest => by
    simp only [slotsThrough, Panel.through_through, through_through a b s.node.behaviour,
      slotsThrough_slotsThrough a b rest]

end

end Behaviour

theorem Node.through_through (a b : Lens) (n : Node Behaviour) :
    (n.through a).through b = n.through (b.after a) := by
  rw [through, through, through, Panel.through_through, Behaviour.through_through]

theorem Net.through_through (a b : Lens) (g : Net) :
    Net.through b (Net.through a g) = Net.through (b.after a) g := by
  simp only [through, List.map_map, Function.comp_def, Node.through_through]
  rfl

/-! ## Equal forms -/

/-- What two nets have in common through one lens they have in common through any that shows less. -/
theorem Net.through_after_eq {a b : Lens} {g k : Net}
    (h : Net.through a k = Net.through a g) :
    Net.through (b.after a) k = Net.through (b.after a) g := by
  rw [← through_through, h, through_through]

theorem Lens.form_after_outcome : form.after outcome = form :=
  congrArg (Lens.mk id) (funext Port.form_outcome)

theorem Lens.shape_after_form : shape.after form = shape :=
  congrArg (Lens.mk Operation.shape) (funext Port.form_form)

theorem Lens.shape_after_shape : shape.after shape = shape := by
  have hoperation : Operation.shape ∘ Operation.shape = Operation.shape := by
    funext op
    cases op <;> rfl
  rw [after, shape, hoperation, Port.form_comp_form]

/-- The form of a panel lies in what calls leave of it. -/
@[simp] theorem Panel.form_bare (panel : Panel) :
    panel.bare.through .form = panel.through .form := by
  rw [through, through, bare, outline]
  simp only [List.map_map]
  rfl

namespace Net

variable {g k : Net}

/-- The form of a net lies in its skeleton and the forms of what its nodes compute with. -/
theorem form_eq_of_image_eq
    (h : Graph.image (Behaviour.through .form) k = Graph.image (Behaviour.through .form) g) :
    Net.through .form k = Net.through .form g := by
  have hform : ∀ j : Net, Net.through .form j =
      { name := ""
        slots := (Graph.image (Behaviour.through .form) j).slots.map fun s ↦
          ⟨s.key, ⟨s.node.panel.through .form, s.node.behaviour⟩⟩
        links := (Graph.image (Behaviour.through .form) j).links.map Link.unnumbered } := by
    intro j
    simp only [through, Graph.image, List.map_map, Function.comp_def, Panel.form_bare]
    rfl
  rw [hform, h, ← hform]

end Net

/-! ## Calls -/

namespace Behaviour

variable {level : Nat} {n : Node Behaviour} {stamp : Nat}

theorem init_operation {op : Operation} (hb : n.behaviour = .operation op) :
    (life (level + 1)).init n stamp = ⟨(.ok (), n), stamp, []⟩ := by
  rw [life, Lifecycle.around]
  dsimp only
  rw [hb]
  rfl

theorem init_nested {g : Net} {inputs outputs : List Endpoint}
    (hb : n.behaviour = .nested g inputs outputs) :
    ((life (level + 1)).init n stamp).result =
      reply n inputs outputs (Graph.compile (life level) g stamp).result := by
  rw [life, Lifecycle.around]
  dsimp only
  rw [hb]
  rfl

theorem execute_operation {op : Operation} (hb : n.behaviour = .operation op) :
    ((life (level + 1)).execute n stamp).result =
      ((op.execute n.panel stamp).result.1,
        ⟨(op.execute n.panel stamp).result.2, .operation op⟩) := by
  rw [life, Lifecycle.around, ← hb]
  dsimp only
  rw [hb]
  rfl

theorem execute_nested {g : Net} {inputs outputs : List Endpoint}
    (hb : n.behaviour = .nested g inputs outputs) :
    (life (level + 1)).execute n stamp = executeNested (life level) n g inputs outputs stamp := by
  rw [life, Lifecycle.around]
  dsimp only
  rw [hb]

theorem destroy_nested {g : Net} {inputs outputs : List Endpoint}
    (hb : n.behaviour = .nested g inputs outputs) :
    ((life (level + 1)).destroy n stamp).result =
      { n with behaviour := .nested (Graph.release (life level) g stamp).result inputs outputs } := by
  rw [life, Lifecycle.around]
  dsimp only
  rw [hb]
  rfl

end Behaviour

theorem Net.image_feedAll {γ : Type} {T : Behaviour → γ} (ports : List (Port × Endpoint))
    (g : Net) : Graph.image T (Behaviour.feedAll ports g).2 = Graph.image T g :=
  feedAll_induction (P := fun k ↦ Graph.image T k = Graph.image T g) ports rfl
    fun k _ _ h ↦ (image_modifyPort_store k _ _ _).trans h

/-- No lens shows what is put on an input. -/
theorem Net.through_modifyPort_store (lens : Lens) (g : Net) (place : Endpoint)
    (packet : Option Packet) :
    through lens (g.modifyPort .input place (·.store packet)) = through lens g := by
  have hslots : (g.modifyPort .input place (·.store packet)).slots.map
      (fun s ↦ (⟨s.key, s.node.through lens⟩ : Slot Behaviour)) =
      g.slots.map fun s ↦ ⟨s.key, s.node.through lens⟩ := by
    refine List.map_map.trans (List.map_congr_left fun s _ ↦ ?_)
    rw [Function.comp_apply]
    split
    · have hinputs : (Port.modifyNamed place.port (·.store packet) s.node.panel.inputs).map Port.form =
          s.node.panel.inputs.map Port.form := Port.map_modifyNamed_of_eq fun _ ↦ rfl
      exact congrArg (fun inputs ↦ (⟨s.key, ⟨⟨"", s.node.panel.typeName, inputs,
        s.node.panel.outputs.map lens.output, false, none⟩, s.node.behaviour.through lens⟩⟩ :
          Slot Behaviour)) hinputs
    · rfl
  exact congrArg (fun slots ↦ ({ name := "", slots, links := g.links.map Link.unnumbered } : Net))
    hslots

/-- No lens shows what a net is fed. -/
theorem Net.through_feedAll (lens : Lens) (ports : List (Port × Endpoint)) (g : Net) :
    through lens (Behaviour.feedAll ports g).2 = through lens g :=
  feedAll_induction (P := fun k ↦ through lens k = through lens g) ports rfl
    fun k _ _ h ↦ (through_modifyPort_store lens k _ _).trans h

theorem Probe.uncalled_init (probe : Probe) (panel : Panel) (stamp : Nat) :
    (probe.init panel stamp).result.2.uncalled = probe.uncalled := by
  rw [init]
  cases hc : probe.custom with
  | none =>
    simp only [start]
    split <;> rfl
  | some c => simp only [uncalled, hc]; rfl

theorem Probe.uncalled_relay (probe : Probe) (panel : Panel) (stamp : Nat) :
    (probe.relay panel stamp).result.2.2.uncalled = probe.uncalled := by
  rw [relay]
  simp only [Act.bind_apply]
  split
  · rfl
  · split
    · rfl
    · simp only [Act.bind_apply]
      cases (passOn probe.passes (panel.inputs.map Port.name) (panel.outputs.map Port.name) panel
        (leaveMark panel "execute" stamp).stamp).result.1 <;> rfl

theorem Probe.uncalled_execute (probe : Probe) (panel : Panel) (stamp : Nat) :
    (probe.execute panel stamp).result.2.2.uncalled = probe.uncalled := by
  rw [execute]
  cases hc : probe.custom with
  | none => exact probe.uncalled_relay panel stamp
  | some c => simp only [uncalled, hc]; rfl

theorem Probe.uncalled_destroy (probe : Probe) (panel : Panel) (stamp : Nat) :
    (probe.destroy panel stamp).result.uncalled = probe.uncalled := by
  rw [destroy]
  cases hc : probe.custom with
  | none => rfl
  | some c => simp only [uncalled, hc]; rfl

namespace Behaviour

/-- What a node computes with, as if it had not been called; what a net in it went through stays. -/
def uncalled : Behaviour → Behaviour
  | .probe p => .probe p.uncalled
  | b => b

/-- **A node that holds no net only remembers that it was called.** -/
theorem IsLeaf.uncalled_eq {n : Node Behaviour} (h : n.behaviour.IsLeaf) (level stamp : Nat) :
    ((life (level + 1)).init n stamp).result.2.behaviour.uncalled = n.behaviour.uncalled ∧
      ((life (level + 1)).execute n stamp).result.2.behaviour.uncalled = n.behaviour.uncalled ∧
      ((life (level + 1)).destroy n stamp).result.behaviour.uncalled = n.behaviour.uncalled := by
  obtain ⟨panel, b⟩ := n
  rw [life, Lifecycle.around]
  dsimp only
  cases b with
  | operation op => exact ⟨rfl, rfl, rfl⟩
  | probe p =>
    exact ⟨congrArg probe (p.uncalled_init panel stamp),
      congrArg probe (p.uncalled_execute panel stamp), congrArg probe (p.uncalled_destroy panel stamp)⟩
  | nested g inputs outputs => exact absurd rfl (h g inputs outputs)

/-- **A trait is kept on a level** if it does not tell whether nodes were called, nor anything of
the net in a node that feeding the net or running it on the level below would change. -/
theorem keepsTrait_succ {γ : Type} {T : Behaviour → γ} {level : Nat}
    (hcalled : ∀ b : Behaviour, T b.uncalled = T b)
    (hfed : ∀ ports g inputs outputs,
      T (nested (feedAll ports g).2 inputs outputs) = T (nested g inputs outputs))
    (hcompile : ∀ g stamp inputs outputs,
      T (nested (Graph.compile (life level) g stamp).result.2 inputs outputs) =
        T (nested g inputs outputs))
    (hexecute : ∀ g stamp inputs outputs,
      T (nested (Graph.execute (life level) g stamp).result.2 inputs outputs) =
        T (nested g inputs outputs))
    (hrelease : ∀ g stamp inputs outputs,
      T (nested (Graph.release (life level) g stamp).result inputs outputs) =
        T (nested g inputs outputs)) :
    (life (level + 1)).KeepsTrait T := by
  have hleaf : ∀ {b c : Behaviour}, c.uncalled = b.uncalled → T c = T b :=
    fun {b c} h ↦ by rw [← hcalled c, h, hcalled b]
  refine ⟨fun n stamp ↦ ?_, fun n stamp ↦ ?_, fun n stamp ↦ ?_⟩
  · obtain hb | ⟨g, inputs, outputs, hb⟩ := n.behaviour.isLeaf_or_nested
    · exact hleaf (hb.uncalled_eq level stamp).1
    · rw [init_nested hb, hb]
      exact hcompile g stamp inputs outputs
  · obtain hb | ⟨g, inputs, outputs, hb⟩ := n.behaviour.isLeaf_or_nested
    · exact hleaf (hb.uncalled_eq level stamp).2.1
    · rw [execute_nested hb, hb]
      rcases executeNested_eq (life level) n g inputs outputs stamp with
        ⟨e, -, -, hafter⟩ | ⟨-, -, hafter⟩
      · rw [hafter, hfed]
      · rw [hafter, hexecute, hfed]
  · obtain hb | ⟨g, inputs, outputs, hb⟩ := n.behaviour.isLeaf_or_nested
    · exact hleaf (hb.uncalled_eq level stamp).2.2
    · rw [destroy_nested hb, hb]
      exact hrelease g stamp inputs outputs

theorem form_nested_congr {g k : Net}
    (h : Graph.image (through .form) k = Graph.image (through .form) g)
    (inputs outputs : List Endpoint) :
    (nested k inputs outputs).through .form = (nested g inputs outputs).through .form := by
  rw [through_nested, through_nested, Net.form_eq_of_image_eq h]

/-- Nodes keep their forms when those of the nets in them do. -/
theorem keepsTrait_form_succ {level : Nat} (ht : (life level).KeepsTrait (through .form)) :
    (life (level + 1)).KeepsTrait (through .form) := by
  have hk := keepsOutline_life level
  exact keepsTrait_succ (fun b ↦ by cases b <;> simp [uncalled, through])
    (fun _ g ↦ form_nested_congr (Net.image_feedAll _ g))
    (fun g stamp ↦ form_nested_congr (image_compile hk ht g stamp))
    (fun g stamp ↦ form_nested_congr (image_execute hk ht g stamp))
    fun g stamp ↦ form_nested_congr (image_release hk ht g stamp)

/-- **Calling the nodes of a net keeps their forms**, down to any level. -/
theorem keepsTrait_form (level : Nat) : (life level).KeepsTrait (through .form) := by
  induction level with
  | zero => exact ⟨fun _ _ ↦ rfl, fun _ _ ↦ rfl, fun _ _ ↦ rfl⟩
  | succ level ih => exact keepsTrait_form_succ ih

end Behaviour

/-- **The nodes of a net do not write on their inputs**, down to any level. -/
theorem keepsInputs_life (level : Nat) : (Behaviour.life level).KeepsInputs where
  init n stamp := congrArg Panel.inputs (Behaviour.panel_init level n stamp)
  execute n stamp := (Behaviour.publishes_execute level n stamp).inputs
  destroy n stamp := congrArg Panel.inputs (Behaviour.panel_destroy level n stamp)

namespace Net

theorem form_compile (level : Nat) (g : Net) (stamp : Nat) :
    Net.through .form (Graph.compile (Behaviour.life level) g stamp).result.2 =
      Net.through .form g :=
  form_eq_of_image_eq (image_compile (keepsOutline_life level) (Behaviour.keepsTrait_form level) g
    stamp)

theorem form_execute (level : Nat) (g : Net) (stamp : Nat) :
    Net.through .form (Graph.execute (Behaviour.life level) g stamp).result.2 =
      Net.through .form g :=
  form_eq_of_image_eq (image_execute (keepsOutline_life level) (Behaviour.keepsTrait_form level) g
    stamp)

end Net

end PortGraph
