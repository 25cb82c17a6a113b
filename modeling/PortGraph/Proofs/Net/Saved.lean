import Mathlib.Data.Set.List
import PortGraph.Proofs.Description.Config
import PortGraph.Proofs.Net.Alike
import PortGraph.Proofs.Net.Rebuilt
import PortGraph.Proofs.Value.Config

/-!
# What is saved of a net

A net is saved as a description of each of its places (`Slot.description`) and of its links.  It has
one if its nodes are savable, at every depth (`Node.IsSavable`).

Of what a node is made of (`Slot.made`) the description tells all but the operator.  Links and values
are left out there, so they may change while a net is rebuilt; but in the end the links tell how many
of them touch each port, and so the whole form comes back (`Net.form_of_made`).
-/

set_option autoImplicit false

namespace PortGraph

open PortGraph.Graph

/-! ## What can be saved -/

/-- Whether an operation is saved, and read back as it was apart from its operator. -/
def Operation.isSavable : Operation → Bool
  | .source k value => k.isFinite value
  | .folding e _ init => e.isFinite init
  | .sink _ | .mapping .. => true
  | .unary .. | .binary .. | .increment => false

/-- What stands on a panel is saved, or comes with the type of its node. -/
structure Panel.IsSavable (panel : Panel) (typeName : String) : Prop where
  /-- The type is the one that factories know. -/
  typeName_eq : panel.typeName = typeName
  /-- The data of the application is not null, which would be read as none. -/
  metadata : panel.metadata ≠ some .null
  /-- Nothing feeds an output. -/
  outputs : ∀ p ∈ panel.outputs, p.isExposed = false

/-- Whether what stands on a panel is saved, or comes with the type of its node. -/
def Panel.isSavable (panel : Panel) (typeName : String) : Bool :=
  panel.typeName = typeName && panel.metadata ≠ some .null && panel.outputs.all (!·.isExposed)

theorem Panel.isSavable_iff {panel : Panel} {typeName : String} :
    panel.isSavable typeName = true ↔ panel.IsSavable typeName := by
  simp only [isSavable, Bool.and_eq_true, decide_eq_true_eq, List.all_eq_true, Bool.not_eq_true']
  exact ⟨fun h ↦ ⟨h.1.1, h.1.2, h.2⟩, fun h ↦ ⟨⟨h.typeName_eq, h.metadata⟩, h.outputs⟩⟩

/-- **A node is savable**, as are all nodes in it. -/
inductive Node.IsSavable : Node Behaviour → Prop
  /-- Its operation is saved. -/
  | operation {n : Node Behaviour} {op : Operation} (hb : n.behaviour = .operation op)
      (h : n.panel.IsSavable op.typeName) (hop : op.isSavable = true) : Node.IsSavable n
  /-- The net in it is saved. -/
  | nested {n : Node Behaviour} {g : Net} {inputs outputs : List Endpoint}
      (hb : n.behaviour = .nested g inputs outputs) (h : n.panel.IsSavable nestedType)
      (inner : ∀ s ∈ g.slots, Node.IsSavable s.node) : Node.IsSavable n

/-- All nodes are savable. -/
def Net.IsSavable (g : Net) : Prop := ∀ s ∈ g.slots, s.node.IsSavable

theorem Node.IsSavable.panel {n : Node Behaviour} (h : n.IsSavable) :
    ∃ typeName, n.panel.IsSavable typeName := by
  cases h with
  | operation _ h _ => exact ⟨_, h⟩
  | nested _ h _ => exact ⟨_, h⟩

theorem Node.IsSavable.of_operation {n : Node Behaviour} {op : Operation} (h : n.IsSavable)
    (hb : n.behaviour = .operation op) : n.panel.IsSavable op.typeName ∧ op.isSavable = true := by
  cases h with
  | operation hb' h hop =>
    obtain rfl := Behaviour.operation.inj (hb.symm.trans hb')
    exact ⟨h, hop⟩
  | nested hb' _ _ => exact absurd (hb.symm.trans hb') (by simp)

theorem Node.IsSavable.of_nested {n : Node Behaviour} {g : Net} {inputs outputs : List Endpoint}
    (h : n.IsSavable) (hb : n.behaviour = .nested g inputs outputs) :
    n.panel.IsSavable nestedType ∧ g.IsSavable := by
  cases h with
  | operation hb' _ _ => exact absurd (hb.symm.trans hb') (by simp)
  | nested hb' h inner =>
    obtain ⟨rfl, -, -⟩ := Behaviour.nested.inj (hb.symm.trans hb')
    exact ⟨h, inner⟩

namespace Behaviour

mutual

/-- Whether a node with this behaviour is savable. -/
def isSavable (panel : Panel) : Behaviour → Bool
  | .operation op => panel.isSavable op.typeName && op.isSavable
  | .probe _ => false
  | .nested g _ _ => panel.isSavable nestedType && slotsSavable g.slots

/-- Whether all nodes are savable. -/
def slotsSavable : List (Slot Behaviour) → Bool
  | [] => true
  | s :: rest => isSavable s.node.panel s.node.behaviour && slotsSavable rest

end

mutual

theorem isSavable_iff : ∀ (panel : Panel) (b : Behaviour),
    isSavable panel b = true ↔ Node.IsSavable ⟨panel, b⟩
  | panel, .operation op => by
    rw [isSavable, Bool.and_eq_true, panel.isSavable_iff]
    exact ⟨fun h ↦ .operation rfl h.1 h.2, fun h ↦ h.of_operation rfl⟩
  | panel, .probe p => by
    rw [isSavable]
    exact ⟨fun h ↦ absurd h (by simp), fun h ↦ by cases h <;> contradiction⟩
  | panel, .nested g inputs outputs => by
    rw [isSavable, Bool.and_eq_true, panel.isSavable_iff, slotsSavable_iff g.slots]
    exact ⟨fun h ↦ .nested rfl h.1 h.2, fun h ↦ h.of_nested rfl⟩

theorem slotsSavable_iff : ∀ slots : List (Slot Behaviour),
    slotsSavable slots = true ↔ ∀ s ∈ slots, s.node.IsSavable
  | [] => by simp [slotsSavable]
  | s :: rest => by
    rw [slotsSavable, Bool.and_eq_true, isSavable_iff s.node.panel s.node.behaviour,
      slotsSavable_iff rest, List.forall_mem_cons]

end

end Behaviour

instance (g : Net) : Decidable g.IsSavable :=
  decidable_of_iff _ (Behaviour.slotsSavable_iff g.slots)

/-! ## Descriptions -/

/-- What a place is saved as. -/
def Slot.description (s : Slot Behaviour) : Except GraphError NodeDescription :=
  match s.node.persisted with
  | .error e => .error (.persistence s.key e)
  | .ok config => .ok ⟨s.key, s.node.typeName, config, s.node.panel.metadata⟩

/-- A description tells of a place all but the data of the application. -/
structure Slot.ToldBy (s : Slot Behaviour) (d : NodeDescription) : Prop where
  /-- It tells the name of the node. -/
  instanceName : d.instanceName = s.key
  /-- It tells its type. -/
  model : d.model = s.node.typeName
  /-- It tells its configuration. -/
  config : s.node.persisted = .ok d.config

theorem Slot.description_eq_ok_iff {s : Slot Behaviour} {d : NodeDescription} :
    s.description = .ok d ↔ s.ToldBy d ∧ d.metadata = s.node.panel.metadata := by
  obtain ⟨name, model, config, metadata⟩ := d
  rw [description]
  cases hp : s.node.persisted with
  | error e => exact ⟨fun h ↦ absurd h (by simp), fun h ↦ absurd (hp.symm.trans h.1.config) (by simp)⟩
  | ok config' =>
    constructor
    · intro h
      obtain ⟨rfl, rfl, rfl, rfl⟩ := NodeDescription.mk.inj (Except.ok.inj h)
      exact ⟨⟨rfl, rfl, hp⟩, rfl⟩
    · rintro ⟨⟨hname, hmodel, hconfig⟩, hmetadata⟩
      dsimp only at hname hmodel hconfig hmetadata
      obtain rfl := Except.ok.inj (hp.symm.trans hconfig)
      rw [hname, hmodel, hmetadata]

/-- The descriptions of the places come one by one. -/
theorem Behaviour.nodeDescriptions_of_map {slots : List (Slot Behaviour)}
    {ds : List NodeDescription} (h : slots.map Slot.description = ds.map .ok) :
    nodeDescriptions slots = .ok ds := by
  induction slots generalizing ds with
  | nil =>
    rw [List.map_eq_nil_iff.mp h.symm]
    rfl
  | cons s slots ih =>
    obtain ⟨d, ds, rfl, hd, hds⟩ := List.map_eq_cons_iff.mp (h.symm.trans List.map_cons)
    obtain ⟨⟨hname, hmodel, hconfig⟩, hmetadata⟩ := Slot.description_eq_ok_iff.mp hd.symm
    rw [nodeDescriptions, show persisted s.node.panel s.node.behaviour = .ok d.config from hconfig,
      ih hds.symm]
    dsimp only
    rw [← hname, ← hmodel, ← hmetadata]

namespace Net

variable {g : Net} {nodes : List NodeDescription}

/-- The description of a net whose places are described. -/
theorem description_of_map (h : g.slots.map Slot.description = nodes.map .ok) : g.description =
    .ok { name := g.name, nodes, links := g.links.map Link.description } := by
  rw [description, Behaviour.nodeDescriptions_of_map h]

theorem persisted_of_map (h : g.slots.map Slot.description = nodes.map .ok) {n : Node Behaviour}
    {inputs outputs : List Endpoint} (hb : n.behaviour = .nested g inputs outputs) :
    n.persisted = .ok (some ({ name := g.name, nodes, links := g.links.map Link.description } :
      GraphDescription).toConfig) := by
  rw [Node.persisted, hb, Behaviour.persisted, Behaviour.nodeDescriptions_of_map h]

end Net

/-! ## Savable nodes have descriptions -/

/-- A configuration that is read back as it is. -/
structure IsKept (config : Option Json) : Prop where
  /-- It is not null, which would be read as none. -/
  ne_null : config ≠ some .null
  /-- It is in canonical form. -/
  canonical : config.map Json.canonical = config

theorem Operation.isKept_persisted {op : Operation} (h : op.isSavable = true) (panel : Panel) :
    ∃ config, op.persisted panel = .ok config ∧ IsKept config := by
  cases op with
  | source k value => exact ⟨_, rfl, by simp, congrArg some (k.canonical_asRecord value "value")⟩
  | folding e operator init =>
    exact ⟨_, rfl, by simp, congrArg some ((DataKind.scalar e).canonical_asRecord init "init")⟩
  | sink k => exact ⟨_, rfl, by simp, rfl⟩
  | mapping e operator => exact ⟨_, rfl, by simp, rfl⟩
  | unary k l f => exact absurd h (by simp [isSavable])
  | binary k l m f => exact absurd h (by simp [isSavable])
  | increment => exact absurd h (by simp [isSavable])

theorem GraphDescription.isKept_toConfig (d : GraphDescription) : IsKept (some d.toConfig) where
  ne_null := by simp [toConfig_eq]
  canonical := congrArg some (Json.canonical_canonical _)

/-- Places whose nodes are saved have descriptions. -/
theorem exists_descriptions {slots : List (Slot Behaviour)}
    (h : ∀ s ∈ slots, ∃ config, s.node.persisted = .ok config) :
    ∃ nodes : List NodeDescription, slots.map Slot.description = nodes.map .ok := by
  have hrange : ∀ c ∈ slots.map Slot.description, c ∈ Set.range Except.ok := by
    refine List.forall_mem_map.mpr fun s hs ↦ ?_
    obtain ⟨config, hconfig⟩ := h s hs
    refine ⟨⟨s.key, s.node.typeName, config, s.node.panel.metadata⟩, ?_⟩
    rw [Slot.description, hconfig]
  obtain ⟨nodes, hnodes⟩ := (Set.ext_iff.mp (Set.range_list_map Except.ok) _).mpr hrange
  exact ⟨nodes, hnodes.symm⟩

/-- **Savable nodes are saved**, with configurations that are read back as they are. -/
theorem Node.IsSavable.exists_persisted {n : Node Behaviour} (h : n.IsSavable) :
    ∃ config, n.persisted = .ok config ∧ IsKept config := by
  induction h with
  | @operation n op hb _ hop =>
    obtain ⟨config, hconfig, hkept⟩ := op.isKept_persisted hop n.panel
    exact ⟨config, by rw [persisted, hb, ← hconfig, Behaviour.persisted], hkept⟩
  | nested hb _ _ ih =>
    obtain ⟨nodes, hnodes⟩ := exists_descriptions fun s hs ↦
      (ih s hs).imp fun _ h ↦ h.1
    exact ⟨_, Net.persisted_of_map hnodes hb, GraphDescription.isKept_toConfig _⟩

/-- **Savable nets have descriptions.** -/
theorem Net.IsSavable.exists_descriptions {g : Net} (h : g.IsSavable) :
    ∃ nodes : List NodeDescription, g.slots.map Slot.description = nodes.map .ok :=
  PortGraph.exists_descriptions fun s hs ↦ (h s hs).exists_persisted.imp fun _ h ↦ h.1

/-- The data of the application may be in canonical form as well. -/
theorem Slot.ToldBy.canonical {s : Slot Behaviour} {d : NodeDescription} (h : s.ToldBy d)
    (hs : s.node.IsSavable) : s.ToldBy d.canonical where
  instanceName := h.instanceName
  model := h.model
  config := by
    obtain ⟨config, hconfig, hkept⟩ := hs.exists_persisted
    obtain rfl := Except.ok.inj (hconfig.symm.trans h.config)
    exact h.config.trans (congrArg Except.ok hkept.canonical.symm)

/-- The description of a savable node is read back. -/
theorem Node.IsSavable.isDefinite {s : Slot Behaviour} (h : s.node.IsSavable) {d : NodeDescription}
    (hd : s.description = .ok d) : d.IsDefinite := by
  obtain ⟨htold, hmetadata⟩ := Slot.description_eq_ok_iff.mp hd
  obtain ⟨config, hconfig, hkept⟩ := h.exists_persisted
  obtain rfl := Except.ok.inj (hconfig.symm.trans htold.config)
  obtain ⟨_, hpanel⟩ := h.panel
  exact ⟨hkept.ne_null, hmetadata ▸ hpanel.metadata⟩

theorem Link.map_description_congr {links links' : List Link}
    (h : links'.map Link.unnumbered = links.map Link.unnumbered) :
    links'.map Link.description = links.map Link.description := by
  have hlinks : ∀ links : List Link, links.map Link.description =
      (links.map Link.unnumbered).map Link.description := fun links ↦ by
    rw [List.map_map]
    rfl
  rw [hlinks, h, ← hlinks]

/-! ## What is made of a place -/

/-- The place as it was made, through a lens: links and values aside, and what feeds the inputs. -/
def Slot.made (lens : Lens) (s : Slot Behaviour) : Slot Behaviour :=
  ⟨s.key, { panel := { name := "", typeName := s.node.typeName,
                       inputs := s.node.panel.inputs.map Port.declared,
                       outputs := s.node.panel.outputs.map Port.untied }
            behaviour := s.node.behaviour.through lens }⟩

theorem Port.declared_untied (p : Port) : p.untied.declared = p.declared := p.declared_form

theorem Node.persisted_mapPanel (n : Node Behaviour) {f : Panel → Panel}
    (hf : (f n.panel).typeName = n.panel.typeName) : (n.mapPanel f).persisted = n.persisted := by
  obtain ⟨panel, op | p | _⟩ := n
  · cases op <;> simp only [persisted, mapPanel, Behaviour.persisted, Operation.persisted, hf]
  · simp only [persisted, mapPanel, Behaviour.persisted, Probe.persisted, hf]
  · simp only [persisted, mapPanel, Behaviour.persisted]

/-- What a place is saved as and what was made there are left alone by changes of links and
values. -/
theorem Slot.ignoresLinks_made (lens : Lens) :
    IgnoresLinks fun s : Slot Behaviour ↦ (s.description, s.made lens) := by
  intro s side name f hf
  have hpanel : ∀ panel : Panel, (panel.modifyPort side name f).typeName = panel.typeName ∧
      (panel.modifyPort side name f).metadata = panel.metadata :=
    fun panel ↦ by cases side <;> exact ⟨rfl, rfl⟩
  have hdeclared : ∀ p, (f p).declared = p.declared := fun p ↦ by
    rw [← Port.declared_untied, hf, Port.declared_untied]
  have hinputs : (s.node.panel.modifyPort side name f).inputs.map Port.declared =
      s.node.panel.inputs.map Port.declared :=
    s.node.panel.map_ports_modifyPort side name hdeclared .input
  have houtputs : (s.node.panel.modifyPort side name f).outputs.map Port.untied =
      s.node.panel.outputs.map Port.untied :=
    s.node.panel.map_ports_modifyPort side name hf .output
  have hpersisted := s.node.persisted_mapPanel (f := (·.modifyPort side name f)) (hpanel _).1
  refine Prod.ext ?_ ?_
  · simp only [description, mapNode, hpersisted]
    simp only [Node.typeName, Node.mapPanel, hpanel]
  · simp only [made, mapNode, Node.typeName, Node.mapPanel, hpanel, hinputs, houtputs]

/-- What feeds the inputs is not seen of what was made. -/
theorem Slot.made_exposed (lens : Lens) (places : List Endpoint) (s : Slot Behaviour) :
    (s.exposed places).made lens = s.made lens := by
  have hinputs : (s.node.panel.inputs.map fun p ↦
      if (⟨s.key, p.name⟩ : Endpoint) ∈ places then { p with isExposed := true } else p).map
        Port.declared = s.node.panel.inputs.map Port.declared := by
    rw [List.map_map]
    refine List.map_congr_left fun p _ ↦ ?_
    rw [Function.comp_apply]
    split <;> rfl
  simp only [made, exposed, mapNode, Node.mapPanel, Node.typeName, hinputs]

theorem Slot.description_exposed (places : List Endpoint) (s : Slot Behaviour) :
    (s.exposed places).description = s.description := by
  rw [description, exposed, mapNode, Node.persisted_mapPanel _ rfl]
  rfl

theorem Port.untied_congr {p q : Port} (hd : q.declared = p.declared)
    (he : q.isExposed = p.isExposed) : q.untied = p.untied := by
  have huntied : ∀ p : Port, p.untied = { p.declared with isExposed := p.isExposed } := fun _ ↦ rfl
  rw [huntied q, hd, he, huntied p]

/-- What is seen of each port decides what is seen of the port at an endpoint. -/
theorem Graph.map_port?_of_map_eq {β γ : Type} {f : Port → Port} (hf : ∀ p, (f p).name = p.name)
    {g : Graph β} {k : Graph γ} {side : Direction}
    (h : k.slots.map (fun s ↦ (s.key, (s.node.panel.ports side).map f)) =
      g.slots.map fun s ↦ (s.key, (s.node.panel.ports side).map f)) (e : Endpoint) :
    (k.port? side e).map f = (g.port? side e).map f := by
  have hport : ∀ {δ : Type} (j : Graph δ), (j.port? side e).map f =
      ((j.slots.map fun s ↦ (s.key, (s.node.panel.ports side).map f)).find?
        (fun o ↦ o.1 = e.node)).bind fun o ↦ Port.named? e.port o.2 := by
    intro δ j
    rw [port?, node?, List.find?_map, Option.bind_map, Option.bind_map, Option.map_bind]
    simp only [Function.comp_def, Port.named?_map hf]
    rfl
  rw [hport, h, hport]

/-- What was made tells which ports there are. -/
theorem Net.map_port?_of_made {a b : Lens} {g k : Net}
    (h : k.slots.map (Slot.made a) = g.slots.map (Slot.made b)) (side : Direction) (e : Endpoint) :
    (k.port? side e).map Port.declared = (g.port? side e).map Port.declared := by
  refine map_port?_of_map_eq (f := Port.declared) (fun _ ↦ rfl) (map_eq_of_map_eq h fun s _ r _ hrs ↦ ?_) e
  obtain ⟨hkey, hnode⟩ := Slot.mk.inj hrs
  obtain ⟨-, -, hinputs, houtputs, -⟩ := Panel.mk.inj (Node.mk.inj hnode).1
  refine Prod.ext hkey ?_
  cases side with
  | input => exact hinputs
  | output =>
    refine map_eq_of_map_eq houtputs fun p _ q _ hpq ↦ ?_
    rw [← Port.declared_untied, hpq, Port.declared_untied]

/-! ## The form comes back -/

theorem Port.form_congr {p q : Port} (hd : q.declared = p.declared)
    (hl : q.linkCount = p.linkCount) (he : q.isExposed = p.isExposed) : q.form = p.form := by
  have hform : ∀ p : Port, p.form =
      { p.declared with isExposed := p.isExposed, linkCount := p.linkCount } := fun _ ↦ rfl
  rw [hform q, hd, hl, he, hform p]

/-- Links that differ in their ids only touch the same ports. -/
theorem Graph.degree_congr {β γ : Type} {g : Graph β} {k : Graph γ}
    (h : k.links.map Link.unnumbered = g.links.map Link.unnumbered) (side : Direction)
    (e : Endpoint) : k.degree side e = g.degree side e := by
  have hcount : ∀ links : List Link, links.countP (fun l ↦ l.place side = e) =
      (links.map Link.unnumbered).countP (fun l ↦ l.place side = e) := by
    intro links
    rw [List.countP_map]
    cases side <;> rfl
  rw [degree, hcount, h, ← hcount]
  rfl

/-- **What was made and the links decide the form**, if of the inputs those are fed from outside that
links leave open, or none. -/
theorem Net.form_of_made {g k : Net} (hg : g.WellLinked) (hk : k.WellLinked)
    (hmade : k.slots.map (Slot.made .form) = g.slots.map (Slot.made .shape))
    (hlinks : k.links.map Link.unnumbered = g.links.map Link.unnumbered) (fed : Bool → Bool)
    (hgfed : ∀ s ∈ g.slots, ∀ p ∈ s.node.panel.inputs, p.isExposed = fed p.isLinked)
    (hkfed : ∀ s ∈ k.slots, ∀ p ∈ s.node.panel.inputs, p.isExposed = fed p.isLinked) :
    through .form k = through .shape g := by
  have hslots : k.slots.map (fun s ↦ (⟨s.key, s.node.through .form⟩ : Slot Behaviour)) =
      g.slots.map fun s ↦ ⟨s.key, s.node.through .shape⟩ := by
    refine map_eq_of_map_eq hmade fun s hs r hr hrs ↦ ?_
    obtain ⟨hkey, hnode⟩ := Slot.mk.inj hrs
    obtain ⟨hpanel, hbehaviour⟩ := Node.mk.inj hnode
    obtain ⟨-, htype, hinputs, houtputs, -⟩ := Panel.mk.inj hpanel
    have hcount : ∀ side, ∀ p ∈ s.node.panel.ports side, ∀ q ∈ r.node.panel.ports side,
        q.name = p.name → q.linkCount = p.linkCount := by
      intro side p hp q hq hname
      rw [hk.linkCount_eq hr hq, hg.linkCount_eq hs hp, degree_congr hlinks, hkey, hname]
    have hinputs : r.node.panel.inputs.map Port.form = s.node.panel.inputs.map Port.form := by
      refine map_eq_of_map_eq hinputs fun p hp q hq hpq ↦ ?_
      have hl := hcount .input p hp q hq (congrArg (·.name) hpq)
      refine Port.form_congr hpq hl ?_
      rw [hkfed r hr q hq, hgfed s hs p hp, Port.isLinked, Port.isLinked, hl]
    have houtputs : r.node.panel.outputs.map Port.form = s.node.panel.outputs.map Port.form := by
      refine map_eq_of_map_eq houtputs fun p hp q hq hpq ↦ ?_
      refine Port.form_congr ?_ (hcount .output p hp q hq (congrArg (·.name) hpq))
        (congrArg (·.isExposed) hpq)
      rw [← Port.declared_untied, hpq, Port.declared_untied]
    have htype : r.node.panel.typeName = s.node.panel.typeName := htype
    have hthrough : r.node.panel.through .form = s.node.panel.through .shape := by
      simp only [Panel.through, Lens.form, Lens.shape, htype, hinputs, houtputs]
    rw [hkey, Node.through, Node.through, hthrough, hbehaviour]
  rw [through, through, hslots, hlinks]

end PortGraph
