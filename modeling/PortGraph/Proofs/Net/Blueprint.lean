import PortGraph.Proofs.Graph.Labels
import PortGraph.Proofs.Net.Enclosed
import PortGraph.Proofs.Net.Required

/-!
# What runs leave of what is saved

What a net is saved as is read off its blueprint: the names of its nodes and their types, the data of the
application, what the nodes compute with, and the links.  None of this is written while a net runs, at any
depth (`Behaviour.keepsLabel_blueprint`): values, stamps and flags, schedules and the calls that a node
of the host's remembers are left out of a blueprint.  Nor is it written when a net is put in a node.

So it does not matter when a net is saved.  Whatever was run meanwhile, it has one and the same description,
as has every net in it; and a node that holds a net is saved as this net was described before
(`saved_regardless_of_runs`).
-/

set_option autoImplicit false

namespace PortGraph

open PortGraph.Graph
open PortGraph.Net (parts_of_wrap)

/-! ## Blueprints -/

/-- What of a panel is saved. -/
def Panel.blueprint (panel : Panel) : Panel :=
  { name := "", typeName := panel.typeName, metadata := panel.metadata }

namespace Behaviour

mutual

/-- What nodes compute with, before anything was run. -/
def blueprint : Behaviour → Behaviour
  | .operation op => .operation op
  | .probe p => .probe p.uncalled
  | .nested g inputs outputs =>
    .nested { name := g.name, slots := slotsBlueprint g.slots, links := g.links } inputs outputs

/-- Places of a net before anything was run. -/
def slotsBlueprint : List (Slot Behaviour) → List (Slot Behaviour)
  | [] => []
  | s :: rest =>
    ⟨s.key, ⟨s.node.panel.blueprint, blueprint s.node.behaviour⟩⟩ :: slotsBlueprint rest

end

end Behaviour

/-- What of a node is saved. -/
def Node.blueprint (n : Node Behaviour) : Node Behaviour := ⟨n.panel.blueprint, n.behaviour.blueprint⟩

/-- What of a net is saved. -/
def Net.blueprint (g : Net) : Net :=
  { name := g.name, slots := g.slots.map fun s ↦ ⟨s.key, s.node.blueprint⟩, links := g.links }

theorem Behaviour.slotsBlueprint_eq_map (slots : List (Slot Behaviour)) :
    slotsBlueprint slots = slots.map fun s ↦ ⟨s.key, s.node.blueprint⟩ := by
  induction slots with
  | nil => rfl
  | cons s slots ih =>
    rw [slotsBlueprint, ih]
    rfl

theorem Behaviour.blueprint_nested (g : Net) (inputs outputs : List Endpoint) :
    (nested g inputs outputs).blueprint = nested (Net.blueprint g) inputs outputs := by
  rw [blueprint, slotsBlueprint_eq_map]
  rfl

theorem Node.isLabel_blueprint : Node.IsLabel Node.blueprint where
  ports n side ports := by cases side <;> rfl
  noted _ _ := rfl

/-- The blueprint of a net is made of those of its nodes. -/
theorem Net.blueprint_eq_iff {g k : Net} : blueprint k = blueprint g ↔
    k.labels Node.blueprint = g.labels Node.blueprint ∧ k.name = g.name ∧ k.links = g.links := by
  have hslots : ∀ j : Net, (blueprint j).slots =
      (j.labels Node.blueprint).map fun v ↦ ⟨v.1, v.2⟩ := fun j ↦ by
    rw [labels, List.map_map]
    rfl
  have hlabels : ∀ j : Net, j.labels Node.blueprint =
      (blueprint j).slots.map fun s ↦ (s.key, s.node) := fun j ↦ by
    rw [labels, blueprint, List.map_map]
    rfl
  constructor
  · intro h
    have hname : (blueprint k).name = (blueprint g).name := by rw [h]
    have hlinks : (blueprint k).links = (blueprint g).links := by rw [h]
    exact ⟨by rw [hlabels, h, ← hlabels], hname, hlinks⟩
  · rintro ⟨h, hname, hlinks⟩
    have hk : blueprint k = { name := k.name, slots := (blueprint k).slots, links := k.links } := rfl
    rw [hk, hslots, h, ← hslots, hname, hlinks]
    rfl

/-! ## Nothing else is saved -/

/-- What a custom node is saved as has nothing to do with its calls. -/
theorem Custom.persisted_uncalled (custom : Custom) (typeName : String) :
    custom.uncalled.persisted typeName = custom.persisted typeName := by
  have hconfigs : (custom.visits.filter (·.config?.isSome)).filterMap Visit.config? =
      custom.visits.filterMap Visit.config? := by
    rw [List.filterMap_filter]
    refine List.filterMap_congr fun visit _ ↦ ?_
    cases visit <;> rfl
  exact congrArg (custom.onSave · typeName) hconfigs

theorem Probe.persisted_uncalled (probe : Probe) (panel : Panel) :
    probe.uncalled.persisted panel.blueprint = probe.persisted panel := by
  rw [persisted, persisted, uncalled]
  cases probe.custom with
  | none => rfl
  | some c => exact c.persisted_uncalled panel.typeName

namespace Behaviour

mutual

/-- What a node is saved as is read off its blueprint. -/
theorem persisted_blueprint (panel : Panel) : ∀ b : Behaviour,
    b.blueprint.persisted panel.blueprint = b.persisted panel
  | .operation op => by cases op <;> rfl
  | .probe p => p.persisted_uncalled panel
  | .nested g inputs outputs => by
    rw [blueprint, persisted, persisted, nodeDescriptions_blueprint g.slots]

theorem nodeDescriptions_blueprint : ∀ slots : List (Slot Behaviour),
    nodeDescriptions (slotsBlueprint slots) = nodeDescriptions slots
  | [] => rfl
  | s :: rest => by
    rw [slotsBlueprint, nodeDescriptions, nodeDescriptions,
      persisted_blueprint s.node.panel s.node.behaviour, nodeDescriptions_blueprint rest]
    rfl

end

end Behaviour

theorem Node.persisted_eq_of_blueprint_eq {n m : Node Behaviour} (h : m.blueprint = n.blueprint) :
    m.persisted = n.persisted := by
  have hpersisted : ∀ n : Node Behaviour, n.persisted = n.blueprint.persisted := fun n ↦
    (n.behaviour.persisted_blueprint n.panel).symm
  rw [hpersisted, h, ← hpersisted]

theorem Net.description_eq_of_blueprint_eq {g k : Net} (h : blueprint k = blueprint g) :
    k.description = g.description := by
  have hdescription : ∀ j : Net, j.description = (blueprint j).description := fun j ↦ by
    rw [description, description, blueprint, ← Behaviour.slotsBlueprint_eq_map,
      Behaviour.nodeDescriptions_blueprint]
  rw [hdescription, h, ← hdescription]

/-! ## Runs -/

/-- What a net is fed is not saved. -/
theorem Net.blueprint_feedAll (ports : List (Port × Endpoint)) (g : Net) :
    blueprint (Behaviour.feedAll ports g).2 = blueprint g :=
  feedAll_induction (P := fun k ↦ blueprint k = blueprint g) ports rfl
    fun k place _ h ↦ (blueprint_eq_iff.mpr
      ⟨labels_modifyPort Node.isLabel_blueprint k .input place _, rfl, rfl⟩).trans h

theorem Panel.Publishes.blueprint {panel panel' : Panel} (h : panel.Publishes panel') :
    panel'.blueprint = panel.blueprint := by
  obtain ⟨outputs, -, rfl⟩ := h
  rfl

/-- A call that keeps what a node computes with keeps its blueprint, as no call writes there on the
panel. -/
theorem Node.blueprint_congr {n m : Node Behaviour} (hp : m.panel.blueprint = n.panel.blueprint)
    (hb : m.behaviour.blueprint = n.behaviour.blueprint) : m.blueprint = n.blueprint := by
  rw [blueprint, blueprint, hp, hb]

namespace Behaviour

theorem blueprint_nested_congr {g k : Net} (h : Net.blueprint k = Net.blueprint g)
    (inputs outputs : List Endpoint) :
    (nested k inputs outputs).blueprint = (nested g inputs outputs).blueprint := by
  rw [blueprint_nested, blueprint_nested, h]

/-- What nodes compute with keeps its blueprint when nodes of the nets inside keep theirs. -/
theorem keepsTrait_blueprint_succ {level : Nat} (hl : (life level).KeepsLabel Node.blueprint) :
    (life (level + 1)).KeepsTrait blueprint := by
  have hF := Node.isLabel_blueprint
  have hk := keepsOutline_life level
  have hnested : ∀ {g k : Net}, k.labels Node.blueprint = g.labels Node.blueprint →
      k.settings = g.settings → k.skeleton = g.skeleton → ∀ inputs outputs,
      (nested k inputs outputs).blueprint = (nested g inputs outputs).blueprint :=
    fun hlabels hsettings hskeleton ↦ blueprint_nested_congr <| Net.blueprint_eq_iff.mpr
      ⟨hlabels, congrArg Prod.fst hsettings, links_of_skeleton_eq hskeleton⟩
  exact keepsTrait_succ (fun b ↦ by cases b <;> simp [uncalled, blueprint])
    (fun ports g ↦ blueprint_nested_congr (Net.blueprint_feedAll ports g))
    (fun g stamp ↦ hnested (labels_compile hF hl g stamp) (settings_compile _ g stamp)
      (skeleton_compile hk g stamp))
    (fun g stamp ↦ hnested (labels_execute hF hl g stamp) (settings_execute _ g stamp)
      (agrees_execute hk g stamp).skeleton)
    fun g stamp ↦ hnested (labels_release hF hl g stamp) rfl (skeleton_release hk g stamp)

/-- **Calling the nodes of a net keeps their blueprints**, down to any level. -/
theorem keepsLabel_blueprint (level : Nat) : (life level).KeepsLabel Node.blueprint := by
  have hkept : ∀ level, (life level).KeepsTrait blueprint → (life level).KeepsLabel Node.blueprint :=
    fun level ht ↦
      { init := fun n stamp ↦ Node.blueprint_congr
          (congrArg Panel.blueprint (panel_init level n stamp)) (ht.init n stamp)
        execute := fun n stamp ↦ Node.blueprint_congr
          (publishes_execute level n stamp).blueprint (ht.execute n stamp)
        destroy := fun n stamp ↦ Node.blueprint_congr
          (congrArg Panel.blueprint (panel_destroy level n stamp)) (ht.destroy n stamp) }
  induction level with
  | zero => exact hkept 0 ⟨fun _ _ ↦ rfl, fun _ _ ↦ rfl, fun _ _ ↦ rfl⟩
  | succ level ih => exact hkept _ (keepsTrait_blueprint_succ ih)

end Behaviour

/-! ## Nets inside -/

/-- A node with the blueprint of one that holds a net holds a net with the blueprint of this net. -/
theorem Behaviour.eq_nested_of_blueprint_eq {b : Behaviour} {g : Net} {inputs outputs : List Endpoint}
    (h : b.blueprint = (nested g inputs outputs).blueprint) :
    ∃ k, b = nested k inputs outputs ∧ Net.blueprint k = Net.blueprint g := by
  rw [blueprint_nested] at h
  cases b with
  | operation op => exact absurd h (by simp [blueprint])
  | probe p => exact absurd h (by simp [blueprint])
  | nested k inputs' outputs' =>
    rw [blueprint_nested] at h
    obtain ⟨hk, rfl, rfl⟩ := nested.inj h
    exact ⟨k, rfl, hk⟩

/-- Nets of one blueprint have nets inside in the same places, and these have the same blueprints. -/
theorem Net.Within.of_blueprint_eq {g k : Net} (h : blueprint k = blueprint g) {path : List String}
    {j : Net} (hj : g.Within path j) : ∃ j', k.Within path j' ∧ blueprint j' = blueprint j := by
  induction hj with
  | here => exact ⟨k, .here, h⟩
  | @step path j i s inputs outputs _ hs hb ih =>
    obtain ⟨j', hj', heq⟩ := ih
    have hmem : (⟨s.key, s.node.blueprint⟩ : Slot Behaviour) ∈ (blueprint j').slots :=
      heq ▸ List.mem_map_of_mem hs
    obtain ⟨r, hr, hrs⟩ := List.mem_map.mp hmem
    obtain ⟨hkey, hnode⟩ := Slot.mk.inj hrs
    have hbehaviour := (Node.mk.inj hnode).2
    rw [hb] at hbehaviour
    obtain ⟨i', hb', hi⟩ := Behaviour.eq_nested_of_blueprint_eq hbehaviour
    exact ⟨i', hkey ▸ hj'.step hr hb', hi⟩

/-! ## A net is put in a node -/

/-- Exposing inputs is no matter of what is saved. -/
theorem Net.blueprint_addOuterInputs {setters : List Accessor} {panel panel' : Panel} {g k : Net}
    (h : addOuterInputs setters panel g = .ok (panel', k)) : blueprint k = blueprint g := by
  induction setters generalizing panel g with
  | nil =>
    obtain ⟨-, rfl⟩ := Prod.mk.inj (Except.ok.inj h)
    rfl
  | cons a setters ih =>
    rw [addOuterInputs] at h
    obtain ⟨⟨panel₁, g₁⟩, hadd, h⟩ := bind_eq_ok h
    obtain rfl := expose_eq_ok (addOuterInput_eq_ok hadd).1
    exact (ih h).trans (blueprint_eq_iff.mpr
      ⟨labels_modifyPort Node.isLabel_blueprint g .input a.place _, rfl, rfl⟩)

/-- What a node that holds a net is saved as. -/
def Net.persisted (g : Net) : Except NodeError (Option Json) :=
  match g.description with
  | .error e => .error (.graph e)
  | .ok d => .ok (some d.toConfig)

/-- **A node that holds a net is saved as the net was described before**, or for the same reason not at
all. -/
theorem Net.persisted_of_wrap {g : Net} {name : String} {stamp : Nat} {n : Node Behaviour}
    (h : ((wrap name g).run stamp).result = .ok n) : n.persisted = g.persisted := by
  obtain ⟨panel₁, panel₂, k, hinputs, -, rfl⟩ := parts_of_wrap h
  rw [Net.persisted, ← description_eq_of_blueprint_eq (blueprint_addOuterInputs hinputs),
    Node.persisted, Behaviour.persisted, description]
  cases Behaviour.nodeDescriptions k.slots <;> rfl

/-! ## What a host asks for meanwhile -/

/-- **What becomes of a net when its host asks for this and that**, but for nothing else than is
allowed. -/
inductive Net.Becomes (allowed : Request Behaviour → Prop) (g : Net) : Net → Prop
  /-- Nothing was asked for. -/
  | refl : Net.Becomes allowed g g
  /-- The host asked for something, and it was refused or not.  The id of a link is new. -/
  | step {k : Net} {stamp : Nat} (r : Request Behaviour) (h : Net.Becomes allowed g k)
      (hr : allowed r) (hnode : ∀ n, r = .addNode n → n.Built)
      (hfresh : ∀ source target, r = .addLink source target →
        ∀ l ∈ k.links, l.id ≠ (Act.newLinkId stamp).result) :
      Net.Becomes allowed g (r.perform k.life FactorySet.createNode k stamp).result

namespace Net.Becomes

variable {allowed : Request Behaviour → Prop} {g k : Net}

theorem built (h : g.Becomes allowed k) (hg : g.Built) : k.Built := by
  induction h with
  | refl => exact hg
  | step r _ _ hnode hfresh ih => exact .step r ih hnode hfresh

/-- Running a net, the host does not change what is saved. -/
theorem blueprint_eq (h : g.Becomes Request.IsRun k) (hg : g.Built) : blueprint k = blueprint g := by
  induction h with
  | refl => rfl
  | step r h hr _ _ ih =>
    exact (blueprint_eq_iff.mpr ((h.built hg).orderly.wellLinked.labels_of_isRun
      Node.isLabel_blueprint (Behaviour.keepsLabel_blueprint _) (keepsOutline_life _) hr)).trans ih

/-- A node that is left there keeps its blueprint, whatever the host asks for. -/
theorem exists_node {name : String} (h : g.Becomes (Request.Leaves name) k) (hg : g.Built)
    {n : Node Behaviour} (hn : g.node? name = some n) :
    ∃ m, k.node? name = some m ∧ m.blueprint = n.blueprint := by
  induction h with
  | refl => exact ⟨n, hn, rfl⟩
  | @step k stamp r h hr _ _ ih =>
    obtain ⟨m, hm, hblueprint⟩ := ih
    have hmem : name ∈ k.nodeNames := List.mem_map_of_mem (mem_of_node? hm)
    have hleft : r.MayLeave k.life FactorySet.createNode k stamp _ := r.perform_mayLeave
    have hnode := map_node?_of_mayLeave Node.isLabel_blueprint (Behaviour.keepsLabel_blueprint _)
      (h.built hg).orderly.wellLinked.keys_nodup hmem hr hleft
    rw [hm] at hnode
    obtain ⟨m', hm', heq⟩ := Option.map_eq_some_iff.mp hnode
    exact ⟨m', hm', heq.trans hblueprint⟩

end Net.Becomes

/-- **It does not matter when a net is saved.**  However often a net is compiled, executed and released,
whether that succeeds or not, and whatever is put on its inputs meanwhile, it is described as before, and
so is every net in it.  A node that holds a net is saved as the net was described before it was put there,
and it stays so for as long as it is left in its place, whatever is asked of the net around it. -/
theorem saved_regardless_of_runs :
    (∀ g k : Net, g.Built → g.Becomes Request.IsRun k → k.description = g.description ∧
      ∀ path j, g.Within path j → ∃ j', k.Within path j' ∧ j'.description = j.description) ∧
    ∀ (h : Net) (name : String) (stamp : Nat) (n : Node Behaviour),
      ((Net.wrap name h).run stamp).result = .ok n → n.persisted = h.persisted ∧
        ∀ (g k : Net) (key : String), g.Built → g.node? key = some n →
          g.Becomes (Request.Leaves key) k → ∃ m, k.node? key = some m ∧
            m.persisted = h.persisted := by
  refine ⟨fun g k hg h ↦ ?_, fun h name stamp n hn ↦ ⟨Net.persisted_of_wrap hn, ?_⟩⟩
  · have hblueprint := h.blueprint_eq hg
    refine ⟨Net.description_eq_of_blueprint_eq hblueprint, fun path j hj ↦ ?_⟩
    obtain ⟨j', hj', heq⟩ := hj.of_blueprint_eq hblueprint
    exact ⟨j', hj', Net.description_eq_of_blueprint_eq heq⟩
  · intro g k key hg hnode hk
    obtain ⟨m, hm, hblueprint⟩ := hk.exists_node hg hnode
    exact ⟨m, hm, (Node.persisted_eq_of_blueprint_eq hblueprint).trans (Net.persisted_of_wrap hn)⟩

/-! ## A pass that fails inside a node -/

/-- A net with a node that holds the two nodes of the same port names. -/
def sampleKeeper : Net := Net.withNode "keeper" sampleTwins.boxed

/-- The net once it was compiled, and executed to no avail. -/
def sampleWorn : Net := [.compile, .execute].foldl Net.ask sampleKeeper

theorem built_sampleKeeper : sampleKeeper.Built :=
  Net.Built.ask (.empty "keeper" {}) (.addNode sampleTwins.boxed)
    (fun _ hm ↦ Request.addNode.inj hm ▸ built_sampleTwins.boxed.1) (by simp)

theorem Net.node?_withNode (name : String) (n : Node Behaviour) :
    (withNode name n).node? n.name = some n := by
  have hslots : (withNode name n).slots = [⟨n.name, n⟩] := rfl
  rw [node?, hslots, List.find?_cons_of_pos (by simp)]
  rfl

theorem saved_regardless_of_runs_sampleWorn :
    sampleTwins.persisted.isOk = true ∧ sampleTwins.boxed.persisted = sampleTwins.persisted ∧
    ((Net.ask sampleKeeper .compile).execute 0).result.1.isOk = false ∧
    sampleWorn.description = sampleKeeper.description ∧
    ∃ m, sampleWorn.node? "box" = some m ∧ m.persisted = sampleTwins.persisted := by
  have hbuilt := built_sampleKeeper
  obtain ⟨hruns, hwrapped⟩ := saved_regardless_of_runs
  have hasked : ∀ {allowed : Request Behaviour → Prop} {g k : Net} (r : Request Behaviour),
      g.Becomes allowed k → allowed r → (∀ n, r ≠ .addNode n) → (∀ a b, r ≠ .addLink a b) →
      g.Becomes allowed (k.ask r) := fun r h hr hnode hlink ↦ by
    rw [Net.ask, ← Request.perform_eq_reply]
    exact .step r h hr (fun n he ↦ absurd he (hnode n)) fun a b he ↦ absurd he (hlink a b)
  have hworn : ∀ allowed : Request Behaviour → Prop, allowed .compile → allowed .execute →
      sampleKeeper.Becomes allowed sampleWorn := fun allowed hcompile hexecute ↦
    hasked .execute (hasked .compile .refl hcompile (by simp) (by simp)) hexecute (by simp) (by simp)
  have hname : sampleTwins.boxed.name = "box" := by decide +kernel
  have hnode : sampleKeeper.node? "box" = some sampleTwins.boxed := by
    rw [← hname]
    exact Net.node?_withNode "keeper" sampleTwins.boxed
  obtain ⟨hboxed, hkept⟩ := hwrapped sampleTwins "box" 0 _ built_sampleTwins.boxed.2
  exact ⟨by decide +kernel, hboxed, by decide +kernel,
    (hruns _ _ hbuilt (hworn _ trivial trivial)).1,
    hkept _ _ "box" hbuilt hnode (hworn _ trivial trivial)⟩

end PortGraph
