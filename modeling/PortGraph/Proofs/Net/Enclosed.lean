import Mathlib.Data.Set.Function
import PortGraph.Proofs.Graph.Topology
import PortGraph.Proofs.Net.Built
import PortGraph.Proofs.Net.Cold
import PortGraph.Proofs.Net.Saved
import PortGraph.Proofs.Net.Wrapping

/-!
# What becomes of a net that is put in a node

A host that puts a net in a node gets the node in any case.  Its ports are those that the host had
access to before, in the same order (`Node.Presents`), and the net in it is the one that was put there,
but for the marks on the inputs that the node feeds from now on (`Net.Enclosed`).

Ports of inner nodes may have any names, and several of them the same.  It is enough that each port that
is added gets a name that none of those before has: then a port is found by its name at its own position,
where the inner port that it stands for is noted.
-/

set_option autoImplicit false

namespace PortGraph

open PortGraph.Graph
open PortGraph.Net (isNew_of_wrap parts_of_wrap)

/-! ## What a node presents -/

/-- The ports on a side of a net that the host has access to. -/
def Net.accessible (g : Net) : Direction → List Accessor
  | .input => g.setters
  | .output => g.getters

/-- Where these ports are. -/
def Net.places (g : Net) (side : Direction) : List Endpoint :=
  (g.accessible side).map Accessor.place

/-- **A port is like an inner one**: it carries the same, and asks to be supplied if that one does. -/
structure Port.IsLike (p : Port) (a : Accessor) : Prop where
  /-- It carries the same. -/
  dataType : p.dataType = a.dataType
  /-- It asks to be supplied just if the inner one does. -/
  isRequired : p.isRequired = a.isRequired

/-- **A node presents a net**: port by port, it has what the host had access to. -/
structure Node.Presents (n : Node Behaviour) (g : Net) : Prop where
  /-- Each port is like the inner one at its position. -/
  ports : ∀ side, List.Forall₂ Port.IsLike (n.panel.ports side) (g.accessible side)
  /-- An input falls back on what the inner one does. -/
  defaults : List.Forall₂ (fun p a ↦ p.default = Net.defaultOf g a.place) n.panel.inputs g.setters
  /-- No two ports of a side have one name. -/
  names : ∀ side, ((n.panel.ports side).map Port.name).Nodup
  /-- A port stands for the inner one at its position. -/
  bound : ∀ side (i : Nat) (p : Port), (n.panel.ports side)[i]? = some p →
    n.binding? side p.name = (g.places side)[i]?
  /-- Every port of a side stands for one inner port, and there is one port for each. -/
  bijective : ∀ side, Set.BijOn (n.binding? side) {name | ∃ p ∈ n.panel.ports side, p.name = name}
    {place | ∃ a ∈ g.accessible side, some a.place = place}
  /-- No two accessors are for one inner port. -/
  distinct : ∀ side, (g.places side).Nodup

/-- **What becomes of a net that a node holds**: the inputs that the host could feed are exposed, and
all else is left alone. -/
structure Net.Enclosed (g k : Net) : Prop where
  /-- The nodes are what they were, but for the marks on those inputs. -/
  slots : k.slots = g.slots.map (Slot.exposed (g.places .input))
  /-- The links are what they were. -/
  links : k.links = g.links
  /-- So are the name and the factories of the net, and whether it is to be saved and protected. -/
  settings : k.settings = g.settings
  /-- The host has no access to an input any more. -/
  setters : k.setters = []
  /-- There is the same to read. -/
  getters : k.getters = g.getters
  /-- The topology is the same. -/
  topology : k.topology = g.topology
  /-- The same links touch each port. -/
  linkCounts : ∀ side e, (k.port? side e).map Port.linkCount = (g.port? side e).map Port.linkCount
  /-- It is saved as the same. -/
  description : Net.description k = Net.description g
  /-- It is not ready if an input was exposed. -/
  unready : g.setters ≠ [] → k.isReady = false

/-! ## Ports that are added -/

namespace Net

variable {g k : Net} {panel panel' : Panel}

/-- What the inputs are like that are added for inner ones, and what becomes of the net meanwhile. -/
theorem addOuterInputs_presents {setters : List Accessor} (hg : g.WellLinked)
    (h : addOuterInputs setters panel g = .ok (panel', k)) :
    k.slots = g.slots.map (Slot.exposed (setters.map Accessor.place)) ∧ k.links = g.links ∧
      k.settings = g.settings ∧
    ∃ inputs, panel' = { panel with inputs := panel.inputs ++ inputs } ∧
      List.Forall₂ (fun p a ↦ Port.IsLike p a ∧ p.default = defaultOf g a.place) inputs setters := by
  induction setters generalizing panel g with
  | nil =>
    obtain ⟨rfl, rfl⟩ := Prod.mk.inj (Except.ok.inj h)
    refine ⟨?_, rfl, rfl, [], by simp, .nil⟩
    rw [List.map_nil, show Slot.exposed [] = id from funext exposed_nil, List.map_id]
  | cons a setters ih =>
    rw [addOuterInputs] at h
    obtain ⟨⟨panel₁, g₁⟩, hadd, h⟩ := bind_eq_ok h
    obtain ⟨hexpose, rfl⟩ := addOuterInput_eq_ok hadd
    obtain ⟨hslots, hlinks, -⟩ := slots_expose hg hexpose
    have hsettings : g₁.settings = g.settings := by
      obtain rfl := expose_eq_ok hexpose
      rfl
    obtain ⟨hslots', hlinks', hsettings', inputs, rfl, hinputs⟩ := ih (hg.expose hexpose) h
    refine ⟨?_, hlinks'.trans hlinks, hsettings'.trans hsettings, _ :: inputs,
      congrArg (fun inputs ↦ { panel with inputs }) (List.append_assoc ..),
      .cons ⟨⟨rfl, rfl⟩, rfl⟩ (hinputs.imp fun _ _ hp ↦ ⟨hp.1, ?_⟩)⟩
    · rw [hslots', hslots, List.map_map]
      exact List.map_congr_left fun s _ ↦ exposed_exposed _ _ s
    · rw [hp.2, defaultOf_expose hexpose]

/-- What the outputs are like that are added for inner ones that ask for nothing. -/
theorem addOuterOutputs_presents {getters : List Accessor}
    (hasks : ∀ a ∈ getters, a.isRequired = false)
    (h : addOuterOutputs getters panel = .ok panel') :
    ∃ outputs, panel' = { panel with outputs := panel.outputs ++ outputs } ∧
      List.Forall₂ Port.IsLike outputs getters := by
  induction getters generalizing panel with
  | nil =>
    obtain rfl := Except.ok.inj h
    exact ⟨[], by simp, .nil⟩
  | cons a getters ih =>
    obtain ⟨ha, hasks⟩ := List.forall_mem_cons.mp hasks
    rw [addOuterOutputs] at h
    obtain ⟨⟨i, panel₁⟩, hport, h⟩ := bind_eq_ok h
    obtain rfl := (Panel.addPort_eq_ok hport).2.2
    obtain ⟨outputs, rfl, houtputs⟩ := ih hasks h
    exact ⟨_ :: outputs, congrArg (fun outputs ↦ { panel with outputs }) (List.append_assoc ..),
      .cons ⟨rfl, ha.symm⟩ houtputs⟩

/-! ## The net -/

/-- What is read of a net does not depend on which inputs are exposed. -/
theorem getters_exposed {places : List Endpoint} (hk : k.slots = g.slots.map (Slot.exposed places)) :
    k.getters = g.getters := by
  rw [getters, accessors, hk, List.flatMap_map, getters, accessors]
  rfl

/-- Once the inputs that the host could feed are exposed, there are no more of them. -/
theorem setters_exposed (hk : k.slots = g.slots.map (Slot.exposed (g.places .input))) :
    k.setters = [] := by
  refine List.eq_nil_iff_forall_not_mem.mpr fun a ha ↦ ?_
  obtain ⟨r, hr, ha⟩ := List.mem_flatMap.mp ha
  obtain ⟨q, hq, rfl⟩ := List.mem_map.mp ha
  obtain ⟨hq, hfree⟩ := List.mem_filter.mp hq
  rw [hk] at hr
  obtain ⟨s, hs, rfl⟩ := List.mem_map.mp hr
  obtain ⟨p, hp, rfl⟩ := List.mem_map.mp hq
  split at hfree
  · simp at hfree
  · rename_i hplace
    have hmem : (⟨⟨s.key, p.name⟩, p.dataType, p.isRequired⟩ : Accessor) ∈ g.setters :=
      List.mem_flatMap.mpr ⟨s, hs, List.mem_map.mpr ⟨p, List.mem_filter.mpr ⟨hp, hfree⟩, rfl⟩⟩
    exact hplace (List.mem_map_of_mem hmem)

/-- Ports are what they were but for the marks. -/
theorem ports_exposed {places : List Endpoint} (hk : k.slots = g.slots.map (Slot.exposed places))
    (side : Direction) :
    k.slots.map (fun s ↦ (s.key, (s.node.panel.ports side).map fun p ↦
      { p with isExposed := false })) =
    g.slots.map fun s ↦ (s.key, (s.node.panel.ports side).map fun p ↦
      { p with isExposed := false }) := by
  rw [hk, List.map_map]
  refine List.map_congr_left fun s _ ↦ ?_
  cases side with
  | output => rfl
  | input =>
    refine congrArg (s.key, ·) (List.map_map.trans (List.map_congr_left fun p _ ↦ ?_))
    rw [Function.comp_apply]
    split <;> rfl

/-- Descriptions of nets whose places are saved as the same. -/
theorem nodeDescriptions_congr {slots slots' : List (Slot Behaviour)}
    (h : slots'.map Slot.description = slots.map Slot.description) :
    Behaviour.nodeDescriptions slots' = Behaviour.nodeDescriptions slots := by
  have hcons : ∀ s rest, Behaviour.nodeDescriptions (s :: rest) = do
      let d ← s.description
      let ds ← Behaviour.nodeDescriptions rest
      return d :: ds := by
    intro s rest
    rw [Behaviour.nodeDescriptions, Slot.description, Node.persisted]
    cases s.node.behaviour.persisted s.node.panel with
    | error e => rfl
    | ok config => cases Behaviour.nodeDescriptions rest <;> rfl
  induction slots generalizing slots' with
  | nil => rw [List.map_eq_nil_iff.mp h]
  | cons s slots ih =>
    obtain ⟨s', rest, rfl, hs, hrest⟩ := List.map_eq_cons_iff.mp (h.trans List.map_cons)
    rw [hcons, hcons, hs, ih hrest]

/-- **What becomes of a net some inputs of which are exposed.** -/
theorem enclosed_of_addOuterInputs (hg : g.WellLinked)
    (h : addOuterInputs g.setters panel g = .ok (panel', k)) : g.Enclosed k := by
  obtain ⟨hslots, hlinks, hsettings, -⟩ := addOuterInputs_presents hg h
  refine ⟨hslots, hlinks, hsettings, setters_exposed hslots, getters_exposed hslots, ?_,
    fun side e ↦ ?_, ?_, fun hne ↦ ?_⟩
  · rw [topology, topology, hslots, hlinks, List.map_map]
    rfl
  · have hports := map_port?_of_map_eq (f := fun p ↦ { p with isExposed := false }) (fun _ ↦ rfl)
      (ports_exposed hslots side) e
    have hcounts := congrArg (Option.map Port.linkCount) hports
    rw [Option.map_map, Option.map_map] at hcounts
    exact hcounts
  · rw [Net.description, Net.description, nodeDescriptions_congr, hlinks,
      show k.name = g.name from congrArg Prod.fst hsettings]
    rw [hslots, List.map_map]
    exact List.map_congr_left fun s _ ↦ s.description_exposed _
  · exact (eq_of_addOuterInputs h).resolve_left fun hnil ↦ hne hnil.1

end Net

/-! ## The node -/

/-- Names lead to places one by one, if the ports of a side have different names and stand for
different inner ports. -/
theorem Node.bijOn_binding {n : Node Behaviour} {g : Net} {side : Direction}
    (hlength : (n.panel.ports side).length = (g.accessible side).length)
    (hbound : ∀ (i : Nat) (p : Port), (n.panel.ports side)[i]? = some p →
      n.binding? side p.name = (g.places side)[i]?)
    (hnd : (g.places side).Nodup) :
    Set.BijOn (n.binding? side) {name | ∃ p ∈ n.panel.ports side, p.name = name}
      {place | ∃ a ∈ g.accessible side, some a.place = place} := by
  have hplace : ∀ {i : Nat} {a : Accessor}, (g.accessible side)[i]? = some a →
      (g.places side)[i]? = some a.place := by
    intro i a ha
    rw [Net.places, List.getElem?_map, ha]
    rfl
  have haccessor : ∀ {i : Nat} {p : Port}, (n.panel.ports side)[i]? = some p →
      ∃ a, (g.accessible side)[i]? = some a := fun hp ↦
    ⟨_, List.getElem?_eq_getElem (hlength ▸ (List.getElem?_eq_some_iff.mp hp).1)⟩
  refine ⟨?_, ?_, ?_⟩
  · rintro _ ⟨p, hp, rfl⟩
    obtain ⟨i, hi⟩ := List.mem_iff_getElem?.mp hp
    obtain ⟨a, ha⟩ := haccessor hi
    exact ⟨a, List.mem_of_getElem? ha, ((hbound i p hi).trans (hplace ha)).symm⟩
  · rintro _ ⟨p, hp, rfl⟩ _ ⟨q, hq, rfl⟩ heq
    obtain ⟨i, hi⟩ := List.mem_iff_getElem?.mp hp
    obtain ⟨j, hj⟩ := List.mem_iff_getElem?.mp hq
    obtain ⟨a, ha⟩ := haccessor hi
    have hlt := (List.getElem?_eq_some_iff.mp (hplace ha)).1
    rw [hbound i p hi, hbound j q hj] at heq
    obtain rfl := (List.getElem?_inj hlt hnd).mp heq
    rw [Option.some.inj (hi.symm.trans hj)]
  · rintro _ ⟨a, ha, rfl⟩
    obtain ⟨i, hi⟩ := List.mem_iff_getElem?.mp ha
    have hlt := hlength.symm ▸ (List.getElem?_eq_some_iff.mp hi).1
    have hp : (n.panel.ports side)[i]? = some (n.panel.ports side)[i] := List.getElem?_eq_getElem hlt
    exact ⟨_, ⟨_, List.getElem_mem hlt, rfl⟩, (hbound i _ hp).trans (hplace hi)⟩

/-- **Putting a net in a node never fails, and is faithful.**  The node presents what the host had
access to before: there is a port for each inner port, which carries the same, asks for the same and
falls back on the same; names are different, whatever the inner ones are; and a port leads to the inner
port that it stands for.  The net in the node is what was put there, but its inputs are not open to the
host any more, and it is not ready if there were any. -/
theorem Net.Built.presents_wrap {g : Net} (h : g.Built) (name : String) :
    ∃ n k, Net.wrapped? name g = .ok n ∧ (∀ stamp, ((Net.wrap name g).run stamp).result = .ok n) ∧
      n.name = name ∧ n.behaviour = .nested k (g.places .input) (g.places .output) ∧
      n.Presents g ∧ g.Enclosed k := by
  obtain ⟨hg, hasks⟩ := h.orderly
  obtain ⟨n, hwrapped, hwrap⟩ := Net.exists_wrap hg name
  obtain ⟨panel₁, panel₂, k, hadd, hadd', hn⟩ := parts_of_wrap (hwrap 0)
  have henclosed := Net.enclosed_of_addOuterInputs hg hadd
  obtain ⟨-, -, -, inputs, rfl, hinputs⟩ := Net.addOuterInputs_presents hg hadd
  rw [henclosed.getters] at hadd' hn
  obtain ⟨outputs, rfl, houtputs⟩ := Net.addOuterOutputs_presents (fun a ha ↦ by
    obtain ⟨s, hs, ha⟩ := List.mem_flatMap.mp ha
    obtain ⟨p, hp, rfl⟩ := List.mem_map.mp ha
    exact hasks s hs p (List.mem_of_mem_filter hp)) hadd'
  have hb : n.behaviour = .nested k (g.places .input) (g.places .output) := by
    rw [hn]
    rfl
  have hports : ∀ side, List.Forall₂ Port.IsLike (n.panel.ports side) (g.accessible side) := by
    rw [hn]
    rintro (_ | _)
    · exact hinputs.imp fun _ _ hp ↦ hp.1
    · exact houtputs
  have hnames := (isNew_of_wrap (hwrap 0)).1.ports_nodup
  have hplaces : ∀ side, (g.places side).Nodup := by
    rintro (_ | _)
    · exact (hg.isTallied.lists_accessors .input _).nodup
    · exact (hg.isTallied.lists_accessors .output _).nodup
  have hbound : ∀ side (i : Nat) (p : Port), (n.panel.ports side)[i]? = some p →
      n.binding? side p.name = (g.places side)[i]? :=
    fun side _ _ hp ↦ Node.binding?_of_getElem? g.places hb (hnames side) hp
  refine ⟨n, k, hwrapped, hwrap, by rw [hn]; rfl, hb, ⟨hports, ?_, hnames, hbound, fun side ↦ ?_,
    hplaces⟩, henclosed⟩
  · rw [hn]
    exact hinputs.imp fun _ _ hp ↦ hp.2
  · exact Node.bijOn_binding (hports side).length_eq (hbound side) (hplaces side)

/-! ## A net whose ports have the same names -/

/-- The node that holds a net. -/
theorem Net.Built.boxed {g : Net} (h : g.Built) :
    g.boxed.Built ∧ ((Net.wrap "box" g).run 0).result = .ok g.boxed := by
  obtain ⟨n, -, -, hwrap, -⟩ := h.presents_wrap "box"
  have hboxed : g.boxed = n := by
    rw [Net.boxed, hwrap]
    rfl
  rw [hboxed]
  exact ⟨.wrapped h (hwrap 0), hwrap 0⟩

theorem Net.Built.ask {g : Net} (h : g.Built) (r : Request Behaviour)
    (hnode : ∀ n, r = .addNode n → n.Built)
    (hfresh : ∀ source target, r = .addLink source target → g.links = []) : (g.ask r).Built := by
  rw [Net.ask, ← Request.perform_eq_reply]
  refine .step r h hnode fun source target hr l hl ↦ ?_
  rw [hfresh source target hr] at hl
  exact absurd hl (by simp)

/-- An input of a name. -/
def sampleInput (name : String) : Port := { name, direction := .input, dataType := ⟨"int"⟩ }

/-- A node with inputs of the given names. -/
def sampleReader (name : String) (inputs : List String) : Node Behaviour where
  panel := { name, typeName := "Reader", inputs := inputs.map sampleInput }
  behaviour := .operation .increment

/-- Two nodes.  The first one leaves no name for the input of the second one, nor the next one. -/
def sampleTwins : Net :=
  let alone := Net.withNode "twins" (sampleReader "a" ["in", "in_1"])
  ((Request.addNode (sampleReader "b" ["in"])).perform alone.life FactorySet.createNode alone
    0).result

theorem built_sampleTwins : sampleTwins.Built := by
  have hbare : ∀ name, (sampleReader name []).Built := fun name ↦ .plain name "Reader" rfl
  have hfirst : ∀ name, (sampleReader name ["in"]).Built := fun name ↦ by
    have hadd : (sampleReader name []).panel.addPort .input (sampleInput "in") =
        .ok (0, (sampleReader name ["in"]).panel) := rfl
    exact (hbare name).handled (.extended (.new "in" .input ⟨"int"⟩) hadd)
  have hboth : (sampleReader "a" ["in", "in_1"]).Built := by
    have hadd : (sampleReader "a" ["in"]).panel.addPort .input (sampleInput "in_1") =
        .ok (1, (sampleReader "a" ["in", "in_1"]).panel) := rfl
    exact (hfirst "a").handled (.extended (.new "in_1" .input ⟨"int"⟩) hadd)
  have hadd : ∀ {g : Net} {n : Node Behaviour}, g.Built → n.Built → (g.ask (.addNode n)).Built :=
    fun hg hn ↦ hg.ask _ (fun m hm ↦ Request.addNode.inj hm ▸ hn) (by simp)
  exact hadd (hadd (.empty "twins" {}) hboth) (hfirst "b")

theorem presents_wrap_sampleTwins :
    sampleTwins.setters.map (fun a ↦ a.place) = [⟨"a", "in"⟩, ⟨"a", "in_1"⟩, ⟨"b", "in"⟩] ∧
    ∃ n k, Net.wrapped? "box" sampleTwins = .ok n ∧
      n.panel.inputs.map Port.name = ["in", "in_1", "in_2"] ∧
      n.binding? .input "in_2" = some ⟨"b", "in"⟩ ∧ n.Presents sampleTwins ∧
      sampleTwins.Enclosed k ∧ k.isReady = false := by
  obtain ⟨n, k, hn, -, -, -, hpresents, henclosed⟩ := built_sampleTwins.presents_wrap "box"
  have hnames : (Net.wrapped? "box" sampleTwins).toOption.map (·.panel.inputs.map Port.name) =
      some ["in", "in_1", "in_2"] := by decide +kernel
  have hbinding : (Net.wrapped? "box" sampleTwins).toOption.map (·.binding? .input "in_2") =
      some (some ⟨"b", "in"⟩) := by decide +kernel
  rw [hn] at hnames hbinding
  exact ⟨by decide +kernel, n, k, hn, Option.some.inj hnames, Option.some.inj hbinding, hpresents,
    henclosed, henclosed.unready (by decide +kernel)⟩

end PortGraph
