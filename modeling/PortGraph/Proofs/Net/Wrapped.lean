import PortGraph.Proofs.Graph.Effects
import PortGraph.Proofs.Graph.Turns
import PortGraph.Proofs.Net.Builtin

/-!
# What a node is like that holds a net

`Net.wrapped?` adds a port for each open port of the net, and marks the inputs among these as fed
(`Slot.exposed`).  So the panel of the node mirrors the net (`Net.wrapped?_spec`).
-/

set_option autoImplicit false

namespace PortGraph

open PortGraph.Graph

/-- The place when the node that holds its net feeds some inputs. -/
def Slot.exposed (places : List Endpoint) (s : Slot Behaviour) : Slot Behaviour :=
  s.mapNode (·.mapPanel fun panel ↦ { panel with
    inputs := panel.inputs.map fun p ↦
      if ⟨s.key, p.name⟩ ∈ places then { p with isExposed := true } else p })

/-- What is looked up of an open port when it is mirrored. -/
def Port.accessor (open_ : Endpoint × Port) : Accessor :=
  ⟨open_.1, open_.2.dataType, open_.2.isRequired⟩

namespace Net

variable {g k : Net}

theorem setters_eq (h : g.IsOutermost) : g.setters = (g.openPorts .input).map Port.accessor := by
  rw [setters, accessors, openPorts, List.map_flatMap]
  refine List.flatMap_congr fun s hs ↦ ?_
  rw [List.map_map]
  have hfilter : (s.node.panel.ports .input).filter (fun p ↦ !p.isLinked && !p.isExposed) =
      (s.node.panel.ports .input).filter (!·.isLinked) :=
    List.filter_congr fun p hp ↦ by rw [h s hs p hp]; simp
  rw [hfilter]
  rfl

theorem getters_eq (g : Net) : g.getters = (g.openPorts .output).map Port.accessor := by
  rw [getters, accessors, openPorts, List.map_flatMap]
  refine congrArg (List.flatMap · g.slots) (funext fun s ↦ ?_)
  rw [List.map_map]
  rfl

theorem exposed_nil (s : Slot Behaviour) : s.exposed [] = s := by
  simp [Slot.exposed, Slot.mapNode, Node.mapPanel]

theorem exposed_exposed (places more : List Endpoint) (s : Slot Behaviour) :
    (s.exposed places).exposed more = s.exposed (places ++ more) := by
  have hinputs : (s.node.panel.inputs.map fun p ↦
      if ⟨s.key, p.name⟩ ∈ places then { p with isExposed := true } else p).map (fun p : Port ↦
        if ⟨s.key, p.name⟩ ∈ more then { p with isExposed := true } else p) =
      s.node.panel.inputs.map fun p ↦
        if ⟨s.key, p.name⟩ ∈ places ++ more then { p with isExposed := true } else p := by
    rw [List.map_map]
    refine List.map_congr_left fun p _ ↦ ?_
    by_cases hp : (⟨s.key, p.name⟩ : Endpoint) ∈ places <;> simp [hp]
  exact congrArg (fun inputs ↦ s.mapNode (·.mapPanel fun panel ↦ { panel with inputs })) hinputs

theorem slots_expose (hg : g.WellLinked) {place : Endpoint} (hk : g.expose place = .ok k) :
    k.slots = g.slots.map (Slot.exposed [place]) ∧ k.links = g.links ∧ k.name = g.name := by
  obtain rfl := expose_eq_ok hk
  refine ⟨List.map_congr_left fun s hs ↦ ?_, rfl, rfl⟩
  have hports := Port.modifyNamed_eq_map place.port (fun p ↦ { p with isExposed := true })
    ((hg.regular s hs).ports_nodup .input)
  by_cases hkey : s.key = place.node
  · have hmem : ∀ p : Port, (⟨s.key, p.name⟩ : Endpoint) ∈ [place] ↔ p.name = place.port := by
      intro p
      rw [List.mem_singleton, hkey]
      exact ⟨congrArg Endpoint.port, fun h ↦ by rw [h]⟩
    rw [if_pos hkey, Slot.exposed]
    simp only [hmem]
    exact congrArg (fun inputs ↦ s.mapNode (·.mapPanel fun panel ↦ { panel with inputs })) hports
  · have hmem : ∀ p : Port, (⟨s.key, p.name⟩ : Endpoint) ∉ [place] := by
      intro p hp
      exact hkey (congrArg Endpoint.node (List.mem_singleton.mp hp))
    rw [if_neg hkey, Slot.exposed]
    simp only [hmem, if_false]
    simp [Slot.mapNode, Node.mapPanel]

theorem defaultOf_expose {place place' : Endpoint} (hk : g.expose place = .ok k) :
    defaultOf k place' = defaultOf g place' := by
  obtain rfl := expose_eq_ok hk
  have hport := port?_modifyPort (f := fun p : Port ↦ { p with isExposed := true }) (fun _ ↦ rfl) g
    .input .input place place'
  rw [defaultOf, show (g.modifyPort .input place fun p ↦ { p with isExposed := true }).unschedule.port?
    .input place' = _ from hport, defaultOf]
  split
  · rename_i h
    rw [← h.2]
    cases g.port? .input place' <;> rfl
  · rfl

theorem addOuterInput_eq_ok {inner : Accessor} {panel panel' : Panel}
    (h : addOuterInput inner panel g = .ok (panel', k)) :
    g.expose inner.place = .ok k ∧ panel' = { panel with inputs := panel.inputs ++
      [{ name := freshName (panel.inputs.map Port.name) inner.place.port, direction := .input,
         dataType := inner.dataType, isRequired := inner.isRequired,
         default := defaultOf g inner.place }] } := by
  rw [addOuterInput] at h
  obtain ⟨⟨i, panel₁⟩, hport, h⟩ := bind_eq_ok h
  obtain ⟨g₁, hexpose, h⟩ := bind_eq_ok h
  obtain ⟨rfl, rfl⟩ := Prod.mk.inj (Except.ok.inj h)
  refine ⟨hexpose, ?_⟩
  rw [(Panel.addPort_eq_ok hport).2.2]
  cases inner.isRequired <;> rfl

/-- What the inputs are that were added for open ones, and which inner ones are fed then. -/
theorem addOuterInputs_spec {opens : List (Endpoint × Port)} {panel panel' : Panel}
    (hg : g.WellLinked)
    (hopens : ∀ o ∈ opens, o.1.port = o.2.name ∧
      (defaultOf g o.1).map Packet.unstamped = o.2.default)
    (h : addOuterInputs (opens.map Port.accessor) panel g = .ok (panel', k)) :
    (k.slots = g.slots.map (Slot.exposed (opens.map Prod.fst)) ∧ k.links = g.links ∧
      k.name = g.name) ∧
    ∃ inputs, panel' = { panel with inputs := panel.inputs ++ inputs } ∧
      inputs.map Port.declared =
        Port.mirror .input (panel.inputs.map Port.name) (opens.map Prod.snd) ∧
      ∀ p ∈ inputs, p.isExposed = false ∧ p.stored = none := by
  -- each input that is added takes a name that is still free, and exposes one inner port
  induction opens generalizing panel g with
  | nil =>
    obtain ⟨rfl, rfl⟩ := Prod.mk.inj (Except.ok.inj h)
    refine ⟨⟨?_, rfl, rfl⟩, [], by simp, rfl, by simp⟩
    rw [List.map_nil, show Slot.exposed [] = id from funext exposed_nil, List.map_id]
  | cons o opens ih =>
    obtain ⟨⟨hname, hdefault⟩, hopens⟩ := List.forall_mem_cons.mp hopens
    rw [List.map_cons, addOuterInputs] at h
    obtain ⟨⟨panel₁, g₁⟩, hadd, h⟩ := bind_eq_ok h
    obtain ⟨hexpose, rfl⟩ := addOuterInput_eq_ok hadd
    obtain ⟨hslots, hlinks, hgname⟩ := slots_expose hg hexpose
    obtain ⟨⟨hslots', hlinks', hgname'⟩, inputs, rfl, hinputs, hfed⟩ := ih (hg.expose hexpose)
      (fun o' ho' ↦ ⟨(hopens o' ho').1, defaultOf_expose hexpose ▸ (hopens o' ho').2⟩) h
    refine ⟨⟨?_, hlinks'.trans hlinks, hgname'.trans hgname⟩,
      { name := freshName (panel.inputs.map Port.name) o.1.port, direction := .input,
        dataType := o.2.dataType, isRequired := o.2.isRequired, default := defaultOf g o.1 } ::
        inputs, ?_, ?_, ?_⟩
    · rw [hslots', hslots, List.map_map]
      exact List.map_congr_left fun s _ ↦ exposed_exposed _ _ s
    · exact congrArg (fun inputs ↦ { panel with inputs }) (List.append_assoc ..)
    · rw [List.map_cons, hinputs, List.map_cons, Port.mirror, List.map_append, ← hname]
      refine congrArg (· :: _) ?_
      rw [Port.mirrored, Port.declared, Port.form, hdefault]
    · exact List.forall_mem_cons.mpr ⟨⟨rfl, rfl⟩, hfed⟩

/-- What the outputs are that were added for open ones. -/
theorem addOuterOutputs_spec {opens : List (Endpoint × Port)} {panel panel' : Panel}
    (hopens : ∀ o ∈ opens, o.1.port = o.2.name)
    (h : addOuterOutputs (opens.map Port.accessor) panel = .ok panel') :
    ∃ outputs, panel' = { panel with outputs := panel.outputs ++ outputs } ∧
      outputs.map Port.declared =
        Port.mirror .output (panel.outputs.map Port.name) (opens.map Prod.snd) ∧
      ∀ p ∈ outputs, p.isExposed = false := by
  induction opens generalizing panel with
  | nil =>
    obtain rfl := Except.ok.inj h
    exact ⟨[], by simp, rfl, by simp⟩
  | cons o opens ih =>
    obtain ⟨hname, hopens⟩ := List.forall_mem_cons.mp hopens
    rw [List.map_cons, addOuterOutputs] at h
    obtain ⟨⟨i, panel₁⟩, hport, h⟩ := bind_eq_ok h
    obtain rfl := (Panel.addPort_eq_ok hport).2.2
    obtain ⟨outputs, rfl, houtputs, hfed⟩ := ih hopens h
    refine ⟨{ name := freshName (panel.outputs.map Port.name) o.1.port, direction := .output,
              dataType := o.2.dataType } :: outputs, ?_, ?_, List.forall_mem_cons.mpr ⟨rfl, hfed⟩⟩
    · exact congrArg (fun outputs ↦ { panel with outputs }) (List.append_assoc ..)
    · rw [List.map_cons, houtputs, List.map_cons, Port.mirror, ← hname]
      refine congrArg₂ (· :: Port.mirror .output · _) rfl ?_
      exact List.map_append ..

theorem openPorts_port (o : Endpoint × Port) {side : Direction} (ho : o ∈ g.openPorts side) :
    ∃ s ∈ g.slots, ∃ p ∈ s.node.panel.ports side, p.isLinked = false ∧
      o = (⟨s.key, p.name⟩, p.declared) := by
  obtain ⟨s, hs, ho⟩ := List.mem_flatMap.mp ho
  obtain ⟨p, hp, rfl⟩ := List.mem_map.mp ho
  obtain ⟨hp, hfree⟩ := List.mem_filter.mp hp
  exact ⟨s, hs, p, hp, by simpa using hfree, rfl⟩

theorem openPorts_exposed {places : List Endpoint}
    (hk : k.slots = g.slots.map (Slot.exposed places)) (side : Direction) :
    k.openPorts side = g.openPorts side := by
  rw [openPorts, hk, List.flatMap_map, openPorts]
  refine congrArg (List.flatMap · g.slots) (funext fun s ↦ ?_)
  cases side with
  | output => rfl
  | input =>
    have hsame : ∀ p : Port,
        (if (⟨s.key, p.name⟩ : Endpoint) ∈ places then { p with isExposed := true }
          else p).isLinked = p.isLinked ∧
        (if (⟨s.key, p.name⟩ : Endpoint) ∈ places then { p with isExposed := true }
          else p).name = p.name ∧
        (if (⟨s.key, p.name⟩ : Endpoint) ∈ places then { p with isExposed := true }
          else p).declared = p.declared := fun p ↦ by split <;> exact ⟨rfl, rfl, rfl⟩
    simp only [Slot.exposed, Slot.mapNode, Node.mapPanel, Panel.ports, List.filter_map,
      List.map_map, Function.comp_def, hsame]

/-- A port is among the open ones if no link touches it. -/
theorem mem_openPorts_iff (hg : g.WellLinked) {s : Slot Behaviour} (hs : s ∈ g.slots)
    {side : Direction} {q : Port} (hq : q ∈ s.node.panel.ports side) :
    (⟨s.key, q.name⟩ : Endpoint) ∈ (g.openPorts side).map Prod.fst ↔ q.isLinked = false := by
  constructor
  · intro hm
    obtain ⟨o, ho, he⟩ := List.mem_map.mp hm
    obtain ⟨s', hs', p, hp, hfree, rfl⟩ := openPorts_port o ho
    have hport := hg.port?_of_mem hs' hp
    rw [show (⟨s'.key, p.name⟩ : Endpoint) = ⟨s.key, q.name⟩ from he,
      hg.port?_of_mem hs hq] at hport
    rw [Option.some.inj hport]
    exact hfree
  · intro hfree
    refine List.mem_map.mpr ⟨(⟨s.key, q.name⟩, q.declared), List.mem_flatMap.mpr ⟨s, hs, ?_⟩, rfl⟩
    exact List.mem_map.mpr ⟨q, List.mem_filter.mpr ⟨hq, by simp [hfree]⟩, rfl⟩

/-- **What a node is like that holds a net** which no other net fed before. -/
theorem wrapped?_spec (hg : g.WellLinked) (ho : g.IsOutermost) {name : String}
    {n : Node Behaviour} (h : wrapped? name g = .ok n) :
    ∃ k, n.behaviour = .nested k ((g.openPorts .input).map Prod.fst)
        ((g.openPorts .output).map Prod.fst) ∧
      (k.slots = g.slots.map (Slot.exposed ((g.openPorts .input).map Prod.fst)) ∧
        k.links = g.links ∧ k.name = g.name) ∧
      n.panel.Mirrors k ((g.openPorts .input).map Prod.fst) ((g.openPorts .output).map Prod.fst) ∧
      (∀ p ∈ n.panel.inputs, p.isExposed = false ∧ p.stored = none) ∧
      (∀ p ∈ n.panel.outputs, p.isExposed = false) ∧
      n.panel.name = name ∧ n.panel.typeName = nestedType ∧ n.panel.metadata = none := by
  have hplaces : ∀ side, (g.openPorts side).map (Accessor.place ∘ Port.accessor) =
      (g.openPorts side).map Prod.fst := fun side ↦ rfl
  -- the inputs come first, as the outputs are read off the net whose inputs are exposed
  rw [wrapped?, setters_eq ho] at h
  obtain ⟨⟨panel₁, k⟩, hadd, h⟩ := bind_eq_ok h
  obtain ⟨panel₂, hadd', h⟩ := bind_eq_ok h
  obtain rfl := Except.ok.inj h
  obtain ⟨hk, inputs, rfl, hinputs, hfed⟩ := addOuterInputs_spec hg (fun o ho ↦ by
    obtain ⟨s, hs, p, hp, -, rfl⟩ := openPorts_port o ho
    refine ⟨rfl, ?_⟩
    rw [defaultOf, hg.port?_of_mem hs hp]
    rfl) hadd
  dsimp only at hadd'
  rw [getters_eq] at hadd'
  obtain ⟨outputs, rfl, houtputs, hfed'⟩ := addOuterOutputs_spec (fun o ho ↦ by
    obtain ⟨s, -, p, -, -, rfl⟩ := openPorts_port o ho
    rfl) hadd'
  have hopen := openPorts_exposed hk.1
  refine ⟨k, ?_, hk, ⟨?_, ?_, ?_, ?_, fun s hs p hp ↦ ?_⟩, hfed, hfed', rfl, rfl, rfl⟩
  · dsimp only
    rw [getters_eq, List.map_map, List.map_map, hplaces, hopen, hplaces]
  · rw [hopen]
    exact hinputs
  · exact houtputs
  · rw [hopen]
  · rw [hopen]
  · -- an inner input is fed exactly if it is among the open ones
    rw [hk.1] at hs
    obtain ⟨r, hr, rfl⟩ := List.mem_map.mp hs
    obtain ⟨q, hq, rfl⟩ := List.mem_map.mp hp
    have hmem : (⟨r.key, q.name⟩ : Endpoint) ∈ (g.openPorts .input).map Prod.fst ↔
        q.isLinked = false := mem_openPorts_iff hg hr hq
    by_cases hfree : q.isLinked = false
    · rw [if_pos (hmem.mpr hfree)]
      simpa [Port.isLinked] using hfree
    · rw [if_neg fun hm ↦ hfree (hmem.mp hm), ho r hr q hq]
      simpa using hfree

end Net

end PortGraph
