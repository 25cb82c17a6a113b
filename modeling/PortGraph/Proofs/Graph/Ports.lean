import PortGraph.Graph.Access
import PortGraph.Graph.Saved
import Mathlib.Data.List.Nodup
import Mathlib.Data.List.Perm.Basic

/-!
# Looking ports up

How `Graph.node?` and `Graph.port?` answer after a change of nodes or ports, and the skeleton of a
graph: what is left of it when the values its ports hold, the flags of its nodes and its schedule
are taken away.  A node that is called changes nothing else of its panel (`Lifecycle.KeepsOutline`),
so a graph keeps its skeleton whenever it calls its nodes.
-/

set_option autoImplicit false

namespace PortGraph

/-! ## Lists of ports -/

namespace Port

variable {f : Port → Port} {name m : String} {ports : List Port}

theorem named?_modifyNamed (hf : ∀ p, (f p).name = p.name) :
    named? m (modifyNamed name f ports) =
      if m = name then (named? name ports).map f else named? m ports := by
  unfold named?
  induction ports with
  | nil => simp [modifyNamed]
  | cons p ps ih =>
    rw [modifyNamed]
    by_cases hp : p.name = name
    · by_cases hm : m = name
      · simp [hp, hm, hf]
      · have hne : name ≠ m := Ne.symm hm
        simp [hp, hm, hf, hne]
    · rw [if_neg hp, List.find?_cons, ih]
      by_cases hm : m = name
      · simp [hp, hm]
      · simp [hm, List.find?_cons]

theorem map_modifyNamed_of_eq {γ : Type} {k : Port → γ} (hk : ∀ p, k (f p) = k p) :
    (modifyNamed name f ports).map k = ports.map k := by
  induction ports with
  | nil => rfl
  | cons p ps ih =>
    rw [modifyNamed]
    split
    · simp [hk]
    · simp [ih]

theorem named?_map (hf : ∀ p, (f p).name = p.name) :
    named? m (ports.map f) = (named? m ports).map f := by
  rw [named?, named?, List.find?_map]
  simp only [Function.comp_def, hf]

theorem position?_map (hf : ∀ p, (f p).name = p.name) :
    position? m (ports.map f) = position? m ports := by
  rw [position?, position?, List.findIdx?_map]
  simp [Function.comp_def, hf]

theorem mem_of_named? {p : Port} (h : named? m ports = some p) : p ∈ ports ∧ p.name = m :=
  ⟨List.mem_of_find?_eq_some h, by simpa using List.find?_some h⟩

/-- With no repeated name, the lookup finds what is there. -/
theorem named?_eq_some_iff (hnd : (ports.map Port.name).Nodup) {p : Port} :
    named? m ports = some p ↔ p ∈ ports ∧ p.name = m := by
  refine ⟨mem_of_named?, fun h ↦ ?_⟩
  obtain ⟨hp, rfl⟩ := h
  induction ports with
  | nil => simp at hp
  | cons q ps ih =>
    rw [List.map_cons, List.nodup_cons] at hnd
    rcases List.mem_cons.mp hp with rfl | hp
    · simp [named?]
    · have hne : q.name ≠ p.name := fun h ↦ hnd.1 (h ▸ List.mem_map_of_mem hp)
      have hrest := ih hnd.2 hp
      rw [named?] at hrest ⊢
      rw [List.find?_cons, hrest]
      simp [hne]

@[simp] theorem store_name (p : Port) (x : Option Packet) : (p.store x).name = p.name := rfl

@[simp] theorem attach_name (p : Port) : p.attach.name = p.name := rfl

@[simp] theorem detach_name (p : Port) : p.detach.name = p.name := rfl

@[simp] theorem store_store (p : Port) (x y : Option Packet) : (p.store x).store y = p.store y :=
  rfl

@[simp] theorem store_linkCount (p : Port) (x : Option Packet) :
    (p.store x).linkCount = p.linkCount := rfl

@[simp] theorem store_dataType (p : Port) (x : Option Packet) :
    (p.store x).dataType = p.dataType := rfl

end Port

/-! ## Panels -/

namespace Panel

@[simp] theorem ports_withPorts (panel : Panel) (side side' : Direction) (ports : List Port) :
    (panel.withPorts side ports).ports side' =
      if side' = side then ports else panel.ports side' := by
  cases side <;> cases side' <;> rfl

@[simp] theorem withPorts_name (panel : Panel) (side : Direction) (ports : List Port) :
    (panel.withPorts side ports).name = panel.name := by
  cases side <;> rfl

@[simp] theorem withPorts_isInitialized (panel : Panel) (side : Direction) (ports : List Port) :
    (panel.withPorts side ports).isInitialized = panel.isInitialized := by
  cases side <;> rfl

theorem port?_modifyPort {f : Port → Port} (hf : ∀ p, (f p).name = p.name) (panel : Panel)
    (side side' : Direction) (name m : String) :
    (panel.modifyPort side name f).port? side' m =
      if side' = side ∧ m = name then (panel.port? side name).map f
      else panel.port? side' m := by
  rw [port?, modifyPort, ports_withPorts]
  by_cases hs : side' = side
  · subst hs
    rw [if_pos rfl, Port.named?_modifyNamed hf]
    by_cases hm : m = name <;> simp [hm, port?]
  · rw [if_neg hs, if_neg fun h ↦ hs h.1, port?]

/-- A port that could be added is made for its side, has a name that is new there, and stands last. -/
theorem addPort_eq_ok {panel panel' : Panel} {side : Direction} {p : Port} {i : Nat}
    (h : panel.addPort side p = .ok (i, panel')) : p.direction = side ∧
      p.name ∉ (panel.ports side).map Port.name ∧
      panel' = panel.withPorts side (panel.ports side ++ [p]) := by
  rw [addPort] at h
  split at h
  · exact absurd h (by simp)
  · rename_i hside
    split at h
    · exact absurd h (by simp)
    · rename_i hnew
      refine ⟨not_not.mp hside, fun hm ↦ hnew ?_, (Prod.mk.inj (Except.ok.inj h)).2.symm⟩
      obtain ⟨q, hq, hqp⟩ := List.mem_map.mp hm
      rw [port?, Port.named?, List.find?_isSome]
      exact ⟨q, hq, decide_eq_true hqp⟩

/-- What of a panel its node does not change: all but the values on its ports and the data of the
application. -/
def outline (panel : Panel) : Panel :=
  { panel with
    inputs := panel.inputs.map (·.store none)
    outputs := panel.outputs.map (·.store none)
    metadata := none }

theorem ports_outline (panel : Panel) (side : Direction) :
    panel.outline.ports side = (panel.ports side).map (·.store none) := by
  cases side <;> rfl

theorem outline_withPorts (panel : Panel) (side : Direction) (ports : List Port) :
    (panel.withPorts side ports).outline =
      panel.outline.withPorts side (ports.map (·.store none)) := by
  cases side <;> rfl

/-- The outline without the flag. -/
def bare (panel : Panel) : Panel := { panel.outline with isInitialized := false }

theorem ports_bare (panel : Panel) (side : Direction) :
    panel.bare.ports side = (panel.ports side).map (·.store none) := by
  cases side <;> rfl

theorem bare_eq_of_outline_eq {panel panel' : Panel} (h : panel.outline = panel'.outline) :
    panel.bare = panel'.bare := by
  rw [bare, bare, h]

theorem port?_bare (panel : Panel) (side : Direction) (name : String) :
    panel.bare.port? side name = (panel.port? side name).map (·.store none) := by
  rw [port?, ports_bare, Port.named?_map (fun p ↦ p.store_name none), port?]

theorem position?_bare (panel : Panel) (side : Direction) (name : String) :
    panel.bare.position? side name = panel.position? side name := by
  rw [position?, ports_bare, Port.position?_map (fun p ↦ p.store_name none), position?]

theorem withPorts_ports (panel : Panel) (side : Direction) :
    panel.withPorts side (panel.ports side) = panel := by
  cases side <;> rfl

/-- Ports that differ in their values only make no other outline. -/
theorem outline_withPorts_of_map {panel : Panel} {side : Direction} {ports : List Port}
    (h : ports.map (·.store none) = (panel.ports side).map (·.store none)) :
    (panel.withPorts side ports).outline = panel.outline := by
  rw [outline_withPorts, h, ← ports_outline, withPorts_ports]

end Panel

/-! ## Graphs -/

namespace Graph

variable {β : Type}

/-- A position leads to a name if it leads to a node of this name. -/
theorem getElem?_nodeNames {g : Graph β} {i : Nat} {s : Slot β} (hs : g.slots[i]? = some s) :
    g.nodeNames[i]? = some s.key := by
  rw [nodeNames, List.getElem?_map, hs, Option.map_some]

theorem node?_eq_some_iff {g : Graph β} (hnd : g.nodeNames.Nodup) {name : String} {n : Node β} :
    g.node? name = some n ↔ ⟨name, n⟩ ∈ g.slots := by
  obtain ⟨_, slots, _, _, _, _, _, _⟩ := g
  rw [nodeNames] at hnd
  rw [node?]
  dsimp only at hnd ⊢
  induction slots with
  | nil => simp
  | cons s rest ih =>
    rw [List.map_cons, List.nodup_cons] at hnd
    rw [List.find?_cons, List.mem_cons]
    by_cases hs : s.key = name
    · have hno : ⟨name, n⟩ ∉ rest := fun hm ↦ hnd.1 (hs ▸ List.mem_map_of_mem hm)
      obtain ⟨key, node⟩ := s
      subst hs
      simp [hno, eq_comm]
    · have hne : (⟨name, n⟩ : Slot β) ≠ s := fun h ↦ hs (h ▸ rfl)
      simpa [hs, hne] using ih hnd.2

theorem mem_of_node? {g : Graph β} {name : String} {n : Node β} (h : g.node? name = some n) :
    ⟨name, n⟩ ∈ g.slots := by
  rw [node?, Option.map_eq_some_iff] at h
  obtain ⟨⟨key, _⟩, hs, rfl⟩ := h
  have hk : key = name := by simpa using List.find?_some hs
  exact hk ▸ List.mem_of_find?_eq_some hs

theorem contains_iff_mem {g : Graph β} {name : String} :
    g.contains name = true ↔ name ∈ g.nodeNames := by
  rw [contains, node?, Option.isSome_map, List.find?_isSome, nodeNames, List.mem_map]
  simp

theorem port?_eq_some_iff {g : Graph β} (hnd : g.nodeNames.Nodup) {side : Direction}
    (hports : ∀ s ∈ g.slots, ((s.node.panel.ports side).map Port.name).Nodup) {e : Endpoint}
    {p : Port} :
    g.port? side e = some p ↔
      ∃ s ∈ g.slots, s.key = e.node ∧ p ∈ s.node.panel.ports side ∧ p.name = e.port := by
  rw [port?, Option.bind_eq_some_iff]
  constructor
  · rintro ⟨n, hn, hp⟩
    obtain ⟨hp, hm⟩ := Port.mem_of_named? hp
    exact ⟨⟨e.node, n⟩, mem_of_node? hn, rfl, hp, hm⟩
  · rintro ⟨⟨key, n⟩, hs, rfl, hp, hm⟩
    exact ⟨n, (node?_eq_some_iff hnd).mpr hs, (Port.named?_eq_some_iff (hports _ hs)).mpr ⟨hp, hm⟩⟩

@[simp] theorem nodeNames_modifyNode (g : Graph β) (name : String) (f : Node β → Node β) :
    (g.modifyNode name f).nodeNames = g.nodeNames := by
  rw [nodeNames, modifyNode, nodeNames, List.map_map]
  refine List.map_congr_left fun s _ ↦ ?_
  rw [Function.comp_apply]
  split <;> rfl

@[simp] theorem nodeNames_modifyPort (g : Graph β) (side : Direction) (e : Endpoint)
    (f : Port → Port) : (g.modifyPort side e f).nodeNames = g.nodeNames :=
  nodeNames_modifyNode g _ _

theorem node?_modifyNode (g : Graph β) (name m : String) (f : Node β → Node β) :
    (g.modifyNode name f).node? m =
      if m = name then (g.node? name).map f else g.node? m := by
  rw [node?, modifyNode, List.find?_map]
  have hkey : ((fun s : Slot β ↦ decide (s.key = m)) ∘
      fun s ↦ if s.key = name then s.mapNode f else s) = fun s ↦ decide (s.key = m) := by
    funext s
    rw [Function.comp_apply]
    split <;> rfl
  rw [hkey, Option.map_map]
  by_cases hm : m = name
  · subst hm
    rw [if_pos rfl, node?, Option.map_map]
    refine Option.map_congr fun s hs ↦ ?_
    have hk : s.key = m := by simpa using List.find?_some hs
    simp [hk, Slot.mapNode]
  · rw [if_neg hm, node?]
    refine Option.map_congr fun s hs ↦ ?_
    have hk : s.key = m := by simpa using List.find?_some hs
    simp [hk, hm]

theorem port?_modifyPort {f : Port → Port} (hf : ∀ p, (f p).name = p.name) (g : Graph β)
    (side side' : Direction) (e e' : Endpoint) :
    (g.modifyPort side e f).port? side' e' =
      if side' = side ∧ e' = e then (g.port? side e).map f else g.port? side' e' := by
  rw [port?, modifyPort, modifyPanel, node?_modifyNode]
  by_cases hn : e'.node = e.node
  · rw [if_pos hn, Option.bind_map]
    simp only [Function.comp_def, Node.mapPanel, Panel.port?_modifyPort hf]
    by_cases hs : side' = side ∧ e'.port = e.port
    · have he : e' = e := by cases e; cases e'; simp_all
      rw [if_pos ⟨hs.1, he⟩, port?, Option.map_bind]
      simp only [hs, and_self, if_true, Function.comp_def]
    · have hse : ¬(side' = side ∧ e' = e) := fun h ↦ hs ⟨h.1, h.2 ▸ rfl⟩
      rw [if_neg hse, port?, hn]
      simp only [hs, if_false]
  · have hse : ¬(side' = side ∧ e' = e) := fun h ↦ hn (h.2 ▸ rfl)
    rw [if_neg hn, if_neg hse, port?]

/-! ## Skeletons -/

/-- A graph without the values its ports hold, the flags of its nodes and its schedule. -/
def skeleton (g : Graph β) : Graph Unit :=
  { name := ""
    slots := g.slots.map fun s ↦ ⟨s.key, ⟨s.node.panel.bare, ()⟩⟩
    links := g.links }

@[simp] theorem skeleton_links (g : Graph β) : g.skeleton.links = g.links := rfl

@[simp] theorem length_slots_skeleton (g : Graph β) :
    g.skeleton.slots.length = g.slots.length := List.length_map ..

@[simp] theorem nodeNames_skeleton (g : Graph β) : g.skeleton.nodeNames = g.nodeNames := by
  simp [skeleton, nodeNames, Function.comp_def]

theorem getElem?_slots_skeleton (g : Graph β) (i : Nat) :
    g.skeleton.slots[i]? = g.slots[i]?.map fun s ↦ ⟨s.key, ⟨s.node.panel.bare, ()⟩⟩ :=
  List.getElem?_map ..

theorem port?_skeleton (g : Graph β) (side : Direction) (e : Endpoint) :
    g.skeleton.port? side e = (g.port? side e).map (·.store none) := by
  rw [port?, port?, node?, node?, skeleton, List.find?_map, Option.map_map, Option.bind_map,
    Option.bind_map, Option.map_bind]
  simp only [Function.comp_def, Panel.port?_bare]

end Graph

/-! ## Calls -/

/-- Calling a node leaves its outline as it is. -/
structure Lifecycle.KeepsOutline {β : Type} (life : Lifecycle β) : Prop where
  /-- Getting ready does. -/
  init : ∀ n stamp, (life.init n stamp).result.2.panel.outline = n.panel.outline
  /-- Executing does. -/
  execute : ∀ n stamp, (life.execute n stamp).result.2.panel.outline = n.panel.outline
  /-- Giving back does. -/
  destroy : ∀ n stamp, (life.destroy n stamp).result.panel.outline = n.panel.outline

end PortGraph
