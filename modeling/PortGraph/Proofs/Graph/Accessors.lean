import PortGraph.Graph.Access
import PortGraph.Proofs.Graph.Links

/-!
# What a host may feed and read

The inputs that a host may feed, and the outputs that it may read, are found by what the ports themselves
say of their links.  Where each port counts the links that touch it (`Graph.IsTallied`), these are the ports
that no link of the graph touches (`IsTallied.listsAccess`).

They are listed in an order that the host knows: as the nodes came, and on each node as its ports came
(`Graph.Precedes`).
-/

set_option autoImplicit false

namespace PortGraph
namespace Graph

variable {β : Type} {g : Graph β}

/-! ## Ports that no link touches -/

/-- No link touches an endpoint. -/
def Spare (g : Graph β) (side : Direction) (e : Endpoint) : Prop := ∀ l ∈ g.links, l.place side ≠ e

theorem IsTallied.isLinked_eq_false_iff (h : g.IsTallied) {side : Direction} {e : Endpoint} {p : Port}
    (hp : g.port? side e = some p) : p.isLinked = false ↔ g.Spare side e := by
  rw [← Bool.not_eq_true, h.isLinked_iff hp]
  simp [Spare]

theorem IsTallied.port?_iff (h : g.IsTallied) {side : Direction} {e : Endpoint} {p : Port} :
    g.port? side e = some p ↔
      ∃ s ∈ g.slots, s.key = e.node ∧ p ∈ s.node.panel.ports side ∧ p.name = e.port :=
  port?_eq_some_iff h.keys_nodup fun s hs ↦ h.ports_nodup s hs side

/-! ## Lists of accessors -/

/-- **A port comes before another one**: its node came before, or it came before on the same node. -/
def Precedes (g : Graph β) (side : Direction) (e f : Endpoint) : Prop :=
  [e.node, f.node].Sublist g.nodeNames ∨ e.node = f.node ∧ ∃ n, g.node? e.node = some n ∧
    [e.port, f.port].Sublist ((n.panel.ports side).map Port.name)

/-- **A list shows the ports on a side that pass a test**, each of them once, in the order in which they
came. -/
structure Lists (g : Graph β) (side : Direction) (test : Port → Endpoint → Prop)
    (shown : List Accessor) : Prop where
  /-- What is shown is where such a port is, what it carries and whether it asks to be supplied. -/
  mem_iff : ∀ a : Accessor, a ∈ shown ↔ ∃ p, g.port? side a.place = some p ∧ test p a.place ∧
    a.dataType = p.dataType ∧ a.isRequired = p.isRequired
  /-- No port is shown twice. -/
  nodup : (shown.map Accessor.place).Nodup
  /-- They are shown in their order. -/
  ordered : shown.Pairwise fun a b ↦ g.Precedes side a.place b.place

theorem Lists.congr {side : Direction} {test test' : Port → Endpoint → Prop} {shown : List Accessor}
    (h : g.Lists side test shown)
    (ht : ∀ p e, g.port? side e = some p → (test p e ↔ test' p e)) : g.Lists side test' shown where
  mem_iff a := (h.mem_iff a).trans <| exists_congr fun p ↦ and_congr_right fun hp ↦
    and_congr_left' (ht p a.place hp)
  nodup := h.nodup
  ordered := h.ordered

/-- A port does not come before itself. -/
theorem IsTallied.ne_of_precedes (h : g.IsTallied) {side : Direction} {e f : Endpoint}
    (hef : g.Precedes side e f) : e ≠ f := by
  have hne : ∀ {l : List String} {a : String}, l.Nodup → ¬ [a, a].Sublist l :=
    fun hl hsub ↦ absurd (hl.sublist hsub) (by simp)
  rintro rfl
  rcases hef with hnode | ⟨-, n, hn, hport⟩
  · exact hne h.keys_nodup hnode
  · exact hne (h.ports_nodup _ (mem_of_node? hn) side) hport

/-- **The ports that pass a test are listed in their order.** -/
theorem IsTallied.lists_accessors (h : g.IsTallied) (side : Direction) (test : Port → Bool) :
    g.Lists side (fun p _ ↦ test p = true) (g.accessors side test) := by
  have hordered : (g.accessors side test).Pairwise fun a b ↦ g.Precedes side a.place b.place := by
    refine List.pairwise_flatMap.mpr ⟨fun s hs ↦ ?_, ?_⟩
    · refine List.pairwise_map.mpr (List.pairwise_iff_forall_sublist.mpr fun hpq ↦ .inr ⟨rfl, ?_⟩)
      refine ⟨s.node, (node?_eq_some_iff h.keys_nodup).mpr hs, ?_⟩
      exact (hpq.trans List.filter_sublist).map Port.name
    · refine List.pairwise_iff_forall_sublist.mpr fun hst a ha b hb ↦ .inl ?_
      obtain ⟨p, -, rfl⟩ := List.mem_map.mp ha
      obtain ⟨q, -, rfl⟩ := List.mem_map.mp hb
      exact hst.map Slot.key
  refine ⟨fun a ↦ ?_, List.pairwise_map.mpr (hordered.imp h.ne_of_precedes), hordered⟩
  constructor
  · intro ha
    obtain ⟨s, hs, ha⟩ := List.mem_flatMap.mp ha
    obtain ⟨p, hp, rfl⟩ := List.mem_map.mp ha
    obtain ⟨hp, htest⟩ := List.mem_filter.mp hp
    exact ⟨p, h.port?_iff.mpr ⟨s, hs, rfl, hp, rfl⟩, htest, rfl, rfl⟩
  · rintro ⟨p, hp, htest, htype, hrequired⟩
    obtain ⟨s, hs, hkey, hmem, hname⟩ := h.port?_iff.mp hp
    obtain ⟨⟨node, port⟩, dataType, isRequired⟩ := a
    dsimp only at hkey hname htype hrequired
    subst hkey hname htype hrequired
    exact List.mem_flatMap.mpr ⟨s, hs, List.mem_map.mpr ⟨p, List.mem_filter.mpr ⟨hmem, htest⟩, rfl⟩⟩

/-! ## Access -/

/-- Putting a packet on an input succeeds if there is such an input, and it counts no link. -/
theorem setInput_eq_ok_iff {place : Endpoint} {packet : Packet} :
    (g.setInput place packet).1 = .ok () ↔
      ∃ p, g.port? .input place = some p ∧ p.isLinked = false := by
  rw [setInput, node, port?]
  cases g.node? place.node with
  | none => simp
  | some n =>
    dsimp only
    rw [Panel.inject, Panel.port, Option.bind_some]
    cases n.panel.port? .input place.port with
    | none => simp
    | some p =>
      dsimp only
      cases hp : p.isLinked <;> simp [hp]

/-- **What a graph says of its ports agrees with its links.** -/
structure ListsAccess (g : Graph β) : Prop where
  /-- The inputs are listed that are not exposed, and at which no link ends. -/
  setters : g.Lists .input (fun p e ↦ p.isExposed = false ∧ g.Spare .input e) g.setters
  /-- The outputs are listed from which no link starts. -/
  getters : g.Lists .output (fun _ e ↦ g.Spare .output e) g.getters
  /-- A packet can be put on an input just if there is such an input, and no link ends there. -/
  setInput : ∀ place packet, (g.setInput place packet).1 = .ok () ↔
    (∃ p, g.port? .input place = some p) ∧ g.Spare .input place

/-- **Where ports count their links, the lists of accessors agree with the links.** -/
theorem IsTallied.listsAccess (h : g.IsTallied) : g.ListsAccess where
  setters := (h.lists_accessors .input _).congr fun p e hp ↦ by
    rw [Bool.and_eq_true, Bool.not_eq_true', Bool.not_eq_true', h.isLinked_eq_false_iff hp, and_comm]
  getters := (h.lists_accessors .output _).congr fun p e hp ↦ by
    rw [Bool.not_eq_true', h.isLinked_eq_false_iff hp]
  setInput place packet := by
    rw [setInput_eq_ok_iff]
    constructor
    · rintro ⟨p, hp, hfree⟩
      exact ⟨⟨p, hp⟩, (h.isLinked_eq_false_iff hp).mp hfree⟩
    · rintro ⟨⟨p, hp⟩, hspare⟩
      exact ⟨p, hp, (h.isLinked_eq_false_iff hp).mpr hspare⟩

/-- On a graph whose inputs are not exposed, a packet can be put just on those that are listed. -/
theorem ListsAccess.setInput_iff_mem_setters (h : g.ListsAccess)
    (hunexposed : ∀ e p, g.port? .input e = some p → p.isExposed = false) (place : Endpoint)
    (packet : Packet) :
    (g.setInput place packet).1 = .ok () ↔ ∃ a ∈ g.setters, a.place = place := by
  rw [h.setInput]
  constructor
  · rintro ⟨⟨p, hp⟩, hspare⟩
    exact ⟨⟨place, p.dataType, p.isRequired⟩,
      (h.setters.mem_iff _).mpr ⟨p, hp, ⟨hunexposed place p hp, hspare⟩, rfl, rfl⟩, rfl⟩
  · rintro ⟨a, ha, rfl⟩
    obtain ⟨p, hp, ⟨-, hspare⟩, -⟩ := (h.setters.mem_iff a).mp ha
    exact ⟨⟨p, hp⟩, hspare⟩

end Graph
end PortGraph
