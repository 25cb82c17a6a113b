import PortGraph.Proofs.Graph.Refusals

/-!
# What a node stays for as long as it is there

Whatever is asked of a graph, a node that stays in it keeps its type, and its ports are the ones that it
came with: links come and go, values too, and an enclosing graph may begin to feed an input, but nobody
writes on a port what it is called, what it carries, what it asks for or what it falls back on
(`Port.lasting`).  Nor do calls change a trait of what it computes with, if they keep it.  All of this is
`Node.Persists`.

`Graph.KeepsNodes` says of two graphs that the nodes of the one persist in the other, in their places and
under their names.  So it is for every change that neither adds nor removes nor renames a node.
-/

set_option autoImplicit false

namespace PortGraph

variable {β γ : Type}

/-- What of a port stays as it was made: all but its links, what it holds, and what feeds it. -/
def Port.lasting (p : Port) : Port := { p with isExposed := false, linkCount := 0, stored := none }

/-- **A node is still there**: it has the type and the ports that it had, and a trait of what it computes
with. -/
structure Node.Persists (T : β → γ) (n m : Node β) : Prop where
  /-- The type is the same. -/
  typeName : m.typeName = n.typeName
  /-- The ports are the same, but for what comes and goes. -/
  ports : ∀ side, (m.panel.ports side).map Port.lasting = (n.panel.ports side).map Port.lasting
  /-- The trait is the same. -/
  trait : T m.behaviour = T n.behaviour

namespace Node.Persists

variable {T : β → γ} {n m o : Node β}

theorem refl (T : β → γ) (n : Node β) : n.Persists T n := ⟨rfl, fun _ ↦ rfl, rfl⟩

theorem trans (h : n.Persists T m) (h' : m.Persists T o) : n.Persists T o :=
  ⟨h'.typeName.trans h.typeName, fun side ↦ (h'.ports side).trans (h.ports side),
    h'.trait.trans h.trait⟩

/-- A node that a call left with the same bare panel. -/
theorem of_bare_eq (hb : m.panel.bare = n.panel.bare) (ht : T m.behaviour = T n.behaviour) :
    n.Persists T m := by
  have htype := congrArg Panel.typeName hb
  refine ⟨htype, fun side ↦ ?_, ht⟩
  have hports := congrArg (List.map Port.lasting) (congrArg (Panel.ports · side) hb)
  rw [Panel.ports_bare, Panel.ports_bare, List.map_map, List.map_map] at hports
  exact hports

theorem modifyPort {f : Port → Port} (hf : ∀ p, (f p).lasting = p.lasting) (side : Direction)
    (name : String) : n.Persists T (n.mapPanel (·.modifyPort side name f)) := by
  have htype : (n.panel.modifyPort side name f).typeName = n.panel.typeName := by cases side <;> rfl
  refine ⟨htype, fun side' ↦ ?_, rfl⟩
  change ((n.panel.modifyPort side name f).ports side').map Port.lasting = _
  rw [Panel.modifyPort, Panel.ports_withPorts]
  split
  · rename_i hside
    rw [hside, Port.map_modifyNamed_of_eq hf]
  · rfl

theorem rename (n : Node β) (new : String) : n.Persists T (n.rename new) :=
  ⟨rfl, fun side ↦ by cases side <;> rfl, rfl⟩

end Node.Persists

namespace Graph

variable {T : β → γ} {life : Lifecycle β} {g j k : Graph β}

/-- The nodes of `g` persist in `k`, in their places and under their names. -/
def KeepsNodes (T : β → γ) (g k : Graph β) : Prop :=
  g.Pairs (fun n m ↦ m.name = n.name ∧ n.Persists T m) k

theorem Pairs.getElem? {R : Node β → Node β → Prop} (h : g.Pairs R k) {i : Nat} {s : Slot β}
    (hs : g.slots[i]? = some s) : ∃ r, k.slots[i]? = some r ∧ r.key = s.key ∧ R s.node r.node := by
  obtain ⟨hlt, rfl⟩ := List.getElem?_eq_some_iff.mp hs
  have hlt' : i < k.slots.length := List.Forall₂.length_eq h ▸ hlt
  exact ⟨k.slots[i], List.getElem?_eq_getElem hlt', List.Forall₂.get h hlt hlt'⟩

theorem keepsNodes_refl (T : β → γ) (g : Graph β) : g.KeepsNodes T g :=
  List.forall₂_same.mpr fun s _ ↦ ⟨rfl, rfl, .refl T s.node⟩

theorem KeepsNodes.trans (h : g.KeepsNodes T j) (h' : j.KeepsNodes T k) : g.KeepsNodes T k :=
  (Pairs.trans h h').mono fun _ _ ⟨_, ho, ho'⟩ ↦ ⟨ho'.1.trans ho.1, ho.2.trans ho'.2⟩

/-- What persists of each node of a graph that is kept. -/
theorem KeepsNodes.exists_slot (h : g.KeepsNodes T k) {s : Slot β} (hs : s ∈ k.slots) :
    ∃ r ∈ g.slots, r.node.Persists T s.node := by
  obtain ⟨r, hr, -, -, hpersists⟩ := exists_of_forall₂ h s hs
  exact ⟨r, hr, hpersists⟩

/-! ## Changes that keep the nodes -/

/-- Graphs of one image keep each other's nodes. -/
theorem keepsNodes_of_image_eq (h : k.image T = g.image T) : g.KeepsNodes T k := by
  have hslots : k.slots.map (fun s ↦ (⟨s.key, ⟨s.node.panel.bare, T s.node.behaviour⟩⟩ : Slot γ)) =
      g.slots.map fun s ↦ ⟨s.key, ⟨s.node.panel.bare, T s.node.behaviour⟩⟩ :=
    congrArg Graph.slots h
  rw [← List.forall₂_eq_eq_eq, List.forall₂_map_left_iff, List.forall₂_map_right_iff] at hslots
  refine hslots.flip.imp fun s r hsr ↦ ?_
  obtain ⟨hkey, hnode⟩ := Slot.mk.inj hsr
  obtain ⟨hbare, htrait⟩ := Node.mk.inj hnode
  have hname := congrArg Panel.name hbare
  exact ⟨hkey, hname, .of_bare_eq hbare htrait⟩

theorem keepsNodes_modifyPort {f : Port → Port} (hf : ∀ p, (f p).lasting = p.lasting) (g : Graph β)
    (side : Direction) (e : Endpoint) : g.KeepsNodes T (g.modifyPort side e f) := by
  refine List.forall₂_map_right_iff.mpr (List.forall₂_same.mpr fun s _ ↦ ?_)
  split
  · exact ⟨rfl, Panel.withPorts_name .., .modifyPort hf side e.port⟩
  · exact ⟨rfl, rfl, .refl T s.node⟩

theorem keepsNodes_changeEnds {f : Port → Port} (hf : ∀ p, (f p).lasting = p.lasting) (l : Link)
    (g : Graph β) : g.KeepsNodes T (changeEnds f l g) :=
  (keepsNodes_modifyPort hf g .output l.source).trans
    (keepsNodes_modifyPort (f := fun p ↦ (f p).store none) hf _ .input l.target)

theorem keepsNodes_insertLink (l : Link) (g : Graph β) : g.KeepsNodes T (g.insertLink l) :=
  keepsNodes_changeEnds (f := Port.attach) (fun _ ↦ rfl) l g

theorem keepsNodes_dropLink (id : LinkId) (g : Graph β) : g.KeepsNodes T (g.dropLink id) := by
  rw [dropLink]
  split
  · exact keepsNodes_refl T g
  · rename_i l _
    exact keepsNodes_changeEnds (f := Port.detach) (fun _ ↦ rfl) l
      { g with links := g.links.filter (fun k ↦ k.id ≠ id) }

theorem keepsNodes_dropLinksOf (name : String) (g : Graph β) :
    g.KeepsNodes T (g.dropLinksOf name) := by
  rw [dropLinksOf]
  generalize (g.links.filter (·.touches name)).map Link.id = ids
  induction ids generalizing g with
  | nil => exact keepsNodes_refl T g
  | cons id ids ih => exact (keepsNodes_dropLink id g).trans (ih _)

/-! ## Requests -/

theorem persists_rename (T : β → γ) (old new : String) (s : Slot β) :
    s.node.Persists T (s.rename old new).node := by
  rw [Slot.rename]
  split
  · exact .rename s.node new
  · exact .refl T s.node

/-- **Whatever is asked of a graph, a node that is in it then was brought, or persists.** -/
theorem persists_of_mayLeave (hnd : g.nodeNames.Nodup) (hlife : life.KeepsOutline)
    (ht : life.KeepsTrait T) {make : FactorySet → NodeDescription → Attempt (Node β)}
    {r : Request β} {stamp : Nat} (h : r.MayLeave life make g stamp k) :
    ∀ s ∈ k.slots, r.Brings make g s.node ∨ ∃ r ∈ g.slots, r.node.Persists T s.node := by
  intro s hs
  have hkept : g.KeepsNodes T k → ∃ r ∈ g.slots, r.node.Persists T s.node := fun hk ↦
    hk.exists_slot hs
  cases h with
  | same | guarded | furnished => exact .inr ⟨s, hs, .refl T s.node⟩
  | pushed brings _ =>
    rcases List.mem_append.mp hs with hs | hs
    · exact .inr ⟨s, hs, .refl T s.node⟩
    · obtain rfl := List.mem_singleton.mp hs
      exact .inl brings
  | erased name =>
    exact .inr ((keepsNodes_dropLinksOf name g).exists_slot (List.mem_filter.mp hs).1)
  | @relabelled old new _ =>
    obtain ⟨r, hr, rfl⟩ := List.mem_map.mp hs
    exact .inr ⟨r, hr, persists_rename T old new r⟩
  | inserted _ => exact .inr (hkept (keepsNodes_insertLink _ g))
  | dropped _ id => exact .inr (hkept (keepsNodes_dropLink id g))
  | @stored place packet n hn =>
    rw [modifyPanel_const_eq hnd hn] at hkept
    exact .inr (hkept (keepsNodes_modifyPort (f := (·.store (some packet))) (fun _ ↦ rfl) g .input
      place))
  | compiled => exact .inr (hkept (keepsNodes_of_image_eq (image_compile hlife ht g stamp)))
  | executed => exact .inr (hkept (keepsNodes_of_image_eq (image_execute hlife ht g stamp)))
  | released => exact .inr (hkept (keepsNodes_of_image_eq (image_release hlife ht g stamp)))
  | cleared => exact absurd hs (by simp)

/-- A node that is taken out persists. -/
theorem persists_of_removeNode (hlife : life.KeepsOutline) (ht : life.KeepsTrait T) {name : String}
    {stamp : Nat} {n : Node β} (hn : (g.removeNode life name stamp).result.1 = .ok n) :
    ∃ r ∈ g.slots, r.node.Persists T n := by
  obtain ⟨m, -, hm, rfl, -⟩ := removeNode_eq_ok hn
  obtain ⟨r, hr, hpersists⟩ := (keepsNodes_dropLinksOf name g).exists_slot (mem_of_node? hm)
  exact ⟨r, hr, hpersists.trans (.of_bare_eq (Lifecycle.bare_release hlife m stamp)
    (ht.release m stamp))⟩

/-- A node that is taken out is as free of links as a new one. -/
theorem WellLinked.isDetached_of_removeNode (h : g.WellLinked) (hlife : life.KeepsOutline)
    {name : String} {stamp : Nat} {n : Node β}
    (hn : (g.removeNode life name stamp).result.1 = .ok n) : n.panel.IsDetached := by
  obtain ⟨o, -, ho, rfl, -⟩ := removeNode_eq_ok hn
  have hdetached := (h.dropLinksOf name).isDetached (fun _ hl ↦ h.touches_eq_false hl) ho
  refine hdetached.of_ports_eq fun side ↦ ?_
  rw [← Panel.ports_bare, ← Panel.ports_bare]
  exact congrArg (Panel.ports · side) (Lifecycle.bare_release hlife o stamp)

/-- The nodes of a graph that was put together persist in it. -/
theorem persists_of_assembled {Made : Node β → Prop} (h : Assembled Made g) :
    ∀ s ∈ g.slots, ∃ n, Made n ∧ n.Persists T s.node := by
  induction h with
  | empty => exact fun s hs ↦ absurd hs (by simp)
  | @push g n _ hn _ ih =>
    intro s hs
    rcases List.mem_append.mp hs with hs | hs
    · exact ih s hs
    · obtain rfl := List.mem_singleton.mp hs
      exact ⟨n, hn, .refl T n⟩
  | @insert g l _ _ _ ih =>
    intro s hs
    obtain ⟨r, hr, hpersists⟩ := (keepsNodes_insertLink l g).exists_slot hs
    obtain ⟨n, hn, hn'⟩ := ih r hr
    exact ⟨n, hn, hn'.trans hpersists⟩

end Graph
end PortGraph
