import PortGraph.Proofs.Graph.Cache

/-!
# What calls leave of the nodes

A trait is something that can be told of what a node computes with.  If no call changes it
(`Lifecycle.KeepsTrait`), then compiling a graph, executing or releasing it changes it of no node:
the graphs before and after have one image, which is the skeleton with the traits of the nodes in
the place of what they compute with.

Nor does a call write on the inputs of its node (`Lifecycle.KeepsInputs`), so compiling a graph
leaves the inputs of all nodes as they are (`inputs_compile`).
-/

set_option autoImplicit false

namespace PortGraph

variable {β γ : Type}

/-- Calling a node leaves a trait of what it computes with as it is. -/
structure Lifecycle.KeepsTrait (life : Lifecycle β) (T : β → γ) : Prop where
  /-- Getting ready does. -/
  init : ∀ n stamp, T (life.init n stamp).result.2.behaviour = T n.behaviour
  /-- Executing does. -/
  execute : ∀ n stamp, T (life.execute n stamp).result.2.behaviour = T n.behaviour
  /-- Giving back does. -/
  destroy : ∀ n stamp, T (life.destroy n stamp).result.behaviour = T n.behaviour

theorem Lifecycle.KeepsTrait.release {life : Lifecycle β} {T : β → γ} (ht : life.KeepsTrait T)
    (n : Node β) (stamp : Nat) : T (life.release n stamp).result.behaviour = T n.behaviour := by
  rw [Lifecycle.release]
  split
  · exact ht.destroy n stamp
  · rfl

namespace Graph

variable {life : Lifecycle β} {T : β → γ} {g k : Graph β}

/-- The skeleton of a graph, with traits of its nodes. -/
def image (T : β → γ) (g : Graph β) : Graph γ where
  name := ""
  slots := g.slots.map fun s ↦ ⟨s.key, ⟨s.node.panel.bare, T s.node.behaviour⟩⟩
  links := g.links

theorem skeleton_of_image_eq (h : k.image T = g.image T) : k.skeleton = g.skeleton := by
  have hskeleton : ∀ j : Graph β, j.skeleton =
      { j.image T with
        slots := (j.image T).slots.map fun s ↦ ⟨s.key, ⟨s.node.panel, ()⟩⟩
        factories := {} } := by
    intro j
    rw [skeleton, image]
    simp
  rw [hskeleton k, h, ← hskeleton g]

theorem image_eq_of_forall₂ {slots : List (Slot β)}
    (h : List.Forall₂ (fun s s' ↦ s'.key = s.key ∧
      s'.node.panel.bare = s.node.panel.bare ∧ T s'.node.behaviour = T s.node.behaviour)
      g.slots slots) : image T { g with slots } = g.image T := by
  have hmap := map_eq_of_forall₂ (h.imp (S := fun s s' ↦
    (⟨s'.key, ⟨s'.node.panel.bare, T s'.node.behaviour⟩⟩ : Slot γ) =
      ⟨s.key, ⟨s.node.panel.bare, T s.node.behaviour⟩⟩)
      fun _ _ h ↦ by rw [h.1, h.2.1, h.2.2])
  exact congrArg (fun slots ↦ ({ name := "", slots, links := g.links } : Graph γ)) hmap

theorem image_modify {i : Nat} {F : Slot β → Slot β}
    (h : ∀ s, g.slots[i]? = some s → (F s).key = s.key ∧
      (F s).node.panel.bare = s.node.panel.bare ∧ T (F s).node.behaviour = T s.node.behaviour) :
    image T { g with slots := g.slots.modify i F } = g.image T := by
  refine congrArg (fun slots ↦ ({ name := "", slots, links := g.links } : Graph γ)) ?_
  refine map_modify_of_eq fun s hs ↦ ?_
  obtain ⟨hkey, hbare, htrait⟩ := h s hs
  rw [hkey, hbare, htrait]

theorem image_setNodeAt {i : Nat} {s : Slot β} {n : Node β} (hs : g.slots[i]? = some s)
    (hbare : n.panel.bare = s.node.panel.bare) (ht : T n.behaviour = T s.node.behaviour) :
    (g.setNodeAt i n).image T = g.image T := by
  refine image_modify fun s' hs' ↦ ?_
  obtain rfl : s = s' := Option.some.inj (hs.symm.trans hs')
  exact ⟨rfl, hbare, ht⟩

theorem image_release (hk : life.KeepsOutline) (ht : life.KeepsTrait T) (g : Graph β)
    (stamp : Nat) : (g.release life stamp).result.image T = g.image T :=
  image_eq_of_forall₂ <| Lifecycle.forall₂_releaseAll
    (R := fun n n' ↦ n'.panel.bare = n.panel.bare ∧ T n'.behaviour = T n.behaviour)
    (fun n stamp ↦ ⟨Lifecycle.bare_release hk n stamp, ht.release n stamp⟩) g.slots stamp

theorem image_map {F : Slot β → Slot β} (h : ∀ s ∈ g.slots, (F s).key = s.key ∧
    (F s).node.panel.bare = s.node.panel.bare ∧ T (F s).node.behaviour = T s.node.behaviour) :
    image T { g with slots := g.slots.map F } = g.image T :=
  image_eq_of_forall₂ (List.forall₂_map_right_iff.mpr (List.forall₂_same.mpr h))

theorem image_resetOutputs (g : Graph β) : g.resetOutputs.image T = g.image T :=
  image_map fun s _ ↦ ⟨rfl, Panel.bare_eq_of_outline_eq s.node.panel.outline_resetOutputs, rfl⟩

/-- A value that is put on a port changes no trait. -/
theorem image_modifyPort_store (g : Graph β) (side : Direction) (place : Endpoint)
    (packet : Option Packet) :
    (g.modifyPort side place (·.store packet)).image T = g.image T := by
  refine image_map fun s _ ↦ ?_
  split
  · exact ⟨rfl, Panel.bare_eq_of_outline_eq
      (Panel.outline_withPorts_of_map (Port.map_modifyNamed_of_eq fun _ ↦ rfl)), rfl⟩
  · exact ⟨rfl, rfl, rfl⟩

theorem Prepares.image_eq (hk : life.KeepsOutline) (ht : life.KeepsTrait T)
    (h : Prepares life g k) : k.image T = g.image T := by
  cases h with
  | released stamp => exact image_release hk ht g stamp
  | emptied => exact image_resetOutputs g
  | told hs stamp => exact image_setNodeAt hs (Lifecycle.bare_init hk _ stamp) (ht.init _ stamp)
  | readied hs stamp =>
    exact image_setNodeAt hs (Lifecycle.bare_init hk _ stamp) (ht.init _ stamp)
  | scheduled => rfl

/-- **Compiling a graph changes no trait of its nodes.** -/
theorem image_compile (hk : life.KeepsOutline) (ht : life.KeepsTrait T) (g : Graph β)
    (stamp : Nat) : (g.compile life stamp).result.2.image T = g.image T :=
  eq_of_reflTransGen (fun _ _ h ↦ h.image_eq hk ht) (prepares_compile life g stamp)

theorem Advances.image_eq (hk : life.KeepsOutline) (ht : life.KeepsTrait T)
    (h : Advances life g k) : k.image T = g.image T := by
  cases h with
  | pulled node p =>
    refine image_modify fun s _ ↦ ⟨rfl, Panel.bare_eq_of_outline_eq ?_, rfl⟩
    exact s.node.panel.outline_modifyPortAt_store _ _ _
  | executed hs stamp =>
    exact image_setNodeAt hs (Panel.bare_eq_of_outline_eq (hk.execute _ stamp)) (ht.execute _ stamp)

/-- **A pass changes no trait of the nodes.** -/
theorem image_execute (hk : life.KeepsOutline) (ht : life.KeepsTrait T) (g : Graph β)
    (stamp : Nat) : (g.execute life stamp).result.2.image T = g.image T :=
  eq_of_reflTransGen (fun _ _ h ↦ h.image_eq hk ht) (advances_execute life g stamp)

/-! ## Inputs -/

end Graph

/-- Calling a node does not write on its inputs. -/
structure Lifecycle.KeepsInputs (life : Lifecycle β) : Prop where
  /-- Getting ready does not. -/
  init : ∀ n stamp, (life.init n stamp).result.2.panel.inputs = n.panel.inputs
  /-- Executing does not. -/
  execute : ∀ n stamp, (life.execute n stamp).result.2.panel.inputs = n.panel.inputs
  /-- Giving back does not. -/
  destroy : ∀ n stamp, (life.destroy n stamp).result.panel.inputs = n.panel.inputs

theorem Lifecycle.KeepsInputs.release {life : Lifecycle β} (hi : life.KeepsInputs) (n : Node β)
    (stamp : Nat) : (life.release n stamp).result.panel.inputs = n.panel.inputs := by
  rw [Lifecycle.release]
  split
  · exact hi.destroy n stamp
  · rfl

namespace Graph

variable {life : Lifecycle β} {g k : Graph β}

/-- The inputs of all nodes. -/
def inputs (g : Graph β) : List (String × List Port) :=
  g.slots.map fun s ↦ (s.key, s.node.panel.inputs)

theorem inputs_release (hi : life.KeepsInputs) (g : Graph β) (stamp : Nat) :
    (g.release life stamp).result.inputs = g.inputs := by
  have hall := Lifecycle.forall₂_releaseAll (R := fun n n' ↦ n'.panel.inputs = n.panel.inputs)
    (fun n stamp ↦ hi.release n stamp) g.slots stamp
  exact map_eq_of_forall₂ (hall.imp (S := fun s s' ↦
    (s'.key, s'.node.panel.inputs) = (s.key, s.node.panel.inputs)) fun _ _ h ↦ by rw [h.1, h.2])

theorem inputs_resetOutputs (g : Graph β) : g.resetOutputs.inputs = g.inputs := by
  rw [inputs, resetOutputs, List.map_map]
  rfl

theorem inputs_setNodeAt {i : Nat} {s : Slot β} {n : Node β} (hs : g.slots[i]? = some s)
    (h : n.panel.inputs = s.node.panel.inputs) : (g.setNodeAt i n).inputs = g.inputs := by
  refine map_modify_of_eq fun s' hs' ↦ ?_
  obtain rfl : s = s' := Option.some.inj (hs.symm.trans hs')
  rw [Slot.mapNode, h]

theorem Prepares.inputs_eq (hi : life.KeepsInputs) (h : Prepares life g k) :
    k.inputs = g.inputs := by
  cases h with
  | released stamp => exact inputs_release hi g stamp
  | emptied => exact inputs_resetOutputs g
  | told hs stamp => exact inputs_setNodeAt hs (hi.init _ stamp)
  | readied hs stamp => exact inputs_setNodeAt hs (hi.init _ stamp)
  | scheduled => rfl

/-- **Compiling a graph leaves the inputs of its nodes as they are.** -/
theorem inputs_compile (hi : life.KeepsInputs) (g : Graph β) (stamp : Nat) :
    (g.compile life stamp).result.2.inputs = g.inputs :=
  eq_of_reflTransGen (fun _ _ h ↦ h.inputs_eq hi) (prepares_compile life g stamp)

end Graph
end PortGraph
