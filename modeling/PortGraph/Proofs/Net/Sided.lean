import PortGraph.Proofs.Graph.Linking
import PortGraph.Proofs.Net.Built

/-!
# Ports are on the sides that they are made for

A node takes a port only on the side that the port is made for, and nothing that is done to a node moves
it.  So the ports of all nets that a host has in its hands are on their sides (`Net.Built.isSided`), and
these nets handle links as they should (`Net.Built.handlesLink`).
-/

set_option autoImplicit false

namespace PortGraph

open PortGraph.Graph
open PortGraph.Net (isNew_of_wrap)

/-! ## Panels -/

namespace Panel

variable {panel panel' : Panel}

theorem IsNew.isSided (h : panel.IsNew) : panel.IsSided := fun side p hp ↦ (h.ports_new side p hp).1

/-- It is a matter of what lasts of the ports. -/
theorem IsSided.of_lasting_eq (h : panel.IsSided) (hp : ∀ side,
    (panel'.ports side).map Port.lasting = (panel.ports side).map Port.lasting) :
    panel'.IsSided := by
  intro side p hm
  have hmem : p.lasting ∈ (panel.ports side).map Port.lasting := hp side ▸ List.mem_map_of_mem hm
  obtain ⟨q, hq, heq⟩ := List.mem_map.mp hmem
  have hdirection : q.lasting.direction = p.lasting.direction := congrArg Port.direction heq
  exact hdirection.symm.trans (h side q hq)

theorem IsSided.addPort (h : panel.IsSided) {side : Direction} {p : Port} {i : Nat}
    (ha : panel.addPort side p = .ok (i, panel')) : panel'.IsSided :=
  forall_ports_addPort (Q := fun side p ↦ p.direction = side) h id ha

end Panel

namespace Node

variable {n m : Node Behaviour}

theorem Persists.isSided {γ : Type} {T : Behaviour → γ} (h : n.Persists T m)
    (hn : n.panel.IsSided) : m.panel.IsSided :=
  hn.of_lasting_eq h.ports

theorem Handled.isSided (h : n.Handled m) (hn : n.panel.IsSided) : m.panel.IsSided := by
  rcases h.cases with houtline | ⟨side, p, i, -, ha⟩
  · exact hn.of_lasting_eq (Panel.lasting_eq_of_outline_eq houtline)
  · exact hn.addPort ha

end Node

/-! ## Nets -/

/-- Whatever is asked of a net, its ports stay on their sides. -/
theorem Net.isSided_perform {g : Net} (h : g.IsSided) (hnd : g.nodeNames.Nodup)
    {r : Request Behaviour} {stamp : Nat} (hnode : ∀ n, r = .addNode n → n.panel.IsSided) :
    Graph.IsSided (r.perform g.life FactorySet.createNode g stamp).result := by
  intro s hs
  have hlife := keepsOutline_life (Behaviour.slotsDepth g.slots + 1)
  have hleft : r.MayLeave g.life FactorySet.createNode g stamp
      (r.perform g.life FactorySet.createNode g stamp).result := r.perform_mayLeave
  rcases persists_of_mayLeave hnd hlife (Behaviour.keepsTrait_unit g.life) hleft s hs with
    hnew | ⟨o, ho, hpersists⟩
  · cases r with
    | addNode m => exact hnode s.node (congrArg Request.addNode hnew.symm)
    | createNode d =>
      obtain ⟨_, hd⟩ := hnew
      exact (FactorySet.isNew_of_createWithin _ _ hd).isSided
    | _ => exact hnew.elim
  · exact hpersists.isSided (h o ho)

theorem Net.isSided_of_assembled {g : Net} (h : Graph.Assembled (·.panel.IsSided) g) :
    g.IsSided := by
  intro s hs
  obtain ⟨n, hn, hpersists⟩ := persists_of_assembled (T := fun _ ↦ ()) h s hs
  exact hpersists.isSided hn

mutual

/-- **The ports of every net that a host has in its hands are on their sides.** -/
theorem Net.Built.isSided : ∀ {g : Net}, g.Built → g.IsSided
  | _, .empty name factories => Net.isSided_of_assembled (.empty name factories)
  | _, .described h => by
    obtain ⟨k, hk, rfl⟩ := assembled_ofDescription (fun _ _ _ hd ↦
      (FactorySet.isNew_of_createWithin _ _ hd).isSided) h
    have hsided := Net.isSided_of_assembled hk
    exact hsided
  | _, .step _ h hnode _ =>
    Net.isSided_perform h.isSided h.orderly.wellLinked.keys_nodup fun n hr ↦ (hnode n hr).isSided
  | _, .saved _ _ h => h.isSided
  | _, .handled h hn hm => by
    intro s hs
    rcases mem_modifyNode_const hs with rfl | ⟨hs, -⟩
    · exact hm.isSided (h.isSided _ (mem_of_node? hn))
    · exact h.isSided s hs

/-- **So are those of every node.** -/
theorem Node.Built.isSided : ∀ {n : Node Behaviour}, n.Built → n.panel.IsSided
  | _, .plain name typeName _ => (Panel.isNew_bare name typeName).isSided
  | _, .wrapped _ hn => (isNew_of_wrap hn).1.isSided
  | _, .created hn => (FactorySet.isNew_of_createWithin _ _ hn).isSided
  | _, .removed h hn => by
    obtain ⟨o, ho, hpersists⟩ :=
      persists_of_removeNode (keepsOutline_life _) (Behaviour.keepsTrait_unit _) hn
    exact hpersists.isSided (h.isSided o ho)
  | _, .handled h hm => hm.isSided h.isSided

end

/-! ## Links -/

/-- **A net makes a link just when the ports may be linked, and removing the link undoes it.** -/
theorem Net.Built.handlesLink {g : Net} (h : g.Built) (source target : Endpoint) :
    g.HandlesLink source target :=
  h.orderly.wellLinked.handlesLink_of_isSided h.isSided source target

/-- A port for integers. -/
def samplePort (name : String) (direction : Direction) : Port :=
  { name, direction, dataType := ⟨"int"⟩ }

/-- A node whose output may be linked to its input. -/
def sampleRelay : Node Behaviour where
  panel :=
    { name := "a"
      typeName := "Relay"
      inputs := [samplePort "in" .input]
      outputs := [samplePort "out" .output] }
  behaviour := .operation .increment

theorem built_sampleRelay : sampleRelay.Built := by
  have hinput : ({ name := "a", typeName := "Relay" } : Panel).addPort .input (samplePort "in" .input) =
      .ok (0, { sampleRelay.panel with outputs := [] }) := rfl
  have houtput : ({ sampleRelay.panel with outputs := [] } : Panel).addPort .output
      (samplePort "out" .output) = .ok (0, sampleRelay.panel) := rfl
  have hplain : Node.Built ⟨{ name := "a", typeName := "Relay" }, .operation .increment⟩ :=
    .plain "a" "Relay" rfl
  exact (hplain.handled (.extended (.new "in" .input ⟨"int"⟩) hinput)).handled
    (.extended (.new "out" .output ⟨"int"⟩) houtput)

theorem built_withNode_sampleRelay : (Net.withNode "relay" sampleRelay).Built := by
  refine .step _ (.empty "relay" {}) (fun n hn ↦ ?_) fun _ _ hr ↦ absurd hr (by simp)
  obtain rfl := Request.addNode.inj hn
  exact built_sampleRelay

theorem handlesLink_sampleRelay :
    (Net.withNode "relay" sampleRelay).HandlesLink ⟨"a", "out"⟩ ⟨"a", "in"⟩ ∧
      ∃ id, ((Net.withNode "relay" sampleRelay).addLink ⟨"a", "out"⟩ ⟨"a", "in"⟩ 1).result.1 =
        .ok id := by
  have hhandles := built_withNode_sampleRelay.handlesLink ⟨"a", "out"⟩ ⟨"a", "in"⟩
  refine ⟨hhandles, (hhandles.accepted 1).mpr ?_⟩
  exact ⟨samplePort "out" .output, samplePort "in" .input, rfl, rfl, rfl⟩

end PortGraph
