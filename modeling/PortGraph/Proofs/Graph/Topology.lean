import PortGraph.Proofs.Graph.Ledger
import PortGraph.Proofs.Graph.Refusals

/-!
# Requests that are to be saved

The topology of a graph is what the host built of nodes and links (`Graph.topology`), and the graph
records whether it changed since it was last saved.  A request that is granted and changes nodes or
links is recorded (`Request.isModified_of_edits`); any other leaves the topology and the record as
they are (`Request.undisturbed`).
-/

set_option autoImplicit false

namespace PortGraph

/-! ## Topologies -/

/-- What is built of nodes and links. -/
structure Topology where
  /-- The names of the nodes and of their types, in the order of the nodes. -/
  nodes : List (String × String) := []
  /-- The ends of the links, in the order of the links. -/
  links : List (Endpoint × Endpoint) := []
  deriving DecidableEq

namespace Graph

variable {β : Type} {life : Lifecycle β} {g k : Graph β}

/-- The topology of a graph. -/
def topology (g : Graph β) : Topology where
  nodes := g.slots.map fun s ↦ (s.key, s.node.typeName)
  links := g.links.map fun l ↦ (l.source, l.target)

@[simp] theorem topology_skeleton (g : Graph β) : g.skeleton.topology = g.topology := by
  rw [topology, skeleton, List.map_map]
  rfl

theorem topology_of_skeleton_eq (h : k.skeleton = g.skeleton) : k.topology = g.topology := by
  rw [← topology_skeleton, h, topology_skeleton]

/-- The topology is what it was, and nothing was recorded of it. -/
structure Undisturbed (g k : Graph β) : Prop where
  /-- The nodes and links are the same. -/
  topology : k.topology = g.topology
  /-- Whether the graph is to be saved is the same. -/
  isModified : k.isModified = g.isModified

theorem Undisturbed.refl (g : Graph β) : g.Undisturbed g := ⟨rfl, rfl⟩

/-- What held as long as nothing was recorded still does. -/
theorem Undisturbed.topology_eq {t : Topology} (h : g.Undisturbed k)
    (ht : g.isModified = false → g.topology = t) (hm : k.isModified = false) : k.topology = t :=
  h.topology.trans (ht (h.isModified.symm.trans hm))

theorem undisturbed_of_skeleton_eq (h : k.skeleton = g.skeleton) (hs : k.settings = g.settings) :
    g.Undisturbed k :=
  ⟨topology_of_skeleton_eq h, congrArg (·.2.2.1) hs⟩

/-! ## Calls -/

theorem undisturbed_compile (hk : life.KeepsOutline) (g : Graph β) (stamp : Nat) :
    g.Undisturbed (g.compile life stamp).result.2 :=
  undisturbed_of_skeleton_eq (skeleton_compile hk g stamp) (settings_compile life g stamp)

theorem undisturbed_execute (hk : life.KeepsOutline) (g : Graph β) (stamp : Nat) :
    g.Undisturbed (g.execute life stamp).result.2 :=
  undisturbed_of_skeleton_eq (agrees_execute hk g stamp).skeleton (settings_execute life g stamp)

theorem undisturbed_release (hk : life.KeepsOutline) (g : Graph β) (stamp : Nat) :
    g.Undisturbed (g.release life stamp).result :=
  undisturbed_of_skeleton_eq (skeleton_release hk g stamp) rfl

theorem undisturbed_modifyPort (g : Graph β) (side : Direction) (place : Endpoint)
    (f : Port → Port) : g.Undisturbed (g.modifyPort side place f) := by
  refine ⟨?_, rfl⟩
  rw [topology, modifyPort, modifyPanel, modifyNode, List.map_map, topology]
  refine congrArg (Topology.mk · _) (List.map_congr_left fun s _ ↦ ?_)
  rw [Function.comp_apply]
  split
  · cases side <;> rfl
  · rfl

/-- Keys are distinct, so a packet is put on one node only. -/
theorem undisturbed_setInput (hnd : g.nodeNames.Nodup) (place : Endpoint) (packet : Packet) :
    g.Undisturbed (g.setInput place packet).2 := by
  rw [setInput, node]
  cases hn : g.node? place.node with
  | none => exact .refl g
  | some n =>
    dsimp only
    rw [Panel.inject]
    cases n.panel.port .input place.port with
    | error e => exact .refl g
    | ok p =>
      dsimp only
      by_cases hl : p.isLinked
      · rw [if_pos hl]
        exact .refl g
      · rw [if_neg hl]
        dsimp only
        rw [modifyPanel_const_eq hnd hn]
        exact undisturbed_modifyPort g .input place (·.store (some packet))

theorem undisturbed_addFactory (g : Graph β) (factory : Factory) :
    g.Undisturbed ((g.addFactory factory).toOption.getD g) := by
  rw [addFactory]
  cases g.factories.add factory with
  | error e => exact .refl g
  | ok set => exact ⟨rfl, rfl⟩

end Graph

/-! ## Requests -/

namespace Request

variable {β : Type} {life : Lifecycle β} {make : FactorySet → NodeDescription → Attempt (Node β)}
  {g : Graph β} {stamp : Nat}

/-- Whether a request changes nodes or links when it is granted. -/
def edits : Request β → Bool
  | .addNode _ | .createNode _ | .removeNode _ => true
  | .renameNode old new => old ≠ new
  | .addLink _ _ | .removeLink _ | .removeLinkById _ | .clear => true
  | .setInput _ _ | .setProtected _ | .addFactory _ | .compile | .execute | .release => false

theorem isModified_addNode {n : Node β} (h : (g.addNode n stamp).result.1 = .ok ()) :
    (g.addNode n stamp).result.2.isModified = true := by
  obtain ⟨-, hk⟩ := Graph.addNode_eq_ok (Prod.ext h rfl)
  exact congrArg Graph.isModified hk

theorem isModified_removeLinkById {id : LinkId} {l : Link}
    (h : (g.removeLinkById id stamp).result.1 = .ok l) :
    (g.removeLinkById id stamp).result.2.isModified = true := by
  rcases Graph.removeLinkById_cases id g stamp with ⟨e, heq⟩ | ⟨m, -, heq⟩
  · rw [heq] at h
    exact absurd h (by simp)
  · rw [heq]
    rfl

/-- **What changes nodes or links is recorded** when it is granted. -/
theorem isModified_of_edits {r : Request β} (hr : r.edits = true)
    (h : (r.reply life make g stamp).result.1 = .ok ()) :
    (r.reply life make g stamp).result.2.isModified = true := by
  have hmap : ∀ {α : Type} {x : Except GraphError α}, (x.map fun _ ↦ ()) = .ok () →
      ∃ a, x = .ok a := by
    intro α x hx
    cases x with
    | error cause => exact absurd hx (by simp [Except.map])
    | ok a => exact ⟨a, rfl⟩
  cases r with
  | addNode n => exact isModified_addNode h
  | createNode d =>
    simp only [reply, Graph.createNode, Act.bind_apply] at h ⊢
    cases hd : ((make g.factories d).run stamp).result with
    | error e =>
      rw [hd] at h
      exact absurd h (by simp)
    | ok n =>
      rw [hd] at h
      exact isModified_addNode h
  | removeNode name =>
    obtain ⟨n, hn⟩ := hmap h
    obtain ⟨-, -, -, -, heq, -⟩ := Graph.removeNode_eq_ok hn
    exact congrArg Graph.isModified heq
  | renameNode old new =>
    have hne : old ≠ new := by simpa [edits] using hr
    simp only [reply, Graph.renameNode, if_neg hne, Act.pure_apply] at h ⊢
    split at h
    · exact absurd h (by simp)
    · rename_i hold
      split at h
      · exact absurd h (by simp)
      · rename_i hnew
        rw [if_neg hold, if_neg hnew]
        rfl
  | addLink source target =>
    obtain ⟨id, hid⟩ := hmap h
    obtain ⟨-, t, -, hk⟩ := Graph.addLink_eq_ok (Prod.ext hid rfl)
    exact congrArg Graph.isModified hk
  | removeLink target =>
    obtain ⟨l, hl⟩ := hmap h
    simp only [reply, Graph.removeLink, Act.bind_apply, Act.pure_apply] at hl ⊢
    cases hto : g.linkTo? target with
    | none =>
      rw [hto] at hl
      exact absurd hl (by simp)
    | some k =>
      rw [hto] at hl
      exact isModified_removeLinkById hl
  | removeLinkById id =>
    obtain ⟨l, hl⟩ := hmap h
    exact isModified_removeLinkById hl
  | clear =>
    simp only [reply, Graph.clear] at h ⊢
    split at h
    · exact absurd h (by simp)
    · rename_i hp
      rw [if_neg hp]
      rfl
  | _ => exact absurd hr (by simp [edits])

/-- **Whatever else is asked leaves the topology and the record as they are**, and so does a request
that is refused. -/
theorem undisturbed (hk : life.KeepsOutline) (hnd : g.nodeNames.Nodup) {r : Request β}
    (h : r.edits = true → ∃ e, (r.reply life make g stamp).result.1 = .error e) :
    g.Undisturbed (r.reply life make g stamp).result.2 := by
  cases hr : r.edits with
  | true =>
    obtain ⟨e, he⟩ := h hr
    have hexecute : r ≠ .execute := by
      rintro rfl
      exact absurd hr (by simp [edits])
    have hcompile : r ≠ .compile := by
      rintro rfl
      exact absurd hr (by simp [edits])
    rw [(spared hexecute he fun hc ↦ absurd hc hcompile).1]
    exact .refl g
  | false =>
    cases r with
    | renameNode old new =>
      obtain rfl : old = new := by simpa [edits] using hr
      rw [reply, Graph.renameNode, if_pos rfl]
      exact .refl g
    | setInput place packet => exact Graph.undisturbed_setInput hnd place packet
    | setProtected b => exact ⟨rfl, rfl⟩
    | addFactory factory => exact Graph.undisturbed_addFactory g factory
    | compile => exact Graph.undisturbed_compile hk g stamp
    | execute => exact Graph.undisturbed_execute hk g stamp
    | release => exact Graph.undisturbed_release hk g stamp
    | _ => exact absurd hr (by simp [edits])

/-- Whatever is asked, keys stay distinct. -/
theorem nodup_nodeNames (hk : life.KeepsOutline) (hnd : g.nodeNames.Nodup) (r : Request β) :
    (r.perform life make g stamp).result.nodeNames.Nodup := by
  have hleft : r.MayLeave life make g stamp (r.perform life make g stamp).result :=
    r.perform_mayLeave
  generalize (r.perform life make g stamp).result = k at hleft ⊢
  cases hleft with
  | same => exact hnd
  | pushed _ hnew =>
    rw [Graph.nodeNames_pushNode, ← List.concat_eq_append]
    exact hnd.concat hnew
  | erased name =>
    have hdrop : (g.dropLinksOf name).nodeNames.Nodup := by
      rw [Graph.dropLinksOf, Graph.nodeNames_foldl_dropLink]
      exact hnd
    exact hdrop.sublist (List.filter_sublist.map _)
  | relabelled hnew => exact Graph.nodup_nodeNames_relabel hnd hnew
  | @inserted source target t _ =>
    have hends := Graph.nodeNames_changeEnds Port.attach
      ⟨(Act.newLinkId stamp).result, source, target, t⟩ (g := g)
    exact hends ▸ hnd
  | dropped r id =>
    have hdrop := Graph.nodeNames_dropLink (g := g) id
    exact hdrop ▸ hnd
  | stored _ =>
    rw [Graph.modifyPanel, Graph.nodeNames_modifyNode]
    exact hnd
  | guarded b => exact hnd
  | furnished => exact hnd
  | compiled => exact Graph.nodeNames_of_skeleton_eq (Graph.skeleton_compile hk g stamp) ▸ hnd
  | executed =>
    exact Graph.nodeNames_of_skeleton_eq (Graph.agrees_execute hk g stamp).skeleton ▸ hnd
  | released => exact Graph.nodeNames_of_skeleton_eq (Graph.skeleton_release hk g stamp) ▸ hnd
  | cleared => exact List.nodup_nil

end Request
end PortGraph
