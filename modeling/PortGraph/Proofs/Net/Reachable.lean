import Mathlib.Logic.Relation
import PortGraph.Net.Storage
import PortGraph.Proofs.Graph.Passes
import PortGraph.Proofs.Net.Create

/-!
# The nets that come about

`Net.Reachable` lists the nets that come about when a host makes nets and goes on asking for
changes, whether they are refused or not, and `Node.Offered` the nodes that it has to add: plain
ones, whatever it made them for, those that hold a net of its own, and those that it took out of
another net.  As long as a node is in a net, the host neither adds ports to it nor gets it ready,
executes or destroys it: that is up to the net.  The nets inside a net that came about came about as
well, also once the node that holds one has fed it: so it is when its turn comes in a pass of the
outer net.

All of them are coherent (`Net.Reachable.coherent`).  So a net that is ready is prepared for a
pass, with all the nets in it, however deep, and one that is not ready is dormant
(`Net.Reachable.prepared_or_dormant`).
-/

set_option autoImplicit false

namespace PortGraph

open PortGraph.Graph

mutual

/-- The nets that come about. -/
inductive Net.Reachable : Net → Prop
  /-- A new net is empty. -/
  | empty (name : String) (factories : FactorySet) : Net.Reachable { name, factories }
  /-- A net was made of a description. -/
  | described {factories : FactorySet} {d : GraphDescription} {stamp : Nat} {g : Net}
      (h : ((Net.ofDescription factories d).run stamp).result = .ok g) : Net.Reachable g
  /-- The host asked for something.  The id of a link is new. -/
  | step {g : Net} {stamp : Nat} (r : Request Behaviour) (h : Net.Reachable g)
      (hnode : ∀ n, r = .addNode n → Node.Offered n)
      (hfresh : ∀ source target, r = .addLink source target →
        ∀ l ∈ g.links, l.id ≠ (Act.newLinkId stamp).result) :
      Net.Reachable (r.perform g.life FactorySet.createNode g stamp).result
  /-- The net was saved. -/
  | saved {g : Net} (path : String) (stamp : Nat) (h : Net.Reachable g) :
      Net.Reachable (g.markSaved path stamp).result
  /-- It is in a node of a net that came about. -/
  | inner {g k : Net} {s : Slot Behaviour} {inputs outputs : List Endpoint} (h : Net.Reachable g)
      (hs : s ∈ g.slots) (hb : s.node.behaviour = .nested k inputs outputs) : Net.Reachable k
  /-- The node that holds it fed one of its inputs. -/
  | fed {g k : Net} {place : Endpoint} {packet : Option Packet} (h : Net.Reachable g)
      (hk : g.feed place packet = .ok k) : Net.Reachable k

/-- The nodes that a host has to add. -/
inductive Node.Offered : Node Behaviour → Prop
  /-- A new node that holds no net. -/
  | plain {n : Node Behaviour} (hp : n.panel.IsFresh) (hn : n.inner? = none) : Node.Offered n
  /-- A node that holds a net. -/
  | wrapped {g : Net} {name : String} {stamp : Nat} {n : Node Behaviour} (h : Net.Reachable g)
      (hn : ((Net.wrap name g).run stamp).result = .ok n) : Node.Offered n
  /-- A node that was made by factories. -/
  | created {factories : FactorySet} {d : NodeDescription} {stamp : Nat} {n : Node Behaviour}
      (hn : ((factories.createNode d).run stamp).result = .ok n) : Node.Offered n
  /-- A node that was taken out of a net. -/
  | removed {g : Net} {name : String} {stamp : Nat} {n : Node Behaviour} (h : Net.Reachable g)
      (hn : (g.removeNode name stamp).result.1 = .ok n) : Node.Offered n
  /-- Such a node, whatever else the host wrote on its panel. -/
  | written {n m : Node Behaviour} (h : Node.Offered n) (hp : m.panel.IsFresh)
      (hb : m.behaviour = n.behaviour) : Node.Offered m

end

/-- Adding a node to a net is what is asked of it: throwing a node away leaves no trace on the net
that refused it. -/
theorem Net.perform_addNode (g : Net) (n : Node Behaviour) (stamp : Nat) :
    ((Request.addNode n).perform g.life FactorySet.createNode g stamp).result =
      (g.addNode n stamp).result.2 := by
  simp only [Request.perform, Net.addNode, Act.bind_apply, Act.pure_apply]
  split <;> rfl

theorem Net.Coherent.perform {g : Net} (h : g.Coherent) {r : Request Behaviour} {stamp : Nat}
    (hnode : ∀ n, r = .addNode n → n.IsFresh)
    (hfresh : ∀ source target, r = .addLink source target →
      ∀ l ∈ g.links, l.id ≠ (Act.newLinkId stamp).result) :
    Net.Coherent (r.perform g.life FactorySet.createNode g stamp).result := by
  obtain ⟨hg, hc, -⟩ := Net.coherent_iff.mp h
  have hk := keepsOutline_life (Behaviour.slotsDepth g.slots + 1)
  have hq := Behaviour.keeps_life (Behaviour.slotsDepth g.slots + 1)
  have hleft : r.MayLeave g.life FactorySet.createNode g stamp
      (r.perform g.life FactorySet.createNode g stamp).result := r.perform_mayLeave
  have hbrings : ∀ n, r.Brings FactorySet.createNode g n → n.IsFresh := by
    intro n hn
    cases r with
    | addNode m => exact hnode n (congrArg Request.addNode hn.symm)
    | createNode d =>
      obtain ⟨stamp', hd⟩ := hn
      exact g.factories.isFresh_of_createWithin _ hd
    | _ => exact hn.elim
  exact Net.coherent_iff.mpr ⟨hg.of_mayLeave hk (fun n hn ↦ (hbrings n hn).detached) hfresh hleft,
    hc.of_mayLeave hg hk hleft,
    (h.everyAt (Nat.le_succ _)).of_mayLeave (fun _ _ hb ↦ hb.2) hg hk hq
      (fun n hn ↦ (hbrings n hn).idle ▸ (hbrings n hn).sound) hleft⟩

/-- A node that is taken out of a net is as good as new. -/
theorem Net.Coherent.isFresh_of_removeNode {g : Net} (h : g.Coherent) {name : String} {stamp : Nat}
    {n : Node Behaviour} (hn : (g.removeNode name stamp).result.1 = .ok n) : n.IsFresh := by
  obtain ⟨hg, -, -⟩ := Net.coherent_iff.mp h
  have hk := keepsOutline_life (Behaviour.slotsDepth g.slots + 1)
  have hq := Behaviour.keeps_life (Behaviour.slotsDepth g.slots + 1)
  obtain ⟨m, -, hm, rfl, -⟩ := removeNode_eq_ok hn
  have hdetached := (hg.dropLinksOf name).isDetached (fun _ hl ↦ hg.touches_eq_false hl) hm
  have hsound := ((h.everyAt (Nat.le_succ _)).dropLinksOf name) _ (mem_of_node? hm)
  have hbare := Lifecycle.bare_release hk m stamp
  refine ⟨hdetached.of_ports_eq fun side ↦ ?_, Lifecycle.isInitialized_release _ m stamp, ?_⟩
  · rw [← Panel.ports_bare, ← Panel.ports_bare]
    exact congrArg (Panel.ports · side) hbare
  · exact (hq.release hsound stamp).2

theorem Net.Coherent.feed {g k : Net} (h : g.Coherent) {place : Endpoint} {packet : Option Packet}
    (hk : g.feed place packet = .ok k) : k.Coherent := by
  obtain rfl := feed_eq_ok hk
  exact h.of_agrees (agrees_modifyPort_store g .input place packet)
    ((Net.coherent_iff.mp h).2.2.modifyPort _ _ _)

theorem Net.Coherent.markSaved {g : Net} (h : g.Coherent) (path : String) (stamp : Nat) :
    Net.Coherent (g.markSaved path stamp).result :=
  h.of_agrees ⟨rfl, rfl, rfl, rfl⟩ (Net.coherent_iff.mp h).2.2

mutual

/-- **Every net that comes about is coherent.** -/
theorem Net.Reachable.coherent : ∀ {g : Net}, g.Reachable → g.Coherent
  | _, .empty name factories => coherent_of_assembled (.empty name factories)
  | _, .described h =>
    Net.coherent_of_ofDescription (fun _ _ _ ↦ FactorySet.isFresh_of_createWithin _ _) h
  | _, .step _ h hnode hfresh => h.coherent.perform (fun n hr ↦ (hnode n hr).isFresh) hfresh
  | _, .saved path stamp h => h.coherent.markSaved path stamp
  | _, .inner h hs hb => ((Net.coherent_iff.mp h.coherent).2.2 _ hs _ _ _ hb).1
  | _, .fed h hk => h.coherent.feed hk

/-- **Every node that a host has to add is new.** -/
theorem Node.Offered.isFresh : ∀ {n : Node Behaviour}, n.Offered → n.IsFresh
  | _, .plain hp hn => Node.isFresh_of_inner_eq_none hp hn
  | _, .wrapped h hn => Net.isFresh_of_wrap h.coherent hn
  | _, .created hn => FactorySet.isFresh_of_createWithin _ _ hn
  | _, .removed h hn => h.coherent.isFresh_of_removeNode hn
  | _, .written h hp hb => ⟨hp.detached, hp.idle, hb ▸ h.isFresh.sound⟩

end

/-! ## Ready or not -/

/-- A node of the one net holds the other. -/
def Net.Holds (g k : Net) : Prop :=
  ∃ s ∈ g.slots, ∃ inputs outputs, s.node.behaviour = .nested k inputs outputs

theorem Net.Coherent.isReady_of_holds {g k : Net} (h : g.Coherent) (hr : g.isReady = true)
    (hk : Relation.ReflTransGen Net.Holds g k) : k.Coherent ∧ k.isReady = true := by
  induction hk with
  | refl => exact ⟨h, hr⟩
  | tail _ hk ih =>
    obtain ⟨s, hs, inputs, outputs, hb⟩ := hk
    obtain ⟨-, hc, hall⟩ := Net.coherent_iff.mp ih.1
    obtain ⟨hk, hready⟩ := hall s hs _ inputs outputs hb
    exact ⟨hk, hready (forall_initialized_iff.mpr (hc.flags ih.2) s hs)⟩

/-- **A net knows whether it is ready.**  If it is, so are all nets in it, however deep, and what
their schedules ask for is there: a pass over any of them misses nothing, and one over the net does
not fail because some net was not compiled.  If it is not, it shows nothing of a schedule, and
refuses to execute. -/
theorem Net.Reachable.prepared_or_dormant {g : Net} (h : g.Reachable) :
    (g.isReady = true →
      (∀ k, Relation.ReflTransGen Net.Holds g k →
        k.isReady = true ∧ ∀ level, k.IsPrepared (Behaviour.life level)) ∧
      ∀ stamp e, (g.execute stamp).result.1 = .error e → e.isUncompiled = false) ∧
    (g.isReady = false → g.IsDormant g.life) := by
  obtain ⟨-, hc, -⟩ := Net.coherent_iff.mp h.coherent
  refine ⟨fun hr ↦ ⟨fun k hk ↦ ?_, fun stamp e he ↦ ?_⟩, hc.isDormant g.life⟩
  · obtain ⟨hk, hready⟩ := h.coherent.isReady_of_holds hr hk
    obtain ⟨hwell, hcached, -⟩ := Net.coherent_iff.mp hk
    exact ⟨hready, fun level ↦ hwell.isPrepared hcached (keepsOutline_life level) hready⟩
  · rw [Net.execute, Graph.execute, if_pos hr] at he
    obtain ⟨name, typeName, cause, rfl, hcause⟩ := executeSteps_error (keepsOutline_life _)
      (Behaviour.keeps_life _) (h.coherent.everyAt (Nat.le_succ _)) (hc.flags hr) he
    exact hcause

/-! ## A net in a node -/

/-- A node that adds one. -/
def sampleStep : Node Behaviour := (Operation.increment.node "step" 0).result

/-- A net to which a node was added. -/
def Net.withNode (name : String) (n : Node Behaviour) : Net :=
  let empty : Net := { name }
  ((Request.addNode n).perform empty.life FactorySet.createNode empty 0).result

/-- A node that holds a net with a node that adds one. -/
def sampleBox : Node Behaviour :=
  ((Net.wrap "box" (Net.withNode "inner" sampleStep)).run 0).result.toOption.getD sampleStep

/-- The net of that node, compiled. -/
def sampleNet : Net :=
  (Request.compile.perform (Net.withNode "outer" sampleBox).life FactorySet.createNode
    (Net.withNode "outer" sampleBox) 0).result

theorem Net.reachable_withNode {n : Node Behaviour} (h : n.Offered) (name : String) :
    (Net.withNode name n).Reachable := by
  refine .step _ (.empty name {}) (fun m hm ↦ ?_) fun _ _ hr ↦ absurd hr (by simp)
  obtain rfl := Request.addNode.inj hm
  exact h

theorem wrap_sampleBox :
    ((Net.wrap "box" (Net.withNode "inner" sampleStep)).run 0).result = .ok sampleBox := by
  obtain ⟨n, hn⟩ := exists_ok_of_isOk
    (x := ((Net.wrap "box" (Net.withNode "inner" sampleStep)).run 0).result) (by decide +kernel)
  rw [sampleBox, hn]
  rfl

theorem reachable_sampleNet : sampleNet.Reachable := by
  have hinner : (Net.withNode "inner" sampleStep).Reachable :=
    Net.reachable_withNode (.plain ((Operation.increment.isNew_panel "step" 0).isFresh) rfl) "inner"
  exact .step _ (Net.reachable_withNode (.wrapped hinner wrap_sampleBox) "outer")
    (fun _ hr ↦ absurd hr (by simp)) fun _ _ hr ↦ absurd hr (by simp)

theorem prepared_sampleNet : sampleNet.isReady = true ∧
    (sampleNet.slots.any fun s ↦ s.node.inner?.isSome) = true ∧
    ∀ k, Relation.ReflTransGen Net.Holds sampleNet k →
      k.isReady = true ∧ ∀ level, k.IsPrepared (Behaviour.life level) := by
  have hready : sampleNet.isReady = true := by decide +kernel
  exact ⟨hready, by decide +kernel, (reachable_sampleNet.prepared_or_dormant.1 hready).1⟩

end PortGraph
