import PortGraph.Graph.Saved
import PortGraph.Proofs.Graph.Ports

/-!
# What a host may ask of a graph

`Request` lists the operations by which a host changes a graph, and `Request.MayLeave` the graphs
that each of them may leave: the one it was given, when it refuses, or that graph after one of a
few raw changes.  `Request.perform_mayLeave` says that there are no others, so that whatever every
raw change keeps is kept by every request.

A graph that is rebuilt from a description is `Assembled` by two of these changes alone.
-/

set_option autoImplicit false

namespace PortGraph

/-! ## Requests -/

/-- What a host may ask of a graph. -/
inductive Request (β : Type) where
  /-- Add a node. -/
  | addNode (n : Node β)
  /-- Make a described node and add it. -/
  | createNode (d : NodeDescription)
  /-- Remove a node. -/
  | removeNode (name : String)
  /-- Give a node a new name. -/
  | renameNode (old new : String)
  /-- Link an output to an input. -/
  | addLink (source target : Endpoint)
  /-- Remove the link that ends at an input. -/
  | removeLink (target : Endpoint)
  /-- Remove the link of an id. -/
  | removeLinkById (id : LinkId)
  /-- Put a packet on an input. -/
  | setInput (place : Endpoint) (packet : Packet)
  /-- Protect nodes and links from removal, or stop protecting them. -/
  | setProtected (b : Bool)
  /-- Add a factory. -/
  | addFactory (factory : Factory)
  /-- Make the graph ready to execute. -/
  | compile
  /-- Run every node once. -/
  | execute
  /-- Destroy the initialised nodes. -/
  | release
  /-- Remove all nodes and links. -/
  | clear

namespace Request

variable {β : Type}

/-- Do what is asked, and leave the graph that comes of it, also when the graph refuses.  How nodes
are made of their descriptions with the factories of the graph is given by `make`. -/
def perform (life : Lifecycle β) (make : FactorySet → NodeDescription → Attempt (Node β)) :
    Request β → Graph β → Act (Graph β)
  | .addNode n, g => return (← g.addNode n).2
  | .createNode d, g => return (← g.createNode (make g.factories) d).2
  | .removeNode name, g => return (← g.removeNode life name).2
  | .renameNode old new, g => return (g.renameNode old new).2
  | .addLink source target, g => return (← g.addLink source target).2
  | .removeLink target, g => return (← g.removeLink target).2
  | .removeLinkById id, g => return (← g.removeLinkById id).2
  | .setInput place packet, g => return (g.setInput place packet).2
  | .setProtected b, g => return g.setProtected b
  | .addFactory factory, g => return (g.addFactory factory).toOption.getD g
  | .compile, g => return (← g.compile life).2
  | .execute, g => return (← g.execute life).2
  | .release, g => g.release life
  | .clear, g => return (← g.clear life).2

/-- A request brings a node along, or has one made. -/
def Brings (make : FactorySet → NodeDescription → Attempt (Node β)) (g : Graph β) :
    Request β → Node β → Prop
  | .addNode n, m => m = n
  | .createNode d, m => ∃ stamp, ((make g.factories d).run stamp).result = .ok m
  | _, _ => False

/-- The graphs that a request may leave when it finds the graph `g`. -/
inductive MayLeave (life : Lifecycle β) (make : FactorySet → NodeDescription → Attempt (Node β))
    (g : Graph β) (stamp : Nat) : Request β → Graph β → Prop
  /-- Nothing was changed. -/
  | same (r : Request β) : MayLeave life make g stamp r g
  /-- A node of a new name came. -/
  | pushed {r : Request β} {n : Node β} (brings : r.Brings make g n)
      (new : n.name ∉ g.nodeNames) : MayLeave life make g stamp r (g.pushNode n)
  /-- A node went, and its links with it. -/
  | erased (name : String) :
      MayLeave life make g stamp (.removeNode name) ((g.dropLinksOf name).eraseNode name)
  /-- A node took a name that no other has. -/
  | relabelled {old new : String} (h : new ∉ g.nodeNames) :
      MayLeave life make g stamp (.renameNode old new) (g.relabel old new)
  /-- A link was put in. -/
  | inserted {source target : Endpoint} {t : DataType} (h : g.linkType source target = .ok t) :
      MayLeave life make g stamp (.addLink source target)
        (g.insertLink ⟨(Act.newLinkId stamp).result, source, target, t⟩)
  /-- A link was taken out. -/
  | dropped (r : Request β) (id : LinkId) :
      MayLeave life make g stamp r (g.dropLink id).invalidate
  /-- A packet was put on an input. -/
  | stored {place : Endpoint} {packet : Packet} {n : Node β} (hn : g.node? place.node = some n) :
      MayLeave life make g stamp (.setInput place packet) (g.modifyPanel place.node fun _ ↦
        n.panel.modifyPort .input place.port (·.store (some packet)))
  /-- Protection was turned on or off. -/
  | guarded (b : Bool) : MayLeave life make g stamp (.setProtected b) (g.setProtected b)
  /-- Factories were added. -/
  | furnished (factory : Factory) (factories : FactorySet) :
      MayLeave life make g stamp (.addFactory factory) { g with factories }
  /-- The nodes were called to get ready. -/
  | compiled : MayLeave life make g stamp .compile (g.compile life stamp).result.2
  /-- The nodes were called to execute. -/
  | executed : MayLeave life make g stamp .execute (g.execute life stamp).result.2
  /-- The nodes were destroyed. -/
  | released : MayLeave life make g stamp .release (g.release life stamp).result
  /-- The nodes were destroyed and nothing was kept. -/
  | cleared : MayLeave life make g stamp .clear
      { (g.release life stamp).result with slots := [], links := [], isModified := true }

variable {life : Lifecycle β} {make : FactorySet → NodeDescription → Attempt (Node β)}
  {g : Graph β} {stamp : Nat}

theorem mayLeave_addNode {r : Request β} {n : Node β} {stamp' : Nat}
    (hr : r.Brings make g n) :
    MayLeave life make g stamp r (g.addNode n stamp').result.2 := by
  rw [Graph.addNode]
  split
  · exact .same r
  · rename_i hnew
    exact .pushed hr fun hm ↦ hnew (Graph.contains_iff_mem.mpr hm)

theorem mayLeave_removeLinkById (r : Request β) (id : LinkId) :
    MayLeave life make g stamp r (g.removeLinkById id stamp).result.2 := by
  rw [Graph.removeLinkById]
  split
  · exact .same r
  · cases g.link? id with
    | none => exact .same r
    | some l => exact .dropped r id

theorem mayLeave_setInput (place : Endpoint) (packet : Packet) :
    MayLeave life make g stamp (.setInput place packet) (g.setInput place packet).2 := by
  rw [Graph.setInput, Graph.node]
  cases hn : g.node? place.node with
  | none => exact .same _
  | some n =>
    dsimp only
    rw [Panel.inject]
    cases n.panel.port .input place.port with
    | error e => exact .same _
    | ok p =>
      dsimp only
      by_cases hl : p.isLinked
      · rw [if_pos hl]
        exact .same _
      · rw [if_neg hl]
        exact .stored hn

theorem mayLeave_clear : MayLeave life make g stamp .clear (g.clear life stamp).result.2 := by
  rw [Graph.clear]
  split
  · exact .same _
  · exact .cleared

/-- **A request leaves one of these graphs.** -/
theorem perform_mayLeave (r : Request β) :
    MayLeave life make g stamp r (r.perform life make g stamp).result := by
  cases r with
  | addNode n => exact mayLeave_addNode rfl
  | createNode d =>
    simp only [perform, Act.bind_apply, Act.pure_apply, Graph.createNode]
    cases hd : ((make g.factories d).run stamp).result with
    | error e => exact .same _
    | ok n => exact mayLeave_addNode ⟨stamp, hd⟩
  | removeNode name =>
    simp only [perform, Act.bind_apply, Act.pure_apply, Graph.removeNode]
    split
    · exact .same _
    · cases (g.dropLinksOf name).node? name with
      | none => exact .same _
      | some n => exact .erased name
  | renameNode old new =>
    simp only [perform, Act.pure_apply, Graph.renameNode]
    split
    · exact .same _
    · split
      · exact .same _
      · split
        · exact .same _
        · rename_i hnew
          exact .relabelled fun hm ↦ hnew (Graph.contains_iff_mem.mpr hm)
  | addLink source target =>
    simp only [perform, Act.bind_apply, Act.pure_apply, Graph.addLink]
    cases ht : g.linkType source target with
    | error e => exact .same _
    | ok t => exact .inserted ht
  | removeLink target =>
    simp only [perform, Act.bind_apply, Act.pure_apply, Graph.removeLink]
    cases g.linkTo? target with
    | none => exact .same _
    | some l => exact mayLeave_removeLinkById _ l.id
  | removeLinkById id => exact mayLeave_removeLinkById _ id
  | setInput place packet => exact mayLeave_setInput place packet
  | setProtected b => exact .guarded b
  | addFactory factory =>
    simp only [perform, Act.pure_apply, Graph.addFactory]
    cases g.factories.add factory with
    | error e => exact .same _
    | ok set => exact .furnished factory set
  | compile => exact .compiled
  | execute => exact .executed
  | release => exact .released
  | clear => exact mayLeave_clear

end Request

/-! ## Graphs from descriptions -/

namespace Graph

variable {β : Type}

/-- Graphs put together of some nodes and links between them, one after the other. -/
inductive Assembled (Made : Node β → Prop) : Graph β → Prop
  /-- There is nothing yet. -/
  | empty (name : String) (factories : FactorySet) : Assembled Made { name, factories }
  /-- A node of a new name came. -/
  | push {g : Graph β} {n : Node β} (h : Assembled Made g) (hn : Made n)
      (new : n.name ∉ g.nodeNames) : Assembled Made (g.pushNode n)
  /-- A link of a new id was put in. -/
  | insert {g : Graph β} {l : Link} (h : Assembled Made g)
      (ht : g.linkType l.source l.target = .ok l.dataType) (new : ∀ k ∈ g.links, k.id ≠ l.id) :
      Assembled Made (g.insertLink l)

variable {Made : Node β → Prop} {create : NodeDescription → Attempt (Node β)}

theorem attempt_eq_ok {α : Type} {op : Graph β → Act (Reply GraphError (Graph β) α)}
    {g k : Graph β} {stamp : Nat} (h : ((attempt op g).run stamp).result = .ok k) :
    ∃ a, (op g stamp).result = (.ok a, k) ∧
      ((attempt op g).run stamp).stamp = (op g stamp).stamp := by
  simp only [attempt, ExceptT.run_mk, Act.bind_apply] at h ⊢
  cases hr : (op g stamp).result with
  | mk result k' =>
    rw [hr] at h
    cases result with
    | error e => exact absurd h (by simp)
    | ok a =>
      obtain rfl : k' = k := Except.ok.inj h
      exact ⟨a, rfl, rfl⟩

theorem addNode_eq_ok {n : Node β} {g k : Graph β} {stamp : Nat}
    (h : (g.addNode n stamp).result = (.ok (), k)) : n.name ∉ g.nodeNames ∧ k = g.pushNode n := by
  rw [addNode] at h
  split at h
  · exact absurd (congrArg Prod.fst h) (by simp)
  · rename_i hnew
    exact ⟨fun hm ↦ hnew (contains_iff_mem.mpr hm), (congrArg Prod.snd h).symm⟩

theorem addLink_eq_ok {source target : Endpoint} {g k : Graph β} {stamp : Nat} {id : LinkId}
    (h : (g.addLink source target stamp).result = (.ok id, k)) :
    (g.addLink source target stamp).stamp = stamp + 1 ∧ ∃ t, g.linkType source target = .ok t ∧
      k = g.insertLink ⟨⟨stamp + 1⟩, source, target, t⟩ := by
  rw [addLink] at h ⊢
  cases ht : g.linkType source target with
  | error e =>
    rw [ht] at h
    exact absurd (congrArg Prod.fst h) (by simp)
  | ok t =>
    rw [ht] at h
    exact ⟨rfl, t, rfl, (congrArg Prod.snd h).symm⟩

theorem run_attempt_of_ok {α : Type} {op : Graph β → Act (Reply GraphError (Graph β) α)}
    {g : Graph β} {stamp : Nat} {a : α} (h : (op g stamp).result.1 = .ok a) :
    ((attempt op g).run stamp).result = .ok (op g stamp).result.2 ∧
      ((attempt op g).run stamp).stamp = (op g stamp).stamp := by
  simp only [attempt, ExceptT.run_mk, Act.bind_apply]
  rcases hr : (op g stamp).result with ⟨e | _, k⟩
  · rw [hr] at h
    exact absurd h (by simp)
  · exact ⟨rfl, rfl⟩

/-- Whatever is made of the described nodes, the nodes are put together from it. -/
theorem assembled_addDescribed
    (hmade : ∀ d stamp n, ((create d).run stamp).result = .ok n → Made n)
    (ds : List NodeDescription) {g k : Graph β} {stamp : Nat} (h : Assembled Made g)
    (hl : g.links = []) (hk : ((addDescribed create ds g).run stamp).result = .ok k) :
    Assembled Made k ∧ k.links = [] := by
  induction ds generalizing g stamp with
  | nil =>
    obtain rfl : g = k := Except.ok.inj hk
    exact ⟨h, hl⟩
  | cons d ds ih =>
    rw [addDescribed] at hk
    obtain ⟨n, hn, hk⟩ := Attempt.of_bind_eq_ok hk
    obtain ⟨g', hg', hk⟩ := Attempt.of_bind_eq_ok hk
    obtain ⟨_, hadd, -⟩ := attempt_eq_ok hg'
    obtain ⟨hnew, rfl⟩ := addNode_eq_ok hadd
    exact ih (h.push (hmade d _ n hn) hnew) hl hk

/-- The links are put in one after the other, each with a later stamp than those before. -/
theorem assembled_linkDescribed (ds : List LinkDescription) {g k : Graph β} {stamp : Nat}
    (h : Assembled Made g) (hl : ∀ l ∈ g.links, l.id.number ≤ stamp)
    (hk : ((linkDescribed ds g).run stamp).result = .ok k) : Assembled Made k := by
  induction ds generalizing g stamp with
  | nil =>
    obtain rfl : g = k := Except.ok.inj hk
    exact h
  | cons d ds ih =>
    rw [linkDescribed] at hk
    obtain ⟨g', hg', hk⟩ := Attempt.of_bind_eq_ok hk
    obtain ⟨id, hadd, hstamp⟩ := attempt_eq_ok hg'
    obtain ⟨hnext, t, ht, rfl⟩ := addLink_eq_ok hadd
    rw [hstamp, hnext] at hk
    refine ih (h.insert ht fun l hm he ↦ ?_) (fun l hm ↦ ?_) hk
    · have hle := hl l hm
      have hid : l.id.number = stamp + 1 := congrArg LinkId.number he
      omega
    · rcases List.mem_append.mp hm with hm | hm
      · exact Nat.le_succ_of_le (hl l hm)
      · obtain rfl := List.mem_singleton.mp hm
        exact Nat.le_refl _

/-- **A graph that is rebuilt is assembled** from nodes made of their descriptions. -/
theorem assembled_ofDescription
    (hmade : ∀ d stamp n, ((create d).run stamp).result = .ok n → Made n)
    {factories : FactorySet} {d : GraphDescription} {g : Graph β} {stamp : Nat}
    (h : ((ofDescription create factories d).run stamp).result = .ok g) :
    ∃ k, Assembled Made k ∧ g = { k with isModified := false } := by
  rw [ofDescription] at h
  obtain ⟨j, hj, h⟩ := Attempt.of_bind_eq_ok h
  obtain ⟨k, hk, h⟩ := Attempt.of_bind_eq_ok h
  obtain ⟨hassembled, hlinks⟩ :=
    assembled_addDescribed hmade d.nodes (.empty d.name factories) rfl hj
  refine ⟨k, assembled_linkDescribed d.links hassembled ?_ hk, (Except.ok.inj h).symm⟩
  rw [hlinks]
  simp

end Graph
end PortGraph
