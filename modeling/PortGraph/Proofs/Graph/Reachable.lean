import PortGraph.Proofs.Graph.Cache

/-!
# The graphs that come about

`Graph.Reachable` lists the graphs that come about when a host makes a graph, empty or of a
description, and goes on asking for changes, whether the graph refuses some of them or not; those
that are nested in a node belong to them.  Two things are true of all of them: their links and
their ports belong together (`Reachable.wellLinked`), and their schedule is the plan of what they
have become (`Reachable.cached`).

What a node does when it is called is not known here, except that it leaves the outline of its
panel alone.
-/

set_option autoImplicit false

namespace PortGraph
namespace Graph

variable {β : Type} {g : Graph β}

/-- The graphs that come about. -/
inductive Reachable : Graph β → Prop
  /-- A new graph is empty. -/
  | empty (name : String) (factories : FactorySet) : Reachable { name, factories }
  /-- A graph was made of a description. -/
  | described {create : NodeDescription → Attempt (Node β)} {factories : FactorySet}
      {d : GraphDescription} {stamp : Nat} {g : Graph β}
      (hcreate : ∀ d stamp n, ((create d).run stamp).result = .ok n → n.panel.IsDetached)
      (h : ((ofDescription create factories d).run stamp).result = .ok g) : Reachable g
  /-- The host asked for something.  The nodes it brings are new, and so is the id of a link. -/
  | step {life : Lifecycle β} {make : FactorySet → NodeDescription → Attempt (Node β)}
      {g : Graph β} {stamp : Nat} (r : Request β) (h : Reachable g) (hlife : life.KeepsOutline)
      (hnode : ∀ n, r.Brings make g n → n.panel.IsDetached)
      (hfresh : ∀ source target, r = .addLink source target →
        ∀ l ∈ g.links, l.id ≠ (Act.newLinkId stamp).result) :
      Reachable (r.perform life make g stamp).result
  /-- The graph was nested in a node, which will feed one of its inputs. -/
  | exposed {g k : Graph β} {place : Endpoint} (h : Reachable g) (hk : g.expose place = .ok k) :
      Reachable k
  /-- The node fed one of its inputs. -/
  | fed {g k : Graph β} {place : Endpoint} {packet : Option Packet} (h : Reachable g)
      (hk : g.feed place packet = .ok k) : Reachable k

theorem Assembled.wellLinked {Made : Node β → Prop} (hmade : ∀ n, Made n → n.panel.IsDetached)
    (h : Assembled Made g) : g.WellLinked := by
  induction h with
  | empty name factories => exact wellLinked_empty name factories
  | push _ hn new ih => exact ih.pushNode (hmade _ hn) new
  | insert _ ht new ih => exact ih.insertLink_of_linkType ht new

theorem Assembled.cached {Made : Node β → Prop} (h : Assembled Made g) : g.Cached := by
  cases h <;> exact cached_of_not_ready rfl rfl

/-- **The links and the ports of every graph belong together.** -/
theorem Reachable.wellLinked (h : g.Reachable) : g.WellLinked := by
  induction h with
  | empty name factories => exact wellLinked_empty name factories
  | described hcreate h =>
    obtain ⟨k, hk, rfl⟩ := assembled_ofDescription hcreate h
    exact (hk.wellLinked fun _ hn ↦ hn).of_skeleton_eq rfl
  | step r _ hlife hnode hfresh ih =>
    exact ih.of_mayLeave hlife hnode hfresh (r.perform_mayLeave)
  | exposed _ hk ih => exact ih.expose hk
  | fed _ hk ih =>
    obtain rfl := feed_eq_ok hk
    exact ih.of_skeleton_eq (agrees_modifyPort_store _ _ _ _).skeleton

/-- **The schedule of every graph is the plan of what it has become.** -/
theorem Reachable.cached (h : g.Reachable) : g.Cached := by
  induction h with
  | empty name factories => exact cached_of_not_ready rfl rfl
  | described hcreate h =>
    obtain ⟨k, hk, rfl⟩ := assembled_ofDescription hcreate h
    exact hk.cached.of_agrees ⟨rfl, rfl, rfl, rfl⟩
  | step r hg hlife hnode _ ih => exact ih.of_mayLeave hg.wellLinked hlife (r.perform_mayLeave)
  | exposed _ hk _ =>
    obtain rfl := expose_eq_ok hk
    exact cached_of_not_ready rfl rfl
  | fed _ hk ih =>
    obtain rfl := feed_eq_ok hk
    exact ih.of_agrees (agrees_modifyPort_store _ _ _ _)

/-! ## Links and ports -/

/-- The links and the ports of a graph agree, and nothing that goes by them goes astray. -/
structure LinksMatch (g : Graph β) : Prop where
  /-- A link leads from an output to an input, both of which carry what it carries. -/
  ends : ∀ l ∈ g.links, ∀ side, ∃ n p, g.node? (l.place side).node = some n ∧
    n.panel.port? side (l.place side).port = some p ∧ p.dataType = l.dataType
  /-- A port counts the links that leave or enter it. -/
  counted : ∀ s ∈ g.slots, ∀ side, ∀ p ∈ s.node.panel.ports side,
    p.linkCount = g.links.countP (fun l ↦ l.place side = ⟨s.key, p.name⟩)
  /-- At most one link enters an input. -/
  single : ∀ s ∈ g.slots, ∀ p ∈ s.node.panel.inputs, p.linkCount ≤ 1
  /-- A node is kept under the name it bears, and no other is. -/
  named : g.nodeNames.Nodup ∧ ∀ s ∈ g.slots, s.key = s.node.name
  /-- Whichever links are taken out one after the other, both ends count the next one. -/
  droppable : ∀ ids : List LinkId, ∀ l ∈ (ids.foldl (fun k id ↦ k.dropLink id) g).links,
    ∀ side, ∃ p, (ids.foldl (fun k id ↦ k.dropLink id) g).port? side (l.place side) = some p ∧
      0 < p.linkCount
  /-- Neither a node nor a port is missed when the links are followed. -/
  followed : (∃ edges, g.links.mapM g.edge = .ok edges) ∧ ∃ pulls, g.links.mapM g.pull = .ok pulls

/-- **The books are kept**: in every graph that comes about the links and the ports agree. -/
theorem Reachable.linksMatch (h : g.Reachable) : g.LinksMatch where
  ends l hl side := by
    obtain ⟨p, hp, ht⟩ := h.wellLinked.ends l hl side
    obtain ⟨n, hn, hp⟩ := Option.bind_eq_some_iff.mp hp
    exact ⟨n, p, hn, hp, ht⟩
  counted s hs side p hp := h.wellLinked.linkCount_eq hs hp
  single s hs p hp := by
    have hcount : p.linkCount = g.degree .input ⟨s.key, p.name⟩ := h.wellLinked.linkCount_eq hs hp
    exact hcount ▸ h.wellLinked.once _
  named := ⟨h.wellLinked.keys_nodup, fun s hs ↦ (h.wellLinked.regular s hs).name_eq.symm⟩
  droppable ids l hl side := by
    obtain ⟨p, hp, -, hpos⟩ := (h.wellLinked.foldl_dropLink ids).exists_port hl side
    exact ⟨p, hp, hpos⟩
  followed := ⟨⟨_, mapM_edge h.wellLinked⟩, h.wellLinked.mapM_pull⟩

/-! ## A graph of two nodes -/

theorem keepsOutline_idle : (Lifecycle.idle : Lifecycle β).KeepsOutline :=
  ⟨fun _ _ ↦ rfl, fun _ _ ↦ rfl, fun _ _ ↦ rfl⟩

/-- A node that does nothing, with an input `in` and an output `out`. -/
def sampleNode (name : String) : Node Unit where
  panel :=
    { name
      typeName := "Sample"
      inputs := [{ name := "in", direction := .input, dataType := ⟨"int"⟩ }]
      outputs := [{ name := "out", direction := .output, dataType := ⟨"int"⟩ }] }
  behaviour := ()

theorem isDetached_sampleNode (name : String) : (sampleNode name).panel.IsDetached where
  ports_nodup side := by cases side <;> simp [sampleNode, Panel.ports]
  unlinked side := by cases side <;> simp [sampleNode, Panel.ports]

/-- No node is made of a description. -/
def makeNone (_ : FactorySet) (_ : NodeDescription) : Attempt (Node Unit) :=
  throw (.unknownType "")

/-- The graph of the nodes `a` and `b`, the first of which feeds the other. -/
def sample : Graph Unit :=
  let alone := ((Request.addNode (sampleNode "a")).perform .idle makeNone { name := "g" } 0).result
  let both := ((Request.addNode (sampleNode "b")).perform .idle makeNone alone 0).result
  ((Request.addLink ⟨"a", "out"⟩ ⟨"b", "in"⟩).perform .idle makeNone both 0).result

theorem reachable_sample : sample.Reachable := by
  have hadd : ∀ (name : String) (g : Graph Unit), g.Reachable →
      ((Request.addNode (sampleNode name)).perform .idle makeNone g 0).result.Reachable := by
    intro name g hg
    refine hg.step _ keepsOutline_idle ?_ fun _ _ hr ↦ absurd hr (by simp)
    rintro n rfl
    exact isDetached_sampleNode name
  refine (hadd "b" _ (hadd "a" _ (.empty "g" {}))).step _ keepsOutline_idle (fun _ hn ↦ hn.elim) ?_
  intro _ _ _
  decide

theorem linksMatch_sample : sample.links ≠ [] ∧ sample.LinksMatch :=
  ⟨by decide, reachable_sample.linksMatch⟩

end Graph
end PortGraph
