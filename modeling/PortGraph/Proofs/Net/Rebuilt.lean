import PortGraph.Proofs.Graph.Reachable
import PortGraph.Proofs.Net.Builtin

/-!
# Rebuilding a graph

When the described nodes can be made, under different names, and have the ports that the described
links ask for, rebuilding succeeds (`Graph.ofDescription_ok`).  What comes of it is told by what is
seen of its places: as long as links and values are left out of sight (`IgnoresLinks`), nothing of
what the nodes were made with has changed.  How many links touch a port need not be followed, since
the links tell.
-/

set_option autoImplicit false

namespace PortGraph

/-- The port without links and values. -/
def Port.untied (p : Port) : Port := { p.form with linkCount := 0 }

/-- What a change leaves alone of a port is seen of no panel. -/
theorem Panel.map_ports_modifyPort {γ : Type} {G : Port → γ} {f : Port → Port} (panel : Panel)
    (side : Direction) (name : String) (hG : ∀ p, G (f p) = G p) (side' : Direction) :
    ((panel.modifyPort side name f).ports side').map G = (panel.ports side').map G := by
  rw [modifyPort, ports_withPorts]
  split
  · rename_i hside
    rw [Port.map_modifyNamed_of_eq hG, hside]
  · rfl

namespace Graph

variable {β γ : Type} {g : Graph β} {F : Slot β → γ}

/-- What is seen of a place is left alone by changes of links and values. -/
def IgnoresLinks (F : Slot β → γ) : Prop :=
  ∀ (s : Slot β) (side : Direction) (name : String) (f : Port → Port),
    (∀ p, (f p).untied = p.untied) →
    F (s.mapNode (·.mapPanel (·.modifyPort side name f))) = F s

theorem map_modifyPort (hF : IgnoresLinks F) {f : Port → Port} (hf : ∀ p, (f p).untied = p.untied)
    (g : Graph β) (side : Direction) (e : Endpoint) :
    (g.modifyPort side e f).slots.map F = g.slots.map F := by
  rw [modifyPort, modifyPanel, modifyNode, List.map_map]
  refine List.map_congr_left fun s _ ↦ ?_
  rw [Function.comp_apply]
  split
  · exact hF s side e.port f hf
  · rfl

theorem map_insertLink (hF : IgnoresLinks F) (g : Graph β) (l : Link) :
    (g.insertLink l).slots.map F = g.slots.map F :=
  (map_modifyPort (f := fun p : Port ↦ p.attach.store none) hF (fun _ ↦ rfl)
      (g.modifyPort .output l.source Port.attach) .input l.target).trans
    (map_modifyPort (f := Port.attach) hF (fun _ ↦ rfl) g .output l.source)

/-! ## Nodes -/

theorem addNode_of_new {n : Node β} (hnew : n.name ∉ g.nodeNames) (stamp : Nat) :
    (g.addNode n stamp).result = (.ok (), g.pushNode n) := by
  rw [addNode, if_neg fun hm ↦ hnew (contains_iff_mem.mp hm)]
  rfl

/-- **Described nodes are added** if they can be made and their names are new. -/
theorem addDescribed_ok {create : NodeDescription → Attempt (Node β)} {views : List γ}
    {ds : List NodeDescription}
    (h : List.Forall₂ (fun view d ↦ ∀ stamp, ∃ n, ((create d).run stamp).result = .ok n ∧
      n.name = d.instanceName ∧ F ⟨n.name, n⟩ = view) views ds)
    (hnd : (g.nodeNames ++ ds.map NodeDescription.instanceName).Nodup) (stamp : Nat) :
    ∃ k, ((addDescribed create ds g).run stamp).result = .ok k ∧
      k.slots.map F = g.slots.map F ++ views ∧ k.links = g.links ∧ k.name = g.name := by
  induction h generalizing g stamp with
  | nil => exact ⟨g, rfl, (List.append_nil _).symm, rfl, rfl⟩
  | @cons view d views ds hd _ ih =>
    obtain ⟨n, hn, hname, hview⟩ := hd stamp
    have hnew : n.name ∉ g.nodeNames := fun hm ↦
      (List.nodup_append.mp hnd).2.2 _ hm _ List.mem_cons_self hname
    have hadd := addNode_of_new hnew ((create d).run stamp).stamp
    have hnames : (g.pushNode n).nodeNames = g.nodeNames ++ [d.instanceName] := by
      rw [← hname]
      exact List.map_append
    obtain ⟨k, hk, hslots, hlinks, hgname⟩ := @ih (g.pushNode n)
      (by rw [hnames, List.append_assoc]; exact hnd) ((attempt (addNode n) g).run _).stamp
    refine ⟨k, ?_, ?_, hlinks, hgname⟩
    · rw [addDescribed, Attempt.run_bind_of_ok hn,
        Attempt.run_bind_of_ok (run_attempt_of_ok (congrArg Prod.fst hadd)).1, hadd]
      exact hk
    · rw [hslots, pushNode, List.map_append, List.map_singleton, hview, List.append_assoc]
      rfl

/-! ## Links -/

/-- A described link is made under an id of its own. -/
theorem run_linkDescribed_cons {l : Link} (ht : g.linkType l.source l.target = .ok l.dataType)
    (ds : List LinkDescription) (stamp : Nat) :
    ((linkDescribed (l.description :: ds) g).run stamp).result =
      ((linkDescribed ds (g.insertLink { l with id := ⟨stamp + 1⟩ })).run (stamp + 1)).result := by
  obtain ⟨k, hk⟩ : ∃ k, k = g.insertLink { l with id := ⟨stamp + 1⟩ } := ⟨_, rfl⟩
  have hadd : (g.addLink l.source l.target stamp).result = (.ok ⟨stamp + 1⟩, k) ∧
      (g.addLink l.source l.target stamp).stamp = stamp + 1 := by
    rw [addLink, ht, hk]
    exact ⟨rfl, rfl⟩
  have hrun := run_attempt_of_ok (congrArg Prod.fst hadd.1)
  rw [hadd.1, hadd.2] at hrun
  rw [linkDescribed, ← hk]
  exact (Attempt.run_bind_of_ok hrun.1).trans
    (congrArg (fun i ↦ ((linkDescribed ds k).run i).result) hrun.2)

/-- **Described links are made** if the ports are there that they ask for. -/
theorem WellLinked.linkDescribed_ok (hF : IgnoresLinks F) (links : List Link) (hg : g.WellLinked)
    {stamp : Nat} (hstamp : ∀ l ∈ g.links, l.id.number ≤ stamp)
    (hports : ∀ k : Graph β, k.slots.map F = g.slots.map F → ∀ l ∈ links, ∀ side,
      ∃ p, k.port? side (l.place side) = some p ∧ p.dataType = l.dataType)
    (honce : ∀ e, (g.links ++ links).countP (fun l ↦ l.target = e) ≤ 1) :
    ∃ k, ((linkDescribed (links.map Link.description) g).run stamp).result = .ok k ∧
      k.slots.map F = g.slots.map F ∧
      k.links.map Link.unnumbered = (g.links ++ links).map Link.unnumbered ∧ k.name = g.name := by
  induction links generalizing g stamp with
  | nil => exact ⟨g, rfl, rfl, by rw [List.append_nil], rfl⟩
  | cons l links ih =>
    obtain ⟨p, hp, hpt⟩ := hports g rfl l List.mem_cons_self .output
    obtain ⟨q, hq, hqt⟩ := hports g rfl l List.mem_cons_self .input
    have hfree : q.isLinked = false := by
      have hcount := honce l.target
      rw [List.countP_append, List.countP_cons_of_pos (by simp)] at hcount
      have hzero : g.degree .input l.target = 0 := by
        change g.links.countP (fun k ↦ k.target = l.target) = 0
        omega
      have hcounted : q.linkCount = g.degree .input l.target := hg.counted .input _ q hq
      rw [Port.isLinked, hcounted, hzero]
      rfl
    have ht : g.linkType l.source l.target = .ok l.dataType :=
      hqt ▸ linkType_of_ports hp hq (hpt.trans hqt.symm) hfree
    -- the link is made anew, with the next stamp as its id
    obtain ⟨l', hl'⟩ : ∃ l' : Link, l' = { l with id := ⟨stamp + 1⟩ } := ⟨_, rfl⟩
    have hfresh : ∀ k ∈ g.links, k.id ≠ l'.id := by
      intro k hk hid
      have hnumber : k.id.number = stamp + 1 := by rw [hid, hl']
      exact absurd (hstamp k hk) (by omega)
    have hview := map_insertLink hF g l'
    have hlinks' : (g.insertLink l').links = g.links ++ [l'] := rfl
    obtain ⟨k, hk, hslots, hlinks, hname⟩ := @ih (g.insertLink l')
      (hg.insertLink_of_linkType (by rw [hl']; exact ht) hfresh) (stamp + 1)
      (by
        rw [hlinks', List.forall_mem_append, List.forall_mem_singleton, hl']
        exact ⟨fun k hk ↦ Nat.le_succ_of_le (hstamp k hk), Nat.le_refl _⟩)
      (fun k hk m hm ↦ hports k (hk.trans hview) m (List.mem_cons_of_mem _ hm))
      (fun e ↦ by
        have hcount := honce e
        rw [hlinks', hl']
        simp only [List.countP_append, List.countP_cons, List.countP_nil] at hcount ⊢
        omega)
    refine ⟨k, ?_, hslots.trans hview, hlinks.trans ?_, hname⟩
    · rw [List.map_cons, run_linkDescribed_cons ht, ← hl']
      exact hk
    · rw [hlinks', hl']
      simp [Link.unnumbered]

/-! ## The whole graph -/

/-- **A graph is rebuilt** from nodes that can be made, and from links between ports that they
have. -/
theorem ofDescription_ok (hF : IgnoresLinks F) {create : NodeDescription → Attempt (Node β)}
    (hmade : ∀ d stamp n, ((create d).run stamp).result = .ok n → n.panel.IsDetached)
    {d : GraphDescription} {views : List γ} {links : List Link}
    (hnodes : List.Forall₂ (fun view d ↦ ∀ stamp, ∃ n, ((create d).run stamp).result = .ok n ∧
      n.name = d.instanceName ∧ F ⟨n.name, n⟩ = view) views d.nodes)
    (hnd : (d.nodes.map NodeDescription.instanceName).Nodup)
    (hlinks : d.links = links.map Link.description)
    (hports : ∀ k : Graph β, k.slots.map F = views → ∀ l ∈ links, ∀ side,
      ∃ p, k.port? side (l.place side) = some p ∧ p.dataType = l.dataType)
    (honce : ∀ e, links.countP (fun l ↦ l.target = e) ≤ 1) (factories : FactorySet) (stamp : Nat) :
    ∃ k, ((ofDescription create factories d).run stamp).result = .ok k ∧ k.slots.map F = views ∧
      k.links.map Link.unnumbered = links.map Link.unnumbered ∧ k.name = d.name := by
  obtain ⟨g, hg, hslots, hnolinks, hname⟩ :=
    addDescribed_ok (g := { name := d.name, factories }) hnodes hnd stamp
  have hwell := ((assembled_addDescribed hmade d.nodes (.empty d.name factories) rfl hg).1).wellLinked
    (fun _ hn ↦ hn)
  have hnone : g.links = [] := hnolinks
  obtain ⟨k, hk, hslots', hlinks', hname'⟩ := hwell.linkDescribed_ok hF links
    (by simp [hnone]) (fun k hk ↦ hports k (hk.trans hslots)) (by simpa [hnone] using honce)
  refine ⟨{ k with isModified := false }, ?_, hslots'.trans hslots, ?_, hname'.trans hname⟩
  · rw [ofDescription, Attempt.run_bind_of_ok hg, hlinks, Attempt.run_bind_of_ok hk]
    rfl
  · rwa [hnone, List.nil_append] at hlinks'

end Graph

end PortGraph
