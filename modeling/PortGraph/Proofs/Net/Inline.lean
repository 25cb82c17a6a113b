import PortGraph.Proofs.Graph.Relocated
import PortGraph.Proofs.Net.Verdict

/-!
# A net in the place of the node that holds it

A net may be taken out of its node and put in the node's place: its nodes stand beside those of the
outer net under new names, and what was linked to a port of the node is linked to the inner port
that the port stands for.  `Net.Inlines` says that a flat net is what comes of that.  It is asked
neither in which order its nodes and links were made, nor what was on its outputs before.

If the outer net compiles, then so does the flat one (`Net.Unfolds.verdict`).  A cycle of its links
either keeps to the nodes that were in the node, or leads round through the node in the outer net;
and an inner input that must be supplied has a link, or else the input that stands for it must be
supplied as well.
-/

set_option autoImplicit false

namespace PortGraph

open PortGraph.Graph

/-! ## What takes the place of a node -/

theorem Endpoint.eq_of {e e' : Endpoint} (hnode : e.node = e'.node) (hport : e.port = e'.port) :
    e = e' := by
  cases e
  cases e'
  rw [Endpoint.mk.injEq]
  exact ⟨hnode, hport⟩

/-- Where a port is found once the net in a node took the place of the node: a port of the node is
the inner port that it stands for. -/
def Node.inlined (n : Node Behaviour) (ρ : String → String) (side : Direction) (e : Endpoint) :
    Endpoint :=
  if e.node = n.name then ((n.binding? side e.port).map (Endpoint.relocate ρ)).getD e else e

/-- The output and the input that a link joins. -/
def Link.ends (l : Link) : Endpoint × Endpoint := (l.source, l.target)

/-- The one node is made like the other: it has the same ports and computes with the same. -/
structure Node.IsCopy (m n : Node Behaviour) : Prop where
  /-- The ports are the same. -/
  ports : ∀ side, (m.panel.ports side).map Port.declared = (n.panel.ports side).map Port.declared
  /-- What is behind the panel has the same form. -/
  behaviour : m.behaviour.through .form = n.behaviour.through .form

/-- **The flat net `f` is the net `g` with the net `h` in the place of the node `n` that holds it.**
The inner nodes take the names that `ρ` gives them. -/
structure Net.Inlines (ρ : String → String) (n : Node Behaviour) (h g f : Net) : Prop where
  /-- There are the nodes of the outer net but for the one, and the inner ones. -/
  names : f.nodeNames.Perm (g.nodeNames.filter (· ≠ n.name) ++ h.nodeNames.map ρ)
  /-- The outer nodes are what they are in the outer net. -/
  outer : ∀ name m, name ≠ n.name → g.node? name = some m →
    ∃ m', f.node? name = some m' ∧ m'.IsCopy m
  /-- The inner nodes are what they are in the inner net. -/
  inner : ∀ name m, h.node? name = some m → ∃ m', f.node? (ρ name) = some m' ∧ m'.IsCopy m
  /-- The links of the outer net are moved to inner ports, and the inner ones are there. -/
  links : (f.links.map Link.ends).Perm
    (g.links.map (fun l ↦ (n.inlined ρ .output l.source, n.inlined ρ .input l.target)) ++
      h.links.map fun l ↦ (l.source.relocate ρ, l.target.relocate ρ))
  /-- What the host put on an input of the outer net is moved likewise. -/
  values : ∀ e p, g.port? .input e = some p → p.isLinked = false →
    ∃ q, f.port? .input (n.inlined ρ .input e) = some q ∧
      q.stored.map Packet.value = p.stored.map Packet.value

theorem Graph.node_mem_of_port? {β : Type} {g : Graph β} {side : Direction} {e : Endpoint} {p : Port}
    (hp : g.port? side e = some p) : e.node ∈ g.nodeNames := by
  obtain ⟨m, hm, -⟩ := Option.bind_eq_some_iff.mp hp
  exact List.mem_map_of_mem (mem_of_node? hm)

theorem Node.IsCopy.exists_declared {m n : Node Behaviour} (h : m.IsCopy n) {side : Direction}
    {q : Port} (hq : q ∈ m.panel.ports side) :
    ∃ p ∈ n.panel.ports side, p.declared = q.declared := by
  have hmem : q.declared ∈ (n.panel.ports side).map Port.declared :=
    h.ports side ▸ List.mem_map_of_mem hq
  exact List.mem_map.mp hmem

/-- A copy gets ready if the copied node does. -/
theorem Node.IsCopy.verdict_eq {m n : Node Behaviour} (h : m.IsCopy n) :
    m.behaviour.verdict = n.behaviour.verdict := by
  have hshape := congrArg (Behaviour.through .shape) h.behaviour
  rw [Behaviour.through_through, Behaviour.through_through, Lens.shape_after_form] at hshape
  exact Behaviour.verdict_congr hshape

/-! ## Which inner port a port stands for -/

theorem Port.position?_eq_some_iff {ports : List Port} (hnd : (ports.map Port.name).Nodup)
    {name : String} {i : Nat} :
    position? name ports = some i ↔ ∃ p, ports[i]? = some p ∧ p.name = name := by
  rw [position?, List.findIdx?_eq_some_iff_getElem]
  constructor
  · rintro ⟨hi, hname, -⟩
    exact ⟨_, List.getElem?_eq_getElem hi, of_decide_eq_true hname⟩
  · rintro ⟨p, hp, rfl⟩
    obtain ⟨hi, rfl⟩ := List.getElem?_eq_some_iff.mp hp
    refine ⟨hi, decide_eq_true rfl, fun j hj hname ↦ ?_⟩
    have hsame : (ports.map Port.name)[j]? = (ports.map Port.name)[i]? := by
      rw [List.getElem?_map, List.getElem?_map, List.getElem?_eq_getElem (Nat.lt_trans hj hi),
        List.getElem?_eq_getElem hi, Option.map_some, Option.map_some, of_decide_eq_true hname]
    have hlt : j < (ports.map Port.name).length := by
      rw [List.length_map]
      exact Nat.lt_trans hj hi
    exact absurd ((List.getElem?_inj hlt hnd).mp hsame) (Nat.ne_of_lt hj)

section Binding

variable {n : Node Behaviour} {h k : Net} {inputs outputs : List Endpoint} {side : Direction}

/-- A port stands for the place at its own position. -/
theorem Node.binding?_of_getElem? (places : Direction → List Endpoint)
    (hb : n.behaviour = .nested k (places .input) (places .output))
    (hnd : ((n.panel.ports side).map Port.name).Nodup) {i : Nat} {q : Port}
    (hq : (n.panel.ports side)[i]? = some q) : n.binding? side q.name = (places side)[i]? := by
  rw [binding?, hb]
  dsimp only
  rw [Panel.position?, (Port.position?_eq_some_iff hnd).mpr ⟨q, hq, rfl⟩]
  cases side <;> rfl

/-- A port stands for the inner port at its own position. -/
theorem Node.binding?_eq_some_iff (hb : n.behaviour = .nested k inputs outputs)
    (hm : n.panel.Mirrors h inputs outputs) (hnd : ((n.panel.ports side).map Port.name).Nodup)
    {port : String} {e : Endpoint} :
    n.binding? side port = some e ↔ ∃ (i : Nat) (q : Port), (n.panel.ports side)[i]? = some q ∧
      q.name = port ∧ ((h.openPorts side).map Prod.fst)[i]? = some e := by
  have hplaces : n.binding? side port = (n.panel.position? side port).bind
      fun i ↦ ((h.openPorts side).map Prod.fst)[i]? := by
    rw [binding?, hb]
    cases side with
    | input => rw [← hm.inputPlaces]
    | output => rw [← hm.outputPlaces]
  rw [hplaces, Option.bind_eq_some_iff]
  simp only [Panel.position?, Port.position?_eq_some_iff hnd]
  constructor
  · rintro ⟨i, ⟨q, hq, hname⟩, he⟩
    exact ⟨i, q, hq, hname, he⟩
  · rintro ⟨i, q, hq, hname, he⟩
    exact ⟨i, ⟨q, hq, hname⟩, he⟩

/-- A port stands for an open inner port that is made like it. -/
theorem Node.exists_binding (hb : n.behaviour = .nested k inputs outputs)
    (hm : n.panel.Mirrors h inputs outputs) (hnd : ((n.panel.ports side).map Port.name).Nodup)
    (hh : h.WellLinked) {q : Port} (hq : q ∈ n.panel.ports side) :
    ∃ e p, n.binding? side q.name = some e ∧ h.port? side e = some p ∧ p.isLinked = false ∧
      q.declared = p.declared.mirrored side q.name := by
  obtain ⟨i, hi⟩ := List.mem_iff_getElem?.mp hq
  have hall := hm.forall₂ side
  have hlt := hall.length_eq ▸ (List.getElem?_eq_some_iff.mp hi).1
  obtain ⟨s, hs, p, hp, hfree, ho⟩ := Net.openPorts_port _ (List.getElem_mem hlt)
  have hport := hh.port?_of_mem hs hp
  have hplace : ((h.openPorts side).map Prod.fst)[i]? = some ⟨s.key, p.name⟩ := by
    rw [List.getElem?_map, List.getElem?_eq_getElem hlt, ho, Option.map_some]
  obtain ⟨q', hq', hdeclared⟩ := hm.getElem? hh hport hplace
  obtain rfl : q = q' := Option.some.inj (hi.symm.trans hq')
  exact ⟨_, p, (binding?_eq_some_iff hb hm hnd).mpr ⟨i, q, hi, rfl, hplace⟩, hport, hfree, hdeclared⟩

/-- A port stands for every open inner port. -/
theorem Node.exists_bound (hb : n.behaviour = .nested k inputs outputs)
    (hm : n.panel.Mirrors h inputs outputs) (hnd : ((n.panel.ports side).map Port.name).Nodup)
    (hh : h.WellLinked) {e : Endpoint} {p : Port} (hp : h.port? side e = some p)
    (hfree : p.isLinked = false) :
    ∃ q ∈ n.panel.ports side, n.binding? side q.name = some e ∧
      q.declared = p.declared.mirrored side q.name := by
  obtain ⟨s, hs, hmem, rfl⟩ := hh.exists_slot hp
  obtain ⟨i, hi⟩ := List.mem_iff_getElem?.mp ((Net.mem_openPorts_iff hh hs hmem).mpr hfree)
  obtain ⟨q, hq, hdeclared⟩ := hm.getElem? hh hp hi
  exact ⟨q, List.mem_of_getElem? hq, (binding?_eq_some_iff hb hm hnd).mpr ⟨i, q, hq, rfl, hi⟩,
    hdeclared⟩

/-- No two ports stand for one inner port. -/
theorem Node.binding?_inj (hb : n.behaviour = .nested k inputs outputs)
    (hm : n.panel.Mirrors h inputs outputs) (hnd : ((n.panel.ports side).map Port.name).Nodup)
    (hh : h.WellLinked) {a b : String} {e : Endpoint} (ha : n.binding? side a = some e)
    (hb' : n.binding? side b = some e) : a = b := by
  obtain ⟨i, p, hp, rfl, hi⟩ := (binding?_eq_some_iff hb hm hnd).mp ha
  obtain ⟨j, q, hq, rfl, hj⟩ := (binding?_eq_some_iff hb hm hnd).mp hb'
  obtain rfl : i = j := (List.getElem?_inj (List.getElem?_eq_some_iff.mp hi).1
    (Net.nodup_openPorts hh side)).mp (hi.trans hj.symm)
  rw [Option.some.inj (hp.symm.trans hq)]

end Binding

/-! ## The nodes and links of a flat net -/

namespace Net

/-- **A flat net, with what is known of the nets that it comes from.**  The net in the node may have
been called since: only its form matters. -/
structure Unfolds (ρ : String → String) (n : Node Behaviour) (h g f : Net) : Prop where
  /-- It is what comes of the outer net. -/
  inlines : Inlines ρ n h g f
  /-- The outer net is well-linked. -/
  outer : g.WellLinked
  /-- The inner net is well-linked. -/
  inner : h.WellLinked
  /-- It is well-linked itself. -/
  flat : f.WellLinked
  /-- The node is one of the outer net. -/
  node : g.node? n.name = some n
  /-- Its ports stand for those of the inner net. -/
  bound : ∃ k inputs outputs, n.behaviour = .nested k inputs outputs ∧
    n.panel.Mirrors h inputs outputs

namespace Unfolds

variable {ρ : String → String} {n : Node Behaviour} {h g f : Net}

theorem nodup (u : Unfolds ρ n h g f) (side : Direction) :
    ((n.panel.ports side).map Port.name).Nodup :=
  (u.outer.regular _ (mem_of_node? u.node)).ports_nodup side

theorem names_nodup (u : Unfolds ρ n h g f) :
    (g.nodeNames.filter (· ≠ n.name) ++ h.nodeNames.map ρ).Nodup :=
  u.inlines.names.nodup_iff.mp u.flat.keys_nodup

/-- Inner nodes keep different names. -/
theorem inj (u : Unfolds ρ n h g f) {a b : String} (ha : a ∈ h.nodeNames) (hb : b ∈ h.nodeNames)
    (hab : ρ a = ρ b) : a = b :=
  List.inj_on_of_nodup_map u.names_nodup.of_append_right ha hb hab

theorem relocate_inj (u : Unfolds ρ n h g f) {e e' : Endpoint} (he : e.node ∈ h.nodeNames)
    (he' : e'.node ∈ h.nodeNames) (heq : e.relocate ρ = e'.relocate ρ) : e = e' :=
  Endpoint.eq_of (u.inj he he' (congrArg (·.node) heq))
    (congrArg (·.port) heq : (e.relocate ρ).port = (e'.relocate ρ).port)

/-- No inner node has the name of an outer one. -/
theorem ne (u : Unfolds ρ n h g f) {a b : String} (ha : a ∈ g.nodeNames) (han : a ≠ n.name)
    (hb : b ∈ h.nodeNames) : a ≠ ρ b := by
  intro hab
  refine (List.nodup_append.mp u.names_nodup).2.2 a ?_ (ρ b) (List.mem_map_of_mem hb) hab
  exact List.mem_filter.mpr ⟨ha, decide_eq_true han⟩

theorem mem_cases (u : Unfolds ρ n h g f) {v : String} (hv : v ∈ f.nodeNames) :
    (v ∈ g.nodeNames ∧ v ≠ n.name) ∨ ∃ a ∈ h.nodeNames, v = ρ a := by
  rcases List.mem_append.mp (u.inlines.names.subset hv) with hv | hv
  · obtain ⟨hv, hne⟩ := List.mem_filter.mp hv
    exact .inl ⟨hv, of_decide_eq_true hne⟩
  · obtain ⟨a, ha, rfl⟩ := List.mem_map.mp hv
    exact .inr ⟨a, ha, rfl⟩

/-- A port of the node is found at the inner port that it stands for. -/
theorem inlined_of_binding {side : Direction} {port : String} {e : Endpoint}
    (he : n.binding? side port = some e) : n.inlined ρ side ⟨n.name, port⟩ = e.relocate ρ := by
  rw [Node.inlined, if_pos rfl, he]
  rfl

theorem inlined_of_ne {side : Direction} {e : Endpoint} (he : e.node ≠ n.name) :
    n.inlined ρ side e = e := if_neg he

/-- Where a port of the outer net is found: in its place, or at an open inner port. -/
theorem inlined_cases (u : Unfolds ρ n h g f) {side : Direction} {e : Endpoint} {p : Port}
    (hp : g.port? side e = some p) :
    (e.node ∈ g.nodeNames ∧ e.node ≠ n.name ∧ n.inlined ρ side e = e) ∨
    ∃ e' q, e.node = n.name ∧ p ∈ n.panel.ports side ∧ n.binding? side p.name = some e' ∧
      n.inlined ρ side e = e'.relocate ρ ∧ h.port? side e' = some q ∧ q.isLinked = false ∧
      p.declared = q.declared.mirrored side p.name := by
  obtain ⟨m, hm, hport⟩ := Option.bind_eq_some_iff.mp hp
  by_cases hne : e.node = n.name
  · rw [hne, u.node, Option.some.injEq] at hm
    subst hm
    obtain ⟨hmem, hname⟩ := Port.mem_of_named? hport
    obtain ⟨k, inputs, outputs, hb, hmirrors⟩ := u.bound
    obtain ⟨e', q, he', hq, hfree, hdeclared⟩ :=
      Node.exists_binding hb hmirrors (u.nodup side) u.inner hmem
    refine .inr ⟨e', q, hne, hmem, he', ?_, hq, hfree, hdeclared⟩
    rw [← inlined_of_binding he', hname, ← hne]
  · exact .inl ⟨List.mem_map_of_mem (mem_of_node? hm), hne, inlined_of_ne hne⟩

/-- Every open inner input is found where an input of the node is. -/
theorem exists_bound (u : Unfolds ρ n h g f) {side : Direction} {e : Endpoint} {p : Port}
    (hp : h.port? side e = some p) (hfree : p.isLinked = false) :
    ∃ q ∈ n.panel.ports side, n.binding? side q.name = some e ∧
      n.inlined ρ side ⟨n.name, q.name⟩ = e.relocate ρ ∧
      q.declared = p.declared.mirrored side q.name := by
  obtain ⟨k, inputs, outputs, hb, hm⟩ := u.bound
  obtain ⟨q, hq, hbinding, hdeclared⟩ := Node.exists_bound hb hm (u.nodup side) u.inner hp hfree
  exact ⟨q, hq, hbinding, inlined_of_binding hbinding, hdeclared⟩

/-- Different ports of the outer net are found at different places. -/
theorem inlined_inj (u : Unfolds ρ n h g f) {side : Direction} {e e' : Endpoint} {p p' : Port}
    (hp : g.port? side e = some p) (hp' : g.port? side e' = some p')
    (heq : n.inlined ρ side e = n.inlined ρ side e') : e = e' := by
  have hplace : ∀ {e p}, g.port? side e = some p → p.name = e.port := fun hp ↦ by
    obtain ⟨m, -, hport⟩ := Option.bind_eq_some_iff.mp hp
    exact (Port.mem_of_named? hport).2
  rcases u.inlined_cases hp with ⟨hg, hne, hsame⟩ | ⟨i, q, hnode, -, hi, hat, hq, -⟩ <;>
    rcases u.inlined_cases hp' with ⟨hg', hne', hsame'⟩ | ⟨i', q', hnode', -, hi', hat', hq', -⟩
  · rw [← hsame, heq, hsame']
  · rw [hsame, hat'] at heq
    exact absurd (congrArg Endpoint.node heq) (u.ne hg hne (node_mem_of_port? hq'))
  · rw [hat, hsame'] at heq
    exact absurd (congrArg Endpoint.node heq).symm (u.ne hg' hne' (node_mem_of_port? hq))
  · rw [hat, hat'] at heq
    obtain rfl := u.relocate_inj (node_mem_of_port? hq) (node_mem_of_port? hq') heq
    obtain ⟨k, inputs, outputs, hb, hm⟩ := u.bound
    have hname := Node.binding?_inj hb hm (u.nodup side) u.inner hi hi'
    rw [hplace hp, hplace hp'] at hname
    exact Endpoint.eq_of (hnode.trans hnode'.symm) hname

/-! ## Links -/

theorem link_cases (u : Unfolds ρ n h g f) {l : Link} (hl : l ∈ f.links) :
    (∃ k ∈ g.links, l.source = n.inlined ρ .output k.source ∧
      l.target = n.inlined ρ .input k.target) ∨
    ∃ k ∈ h.links, l.source = k.source.relocate ρ ∧ l.target = k.target.relocate ρ := by
  have hmem := u.inlines.links.subset (List.mem_map_of_mem (f := Link.ends) hl)
  refine (List.mem_append.mp hmem).imp (fun hmem ↦ ?_) fun hmem ↦ ?_
  · obtain ⟨k, hk, heq⟩ := List.mem_map.mp hmem
    exact ⟨k, hk, (congrArg Prod.fst heq).symm, (congrArg Prod.snd heq).symm⟩
  · obtain ⟨k, hk, heq⟩ := List.mem_map.mp hmem
    exact ⟨k, hk, (congrArg Prod.fst heq).symm, (congrArg Prod.snd heq).symm⟩

theorem exists_link (u : Unfolds ρ n h g f) {ends : Endpoint × Endpoint}
    (he : ends ∈ g.links.map (fun l ↦ (n.inlined ρ .output l.source, n.inlined ρ .input l.target)) ++
      h.links.map fun l ↦ (l.source.relocate ρ, l.target.relocate ρ)) :
    ∃ l ∈ f.links, l.source = ends.1 ∧ l.target = ends.2 := by
  obtain ⟨l, hl, rfl⟩ := List.mem_map.mp (u.inlines.links.symm.subset he)
  exact ⟨l, hl, rfl, rfl⟩

theorem exists_outer_link (u : Unfolds ρ n h g f) {k : Link} (hk : k ∈ g.links) :
    ∃ l ∈ f.links, l.source = n.inlined ρ .output k.source ∧
      l.target = n.inlined ρ .input k.target :=
  u.exists_link (List.mem_append_left _ (List.mem_map_of_mem hk))

theorem exists_inner_link (u : Unfolds ρ n h g f) {k : Link} (hk : k ∈ h.links) :
    ∃ l ∈ f.links, l.source = k.source.relocate ρ ∧ l.target = k.target.relocate ρ :=
  u.exists_link (List.mem_append_right _ (List.mem_map_of_mem hk))

/-! ## Acyclicity -/

/-- The node of the outer net that a node of the flat net belongs to. -/
def owner (n : Node Behaviour) (g : Net) (v : String) : String :=
  if v ∈ g.nodeNames then v else n.name

theorem owner_inner (u : Unfolds ρ n h g f) {a : String} (ha : a ∈ h.nodeNames) :
    owner n g (ρ a) = n.name := by
  rw [owner]
  split
  · -- an inner node may take the name of the node that held it
    rename_i hmem
    by_contra hne
    exact u.ne hmem hne ha rfl
  · rfl

theorem owner_inlined (u : Unfolds ρ n h g f) {side : Direction} {e : Endpoint} {p : Port}
    (hp : g.port? side e = some p) : owner n g (n.inlined ρ side e).node = e.node := by
  rcases u.inlined_cases hp with ⟨hmem, -, hat⟩ | ⟨i, q, hnode, -, -, hat, hq, -⟩
  · rw [hat, owner, if_pos hmem]
  · rw [hat, hnode]
    exact u.owner_inner (node_mem_of_port? hq)

/-- A link of the flat net is one between the owners, or it keeps to the inner net. -/
theorem feeds_cases (u : Unfolds ρ n h g f) {v w : String} (hf : f.Feeds v w) :
    g.Feeds (owner n g v) (owner n g w) ∨
    ∃ a b, v = ρ a ∧ w = ρ b ∧ h.Feeds a b := by
  obtain ⟨l, hl, rfl, rfl⟩ := hf
  rcases u.link_cases hl with ⟨k, hk, hs, ht⟩ | ⟨k, hk, hs, ht⟩
  · obtain ⟨p, hp, -⟩ := u.outer.exists_source hk
    obtain ⟨q, hq, -⟩ := u.outer.exists_target hk
    rw [hs, ht, u.owner_inlined hp, u.owner_inlined hq]
    exact .inl ⟨k, hk, rfl, rfl⟩
  · exact .inr ⟨k.source.node, k.target.node, congrArg Endpoint.node hs, congrArg Endpoint.node ht,
      k, hk, rfl, rfl⟩

/-- A chain of links of the flat net is one between the owners, or it keeps to the inner net. -/
theorem transGen_cases (u : Unfolds ρ n h g f) {v w : String}
    (hf : Relation.TransGen f.Feeds v w) :
    Relation.TransGen g.Feeds (owner n g v) (owner n g w) ∨
    ∃ a b, v = ρ a ∧ w = ρ b ∧ Relation.TransGen h.Feeds a b := by
  induction hf with
  | single hf =>
    refine (u.feeds_cases hf).imp .single ?_
    rintro ⟨a, b, hv, hw, hab⟩
    exact ⟨a, b, hv, hw, .single hab⟩
  | tail _ hf ih =>
    rcases ih with hout | ⟨a, b, rfl, rfl, hab⟩ <;>
      rcases u.feeds_cases hf with hnext | ⟨c, d, hc, rfl, hcd⟩
    · exact .inl (hout.tail hnext)
    · have hmem := hcd.mem u.inner
      rw [hc, u.owner_inner hmem.1] at hout
      rw [u.owner_inner hmem.2]
      exact .inl hout
    · have hmem := transGen_mem u.inner hab
      rw [u.owner_inner hmem.2] at hnext
      rw [u.owner_inner hmem.1]
      exact .inl (.single hnext)
    · obtain rfl := u.inj (transGen_mem u.inner hab).2 (hcd.mem u.inner).1 hc
      exact .inr ⟨a, d, rfl, rfl, hab.tail hcd⟩

/-- **Inlining makes no cycle.** -/
theorem acyclic (u : Unfolds ρ n h g f) (hg : ¬ g.IsCyclic) (hh : ¬ h.IsCyclic) :
    ¬ f.IsCyclic := by
  rintro ⟨v, hv⟩
  rcases u.transGen_cases hv with hout | ⟨a, b, rfl, hab, hin⟩
  · exact hg ⟨_, hout⟩
  · obtain ⟨ha, hb⟩ := transGen_mem u.inner hin
    obtain rfl := u.inj ha hb hab
    exact hh ⟨a, hin⟩

/-! ## Compiling -/

/-- Every node of the flat net is a copy of an outer one or of an inner one. -/
theorem slot_cases (u : Unfolds ρ n h g f) {s : Slot Behaviour} (hs : s ∈ f.slots) :
    (∃ r ∈ g.slots, s.key = r.key ∧ r.key ≠ n.name ∧ s.node.IsCopy r.node) ∨
    ∃ r ∈ h.slots, s.key = ρ r.key ∧ s.node.IsCopy r.node := by
  have hnode := u.flat.node?_of_mem hs
  rcases u.mem_cases (List.mem_map_of_mem hs) with ⟨hmem, hne⟩ | ⟨a, ha, hkey⟩
  · obtain ⟨r, hr, hkey⟩ := List.mem_map.mp hmem
    obtain ⟨m, hm, hcopy⟩ := u.inlines.outer r.key r.node (hkey ▸ hne) (u.outer.node?_of_mem hr)
    rw [hkey, hnode, Option.some.injEq] at hm
    exact .inl ⟨r, hr, hkey.symm, hkey ▸ hne, hm ▸ hcopy⟩
  · obtain ⟨r, hr, rfl⟩ := List.mem_map.mp ha
    obtain ⟨m, hm, hcopy⟩ := u.inlines.inner r.key r.node (u.inner.node?_of_mem hr)
    rw [← hkey, hnode, Option.some.injEq] at hm
    exact .inr ⟨r, hr, hkey, hm ▸ hcopy⟩

/-- An input has a link in the flat net if it has one in the outer net. -/
theorem isLinked_inlined (u : Unfolds ρ n h g f) {e : Endpoint} {p q : Port}
    (hp : g.port? .input e = some p) (hq : f.port? .input (n.inlined ρ .input e) = some q) :
    q.isLinked = p.isLinked := by
  rw [Bool.eq_iff_iff, u.flat.isLinked_iff hq, u.outer.isLinked_iff hp]
  constructor
  · rintro ⟨l, hl, ht⟩
    rcases u.link_cases hl with ⟨k, hk, -, hkt⟩ | ⟨k, hk, -, hkt⟩
    · obtain ⟨p', hp', -⟩ := u.outer.exists_target hk
      exact ⟨k, hk, u.inlined_inj hp' hp (hkt.symm.trans ht)⟩
    · -- a link of the inner net ends at no open port
      obtain ⟨p', hp', -, hlinked⟩ := u.inner.exists_target hk
      have hmem := node_mem_of_port? hp'
      have hat : k.target.relocate ρ = n.inlined ρ .input e := hkt.symm.trans ht
      rcases u.inlined_cases hp with ⟨hg, hne, hsame⟩ | ⟨i, o, -, -, -, hi, ho, hfree, -⟩
      · rw [hsame] at hat
        exact absurd (congrArg Endpoint.node hat).symm (u.ne hg hne hmem)
      · rw [hi] at hat
        rw [u.relocate_inj hmem (node_mem_of_port? ho) hat, ho, Option.some.injEq] at hp'
        rw [← hp', hfree] at hlinked
        exact absurd hlinked (by simp)
  · rintro ⟨k, hk, rfl⟩
    obtain ⟨l, hl, -, ht⟩ := u.exists_outer_link hk
    exact ⟨l, hl, ht⟩

/-- An inner input that has a link has one in the flat net. -/
theorem isLinked_relocate (u : Unfolds ρ n h g f) {e : Endpoint} {p q : Port}
    (hp : h.port? .input e = some p) (hlinked : p.isLinked = true)
    (hq : f.port? .input (e.relocate ρ) = some q) : q.isLinked = true := by
  obtain ⟨k, hk, rfl⟩ := (u.inner.isLinked_iff hp).mp hlinked
  obtain ⟨l, hl, -, ht⟩ := u.exists_inner_link hk
  exact (u.flat.isLinked_iff hq).mpr ⟨l, hl, ht⟩

/-- An input of the outer net that is supplied is supplied where it went. -/
theorem isSatisfied_inlined (u : Unfolds ρ n h g f) (ho : g.IsOutermost) {e : Endpoint} {p q : Port}
    (hp : g.port? .input e = some p) (hsat : p.isSatisfied = true)
    (hq : f.port? .input (n.inlined ρ .input e) = some q) : q.isSatisfied = true := by
  obtain ⟨r, hr, hmem, -⟩ := u.outer.exists_slot hp
  rw [Port.isSatisfied, ho r hr p hmem, Bool.or_false] at hsat
  rw [Port.isSatisfied, u.isLinked_inlined hp hq, hsat, Bool.true_or]

/-- What must be supplied is supplied in the flat net if it is in the other two. -/
theorem isSatisfied_of_isRequired (u : Unfolds ρ n h g f) (ho : g.IsOutermost)
    (hsupplied : ∀ s ∈ g.slots, ∀ p ∈ s.node.panel.inputs, p.isRequired = true → p.isSatisfied = true)
    {s : Slot Behaviour} (hs : s ∈ f.slots) {q : Port} (hq : q ∈ s.node.panel.inputs)
    (hrequired : q.isRequired = true) : q.isSatisfied = true := by
  have hport := u.flat.input?_of_mem hs hq
  rcases u.slot_cases hs with ⟨r, hr, hkey, hne, hcopy⟩ | ⟨r, hr, hkey, hcopy⟩
  · obtain ⟨p, hp, hdeclared⟩ := hcopy.exists_declared (show q ∈ s.node.panel.ports .input from hq)
    have hname : p.name = q.name := congrArg (·.name) hdeclared
    have hsat := hsupplied r hr p hp ((congrArg (·.isRequired) hdeclared).trans hrequired)
    refine u.isSatisfied_inlined ho (u.outer.port?_of_mem hr hp) hsat ?_
    rw [inlined_of_ne hne, ← hkey, hname]
    exact hport
  · obtain ⟨p, hp, hdeclared⟩ := hcopy.exists_declared (show q ∈ s.node.panel.ports .input from hq)
    have hname : p.name = q.name := congrArg (·.name) hdeclared
    have hrequired' : p.isRequired = true := (congrArg (·.isRequired) hdeclared).trans hrequired
    have hinner := u.inner.port?_of_mem hr hp
    have hport' : f.port? .input (Endpoint.relocate ρ ⟨r.key, p.name⟩) = some q := by
      rw [Endpoint.relocate, ← hkey, hname]
      exact hport
    cases hlinked : p.isLinked with
    | true =>
      rw [Port.isSatisfied, u.isLinked_relocate hinner hlinked hport', Bool.true_or]
    | false =>
      -- the input that stands for it must be supplied as well
      obtain ⟨o, hmem, -, hat, hmirror⟩ := u.exists_bound hinner hlinked
      have hneeded : o.isRequired = true :=
        (congrArg (·.isRequired) hmirror : o.isRequired = p.isRequired).trans hrequired'
      have hnode := mem_of_node? u.node
      exact u.isSatisfied_inlined ho (u.outer.port?_of_mem hnode hmem)
        (hsupplied _ hnode o hmem hneeded) (hat ▸ hport')

/-- **The flat net compiles if the outer net and the inner one do.** -/
theorem verdict (u : Unfolds ρ n h g f) (ho : g.IsOutermost) (hg : g.verdict = .ok ())
    (hh : h.verdict = .ok ()) : f.verdict = .ok () := by
  obtain ⟨hgplan, hgnodes⟩ := (verdict_eq_ok_iff u.outer).mp hg
  obtain ⟨hhplan, hhnodes⟩ := (verdict_eq_ok_iff u.inner).mp hh
  obtain ⟨hgacyclic, hgsupplied⟩ := u.outer.exists_plan_iff.mp hgplan
  obtain ⟨hhacyclic, -⟩ := u.inner.exists_plan_iff.mp hhplan
  refine (verdict_eq_ok_iff u.flat).mpr ⟨u.flat.exists_plan_iff.mpr
    ⟨u.acyclic hgacyclic hhacyclic, fun s hs q hq hrequired ↦
      u.isSatisfied_of_isRequired ho hgsupplied hs hq hrequired⟩, fun s hs ↦ ?_⟩
  rcases u.slot_cases hs with ⟨r, hr, -, -, hcopy⟩ | ⟨r, hr, -, hcopy⟩
  · exact hcopy.verdict_eq.trans (hgnodes r hr)
  · exact hcopy.verdict_eq.trans (hhnodes r hr)

end Unfolds

end Net

end PortGraph
