import PortGraph.Proofs.Net.Create
import PortGraph.Proofs.Graph.Turns
import PortGraph.Proofs.Net.Rebuilt

/-!
# Which descriptions are loaded

A net is loaded by making its nodes and links one after the other, each checked against what is
there already.  Yet whether all of it succeeds can be read off the description without an order
(`GraphDescription.IsWellFormed`), as long as the ports of a node are told by its description: names
are distinct, every node can be made, links lead between ports that are there and carry the same,
and no two links end at one input (`Graph.exists_ofDescription_iff`).  The net that is loaded has
the described nodes and links in the described order (`FactorySet.describes_ofDescription`).

Factories are taken with any makers here (`FactorySet.createWith`).
-/

set_option autoImplicit false

namespace PortGraph

/-! ## Steady factories -/

/-- What a port carries, if it is there. -/
def Panel.carried? (panel : Panel) (side : Direction) (name : String) : Option DataType :=
  (panel.port? side name).map Port.dataType

/-- Whether a node can be made of a description. -/
def NodeDescription.Makes {β : Type} (create : NodeDescription → Attempt (Node β))
    (d : NodeDescription) (n : Node β) : Prop :=
  ∃ stamp, ((create d).run stamp).result = .ok n

/-- **Whether a node is made, and what its ports carry, is told by its description**, and no link
ends at a node that was just made. -/
structure IsSteady {β : Type} (create : NodeDescription → Attempt (Node β)) : Prop where
  /-- A node that can be made is made at any time, with ports that carry the same. -/
  alike : ∀ (d : NodeDescription) (n : Node β), d.Makes create n → ∀ stamp,
    ∃ m, ((create d).run stamp).result = .ok m ∧
      ∀ side name, m.panel.carried? side name = n.panel.carried? side name
  /-- Its inputs have no links. -/
  free : ∀ (d : NodeDescription) (n : Node β), d.Makes create n →
    ∀ p ∈ n.panel.inputs, p.isLinked = false

/-- Nodes are made under the described names. -/
def IsNaming {β : Type} (create : NodeDescription → Attempt (Node β)) : Prop :=
  ∀ (d : NodeDescription) (n : Node β), d.Makes create n → n.name = d.instanceName

theorem Node.carried?_labelled {β : Type} (n : Node β) (d : NodeDescription) (side : Direction)
    (name : String) : (n.labelled d).panel.carried? side name = n.panel.carried? side name := by
  cases side <;> rfl

/-- Factories are steady if their makers are. -/
theorem FactorySet.isSteady_createWith {β : Type} {set : FactorySet}
    {make : FactoryEntry → NodeDescription → Attempt (Node β)}
    (h : ∀ model entry, set.find? model = some entry → IsSteady (make entry)) :
    IsSteady (set.createWith make) where
  alike := by
    rintro d n ⟨stamp, hn⟩ stamp'
    obtain ⟨entry, m, hf, hm, rfl⟩ := createWith_eq_ok hn
    obtain ⟨m', hm', hports⟩ := (h _ entry hf).alike d m ⟨stamp, hm⟩ stamp'
    refine ⟨m'.labelled d, createWith_of_find? hf hm', fun side name ↦ ?_⟩
    rw [Node.carried?_labelled, Node.carried?_labelled, hports]
  free := by
    rintro d n ⟨stamp, hn⟩
    obtain ⟨entry, m, hf, hm, rfl⟩ := createWith_eq_ok hn
    exact (h _ entry hf).free d m ⟨stamp, hm⟩

theorem FactorySet.isNaming_createWith {β : Type} (set : FactorySet)
    (make : FactoryEntry → NodeDescription → Attempt (Node β)) :
    IsNaming (set.createWith make) := by
  rintro d n ⟨stamp, hn⟩
  obtain ⟨-, m, -, -, rfl⟩ := createWith_eq_ok hn
  rfl

/-! ## Well-formed descriptions -/

/-- The output that a described link starts at. -/
def LinkDescription.source (l : LinkDescription) : Endpoint := ⟨l.outNode, l.outPort⟩

/-- The input that a described link ends at. -/
def LinkDescription.target (l : LinkDescription) : Endpoint := ⟨l.inNode, l.inPort⟩

namespace GraphDescription

variable {β : Type}

/-- A described node has a port that carries a type. -/
def Offers (create : NodeDescription → Attempt (Node β)) (d : GraphDescription) (side : Direction)
    (place : Endpoint) (t : DataType) : Prop :=
  ∃ n ∈ d.nodes, n.instanceName = place.node ∧
    ∃ m, n.Makes create m ∧ m.panel.carried? side place.port = some t

/-- **What a description must be like to be loaded.** -/
structure IsWellFormed (create : NodeDescription → Attempt (Node β)) (d : GraphDescription) :
    Prop where
  /-- The nodes have different names. -/
  names : (d.nodes.map NodeDescription.instanceName).Nodup
  /-- Each of them can be made. -/
  nodes : ∀ n ∈ d.nodes, ∃ m, n.Makes create m
  /-- Links lead from outputs to inputs of the nodes that carry the same. -/
  ends : ∀ l ∈ d.links, ∃ t, d.Offers create .output l.source t ∧ d.Offers create .input l.target t
  /-- No two links end at one input. -/
  once : (d.links.map LinkDescription.target).Nodup

/-- The order of the nodes and links does not matter. -/
theorem IsWellFormed.of_perm {create : NodeDescription → Attempt (Node β)} {d d' : GraphDescription}
    (h : d.IsWellFormed create) (hn : d.nodes.Perm d'.nodes) (hl : d.links.Perm d'.links) :
    d'.IsWellFormed create where
  names := (hn.map _).nodup_iff.mp h.names
  nodes n hm := h.nodes n (hn.mem_iff.mpr hm)
  ends l hm := by
    have hoffers : ∀ side place t, d.Offers create side place t → d'.Offers create side place t :=
      fun side place t ⟨n, hmem, hoffer⟩ ↦ ⟨n, hn.mem_iff.mp hmem, hoffer⟩
    obtain ⟨t, hsource, htarget⟩ := h.ends l (hl.mem_iff.mpr hm)
    exact ⟨t, hoffers _ _ t hsource, hoffers _ _ t htarget⟩
  once := (hl.map _).nodup_iff.mp h.once

end GraphDescription

namespace Graph

variable {β : Type} {create : NodeDescription → Attempt (Node β)} {g k : Graph β} {stamp : Nat}

/-! ## Nodes -/

theorem addDescribed_cons_eq_ok_iff {d : NodeDescription} {ds : List NodeDescription} :
    ((addDescribed create (d :: ds) g).run stamp).result = .ok k ↔
      ∃ n, ((create d).run stamp).result = .ok n ∧ n.name ∉ g.nodeNames ∧
        ((addDescribed create ds (g.pushNode n)).run
          (g.addNode n ((create d).run stamp).stamp).stamp).result = .ok k := by
  rw [addDescribed]
  constructor
  · intro h
    obtain ⟨n, hn, h⟩ := Attempt.of_bind_eq_ok h
    obtain ⟨g', hg', h⟩ := Attempt.of_bind_eq_ok h
    obtain ⟨_, hadd, hstamp⟩ := attempt_eq_ok hg'
    obtain ⟨hnew, rfl⟩ := addNode_eq_ok hadd
    rw [hstamp] at h
    exact ⟨n, hn, hnew, h⟩
  · rintro ⟨n, hn, hnew, h⟩
    have hadd := addNode_of_new hnew ((create d).run stamp).stamp
    have hrun := run_attempt_of_ok (congrArg Prod.fst hadd)
    rw [hadd] at hrun
    rw [Attempt.run_bind_of_ok hn, Attempt.run_bind_of_ok hrun.1, hrun.2]
    exact h

/-- **Described nodes are added** just when all of them can be made and their names are new. -/
theorem exists_addDescribed_iff (hs : IsSteady create) (hname : IsNaming create)
    {ds : List NodeDescription} (hg : g.nodeNames.Nodup) :
    (∃ k, ((addDescribed create ds g).run stamp).result = .ok k) ↔
      (∀ d ∈ ds, ∃ n, d.Makes create n) ∧
        (g.nodeNames ++ ds.map NodeDescription.instanceName).Nodup := by
  induction ds generalizing g stamp with
  | nil => exact ⟨fun _ ↦ ⟨by simp, by simpa using hg⟩, fun _ ↦ ⟨g, rfl⟩⟩
  | cons d ds ih =>
    have hpush : ∀ n : Node β, n.name = d.instanceName →
        (g.pushNode n).nodeNames ++ ds.map NodeDescription.instanceName =
          g.nodeNames ++ (d :: ds).map NodeDescription.instanceName := by
      intro n hn
      rw [nodeNames_pushNode, List.append_assoc, hn]
      rfl
    have hnodup : ∀ n : Node β, n.name ∉ g.nodeNames → (g.pushNode n).nodeNames.Nodup := by
      intro n hn
      rw [nodeNames_pushNode, ← List.concat_eq_append]
      exact hg.concat hn
    constructor
    · rintro ⟨k, hk⟩
      obtain ⟨n, hn, hnew, hk⟩ := addDescribed_cons_eq_ok_iff.mp hk
      obtain ⟨hmade, hnd⟩ := (ih (hnodup n hnew)).mp ⟨k, hk⟩
      rw [hpush n (hname d n ⟨stamp, hn⟩)] at hnd
      exact ⟨List.forall_mem_cons.mpr ⟨⟨n, stamp, hn⟩, hmade⟩, hnd⟩
    · rintro ⟨hmade, hnd⟩
      obtain ⟨⟨m, hm⟩, hmade⟩ := List.forall_mem_cons.mp hmade
      obtain ⟨n, hn, -⟩ := hs.alike d m hm stamp
      have hn' := hname d n ⟨stamp, hn⟩
      have hnew : n.name ∉ g.nodeNames := fun hmem ↦
        (List.nodup_append.mp hnd).2.2 _ hmem _ List.mem_cons_self hn'
      obtain ⟨k, hk⟩ := (ih (hnodup n hnew)).mpr ⟨hmade, hpush n hn' ▸ hnd⟩
      exact ⟨k, addDescribed_cons_eq_ok_iff.mpr ⟨n, hn, hnew, hk⟩⟩

/-- The nodes that were added are those that were made, in the described order. -/
theorem addDescribed_eq_ok {ds : List NodeDescription} (hg : g.nodeNames.Nodup)
    (h : ((addDescribed create ds g).run stamp).result = .ok k) :
    k.nodeNames.Nodup ∧ k.links = g.links ∧ k.name = g.name ∧ ∃ slots, k.slots = g.slots ++ slots ∧
      List.Forall₂ (fun d s ↦ s.key = s.node.name ∧ d.Makes create s.node) ds slots := by
  induction ds generalizing g stamp with
  | nil =>
    obtain rfl : g = k := Except.ok.inj h
    exact ⟨hg, rfl, rfl, [], (List.append_nil _).symm, .nil⟩
  | cons d ds ih =>
    obtain ⟨n, hn, hnew, h⟩ := addDescribed_cons_eq_ok_iff.mp h
    have hnodup : (g.pushNode n).nodeNames.Nodup := by
      rw [nodeNames_pushNode, ← List.concat_eq_append]
      exact hg.concat hnew
    obtain ⟨hk, hlinks, hkname, slots, hslots, hall⟩ := ih hnodup h
    refine ⟨hk, hlinks, hkname, ⟨n.name, n⟩ :: slots, ?_, .cons ⟨rfl, stamp, hn⟩ hall⟩
    rw [hslots, pushNode, List.append_assoc]
    rfl

/-! ## Links -/

/-- What the port of an endpoint carries, if it is there. -/
def carried? (g : Graph β) (side : Direction) (e : Endpoint) : Option DataType :=
  (g.port? side e).map Port.dataType

theorem carried?_eq_some_iff {side : Direction} {e : Endpoint} {t : DataType} :
    g.carried? side e = some t ↔ ∃ p, g.port? side e = some p ∧ p.dataType = t :=
  Option.map_eq_some_iff

/-- An input has a link just when one of the links ends there. -/
def TellsLinked (g : Graph β) : Prop :=
  ∀ e p, g.port? .input e = some p → (p.isLinked = true ↔ e ∈ g.links.map Link.target)

/-- What a new link needs. -/
theorem TellsLinked.linkType_eq_ok_iff (hg : g.TellsLinked) {source target : Endpoint}
    {t : DataType} : g.linkType source target = .ok t ↔
      g.carried? .output source = some t ∧ g.carried? .input target = some t ∧
        target ∉ g.links.map Link.target := by
  constructor
  · intro h
    obtain ⟨p, q, hp, hq, hpt, hqt, hfree⟩ := linkType_eq_ok h
    refine ⟨carried?_eq_some_iff.mpr ⟨p, hp, hpt⟩, carried?_eq_some_iff.mpr ⟨q, hq, hqt⟩,
      fun hm ↦ ?_⟩
    have hlinked := (hg target q hq).mpr hm
    rw [Port.isLinked, hfree] at hlinked
    exact absurd hlinked (by simp)
  · rintro ⟨hp, hq, hfree⟩
    obtain ⟨p, hp, hpt⟩ := carried?_eq_some_iff.mp hp
    obtain ⟨q, hq, hqt⟩ := carried?_eq_some_iff.mp hq
    have hlinked : q.isLinked = false :=
      Bool.eq_false_iff.mpr fun hl ↦ hfree ((hg target q hq).mp hl)
    exact hqt ▸ linkType_of_ports hp hq (hpt.trans hqt.symm) hlinked

theorem port?_insertLink (g : Graph β) (l : Link) (side : Direction) (e : Endpoint) :
    (g.insertLink l).port? side e =
      if e = l.place side then (g.port? side e).map (atEnd Port.attach side)
      else g.port? side e :=
  port?_changeEnds Port.attach_name l side e

theorem carried?_insertLink (g : Graph β) (l : Link) (side : Direction) (e : Endpoint) :
    (g.insertLink l).carried? side e = g.carried? side e := by
  rw [carried?, port?_insertLink]
  split
  · rw [Option.map_map]
    exact congrArg (Option.map · _) (funext fun p ↦ atEnd_dataType Port.attach side p)
  · rfl

theorem targets_insertLink (g : Graph β) (l : Link) :
    (g.insertLink l).links.map Link.target = g.links.map Link.target ++ [l.target] :=
  List.map_append

theorem TellsLinked.insertLink (hg : g.TellsLinked) (l : Link) : (g.insertLink l).TellsLinked := by
  intro e p hp
  rw [targets_insertLink, List.mem_append, List.mem_singleton]
  rw [port?_insertLink] at hp
  split at hp
  · rename_i he
    obtain ⟨q, -, rfl⟩ := Option.map_eq_some_iff.mp hp
    have hlinked : (atEnd Port.attach .input q).isLinked = true :=
      decide_eq_true (Nat.succ_pos q.linkCount)
    exact ⟨fun _ ↦ .inr he, fun _ ↦ hlinked⟩
  · rename_i he
    rw [hg e p hp]
    exact ⟨.inl, fun h ↦ h.resolve_right he⟩

theorem linkDescribed_cons_eq_ok_iff {d : LinkDescription} {ds : List LinkDescription} :
    ((linkDescribed (d :: ds) g).run stamp).result = .ok k ↔
      ∃ t, g.linkType d.source d.target = .ok t ∧
        ((linkDescribed ds (g.insertLink ⟨⟨stamp + 1⟩, d.source, d.target, t⟩)).run
          (stamp + 1)).result = .ok k := by
  constructor
  · intro h
    rw [linkDescribed] at h
    obtain ⟨g', hg', h⟩ := Attempt.of_bind_eq_ok h
    obtain ⟨id, hadd, hstamp⟩ := attempt_eq_ok hg'
    obtain ⟨hnext, t, ht, rfl⟩ := addLink_eq_ok hadd
    rw [hstamp, hnext] at h
    exact ⟨t, ht, h⟩
  · rintro ⟨t, ht, h⟩
    exact (run_linkDescribed_cons (l := ⟨.nil, d.source, d.target, t⟩) ht ds stamp).trans h

/-- **Described links are made** just when they lead between ports that carry the same, and end at
different inputs that had no link. -/
theorem TellsLinked.exists_linkDescribed_iff (hg : g.TellsLinked) {ds : List LinkDescription}
    (hnd : (g.links.map Link.target).Nodup) :
    (∃ k, ((linkDescribed ds g).run stamp).result = .ok k) ↔
      (∀ d ∈ ds, ∃ t, g.carried? .output d.source = some t ∧ g.carried? .input d.target = some t) ∧
        (g.links.map Link.target ++ ds.map LinkDescription.target).Nodup := by
  induction ds generalizing g stamp with
  | nil => exact ⟨fun _ ↦ ⟨by simp, by simpa using hnd⟩, fun _ ↦ ⟨g, rfl⟩⟩
  | cons d ds ih =>
    -- the link that is made now counts as one of those that were there
    have hinsert : ∀ l : Link, l.target = d.target →
        (g.insertLink l).links.map Link.target ++ ds.map LinkDescription.target =
          g.links.map Link.target ++ (d :: ds).map LinkDescription.target := by
      intro l hl
      rw [targets_insertLink, List.append_assoc, hl]
      rfl
    have hnodup : ∀ l : Link, l.target ∉ g.links.map Link.target →
        ((g.insertLink l).links.map Link.target).Nodup := by
      intro l hl
      rw [targets_insertLink, ← List.concat_eq_append]
      exact hnd.concat hl
    constructor
    · rintro ⟨k, hk⟩
      obtain ⟨t, ht, hk⟩ := linkDescribed_cons_eq_ok_iff.mp hk
      obtain ⟨hsource, htarget, hfree⟩ := hg.linkType_eq_ok_iff.mp ht
      obtain ⟨hends, honce⟩ := (ih (hg.insertLink _) (hnodup _ hfree)).mp ⟨k, hk⟩
      simp only [carried?_insertLink] at hends
      exact ⟨List.forall_mem_cons.mpr ⟨⟨t, hsource, htarget⟩, hends⟩,
        hinsert ⟨⟨stamp + 1⟩, d.source, d.target, t⟩ rfl ▸ honce⟩
    · rintro ⟨hends, honce⟩
      obtain ⟨⟨t, hsource, htarget⟩, hends⟩ := List.forall_mem_cons.mp hends
      have hfree : d.target ∉ g.links.map Link.target := fun hmem ↦
        (List.nodup_append.mp honce).2.2 _ hmem _ List.mem_cons_self rfl
      have ht := hg.linkType_eq_ok_iff.mpr ⟨hsource, htarget, hfree⟩
      obtain ⟨l, hl⟩ : ∃ l : Link, l = ⟨⟨stamp + 1⟩, d.source, d.target, t⟩ := ⟨_, rfl⟩
      have htarget' : l.target = d.target := hl ▸ rfl
      obtain ⟨k, hk⟩ := (@ih (g.insertLink l) (stamp + 1) (hg.insertLink l)
        (hnodup l (htarget' ▸ hfree))).mpr
          ⟨by simpa only [carried?_insertLink] using hends, hinsert l htarget' ▸ honce⟩
      rw [hl] at hk
      exact ⟨k, linkDescribed_cons_eq_ok_iff.mpr ⟨t, ht, hk⟩⟩

/-- The links that were made are those that were described, in that order; of the nodes nothing
changed that can be seen without links and values. -/
theorem linkDescribed_eq_ok {γ : Type} {F : Slot β → γ} (hF : IgnoresLinks F)
    {ds : List LinkDescription} (h : ((linkDescribed ds g).run stamp).result = .ok k) :
    k.slots.map F = g.slots.map F ∧
      k.links.map Link.description = g.links.map Link.description ++ ds ∧ k.name = g.name := by
  induction ds generalizing g stamp with
  | nil =>
    obtain rfl : g = k := Except.ok.inj h
    exact ⟨rfl, (List.append_nil _).symm, rfl⟩
  | cons d ds ih =>
    obtain ⟨t, -, h⟩ := linkDescribed_cons_eq_ok_iff.mp h
    obtain ⟨hslots, hlinks, hname⟩ := ih h
    refine ⟨hslots.trans (map_insertLink hF g _), ?_, hname⟩
    rw [hlinks, insertLink, List.map_append, List.append_assoc]
    rfl

/-! ## The whole graph -/

/-- The graph to which the described nodes are added. -/
def blank (β : Type) (factories : FactorySet) (d : GraphDescription) : Graph β :=
  { name := d.name, factories }

variable {factories : FactorySet} {d : GraphDescription}

theorem nodup_blank : (blank β factories d).nodeNames.Nodup := List.nodup_nil

theorem ofDescription_eq_ok_iff : ((ofDescription create factories d).run stamp).result = .ok g ↔
    ∃ j k, ((addDescribed create d.nodes (blank β factories d)).run stamp).result = .ok j ∧
      ((linkDescribed d.links j).run
        ((addDescribed create d.nodes (blank β factories d)).run stamp).stamp).result = .ok k ∧
      g = { k with isModified := false } := by
  rw [ofDescription]
  constructor
  · intro h
    obtain ⟨j, hj, h⟩ := Attempt.of_bind_eq_ok h
    obtain ⟨k, hk, h⟩ := Attempt.of_bind_eq_ok h
    exact ⟨j, k, hj, hk, (Except.ok.inj h).symm⟩
  · rintro ⟨j, k, hj, hk, rfl⟩
    exact (Attempt.run_bind_of_ok hj).trans (Attempt.run_bind_of_ok hk)

/-- The added nodes have the ports that the description offers. -/
theorem carried?_eq_some_iff_offers (hs : IsSteady create) (hname : IsNaming create)
    (hj : ((addDescribed create d.nodes (blank β factories d)).run stamp).result = .ok g)
    {side : Direction} {e : Endpoint} {t : DataType} :
    g.carried? side e = some t ↔ d.Offers create side e t := by
  obtain ⟨hnd, -, -, slots, hslots, hall⟩ := addDescribed_eq_ok nodup_blank hj
  have hslots : g.slots = slots := hslots
  rw [carried?_eq_some_iff]
  constructor
  · rintro ⟨p, hp, rfl⟩
    obtain ⟨n, hn, hp⟩ := Option.bind_eq_some_iff.mp hp
    obtain ⟨dn, hdn, hkey, hmade⟩ := exists_of_forall₂ hall _ (hslots ▸ mem_of_node? hn)
    refine ⟨dn, hdn, (hname dn n hmade).symm.trans hkey.symm, n, hmade, ?_⟩
    rw [Panel.carried?, hp]
    rfl
  · rintro ⟨dn, hdn, hnode, m, hm, ht⟩
    obtain ⟨⟨key, n⟩, hs', hkey, hmade⟩ :=
      exists_of_forall₂ (List.Forall₂.flip (R := flip _) hall) dn hdn
    -- the node was made at another time than `m`, and has ports that carry the same
    obtain ⟨stamp', hn⟩ := hmade
    obtain ⟨n', hn', hports⟩ := hs.alike dn m hm stamp'
    obtain rfl : n' = n := Except.ok.inj (hn'.symm.trans hn)
    obtain rfl : key = e.node := hkey.trans ((hname dn n' ⟨stamp', hn⟩).trans hnode)
    have hfound : g.node? e.node = some n' := (node?_eq_some_iff hnd).mpr (hslots ▸ hs')
    rw [← hports] at ht
    obtain ⟨p, hp, hpt⟩ := Option.map_eq_some_iff.mp ht
    exact ⟨p, by rw [port?, hfound]; exact hp, hpt⟩

/-- No link ends at the added nodes. -/
theorem tellsLinked_addDescribed (hs : IsSteady create)
    (hj : ((addDescribed create d.nodes (blank β factories d)).run stamp).result = .ok g) :
    g.links = [] ∧ g.TellsLinked := by
  obtain ⟨-, hlinks, -, slots, hslots, hall⟩ := addDescribed_eq_ok nodup_blank hj
  have hslots : g.slots = slots := hslots
  have hlinks : g.links = [] := hlinks
  refine ⟨hlinks, fun e p hp ↦ ?_⟩
  obtain ⟨n, hn, hp⟩ := Option.bind_eq_some_iff.mp hp
  obtain ⟨dn, -, -, hmade⟩ := exists_of_forall₂ hall _ (hslots ▸ mem_of_node? hn)
  rw [hs.free dn n hmade p (Port.mem_of_named? hp).1, hlinks]
  simp

/-- **A description is loaded just when it is well-formed.** -/
theorem exists_ofDescription_iff (hs : IsSteady create) (hname : IsNaming create) :
    (∃ g, ((ofDescription create factories d).run stamp).result = .ok g) ↔
      d.IsWellFormed create := by
  have hnodes : (∃ j, ((addDescribed create d.nodes (blank β factories d)).run stamp).result =
      .ok j) ↔ _ := exists_addDescribed_iff hs hname nodup_blank
  constructor
  · rintro ⟨g, hg⟩
    obtain ⟨j, k, hj, hk, -⟩ := ofDescription_eq_ok_iff.mp hg
    obtain ⟨hmade, hnames⟩ := hnodes.mp ⟨j, hj⟩
    obtain ⟨hnone, htells⟩ := tellsLinked_addDescribed hs hj
    obtain ⟨hends, honce⟩ :=
      (htells.exists_linkDescribed_iff (by rw [hnone]; exact List.nodup_nil)).mp ⟨k, hk⟩
    simp only [carried?_eq_some_iff_offers hs hname hj] at hends
    rw [hnone] at honce
    exact ⟨hnames, hmade, hends, honce⟩
  · intro h
    obtain ⟨j, hj⟩ := hnodes.mpr ⟨h.nodes, h.names⟩
    obtain ⟨hnone, htells⟩ := tellsLinked_addDescribed hs hj
    have hends := h.ends
    simp only [← carried?_eq_some_iff_offers hs hname hj] at hends
    obtain ⟨k, hk⟩ := (htells.exists_linkDescribed_iff (by rw [hnone]; exact List.nodup_nil)).mpr
      ⟨hends, by rw [hnone]; exact h.once⟩
    exact ⟨_, ofDescription_eq_ok_iff.mpr ⟨j, k, hj, hk, rfl⟩⟩

end Graph

/-! ## What is loaded -/

/-- A place of a graph has what its description says. -/
structure NodeDescription.Describes {β : Type} (d : NodeDescription) (s : Slot β) : Prop where
  /-- The graph keeps the node under the described name. -/
  key : s.key = d.instanceName
  /-- The node has this name. -/
  name : s.node.name = d.instanceName
  /-- It has the described type. -/
  typeName : s.node.typeName = d.model
  /-- It has the described metadata, if there is any. -/
  metadata : ∀ m, d.metadata = some m → s.node.panel.metadata = some m

/-- **A graph has what its description says**, in its order, and need not be saved. -/
structure GraphDescription.Describes {β : Type} (d : GraphDescription) (g : Graph β) : Prop where
  /-- The name is the described one. -/
  name : g.name = d.name
  /-- The nodes are. -/
  nodes : List.Forall₂ NodeDescription.Describes d.nodes g.slots
  /-- The links are. -/
  links : g.links.map Link.description = d.links
  /-- Nothing changed since. -/
  isModified : g.isModified = false

namespace FactorySet

variable {β : Type} {set : FactorySet}
  {make : FactoryEntry → NodeDescription → Attempt (Node β)}

theorem describes_of_makes {d : NodeDescription} {s : Slot β} (hkey : s.key = s.node.name)
    (h : d.Makes (set.createWith make) s.node) : d.Describes s := by
  obtain ⟨stamp, hn⟩ := h
  obtain ⟨-, m, -, -, hm⟩ := createWith_eq_ok hn
  rw [hm] at hkey
  refine ⟨hkey, by rw [hm]; rfl, by rw [hm]; rfl, fun j hj ↦ ?_⟩
  rw [hm]
  simp [Node.labelled, Node.mapPanel, hj]

/-- **What is loaded is what was described.** -/
theorem describes_ofDescription {factories : FactorySet} {d : GraphDescription} {g : Graph β}
    {stamp : Nat}
    (h : ((Graph.ofDescription (set.createWith make) factories d).run stamp).result = .ok g) :
    d.Describes g := by
  obtain ⟨j, k, hj, hk, rfl⟩ := Graph.ofDescription_eq_ok_iff.mp h
  obtain ⟨-, hnone, hname, slots, hslots, hall⟩ := Graph.addDescribed_eq_ok Graph.nodup_blank hj
  have hslots : j.slots = slots := hslots
  have hnone : j.links = [] := hnone
  -- what a description says of a place can be seen without links and values
  let F : Slot β → String × String × String × Option Json := fun s ↦
    (s.key, s.node.name, s.node.typeName, s.node.panel.metadata)
  have hF : Graph.IgnoresLinks F := fun s side name f _ ↦ by cases side <;> rfl
  obtain ⟨hseen, hlinks, hkname⟩ := Graph.linkDescribed_eq_ok hF hk
  have hdescribed : List.Forall₂ (fun n v ↦ v.1 = n.instanceName ∧ v.2.1 = n.instanceName ∧
      v.2.2.1 = n.model ∧ ∀ m, n.metadata = some m → v.2.2.2 = some m) d.nodes (k.slots.map F) := by
    rw [hseen, hslots]
    refine List.forall₂_map_right_iff.mpr (hall.imp fun n s ⟨hkey, hmade⟩ ↦ ?_)
    have hs := describes_of_makes hkey hmade
    exact ⟨hs.key, hs.name, hs.typeName, hs.metadata⟩
  refine ⟨hkname.trans hname, (List.forall₂_map_right_iff.mp hdescribed).imp fun n s hs ↦ ?_, ?_,
    rfl⟩
  · exact ⟨hs.1, hs.2.1, hs.2.2.1, hs.2.2.2⟩
  · change k.links.map Link.description = d.links
    rw [hlinks, hnone]
    rfl

/-- **Descriptions are loaded just when they are well-formed**, in whatever order they list nodes
and links, and what is loaded is what was described. -/
theorem loads_iff_isWellFormed
    (h : ∀ model entry, set.find? model = some entry → IsSteady (make entry)) :
    (∀ (d : GraphDescription) (stamp : Nat),
      (∃ g, ((Graph.ofDescription (set.createWith make) set d).run stamp).result = .ok g) ↔
        d.IsWellFormed (set.createWith make)) ∧
    (∀ (d d' : GraphDescription) (stamp stamp' : Nat), d.nodes.Perm d'.nodes →
      d.links.Perm d'.links →
      ((∃ g, ((Graph.ofDescription (set.createWith make) set d).run stamp).result = .ok g) ↔
        ∃ g, ((Graph.ofDescription (set.createWith make) set d').run stamp').result = .ok g)) ∧
    ∀ (d : GraphDescription) (stamp : Nat) (g : Graph β),
      ((Graph.ofDescription (set.createWith make) set d).run stamp).result = .ok g →
        d.Describes g := by
  have hloads : ∀ (d : GraphDescription) (stamp : Nat),
      (∃ g, ((Graph.ofDescription (set.createWith make) set d).run stamp).result = .ok g) ↔
        d.IsWellFormed (set.createWith make) := fun d stamp ↦
    Graph.exists_ofDescription_iff (isSteady_createWith h) (isNaming_createWith set make)
  refine ⟨hloads, fun d d' stamp stamp' hn hl ↦ ?_, fun d stamp g ↦ describes_ofDescription⟩
  rw [hloads, hloads]
  exact ⟨fun hd ↦ hd.of_perm hn hl, fun hd ↦ hd.of_perm hn.symm hl.symm⟩

/-! ## Factories of two types -/

/-- Factories that know a source and a sink. -/
def sampleSet : FactorySet :=
  ⟨[{ name := "lib", entries := [⟨"Source", "", .increment⟩, ⟨"Sink", "", .increment⟩] }]⟩

/-- A source, or else a sink, which is not made if it has a configuration.  Neither has the
described name and type yet. -/
def sampleMaker (entry : FactoryEntry) (d : NodeDescription) : Attempt (Node Unit) :=
  let panel : Panel := { name := "?", typeName := "?" }
  if entry.typeName = "Source" then
    let p : Port := ⟨"out", .output, ⟨"Float"⟩, false, false, 0, none, none⟩
    return ⟨{ panel with outputs := [p] }, ()⟩
  else if d.config.isSome then throw (.unknownType d.model)
  else
    let p : Port := ⟨"in", .input, ⟨"Float"⟩, false, false, 0, none, none⟩
    return ⟨{ panel with inputs := [p] }, ()⟩

theorem isSteady_sampleMaker (entry : FactoryEntry) : IsSteady (sampleMaker entry) where
  alike := by
    rintro d n ⟨stamp, hn⟩ stamp'
    refine ⟨n, ?_, fun _ _ ↦ rfl⟩
    rw [sampleMaker] at hn ⊢
    split at hn
    · rename_i hsource
      rw [if_pos hsource]
      exact hn
    · rename_i hsource
      rw [if_neg hsource]
      split at hn
      · exact absurd hn (by simp)
      · rename_i hconfig
        rw [if_neg hconfig]
        exact hn
  free := by
    rintro d n ⟨stamp, hn⟩
    rw [sampleMaker] at hn
    split at hn
    · obtain rfl := Except.ok.inj hn
      simp
    · split at hn
      · exact absurd hn (by simp)
      · obtain rfl := Except.ok.inj hn
        simp [Port.isLinked]

/-- A source and a sink, the sink first, and a link between them. -/
def samplePair : GraphDescription where
  name := "pair"
  nodes := [⟨"b", "Sink", none, none⟩, ⟨"a", "Source", none, some .null⟩]
  links := [⟨"a", "out", "b", "in"⟩]

theorem loads_samplePair :
    (∃ g, ((Graph.ofDescription (sampleSet.createWith sampleMaker) sampleSet samplePair).run
      0).result = .ok g ∧ samplePair.Describes g) ∧
    (∃ g, ((Graph.ofDescription (sampleSet.createWith sampleMaker) sampleSet
      { samplePair with nodes := samplePair.nodes.reverse }).run 0).result = .ok g) ∧
    ¬∃ g, ((Graph.ofDescription (sampleSet.createWith sampleMaker) sampleSet
      { samplePair with links := samplePair.links ++ samplePair.links }).run 0).result = .ok g := by
  obtain ⟨hloads, hperm, hdescribes⟩ := loads_iff_isWellFormed
    fun model entry (_ : sampleSet.find? model = some entry) ↦ isSteady_sampleMaker entry
  obtain ⟨g, hg⟩ := exists_ok_of_isOk (x := ((Graph.ofDescription (sampleSet.createWith sampleMaker)
    sampleSet samplePair).run 0).result) (by decide +kernel)
  refine ⟨⟨g, hg, hdescribes _ 0 g hg⟩, ?_, fun hg ↦ ?_⟩
  · exact (hperm samplePair { samplePair with nodes := samplePair.nodes.reverse } 0 0
      (List.reverse_perm _).symm (.refl _)).mp ⟨g, hg⟩
  · exact absurd ((hloads _ 0).mp hg).once (by decide)

end FactorySet
end PortGraph
