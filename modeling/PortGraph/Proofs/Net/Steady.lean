import PortGraph.Proofs.Net.Loading
import PortGraph.Proofs.Net.Saved
import PortGraph.Proofs.Net.Stock
import PortGraph.Proofs.Net.Wrapping

/-!
# What factories make does not depend on when

Whether the factories make a node of a description, and which ports the node has, is the same at any
time (`FactorySet.isTimeless_createWithin`): stamps go into the defaults of its ports and the ids of
the links in it, and nowhere else.  This is shown by induction on the levels of nesting, as the net
in a node is made of a description again, and the node mirrors it.

So a net is made of a description just when the description is well-formed
(`Net.exists_ofDescription_iff`).
-/

set_option autoImplicit false

namespace PortGraph

open PortGraph.Graph

/-! ## Ports as they were made -/

/-- The ports of a panel as they were made. -/
def Panel.declared (panel : Panel) (side : Direction) : List Port :=
  (panel.ports side).map Port.declared

/-- The ports of a place as they were made. -/
def Slot.declared {β : Type} (s : Slot β) : String × (Direction → List Port) :=
  (s.key, s.node.panel.declared)

theorem Slot.ignoresLinks_declared {β : Type} : IgnoresLinks (Slot.declared (β := β)) := by
  intro s side name f hf
  refine Prod.ext rfl (funext fun side' ↦ ?_)
  refine s.node.panel.map_ports_modifyPort side name (fun p ↦ ?_) side'
  rw [← Port.declared_untied, hf, Port.declared_untied]

theorem Graph.map_port?_of_declared {β : Type} {g k : Graph β}
    (h : k.slots.map Slot.declared = g.slots.map Slot.declared) (side : Direction) (e : Endpoint) :
    (k.port? side e).map Port.declared = (g.port? side e).map Port.declared := by
  refine map_port?_of_map_eq (f := Port.declared) (fun _ ↦ rfl) ?_ e
  refine map_eq_of_map_eq h fun s _ r _ hrs ↦ ?_
  obtain ⟨hkey, hports⟩ := Prod.mk.inj hrs
  exact Prod.ext hkey (congrFun hports side)

namespace Panel

variable {panel panel' : Panel} {side : Direction}

/-- Ports carry what they were made for. -/
theorem carried?_of_declared_eq (h : panel'.declared = panel.declared) (side : Direction)
    (name : String) : panel'.carried? side name = panel.carried? side name := by
  have hcarried : ∀ p : Panel,
      p.carried? side name = (Port.named? name (p.declared side)).map Port.dataType := by
    intro p
    rw [declared, Port.named?_map (f := Port.declared) fun _ ↦ rfl, Option.map_map]
    rfl
  rw [hcarried, h, hcarried]

theorem map_name_declared (panel : Panel) (side : Direction) :
    (panel.declared side).map Port.name = (panel.ports side).map Port.name := by
  rw [declared, List.map_map]
  rfl

theorem declared_addPort {p : Port} {i : Nat} (h : panel.addPort side p = .ok (i, panel'))
    (side' : Direction) : panel'.declared side' =
      if side' = side then panel.declared side ++ [p.declared] else panel.declared side' := by
  obtain ⟨-, -, rfl⟩ := addPort_eq_ok h
  rw [declared, ports_withPorts]
  split
  · exact List.map_append
  · rfl

end Panel

/-! ## Making a node at another time -/

theorem PortPlan.declared_make (plan : PortPlan) (stamp stamp' : Nat) :
    (plan.make stamp').result.declared = (plan.make stamp).result.declared := by
  obtain ⟨name, dataType, _ | _, _ | _, _ | _⟩ := plan <;> rfl

theorem Panel.exists_addPlanned {side : Direction} {plans : List PortPlan} {panel panel' r : Panel}
    {stamp : Nat} (hpanel : panel'.declared = panel.declared)
    (h : ((addPlanned side plans panel).run stamp).result = .ok r) (stamp' : Nat) :
    ∃ r', ((addPlanned side plans panel').run stamp').result = .ok r' ∧
      r'.declared = r.declared := by
  induction plans generalizing panel panel' stamp stamp' with
  | nil =>
    obtain rfl := Except.ok.inj h
    exact ⟨panel', rfl, hpanel⟩
  | cons plan plans ih =>
    rw [addPlanned] at h
    obtain ⟨p, hp, h⟩ := Attempt.of_bind_eq_ok h
    obtain rfl : (plan.make stamp).result = p := Except.ok.inj hp
    obtain ⟨⟨i, panel₁⟩, hport, h⟩ := Attempt.of_bind_eq_ok h
    have hport : panel.addPort side (plan.make stamp).result = .ok (i, panel₁) := hport
    have hmade := plan.declared_make stamp stamp'
    obtain ⟨hside, hname, -⟩ := addPort_eq_ok hport
    have hname' : (plan.make stamp').result.name ∉ (panel'.ports side).map Port.name := by
      rw [← map_name_declared, hpanel, map_name_declared,
        show (plan.make stamp').result.name = _ from congrArg (·.name) hmade]
      exact hname
    obtain ⟨j, panel₁', hport'⟩ :=
      exists_addPort ((congrArg (·.direction) hmade).trans hside) hname'
    have hdeclared : panel₁'.declared = panel₁.declared := by
      funext side'
      rw [declared_addPort hport', declared_addPort hport, hpanel, hmade]
    obtain ⟨r', hr', heq⟩ := ih hdeclared h (plan.make stamp').stamp
    refine ⟨r', ?_, heq⟩
    rw [addPlanned]
    refine (Attempt.run_bind_of_ok (a := (plan.make stamp').result) rfl).trans ?_
    refine (Attempt.run_bind_of_ok (a := (j, panel₁')) ?_).trans hr'
    exact hport'

theorem ProbePlan.exists_node {plan : ProbePlan} {name : String} {n : Node Behaviour} {stamp : Nat}
    (h : ((plan.node name).run stamp).result = .ok n) (stamp' : Nat) :
    ∃ m, ((plan.node name).run stamp').result = .ok m ∧ m.panel.declared = n.panel.declared ∧
      m.behaviour = n.behaviour := by
  rw [ProbePlan.node] at h
  obtain ⟨panel, hpanel, h⟩ := Attempt.of_bind_eq_ok h
  obtain rfl := Except.ok.inj h
  rw [ProbePlan.panel] at hpanel
  obtain ⟨panel₁, hinputs, houtputs⟩ := Attempt.of_bind_eq_ok hpanel
  obtain ⟨panel₁', hinputs', heq₁⟩ := Panel.exists_addPlanned rfl hinputs stamp'
  obtain ⟨panel', houtputs', heq⟩ := Panel.exists_addPlanned heq₁ houtputs _
  have hpanel' : ((plan.panel name).run stamp').result = .ok panel' :=
    (Attempt.run_bind_of_ok hinputs').trans houtputs'
  exact ⟨⟨panel', .probe plan.probe⟩, (Attempt.run_bind_of_ok hpanel').trans rfl, heq, rfl⟩

theorem Operation.declared_panel (op : Operation) (name : String) (stamp stamp' : Nat) :
    (op.panel name stamp').result.declared = (op.panel name stamp).result.declared := by
  funext side
  have h := op.declares_panel name stamp
  have h' := op.declares_panel name stamp'
  cases side with
  | input => exact h'.inputs.trans h.inputs.symm
  | output => exact h'.outputs.trans h.outputs.symm

/-- Only the error of a configuration that is refused tells of the panel. -/
theorem Operation.restore_congr {op op' : Operation} {panel : Panel} {config : Json}
    (h : op.restore panel config = .ok op') (panel' : Panel) :
    op.restore panel' config = .ok op' := by
  cases op with
  | unary k l f => exact absurd h (by simp [restore])
  | binary k l m f => exact absurd h (by simp [restore])
  | _ => exact h

/-- A node is configured like another one of the same behaviour. -/
theorem Node.configured_congr {n m r : Node Behaviour} {d : NodeDescription} {stamp : Nat}
    (hb : m.behaviour = n.behaviour) (h : ((n.configured d).run stamp).result = .ok r)
    (stamp' : Nat) :
    ((m.configured d).run stamp').result = .ok ⟨m.panel, r.behaviour⟩ ∧ r.panel = n.panel := by
  rcases configured_eq_ok_iff.mp h with ⟨hc, rfl⟩ | ⟨config, hc, hr⟩
  · exact ⟨configured_eq_ok_iff.mpr (.inl ⟨hc, by rw [← hb]⟩), rfl⟩
  · rcases restore_eq_ok_iff.mp hr with ⟨op, op', hn, hop, rfl⟩ | ⟨p, p', hn, hp, rfl⟩
    · exact ⟨configured_eq_ok_iff.mpr (.inr ⟨config, hc, restore_eq_ok_iff.mpr
        (.inl ⟨op, op', hb.trans hn, Operation.restore_congr hop m.panel, rfl⟩)⟩), rfl⟩
    · exact ⟨configured_eq_ok_iff.mpr (.inr ⟨config, hc, restore_eq_ok_iff.mpr
        (.inr ⟨p, p', hb.trans hn, hp, rfl⟩)⟩), rfl⟩

/-! ## Making a net at another time -/

namespace Net

variable {g k : Net} {name : String} {n : Node Behaviour} {stamp : Nat}

/-- What the ports of a well-linked net were made for, and its links, tell which ports are open. -/
theorem openPorts_of_declared (hg : g.WellLinked) (hk : k.WellLinked)
    (hslots : k.slots.map Slot.declared = g.slots.map Slot.declared)
    (hlinks : k.links.map Link.unnumbered = g.links.map Link.unnumbered) :
    k.openPorts = g.openPorts := by
  have hopen : ∀ {j : Net}, j.WellLinked → ∀ side, j.openPorts side =
      (j.slots.map Slot.declared).flatMap fun v ↦
        ((v.2 side).filter fun p ↦ j.degree side ⟨v.1, p.name⟩ = 0).map fun p ↦
          (⟨v.1, p.name⟩, p) := by
    intro j hj side
    rw [openPorts, List.flatMap_map]
    refine List.flatMap_congr fun s hs ↦ ?_
    rw [show s.declared.2 side = (s.node.panel.ports side).map Port.declared from rfl,
      List.filter_map, List.map_map]
    refine congrArg (List.map _) (List.filter_congr fun p hp ↦ ?_)
    change (!p.isLinked) = decide (j.degree side ⟨s.key, p.name⟩ = 0)
    rw [Port.isLinked, hj.linkCount_eq hs hp]
    cases j.degree side ⟨s.key, p.name⟩ <;> rfl
  funext side
  rw [hopen hk, hopen hg, hslots]
  simp only [degree_congr hlinks]

/-- A node that holds a net has a port for each open one. -/
theorem declared_of_wrapped (hg : g.WellLinked) (ho : g.IsOutermost)
    (h : wrapped? name g = .ok n) (side : Direction) :
    n.panel.declared side = Port.mirror side [] ((g.openPorts side).map Prod.snd) := by
  obtain ⟨k, -, hk, hmirrors, -⟩ := wrapped?_spec hg ho h
  rw [← openPorts_exposed hk.1]
  cases side with
  | input => exact hmirrors.inputs
  | output => exact hmirrors.outputs

/-- Nets of the same open ports are held by nodes of the same ports. -/
theorem exists_wrap_congr (hg : g.WellLinked) (hgo : g.IsOutermost) (hk : k.WellLinked)
    (hko : k.IsOutermost) (hopen : k.openPorts = g.openPorts)
    (h : ((wrap name g).run stamp).result = .ok n) (stamp' : Nat) :
    ∃ m, ((wrap name k).run stamp').result = .ok m ∧ m.panel.declared = n.panel.declared := by
  obtain ⟨m, hwrapped, hm⟩ := exists_wrap hk name
  refine ⟨m, hm stamp', funext fun side ↦ ?_⟩
  rw [declared_of_wrapped hk hko hwrapped, hopen, declared_of_wrapped hg hgo (wrap_eq_ok h)]

/-- No other net feeds a net of new nodes. -/
theorem isOutermost_of_assembled (h : Graph.Assembled (fun n ↦ n.panel.IsNew) g) :
    g.IsOutermost := by
  induction h with
  | empty => exact fun s hs ↦ absurd hs (by simp)
  | push _ hn _ ih =>
    intro s hs
    rcases List.mem_append.mp hs with hs | hs
    · exact ih s hs
    · obtain rfl := List.mem_singleton.mp hs
      exact fun p hp ↦ (hn.ports_new .input p hp).2.unexposed
  | insert _ _ _ ih => exact ih.insertLink _

theorem isOutermost_of_ofDescription {create : NodeDescription → Attempt (Node Behaviour)}
    {factories : FactorySet} {d : GraphDescription}
    (hnew : ∀ d stamp n, ((create d).run stamp).result = .ok n → n.panel.IsNew)
    (h : ((Graph.ofDescription create factories d).run stamp).result = .ok g) :
    g.IsOutermost := by
  obtain ⟨k, hk, rfl⟩ := assembled_ofDescription hnew h
  have ho : Net.IsOutermost k := isOutermost_of_assembled hk
  exact ho

end Net

/-! ## Factories -/

/-- **Whether a node is made, and which ports it has, does not depend on when.** -/
def IsTimeless (create : NodeDescription → Attempt (Node Behaviour)) : Prop :=
  ∀ (d : NodeDescription) (n : Node Behaviour), d.Makes create n → ∀ stamp,
    ∃ m, ((create d).run stamp).result = .ok m ∧ m.panel.declared = n.panel.declared

/-- Whether a net is made, and which of its ports are open, does not depend on when. -/
structure RebuildsTimelessly (rebuild : GraphDescription → Attempt Net) : Prop where
  /-- The net is well-linked, and no other net feeds it. -/
  sound : ∀ d stamp g, ((rebuild d).run stamp).result = .ok g →
    Graph.WellLinked g ∧ Net.IsOutermost g
  /-- At another time one of the same open ports is made. -/
  alike : ∀ d stamp g, ((rebuild d).run stamp).result = .ok g → ∀ stamp',
    ∃ k, ((rebuild d).run stamp').result = .ok k ∧ Net.openPorts k = Net.openPorts g

theorem IsTimeless.rebuildsTimelessly {create : NodeDescription → Attempt (Node Behaviour)}
    (h : IsTimeless create) (hname : IsNaming create)
    (hnew : ∀ d stamp n, ((create d).run stamp).result = .ok n → n.IsFresh ∧ n.panel.IsNew)
    (factories : FactorySet) : RebuildsTimelessly (Graph.ofDescription create factories) := by
  have hsound : ∀ d stamp g,
      ((Graph.ofDescription create factories d).run stamp).result = .ok g →
        Graph.WellLinked g ∧ Net.IsOutermost g := fun d stamp g hg ↦
    ⟨(Net.coherent_iff.mp (Net.coherent_of_ofDescription
        (fun d stamp n hn ↦ (hnew d stamp n hn).1) hg)).1,
      Net.isOutermost_of_ofDescription (fun d stamp n hn ↦ (hnew d stamp n hn).2) hg⟩
  refine ⟨hsound, fun d stamp g hg stamp' ↦ ?_⟩
  obtain ⟨hwell, -⟩ := hsound d stamp g hg
  obtain ⟨j, k, hj, hk, hkg⟩ := Graph.ofDescription_eq_ok_iff.mp hg
  obtain ⟨hnodup, hnone, -, slots, hslots, hall⟩ := Graph.addDescribed_eq_ok nodup_blank hj
  obtain ⟨hseen, hlinks, -⟩ := linkDescribed_eq_ok Slot.ignoresLinks_declared hk
  have hslots : j.slots = slots := hslots
  have hnone : j.links = [] := hnone
  -- the nodes are made anew with the ports that were seen, and so the same links can be made
  have hviews : g.slots.map Slot.declared = slots.map Slot.declared := by
    rw [hkg, ← hslots]
    exact hseen
  have hnodes : List.Forall₂ (fun view n ↦ ∀ stamp, ∃ m, ((create n).run stamp).result = .ok m ∧
      m.name = n.instanceName ∧ Slot.declared ⟨m.name, m⟩ = view) (g.slots.map Slot.declared)
      d.nodes := by
    rw [hviews]
    refine List.forall₂_map_left_iff.mpr (hall.flip.imp fun s n ⟨hkey, hmade⟩ stamp ↦ ?_)
    obtain ⟨m, hm, hports⟩ := h n s.node hmade stamp
    have hmname := hname n m ⟨stamp, hm⟩
    have hsname : s.node.name = n.instanceName := hname n s.node hmade
    exact ⟨m, hm, hmname, Prod.ext (hmname.trans (hsname.symm.trans hkey.symm)) hports⟩
  have hnames : d.nodes.map NodeDescription.instanceName = j.nodeNames := by
    have hkeys : List.Forall₂ (fun n s ↦ NodeDescription.instanceName n = Slot.key s) d.nodes
        slots := hall.imp fun n s ⟨hkey, hmade⟩ ↦ (hname n s.node hmade).symm.trans hkey.symm
    have heq := List.forall₂_map_left_iff.mpr (List.forall₂_map_right_iff.mpr hkeys)
    rw [List.forall₂_eq_eq_eq] at heq
    rw [heq, nodeNames, hslots]
  have hdlinks : d.links = g.links.map Link.description := by
    rw [hnone, List.map_nil, List.nil_append] at hlinks
    rw [hkg, ← hlinks]
  obtain ⟨k', hk', hslots', hlinks', -⟩ := ofDescription_ok Slot.ignoresLinks_declared
    (fun d stamp n hn ↦ (hnew d stamp n hn).1.detached) hnodes (hnames ▸ hnodup) hdlinks
    (fun k' hk' l hl side ↦ by
      obtain ⟨p, hp, htype⟩ := hwell.ends l hl side
      have hport := map_port?_of_declared hk' side (l.place side)
      rw [hp, Option.map_some, Option.map_eq_some_iff] at hport
      obtain ⟨q, hq, hdeclared⟩ := hport
      exact ⟨q, hq, (congrArg (·.dataType) hdeclared).trans htype⟩) hwell.once factories stamp'
  exact ⟨k', hk', Net.openPorts_of_declared hwell (hsound d stamp' k' hk').1 hslots' hlinks'⟩

/-- What a maker makes, it makes at any time, as long as nets are rebuilt at any time. -/
theorem Maker.exists_made {maker : Maker} {factories : FactorySet}
    {rebuild : GraphDescription → Attempt Net} {d : NodeDescription} {n : Node Behaviour}
    {stamp : Nat} (hrebuild : RebuildsTimelessly rebuild)
    (h : ((maker.make factories rebuild d).run stamp).result = .ok n) (stamp' : Nat) :
    ∃ m, ((maker.make factories rebuild d).run stamp').result = .ok m ∧
      m.panel.declared = n.panel.declared := by
  cases made_of_make h with
  | @operation _ op stamp _ hop hn =>
    obtain ⟨hn', hpanel⟩ := Node.configured_congr
      (n := ⟨(op.panel d.instanceName stamp).result, .operation op⟩)
      (m := ⟨(op.panel d.instanceName stamp').result, .operation op⟩) rfl hn
      (op.panel d.instanceName stamp').stamp
    have hports := op.declared_panel d.instanceName stamp stamp'
    rw [make_of_operation hop]
    exact ⟨_, (Attempt.run_bind_of_ok rfl).trans hn',
      hports.trans (congrArg Panel.declared hpanel.symm)⟩
  | probe hm hn =>
    obtain ⟨m', hm', hports, hb⟩ := ProbePlan.exists_node hm stamp'
    obtain ⟨hn', hpanel⟩ := Node.configured_congr hb hn _
    rw [make]
    exact ⟨_, (Attempt.run_bind_of_ok hm').trans hn', hpanel ▸ hports⟩
  | empty hc hn =>
    have hempty := Net.isOutermost_of_assembled (.empty d.instanceName factories)
    have hwell := wellLinked_empty (β := Behaviour) d.instanceName factories
    rw [make, hc]
    exact Net.exists_wrap_congr hwell hempty hwell hempty rfl hn stamp'
  | rebuilt hc hread hg hn =>
    obtain ⟨k, hk, hopen⟩ := hrebuild.alike _ _ _ hg stamp'
    obtain ⟨hwell, ho⟩ := hrebuild.sound _ _ _ hg
    obtain ⟨hwell', ho'⟩ := hrebuild.sound _ _ k hk
    obtain ⟨m, hm, hports⟩ := Net.exists_wrap_congr hwell ho hwell' ho' hopen hn _
    rw [make, hc]
    dsimp only
    rw [hread]
    exact ⟨m, (Attempt.run_bind_of_ok hk).trans hm, hports⟩

namespace FactorySet

theorem isNaming_createWithin (set : FactorySet) (level : Nat) :
    IsNaming (set.createWithin level) := by
  rw [createWithin_eq_createWith]
  exact isNaming_createWith set _

/-- **What factories make does not depend on when**, by induction on the levels of nesting. -/
theorem isTimeless_createWithin (set : FactorySet) (level : Nat) :
    IsTimeless (set.createWithin level) := by
  have hmade : ∀ {level : Nat}, (∀ model, RebuildsTimelessly (set.rebuildWithin model level)) →
      IsTimeless (set.createWithin level) := by
    intro level hrebuild d n ⟨stamp, hn⟩ stamp'
    rw [createWithin_eq_createWith] at hn ⊢
    obtain ⟨entry, m, hf, hm, rfl⟩ := createWith_eq_ok hn
    obtain ⟨m', hm', hports⟩ := Maker.exists_made (hrebuild d.model) hm stamp'
    refine ⟨m'.labelled d, createWith_of_find? hf hm', funext fun side ↦ ?_⟩
    cases side with
    | input => exact congrFun hports .input
    | output => exact congrFun hports .output
  induction level with
  | zero =>
    exact hmade fun model ↦ ⟨fun _ _ _ hg ↦ absurd hg (by simp [rebuildWithin]),
      fun _ _ _ hg ↦ absurd hg (by simp [rebuildWithin])⟩
  | succ level ih =>
    exact hmade fun _ ↦ ih.rebuildsTimelessly (set.isNaming_createWithin level)
      (fun _ _ _ hn ↦
        ⟨set.isFresh_of_createWithin level hn, set.isNew_of_createWithin level hn⟩) set

/-- **Factories are steady.** -/
theorem isSteady_createNode (set : FactorySet) : IsSteady set.createNode where
  alike d n hn stamp := by
    obtain ⟨m, hm, hports⟩ := set.isTimeless_createWithin _ d n hn stamp
    exact ⟨m, hm, Panel.carried?_of_declared_eq hports⟩
  free d n := by
    rintro ⟨stamp, hn⟩ p hp
    have hnew := ((set.isNew_of_createWithin _ hn).ports_new .input p hp).2
    rw [Port.isLinked, hnew.unlinked]
    rfl

theorem isNaming_createNode (set : FactorySet) : IsNaming set.createNode := fun d n hn ↦
  set.isNaming_createWithin _ d n hn

end FactorySet

namespace Net

variable {factories : FactorySet} {d : GraphDescription} {stamp : Nat}

/-- **A net is made of a description just when the description is well-formed.** -/
theorem exists_ofDescription_iff :
    (∃ g, ((ofDescription factories d).run stamp).result = .ok g) ↔
      d.IsWellFormed factories.createNode :=
  Graph.exists_ofDescription_iff factories.isSteady_createNode factories.isNaming_createNode

/-- **The net that is made of a description has what the description says.** -/
theorem describes_of_ofDescription {g : Net}
    (h : ((ofDescription factories d).run stamp).result = .ok g) : d.Describes g := by
  rw [ofDescription, FactorySet.createNode_eq_createWith] at h
  exact FactorySet.describes_ofDescription h

end Net

end PortGraph
