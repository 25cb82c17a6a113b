import PortGraph.Net.Create
import PortGraph.Proofs.Graph.Reachable
import PortGraph.Proofs.Net.Coherent

/-!
# New nodes

A node is new (`Node.IsFresh`) when no link touches it, it is not initialised, and the net it holds,
if any, is coherent.  So are the nodes that hold a net which was coherent before
(`Net.isFresh_of_wrap`), and those that factories make, the nets in them included
(`FactorySet.isFresh_of_createWithin`).
-/

set_option autoImplicit false

namespace PortGraph

open PortGraph.Graph

/-- A node that was just made. -/
structure Node.IsFresh (n : Node Behaviour) : Prop where
  /-- No link touches it. -/
  detached : n.panel.IsDetached
  /-- It is not initialised. -/
  idle : n.panel.isInitialized = false
  /-- The net in it is coherent. -/
  sound : n.behaviour.Sound false

/-! ## Panels -/

/-- A panel of a node that was just made. -/
structure Panel.IsFresh (panel : Panel) : Prop where
  /-- No link touches it. -/
  detached : panel.IsDetached
  /-- It is not initialised. -/
  idle : panel.isInitialized = false

/-- A port that was just made: nothing touches, feeds or fills it. -/
structure Port.IsNew (p : Port) : Prop where
  /-- No link touches it. -/
  unlinked : p.linkCount = 0
  /-- No enclosing graph feeds it. -/
  unexposed : p.isExposed = false
  /-- It holds nothing. -/
  empty : p.stored = none

theorem Port.IsNew.require {p : Port} (h : p.IsNew) : p.require.IsNew := by
  rw [Port.require]
  split
  · exact ⟨h.unlinked, h.unexposed, h.empty⟩
  · exact h

/-- A panel to which nothing but new ports were added. -/
structure Panel.IsNew (panel : Panel) : Prop where
  /-- The ports of a side have different names. -/
  ports_nodup : ∀ side, ((panel.ports side).map Port.name).Nodup
  /-- The ports are new, and made for the sides they are on. -/
  ports_new : ∀ side, ∀ p ∈ panel.ports side, p.direction = side ∧ p.IsNew
  /-- It is not initialised. -/
  idle : panel.isInitialized = false

namespace Panel

theorem IsNew.isFresh {panel : Panel} (h : panel.IsNew) : panel.IsFresh :=
  ⟨⟨h.ports_nodup, fun side p hp ↦ (h.ports_new side p hp).2.unlinked⟩, h.idle⟩

theorem isNew_bare (name typeName : String) : ({ name, typeName } : Panel).IsNew where
  ports_nodup side := by cases side <;> exact List.nodup_nil
  ports_new side := by cases side <;> simp [ports]
  idle := rfl

/-- A port that was added has a name of its own. -/
theorem ports_nodup_addPort {panel panel' : Panel} {side : Direction} {p : Port} {i : Nat}
    (h : ∀ side, ((panel.ports side).map Port.name).Nodup)
    (ha : panel.addPort side p = .ok (i, panel')) (side' : Direction) :
    ((panel'.ports side').map Port.name).Nodup := by
  obtain ⟨-, hname, rfl⟩ := addPort_eq_ok ha
  rw [ports_withPorts]
  split
  · rw [List.map_append, List.map_singleton, ← List.concat_eq_append]
    exact (h side).concat hname
  · exact h side'

/-- What is true of all ports stays so if it is true of the one that is added. -/
theorem forall_ports_addPort {Q : Direction → Port → Prop} {panel panel' : Panel}
    {side : Direction} {p : Port} {i : Nat} (h : ∀ side, ∀ q ∈ panel.ports side, Q side q)
    (hp : p.direction = side → Q side p) (ha : panel.addPort side p = .ok (i, panel'))
    (side' : Direction) : ∀ q ∈ panel'.ports side', Q side' q := by
  obtain ⟨hside, -, rfl⟩ := addPort_eq_ok ha
  intro q hq
  rw [ports_withPorts] at hq
  split at hq
  · rename_i hsame
    subst hsame
    rcases List.mem_append.mp hq with hq | hq
    · exact h side' q hq
    · exact List.mem_singleton.mp hq ▸ hp hside
  · exact h side' q hq

theorem isInitialized_addPort {panel panel' : Panel} {side : Direction} {p : Port} {i : Nat}
    (ha : panel.addPort side p = .ok (i, panel')) : panel'.isInitialized = panel.isInitialized := by
  obtain ⟨-, -, rfl⟩ := addPort_eq_ok ha
  exact withPorts_isInitialized ..

theorem IsFresh.addPort {panel panel' : Panel} (h : panel.IsFresh) {side : Direction} {p : Port}
    {i : Nat} (hp : p.IsNew) (ha : panel.addPort side p = .ok (i, panel')) : panel'.IsFresh where
  detached := ⟨ports_nodup_addPort h.detached.ports_nodup ha,
    forall_ports_addPort (Q := fun _ p ↦ p.linkCount = 0) h.detached.unlinked
      (fun _ ↦ hp.unlinked) ha⟩
  idle := (isInitialized_addPort ha).trans h.idle

theorem IsNew.addPort {panel panel' : Panel} (h : panel.IsNew) {side : Direction} {p : Port}
    {i : Nat} (hp : p.IsNew) (ha : panel.addPort side p = .ok (i, panel')) : panel'.IsNew where
  ports_nodup := ports_nodup_addPort h.ports_nodup ha
  ports_new := forall_ports_addPort (Q := fun side p ↦ p.direction = side ∧ p.IsNew) h.ports_new
    (fun hside ↦ ⟨hside, hp⟩) ha
  idle := (isInitialized_addPort ha).trans h.idle

end Panel

/-! ## Nodes that hold a net -/

namespace Net

theorem Coherent.expose {g k : Net} (h : g.Coherent) {place : Endpoint}
    (hk : g.expose place = .ok k) : k.Coherent := by
  obtain ⟨hg, -, hall⟩ := coherent_iff.mp h
  have hwell := hg.expose hk
  obtain rfl := expose_eq_ok hk
  exact coherent_iff.mpr ⟨hwell, cached_of_not_ready rfl rfl, hall.modifyPort _ _ _⟩

theorem addOuterInputs_eq_ok {setters : List Accessor} {panel panel' : Panel} {g k : Net}
    (hpanel : panel.IsNew) (h : addOuterInputs setters panel g = .ok (panel', k)) :
    panel'.IsNew ∧ (g.Coherent → k.Coherent) := by
  induction setters generalizing panel g with
  | nil =>
    obtain ⟨rfl, rfl⟩ := Prod.mk.inj (Except.ok.inj h)
    exact ⟨hpanel, id⟩
  | cons inner rest ih =>
    rw [addOuterInputs] at h
    obtain ⟨⟨panel₁, g₁⟩, hadd, h⟩ := bind_eq_ok h
    rw [addOuterInput] at hadd
    obtain ⟨⟨i, panel₂⟩, hport, hadd⟩ := bind_eq_ok hadd
    obtain ⟨g₂, hexpose, hadd⟩ := bind_eq_ok hadd
    obtain ⟨rfl, rfl⟩ := Prod.mk.inj (Except.ok.inj hadd)
    have hnew : ∀ name, Port.IsNew
        { name, direction := .input, dataType := inner.dataType,
          default := defaultOf g inner.place } := fun _ ↦ ⟨rfl, rfl, rfl⟩
    obtain ⟨hpanel', hk⟩ := ih (hpanel.addPort (by
      split
      · exact (hnew _).require
      · exact hnew _) hport) h
    exact ⟨hpanel', fun hg ↦ hk (hg.expose hexpose)⟩

theorem addOuterOutputs_eq_ok {getters : List Accessor} {panel panel' : Panel}
    (hpanel : panel.IsNew) (h : addOuterOutputs getters panel = .ok panel') : panel'.IsNew := by
  induction getters generalizing panel with
  | nil =>
    obtain rfl := Except.ok.inj h
    exact hpanel
  | cons inner rest ih =>
    rw [addOuterOutputs] at h
    obtain ⟨⟨i, panel₁⟩, hport, h⟩ := bind_eq_ok h
    exact ih (hpanel.addPort ⟨rfl, rfl, rfl⟩ hport) h

theorem wrap_eq_ok {name : String} {g : Net} {n : Node Behaviour} {stamp : Nat}
    (h : ((wrap name g).run stamp).result = .ok n) : wrapped? name g = .ok n := by
  rw [wrap] at h
  obtain ⟨m, hm, h⟩ := Attempt.of_bind_eq_ok h
  obtain ⟨_, _, h⟩ := Attempt.of_bind_eq_ok h
  obtain rfl := Except.ok.inj h
  exact hm

/-- The parts of a node that holds a net. -/
theorem parts_of_wrap {name : String} {g : Net} {n : Node Behaviour} {stamp : Nat}
    (h : ((wrap name g).run stamp).result = .ok n) : ∃ panel₁ panel₂ k,
      addOuterInputs g.setters { name, typeName := nestedType } g = .ok (panel₁, k) ∧
        addOuterOutputs k.getters panel₁ = .ok panel₂ ∧
        n = ⟨panel₂, .nested k (g.setters.map Accessor.place) (k.getters.map Accessor.place)⟩ := by
  have hwrapped := wrap_eq_ok h
  rw [wrapped?] at hwrapped
  obtain ⟨⟨panel₁, k⟩, hinputs, hwrapped⟩ := bind_eq_ok hwrapped
  obtain ⟨panel₂, houtputs, hwrapped⟩ := bind_eq_ok hwrapped
  exact ⟨panel₁, panel₂, k, hinputs, houtputs, (Except.ok.inj hwrapped).symm⟩

/-- A node that holds a net has nothing but new ports. -/
theorem isNew_of_wrap {name : String} {g : Net} {n : Node Behaviour} {stamp : Nat}
    (h : ((wrap name g).run stamp).result = .ok n) : n.panel.IsNew ∧
      (g.Coherent → n.behaviour.Sound false) := by
  obtain ⟨panel₁, panel₂, k, hinputs, houtputs, rfl⟩ := parts_of_wrap h
  obtain ⟨hpanel₁, hk⟩ := addOuterInputs_eq_ok (Panel.isNew_bare name nestedType) hinputs
  exact ⟨addOuterOutputs_eq_ok hpanel₁ houtputs,
    fun hg ↦ Behaviour.sound_nested (hk hg) fun hf ↦ absurd hf (by simp)⟩

/-- **A node that holds a coherent net is new.** -/
theorem isFresh_of_wrap {name : String} {g : Net} {n : Node Behaviour} {stamp : Nat}
    (hg : g.Coherent) (h : ((wrap name g).run stamp).result = .ok n) : n.IsFresh := by
  obtain ⟨hpanel, hsound⟩ := isNew_of_wrap h
  exact ⟨hpanel.isFresh.detached, hpanel.idle, hsound hg⟩

end Net

/-! ## Nodes of factories -/

theorem PortPlan.isNew_make (plan : PortPlan) (stamp : Nat) : (plan.make stamp).result.IsNew := by
  rw [make]
  simp only [Act.bind_apply, Act.pure_apply]
  split
  · exact Port.IsNew.require ⟨rfl, rfl, rfl⟩
  · exact ⟨rfl, rfl, rfl⟩

theorem Panel.isNew_of_addPlanned {side : Direction} {plans : List PortPlan}
    {panel panel' : Panel} {stamp : Nat} (hpanel : panel.IsNew)
    (h : ((addPlanned side plans panel).run stamp).result = .ok panel') : panel'.IsNew := by
  induction plans generalizing panel stamp with
  | nil =>
    obtain rfl := Except.ok.inj h
    exact hpanel
  | cons plan plans ih =>
    rw [addPlanned] at h
    obtain ⟨p, hp, h⟩ := Attempt.of_bind_eq_ok h
    obtain ⟨⟨i, panel₁⟩, hport, h⟩ := Attempt.of_bind_eq_ok h
    have hmake : p = (plan.make stamp).result := (Except.ok.inj hp).symm
    exact ih (hpanel.addPort (hmake ▸ plan.isNew_make stamp) hport) h

theorem ProbePlan.isNew_of_node {plan : ProbePlan} {name : String} {n : Node Behaviour}
    {stamp : Nat} (h : ((plan.node name).run stamp).result = .ok n) :
    n.panel.IsNew ∧ n.inner? = none := by
  rw [ProbePlan.node] at h
  obtain ⟨panel, hpanel, h⟩ := Attempt.of_bind_eq_ok h
  obtain rfl := Except.ok.inj h
  rw [ProbePlan.panel] at hpanel
  obtain ⟨panel₁, hinputs, houtputs⟩ := Attempt.of_bind_eq_ok hpanel
  have hpanel₁ := Panel.isNew_of_addPlanned (Panel.isNew_bare name plan.typeName) hinputs
  exact ⟨Panel.isNew_of_addPlanned hpanel₁ houtputs, rfl⟩

/-- The inputs that an operation declares are new and have different names. -/
theorem Operation.isNew_inputs (op : Operation) (stamp : Nat) :
    ((op.inputs stamp).result.map Port.name).Nodup ∧
      ∀ p ∈ (op.inputs stamp).result, p.direction = .input ∧ p.IsNew := by
  have hinput : ∀ name k, (inputOf name k).direction = .input ∧ (inputOf name k).IsNew :=
    fun _ _ ↦ ⟨rfl, rfl, rfl, rfl⟩
  have hrequired : ∀ name k,
      (requiredInputOf name k).direction = .input ∧ (requiredInputOf name k).IsNew :=
    fun _ _ ↦ ⟨rfl, rfl, rfl, rfl⟩
  cases op with
  | increment =>
    exact ⟨List.nodup_singleton _, fun p hp ↦ by
      rw [List.mem_singleton.mp hp]
      exact ⟨rfl, rfl, rfl, rfl⟩⟩
  | _ =>
    refine ⟨by simp [inputs, requiredInputOf, inputOf, Port.require], ?_⟩
    simp [inputs, hinput, hrequired]

theorem Operation.isNew_panel (op : Operation) (name : String) (stamp : Nat) :
    (op.panel name stamp).result.IsNew := by
  have houtput : op.output.direction = .output ∧ op.output.IsNew := by
    cases op <;> exact ⟨rfl, rfl, rfl, rfl⟩
  refine ⟨fun side ↦ ?_, fun side p hp ↦ ?_, rfl⟩
  · cases side with
    | input => exact (op.isNew_inputs stamp).1
    | output => exact List.nodup_singleton _
  · cases side with
    | input => exact (op.isNew_inputs stamp).2 p hp
    | output => exact List.mem_singleton.mp hp ▸ houtput

/-- **A configuration is taken** by what a node computes with, and changes no more. -/
theorem Node.restore_eq_ok_iff {n m : Node Behaviour} {config : Json} :
    n.restore config = (.ok (), m) ↔
      (∃ op op', n.behaviour = .operation op ∧ op.restore n.panel config = .ok op' ∧
          m = ⟨n.panel, .operation op'⟩) ∨
        ∃ p p', n.behaviour = .probe p ∧ p.restore config = .ok p' ∧ m = ⟨n.panel, .probe p'⟩ := by
  rw [restore]
  cases hb : n.behaviour with
  | operation op => cases hr : op.restore n.panel config <;> simp [hr, eq_comm]
  | probe p => cases hr : p.restore config <;> simp [hr, eq_comm]
  | nested => simp

/-- A node is made as it is, or takes the configuration that is described. -/
theorem Node.configured_eq_ok_iff {n m : Node Behaviour} {d : NodeDescription} {stamp : Nat} :
    ((n.configured d).run stamp).result = .ok m ↔
      (d.config = none ∧ m = n) ∨
        ∃ config, d.config = some config ∧ n.restore config = (.ok (), m) := by
  rw [configured]
  cases hc : d.config with
  | none => simp [eq_comm]
  | some config =>
    dsimp only
    rcases hr : n.restore config with ⟨e | _, m'⟩ <;> simp [hr]

theorem Node.configured_eq_ok {n m : Node Behaviour} {d : NodeDescription} {stamp : Nat}
    (hn : n.inner? = none) (h : ((n.configured d).run stamp).result = .ok m) :
    m.panel = n.panel ∧ m.inner? = none := by
  rcases configured_eq_ok_iff.mp h with ⟨-, rfl⟩ | ⟨config, -, hr⟩
  · exact ⟨rfl, hn⟩
  · rcases restore_eq_ok_iff.mp hr with ⟨_, _, -, -, rfl⟩ | ⟨_, _, -, -, rfl⟩
    · exact ⟨rfl, rfl⟩
    · exact ⟨rfl, rfl⟩

theorem Node.behaviour_of_inner? {n : Node Behaviour} {k : Net} (h : n.inner? = some k) :
    ∃ inputs outputs, n.behaviour = .nested k inputs outputs := by
  rw [inner?] at h
  split at h
  · rename_i inputs outputs hb
    exact ⟨inputs, outputs, hb.trans (by rw [Option.some.inj h])⟩
  · exact absurd h (by simp)

theorem Node.isFresh_of_inner_eq_none {n : Node Behaviour} (hp : n.panel.IsFresh)
    (h : n.inner? = none) : n.IsFresh := by
  refine ⟨hp.detached, hp.idle, fun k inputs outputs hb ↦ ?_⟩
  rw [inner?, hb] at h
  exact absurd h (by simp)

theorem coherent_of_assembled {g : Net} (h : Graph.Assembled Node.IsFresh g) : g.Coherent := by
  have hall : g.Every Behaviour.Sound := by
    induction h with
    | empty => exact fun s hs ↦ absurd hs (by simp)
    | push _ hn _ ih => exact ih.pushNode (hn.idle ▸ hn.sound)
    | insert _ _ _ ih => exact ih.insertLink _
  exact Net.coherent_iff.mpr ⟨h.wellLinked fun _ hn ↦ hn.detached, h.cached, hall⟩

theorem Net.coherent_of_ofDescription {create : NodeDescription → Attempt (Node Behaviour)}
    {factories : FactorySet} {d : GraphDescription} {g : Net} {stamp : Nat}
    (hcreate : ∀ d stamp n, ((create d).run stamp).result = .ok n → n.IsFresh)
    (h : ((Graph.ofDescription create factories d).run stamp).result = .ok g) : g.Coherent := by
  obtain ⟨k, hk, rfl⟩ := assembled_ofDescription hcreate h
  have hk := coherent_of_assembled hk
  exact hk.of_agrees ⟨rfl, rfl, rfl, rfl⟩ (coherent_iff.mp hk).2.2

/-- A node with an operation is made by putting it behind a panel and configuring it. -/
theorem Maker.make_of_operation {maker : Maker} {op : Operation} (h : maker.operation? = some op)
    (factories : FactorySet) (rebuild : GraphDescription → Attempt Net) (d : NodeDescription) :
    maker.make factories rebuild d = (do
      let n ← op.node d.instanceName
      n.configured d) := by
  cases maker with
  | nested => exact absurd h (by simp [operation?])
  | probe name plan => exact absurd h (by simp [operation?])
  | _ =>
    obtain rfl := Option.some.inj h
    rfl

/-- **How a node was made**: what it computes with was put behind a panel and configured, or a net
was wrapped, which is empty unless the configuration describes one. -/
inductive Maker.Made (factories : FactorySet) (rebuild : GraphDescription → Attempt Net)
    (d : NodeDescription) (n : Node Behaviour) : Maker → Prop
  /-- An operation was configured. -/
  | operation {maker : Maker} {op : Operation} {stamp stamp' : Nat}
      (hop : maker.operation? = some op)
      (hn : ((Node.configured ⟨(op.panel d.instanceName stamp).result, .operation op⟩ d).run
        stamp').result = .ok n) : Made factories rebuild d n maker
  /-- A probe was configured. -/
  | probe {name : Option String} {plan : ProbePlan} {m : Node Behaviour} {stamp stamp' : Nat}
      (hm : ((plan.node (name.getD d.instanceName)).run stamp).result = .ok m)
      (hn : ((m.configured d).run stamp').result = .ok n) :
      Made factories rebuild d n (.probe name plan)
  /-- Nothing was described, so the net is empty. -/
  | empty {stamp : Nat} (hc : d.config = none)
      (hn : ((Net.wrap d.instanceName { name := d.instanceName, factories }).run stamp).result =
        .ok n) : Made factories rebuild d n .nested
  /-- The described net was rebuilt. -/
  | rebuilt {config : Json} {inner : GraphDescription} {g : Net} {stamp stamp' : Nat}
      (hc : d.config = some config) (hread : GraphDescription.ofJson config = .ok inner)
      (hg : ((rebuild inner).run stamp).result = .ok g)
      (hn : ((Net.wrap d.instanceName g).run stamp').result = .ok n) :
      Made factories rebuild d n .nested

theorem Maker.made_of_make {maker : Maker} {factories : FactorySet}
    {rebuild : GraphDescription → Attempt Net} {d : NodeDescription} {n : Node Behaviour}
    {stamp : Nat} (h : ((maker.make factories rebuild d).run stamp).result = .ok n) :
    maker.Made factories rebuild d n := by
  cases hop : maker.operation? with
  | some op =>
    rw [make_of_operation hop] at h
    obtain ⟨m, hm, h⟩ := Attempt.of_bind_eq_ok h
    obtain rfl := Except.ok.inj hm
    exact .operation hop h
  | none =>
    cases maker with
    | nested =>
      rw [make] at h
      cases hc : d.config with
      | none =>
        rw [hc] at h
        exact .empty hc h
      | some config =>
        rw [hc] at h
        dsimp only at h
        cases hread : GraphDescription.ofJson config with
        | error e =>
          rw [hread] at h
          exact absurd h (by simp)
        | ok inner =>
          rw [hread] at h
          obtain ⟨g, hg, h⟩ := Attempt.of_bind_eq_ok h
          exact .rebuilt hc hread hg h
    | probe name plan =>
      rw [make] at h
      obtain ⟨m, hm, h⟩ := Attempt.of_bind_eq_ok h
      exact .probe hm h
    | _ => exact absurd hop (by simp [operation?])

/-- A maker makes a new node without a net, or it wraps a net: an empty one or one that was
rebuilt. -/
theorem Maker.make_cases {maker : Maker} {factories : FactorySet}
    {rebuild : GraphDescription → Attempt Net} {d : NodeDescription} {n : Node Behaviour}
    {stamp : Nat} (h : ((maker.make factories rebuild d).run stamp).result = .ok n) :
    (n.panel.IsNew ∧ n.inner? = none) ∨
      ∃ g name stamp', ((Net.wrap name g).run stamp').result = .ok n ∧
        (g = { name := d.instanceName, factories } ∨
          ∃ d' stamp'', ((rebuild d').run stamp'').result = .ok g) := by
  have hconfigured : ∀ {m : Node Behaviour} {stamp : Nat}, m.panel.IsNew → m.inner? = none →
      ((m.configured d).run stamp).result = .ok n → n.panel.IsNew ∧ n.inner? = none := by
    intro m stamp hm hnone hn
    obtain ⟨hpanel, hnone⟩ := Node.configured_eq_ok hnone hn
    exact ⟨hpanel ▸ hm, hnone⟩
  cases made_of_make h with
  | @operation _ op stamp _ hop hn =>
    exact .inl (hconfigured (op.isNew_panel d.instanceName stamp) rfl hn)
  | probe hm hn =>
    obtain ⟨hpanel, hnone⟩ := ProbePlan.isNew_of_node hm
    exact .inl (hconfigured hpanel hnone hn)
  | empty hc hn => exact .inr ⟨_, _, _, hn, .inl rfl⟩
  | @rebuilt _ inner g _ _ hc hread hg hn => exact .inr ⟨g, _, _, hn, .inr ⟨inner, _, hg⟩⟩

theorem Maker.isFresh_of_make {maker : Maker} {factories : FactorySet}
    {rebuild : GraphDescription → Attempt Net} {d : NodeDescription} {n : Node Behaviour}
    {stamp : Nat}
    (hrebuild : ∀ d stamp g, ((rebuild d).run stamp).result = .ok g → Net.Coherent g)
    (h : ((maker.make factories rebuild d).run stamp).result = .ok n) : n.IsFresh := by
  rcases make_cases h with ⟨hpanel, hnone⟩ | ⟨g, _, _, hwrap, rfl | ⟨_, _, hg⟩⟩
  · exact Node.isFresh_of_inner_eq_none hpanel.isFresh hnone
  · exact Net.isFresh_of_wrap (coherent_of_assembled (.empty d.instanceName factories)) hwrap
  · exact Net.isFresh_of_wrap (hrebuild _ _ g hg) hwrap

theorem Panel.IsNew.labelled {n : Node Behaviour} (h : n.panel.IsNew) (d : NodeDescription) :
    (n.labelled d).panel.IsNew where
  ports_nodup side := by cases side <;> [exact h.ports_nodup .input; exact h.ports_nodup .output]
  ports_new side := by cases side <;> [exact h.ports_new .input; exact h.ports_new .output]
  idle := h.idle

theorem Node.IsFresh.labelled {n : Node Behaviour} (h : n.IsFresh) (d : NodeDescription) :
    (n.labelled d).IsFresh where
  detached := h.detached.of_ports_eq fun side ↦ by cases side <;> rfl
  idle := h.idle
  sound := h.sound

/-! ## Factories with any makers -/

namespace FactorySet

/-- Make the described node, where `make` says what the entry of a type makes. -/
def createWith {β : Type} (set : FactorySet)
    (make : FactoryEntry → NodeDescription → Attempt (Node β)) (d : NodeDescription) :
    Attempt (Node β) :=
  match set.find? d.model with
  | none => throw (.unknownType d.model)
  | some entry => do
    let n ← make entry d
    return n.labelled d

/-- Rebuild the net of a node down to a level of nesting. -/
def rebuildWithin (set : FactorySet) (model : String) : Nat → GraphDescription → Attempt Net
  | 0 => fun _ ↦ throw (.unknownType model)
  | level + 1 => Graph.ofDescription (set.createWithin level) set

/-- Factories make nodes in this way, with the makers of their entries. -/
theorem createWithin_eq_createWith (set : FactorySet) (level : Nat) :
    set.createWithin level = set.createWith fun entry d ↦
      entry.maker.make set (set.rebuildWithin d.model level) d := by
  funext d
  cases level <;> rw [createWithin] <;> rfl

theorem createNode_eq_createWith (set : FactorySet) :
    set.createNode = set.createWith fun entry d ↦ entry.maker.make set
      (set.rebuildWithin d.model ((d.config.map Json.depth).getD 0)) d := by
  funext d
  rw [createNode, createWithin_eq_createWith]
  rfl

section

variable {β : Type} {set : FactorySet} {make : FactoryEntry → NodeDescription → Attempt (Node β)}
  {d : NodeDescription} {stamp : Nat}

theorem createWith_eq_ok {n : Node β} (h : ((set.createWith make d).run stamp).result = .ok n) :
    ∃ entry m, set.find? d.model = some entry ∧ ((make entry d).run stamp).result = .ok m ∧
      n = m.labelled d := by
  rw [createWith] at h
  cases hf : set.find? d.model with
  | none =>
    rw [hf] at h
    exact absurd h (by simp)
  | some entry =>
    rw [hf] at h
    obtain ⟨m, hm, h⟩ := Attempt.of_bind_eq_ok h
    exact ⟨entry, m, rfl, hm, (Except.ok.inj h).symm⟩

theorem createWith_of_find? {entry : FactoryEntry} {m : Node β}
    (hf : set.find? d.model = some entry) (hm : ((make entry d).run stamp).result = .ok m) :
    ((set.createWith make d).run stamp).result = .ok (m.labelled d) := by
  rw [createWith, hf]
  exact Attempt.run_bind_of_ok hm

end

end FactorySet

/-- **What is true of all nodes that factories make**: it is true of a node if it is true of those
that the net in it was rebuilt of.  By induction on the levels of nesting. -/
theorem FactorySet.createWithin_induction {set : FactorySet} {P : Node Behaviour → Prop}
    {R : Net → Prop}
    (rebuilt : ∀ {create : NodeDescription → Attempt (Node Behaviour)},
      (∀ d stamp n, ((create d).run stamp).result = .ok n → P n) →
      ∀ d stamp g, ((Graph.ofDescription create set d).run stamp).result = .ok g → R g)
    (made : ∀ {entry : FactoryEntry} {rebuild : GraphDescription → Attempt Net}
      {d : NodeDescription} {n : Node Behaviour} {stamp : Nat}, set.find? d.model = some entry →
      (∀ d stamp g, ((rebuild d).run stamp).result = .ok g → R g) →
      ((entry.maker.make set rebuild d).run stamp).result = .ok n → P (n.labelled d))
    (level : Nat) {d : NodeDescription} {n : Node Behaviour} {stamp : Nat}
    (h : ((set.createWithin level d).run stamp).result = .ok n) : P n := by
  have hmade : ∀ level, (∀ model d stamp g,
      ((set.rebuildWithin model level d).run stamp).result = .ok g → R g) →
      ∀ {d n stamp}, ((set.createWithin level d).run stamp).result = .ok n → P n := by
    intro level hrebuild d n stamp h
    rw [createWithin_eq_createWith] at h
    obtain ⟨entry, m, hf, hm, rfl⟩ := createWith_eq_ok h
    exact made hf (hrebuild d.model) hm
  induction level generalizing d n stamp with
  | zero => exact hmade 0 (fun _ _ _ _ hg ↦ absurd hg (by simp [rebuildWithin])) h
  | succ level ih => exact hmade (level + 1) (fun _ ↦ rebuilt fun _ _ _ ↦ ih) h

/-- **Every node that a factory makes is new**, and the nets in it are coherent. -/
theorem FactorySet.isFresh_of_createWithin (set : FactorySet) (level : Nat)
    {d : NodeDescription} {n : Node Behaviour} {stamp : Nat}
    (h : ((set.createWithin level d).run stamp).result = .ok n) : n.IsFresh :=
  createWithin_induction (fun hcreate _ _ _ ↦ Net.coherent_of_ofDescription hcreate)
    (fun _ hrebuild hm ↦ (Maker.isFresh_of_make hrebuild hm).labelled _) level h

/-- The same induction, for what is to be true of new nodes and of coherent nets. -/
theorem FactorySet.createWithin_induction_of_isFresh {set : FactorySet} {P : Node Behaviour → Prop}
    {R : Net → Prop}
    (rebuilt : ∀ {create : NodeDescription → Attempt (Node Behaviour)},
      (∀ d stamp n, ((create d).run stamp).result = .ok n → n.IsFresh ∧ P n) →
      ∀ d stamp g, ((Graph.ofDescription create set d).run stamp).result = .ok g → R g)
    (made : ∀ {entry : FactoryEntry} {rebuild : GraphDescription → Attempt Net}
      {d : NodeDescription} {n : Node Behaviour} {stamp : Nat}, set.find? d.model = some entry →
      (∀ d stamp g, ((rebuild d).run stamp).result = .ok g → Net.Coherent g ∧ R g) →
      ((entry.maker.make set rebuild d).run stamp).result = .ok n → P (n.labelled d))
    (level : Nat) {d : NodeDescription} {n : Node Behaviour} {stamp : Nat}
    (h : ((set.createWithin level d).run stamp).result = .ok n) : P n := by
  refine (createWithin_induction (P := fun n ↦ n.IsFresh ∧ P n) (R := fun g ↦ Net.Coherent g ∧ R g)
    (fun hcreate d stamp g hg ↦ ⟨?_, rebuilt hcreate d stamp g hg⟩)
    (fun hf hrebuild hm ↦ ⟨?_, made hf hrebuild hm⟩) level h).2
  · exact Net.coherent_of_ofDescription (fun d stamp n hn ↦ (hcreate d stamp n hn).1) hg
  · exact (Maker.isFresh_of_make (fun d stamp g hg ↦ (hrebuild d stamp g hg).1) hm).labelled _

/-- Every node that a factory makes has nothing but new ports. -/
theorem FactorySet.isNew_of_createWithin (set : FactorySet) (level : Nat)
    {d : NodeDescription} {n : Node Behaviour} {stamp : Nat}
    (h : ((set.createWithin level d).run stamp).result = .ok n) : n.panel.IsNew := by
  refine createWithin_induction (P := fun n ↦ n.panel.IsNew) (R := fun _ ↦ True)
    (fun _ _ _ _ _ ↦ trivial) (fun _ _ hm ↦ ?_) level h
  rcases Maker.make_cases hm with ⟨hpanel, -⟩ | ⟨_, _, _, hwrap, -⟩
  · exact hpanel.labelled _
  · exact (Net.isNew_of_wrap hwrap).1.labelled _

end PortGraph
