import PortGraph.Proofs.Graph.Persists
import PortGraph.Proofs.Net.Account

/-!
# Nets in the hands of a host

`Port.IsMade` lists the ports that a host makes, `Node.Handled` what it may do to a node that it has a
hold of, and `Net.Built` and `Node.Built` the nets and the nodes that come of it.  A host may also reach
for a node that is in a net, add ports to it, put packets on them or call it, and the net is not told.
A net that was put in a node is not in the hands of the host any more.

So little is known of these nets that some may be ready without being fit to execute.  But their links
and ports belong together, and no output asks to be supplied (`Net.Built.orderly`).
-/

set_option autoImplicit false

namespace PortGraph

open PortGraph.Graph
open PortGraph.Net (coherent_iff isNew_of_wrap parts_of_wrap)

/-! ## What a host makes -/

/-- **A port that a host makes**, before it adds it to a node. -/
inductive Port.IsMade : Port → Prop
  /-- It has a name, and carries something. -/
  | new (name : String) (direction : Direction) (dataType : DataType) :
      IsMade { name, direction, dataType }
  /-- It asks to be supplied. -/
  | required {p : Port} (h : IsMade p) : IsMade p.require
  /-- It falls back on a packet. -/
  | defaulted {p : Port} (h : IsMade p) (packet : Packet) : IsMade { p with default := some packet }
  /-- It was filled or emptied. -/
  | stored {p : Port} (h : IsMade p) (packet : Option Packet) : IsMade (p.store packet)

/-- **What a host may do to a node** that it has a hold of. -/
inductive Node.Handled (n : Node Behaviour) : Node Behaviour → Prop
  /-- A port was added. -/
  | extended {side : Direction} {p : Port} {i : Nat} {panel : Panel} (hp : p.IsMade)
      (ha : n.panel.addPort side p = .ok (i, panel)) : Handled n { n with panel }
  /-- A packet was put on an input. -/
  | injected {port : String} {packet : Packet} {panel : Panel}
      (hp : n.panel.inject port packet = .ok panel) : Handled n { n with panel }
  /-- A packet was put on an output. -/
  | published {port : String} {packet : Packet} {panel : Panel}
      (hp : n.panel.publish port packet = .ok panel) : Handled n { n with panel }
  /-- Its outputs were emptied. -/
  | emptied : Handled n (n.mapPanel Panel.resetOutputs)
  /-- The host attached some data. -/
  | annotated (metadata : Option Json) : Handled n (n.mapPanel fun panel ↦ { panel with metadata })
  /-- The host made it get ready. -/
  | initialized (stamp : Nat) : Handled n (n.life.init n stamp).result.2
  /-- The host made it execute. -/
  | executed (stamp : Nat) : Handled n (n.life.execute n stamp).result.2
  /-- The host made it give back what it took. -/
  | destroyed (stamp : Nat) : Handled n (n.life.destroy n stamp).result
  /-- A configuration was handed to it. -/
  | restored (config : Json) : Handled n (n.restore config).2
  /-- A node that holds no net computes with something else from now on. -/
  | altered {m : Node Behaviour} (hp : m.panel = n.panel) (hn : n.inner? = none)
      (hm : m.inner? = none) : Handled n m

mutual

/-- **The nets that a host has in its hands.** -/
inductive Net.Built : Net → Prop
  /-- A new net is empty. -/
  | empty (name : String) (factories : FactorySet) : Net.Built { name, factories }
  /-- A net was made of a description. -/
  | described {factories : FactorySet} {d : GraphDescription} {stamp : Nat} {g : Net}
      (h : ((Net.ofDescription factories d).run stamp).result = .ok g) : Net.Built g
  /-- The host asked for something.  The id of a link is new. -/
  | step {g : Net} {stamp : Nat} (r : Request Behaviour) (h : Net.Built g)
      (hnode : ∀ n, r = .addNode n → Node.Built n)
      (hfresh : ∀ source target, r = .addLink source target →
        ∀ l ∈ g.links, l.id ≠ (Act.newLinkId stamp).result) :
      Net.Built (r.perform g.life FactorySet.createNode g stamp).result
  /-- The net was saved. -/
  | saved {g : Net} (path : String) (stamp : Nat) (h : Net.Built g) :
      Net.Built (g.markSaved path stamp).result
  /-- The host did something to one of its nodes. -/
  | handled {g : Net} {name : String} {n m : Node Behaviour} (h : Net.Built g)
      (hn : g.node? name = some n) (hm : n.Handled m) : Net.Built (g.modifyNode name fun _ ↦ m)

/-- **The nodes that a host has in its hands.** -/
inductive Node.Built : Node Behaviour → Prop
  /-- A new node has no ports yet. -/
  | plain (name typeName : String) {b : Behaviour} (hn : Node.inner? ⟨{ name, typeName }, b⟩ = none) :
      Node.Built ⟨{ name, typeName }, b⟩
  /-- A node that holds a net. -/
  | wrapped {g : Net} {name : String} {stamp : Nat} {n : Node Behaviour} (h : Net.Built g)
      (hn : ((Net.wrap name g).run stamp).result = .ok n) : Node.Built n
  /-- A node that was made by factories. -/
  | created {factories : FactorySet} {d : NodeDescription} {stamp : Nat} {n : Node Behaviour}
      (hn : ((factories.createNode d).run stamp).result = .ok n) : Node.Built n
  /-- A node that was taken out of a net. -/
  | removed {g : Net} {name : String} {stamp : Nat} {n : Node Behaviour} (h : Net.Built g)
      (hn : (g.removeNode name stamp).result.1 = .ok n) : Node.Built n
  /-- The host did something to it. -/
  | handled {n m : Node Behaviour} (h : Node.Built n) (hm : n.Handled m) : Node.Built m

end

/-! ## Outputs that ask for nothing -/

/-- No output asks to be supplied. -/
def Panel.AsksNoOutput (panel : Panel) : Prop := ∀ p ∈ panel.outputs, p.isRequired = false

theorem Port.IsMade.linkCount {p : Port} (h : p.IsMade) : p.linkCount = 0 := by
  induction h with
  | new => rfl
  | @required p _ ih =>
    rw [Port.require]
    split <;> exact ih
  | defaulted _ _ ih => exact ih
  | stored _ _ ih => exact ih

/-- **Asking for an output is of no avail.** -/
theorem Port.IsMade.isRequired {p : Port} (h : p.IsMade) (hd : p.direction = .output) :
    p.isRequired = false := by
  induction h with
  | new => rfl
  | @required p _ ih =>
    rw [Port.require] at hd ⊢
    split at hd
    · rename_i hinput
      exact absurd (hinput.symm.trans hd) (by simp)
    · exact ih hd
  | defaulted _ _ ih => exact ih hd
  | stored _ _ ih => exact ih hd

theorem PortPlan.isMade_make (plan : PortPlan) (stamp : Nat) : (plan.make stamp).result.IsMade := by
  have hplain : ∀ packet : Option Packet, Port.IsMade
      { name := plan.name, direction := plan.direction, dataType := plan.dataType,
        default := packet } := by
    rintro (_ | packet)
    · exact .new _ _ _
    · exact (Port.IsMade.new plan.name plan.direction plan.dataType).defaulted packet
  rw [make]
  simp only [Act.bind_apply, Act.pure_apply]
  split
  · exact (hplain _).required
  · exact hplain _

namespace Panel

variable {panel panel' : Panel}

theorem asksNoOutput_bare (name typeName : String) : ({ name, typeName } : Panel).AsksNoOutput :=
  fun p hp ↦ absurd hp (by simp)

theorem AsksNoOutput.addPort {side : Direction} {p : Port} {i : Nat} (h : panel.AsksNoOutput)
    (hp : p.IsMade) (ha : panel.addPort side p = .ok (i, panel')) : panel'.AsksNoOutput := by
  have hall := forall_ports_addPort (Q := fun side p ↦ side = .output → p.isRequired = false)
    (by rintro side q hq rfl; exact h q hq) (fun hd hside ↦ hp.isRequired (hd.trans hside)) ha
  exact fun q hq ↦ hall .output q hq rfl

theorem AsksNoOutput.addPlanned {side : Direction} {plans : List PortPlan} {stamp : Nat}
    (h : panel.AsksNoOutput)
    (ha : ((Panel.addPlanned side plans panel).run stamp).result = .ok panel') :
    panel'.AsksNoOutput := by
  induction plans generalizing panel stamp with
  | nil =>
    obtain rfl := Except.ok.inj ha
    exact h
  | cons plan plans ih =>
    rw [Panel.addPlanned] at ha
    obtain ⟨p, hp, ha⟩ := Attempt.of_bind_eq_ok ha
    obtain ⟨⟨i, panel₁⟩, hport, ha⟩ := Attempt.of_bind_eq_ok ha
    have hmake : p = (plan.make stamp).result := (Except.ok.inj hp).symm
    exact ih (h.addPort (hmake ▸ plan.isMade_make stamp) hport) ha

/-- It is a matter of what lasts of the ports. -/
theorem AsksNoOutput.of_lasting_eq (h : panel.AsksNoOutput)
    (hp : (panel'.ports .output).map Port.lasting = (panel.ports .output).map Port.lasting) :
    panel'.AsksNoOutput := by
  intro p hm
  have hmem : p.lasting ∈ (panel.ports .output).map Port.lasting := hp ▸ List.mem_map_of_mem hm
  obtain ⟨q, hq, heq⟩ := List.mem_map.mp hmem
  have hrequired : q.lasting.isRequired = p.lasting.isRequired := congrArg Port.isRequired heq
  exact hrequired.symm.trans (h q hq)

end Panel

theorem Node.Persists.asksNoOutput {γ : Type} {T : Behaviour → γ} {n m : Node Behaviour}
    (h : n.Persists T m) (hn : n.panel.AsksNoOutput) : m.panel.AsksNoOutput :=
  hn.of_lasting_eq (h.ports .output)

theorem Net.asksNoOutput_of_addOuterOutputs {getters : List Accessor} {panel panel' : Panel}
    (h : panel.AsksNoOutput) (ha : addOuterOutputs getters panel = .ok panel') :
    panel'.AsksNoOutput := by
  induction getters generalizing panel with
  | nil =>
    obtain rfl := Except.ok.inj ha
    exact h
  | cons inner rest ih =>
    rw [addOuterOutputs] at ha
    obtain ⟨⟨i, panel₁⟩, hport, ha⟩ := bind_eq_ok ha
    exact ih (h.addPort (.new _ _ _) hport) ha

theorem Net.asksNoOutput_of_addOuterInputs {setters : List Accessor} {panel panel' : Panel}
    {g k : Net} (h : panel.AsksNoOutput) (ha : addOuterInputs setters panel g = .ok (panel', k)) :
    panel'.AsksNoOutput := by
  induction setters generalizing panel g with
  | nil =>
    obtain ⟨rfl, -⟩ := Prod.mk.inj (Except.ok.inj ha)
    exact h
  | cons inner rest ih =>
    rw [addOuterInputs] at ha
    obtain ⟨⟨panel₁, g₁⟩, hadd, ha⟩ := bind_eq_ok ha
    obtain ⟨-, rfl⟩ := addOuterInput_eq_ok hadd
    have hpanel₁ : ∀ inputs, ({ panel with inputs } : Panel).AsksNoOutput := fun _ ↦ h
    exact ih (hpanel₁ _) ha

theorem Net.asksNoOutput_of_wrap {g : Net} {name : String} {stamp : Nat} {n : Node Behaviour}
    (hn : ((wrap name g).run stamp).result = .ok n) : n.panel.AsksNoOutput := by
  obtain ⟨_, _, _, hinputs, houtputs, rfl⟩ := parts_of_wrap hn
  exact asksNoOutput_of_addOuterOutputs
    (asksNoOutput_of_addOuterInputs (Panel.asksNoOutput_bare name nestedType) hinputs) houtputs

/-- A maker makes a node whose outputs ask for nothing. -/
theorem Maker.asksNoOutput_of_make {maker : Maker} {factories : FactorySet}
    {rebuild : GraphDescription → Attempt Net} {d : NodeDescription} {n : Node Behaviour}
    {stamp : Nat} (h : ((maker.make factories rebuild d).run stamp).result = .ok n) :
    n.panel.AsksNoOutput := by
  cases made_of_make h with
  | @operation _ op _ _ _ hn =>
    rw [(Node.configured_eq_ok rfl hn).1]
    intro p hp
    obtain rfl := List.mem_singleton.mp hp
    cases op <;> rfl
  | probe hm hn =>
    rw [(Node.configured_eq_ok (ProbePlan.isNew_of_node hm).2 hn).1]
    obtain ⟨panel, hpanel, hm⟩ := Attempt.of_bind_eq_ok hm
    obtain rfl := Except.ok.inj hm
    obtain ⟨panel₁, hinputs, houtputs⟩ := Attempt.of_bind_eq_ok hpanel
    exact ((Panel.asksNoOutput_bare _ _).addPlanned hinputs).addPlanned houtputs
  | empty _ hn => exact Net.asksNoOutput_of_wrap hn
  | rebuilt _ _ _ hn => exact Net.asksNoOutput_of_wrap hn

theorem FactorySet.asksNoOutput_of_createWithin (set : FactorySet) (level : Nat)
    {d : NodeDescription} {n : Node Behaviour} {stamp : Nat}
    (h : ((set.createWithin level d).run stamp).result = .ok n) : n.panel.AsksNoOutput := by
  refine createWithin_induction (P := fun n ↦ n.panel.AsksNoOutput) (R := fun _ ↦ True)
    (fun _ _ _ _ _ ↦ trivial) (fun _ _ hm ↦ ?_) level h
  have hasks := Maker.asksNoOutput_of_make hm
  exact hasks

/-! ## What is done to a node -/

/-- What a host does to a node leaves its outline, or adds a port behind the others. -/
theorem Node.Handled.cases {n m : Node Behaviour} (h : n.Handled m) :
    m.panel.outline = n.panel.outline ∨
      ∃ side p i, Port.IsMade p ∧ n.panel.addPort side p = .ok (i, m.panel) := by
  cases h with
  | extended hp ha => exact .inr ⟨_, _, _, hp, ha⟩
  | injected hp =>
    obtain rfl := Panel.inject_eq_ok hp
    exact .inl (Panel.outline_withPorts_of_map (Port.map_modifyNamed_of_eq fun _ ↦ rfl))
  | published hp => exact .inl (Panel.outline_publish hp)
  | emptied => exact .inl n.panel.outline_resetOutputs
  | annotated metadata => exact .inl rfl
  | initialized stamp => exact .inl ((keepsOutline_life _).init n stamp)
  | executed stamp => exact .inl ((keepsOutline_life _).execute n stamp)
  | destroyed stamp => exact .inl ((keepsOutline_life _).destroy n stamp)
  | restored config =>
    refine .inl (congrArg Panel.outline ?_)
    rw [restore]
    split
    · split <;> rfl
    · split <;> rfl
    · rfl
  | altered hp => exact .inl (congrArg Panel.outline hp)

theorem Panel.ports_eq_of_outline_eq {panel panel' : Panel} (h : panel'.outline = panel.outline)
    (side : Direction) : (panel'.ports side).map (·.store none) =
      (panel.ports side).map (·.store none) := by
  rw [← ports_outline, h, ports_outline]

theorem Panel.lasting_eq_of_outline_eq {panel panel' : Panel} (h : panel'.outline = panel.outline)
    (side : Direction) : (panel'.ports side).map Port.lasting =
      (panel.ports side).map Port.lasting := by
  have hports := congrArg (List.map Port.lasting) (ports_eq_of_outline_eq h side)
  rw [List.map_map, List.map_map] at hports
  exact hports

/-- What is found on a panel to which a port was added: what was there, or the port. -/
theorem Panel.port?_addPort {panel panel' : Panel} {side : Direction} {p : Port} {i : Nat}
    (ha : panel.addPort side p = .ok (i, panel')) (side' : Direction) (name : String) (q : Port) :
    panel'.port? side' name = some q ↔
      panel.port? side' name = some q ∨ (side' = side ∧ name = p.name ∧ q = p) := by
  obtain ⟨-, hnew, rfl⟩ := addPort_eq_ok ha
  rw [port?, ports_withPorts]
  by_cases hside : side' = side
  · subst hside
    rw [if_pos rfl, port?, Port.named?, List.find?_append]
    cases hq : (panel.ports side').find? (fun r ↦ decide (r.name = name)) with
    | some r =>
      obtain ⟨hr, rfl⟩ := Port.mem_of_named? hq
      have hne : r.name ≠ p.name := fun he ↦ hnew (he ▸ List.mem_map_of_mem hr)
      simp [Port.named?, hq, hne]
    | none =>
      rw [Port.named?, hq]
      by_cases hname : name = p.name <;> simp [hname, eq_comm]
  · rw [if_neg hside, port?]
    simp [hside]

theorem Panel.IsDetached.addPort {panel panel' : Panel} (h : panel.IsDetached) {side : Direction}
    {p : Port} {i : Nat} (hp : p.linkCount = 0) (ha : panel.addPort side p = .ok (i, panel')) :
    panel'.IsDetached :=
  ⟨ports_nodup_addPort h.ports_nodup ha,
    forall_ports_addPort (Q := fun _ p ↦ p.linkCount = 0) h.unlinked (fun _ ↦ hp) ha⟩

theorem Node.Handled.isDetached {n m : Node Behaviour} (h : n.Handled m) (hn : n.panel.IsDetached) :
    m.panel.IsDetached := by
  rcases h.cases with houtline | ⟨side, p, i, hp, ha⟩
  · exact hn.of_ports_eq (Panel.ports_eq_of_outline_eq houtline)
  · exact hn.addPort hp.linkCount ha

theorem Node.Handled.asksNoOutput {n m : Node Behaviour} (h : n.Handled m)
    (hn : n.panel.AsksNoOutput) : m.panel.AsksNoOutput := by
  rcases h.cases with houtline | ⟨side, p, i, hp, ha⟩
  · exact hn.of_lasting_eq (Panel.lasting_eq_of_outline_eq houtline .output)
  · exact hn.addPort hp ha

namespace Graph

variable {β : Type} {g k : Graph β} {name : String} {n m : Node β}

/-- A place where a node was put, or one that was left alone. -/
theorem mem_modifyNode_const {s : Slot β}
    (hs : s ∈ (g.modifyNode name fun _ ↦ m).slots) :
    s = ⟨name, m⟩ ∨ s ∈ g.slots ∧ s.key ≠ name := by
  obtain ⟨r, hr, rfl⟩ := List.mem_map.mp hs
  split
  · rename_i hkey
    exact .inl (by rw [Slot.mapNode, hkey])
  · rename_i hkey
    exact .inr ⟨hr, hkey⟩

/-- A node of the same outline in the place of another one. -/
theorem WellLinked.modifyNode_of_outline_eq (h : g.WellLinked) (hn : g.node? name = some n)
    (ho : m.panel.outline = n.panel.outline) : (g.modifyNode name fun _ ↦ m).WellLinked := by
  have himage : (g.modifyNode name fun _ ↦ m).image (fun _ ↦ ()) = g.image fun _ ↦ () := by
    refine image_map fun s hs ↦ ?_
    split
    · rename_i hkey
      have hnode := h.node?_of_mem hs
      rw [hkey, hn] at hnode
      obtain rfl := Option.some.inj hnode
      exact ⟨rfl, Panel.bare_eq_of_outline_eq ho, rfl⟩
    · exact ⟨rfl, rfl, rfl⟩
  exact h.of_skeleton_eq (skeleton_of_image_eq himage)

/-- **A port that is added to a node** of a graph is one that no link touches. -/
theorem WellLinked.addPort (h : g.WellLinked) (hn : g.node? name = some n) {side : Direction}
    {p : Port} {i : Nat} (hp : p.linkCount = 0) (ha : n.panel.addPort side p = .ok (i, m.panel)) :
    (g.modifyNode name fun _ ↦ m).WellLinked := by
  obtain ⟨-, hnew, hpanel⟩ := Panel.addPort_eq_ok ha
  have hnode : ∀ other, (g.modifyNode name fun _ ↦ m).node? other =
      if other = name then some m else g.node? other := by
    intro other
    rw [node?_modifyNode, hn]
    rfl
  have hname : m.name = n.name := (congrArg Panel.name hpanel).trans (Panel.withPorts_name ..)
  -- what was found on the node still is, and what is found otherwise is the new port
  have hport : ∀ side' e q, (g.modifyNode name fun _ ↦ m).port? side' e = some q ↔
      g.port? side' e = some q ∨ (side' = side ∧ e = ⟨name, p.name⟩ ∧ q = p) := by
    rintro side' ⟨other, port⟩ q
    rw [port?, port?, hnode]
    by_cases hother : other = name
    · subst hother
      rw [if_pos rfl, hn]
      simpa using Panel.port?_addPort ha side' port q
    · rw [if_neg hother]
      simp [hother]
  refine ⟨?_, ?_, h.ids_nodup, ?_, ?_, h.once⟩
  · rw [nodeNames_modifyNode]
    exact h.keys_nodup
  · intro s hs
    rcases mem_modifyNode_const hs with rfl | ⟨hs, -⟩
    · have hregular := h.regular _ (mem_of_node? hn)
      exact ⟨hname.trans hregular.name_eq, Panel.ports_nodup_addPort hregular.ports_nodup ha⟩
    · exact h.regular s hs
  · intro l hl side'
    obtain ⟨q, hq, ht⟩ := h.ends l hl side'
    exact ⟨q, (hport _ _ _).mpr (.inl hq), ht⟩
  · intro side' e q hq
    rcases (hport _ _ _).mp hq with hq | ⟨rfl, rfl, rfl⟩
    · exact h.counted side' e q hq
    · rw [hp, eq_comm, degree, List.countP_eq_zero]
      intro l hl he
      obtain ⟨q, hq, -⟩ := h.ends l hl side'
      rw [decide_eq_true_eq.mp he, port?, hn] at hq
      obtain ⟨hq, hqname⟩ := Port.mem_of_named? hq
      exact hnew (List.mem_map.mpr ⟨_, hq, hqname⟩)

end Graph

/-! ## Nets and nodes are orderly -/

/-- The links and ports of a net belong together, and no output asks to be supplied. -/
structure Net.IsOrderly (g : Net) : Prop where
  /-- The links and ports belong together. -/
  wellLinked : g.WellLinked
  /-- No output asks to be supplied. -/
  asks : ∀ s ∈ g.slots, s.node.panel.AsksNoOutput

/-- No link touches a node, and none of its outputs asks to be supplied. -/
structure Node.IsOrderly (n : Node Behaviour) : Prop where
  /-- No link touches it. -/
  detached : n.panel.IsDetached
  /-- No output asks to be supplied. -/
  asks : n.panel.AsksNoOutput

theorem Behaviour.keepsTrait_unit (life : Lifecycle Behaviour) : life.KeepsTrait fun _ ↦ () :=
  ⟨fun _ _ ↦ rfl, fun _ _ ↦ rfl, fun _ _ ↦ rfl⟩

theorem FactorySet.isOrderly_of_createNode {set : FactorySet} {d : NodeDescription}
    {n : Node Behaviour} {stamp : Nat} (h : ((set.createNode d).run stamp).result = .ok n) :
    n.IsOrderly :=
  ⟨(set.isFresh_of_createWithin _ h).detached, set.asksNoOutput_of_createWithin _ h⟩

/-- Whatever is asked of an orderly net, it stays so. -/
theorem Net.IsOrderly.perform {g : Net} (h : g.IsOrderly) {r : Request Behaviour} {stamp : Nat}
    (hnode : ∀ n, r = .addNode n → n.IsOrderly)
    (hfresh : ∀ source target, r = .addLink source target →
      ∀ l ∈ g.links, l.id ≠ (Act.newLinkId stamp).result) :
    Net.IsOrderly (r.perform g.life FactorySet.createNode g stamp).result := by
  have hlife := keepsOutline_life (Behaviour.slotsDepth g.slots + 1)
  have hleft : r.MayLeave g.life FactorySet.createNode g stamp
      (r.perform g.life FactorySet.createNode g stamp).result := r.perform_mayLeave
  have hbrings : ∀ n, r.Brings FactorySet.createNode g n → n.IsOrderly := by
    intro n hn
    cases r with
    | addNode m => exact hnode n (congrArg Request.addNode hn.symm)
    | createNode d =>
      obtain ⟨_, hd⟩ := hn
      exact FactorySet.isOrderly_of_createNode hd
    | _ => exact hn.elim
  refine ⟨h.wellLinked.of_mayLeave hlife (fun n hn ↦ (hbrings n hn).detached) hfresh hleft,
    fun s hs ↦ ?_⟩
  rcases persists_of_mayLeave h.wellLinked.keys_nodup hlife (Behaviour.keepsTrait_unit g.life) hleft
    s hs with hnew | ⟨o, ho, hpersists⟩
  · exact (hbrings s.node hnew).asks
  · exact hpersists.asksNoOutput (h.asks o ho)

theorem Net.IsOrderly.handled {g : Net} (h : g.IsOrderly) {name : String} {n m : Node Behaviour}
    (hn : g.node? name = some n) (hm : n.Handled m) :
    Net.IsOrderly (g.modifyNode name fun _ ↦ m) where
  wellLinked := by
    rcases hm.cases with houtline | ⟨side, p, i, hp, ha⟩
    · exact h.wellLinked.modifyNode_of_outline_eq hn houtline
    · exact h.wellLinked.addPort hn hp.linkCount ha
  asks s hs := by
    rcases mem_modifyNode_const hs with rfl | ⟨hs, -⟩
    · exact hm.asksNoOutput (h.asks _ (mem_of_node? hn))
    · exact h.asks s hs

theorem Net.isOrderly_of_assembled {g : Net} (h : Graph.Assembled Node.IsOrderly g) : g.IsOrderly where
  wellLinked := h.wellLinked fun _ hn ↦ hn.detached
  asks s hs := by
    obtain ⟨n, hn, hpersists⟩ := persists_of_assembled (T := fun _ ↦ ()) h s hs
    exact hpersists.asksNoOutput hn.asks

mutual

/-- **Every net that a host has in its hands is orderly.** -/
theorem Net.Built.orderly : ∀ {g : Net}, g.Built → g.IsOrderly
  | _, .empty name factories => Net.isOrderly_of_assembled (.empty name factories)
  | _, .described h => by
    obtain ⟨k, hk, rfl⟩ : ∃ k, Graph.Assembled Node.IsOrderly k ∧ _ = { k with isModified := false } :=
      assembled_ofDescription (fun _ _ _ ↦ FactorySet.isOrderly_of_createNode) h
    have horderly := Net.isOrderly_of_assembled hk
    exact ⟨horderly.wellLinked.of_skeleton_eq rfl, horderly.asks⟩
  | _, .step _ h hnode hfresh => h.orderly.perform (fun n hr ↦ (hnode n hr).orderly) hfresh
  | _, .saved _ _ h => ⟨h.orderly.wellLinked.of_skeleton_eq rfl, h.orderly.asks⟩
  | _, .handled h hn hm => h.orderly.handled hn hm

/-- **Every node that a host has in its hands is orderly.** -/
theorem Node.Built.orderly : ∀ {n : Node Behaviour}, n.Built → n.IsOrderly
  | _, .plain name typeName _ =>
    ⟨(Panel.isNew_bare name typeName).isFresh.detached, Panel.asksNoOutput_bare name typeName⟩
  | _, .wrapped _ hn => ⟨(isNew_of_wrap hn).1.isFresh.detached, Net.asksNoOutput_of_wrap hn⟩
  | _, .created hn => FactorySet.isOrderly_of_createNode hn
  | _, .removed h hn => by
    refine ⟨h.orderly.wellLinked.isDetached_of_removeNode (keepsOutline_life _) hn, ?_⟩
    obtain ⟨o, ho, hpersists⟩ :=
      persists_of_removeNode (keepsOutline_life _) (Behaviour.keepsTrait_unit _) hn
    exact hpersists.asksNoOutput (h.orderly.asks o ho)
  | _, .handled h hm => ⟨hm.isDetached h.orderly.detached, hm.asksNoOutput h.orderly.asks⟩

end

end PortGraph
