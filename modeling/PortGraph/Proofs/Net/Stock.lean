import PortGraph.Proofs.Net.Create
import PortGraph.Proofs.Net.Wrapped

/-!
# New built-in nodes

A built-in node that nothing feeds yet (`Node.IsStock`) is what a net of built-in nodes makes that
no other net feeds (`Net.isStock_of_wrap`), and what factories make unless they make probes
(`FactorySet.isStock_of_createWithin`, by induction on the levels of nesting).
-/

set_option autoImplicit false

namespace PortGraph

open PortGraph.Graph

namespace Net

variable {g k : Net}

/-! ## Nets that are put together -/

/-- Changing on a port what it was not made with. -/
theorem IsBuiltin.modifyPort (h : g.IsBuiltin) {side : Direction} {e : Endpoint} {f : Port → Port}
    (hf : ∀ p, (f p).declared = p.declared) : Net.IsBuiltin (g.modifyPort side e f) := by
  intro s hs
  obtain ⟨r, hr, rfl⟩ := List.mem_map.mp hs
  split
  · refine (h r hr).congr (fun side' ↦ ?_) rfl
    simp only [Slot.mapNode, Node.mapPanel, Panel.modifyPort, Panel.ports_withPorts]
    split
    · rename_i hside
      rw [Port.map_modifyNamed_of_eq hf, hside]
    · rfl
  · exact h r hr

/-- What is true of all inputs stays so where changing a port keeps it. -/
theorem forall_inputs_modifyPort {P : Port → Prop} (h : ∀ s ∈ g.slots, ∀ p ∈ s.node.panel.inputs, P p)
    {side : Direction} {e : Endpoint} {f : Port → Port} (hf : ∀ p, P p → P (f p)) :
    ∀ s ∈ (g.modifyPort side e f).slots, ∀ p ∈ s.node.panel.inputs, P p := by
  have hmodify : ∀ (name : String) (ports : List Port), (∀ p ∈ ports, P p) →
      ∀ p ∈ Port.modifyNamed name f ports, P p := by
    intro name ports hports
    induction ports with
    | nil => exact hports
    | cons p ports ih =>
      obtain ⟨hp, hports⟩ := List.forall_mem_cons.mp hports
      rw [Port.modifyNamed]
      split
      · exact List.forall_mem_cons.mpr ⟨hf p hp, hports⟩
      · exact List.forall_mem_cons.mpr ⟨hp, ih hports⟩
  intro s hs
  obtain ⟨r, hr, rfl⟩ := List.mem_map.mp hs
  split
  · cases side with
    | output => exact h r hr
    | input => exact hmodify e.port _ (h r hr)
  · exact h r hr

theorem IsOutermost.modifyPort (h : g.IsOutermost) {side : Direction} {e : Endpoint}
    {f : Port → Port} (hf : ∀ p, (f p).isExposed = p.isExposed) :
    Net.IsOutermost (g.modifyPort side e f) :=
  forall_inputs_modifyPort h fun p hp ↦ (hf p).trans hp

/-- No input holds a value. -/
def IsVacant (g : Net) : Prop := ∀ s ∈ g.slots, ∀ p ∈ s.node.panel.inputs, p.stored = none

theorem IsBuiltin.insertLink (h : g.IsBuiltin) (l : Link) : Net.IsBuiltin (g.insertLink l) :=
  (h.modifyPort (f := Port.attach) fun _ ↦ rfl).modifyPort fun _ ↦ rfl

theorem IsOutermost.insertLink (h : g.IsOutermost) (l : Link) :
    Net.IsOutermost (g.insertLink l) :=
  (h.modifyPort (f := Port.attach) fun _ ↦ rfl).modifyPort fun _ ↦ rfl

theorem IsVacant.insertLink (h : g.IsVacant) (l : Link) : Net.IsVacant (g.insertLink l) :=
  forall_inputs_modifyPort (forall_inputs_modifyPort (f := Port.attach) h fun _ hp ↦ hp)
    fun _ _ ↦ rfl

end Net

/-- A node is built-in, and nothing feeds it yet. -/
structure Node.IsStock (n : Node Behaviour) : Prop where
  /-- It is built-in. -/
  isBuiltin : n.IsBuiltin
  /-- No net around it feeds an input, and no input holds a value. -/
  isVacant : ∀ p ∈ n.panel.inputs, p.isExposed = false ∧ p.stored = none

/-- All nodes of a net are built-in, and nothing feeds them from outside. -/
structure Net.IsStock (g : Net) : Prop where
  /-- They are built-in. -/
  isBuiltin : g.IsBuiltin
  /-- No other net feeds an input. -/
  isOutermost : g.IsOutermost
  /-- No input holds a value. -/
  isVacant : g.IsVacant

namespace Net

variable {g k : Net}

theorem isStock_of_assembled (h : Graph.Assembled Node.IsStock g) : Net.IsStock g := by
  induction h with
  | empty =>
    exact ⟨fun s hs ↦ absurd hs (by simp), fun s hs ↦ absurd hs (by simp),
      fun s hs ↦ absurd hs (by simp)⟩
  | @push g n _ hn _ ih =>
    have hslots : ∀ {P : Slot Behaviour → Prop}, (∀ s ∈ g.slots, P s) → P ⟨n.name, n⟩ →
        ∀ s ∈ (g.pushNode n).slots, P s := fun hall hnew s hs ↦
      (List.mem_append.mp hs).elim (hall s) fun hs ↦ List.mem_singleton.mp hs ▸ hnew
    exact ⟨hslots ih.isBuiltin hn.isBuiltin,
      hslots ih.isOutermost fun p hp ↦ (hn.isVacant p hp).1,
      hslots ih.isVacant fun p hp ↦ (hn.isVacant p hp).2⟩
  | insert _ _ _ ih =>
    exact ⟨ih.isBuiltin.insertLink _, ih.isOutermost.insertLink _, ih.isVacant.insertLink _⟩

/-- **A net of built-in nodes that no other net feeds makes a built-in node.** -/
theorem isStock_of_wrap (hg : g.WellLinked) (hb : g.IsBuiltin) (ho : g.IsOutermost) {name : String}
    {n : Node Behaviour} {stamp : Nat} (h : ((wrap name g).run stamp).result = .ok n) :
    n.IsStock := by
  rw [wrap] at h
  obtain ⟨m, hm, h⟩ := Attempt.of_bind_eq_ok h
  obtain rfl : m = n := by
    obtain ⟨_, _, h⟩ := Attempt.of_bind_eq_ok h
    exact Except.ok.inj h
  obtain ⟨k, hbehaviour, hk, hmirrors, hfed, -⟩ :=
    wrapped?_spec hg ho (show wrapped? name g = .ok m from hm)
  refine ⟨.nested hbehaviour hmirrors fun s hs ↦ ?_, hfed⟩
  rw [hk.1] at hs
  obtain ⟨r, hr, rfl⟩ := List.mem_map.mp hs
  refine (hb r hr).congr (fun side ↦ ?_) rfl
  cases side with
  | output => rfl
  | input =>
    have hports : (r.node.panel.inputs.map fun p ↦
        if (⟨r.key, p.name⟩ : Endpoint) ∈ (g.openPorts .input).map Prod.fst then
          { p with isExposed := true } else p).map Port.declared =
        r.node.panel.inputs.map Port.declared := by
      rw [List.map_map]
      refine List.map_congr_left fun p _ ↦ ?_
      rw [Function.comp_apply]
      split <;> rfl
    exact hports

end Net

/-! ## Nodes of factories -/

/-- No factory makes probes. -/
def FactorySet.IsProbeless (set : FactorySet) : Prop :=
  ∀ f ∈ set.factories, ∀ e ∈ f.entries, ∀ name plan, e.maker ≠ .probe name plan

theorem Operation.declared_inputs (op : Operation) (stamp : Nat) :
    (op.inputs stamp).result.map Port.declared = (op.inputs 0).result.map Port.declared := by
  cases op <;> rfl

theorem Operation.declared_output (op : Operation) : op.output.declared = op.output := by
  cases op <;> rfl

theorem Operation.declares_panel (op : Operation) (name : String) (stamp : Nat) :
    op.Declares (op.panel name stamp).result :=
  ⟨op.declared_inputs stamp, congrArg (fun p ↦ [p]) op.declared_output⟩

/-- A configuration changes none of the ports that an operation declares. -/
theorem Operation.ports_restore {op op' : Operation} {panel : Panel} {config : Json}
    (h : op.restore panel config = .ok op') : op'.inputs = op.inputs ∧ op'.output = op.output := by
  cases op with
  | source k value =>
    rw [restore] at h
    split at h
    · obtain rfl := Except.ok.inj h
      exact ⟨rfl, rfl⟩
    · exact absurd h (by simp)
  | folding e operator init =>
    rw [restore] at h
    split at h
    · obtain rfl := Except.ok.inj h
      exact ⟨rfl, rfl⟩
    · exact absurd h (by simp)
  | unary k l f => exact absurd h (by simp [restore])
  | binary k l m f => exact absurd h (by simp [restore])
  | sink k =>
    obtain rfl := Except.ok.inj h
    exact ⟨rfl, rfl⟩
  | mapping e operator =>
    obtain rfl := Except.ok.inj h
    exact ⟨rfl, rfl⟩
  | increment =>
    obtain rfl := Except.ok.inj h
    exact ⟨rfl, rfl⟩

/-- A node that was configured has another operation with the same ports. -/
theorem Node.configured_operation {n m : Node Behaviour} {op : Operation} {d : NodeDescription}
    {stamp : Nat} (hb : n.behaviour = .operation op)
    (h : ((n.configured d).run stamp).result = .ok m) :
    ∃ op', m = ⟨n.panel, .operation op'⟩ ∧ op'.inputs = op.inputs ∧ op'.output = op.output ∧
      (d.config = none → op' = op) ∧
      ∀ config, d.config = some config → op.restore n.panel config = .ok op' := by
  rcases configured_eq_ok_iff.mp h with ⟨hc, rfl⟩ | ⟨config, hc, hr⟩
  · exact ⟨op, by rw [← hb], rfl, rfl, fun _ ↦ rfl, fun _ hsome ↦ absurd (hc ▸ hsome) (by simp)⟩
  · rcases restore_eq_ok_iff.mp hr with ⟨_, op', hn, hop, rfl⟩ | ⟨_, _, hn, -⟩
    · obtain rfl := Behaviour.operation.inj (hn.symm.trans hb)
      obtain ⟨hinputs, houtput⟩ := Operation.ports_restore hop
      refine ⟨op', rfl, hinputs, houtput, fun hnone ↦ absurd (hc ▸ hnone) (by simp), fun c hsome ↦ ?_⟩
      obtain rfl := Option.some.inj (hc.symm.trans hsome)
      exact hop
    · exact absurd (hn.symm.trans hb) (by simp)

theorem Node.isStock_of_configured {op : Operation} {d : NodeDescription} {n : Node Behaviour}
    {name : String} {stamp stamp' : Nat}
    (h : ((Node.configured ⟨(op.panel name stamp).result, .operation op⟩ d).run stamp').result =
      .ok n) : n.IsStock := by
  obtain ⟨op', rfl, hinputs, houtput, -⟩ := configured_operation rfl h
  have hvacant : ∀ p ∈ (op.inputs stamp).result, p.isExposed = false ∧ p.stored = none :=
    fun p hp ↦ ⟨((op.isNew_inputs stamp).2 p hp).2.unexposed, ((op.isNew_inputs stamp).2 p hp).2.empty⟩
  refine ⟨.operation rfl ⟨?_, ?_⟩, hvacant⟩
  · rw [hinputs]
    exact (op.declares_panel name stamp).inputs
  · rw [houtput]
    exact (op.declares_panel name stamp).outputs

theorem Node.IsStock.labelled {n : Node Behaviour} (h : n.IsStock) (d : NodeDescription) :
    (n.labelled d).IsStock where
  isBuiltin := h.isBuiltin.congr (fun side ↦ by cases side <;> rfl) rfl
  isVacant := h.isVacant

theorem Maker.isStock_of_make {maker : Maker} (hmaker : ∀ name plan, maker ≠ .probe name plan)
    {factories : FactorySet} {rebuild : GraphDescription → Attempt Net} {d : NodeDescription}
    {n : Node Behaviour} {stamp : Nat}
    (hrebuild : ∀ d stamp g, ((rebuild d).run stamp).result = .ok g →
      Graph.WellLinked g ∧ Net.IsStock g)
    (h : ((maker.make factories rebuild d).run stamp).result = .ok n) : n.IsStock := by
  cases made_of_make h with
  | operation _ hn => exact Node.isStock_of_configured hn
  | @probe name plan => exact absurd rfl (hmaker name plan)
  | empty _ hn =>
    have hempty := Net.isStock_of_assembled (.empty d.instanceName factories)
    exact Net.isStock_of_wrap (wellLinked_empty _ _) hempty.isBuiltin hempty.isOutermost hn
  | rebuilt _ _ hg hn =>
    obtain ⟨hwell, hstock⟩ := hrebuild _ _ _ hg
    exact Net.isStock_of_wrap hwell hstock.isBuiltin hstock.isOutermost hn

theorem FactorySet.IsProbeless.of_find? {set : FactorySet} (h : set.IsProbeless)
    {typeName : String} {entry : FactoryEntry} (hf : set.find? typeName = some entry) :
    ∀ name plan, entry.maker ≠ .probe name plan := by
  obtain ⟨f, hf, he⟩ := List.exists_of_findSome?_eq_some hf
  exact h f hf entry (List.mem_of_find?_eq_some he)

theorem Net.isStock_of_ofDescription {create : NodeDescription → Attempt (Node Behaviour)}
    {factories : FactorySet} {d : GraphDescription} {g : Net} {stamp : Nat}
    (hcreate : ∀ d stamp n, ((create d).run stamp).result = .ok n → n.IsStock)
    (h : ((Graph.ofDescription create factories d).run stamp).result = .ok g) :
    Net.IsStock g := by
  obtain ⟨k, hk, rfl⟩ := assembled_ofDescription hcreate h
  obtain ⟨hbuiltin, houtermost, hvacant⟩ := isStock_of_assembled hk
  exact ⟨hbuiltin, houtermost, hvacant⟩

/-- **The nodes that factories make are built-in** unless they are probes. -/
theorem FactorySet.isStock_of_createWithin {set : FactorySet} (hset : set.IsProbeless)
    (level : Nat) {d : NodeDescription} {n : Node Behaviour} {stamp : Nat}
    (h : ((set.createWithin level d).run stamp).result = .ok n) : n.IsStock := by
  refine createWithin_induction_of_isFresh (P := Node.IsStock) (R := Net.IsStock)
    (fun hcreate _ _ _ hg ↦ ?_) (fun hf hrebuild hm ↦ ?_) level h
  · exact Net.isStock_of_ofDescription (fun d stamp n hn ↦ (hcreate d stamp n hn).2) hg
  · exact (Maker.isStock_of_make (hset.of_find? hf) (fun d stamp g hg ↦
      ⟨(Net.coherent_iff.mp (hrebuild d stamp g hg).1).1, (hrebuild d stamp g hg).2⟩) hm).labelled _

end PortGraph
