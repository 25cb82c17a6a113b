import PortGraph.Proofs.Graph.Ledger
import PortGraph.Proofs.Net.Form
import PortGraph.Proofs.Net.Reachable
import PortGraph.Proofs.Net.Wrapped

/-!
# What a host makes, and what it put there

`Net.Account` lists the nets that a host makes and has in its hands, whatever it asks of them and
whether they refuse it or not, and `Node.Account` the nodes: new ones, those that it wrapped a net in,
those that factories made, and those it took out of a net, with what it did to them before it added
them again.  Both come with a ledger of what the host put on inputs.  Nets that are inside a node are
not in the hands of the host any more, and neither is a node that is in a net: the host neither adds
ports to it nor calls it.

What is read off an input that is neither linked nor exposed is what its ledger says, or else its
default (`data_eq_of_account`).  So nothing that a link brought is ever read once the link is gone.
-/

set_option autoImplicit false

namespace PortGraph

open PortGraph.Graph
open PortGraph.Net (coherent_iff isNew_of_wrap)

mutual

/-- The nets that a host makes, with the ledger of what it put on their inputs. -/
inductive Net.Account : Net → Ledger → Prop
  /-- A new net is empty. -/
  | empty (name : String) (factories : FactorySet) : Net.Account { name, factories } .blank
  /-- A net was made of a description. -/
  | described {factories : FactorySet} {d : GraphDescription} {stamp : Nat} {g : Net}
      (h : ((Net.ofDescription factories d).run stamp).result = .ok g) : Net.Account g .blank
  /-- The host asked for something.  The id of a link is new. -/
  | step {g : Net} {l : Ledger} {new : String → Option Packet} {stamp : Nat} (r : Request Behaviour)
      (h : Net.Account g l) (hnode : ∀ n, r = .addNode n → Node.Account n new)
      (hfresh : ∀ source target, r = .addLink source target →
        ∀ l ∈ g.links, l.id ≠ (Act.newLinkId stamp).result) :
      Net.Account (r.reply g.life FactorySet.createNode g stamp).result.2
        (r.book g new l (r.reply g.life FactorySet.createNode g stamp).result.1)
  /-- The net was saved. -/
  | saved {g : Net} {l : Ledger} (path : String) (stamp : Nat) (h : Net.Account g l) :
      Net.Account (g.markSaved path stamp).result l

/-- The nodes that a host has to add, with what it put on their inputs. -/
inductive Node.Account : Node Behaviour → (String → Option Packet) → Prop
  /-- A new node that holds no net. -/
  | plain {n : Node Behaviour} (hp : n.panel.IsNew) (hn : n.inner? = none) :
      Node.Account n fun _ ↦ none
  /-- A node that holds a net. -/
  | wrapped {g : Net} {l : Ledger} {name : String} {stamp : Nat} {n : Node Behaviour}
      (h : Net.Account g l) (hn : ((Net.wrap name g).run stamp).result = .ok n) :
      Node.Account n fun _ ↦ none
  /-- A node that was made by factories. -/
  | created {factories : FactorySet} {d : NodeDescription} {stamp : Nat} {n : Node Behaviour}
      (hn : ((factories.createNode d).run stamp).result = .ok n) : Node.Account n fun _ ↦ none
  /-- A node that was taken out of a net. -/
  | removed {g : Net} {l : Ledger} {name : String} {stamp : Nat} {n : Node Behaviour}
      (h : Net.Account g l) (hn : (g.removeNode name stamp).result.1 = .ok n) :
      Node.Account n fun port ↦ l.without ((Request.removeNode name).relinked g) ⟨name, port⟩
  /-- A packet was put on an input of such a node. -/
  | injected {n : Node Behaviour} {new : String → Option Packet} {port : String} {packet : Packet}
      {panel : Panel} (h : Node.Account n new) (hp : n.panel.inject port packet = .ok panel) :
      Node.Account { n with panel } fun name ↦ if name = port then some packet else new name
  /-- A new port was added to it. -/
  | extended {n : Node Behaviour} {new : String → Option Packet} {side : Direction} {p : Port}
      {i : Nat} {panel : Panel} (h : Node.Account n new) (hp : p.IsNew)
      (ha : n.panel.addPort side p = .ok (i, panel)) :
      Node.Account { n with panel } fun name ↦
        if side = .input ∧ name = p.name then none else new name
  /-- The host wrote something else on its panel, or configured it anew. -/
  | written {n m : Node Behaviour} {new : String → Option Packet} (h : Node.Account n new)
      (hi : m.panel.inputs = n.panel.inputs)
      (ho : m.panel.outputs.map (·.store none) = n.panel.outputs.map (·.store none))
      (hf : m.panel.isInitialized = n.panel.isInitialized)
      (hb : m.behaviour = n.behaviour ∨ (m.inner? = none ∧ n.inner? = none)) : Node.Account m new

end

/-! ## They come about -/

theorem Panel.inject_eq_ok {panel panel' : Panel} {name : String} {packet : Packet}
    (h : panel.inject name packet = .ok panel') :
    panel' = panel.modifyPort .input name (·.store (some packet)) := by
  rw [inject] at h
  split at h
  · exact absurd h (by simp)
  · split at h
    · exact absurd h (by simp)
    · exact (Except.ok.inj h).symm

theorem Panel.IsFresh.of_outline_eq {panel panel' : Panel} (h : panel.IsFresh)
    (ho : panel'.outline = panel.outline) : panel'.IsFresh where
  detached := h.detached.of_ports_eq fun side ↦ by
    rw [← ports_outline, ← ports_outline, ho]
  idle := (congrArg Panel.isInitialized ho).trans h.idle

mutual

/-- The nets that a host makes come about. -/
theorem Net.Account.reachable : ∀ {g : Net} {l : Ledger}, g.Account l → g.Reachable
  | _, _, .empty name factories => .empty name factories
  | _, _, .described h => .described h
  | _, _, .step r h hnode hfresh =>
    r.perform_eq_reply ▸ .step r h.reachable (fun n hr ↦ (hnode n hr).offered) hfresh
  | _, _, .saved path stamp h => .saved path stamp h.reachable

/-- The nodes that a host has to add are offered. -/
theorem Node.Account.offered : ∀ {n : Node Behaviour} {new : String → Option Packet},
    n.Account new → n.Offered
  | _, _, .plain hp hn => .plain hp.isFresh hn
  | _, _, .wrapped h hn => .wrapped h.reachable hn
  | _, _, .created hn => .created hn
  | _, _, .removed h hn => .removed h.reachable hn
  | _, _, .injected h hp => by
    have hfresh : Panel.IsFresh _ := ⟨h.offered.isFresh.detached, h.offered.isFresh.idle⟩
    exact .written h.offered (hfresh.of_outline_eq (Panel.inject_eq_ok hp ▸
      Panel.outline_withPorts_of_map (Port.map_modifyNamed_of_eq fun _ ↦ rfl))) rfl
  | _, _, .extended h hp ha =>
    .written h.offered (Panel.IsFresh.addPort
      ⟨h.offered.isFresh.detached, h.offered.isFresh.idle⟩ hp ha) rfl
  | m, _, @Node.Account.written n _ _ h hi ho hf hb => by
    have hfresh : m.panel.IsFresh :=
      ⟨h.offered.isFresh.detached.of_ports_eq fun side ↦ by
        cases side with
        | input => exact congrArg (List.map (·.store none)) hi
        | output => exact ho, hf.trans h.offered.isFresh.idle⟩
    rcases hb with hb | ⟨hm, -⟩
    · exact .written h.offered hfresh hb
    · exact .plain hfresh hm

end

/-! ## The ledger is right -/

theorem Panel.IsNew.accounts {panel : Panel} (h : panel.IsNew) : panel.Accounts fun _ ↦ none :=
  fun p hp ↦ ⟨(h.ports_new .input p hp).1, fun _ ↦ (h.ports_new .input p hp).2.empty⟩

theorem Panel.Accounts.inject {panel panel' : Panel} {new : String → Option Packet}
    (ha : panel.Accounts new) (hp : panel.IsDetached) {port : String} {packet : Packet}
    (h : panel.inject port packet = .ok panel') :
    panel'.Accounts fun name ↦ if name = port then some packet else new name := by
  obtain rfl := inject_eq_ok h
  have hinputs : (panel.modifyPort .input port (·.store (some packet))).inputs =
      panel.inputs.map fun p ↦ if p.name = port then p.store (some packet) else p :=
    Port.modifyNamed_eq_map port _ (hp.ports_nodup .input)
  intro p hmem
  rw [hinputs] at hmem
  obtain ⟨q, hq, rfl⟩ := List.mem_map.mp hmem
  by_cases hname : q.name = port
  · rw [if_pos hname]
    exact ⟨(ha q hq).input, fun _ ↦ (if_pos hname).symm⟩
  · simp only [if_neg hname]
    exact ha q hq

theorem Panel.Accounts.extend {panel panel' : Panel} {new : String → Option Packet}
    (ha : panel.Accounts new) {side : Direction} {p : Port} {i : Nat} (hp : p.IsNew)
    (h : panel.addPort side p = .ok (i, panel')) :
    panel'.Accounts fun name ↦ if side = .input ∧ name = p.name then none else new name := by
  obtain ⟨hside, hname, rfl⟩ := addPort_eq_ok h
  cases side with
  | output =>
    intro q hq
    simp only [reduceCtorEq, false_and, if_false]
    exact ha q hq
  | input =>
    intro q hq
    rcases List.mem_append.mp hq with hq | hq
    · have hne : q.name ≠ p.name := fun he ↦ hname (he ▸ List.mem_map_of_mem hq)
      simp only [hne, and_false, if_false]
      exact ha q hq
    · obtain rfl := List.mem_singleton.mp hq
      exact ⟨hside, fun _ ↦ hp.empty.trans (if_pos ⟨rfl, rfl⟩).symm⟩

/-- A node that is taken out keeps what was entered for inputs that no link touched. -/
theorem Graph.Accounts.of_removeNode {β : Type} {life : Lifecycle β} {g : Graph β} {l : Ledger}
    (ha : g.Accounts l) (hg : g.WellLinked) (hi : life.KeepsInputs) {name : String} {stamp : Nat}
    {n : Node β} (hn : (g.removeNode life name stamp).result.1 = .ok n) :
    n.panel.Accounts fun port ↦ l.without ((Request.removeNode name).relinked g) ⟨name, port⟩ := by
  obtain ⟨m, -, hm, rfl, -⟩ := removeNode_eq_ok hn
  rw [Panel.Accounts, hi.release]
  exact (ha.dropLinksOf hg name).panel (hg.dropLinksOf name) (mem_of_node? hm)

/-- Whatever is asked of a net, the ledger goes on accounting for it. -/
theorem Net.Coherent.accounts_reply {g : Net} (hg : g.Coherent) {l : Ledger} (ha : g.Accounts l)
    {new : String → Option Packet} {stamp : Nat} {r : Request Behaviour}
    (hnode : ∀ n, r = .addNode n → n.panel.Accounts new) :
    (r.reply g.life FactorySet.createNode g stamp).result.2.Accounts
      (r.book g new l (r.reply g.life FactorySet.createNode g stamp).result.1) := by
  obtain ⟨hwell, hcached, -⟩ := coherent_iff.mp hg
  refine ha.reply hwell hcached (keepsOutline_life _) (keepsInputs_life _) r fun n hn ↦ ?_
  cases r with
  | addNode m =>
    obtain rfl : n = m := hn
    exact hnode n rfl
  | createNode d =>
    obtain ⟨_, hd⟩ := hn
    exact (FactorySet.isNew_of_createWithin _ _ hd).accounts
  | _ => exact hn.elim

mutual

/-- The ledger of a host accounts for its nets. -/
theorem Net.Account.accounts : ∀ {g : Net} {l : Ledger}, g.Account l → g.Accounts l
  | _, _, .empty name factories => accounts_of_no_slots rfl
  | _, _, .described h => by
    obtain ⟨k, hk, rfl⟩ : ∃ k, Graph.Assembled (fun n ↦ n.panel.IsNew) k ∧
        _ = { k with isModified := false } :=
      assembled_ofDescription (fun _ _ _ ↦ FactorySet.isNew_of_createWithin _ _) h
    exact (accounts_of_assembled (fun _ hn ↦ hn.accounts) hk).of_inputs_eq rfl
  | _, _, .step _ h hnode _ =>
    h.reachable.coherent.accounts_reply h.accounts fun n hr ↦ (hnode n hr).accounts
  | _, _, .saved path stamp h => h.accounts.of_inputs_eq rfl

/-- It accounts for the nodes that the host has to add. -/
theorem Node.Account.accounts : ∀ {n : Node Behaviour} {new : String → Option Packet},
    n.Account new → n.panel.Accounts new
  | _, _, .plain hp _ => hp.accounts
  | _, _, .wrapped _ hn => (isNew_of_wrap hn).1.accounts
  | _, _, .created hn => (FactorySet.isNew_of_createWithin _ _ hn).accounts
  | _, _, .removed h hn =>
    h.accounts.of_removeNode (coherent_iff.mp h.reachable.coherent).1 (keepsInputs_life _) hn
  | _, _, .injected h hp => h.accounts.inject h.offered.isFresh.detached hp
  | _, _, .extended h hp ha => h.accounts.extend hp ha
  | _, _, .written h hi _ _ _ => fun p hp ↦ h.accounts p (hi ▸ hp)

end

/-- The net that is left when a node was taken out. -/
theorem Net.Account.removeNode {g : Net} {l : Ledger} (h : g.Account l) {name : String}
    {stamp : Nat} {n : Node Behaviour} (hn : (g.removeNode name stamp).result.1 = .ok n) :
    Net.Account (g.removeNode name stamp).result.2
      (l.without ((Request.removeNode name).relinked g)) := by
  have hstep := @Net.Account.step g l (fun _ ↦ none) stamp (.removeNode name) h
    (fun _ hr ↦ absurd hr (by simp)) fun _ _ hr ↦ absurd hr (by simp)
  have hreply : ((Request.removeNode name).reply g.life FactorySet.createNode g stamp).result.1 =
      .ok () := by
    simp only [Request.reply, Act.bind_apply, Act.pure_apply, Prod.map_fst]
    rw [show (Graph.removeNode g.life name g stamp).result.1 = .ok n from hn]
    rfl
  rw [hreply, Request.book_ok] at hstep
  exact hstep

/-- Where a link ended that went with a node, there is none any more. -/
theorem Graph.WellLinked.isLinked_eraseNode {β : Type} {g : Graph β} (hg : g.WellLinked)
    {name : String} {k : Link} (hk : k ∈ g.links) (ht : k.touches name = true) {p : Port}
    (hp : ((g.dropLinksOf name).eraseNode name).port? .input k.target = some p) :
    p.isLinked = false := by
  have hcount : p.linkCount = (g.links.filter (fun l ↦ !l.touches name)).countP
      (fun l ↦ l.place .input = k.target) := by
    rw [(hg.eraseNode_dropLinksOf name).counted .input _ p hp, ← links_dropLinksOf hg.ids_nodup]
    rfl
  have hpos : 0 < (g.links.filter (·.touches name)).countP (fun l ↦ l.place .input = k.target) :=
    List.countP_pos_iff.mpr ⟨k, List.mem_filter.mpr ⟨hk, ht⟩, decide_eq_true rfl⟩
  have honce : (g.links.filter (·.touches name)).countP (fun l ↦ l.place .input = k.target) +
      (g.links.filter (fun l ↦ !l.touches name)).countP (fun l ↦ l.place .input = k.target) ≤ 1 := by
    have hsplit := List.countP_eq_countP_filter_add g.links (fun l ↦ l.place .input = k.target)
      (·.touches name)
    exact hsplit ▸ hg.once k.target
  have hzero : p.linkCount = 0 := by omega
  rw [Port.isLinked, hzero]
  rfl

/-- **A value that was pulled never outlives its link.**  What is read off an input that is neither
linked nor exposed is what the host put there since a link to it was made or taken away, or else its
default; so it is for the inputs of a node that was taken out, which no link touches.  When a node is
taken out, the inputs that it fed and those it was fed on read as their defaults. -/
theorem data_eq_of_account :
    (∀ (g : Net) (l : Ledger), g.Account l → ∀ e p, g.port? .input e = some p →
      p.isLinked = false → p.isExposed = false → p.data = (l e).or p.default) ∧
    (∀ (n : Node Behaviour) (new : String → Option Packet), n.Account new →
      ∀ p ∈ n.panel.inputs, p.isLinked = false ∧
        (p.isExposed = false → p.data = (new p.name).or p.default)) ∧
    ∀ (g : Net) (l : Ledger), g.Account l → ∀ name stamp n,
      (g.removeNode name stamp).result.1 = .ok n → ∀ k ∈ g.links, k.touches name = true →
        (∀ p ∈ n.panel.inputs, k.target = ⟨name, p.name⟩ → p.isExposed = false →
          p.data = p.default) ∧
        ∀ p, (g.removeNode name stamp).result.2.port? .input k.target = some p →
          p.isExposed = false → p.data = p.default := by
  have hnet : ∀ (g : Net) (l : Ledger), g.Account l → ∀ e p, g.port? .input e = some p →
      p.isLinked = false → p.isExposed = false → p.data = (l e).or p.default :=
    fun g l h e p hp hlinked hexposed ↦
      (h.accounts e p hp).data_eq (by rw [Port.isSatisfied, hlinked, hexposed]; rfl)
  have hnode : ∀ (n : Node Behaviour) (new : String → Option Packet), n.Account new →
      ∀ p ∈ n.panel.inputs, p.isLinked = false ∧
        (p.isExposed = false → p.data = (new p.name).or p.default) := by
    intro n new h p hp
    have hlinked : p.isLinked = false := by
      rw [Port.isLinked, h.offered.isFresh.detached.unlinked .input p hp]
      rfl
    exact ⟨hlinked, fun hexposed ↦
      (h.accounts p hp).data_eq (by rw [Port.isSatisfied, hlinked, hexposed]; rfl)⟩
  refine ⟨hnet, hnode, fun g l h name stamp n hn k hk ht ↦ ?_⟩
  have hstruck : l.without ((Request.removeNode name).relinked g) k.target = none :=
    if_pos (List.mem_map_of_mem (List.mem_filter.mpr ⟨hk, ht⟩))
  refine ⟨fun p hp he hexposed ↦ ?_, fun p hp hexposed ↦ ?_⟩
  · rw [(hnode n _ (.removed h hn) p hp).2 hexposed, ← he, hstruck]
    rfl
  · have hleft := h.removeNode hn
    have hg := (coherent_iff.mp h.reachable.coherent).1
    obtain ⟨_, _, -, -, hleaves, -⟩ := removeNode_eq_ok hn
    have hlinked : p.isLinked = false := hg.isLinked_eraseNode hk ht (hleaves ▸ hp)
    rw [hnet _ _ hleft _ p hp hlinked hexposed, hstruck]
    rfl

/-! ## A source that goes -/

/-- The net after a request. -/
def Net.ask (g : Net) (r : Request Behaviour) : Net :=
  (r.reply g.life FactorySet.createNode g 0).result.2

theorem Net.Account.add {g : Net} {l : Ledger} (h : g.Account l) {n : Node Behaviour}
    {new : String → Option Packet} (hn : n.Account new) : ∃ l', (Net.ask g (.addNode n)).Account l' :=
  ⟨_, .step (.addNode n) h (fun _ hr ↦ Request.addNode.inj hr ▸ hn) (by simp)⟩

theorem Net.Account.ask {g : Net} {l : Ledger} (h : g.Account l) (r : Request Behaviour)
    (hnode : ∀ n, r ≠ .addNode n)
    (hfresh : ∀ source target, r = .addLink source target → g.links = []) :
    ∃ l', (Net.ask g r).Account l' :=
  ⟨_, @Net.Account.step g l (fun _ ↦ none) 0 r h (fun n hr ↦ absurd hr (hnode n))
    fun source target hr k hk ↦ by
      rw [hfresh source target hr] at hk
      exact absurd hk (by simp)⟩

/-- A number that the host puts on an input. -/
def samplePacket (number : Int64) : Packet := ⟨⟨.scalar .int, number⟩, 0⟩

/-- A node that publishes seven. -/
def sampleSource : Node Behaviour := ((Operation.source (.scalar .int) 7).node "source" 0).result

/-- A probe whose input falls back on three. -/
def sampleGauge : Node Behaviour where
  panel :=
    { name := "gauge"
      typeName := "Gauge"
      inputs := [{ name := "in", direction := .input, dataType := (Kind.scalar .int).dataType,
                   default := some (samplePacket 3) }] }
  behaviour := .probe {}

/-- A net in which the source fed the gauge.  Before they were linked, the host put five on the gauge. -/
def sampleFeeding : Net :=
  [.addNode sampleSource, .addNode sampleGauge, .setInput ⟨"gauge", "in"⟩ (samplePacket 5),
    .addLink ⟨"source", "to"⟩ ⟨"gauge", "in"⟩, .compile, .execute].foldl Net.ask { name := "net" }

theorem account_sampleSource : sampleSource.Account fun _ ↦ none :=
  .plain ((Operation.source (.scalar .int) 7).isNew_panel "source" 0) rfl

theorem account_sampleGauge : sampleGauge.Account fun _ ↦ none := by
  refine .plain ⟨fun side ↦ ?_, fun side ↦ ?_, rfl⟩ rfl
  · cases side <;> simp [sampleGauge, Panel.ports]
  · cases side with
    | output => simp [sampleGauge, Panel.ports]
    | input =>
      intro p hp
      rw [List.mem_singleton.mp hp]
      exact ⟨rfl, rfl, rfl, rfl⟩

theorem account_sampleFeeding : ∃ l, sampleFeeding.Account l := by
  obtain ⟨_, h⟩ := (Net.Account.empty "net" {}).add account_sampleSource
  obtain ⟨_, h⟩ := h.add account_sampleGauge
  obtain ⟨_, h⟩ := h.ask (.setInput ⟨"gauge", "in"⟩ (samplePacket 5)) (by simp) (by simp)
  obtain ⟨_, h⟩ := h.ask (.addLink ⟨"source", "to"⟩ ⟨"gauge", "in"⟩) (by simp)
    fun _ _ _ ↦ by decide +kernel
  obtain ⟨_, h⟩ := h.ask .compile (by simp) (by simp)
  exact h.ask .execute (by simp) (by simp)

/-- The number in a packet. -/
def Packet.number? (packet : Packet) : Option Int64 := packet.value.as? (.scalar .int)

theorem data_eq_of_account_sampleFeeding :
    ((sampleFeeding.port? .input ⟨"gauge", "in"⟩).bind Port.data).bind Packet.number? = some 7 ∧
    ∃ n p, (sampleFeeding.removeNode "source" 0).result.1 = .ok n ∧
      (∀ q ∈ n.panel.inputs, q.isLinked = false) ∧
      (sampleFeeding.removeNode "source" 0).result.2.port? .input ⟨"gauge", "in"⟩ = some p ∧
      p.data.bind Packet.number? = some 3 := by
  obtain ⟨l, h⟩ := account_sampleFeeding
  obtain ⟨-, hnode, hremoved⟩ := data_eq_of_account
  have hok : (sampleFeeding.removeNode "source" 0).result.1.isOk = true := by decide +kernel
  have hdefault : ((sampleFeeding.removeNode "source" 0).result.2.port? .input ⟨"gauge", "in"⟩).any
      (fun p ↦ !p.isExposed && p.default.bind Packet.number? = some 3) = true := by
    decide +kernel
  obtain ⟨n, hn⟩ := exists_ok_of_isOk hok
  obtain ⟨p, hp, hgauge⟩ := (Option.any_eq_true _ _).mp hdefault
  simp only [Bool.and_eq_true, Bool.not_eq_true', decide_eq_true_eq] at hgauge
  have hlink : (⟨⟨1⟩, ⟨"source", "to"⟩, ⟨"gauge", "in"⟩, (Kind.scalar .int).dataType⟩ : Link) ∈
      sampleFeeding.links := by
    decide +kernel
  have hdata := (hremoved _ l h "source" 0 n hn _ hlink rfl).2 p hp hgauge.1
  exact ⟨by decide +kernel, n, p, hn, fun q hq ↦ (hnode n _ (.removed h hn) q hq).1, hp,
    hdata ▸ hgauge.2⟩

end PortGraph
