import PortGraph.Proofs.Graph.Terms
import PortGraph.Proofs.Net.Account
import PortGraph.Proofs.Net.Feeding
import PortGraph.Proofs.Net.Inline

/-!
# What nets inside require

A net that is put in a node is never asked again whether its required inputs are supplied: all those
that no link touches are exposed, and an exposed input counts as supplied.  Instead the panel of the
node discloses what the net requires (`Panel.Discloses`), input by input, and so do those of the nodes
in it, however deep (`Node.IsCandid`).

Wrapping a net up is the one place where that comes about; nothing that is asked of a net takes it
away.  So the nodes of the nets that a host makes are candid (`Net.Account.isLoose`).
-/

set_option autoImplicit false

namespace PortGraph

open PortGraph.Graph
open PortGraph.Net (coherent_iff)

/-! ## What a panel discloses -/

/-- Whether the input at a position is required. -/
def Panel.requires (panel : Panel) (i : Nat) : Bool := panel.inputs[i]?.any Port.isRequired

/-- **A panel discloses what a net requires**: each input of the net that no link touches is exposed,
and if it is required, so is the input of the panel that stands for it. -/
def Panel.Discloses (panel : Panel) (g : Net) (places : List Endpoint) : Prop :=
  ∀ s ∈ g.slots, ∀ p ∈ s.node.panel.inputs, p.isLinked = false → p.isExposed = true ∧
    (p.isRequired = true → ∃ i, places[i]? = some ⟨s.key, p.name⟩ ∧ panel.requires i = true)

/-- **A node is candid**: its panel discloses what the net in it requires, and so do those of all nodes
in it. -/
inductive Node.IsCandid : Node Behaviour → Prop
  /-- It holds no net. -/
  | leaf {n : Node Behaviour} (h : n.inner? = none) : Node.IsCandid n
  /-- It holds a net of candid nodes. -/
  | nested {n : Node Behaviour} {g : Net} {inputs outputs : List Endpoint}
      (hb : n.behaviour = .nested g inputs outputs) (h : n.panel.Discloses g inputs)
      (inner : ∀ s ∈ g.slots, Node.IsCandid s.node) : Node.IsCandid n

/-- A node is candid, and no net feeds it. -/
structure Node.IsLoose (n : Node Behaviour) : Prop where
  /-- It is candid. -/
  candid : n.IsCandid
  /-- No net feeds an input. -/
  unfed : ∀ p ∈ n.panel.inputs, p.isExposed = false

theorem Panel.requires_of_map_eq {panel panel' : Panel}
    (h : panel'.inputs.map Port.isRequired = panel.inputs.map Port.isRequired) (i : Nat) :
    panel'.requires i = panel.requires i := by
  have hany : ∀ panel : Panel,
      panel.requires i = ((panel.inputs.map Port.isRequired)[i]?).any id := fun panel ↦ by
    rw [requires, List.getElem?_map]
    cases panel.inputs[i]? <;> rfl
  rw [hany, h, ← hany]

/-- A port that is added behind the others changes nothing about these. -/
theorem Panel.requires_addPort {panel panel' : Panel} {side : Direction} {p : Port} {i j : Nat}
    (h : panel.addPort side p = .ok (j, panel')) (hi : panel.requires i = true) :
    panel'.requires i = true := by
  obtain ⟨-, -, rfl⟩ := addPort_eq_ok h
  cases side with
  | output => exact hi
  | input =>
    rw [requires, Option.any_eq_true] at hi
    obtain ⟨q, hq, hreq⟩ := hi
    have hlt := (List.getElem?_eq_some_iff.mp hq).1
    rw [requires]
    change ((panel.inputs ++ [p])[i]?).any Port.isRequired = true
    rw [List.getElem?_append_left hlt, hq]
    exact hreq

/-- What a net requires is a matter of its form. -/
theorem Panel.Discloses.congr {panel panel' : Panel} {g k : Net} {places : List Endpoint}
    (h : panel.Discloses g places) (hp : ∀ i, panel.requires i = true → panel'.requires i = true)
    (hk : Net.through .form k = Net.through .form g) : panel'.Discloses k places := by
  intro s hs p hm hfree
  obtain ⟨s', hs', hkey, q, hq, hform⟩ := Net.exists_port_of_form_eq hk hs .input hm
  have hlinked := congrArg Port.isLinked hform
  have hexposed := congrArg Port.isExposed hform
  have hrequired := congrArg Port.isRequired hform
  have hname := congrArg Port.name hform
  obtain ⟨hfed, hopen⟩ := h s' hs' q hq (hlinked.trans hfree)
  refine ⟨hexposed.symm.trans hfed, fun hreq ↦ ?_⟩
  obtain ⟨i, hi, hrequires⟩ := hopen (hrequired.trans hreq)
  exact ⟨i, hi.trans (congrArg some (Endpoint.eq_of hkey hname)), hp i hrequires⟩

/-- A net that holds no other holds none in any other form. -/
theorem Node.inner?_of_form_eq {n m : Node Behaviour} (hn : n.inner? = none)
    (hb : m.behaviour.through .form = n.behaviour.through .form) : m.inner? = none := by
  rw [inner?] at hn ⊢
  cases hm : m.behaviour with
  | operation op => rfl
  | probe p => rfl
  | nested k inputs outputs =>
    obtain ⟨g, hg, -⟩ := Behaviour.eq_nested_of_form_eq (hb.symm.trans (congrArg _ hm))
    rw [hg] at hn
    exact absurd hn (by simp)

/-- **Whether a node is candid is a matter of its form**, and of what its panel requires. -/
theorem Node.IsCandid.congr {n m : Node Behaviour} (h : n.IsCandid)
    (hp : ∀ i, n.panel.requires i = true → m.panel.requires i = true)
    (hb : m.behaviour.through .form = n.behaviour.through .form) : m.IsCandid := by
  induction h generalizing m with
  | leaf hn => exact .leaf (inner?_of_form_eq hn hb)
  | nested hn h _ ih =>
    rw [hn] at hb
    obtain ⟨k, hm, hk⟩ := Behaviour.eq_nested_of_form_eq hb
    refine .nested hm (h.congr hp hk) fun s hs ↦ ?_
    obtain ⟨s', hs', -, heq⟩ := Net.exists_slot_of_form_eq hk hs
    obtain ⟨hpanel, hbehaviour⟩ := Node.through_eq_iff.mp heq
    refine ih s' hs' (fun i hi ↦ ?_) hbehaviour.symm
    rw [Panel.requires_of_map_eq
      (Panel.map_eq_of_form_eq (f := Port.isRequired) (fun _ ↦ rfl) hpanel.symm .input)]
    exact hi

/-- Whether a node is loose is told by its form and the terms of its inputs. -/
theorem Node.told_isLoose : Told (Behaviour.through .form) Node.IsLoose := by
  intro n m hb hterms hn
  refine ⟨hn.candid.congr (fun i hi ↦ ?_) hb, fun p hp ↦ ?_⟩
  · have hrequired := congrArg (List.map Prod.fst) hterms
    rw [List.map_map, List.map_map] at hrequired
    rw [Panel.requires_of_map_eq hrequired]
    exact hi
  · have hmem : p.terms ∈ n.panel.inputs.map Port.terms := hterms ▸ List.mem_map_of_mem hp
    obtain ⟨q, hq, heq⟩ := List.mem_map.mp hmem
    exact (congrArg Prod.snd heq).symm.trans (hn.unfed q hq)

/-! ## Nodes that are made -/

theorem Node.isLoose_of_isNew {n : Node Behaviour} (hp : n.panel.IsNew) (hn : n.inner? = none) :
    n.IsLoose :=
  ⟨.leaf hn, fun p hm ↦ (hp.ports_new .input p hm).2.unexposed⟩

/-- **A net of loose nodes makes a loose node.** -/
theorem Net.isLoose_of_wrap {g : Net} (hc : g.Coherent) (h : ∀ s ∈ g.slots, s.node.IsLoose)
    {name : String} {n : Node Behaviour} {stamp : Nat}
    (hn : ((wrap name g).run stamp).result = .ok n) : n.IsLoose := by
  have ho : g.IsOutermost := fun s hs ↦ (h s hs).unfed
  obtain ⟨k, hb, hk, hmirrors, hfed, -⟩ :=
    wrapped?_spec (coherent_iff.mp hc).1 ho (wrap_eq_ok hn)
  have hwell := (coherent_iff.mp ((isFresh_of_wrap hc hn).sound k _ _ hb).1).1
  refine ⟨.nested hb (fun s hs p hp hfree ↦ ?_) fun s hs ↦ ?_, fun p hp ↦ (hfed p hp).1⟩
  · refine ⟨by rw [hmirrors.exposed s hs p hp, hfree]; rfl, fun hreq ↦ ?_⟩
    have hmem : (⟨s.key, p.name⟩ : Endpoint) ∈ (Net.openPorts k .input).map Prod.fst :=
      (mem_openPorts_iff hwell hs hp).mpr hfree
    rw [← hmirrors.inputPlaces] at hmem
    obtain ⟨i, hi⟩ := List.mem_iff_getElem?.mp hmem
    have hport : k.port? .input ⟨s.key, p.name⟩ = some p := hwell.port?_of_mem hs hp
    obtain ⟨q, hq, hdeclared⟩ := hmirrors.getElem? hwell hport (hmirrors.inputPlaces ▸ hi)
    have hrequired := congrArg Port.isRequired hdeclared
    refine ⟨i, hi, ?_⟩
    rw [Panel.requires, show n.panel.inputs[i]? = some q from hq]
    exact hrequired.trans hreq
  · rw [hk.1] at hs
    obtain ⟨r, hr, rfl⟩ := List.mem_map.mp hs
    refine (h r hr).candid.congr (fun i hi ↦ ?_) rfl
    refine (Panel.requires_of_map_eq ?_ i).trans hi
    refine List.map_map.trans (List.map_congr_left fun p _ ↦ ?_)
    rw [Function.comp_apply]
    split <;> rfl

theorem Node.IsLoose.labelled {n : Node Behaviour} (h : n.IsLoose) (d : NodeDescription) :
    (n.labelled d).IsLoose :=
  told_isLoose n (n.labelled d) rfl rfl h

/-- **Every node that a factory makes is loose.** -/
theorem FactorySet.isLoose_of_createWithin (set : FactorySet) (level : Nat) {d : NodeDescription}
    {n : Node Behaviour} {stamp : Nat} (h : ((set.createWithin level d).run stamp).result = .ok n) :
    n.IsLoose := by
  refine createWithin_induction_of_isFresh (P := Node.IsLoose)
    (R := fun g ↦ ∀ s ∈ g.slots, s.node.IsLoose) (fun hcreate d stamp g hg ↦ ?_)
    (fun _ hrebuild hm ↦ ?_) level h
  · obtain ⟨k, hk, rfl⟩ := assembled_ofDescription
      (fun d stamp n hn ↦ (hcreate d stamp n hn).2) hg
    have hall := Node.told_isLoose.of_assembled hk
    exact hall
  · refine Node.IsLoose.labelled ?_ _
    rcases Maker.make_cases hm with ⟨hpanel, hnone⟩ | ⟨g, _, _, hwrap, rfl | ⟨_, _, hg⟩⟩
    · exact Node.isLoose_of_isNew hpanel hnone
    · exact Net.isLoose_of_wrap (coherent_of_assembled (.empty _ _))
        (fun s hs ↦ absurd hs (by simp)) hwrap
    · exact Net.isLoose_of_wrap (hrebuild _ _ g hg).1 (hrebuild _ _ g hg).2 hwrap

/-- **What is told of nodes by their forms and the terms of their inputs stays true of the nodes of a
net**, whatever is asked of it, if it is true of the nodes that come. -/
theorem Told.perform {P : Node Behaviour → Prop} (h : Told (Behaviour.through .form) P)
    (hcreate : ∀ {set : FactorySet} {d : NodeDescription} {n : Node Behaviour} {stamp : Nat},
      ((set.createNode d).run stamp).result = .ok n → P n)
    {g : Net} (hg : g.WellLinked) (hall : ∀ s ∈ g.slots, P s.node) {stamp : Nat}
    {r : Request Behaviour} (hnode : ∀ n, r = .addNode n → P n) :
    ∀ s ∈ (r.perform g.life FactorySet.createNode g stamp).result.slots, P s.node := by
  refine h.of_mayLeave hall hg (keepsOutline_life _) (Behaviour.keepsTrait_form _) (fun n hn ↦ ?_)
    r.perform_mayLeave
  cases r with
  | addNode m =>
    obtain rfl : n = m := hn
    exact hnode n rfl
  | createNode d =>
    obtain ⟨_, hd⟩ := hn
    exact hcreate hd
  | _ => exact hn.elim

mutual

/-- **The nodes of the nets that a host makes are loose.** -/
theorem Net.Account.isLoose : ∀ {g : Net} {l : Ledger}, g.Account l → ∀ s ∈ g.slots, s.node.IsLoose
  | _, _, .empty name factories => fun s hs ↦ absurd hs (by simp)
  | _, _, .described h => by
    obtain ⟨k, hk, rfl⟩ : ∃ k, Graph.Assembled Node.IsLoose k ∧ _ = { k with isModified := false } :=
      assembled_ofDescription (fun _ _ _ ↦ FactorySet.isLoose_of_createWithin _ _) h
    have hall := Node.told_isLoose.of_assembled hk
    exact hall
  | _, _, .step r h hnode _ => by
    rw [← r.perform_eq_reply]
    exact Node.told_isLoose.perform (FactorySet.isLoose_of_createWithin _ _)
      (coherent_iff.mp h.reachable.coherent).1 h.isLoose fun n hr ↦ (hnode n hr).isLoose
  | _, _, .saved path stamp h => h.isLoose

/-- The nodes that a host has to add are loose. -/
theorem Node.Account.isLoose : ∀ {n : Node Behaviour} {new : String → Option Packet},
    n.Account new → n.IsLoose
  | _, _, .plain hp hn => Node.isLoose_of_isNew hp hn
  | _, _, .wrapped h hn => Net.isLoose_of_wrap h.reachable.coherent h.isLoose hn
  | _, _, .created hn => FactorySet.isLoose_of_createWithin _ _ hn
  | _, _, .removed h hn =>
    Node.told_isLoose.of_removeNode h.isLoose (keepsOutline_life _) (Behaviour.keepsTrait_form _) hn
  | _, _, @Node.Account.injected n _ _ _ _ h hp => by
    obtain rfl := Panel.inject_eq_ok hp
    exact Node.told_isLoose n _ rfl (Port.map_modifyNamed_of_eq fun _ ↦ rfl) h.isLoose
  | _, _, .extended h hp ha => by
    refine ⟨h.isLoose.candid.congr (fun _ ↦ Panel.requires_addPort ha) rfl, fun q hq ↦ ?_⟩
    refine Panel.forall_ports_addPort (Q := fun side q ↦ side = .input → q.isExposed = false) ?_
      (fun _ _ ↦ hp.unexposed) ha .input q hq rfl
    rintro side q hq rfl
    exact h.isLoose.unfed q hq
  | _, _, .written h hi _ _ hb => by
    refine ⟨?_, hi ▸ h.isLoose.unfed⟩
    rcases hb with hb | ⟨hm, -⟩
    · exact h.isLoose.candid.congr
        (fun i ↦ (Panel.requires_of_map_eq (congrArg (List.map Port.isRequired) hi) i).trans)
        (congrArg _ hb)
    · exact .leaf hm

end

end PortGraph
