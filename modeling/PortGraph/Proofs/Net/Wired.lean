import PortGraph.Proofs.Net.Enclosed
import PortGraph.Proofs.Net.Flat
import PortGraph.Proofs.Net.Sided

/-!
# How the nets inside are wired

A host has no hold of a net that it put in a node.  What the ports of such a net say of their links stays
true all the same, and each input of the node goes on standing for an input of the net: both are a matter
of the form of the node (`Node.IsWired.congr`), which nothing changes that is asked of the net around.

So at every depth of a net the lists of what a host may feed and read agree with the links, also where
inputs are exposed (`Net.Built.listsAccess_within`).
-/

set_option autoImplicit false

namespace PortGraph

open PortGraph.Graph
open PortGraph.Net (coherent_iff isNew_of_wrap parts_of_wrap)

/-! ## Forms of nets -/

/-- **Ports and links belong together**, as far as the form of a net tells. -/
def Net.IsFormed (g : Net) : Prop := ∃ j : Net, j.WellLinked ∧ through .form g = through .form j

theorem Graph.WellLinked.isFormed {g : Net} (h : g.WellLinked) : g.IsFormed := ⟨g, h, rfl⟩

/-- Whether ports count their links is a matter of the form. -/
theorem Graph.IsTallied.congr {g k : Net} (h : g.IsTallied)
    (hk : Net.through .form k = Net.through .form g) : k.IsTallied where
  keys_nodup := by
    rw [Net.nodeNames_form_eq hk]
    exact h.keys_nodup
  ports_nodup s hs side := by
    obtain ⟨s', hs', -, heq⟩ := Net.exists_slot_of_form_eq hk hs
    rw [← Panel.map_eq_of_form_eq (f := Port.name) (fun _ ↦ rfl) (Node.through_eq_iff.mp heq).1 side]
    exact h.ports_nodup s' hs' side
  counted side e p hp := by
    have hform := Net.port?_form_eq hk side e
    rw [hp] at hform
    obtain ⟨q, hq, hqp⟩ := Option.map_eq_some_iff.mp hform.symm
    have hcount := congrArg Port.linkCount hqp
    change q.linkCount = p.linkCount at hcount
    rw [← hcount, h.counted side e q hq, degree_congr (congrArg Graph.links hk)]

theorem Net.IsFormed.isTallied {g : Net} (h : g.IsFormed) : g.IsTallied := by
  obtain ⟨j, hj, hform⟩ := h
  exact hj.isTallied.congr hform

/-! ## Wired nodes -/

/-- **A node is wired**: in the net that it holds ports and links belong together, a link ends at each
input that is not exposed, and there is an input for each one that the node is to feed; and so it is in
the nets further inside. -/
inductive Node.IsWired : Node Behaviour → Prop
  /-- It holds no net. -/
  | leaf {n : Node Behaviour} (h : n.inner? = none) : Node.IsWired n
  /-- It holds a net of wired nodes. -/
  | nested {n : Node Behaviour} {g : Net} {inputs outputs : List Endpoint}
      (hb : n.behaviour = .nested g inputs outputs) (formed : g.IsFormed)
      (covered : ∀ s ∈ g.slots, ∀ p ∈ s.node.panel.inputs, p.isSatisfied = true)
      (bound : ∀ e ∈ inputs, ∃ p, g.port? .input e = some p)
      (inner : ∀ s ∈ g.slots, Node.IsWired s.node) : Node.IsWired n

/-- **Whether a node is wired is a matter of its form.** -/
theorem Node.IsWired.congr {n m : Node Behaviour} (h : n.IsWired)
    (hb : m.behaviour.through .form = n.behaviour.through .form) : m.IsWired := by
  induction h generalizing m with
  | leaf hn => exact .leaf (inner?_of_form_eq hn hb)
  | nested hn formed covered bound _ ih =>
    rw [hn] at hb
    obtain ⟨k, hm, hk⟩ := Behaviour.eq_nested_of_form_eq hb
    refine .nested hm (formed.imp fun _ ⟨hj, hform⟩ ↦ ⟨hj, hk.trans hform⟩) (fun s hs p hp ↦ ?_)
      (fun e he ↦ ?_) fun s hs ↦ ?_
    · obtain ⟨r, hr, -, q, hq, hform⟩ := Net.exists_port_of_form_eq hk hs .input hp
      have hsatisfied := congrArg Port.isSatisfied hform
      exact hsatisfied.symm.trans (covered r hr q hq)
    · obtain ⟨p, hp⟩ := bound e he
      have hform := Net.port?_form_eq hk .input e
      rw [hp] at hform
      exact (Option.map_eq_some_iff.mp hform).imp fun _ hq ↦ hq.1
    · obtain ⟨s', hs', -, heq⟩ := Net.exists_slot_of_form_eq hk hs
      exact ih s' hs' (Node.through_eq_iff.mp heq).2.symm

theorem Net.isWired_of_form_eq {g k : Net} (h : ∀ s ∈ g.slots, s.node.IsWired)
    (hk : through .form k = through .form g) : ∀ s ∈ k.slots, s.node.IsWired := fun s hs ↦ by
  obtain ⟨r, hr, -, heq⟩ := exists_slot_of_form_eq hk hs
  exact (h r hr).congr (Node.through_eq_iff.mp heq).2.symm

/-- Whether a node is wired is told by its form. -/
theorem Node.told_isWired : Told (Behaviour.through .form) Node.IsWired :=
  fun _ _ hb _ hn ↦ hn.congr hb

/-! ## Nodes that are made -/

theorem Graph.WellLinked.addOuterInputs {setters : List Accessor} {panel panel' : Panel} {g k : Net}
    (hg : g.WellLinked) (h : Net.addOuterInputs setters panel g = .ok (panel', k)) :
    k.WellLinked := by
  induction setters generalizing panel g with
  | nil =>
    obtain ⟨-, rfl⟩ := Prod.mk.inj (Except.ok.inj h)
    exact hg
  | cons a setters ih =>
    rw [Net.addOuterInputs] at h
    obtain ⟨⟨panel₁, g₁⟩, hadd, h⟩ := bind_eq_ok h
    exact ih (hg.expose (Net.addOuterInput_eq_ok hadd).1) h

/-- **A node that holds a net of wired nodes is wired.** -/
theorem Net.isWired_of_wrap {g : Net} (hg : g.WellLinked) (h : ∀ s ∈ g.slots, s.node.IsWired)
    {name : String} {n : Node Behaviour} {stamp : Nat}
    (hn : ((wrap name g).run stamp).result = .ok n) : n.IsWired := by
  obtain ⟨panel₁, panel₂, k, hinputs, -, rfl⟩ := parts_of_wrap hn
  have henclosed := enclosed_of_addOuterInputs hg hinputs
  have hk := hg.addOuterInputs hinputs
  refine .nested rfl hk.isFormed (fun s hs p hp ↦ ?_) (fun e he ↦ ?_) fun s hs ↦ ?_
  · -- an input that is neither linked nor exposed would be listed
    by_contra hopen
    have hlisted : (⟨⟨s.key, p.name⟩, p.dataType, p.isRequired⟩ : Accessor) ∈ k.setters :=
      ((hk.isTallied.lists_accessors .input _).mem_iff _).mpr
        ⟨p, hk.port?_of_mem hs hp, by simpa [Port.isSatisfied] using hopen, rfl, rfl⟩
    rw [henclosed.setters] at hlisted
    exact absurd hlisted (by simp)
  · obtain ⟨a, ha, rfl⟩ := List.mem_map.mp he
    obtain ⟨p, hp, -⟩ := ((hg.isTallied.lists_accessors .input _).mem_iff a).mp ha
    have hcount := henclosed.linkCounts .input a.place
    rw [hp] at hcount
    exact (Option.map_eq_some_iff.mp hcount).imp fun _ hq ↦ hq.1
  · rw [henclosed.slots] at hs
    obtain ⟨r, hr, rfl⟩ := List.mem_map.mp hs
    exact (h r hr).congr rfl

theorem Node.IsWired.labelled {n : Node Behaviour} (h : n.IsWired) (d : NodeDescription) :
    (n.labelled d).IsWired :=
  h.congr rfl

/-- **Every node that a factory makes is wired.** -/
theorem FactorySet.isWired_of_createWithin (set : FactorySet) (level : Nat) {d : NodeDescription}
    {n : Node Behaviour} {stamp : Nat} (h : ((set.createWithin level d).run stamp).result = .ok n) :
    n.IsWired := by
  refine createWithin_induction_of_isFresh (P := Node.IsWired)
    (R := fun g ↦ ∀ s ∈ g.slots, s.node.IsWired) (fun hcreate d stamp g hg ↦ ?_)
    (fun _ hrebuild hm ↦ ?_) level h
  · obtain ⟨k, hk, rfl⟩ := assembled_ofDescription (fun d stamp n hn ↦ (hcreate d stamp n hn).2) hg
    have hall := Node.told_isWired.of_assembled hk
    exact hall
  · refine Node.IsWired.labelled ?_ _
    rcases Maker.make_cases hm with ⟨-, hnone⟩ | ⟨g, _, _, hwrap, rfl | ⟨_, _, hg⟩⟩
    · exact .leaf hnone
    · exact Net.isWired_of_wrap (wellLinked_empty _ _) (fun s hs ↦ absurd hs (by simp)) hwrap
    · exact Net.isWired_of_wrap (coherent_iff.mp (hrebuild _ _ g hg).1).1 (hrebuild _ _ g hg).2 hwrap

/-! ## Nets in the hands of a host -/

/-- **A node is at hand**: it is wired, and no net feeds it. -/
structure Node.IsAtHand (n : Node Behaviour) : Prop where
  /-- It is wired. -/
  wired : n.IsWired
  /-- No net feeds an input. -/
  unfed : ∀ p ∈ n.panel.inputs, p.isExposed = false

/-- Whether a node is at hand is told by its form and the terms of its inputs. -/
theorem Node.told_isAtHand : Told (Behaviour.through .form) Node.IsAtHand := by
  intro n m hb hterms hn
  refine ⟨hn.wired.congr hb, fun p hp ↦ ?_⟩
  have hmem : p.terms ∈ n.panel.inputs.map Port.terms := hterms ▸ List.mem_map_of_mem hp
  obtain ⟨q, hq, heq⟩ := List.mem_map.mp hmem
  exact (congrArg Prod.snd heq).symm.trans (hn.unfed q hq)

theorem Panel.IsNew.unfed {panel : Panel} (h : panel.IsNew) :
    ∀ p ∈ panel.inputs, p.isExposed = false :=
  fun p hp ↦ (h.ports_new .input p hp).2.unexposed

theorem FactorySet.isAtHand_of_createWithin (set : FactorySet) (level : Nat) {d : NodeDescription}
    {n : Node Behaviour} {stamp : Nat} (h : ((set.createWithin level d).run stamp).result = .ok n) :
    n.IsAtHand :=
  ⟨set.isWired_of_createWithin level h, (set.isNew_of_createWithin level h).unfed⟩

theorem Net.isAtHand_of_ofDescription {factories : FactorySet} {d : GraphDescription} {stamp : Nat}
    {g : Net} (h : ((ofDescription factories d).run stamp).result = .ok g) :
    ∀ s ∈ g.slots, s.node.IsAtHand := by
  obtain ⟨k, hk, rfl⟩ : ∃ k, Graph.Assembled Node.IsAtHand k ∧ g = { k with isModified := false } :=
    assembled_ofDescription (fun _ _ _ ↦ FactorySet.isAtHand_of_createWithin _ _) h
  have hall := Node.told_isAtHand.of_assembled hk
  exact hall

theorem Port.IsMade.unexposed {p : Port} (h : p.IsMade) : p.isExposed = false := by
  induction h with
  | new => rfl
  | @required p _ ih =>
    rw [Port.require]
    split <;> exact ih
  | defaulted _ _ ih => exact ih
  | stored _ _ ih => exact ih

/-- What a host does to a node leaves it wired. -/
theorem Node.Handled.isWired {n m : Node Behaviour} (h : n.Handled m) (hn : n.IsWired) :
    m.IsWired := by
  have hform := Behaviour.keepsTrait_form (n.behaviour.depth + 1)
  cases h with
  | extended | injected | published | emptied | annotated => exact hn.congr rfl
  | initialized stamp => exact hn.congr (hform.init n stamp)
  | executed stamp => exact hn.congr (hform.execute n stamp)
  | destroyed stamp => exact hn.congr (hform.destroy n stamp)
  | restored config =>
    rw [restore]
    cases hb : n.behaviour with
    | operation op =>
      dsimp only
      cases op.restore n.panel config with
      | error e => exact hn
      | ok op => exact .leaf rfl
    | probe p =>
      dsimp only
      cases p.restore config with
      | error e => exact hn
      | ok p => exact .leaf rfl
    | nested => exact hn
  | altered _ _ hm => exact .leaf hm

/-- A port that is added to a panel is fed by nothing if it was made so. -/
theorem Panel.unfed_addPort {panel panel' : Panel} {side : Direction} {p : Port} {i : Nat}
    (h : ∀ p ∈ panel.inputs, p.isExposed = false) (hp : p.isExposed = false)
    (ha : panel.addPort side p = .ok (i, panel')) : ∀ p ∈ panel'.inputs, p.isExposed = false := by
  have hall := forall_ports_addPort (Q := fun side p ↦ side = .input → p.isExposed = false)
    (by rintro side q hq rfl; exact h q hq) (fun _ _ ↦ hp) ha
  exact fun q hq ↦ hall .input q hq rfl

/-- What a host does to a node leaves it at hand. -/
theorem Node.Handled.isAtHand {n m : Node Behaviour} (h : n.Handled m) (hn : n.IsAtHand) :
    m.IsAtHand := by
  refine ⟨h.isWired hn.wired, ?_⟩
  rcases h.cases with houtline | ⟨side, p, i, hp, ha⟩
  · intro p hp
    have hports := congrArg (List.map Port.isExposed) (Panel.ports_eq_of_outline_eq houtline .input)
    rw [List.map_map, List.map_map] at hports
    have hmem : p.isExposed ∈ n.panel.inputs.map Port.isExposed := hports ▸ List.mem_map_of_mem hp
    obtain ⟨q, hq, heq⟩ := List.mem_map.mp hmem
    exact heq.symm.trans (hn.unfed q hq)
  · exact Panel.unfed_addPort hn.unfed hp.unexposed ha

mutual

/-- **The nodes of the nets that a host has in its hands are at hand.** -/
theorem Net.Built.isAtHand : ∀ {g : Net}, g.Built → ∀ s ∈ g.slots, s.node.IsAtHand
  | _, .empty name factories => fun s hs ↦ absurd hs (by simp)
  | _, .described h => Net.isAtHand_of_ofDescription h
  | _, .step _ h hnode _ =>
    Node.told_isAtHand.perform (FactorySet.isAtHand_of_createWithin _ _) h.orderly.wellLinked
      h.isAtHand fun n hr ↦ (hnode n hr).isAtHand
  | _, .saved _ _ h => h.isAtHand
  | _, .handled h hn hm => fun s hs ↦ by
    rcases mem_modifyNode_const hs with rfl | ⟨hs, -⟩
    · exact hm.isAtHand (h.isAtHand _ (mem_of_node? hn))
    · exact h.isAtHand s hs

/-- **The nodes that a host has in its hands are at hand.** -/
theorem Node.Built.isAtHand : ∀ {n : Node Behaviour}, n.Built → n.IsAtHand
  | _, .plain name typeName hn => ⟨.leaf hn, (Panel.isNew_bare name typeName).unfed⟩
  | _, .wrapped h hn =>
    ⟨Net.isWired_of_wrap h.orderly.wellLinked (fun s hs ↦ (h.isAtHand s hs).wired) hn,
      (isNew_of_wrap hn).1.unfed⟩
  | _, .created hn => FactorySet.isAtHand_of_createWithin _ _ hn
  | _, .removed h hn => Node.told_isAtHand.of_removeNode h.isAtHand (keepsOutline_life _)
    (Behaviour.keepsTrait_form _) hn
  | _, .handled h hm => hm.isAtHand h.isAtHand

end

/-! ## Nets inside -/

/-- The net in a wired node. -/
theorem Node.IsWired.inner {n : Node Behaviour} {g : Net} {inputs outputs : List Endpoint}
    (h : n.IsWired) (hb : n.behaviour = .nested g inputs outputs) :
    g.IsFormed ∧ ∀ s ∈ g.slots, s.node.IsWired := by
  cases h with
  | leaf hleaf =>
    rw [inner?, hb] at hleaf
    exact absurd hleaf (by simp)
  | nested hb' formed _ _ inner =>
    obtain ⟨rfl, -, -⟩ := Behaviour.nested.inj (hb.symm.trans hb')
    exact ⟨formed, inner⟩

/-- At every depth of a net of wired nodes, ports count their links. -/
theorem Net.Within.isTallied {g : Net} (hg : g.IsTallied) (hw : ∀ s ∈ g.slots, s.node.IsWired)
    {path : List String} {k : Net} (h : g.Within path k) :
    k.IsTallied ∧ ∀ s ∈ k.slots, s.node.IsWired := by
  induction h with
  | here => exact ⟨hg, hw⟩
  | step _ hs hb ih =>
    obtain ⟨formed, inner⟩ := (ih.2 _ hs).inner hb
    exact ⟨formed.isTallied, inner⟩

/-- **What a host may feed and read agrees with the links**, in every net that it has in its hands, and
in every net inside.  The inputs are listed once each and in their order that are not exposed and at which
no link ends, and the outputs from which no link starts; and a packet can be put on an input if it exists
and no link ends there.  In the net that the host has in its hands, these are just the inputs that are
listed. -/
theorem Net.Built.listsAccess_within {g : Net} (h : g.Built) :
    (∀ path k, g.Within path k → k.ListsAccess) ∧
    ∀ place packet, (g.setInput place packet).1 = .ok () ↔ ∃ a ∈ g.setters, a.place = place := by
  have htallied := h.orderly.wellLinked.isTallied
  refine ⟨fun path k hk ↦ (hk.isTallied htallied fun s hs ↦ (h.isAtHand s hs).wired).1.listsAccess,
    htallied.listsAccess.setInput_iff_mem_setters fun e p hp ↦ ?_⟩
  obtain ⟨s, hs, -, hmem, -⟩ := htallied.port?_iff.mp hp
  exact (h.isAtHand s hs).unfed p hmem

/-! ## An input inside that is linked from afar -/

/-- A relay, linked to the second input of a node that holds two nodes. -/
def sampleChain : Net :=
  [.addNode sampleTwins.boxed, .addLink ⟨"a", "out"⟩ ⟨"box", "in_1"⟩].foldl Net.ask
    (Net.withNode "chain" sampleRelay)

theorem built_sampleChain : sampleChain.Built := by
  have hadd : ∀ {g : Net} {n : Node Behaviour}, g.Built → n.Built → (g.ask (.addNode n)).Built :=
    fun hg hn ↦ hg.ask _ (fun m hm ↦ Request.addNode.inj hm ▸ hn) (by simp)
  have hnodes := hadd (hadd (.empty "chain" {}) built_sampleRelay) built_sampleTwins.boxed.1
  exact hnodes.ask (.addLink ⟨"a", "out"⟩ ⟨"box", "in_1"⟩) (by simp) fun _ _ _ ↦ by decide +kernel

theorem listsAccess_within_sampleChain :
    sampleChain.setters.map Accessor.place = [⟨"a", "in"⟩, ⟨"box", "in"⟩, ⟨"box", "in_2"⟩] ∧
    sampleChain.getters = [] ∧ sampleChain.ListsAccess ∧
    (∃ k, sampleChain.Within ["box"] k ∧ k.ListsAccess) ∧
    (sampleChain.setInput ⟨"box", "in_2"⟩ (samplePacket 7)).1 = .ok () ∧
    (sampleChain.setInput ⟨"box", "in_1"⟩ (samplePacket 7)).1 ≠ .ok () := by
  obtain ⟨hlists, hset⟩ := built_sampleChain.listsAccess_within
  have hbox : (sampleChain.slots.any fun s ↦ s.key = "box" && s.node.inner?.isSome) = true := by
    decide +kernel
  simp only [List.any_eq_true, Bool.and_eq_true, decide_eq_true_eq, Option.isSome_iff_exists] at hbox
  obtain ⟨s, hs, hkey, k, hk⟩ := hbox
  obtain ⟨inputs, outputs, hb⟩ := Node.behaviour_of_inner? hk
  have hsetters : sampleChain.setters.map Accessor.place =
      [⟨"a", "in"⟩, ⟨"box", "in"⟩, ⟨"box", "in_2"⟩] := by decide +kernel
  have hmem : ∀ place, (∃ a ∈ sampleChain.setters, a.place = place) ↔
      place ∈ sampleChain.setters.map Accessor.place := fun place ↦ List.mem_map.symm
  refine ⟨hsetters, by decide +kernel, hlists [] _ .here, ⟨k, ?_, ?_⟩, ?_, ?_⟩
  · exact hkey ▸ .step .here hs hb
  · exact hlists _ k (.step .here hs hb)
  · rw [hset, hmem, hsetters]
    simp
  · rw [ne_eq, hset, hmem, hsetters]
    simp

end PortGraph
