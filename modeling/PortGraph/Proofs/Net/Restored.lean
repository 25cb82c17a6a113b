import PortGraph.Proofs.Net.Driven
import PortGraph.Proofs.Net.Saved
import PortGraph.Proofs.Net.Wrapping

/-!
# Saved nets come back

A savable node is made anew of its description, with the types that come with the library
(`FactorySet.exists_restored`).  This is shown by induction on the node: the net in it is rebuilt of
nodes that were made anew, under the same names and with the same ports, so its links are there to be
made again; and the node that holds it mirrors it as the old one did.
-/

set_option autoImplicit false

namespace PortGraph

open PortGraph.Graph

/-- **A node was made anew** of the description of a place. -/
structure Slot.RestoredBy (s : Slot Behaviour) (d : NodeDescription) (m : Node Behaviour) :
    Prop where
  /-- It has the name that the description tells. -/
  name_eq : m.name = d.instanceName
  /-- It is saved as the description. -/
  description : (⟨m.name, m⟩ : Slot Behaviour).description = .ok d
  /-- It was made like the node in the place, up to operators. -/
  made : (⟨m.name, m⟩ : Slot Behaviour).made .form = s.made .shape

/-! ## Rebuilding a net of nodes made anew -/

/-- What is seen of the nodes that are made anew. -/
theorem exists_views {create : NodeDescription → Attempt (Node Behaviour)}
    {slots : List (Slot Behaviour)} {nodes : List NodeDescription}
    (h : List.Forall₂ (fun (s : Slot Behaviour) d ↦ s.ToldBy d ∧
      ∀ stamp, ∃ m, ((create d).run stamp).result = .ok m ∧ s.RestoredBy d m) slots nodes) :
    ∃ views : List (Except GraphError NodeDescription × Slot Behaviour),
      List.Forall₂ (fun view d ↦ ∀ stamp, ∃ m, ((create d).run stamp).result = .ok m ∧
        m.name = d.instanceName ∧ ((⟨m.name, m⟩ : Slot Behaviour).description,
          (⟨m.name, m⟩ : Slot Behaviour).made .form) = view) views nodes ∧
      views.map Prod.fst = nodes.map .ok ∧ views.map Prod.snd = slots.map (Slot.made .shape) := by
  induction h with
  | nil => exact ⟨[], .nil, rfl, rfl⟩
  | @cons s d _ _ h _ ih =>
    obtain ⟨views, hviews, hfst, hsnd⟩ := ih
    refine ⟨(.ok d, s.made .shape) :: views, .cons (fun stamp ↦ ?_) hviews, ?_, ?_⟩
    · obtain ⟨m, hm, hrestored⟩ := h.2 stamp
      exact ⟨m, hm, hrestored.name_eq, Prod.ext hrestored.description hrestored.made⟩
    · rw [List.map_cons, hfst, List.map_cons]
    · rw [List.map_cons, hsnd, List.map_cons]

/-- **A net is rebuilt** if its nodes are made anew. -/
theorem Net.exists_rebuilt {create : NodeDescription → Attempt (Node Behaviour)}
    (hcreate : ∀ d stamp n, ((create d).run stamp).result = .ok n → n.panel.IsDetached) {g : Net}
    (hg : g.WellLinked) {d : GraphDescription} (hlinks : d.links = g.links.map Link.description)
    (hnodes : List.Forall₂ (fun (s : Slot Behaviour) d ↦ s.ToldBy d ∧
      ∀ stamp, ∃ m, ((create d).run stamp).result = .ok m ∧ s.RestoredBy d m) g.slots d.nodes)
    (factories : FactorySet) (stamp : Nat) :
    ∃ k, ((Graph.ofDescription create factories d).run stamp).result = .ok k ∧
      k.slots.map Slot.description = d.nodes.map .ok ∧
      k.slots.map (Slot.made .form) = g.slots.map (Slot.made .shape) ∧
      k.links.map Link.unnumbered = g.links.map Link.unnumbered ∧ k.name = d.name := by
  obtain ⟨views, hviews, hdescribed, hshaped⟩ := exists_views hnodes
  have hnames : d.nodes.map NodeDescription.instanceName = g.nodeNames := by
    have hforall : List.Forall₂ (fun s d ↦ NodeDescription.instanceName d = Slot.key s) g.slots
        d.nodes := hnodes.imp fun _ _ h ↦ h.1.instanceName
    have heq := List.forall₂_map_left_iff.mpr (List.forall₂_map_right_iff.mpr hforall.flip)
    rwa [List.forall₂_eq_eq_eq] at heq
  obtain ⟨k, hk, hslots, hklinks, hname⟩ := ofDescription_ok (Slot.ignoresLinks_made .form) hcreate
    hviews (hnames ▸ hg.keys_nodup) hlinks (fun k hk l hl side ↦ by
      have hkmade : k.slots.map (Slot.made .form) = g.slots.map (Slot.made .shape) := by
        rw [← hshaped, ← hk, List.map_map]
        rfl
      obtain ⟨p, hp, htype⟩ := hg.ends l hl side
      have hport := map_port?_of_made hkmade side (l.place side)
      rw [hp, Option.map_some, Option.map_eq_some_iff] at hport
      obtain ⟨q, hq, hdeclared⟩ := hport
      exact ⟨q, hq, (congrArg Port.dataType hdeclared).trans htype⟩) hg.once factories stamp
  refine ⟨k, hk, ?_, ?_, hklinks, hname⟩
  · rw [← hdescribed, ← hslots, List.map_map]
    rfl
  · rw [← hshaped, ← hslots, List.map_map]
    rfl

/-! ## Making a node -/

section Builtins

variable {set : FactorySet} {s : Slot Behaviour} {d : NodeDescription} {m : Node Behaviour}

/-- What is told by the description is put on the panel. -/
theorem Slot.ToldBy.restoredBy_labelled (h : s.ToldBy d) (hmetadata : m.panel.metadata = none)
    (hpersisted : (m.labelled d).persisted = .ok d.config)
    (hinputs : m.panel.inputs.map Port.declared = s.node.panel.inputs.map Port.declared)
    (houtputs : m.panel.outputs.map Port.declared = s.node.panel.outputs.map Port.declared)
    (hfed : ∀ p ∈ m.panel.outputs, p.isExposed = false)
    (hfed' : ∀ p ∈ s.node.panel.outputs, p.isExposed = false)
    (hb : m.behaviour.through .form = s.node.behaviour.through .shape) :
    s.RestoredBy d (m.labelled d) := by
  have huntied : m.panel.outputs.map Port.untied = s.node.panel.outputs.map Port.untied :=
    map_eq_of_map_eq houtputs fun p hp q hq hpq ↦
      Port.untied_congr hpq ((hfed q hq).trans (hfed' p hp).symm)
  refine ⟨rfl, ?_, ?_⟩
  · refine Slot.description_eq_ok_iff.mpr ⟨⟨rfl, rfl, hpersisted⟩, ?_⟩
    simp [Node.labelled, Node.mapPanel, hmetadata]
  · simp only [Slot.made, Node.labelled, Node.mapPanel, Node.name, Node.typeName, hinputs, huntied, hb,
      h.instanceName, h.model]

/-! ## Nodes with an operation -/

/-- An operation is what a node starts with that becomes another one once it is configured. -/
structure Operation.Becomes (base op : Operation) : Prop where
  /-- It has the same inputs. -/
  inputs : base.inputs = op.inputs
  /-- It has the same output. -/
  output : base.output = op.output
  /-- What is saved of the other one makes up for the difference. -/
  configured : ∀ panel panel' config, op.persisted panel = .ok config →
    op.shape.persisted panel' = .ok config ∧
      match config with
      | none => base = op.shape
      | some config => base.restore panel' config = .ok op.shape

/-- **The library knows the types of all savable operations.** -/
theorem Operation.exists_entry {stamp : Nat} (hset : (FactorySet.builtins.run stamp).result = .ok set)
    {op : Operation} (h : op.isSavable = true) : ∃ entry base,
      set.find? op.typeName = some entry ∧ entry.maker.operation? = some base ∧ base.Becomes op := by
  obtain rfl := Except.ok.inj ((FactorySet.builtins_eq_ok stamp).symm.trans hset)
  -- each kind of node that is registered is found under the name of its type
  cases op with
  | source k value =>
    refine ⟨⟨k.label ++ "Source", "Sources", .source k⟩, .source k k.blank, ?_, rfl, rfl, rfl,
      fun panel panel' config hconfig ↦ ?_⟩
    · rcases k with (⟨⟨⟩⟩ | _ | _ | ⟨⟨⟩⟩) <;> rfl
    · obtain rfl := Except.ok.inj hconfig
      refine ⟨rfl, ?_⟩
      dsimp only
      rw [restore, DataKind.decode_asRecord h]
      rfl
  | sink k =>
    refine ⟨⟨k.label ++ "Sink", "Sinks", .sink k⟩, .sink k, ?_, rfl, rfl, rfl,
      fun panel panel' config hconfig ↦ ?_⟩
    · rcases k with (⟨⟨⟩⟩ | _ | _ | ⟨⟨⟩⟩) <;> rfl
    · obtain rfl := Except.ok.inj hconfig
      exact ⟨rfl, rfl⟩
  | mapping e operator =>
    refine ⟨⟨e.label ++ "Transform", "Functionals", .mapping e⟩, .mapping e id, ?_, rfl, rfl, rfl,
      fun panel panel' config hconfig ↦ ?_⟩
    · cases e <;> rfl
    · obtain rfl := Except.ok.inj hconfig
      exact ⟨rfl, rfl⟩
  | folding e operator init =>
    refine ⟨⟨e.label ++ "Reduce", "Functionals", .folding e⟩, .folding e (fun acc _ ↦ acc) e.zero, ?_,
      rfl, rfl, rfl, fun panel panel' config hconfig ↦ ?_⟩
    · cases e <;> rfl
    · obtain rfl := Except.ok.inj hconfig
      refine ⟨rfl, ?_⟩
      dsimp only
      have hinit : Json.Decoder.record ((DataKind.scalar e).asRecord "ReduceConfig" "init")
          (.object [("init", e.toJson init)]) = .ok init :=
        DataKind.decode_asRecord (k := .scalar e) h "ReduceConfig" "init"
      rw [restore, hinit]
      rfl
  | unary k l f => exact absurd h (by simp [isSavable])
  | binary k l m f => exact absurd h (by simp [isSavable])
  | increment => exact absurd h (by simp [isSavable])

/-- A node with an operation is made anew. -/
theorem FactorySet.exists_restored_operation {stamp₀ : Nat}
    (hset : (FactorySet.builtins.run stamp₀).result = .ok set) {key : String} {n : Node Behaviour}
    {op : Operation} (hb : n.behaviour = .operation op) (hd : op.Declares n.panel)
    (hs : n.IsSavable) (htold : (⟨key, n⟩ : Slot Behaviour).ToldBy d) (level stamp : Nat) :
    ∃ m, ((set.createWithin level d).run stamp).result = .ok m ∧
      (⟨key, n⟩ : Slot Behaviour).RestoredBy d m := by
  obtain ⟨⟨htype, -, hfed⟩, hop⟩ := hs.of_operation hb
  obtain ⟨entry, base, hfind, hbase, hbecomes⟩ := op.exists_entry hset hop
  rw [show op.typeName = d.model from (htold.model.trans htype).symm] at hfind
  have hpersisted : op.persisted n.panel = .ok d.config := by
    rw [← htold.config, Node.persisted, hb, Behaviour.persisted]
  obtain ⟨panel, hpanel⟩ : ∃ panel, panel = (base.panel d.instanceName stamp).result := ⟨_, rfl⟩
  obtain ⟨hshape, hconfigured⟩ := hbecomes.configured n.panel panel d.config hpersisted
  have hmade : ((Node.configured ⟨panel, .operation base⟩ d).run
      (base.panel d.instanceName stamp).stamp).result = .ok ⟨panel, .operation op.shape⟩ := by
    refine Node.configured_eq_ok_iff.mpr ?_
    cases hc : d.config with
    | none =>
      rw [hc] at hconfigured
      exact .inl ⟨rfl, by rw [show base = op.shape from hconfigured]⟩
    | some config =>
      rw [hc] at hconfigured
      exact .inr ⟨config, rfl, Node.restore_eq_ok_iff.mpr (.inl ⟨_, _, rfl, hconfigured, rfl⟩)⟩
  refine ⟨Node.labelled ⟨panel, Behaviour.operation op.shape⟩ d, ?_, ?_⟩
  · rw [createWithin_eq_createWith]
    refine createWith_of_find? hfind ?_
    rw [Maker.make_of_operation hbase]
    rw [hpanel] at hmade ⊢
    exact (Attempt.run_bind_of_ok rfl).trans hmade
  · refine htold.restoredBy_labelled (by rw [hpanel]; rfl) ?_ ?_ ?_ ?_ hfed ?_
    · exact (hbecomes.configured n.panel
        (Node.labelled ⟨panel, Behaviour.operation op.shape⟩ d).panel _ hpersisted).1
    · rw [hpanel]
      exact (base.declared_inputs stamp).trans (hbecomes.inputs ▸ hd.inputs.symm)
    · rw [hpanel]
      exact (congrArg (fun p ↦ [p]) base.declared_output).trans (hbecomes.output ▸ hd.outputs.symm)
    · rw [hpanel]
      exact fun p hp ↦ by
        rw [List.mem_singleton.mp hp]
        cases base <;> rfl
    · rw [hb]
      rfl

/-! ## Nodes that hold a net -/

theorem forall₂_of_map_eq {α γ δ : Type} {R : α → γ → Prop} {f : α → δ} {f' : γ → δ} {l : List α}
    {l' : List γ} (h : l.map f = l'.map f') (hR : ∀ a ∈ l, ∀ b ∈ l', f a = f' b → R a b) :
    List.Forall₂ R l l' := by
  induction l generalizing l' with
  | nil =>
    rw [List.map_eq_nil_iff.mp h.symm]
    exact .nil
  | cons a l ih =>
    obtain ⟨b, l', rfl, hb, hl⟩ := List.map_eq_cons_iff.mp (h.symm.trans List.map_cons)
    exact .cons (hR a List.mem_cons_self b List.mem_cons_self hb.symm)
      (ih hl.symm fun a ha b hb ↦ hR a (List.mem_cons_of_mem _ ha) b (List.mem_cons_of_mem _ hb))

/-- A node that holds a net is made anew of the description of the net. -/
theorem FactorySet.createWithin_nested {stamp₀ : Nat}
    (hset : (FactorySet.builtins.run stamp₀).result = .ok set) {config : Json}
    (hmodel : d.model = nestedType) (hconfig : d.config = some config) {inner : GraphDescription}
    (hinner : GraphDescription.ofJson config = .ok inner) {level stamp : Nat} {k : Net}
    (hk : ((Graph.ofDescription (set.createWithin level) set inner).run stamp).result = .ok k)
    (hm : ∀ stamp, ((Net.wrap d.instanceName k).run stamp).result = .ok m) :
    ((set.createWithin (level + 1) d).run stamp).result = .ok (m.labelled d) := by
  have hfind : set.find? d.model = some ⟨nestedType, "Graphs", .nested⟩ := by
    obtain rfl := Except.ok.inj ((FactorySet.builtins_eq_ok stamp₀).symm.trans hset)
    rw [hmodel]
    rfl
  have hmake : ((Maker.nested.make set (Graph.ofDescription (set.createWithin level) set) d).run
      stamp).result = .ok m := by
    rw [Maker.make, hconfig]
    dsimp only
    rw [hinner]
    exact (Attempt.run_bind_of_ok hk).trans (hm _)
  rw [createWithin_eq_createWith]
  exact createWith_of_find? hfind hmake

/-- A node that holds a net like that in the node of a place is made anew. -/
theorem Slot.ToldBy.restoredBy_wrapped (h : s.ToldBy d) {g k : Net} {inputs outputs : List Endpoint}
    (hb : s.node.behaviour = .nested g inputs outputs) (hg : g.WellLinked)
    (hmirrors : s.node.panel.Mirrors g inputs outputs)
    (hfed : ∀ p ∈ s.node.panel.outputs, p.isExposed = false) (hk : k.Coherent)
    (ho : k.IsOutermost) {nodes : List NodeDescription}
    (hdescribed : k.slots.map Slot.description = nodes.map .ok)
    (hmade : k.slots.map (Slot.made .form) = g.slots.map (Slot.made .shape))
    (hlinks : k.links.map Link.unnumbered = g.links.map Link.unnumbered)
    (hconfig : d.config = some ({ name := k.name, nodes, links := k.links.map Link.description } :
      GraphDescription).toConfig)
    {name : String} (hm : Net.wrapped? name k = .ok m) : s.RestoredBy d (m.labelled d) := by
  have hkwell := (Net.coherent_iff.mp hk).1
  obtain ⟨j, hj, ⟨hslots, hjlinks, hjname⟩, hjmirrors, -, hfed', -, -, hmetadata⟩ :=
    Net.wrapped?_spec hkwell ho hm
  have hwrap : ((Net.wrap name k).run 0).result = .ok m := by
    rw [Net.wrap, hm]
    rfl
  have hfresh := Net.isFresh_of_wrap hk hwrap
  have hform : Net.through .form j = Net.through .shape g := by
    refine Net.form_of_made hg (Net.coherent_iff.mp (hfresh.sound j _ _ hj).1).1 ?_
      (hjlinks ▸ hlinks) not hmirrors.exposed hjmirrors.exposed
    rw [← hmade, hslots, List.map_map]
    exact List.map_congr_left fun s _ ↦ s.made_exposed .form _
  -- a port is open in the rebuilt net exactly if it was in the saved one
  have hopen : ∀ side, Net.openPorts j side = g.openPorts side := by
    intro side
    have hthrough : (Net.through .form j).openPorts side = Net.openPorts j side :=
      Net.openPorts_through rfl j side
    rw [← hthrough, hform]
    exact Net.openPorts_through rfl g side
  have hjdescribed : j.slots.map Slot.description = nodes.map .ok := by
    rw [← hdescribed, hslots, List.map_map]
    exact List.map_congr_left fun s _ ↦ s.description_exposed _
  refine h.restoredBy_labelled hmetadata ?_ ?_ ?_ hfed' hfed ?_
  · rw [hconfig, ← hjname, ← hjlinks]
    exact Net.persisted_of_map (n := m.labelled d) hjdescribed hj
  · rw [hjmirrors.inputs, hmirrors.inputs, hopen]
  · rw [hjmirrors.outputs, hmirrors.outputs, hopen]
  · rw [hj, hb, Behaviour.through_nested, Behaviour.through_nested, hform, hjmirrors.inputPlaces,
      hjmirrors.outputPlaces, hopen, hopen, ← hmirrors.inputPlaces, ← hmirrors.outputPlaces]

/-- **Savable nodes are made anew of what they are saved as.** -/
theorem FactorySet.exists_restored {stamp₀ : Nat}
    (hset : (FactorySet.builtins.run stamp₀).result = .ok set) {n : Node Behaviour}
    (hb : n.IsBuiltin) (hs : n.IsSavable) (hsound : n.behaviour.Sound false) {key : String}
    (htold : (⟨key, n⟩ : Slot Behaviour).ToldBy d) {level : Nat}
    (hlevel : ∀ config, d.config = some config → config.depth ≤ level) (stamp : Nat) :
    ∃ m, ((set.createWithin level d).run stamp).result = .ok m ∧
      (⟨key, n⟩ : Slot Behaviour).RestoredBy d m := by
  -- by induction on how nodes nest: a level is spent on each net that is described in a node
  induction hb generalizing key d level stamp with
  | operation hb h => exact exists_restored_operation hset hb h hs htold level stamp
  | @nested n g inputs outputs hb h _ ih =>
    obtain ⟨⟨htype, -, hfed⟩, hinner⟩ := hs.of_nested hb
    have hcoherent := (hsound g inputs outputs hb).1
    have hg := (Net.coherent_iff.mp hcoherent).1
    obtain ⟨nodes, hnodes⟩ := hinner.exists_descriptions
    obtain ⟨inner, hdescription⟩ : ∃ inner : GraphDescription,
      inner = { name := g.name, nodes, links := g.links.map Link.description } := ⟨_, rfl⟩
    have hconfig : d.config = some inner.toConfig := by
      rw [hdescription]
      exact Except.ok.inj (htold.config.symm.trans (Net.persisted_of_map hnodes hb))
    have hread : GraphDescription.ofJson inner.toConfig = .ok inner.canonical := by
      rw [GraphDescription.ofJson_toConfig, GraphDescription.definite_eq_self fun d hd ↦ ?_]
      rw [hdescription] at hd
      have hmem : Except.ok d ∈ g.slots.map Slot.description := hnodes ▸ List.mem_map_of_mem hd
      obtain ⟨s, hs, hsd⟩ := List.mem_map.mp hmem
      exact (hinner s hs).isDefinite hsd
    have hdepth := hlevel _ hconfig
    obtain ⟨level, rfl⟩ : ∃ l, level = l + 1 :=
      Nat.exists_eq_succ_of_ne_zero (by have := inner.depth_toConfig_pos; omega)
    -- the nodes of the net are told of by the description as it is read back
    have hinners : List.Forall₂ (fun (s : Slot Behaviour) d ↦ s.ToldBy d ∧ ∀ stamp, ∃ m,
        ((set.createWithin level d).run stamp).result = .ok m ∧ s.RestoredBy d m) g.slots
          inner.canonical.nodes := by
      rw [GraphDescription.canonical, hdescription]
      refine List.forall₂_map_right_iff.mpr (forall₂_of_map_eq hnodes fun s hs d hd hsd ↦ ?_)
      have htold := (Slot.description_eq_ok_iff.mp hsd).1.canonical (hinner s hs)
      refine ⟨htold, fun stamp ↦ ih s hs (hinner s hs) ?_ htold (fun config hc ↦ ?_) stamp⟩
      · exact hcoherent.sound_of_mem hs
      · obtain ⟨config', hc', rfl⟩ := Option.map_eq_some_iff.mp hc
        have hlt := GraphDescription.depth_lt_toConfig (d := inner) (hdescription ▸ hd) hc'
        omega
    obtain ⟨k, hk, hkdescribed, hkmade, hklinks, hkname⟩ := Net.exists_rebuilt
      (fun d stamp n hn ↦ (set.isFresh_of_createWithin level hn).detached) hg (d := inner.canonical)
      (by rw [hdescription]; rfl) hinners set stamp
    have hkcoherent := Net.coherent_of_ofDescription
      (fun _ _ _ ↦ set.isFresh_of_createWithin level) hk
    have hkstock := Net.isStock_of_ofDescription
      (fun _ _ _ ↦ isStock_of_createWithin (isProbeless_builtins hset) level) hk
    obtain ⟨m, hwrapped, hm⟩ := Net.exists_wrap (Net.coherent_iff.mp hkcoherent).1 d.instanceName
    refine ⟨m.labelled d, createWithin_nested hset (htold.model.trans htype) hconfig hread hk hm, ?_⟩
    refine htold.restoredBy_wrapped hb hg h hfed hkcoherent hkstock.isOutermost hkdescribed hkmade
      hklinks ?_ hwrapped
    rw [hconfig, ← inner.toConfig_canonical, hkname, Link.map_description_congr hklinks, hdescription]
    rfl

end Builtins

end PortGraph
