import PortGraph.Proofs.Net.Stock

/-!
# Default operators

Operators are not saved, so a node that a factory made has those that come with its operation, at
every depth: its form is its shape (`FactorySet.form_eq_shape_of_createWithin`).  So it is with all
nodes of a net that was loaded (`Net.hasDefaultOperators_of_load`).
-/

set_option autoImplicit false

namespace PortGraph

open PortGraph.Graph

/-- The operators of the nodes are those that come with their operations, at every depth. -/
def Net.HasDefaultOperators (g : Net) : Prop := Net.through .form g = Net.through .shape g

theorem Net.hasDefaultOperators_iff {g : Net} : g.HasDefaultOperators ↔
    ∀ s ∈ g.slots, s.node.behaviour.through .form = s.node.behaviour.through .shape := by
  have hslots : g.HasDefaultOperators ↔
      g.slots.map (fun s ↦ (⟨s.key, s.node.through .form⟩ : Slot Behaviour)) =
        g.slots.map fun s ↦ ⟨s.key, s.node.through .shape⟩ := by
    refine ⟨congrArg Graph.slots, fun h ↦ ?_⟩
    rw [HasDefaultOperators, through, through, h]
  rw [hslots, List.map_inj_left]
  refine forall₂_congr fun s _ ↦ ⟨fun h ↦ ?_, fun h ↦ ?_⟩
  · exact (Node.mk.inj (Slot.mk.inj h).2).2
  · rw [Node.through, Node.through, h]
    rfl

/-! ## Nodes with an operation -/

theorem Maker.shape_of_operation {maker : Maker} {op : Operation}
    (h : maker.operation? = some op) : op.shape = op := by
  cases maker with
  | nested => exact absurd h (by simp [operation?])
  | probe name plan => exact absurd h (by simp [operation?])
  | _ =>
    obtain rfl := Option.some.inj h
    rfl

/-- A configuration changes no operator. -/
theorem Operation.shape_restore {op op' : Operation} {panel : Panel} {config : Json}
    (h : op.restore panel config = .ok op') (hop : op.shape = op) : op'.shape = op' := by
  cases op with
  | source k value =>
    rw [restore] at h
    split at h
    · obtain rfl := Except.ok.inj h
      rfl
    · exact absurd h (by simp)
  | folding e operator init =>
    rw [restore] at h
    split at h
    · obtain rfl := Except.ok.inj h
      obtain ⟨-, hoperator, -⟩ := Operation.folding.inj hop
      rw [shape, eq_of_heq hoperator]
    · exact absurd h (by simp)
  | unary k l f => exact absurd h (by simp [restore])
  | binary k l m f => exact absurd h (by simp [restore])
  | sink k =>
    obtain rfl := Except.ok.inj h
    rfl
  | mapping e operator =>
    obtain rfl := Except.ok.inj h
    exact hop
  | increment =>
    obtain rfl := Except.ok.inj h
    rfl

theorem Node.form_eq_shape_of_configured {op : Operation} (hop : op.shape = op)
    {d : NodeDescription} {panel : Panel} {n : Node Behaviour} {stamp : Nat}
    (h : ((Node.configured ⟨panel, .operation op⟩ d).run stamp).result = .ok n) :
    n.behaviour.through .form = n.behaviour.through .shape := by
  obtain ⟨op', rfl, -, -, hnone, hsome⟩ := configured_operation rfl h
  have hshape : op'.shape = op' := by
    cases hc : d.config with
    | none => rw [hnone hc, hop]
    | some config => exact Operation.shape_restore (hsome config hc) hop
  exact congrArg Behaviour.operation hshape.symm

/-! ## Nodes that hold a net -/

theorem Net.form_eq_shape_of_wrap {g : Net} (hg : g.WellLinked) (ho : g.IsOutermost)
    (hd : g.HasDefaultOperators) {name : String} {n : Node Behaviour} {stamp : Nat}
    (h : ((wrap name g).run stamp).result = .ok n) :
    n.behaviour.through .form = n.behaviour.through .shape := by
  rw [wrap] at h
  obtain ⟨m, hm, h⟩ := Attempt.of_bind_eq_ok h
  obtain rfl : m = n := by
    obtain ⟨_, _, h⟩ := Attempt.of_bind_eq_ok h
    exact Except.ok.inj h
  obtain ⟨k, hbehaviour, hk, -⟩ := wrapped?_spec hg ho (show wrapped? name g = .ok m from hm)
  have hkd : Net.HasDefaultOperators k := by
    rw [hasDefaultOperators_iff, hk.1]
    exact List.forall_mem_map.mpr (hasDefaultOperators_iff.mp hd)
  rw [hbehaviour, Behaviour.through_nested, Behaviour.through_nested, hkd]

/-! ## Factories -/

theorem Net.hasDefaultOperators_of_assembled {g : Net} (h : Graph.Assembled
    (fun n : Node Behaviour ↦ n.behaviour.through .form = n.behaviour.through .shape) g) :
    Net.HasDefaultOperators g := by
  have hall : g.Every fun b _ ↦ b.through .form = b.through .shape := by
    induction h with
    | empty => exact fun s hs ↦ absurd hs (by simp)
    | push _ hn _ ih => exact ih.pushNode hn
    | insert _ _ _ ih => exact ih.insertLink _
  exact hasDefaultOperators_iff.mpr hall

theorem Net.hasDefaultOperators_of_ofDescription
    {create : NodeDescription → Attempt (Node Behaviour)} {factories : FactorySet}
    {d : GraphDescription} {g : Net} {stamp : Nat}
    (hcreate : ∀ d stamp n, ((create d).run stamp).result = .ok n →
      n.behaviour.through .form = n.behaviour.through .shape)
    (h : ((Graph.ofDescription create factories d).run stamp).result = .ok g) :
    Net.HasDefaultOperators g := by
  obtain ⟨k, hk, rfl⟩ := assembled_ofDescription hcreate h
  have hdefault := hasDefaultOperators_of_assembled hk
  exact hdefault

theorem Maker.form_eq_shape_of_make {maker : Maker} (hmaker : ∀ name plan, maker ≠ .probe name plan)
    {factories : FactorySet} {rebuild : GraphDescription → Attempt Net} {d : NodeDescription}
    {n : Node Behaviour} {stamp : Nat}
    (hrebuild : ∀ d stamp g, ((rebuild d).run stamp).result = .ok g →
      Graph.WellLinked g ∧ Net.IsOutermost g ∧ Net.HasDefaultOperators g)
    (h : ((maker.make factories rebuild d).run stamp).result = .ok n) :
    n.behaviour.through .form = n.behaviour.through .shape := by
  cases made_of_make h with
  | operation hop hn => exact Node.form_eq_shape_of_configured (shape_of_operation hop) hn
  | @probe name plan => exact absurd rfl (hmaker name plan)
  | empty _ hn =>
    exact Net.form_eq_shape_of_wrap (wellLinked_empty _ _) (fun s hs ↦ absurd hs (by simp)) rfl hn
  | rebuilt _ _ hg hn =>
    obtain ⟨hwell, houtermost, hdefault⟩ := hrebuild _ _ _ hg
    exact Net.form_eq_shape_of_wrap hwell houtermost hdefault hn

/-- **The nodes that factories make have default operators**, unless they are probes. -/
theorem FactorySet.form_eq_shape_of_createWithin {set : FactorySet} (hset : set.IsProbeless)
    (level : Nat) {d : NodeDescription} {n : Node Behaviour} {stamp : Nat}
    (h : ((set.createWithin level d).run stamp).result = .ok n) :
    n.behaviour.through .form = n.behaviour.through .shape := by
  refine (createWithin_induction_of_isFresh (P := fun n ↦ n.IsStock ∧
      n.behaviour.through .form = n.behaviour.through .shape)
    (R := fun g ↦ Net.IsStock g ∧ Net.HasDefaultOperators g)
    (fun hcreate _ _ _ hg ↦ ?_) (fun hf hrebuild hm ↦ ?_) level h).2
  · exact ⟨Net.isStock_of_ofDescription (fun d stamp n hn ↦ (hcreate d stamp n hn).2.1) hg,
      Net.hasDefaultOperators_of_ofDescription (fun d stamp n hn ↦ (hcreate d stamp n hn).2.2) hg⟩
  · have hwell := fun d stamp g hg ↦ (Net.coherent_iff.mp (hrebuild d stamp g hg).1).1
    have hstock := fun d stamp g hg ↦ (hrebuild d stamp g hg).2.1
    refine ⟨(Maker.isStock_of_make (hset.of_find? hf)
      (fun d stamp g hg ↦ ⟨hwell d stamp g hg, hstock d stamp g hg⟩) hm).labelled _, ?_⟩
    have hdefault := Maker.form_eq_shape_of_make (hset.of_find? hf) (fun d stamp g hg ↦
      ⟨hwell d stamp g hg, (hstock d stamp g hg).isOutermost, (hrebuild d stamp g hg).2.2⟩) hm
    exact hdefault

/-- **A net that was loaded has default operators.** -/
theorem Net.hasDefaultOperators_of_load {set : FactorySet} (hset : set.IsProbeless)
    {d : GraphDescription} {g : Net} {stamp : Nat}
    (h : ((Net.ofDescription set d).run stamp).result = .ok g) : Net.HasDefaultOperators g :=
  hasDefaultOperators_of_ofDescription
    (fun _ _ _ ↦ FactorySet.form_eq_shape_of_createWithin hset _) h

end PortGraph
