import PortGraph.Net.Create
import PortGraph.Proofs.Graph.Chronicle

/-!
# Nodes are made without calls

A node that is made of a description, with all the nets in it, has not been called by any of them:
while factories make nodes nothing happens but that lines are logged and stamps drawn
(`FactorySet.isQuiet_createNode`).
-/

set_option autoImplicit false

namespace PortGraph

open PortGraph.Graph

/-! ## Attempts without calls -/

namespace Attempt

variable {α γ : Type}

/-- While an attempt is made no graph calls a node. -/
def IsQuiet (x : Attempt α) : Prop := Act.IsQuiet x.run

theorem isQuiet_pure (a : α) : (pure a : Attempt α).IsQuiet := Act.isQuiet_pure _

theorem isQuiet_throw (e : GraphError) : (throw e : Attempt α).IsQuiet := Act.isQuiet_pure _

theorem isQuiet_ofExcept (x : Except GraphError α) : (liftM x : Attempt α).IsQuiet :=
  Act.isQuiet_pure _

theorem isQuiet_lift {x : Act α} (h : x.IsQuiet) : (liftM x : Attempt α).IsQuiet :=
  h.bind fun _ ↦ Act.isQuiet_pure _

theorem IsQuiet.bind {x : Attempt α} {f : α → Attempt γ} (hx : x.IsQuiet)
    (hf : ∀ a, (f a).IsQuiet) : (x >>= f).IsQuiet := by
  rw [IsQuiet, ExceptT.run_bind]
  refine Act.IsQuiet.bind hx fun result ↦ ?_
  cases result with
  | error e => exact Act.isQuiet_pure _
  | ok a => exact hf a

end Attempt

/-! ## Making nets and nodes -/

theorem Graph.isQuiet_attempt {β α : Type} {op : Graph β → Act (Reply GraphError (Graph β) α)}
    {g : Graph β} (h : (op g).IsQuiet) : (attempt op g).IsQuiet := by
  refine Act.IsQuiet.bind h fun r ↦ ?_
  obtain ⟨_ | _, g⟩ := r
  · exact Act.isQuiet_pure _
  · exact Act.isQuiet_pure _

/-- If the nodes are made without calls, the net is. -/
theorem Graph.isQuiet_ofDescription {β : Type} {create : NodeDescription → Attempt (Node β)}
    (hcreate : ∀ d, (create d).IsQuiet) (factories : FactorySet) (d : GraphDescription) :
    (ofDescription create factories d).IsQuiet := by
  have hnodes : ∀ (ds : List NodeDescription) (g : Graph β), (addDescribed create ds g).IsQuiet := by
    intro ds
    induction ds with
    | nil => exact fun g ↦ Attempt.isQuiet_pure g
    | cons d ds ih =>
      exact fun g ↦ (hcreate d).bind fun n ↦ (isQuiet_attempt (g.isQuiet_addNode n)).bind ih
  have hlinks : ∀ (ds : List LinkDescription) (g : Graph β), (linkDescribed ds g).IsQuiet := by
    intro ds
    induction ds with
    | nil => exact fun g ↦ Attempt.isQuiet_pure g
    | cons d ds ih => exact fun g ↦ (isQuiet_attempt (g.isQuiet_addLink _ _)).bind ih
  exact (hnodes d.nodes _).bind fun g ↦ (hlinks d.links g).bind fun _ ↦ Attempt.isQuiet_pure _

theorem Net.isQuiet_wrap (name : String) (g : Net) : (wrap name g).IsQuiet :=
  (Attempt.isQuiet_ofExcept _).bind fun _ ↦
    (Attempt.isQuiet_lift (Act.isQuiet_log _ _ _)).bind fun _ ↦ Attempt.isQuiet_pure _

theorem Operation.isQuiet_node (op : Operation) (name : String) : (op.node name).IsQuiet := by
  refine Act.IsQuiet.bind (Act.IsQuiet.bind ?_ fun _ ↦ Act.isQuiet_pure _) fun _ ↦ Act.isQuiet_pure _
  cases op with
  | increment => exact (Act.isQuiet_publish _).bind fun _ ↦ Act.isQuiet_pure _
  | _ => exact Act.isQuiet_pure _

theorem PortPlan.isQuiet_make (plan : PortPlan) : plan.make.IsQuiet := by
  rw [make]
  refine Act.IsQuiet.bind ?_ fun _ ↦ Act.isQuiet_pure _
  cases plan.default with
  | none => exact Act.isQuiet_pure _
  | some v => exact (Act.isQuiet_publish v).bind fun _ ↦ Act.isQuiet_pure _

theorem Panel.isQuiet_addPlanned (side : Direction) (plans : List PortPlan) (panel : Panel) :
    (addPlanned side plans panel).IsQuiet := by
  induction plans generalizing panel with
  | nil => exact Attempt.isQuiet_pure _
  | cons plan plans ih =>
    exact (Attempt.isQuiet_lift plan.isQuiet_make).bind fun _ ↦
      (Attempt.isQuiet_ofExcept _).bind fun _ ↦ ih _

theorem ProbePlan.isQuiet_node (plan : ProbePlan) (name : String) : (plan.node name).IsQuiet :=
  ((Panel.isQuiet_addPlanned _ _ _).bind fun _ ↦ Panel.isQuiet_addPlanned _ _ _).bind fun _ ↦
    Attempt.isQuiet_pure _

theorem Node.isQuiet_configured (n : Node Behaviour) (d : NodeDescription) :
    (n.configured d).IsQuiet := by
  rw [configured]
  split
  · exact Attempt.isQuiet_pure _
  · split
    · exact Attempt.isQuiet_pure _
    · exact Attempt.isQuiet_throw _

theorem Maker.isQuiet_make (maker : Maker) (factories : FactorySet)
    {rebuild : GraphDescription → Attempt Net} (hrebuild : ∀ d, (rebuild d).IsQuiet)
    (d : NodeDescription) : (maker.make factories rebuild d).IsQuiet := by
  have hop : ∀ op : Operation, (do
      let m ← op.node d.instanceName
      m.configured d : Attempt (Node Behaviour)).IsQuiet := fun op ↦
    (Attempt.isQuiet_lift (op.isQuiet_node _)).bind fun _ ↦ Node.isQuiet_configured _ d
  cases maker with
  | nested =>
    rw [make]
    split
    · exact Net.isQuiet_wrap _ _
    · split
      · exact Attempt.isQuiet_throw _
      · exact (hrebuild _).bind fun _ ↦ Net.isQuiet_wrap _ _
  | probe name plan => exact (plan.isQuiet_node _).bind fun _ ↦ Node.isQuiet_configured _ d
  | source k => exact hop _
  | sink k => exact hop _
  | mapping e => exact hop _
  | folding e => exact hop _
  | increment => exact hop _

/-- **Nodes are made without calls on other nodes.** -/
theorem FactorySet.isQuiet_createNode (set : FactorySet) (d : NodeDescription) :
    (set.createNode d).IsQuiet := by
  rw [createNode]
  generalize (d.config.map Json.depth).getD 0 = level
  induction level generalizing d with
  | zero =>
    rw [createWithin]
    split
    · exact Attempt.isQuiet_throw _
    · exact (Maker.isQuiet_make _ _ (fun _ ↦ Attempt.isQuiet_throw _) d).bind fun _ ↦
        Attempt.isQuiet_pure _
  | succ level ih =>
    rw [createWithin]
    split
    · exact Attempt.isQuiet_throw _
    · exact (Maker.isQuiet_make _ _ (fun _ ↦ isQuiet_ofDescription ih _ _) d).bind fun _ ↦
        Attempt.isQuiet_pure _

end PortGraph
