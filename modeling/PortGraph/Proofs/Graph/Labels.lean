import PortGraph.Proofs.Graph.Broken
import PortGraph.Proofs.Graph.Inputs

/-!
# What is told of a node apart from its ports

A label is anything that can be told of a node whatever its ports are, and whether or not it is
initialised (`Node.IsLabel`).  If no call changes it (`Lifecycle.KeepsLabel`), then running the graph
does not (`WellLinked.labels_of_isRun`), and nothing that a host asks of the graph changes the label of a
node that it leaves there under its name (`map_node?_of_mayLeave`).

Traits are told of what a node computes with.  A label may be told of the data of the application as well,
which neither the graph nor the node looks at.
-/

set_option autoImplicit false

namespace PortGraph

variable {α β : Type}

/-- What is told of a node depends neither on its ports nor on whether it is initialised. -/
structure Node.IsLabel (F : Node β → α) : Prop where
  /-- Its ports may change. -/
  ports : ∀ (n : Node β) (side : Direction) (ports : List Port),
    F (n.mapPanel (·.withPorts side ports)) = F n
  /-- It may be initialised or not. -/
  noted : ∀ (n : Node β) (b : Bool), F (n.setInitialized b) = F n

/-- Calling a node leaves a label of it as it is. -/
structure Lifecycle.KeepsLabel (life : Lifecycle β) (F : Node β → α) : Prop where
  /-- Getting ready does. -/
  init : ∀ n stamp, F (life.init n stamp).result.2 = F n
  /-- Executing does. -/
  execute : ∀ n stamp, F (life.execute n stamp).result.2 = F n
  /-- Giving back does. -/
  destroy : ∀ n stamp, F (life.destroy n stamp).result = F n

theorem Lifecycle.KeepsLabel.release {life : Lifecycle β} {F : Node β → α} (hl : life.KeepsLabel F)
    (hF : Node.IsLabel F) (n : Node β) (stamp : Nat) : F (life.release n stamp).result = F n := by
  rw [Lifecycle.release]
  split
  · exact (hF.noted _ false).trans (hl.destroy n stamp)
  · rfl

namespace Graph

variable {F : Node β → α} {life : Lifecycle β} {g k : Graph β}

/-- The labels of all nodes. -/
def labels (F : Node β → α) (g : Graph β) : List (String × α) :=
  g.slots.map fun s ↦ (s.key, F s.node)

/-- The label of a node is found in those of all nodes. -/
theorem map_node?_of_labels_eq (h : k.labels F = g.labels F) (name : String) :
    (k.node? name).map F = (g.node? name).map F := by
  have hfind : ∀ j : Graph β, (j.node? name).map F =
      ((j.labels F).find? (·.1 = name)).map Prod.snd := fun j ↦ by
    rw [labels, node?, List.find?_map, Option.map_map, Option.map_map]
    rfl
  rw [hfind, h, hfind]

/-! ## Changes -/

theorem labels_modifyPort (hF : Node.IsLabel F) (g : Graph β) (side : Direction) (e : Endpoint)
    (f : Port → Port) : (g.modifyPort side e f).labels F = g.labels F := by
  refine List.map_map.trans (List.map_congr_left fun s _ ↦ ?_)
  rw [Function.comp_apply]
  split
  · exact congrArg (s.key, ·) (hF.ports s.node side _)
  · rfl

theorem labels_changeEnds (hF : Node.IsLabel F) (f : Port → Port) (l : Link) (g : Graph β) :
    (changeEnds f l g).labels F = g.labels F :=
  (labels_modifyPort hF _ .input l.target _).trans (labels_modifyPort hF g .output l.source f)

theorem labels_insertLink (hF : Node.IsLabel F) (l : Link) (g : Graph β) :
    (g.insertLink l).labels F = g.labels F :=
  labels_changeEnds hF Port.attach l g

theorem labels_dropLink (hF : Node.IsLabel F) (id : LinkId) (g : Graph β) :
    (g.dropLink id).labels F = g.labels F := by
  rw [dropLink]
  split
  · rfl
  · rename_i l _
    exact labels_changeEnds hF Port.detach l { g with links := g.links.filter (fun k ↦ k.id ≠ id) }

theorem labels_dropLinksOf (hF : Node.IsLabel F) (name : String) (g : Graph β) :
    (g.dropLinksOf name).labels F = g.labels F := by
  rw [dropLinksOf]
  generalize (g.links.filter (·.touches name)).map Link.id = ids
  induction ids generalizing g with
  | nil => rfl
  | cons id ids ih => exact (ih _).trans (labels_dropLink hF id g)

theorem labels_setNodeAt {i : Nat} {s : Slot β} {n : Node β} (hs : g.slots[i]? = some s)
    (hn : F n = F s.node) : (g.setNodeAt i n).labels F = g.labels F := by
  refine map_modify_of_eq fun s' hs' ↦ ?_
  obtain rfl : s = s' := Option.some.inj (hs.symm.trans hs')
  rw [Slot.mapNode, hn]

theorem labels_resetOutputs (hF : Node.IsLabel F) (g : Graph β) :
    g.resetOutputs.labels F = g.labels F :=
  List.map_map.trans <| List.map_congr_left fun s _ ↦
    congrArg (s.key, ·) (hF.ports s.node .output _)

/-! ## Runs -/

theorem labels_release (hF : Node.IsLabel F) (hl : life.KeepsLabel F) (g : Graph β) (stamp : Nat) :
    (g.release life stamp).result.labels F = g.labels F := by
  have hall := Lifecycle.forall₂_releaseAll (R := fun n n' ↦ F n' = F n)
    (fun n stamp ↦ hl.release hF n stamp) g.slots stamp
  exact map_eq_of_forall₂ (hall.imp (S := fun s s' ↦ (s'.key, F s'.node) = (s.key, F s.node))
    fun _ _ h ↦ by rw [h.1, h.2])

theorem Prepares.labels_eq (hF : Node.IsLabel F) (hl : life.KeepsLabel F)
    (h : Prepares life g k) : k.labels F = g.labels F := by
  cases h with
  | released stamp => exact labels_release hF hl g stamp
  | emptied => exact labels_resetOutputs hF g
  | told hs stamp => exact labels_setNodeAt hs (hl.init _ stamp)
  | readied hs stamp => exact labels_setNodeAt hs ((hF.noted _ true).trans (hl.init _ stamp))
  | scheduled => rfl

/-- **Compiling a graph changes no label of its nodes.** -/
theorem labels_compile (hF : Node.IsLabel F) (hl : life.KeepsLabel F) (g : Graph β) (stamp : Nat) :
    (g.compile life stamp).result.2.labels F = g.labels F :=
  eq_of_reflTransGen (fun _ _ h ↦ h.labels_eq hF hl) (prepares_compile life g stamp)

theorem Advances.labels_eq (hF : Node.IsLabel F) (hl : life.KeepsLabel F)
    (h : Advances life g k) : k.labels F = g.labels F := by
  cases h with
  | pulled node p => exact map_modify_of_eq fun s _ ↦ congrArg (s.key, ·) (hF.ports s.node .input _)
  | executed hs stamp => exact labels_setNodeAt hs (hl.execute _ stamp)

/-- **A pass changes no label of the nodes.** -/
theorem labels_execute (hF : Node.IsLabel F) (hl : life.KeepsLabel F) (g : Graph β) (stamp : Nat) :
    (g.execute life stamp).result.2.labels F = g.labels F :=
  eq_of_reflTransGen (fun _ _ h ↦ h.labels_eq hF hl) (advances_execute life g stamp)

end Graph

/-! ## Requests -/

namespace Request

/-- The request neither takes the node of a name away nor gives it another name. -/
def Leaves (name : String) : Request β → Prop
  | .removeNode other => other ≠ name
  | .renameNode old _ => old ≠ name
  | .clear => False
  | _ => True

/-- The request runs a graph: it gets the graph ready, executes or releases it, puts a value on one of
its inputs, or turns its protection on or off. -/
def IsRun : Request β → Prop
  | .compile | .execute | .release | .setInput .. | .setProtected _ => True
  | _ => False

end Request

namespace Graph

variable {F : Node β → α} {life : Lifecycle β} {g k : Graph β}
  {make : FactorySet → NodeDescription → Attempt (Node β)} {r : Request β} {stamp : Nat}

/-- **Running a graph changes no label of its nodes**, nor the name of the graph and its links. -/
theorem WellLinked.labels_of_isRun (h : g.WellLinked) (hF : Node.IsLabel F) (hl : life.KeepsLabel F)
    (hk : life.KeepsOutline) (hr : r.IsRun) :
    (r.perform life make g stamp).result.labels F = g.labels F ∧
      (r.perform life make g stamp).result.name = g.name ∧
      (r.perform life make g stamp).result.links = g.links := by
  cases r with
  | setInput place packet =>
    have hcases := h.setInput_cases place packet
    change Graph.labels F (g.setInput place packet).2 = _ ∧ (g.setInput place packet).2.name = _ ∧
      (g.setInput place packet).2.links = _
    rcases hcases with ⟨e, heq⟩ | ⟨-, heq⟩
    · rw [heq]
      exact ⟨rfl, rfl, rfl⟩
    · rw [heq]
      exact ⟨labels_modifyPort hF g .input place _, rfl, rfl⟩
  | setProtected b => exact ⟨rfl, rfl, rfl⟩
  | compile =>
    exact ⟨labels_compile hF hl g stamp, congrArg Prod.fst (settings_compile life g stamp),
      links_of_skeleton_eq (skeleton_compile hk g stamp)⟩
  | execute =>
    exact ⟨labels_execute hF hl g stamp, congrArg Prod.fst (settings_execute life g stamp),
      links_of_skeleton_eq (agrees_execute hk g stamp).skeleton⟩
  | release =>
    exact ⟨labels_release hF hl g stamp, rfl, links_of_skeleton_eq (skeleton_release hk g stamp)⟩
  | _ => exact hr.elim

/-- A node that is neither the renamed one nor called as it is now is found where it was. -/
theorem node?_relabel {old new name : String} (hold : name ≠ old) (hnew : name ≠ new) :
    (g.relabel old new).node? name = g.node? name := by
  rw [node?, Graph.relabel, List.find?_map, Option.map_map, node?]
  have hkey : ((fun s : Slot β ↦ decide (s.key = name)) ∘ Slot.rename old new) =
      fun s ↦ decide (s.key = name) := by
    funext s
    rw [Function.comp_apply, Slot.rename]
    split
    · rename_i hs
      simp [hs, Ne.symm hold, Ne.symm hnew]
    · rfl
  rw [hkey]
  refine Option.map_congr fun s hs ↦ ?_
  have hs : s.key = name := by simpa using List.find?_some hs
  rw [Function.comp_apply, Slot.rename, if_neg (hs ▸ hold)]

/-- **Whatever is asked of a graph, a node that is left in it keeps its label.** -/
theorem map_node?_of_mayLeave (hF : Node.IsLabel F) (hl : life.KeepsLabel F) (hnd : g.nodeNames.Nodup)
    {name : String} (hmem : name ∈ g.nodeNames) (hr : r.Leaves name)
    (h : r.MayLeave life make g stamp k) : (k.node? name).map F = (g.node? name).map F := by
  cases h with
  | same | guarded | furnished => rfl
  | @pushed r n _ hnew =>
    have hne : n.name ≠ name := fun he ↦ hnew (he ▸ hmem)
    rw [node?, Graph.pushNode, List.find?_append, List.find?_cons_of_neg (by simpa using hne),
      List.find?_nil, Option.or_none, node?]
  | @erased other =>
    rw [node?_eraseNode, if_neg (Ne.symm hr)]
    exact map_node?_of_labels_eq (labels_dropLinksOf hF other g) name
  | @relabelled old new hnew =>
    have hne : name ≠ new := fun he ↦ hnew (he ▸ hmem)
    rw [node?_relabel (Ne.symm hr) hne]
  | inserted => exact map_node?_of_labels_eq (labels_insertLink hF _ g) name
  | dropped r id => exact map_node?_of_labels_eq (labels_dropLink hF id g) name
  | @stored place packet n hn =>
    rw [modifyPanel_const_eq hnd hn]
    exact map_node?_of_labels_eq (labels_modifyPort hF g .input place _) name
  | compiled => exact map_node?_of_labels_eq (labels_compile hF hl g stamp) name
  | executed => exact map_node?_of_labels_eq (labels_execute hF hl g stamp) name
  | released => exact map_node?_of_labels_eq (labels_release hF hl g stamp) name
  | cleared => exact hr.elim

end Graph
end PortGraph
