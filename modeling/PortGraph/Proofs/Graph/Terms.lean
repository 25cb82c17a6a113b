import PortGraph.Proofs.Graph.Traits

/-!
# What is told of the nodes by what their inputs ask

Nobody who changes a graph writes on an input whether it is required, or whether an enclosing graph
feeds it (`Port.terms`).  So a property of nodes that can be told of these terms, and of a trait of
what a node computes with that no call changes, goes on holding of all nodes whatever is asked of the
graph (`Told.of_mayLeave`), as long as the nodes that are brought along have it.
-/

set_option autoImplicit false

namespace PortGraph

/-- What an input asks for: to be supplied at all, and by an enclosing graph. -/
def Port.terms (p : Port) : Bool × Bool := (p.isRequired, p.isExposed)

variable {β γ : Type}

/-- A property of nodes is told by a trait of what they compute with and the terms of their inputs. -/
def Told (T : β → γ) (P : Node β → Prop) : Prop :=
  ∀ n m : Node β, T m.behaviour = T n.behaviour →
    m.panel.inputs.map Port.terms = n.panel.inputs.map Port.terms → P n → P m

namespace Graph

/-- The nodes of graphs of one image come in pairs. -/
theorem exists_slot_of_image_eq {T : β → γ} {g k : Graph β} (h : k.image T = g.image T)
    {s : Slot β} (hs : s ∈ k.slots) :
    ∃ r ∈ g.slots, r.key = s.key ∧ s.node.panel.bare = r.node.panel.bare ∧
      T s.node.behaviour = T r.node.behaviour := by
  have hslots : k.slots.map (fun s ↦ (⟨s.key, ⟨s.node.panel.bare, T s.node.behaviour⟩⟩ : Slot γ)) =
      g.slots.map fun s ↦ ⟨s.key, ⟨s.node.panel.bare, T s.node.behaviour⟩⟩ :=
    congrArg Graph.slots h
  have hmem : (⟨s.key, ⟨s.node.panel.bare, T s.node.behaviour⟩⟩ : Slot γ) ∈
      g.slots.map fun s ↦ (⟨s.key, ⟨s.node.panel.bare, T s.node.behaviour⟩⟩ : Slot γ) :=
    hslots ▸ List.mem_map_of_mem hs
  obtain ⟨r, hr, heq⟩ := List.mem_map.mp hmem
  obtain ⟨hbare, htrait⟩ := Node.mk.inj (Slot.mk.inj heq).2
  exact ⟨r, hr, (Slot.mk.inj heq).1, hbare.symm, htrait.symm⟩

end Graph

namespace Told

open PortGraph.Graph

variable {T : β → γ} {P : Node β → Prop} {life : Lifecycle β} {g k : Graph β}

/-- A node that a call left with the same bare panel. -/
theorem of_bare_eq (h : Told T P) {n m : Node β} (hn : P n)
    (hb : m.panel.bare = n.panel.bare) (ht : T m.behaviour = T n.behaviour) : P m := by
  refine h n m ht ?_ hn
  have hterms : ∀ panel : Panel, panel.inputs.map Port.terms =
      panel.bare.inputs.map Port.terms := fun panel ↦ by
    rw [Panel.bare, Panel.outline, List.map_map]
    rfl
  rw [hterms, hb, ← hterms]

/-! ## Changes -/

theorem of_image_eq (h : Told T P) (hk : k.image T = g.image T) (hg : ∀ s ∈ g.slots, P s.node) :
    ∀ s ∈ k.slots, P s.node := by
  intro s hs
  obtain ⟨r, hr, -, hbare, htrait⟩ := exists_slot_of_image_eq hk hs
  exact h.of_bare_eq (hg r hr) hbare htrait

theorem modifyPort (h : Told T P) (hg : ∀ s ∈ g.slots, P s.node) {f : Port → Port}
    (hf : ∀ p, (f p).terms = p.terms) (side : Direction) (e : Endpoint) :
    ∀ s ∈ (g.modifyPort side e f).slots, P s.node := by
  refine List.forall_mem_map.mpr fun s hs ↦ ?_
  split
  · have hterms : (s.node.panel.modifyPort side e.port f).inputs.map Port.terms =
        s.node.panel.inputs.map Port.terms := by
      cases side with
      | input => exact Port.map_modifyNamed_of_eq hf
      | output => rfl
    exact h s.node _ rfl hterms (hg s hs)
  · exact hg s hs

theorem changeEnds (h : Told T P) (hg : ∀ s ∈ g.slots, P s.node) {f : Port → Port}
    (hf : ∀ p, (f p).terms = p.terms) (l : Link) :
    ∀ s ∈ (Graph.changeEnds f l g).slots, P s.node :=
  h.modifyPort (f := fun p ↦ (f p).store none) (h.modifyPort hg hf .output l.source) hf
    .input l.target

theorem insertLink (h : Told T P) (hg : ∀ s ∈ g.slots, P s.node) (l : Link) :
    ∀ s ∈ (g.insertLink l).slots, P s.node :=
  h.changeEnds (f := Port.attach) hg (fun _ ↦ rfl) l

theorem dropLink (h : Told T P) (hg : ∀ s ∈ g.slots, P s.node) (id : LinkId) :
    ∀ s ∈ (g.dropLink id).slots, P s.node := by
  rw [Graph.dropLink]
  split
  · exact hg
  · rename_i l _
    exact h.changeEnds (g := { g with links := g.links.filter (fun k ↦ k.id ≠ id) })
      (f := Port.detach) hg (fun _ ↦ rfl) l

theorem dropLinksOf (h : Told T P) (hg : ∀ s ∈ g.slots, P s.node) (name : String) :
    ∀ s ∈ (g.dropLinksOf name).slots, P s.node := by
  rw [Graph.dropLinksOf]
  generalize (g.links.filter (·.touches name)).map Link.id = ids
  induction ids generalizing g with
  | nil => exact hg
  | cons id ids ih => exact ih (h.dropLink hg id)

theorem relabel (h : Told T P) (hg : ∀ s ∈ g.slots, P s.node) (old new : String) :
    ∀ s ∈ (g.relabel old new).slots, P s.node := by
  refine List.forall_mem_map.mpr fun s hs ↦ ?_
  rw [Slot.rename]
  split
  · exact h s.node _ rfl rfl (hg s hs)
  · exact hg s hs

theorem pushNode (hg : ∀ s ∈ g.slots, P s.node) {n : Node β} (hn : P n) :
    ∀ s ∈ (g.pushNode n).slots, P s.node := by
  intro s hs
  rcases List.mem_append.mp hs with hs | hs
  · exact hg s hs
  · exact List.mem_singleton.mp hs ▸ hn

/-- What is true of all nodes that were made is true of all nodes of a graph put together from them. -/
theorem of_assembled (h : Told T P) (hg : Assembled P g) : ∀ s ∈ g.slots, P s.node := by
  induction hg with
  | empty => exact fun s hs ↦ absurd hs (by simp)
  | push _ hn _ ih => exact pushNode ih hn
  | insert _ _ _ ih => exact h.insertLink ih _

/-! ## Requests -/

/-- **Whatever is asked of a graph, what is told of its nodes stays true.** -/
theorem of_mayLeave (h : Told T P) (hg : ∀ s ∈ g.slots, P s.node) (hwell : g.WellLinked)
    (hk : life.KeepsOutline) (ht : life.KeepsTrait T)
    {make : FactorySet → NodeDescription → Attempt (Node β)} {r : Request β} {stamp : Nat}
    (hnode : ∀ n, r.Brings make g n → P n) (hr : r.MayLeave life make g stamp k) :
    ∀ s ∈ k.slots, P s.node := by
  cases hr with
  | same | guarded | furnished => exact hg
  | pushed brings new => exact pushNode hg (hnode _ brings)
  | erased name => exact fun s hs ↦ h.dropLinksOf hg name s (List.mem_filter.mp hs).1
  | relabelled hnew => exact h.relabel hg _ _
  | inserted hl => exact h.insertLink hg _
  | dropped r id => exact h.dropLink hg id
  | @stored place packet n hn =>
    rw [modifyPanel_const_eq hwell.keys_nodup hn]
    exact h.modifyPort (f := (·.store (some packet))) hg (fun _ ↦ rfl) .input place
  | compiled => exact h.of_image_eq (image_compile hk ht g stamp) hg
  | executed => exact h.of_image_eq (image_execute hk ht g stamp) hg
  | released => exact h.of_image_eq (image_release hk ht g stamp) hg
  | cleared => exact fun s hs ↦ absurd hs (by simp)

/-- What is true of all nodes is true of one that is taken out. -/
theorem of_removeNode (h : Told T P) (hg : ∀ s ∈ g.slots, P s.node) (hk : life.KeepsOutline)
    (ht : life.KeepsTrait T) {name : String} {stamp : Nat} {n : Node β}
    (hn : (g.removeNode life name stamp).result.1 = .ok n) : P n := by
  obtain ⟨m, -, hm, rfl, -⟩ := removeNode_eq_ok hn
  exact h.of_bare_eq (h.dropLinksOf hg name _ (mem_of_node? hm)) (Lifecycle.bare_release hk m stamp)
    (ht.release m stamp)

end Told

/-! ## Where a failure comes from -/

namespace Graph

variable {life : Lifecycle β} {T : β → γ} {g : Graph β} {stamp : Nat}

/-- If a graph does not compile, it has no plan, or a node of it failed, as far as its trait tells. -/
theorem compile_cause (hk : life.KeepsOutline) (ht : life.KeepsTrait T) {e : GraphError}
    (h : (g.compile life stamp).result.1 = .error e) : g.plan = .error e ∨
      ∃ s ∈ g.slots, ∃ n stamp' cause,
        (n.panel.bare = s.node.panel.bare ∧ T n.behaviour = T s.node.behaviour) ∧
        (life.init n stamp').result.1 = .error cause ∧ e = .initFailed s.key cause := by
  obtain ⟨-, ⟨hp, -⟩ | ⟨_, stamp₁, _, -, hinit⟩⟩ := compile_eq_error (Prod.ext h rfl)
  · exact .inl hp
  · obtain ⟨j, i, r, n, stamp', -, cause, hj, hr, hcall, rfl, -⟩ := initAll_eq_error hinit
    -- the node that failed looks like one of the graph that was to be compiled
    have himage : j.image T = g.image T := eq_of_reflTransGen (fun _ _ h ↦ h.image_eq hk ht)
      ((hj.head .emptied).head (.released stamp₁))
    obtain ⟨s, hs, hkey, hbare, htrait⟩ :=
      exists_slot_of_image_eq himage (List.mem_of_getElem? hr)
    exact .inr ⟨s, hs, r.node, stamp', cause, ⟨hbare, htrait⟩, congrArg Prod.fst hcall,
      hkey ▸ rfl⟩

end Graph
end PortGraph
