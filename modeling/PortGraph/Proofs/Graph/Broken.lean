import PortGraph.Proofs.Graph.Topology

/-!
# What a pass leaves when a node fails

A pass breaks off at the first node that fails.  `Graph.BrokenOff` says what is left then, node by
node: those before it hold what they made of this pass, and those behind it are what they were, with
all that stands on their ports, for a node is handed over with what its links bring only when its turn
has come.

Whether it breaks off or not, a pass leaves everything else of the graph alone (`Graph.Retained`), so
that the graph is prepared for the next one (`Reachable.left_of_pass`).
-/

set_option autoImplicit false

namespace PortGraph
namespace Graph

variable {β : Type} {life : Lifecycle β} {g k : Graph β}

/-- **A pass over `g` broke off at the node `name`**, and `k` was left: the nodes in `before` had their
turns and those in `after` had none. -/
structure BrokenOff (life : Lifecycle β) (g k : Graph β) (before : List String) (name : String)
    (after : List String) (runs : List (Run β)) (last : Run β) (cause : NodeError) : Prop where
  /-- The nodes have one turn each, in the order of the graph. -/
  order : g.order = before ++ name :: after ∧ g.order.Nodup
  /-- Those before ran in this order, and then the node itself. -/
  ran : runs.map (·.node.name) = before ∧ last.node.name = name
  /-- Those before succeeded, and are what their runs made of them. -/
  succeeded : ∀ r ∈ runs, (r.reply life).1 = .ok () ∧ k.node? r.node.name = some (r.reply life).2
  /-- The node itself failed, and is what its run made of it. -/
  failed : (last.reply life).1 = .error cause ∧ k.node? name = some (last.reply life).2
  /-- What ran was the node as it was before the pass, but for what its links brought. -/
  handed : ∀ r ∈ runs ++ [last], ∃ n, g.node? r.node.name = some n ∧
    r.node = Slot.supplied g.links k.held ⟨r.node.name, n⟩
  /-- Its links brought what their sources hold. -/
  pulled : ∀ r ∈ runs ++ [last], ∀ l ∈ g.links, l.target.node = r.node.name →
    ∃ output arrived, k.port? .output l.source = some output ∧
      r.node.panel.port? .input l.target.port = some arrived ∧ arrived.stored = output.stored
  /-- The nodes behind are what they were. -/
  untouched : ∀ v ∈ after, k.node? v = g.node? v

/-- **A pass over `g` left everything alone** but the values on the ports of `k` and what its nodes
compute with. -/
structure Retained (g k : Graph β) : Prop where
  /-- The nodes keep their places and their names. -/
  nodeNames : k.nodeNames = g.nodeNames
  /-- Their ports keep their links and what they ask for, and the nodes are as initialised as before. -/
  outlines : k.slots.map (·.node.panel.outline) = g.slots.map (·.node.panel.outline)
  /-- The links are the same. -/
  links : k.links = g.links
  /-- The schedule is the same, and the order that is shown of it. -/
  schedule : k.schedule = g.schedule ∧ k.order = g.order
  /-- The graph is ready or not as before. -/
  isReady : k.isReady = g.isReady
  /-- It is to be saved or not as before. -/
  isModified : k.isModified = g.isModified
  /-- It is protected or not as before. -/
  isProtected : k.isProtected = g.isProtected

/-! ## What every pass leaves alone -/

/-- A graph that agrees with another one has the outlines of its nodes. -/
theorem Agrees.outlines (h : g.Agrees k) :
    k.slots.map (·.node.panel.outline) = g.slots.map (·.node.panel.outline) := by
  have hbare : ∀ j : Graph β, j.skeleton.slots.map (·.node.panel) =
      j.slots.map (·.node.panel.bare) := fun j ↦ by
    rw [Graph.skeleton, List.map_map]
    rfl
  have hsplit : ∀ j : Graph β, j.slots.map (·.node.panel.outline) =
      List.zipWith (fun panel b ↦ ({ panel with isInitialized := b } : Panel))
        (j.slots.map (·.node.panel.bare)) j.flags := fun j ↦ by
    rw [Graph.flags, List.zipWith_map, List.zipWith_self]
    rfl
  rw [hsplit, hsplit, h.flags, ← hbare, h.skeleton, hbare]

theorem order_of_agrees (h : g.Agrees k) : k.order = g.order := by
  rw [order, order, h.schedule, namesAt_eq, namesAt_eq, nodeNames_of_skeleton_eq h.skeleton]

theorem retained_execute (hk : life.KeepsOutline) (g : Graph β) (stamp : Nat) :
    g.Retained (g.execute life stamp).result.2 := by
  have hagrees := agrees_execute hk g stamp
  have hsettings := settings_execute life g stamp
  exact ⟨nodeNames_of_skeleton_eq hagrees.skeleton, hagrees.outlines,
    links_of_skeleton_eq hagrees.skeleton, ⟨hagrees.schedule, order_of_agrees hagrees⟩,
    hagrees.isReady, congrArg (·.2.2.1) hsettings, congrArg (·.2.2.2) hsettings⟩

/-! ## Where a pass breaks off -/

/-- **A pass that fails breaks off at a node**, and its error names it. -/
theorem WellLinked.brokenOff_of_passed (hg : g.WellLinked) (hp : g.plan = .ok g.schedule)
    (hlife : life.KeepsOutline) (hskeleton : k.skeleton = g.skeleton) {runs : List (Run β)}
    {e : GraphError} (h : g.Passed life k runs (.error e)) :
    ∃ before name after earlier last cause n, g.BrokenOff life k before name after earlier last cause ∧
      runs = earlier ++ [last] ∧ g.node? name = some n ∧
      e = .executionFailed name n.typeName cause := by
  have hk := hg.of_skeleton_eq hskeleton
  cases h with
  | @broken before after t earlier last s cause hschedule hsettled hs hnode herr hput hafter =>
    have hmem := List.mem_of_getElem? hs
    have hkey : g.nodeNames[t.node]? = some s.key := getElem?_nodeNames hs
    have hname : last.node.name = s.key := by
      rw [hnode, Slot.name_supplied, (hg.regular s hmem).name_eq]
    have htype : (last.reply life).2.typeName = s.node.typeName := by
      have houtline := (hlife.execute last.node last.stamp).trans
        (hnode ▸ s.outline_supplied g.links k.held)
      have htypes := congrArg Panel.typeName houtline
      exact htypes
    -- the node that failed was handed over like those before it
    have hhanded : ∀ r ∈ earlier ++ [last], ∃ n, g.node? r.node.name = some n ∧
        r.node = Slot.supplied g.links k.held ⟨r.node.name, n⟩ := by
      intro r hr
      rcases List.mem_append.mp hr with hr | hr
      · obtain ⟨_, -, hsettled⟩ := exists_of_forall₂ hsettled r hr
        obtain ⟨n, hn, hrn, -, -⟩ := hsettled.node? hg hk
        exact ⟨n, hn, hrn⟩
      · obtain rfl := List.mem_singleton.mp hr
        rw [hname]
        exact ⟨s.node, hg.node?_of_mem hmem, hnode⟩
    refine ⟨_, s.key, _, earlier, last, cause, s.node,
      ⟨⟨order_of_schedule_eq hschedule hkey, ?_⟩, ⟨names_of_settled hg hsettled, hname⟩,
        fun r hr ↦ ?_, ⟨herr, hk.node?_of_mem (List.mem_of_getElem? hput)⟩, hhanded,
        fun r hr l hl ht ↦ ?_, fun v hv ↦ ?_⟩,
      rfl, hg.node?_of_mem hmem, by rw [htype]⟩
    · exact (hg.isOrder_order hp).1.nodup_iff.mpr hg.keys_nodup
    · obtain ⟨_, -, hsettled⟩ := exists_of_forall₂ hsettled r hr
      obtain ⟨-, -, -, hok, hput⟩ := hsettled.node? hg hk
      exact ⟨hok, hput⟩
    · obtain ⟨n, hn, hrn⟩ := hhanded r hr
      rw [← ht] at hn hrn
      obtain ⟨output, arrived, houtput, harrived, -, hstored⟩ :=
        hg.exists_arrived hk (links_of_skeleton_eq hskeleton) hl hn hrn
      exact ⟨output, arrived, houtput, harrived, hstored⟩
    · -- a position behind the node leads to the place where it led before
      rw [namesAt_eq, List.mem_filterMap] at hv
      obtain ⟨i, hi, hv⟩ := hv
      obtain ⟨u, hu, rfl⟩ := List.mem_map.mp hi
      rw [nodeNames, List.getElem?_map, Option.map_eq_some_iff] at hv
      obtain ⟨w, hw, rfl⟩ := hv
      rw [hk.node?_of_mem (List.mem_of_getElem? ((hafter u hu).trans hw)),
        hg.node?_of_mem (List.mem_of_getElem? hw)]

/-- **What a pass leaves.**  If it fails, it broke off at one node of the order, and the calls that are
seen of it are one for each node up to there.  Whatever its result is, the graph is prepared for another
pass. -/
theorem Reachable.left_of_pass (h : g.Reachable) (hr : g.isReady = true) (hlife : life.KeepsOutline)
    {stamp : Nat} {result : Except GraphError Unit}
    (hexecute : (g.execute life stamp).result = (result, k)) :
    (∀ e, result = .error e →
      ∃ before name after runs last cause n,
        g.BrokenOff life k before name after runs last cause ∧
        (g.execute life stamp).events.filter Event.isCall =
          (runs ++ [last]).map (Run.event life) ∧
        g.node? name = some n ∧ e = .executionFailed name n.typeName cause) ∧
    g.Retained k ∧ k.isReady = true ∧ k.IsPrepared life := by
  have hp := h.cached.plan hr
  have hagrees := agrees_execute hlife g stamp
  have hretained := retained_execute hlife g stamp
  obtain ⟨runs, hpassed, hevents⟩ := h.wellLinked.passed_execute hp hr hlife stamp
  rw [hexecute] at hagrees hretained hpassed
  have hready : k.isReady = true := hretained.isReady.trans hr
  refine ⟨?_, hretained, hready, (h.wellLinked.of_skeleton_eq hagrees.skeleton).isPrepared
    (h.cached.of_agrees hagrees) hlife hready⟩
  rintro e rfl
  obtain ⟨before, name, after, earlier, last, cause, n, hbroken, rfl, hn, he⟩ :=
    h.wellLinked.brokenOff_of_passed hp hlife hagrees.skeleton hpassed
  exact ⟨before, name, after, earlier, last, cause, n, hbroken, hevents, hn, he⟩

/-! ## A pass that breaks off at the second node -/

/-- Nodes that publish a number of their own, except for `b`, which fails. -/
def faltering : Lifecycle Unit where
  init n := return (.ok (), n)
  execute n :=
    if n.name = "b" then return (.error (.failed "not now"), n) else numbering.execute n
  destroy n := return n
  discard _ := return ()

theorem keepsOutline_faltering : faltering.KeepsOutline where
  init _ _ := rfl
  execute n stamp := by
    have hif : faltering.execute n =
        if n.name = "b" then return (.error (.failed "not now"), n) else numbering.execute n := rfl
    rw [hif]
    split
    · rfl
    · exact keepsOutline_numbering.execute n stamp
  destroy _ _ := rfl

theorem left_of_pass_sampleReady :
    ∃ e k before name after runs last cause,
      (sampleReady.execute faltering 7).result = (.error e, k) ∧
      sampleReady.BrokenOff faltering k before name after runs last cause ∧ sampleReady.Retained k := by
  obtain ⟨e, he⟩ : ∃ e, (sampleReady.execute faltering 7).result.1 = .error e :=
    exists_error_of_isOk (by decide +kernel)
  have hexecute : (sampleReady.execute faltering 7).result =
      (.error e, (sampleReady.execute faltering 7).result.2) := Prod.ext he rfl
  obtain ⟨hbroken, hretained, -⟩ := reachable_sampleReady.left_of_pass (by decide +kernel)
    keepsOutline_faltering hexecute
  obtain ⟨before, name, after, runs, last, cause, -, hbroken, -⟩ := hbroken e rfl
  exact ⟨e, _, before, name, after, runs, last, cause, hexecute, hbroken, hretained⟩

end Graph
end PortGraph
