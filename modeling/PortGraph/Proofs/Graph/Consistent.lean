import PortGraph.Proofs.Graph.Turns

/-!
# What a successful pass leaves

If no node fails, each of them ran once, in the order of the graph, and along every link there is
one value: the source holds it at the end of the pass, and the target held it when its node ran and
holds it still (`Reachable.execute_completed`).  Nothing is asked of the nodes but that a call
leaves the outline of the panel alone and does not write on inputs that have a link.

On an input without a link a node may write.  It runs with the value that was there before the pass,
and what it leaves there is what is there at the end (`overwritten_sampleReady`).
-/

set_option autoImplicit false

namespace PortGraph

/-- Executing a node does not write on inputs that have a link. -/
def Lifecycle.KeepsLinkedInputs {β : Type} (life : Lifecycle β) : Prop :=
  ∀ n stamp name p, n.panel.port? .input name = some p → p.isLinked = true →
    (life.execute n stamp).result.2.panel.port? .input name = some p

namespace Graph

variable {β : Type} {life : Lifecycle β} {g k : Graph β}

/-- **The nodes of `g` ran one after the other, none failed, and `k` came of it.** -/
structure Completed (life : Lifecycle β) (g k : Graph β) (runs : List (Run β)) : Prop where
  /-- Every node ran exactly once, in the order of the graph. -/
  order : runs.map (·.node.name) = g.order ∧ g.order.Perm g.nodeNames ∧ g.order.Nodup
  /-- It did not fail, and what became of it is in its place. -/
  replies : ∀ r ∈ runs, (r.reply life).1 = .ok () ∧ k.node? r.node.name = some (r.reply life).2
  /-- Along every link there is one value: what the source holds at the end is what the target held
  when its node ran, and what it holds at the end. -/
  links : ∀ l ∈ g.links, ∃ r ∈ runs, r.node.name = l.target.node ∧
    ∃ output arrived kept, k.port? .output l.source = some output ∧
      r.node.panel.port? .input l.target.port = some arrived ∧
      k.port? .input l.target = some kept ∧
      arrived.stored = output.stored ∧ kept.stored = output.stored
  /-- An input without a link is handed over as it was before the pass, and is in the end as its own
  node left it: as it was, unless that node wrote on it. -/
  unlinked : ∀ e p, g.port? .input e = some p → p.isLinked = false →
    ∃ r ∈ runs, r.node.name = e.node ∧ r.node.panel.port? .input e.port = some p ∧
      k.port? .input e = (r.reply life).2.panel.port? .input e.port

/-- Where a settled node was, and where it is. -/
theorem Settled.node? (hg : g.WellLinked) (hk : k.WellLinked) {t : Step} {r : Run β}
    (h : g.Settled life k t r) : ∃ n, g.node? r.node.name = some n ∧
      r.node = Slot.supplied g.links k.held ⟨r.node.name, n⟩ ∧ (r.reply life).1 = .ok () ∧
      k.node? r.node.name = some (r.reply life).2 := by
  obtain ⟨s, hs, hr, hok, hput⟩ := h
  have hname : r.node.name = s.key := by
    rw [hr, Slot.name_supplied, (hg.regular s (List.mem_of_getElem? hs)).name_eq]
  rw [hname]
  exact ⟨s.node, hg.node?_of_mem (List.mem_of_getElem? hs), hr, hok,
    hk.node?_of_mem (List.mem_of_getElem? hput)⟩

theorem names_of_settled (hg : g.WellLinked) {turns : List Step} {runs : List (Run β)}
    (h : List.Forall₂ (g.Settled life k) turns runs) :
    runs.map (·.node.name) = g.namesAt (turns.map Step.node) := by
  rw [namesAt_eq]
  induction h with
  | nil => rfl
  | @cons t r turns runs hr _ ih =>
    obtain ⟨s, hs, hr, -, -⟩ := hr
    have hname : g.nodeNames[t.node]? = some r.node.name := by
      rw [hr, Slot.name_supplied, (hg.regular s (List.mem_of_getElem? hs)).name_eq,
        getElem?_nodeNames hs]
    rw [List.map_cons, List.map_cons, List.filterMap_cons_some hname, ih]

/-- Every node has its run. -/
theorem exists_run (hg : g.WellLinked) (hp : g.plan = .ok g.schedule) {runs : List (Run β)}
    (h : List.Forall₂ (g.Settled life k) g.schedule runs) {name : String}
    (hname : name ∈ g.nodeNames) : ∃ r ∈ runs, r.node.name = name := by
  have hmem : name ∈ runs.map (·.node.name) := by
    rw [names_of_settled hg h]
    exact (hg.isOrder_order hp).1.symm.subset hname
  obtain ⟨r, hr, rfl⟩ := List.mem_map.mp hmem
  exact ⟨r, hr, rfl⟩

/-- What a node was handed over with for a link that ends at it. -/
theorem WellLinked.exists_arrived (hg : g.WellLinked) (hk : k.WellLinked) (hlinks : k.links = g.links)
    {l : Link} (hl : l ∈ g.links) {n m : Node β} (hn : g.node? l.target.node = some n)
    (hm : m = Slot.supplied g.links k.held ⟨l.target.node, n⟩) :
    ∃ output arrived, k.port? .output l.source = some output ∧
      m.panel.port? .input l.target.port = some arrived ∧ arrived.isLinked = true ∧
      arrived.stored = output.stored := by
  obtain ⟨output, houtput, -⟩ := hk.exists_source (hlinks ▸ hl)
  obtain ⟨p, hp, -, hlinked⟩ := hg.exists_target hl
  have hfind : n.panel.port? .input l.target.port = some p := by
    rw [port?, hn] at hp
    exact hp
  have htarget : l.target = ⟨l.target.node, p.name⟩ := by rw [(Port.mem_of_named? hfind).2]
  refine ⟨output, p.store output.stored, houtput, ?_, hlinked, rfl⟩
  rw [hm, Slot.port?_supplied, hfind, Option.map_some,
    Port.supplied_of_mem (htarget ▸ hg.once l.target) hl htarget, held, houtput, Option.bind_some]

/-- Settled turns make a completed pass. -/
theorem WellLinked.completed (hg : g.WellLinked) (hp : g.plan = .ok g.schedule)
    (hlinked : life.KeepsLinkedInputs) (hskeleton : k.skeleton = g.skeleton)
    {runs : List (Run β)} (h : List.Forall₂ (g.Settled life k) g.schedule runs) :
    g.Completed life k runs := by
  have hk := hg.of_skeleton_eq hskeleton
  have hsettled := exists_of_forall₂ h
  have horder := hg.isOrder_order hp
  refine ⟨⟨names_of_settled hg h, horder.1, horder.1.nodup_iff.mpr hg.keys_nodup⟩,
    fun r hr ↦ ?_, fun l hl ↦ ?_, fun e p hport hfree ↦ ?_⟩
  · obtain ⟨t, -, ht⟩ := hsettled r hr
    obtain ⟨-, -, -, hok, hput⟩ := ht.node? hg hk
    exact ⟨hok, hput⟩
  · have hmem : l.target.node ∈ g.nodeNames := hg.node_mem hl .input
    obtain ⟨r, hr, hname⟩ := exists_run hg hp h hmem
    obtain ⟨t, -, ht⟩ := hsettled r hr
    obtain ⟨n, hn, hnode, -, hput⟩ := ht.node? hg hk
    -- the target took over what its source holds, and its node left it there
    rw [hname] at hn hnode
    obtain ⟨output, arrived, houtput, harrived, hcount, hstored⟩ :=
      hg.exists_arrived hk (links_of_skeleton_eq hskeleton) hl hn hnode
    have hkept := hlinked r.node r.stamp _ _ harrived hcount
    refine ⟨r, hr, hname, output, arrived, arrived, houtput, harrived, ?_, hstored, hstored⟩
    rw [port?, ← hname, hput]
    exact hkept
  · obtain ⟨n, hn, hfind⟩ := Option.bind_eq_some_iff.mp hport
    have hmem : e.node ∈ g.nodeNames := List.mem_map_of_mem (mem_of_node? hn)
    obtain ⟨r, hr, hname⟩ := exists_run hg hp h hmem
    obtain ⟨t, -, ht⟩ := hsettled r hr
    obtain ⟨m, hm, hnode, -, hput⟩ := ht.node? hg hk
    rw [hname] at hm hput
    obtain rfl : n = m := Option.some.inj (hn.symm.trans hm)
    have hdegree : g.degree .input e = 0 := by
      rw [← hg.counted .input e p hport]
      simpa [Port.isLinked] using hfree
    have hpname : p.name = e.port := (Port.mem_of_named? hfind).2
    refine ⟨r, hr, hname, ?_, ?_⟩
    · rw [hnode, Slot.port?_supplied, hfind, Option.map_some, Port.supplied_of_notMem]
      intro l hl heq
      have he : e = ⟨r.node.name, p.name⟩ := by rw [hname, hpname]
      exact List.countP_eq_zero.mp hdegree l hl (decide_eq_true (heq.trans he.symm))
    · rw [port?, hput]
      rfl

/-- **A successful pass leaves every link consistent.**  The calls that are seen of it are one for
each node, in the order of the graph, and what was handed over and what became of it agree along
all links. -/
theorem Reachable.execute_completed (h : g.Reachable) (hr : g.isReady = true)
    (hk : life.KeepsOutline) (hlinked : life.KeepsLinkedInputs) {stamp : Nat}
    (hok : (g.execute life stamp).result = (.ok (), k)) :
    ∃ runs : List (Run β),
      (g.execute life stamp).events.filter Event.isCall = runs.map (Run.event life) ∧
        g.Completed life k runs := by
  have hp := h.cached.plan hr
  obtain ⟨runs, hpassed, hevents⟩ := h.wellLinked.passed_execute hp hr hk stamp
  have hskeleton := (agrees_execute hk g stamp).skeleton
  rw [hok] at hpassed hskeleton
  refine ⟨runs, hevents, ?_⟩
  cases hpassed with
  | complete hsettled => exact h.wellLinked.completed hp hlinked hskeleton hsettled

/-! ## A pass over two nodes -/

/-- Nodes that publish a number of their own. -/
def numbering : Lifecycle Unit where
  init n := return (.ok (), n)
  execute n := do
    let number ← Act.fresh
    let packet ← Act.publish ⟨.scalar .int, .ofNat number⟩
    return (.ok (), n.mapPanel (·.modifyPort .output "out" (·.store (some packet))))
  destroy n := return n
  discard _ := return ()

theorem keepsOutline_numbering : numbering.KeepsOutline where
  init _ _ := rfl
  execute _ _ := Panel.outline_withPorts_of_map (Port.map_modifyNamed_of_eq fun _ ↦ rfl)
  destroy _ _ := rfl

theorem keepsLinkedInputs_numbering : numbering.KeepsLinkedInputs := fun _ _ _ _ h _ ↦ h

/-- The graph of two nodes, compiled. -/
def sampleReady : Graph Unit := (Request.compile.perform numbering makeNone sample 0).result

theorem reachable_sampleReady : sampleReady.Reachable :=
  reachable_sample.step _ keepsOutline_numbering (fun _ hn ↦ hn.elim)
    fun _ _ hr ↦ absurd hr (by simp)

theorem execute_completed_sampleReady : sampleReady.links ≠ [] ∧
    ∃ k runs, (sampleReady.execute numbering 7).result = (.ok (), k) ∧
      sampleReady.Completed numbering k runs := by
  obtain ⟨⟨⟩, hok⟩ := exists_ok_of_isOk (x := (sampleReady.execute numbering 7).result.1)
    (by decide +kernel)
  obtain ⟨k, hk⟩ : ∃ k, (sampleReady.execute numbering 7).result = (.ok (), k) :=
    ⟨_, Prod.ext hok rfl⟩
  obtain ⟨runs, -, hruns⟩ := reachable_sampleReady.execute_completed (by decide +kernel)
    keepsOutline_numbering keepsLinkedInputs_numbering hk
  exact ⟨by decide +kernel, k, runs, hk, hruns⟩

/-- Nodes that note a number of their own on an input, as long as it has no link. -/
def noting : Lifecycle Unit where
  init n := return (.ok (), n)
  execute n := do
    let number ← Act.fresh
    let packet ← Act.publish ⟨.scalar .int, .ofNat number⟩
    return (.ok (), n.mapPanel (·.modifyPort .input "in" fun p ↦
      if p.isLinked then p else p.store (some packet)))
  destroy n := return n
  discard _ := return ()

theorem keepsOutline_noting : noting.KeepsOutline where
  init _ _ := rfl
  execute _ _ := Panel.outline_withPorts_of_map (Port.map_modifyNamed_of_eq fun p ↦ by split <;> rfl)
  destroy _ _ := rfl

theorem keepsLinkedInputs_noting : noting.KeepsLinkedInputs := by
  intro n stamp name p hp hlinked
  have hname : ∀ packet (q : Port), (if q.isLinked then q else q.store (some packet)).name = q.name :=
    fun packet q ↦ by split <;> rfl
  refine (Panel.port?_modifyPort (hname _) n.panel .input .input "in" name).trans ?_
  split
  · rename_i hin
    rw [← hin.2, hp, Option.map_some, if_pos hlinked]
  · exact hp

/-- **An input without a link was overwritten**: it held nothing, and holds something now. -/
structure IsOverwritten (g k : Graph β) (e : Endpoint) : Prop where
  /-- It had no link, and held nothing. -/
  free : (g.port? .input e).any (fun p ↦ !p.isLinked && p.stored.isNone) = true
  /-- It holds something now. -/
  filled : (k.port? .input e).any (·.stored.isSome) = true

/-- A node writes on its own input, and nothing forbids it. -/
theorem overwritten_sampleReady : sampleReady.Reachable ∧ sampleReady.isReady = true ∧
    noting.KeepsOutline ∧ noting.KeepsLinkedInputs ∧
    ∃ k, (sampleReady.execute noting 0).result = (.ok (), k) ∧
      sampleReady.IsOverwritten k ⟨"a", "in"⟩ := by
  obtain ⟨⟨⟩, hok⟩ := exists_ok_of_isOk (x := (sampleReady.execute noting 0).result.1)
    (by decide +kernel)
  exact ⟨reachable_sampleReady, by decide +kernel, keepsOutline_noting, keepsLinkedInputs_noting, _,
    Prod.ext hok rfl, by decide +kernel, by decide +kernel⟩

end Graph
end PortGraph
