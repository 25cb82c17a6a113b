import PortGraph.Proofs.Graph.Consistent
import PortGraph.Proofs.Graph.Inputs
import PortGraph.Proofs.Net.Required

/-!
# Inputs without links in a pass

The nodes of a net do not write on their inputs, so a pass leaves those that have no link as they are
(`Net.Reachable.port?_execute`).  That is so for the nodes of one net only: in the nets inside it, what
has no link is written on by each pass.  It holds in the end what can be read off the node around
(`Node.feeds_execute`).

So a pass does not keep every input that has no link (`Net.overwritten_in_pass`).
-/

set_option autoImplicit false

namespace PortGraph

open PortGraph.Graph
open PortGraph.Net (coherent_iff)

/-! ## Inputs of its own -/

/-- **A pass leaves the inputs without links as they are**, whether it succeeds or not, if no node writes
on its inputs. -/
theorem Graph.WellLinked.port?_execute_iff {β : Type} {life : Lifecycle β} {g : Graph β}
    (hg : g.WellLinked) (hc : g.Cached) (hk : life.KeepsOutline) (hi : life.KeepsInputs)
    {stamp : Nat} {e : Endpoint} {p : Port} (hfree : p.isLinked = false) :
    Graph.port? (g.execute life stamp).result.2 .input e = some p ↔ g.port? .input e = some p := by
  cases hr : g.isReady with
  | false =>
    rw [execute, hr]
    rfl
  | true =>
    have hleft : ∀ q, Graph.port? (g.execute life stamp).result.2 .input e = some q →
        q.isLinked = false → g.port? .input e = some q := fun q ↦
      hg.port?_of_execute (hc.plan hr) hr hk hi rfl
    refine ⟨fun hport ↦ hleft p hport hfree, fun hport ↦ ?_⟩
    have hbare := port?_skeleton (g.execute life stamp).result.2 .input e
    rw [(agrees_execute hk g stamp).skeleton, port?_skeleton, hport] at hbare
    obtain ⟨q, hq, heq⟩ := Option.map_eq_some_iff.mp hbare.symm
    have hlinks : (q.store none).isLinked = (p.store none).isLinked := congrArg Port.isLinked heq
    have hkept := hleft q hq (hlinks.trans hfree)
    rw [hq, Option.some.inj (hport.symm.trans hkept)]

/-- **A pass over a net leaves the inputs of its nodes as they are that have no link.** -/
theorem Net.Reachable.port?_execute {g : Net} (h : g.Reachable) {stamp : Nat} {e : Endpoint}
    {p : Port} (hport : g.port? .input e = some p) (hfree : p.isLinked = false) :
    Graph.port? (g.execute stamp).result.2 .input e = some p := by
  obtain ⟨hg, hc, -⟩ := coherent_iff.mp h.coherent
  exact (hg.port?_execute_iff hc (keepsOutline_life _) (keepsInputs_life _) hfree).mpr hport

/-! ## Inputs of nets inside -/

/-- **A node that holds a net writes on the inputs of that net to which no link leads**, in each run: they
hold what can be read off its own. -/
theorem Node.feeds_execute {n : Node Behaviour} {g : Net} {inputs outputs : List Endpoint}
    (hb : n.behaviour = .nested g inputs outputs) (hg : g.Coherent)
    (hm : n.panel.Mirrors g inputs outputs) (level stamp : Nat) :
    ∃ k, ((Behaviour.life (level + 1)).execute n stamp).result.2.behaviour = .nested k inputs outputs ∧
      n.panel.Feeds inputs k := by
  obtain ⟨hfed, hfeeds⟩ := hm.feeds (coherent_iff.mp hg).1
  obtain ⟨hwell, hcached, -⟩ :=
    coherent_iff.mp (hg.feedAll le_rfl (n.panel.inputs.zip inputs)).1
  -- the pass over the net in it leaves what was fed
  have hafter : n.panel.Feeds inputs (Graph.execute (Behaviour.life level)
      (Behaviour.feedAll (n.panel.inputs.zip inputs) g).2 stamp).result.2 := fun e p hp hfree ↦
    hfeeds e p ((hwell.port?_execute_iff hcached (keepsOutline_life level) (keepsInputs_life level)
      hfree).mp hp) hfree
  rw [Behaviour.execute_nested hb]
  rcases Behaviour.executeNested_fed (Behaviour.life level) hfed stamp with
    ⟨e, k, hrun, hreply⟩ | ⟨k, hrun, hreply⟩
  · rw [hrun] at hafter
    exact ⟨k, congrArg (·.2.behaviour) hreply, hafter⟩
  · rw [hrun] at hafter
    exact ⟨k, congrArg (·.2.behaviour) hreply, hafter⟩

/-! ## Inputs that are written on -/

/-- The net in the box. -/
def Net.unboxed (g : Net) : Net := ((g.node? "box").bind Node.inner?).getD { name := "none" }

theorem Net.within_unboxed {g : Net}
    (h : ((g.node? "box").bind Node.inner?).isSome = true) : g.Within ["box"] g.unboxed := by
  obtain ⟨k, hk⟩ := Option.isSome_iff_exists.mp h
  obtain ⟨n, hn, hinner⟩ := Option.bind_eq_some_iff.mp hk
  obtain ⟨inputs, outputs, hb⟩ := Node.behaviour_of_inner? hinner
  rw [unboxed, hk]
  exact .step .here (mem_of_node? hn) hb

/-- **A pass does not keep every input without a link.**  A node may write on its own, and one that holds a
net writes on those of the net. -/
theorem Net.overwritten_in_pass :
    (sampleReady.Reachable ∧ sampleReady.isReady = true ∧
      noting.KeepsOutline ∧ noting.KeepsLinkedInputs ∧
      ∃ k, (sampleReady.execute noting 0).result = (.ok (), k) ∧
        sampleReady.IsOverwritten k ⟨"a", "in"⟩) ∧
    sampleSupplied.Reachable ∧ sampleSupplied.isReady = true ∧
      ∃ k inner after, (sampleSupplied.execute 0).result = (.ok (), k) ∧
        sampleSupplied.Within ["box"] inner ∧ k.Within ["box"] after ∧
        inner.IsOverwritten after ⟨"sink", "from"⟩ := by
  obtain ⟨-, ⟨_, hsupplied⟩, -⟩ := account_sampleSupplied
  obtain ⟨⟨⟩, hok⟩ := exists_ok_of_isOk (x := (sampleSupplied.execute 0).result.1) (by decide +kernel)
  refine ⟨overwritten_sampleReady, hsupplied.reachable, by decide +kernel, _,
    sampleSupplied.unboxed, Net.unboxed (sampleSupplied.execute 0).result.2, Prod.ext hok rfl,
    within_unboxed (by decide +kernel), within_unboxed (by decide +kernel),
    by decide +kernel, by decide +kernel⟩

end PortGraph
