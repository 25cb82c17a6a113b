import PortGraph.Proofs.Graph.Traits
import PortGraph.Proofs.Graph.Turns

/-!
# What stands on the inputs

An input with a link holds what was pulled along it, and nothing else writes there.  An input without
one holds what it held before: no call writes on it, and neither does a pass, whether it succeeds or
not (`WellLinked.port?_of_execute`).  Only the host puts a packet there, and only while there is no
link (`WellLinked.setInput_cases`).
-/

set_option autoImplicit false

namespace PortGraph
namespace Graph

variable {β : Type} {life : Lifecycle β} {g k : Graph β}

theorem port?_of_inputs_eq (h : k.inputs = g.inputs) (e : Endpoint) :
    k.port? .input e = g.port? .input e :=
  (port?_of_map_eq (show k.slots.map (fun s ↦ (s.key, s.node.panel.ports .input)) =
    g.slots.map fun s ↦ (s.key, s.node.panel.ports .input) from h) e)

/-- **What a pass leaves on the inputs of a node**: what its links supplied, or what was there, if it
had no turn. -/
theorem WellLinked.inputs_of_passed (h : g.WellLinked) (hp : g.plan = .ok g.schedule)
    (hk : k.skeleton = g.skeleton) (hi : life.KeepsInputs) {runs : List (Run β)}
    {result : Except GraphError Unit} (hpassed : g.Passed life k runs result) {w : Slot β}
    (hw : w ∈ k.slots) : ∃ s ∈ g.slots, s.key = w.key ∧
      (w.node.panel.inputs = (s.supplied g.links k.held).panel.inputs ∨
        w.node.panel.inputs = s.node.panel.inputs) := by
  have hkwell := h.of_skeleton_eq hk
  have hname : w.key ∈ g.nodeNames := nodeNames_of_skeleton_eq hk ▸ List.mem_map_of_mem hw
  obtain ⟨s, hs, hkey⟩ := List.mem_map.mp hname
  refine ⟨s, hs, hkey, ?_⟩
  obtain ⟨t, ht, hi'⟩ := h.exists_turn hp hs
  have hran : ∀ {r : Run β}, r.node = s.supplied g.links k.held →
      k.slots[t.node]? = some ⟨s.key, (r.reply life).2⟩ →
      w.node.panel.inputs = (s.supplied g.links k.held).panel.inputs := by
    intro r hnode hput
    rw [← hkwell.node_inj (List.mem_of_getElem? hput) hw hkey, ← hnode]
    exact hi.execute r.node r.stamp
  -- a node that had its turn keeps what it was handed over with; the others were not touched
  cases hpassed with
  | complete hsettled =>
    obtain ⟨r, s', hs', hnode, -, hput⟩ := exists_of_forall₂_left hsettled t ht
    obtain rfl := Option.some.inj (hi'.symm.trans hs')
    exact .inl (hran hnode hput)
  | broken hschedule hsettled hs' hnode _ hput hafter =>
    rw [hschedule, List.mem_append, List.mem_cons] at ht
    rcases ht with ht | rfl | ht
    · obtain ⟨r, s', hs', hnode, -, hput⟩ := exists_of_forall₂_left hsettled t ht
      obtain rfl := Option.some.inj (hi'.symm.trans hs')
      exact .inl (hran hnode hput)
    · obtain rfl := Option.some.inj (hi'.symm.trans hs')
      exact .inl (hran hnode hput)
    · have hput := List.mem_of_getElem? ((hafter t ht).trans hi')
      exact .inr (congrArg (·.panel.inputs) (hkwell.node_inj hw hput hkey.symm))

/-- A pass over a graph leaves the inputs as they are that no link touches, also if it fails. -/
theorem WellLinked.port?_of_execute (hg : g.WellLinked) (hp : g.plan = .ok g.schedule)
    (hr : g.isReady = true) (hk : life.KeepsOutline) (hi : life.KeepsInputs) {stamp : Nat}
    (hleft : (g.execute life stamp).result.2 = k) {e : Endpoint} {p : Port}
    (hport : k.port? .input e = some p) (hfree : p.isLinked = false) :
    g.port? .input e = some p := by
  have hskeleton := (agrees_execute hk g stamp).skeleton
  obtain ⟨runs, hpassed, -⟩ := hg.passed_execute hp hr hk stamp
  rw [hleft] at hskeleton hpassed
  obtain ⟨w, hw, hmem, rfl⟩ := (hg.of_skeleton_eq hskeleton).exists_slot hport
  obtain ⟨r, hr', hkey, hinputs⟩ := hg.inputs_of_passed hp hskeleton hi hpassed hw
  change p ∈ w.node.panel.inputs at hmem
  rw [← hkey]
  rcases hinputs with hinputs | hinputs
  · rw [hinputs] at hmem
    obtain ⟨q, hq, rfl⟩ := List.mem_map.mp hmem
    rcases hg.supplied_cases hr' hq k.held with ⟨hlinked, l, -, -, -, heq⟩ | ⟨-, heq⟩
    · rw [heq] at hfree
      exact absurd (hlinked.symm.trans hfree) (by simp)
    · rw [heq]
      exact hg.input?_of_mem hr' hq
  · exact hg.input?_of_mem hr' (hinputs ▸ hmem)

/-- Putting a packet on an input is refused, or it is stored on an input without a link. -/
theorem WellLinked.setInput_cases (h : g.WellLinked) (place : Endpoint) (packet : Packet) :
    (∃ e, g.setInput place packet = (.error e, g)) ∨
      (∃ p, g.port? .input place = some p ∧ p.isLinked = false) ∧
        g.setInput place packet =
          (.ok (), g.modifyPort .input place (·.store (some packet))) := by
  rw [setInput, node]
  cases hn : g.node? place.node with
  | none => exact .inl ⟨_, rfl⟩
  | some n =>
    dsimp only
    rw [Panel.inject, Panel.port]
    cases hp : n.panel.port? .input place.port with
    | none => exact .inl ⟨_, rfl⟩
    | some p =>
      dsimp only
      by_cases hl : p.isLinked
      · rw [if_pos hl]
        exact .inl ⟨_, rfl⟩
      · rw [if_neg hl]
        refine .inr ⟨⟨p, ?_, by simpa using hl⟩,
          congrArg (Prod.mk _) (modifyPanel_const_eq h.keys_nodup hn)⟩
        rw [port?, hn]
        exact hp

end Graph
end PortGraph
