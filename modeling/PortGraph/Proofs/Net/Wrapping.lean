import PortGraph.Proofs.Net.Naming
import PortGraph.Proofs.Net.Wrapped

/-!
# Every net can be held by a node

A port that is added for an inner one gets a name that is new (`freshName_notMem`), so adding it does
not fail, and neither does making a node of a net (`Net.exists_wrap`).
-/

set_option autoImplicit false

namespace PortGraph

open PortGraph.Graph

/-- A port of a new name can be added. -/
theorem Panel.exists_addPort {panel : Panel} {side : Direction} {p : Port} (hd : p.direction = side)
    (hnew : p.name ∉ (panel.ports side).map Port.name) :
    ∃ i panel', panel.addPort side p = .ok (i, panel') := by
  have hnone : panel.port? side p.name = none := by
    refine List.find?_eq_none.mpr fun q hq ↦ ?_
    simpa using fun hname : q.name = p.name ↦ hnew (hname ▸ List.mem_map_of_mem hq)
  exact ⟨_, _, by rw [addPort, if_neg (by simp [hd]), if_neg (by simp [hnone])]⟩

namespace Net

variable {g k : Net}

/-- An input that is there can be fed from outside, and no input goes away. -/
theorem exists_expose {place : Endpoint} (h : (g.port? .input place).isSome) :
    ∃ k, g.expose place = .ok k ∧
      ∀ e, (g.port? .input e).isSome → (k.port? .input e).isSome := by
  obtain ⟨p, hp⟩ := Option.isSome_iff_exists.mp h
  obtain ⟨n, hn, hport⟩ := Option.bind_eq_some_iff.mp hp
  have hok : g.expose place =
      .ok (g.modifyPort .input place fun p ↦ { p with isExposed := true }).unschedule := by
    rw [expose, changeInput, node, hn]
    simp only [Panel.port, hport]
    rfl
  refine ⟨_, hok, fun e he ↦ ?_⟩
  have hports := port?_modifyPort (f := fun p : Port ↦ { p with isExposed := true }) (fun _ ↦ rfl) g
    .input .input place e
  rw [show (g.modifyPort .input place fun p ↦ { p with isExposed := true }).unschedule.port?
    .input e = _ from hports]
  split
  · rw [Option.isSome_map]
    exact h
  · exact he

theorem exists_addOuterInputs (g : Net) (setters : List Accessor) (panel : Panel)
    (h : ∀ a ∈ setters, (g.port? .input a.place).isSome) :
    ∃ r, addOuterInputs setters panel g = .ok r := by
  induction setters generalizing panel g with
  | nil => exact ⟨_, rfl⟩
  | cons inner rest ih =>
    obtain ⟨hinner, hrest⟩ := List.forall_mem_cons.mp h
    obtain ⟨p, hp⟩ : ∃ p : Port, p =
      { name := freshName (panel.inputs.map Port.name) inner.place.port, direction := .input,
        dataType := inner.dataType, default := defaultOf g inner.place } := ⟨_, rfl⟩
    have hnew : (if inner.isRequired then p.require else p).direction = .input ∧
        (if inner.isRequired then p.require else p).name ∉ (panel.ports .input).map Port.name := by
      have hfresh := freshName_notMem (panel.inputs.map Port.name) inner.place.port
      split <;> (rw [hp]; exact ⟨rfl, hfresh⟩)
    obtain ⟨i, panel', hport⟩ := Panel.exists_addPort hnew.1 hnew.2
    obtain ⟨k, hk, hkeep⟩ := exists_expose hinner
    have hadd : addOuterInput inner panel g = .ok (panel', k) := by
      rw [addOuterInput, ← hp]
      exact congrArg₂ (fun x y ↦ (x : Except GraphError (Nat × Panel)) >>= fun r ↦
        (y : Except GraphError Net) >>= fun g ↦ pure (r.2, g)) hport hk
    obtain ⟨r, hr⟩ := ih k panel' fun a ha ↦ hkeep _ (hrest a ha)
    exact ⟨r, by rw [addOuterInputs, hadd]; exact hr⟩

theorem exists_addOuterOutputs (getters : List Accessor) (panel : Panel) :
    ∃ panel', addOuterOutputs getters panel = .ok panel' := by
  induction getters generalizing panel with
  | nil => exact ⟨panel, rfl⟩
  | cons inner rest ih =>
    obtain ⟨p, hp⟩ : ∃ p : Port, p =
      { name := freshName (panel.outputs.map Port.name) inner.place.port, direction := .output,
        dataType := inner.dataType } := ⟨_, rfl⟩
    have hnew : p.name ∉ (panel.ports .output).map Port.name := by
      rw [hp]
      exact freshName_notMem (panel.outputs.map Port.name) inner.place.port
    obtain ⟨i, panel', hport⟩ := Panel.exists_addPort (hp ▸ rfl) hnew
    obtain ⟨r, hr⟩ := ih panel'
    exact ⟨r, by rw [addOuterOutputs, ← hp, hport]; exact hr⟩

/-- **A node can be made of every net.** -/
theorem exists_wrap (hg : g.WellLinked) (name : String) :
    ∃ n, wrapped? name g = .ok n ∧ ∀ stamp, ((wrap name g).run stamp).result = .ok n := by
  obtain ⟨⟨panel, k⟩, hinputs⟩ := exists_addOuterInputs g g.setters
    { name, typeName := nestedType } fun a ha ↦ by
      obtain ⟨s, hs, ha⟩ := List.mem_flatMap.mp ha
      obtain ⟨p, hp, rfl⟩ := List.mem_map.mp ha
      rw [show g.port? .input ⟨s.key, p.name⟩ = some p from
        hg.port?_of_mem hs (List.mem_of_mem_filter hp)]
      rfl
  obtain ⟨panel', houtputs⟩ := exists_addOuterOutputs k.getters panel
  have hwrapped : wrapped? name g = .ok ⟨panel', .nested k (g.setters.map Accessor.place)
      (k.getters.map Accessor.place)⟩ := by
    rw [wrapped?, hinputs]
    exact congrArg (fun x ↦ (x : Except GraphError Panel) >>= fun panel ↦ pure
      (⟨panel, .nested k (g.setters.map Accessor.place) (k.getters.map Accessor.place)⟩ :
        Node Behaviour)) houtputs
  refine ⟨_, hwrapped, fun stamp ↦ ?_⟩
  rw [wrap, hwrapped]
  rfl

end Net

end PortGraph
