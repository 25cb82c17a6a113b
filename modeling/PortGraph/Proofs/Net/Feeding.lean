import PortGraph.Proofs.Graph.Accessors
import PortGraph.Proofs.Net.Wrapped

/-!
# What passes between a net and the node that holds it

Before a nested net executes, each of its open inputs is given what is read off the input that
mirrors it (`Net.feedAll_spec`), and when it succeeded, each output takes over what the open output
holds that it mirrors (`Behaviour.takeOver_eq`).
-/

set_option autoImplicit false

namespace PortGraph

open PortGraph.Graph

/-! ## Ports and what they mirror -/

theorem Port.forall₂_mirror (side : Direction) (taken : List String) (ports : List Port) :
    List.Forall₂ (fun q p ↦ q = p.mirrored side q.name) (mirror side taken ports) ports := by
  induction ports generalizing taken with
  | nil => exact .nil
  | cons p ports ih =>
    rw [mirror]
    refine .cons ?_ (ih _)
    cases side <;> rfl

/-- The ports of a side stand for the open ports of a net, one for each. -/
theorem Panel.Mirrors.forall₂ {panel : Panel} {g : Net} {inputs outputs : List Endpoint}
    (h : panel.Mirrors g inputs outputs) (side : Direction) :
    List.Forall₂ (fun p o ↦ p.declared = o.2.mirrored side p.name) (panel.ports side)
      (g.openPorts side) := by
  have hports : (panel.ports side).map Port.declared =
      Port.mirror side [] ((g.openPorts side).map Prod.snd) := by
    cases side with
    | input => exact h.inputs
    | output => exact h.outputs
  have hall := Port.forall₂_mirror side [] ((g.openPorts side).map Prod.snd)
  rw [← hports, List.forall₂_map_left_iff, List.forall₂_map_right_iff] at hall
  exact hall

/-- Which open port a port stands for. -/
theorem Panel.Mirrors.exists_open {panel : Panel} {g : Net} {inputs outputs : List Endpoint}
    (h : panel.Mirrors g inputs outputs) (side : Direction) {q : Port}
    (hq : q ∈ panel.ports side) :
    ∃ s ∈ g.slots, ∃ p ∈ s.node.panel.ports side, p.isLinked = false ∧
      q.declared = p.declared.mirrored side q.name := by
  obtain ⟨i, hi, rfl⟩ := List.getElem_of_mem hq
  have hall := h.forall₂ side
  have hpair := hall.get hi (hall.length_eq ▸ hi)
  obtain ⟨s, hs, p, hp, hfree, ho⟩ := Net.openPorts_port _ (List.getElem_mem (hall.length_eq ▸ hi))
  refine ⟨s, hs, p, hp, hfree, hpair.trans ?_⟩
  rw [List.get_eq_getElem, List.get_eq_getElem, ho]

theorem Port.direction_of_declared {side : Direction} {name : String} {p q : Port}
    (h : p.declared = q.mirrored side name) : p.direction = side := by
  have hdirection := congrArg Port.direction h
  cases side <;> exact hdirection

theorem Port.dataType_of_declared {side : Direction} {name : String} {p q : Port}
    (h : p.declared = q.mirrored side name) : p.dataType = q.dataType := by
  have htype := congrArg Port.dataType h
  cases side <;> exact htype

theorem Operation.direction_inputs (op : Operation) (stamp : Nat) :
    ∀ p ∈ (op.inputs stamp).result, p.direction = .input := by
  cases op with
  | increment => exact fun p hp ↦ by rw [List.mem_singleton.mp hp]; rfl
  | _ => simp [Operation.inputs, inputOf, requiredInputOf, Port.require]

theorem Operation.direction_output (op : Operation) : op.output.direction = .output := by
  cases op <;> rfl

/-- The ports of a built-in node are made for the sides they stand on. -/
theorem Node.IsBuiltin.direction {n : Node Behaviour} (h : n.IsBuiltin) (side : Direction)
    {p : Port} (hp : p ∈ n.panel.ports side) : p.direction = side := by
  cases h with
  | @operation _ op _ h =>
    cases side with
    | input =>
      have hmem : p.declared ∈ (op.inputs 0).result.map Port.declared :=
        h.inputs ▸ List.mem_map_of_mem hp
      obtain ⟨q, hq, hdeclared⟩ := List.mem_map.mp hmem
      have hdirection := congrArg Port.direction hdeclared
      exact hdirection.symm.trans (op.direction_inputs 0 q hq)
    | output =>
      have hmem : p.declared ∈ [op.output] := h.outputs ▸ List.mem_map_of_mem hp
      have hdirection := congrArg Port.direction (List.mem_singleton.mp hmem)
      exact hdirection.trans op.direction_output
  | nested _ h _ =>
    obtain ⟨s, -, q, -, -, hdeclared⟩ := h.exists_open side hp
    exact Port.direction_of_declared hdeclared

theorem Port.data_of_output {p : Port} (h : p.direction = .output) : p.data = p.stored := by
  rw [data, h]

/-! ## Feeding -/

namespace Net

variable {g k : Net}

/-- The places of open ports are different. -/
theorem nodup_openPorts (hg : g.WellLinked) (side : Direction) :
    ((g.openPorts side).map Prod.fst).Nodup := by
  have hplaces : (g.openPorts side).map Prod.fst =
      (g.accessors side (!·.isLinked)).map Accessor.place := by
    rw [openPorts, accessors, List.map_flatMap, List.map_flatMap]
    simp only [List.map_map]
    rfl
  rw [hplaces]
  exact (hg.isTallied.lists_accessors side _).nodup

theorem feed_of_port? {place : Endpoint} {p : Port} (hp : g.port? .input place = some p)
    (packet : Option Packet) :
    g.feed place packet = .ok (g.modifyPort .input place (·.store packet)) := by
  obtain ⟨n, hn, hport⟩ := Option.bind_eq_some_iff.mp hp
  rw [feed, changeInput, node, hn]
  dsimp only
  rw [Panel.port, hport]

/-- Storing a packet takes no input away. -/
theorem exists_port?_store {e : Endpoint} (h : ∃ p, g.port? .input e = some p) (place : Endpoint)
    (packet : Option Packet) :
    ∃ p, (g.modifyPort .input place (·.store packet)).port? .input e = some p := by
  obtain ⟨p, hp⟩ := h
  rw [port?_modifyPort (f := fun p : Port ↦ p.store packet) (fun _ ↦ rfl)]
  split
  · rename_i hsame
    exact ⟨_, by rw [← hsame.2, hp]; rfl⟩
  · exact ⟨p, hp⟩

/-- **Inputs that are there can be fed.** -/
theorem feedAll_eq_ok {pairs : List (Port × Endpoint)}
    (hports : ∀ o ∈ pairs, ∃ p, g.port? .input o.2 = some p) :
    (Behaviour.feedAll pairs g).1 = .ok () := by
  induction pairs generalizing g with
  | nil => rfl
  | cons o pairs ih =>
    obtain ⟨⟨p, hp⟩, hports⟩ := List.forall_mem_cons.mp hports
    rw [Behaviour.feedAll, feed_of_port? hp]
    exact ih fun o' ho' ↦ exists_port?_store (hports o' ho') _ _

/-- **Feeding** gives each input in the list what is read off the outer port, and leaves all other
ports as they are. -/
theorem feedAll_spec {pairs : List (Port × Endpoint)} (hnd : (pairs.map Prod.snd).Nodup)
    (hports : ∀ o ∈ pairs, ∃ p, g.port? .input o.2 = some p) :
    (∀ o ∈ pairs, Graph.port? (Behaviour.feedAll pairs g).2 .input o.2 =
        (g.port? .input o.2).map (·.store o.1.data)) ∧
      (∀ e, e ∉ pairs.map Prod.snd →
        Graph.port? (Behaviour.feedAll pairs g).2 .input e = g.port? .input e) ∧
      ∀ e, Graph.port? (Behaviour.feedAll pairs g).2 .output e = g.port? .output e := by
  induction pairs generalizing g with
  | nil => exact ⟨by simp, fun _ _ ↦ rfl, fun _ ↦ rfl⟩
  | cons o pairs ih =>
    rw [List.map_cons, List.nodup_cons] at hnd
    obtain ⟨⟨p, hp⟩, hports⟩ := List.forall_mem_cons.mp hports
    have hport := port?_modifyPort (f := fun p : Port ↦ p.store o.1.data) (fun _ ↦ rfl) g .input
    obtain ⟨hfed, hother, houtput⟩ :=
      ih hnd.2 fun o' ho' ↦ exists_port?_store (hports o' ho') o.2 o.1.data
    rw [Behaviour.feedAll, feed_of_port? hp]
    dsimp only
    refine ⟨List.forall_mem_cons.mpr ⟨?_, fun o' ho' ↦ ?_⟩, fun e he ↦ ?_, fun e ↦ ?_⟩
    · rw [hother _ hnd.1, hport, if_pos ⟨rfl, rfl⟩]
    · have hne : o'.2 ≠ o.2 := fun heq ↦ hnd.1 (heq ▸ List.mem_map_of_mem ho')
      rw [hfed o' ho', hport, if_neg fun h ↦ hne h.2]
    · rw [List.map_cons, List.mem_cons, not_or] at he
      rw [hother e he.2, hport, if_neg fun h ↦ he.1 h.2]
    · rw [houtput, hport, if_neg (by simp)]

/-- What can be read off an output of a net. -/
theorem toOption_output (g : Net) (e : Endpoint) :
    (g.output e).toOption = (g.port? .output e).bind Port.data := by
  rw [output, port?, node]
  cases hn : g.node? e.node with
  | none => rfl
  | some n =>
    dsimp only
    rw [Panel.read, Panel.port, Option.bind_some]
    cases n.panel.port? .output e.port with
    | none => rfl
    | some p =>
      dsimp only
      rw [Option.bind_some]
      cases p.data <;> rfl

end Net

/-! ## A net that was fed -/

/-- **A net was fed from a panel**: each input that no link touches is exposed and holds what is read
off the input of the panel that mirrors it. -/
def Panel.Feeds (panel : Panel) (places : List Endpoint) (g : Net) : Prop :=
  ∀ e p, g.port? .input e = some p → p.isLinked = false →
    ∃ (i : Nat) (q : Port), panel.inputs[i]? = some q ∧ places[i]? = some e ∧
      q.declared = p.declared.mirrored .input q.name ∧ p.isExposed = true ∧ p.stored = q.data

/-- The port that stands for the open port at a place. -/
theorem Panel.Mirrors.getElem? {panel : Panel} {g : Net} {inputs outputs : List Endpoint}
    (h : panel.Mirrors g inputs outputs) (hg : g.WellLinked) {side : Direction} {e : Endpoint}
    {p : Port} (hp : g.port? side e = some p) {i : Nat}
    (hi : ((g.openPorts side).map Prod.fst)[i]? = some e) :
    ∃ q, (panel.ports side)[i]? = some q ∧ q.declared = p.declared.mirrored side q.name := by
  rw [List.getElem?_map, Option.map_eq_some_iff] at hi
  obtain ⟨o, hi, rfl⟩ := hi
  have hall := h.forall₂ side
  have hlt : i < (panel.ports side).length :=
    hall.length_eq ▸ (List.getElem?_eq_some_iff.mp hi).1
  refine ⟨(panel.ports side)[i], List.getElem?_eq_getElem hlt, ?_⟩
  have hpair := hall.get hlt (List.getElem?_eq_some_iff.mp hi).1
  rw [List.get_eq_getElem, List.get_eq_getElem, (List.getElem?_eq_some_iff.mp hi).2] at hpair
  obtain ⟨s, hs, r, hr, -, rfl⟩ := Net.openPorts_port o (List.mem_of_getElem? hi)
  rw [hg.port?_of_mem hs hr] at hp
  rwa [← Option.some.inj hp]

/-- **Feeding a net from the panel that mirrors it.** -/
theorem Panel.Mirrors.feeds {panel : Panel} {g : Net} {inputs outputs : List Endpoint}
    (h : panel.Mirrors g inputs outputs) (hg : g.WellLinked) :
    (Behaviour.feedAll (panel.inputs.zip inputs) g).1 = .ok () ∧
      panel.Feeds inputs (Behaviour.feedAll (panel.inputs.zip inputs) g).2 := by
  have hplaces : inputs = (g.openPorts .input).map Prod.fst := h.inputPlaces
  have hlength : panel.inputs.length = inputs.length := by
    rw [hplaces, List.length_map]
    exact (h.forall₂ .input).length_eq
  have hsnd : (panel.inputs.zip inputs).map Prod.snd = inputs :=
    List.map_snd_zip (by rw [hlength])
  have hports : ∀ o ∈ panel.inputs.zip inputs, ∃ p, g.port? .input o.2 = some p := by
    intro o ho
    have hmem : o.2 ∈ (panel.inputs.zip inputs).map Prod.snd := List.mem_map_of_mem ho
    rw [hsnd, hplaces] at hmem
    obtain ⟨o', ho', he⟩ := List.mem_map.mp hmem
    obtain ⟨s, hs, p, hp, -, rfl⟩ := Net.openPorts_port o' ho'
    exact ⟨p, he ▸ hg.port?_of_mem hs hp⟩
  have hnd : ((panel.inputs.zip inputs).map Prod.snd).Nodup := by
    rw [hsnd, hplaces]
    exact Net.nodup_openPorts hg .input
  obtain ⟨hfed, hother, -⟩ := Net.feedAll_spec hnd hports
  refine ⟨Net.feedAll_eq_ok hports, fun e p hp hfree ↦ ?_⟩
  -- an input that was not fed has a link
  have hmem : e ∈ inputs := by
    by_contra hno
    rw [hother e (by rwa [hsnd])] at hp
    obtain ⟨s, hs, hq, rfl⟩ := hg.exists_slot hp
    exact hno (hplaces ▸ (Net.mem_openPorts_iff hg hs hq).mpr hfree)
  obtain ⟨i, hi⟩ := List.mem_iff_getElem?.mp hmem
  have hlt := hlength ▸ (List.getElem?_eq_some_iff.mp hi).1
  have hpair : (panel.inputs[i], e) ∈ panel.inputs.zip inputs :=
    List.mem_of_getElem? (List.getElem?_zip_eq_some.mpr ⟨List.getElem?_eq_getElem hlt, hi⟩)
  rw [hfed _ hpair, Option.map_eq_some_iff] at hp
  obtain ⟨r, hr, rfl⟩ := hp
  obtain ⟨q, hq, hdeclared⟩ := h.getElem? hg hr (hplaces ▸ hi)
  have hqi : q = panel.inputs[i] := Option.some.inj (hq.symm.trans (List.getElem?_eq_getElem hlt))
  obtain ⟨s, hs, hinput, rfl⟩ := hg.exists_slot hr
  refine ⟨i, q, hq, hi, hdeclared, ?_, by rw [hqi]; rfl⟩
  have hexposed := h.exposed s hs r hinput
  have hunlinked : r.isLinked = false := hfree
  rw [hunlinked] at hexposed
  exact hexposed

/-! ## Taking over -/

namespace Behaviour

/-- Each output takes over what can be read off the inner output it stands for. -/
theorem takeOver_eq (g : Net) {ports : List Port} {places : List Endpoint}
    (h : ports.length = places.length) : takeOver g ports places =
      List.zipWith (fun p e ↦ p.store ((g.port? .output e).bind Port.data)) ports places := by
  induction ports generalizing places with
  | nil => rw [List.zipWith_nil_left]; cases places <;> rfl
  | cons p ports ih =>
    cases places with
    | nil => exact absurd h (by simp)
    | cons e places =>
      rw [takeOver, Net.toOption_output, ih (Nat.succ.inj h), List.zipWith_cons_cons]

/-- **Executing a node that holds a net** when its inputs could be fed: the net executes, and if it
succeeds the outputs are taken over. -/
theorem executeNested_fed (inner : Lifecycle Behaviour) {n : Node Behaviour} {g : Net}
    {inputs outputs : List Endpoint} (hfed : (feedAll (n.panel.inputs.zip inputs) g).1 = .ok ())
    (stamp : Nat) :
    (∃ e k, (Graph.execute inner (feedAll (n.panel.inputs.zip inputs) g).2 stamp).result =
        (.error e, k) ∧
      (executeNested inner n g inputs outputs stamp).result =
        (.error (.graph e), ⟨n.panel, .nested k inputs outputs⟩)) ∨
    ∃ k, (Graph.execute inner (feedAll (n.panel.inputs.zip inputs) g).2 stamp).result =
        (.ok (), k) ∧
      (executeNested inner n g inputs outputs stamp).result =
        (.ok (), ⟨{ n.panel with outputs := takeOver k n.panel.outputs outputs },
          .nested k inputs outputs⟩) := by
  rw [executeNested]
  rcases hf : feedAll (n.panel.inputs.zip inputs) g with ⟨e | _, k⟩
  · rw [hf] at hfed
    exact absurd hfed (by simp)
  · dsimp only
    simp only [Act.bind_apply]
    rcases hr : (Graph.execute inner k stamp).result with ⟨e | _, j⟩
    · exact .inl ⟨e, j, rfl, rfl⟩
    · exact .inr ⟨j, rfl, rfl⟩

end Behaviour

end PortGraph
