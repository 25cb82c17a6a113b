import PortGraph.Proofs.Net.Compute

/-!
# Built-in nets that are ready

`Net.IsLive` says that a net can be executed by the nodes down to a level: it is coherent, ready and
built-in.  It stays so when it is fed or executed, and so are the nets in its nodes.

Executing a node that holds one comes to three things (`Node.IsLive.execute_nested`): the net is fed
from the panel, it executes, and if it succeeds the outputs take over what it holds.
-/

set_option autoImplicit false

namespace PortGraph

open PortGraph.Graph

namespace Behaviour

mutual

/-- A lens shows how deep nets are. -/
theorem depth_through (lens : Lens) : ∀ b : Behaviour, (b.through lens).depth = b.depth
  | .operation _ => rfl
  | .probe _ => rfl
  | .nested g _ _ => by
    rw [through, depth, depth]
    exact congrArg (· + 1) (slotsDepth_slotsThrough lens g.slots)

theorem slotsDepth_slotsThrough (lens : Lens) : ∀ slots : List (Slot Behaviour),
    slotsDepth (slotsThrough lens slots) = slotsDepth slots
  | [] => rfl
  | s :: rest => by
    rw [slotsThrough, slotsDepth, slotsDepth, depth_through lens s.node.behaviour,
      slotsDepth_slotsThrough lens rest]

end

end Behaviour

theorem Net.slotsDepth_eq_of_form_eq {g k : Net} (h : through .form k = through .form g) :
    Behaviour.slotsDepth k.slots = Behaviour.slotsDepth g.slots := by
  have hdepth : ∀ j : Net, Behaviour.slotsDepth (through .form j).slots =
      Behaviour.slotsDepth j.slots := by
    intro j
    rw [← Behaviour.slotsDepth_slotsThrough .form j.slots, Behaviour.slotsThrough_eq_map, through]
  rw [← hdepth k, h, hdepth]

/-! ## Live nets and nodes -/

/-- A net is ready to be executed by the nodes down to a level, and all of its nodes are built-in. -/
structure Net.IsLive (level : Nat) (g : Net) : Prop where
  /-- It is coherent. -/
  coherent : g.Coherent
  /-- It is ready. -/
  isReady : g.isReady = true
  /-- It is no deeper than the level. -/
  depth : Behaviour.slotsDepth g.slots ≤ level
  /-- Its nodes are built-in. -/
  isBuiltin : g.IsBuiltin

/-- A node of such a net. -/
structure Node.IsLive (level : Nat) (n : Node Behaviour) : Prop where
  /-- The net in it is ready. -/
  soundAt : n.behaviour.SoundAt level true
  /-- It is built-in. -/
  isBuiltin : n.IsBuiltin

theorem Node.IsBuiltin.declares {n : Node Behaviour} {op : Operation} (h : n.IsBuiltin)
    (hb : n.behaviour = .operation op) : op.Declares n.panel := by
  cases h with
  | operation hb' h => exact Behaviour.operation.inj (hb.symm.trans hb') ▸ h
  | nested hb' _ _ => exact absurd (hb.symm.trans hb') (by simp)

theorem Node.IsBuiltin.mirrors {n : Node Behaviour} {g : Net} {inputs outputs : List Endpoint}
    (h : n.IsBuiltin) (hb : n.behaviour = .nested g inputs outputs) :
    n.panel.Mirrors g inputs outputs ∧ g.IsBuiltin := by
  cases h with
  | operation hb' _ => exact absurd (hb.symm.trans hb') (by simp)
  | nested hb' h inner =>
    obtain ⟨rfl, rfl, rfl⟩ := Behaviour.nested.inj (hb.symm.trans hb')
    exact ⟨h, inner⟩

/-- A node that is put in the place of another one, with the same ports and the same inside. -/
theorem Node.IsLive.of_panel {level : Nat} {n : Node Behaviour} (h : n.IsLive level)
    {panel : Panel} (hp : ∀ side, (panel.ports side).map Port.declared =
      (n.panel.ports side).map Port.declared) : Node.IsLive level ⟨panel, n.behaviour⟩ :=
  ⟨h.soundAt, h.isBuiltin.congr hp rfl⟩

theorem Port.declared_supplied (links : List Link) (read : Endpoint → Option Packet)
    (node : String) (p : Port) : (p.supplied links read node).declared = p.declared := by
  rw [supplied]
  split <;> rfl

namespace Net.IsLive

variable {level : Nat} {g : Net}

theorem wellLinked (h : g.IsLive level) : g.WellLinked := (coherent_iff.mp h.coherent).1

theorem cached (h : g.IsLive level) : g.Cached := (coherent_iff.mp h.coherent).2.1

theorem plan (h : g.IsLive level) : g.plan = .ok g.schedule := h.cached.plan h.isReady

theorem node (h : g.IsLive level) {s : Slot Behaviour} (hs : s ∈ g.slots) :
    s.node.IsLive level := by
  have hsound := h.coherent.everyAt h.depth s hs
  rw [forall_initialized_iff.mpr (h.cached.flags h.isReady) s hs] at hsound
  exact ⟨hsound, h.isBuiltin s hs⟩

/-- A node that has its turn. -/
theorem supplied (h : g.IsLive level) {s : Slot Behaviour} (hs : s ∈ g.slots) (links : List Link)
    (read : Endpoint → Option Packet) : (s.supplied links read).IsLive level := by
  refine (h.node hs).of_panel fun side ↦ ?_
  cases side with
  | output => rfl
  | input =>
    refine List.map_map.trans (List.map_congr_left fun p _ ↦ ?_)
    exact Port.declared_supplied links read s.key p

theorem feedAll (h : g.IsLive level) (ports : List (Port × Endpoint)) :
    Net.IsLive level (Behaviour.feedAll ports g).2 where
  coherent := (h.coherent.feedAll h.depth ports).1
  isReady := (feedAll_agrees ports g).isReady.trans h.isReady
  depth := (h.coherent.feedAll h.depth ports).2
  isBuiltin := h.isBuiltin.congr (through_feedAll .form ports g)

theorem execute (h : g.IsLive level) (stamp : Nat) :
    Net.IsLive level (Graph.execute (Behaviour.life (level + 1)) g stamp).result.2 where
  coherent := (h.coherent.executeWith (Behaviour.keeps_life (level + 1))
    (Nat.le_succ_of_le h.depth) stamp).1
  isReady := (agrees_execute (keepsOutline_life (level + 1)) g stamp).isReady.trans h.isReady
  depth := by
    rw [slotsDepth_eq_of_form_eq (form_execute (level + 1) g stamp)]
    exact h.depth
  isBuiltin := h.isBuiltin.congr (form_execute (level + 1) g stamp)

end Net.IsLive

/-! ## Taking over -/

/-- Each output takes over what the inner output holds that it stands for. -/
theorem Behaviour.takeOver_held {g : Net} (hg : g.WellLinked) (hb : g.IsBuiltin)
    {ports : List Port} {places : List Endpoint} (h : ports.length = places.length) :
    takeOver g ports places = List.zipWith (fun p e ↦ p.store (g.held e)) ports places := by
  have hheld : ∀ e, (g.port? .output e).bind Port.data = g.held e := by
    intro e
    rw [held]
    cases hp : g.port? .output e with
    | none => rfl
    | some p =>
      obtain ⟨s, hs, hmem, -⟩ := hg.exists_slot hp
      exact Port.data_of_output ((hb s hs).direction .output hmem)
  rw [takeOver_eq g h]
  simp only [hheld]

/-- What an output takes over from the net that the panel mirrors. -/
theorem Panel.Mirrors.takeOver {panel : Panel} {g : Net} {inputs outputs : List Endpoint}
    (h : panel.Mirrors g inputs outputs) (hg : g.WellLinked) (hb : g.IsBuiltin) {q : Port}
    (hq : q ∈ Behaviour.takeOver g panel.outputs outputs) :
    ∃ (e : Endpoint) (p : Port), g.port? .output e = some p ∧
      q.declared = p.declared.mirrored .output q.name ∧ q.stored = p.stored := by
  have hlength : panel.outputs.length = outputs.length := by
    rw [h.outputPlaces, List.length_map]
    exact (h.forall₂ .output).length_eq
  rw [Behaviour.takeOver_held hg hb hlength] at hq
  obtain ⟨i, hi⟩ := List.mem_iff_getElem?.mp hq
  rw [List.getElem?_zipWith_eq_some] at hi
  obtain ⟨r, e, hr, he, rfl⟩ := hi
  rw [h.outputPlaces] at he
  obtain ⟨o, ho, rfl⟩ := List.mem_map.mp (List.mem_of_getElem? he)
  obtain ⟨s, hs, p, hp, -, rfl⟩ := Net.openPorts_port o ho
  have hport := hg.port?_of_mem hs hp
  obtain ⟨r', hr', hdeclared⟩ := h.getElem? hg hport he
  obtain rfl : r = r' := Option.some.inj (hr.symm.trans hr')
  refine ⟨_, p, hport, hdeclared, ?_⟩
  rw [Port.store, held, hport, Option.bind_some]

/-! ## Executing a node that holds a net -/

/-- **Executing a node that holds a net**: the net is fed from the panel and executes, and if it
succeeds the outputs take over what it holds. -/
theorem Node.IsLive.execute_nested {level : Nat} {n : Node Behaviour} (hn : n.IsLive level)
    {g : Net} {inputs outputs : List Endpoint} (hb : n.behaviour = .nested g inputs outputs)
    (stamp : Nat) :
    ∃ inner fed, level = inner + 1 ∧ Net.IsLive inner fed ∧ n.panel.Feeds inputs fed ∧
      (∀ lens, Net.through lens fed = Net.through lens g) ∧
      ((∃ e k, (Graph.execute (Behaviour.life level) fed stamp).result = (.error e, k) ∧
          ((Behaviour.life (level + 1)).execute n stamp).result =
            (.error (.graph e), ⟨n.panel, .nested k inputs outputs⟩)) ∨
        ∃ k, (Graph.execute (Behaviour.life level) fed stamp).result = (.ok (), k) ∧
          Net.IsLive inner k ∧ n.panel.Mirrors k inputs outputs ∧
          ((Behaviour.life (level + 1)).execute n stamp).result =
            (.ok (), ⟨{ n.panel with outputs := Behaviour.takeOver k n.panel.outputs outputs },
              .nested k inputs outputs⟩)) := by
  have hsound := hn.soundAt
  rw [hb] at hsound
  obtain ⟨inner, rfl⟩ : ∃ inner, level = inner + 1 := by
    cases level with
    | zero => exact absurd hsound.1 (by simp [Behaviour.depth])
    | succ inner => exact ⟨inner, rfl⟩
  obtain ⟨hcoherent, hdepth, hready⟩ := hsound.of_nested
  obtain ⟨hmirrors, hbuiltin⟩ := hn.isBuiltin.mirrors hb
  have hlive : Net.IsLive inner g := ⟨hcoherent, hready rfl, hdepth, hbuiltin⟩
  obtain ⟨hok, hfeeds⟩ := hmirrors.feeds hlive.wellLinked
  have hfed := hlive.feedAll (n.panel.inputs.zip inputs)
  have hseen := fun lens ↦ Net.through_feedAll lens (n.panel.inputs.zip inputs) g
  refine ⟨inner, _, rfl, hfed, hfeeds, hseen, ?_⟩
  rw [Behaviour.execute_nested hb]
  rcases Behaviour.executeNested_fed (Behaviour.life (inner + 1)) hok stamp with
    hfail | ⟨k, hrun, heq⟩
  · exact .inl hfail
  · have hk := hfed.execute stamp
    have hform' := Net.form_execute (inner + 1) (Behaviour.feedAll (n.panel.inputs.zip inputs) g).2
      stamp
    rw [hrun] at hk hform'
    exact .inr ⟨k, hrun, hk, hmirrors.congr (fun _ ↦ rfl) (hform'.trans (hseen .form)), heq⟩

end PortGraph
