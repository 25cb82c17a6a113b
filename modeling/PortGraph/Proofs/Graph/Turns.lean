import PortGraph.Proofs.Graph.Compiled
import PortGraph.Proofs.Graph.Passes

/-!
# What happens in a turn

A turn of a pass pulls along the links that end at its node, and then calls the node.  Here the
positions of a schedule are turned into what they stand for.

* The pulls of a turn hand the node over with what the sources of its links hold
  (`WellLinked.foldl_applyPull`): `Slot.supplied` says which node this is.
* A pass makes a list of `Run`s, one for each turn up to the first failure.  `Graph.Passed` says
  what was handed over in each of them and what became of it (`WellLinked.passed_execute`).  As
  every link leads from an earlier turn to a later one, the sources of its links hold for good what
  they hold when a node has its turn.
-/

set_option autoImplicit false

namespace PortGraph

theorem exists_of_forall₂ {α γ : Type} {R : α → γ → Prop} {l : List α} {l' : List γ}
    (h : List.Forall₂ R l l') : ∀ b ∈ l', ∃ a ∈ l, R a b := by
  induction h with
  | nil => simp
  | cons hab _ ih =>
    rw [List.forall_mem_cons]
    exact ⟨⟨_, List.mem_cons_self, hab⟩, fun b hb ↦
      (ih b hb).imp fun _ ha ↦ ⟨List.mem_cons_of_mem _ ha.1, ha.2⟩⟩

theorem exists_of_forall₂_left {α γ : Type} {R : α → γ → Prop} {l : List α} {l' : List γ}
    (h : List.Forall₂ R l l') : ∀ a ∈ l, ∃ b, R a b := fun a ha ↦
  (exists_of_forall₂ (List.Forall₂.flip (R := flip R) h) a ha).imp fun _ hb ↦ hb.2

/-! ## What arrives at a node -/

/-- The input of a node after what there is to read at the source of its link arrived; an input
without a link stays as it is. -/
def Port.supplied (links : List Link) (read : Endpoint → Option Packet) (node : String)
    (p : Port) : Port :=
  match links.find? (fun l ↦ l.target = ⟨node, p.name⟩) with
  | some l => p.store (read l.source)
  | none => p

/-- The node of a place after what there is to read arrived at its inputs. -/
def Slot.supplied {β : Type} (links : List Link) (read : Endpoint → Option Packet) (s : Slot β) :
    Node β :=
  s.node.mapPanel fun panel ↦
    { panel with inputs := panel.inputs.map (Port.supplied links read s.key) }

namespace Port

variable {links : List Link} {read read' : Endpoint → Option Packet} {node : String}

theorem store_supplied (links : List Link) (read : Endpoint → Option Packet) (node : String)
    (p : Port) (packet : Option Packet) :
    (p.supplied links read node).store packet = p.store packet := by
  rw [supplied]
  split <;> rfl

@[simp] theorem supplied_name (links : List Link) (read : Endpoint → Option Packet)
    (node : String) (p : Port) : (p.supplied links read node).name = p.name := by
  rw [← store_name _ none, store_supplied, store_name]

@[simp] theorem isLinked_supplied (links : List Link) (read : Endpoint → Option Packet)
    (node : String) (p : Port) : (p.supplied links read node).isLinked = p.isLinked := by
  rw [supplied]
  split <;> rfl

theorem supplied_cons (l : Link) (links : List Link) (read : Endpoint → Option Packet)
    (node : String) (p : Port) : p.supplied (l :: links) read node =
      if l.target = ⟨node, p.name⟩ then p.store (read l.source)
      else p.supplied links read node := by
  by_cases h : l.target = ⟨node, p.name⟩
  · rw [supplied, List.find?_cons_of_pos (by simpa using h), if_pos h]
  · rw [supplied, List.find?_cons_of_neg (by simpa using h), if_neg h, supplied]

theorem supplied_of_notMem {p : Port} (h : ∀ l ∈ links, l.target ≠ ⟨node, p.name⟩) :
    p.supplied links read node = p := by
  rw [supplied, List.find?_eq_none.mpr (by simpa using h)]

theorem supplied_congr {p : Port}
    (h : ∀ l ∈ links, l.target.node = node → read l.source = read' l.source) :
    p.supplied links read node = p.supplied links read' node := by
  induction links with
  | nil => rfl
  | cons l links ih =>
    obtain ⟨hl, hlinks⟩ := List.forall_mem_cons.mp h
    rw [supplied_cons, supplied_cons, ih hlinks]
    split
    · rename_i ht
      rw [hl (congrArg Endpoint.node ht)]
    · rfl

/-- Only the links that end at the node matter. -/
theorem supplied_filter {test : Link → Bool}
    (h : ∀ l ∈ links, l.target.node = node → test l = true) (p : Port) :
    p.supplied (links.filter test) read node = p.supplied links read node := by
  induction links with
  | nil => rfl
  | cons l links ih =>
    obtain ⟨hl, hlinks⟩ := List.forall_mem_cons.mp h
    rw [List.filter_cons, supplied_cons]
    split
    · rw [supplied_cons, ih hlinks]
    · rename_i htest
      rw [if_neg fun ht ↦ htest (hl (congrArg Endpoint.node ht)), ih hlinks]

/-- Where at most one link ends, it does not matter which one is found first. -/
theorem supplied_of_mem {p : Port} {l : Link}
    (honce : links.countP (fun l ↦ l.target = ⟨node, p.name⟩) ≤ 1) (hl : l ∈ links)
    (ht : l.target = ⟨node, p.name⟩) :
    p.supplied links read node = p.store (read l.source) := by
  induction links with
  | nil => exact absurd hl (by simp)
  | cons k links ih =>
    rw [supplied_cons]
    rw [List.countP_cons] at honce
    rcases List.mem_cons.mp hl with rfl | hl
    · rw [if_pos ht]
    · have hpos : 0 < links.countP (fun l ↦ l.target = ⟨node, p.name⟩) :=
        List.countP_pos_iff.mpr ⟨l, hl, decide_eq_true ht⟩
      by_cases hk : k.target = ⟨node, p.name⟩
      · simp only [hk, decide_true, if_true] at honce
        omega
      · rw [if_neg hk]
        exact ih (by omega) hl

/-- What a link supplies counts as what there is to read. -/
theorem data_of_isLinked {p : Port} (h : p.isLinked = true) : p.data = p.stored := by
  rw [data, isSatisfied, h]
  cases p.direction <;> rfl

theorem data_store_of_isLinked {p : Port} (h : p.isLinked = true) (packet : Option Packet) :
    (p.store packet).data = packet :=
  data_of_isLinked (p := p.store packet) h

end Port

namespace Slot

variable {β : Type} {links : List Link} {read read' : Endpoint → Option Packet}

theorem supplied_nil (s : Slot β) : s.supplied [] read = s.node := by
  have hinputs : s.node.panel.inputs.map (Port.supplied [] read s.key) = s.node.panel.inputs :=
    (List.map_congr_left fun p _ ↦ Port.supplied_of_notMem (by simp)).trans (List.map_id _)
  rw [supplied, Node.mapPanel, hinputs]

theorem supplied_congr {s : Slot β}
    (h : ∀ l ∈ links, l.target.node = s.key → read l.source = read' l.source) :
    s.supplied links read = s.supplied links read' := by
  have hinputs : s.node.panel.inputs.map (Port.supplied links read s.key) =
      s.node.panel.inputs.map (Port.supplied links read' s.key) :=
    List.map_congr_left fun p _ ↦ Port.supplied_congr h
  rw [supplied, supplied, Node.mapPanel, Node.mapPanel, hinputs]

/-- Only the links that end at the node matter. -/
theorem supplied_filter {s : Slot β} {test : Link → Bool}
    (h : ∀ l ∈ links, l.target.node = s.key → test l = true) :
    s.supplied (links.filter test) read = s.supplied links read := by
  have hinputs : s.node.panel.inputs.map (Port.supplied (links.filter test) read s.key) =
      s.node.panel.inputs.map (Port.supplied links read s.key) :=
    List.map_congr_left fun p _ ↦ Port.supplied_filter h p
  rw [supplied, supplied, Node.mapPanel, Node.mapPanel, hinputs]

@[simp] theorem name_supplied (links : List Link) (read : Endpoint → Option Packet) (s : Slot β) :
    (s.supplied links read).name = s.node.name := rfl

@[simp] theorem behaviour_supplied (links : List Link) (read : Endpoint → Option Packet)
    (s : Slot β) : (s.supplied links read).behaviour = s.node.behaviour := rfl

@[simp] theorem outputs_supplied (links : List Link) (read : Endpoint → Option Packet)
    (s : Slot β) : (s.supplied links read).panel.outputs = s.node.panel.outputs := rfl

theorem outline_supplied (links : List Link) (read : Endpoint → Option Packet) (s : Slot β) :
    (s.supplied links read).panel.outline = s.node.panel.outline := by
  have hports : (s.node.panel.inputs.map (Port.supplied links read s.key)).map (·.store none) =
      (s.node.panel.ports .input).map (·.store none) := by
    rw [List.map_map]
    exact List.map_congr_left fun p _ ↦ Port.store_supplied links read s.key p none
  exact Panel.outline_withPorts_of_map hports

theorem port?_supplied (links : List Link) (read : Endpoint → Option Packet) (s : Slot β)
    (name : String) : (s.supplied links read).panel.port? .input name =
      (s.node.panel.port? .input name).map (Port.supplied links read s.key) :=
  Port.named?_map fun p ↦ Port.supplied_name links read s.key p

end Slot

namespace Graph

variable {β : Type} {life : Lifecycle β} {g k : Graph β}

/-! ## The pulls of a turn -/

/-- What an output holds. -/
def held (g : Graph β) (e : Endpoint) : Option Packet := (g.port? .output e).bind Port.stored

theorem WellLinked.port?_of_mem (h : g.WellLinked) {s : Slot β} (hs : s ∈ g.slots)
    {side : Direction} {p : Port} (hp : p ∈ s.node.panel.ports side) :
    g.port? side ⟨s.key, p.name⟩ = some p :=
  (port?_eq_some_iff h.keys_nodup fun s hs ↦ (h.regular s hs).ports_nodup side).mpr
    ⟨s, hs, rfl, hp, rfl⟩

theorem WellLinked.input?_of_mem (h : g.WellLinked) {s : Slot β} (hs : s ∈ g.slots) {p : Port}
    (hp : p ∈ s.node.panel.inputs) : g.port? .input ⟨s.key, p.name⟩ = some p :=
  h.port?_of_mem hs (show p ∈ s.node.panel.ports .input from hp)

/-- Where a port is that was looked up. -/
theorem WellLinked.exists_slot (h : g.WellLinked) {side : Direction} {e : Endpoint} {p : Port}
    (hp : g.port? side e = some p) :
    ∃ s ∈ g.slots, p ∈ s.node.panel.ports side ∧ e = ⟨s.key, p.name⟩ := by
  obtain ⟨s, hs, hkey, hmem, hname⟩ :=
    (port?_eq_some_iff h.keys_nodup fun s hs ↦ (h.regular s hs).ports_nodup side).mp hp
  exact ⟨s, hs, hmem, by rw [hkey, hname]⟩

theorem WellLinked.node?_of_mem (h : g.WellLinked) {s : Slot β} (hs : s ∈ g.slots) :
    g.node? s.key = some s.node :=
  (node?_eq_some_iff h.keys_nodup).mpr hs

/-- The nodes of two places of one name are one. -/
theorem WellLinked.node_inj (h : g.WellLinked) {r s : Slot β} (hr : r ∈ g.slots) (hs : s ∈ g.slots)
    (hkey : r.key = s.key) : r.node = s.node :=
  Option.some.inj ((h.node?_of_mem hr).symm.trans (hkey ▸ h.node?_of_mem hs))

theorem WellLinked.exists_source (h : g.WellLinked) {l : Link} (hl : l ∈ g.links) :
    ∃ p, g.port? .output l.source = some p ∧ p.dataType = l.dataType ∧ p.isLinked = true := by
  obtain ⟨p, hp, ht, hcount⟩ := h.exists_port hl .output
  exact ⟨p, hp, ht, decide_eq_true hcount⟩

theorem WellLinked.exists_target (h : g.WellLinked) {l : Link} (hl : l ∈ g.links) :
    ∃ p, g.port? .input l.target = some p ∧ p.dataType = l.dataType ∧ p.isLinked = true := by
  obtain ⟨p, hp, ht, hcount⟩ := h.exists_port hl .input
  exact ⟨p, hp, ht, decide_eq_true hcount⟩

/-- **What is supplied to an input**: what its link brings, or what it held already. -/
theorem WellLinked.supplied_cases (h : g.WellLinked) {s : Slot β} (hs : s ∈ g.slots) {p : Port}
    (hp : p ∈ s.node.panel.inputs) (read : Endpoint → Option Packet) :
    (p.isLinked = true ∧ ∃ l ∈ g.links, l.target = ⟨s.key, p.name⟩ ∧ l.dataType = p.dataType ∧
      p.supplied g.links read s.key = p.store (read l.source)) ∨
    (p.isLinked = false ∧ p.supplied g.links read s.key = p) := by
  have hcount : p.linkCount = g.degree .input ⟨s.key, p.name⟩ := h.linkCount_eq hs hp
  cases hlinked : p.isLinked with
  | true =>
    have hpos : 0 < g.degree .input ⟨s.key, p.name⟩ := hcount ▸ of_decide_eq_true hlinked
    obtain ⟨l, hl, ht⟩ := List.countP_pos_iff.mp hpos
    have htarget : l.target = ⟨s.key, p.name⟩ := of_decide_eq_true ht
    obtain ⟨q, hq, htype, -⟩ := h.exists_target hl
    rw [htarget, h.port?_of_mem hs (show p ∈ s.node.panel.ports .input from hp)] at hq
    obtain rfl := Option.some.inj hq
    exact .inl ⟨rfl, l, hl, htarget, htype.symm, Port.supplied_of_mem (h.once _) hl htarget⟩
  | false =>
    refine .inr ⟨rfl, Port.supplied_of_notMem fun l hl ht ↦ ?_⟩
    have hzero : g.degree .input ⟨s.key, p.name⟩ = 0 := by
      rw [← hcount]
      simpa [Port.isLinked] using hlinked
    exact List.countP_eq_zero.mp hzero l hl (decide_eq_true ht)

theorem endpointAt_eq_some {side : Direction} {node i : Nat} {e : Endpoint}
    (h : g.endpointAt side node i = some e) : ∃ s p, g.slots[node]? = some s ∧
      (s.node.panel.ports side)[i]? = some p ∧ e = ⟨s.key, p.name⟩ := by
  obtain ⟨s, hs, h⟩ := Option.bind_eq_some_iff.mp h
  obtain ⟨p, hp, rfl⟩ := Option.map_eq_some_iff.mp h
  exact ⟨s, p, hs, hp, rfl⟩

/-- What a pull reads is what the source of its link holds. -/
theorem WellLinked.outputAt_eq_held (h : g.WellLinked) {node : Nat} {p : Pull} {l : Link}
    (hl : l ∈ g.links) (hd : g.Draws node p l) : g.outputAt p.source p.output = g.held l.source := by
  obtain ⟨s, q, hs, hq, he⟩ := endpointAt_eq_some hd.1
  have hport := h.port?_of_mem (List.mem_of_getElem? hs) (List.mem_of_getElem? hq)
  obtain ⟨q', hq', -, hlinked⟩ := h.exists_source hl
  rw [he, hport] at hq'
  obtain rfl := Option.some.inj hq'
  have houtput : s.node.panel.outputs[p.output]? = some q := hq
  rw [outputAt, hs, Option.bind_some, houtput, Option.bind_some, Port.data_of_isLinked hlinked,
    held, he, hport, Option.bind_some]

/-- The ports of a side are all that is looked up there. -/
theorem port?_of_map_eq {side : Direction}
    (h : k.slots.map (fun s ↦ (s.key, s.node.panel.ports side)) =
      g.slots.map fun s ↦ (s.key, s.node.panel.ports side)) (e : Endpoint) :
    k.port? side e = g.port? side e := by
  have hport : ∀ j : Graph β, j.port? side e =
      ((j.slots.map fun s ↦ (s.key, s.node.panel.ports side)).find? (fun o ↦ o.1 = e.node)).bind
        fun o ↦ Port.named? e.port o.2 := by
    intro j
    rw [port?, node?, List.find?_map, Option.bind_map, Option.bind_map]
    rfl
  rw [hport, h, hport]

theorem held_applyPull (node : Nat) (g : Graph β) (p : Pull) :
    (applyPull node g p).held = g.held := by
  funext e
  have houtputs : (applyPull node g p).slots.map (fun s ↦ (s.key, s.node.panel.ports .output)) =
      g.slots.map fun s ↦ (s.key, s.node.panel.ports .output) :=
    map_modify_of_eq fun _ _ ↦ rfl
  rw [held, held, port?_of_map_eq houtputs]

theorem setNodeAt_self {i : Nat} {s : Slot β} (hs : g.slots[i]? = some s) :
    g.setNodeAt i s.node = g := by
  have hslots : g.slots.modify i (·.mapNode fun _ ↦ s.node) = g.slots := by
    refine List.ext_getElem? fun j ↦ ?_
    rw [List.getElem?_modify]
    split
    · rename_i hij
      rw [← hij, hs]
      rfl
    · simp
  rw [setNodeAt, hslots]

theorem setNodeAt_applyPull (i : Nat) (g : Graph β) (p : Pull) (n : Node β) :
    (applyPull i g p).setNodeAt i n = g.setNodeAt i n := by
  rw [setNodeAt, applyPull, setNodeAt]
  dsimp only
  rw [List.modify_modify_eq]
  rfl

theorem setNodeAt_setNodeAt (i : Nat) (g : Graph β) (m n : Node β) :
    (g.setNodeAt i m).setNodeAt i n = g.setNodeAt i n := by
  rw [setNodeAt, setNodeAt, setNodeAt]
  dsimp only
  rw [List.modify_modify_eq]
  rfl

/-- What is pulled along the first link, and what the others supply then. -/
theorem supplied_pull {s : Slot β} {l : Link} {links : List Link} {i : Nat} {p : Port}
    {read : Endpoint → Option Packet} (hnd : (s.node.panel.inputs.map Port.name).Nodup)
    (hp : s.node.panel.inputs[i]? = some p) (ht : l.target = ⟨s.key, p.name⟩)
    (hnew : ∀ k ∈ links, k.target ≠ l.target) :
    (s.mapNode (·.mapPanel (·.modifyPortAt .input i (·.store (read l.source))))).supplied links
      read = s.supplied (l :: links) read := by
  have hinputs : (s.node.panel.inputs.modify i (·.store (read l.source))).map
      (Port.supplied links read s.key) =
      s.node.panel.inputs.map (Port.supplied (l :: links) read s.key) := by
    refine List.ext_getElem? fun j ↦ ?_
    rw [List.getElem?_map, List.getElem?_modify, List.getElem?_map]
    -- at the position of the pull nothing is left for the other links to write
    by_cases hij : i = j
    · obtain rfl := hij
      have hstored : (p.store (read l.source)).supplied links read s.key =
          p.supplied (l :: links) read s.key := by
        rw [Port.supplied_cons, if_pos ht, Port.supplied_of_notMem]
        intro k hk
        rw [Port.store_name, ← ht]
        exact hnew k hk
      simp [hp, hstored]
    · cases hq : s.node.panel.inputs[j]? with
      | none => rfl
      | some q =>
        have hne : l.target ≠ ⟨s.key, q.name⟩ := by
          intro hl
          have hname : p.name = q.name := (Endpoint.mk.inj (ht.symm.trans hl)).2
          have hlt : i < (s.node.panel.inputs.map Port.name).length := by
            rw [List.length_map]
            exact (List.getElem?_eq_some_iff.mp hp).1
          refine hij ((List.getElem?_inj hlt hnd).mp ?_)
          rw [List.getElem?_map, List.getElem?_map, hp, hq, Option.map_some, Option.map_some, hname]
        simp [hij, Port.supplied_cons, hne]
  rw [Slot.supplied, Slot.supplied, Slot.mapNode, Node.mapPanel, Node.mapPanel, Node.mapPanel]
  exact congrArg (fun inputs ↦ (⟨{ s.node.panel with inputs }, s.node.behaviour⟩ : Node β)) hinputs

/-- **The pulls of a turn hand its node over with what the sources of its links hold.** -/
theorem WellLinked.foldl_applyPull (h : g.WellLinked) {i : Nat} {s : Slot β}
    (hs : g.slots[i]? = some s) {pulls : List Pull} {links : List Link}
    (hlinks : links.Sublist g.links) (hd : List.Forall₂ (g.Draws i) pulls links) :
    pulls.foldl (applyPull i) g = g.setNodeAt i (s.supplied links g.held) := by
  induction pulls generalizing g s links with
  | nil =>
    cases hd
    rw [List.foldl_nil, Slot.supplied_nil, setNodeAt_self hs]
  | cons p pulls ih =>
    cases hd with
    | @cons _ l _ links hp hd =>
    have hl : l ∈ g.links := hlinks.subset List.mem_cons_self
    obtain ⟨s', q, hs', hq, ht⟩ := endpointAt_eq_some hp.2
    obtain rfl : s = s' := Option.some.inj (hs.symm.trans hs')
    -- an input has one link at most, so no later pull writes on it again
    have hnew : ∀ k ∈ links, k.target ≠ l.target := by
      intro k hk heq
      have honce := (hlinks.countP_le (p := fun k ↦ k.target = l.target)).trans (h.once l.target)
      have hpos : 0 < links.countP (fun k ↦ k.target = l.target) :=
        List.countP_pos_iff.mpr ⟨k, hk, decide_eq_true heq⟩
      rw [List.countP_cons_of_pos (by simp)] at honce
      omega
    have hskeleton := (agrees_applyPull i g p).skeleton
    have hslot : (applyPull i g p).slots[i]? = some (s.mapNode
        (·.mapPanel (·.modifyPortAt .input p.input (·.store (g.held l.source))))) := by
      rw [applyPull]
      dsimp only
      rw [List.getElem?_modify, hs, h.outputAt_eq_held hl hp]
      simp
    have hrest := ih (h.of_skeleton_eq hskeleton) hslot
      ((List.sublist_cons_self l links).trans hlinks) (draws_of_skeleton_eq hskeleton ▸ hd)
    rw [List.foldl_cons, hrest, held_applyPull, setNodeAt_applyPull,
      supplied_pull ((h.regular s (List.mem_of_getElem? hs)).ports_nodup .input) hq ht hnew]

/-! ## Putting a node back -/

/-- The node at a position is the one of its name. -/
theorem setNodeAt_eq_modifyNode (hnd : g.nodeNames.Nodup) {i : Nat} {s : Slot β}
    (hs : g.slots[i]? = some s) (n : Node β) :
    g.setNodeAt i n = g.modifyNode s.key fun _ ↦ n := by
  have hslots : g.slots.modify i (·.mapNode fun _ ↦ n) =
      g.slots.map fun r ↦ if r.key = s.key then r.mapNode fun _ ↦ n else r := by
    refine List.ext_getElem? fun j ↦ ?_
    rw [List.getElem?_modify, List.getElem?_map]
    cases hr : g.slots[j]? with
    | none => rfl
    | some r =>
      have hiff : i = j ↔ r.key = s.key := by
        constructor
        · rintro rfl
          rw [Option.some.inj (hr.symm.trans hs)]
        · intro hkey
          have hlt : i < g.nodeNames.length := by
            rw [nodeNames, List.length_map]
            exact (List.getElem?_eq_some_iff.mp hs).1
          refine (List.getElem?_inj hlt hnd).mp ?_
          rw [nodeNames, List.getElem?_map, List.getElem?_map, hs, hr, Option.map_some,
            Option.map_some, hkey]
      simp [hiff]
  rw [setNodeAt, hslots, modifyNode]

theorem held_setNodeAt_of_ne (hnd : g.nodeNames.Nodup) {i : Nat} {s : Slot β}
    (hs : g.slots[i]? = some s) (n : Node β) {e : Endpoint} (he : e.node ≠ s.key) :
    (g.setNodeAt i n).held e = g.held e := by
  rw [held, port?, setNodeAt_eq_modifyNode hnd hs, node?_modifyNode, if_neg he, held, port?]

theorem getElem?_setNodeAt {i : Nat} {s : Slot β} (hs : g.slots[i]? = some s) (n : Node β)
    (j : Nat) : (g.setNodeAt i n).slots[j]? = if i = j then some ⟨s.key, n⟩ else g.slots[j]? := by
  rw [setNodeAt]
  dsimp only
  rw [List.getElem?_modify]
  split
  · rename_i hij
    rw [← hij, hs]
    rfl
  · simp

end Graph

/-! ## The calls of a pass -/

/-- Whether something that happened is the call of a node. -/
def Event.isCall : Event → Bool
  | .call .. => true
  | _ => false

/-- A node that is called to execute. -/
structure Run (β : Type) where
  /-- The node as it is handed over. -/
  node : Node β
  /-- The next free stamp. -/
  stamp : Nat

namespace Run

variable {β : Type}

/-- What the node replies. -/
def reply (life : Lifecycle β) (r : Run β) : Reply NodeError (Node β) Unit :=
  (life.execute r.node r.stamp).result

/-- What is seen of the call. -/
def event (life : Lifecycle β) (r : Run β) : Event :=
  .call r.node.name .execute (r.reply life).succeeded (life.execute r.node r.stamp).events

end Run

namespace Graph

variable {β : Type} {life : Lifecycle β} {g j k : Graph β}

/-- In its turn a node of `g` succeeded on what its links supply in `k`, where it was put back. -/
def Settled (life : Lifecycle β) (g k : Graph β) (t : Step) (r : Run β) : Prop :=
  ∃ s, g.slots[t.node]? = some s ∧ r.node = s.supplied g.links k.held ∧
    (r.reply life).1 = .ok () ∧ k.slots[t.node]? = some ⟨s.key, (r.reply life).2⟩

/-- **How a pass over `g` went** that came to `k`: which nodes ran, and what the result was. -/
inductive Passed (life : Lifecycle β) (g k : Graph β) : List (Run β) → Except GraphError Unit → Prop
  /-- Every node succeeded. -/
  | complete {runs : List (Run β)} (h : List.Forall₂ (Settled life g k) g.schedule runs) :
      Passed life g k runs (.ok ())
  /-- A node failed, and those behind it had no turn. -/
  | broken {before after : List Step} {t : Step} {runs : List (Run β)} {r : Run β} {s : Slot β}
      {e : NodeError} (hschedule : g.schedule = before ++ t :: after)
      (h : List.Forall₂ (Settled life g k) before runs) (hs : g.slots[t.node]? = some s)
      (hr : r.node = s.supplied g.links k.held) (he : (r.reply life).1 = .error e)
      (hk : k.slots[t.node]? = some ⟨s.key, (r.reply life).2⟩)
      (hafter : ∀ u ∈ after, k.slots[u.node]? = g.slots[u.node]?) :
      Passed life g k (runs ++ [r])
        (.error (.executionFailed s.key (r.reply life).2.typeName e))

/-- The names of the nodes in the order of a graph, where its schedule is split. -/
theorem order_of_schedule_eq {before after : List Step} {t : Step} {name : String}
    (h : g.schedule = before ++ t :: after) (ht : g.nodeNames[t.node]? = some name) :
    g.order = g.namesAt (before.map Step.node) ++ name :: g.namesAt (after.map Step.node) := by
  rw [order, h, namesAt_eq, namesAt_eq, namesAt_eq, List.map_append, List.map_cons,
    List.filterMap_append, List.filterMap_cons_some ht]

/-- Every link into a node that has its turn comes from one that had its turn before. -/
theorem WellLinked.source_before (h : g.WellLinked) (hp : g.plan = .ok g.schedule)
    {before after : List Step} {t : Step} (hschedule : g.schedule = before ++ t :: after)
    {l : Link} (hl : l ∈ g.links) (ht : g.nodeNames[t.node]? = some l.target.node) :
    ∃ u ∈ before, g.nodeNames[u.node]? = some l.source.node := by
  obtain ⟨hperm, hforward⟩ := h.isOrder_order hp
  have horder := order_of_schedule_eq hschedule ht
  have hnew : l.target.node ∉ g.namesAt (before.map Step.node) := by
    have hnd := hperm.nodup_iff.mpr h.keys_nodup
    rw [horder] at hnd
    exact fun hm ↦ (List.nodup_append.mp hnd).2.2 _ hm _ List.mem_cons_self rfl
  have hlt := hforward _ _ ⟨l, hl, rfl, rfl⟩
  have hmem : l.source.node ∈ g.namesAt (before.map Step.node) := by
    by_contra hno
    rw [horder, List.idxOf_append_of_notMem hnew, List.idxOf_append_of_notMem hno,
      List.idxOf_cons_self] at hlt
    omega
  rw [namesAt_eq, List.mem_filterMap] at hmem
  obtain ⟨i, hi, hname⟩ := hmem
  obtain ⟨u, hu, rfl⟩ := List.mem_map.mp hi
  exact ⟨u, hu, hname⟩

/-- No link leads back from a node that has its turn into one that had its turn before, or into
itself. -/
theorem WellLinked.source_ne (h : g.WellLinked) (hp : g.plan = .ok g.schedule)
    {before after : List Step} {t u : Step} (hschedule : g.schedule = before ++ t :: after)
    (hu : u ∈ before ++ [t]) {l : Link} (hl : l ∈ g.links)
    (hlu : g.nodeNames[u.node]? = some l.target.node) {name : String}
    (hname : g.nodeNames[t.node]? = some name) : l.source.node ≠ name := by
  obtain ⟨b, c, hsplit⟩ := List.append_of_mem hu
  have hwhole : g.schedule = b ++ u :: (c ++ after) := by
    rw [hschedule, ← List.singleton_append, ← List.append_assoc, hsplit, List.append_assoc,
      List.cons_append]
  obtain ⟨w, hw, hsource⟩ := h.source_before hp hwhole hl hlu
  rintro rfl
  have hlt : w.node < g.nodeNames.length := (List.getElem?_eq_some_iff.mp hsource).1
  have hnode : w.node = t.node :=
    (List.getElem?_inj hlt h.keys_nodup).mp (hsource.trans hname.symm)
  have hnodes : ((before ++ [t]).map Step.node).Nodup := by
    have hall := (h.map_node_of_plan hp).2.nodup_iff.mpr List.nodup_range
    rw [hschedule, ← List.singleton_append, ← List.append_assoc, List.map_append] at hall
    exact hall.of_append_left
  -- what stands before `u` stands before `t`, which has one turn only
  have hearlier : w ∈ before := by
    have hlast : (b ++ u :: c).dropLast = before := by rw [← hsplit, List.dropLast_concat]
    rw [← hlast, List.dropLast_append_of_ne_nil (List.cons_ne_nil u c)]
    exact List.mem_append_left _ hw
  rw [List.map_append, List.map_singleton] at hnodes
  exact (List.nodup_append.mp hnodes).2.2 _ (List.mem_map_of_mem hearlier) _
    (List.mem_singleton_self _) hnode

/-- The pulls of a turn, on a graph that came about by calls. -/
theorem WellLinked.foldl_turn (h : g.WellLinked) (hp : g.plan = .ok g.schedule)
    (hskeleton : j.skeleton = g.skeleton) {t : Step} (ht : t ∈ g.schedule) {s : Slot β}
    (hs : j.slots[t.node]? = some s) : t.pulls.foldl (applyPull t.node) j =
      j.setNodeAt t.node (s.supplied g.links j.held) := by
  have hname : g.nodeNames[t.node]? = some s.key := by
    rw [← nodeNames_of_skeleton_eq hskeleton, getElem?_nodeNames hs]
  have hdraws := h.forall₂_draws hp ht
  rw [hname, ← draws_of_skeleton_eq hskeleton] at hdraws
  have hsub := List.filter_sublist (l := j.links) (p := fun l ↦ some s.key = some l.target.node)
  rw [links_of_skeleton_eq hskeleton] at hsub
  have hfold := (h.of_skeleton_eq hskeleton).foldl_applyPull hs
    (links_of_skeleton_eq hskeleton ▸ hsub) hdraws
  rwa [Slot.supplied_filter fun l _ ht ↦ by rw [ht]; exact decide_eq_true rfl] at hfold

/-- What comes of a turn, and what is seen of it. -/
theorem executeSteps_turn (life : Lifecycle β) {t : Step} (turns : List Step) {g : Graph β}
    {s : Slot β} (hs : (t.pulls.foldl (applyPull t.node) g).slots[t.node]? = some s)
    (stamp : Nat) {r : Run β} (hr : r = ⟨s.node, stamp⟩) {k : Graph β}
    (hk : k = (t.pulls.foldl (applyPull t.node) g).setNodeAt t.node (r.reply life).2) :
    ((r.reply life).1 = .ok () ∧ ∃ stamp',
      (executeSteps life (t :: turns) g stamp).result =
        (executeSteps life turns k stamp').result ∧
      (executeSteps life (t :: turns) g stamp).events.filter Event.isCall =
        r.event life :: (executeSteps life turns k stamp').events.filter Event.isCall) ∨
    ∃ e, (r.reply life).1 = .error e ∧
      (executeSteps life (t :: turns) g stamp).result =
        (.error (.executionFailed s.key (r.reply life).2.typeName e), k) ∧
      (executeSteps life (t :: turns) g stamp).events.filter Event.isCall = [r.event life] := by
  subst hr hk
  rw [executeSteps, hs]
  have hcall : ∀ stamp, life.callExecute s.node stamp =
      { life.execute s.node stamp with events := [(Run.mk s.node stamp).event life] } :=
    fun _ ↦ rfl
  cases hres : (Run.reply life ⟨s.node, stamp⟩).1 with
  | ok _ =>
    have hres' : (life.execute s.node stamp).result.1 = .ok () := hres
    refine .inl ⟨rfl, (life.execute s.node stamp).stamp, ?_, ?_⟩
    · simp only [Act.bind_apply, Act.log, Act.emit, hcall, hres']
      rfl
    · simp only [Act.bind_apply, Act.log, Act.emit, hcall, hres', List.filter_append]
      rfl
  | error e =>
    have hres' : (life.execute s.node stamp).result.1 = .error e := hres
    refine .inr ⟨e, rfl, ?_, ?_⟩
    · simp only [Act.bind_apply, Act.log, Act.emit, hcall, hres']
      rfl
    · simp only [Act.bind_apply, Act.log, Act.emit, hcall, hres', List.filter_append]
      rfl

/-- **Turns that were settled stay so** when the next node is put back. -/
theorem WellLinked.forall₂_settled (h : g.WellLinked) (hp : g.plan = .ok g.schedule)
    (hskeleton : j.skeleton = g.skeleton) {before after : List Step} {t : Step}
    (hschedule : g.schedule = before ++ t :: after) {s : Slot β}
    (hs : j.slots[t.node]? = some s) {runs : List (Run β)}
    (hbefore : List.Forall₂ (g.Settled life j) before runs) (n : Node β) :
    List.Forall₂ (g.Settled life (j.setNodeAt t.node n)) before runs := by
  have hnames : j.nodeNames = g.nodeNames := nodeNames_of_skeleton_eq hskeleton
  have hname : g.nodeNames[t.node]? = some s.key := by
    rw [← hnames, getElem?_nodeNames hs]
  have hnodes := (h.map_node_of_plan hp).2.nodup_iff.mpr List.nodup_range
  rw [hschedule, List.map_append, List.map_cons] at hnodes
  have hmem := (List.forall₂_and_left before runs).mpr ⟨fun _ hu ↦ hu, hbefore⟩
  refine hmem.imp fun u r ↦ ?_
  rintro ⟨hu, s', hs', hr, hok, hput⟩
  refine ⟨s', hs', ?_, hok, ?_⟩
  · rw [hr]
    refine Slot.supplied_congr fun l hl ht ↦ (held_setNodeAt_of_ne (hnames ▸ h.keys_nodup) hs n ?_).symm
    refine h.source_ne hp hschedule (List.mem_append_left _ hu) hl ?_ hname
    rw [getElem?_nodeNames hs', ht]
  · rw [getElem?_setNodeAt hs, if_neg, hput]
    exact fun heq ↦ (List.nodup_append.mp hnodes).2.2 _ (List.mem_map_of_mem hu) _
      List.mem_cons_self heq.symm

/-- **The turns of a graph that keeps to its plan**, from where those before were settled and those
behind had none yet. -/
theorem WellLinked.passed_executeSteps (h : g.WellLinked) (hp : g.plan = .ok g.schedule)
    (hk : life.KeepsOutline) {before turns : List Step} (hschedule : g.schedule = before ++ turns)
    (ha : g.Agrees j) {runs : List (Run β)} (hbefore : List.Forall₂ (g.Settled life j) before runs)
    (hturns : ∀ t ∈ turns, j.slots[t.node]? = g.slots[t.node]?) (stamp : Nat) :
    ∃ more, g.Passed life (executeSteps life turns j stamp).result.2 (runs ++ more)
        (executeSteps life turns j stamp).result.1 ∧
      (executeSteps life turns j stamp).events.filter Event.isCall = more.map (Run.event life) := by
  -- by induction on the turns that are left: those before stay settled, and the slots of those
  -- behind are as they were
  induction turns generalizing before j runs stamp with
  | nil =>
    rw [List.append_nil] at hschedule
    refine ⟨[], ?_, rfl⟩
    rw [List.append_nil]
    exact .complete (hschedule ▸ hbefore)
  | cons t turns ih =>
    have hmem : t ∈ g.schedule := hschedule ▸ List.mem_append_right _ List.mem_cons_self
    obtain ⟨s, hgs⟩ : ∃ s, g.slots[t.node]? = some s :=
      ⟨_, List.getElem?_eq_getElem (h.fits hp t hmem).1⟩
    have hjs : j.slots[t.node]? = some s := (hturns t List.mem_cons_self).trans hgs
    have hname : g.nodeNames[t.node]? = some s.key := getElem?_nodeNames hgs
    have hnames : j.nodeNames = g.nodeNames := nodeNames_of_skeleton_eq ha.skeleton
    have hfold := h.foldl_turn hp ha.skeleton hmem hjs
    have hpulled : (t.pulls.foldl (applyPull t.node) j).slots[t.node]? =
        some ⟨s.key, s.supplied g.links j.held⟩ := by
      rw [hfold, getElem?_setNodeAt hjs, if_pos rfl]
    obtain ⟨r, hr⟩ : ∃ r : Run β, r = ⟨s.supplied g.links j.held, stamp⟩ := ⟨_, rfl⟩
    obtain ⟨j', hj'⟩ : ∃ j', j' = j.setNodeAt t.node (r.reply life).2 := ⟨_, rfl⟩
    have hput : j' = (t.pulls.foldl (applyPull t.node) j).setNodeAt t.node (r.reply life).2 := by
      rw [hj', hfold, setNodeAt_setNodeAt]
    -- what the node left does not touch what it was handed over with
    have hnode : r.node = s.supplied g.links j'.held := by
      rw [hr, hj']
      refine Slot.supplied_congr fun l hl ht ↦
        (held_setNodeAt_of_ne (hnames ▸ h.keys_nodup) hjs _ ?_).symm
      refine h.source_ne hp hschedule (List.mem_append_right _ (List.mem_singleton_self t)) hl ?_
        hname
      rw [hname, ht]
    have hsettled := h.forall₂_settled hp ha.skeleton hschedule hjs hbefore (r.reply life).2
    rw [← hj'] at hsettled
    have hslot : j'.slots[t.node]? = some ⟨s.key, (r.reply life).2⟩ := by
      rw [hj', getElem?_setNodeAt hjs, if_pos rfl]
    have hlater : ∀ u ∈ turns, j'.slots[u.node]? = g.slots[u.node]? := by
      have hnodes := (h.map_node_of_plan hp).2.nodup_iff.mpr List.nodup_range
      rw [hschedule, List.map_append, List.map_cons] at hnodes
      have htail := (List.nodup_cons.mp (List.nodup_append.mp hnodes).2.1).1
      intro u hu
      have hne : t.node ≠ u.node := fun heq ↦ htail (heq ▸ List.mem_map_of_mem hu)
      rw [hj', getElem?_setNodeAt hjs, if_neg hne]
      exact hturns u (List.mem_cons_of_mem _ hu)
    have hagrees : g.Agrees j' := by
      have hout : (r.reply life).2.panel.outline = s.node.panel.outline := by
        rw [Run.reply, hk.execute, hr]
        exact s.outline_supplied g.links j.held
      rw [hj']
      exact ha.trans (agrees_setNodeAt hjs hout)
    rcases executeSteps_turn life turns hpulled stamp hr hput with
      ⟨hok, stamp', heq, hevents⟩ | ⟨e, herr, heq, hevents⟩
    · have hnext : g.schedule = (before ++ [t]) ++ turns := by
        rw [hschedule, List.append_assoc, List.singleton_append]
      have hall : List.Forall₂ (g.Settled life j') (before ++ [t]) (runs ++ [r]) :=
        List.rel_append hsettled (.cons ⟨s, hgs, hnode, hok, hslot⟩ .nil)
      obtain ⟨more, hpassed, hmore⟩ := ih hnext hagrees hall hlater stamp'
      refine ⟨r :: more, ?_, ?_⟩
      · rw [heq]
        rwa [List.append_assoc, List.singleton_append] at hpassed
      · rw [hevents, hmore, List.map_cons]
    · refine ⟨[r], ?_, hevents⟩
      rw [heq]
      exact Passed.broken (s := s) hschedule hsettled hgs hnode herr hslot hlater

/-- **How a pass over a graph that keeps to its plan went.** -/
theorem WellLinked.passed_execute (h : g.WellLinked) (hp : g.plan = .ok g.schedule)
    (hr : g.isReady = true) (hk : life.KeepsOutline) (stamp : Nat) :
    ∃ runs, g.Passed life (g.execute life stamp).result.2 runs (g.execute life stamp).result.1 ∧
      (g.execute life stamp).events.filter Event.isCall = runs.map (Run.event life) := by
  rw [execute, if_pos hr]
  exact h.passed_executeSteps hp hk (List.nil_append _).symm .rfl .nil (fun _ _ ↦ rfl) stamp

/-! ## Successful passes -/

theorem WellLinked.exists_turn (h : g.WellLinked) (hp : g.plan = .ok g.schedule) {s : Slot β}
    (hs : s ∈ g.slots) : ∃ t ∈ g.schedule, g.slots[t.node]? = some s := by
  obtain ⟨i, hi⟩ := List.mem_iff_getElem?.mp hs
  have hmem : i ∈ g.schedule.map Step.node := by
    refine (h.map_node_of_plan hp).2.symm.subset (List.mem_range.mpr ?_)
    exact (List.getElem?_eq_some_iff.mp hi).1
  obtain ⟨t, ht, rfl⟩ := List.mem_map.mp hmem
  exact ⟨t, ht, hi⟩

/-- **A successful pass, seen from a node**: it succeeded on what its links supply in the end. -/
theorem WellLinked.settled_of_ok (h : g.WellLinked) (hp : g.plan = .ok g.schedule)
    (hr : g.isReady = true) (hk : life.KeepsOutline) {stamp : Nat}
    (hok : (g.execute life stamp).result = (.ok (), k)) {s : Slot β} (hs : s ∈ g.slots) :
    ∃ stamp' n, (life.execute (s.supplied g.links k.held) stamp').result = (.ok (), n) ∧
      k.node? s.key = some n := by
  obtain ⟨runs, hpassed, -⟩ := h.passed_execute hp hr hk stamp
  have hskeleton := (agrees_execute hk g stamp).skeleton
  rw [hok] at hpassed hskeleton
  cases hpassed with
  | complete hsettled =>
    obtain ⟨t, ht, hi⟩ := h.exists_turn hp hs
    obtain ⟨r, s', hs', hnode, hreply, hput⟩ := exists_of_forall₂_left hsettled t ht
    obtain rfl : s = s' := Option.some.inj (hi.symm.trans hs')
    rw [← hnode]
    exact ⟨r.stamp, (r.reply life).2, Prod.ext hreply rfl,
      (h.of_skeleton_eq hskeleton).node?_of_mem (List.mem_of_getElem? hput)⟩

/-- Whatever the nodes are like that its links come from, as long as `Post` holds of them a node
succeeds, and `Post` holds of what it becomes. -/
def Progresses (life : Lifecycle β) (g : Graph β) (Post : String → Node β → Prop) : Prop :=
  ∀ s ∈ g.slots, ∀ k : Graph β, k.skeleton = g.skeleton →
    (∀ l ∈ g.links, l.target.node = s.key → ∀ n, k.node? l.source.node = some n →
      Post l.source.node n) →
    ∀ stamp, (life.execute (s.supplied g.links k.held) stamp).result.1 = .ok () ∧
      Post s.key (life.execute (s.supplied g.links k.held) stamp).result.2

section Progress

variable {Post : String → Node β → Prop} {before after : List Step}

/-- The sources of a node had their turns before it. -/
theorem Progresses.source (hg : g.WellLinked) (hp : g.plan = .ok g.schedule)
    (hbefore : ∀ t ∈ before, ∀ name, g.nodeNames[t.node]? = some name → ∀ n,
      k.node? name = some n → Post name n) {t : Step} (hschedule : g.schedule = before ++ t :: after)
    {s : Slot β} (hs : g.slots[t.node]? = some s) :
    ∀ l ∈ g.links, l.target.node = s.key → ∀ n, k.node? l.source.node = some n →
      Post l.source.node n := by
  intro l hl ht n hn
  have hname : g.nodeNames[t.node]? = some l.target.node := by
    rw [getElem?_nodeNames hs, ht]
  obtain ⟨u, hu, hsource⟩ := hg.source_before hp hschedule hl hname
  exact hbefore u hu _ hsource n hn

/-- What every node passes on holds of all that had their turn. -/
theorem Progresses.of_settled (h : Progresses life g Post) (hg : g.WellLinked)
    (hp : g.plan = .ok g.schedule) (hskeleton : k.skeleton = g.skeleton)
    (hschedule : g.schedule = before ++ after)
    (hbefore : ∀ t ∈ before, ∃ r, g.Settled life k t r) :
    ∀ t ∈ before, ∀ name, g.nodeNames[t.node]? = some name → ∀ n, k.node? name = some n →
      Post name n := by
  -- from the first turn on: the sources of a node had their turns before it
  induction before using List.reverseRecOn generalizing after with
  | nil => exact fun t ht ↦ absurd ht (by simp)
  | append_singleton before t ih =>
    rw [List.append_assoc, List.singleton_append] at hschedule
    have hsources := ih hschedule fun u hu ↦ hbefore u (List.mem_append_left _ hu)
    intro u hu name hname n hn
    rcases List.mem_append.mp hu with hu | hu
    · exact hsources u hu name hname n hn
    · obtain rfl := List.mem_singleton.mp hu
      obtain ⟨r, s, hs, hnode, hreply, hput⟩ := hbefore u (List.mem_append_right _ hu)
      have hslot := hg.of_skeleton_eq hskeleton |>.node?_of_mem (List.mem_of_getElem? hput)
      rw [getElem?_nodeNames hs, Option.some.injEq] at hname
      subst hname
      obtain rfl := Option.some.inj (hslot.symm.trans hn)
      rw [Run.reply, hnode]
      exact (h s (List.mem_of_getElem? hs) k hskeleton
        (Progresses.source hg hp hsources hschedule hs) _).2

/-- **If every node passes `Post` on, a pass succeeds, and `Post` holds of all nodes.** -/
theorem Progresses.execute (h : Progresses life g Post) (hg : g.WellLinked)
    (hp : g.plan = .ok g.schedule) (hr : g.isReady = true) (hk : life.KeepsOutline) (stamp : Nat) :
    (g.execute life stamp).result.1 = .ok () ∧
      ∀ s ∈ (g.execute life stamp).result.2.slots, Post s.key s.node := by
  obtain ⟨runs, hpassed, -⟩ := hg.passed_execute hp hr hk stamp
  have hskeleton := (agrees_execute hk g stamp).skeleton
  generalize (g.execute life stamp).result = reply at hpassed hskeleton ⊢
  obtain ⟨result, k⟩ := reply
  dsimp only at hpassed hskeleton ⊢
  cases hpassed with
  | complete hsettled =>
    refine ⟨rfl, fun s hs ↦ ?_⟩
    have hall := h.of_settled hg hp hskeleton (List.append_nil _).symm
      (exists_of_forall₂_left hsettled)
    have hname : s.key ∈ g.nodeNames := by
      rw [← nodeNames_of_skeleton_eq hskeleton]
      exact List.mem_map_of_mem hs
    obtain ⟨s', hs', hkey⟩ := List.mem_map.mp hname
    obtain ⟨t, ht, hi⟩ := hg.exists_turn hp hs'
    refine hall t ht _ ?_ _ ((hg.of_skeleton_eq hskeleton).node?_of_mem hs)
    rw [getElem?_nodeNames hi, hkey]
  | @broken before after t runs r s e hschedule hsettled hs hnode herr hput hafter =>
    have hsources := Progresses.source hg hp (h.of_settled hg hp hskeleton hschedule
      (exists_of_forall₂_left hsettled)) hschedule hs
    have hok := (h s (List.mem_of_getElem? hs) k hskeleton hsources r.stamp).1
    rw [← hnode] at hok
    exact absurd (hok.symm.trans herr) (by simp)

end Progress

end Graph
end PortGraph
