import PortGraph.Proofs.Graph.Edits

/-!
# What becomes of the ports when links come and go

A link that is made or removed changes the ports at its ends, which are looked up by name one after the
other.  `Graph.mapPorts` changes all ports at once, each by what its place is told to do, and so says
what becomes of every port and that nothing else is touched (`changeEnds_eq_mapPorts`).

Removing links one after the other comes to `Graph.without` them (`WellLinked.foldl_dropLink_eq`).  It
knows of no order: a port counts less by the number of links that it lost, and an input that lost one is
empty.
-/

set_option autoImplicit false

namespace PortGraph

variable {β : Type}

/-! ## Ports of a panel -/

/-- Where ports have different names, changing the first of a name changes all of that name. -/
theorem Port.modifyNamed_eq_map (name : String) (f : Port → Port) {ports : List Port}
    (hnd : (ports.map Port.name).Nodup) :
    modifyNamed name f ports = ports.map fun p ↦ if p.name = name then f p else p := by
  induction ports with
  | nil => rfl
  | cons p ports ih =>
    rw [List.map_cons, List.nodup_cons] at hnd
    rw [modifyNamed, List.map_cons]
    split
    · rename_i hp
      have hrest : ports.map (fun q ↦ if q.name = name then f q else q) = ports := by
        refine (List.map_congr_left fun q hq ↦ if_neg fun hqn ↦ hnd.1 ?_).trans (List.map_id _)
        exact hp.trans hqn.symm ▸ List.mem_map_of_mem hq
      rw [hrest]
    · rw [ih hnd.2]

namespace Panel

variable {panel : Panel} {f f' : Direction → Port → Port}

/-- Change every port, given its side. -/
def mapPorts (f : Direction → Port → Port) (panel : Panel) : Panel :=
  { panel with inputs := panel.inputs.map (f .input), outputs := panel.outputs.map (f .output) }

theorem mapPorts_mapPorts (f f' : Direction → Port → Port) (panel : Panel) :
    (panel.mapPorts f).mapPorts f' = panel.mapPorts fun side p ↦ f' side (f side p) := by
  rw [mapPorts, mapPorts, mapPorts]
  simp only [List.map_map]
  rfl

theorem mapPorts_congr (h : ∀ side, ∀ p ∈ panel.ports side, f side p = f' side p) :
    panel.mapPorts f = panel.mapPorts f' := by
  have hinputs : panel.inputs.map (f .input) = panel.inputs.map (f' .input) :=
    List.map_congr_left (h .input)
  have houtputs : panel.outputs.map (f .output) = panel.outputs.map (f' .output) :=
    List.map_congr_left (h .output)
  rw [mapPorts, mapPorts, hinputs, houtputs]

theorem mapPorts_id (panel : Panel) : panel.mapPorts (fun _ p ↦ p) = panel := by
  rw [mapPorts, List.map_id', List.map_id']

/-- Changing the port of a name leaves the others alone. -/
theorem modifyPort_eq_mapPorts {side : Direction} (hnd : ((panel.ports side).map Port.name).Nodup)
    (name : String) (f : Port → Port) : panel.modifyPort side name f =
      panel.mapPorts fun side' p ↦ if side' = side ∧ p.name = name then f p else p := by
  rw [modifyPort, Port.modifyNamed_eq_map name f hnd]
  cases side <;> simp [mapPorts, withPorts, ports]

end Panel

/-! ## Ports of a graph -/

/-- The place when every port is changed, given where it is found. -/
def Slot.mapPorts (f : Direction → Endpoint → Port → Port) (s : Slot β) : Slot β :=
  s.mapNode (·.mapPanel (·.mapPorts fun side p ↦ f side ⟨s.key, p.name⟩ p))

namespace Graph

variable {g : Graph β} {f f' : Direction → Endpoint → Port → Port}

/-- Change every port, given where it is found. -/
def mapPorts (f : Direction → Endpoint → Port → Port) (g : Graph β) : Graph β :=
  { g with slots := g.slots.map (·.mapPorts f) }

theorem mapPorts_mapPorts (hf : ∀ side e p, (f side e p).name = p.name)
    (f' : Direction → Endpoint → Port → Port) (g : Graph β) :
    (g.mapPorts f).mapPorts f' = g.mapPorts fun side e p ↦ f' side e (f side e p) := by
  have hslots : (g.slots.map (·.mapPorts f)).map (·.mapPorts f') =
      g.slots.map (·.mapPorts fun side e p ↦ f' side e (f side e p)) := by
    rw [List.map_map]
    refine List.map_congr_left fun s _ ↦ ?_
    have hpanel := s.node.panel.mapPorts_mapPorts (fun side p ↦ f side ⟨s.key, p.name⟩ p)
      fun side p ↦ f' side ⟨s.key, p.name⟩ p
    simp only [hf] at hpanel
    exact congrArg (fun panel ↦ s.mapNode fun n ↦ { n with panel }) hpanel
  exact congrArg (fun slots ↦ { g with slots }) hslots

/-- Where ports are found by distinct names, it does not matter what would be done elsewhere. -/
theorem mapPorts_congr (h : ∀ s ∈ g.slots, ∀ side, ∀ p ∈ s.node.panel.ports side,
    f side ⟨s.key, p.name⟩ p = f' side ⟨s.key, p.name⟩ p) : g.mapPorts f = g.mapPorts f' := by
  have hslots : g.slots.map (·.mapPorts f) = g.slots.map (·.mapPorts f') := by
    refine List.map_congr_left fun s hs ↦ ?_
    exact congrArg (fun panel ↦ s.mapNode fun n ↦ { n with panel }) (Panel.mapPorts_congr (h s hs))
  exact congrArg (fun slots ↦ { g with slots }) hslots

theorem mapPorts_id (g : Graph β) : g.mapPorts (fun _ _ p ↦ p) = g := by
  have hslots : g.slots.map (·.mapPorts fun _ _ p ↦ p) = g.slots := by
    refine (List.map_congr_left fun s _ ↦ ?_).trans g.slots.map_id
    exact congrArg (fun panel ↦ s.mapNode fun n ↦ { n with panel }) s.node.panel.mapPorts_id
  exact congrArg (fun slots ↦ { g with slots }) hslots

theorem node?_mapPorts (f : Direction → Endpoint → Port → Port) (g : Graph β) (name : String) :
    (g.mapPorts f).node? name = (g.node? name).map
      (·.mapPanel (·.mapPorts fun side p ↦ f side ⟨name, p.name⟩ p)) := by
  rw [node?, mapPorts, List.find?_map, node?, Option.map_map, Option.map_map]
  refine Option.map_congr fun s hs ↦ ?_
  have hkey := List.find?_some hs
  rw [Function.comp_apply] at hkey
  obtain rfl : s.key = name := of_decide_eq_true hkey
  rfl

/-- Changing the port at a place leaves those at other places alone. -/
theorem modifyPort_eq_mapPorts (h : ∀ s ∈ g.slots, s.Regular) (side : Direction) (e : Endpoint)
    (f : Port → Port) : g.modifyPort side e f =
      g.mapPorts fun side' e' p ↦ if side' = side ∧ e' = e then f p else p := by
  have hslots : (g.slots.map fun s ↦ if s.key = e.node then
      s.mapNode (·.mapPanel (·.modifyPort side e.port f)) else s) =
      g.slots.map (·.mapPorts fun side' e' p ↦ if side' = side ∧ e' = e then f p else p) := by
    refine List.map_congr_left fun s hs ↦ ?_
    have hplace : ∀ name, (⟨s.key, name⟩ : Endpoint) = e ↔ s.key = e.node ∧ name = e.port := by
      intro name
      cases e
      simp
    rw [Slot.mapPorts]
    simp only [hplace]
    split
    · rename_i hkey
      simp only [hkey, true_and]
      exact congrArg (fun panel ↦ s.mapNode fun n ↦ { n with panel })
        (Panel.modifyPort_eq_mapPorts ((h s hs).ports_nodup side) e.port f)
    · rename_i hkey
      simp only [hkey, false_and, and_false, if_false]
      exact congrArg (fun panel ↦ s.mapNode fun n ↦ { n with panel })
        s.node.panel.mapPorts_id.symm
  exact congrArg (fun slots ↦ { g with slots }) hslots

/-- What is done to the port at an end of a link, one end after the other. -/
theorem atEnd_place_eq (f : Port → Port) (l : Link) (side : Direction) (e : Endpoint) (p : Port) :
    (if e = l.place side then atEnd f side p else p) =
      if side = .output ∧ e = l.source then f p
      else if side = .input ∧ e = l.target then (f p).store none
      else p := by
  cases side with
  | input => simp only [atEnd, reduceCtorEq, false_and, true_and, if_false]; rfl
  | output => simp only [atEnd, reduceCtorEq, false_and, true_and, if_false]; rfl

/-- **What changes with a link are the ports at its ends.** -/
theorem changeEnds_eq_mapPorts (h : ∀ s ∈ g.slots, s.Regular) {f : Port → Port}
    (hf : ∀ p, (f p).name = p.name) (l : Link) : changeEnds f l g =
      g.mapPorts fun side e p ↦ if e = l.place side then atEnd f side p else p := by
  have hsource : ∀ side e p,
      (if side = Direction.output ∧ e = l.source then f p else p).name = p.name := by
    intro side e p
    split
    · exact hf p
    · rfl
  rw [changeEnds, modifyPort_eq_mapPorts (regular_modifyPort hf h), modifyPort_eq_mapPorts h,
    mapPorts_mapPorts hsource]
  refine mapPorts_congr fun s _ side p _ ↦ ?_
  rw [atEnd_place_eq]
  cases side <;> simp

/-! ## A link that is made -/

/-- **Putting a link in** changes the ports at its ends. -/
theorem insertLink_eq (h : ∀ s ∈ g.slots, s.Regular) (l : Link) : g.insertLink l =
    { (g.mapPorts fun side e p ↦ if e = l.place side then atEnd Port.attach side p else p).invalidate
      with links := g.links ++ [l] } := by
  rw [insertLink, changeEnds_eq_mapPorts h Port.attach_name]

/-- The link is found by its id if no other has it. -/
theorem link?_insertLink {l : Link} (hfresh : ∀ k ∈ g.links, k.id ≠ l.id) :
    (g.insertLink l).link? l.id = some l := by
  have hnone : g.links.find? (fun k ↦ k.id = l.id) = none :=
    List.find?_eq_none.mpr fun k hk ↦ by simpa using hfresh k hk
  rw [link?, insertLink, List.find?_append, hnone]
  simp

/-- **Taking the link out again** leaves nothing of it, but that its input is empty. -/
theorem dropLink_insertLink (h : ∀ s ∈ g.slots, s.Regular) {l : Link}
    (hfresh : ∀ k ∈ g.links, k.id ≠ l.id) :
    (g.insertLink l).dropLink l.id = (g.modifyPort .input l.target (·.store none)).invalidate := by
  have hlinks : (g.links ++ [l]).filter (fun k ↦ k.id ≠ l.id) = g.links := by
    rw [List.filter_append, List.filter_eq_self.mpr fun k hk ↦ decide_eq_true (hfresh k hk)]
    simp
  have hattach : ∀ side e (p : Port),
      (if e = l.place side then atEnd Port.attach side p else p).name = p.name := by
    intro side e p
    split
    · cases side <;> rfl
    · rfl
  -- a link that is taken out again leaves no trace but the value that it emptied
  have hback : ∀ side e (p : Port),
      (if e = l.place side then
        atEnd Port.detach side (if e = l.place side then atEnd Port.attach side p else p)
      else if e = l.place side then atEnd Port.attach side p else p) =
        if side = .input ∧ e = l.target then p.store none else p := by
    intro side e p
    split
    · rename_i he
      cases side with
      | input => rw [if_pos ⟨rfl, he⟩]; rfl
      | output => rw [if_neg fun hc ↦ absurd hc.1 (by decide)]; rfl
    · rename_i he
      refine (if_neg ?_).symm
      rintro ⟨rfl, hc⟩
      exact he hc
  have hregular : ∀ s ∈ ({ g.insertLink l with links := g.links } : Graph β).slots, s.Regular :=
    regular_changeEnds Port.attach_name h
  have hports : (g.insertLink l).dropLink l.id =
      changeEnds Port.detach l { g.insertLink l with links := g.links } := by
    rw [dropLink, link?_insertLink hfresh, ← hlinks]
    rfl
  rw [hports, changeEnds_eq_mapPorts hregular Port.detach_name, insertLink_eq h,
    modifyPort_eq_mapPorts h]
  simp only [← hback]
  exact congrArg invalidate (mapPorts_mapPorts hattach _ g)

/-! ## Links that are lost -/

end Graph

/-- The port when it loses some links.  An input is emptied with its link. -/
def Port.lose (side : Direction) (n : Nat) (p : Port) : Port :=
  { p with
    linkCount := p.linkCount - n
    stored := if side = .input ∧ 0 < n then none else p.stored }

namespace Port

@[simp] theorem lose_zero (side : Direction) (p : Port) : p.lose side 0 = p := by
  simp [lose]

theorem lose_lose (side : Direction) (m n : Nat) (p : Port) :
    (p.lose side m).lose side n = p.lose side (m + n) := by
  have hstored : (if side = .input ∧ 0 < n then none else
      if side = .input ∧ 0 < m then none else p.stored) =
      if side = .input ∧ 0 < m + n then none else p.stored := by
    rcases Nat.eq_zero_or_pos n with rfl | hn
    · simp
    · have hsum : 0 < m + n := Nat.add_pos_right m hn
      cases side <;> simp [hn, hsum]
  rw [lose, lose, lose, hstored, Nat.sub_sub]

theorem lose_one (side : Direction) (p : Port) :
    p.lose side 1 = Graph.atEnd Port.detach side p := by
  cases side <;> rfl

end Port

namespace Graph

variable {g : Graph β} {gone gone' : Link → Bool}

/-- How many links a port loses when some go. -/
def lost (gone : Link → Bool) (g : Graph β) (side : Direction) (e : Endpoint) : Nat :=
  (g.links.filter gone).countP fun l ↦ l.place side = e

/-- **The graph without some links**: of each that goes, the ports at its ends do not know any more. -/
def without (gone : Link → Bool) (g : Graph β) : Graph β :=
  { g.mapPorts fun side e p ↦ p.lose side (g.lost gone side e) with
    links := g.links.filter (!gone ·) }

theorem without_congr (h : ∀ l ∈ g.links, gone l = gone' l) : g.without gone = g.without gone' := by
  have hlost : g.lost gone = g.lost gone' := by
    funext side e
    rw [lost, List.filter_congr h, lost]
  have hlinks : g.links.filter (!gone ·) = g.links.filter (!gone' ·) :=
    List.filter_congr fun l hl ↦ by rw [h l hl]
  rw [without, hlost, hlinks, without]

/-- Nothing changes when no link goes. -/
theorem without_eq_self (h : ∀ l ∈ g.links, gone l = false) : g.without gone = g := by
  have hnone : g.links.filter gone = [] := List.filter_eq_nil_iff.mpr fun l hl ↦ by simp [h l hl]
  have hlinks : g.links.filter (!gone ·) = g.links :=
    List.filter_eq_self.mpr fun l hl ↦ by simp [h l hl]
  rw [without, hlinks]
  simp only [lost, hnone, List.countP_nil, Port.lose_zero]
  exact mapPorts_id g

/-- **It does not matter which links go first.** -/
theorem without_without (gone gone' : Link → Bool) (g : Graph β) :
    (g.without gone).without gone' = g.without fun l ↦ gone l || gone' l := by
  have hlost : ∀ side e, g.lost gone side e + (g.without gone).lost gone' side e =
      g.lost (fun l ↦ gone l || gone' l) side e := by
    intro side e
    rw [lost, lost, lost, without]
    induction g.links with
    | nil => rfl
    | cons l links ih =>
      cases hl : gone l <;> cases hl' : gone' l <;> simp [hl, hl', List.countP_cons] at ih ⊢ <;> omega
  have hports := mapPorts_mapPorts (g := g)
    (f := fun side e p ↦ p.lose side (g.lost gone side e)) (fun _ _ _ ↦ rfl)
    fun side e p ↦ p.lose side ((g.without gone).lost gone' side e)
  simp only [Port.lose_lose, hlost] at hports
  have hlinks : (g.links.filter (!gone ·)).filter (!gone' ·) =
      g.links.filter fun l ↦ !(gone l || gone' l) := by
    rw [List.filter_filter]
    exact List.filter_congr fun l _ ↦ by rw [Bool.not_or, Bool.and_comm]
  calc (g.without gone).without gone'
      = { (g.mapPorts fun side e p ↦ p.lose side (g.lost gone side e)).mapPorts
            fun side e p ↦ p.lose side ((g.without gone).lost gone' side e) with
          links := (g.links.filter (!gone ·)).filter (!gone' ·) } := rfl
    _ = g.without fun l ↦ gone l || gone' l := by rw [hports, hlinks, without]

/-- **Taking a link out** leaves the graph without it. -/
theorem WellLinked.dropLink_eq (h : g.WellLinked) (id : LinkId) :
    g.dropLink id = g.without fun l ↦ l.id = id := by
  rw [Graph.dropLink]
  cases hl : g.link? id with
  | none =>
    refine (without_eq_self fun l hm ↦ ?_).symm
    simpa using List.find?_eq_none.mp hl l hm
  | some l =>
    obtain ⟨hmem, rfl⟩ := link?_eq_some hl
    -- ids are distinct, so a port loses one link if it is an end of this one, and none otherwise
    have honly : g.links.filter (fun k ↦ k.id = l.id) = [l] := by
      have hsame : g.links.filter (fun k ↦ k.id = l.id) = g.links.filter (· = l) := by
        refine List.filter_congr fun k hk ↦ decide_eq_decide.mpr ?_
        exact ⟨List.inj_on_of_nodup_map h.ids_nodup hk hmem, congrArg Link.id⟩
      rw [hsame, List.filter_eq, List.count_eq_one_of_mem h.ids_nodup.of_map hmem]
      rfl
    have hlose : ∀ side e (p : Port), p.lose side (g.lost (fun k ↦ k.id = l.id) side e) =
        if e = l.place side then atEnd Port.detach side p else p := by
      intro side e p
      rw [lost, honly, List.countP_singleton]
      split
      · rename_i he
        rw [if_pos (of_decide_eq_true he).symm, Port.lose_one]
      · rename_i he
        rw [if_neg fun heq ↦ he (decide_eq_true heq.symm), Port.lose_zero]
    have hends := changeEnds_eq_mapPorts h.regular Port.detach_name l
    have hlinks : g.links.filter (fun k ↦ k.id ≠ l.id) = g.links.filter fun k ↦ !decide (k.id = l.id) :=
      List.filter_congr fun k _ ↦ decide_not
    rw [without, ← hlinks]
    simp only [hlose, ← hends]
    rfl

/-- **Taking links out one after the other** leaves the graph without them. -/
theorem WellLinked.foldl_dropLink_eq (h : g.WellLinked) (ids : List LinkId) :
    ids.foldl (fun g id ↦ g.dropLink id) g = g.without fun l ↦ l.id ∈ ids := by
  induction ids generalizing g with
  | nil => exact (without_eq_self fun l _ ↦ by simp).symm
  | cons id ids ih =>
    rw [List.foldl_cons, ih (h.dropLink id), h.dropLink_eq, without_without]
    exact without_congr fun l _ ↦ by simp

/-- A link is known by its id. -/
theorem WellLinked.of_id_mem (h : g.WellLinked) {test : Link → Bool} {l : Link} (hl : l ∈ g.links)
    (hid : l.id ∈ (g.links.filter test).map Link.id) : test l = true := by
  obtain ⟨l', hl', heq⟩ := List.mem_map.mp hid
  obtain ⟨hl', htest⟩ := List.mem_filter.mp hl'
  exact List.inj_on_of_nodup_map h.ids_nodup hl' hl heq ▸ htest

/-- **Taking out what touches a node** leaves the graph without it. -/
theorem WellLinked.dropLinksOf_eq (h : g.WellLinked) (name : String) :
    g.dropLinksOf name = g.without (·.touches name) := by
  rw [Graph.dropLinksOf, h.foldl_dropLink_eq]
  refine without_congr fun l hl ↦ ?_
  rw [Bool.eq_iff_iff, decide_eq_true_eq]
  exact ⟨h.of_id_mem hl, fun ht ↦ List.mem_map_of_mem (List.mem_filter.mpr ⟨hl, ht⟩)⟩

end Graph
end PortGraph
