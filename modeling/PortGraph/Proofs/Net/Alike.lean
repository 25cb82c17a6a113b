import PortGraph.Proofs.Net.Progress

/-!
# Nodes and nets that do the same

What a node publishes depends on what can be read off its inputs and on the form of what it computes
with.  Two nodes that have these in common have one task (`Node.SameTask`), and if one of them
succeeds then so does the other, and they come out alike: with the same values on all outputs, at
every depth (`Behaviour.follows`).  It does not matter which values were on their outputs before,
what the nets are called that hold them, how deep these are, or which stamps their packets bear.

A net is told by its nodes.  If each of them has the task of a node that succeeded elsewhere, with
along its links what became of the others there, then a pass over the net succeeds, and its nodes
come out alike (`Net.IsLive.execute_rehearsed`).  That is how nets of one form are compared
(`Net.IsLive.execute_congr`), by induction on the levels of nesting.
-/

set_option autoImplicit false

namespace PortGraph

open PortGraph.Graph

/-- Lists that one map makes equal are made equal by others that only see what it leaves. -/
theorem map_eq_of_map_eq {α α' γ δ : Type} {f : α → γ} {f' : α' → γ} {G : α → δ} {G' : α' → δ}
    {l : List α} {l' : List α'} (h : l'.map f' = l.map f)
    (hG : ∀ a ∈ l, ∀ b ∈ l', f' b = f a → G' b = G a) : l'.map G' = l.map G := by
  induction l generalizing l' with
  | nil => rw [List.map_eq_nil_iff.mp (h.trans List.map_nil), List.map_nil, List.map_nil]
  | cons a l ih =>
    obtain ⟨b, l', rfl, hb, hl⟩ := List.map_eq_cons_iff.mp (h.trans List.map_cons)
    rw [List.map_cons, List.map_cons, hG a List.mem_cons_self b List.mem_cons_self hb,
      ih hl fun a ha b hb ↦ hG a (List.mem_cons_of_mem _ ha) b (List.mem_cons_of_mem _ hb)]

/-! ## Ports -/

/-- The port as it was made, with its value. -/
def Port.published (p : Port) : Port :=
  { p.declared with stored := p.stored.map Packet.unstamped }

namespace Port

variable {p q : Port}

theorem map_value_unstamped (packet : Option Packet) :
    (packet.map Packet.unstamped).map Packet.value = packet.map Packet.value := by
  cases packet <;> rfl

theorem map_unstamped_eq_iff {x y : Option Packet} :
    x.map Packet.unstamped = y.map Packet.unstamped ↔ x.map Packet.value = y.map Packet.value := by
  refine ⟨fun h ↦ ?_, fun h ↦ ?_⟩
  · rw [← map_value_unstamped, h, map_value_unstamped]
  · have hmap := congrArg (Option.map fun v : Value ↦ (⟨v, 0⟩ : Packet)) h
    rwa [Option.map_map, Option.map_map] at hmap

/-- The form and the value make the outcome. -/
theorem outcome_congr (hform : q.form = p.form) (h : q.published = p.published) :
    q.outcome = p.outcome := by
  have hstored : q.stored.map Packet.unstamped = p.stored.map Packet.unstamped :=
    congrArg Port.stored h
  rw [outcome, outcome, hform, hstored]

/-- The outcome has the value. -/
theorem published_outcome (p : Port) : p.outcome.published = p.published := by
  simp only [published, outcome, form, declared, Option.map_map]
  rfl

/-- Inputs read alike when the same value is read off them, and links end at both or at none. -/
theorem reading_congr (hd : q.declared = p.declared) (hl : q.isLinked = p.isLinked)
    (h : q.data.map Packet.value = p.data.map Packet.value) : q.reading = p.reading := by
  have hnone : q.data.isNone = p.data.isNone := by
    have hmap := congrArg Option.isNone h
    rwa [Option.isNone_map, Option.isNone_map] at hmap
  rw [reading, reading, isStarved, isStarved, hd, hl, hnone, h]

/-- An input along whose link a value arrived reads like one without a link that holds it. -/
theorem reading_eq_of_arrived (hd : q.declared = p.declared) (hfree : p.isLinked = false)
    (harrived : q.isLinked = true → q.data.isSome = true)
    (h : q.data.map Packet.value = p.data.map Packet.value) : q.reading = p.reading := by
  have hstarved : q.isStarved = false := by
    rw [isStarved, Bool.and_eq_false_imp]
    intro hlinked
    rw [← Option.not_isSome, harrived hlinked, Bool.not_true]
  have hstarved' : p.isStarved = false := by rw [isStarved, hfree, Bool.false_and]
  rw [reading, reading, hd, h, hstarved, hstarved']

end Port

/-! ## Nodes -/

/-- **The second node has the task of the first**: it reads the same off its inputs, has the same
outputs and computes with the same. -/
structure Node.SameTask (n m : Node Behaviour) : Prop where
  /-- The inputs read alike. -/
  inputs : m.panel.inputs.map Port.reading = n.panel.inputs.map Port.reading
  /-- The outputs are made alike. -/
  outputs : m.panel.outputs.map Port.declared = n.panel.outputs.map Port.declared
  /-- What is behind the panel has the same form. -/
  behaviour : m.behaviour.through .form = n.behaviour.through .form

/-- **The second node has come out like the first**: the same values are on its outputs, and on
those of all nodes in it. -/
structure Node.Alike (n m : Node Behaviour) : Prop where
  /-- The outputs hold the same values. -/
  outputs : m.panel.outputs.map Port.published = n.panel.outputs.map Port.published
  /-- So do those behind the panel. -/
  behaviour : m.behaviour.through .outcome = n.behaviour.through .outcome

/-- The value that the output of a name holds. -/
def Node.output? (n : Node Behaviour) (name : String) : Option Value :=
  ((n.panel.port? .output name).bind Port.stored).map Packet.value

theorem Node.Alike.output?_eq {n m : Node Behaviour} (h : n.Alike m) (name : String) :
    m.output? name = n.output? name := by
  have houtput : ∀ n : Node Behaviour, n.output? name =
      ((Port.named? name (n.panel.outputs.map Port.published)).bind Port.stored).map
        Packet.value := by
    intro n
    rw [Port.named?_map (f := Port.published) fun _ ↦ rfl, output?, Panel.port?, Panel.ports,
      Option.bind_map]
    cases Port.named? name n.panel.outputs with
    | none => rfl
    | some p => exact (Port.map_value_unstamped p.stored).symm
  rw [houtput, h.outputs, ← houtput]

/-- Nodes of one form that came out alike have one outcome. -/
theorem Node.Alike.outcome_eq {n m : Node Behaviour} (h : n.Alike m)
    (hform : m.through .form = n.through .form) : m.through .outcome = n.through .outcome := by
  obtain ⟨hpanel, -⟩ := Node.through_eq_iff.mp hform
  have htype : m.panel.typeName = n.panel.typeName := congrArg (·.typeName) hpanel
  have hinputs : m.panel.inputs.map Port.form = n.panel.inputs.map Port.form :=
    Panel.ports_form_eq hpanel .input
  have houtputs : m.panel.outputs.map Port.outcome = n.panel.outputs.map Port.outcome := by
    have hboth : m.panel.outputs.map (fun p ↦ (p.form, p.published)) =
        n.panel.outputs.map fun p ↦ (p.form, p.published) := by
      rw [← List.zip_map', ← List.zip_map', h.outputs]
      exact congrArg (List.zip · _) (Panel.ports_form_eq hpanel .output)
    refine map_eq_of_map_eq hboth fun p _ q _ hpq ↦ ?_
    exact Port.outcome_congr (congrArg Prod.fst hpq) (congrArg Prod.snd hpq)
  refine Node.through_eq_iff.mpr ⟨?_, h.behaviour⟩
  rw [Panel.through, Panel.through, htype, hinputs]
  exact congrArg (fun outputs ↦ (⟨"", n.panel.typeName, n.panel.inputs.map Port.form, outputs, false,
    none⟩ : Panel)) houtputs

namespace Net

variable {g k : Net}

/-- What a lens shows of a port of a net. -/
def seen (lens : Lens) : Direction → Port → Port
  | .input => Port.form
  | .output => lens.output

theorem node?_through (lens : Lens) (g : Net) (name : String) :
    (through lens g).node? name = (g.node? name).map (Node.through lens) := by
  rw [Graph.node?, through, List.find?_map, Option.map_map, Graph.node?, Option.map_map]
  rfl

theorem port?_through {lens : Lens} (hname : ∀ p, (lens.output p).name = p.name) (g : Net)
    (side : Direction) (e : Endpoint) :
    (through lens g).port? side e = (g.port? side e).map (seen lens side) := by
  have hports : ∀ n : Node Behaviour, (n.through lens).panel.port? side e.port =
      (n.panel.port? side e.port).map (seen lens side) := by
    intro n
    cases side with
    | input => exact Port.named?_map Port.form_name
    | output => exact Port.named?_map hname
  rw [Graph.port?, node?_through, Option.bind_map, Graph.port?, Option.map_bind]
  exact congrArg (Option.bind _) (funext hports)

/-- The ports of nets of one form come in pairs. -/
theorem port?_form_eq (h : through .form k = through .form g) (side : Direction) (e : Endpoint) :
    (k.port? side e).map Port.form = (g.port? side e).map Port.form := by
  have hseen : ∀ j : Net, (j.port? side e).map Port.form = (through .form j).port? side e := by
    intro j
    rw [port?_through Port.form_name]
    cases side <;> rfl
  rw [hseen, hseen, h]

/-- Nets of one outcome hold the same values. -/
theorem held_outcome_eq (h : through .outcome k = through .outcome g) (e : Endpoint) :
    (k.held e).map Packet.unstamped = (g.held e).map Packet.unstamped := by
  have hheld : ∀ j : Net, (j.held e).map Packet.unstamped = (through .outcome j).held e := by
    intro j
    rw [held, held, port?_through fun _ ↦ rfl, Option.bind_map, Option.map_bind]
    rfl
  rw [hheld, hheld, h]

/-- **Nets of one form whose nodes came out alike have one outcome.** -/
theorem outcome_eq_of_alike (h : through .form k = through .form g)
    (halike : ∀ r ∈ g.slots, ∀ s ∈ k.slots, r.key = s.key → r.node.Alike s.node) :
    through .outcome k = through .outcome g := by
  have hlinks : k.links.map Link.unnumbered = g.links.map Link.unnumbered := congrArg Graph.links h
  have hslots : k.slots.map (fun s ↦ (⟨s.key, s.node.through .outcome⟩ : Slot Behaviour)) =
      g.slots.map fun s ↦ ⟨s.key, s.node.through .outcome⟩ := by
    refine map_eq_of_map_eq (show k.slots.map (fun s ↦ (⟨s.key, s.node.through .form⟩ :
      Slot Behaviour)) = g.slots.map fun s ↦ ⟨s.key, s.node.through .form⟩ from
        congrArg Graph.slots h) fun r hr s hs hsr ↦ ?_
    obtain ⟨hkey, hnode⟩ := Slot.mk.inj hsr
    rw [hkey, (halike r hr s hs hkey.symm).outcome_eq hnode]
  rw [through, through, hlinks, hslots]

/-- Nodes of nets of one outcome are alike. -/
theorem exists_alike_of_outcome_eq (h : through .outcome k = through .outcome g)
    {s : Slot Behaviour} (hs : s ∈ k.slots) : ∃ r ∈ g.slots, r.key = s.key ∧ r.node.Alike s.node := by
  obtain ⟨r, hr, hkey, hnode⟩ := exists_slot_of_form_eq h hs
  obtain ⟨hpanel, hbehaviour⟩ := Node.through_eq_iff.mp hnode
  refine ⟨r, hr, hkey, ?_, hbehaviour.symm⟩
  have houtputs : r.node.panel.outputs.map Port.outcome = s.node.panel.outputs.map Port.outcome :=
    congrArg Panel.outputs hpanel
  refine map_eq_of_map_eq houtputs.symm fun p _ q _ hpq ↦ ?_
  rw [← Port.published_outcome, hpq, Port.published_outcome]

theorem map_value_held (g : Net) (e : Endpoint) :
    (g.held e).map Packet.value = (g.node? e.node).bind (·.output? e.port) := by
  rw [held, Graph.port?, Option.bind_assoc, Option.map_bind]
  rfl

/-- Nets of one form have links between the same ports. -/
theorem map_ends_form_eq (h : through .form k = through .form g) :
    k.links.map (fun l ↦ (l.source, l.target)) = g.links.map fun l ↦ (l.source, l.target) := by
  have hlinks : k.links.map Link.unnumbered = g.links.map Link.unnumbered := congrArg Graph.links h
  have hmap := congrArg (List.map fun l : Link ↦ (l.source, l.target)) hlinks
  rwa [List.map_map, List.map_map] at hmap

/-- **Nodes that are handed over have one task** if they are made alike, links from the same outputs
lead to both and bring the same values, and their inputs without links read alike. -/
theorem sameTask_supplied (hg : g.WellLinked) (hk : k.WellLinked) {r s : Slot Behaviour}
    (hr : r ∈ g.slots) (hs : s ∈ k.slots) (hkey : r.key = s.key)
    (hports : ∀ side, (s.node.panel.ports side).map Port.declared =
      (r.node.panel.ports side).map Port.declared)
    (hbehaviour : s.node.behaviour.through .form = r.node.behaviour.through .form)
    (hlinks : ∀ ends, ends ∈ k.links.map (fun l ↦ (l.source, l.target)) ↔
      ends ∈ g.links.map fun l ↦ (l.source, l.target))
    (hopen : ∀ e p q, g.port? .input e = some p → k.port? .input e = some q → q.isLinked = false →
      q.data.map Packet.value = p.data.map Packet.value)
    {read read' : Endpoint → Option Packet}
    (hread : ∀ l ∈ k.links, l.target.node = s.key →
      (read' l.source).map Packet.value = (read l.source).map Packet.value) :
    (r.supplied g.links read).SameTask (s.supplied k.links read') := by
  refine ⟨?_, hports .output, hbehaviour⟩
  rw [Slot.supplied, Slot.supplied, Node.mapPanel, Node.mapPanel, List.map_map, List.map_map]
  refine map_eq_of_map_eq (hports .input) fun p hp q hq hpq ↦ ?_
  have hname : q.name = p.name := congrArg (·.name) hpq
  have hplace : (⟨r.key, p.name⟩ : Endpoint) = ⟨s.key, q.name⟩ := by rw [hkey, hname]
  have hport : g.port? .input ⟨s.key, q.name⟩ = some p := hplace ▸ hg.input?_of_mem hr hp
  have hport' := hk.input?_of_mem hs hq
  rw [Function.comp_apply, Function.comp_apply]
  rcases hk.supplied_cases hs hq read' with ⟨hlq, l, hl, ht, -, heq⟩ | ⟨hfree, heq⟩
  · -- a link from the same output leads to both
    obtain ⟨l', hl', hll⟩ := List.mem_map.mp ((hlinks _).mp (List.mem_map_of_mem hl))
    obtain ⟨hsource, htarget⟩ := Prod.mk.inj hll
    have hlp : p.isLinked = true := (hg.isLinked_iff hport).mpr ⟨l', hl', htarget.trans ht⟩
    rw [heq, Port.supplied_of_mem (hg.once _) hl' (htarget.trans (ht.trans hplace.symm)), hsource]
    refine Port.reading_congr (by rwa [Port.declared_store, Port.declared_store])
      (hlq.trans hlp.symm) ?_
    rw [Port.data_store_of_isLinked hlq, Port.data_store_of_isLinked hlp,
      hread l hl (congrArg Endpoint.node ht)]
  · rcases hg.supplied_cases hr hp read with ⟨-, l', hl', ht', -⟩ | ⟨hfree', heq'⟩
    · obtain ⟨l, hl, hll⟩ := List.mem_map.mp ((hlinks _).mpr (List.mem_map_of_mem hl'))
      have hlq : q.isLinked = true := (hk.isLinked_iff hport').mpr
        ⟨l, hl, (Prod.mk.inj hll).2.trans (ht'.trans hplace)⟩
      exact absurd (hlq.symm.trans hfree) (by simp)
    · rw [heq, heq']
      exact Port.reading_congr hpq (hfree.trans hfree'.symm) (hopen _ p q hport hport' hfree)

/-! ## Rehearsed nets -/

/-- **Every node of the net has been rehearsed**: a node with its task has succeeded elsewhere.  Its
task is what it has when along its links comes what became of the others there, which `done` says. -/
def Rehearsed (k : Net) (done : String → Option (Node Behaviour)) : Prop :=
  ∀ s ∈ k.slots, ∃ (level : Nat) (n n' : Node Behaviour) (stamp : Nat), n.IsLive level ∧
    ((Behaviour.life (level + 1)).execute n stamp).result = (.ok (), n') ∧ done s.key = some n' ∧
    ∀ read : Endpoint → Option Packet,
      (∀ l ∈ k.links, l.target.node = s.key →
        (read l.source).map Packet.value =
          (done l.source.node).bind (·.output? l.source.port)) →
      n.SameTask (s.supplied k.links read)

end Net

/-- Nodes that are live at a level follow all that have the same task. -/
def Behaviour.FollowsAt (level : Nat) : Prop :=
  ∀ {n m n' : Node Behaviour} {level' stamp : Nat}, n.SameTask m → n.IsLive level' →
    m.IsLive level → ((Behaviour.life (level' + 1)).execute n stamp).result = (.ok (), n') →
    ∀ stamp', ((Behaviour.life (level + 1)).execute m stamp').result.1 = .ok () ∧
      n'.Alike ((Behaviour.life (level + 1)).execute m stamp').result.2

namespace Net.IsLive

variable {level level' : Nat} {g g' k : Net} {done : String → Option (Node Behaviour)}

theorem execute_rehearsed_of (hfollow : Behaviour.FollowsAt level) (hk : k.IsLive level)
    (h : k.Rehearsed done) (stamp : Nat) :
    (Graph.execute (Behaviour.life (level + 1)) k stamp).result.1 = .ok () ∧
      ∀ s ∈ (Graph.execute (Behaviour.life (level + 1)) k stamp).result.2.slots,
        ∃ n, done s.key = some n ∧ n.Alike s.node := by
  have hprogress : Progresses (Behaviour.life (level + 1)) k
      fun key m ↦ ∃ n, done key = some n ∧ n.Alike m := by
    intro s hs j hskeleton hsources stamp
    obtain ⟨level', n, n', stamp', hn, hrun, hdone, htask⟩ := h s hs
    have hj := hk.wellLinked.of_skeleton_eq hskeleton
    have hread : ∀ l ∈ k.links, l.target.node = s.key → (j.held l.source).map Packet.value =
        (done l.source.node).bind (·.output? l.source.port) := by
      intro l hl ht
      obtain ⟨p, hp, -⟩ := hj.exists_source (links_of_skeleton_eq hskeleton ▸ hl)
      obtain ⟨m, hm, -⟩ := Option.bind_eq_some_iff.mp hp
      obtain ⟨m', hm', halike⟩ := hsources l hl ht m hm
      rw [Net.map_value_held, hm, hm', Option.bind_some, Option.bind_some, halike.output?_eq]
    obtain ⟨hok, halike⟩ := hfollow (htask j.held hread) hn (hk.supplied hs k.links j.held) hrun stamp
    exact ⟨hok, n', hdone, halike⟩
  exact hprogress.execute hk.wellLinked hk.plan hk.isReady (keepsOutline_life (level + 1)) stamp

/-- A net of the form of one that succeeded, and with the same values on the inputs that no link
touches, is rehearsed. -/
theorem rehearsed (hg : g.IsLive level') (hk : k.IsLive level)
    (hform : Net.through .form k = Net.through .form g)
    (hopen : ∀ e p q, g.port? .input e = some p → k.port? .input e = some q → q.isLinked = false →
      q.data.map Packet.value = p.data.map Packet.value) {stamp : Nat}
    (hok : (Graph.execute (Behaviour.life (level' + 1)) g stamp).result = (.ok (), g')) :
    k.Rehearsed g'.node? := by
  intro s hs
  obtain ⟨r, hr, hkey, hnode⟩ := Net.exists_slot_of_form_eq hform hs
  obtain ⟨hpanel, hbehaviour⟩ := Node.through_eq_iff.mp hnode
  obtain ⟨stamp', n', hrun, hn'⟩ := hg.wellLinked.settled_of_ok hg.plan hg.isReady
    (keepsOutline_life (level' + 1)) hok hr
  refine ⟨level', _, n', stamp', hg.supplied hr g.links g'.held, hrun, hkey ▸ hn', fun read hread ↦ ?_⟩
  refine Net.sameTask_supplied hg.wellLinked hk.wellLinked hr hs hkey
    (fun side ↦ (Panel.map_eq_of_form_eq Port.declared_form hpanel side).symm) hbehaviour.symm
    (fun ends ↦ by rw [Net.map_ends_form_eq hform]) hopen fun l hl ht ↦ ?_
  rw [hread l hl ht, Net.map_value_held]

theorem execute_congr_of (hfollow : Behaviour.FollowsAt level) (hg : g.IsLive level')
    (hk : k.IsLive level) (hform : Net.through .form k = Net.through .form g)
    (hopen : ∀ e p q, g.port? .input e = some p → k.port? .input e = some q → q.isLinked = false →
      q.data.map Packet.value = p.data.map Packet.value) {stamp : Nat}
    (hok : (Graph.execute (Behaviour.life (level' + 1)) g stamp).result = (.ok (), g'))
    (stamp' : Nat) :
    (Graph.execute (Behaviour.life (level + 1)) k stamp').result.1 = .ok () ∧
      Net.through .outcome (Graph.execute (Behaviour.life (level + 1)) k stamp').result.2 =
        Net.through .outcome g' := by
  obtain ⟨hsuccess, halike⟩ := hk.execute_rehearsed_of hfollow (hg.rehearsed hk hform hopen hok) stamp'
  have hg' := hg.execute stamp
  have hgform := Net.form_execute (level' + 1) g stamp
  rw [hok] at hg' hgform
  refine ⟨hsuccess, ?_⟩
  have hkform := ((Net.form_execute (level + 1) k stamp').trans hform).trans hgform.symm
  refine Net.outcome_eq_of_alike hkform fun r hr s hs hkey ↦ ?_
  obtain ⟨n, hn, hns⟩ := halike s hs
  rw [← hkey, hg'.wellLinked.node?_of_mem hr, Option.some.injEq] at hn
  exact hn ▸ hns

end Net.IsLive

/-! ## Nodes that hold nets -/

/-- What nets were fed alike hold the same on the inputs that no link touches. -/
theorem Panel.Feeds.data_eq {panel panel' : Panel} {places : List Endpoint} {g k : Net}
    (hnd : places.Nodup) (h : panel.Feeds places g) (h' : panel'.Feeds places k)
    (hread : panel'.inputs.map Port.reading = panel.inputs.map Port.reading)
    (hform : Net.through .form k = Net.through .form g) {e : Endpoint} {p q : Port}
    (hp : g.port? .input e = some p) (hq : k.port? .input e = some q)
    (hfree : q.isLinked = false) : q.data.map Packet.value = p.data.map Packet.value := by
  have hpq := Net.port?_form_eq hform .input e
  rw [hp, hq, Option.map_some, Option.map_some, Option.some.injEq] at hpq
  have hfree' : p.isLinked = false := (congrArg Port.isLinked hpq).symm.trans hfree
  obtain ⟨i, o, ho, hi, -, hexposed, hstored⟩ := h e p hp hfree'
  obtain ⟨j, o', ho', hj, -, hexposed', hstored'⟩ := h' e q hq hfree
  obtain rfl : i = j :=
    (List.getElem?_inj (List.getElem?_eq_some_iff.mp hi).1 hnd).mp (hi.trans hj.symm)
  have hreading : o'.reading = o.reading := by
    have hat := congrArg (·[i]?) hread
    simpa only [List.getElem?_map, ho, ho', Option.map_some, Option.some.injEq] using hat
  rw [Port.data_of_isExposed hexposed, Port.data_of_isExposed hexposed', hstored, hstored']
  exact congrArg Reading.value hreading

/-- The nets in two nodes are fed alike if their panels read alike. -/
theorem Panel.Feeds.alike {panel panel' : Panel} {inputs outputs : List Endpoint}
    {g fed fed' : Net} (hmirrors : panel.Mirrors g inputs outputs) (hfed : fed.WellLinked)
    (hseen : Net.through .form fed = Net.through .form g)
    (hseen' : Net.through .form fed' = Net.through .form g) (h : panel.Feeds inputs fed)
    (h' : panel'.Feeds inputs fed')
    (hread : panel'.inputs.map Port.reading = panel.inputs.map Port.reading) :
    Net.through .form fed' = Net.through .form fed ∧
      ∀ e p q, fed.port? .input e = some p → fed'.port? .input e = some q → q.isLinked = false →
        q.data.map Packet.value = p.data.map Packet.value := by
  have hsame := hseen'.trans hseen.symm
  have hnd : inputs.Nodup := by
    rw [hmirrors.inputPlaces, ← Net.openPorts_eq hseen .input]
    exact Net.nodup_openPorts hfed .input
  exact ⟨hsame, fun _ _ _ hp hq hfree ↦ h.data_eq hnd h' hread hsame hp hq hfree⟩

/-- What is taken over from nets of one outcome is the same. -/
theorem Behaviour.takeOver_congr {g k : Net} (hg : g.WellLinked) (hgb : g.IsBuiltin)
    (hk : k.WellLinked) (hkb : k.IsBuiltin) {ports ports' : List Port} {places : List Endpoint}
    (hlength : ports.length = places.length)
    (hports : ports'.map Port.declared = ports.map Port.declared)
    (h : Net.through .outcome k = Net.through .outcome g) :
    (takeOver k ports' places).map Port.published = (takeOver g ports places).map Port.published := by
  have hlength' : ports'.length = places.length := by
    rw [← hlength, ← List.length_map Port.declared, hports, List.length_map]
  have hmap : ∀ (j : Net) (ports : List Port),
      (List.zipWith (fun p e ↦ p.store (j.held e)) ports places).map Port.published =
      List.zipWith (fun (p : Port) e ↦ { p with stored := (j.held e).map Packet.unstamped })
        (ports.map Port.declared) places := by
    intro j ports
    rw [List.map_zipWith, List.zipWith_map_left]
    rfl
  rw [takeOver_held hk hkb hlength', takeOver_held hg hgb hlength, hmap, hmap, hports]
  simp only [Net.held_outcome_eq h]

/-- A node behind whose panel the same operation is comes out alike: its result is one of what the
inputs read. -/
theorem Behaviour.follows_operation {level level' stamp : Nat} {n m n' : Node Behaviour}
    {op : Operation} (htask : n.SameTask m) (hb : n.behaviour = .operation op)
    (hn : op.Declares n.panel) (hm : m.IsLive level)
    (hok : ((life (level' + 1)).execute n stamp).result = (.ok (), n')) (stamp' : Nat) :
    ((life (level + 1)).execute m stamp').result.1 = .ok () ∧
      n'.Alike ((life (level + 1)).execute m stamp').result.2 := by
  have hbm : m.behaviour = .operation op :=
    eq_operation_of_form_eq (htask.behaviour.trans (congrArg (through .form) hb))
  have hvalue : m.panel.value? = n.panel.value? :=
    funext fun name ↦ Panel.value?_congr htask.inputs name
  have hstarved : m.panel.isStarved = n.panel.isStarved :=
    funext fun name ↦ Panel.isStarved_congr htask.inputs name
  rw [execute_operation hb] at hok
  rw [execute_operation hbm]
  rcases op.execute_spec hn stamp with ⟨-, e, heq⟩ | ⟨packet, hsome, heq⟩
  · rw [heq] at hok
    exact absurd hok (by simp)
  · rw [heq] at hok
    obtain rfl := (Prod.mk.inj hok).2
    rcases op.execute_spec (hm.isBuiltin.declares hbm) stamp' with
      ⟨hnone, -⟩ | ⟨packet', hsome', heq'⟩
    · rw [hvalue, hstarved, hsome] at hnone
      exact absurd hnone (by simp)
    · rw [heq']
      have hpacket : packet'.unstamped = packet.unstamped := by
        rw [hvalue, hstarved, hsome, Option.some.injEq] at hsome'
        rw [Packet.unstamped, Packet.unstamped, hsome']
      refine ⟨rfl, ?_, rfl⟩
      have hmap : ∀ (ports : List Port) (packet : Packet),
          (ports.map (·.store (some packet))).map Port.published =
            (ports.map Port.declared).map
              fun p ↦ { p with stored := some packet.unstamped } := by
        intro ports packet
        rw [List.map_map, List.map_map]
        rfl
      rw [hmap, hmap, htask.outputs, hpacket]

/-- **Nodes with one task come out alike** if one of them succeeds. -/
theorem Behaviour.follows (level : Nat) : FollowsAt level := by
  -- a net in a node of one level is executed by nodes of the level below
  induction level using Nat.strong_induction_on with
  | _ level ih =>
    intro n m n' level' stamp htask hn hm hok stamp'
    cases hn.isBuiltin with
    | operation hb h => exact follows_operation htask hb h hm hok stamp'
    | @nested _ g inputs outputs hb hmirrors _ =>
      obtain ⟨k, hbm, hform⟩ :=
        eq_nested_of_form_eq (htask.behaviour.trans (congrArg (through .form) hb))
      obtain ⟨inner, fed, rfl, hfed, hfeeds, hseen, hleft⟩ := hn.execute_nested hb stamp
      obtain ⟨inner', fed', rfl, hfed', hfeeds', hseen', hright⟩ := hm.execute_nested hbm stamp'
      rcases hleft with ⟨e, _, -, herr⟩ | ⟨j, hrun, hj, hjm, heq⟩
      · rw [hok] at herr
        exact absurd herr (by simp)
      obtain rfl := (Prod.mk.inj (hok.symm.trans heq)).2
      obtain ⟨hsame, hdata⟩ := hfeeds.alike hmirrors hfed.wellLinked (hseen .form)
        ((hseen' .form).trans hform) hfeeds' htask.inputs
      obtain ⟨hsuccess, houtcome⟩ := hfed.execute_congr_of (ih inner' (Nat.lt_succ_self inner')) hfed'
        hsame hdata hrun stamp'
      rcases hright with ⟨e, k', hrun', -⟩ | ⟨j', hrun', hj', -, heq'⟩
      · rw [hrun'] at hsuccess
        exact absurd hsuccess (by simp)
      · rw [hrun'] at houtcome
        rw [heq']
        have hlength : n.panel.outputs.length = outputs.length := by
          rw [hjm.outputPlaces, List.length_map]
          exact (hjm.forall₂ .output).length_eq
        refine ⟨rfl, takeOver_congr hj.wellLinked hj.isBuiltin hj'.wellLinked hj'.isBuiltin hlength
          htask.outputs houtcome, ?_⟩
        rw [through_nested, through_nested, houtcome]

namespace Net.IsLive

variable {level level' : Nat} {g g' k : Net} {done : String → Option (Node Behaviour)}

/-- **A pass over a net that was rehearsed succeeds**, and its nodes come out as in the rehearsal. -/
theorem execute_rehearsed (hk : k.IsLive level) (h : k.Rehearsed done) (stamp : Nat) :
    (Graph.execute (Behaviour.life (level + 1)) k stamp).result.1 = .ok () ∧
      ∀ s ∈ (Graph.execute (Behaviour.life (level + 1)) k stamp).result.2.slots,
        ∃ n, done s.key = some n ∧ n.Alike s.node :=
  hk.execute_rehearsed_of (Behaviour.follows level) h stamp

/-- **Nets of one form that hold the same values on the inputs that no link touches have one
outcome**, if one of them succeeds. -/
theorem execute_congr (hg : g.IsLive level') (hk : k.IsLive level)
    (hform : Net.through .form k = Net.through .form g)
    (hopen : ∀ e p q, g.port? .input e = some p → k.port? .input e = some q → q.isLinked = false →
      q.data.map Packet.value = p.data.map Packet.value) {stamp : Nat}
    (hok : (Graph.execute (Behaviour.life (level' + 1)) g stamp).result = (.ok (), g'))
    (stamp' : Nat) :
    (Graph.execute (Behaviour.life (level + 1)) k stamp').result.1 = .ok () ∧
      Net.through .outcome (Graph.execute (Behaviour.life (level + 1)) k stamp').result.2 =
        Net.through .outcome g' :=
  hg.execute_congr_of (Behaviour.follows level) hk hform hopen hok stamp'

end Net.IsLive

end PortGraph
